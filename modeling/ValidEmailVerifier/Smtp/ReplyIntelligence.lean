/-
# `Smtp.ReplyIntelligence` — from a reply to a verdict

`classifySMTPRcptReply` and `classifySMTPSessionReply`.  The policy engine is asked
first; when it is off or has no rule for the reply, the reply code decides, and
there a verdict is permanent only from 500 on.
-/
import ValidEmailVerifier.Smtp.ReplyPolicy

namespace ValidEmailVerifier.Smtp

open GoStrings Worker

/-! ## Texts of a reply -/

/-- The commands of a session whose replies are classified. -/
inductive Command where
  | banner | ehlo | helo | mailFrom | rcptTo
  deriving DecidableEq, Repr

def policyKeywords : List Text :=
  ["policy".toList, "blocked".toList, "blocklist".toList, "spam".toList, "denied".toList,
    "forbidden".toList, "authentication".toList, "auth".toList]

/-- With an enhanced code of `4.7.` and without one, only the message tells. -/
def isPolicyBlockedReply (reply : SmtpReply Text) : Bool :=
  hasPrefix (toLower (trimSpace reply.enhancedCode)) "5.7.".toList ||
    containsAny (toLower reply.message) policyKeywords

def isMailboxUndeliverableReply (reply : SmtpReply Text) : Bool :=
  hasPrefixAny (toLower (trimSpace reply.enhancedCode))
      ["5.1.1".toList, "5.1.10".toList, "5.2.".toList] ||
    containsAny (toLower reply.message)
      ["user unknown".toList, "no such user".toList, "mailbox unavailable".toList,
        "recipient address rejected".toList, "unknown recipient".toList,
        "does not exist".toList] ||
    [550, 551, 553].contains reply.code

def detectSMTPProviderProfile (providerHint host message : Text) : Text :=
  let hint := toLower (trimSpace providerHint)
  let combined := toLower (host ++ ' ' :: message)
  if hint ≠ [] ∧ hint ≠ "default".toList then hint
  else if contains combined "google".toList || contains combined "gmail".toList then
    "gmail".toList
  else if contains combined "outlook".toList || contains combined "hotmail".toList ||
      contains combined "microsoft".toList then "microsoft".toList
  else if contains combined "yahoo".toList then "yahoo".toList
  else "generic".toList

/-! ## Verdicts -/

def retryStrategyForDecision (decisionClass : DecisionClass) (reasonCode : Text)
    (reply : SmtpReply Text) : Text :=
  match decisionClass with
  | .deliverable | .undeliverable => "none".toList
  | .policyBlocked => "policy_delay".toList
  | .retryable | .unknown =>
      if contains (toLower (trimSpace reply.message)) "greylist".toList ||
          hasPrefix (toLower (trimSpace reply.enhancedCode)) "4.7.".toList ||
          contains (toLower (trimSpace reasonCode)) "greylist".toList then "greylist".toList
      else "tempfail".toList

def decisionConfidenceFor (decisionClass : DecisionClass) (reply : SmtpReply Text) : Text :=
  match decisionClass with
  | .deliverable => if 200 ≤ reply.code ∧ reply.code < 300 then "high".toList
      else "medium".toList
  | .undeliverable => if 500 ≤ reply.code then "high".toList else "medium".toList
  | .policyBlocked => "medium".toList
  | .retryable =>
      if hasPrefix (toLower (trimSpace reply.enhancedCode)) "4.7.".toList then
        "medium".toList
      else "low".toList
  | .unknown => "low".toList

def normalizedEvidenceStrength (value : Text) : Text :=
  let value := toLower (trimSpace value)
  if value ∈ ["low".toList, "medium".toList, "high".toList] then value else "low".toList

/-- `smtpResult` without options. -/
def smtpResult (category : Category) (reason reasonCode reasonTag : Text)
    (decisionClass : DecisionClass) (reply : SmtpReply Text) (profile : Text)
    (retryAfter : Int) : Result :=
  let reasonTag :=
    if trimSpace reasonTag = [] ∧ decisionClass ≠ .deliverable then
      inferRuleTag reasonCode (some decisionClass)
    else reasonTag
  let confidence := normalizedEvidenceStrength (decisionConfidenceFor decisionClass reply)
  { category := category
    reason := reason
    reasonCode := reasonCode
    reasonTag := reasonTag
    decisionClass := decisionClass
    smtpCode := reply.code
    enhancedCode := reply.enhancedCode
    providerProfile := profile
    retryAfterSecond := retryAfter
    decisionConfidence := confidence
    evidenceStrength := confidence
    retryStrategy := retryStrategyForDecision decisionClass reasonCode reply
    evidence :=
      { reasonCode := reasonCode
        reasonTag := reasonTag
        evidenceStrength := confidence
        smtpCode := reply.code
        enhancedCode := reply.enhancedCode
        providerProfile := profile
        decisionClass := decisionClass
        confidenceHint := confidence } }

/-- The name of a decision class. -/
def DecisionClass.name : DecisionClass → Text
  | .deliverable => "deliverable".toList
  | .undeliverable => "undeliverable".toList
  | .retryable => "retryable".toList
  | .policyBlocked => "policy_blocked".toList
  | .unknown => "unknown".toList

/-- `withPolicyContext`. -/
def withPolicyContext (engine : ProviderReplyPolicyEngine) (rule : ProviderReplyRule)
    (result : Result) : Result :=
  let ruleId := trimSpace rule.ruleId
  let ruleId := if ruleId = [] then trimSpace rule.reasonCode else ruleId
  let ruleId := if ruleId = [] then (rule.decisionClass.map DecisionClass.name).getD []
    else ruleId
  let tag := trimSpace rule.ruleTag
  { result with
    policyVersion := trimSpace engine.version
    matchedRuleId := ruleId
    reasonTag := if tag = [] then result.reasonTag else tag
    evidence :=
      { result.evidence with
        reasonTag := if tag = [] then result.evidence.reasonTag else tag } }

/-- `withConfidenceHint`. -/
def withConfidenceHint (value : Text) (result : Result) : Result :=
  let value := toLower (trimSpace value)
  if value ∈ ["low".toList, "medium".toList, "high".toList] then
    { result with
      decisionConfidence := value
      evidenceStrength := value
      evidence := { result.evidence with confidenceHint := value, evidenceStrength := value } }
  else result

/-- The category, the reason, its code and the decision class of a rule, blank
ones filled in; for `MAIL FROM` no rule rules the address out. -/
def ruleVerdict (command : Command) (rule : ProviderReplyRule) :
    Category × Text × Text × DecisionClass :=
  let category := rule.category.getD .risky
  let reason := trimSpace rule.reason
  let reasonCode := trimSpace rule.reasonCode
  let decisionClass := rule.decisionClass.getD .unknown
  if command = .mailFrom ∧ decisionClass = .undeliverable then
    (.risky, "smtp_tempfail".toList, "smtp_mailfrom_rejected".toList, .retryable)
  else
    (category, if reason = [] then "smtp_tempfail".toList else reason,
      if reasonCode = [] then "smtp_unknown".toList else reasonCode, decisionClass)

def classifySMTPWithPolicyEngine (command : Command) (reply : SmtpReply Text) (profile : Text)
    (engine : Option ProviderReplyPolicyEngine) (adaptiveRetryEnabled : Bool) :
    Option Result :=
  match engine with
  | none => none
  | some e =>
      if e.enabled = false then none
      else
        let replyProfile := lookupProviderReplyProfile engine profile
        match matchProviderReplyRule replyProfile reply with
        | none => none
        | some rule =>
            let (category, reason, reasonCode, decisionClass) := ruleVerdict command rule
            -- session-level commands do not force a valid terminal state
            if command ≠ .rcptTo ∧ category = .valid then none
            else
              let retryAfter :=
                if rule.retryAfterSecond ≤ 0 ∧ (decisionClass = .retryable ∨
                    decisionClass = .unknown ∨ decisionClass = .policyBlocked) then
                  resolveAdaptiveRetryDelay reply decisionClass replyProfile
                    adaptiveRetryEnabled
                else rule.retryAfterSecond
              some (withConfidenceHint (trimSpace rule.confidenceHint)
                (withPolicyContext e rule (smtpResult category reason reasonCode
                  (trimSpace rule.ruleTag) decisionClass reply profile retryAfter)))

/-! ## Classification -/

/-- The verdict on a reply of a catch-all host, or on one that must not be valid. -/
def catchAllResult (reply : SmtpReply Text) (profile : Text) : Result :=
  smtpResult .risky "catch_all".toList "catch_all".toList "rate_limit".toList .unknown reply
    profile 0

/-- The verdict on a transient reply, and on one whose code says nothing. -/
def transientResult (reasonCode : Text) (decisionClass : DecisionClass)
    (reply : SmtpReply Text) (profile : Text) (engine : Option ProviderReplyPolicyEngine)
    (adaptiveRetryEnabled : Bool) : Result :=
  smtpResult .risky "smtp_tempfail".toList reasonCode [] decisionClass reply profile
    (resolveAdaptiveRetryDelay reply decisionClass (lookupProviderReplyProfile engine profile)
      adaptiveRetryEnabled)

/-- The verdict on a reply that a policy blocked the probe. -/
def policyBlockedResult (reply : SmtpReply Text) (profile : Text) : Result :=
  smtpResult .risky "smtp_tempfail".toList "smtp_policy_blocked".toList
    "policy_blocked".toList .policyBlocked reply profile 0

/-- `classifySMTPRcptReply` when the engine has no rule for the reply. -/
def classifyRcptCode (reply : SmtpReply Text) (profile : Text) (allowValid : Bool)
    (engine : Option ProviderReplyPolicyEngine) (adaptiveRetryEnabled : Bool) : Result :=
  if 200 ≤ reply.code ∧ reply.code < 300 then
    if allowValid then
      smtpResult .valid "rcpt_ok".toList "rcpt_ok".toList [] .deliverable reply profile 0
    else catchAllResult reply profile
  else if 400 ≤ reply.code ∧ reply.code < 500 then
    transientResult "smtp_tempfail".toList .retryable reply profile engine
      adaptiveRetryEnabled
  else if 500 ≤ reply.code then
    if isPolicyBlockedReply reply then policyBlockedResult reply profile
    else
      smtpResult .invalid "rcpt_rejected".toList
        (if isMailboxUndeliverableReply reply then "mailbox_not_found".toList
          else "rcpt_rejected".toList)
        "mailbox_not_found".toList .undeliverable reply profile 0
  else
    transientResult "smtp_unknown".toList .unknown reply profile engine adaptiveRetryEnabled

def classifySMTPRcptReply (reply : SmtpReply Text) (providerHint host : Text)
    (allowValid : Bool) (engine : Option ProviderReplyPolicyEngine)
    (adaptiveRetryEnabled : Bool) : Result :=
  let profile := detectSMTPProviderProfile providerHint host reply.message
  match classifySMTPWithPolicyEngine .rcptTo reply profile engine adaptiveRetryEnabled with
  | some result =>
      if result.category = .valid ∧ allowValid = false then catchAllResult reply profile
      else result
  | none => classifyRcptCode reply profile allowValid engine adaptiveRetryEnabled

end ValidEmailVerifier.Smtp
