/-
# `Engine.Classification` — replies classified by a decoded engine

`classifySMTPSessionReply` and `classifySMTPRcptReply` of the worker over the engine as it
is decoded: its classes and categories are texts, and may be any.
-/
import ValidEmailVerifier.Engine.PolicyEngine

namespace ValidEmailVerifier.Engine

open GoStrings Worker
open Smtp (SmtpReply Command retryDelaySeconds normalizedEvidenceStrength isPolicyBlockedReply
  isMailboxUndeliverableReply detectSMTPProviderProfile ruleWords)

/-! ## Verdicts -/

/-- `ReplyEvidence`, as far as a reply fills it. -/
structure ReplyEvidence where
  reasonCode : Text
  reasonTag : Text
  evidenceStrength : Text
  smtpCode : Int
  enhancedCode : Text
  providerProfile : Text
  decisionClass : Text
  confidenceHint : Text
  deriving DecidableEq

/-- `Result`, as far as a reply fills it. -/
structure Result where
  category : Text
  reason : Text
  reasonCode : Text
  reasonTag : Text
  decisionClass : Text
  smtpCode : Int
  enhancedCode : Text
  providerProfile : Text
  retryAfterSecond : Int
  decisionConfidence : Text
  evidenceStrength : Text
  retryStrategy : Text
  policyVersion : Text := []
  matchedRuleId : Text := []
  evidence : ReplyEvidence
  deriving DecidableEq

def retryStrategyForDecision (decisionClass reasonCode : Text) (reply : SmtpReply Text) : Text :=
  if decisionClass ∈ ["deliverable".toList, "undeliverable".toList] then "none".toList
  else if decisionClass = "policy_blocked".toList then "policy_delay".toList
  else if decisionClass ∈ ["retryable".toList, "unknown".toList] then
    if contains (toLower (trimSpace reply.message)) "greylist".toList ||
        hasPrefix (toLower (trimSpace reply.enhancedCode)) "4.7.".toList ||
        contains (toLower (trimSpace reasonCode)) "greylist".toList then "greylist".toList
    else "tempfail".toList
  else "none".toList

def decisionConfidenceFor (decisionClass category : Text) (reply : SmtpReply Text) : Text :=
  if decisionClass = "deliverable".toList then
    if 200 ≤ reply.code ∧ reply.code < 300 then "high".toList else "medium".toList
  else if decisionClass = "undeliverable".toList then
    if 500 ≤ reply.code then "high".toList else "medium".toList
  else if decisionClass = "policy_blocked".toList then "medium".toList
  else if decisionClass = "retryable".toList then
    if hasPrefix (toLower (trimSpace reply.enhancedCode)) "4.7.".toList then "medium".toList
    else "low".toList
  else if decisionClass = "unknown".toList then "low".toList
  else if category ∈ ["valid".toList, "invalid".toList] then "medium".toList
  else "low".toList

/-- `smtpResult` without options. -/
def smtpResult (category reason reasonCode reasonTag decisionClass : Text)
    (reply : SmtpReply Text) (profile : Text) (retryAfter : Int) : Result :=
  let reasonTag :=
    if trimSpace reasonTag = [] ∧ trimSpace decisionClass ≠ "deliverable".toList then
      inferRuleTag reasonCode decisionClass
    else reasonTag
  let confidence :=
    normalizedEvidenceStrength (decisionConfidenceFor decisionClass category reply)
  { category := category
    reason := reason
    reasonCode := reasonCode
    reasonTag := reasonTag
    decisionClass := decisionClass
    smtpCode := reply.code
    enhancedCode := reply.enhancedCode
    providerProfile := profile
    retryAfterSecond := retryAfter
    decisionConfidence := confidence
    evidenceStrength := confidence
    retryStrategy := retryStrategyForDecision decisionClass reasonCode reply
    evidence :=
      { reasonCode := reasonCode
        reasonTag := reasonTag
        evidenceStrength := confidence
        smtpCode := reply.code
        enhancedCode := reply.enhancedCode
        providerProfile := profile
        decisionClass := decisionClass
        confidenceHint := confidence } }

/-- `withConfidenceHint`. -/
def withConfidenceHint (value : Text) (result : Result) : Result :=
  let value := toLower (trimSpace value)
  if value ∈ ["low".toList, "medium".toList, "high".toList] then
    { result with
      decisionConfidence := value
      evidenceStrength := value
      evidence := { result.evidence with confidenceHint := value, evidenceStrength := value } }
  else result

section

variable {F : Type} [Floats F]

/-- `withPolicyContext`. -/
def withPolicyContext (engine : ProviderReplyPolicyEngine F) (rule : ProviderReplyRule)
    (result : Result) : Result :=
  let ruleId := trimSpace rule.ruleId
  let ruleId := if ruleId = [] then trimSpace rule.reasonCode else ruleId
  let ruleId := if ruleId = [] then trimSpace rule.decisionClass else ruleId
  let tag := trimSpace rule.ruleTag
  { result with
    policyVersion := trimSpace engine.version
    matchedRuleId := ruleId
    reasonTag := if tag = [] then result.reasonTag else tag
    evidence :=
      { result.evidence with
        reasonTag := if tag = [] then result.evidence.reasonTag else tag } }

/-! ## Lookup and matching -/

/-- The generic profile of the default engine. -/
def fallbackProfile (F : Type) [Floats F] : ProviderReplyProfile :=
  ((defaultProviderReplyPolicyEngine :
    ProviderReplyPolicyEngine F).profiles["generic".toList]?).getD {}

def lookupProviderReplyProfile (engine : Option (ProviderReplyPolicyEngine F)) (provider : Text) :
    ProviderReplyProfile :=
  let provider := toLower (trimSpace provider)
  let provider := if provider = [] then "generic".toList else provider
  match engine with
  | none => fallbackProfile F
  | some engine =>
      if engine.profiles.isEmpty then fallbackProfile F
      else
        match engine.profiles[provider]? with
        | some profile => { profile with name := orBlank profile.name provider }
        | none =>
            let generic := engine.profiles["generic".toList]?.getD (fallbackProfile F)
            { generic with name := orBlank generic.name "generic".toList }

def matchProviderReplyRule (profile : ProviderReplyProfile) (reply : SmtpReply Text) :
    Option ProviderReplyRule :=
  let enhanced := toLower (trimSpace reply.enhancedCode)
  let message := toLower (trimSpace reply.message)
  profile.enhancedRules.find? (fun rule =>
      hasPrefixAny enhanced (ruleWords rule.enhancedPrefixes))
    <|> profile.smtpCodeRules.find? (fun rule =>
      (rule.smtpCodes.map Int64.toInt).contains reply.code)
    <|> profile.messageRules.find? (fun rule =>
      containsAny message (ruleWords rule.messageContains))

def resolveAdaptiveRetryDelay (reply : SmtpReply Text) (decisionClass : Text)
    (profile : ProviderReplyProfile) (adaptiveRetryEnabled : Bool) : Int :=
  if adaptiveRetryEnabled = false then retryDelaySeconds reply
  else
    let retry := normalizeRetryProfile profile.retry ⟨60, 90, 180, 300, 75⟩
    let message := toLower (trimSpace reply.message)
    let enhanced := toLower (trimSpace reply.enhancedCode)
    if contains message "greylist".toList || contains message "try again later".toList then
      retry.greylistSeconds.toInt
    else if hasPrefix enhanced "4.7.".toList then retry.greylistSeconds.toInt
    else if decisionClass = "retryable".toList then retry.tempfailSeconds.toInt
    else if decisionClass = "policy_blocked".toList then retry.policyBlockedSecond.toInt
    else if decisionClass = "unknown".toList then retry.unknownSeconds.toInt
    else retry.defaultSeconds.toInt

/-! ## Classification -/

/-- The value trimmed, or what stands in for a blank one. -/
def trimmedOr (value fallback : Text) : Text :=
  if trimSpace value = [] then fallback else trimSpace value

/-- The category, the reason, its code and the decision class of a rule, blank ones filled
in; for `MAIL FROM` no rule rules the address out. -/
def ruleVerdict (command : Command) (rule : ProviderReplyRule) : Text × Text × Text × Text :=
  let decisionClass := trimmedOr rule.decisionClass "unknown".toList
  if command = .mailFrom ∧ decisionClass = "undeliverable".toList then
    ("risky".toList, "smtp_tempfail".toList, "smtp_mailfrom_rejected".toList,
      "retryable".toList)
  else
    (trimmedOr rule.category "risky".toList, trimmedOr rule.reason "smtp_tempfail".toList,
      trimmedOr rule.reasonCode "smtp_unknown".toList, decisionClass)

def classifySMTPWithPolicyEngine (command : Command) (reply : SmtpReply Text) (profile : Text)
    (engine : Option (ProviderReplyPolicyEngine F)) (adaptiveRetryEnabled : Bool) :
    Option Result :=
  match engine with
  | none => none
  | some e =>
      if e.enabled = false then none
      else
        let replyProfile := lookupProviderReplyProfile engine profile
        match matchProviderReplyRule replyProfile reply with
        | none => none
        | some rule =>
            let (category, reason, reasonCode, decisionClass) := ruleVerdict command rule
            -- session-level commands do not force a valid terminal state
            if command ≠ .rcptTo ∧ category = "valid".toList then none
            else
              let retryAfter :=
                if rule.retryAfterSecond ≤ 0 ∧ decisionClass ∈ ["retryable".toList,
                    "unknown".toList, "policy_blocked".toList] then
                  resolveAdaptiveRetryDelay reply decisionClass replyProfile
                    adaptiveRetryEnabled
                else rule.retryAfterSecond.toInt
              some (withConfidenceHint (trimSpace rule.confidenceHint)
                (withPolicyContext e rule (smtpResult category reason reasonCode
                  (trimSpace rule.ruleTag) decisionClass reply profile retryAfter)))

/-- The verdict on a transient reply, and on one whose code says nothing. -/
def transientResult (reasonCode reasonTag decisionClass : Text) (reply : SmtpReply Text)
    (profile : Text) (engine : Option (ProviderReplyPolicyEngine F))
    (adaptiveRetryEnabled : Bool) : Result :=
  smtpResult "risky".toList "smtp_tempfail".toList reasonCode reasonTag decisionClass reply
    profile (resolveAdaptiveRetryDelay reply decisionClass
      (lookupProviderReplyProfile engine profile) adaptiveRetryEnabled)

/-- The verdict on a reply that a policy blocked the probe. -/
def policyBlockedResult (reply : SmtpReply Text) (profile : Text) : Result :=
  smtpResult "risky".toList "smtp_tempfail".toList "smtp_policy_blocked".toList
    "policy_blocked".toList "policy_blocked".toList reply profile 0

/-- The verdict on a reply of a catch-all host, or on one that must not be valid. -/
def catchAllResult (reply : SmtpReply Text) (profile : Text) : Result :=
  smtpResult "risky".toList "catch_all".toList "catch_all".toList "rate_limit".toList
    "unknown".toList reply profile 0

/-- Nothing is said of a reply that lets the session go on. -/
def classifySMTPSessionReply (command : Command) (reply : SmtpReply Text)
    (providerHint host : Text) (engine : Option (ProviderReplyPolicyEngine F))
    (adaptiveRetryEnabled : Bool) : Option Result :=
  let profile := detectSMTPProviderProfile providerHint host reply.message
  match classifySMTPWithPolicyEngine command reply profile engine adaptiveRetryEnabled with
  | some result => some result
  | none =>
      if 200 ≤ reply.code ∧ reply.code < 300 then none
      else if 400 ≤ reply.code ∧ reply.code < 500 then
        some (transientResult "smtp_tempfail".toList [] "retryable".toList reply profile engine
          adaptiveRetryEnabled)
      else if 500 ≤ reply.code then
        if isPolicyBlockedReply reply then some (policyBlockedResult reply profile)
        else if command = .mailFrom then
          some (transientResult "smtp_mailfrom_rejected".toList "smtp_tempfail".toList
            "retryable".toList reply profile engine adaptiveRetryEnabled)
        else
          some (smtpResult "invalid".toList "smtp_unavailable".toList "smtp_unavailable".toList
            "mailbox_not_found".toList "undeliverable".toList reply profile 0)
      else
        some (transientResult "smtp_unknown".toList [] "unknown".toList reply profile engine
          adaptiveRetryEnabled)

def classifySMTPRcptReply (reply : SmtpReply Text) (providerHint host : Text)
    (allowValid : Bool) (engine : Option (ProviderReplyPolicyEngine F))
    (adaptiveRetryEnabled : Bool) : Result :=
  let profile := detectSMTPProviderProfile providerHint host reply.message
  match classifySMTPWithPolicyEngine .rcptTo reply profile engine adaptiveRetryEnabled with
  | some result =>
      if result.category = "valid".toList ∧ allowValid = false then catchAllResult reply profile
      else result
  | none =>
      if 200 ≤ reply.code ∧ reply.code < 300 then
        if allowValid then
          smtpResult "valid".toList "rcpt_ok".toList "rcpt_ok".toList [] "deliverable".toList
            reply profile 0
        else catchAllResult reply profile
      else if 400 ≤ reply.code ∧ reply.code < 500 then
        transientResult "smtp_tempfail".toList [] "retryable".toList reply profile engine
          adaptiveRetryEnabled
      else if 500 ≤ reply.code then
        if isPolicyBlockedReply reply then policyBlockedResult reply profile
        else
          smtpResult "invalid".toList "rcpt_rejected".toList
            (if isMailboxUndeliverableReply reply then "mailbox_not_found".toList
              else "rcpt_rejected".toList)
            "mailbox_not_found".toList "undeliverable".toList reply profile 0
      else
        transientResult "smtp_unknown".toList [] "unknown".toList reply profile engine
          adaptiveRetryEnabled

end

end ValidEmailVerifier.Engine
