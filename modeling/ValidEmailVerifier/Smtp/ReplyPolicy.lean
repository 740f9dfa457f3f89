/-
# `Smtp.ReplyPolicy` — the reply policy engine and its default profiles

A profile is three lists of rules, tried by enhanced status code, by reply code
and by a substring of the message; the first rule that matches decides.  The
profiles below are `defaultProviderReplyProfiles`; an empty string of the source
is `none` where a category or a decision class is meant.
-/
import ValidEmailVerifier.Smtp.Reply

namespace ValidEmailVerifier.Smtp

open GoStrings Worker

/-! ## Rules and profiles -/

structure ProviderReplyRule where
  ruleId : Text
  enhancedPrefixes : List Text := []
  smtpCodes : List Int := []
  messageContains : List Text := []
  decisionClass : Option DecisionClass
  category : Option Category
  reason : Text
  reasonCode : Text
  ruleTag : Text := []
  confidenceHint : Text := []
  providerScope : Text := []
  retryAfterSecond : Int := 0
  deriving DecidableEq, Repr

structure ProviderRetryPolicy where
  defaultSeconds : Int
  tempfailSeconds : Int
  greylistSeconds : Int
  policyBlockedSecond : Int
  unknownSeconds : Int
  deriving DecidableEq, Repr

structure ProviderReplyProfile where
  name : Text
  enhancedRules : List ProviderReplyRule
  smtpCodeRules : List ProviderReplyRule
  messageRules : List ProviderReplyRule
  retry : ProviderRetryPolicy
  deriving DecidableEq, Repr

structure ProviderReplyPolicyEngine where
  enabled : Bool
  version : Text
  profiles : List (Text × ProviderReplyProfile)
  deriving DecidableEq, Repr

/-! ## The default profiles -/

/-- The members that the retry rules of the source share. -/
def retryRule (ruleId : Text) (ruleTag : Text) : ProviderReplyRule where
  ruleId := ruleId
  decisionClass := some .retryable
  category := some .risky
  reason := "smtp_tempfail".toList
  reasonCode := "smtp_tempfail".toList
  ruleTag := ruleTag

/-- Those of the rules that a policy blocked the probe. -/
def blockedRule (ruleId : Text) (ruleTag : Text) : ProviderReplyRule where
  ruleId := ruleId
  decisionClass := some .policyBlocked
  category := some .risky
  reason := "smtp_tempfail".toList
  reasonCode := "smtp_policy_blocked".toList
  ruleTag := ruleTag

/-- Those of the rules that the mailbox is full. -/
def fullRule (ruleId : Text) : ProviderReplyRule where
  ruleId := ruleId
  decisionClass := some .retryable
  category := some .risky
  reason := "smtp_tempfail".toList
  reasonCode := "mailbox_full".toList
  ruleTag := "mailbox_full".toList

/-- Those of the rules that there is no such mailbox. -/
def rejectRule (ruleId : Text) (reasonCode : Text) : ProviderReplyRule where
  ruleId := ruleId
  decisionClass := some .undeliverable
  category := some .invalid
  reason := "rcpt_rejected".toList
  reasonCode := reasonCode
  ruleTag := "mailbox_not_found".toList

def genericProfile : ProviderReplyProfile where
  name := "generic".toList
  enhancedRules :=
    [{ rejectRule "generic-enhanced-511-mailbox-not-found".toList
          "mailbox_not_found".toList with
        enhancedPrefixes := ["5.1.1".toList, "5.1.10".toList, "5.2.".toList] },
      { blockedRule "generic-enhanced-57-policy-blocked".toList "policy_blocked".toList with
        enhancedPrefixes := ["5.7.".toList] },
      { retryRule "generic-enhanced-42-44-retry".toList "unknown_transient".toList with
        enhancedPrefixes := ["4.2.".toList, "4.4.".toList] },
      { fullRule "generic-enhanced-422-mailbox-full".toList with
        enhancedPrefixes := ["4.2.2".toList] }]
  smtpCodeRules :=
    [{ retryRule "generic-smtp-421-452-retry".toList "unknown_transient".toList with
        smtpCodes := [421, 450, 451, 452] },
      { rejectRule "generic-smtp-550-553-undeliverable".toList "rcpt_rejected".toList with
        smtpCodes := [550, 551, 553] }]
  messageRules :=
    [{ retryRule "generic-msg-greylist-retry".toList "greylist".toList with
        messageContains := ["greylist".toList, "try again later".toList,
          "temporarily deferred".toList]
        retryAfterSecond := 180 },
      { blockedRule "generic-msg-policy-blocked".toList "policy_blocked".toList with
        messageContains := ["policy".toList, "blocked".toList, "denied".toList,
          "forbidden".toList, "authentication".toList, "auth".toList] },
      { rejectRule "generic-msg-mailbox-not-found".toList "mailbox_not_found".toList with
        messageContains := ["user unknown".toList, "no such user".toList,
          "mailbox unavailable".toList, "recipient address rejected".toList] },
      { fullRule "generic-msg-mailbox-full".toList with
        messageContains := ["mailbox full".toList, "quota exceeded".toList,
          "mailbox over quota".toList] },
      { blockedRule "generic-msg-auth-required".toList "auth_required".toList with
        messageContains := ["authentication required".toList, "auth required".toList,
          "sender verify failed".toList] }]
  retry := ⟨60, 90, 180, 300, 75⟩

/-- The profiles of the three large providers: retry rules only. -/
def retryProfile (name enhancedId codeId messageId : Text) (codes : List Int)
    (words : List Text) (retry : ProviderRetryPolicy) : ProviderReplyProfile where
  name := name
  enhancedRules := [{ retryRule enhancedId "rate_limit".toList with
    enhancedPrefixes := ["4.7.".toList] }]
  smtpCodeRules := [{ retryRule codeId "rate_limit".toList with smtpCodes := codes }]
  messageRules := [{ retryRule messageId "rate_limit".toList with messageContains := words }]
  retry := retry

def gmailProfile : ProviderReplyProfile :=
  retryProfile "gmail".toList "gmail-enhanced-47-retry".toList
    "gmail-smtp-421-451-retry".toList "gmail-msg-rate-limit-retry".toList [421, 450, 451]
    ["rate limited".toList, "temporarily deferred".toList, "try again later".toList]
    ⟨90, 120, 240, 480, 120⟩

def microsoftProfile : ProviderReplyProfile :=
  retryProfile "microsoft".toList "microsoft-enhanced-47-retry".toList
    "microsoft-smtp-421-451-retry".toList "microsoft-msg-deferral-retry".toList
    [421, 451, 452]
    ["temporarily deferred".toList, "throttled".toList, "try this again later".toList]
    ⟨90, 150, 300, 600, 120⟩

def yahooProfile : ProviderReplyProfile :=
  retryProfile "yahoo".toList "yahoo-enhanced-47-retry".toList
    "yahoo-smtp-421-451-retry".toList "yahoo-msg-tempfail-retry".toList [421, 451, 452]
    ["temporarily deferred".toList, "temporarily unavailable".toList,
      "try again later".toList]
    ⟨75, 120, 240, 480, 100⟩

def defaultProviderReplyProfiles : List (Text × ProviderReplyProfile) :=
  [("generic".toList, genericProfile), ("gmail".toList, gmailProfile),
    ("microsoft".toList, microsoftProfile), ("yahoo".toList, yahooProfile)]

/-! ## Normalisation -/

def inferRuleTag (reasonCode : Text) (decisionClass : Option DecisionClass) : Text :=
  let reasonCode := toLower (trimSpace reasonCode)
  if contains reasonCode "greylist".toList then "greylist".toList
  else if contains reasonCode "mailbox_full".toList then "mailbox_full".toList
  else if contains reasonCode "policy_blocked".toList then "policy_blocked".toList
  else if contains reasonCode "mailbox_not_found".toList then "mailbox_not_found".toList
  else if contains reasonCode "auth".toList then "auth_required".toList
  else if contains reasonCode "rate_limit".toList then "rate_limit".toList
  else if decisionClass = some .policyBlocked then "policy_blocked".toList
  else if decisionClass = some .undeliverable then "mailbox_not_found".toList
  else "unknown_transient".toList

def inferConfidenceHint (decisionClass : Option DecisionClass)
    (category : Option Category) : Text :=
  match decisionClass with
  | some .deliverable | some .undeliverable => "high".toList
  | some .policyBlocked | some .retryable => "medium".toList
  | some .unknown => "low".toList
  | none =>
      if category = some .valid ∨ category = some .invalid then "medium".toList
      else "low".toList

/-- One round of `normalizeProviderReplyRules`. -/
def normalizeRule (provider : Text) (rule : ProviderReplyRule) : ProviderReplyRule :=
  { rule with
    ruleTag :=
      if trimSpace rule.ruleTag = [] then inferRuleTag rule.reasonCode rule.decisionClass
      else rule.ruleTag
    confidenceHint :=
      if trimSpace rule.confidenceHint = [] then
        inferConfidenceHint rule.decisionClass rule.category
      else rule.confidenceHint
    providerScope :=
      if trimSpace rule.providerScope = [] then provider else rule.providerScope }

def normalizeProviderReplyRules (rules : List ProviderReplyRule) (provider : Text) :
    List ProviderReplyRule := rules.map (normalizeRule provider)

def normalizeRetryProfile (value fallback : ProviderRetryPolicy) : ProviderRetryPolicy where
  defaultSeconds := if value.defaultSeconds ≤ 0 then fallback.defaultSeconds
    else value.defaultSeconds
  tempfailSeconds := if value.tempfailSeconds ≤ 0 then fallback.tempfailSeconds
    else value.tempfailSeconds
  greylistSeconds := if value.greylistSeconds ≤ 0 then fallback.greylistSeconds
    else value.greylistSeconds
  policyBlockedSecond := if value.policyBlockedSecond ≤ 0 then fallback.policyBlockedSecond
    else value.policyBlockedSecond
  unknownSeconds := if value.unknownSeconds ≤ 0 then fallback.unknownSeconds
    else value.unknownSeconds

/-- The first of the lists that has rules. -/
def orRules (rules own generic : List ProviderReplyRule) : List ProviderReplyRule :=
  if rules = [] then if own = [] then generic else own else rules

/-- The round of `normalizeProviderReplyPolicyEngine` for a profile that is there
already; `profile` is the default of its key. -/
def normalizeProfile (key : Text) (existing profile : ProviderReplyProfile) :
    ProviderReplyProfile where
  name := if trimSpace existing.name = [] then profile.name else existing.name
  enhancedRules := normalizeProviderReplyRules
    (orRules existing.enhancedRules profile.enhancedRules genericProfile.enhancedRules) key
  smtpCodeRules := normalizeProviderReplyRules
    (orRules existing.smtpCodeRules profile.smtpCodeRules genericProfile.smtpCodeRules) key
  messageRules := normalizeProviderReplyRules
    (orRules existing.messageRules profile.messageRules genericProfile.messageRules) key
  retry := normalizeRetryProfile existing.retry profile.retry

/-- `normalizeProviderReplyPolicyEngine`, on the profiles: every default key is
there afterwards, and keys of the engine's own keep their profile. -/
def normalizeProfiles (profiles : List (Text × ProviderReplyProfile)) :
    List (Text × ProviderReplyProfile) :=
  (defaultProviderReplyProfiles.map fun d =>
    match profiles.lookup d.1 with
    | none => d
    | some existing => (d.1, normalizeProfile d.1 existing d.2)) ++
  profiles.filter fun e => (defaultProviderReplyProfiles.lookup e.1).isNone

def normalizeProviderReplyPolicyEngine (engine : ProviderReplyPolicyEngine) :
    ProviderReplyPolicyEngine :=
  { engine with
    profiles := normalizeProfiles engine.profiles
    version := if trimSpace engine.version = [] then "v4".toList else engine.version }

/-- `DefaultProviderReplyPolicyEngine`. -/
def defaultProviderReplyPolicyEngine : ProviderReplyPolicyEngine :=
  normalizeProviderReplyPolicyEngine ⟨true, "v4".toList, defaultProviderReplyProfiles⟩

/-! ## Lookup and matching -/

def lookupProviderReplyProfile (engine : Option ProviderReplyPolicyEngine) (provider : Text) :
    ProviderReplyProfile :=
  let provider := toLower (trimSpace provider)
  let provider := if provider = [] then "generic".toList else provider
  let named (key : Text) (profile : ProviderReplyProfile) : ProviderReplyProfile :=
    { profile with name := if trimSpace profile.name = [] then key else profile.name }
  let generic := (defaultProviderReplyPolicyEngine.profiles.lookup "generic".toList).getD
    genericProfile
  match engine with
  | none => generic
  | some engine =>
      if engine.profiles = [] then generic
      else
        match engine.profiles.lookup provider with
        | some profile => named provider profile
        | none =>
            named "generic".toList ((engine.profiles.lookup "generic".toList).getD generic)

/-- The words a rule looks for, blank ones left out. -/
def ruleWords (words : List Text) : List Text :=
  (words.map fun word => toLower (trimSpace word)).filter (· ≠ [])

def matchProviderReplyRule (profile : ProviderReplyProfile) (reply : SmtpReply Text) :
    Option ProviderReplyRule :=
  let enhanced := toLower (trimSpace reply.enhancedCode)
  let message := toLower (trimSpace reply.message)
  profile.enhancedRules.find? (fun rule => hasPrefixAny enhanced (ruleWords rule.enhancedPrefixes))
    <|> profile.smtpCodeRules.find? (fun rule => rule.smtpCodes.contains reply.code)
    <|> profile.messageRules.find?
      (fun rule => containsAny message (ruleWords rule.messageContains))

/-! ## Retry delays -/

def retryDelaySeconds (reply : SmtpReply Text) : Int :=
  let enhanced := toLower (trimSpace reply.enhancedCode)
  let message := toLower reply.message
  if contains message "greylist".toList || contains message "try again later".toList then 180
  else if hasPrefix enhanced "4.7.".toList then 180
  else if hasPrefix enhanced "4.4.".toList || hasPrefix enhanced "4.2.".toList then 90
  else if 400 ≤ reply.code ∧ reply.code < 500 then 60
  else 30

def resolveAdaptiveRetryDelay (reply : SmtpReply Text) (decisionClass : DecisionClass)
    (profile : ProviderReplyProfile) (adaptiveRetryEnabled : Bool) : Int :=
  if adaptiveRetryEnabled = false then retryDelaySeconds reply
  else
    let retry := normalizeRetryProfile profile.retry ⟨60, 90, 180, 300, 75⟩
    let message := toLower (trimSpace reply.message)
    let enhanced := toLower (trimSpace reply.enhancedCode)
    if contains message "greylist".toList || contains message "try again later".toList then
      retry.greylistSeconds
    else if hasPrefix enhanced "4.7.".toList then retry.greylistSeconds
    else
      match decisionClass with
      | .retryable => retry.tempfailSeconds
      | .policyBlocked => retry.policyBlockedSecond
      | .unknown => retry.unknownSeconds
      | _ => retry.defaultSeconds

end ValidEmailVerifier.Smtp
