/-
# `Smtp.Verdicts` — which replies become a permanent verdict

The reply code alone never turns a transient reply into a rejection
(`classifyRcptCode_agrees`).  The policy engine does not look at the class of the
code: `classifySMTPRcptReply_safe_iff` says exactly which replies below 500 its
default rules turn into one.

A verdict is followed by its category and decision class, `verdict`; the rules of a
profile decide them, and normalising the profile leaves them as they are.
-/
import ValidEmailVerifier.Smtp.ReplyIntelligence

namespace ValidEmailVerifier.Smtp

open GoStrings Worker

/-! ## When the verdict agrees with the class of the code -/

/-- A permanent verdict needs a permanent code, and an acceptance one of success. -/
def Agrees (reply : SmtpReply Text) (result : Result) : Prop :=
  (result.Rejects → 500 ≤ reply.code) ∧ (result.Accepts → 200 ≤ reply.code ∧ reply.code < 300)

/-- The engine of a worker: the default one, switched on or off. -/
def workerEngine (enabled : Bool) : ProviderReplyPolicyEngine :=
  { defaultProviderReplyPolicyEngine with enabled := enabled }

/-- The enhanced codes of a missing mailbox. -/
def mailboxPrefixes : List Text := ["5.1.1".toList, "5.1.10".toList, "5.2.".toList]

/-- The enhanced codes the generic profile decides otherwise. -/
def otherPrefixes : List Text := ["5.7.".toList, "4.2.".toList, "4.4.".toList]

/-- The enhanced code, as it is compared. -/
def SmtpReply.enhanced (reply : SmtpReply Text) : Text := toLower (trimSpace reply.enhancedCode)

/-- The message, as it is searched. -/
def SmtpReply.words (reply : SmtpReply Text) : Text := toLower (trimSpace reply.message)

/-- The messages of a missing mailbox. -/
def mailboxWords : List Text :=
  ["user unknown".toList, "no such user".toList, "mailbox unavailable".toList,
    "recipient address rejected".toList]

/-- The other message words of the generic profile, rule by rule. -/
def greylistWords : List Text :=
  ["greylist".toList, "try again later".toList, "temporarily deferred".toList]

def blockedWords : List Text :=
  ["policy".toList, "blocked".toList, "denied".toList, "forbidden".toList,
    "authentication".toList, "auth".toList]

def fullWords : List Text :=
  ["mailbox full".toList, "quota exceeded".toList, "mailbox over quota".toList]

def authWords : List Text :=
  ["authentication required".toList, "auth required".toList, "sender verify failed".toList]

/-- The reply names a missing mailbox: by its enhanced code, or by its message when
neither the enhanced code nor the reply code nor an earlier word has a rule. -/
def namesMissingMailbox (reply : SmtpReply Text) : Bool :=
  hasPrefixAny reply.enhanced mailboxPrefixes ||
    (!hasPrefixAny reply.enhanced otherPrefixes &&
      !([421, 450, 451, 452] : List Int).contains reply.code &&
      !containsAny reply.words (greylistWords ++ blockedWords) &&
      containsAny reply.words mailboxWords)

/-- The profile of the reply is not one of the three that only ask to retry. -/
def hasGenericProfile (providerHint host : Text) (reply : SmtpReply Text) : Bool :=
  ! ["gmail".toList, "microsoft".toList, "yahoo".toList].contains
    (toLower (trimSpace (detectSMTPProviderProfile providerHint host reply.message)))

/-! ## Category and decision class -/

/-- What of a result is permanent or not. -/
def Result.verdict (r : Result) : Category × DecisionClass := (r.category, r.decisionClass)

/-- What a rule says of it. -/
def ProviderReplyRule.verdict (rule : ProviderReplyRule) : Category × DecisionClass :=
  (rule.category.getD .risky, rule.decisionClass.getD .unknown)

/-- The verdict of the first rule of a profile that matches. -/
def matchVerdict (profile : ProviderReplyProfile) (reply : SmtpReply Text) :
    Option (Category × DecisionClass) :=
  (matchProviderReplyRule profile reply).map ProviderReplyRule.verdict

@[simp] theorem smtpResult_verdict {category : Category} {reason reasonCode reasonTag : Text}
    {decisionClass : DecisionClass} {reply : SmtpReply Text} {profile : Text}
    {retryAfter : Int} :
    (smtpResult category reason reasonCode reasonTag decisionClass reply profile
      retryAfter).verdict = (category, decisionClass) := rfl

@[simp] theorem withPolicyContext_verdict {engine : ProviderReplyPolicyEngine}
    {rule : ProviderReplyRule} {result : Result} :
    (withPolicyContext engine rule result).verdict = result.verdict := rfl

@[simp] theorem withConfidenceHint_verdict {value : Text} {result : Result} :
    (withConfidenceHint value result).verdict = result.verdict := by
  dsimp only [withConfidenceHint]
  split <;> rfl

theorem ruleVerdict_rcptTo {rule : ProviderReplyRule} :
    ((ruleVerdict .rcptTo rule).1, (ruleVerdict .rcptTo rule).2.2.2) = rule.verdict := by
  have hcmd : ¬ (Command.rcptTo = .mailFrom ∧
      rule.decisionClass.getD .unknown = .undeliverable) := fun h => nomatch h.1
  simp only [ruleVerdict, if_neg hcmd]
  rfl

theorem agrees_of_verdict {reply : SmtpReply Text} {result : Result}
    {category : Category} {decisionClass : DecisionClass}
    (hv : result.verdict = (category, decisionClass))
    (hr : category = .invalid ∨ decisionClass = .undeliverable → 500 ≤ reply.code)
    (ha : category = .valid ∨ decisionClass = .deliverable →
      200 ≤ reply.code ∧ reply.code < 300) : Agrees reply result := by
  obtain ⟨rfl, rfl⟩ := Prod.mk.inj hv
  exact ⟨hr, ha⟩

/-- A verdict that neither rules out nor accepts agrees with every code. -/
theorem agrees_of_risky {reply : SmtpReply Text} {result : Result}
    {decisionClass : DecisionClass} (hv : result.verdict = (.risky, decisionClass))
    (hu : decisionClass ≠ .undeliverable) (hd : decisionClass ≠ .deliverable) :
    Agrees reply result := by
  apply agrees_of_verdict hv
  · intro h
    exact absurd (h.resolve_left nofun) hu
  · intro h
    exact absurd (h.resolve_left nofun) hd

/-- Without a rule the class of the code decides. -/
theorem classifyRcptCode_agrees {reply : SmtpReply Text} {profile : Text} {allowValid : Bool}
    {engine : Option ProviderReplyPolicyEngine} {adaptive : Bool} :
    Agrees reply (classifyRcptCode reply profile allowValid engine adaptive) := by
  unfold classifyRcptCode
  split
  · next h2 =>
    split
    · exact agrees_of_verdict smtpResult_verdict (fun h => nomatch h) fun _ => h2
    · exact agrees_of_risky smtpResult_verdict nofun nofun
  · split
    · exact agrees_of_risky smtpResult_verdict nofun nofun
    · split
      · next h5 =>
        split
        · exact agrees_of_risky smtpResult_verdict nofun nofun
        · exact agrees_of_verdict smtpResult_verdict (fun _ => h5) fun h => nomatch h
      · exact agrees_of_risky smtpResult_verdict nofun nofun

/-! ## The rules of the default profiles -/

theorem find?_normalizeProviderReplyRules {rules : List ProviderReplyRule} {provider : Text}
    {p : ProviderReplyRule → Bool} (hp : ∀ rule, p (normalizeRule provider rule) = p rule) :
    ((normalizeProviderReplyRules rules provider).find? p).map ProviderReplyRule.verdict =
      (rules.find? p).map ProviderReplyRule.verdict := by
  have hcomp : p ∘ normalizeRule provider = p := funext hp
  rw [normalizeProviderReplyRules, List.find?_map, hcomp, Option.map_map]
  rfl

/-- Normalising a profile that has rules of every kind changes no verdict. -/
theorem matchVerdict_normalizeProfile {key : Text} {profile fallback : ProviderReplyProfile}
    {reply : SmtpReply Text} (he : profile.enhancedRules ≠ [])
    (hc : profile.smtpCodeRules ≠ []) (hm : profile.messageRules ≠ []) :
    matchVerdict (normalizeProfile key profile fallback) reply = matchVerdict profile reply := by
  simp only [matchVerdict, matchProviderReplyRule, normalizeProfile, orRules, if_neg he,
    if_neg hc, if_neg hm, Option.orElse_eq_orElse, Option.orElse_eq_or, Option.map_or]
  rw [find?_normalizeProviderReplyRules fun _ => rfl,
    find?_normalizeProviderReplyRules fun _ => rfl,
    find?_normalizeProviderReplyRules fun _ => rfl]

/-- The profiles of the three large providers only ask to retry. -/
theorem matchVerdict_retryProfile {name enhancedId codeId messageId : Text} {codes : List Int}
    {words : List Text} {retry : ProviderRetryPolicy} {reply : SmtpReply Text}
    {v : Category × DecisionClass}
    (h : matchVerdict (retryProfile name enhancedId codeId messageId codes words retry) reply =
      some v) : v = (.risky, .retryable) := by
  obtain ⟨rule, hrule, rfl⟩ := Option.map_eq_some_iff.mp h
  simp only [matchProviderReplyRule, retryProfile, Option.orElse_eq_orElse,
    Option.orElse_eq_or, Option.or_eq_some_iff, List.find?_singleton] at hrule
  rcases hrule with h | ⟨_, h | ⟨_, h⟩⟩ <;>
  · split at h
    · rw [← Option.some.inj h]
      rfl
    · cases h

/-! ## The generic profile -/

theorem find?_verdict_cons {rule : ProviderReplyRule} {rules : List ProviderReplyRule}
    {p : ProviderReplyRule → Bool} :
    ((rule :: rules).find? p).map ProviderReplyRule.verdict =
      if p rule then some rule.verdict
      else (rules.find? p).map ProviderReplyRule.verdict := by
  rw [List.find?_cons]
  cases p rule <;> rfl

/-- The words of the generic profile are compared as they stand. -/
theorem ruleWords_generic :
    ruleWords mailboxPrefixes = mailboxPrefixes ∧ ruleWords ["5.7.".toList] = ["5.7.".toList] ∧
    ruleWords ["4.2.".toList, "4.4.".toList] = ["4.2.".toList, "4.4.".toList] ∧
    ruleWords ["4.2.2".toList] = ["4.2.2".toList] ∧
    ruleWords greylistWords = greylistWords ∧ ruleWords blockedWords = blockedWords ∧
    ruleWords mailboxWords = mailboxWords ∧ ruleWords fullWords = fullWords ∧
    ruleWords authWords = authWords := by
  decide +kernel

theorem enhancedVerdict_generic {e : Text} :
    (genericProfile.enhancedRules.find? fun rule =>
        hasPrefixAny e (ruleWords rule.enhancedPrefixes)).map ProviderReplyRule.verdict =
      if hasPrefixAny e mailboxPrefixes then some (.invalid, .undeliverable)
      else if hasPrefixAny e ["5.7.".toList] then some (.risky, .policyBlocked)
      else if hasPrefixAny e ["4.2.".toList, "4.4.".toList] then some (.risky, .retryable)
      else if hasPrefixAny e ["4.2.2".toList] then some (.risky, .retryable)
      else none := by
  obtain ⟨h1, h2, h3, h4, -⟩ := ruleWords_generic
  show ((_ :: _ :: _ :: _ :: []).find? _).map _ = _
  simp only [find?_verdict_cons, List.find?_nil, Option.map_none]
  rw [← mailboxPrefixes, h1, h2, h3, h4]
  rfl

theorem codeVerdict_generic {code : Int} :
    (genericProfile.smtpCodeRules.find? fun rule =>
        rule.smtpCodes.contains code).map ProviderReplyRule.verdict =
      if ([421, 450, 451, 452] : List Int).contains code then some (.risky, .retryable)
      else if ([550, 551, 553] : List Int).contains code then some (.invalid, .undeliverable)
      else none := by
  show ((_ :: _ :: []).find? _).map _ = _
  simp only [find?_verdict_cons, List.find?_nil, Option.map_none]
  rfl

theorem messageVerdict_generic {m : Text} :
    (genericProfile.messageRules.find? fun rule =>
        containsAny m (ruleWords rule.messageContains)).map ProviderReplyRule.verdict =
      if containsAny m greylistWords then some (.risky, .retryable)
      else if containsAny m blockedWords then some (.risky, .policyBlocked)
      else if containsAny m mailboxWords then some (.invalid, .undeliverable)
      else if containsAny m fullWords then some (.risky, .retryable)
      else if containsAny m authWords then some (.risky, .policyBlocked)
      else none := by
  obtain ⟨-, -, -, -, h1, h2, h3, h4, h5⟩ := ruleWords_generic
  show ((_ :: _ :: _ :: _ :: _ :: []).find? _).map _ = _
  simp only [find?_verdict_cons, List.find?_nil, Option.map_none]
  rw [← greylistWords, ← blockedWords, ← mailboxWords, ← fullWords, ← authWords, h1, h2, h3,
    h4, h5]
  rfl

theorem hasPrefixAny_422 {e : Text} (h : hasPrefixAny e otherPrefixes = false) :
    hasPrefixAny e ["5.7.".toList] = false ∧ hasPrefixAny e ["4.2.".toList, "4.4.".toList] = false ∧
      hasPrefixAny e ["4.2.2".toList] = false := by
  simp only [otherPrefixes, hasPrefixAny, List.any_cons, List.any_nil, Bool.or_false,
    Bool.or_eq_false_iff, hasPrefix] at h ⊢
  refine ⟨h.1, h.2, ?_⟩
  rw [Bool.eq_false_iff, Ne, List.isPrefixOf_iff_prefix]
  intro h422
  have h42 : "4.2.".toList <+: e := List.IsPrefix.trans (by decide) h422
  rw [← List.isPrefixOf_iff_prefix, h.2.1] at h42
  exact nomatch h42

theorem hasPrefixAny_other {e : Text} (h : hasPrefixAny e otherPrefixes = true) :
    hasPrefixAny e ["5.7.".toList] = true ∨
      hasPrefixAny e ["4.2.".toList, "4.4.".toList] = true := by
  simpa only [otherPrefixes, hasPrefixAny, List.any_cons, List.any_nil, Bool.or_false,
    Bool.or_eq_true] using h

theorem matchVerdict_generic {reply : SmtpReply Text} :
    matchVerdict genericProfile reply =
      ((genericProfile.enhancedRules.find? fun rule =>
        hasPrefixAny reply.enhanced (ruleWords rule.enhancedPrefixes)).map
          ProviderReplyRule.verdict).or
      (((genericProfile.smtpCodeRules.find? fun rule =>
        rule.smtpCodes.contains reply.code).map ProviderReplyRule.verdict).or
      ((genericProfile.messageRules.find? fun rule =>
        containsAny reply.words (ruleWords rule.messageContains)).map
          ProviderReplyRule.verdict)) := by
  simp only [matchVerdict, matchProviderReplyRule, Option.orElse_eq_orElse,
    Option.orElse_eq_or, Option.map_or]
  rfl

/-- Below 500 the generic profile rules out exactly what names a missing mailbox. -/
theorem matchVerdict_generic_iff {reply : SmtpReply Text} (hcode : reply.code < 500) :
    matchVerdict genericProfile reply = some (.invalid, .undeliverable) ↔
      namesMissingMailbox reply = true := by
  have h55 : ([550, 551, 553] : List Int).contains reply.code = false := by
    rw [List.contains_eq_mem, decide_eq_false_iff_not]
    intro hmem
    have : ∀ c ∈ ([550, 551, 553] : List Int), 500 ≤ c := by decide
    have := this _ hmem
    omega
  have happ : containsAny reply.words (greylistWords ++ blockedWords) =
      (containsAny reply.words greylistWords || containsAny reply.words blockedWords) :=
    List.any_append
  rw [matchVerdict_generic, enhancedVerdict_generic, codeVerdict_generic,
    messageVerdict_generic, namesMissingMailbox, happ, h55]
  cases hasPrefixAny reply.enhanced mailboxPrefixes with
  | true => simp
  | false =>
    cases ho : hasPrefixAny reply.enhanced otherPrefixes with
    | true =>
      -- an enhanced code of another rule decides
      rcases hasPrefixAny_other ho with h | h
      · rw [h]
        simp
      · rw [h]
        cases hasPrefixAny reply.enhanced ["5.7.".toList] <;> simp
    | false =>
      obtain ⟨h57, h42, h422⟩ := hasPrefixAny_422 ho
      rw [h57, h42, h422]
      cases ([421, 450, 451, 452] : List Int).contains reply.code <;>
        cases containsAny reply.words greylistWords <;>
        cases containsAny reply.words blockedWords <;>
        cases containsAny reply.words mailboxWords <;>
        cases containsAny reply.words fullWords <;>
        cases containsAny reply.words authWords <;> simp

/-- What else the generic profile says asks to retry or reports a block. -/
theorem matchVerdict_generic_mild {reply : SmtpReply Text} {v : Category × DecisionClass}
    (h : matchVerdict genericProfile reply = some v) :
    v = (.invalid, .undeliverable) ∨ v = (.risky, .retryable) ∨ v = (.risky, .policyBlocked) := by
  obtain ⟨rule, hrule, rfl⟩ := Option.map_eq_some_iff.mp h
  simp only [matchProviderReplyRule, Option.orElse_eq_orElse, Option.orElse_eq_or,
    Option.or_eq_some_iff] at hrule
  have hmem : rule ∈ genericProfile.enhancedRules ++ genericProfile.smtpCodeRules ++
      genericProfile.messageRules := by
    rcases hrule with h | ⟨_, h | ⟨_, h⟩⟩ <;> simp [List.mem_of_find?_eq_some h]
  have hall : ∀ r ∈ genericProfile.enhancedRules ++ genericProfile.smtpCodeRules ++
      genericProfile.messageRules, r.verdict = (.invalid, .undeliverable) ∨
        r.verdict = (.risky, .retryable) ∨ r.verdict = (.risky, .policyBlocked) := by
    decide +kernel
  exact hall rule hmem

/-! ## The verdict of the default engine -/

theorem lookup_cons_ite {k key : Text} {profile : ProviderReplyProfile}
    {profiles : List (Text × ProviderReplyProfile)} :
    ((key, profile) :: profiles).lookup k =
      if k = key then some profile else profiles.lookup k := by
  rw [List.lookup_cons]
  by_cases h : k = key
  · rw [beq_iff_eq.mpr h, if_pos h]
  · rw [beq_eq_false_iff_ne.mpr h, if_neg h]

/-- The profiles of the engine of a worker, by their keys. -/
theorem lookup_workerEngine {enabled : Bool} {k : Text} :
    (workerEngine enabled).profiles.lookup k =
      if k = "generic".toList then
        some (normalizeProfile "generic".toList genericProfile genericProfile)
      else if k = "gmail".toList then
        some (normalizeProfile "gmail".toList gmailProfile gmailProfile)
      else if k = "microsoft".toList then
        some (normalizeProfile "microsoft".toList microsoftProfile microsoftProfile)
      else if k = "yahoo".toList then
        some (normalizeProfile "yahoo".toList yahooProfile yahooProfile)
      else none := by
  have hp : (workerEngine enabled).profiles =
      [("generic".toList, normalizeProfile "generic".toList genericProfile genericProfile),
        ("gmail".toList, normalizeProfile "gmail".toList gmailProfile gmailProfile),
        ("microsoft".toList,
          normalizeProfile "microsoft".toList microsoftProfile microsoftProfile),
        ("yahoo".toList, normalizeProfile "yahoo".toList yahooProfile yahooProfile)] := by
    show defaultProviderReplyPolicyEngine.profiles = _
    rfl
  rw [hp]
  simp only [lookup_cons_ite, List.lookup_nil]

/-- The profile the engine of a worker uses has the rules of one of the four. -/
theorem matchVerdict_lookup {enabled : Bool} {profile : Text} {reply : SmtpReply Text} :
    matchVerdict (lookupProviderReplyProfile (some (workerEngine enabled)) profile) reply =
      matchVerdict
        (if toLower (trimSpace profile) = "gmail".toList then gmailProfile
        else if toLower (trimSpace profile) = "microsoft".toList then microsoftProfile
        else if toLower (trimSpace profile) = "yahoo".toList then yahooProfile
        else genericProfile) reply := by
  have hne : (workerEngine enabled).profiles ≠ [] := by
    intro h
    have hg : (workerEngine enabled).profiles.lookup "generic".toList = _ :=
      lookup_workerEngine
    rw [h] at hg
    exact nomatch hg
  have hgen : matchVerdict (normalizeProfile "generic".toList genericProfile genericProfile)
      reply = matchVerdict genericProfile reply :=
    matchVerdict_normalizeProfile nofun nofun nofun
  have hother : (if "generic".toList = "gmail".toList then gmailProfile
      else if "generic".toList = "microsoft".toList then microsoftProfile
      else if "generic".toList = "yahoo".toList then yahooProfile
      else genericProfile) = genericProfile := by
    rw [if_neg (by decide), if_neg (by decide), if_neg (by decide)]
  simp only [lookupProviderReplyProfile, if_neg hne]
  generalize toLower (trimSpace profile) = k
  by_cases hk : k = []
  · subst hk
    exact hgen
  · rw [if_neg hk, lookup_workerEngine, lookup_workerEngine]
    by_cases h1 : k = "generic".toList
    · rw [if_pos h1, h1, hother]
      exact hgen
    · rw [if_neg h1]
      by_cases h2 : k = "gmail".toList
      · rw [if_pos h2, if_pos h2]
        exact matchVerdict_normalizeProfile nofun nofun nofun
      · rw [if_neg h2, if_neg h2]
        by_cases h3 : k = "microsoft".toList
        · rw [if_pos h3, if_pos h3]
          exact matchVerdict_normalizeProfile nofun nofun nofun
        · rw [if_neg h3, if_neg h3]
          by_cases h4 : k = "yahoo".toList
          · rw [if_pos h4, if_pos h4]
            exact matchVerdict_normalizeProfile nofun nofun nofun
          · rw [if_neg h4, if_neg h4]
            exact hgen

/-- With the engine switched on its rule decides, if there is one. -/
theorem classifySMTPWithPolicyEngine_verdict {reply : SmtpReply Text} {profile : Text}
    {enabled adaptive : Bool} :
    (classifySMTPWithPolicyEngine .rcptTo reply profile (some (workerEngine enabled))
        adaptive).map Result.verdict =
      if enabled then
        matchVerdict (lookupProviderReplyProfile (some (workerEngine enabled)) profile) reply
      else none := by
  cases enabled with
  | false => rfl
  | true =>
    have hon : ¬ (workerEngine true).enabled = false := nofun
    simp only [classifySMTPWithPolicyEngine, if_neg hon, matchVerdict, if_true]
    cases matchProviderReplyRule
        (lookupProviderReplyProfile (some (workerEngine true)) profile) reply with
    | none => rfl
    | some rule =>
      have hcmd : ¬ (Command.rcptTo ≠ .rcptTo ∧ (ruleVerdict .rcptTo rule).1 = .valid) :=
        fun h => h.1 rfl
      simp only [if_neg hcmd, Option.map_some, withConfidenceHint_verdict,
        withPolicyContext_verdict, smtpResult_verdict]
      rw [ruleVerdict_rcptTo]

/-- What the rules of the profile of a reply say of it: nothing that rules it out, but
for a missing mailbox and the generic profile. -/
theorem matchVerdict_profile {enabled : Bool} {hint host : Text} {reply : SmtpReply Text}
    {v : Category × DecisionClass}
    (h : matchVerdict (lookupProviderReplyProfile (some (workerEngine enabled))
      (detectSMTPProviderProfile hint host reply.message)) reply = some v) :
    v = (.risky, .retryable) ∨ v = (.risky, .policyBlocked) ∨
      (v = (.invalid, .undeliverable) ∧ hasGenericProfile hint host reply = true ∧
        matchVerdict genericProfile reply = some v) := by
  rw [matchVerdict_lookup] at h
  by_cases h1 : toLower (trimSpace (detectSMTPProviderProfile hint host reply.message)) =
      "gmail".toList
  · rw [if_pos h1] at h
    exact .inl (matchVerdict_retryProfile h)
  by_cases h2 : toLower (trimSpace (detectSMTPProviderProfile hint host reply.message)) =
      "microsoft".toList
  · rw [if_neg h1, if_pos h2] at h
    exact .inl (matchVerdict_retryProfile h)
  by_cases h3 : toLower (trimSpace (detectSMTPProviderProfile hint host reply.message)) =
      "yahoo".toList
  · rw [if_neg h1, if_neg h2, if_pos h3] at h
    exact .inl (matchVerdict_retryProfile h)
  rw [if_neg h1, if_neg h2, if_neg h3] at h
  have hgeneric : hasGenericProfile hint host reply = true := by
    simp only [hasGenericProfile, List.contains_eq_mem, List.mem_cons, List.not_mem_nil,
      h1, h2, h3, or_self, decide_false, Bool.not_false]
  rcases matchVerdict_generic_mild h with rfl | hv | hv
  · exact .inr (.inr ⟨rfl, hgeneric, h⟩)
  · exact .inl hv
  · exact .inr (.inl hv)

/-- With the generic profile its rules are asked. -/
theorem matchVerdict_of_hasGenericProfile {enabled : Bool} {hint host : Text}
    {reply : SmtpReply Text} (h : hasGenericProfile hint host reply = true) :
    matchVerdict (lookupProviderReplyProfile (some (workerEngine enabled))
      (detectSMTPProviderProfile hint host reply.message)) reply =
      matchVerdict genericProfile reply := by
  simp only [hasGenericProfile, List.contains_eq_mem, List.mem_cons, List.not_mem_nil,
    or_false, Bool.not_eq_true', decide_eq_false_iff_not, not_or] at h
  rw [matchVerdict_lookup, if_neg h.1, if_neg h.2.1, if_neg h.2.2]

/-- A risky verdict is passed on as it is, and agrees. -/
theorem agrees_passedOn {reply : SmtpReply Text} {profile : Text} {allowValid : Bool}
    {result : Result} {decisionClass : DecisionClass}
    (hv : result.verdict = (.risky, decisionClass)) (hu : decisionClass ≠ .undeliverable)
    (hd : decisionClass ≠ .deliverable) :
    Agrees reply (if result.category = .valid ∧ allowValid = false then
      catchAllResult reply profile else result) := by
  have hcat : result.category = .risky := congrArg Prod.fst hv
  have hno : ¬ (result.category = .valid ∧ allowValid = false) := by
    rintro ⟨h, -⟩
    exact nomatch hcat.symm.trans h
  rw [if_neg hno]
  exact agrees_of_risky hv hu hd

/-- The verdict on a reply to `RCPT TO` agrees with the class of its code, unless the
engine is on, the profile is the generic one and a reply below 500 names a missing
mailbox. -/
theorem classifySMTPRcptReply_safe_iff {reply : SmtpReply Text} {hint host : Text}
    {allowValid enabled adaptive : Bool} :
    Agrees reply (classifySMTPRcptReply reply hint host allowValid
        (some (workerEngine enabled)) adaptive) ↔
      ¬ (enabled = true ∧ hasGenericProfile hint host reply = true ∧ reply.code < 500 ∧
        namesMissingMailbox reply = true) := by
  have hverdict := @classifySMTPWithPolicyEngine_verdict reply
    (detectSMTPProviderProfile hint host reply.message) enabled adaptive
  dsimp only [classifySMTPRcptReply]
  cases hres : classifySMTPWithPolicyEngine .rcptTo reply
      (detectSMTPProviderProfile hint host reply.message) (some (workerEngine enabled))
      adaptive with
  | none =>
    rw [hres] at hverdict
    refine iff_of_true classifyRcptCode_agrees ?_
    rintro ⟨rfl, hgeneric, hcode, hnames⟩
    -- a reply that names a missing mailbox has a rule
    rw [if_pos rfl, matchVerdict_of_hasGenericProfile hgeneric,
      (matchVerdict_generic_iff hcode).mpr hnames] at hverdict
    exact nomatch hverdict
  | some result =>
    rw [hres, Option.map_some] at hverdict
    have hon : enabled = true := by
      cases enabled with
      | true => rfl
      | false => exact nomatch hverdict
    subst hon
    rw [if_pos rfl] at hverdict
    -- what a missing mailbox makes of the verdict
    have hnamed : hasGenericProfile hint host reply = true → reply.code < 500 →
        namesMissingMailbox reply = true → result.verdict = (.invalid, .undeliverable) := by
      intro hgeneric hcode hnames
      rw [matchVerdict_of_hasGenericProfile hgeneric,
        (matchVerdict_generic_iff hcode).mpr hnames] at hverdict
      exact Option.some.inj hverdict
    rcases matchVerdict_profile hverdict.symm with hv | hv | ⟨hv, hgeneric, hm⟩
    · refine iff_of_true (agrees_passedOn hv nofun nofun) ?_
      rintro ⟨-, hgeneric, hcode, hnames⟩
      exact nomatch hv.symm.trans (hnamed hgeneric hcode hnames)
    · refine iff_of_true (agrees_passedOn hv nofun nofun) ?_
      rintro ⟨-, hgeneric, hcode, hnames⟩
      exact nomatch hv.symm.trans (hnamed hgeneric hcode hnames)
    · have hcat : result.category = .invalid := congrArg Prod.fst hv
      have hno : ¬ (result.category = .valid ∧ allowValid = false) := by
        rintro ⟨h, -⟩
        exact nomatch hcat.symm.trans h
      dsimp only
      rw [if_neg hno]
      constructor
      · rintro hagrees ⟨-, -, hcode, -⟩
        have := hagrees.1 (.inl hcat)
        omega
      · intro hnot
        refine agrees_of_verdict hv (fun _ => ?_) (fun h => nomatch h)
        by_contra hcode
        rw [hv] at hm
        exact hnot ⟨rfl, hgeneric, by omega, (matchVerdict_generic_iff (by omega)).mp hm⟩

/-- `454 Mailbox unavailable` is transient, and the default engine rejects on it. -/
def transientReply : SmtpReply Text where
  code := 454
  enhancedCode := []
  message := "Mailbox unavailable".toList
  lines := ["454 Mailbox unavailable".toList]

theorem transientReply_rejected :
    ¬ ∀ (reply : SmtpReply Text) (hint host : Text) (allowValid enabled adaptive : Bool),
      Agrees reply (classifySMTPRcptReply reply hint host allowValid
        (some (workerEngine enabled)) adaptive) := by
  intro h
  have hcode : 500 ≤ transientReply.code :=
    (h transientReply [] "mx.example.org".toList true true false).1 (.inl (by decide +kernel))
  exact absurd hcode (by decide)

end ValidEmailVerifier.Smtp
