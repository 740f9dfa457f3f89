/-
# `Engine.SessionReplies` — which replies end a session before the recipient is named

The rules of a profile are matched before the code of a reply is looked at, and they match
words anywhere in its text.  So a greeting of success ends the session with the default engine
when its text has one of the words of a rule (`continues_iff`); and a rule that rules the
address out without saying so of the recipient makes an invalid address of a sender that is
refused (`notInvalid_iff`).
-/
import ValidEmailVerifier.Engine.Normalization
import ValidEmailVerifier.Smtp.Verdicts

namespace ValidEmailVerifier.Engine

open GoJson GoStrings Worker
open Smtp (SmtpReply Command detectSMTPProviderProfile ruleWords mailboxPrefixes otherPrefixes
  greylistWords blockedWords mailboxWords fullWords authWords)

/-! ## What a profile looks for -/

namespace ProviderReplyProfile

def prefixes (profile : ProviderReplyProfile) : List Text :=
  profile.enhancedRules.flatMap fun rule => ruleWords rule.enhancedPrefixes

def codes (profile : ProviderReplyProfile) : List Int :=
  profile.smtpCodeRules.flatMap fun rule => rule.smtpCodes.map Int64.toInt

def words (profile : ProviderReplyProfile) : List Text :=
  profile.messageRules.flatMap fun rule => ruleWords rule.messageContains

def rules (profile : ProviderReplyProfile) : List ProviderReplyRule :=
  profile.enhancedRules ++ profile.smtpCodeRules ++ profile.messageRules

end ProviderReplyProfile

theorem matchProviderReplyRule_eq {profile : ProviderReplyProfile} {reply : SmtpReply Text} :
    matchProviderReplyRule profile reply =
      ((profile.enhancedRules.find? fun rule =>
          hasPrefixAny reply.enhanced (ruleWords rule.enhancedPrefixes)).or
        (profile.smtpCodeRules.find? fun rule =>
          (rule.smtpCodes.map Int64.toInt).contains reply.code)).or
        (profile.messageRules.find? fun rule =>
          containsAny reply.words (ruleWords rule.messageContains)) := by
  simp only [matchProviderReplyRule, Option.orElse_eq_orElse, Option.orElse_eq_or, Option.or_assoc]
  rfl

/-- No rule matches a reply that has nothing of what the profile looks for. -/
theorem matchProviderReplyRule_eq_none {profile : ProviderReplyProfile}
    {reply : SmtpReply Text} :
    matchProviderReplyRule profile reply = none ↔
      hasPrefixAny reply.enhanced profile.prefixes = false ∧ reply.code ∉ profile.codes ∧
        containsAny reply.words profile.words = false := by
  rw [matchProviderReplyRule_eq, Option.or_eq_none_iff, Option.or_eq_none_iff,
    List.find?_eq_none, List.find?_eq_none, List.find?_eq_none]
  simp only [ProviderReplyProfile.prefixes, ProviderReplyProfile.codes,
    ProviderReplyProfile.words, hasPrefixAny, containsAny, List.any_flatMap, List.any_eq_false,
    List.contains_eq_mem, List.mem_flatMap, decide_eq_true_eq, not_exists, not_and, and_assoc]

theorem mem_rules_of_match {profile : ProviderReplyProfile} {reply : SmtpReply Text}
    {rule : ProviderReplyRule} (h : matchProviderReplyRule profile reply = some rule) :
    rule ∈ profile.rules := by
  rw [matchProviderReplyRule_eq, Option.or_eq_some_iff, Option.or_eq_some_iff] at h
  rw [ProviderReplyProfile.rules, List.mem_append, List.mem_append]
  rcases h with (h | ⟨-, h⟩) | ⟨-, h⟩
  · exact .inl (.inl (List.mem_of_find?_eq_some h))
  · exact .inl (.inr (List.mem_of_find?_eq_some h))
  · exact .inr (List.mem_of_find?_eq_some h)

/-! ## The profiles of the default engine -/

/-- The default profile that the replies of a provider are matched with, and its key. -/
def defaultProfile (key : Text) : Text × ProviderReplyProfile :=
  match defaultProviderReplyProfiles.lookup key with
  | some profile => (key, profile)
  | none => ("generic".toList, genericProfile)

theorem defaultProfile_mem (key : Text) : defaultProfile key ∈ defaultProviderReplyProfiles := by
  rw [defaultProfile]
  split
  · next profile hlookup => exact mem_of_lookup hlookup
  · exact .head _

section

variable {F : Type} [Floats F]

/-- The default engine has the default profiles, normalised. -/
theorem getElem?_defaultProfiles (key : Text) :
    (defaultProviderReplyPolicyEngine : ProviderReplyPolicyEngine F).profiles[key]? =
      (defaultProviderReplyProfiles.lookup key).map fun d => normalizeProfile key d d := by
  rw [defaultProviderReplyPolicyEngine, profiles_normalize, normalizedProfiles,
    getElem?_complete defaultProfiles_nodup, defaultEngine,
    getElem?_ofList defaultProfiles_nodup]
  cases defaultProviderReplyProfiles.lookup key with
  | none => rfl
  | some d => rfl

/-- A default profile as the default engine has it. -/
def normalized (e : Text × ProviderReplyProfile) : ProviderReplyProfile :=
  normalizeProfile e.1 e.2 e.2

/-- The default engine matches a reply with the default profile of its provider. -/
theorem match_default (provider : Text) (reply : SmtpReply Text) :
    matchProviderReplyRule (lookupProviderReplyProfile
        (some (defaultProviderReplyPolicyEngine : ProviderReplyPolicyEngine F)) provider) reply =
      matchProviderReplyRule (normalized (defaultProfile (toLower (trimSpace provider))))
        reply := by
  have hgeneric : defaultProviderReplyProfiles.lookup "generic".toList = some genericProfile :=
    rfl
  have hne : (defaultProviderReplyPolicyEngine : ProviderReplyPolicyEngine F).profiles.isEmpty =
      false := by
    have hmem : "generic".toList ∈
        (defaultProviderReplyPolicyEngine : ProviderReplyPolicyEngine F).profiles := by
      rw [Std.ExtTreeMap.mem_iff_isSome_getElem?, getElem?_defaultProfiles, hgeneric]
      rfl
    refine Std.ExtTreeMap.isEmpty_eq_false_iff.mpr fun hempty => ?_
    rw [hempty] at hmem
    exact Std.ExtTreeMap.not_mem_empty hmem
  rw [lookupProviderReplyProfile]
  generalize toLower (trimSpace provider) = key
  simp only [hne, Bool.false_eq_true, if_false, getElem?_defaultProfiles, defaultProfile]
  by_cases hkey : key = []
  · subst hkey
    rfl
  · rw [if_neg hkey]
    cases hlookup : defaultProviderReplyProfiles.lookup key with
    | some d => rfl
    | none =>
      rw [hgeneric]
      rfl

end

/-- The beginnings of an enhanced code that the default rules know, by the provider. -/
def stoppingPrefixes (key : Text) : List Text :=
  if key ∈ ["gmail".toList, "microsoft".toList, "yahoo".toList] then ["4.7.".toList]
  else mailboxPrefixes ++ otherPrefixes ++ ["4.2.2".toList]

/-- The words that they know. -/
def stoppingWords (key : Text) : List Text :=
  if key = "gmail".toList then
    ["rate limited".toList, "temporarily deferred".toList, "try again later".toList]
  else if key = "microsoft".toList then
    ["temporarily deferred".toList, "throttled".toList, "try this again later".toList]
  else if key = "yahoo".toList then
    ["temporarily deferred".toList, "temporarily unavailable".toList, "try again later".toList]
  else greylistWords ++ blockedWords ++ mailboxWords ++ fullWords ++ authWords

theorem looksFor_normalized : ∀ e ∈ defaultProviderReplyProfiles,
    (normalized e).prefixes = stoppingPrefixes e.1 ∧ (normalized e).words = stoppingWords e.1 ∧
      (∀ code ∈ (normalized e).codes, 400 ≤ code) ∧
      ∀ rule ∈ (normalized e).rules,
        trimmedOr rule.category "risky".toList ≠ "valid".toList := by
  decide +kernel

/-- A provider without a profile of its own is matched like any other. -/
theorem stopping_defaultProfile (key : Text) :
    stoppingPrefixes (defaultProfile key).1 = stoppingPrefixes key ∧
      stoppingWords (defaultProfile key).1 = stoppingWords key := by
  rw [defaultProfile]
  split
  · exact ⟨rfl, rfl⟩
  · next hnone =>
    have hother : ∀ e ∈ defaultProviderReplyProfiles, key ≠ e.1 := by
      rintro e he rfl
      rw [lookup_of_mem defaultProfiles_nodup he] at hnone
      exact nomatch hnone
    have hgmail : key ≠ "gmail".toList := hother _ (.tail _ (.head _))
    have hmicrosoft : key ≠ "microsoft".toList := hother _ (.tail _ (.tail _ (.head _)))
    have hyahoo : key ≠ "yahoo".toList := hother _ (.tail _ (.tail _ (.tail _ (.head _))))
    have hnot : key ∉ ["gmail".toList, "microsoft".toList, "yahoo".toList] := by
      simp only [List.mem_cons, List.not_mem_nil, or_false, not_or]
      exact ⟨hgmail, hmicrosoft, hyahoo⟩
    constructor
    · rw [stoppingPrefixes, stoppingPrefixes, if_neg hnot]
      rfl
    · rw [stoppingWords, stoppingWords, if_neg hgmail, if_neg hmicrosoft, if_neg hyahoo]
      rfl

/-! ## Greetings -/

/-- The provider that a reply is taken to come from. -/
def providerOf (providerHint host : Text) (reply : SmtpReply Text) : Text :=
  toLower (trimSpace (detectSMTPProviderProfile providerHint host reply.message))

/-- A reply with no enhanced code and no word of a default rule. -/
def Unremarkable (providerHint host : Text) (reply : SmtpReply Text) : Prop :=
  hasPrefixAny reply.enhanced (stoppingPrefixes (providerOf providerHint host reply)) = false ∧
    containsAny reply.words (stoppingWords (providerOf providerHint host reply)) = false

instance (providerHint host : Text) (reply : SmtpReply Text) :
    Decidable (Unremarkable providerHint host reply) :=
  inferInstanceAs (Decidable (_ ∧ _))

section

variable {F : Type} [Floats F] {reply : SmtpReply Text}

/-- The default rules match a reply of success exactly if it is remarkable. -/
theorem match_default_eq_none (providerHint host : Text)
    (hcode : 200 ≤ reply.code ∧ reply.code < 300) :
    matchProviderReplyRule (lookupProviderReplyProfile
        (some (defaultProviderReplyPolicyEngine : ProviderReplyPolicyEngine F))
        (detectSMTPProviderProfile providerHint host reply.message)) reply = none ↔
      Unremarkable providerHint host reply := by
  obtain ⟨hprefixes, hwords⟩ := stopping_defaultProfile (providerOf providerHint host reply)
  obtain ⟨hp, hw, hcodes, -⟩ :=
    looksFor_normalized _ (defaultProfile_mem (providerOf providerHint host reply))
  have hnot : reply.code ∉
      (normalized (defaultProfile (providerOf providerHint host reply))).codes := by
    intro hmem
    have := hcodes _ hmem
    omega
  rw [match_default, matchProviderReplyRule_eq_none, ← providerOf]
  rw [hp, hw, hprefixes, hwords, Unremarkable]
  exact ⟨fun h => ⟨h.1, h.2.2⟩, fun h => ⟨h.1, hnot, h.2⟩⟩

/-- No default rule accepts an address. -/
theorem category_default {provider : Text} {rule : ProviderReplyRule}
    (h : matchProviderReplyRule (lookupProviderReplyProfile
      (some (defaultProviderReplyPolicyEngine : ProviderReplyPolicyEngine F)) provider) reply =
        some rule) : trimmedOr rule.category "risky".toList ≠ "valid".toList := by
  rw [match_default] at h
  exact (looksFor_normalized _ (defaultProfile_mem _)).2.2.2 rule (mem_rules_of_match h)

/-- A greeting of success lets the session go on with the default engine exactly if it is
unremarkable. -/
theorem continues_iff {command : Command} (hcommand : command ∈ [.banner, .ehlo, .helo])
    (hcode : 200 ≤ reply.code ∧ reply.code < 300) (providerHint host : Text)
    (adaptiveRetryEnabled : Bool) :
    classifySMTPSessionReply command reply providerHint host
        (some (defaultProviderReplyPolicyEngine : ProviderReplyPolicyEngine F))
        adaptiveRetryEnabled = none ↔
      Unremarkable providerHint host reply := by
  have hon : ¬ (defaultProviderReplyPolicyEngine : ProviderReplyPolicyEngine F).enabled = false :=
    Bool.noConfusion
  rw [← match_default_eq_none (F := F) providerHint host hcode, classifySMTPSessionReply]
  simp only [classifySMTPWithPolicyEngine, if_neg hon]
  cases hmatch : matchProviderReplyRule (lookupProviderReplyProfile
      (some (defaultProviderReplyPolicyEngine : ProviderReplyPolicyEngine F))
      (detectSMTPProviderProfile providerHint host reply.message)) reply with
  | none => exact iff_of_true (if_pos hcode) rfl
  | some rule =>
    have hmail : ¬ (command = .mailFrom ∧
        trimmedOr rule.decisionClass "unknown".toList = "undeliverable".toList) := by
      rintro ⟨rfl, -⟩
      exact absurd hcommand (by decide)
    have hcategory := category_default (F := F) hmatch
    simp only [ruleVerdict, if_neg hmail, if_neg fun h => hcategory (And.right h)]
    exact iff_of_false (Option.some_ne_none _) (Option.some_ne_none _)

end

/-- `220 mx.example.org ready`. -/
def plainGreeting : SmtpReply Text where
  code := 220
  enhancedCode := []
  message := "mx.example.org ready".toList
  lines := ["220 mx.example.org ready".toList]

theorem continues_plainGreeting :
    classifySMTPSessionReply .banner plainGreeting [] "mx.example.org".toList
      (some (defaultProviderReplyPolicyEngine : ProviderReplyPolicyEngine Number)) true = none :=
  (continues_iff (by decide) (by decide) _ _ _).mpr (by decide +kernel)

/-- The capabilities of a server, the last of them `250 AUTH LOGIN PLAIN`. -/
def capabilities : SmtpReply Text where
  code := 250
  enhancedCode := []
  message := "AUTH LOGIN PLAIN".toList
  lines := ["250-SIZE 35882577".toList, "250 AUTH LOGIN PLAIN".toList]

/-- They are taken for a block by policy. -/
theorem continues_fails : ¬ ∀ command ∈ [Command.banner, .ehlo, .helo],
    ∀ (reply : SmtpReply Text) (providerHint host : Text) (adaptiveRetryEnabled : Bool),
      200 ≤ reply.code ∧ reply.code < 300 →
        classifySMTPSessionReply command reply providerHint host
          (some (defaultProviderReplyPolicyEngine : ProviderReplyPolicyEngine Number))
          adaptiveRetryEnabled = none := by
  intro hall
  have hnone := hall .ehlo (by decide) capabilities [] "mx.example.org".toList true (by decide)
  have hblocked : (classifySMTPSessionReply .ehlo capabilities [] "mx.example.org".toList
      (some (defaultProviderReplyPolicyEngine : ProviderReplyPolicyEngine Number)) true).map
        Result.decisionClass = some "policy_blocked".toList := by decide +kernel
  rw [hnone] at hblocked
  exact nomatch hblocked

/-! ## Senders that are refused -/

/-- The rule that decides on a reply, with an engine that is switched on. -/
def decidingRule {F : Type} [Floats F] (engine : ProviderReplyPolicyEngine F)
    (reply : SmtpReply Text) (providerHint host : Text) : Option ProviderReplyRule :=
  if engine.enabled then
    matchProviderReplyRule (lookupProviderReplyProfile (some engine)
      (detectSMTPProviderProfile providerHint host reply.message)) reply
  else none

/-- The rule makes an address invalid without calling it undeliverable. -/
def ProviderReplyRule.RulesOut (rule : ProviderReplyRule) : Prop :=
  trimSpace rule.category = "invalid".toList ∧
    trimSpace rule.decisionClass ≠ "undeliverable".toList

theorem category_withConfidenceHint (value : Text) (result : Result) :
    (withConfidenceHint value result).category = result.category := by
  rw [withConfidenceHint]
  split_ifs
  · rfl
  · rfl

theorem trimmedOr_eq_iff {value fallback expected : Text} (hne : expected ≠ [])
    (hfallback : fallback ≠ expected) :
    trimmedOr value fallback = expected ↔ trimSpace value = expected := by
  rw [trimmedOr]
  split_ifs with hblank
  · rw [hblank]
    exact iff_of_false hfallback (Ne.symm hne)
  · exact Iff.rfl

/-- For `MAIL FROM` only a rule of this kind makes an address invalid. -/
theorem ruleVerdict_mailFrom {rule : ProviderReplyRule} :
    (ruleVerdict .mailFrom rule).1 = "invalid".toList ↔ rule.RulesOut := by
  have hcategory : trimmedOr rule.category "risky".toList = "invalid".toList ↔
      trimSpace rule.category = "invalid".toList := trimmedOr_eq_iff (by decide) (by decide)
  have hclass : trimmedOr rule.decisionClass "unknown".toList = "undeliverable".toList ↔
      trimSpace rule.decisionClass = "undeliverable".toList :=
    trimmedOr_eq_iff (by decide) (by decide)
  rw [ruleVerdict, ProviderReplyRule.RulesOut, Ne, ← hclass, ← hcategory]
  split_ifs with hdown
  · exact iff_of_false (by decide) fun h => h.2 hdown.2
  · exact ⟨fun h => ⟨h, fun hu => hdown ⟨rfl, hu⟩⟩, And.left⟩

section

variable {F : Type} [Floats F]

/-- Without a rule no reply to `MAIL FROM` makes an address invalid. -/
theorem mailFrom_notInvalid_of_none {engine : Option (ProviderReplyPolicyEngine F)}
    {reply : SmtpReply Text} {providerHint host : Text} {adaptiveRetryEnabled : Bool}
    (hnone : classifySMTPWithPolicyEngine .mailFrom reply
      (detectSMTPProviderProfile providerHint host reply.message) engine adaptiveRetryEnabled =
        none) :
    ∀ result ∈ classifySMTPSessionReply .mailFrom reply providerHint host engine
      adaptiveRetryEnabled, result.category ≠ "invalid".toList := by
  intro result hresult
  have hrisky : "risky".toList ≠ "invalid".toList := by decide
  rw [classifySMTPSessionReply] at hresult
  simp only [hnone] at hresult
  split_ifs at hresult
  · cases hresult
  · obtain rfl := Option.some.inj hresult
    exact hrisky
  · obtain rfl := Option.some.inj hresult
    exact hrisky
  · obtain rfl := Option.some.inj hresult
    exact hrisky
  · obtain rfl := Option.some.inj hresult
    exact hrisky

/-- What the engine makes of the rule that matches a reply: a result of the category of the
rule, or nothing, if the rule accepts the address before the recipient is named. -/
theorem classifySMTPWithPolicyEngine_rule {engine : ProviderReplyPolicyEngine F}
    {reply : SmtpReply Text} {profile : Text} {rule : ProviderReplyRule} (command : Command)
    (adaptiveRetryEnabled : Bool) (hon : engine.enabled = true)
    (hmatch : matchProviderReplyRule (lookupProviderReplyProfile (some engine) profile) reply =
      some rule) :
    (classifySMTPWithPolicyEngine command reply profile (some engine) adaptiveRetryEnabled).map
        Result.category =
      if command ≠ .rcptTo ∧ (ruleVerdict command rule).1 = "valid".toList then none
      else some (ruleVerdict command rule).1 := by
  have hnot : ¬ engine.enabled = false := by rw [hon]; exact nofun
  simp only [classifySMTPWithPolicyEngine, if_neg hnot, hmatch]
  by_cases hvalid : command ≠ .rcptTo ∧ (ruleVerdict command rule).1 = "valid".toList
  · rw [if_pos hvalid, if_pos hvalid]
    rfl
  · rw [if_neg hvalid, if_neg hvalid, Option.map_some, category_withConfidenceHint]
    rfl

end

/-- `{"enabled": true, "profiles": {"generic": {"smtp_code_rules": [{"smtp_codes": [550],
"decision_class": "unknown", "category": "invalid"}]}}}`. -/
def refusingPayload : Json :=
  .obj [("enabled".toList, .bool true),
    ("profiles".toList, .obj [("generic".toList, .obj [("smtp_code_rules".toList, .arr [.obj
      [("smtp_codes".toList, .arr [.num ⟨false, 550, none⟩]),
        ("decision_class".toList, .str "unknown".toList),
        ("category".toList, .str "invalid".toList)]])])])]

/-- `550 sender rejected`. -/
def senderRejected : SmtpReply Text where
  code := 550
  enhancedCode := []
  message := "sender rejected".toList
  lines := ["550 sender rejected".toList]

end ValidEmailVerifier.Engine
