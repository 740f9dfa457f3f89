/-
# `Engine.Providers` — the configuration for the mail of a provider

Mail is verified with the configuration of the policy that its domain matches: the limits of
the policy, and over them those of the session rule of the reply policy engine, scaled by the
mode of the provider.  The verifiers are cached by the name of the policy.

A session rule takes no notice of the limits of the policy (`respects_iff`), and policies of one
name share a verifier, as do the policy that is called `default` and the mail that no policy
matches (`ownConfigs_iff`).  The conversion of a domain to ASCII is that of a package, and is a
parameter here; so is the product of a number and a multiplier.
-/
import Mathlib.Algebra.Group.Int.Defs
import ValidEmailVerifier.Engine.SessionReplies
import ValidEmailVerifier.Lib.Text

/-- `int(float64(base) * multiplier)`. -/
class Scales (F : Type) extends Floats F where
  scale : Int64 → F → Int64

/-- Decimals are multiplied exactly, and cut off. -/
instance : Scales Number where
  scale base n :=
    let product := base.toInt * (if n.negative then -(n.digits : Int) else n.digits)
    match n.exponent with
    | none => Int64.ofInt product
    | some (.ofNat e) => Int64.ofInt (product * 10 ^ e)
    | some (.negSucc e) => Int64.ofInt (product.tdiv (10 ^ (e + 1)))

namespace ValidEmailVerifier.Engine

open GoJson GoStrings Worker

/-! ## Configurations -/

/-- What of a configuration depends on the provider, and what that depends on. -/
structure Config (F : Type) [Floats F] where
  retryableNetworkRetries : Int64 := 0
  backoffBaseMs : Int64 := 0
  perDomainConcurrency : Int64 := 0
  smtpRateLimitPerMinute : Int64 := 0
  retryJitterPercent : Int64 := 0
  reuseConnectionForRetries : Bool := false
  ehloProfile : Text := []
  providerModes : GoMap Text := ∅
  providerReplyPolicyEngine : Option (ProviderReplyPolicyEngine F) := none

structure ProviderPolicy where
  name : Text
  enabled : Bool := true
  domains : List Text := []
  perDomainConcurrency : Option Int64 := none
  connectsPerMinute : Option Int64 := none
  tempfailBackoffSeconds : Option Int64 := none
  retryableNetworkRetries : Option Int64 := none
  deriving DecidableEq

def providerModeFor (modes : GoMap Text) (provider : Text) : Text :=
  let mode := toLower (trimSpace (modes[provider]?.getD []))
  if mode = [] then "normal".toList else mode

section

variable {F : Type} [Scales F]

/-- The default rule of a mode, or that of the normal one. -/
def defaultModeRule (mode : Text) : ProviderModeRule F :=
  (defaultProviderModeRules.lookup mode).getD
    ⟨true, literal ⟨false, 1, none⟩, literal ⟨false, 1, none⟩⟩

def lookupProviderModeRule (engine : ProviderReplyPolicyEngine F) (mode : Text) :
    ProviderModeRule F :=
  let mode := if toLower (trimSpace mode) = [] then "normal".toList else toLower (trimSpace mode)
  match engine.modes[mode]? with
  | none => defaultModeRule mode
  | some modeRule =>
      -- a mode that has no default has no multiplier to fall back to
      let fallback := (defaultProviderModeRules.lookup mode).getD
        ⟨false, Floats.zero, Floats.zero⟩
      { probeEnabled :=
          if mode = "drain".toList ∨ mode = "quarantine".toList then false
          else modeRule.probeEnabled
        maxConcurrencyMultiplier :=
          orMultiplier modeRule.maxConcurrencyMultiplier fallback.maxConcurrencyMultiplier
        connectsPerMinuteMultiplier :=
          orMultiplier modeRule.connectsPerMinuteMultiplier fallback.connectsPerMinuteMultiplier }

def applyMultiplier (base : Int64) (multiplier : F) : Int64 :=
  if base ≤ 0 then 0
  else if Floats.positive multiplier = false then 1
  else if Scales.scale base multiplier < 1 then 1
  else Scales.scale base multiplier

/-- The policy alone. -/
def withPolicy (config : Config F) (policy : ProviderPolicy) : Config F :=
  { config with
    perDomainConcurrency := policy.perDomainConcurrency.getD config.perDomainConcurrency
    smtpRateLimitPerMinute := policy.connectsPerMinute.getD config.smtpRateLimitPerMinute
    backoffBaseMs := (policy.tempfailBackoffSeconds.map (· * 1000)).getD config.backoffBaseMs
    retryableNetworkRetries :=
      policy.retryableNetworkRetries.getD config.retryableNetworkRetries }

/-- The session rule over it. -/
def withSession (config : Config F) (session : ProviderSessionRule)
    (modeRule : ProviderModeRule F) : Config F :=
  { config with
    perDomainConcurrency :=
      if 0 < session.maxConcurrency then
        applyMultiplier session.maxConcurrency modeRule.maxConcurrencyMultiplier
      else config.perDomainConcurrency
    smtpRateLimitPerMinute :=
      if 0 < session.connectsPerMinute then
        applyMultiplier session.connectsPerMinute modeRule.connectsPerMinuteMultiplier
      else config.smtpRateLimitPerMinute
    retryJitterPercent := session.retryJitterPercent
    reuseConnectionForRetries := session.reuseConnectionForRetries
    ehloProfile :=
      if trimSpace session.ehloProfile = [] then "default".toList
      else trimSpace session.ehloProfile }

/-- The engine need not be enabled. -/
def applyProviderOverrides (config : Config F) (policy : ProviderPolicy) : Config F :=
  let providerName := toLower (trimSpace policy.name)
  match config.providerReplyPolicyEngine with
  | none => withPolicy config policy
  | some engine =>
      if providerName = [] then withPolicy config policy
      else
        withSession (withPolicy config policy)
          (lookupProviderReplyProfile (some engine) providerName).session
          (lookupProviderModeRule engine (providerModeFor config.providerModes providerName))

end

/-! ## Policies and domains -/

/-- `strings.TrimPrefix`. -/
def trimPrefix (front s : Text) : Text := if front.isPrefixOf s then s.drop front.length else s

def domainMatchesSuffix (domain suffix : Text) : Bool :=
  let domain := toLower (trimSpace domain)
  let suffix := trimPrefix "*.".toList (trimPrefix ".".toList (toLower (trimSpace suffix)))
  if domain = [] ∨ suffix = [] then false
  else domain = suffix || ('.' :: suffix).isSuffixOf domain

def domainFromEmail (toASCII : Text → Option Text) (email : Text) : Text :=
  let normalized := trimSpace (toLower email)
  if '@' ∉ normalized then []
  else
    let domain := trimSpace (Text.after '@' normalized)
    if domain = [] then []
    else
      match toASCII domain with
      | none => []
      | some asciiDomain =>
          toLower (if ['.'].isSuffixOf asciiDomain then asciiDomain.dropLast else asciiDomain)

/-- The key of the verifier, and the policy. -/
def matchPolicy (policies : List ProviderPolicy) (domain : Text) : Text × Option ProviderPolicy :=
  if domain = [] then ("default".toList, none)
  else
    match policies.find? fun policy =>
        policy.enabled && policy.domains.any (domainMatchesSuffix domain) with
    | some policy => (policy.name, some policy)
    | none => ("default".toList, none)

/-! ## Limits -/

/-- The two limits that a policy, a session rule and a mode speak of. -/
inductive Limit where
  | perDomainConcurrency | connectsPerMinute
  deriving DecidableEq, Repr

namespace Limit

def ofPolicy (policy : ProviderPolicy) : Limit → Option Int64
  | .perDomainConcurrency => policy.perDomainConcurrency
  | .connectsPerMinute => policy.connectsPerMinute

def ofSession (session : ProviderSessionRule) : Limit → Int64
  | .perDomainConcurrency => session.maxConcurrency
  | .connectsPerMinute => session.connectsPerMinute

section

variable {F : Type} [Scales F]

def ofModeRule (modeRule : ProviderModeRule F) : Limit → F
  | .perDomainConcurrency => modeRule.maxConcurrencyMultiplier
  | .connectsPerMinute => modeRule.connectsPerMinuteMultiplier

def ofConfig (config : Config F) : Limit → Int64
  | .perDomainConcurrency => config.perDomainConcurrency
  | .connectsPerMinute => config.smtpRateLimitPerMinute

end

end Limit

section

variable {F : Type} [Scales F]

/-- The configuration that is used while the provider of the policy is in a mode. -/
def inMode (config : Config F) (policy : ProviderPolicy) (mode : Text) : Config F :=
  applyProviderOverrides
    { config with
      providerModes := config.providerModes.insert (toLower (trimSpace policy.name)) mode } policy

/-- A positive limit of the policy is a cap, and no mode that is to slow the worker down raises
a limit. -/
def Respected (config : Config F) (policy : ProviderPolicy) : Prop :=
  ∀ limit : Limit,
    (∀ cap ∈ limit.ofPolicy policy, 0 < cap →
      limit.ofConfig (applyProviderOverrides config policy) ≤ cap) ∧
    ∀ mode ∈ ["cautious".toList, "drain".toList],
      limit.ofConfig (inMode config policy mode) ≤
        limit.ofConfig (inMode config policy "normal".toList)

/-- The engine and its session rule, if they are asked. -/
def sessionFor (config : Config F) (policy : ProviderPolicy) :
    Option (ProviderReplyPolicyEngine F × ProviderSessionRule) :=
  if toLower (trimSpace policy.name) = [] then none
  else config.providerReplyPolicyEngine.map fun engine =>
    (engine, (lookupProviderReplyProfile (some engine) (toLower (trimSpace policy.name))).session)

/-- What a session rule makes of its limit in a mode. -/
def scaled (engine : ProviderReplyPolicyEngine F) (session : ProviderSessionRule) (mode : Text)
    (limit : Limit) : Int64 :=
  applyMultiplier (limit.ofSession session)
    (limit.ofModeRule (lookupProviderModeRule engine mode))

/-- The session rule that is asked, if it has a limit, is within that of the policy, and its
multipliers are ordered like the modes. -/
def WithinLimits (config : Config F) (policy : ProviderPolicy) : Prop :=
  ∀ asked ∈ sessionFor config policy, ∀ limit : Limit, 0 < limit.ofSession asked.2 →
    (∀ cap ∈ limit.ofPolicy policy, 0 < cap →
      scaled asked.1 asked.2
        (providerModeFor config.providerModes (toLower (trimSpace policy.name))) limit ≤ cap) ∧
    ∀ mode ∈ ["cautious".toList, "drain".toList],
      scaled asked.1 asked.2 mode limit ≤ scaled asked.1 asked.2 "normal".toList limit

/-- A limit is that of the session rule, if one is asked and has it, or else that of the policy,
or else that of the base. -/
theorem ofConfig_applyProviderOverrides (limit : Limit) (config : Config F)
    (policy : ProviderPolicy) :
    limit.ofConfig (applyProviderOverrides config policy) =
      match sessionFor config policy with
      | none => (limit.ofPolicy policy).getD (limit.ofConfig config)
      | some asked =>
          if 0 < limit.ofSession asked.2 then
            scaled asked.1 asked.2
              (providerModeFor config.providerModes (toLower (trimSpace policy.name))) limit
          else (limit.ofPolicy policy).getD (limit.ofConfig config) := by
  rw [applyProviderOverrides, sessionFor]
  cases config.providerReplyPolicyEngine with
  | none => cases limit <;> split_ifs <;> rfl
  | some engine =>
    dsimp only
    split_ifs
    · cases limit <;> rfl
    · cases limit <;> rfl

theorem providerModeFor_insert (modes : GoMap Text) (key : Text) {mode : Text}
    (h : toLower (trimSpace mode) = mode) (hne : mode ≠ []) :
    providerModeFor (modes.insert key mode) key = mode := by
  rw [providerModeFor, Std.ExtTreeMap.getElem?_insert_self]
  simp only [Option.getD_some, h, if_neg hne]

/-- In a mode of that name the limit is the scaled one. -/
theorem ofConfig_inMode (limit : Limit) (config : Config F) (policy : ProviderPolicy)
    {mode : Text} (h : toLower (trimSpace mode) = mode) (hne : mode ≠ []) :
    limit.ofConfig (inMode config policy mode) =
      match sessionFor config policy with
      | none => (limit.ofPolicy policy).getD (limit.ofConfig config)
      | some asked =>
          if 0 < limit.ofSession asked.2 then scaled asked.1 asked.2 mode limit
          else (limit.ofPolicy policy).getD (limit.ofConfig config) := by
  rw [inMode, ofConfig_applyProviderOverrides]
  dsimp only
  rw [providerModeFor_insert _ _ h hne]
  cases limit <;> rfl

/-- A limit that no session rule has is that of the policy in every mode. -/
theorem respected_of_own {limit : Limit} {config : Config F} {policy : ProviderPolicy}
    (h : ∀ asked ∈ sessionFor config policy, ¬ 0 < limit.ofSession asked.2) :
    limit.ofConfig (applyProviderOverrides config policy) =
        (limit.ofPolicy policy).getD (limit.ofConfig config) ∧
      ∀ mode, toLower (trimSpace mode) = mode → mode ≠ [] →
        limit.ofConfig (inMode config policy mode) =
          (limit.ofPolicy policy).getD (limit.ofConfig config) := by
  refine ⟨?_, fun mode hmode hne => ?_⟩
  · rw [ofConfig_applyProviderOverrides]
    cases hasked : sessionFor config policy with
    | none => rfl
    | some asked => exact if_neg (h asked hasked)
  · rw [ofConfig_inMode limit config policy hmode hne]
    cases hasked : sessionFor config policy with
    | none => rfl
    | some asked => exact if_neg (h asked hasked)

/-- The limits of a policy are respected exactly if the session rule that is asked is within
them. -/
theorem respected_iff (config : Config F) (policy : ProviderPolicy) :
    Respected config policy ↔ WithinLimits config policy := by
  have hmodes : ∀ mode ∈ ["normal".toList, "cautious".toList, "drain".toList],
      toLower (trimSpace mode) = mode ∧ mode ≠ [] := by decide
  have hslow : ∀ mode ∈ ["cautious".toList, "drain".toList],
      toLower (trimSpace mode) = mode ∧ mode ≠ [] := fun mode h => hmodes mode (.tail _ h)
  obtain ⟨hnormal, hnonempty⟩ := hmodes _ (.head _)
  constructor
  · intro hrespected asked hasked limit hpositive
    obtain ⟨hcap, hmode⟩ := hrespected limit
    rw [ofConfig_applyProviderOverrides, hasked] at hcap
    rw [ofConfig_inMode _ _ _ hnormal hnonempty, hasked] at hmode
    dsimp only at hcap hmode
    rw [if_pos hpositive] at hcap hmode
    refine ⟨hcap, fun mode hmem => ?_⟩
    have hle := hmode mode hmem
    rw [ofConfig_inMode _ _ _ (hslow mode hmem).1 (hslow mode hmem).2, hasked] at hle
    dsimp only at hle
    rw [if_pos hpositive] at hle
    exact hle
  · intro hwithin limit
    by_cases hown : ∀ asked ∈ sessionFor config policy, ¬ 0 < limit.ofSession asked.2
    · obtain ⟨hlimit, hlimits⟩ := respected_of_own hown
      refine ⟨fun cap hcap _ => ?_, fun mode hmem => ?_⟩
      · rw [hlimit, hcap]
        exact Int64.le_refl _
      · rw [hlimits mode (hslow mode hmem).1 (hslow mode hmem).2,
          hlimits _ hnormal hnonempty]
        exact Int64.le_refl _
    · obtain ⟨asked, hasked, hpositive⟩ :
          ∃ asked ∈ sessionFor config policy, 0 < limit.ofSession asked.2 := by
        by_contra hnone
        exact hown fun asked hasked hpositive => hnone ⟨asked, hasked, hpositive⟩
      obtain ⟨hcap, hmode⟩ := hwithin asked hasked limit hpositive
      rw [Option.mem_def] at hasked
      rw [ofConfig_applyProviderOverrides, ofConfig_inMode _ _ _ hnormal hnonempty, hasked]
      dsimp only
      rw [if_pos hpositive, if_pos hpositive]
      refine ⟨hcap, fun mode hmem => ?_⟩
      rw [ofConfig_inMode _ _ _ (hslow mode hmem).1 (hslow mode hmem).2, hasked]
      dsimp only
      rw [if_pos hpositive]
      exact hmode mode hmem

end

/-- The mail of gmail with one connection at a time, by the policy. -/
def onePerDomain : ProviderPolicy where
  name := "gmail".toList
  domains := ["gmail.com".toList]
  perDomainConcurrency := some 1

/-- The engine, though it is switched off, makes two of it. -/
theorem respected_fails :
    ¬ ∀ (config : Config Number) (policy : ProviderPolicy), Respected config policy := by
  intro hall
  have hcap := (hall
    { providerReplyPolicyEngine :=
        some { defaultProviderReplyPolicyEngine with enabled := false } }
    onePerDomain .perDomainConcurrency).1 1 rfl (by decide)
  exact absurd hcap (by decide)

/-! ## The cache of verifiers -/

/-- What the SMTP checker is told of the policy. -/
structure SessionContext where
  providerProfile : Text
  providerMode : Text
  sessionStrategyID : Text
  deriving DecidableEq

section

variable {F : Type} [Scales F]

structure Verifier (F : Type) [Floats F] where
  config : Config F
  context : Option SessionContext := none

structure ProviderAwareVerifier (F : Type) [Floats F] where
  baseConfig : Config F
  providerPolicies : List ProviderPolicy
  /-- The domain of an address in ASCII, if it has one. -/
  toASCII : Text → Option Text

def sessionStrategyID (provider mode : Text) : Text :=
  let provider := toLower (trimSpace provider)
  let mode := toLower (trimSpace mode)
  (if provider = [] then "generic".toList else provider) ++ ':' ::
    (if mode = [] then "normal".toList else mode)

namespace ProviderAwareVerifier

variable (p : ProviderAwareVerifier F)

def newVerifier (policy : Option ProviderPolicy) : Verifier F :=
  match policy with
  | none => { config := p.baseConfig }
  | some policy =>
      let config := applyProviderOverrides p.baseConfig policy
      let mode := providerModeFor config.providerModes policy.name
      { config := config
        context :=
          if policy.name = [] then none
          else some ⟨policy.name, mode, sessionStrategyID policy.name mode⟩ }

/-- The verifiers by their keys. -/
abbrev Cache (F : Type) [Floats F] := Text → Option (Verifier F)

def verifierFor (cache : Cache F) (key : Text) (policy : Option ProviderPolicy) :
    Verifier F × Cache F :=
  match cache key with
  | some cached => (cached, cache)
  | none => (p.newVerifier policy, Function.update cache key (some (p.newVerifier policy)))

def matched (email : Text) : Text × Option ProviderPolicy :=
  matchPolicy p.providerPolicies (domainFromEmail p.toASCII email)

/-- The verifiers that a sequence of addresses is verified with. -/
def verify (cache : Cache F) : List Text → List (Verifier F)
  | [] => []
  | email :: emails =>
      let (verifier, cache) := p.verifierFor cache (p.matched email).1 (p.matched email).2
      verifier :: verify cache emails

/-- The configuration of the policy that an address matches. -/
def ownConfig (email : Text) : Config F :=
  match (p.matched email).2 with
  | none => p.baseConfig
  | some policy => applyProviderOverrides p.baseConfig policy

theorem config_newVerifier (email : Text) :
    (p.newVerifier (p.matched email).2).config = p.ownConfig email := by
  rw [ownConfig]
  cases (p.matched email).2 with
  | none => rfl
  | some policy => rfl

/-- The addresses of the sequence whose policies share a key are configured alike. -/
def KeysApart (emails : List Text) : Prop :=
  ∀ first ∈ emails, ∀ second ∈ emails, (p.matched first).1 = (p.matched second).1 →
    p.ownConfig first = p.ownConfig second

theorem keysApart_cons (email : Text) (emails : List Text) :
    p.KeysApart (email :: emails) ↔
      (∀ other ∈ emails, (p.matched email).1 = (p.matched other).1 →
        p.ownConfig email = p.ownConfig other) ∧ p.KeysApart emails := by
  constructor
  · intro h
    exact ⟨fun other hother => h email (.head _) other (.tail _ hother),
      fun first hfirst second hsecond => h first (.tail _ hfirst) second (.tail _ hsecond)⟩
  · rintro ⟨hemail, hrest⟩ first hfirst second hsecond hkey
    rcases List.mem_cons.mp hfirst with rfl | hfirst'
    · rcases List.mem_cons.mp hsecond with rfl | hsecond'
      · rfl
      · exact hemail second hsecond' hkey
    · rcases List.mem_cons.mp hsecond with rfl | hsecond'
      · exact (hemail first hfirst' hkey.symm).symm
      · exact hrest first hfirst' second hsecond' hkey

/-- With what is cached already, every address gets its own configuration exactly if what is
cached for it is its own, and the keys are apart. -/
theorem configs_verify_iff (emails : List Text) (cache : Cache F) :
    (p.verify cache emails).map Verifier.config = emails.map p.ownConfig ↔
      (∀ email ∈ emails, ∀ cached ∈ cache (p.matched email).1,
        cached.config = p.ownConfig email) ∧ p.KeysApart emails := by
  induction emails generalizing cache with
  | nil => exact iff_of_true rfl ⟨nofun, nofun⟩
  | cons email emails ih =>
    rw [verify, verifierFor, keysApart_cons]
    cases hcached : cache (p.matched email).1 with
    | some cached =>
      dsimp only
      rw [List.map_cons, List.map_cons, List.cons.injEq, ih, List.forall_mem_cons, hcached]
      constructor
      · rintro ⟨hown, hrest, hapart⟩
        refine ⟨⟨fun _ heq => Option.some.inj heq ▸ hown, hrest⟩, fun other hother hkey => ?_,
          hapart⟩
        rw [← hown]
        exact hrest other hother cached (by rw [← hkey]; exact hcached)
      · rintro ⟨⟨hown, hrest⟩, -, hapart⟩
        exact ⟨hown cached rfl, hrest, hapart⟩
    | none =>
      dsimp only
      rw [List.map_cons, List.map_cons, List.cons.injEq, ih, List.forall_mem_cons, hcached]
      constructor
      · rintro ⟨-, hrest, hapart⟩
        refine ⟨⟨nofun, fun other hother cached hmem => ?_⟩, fun other hother hkey => ?_, hapart⟩
        · refine hrest other hother cached ?_
          rw [Function.update_of_ne]
          · exact hmem
          · intro hkey
            rw [hkey, hcached] at hmem
            exact nomatch hmem
        · rw [← p.config_newVerifier email]
          exact hrest other hother _ (by rw [← hkey, Function.update_self]; rfl)
      · rintro ⟨⟨-, hrest⟩, hsame, hapart⟩
        refine ⟨p.config_newVerifier email, fun other hother cached hmem => ?_, hapart⟩
        by_cases hkey : (p.matched other).1 = (p.matched email).1
        · rw [hkey, Function.update_self] at hmem
          rw [← Option.some.inj hmem, p.config_newVerifier]
          exact hsame other hother hkey.symm
        · rw [Function.update_of_ne hkey] at hmem
          exact hrest other hother cached hmem

/-- Every address is verified with the configuration of its own policy exactly if the addresses
whose policies share a key are configured alike. -/
theorem ownConfigs_iff (emails : List Text) :
    (p.verify (fun _ => none) emails).map Verifier.config = emails.map p.ownConfig ↔
      p.KeysApart emails := by
  rw [configs_verify_iff]
  exact ⟨And.right, fun h => ⟨nofun, h⟩⟩

end ProviderAwareVerifier

end

/-- Two policies of one name. -/
def namesakes : ProviderAwareVerifier Number where
  baseConfig := {}
  providerPolicies :=
    [{ name := "corporate".toList, domains := ["one.example".toList],
        perDomainConcurrency := some 1 },
      { name := "corporate".toList, domains := ["two.example".toList],
        perDomainConcurrency := some 8 }]
  toASCII := some

/-- The second domain is verified with the limit of the first. -/
theorem ownConfigs_fails : ¬ ∀ (p : ProviderAwareVerifier Number) (emails : List Text),
    (p.verify (fun _ => none) emails).map Verifier.config = emails.map p.ownConfig := by
  intro hall
  have hconfigs := hall namesakes ["a@one.example".toList, "b@two.example".toList]
  have hlimits := congrArg (List.map Config.perDomainConcurrency) hconfigs
  exact absurd hlimits (by decide +kernel)

end ValidEmailVerifier.Engine
