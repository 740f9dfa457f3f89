/-
# `Engine.PolicyRefresh` — the version on a verdict and the rules behind it

`refreshPolicyIfNeeded` asks for the active version and for its payload.  Where the payload does
not come, or is not read, the worker goes on with the rules it has, but `resolvePolicyRuntime`
puts the active version on them all the same; `withPolicyContext` copies it to every verdict of a
rule.

`Tracked` adds to the state of the worker where the rules in use were taken from, which the
worker does not note.  What the label of a verdict says is compared with that
(`policyVersion_iff`).
-/
import ValidEmailVerifier.Engine.SessionReplies
import ValidEmailVerifier.Lib.Transition

namespace ValidEmailVerifier.Engine.PolicyRefresh

open GoJson GoStrings Worker
open Smtp (SmtpReply Command detectSMTPProviderProfile)

variable {F : Type} [Floats F] [DecidableEq F]

/-! ## The worker -/

/-- What of the worker's configuration bears on a refresh. -/
structure Config (F : Type) where
  policyRefresh : Int
  controlPlanePolicySyncEnabled : Bool
  providerPolicyEngineEnabled : Bool := false
  adaptiveRetryEnabled : Bool := false
  providerReplyPolicyEngine : Option (ProviderReplyPolicyEngine F) := none

/-- `policyRuntimeState`, the part of the state of the policy that a refresh resolves. -/
structure PolicyRuntimeState (F : Type) where
  activeVersion : Text := []
  policyEngineEnabled : Bool := false
  adaptiveRetryEnabled : Bool := false
  replyPolicyEngine : Option (ProviderReplyPolicyEngine F) := none
  providerModes : GoMap Text := ∅

/-- What the control plane says of the policies for the worker's pool. -/
structure ControlPlanePolicies where
  policyEngineEnabled : Bool
  adaptiveRetryEnabled : Bool
  activeVersion : Text
  modes : List (Text × Text) := []
  deriving DecidableEq

structure WorkerState (F : Type) where
  policy : PolicyRuntimeState F := {}
  lastPolicyFetch : Option Int := none

/-- One call of `refreshPolicyIfNeeded`: when it is made and what the requests in it return.
`policies` is `none` if the control plane does not answer, `payloadOf` if the payload of a version
is not there, is empty or cannot be fetched. -/
structure Refresh where
  now : Int
  policyFetched : Bool := true
  policies : Option ControlPlanePolicies
  payloadOf : Text → Option Json

/-- A mode the worker does not know is the normal one. -/
def normalizedMode (mode : Text) : Text :=
  if toLower (trimSpace mode) ∈ ["normal".toList, "cautious".toList, "drain".toList,
      "quarantine".toList, "degraded_probe".toList] then toLower (trimSpace mode)
  else "normal".toList

def providerModesFromControlPlane (modes : List (Text × Text)) : GoMap Text :=
  modes.foldl (fun output mode =>
    let provider := toLower (trimSpace mode.1)
    if provider ∈ ["gmail".toList, "microsoft".toList, "yahoo".toList, "generic".toList] then
      output.insert provider (normalizedMode mode.2)
    else output) ∅

/-- The answer of the control plane, if it is asked at all. -/
def Refresh.synced (cfg : Config F) (r : Refresh) : Option ControlPlanePolicies :=
  if cfg.controlPlanePolicySyncEnabled then r.policies else none

def Refresh.activeVersion (cfg : Config F) (r : Refresh) (previous : PolicyRuntimeState F) :
    Text :=
  match r.synced cfg with
  | some policies => trimSpace policies.activeVersion
  | none => previous.activeVersion

def Refresh.policyEngineEnabled (cfg : Config F) (r : Refresh) : Bool :=
  match r.synced cfg with
  | some policies => policies.policyEngineEnabled
  | none => cfg.providerPolicyEngineEnabled

def Refresh.adaptiveRetryEnabled (cfg : Config F) (r : Refresh) : Bool :=
  match r.synced cfg with
  | some policies => policies.adaptiveRetryEnabled
  | none => cfg.adaptiveRetryEnabled

def Refresh.providerModes (cfg : Config F) (r : Refresh) (previous : PolicyRuntimeState F) :
    GoMap Text :=
  match r.synced cfg with
  | some policies =>
      if (providerModesFromControlPlane policies.modes).isEmpty then previous.providerModes
      else providerModesFromControlPlane policies.modes
  | none => previous.providerModes

/-- The engine of the payload of a version, if the payload is there and is read. -/
def loadPolicy (payloadOf : Text → Option Json) (version : Text) :
    Option (ProviderReplyPolicyEngine F) :=
  if version = [] then none else (payloadOf version).bind parseProviderReplyPolicyEngineJSON

/-- The engine the worker has, or the one it was configured with. -/
def engineInUse (cfg : Config F) (policy : PolicyRuntimeState F) :
    Option (ProviderReplyPolicyEngine F) :=
  policy.replyPolicyEngine <|> cfg.providerReplyPolicyEngine

/-- The last lines of `resolvePolicyRuntime`: the switch and the label of the engine. -/
def labelled (enabled : Bool) (activeVersion : Text) (engine : ProviderReplyPolicyEngine F) :
    ProviderReplyPolicyEngine F :=
  { engine with
    enabled := enabled
    version := if trimSpace activeVersion = [] then engine.version else trimSpace activeVersion }

def resolvePolicyRuntime (cfg : Config F) (r : Refresh) (previous : PolicyRuntimeState F) :
    PolicyRuntimeState F :=
  let activeVersion := r.activeVersion cfg previous
  let enabled := r.policyEngineEnabled cfg
  let kept := (engineInUse cfg previous).map cloneProviderReplyPolicyEngine
  let engine := loadPolicy r.payloadOf activeVersion <|> kept <|>
    if enabled then some defaultProviderReplyPolicyEngine else none
  { activeVersion := activeVersion
    policyEngineEnabled := enabled
    adaptiveRetryEnabled := r.adaptiveRetryEnabled cfg
    replyPolicyEngine := engine.map (labelled enabled activeVersion)
    providerModes := r.providerModes cfg previous }

/-- Refreshing is switched on and the last attempt is long enough ago. -/
def Refresh.due (cfg : Config F) (w : WorkerState F) (r : Refresh) : Bool :=
  0 < cfg.policyRefresh && w.lastPolicyFetch.all fun last => cfg.policyRefresh ≤ r.now - last

def refreshPolicyIfNeeded (cfg : Config F) (w : WorkerState F) (r : Refresh) : WorkerState F :=
  if r.due cfg w then
    if r.policyFetched then ⟨resolvePolicyRuntime cfg r w.policy, some r.now⟩
    else { w with lastPolicyFetch := some r.now }
  else w

/-- The engine that `verifierForMode` hands to the verifier of a chunk. -/
def verifierEngine (cfg : Config F) (policy : PolicyRuntimeState F) :
    Option (ProviderReplyPolicyEngine F) :=
  ((engineInUse cfg policy).map cloneProviderReplyPolicyEngine).map fun engine =>
    { engine with enabled := policy.policyEngineEnabled }

/-! ## Where the rules are from -/

inductive RulesSource where
  /-- `DefaultProviderReplyPolicyEngine`. -/
  | builtIn
  /-- The engine of the configuration. -/
  | configured
  /-- The payload of a version. -/
  | payload (version : Text) (policy : Json)

/-- The engine that was taken from there. -/
def RulesSource.engine (cfg : Config F) : RulesSource → Option (ProviderReplyPolicyEngine F)
  | .builtIn => some defaultProviderReplyPolicyEngine
  | .configured => cfg.providerReplyPolicyEngine
  | .payload _ policy => parseProviderReplyPolicyEngineJSON policy

/-- The version an engine says it is of; a blank one counts as `v4`. -/
def ownVersion (engine : ProviderReplyPolicyEngine F) : Text :=
  trimSpace (orBlank engine.version "v4".toList)

/-- The version of a payload is the one it was asked for under. -/
def RulesSource.version (cfg : Config F) : RulesSource → Text
  | .builtIn => "v4".toList
  | .configured => (cfg.providerReplyPolicyEngine.map ownVersion).getD []
  | .payload version _ => version

/-- The worker, and where its rules are from. -/
structure Tracked (F : Type) where
  worker : WorkerState F := {}
  source : Option RulesSource

/-- The payload that a refresh loads. -/
def Refresh.loaded (cfg : Config F) (r : Refresh) (previous : PolicyRuntimeState F) :
    Option Json :=
  let activeVersion := r.activeVersion cfg previous
  if (loadPolicy (F := F) r.payloadOf activeVersion).isSome then r.payloadOf activeVersion
  else none

/-- Where the rules are from after a refresh that got through. -/
def sourceAfter (cfg : Config F) (t : Tracked F) (r : Refresh) : Option RulesSource :=
  match r.loaded cfg t.worker.policy with
  | some policy => some (.payload (r.activeVersion cfg t.worker.policy) policy)
  | none =>
      match engineInUse cfg t.worker.policy with
      | some _ => t.source
      | none => if r.policyEngineEnabled cfg then some .builtIn else none

/-- The refresh is made, and the application answers. -/
def Refresh.Applies (cfg : Config F) (t : Tracked F) (r : Refresh) : Prop :=
  r.due cfg t.worker = true ∧ r.policyFetched = true

instance (cfg : Config F) (t : Tracked F) (r : Refresh) : Decidable (r.Applies cfg t) :=
  inferInstanceAs (Decidable (_ ∧ _))

/-- Refresh after refresh. -/
def refreshes (cfg : Config F) : Transition.System (Tracked F) Refresh where
  step t r := some
    { worker := refreshPolicyIfNeeded cfg t.worker r
      source := if r.Applies cfg t then sourceAfter cfg t r else t.source }

/-- The worker as `New` makes it. -/
def start (cfg : Config F) : Tracked F where
  source := cfg.providerReplyPolicyEngine.map fun _ => .configured

/-! ## Copies and labels -/

/-- An engine whose profiles are those of another one, normalised so many times. -/
def CopyOf (original engine : ProviderReplyPolicyEngine F) : Prop :=
  ∃ n, engine.profiles = normalizedProfiles^[n] original.profiles

omit [Floats F] [DecidableEq F] in
theorem CopyOf.refl (engine : ProviderReplyPolicyEngine F) : CopyOf engine engine := ⟨0, rfl⟩

theorem profiles_clone (engine : ProviderReplyPolicyEngine F) :
    (cloneProviderReplyPolicyEngine engine).profiles = normalizedProfiles engine.profiles := by
  rw [clone_eq]
  exact profiles_normalize

theorem CopyOf.clone {original engine : ProviderReplyPolicyEngine F} (h : CopyOf original engine) :
    CopyOf original (cloneProviderReplyPolicyEngine engine) := by
  obtain ⟨n, hn⟩ := h
  refine ⟨n + 1, ?_⟩
  rw [profiles_clone, hn, Function.iterate_succ_apply']

omit [Floats F] [DecidableEq F] in
/-- The label is no rule. -/
theorem CopyOf.labelled {original engine : ProviderReplyPolicyEngine F} {enabled : Bool}
    {activeVersion : Text} (h : CopyOf original engine) :
    CopyOf original (labelled enabled activeVersion engine) := h

omit [Floats F] [DecidableEq F] in
theorem ownVersion_ne_nil (engine : ProviderReplyPolicyEngine F) : ownVersion engine ≠ [] :=
  trimSpace_orBlank_ne_nil (by decide)

omit [Floats F] [DecidableEq F] in
theorem ownVersion_of_ne {engine : ProviderReplyPolicyEngine F}
    (h : trimSpace engine.version ≠ []) :
    ownVersion engine = trimSpace engine.version := by
  rw [ownVersion, orBlank_of_ne h]

theorem trimSpace_trimSpace (s : Text) : trimSpace (trimSpace s) = trimSpace s :=
  Text.trimBy_trimBy (fun _ h => h) s

/-- A copy says the version of the original. -/
theorem trimSpace_version_clone (engine : ProviderReplyPolicyEngine F) :
    trimSpace (cloneProviderReplyPolicyEngine engine).version = ownVersion engine := by
  rw [clone_eq]
  by_cases hblank : trimSpace engine.version = []
  · rw [if_pos hblank, version_normalize, ownVersion]
  · rw [if_neg hblank, ownVersion_of_ne hblank, trimSpace_trimSpace]

theorem ownVersion_clone (engine : ProviderReplyPolicyEngine F) :
    ownVersion (cloneProviderReplyPolicyEngine engine) = ownVersion engine := by
  have hversion := trimSpace_version_clone engine
  rw [ownVersion_of_ne, hversion]
  rw [hversion]
  exact ownVersion_ne_nil engine

omit [Floats F] [DecidableEq F] in
/-- The label is the active version, unless that is blank. -/
theorem ownVersion_labelled (enabled : Bool) (activeVersion : Text)
    (engine : ProviderReplyPolicyEngine F) :
    ownVersion (labelled enabled activeVersion engine) =
      if trimSpace activeVersion = [] then ownVersion engine else trimSpace activeVersion := by
  by_cases hblank : trimSpace activeVersion = []
  · rw [if_pos hblank, ownVersion, ownVersion, labelled, if_pos hblank]
  · have htwice := trimSpace_trimSpace activeVersion
    have hversion : (labelled enabled activeVersion engine).version = trimSpace activeVersion :=
      if_neg hblank
    rw [if_neg hblank, ownVersion_of_ne, hversion, htwice]
    rw [hversion, htwice]
    exact hblank

/-! ## The rules in use -/

/-- The rules in use are copies of those of their source, and the active version is trimmed. -/
structure Traced (cfg : Config F) (t : Tracked F) : Prop where
  trimmed : trimSpace t.worker.policy.activeVersion = t.worker.policy.activeVersion
  copies : ∀ engine ∈ engineInUse cfg t.worker.policy, ∃ source ∈ t.source,
    ∃ original ∈ source.engine cfg, CopyOf original engine

/-- The engine in use says it is of the version of its source. -/
def Labelled (cfg : Config F) (t : Tracked F) : Prop :=
  ∀ engine ∈ engineInUse cfg t.worker.policy, ∀ source ∈ t.source,
    ownVersion engine = source.version cfg

/-- A verdict that names a version names that of the source of the rules. -/
def Attributed (cfg : Config F) (t : Tracked F) (result : Result) : Prop :=
  result.policyVersion ≠ [] → ∃ source ∈ t.source, result.policyVersion = source.version cfg

/-- **What verdicts say of their version**: that of a rule is the version of the source, and
what no rule decided names none. -/
structure VersionsRight (cfg : Config F) (t : Tracked F) : Prop where
  rule : ∀ command reply profile adaptiveRetryEnabled, ∀ result ∈ classifySMTPWithPolicyEngine
    command reply profile (verifierEngine cfg t.worker.policy) adaptiveRetryEnabled,
      ∃ source ∈ t.source, result.policyVersion = source.version cfg
  session : ∀ command reply providerHint host adaptiveRetryEnabled,
    ∀ result ∈ classifySMTPSessionReply command reply providerHint host
      (verifierEngine cfg t.worker.policy) adaptiveRetryEnabled, Attributed cfg t result
  rcpt : ∀ reply providerHint host allowValid adaptiveRetryEnabled,
    Attributed cfg t (classifySMTPRcptReply reply providerHint host allowValid
      (verifierEngine cfg t.worker.policy) adaptiveRetryEnabled)

/-- A refresh that gets through finds no version active, or loads the payload of the active
one, or the rules in use, which it keeps, are those of the active version already. -/
def Refresh.Settles (cfg : Config F) (t : Tracked F) (r : Refresh) : Prop :=
  r.Applies cfg t → r.activeVersion cfg t.worker.policy = [] ∨
    (r.loaded cfg t.worker.policy).isSome = true ∨
    ∀ source ∈ sourceAfter cfg t r, source.version cfg = r.activeVersion cfg t.worker.policy

/-! ## One refresh -/

section

variable {cfg : Config F} {t : Tracked F} {r : Refresh}

/-- The engine a refresh that gets through is left with, before it is labelled, and where its
rules are from. -/
inductive Outcome (cfg : Config F) (t : Tracked F) (r : Refresh) :
    Option (ProviderReplyPolicyEngine F) → Option RulesSource → Prop
  | loaded {policy : Json} {engine : ProviderReplyPolicyEngine F}
      (hloaded : r.loaded cfg t.worker.policy = some policy)
      (hactive : r.activeVersion cfg t.worker.policy ≠ [])
      (hparse : parseProviderReplyPolicyEngineJSON policy = some engine) :
      Outcome cfg t r (some engine)
        (some (.payload (r.activeVersion cfg t.worker.policy) policy))
  | kept {engine : ProviderReplyPolicyEngine F}
      (hloaded : r.loaded cfg t.worker.policy = none)
      (hin : engineInUse cfg t.worker.policy = some engine) :
      Outcome cfg t r (some (cloneProviderReplyPolicyEngine engine)) t.source
  | builtIn (hloaded : r.loaded cfg t.worker.policy = none)
      (hin : engineInUse cfg t.worker.policy = none) :
      Outcome cfg t r (some defaultProviderReplyPolicyEngine) (some .builtIn)
  | off (hloaded : r.loaded cfg t.worker.policy = none)
      (hin : engineInUse cfg t.worker.policy = none) : Outcome cfg t r none none

theorem outcome (cfg : Config F) (t : Tracked F) (r : Refresh) : ∃ engine,
    Outcome cfg t r engine (sourceAfter cfg t r) ∧
      (resolvePolicyRuntime cfg r t.worker.policy).replyPolicyEngine = engine.map
        (labelled (r.policyEngineEnabled cfg) (r.activeVersion cfg t.worker.policy)) := by
  refine ⟨_, ?_, rfl⟩
  rw [sourceAfter]
  cases hload : loadPolicy (F := F) r.payloadOf (r.activeVersion cfg t.worker.policy) with
  | some engine =>
    have hactive : r.activeVersion cfg t.worker.policy ≠ [] := by
      intro hblank
      rw [loadPolicy, if_pos hblank] at hload
      exact nomatch hload
    have hbind := hload
    rw [loadPolicy, if_neg hactive] at hbind
    obtain ⟨policy, hpolicy, hparse⟩ := Option.bind_eq_some_iff.mp hbind
    have hloaded : r.loaded cfg t.worker.policy = some policy := by
      rw [Refresh.loaded, hload]
      exact hpolicy
    rw [hloaded]
    exact .loaded hloaded hactive hparse
  | none =>
    have hloaded : r.loaded cfg t.worker.policy = none := by
      rw [Refresh.loaded, hload]
      rfl
    rw [hloaded]
    cases hin : engineInUse cfg t.worker.policy with
    | some engine => exact .kept hloaded hin
    | none =>
      cases r.policyEngineEnabled cfg with
      | true => exact .builtIn hloaded hin
      | false => exact .off hloaded hin

/-- The engine in use after a refresh that got through. -/
theorem engineInUse_resolve {engine : Option (ProviderReplyPolicyEngine F)}
    (h : Outcome cfg t r engine (sourceAfter cfg t r)) (hresolve :
      (resolvePolicyRuntime cfg r t.worker.policy).replyPolicyEngine = engine.map
        (labelled (r.policyEngineEnabled cfg) (r.activeVersion cfg t.worker.policy))) :
    engineInUse cfg (resolvePolicyRuntime cfg r t.worker.policy) = engine.map
      (labelled (r.policyEngineEnabled cfg) (r.activeVersion cfg t.worker.policy)) := by
  rw [engineInUse, hresolve]
  cases engine with
  | some engine => rfl
  | none =>
    generalize sourceAfter cfg t r = source at h
    cases h with
    | off _ hin =>
      rw [engineInUse] at hin
      cases hown : t.worker.policy.replyPolicyEngine with
      | some engine => simp [hown] at hin
      | none => simpa [hown] using hin

/-- A version that has become active is trimmed. -/
theorem trimSpace_activeVersion (h : Traced cfg t) :
    trimSpace (r.activeVersion cfg t.worker.policy) = r.activeVersion cfg t.worker.policy := by
  rw [Refresh.activeVersion]
  split
  · exact trimSpace_trimSpace _
  · exact h.trimmed

theorem traced_sourceAfter (h : Traced cfg t) (last : Option Int) :
    Traced cfg ⟨⟨resolvePolicyRuntime cfg r t.worker.policy, last⟩, sourceAfter cfg t r⟩ := by
  obtain ⟨engine, houtcome, hresolve⟩ := outcome cfg t r
  refine ⟨trimSpace_activeVersion h, ?_⟩
  intro used hused
  rw [engineInUse_resolve houtcome hresolve] at hused
  obtain ⟨before, rfl, rfl⟩ := Option.map_eq_some_iff.mp hused
  generalize sourceAfter cfg t r = source at houtcome ⊢
  cases houtcome with
  | loaded _ _ hparse => exact ⟨_, rfl, before, hparse, (CopyOf.refl before).labelled⟩
  | kept _ hin =>
    obtain ⟨source, hsource, original, horiginal, hcopy⟩ := h.copies _ hin
    exact ⟨source, hsource, original, horiginal, hcopy.clone.labelled⟩
  | builtIn => exact ⟨_, rfl, _, rfl, (CopyOf.refl _).labelled⟩

/-- A label that was right stays right exactly if no version is active or it is that of the
source. -/
theorem ownVersion_labelled_iff {before : ProviderReplyPolicyEngine F} {source : RulesSource}
    (h : Traced cfg t) (hbefore : ownVersion before = source.version cfg) :
    ownVersion (labelled (r.policyEngineEnabled cfg) (r.activeVersion cfg t.worker.policy) before) =
        source.version cfg ↔
      r.activeVersion cfg t.worker.policy = [] ∨
        source.version cfg = r.activeVersion cfg t.worker.policy := by
  rw [ownVersion_labelled, trimSpace_activeVersion h]
  split_ifs with hblank
  · exact iff_of_true hbefore (.inl hblank)
  · exact ⟨fun heq => .inr heq.symm, fun hor => (hor.resolve_left hblank).symm⟩

/-- **A refresh that gets through leaves the right label exactly if it settles.** -/
theorem labelled_sourceAfter_iff (h : Traced cfg t) (hlabelled : Labelled cfg t)
    (hon : r.Applies cfg t) (last : Option Int) :
    Labelled cfg ⟨⟨resolvePolicyRuntime cfg r t.worker.policy, last⟩, sourceAfter cfg t r⟩ ↔
      r.Settles cfg t := by
  obtain ⟨engine, houtcome, hresolve⟩ := outcome cfg t r
  rw [Refresh.Settles, Labelled, engineInUse_resolve houtcome hresolve, imp_iff_right hon]
  generalize sourceAfter cfg t r = source at houtcome ⊢
  have hone : ∀ (before : ProviderReplyPolicyEngine F) (from_ : RulesSource),
      r.loaded cfg t.worker.policy = none → ownVersion before = from_.version cfg →
      ((∀ used ∈ (some before).map (labelled (r.policyEngineEnabled cfg)
          (r.activeVersion cfg t.worker.policy)), ∀ source ∈ some from_,
            ownVersion used = source.version cfg) ↔
        r.activeVersion cfg t.worker.policy = [] ∨
          (r.loaded cfg t.worker.policy).isSome = true ∨
            ∀ source ∈ some from_, source.version cfg = r.activeVersion cfg t.worker.policy) := by
    intro before from_ hloaded hbefore
    have hiff := ownVersion_labelled_iff (r := r) h hbefore
    simpa [hloaded] using hiff
  cases houtcome with
  | loaded hloaded hactive _ =>
    refine iff_of_true ?_ (.inr (.inl (by rw [hloaded]; rfl)))
    intro used hused source hsource
    obtain rfl := Option.some.inj hused
    obtain rfl := Option.some.inj hsource
    rw [ownVersion_labelled, trimSpace_activeVersion h, if_neg hactive]
    rfl
  | kept hloaded hin =>
    obtain ⟨source, hsource, -⟩ := h.copies _ hin
    rw [Option.mem_def.mp hsource]
    refine hone _ source hloaded ?_
    rw [ownVersion_clone]
    exact hlabelled _ hin source hsource
  | builtIn hloaded _ => exact hone _ _ hloaded rfl
  | off => exact iff_of_true nofun (.inr (.inr nofun))

theorem step_eq (t : Tracked F) (r : Refresh) : (refreshes cfg).step t r =
    some (if r.Applies cfg t then
      ⟨⟨resolvePolicyRuntime cfg r t.worker.policy, some r.now⟩, sourceAfter cfg t r⟩
    else ⟨⟨t.worker.policy, if r.due cfg t.worker then some r.now
      else t.worker.lastPolicyFetch⟩, t.source⟩) := by
  have hstep : (refreshes cfg).step t r = some ⟨refreshPolicyIfNeeded cfg t.worker r,
    if r.Applies cfg t then sourceAfter cfg t r else t.source⟩ := rfl
  rw [hstep, refreshPolicyIfNeeded]
  by_cases hon : r.Applies cfg t
  · rw [if_pos hon, if_pos hon, if_pos hon.1, if_pos hon.2]
  · rw [if_neg hon, if_neg hon]
    by_cases hdue : r.due cfg t.worker = true
    · rw [if_pos hdue, if_pos hdue, if_neg fun hfetched => hon ⟨hdue, hfetched⟩]
    · rw [if_neg hdue, if_neg hdue]

theorem traced_step {u : Tracked F} (h : Traced cfg t) (hs : (refreshes cfg).step t r = some u) :
    Traced cfg u := by
  rw [step_eq] at hs
  obtain rfl := Option.some.inj hs
  split_ifs with hon
  · exact traced_sourceAfter h _
  · exact ⟨h.trimmed, h.copies⟩
  · exact ⟨h.trimmed, h.copies⟩

theorem labelled_step_iff {u : Tracked F} (h : Traced cfg t) (hlabelled : Labelled cfg t)
    (hs : (refreshes cfg).step t r = some u) : Labelled cfg u ↔ r.Settles cfg t := by
  rw [step_eq] at hs
  obtain rfl := Option.some.inj hs
  by_cases hon : r.Applies cfg t
  · rw [if_pos hon]
    exact labelled_sourceAfter_iff h hlabelled hon _
  · rw [if_neg hon]
    exact iff_of_true hlabelled fun hon' => absurd hon' hon

/-! ## Verdicts -/

omit [Floats F] [DecidableEq F] in
theorem policyVersion_withConfidenceHint (value : Text) (result : Result) :
    (withConfidenceHint value result).policyVersion = result.policyVersion := by
  rw [withConfidenceHint]
  split_ifs
  · rfl
  · rfl

omit [DecidableEq F] in
/-- A verdict of a rule names the version of the engine. -/
theorem policyVersion_classify {command : Command} {reply : SmtpReply Text} {profile : Text}
    {engine : Option (ProviderReplyPolicyEngine F)} {adaptiveRetryEnabled : Bool} {result : Result}
    (h : result ∈ classifySMTPWithPolicyEngine command reply profile engine
      adaptiveRetryEnabled) :
    ∃ e ∈ engine, result.policyVersion = trimSpace e.version := by
  cases engine with
  | none => cases h
  | some e =>
    refine ⟨e, rfl, ?_⟩
    rw [classifySMTPWithPolicyEngine] at h
    split_ifs at h with hon
    · cases h
    · dsimp only at h
      cases hmatch : matchProviderReplyRule (lookupProviderReplyProfile (some e) profile) reply with
      | none =>
        rw [hmatch] at h
        cases h
      | some rule =>
        rw [hmatch] at h
        dsimp only at h
        by_cases hvalid : command ≠ .rcptTo ∧ (ruleVerdict command rule).1 = "valid".toList
        · rw [if_pos hvalid] at h
          cases h
        · rw [if_neg hvalid] at h
          obtain rfl := Option.some.inj h
          rw [policyVersion_withConfidenceHint]
          rfl

omit [DecidableEq F] in
/-- A reply of a session is decided by a rule, or the verdict names no version. -/
theorem policyVersion_session {command : Command} {reply : SmtpReply Text}
    {providerHint host : Text} {engine : Option (ProviderReplyPolicyEngine F)}
    {adaptiveRetryEnabled : Bool} {result : Result} (h : result ∈ classifySMTPSessionReply
      command reply providerHint host engine adaptiveRetryEnabled) :
    result.policyVersion = [] ∨ result ∈ classifySMTPWithPolicyEngine command reply
      (detectSMTPProviderProfile providerHint host reply.message) engine
        adaptiveRetryEnabled := by
  rw [classifySMTPSessionReply] at h
  cases hrule : classifySMTPWithPolicyEngine command reply
      (detectSMTPProviderProfile providerHint host reply.message) engine adaptiveRetryEnabled with
  | some decided =>
    rw [hrule] at h
    exact .inr h
  | none =>
    rw [hrule] at h
    dsimp only at h
    refine .inl ?_
    split_ifs at h
    · cases h
    · exact Option.some.inj h ▸ rfl
    · exact Option.some.inj h ▸ rfl
    · exact Option.some.inj h ▸ rfl
    · exact Option.some.inj h ▸ rfl
    · exact Option.some.inj h ▸ rfl

omit [DecidableEq F] in
/-- The same for the recipient. -/
theorem policyVersion_rcpt (reply : SmtpReply Text) (providerHint host : Text) (allowValid : Bool)
    (engine : Option (ProviderReplyPolicyEngine F)) (adaptiveRetryEnabled : Bool) :
    (classifySMTPRcptReply reply providerHint host allowValid engine
        adaptiveRetryEnabled).policyVersion = [] ∨
      classifySMTPRcptReply reply providerHint host allowValid engine adaptiveRetryEnabled ∈
        classifySMTPWithPolicyEngine .rcptTo reply
          (detectSMTPProviderProfile providerHint host reply.message) engine
            adaptiveRetryEnabled := by
  rw [classifySMTPRcptReply]
  cases classifySMTPWithPolicyEngine .rcptTo reply
      (detectSMTPProviderProfile providerHint host reply.message) engine adaptiveRetryEnabled with
  | some decided =>
    dsimp only
    split_ifs
    · exact .inl rfl
    · exact .inr rfl
  | none =>
    refine .inl ?_
    dsimp only
    split_ifs <;> rfl

/-- The engine that decides is a copy of the one in use. -/
theorem verifierEngine_eq {policy : PolicyRuntimeState F} {used : ProviderReplyPolicyEngine F}
    (h : engineInUse cfg policy = some used) : ∃ engine,
      verifierEngine cfg policy = some engine ∧ engine.enabled = policy.policyEngineEnabled ∧
        engine.profiles = normalizedProfiles used.profiles ∧
        trimSpace engine.version = ownVersion used := by
  refine ⟨{ cloneProviderReplyPolicyEngine used with enabled := policy.policyEngineEnabled }, ?_,
    rfl, profiles_clone used, trimSpace_version_clone used⟩
  rw [verifierEngine, h]
  rfl

theorem verifierEngine_eq_none {policy : PolicyRuntimeState F}
    (h : engineInUse cfg policy = none) : verifierEngine cfg policy = none := by
  rw [verifierEngine, h]
  rfl

/-- **Verdicts are right about their version where the engine is.** -/
theorem versionsRight_of_labelled (h : Traced cfg t) (hlabelled : Labelled cfg t) :
    VersionsRight cfg t := by
  have hrule : ∀ command reply profile adaptiveRetryEnabled, ∀ result ∈
      classifySMTPWithPolicyEngine command reply profile (verifierEngine cfg t.worker.policy)
        adaptiveRetryEnabled,
      ∃ source ∈ t.source, result.policyVersion = source.version cfg := by
    intro command reply profile adaptive result hresult
    obtain ⟨engine, hengine, hversion⟩ := policyVersion_classify hresult
    cases hused : engineInUse cfg t.worker.policy with
    | none =>
      rw [verifierEngine_eq_none hused] at hengine
      exact nomatch hengine
    | some used =>
      obtain ⟨decides, hdecides, -, -, hown⟩ := verifierEngine_eq hused
      rw [hdecides] at hengine
      obtain rfl := Option.some.inj hengine
      obtain ⟨source, hsource, -⟩ := h.copies used hused
      refine ⟨source, hsource, ?_⟩
      rw [hversion, hown]
      exact hlabelled used hused source hsource
  refine ⟨hrule, ?_, ?_⟩
  · intro command reply providerHint host adaptive result hresult hnamed
    exact hrule _ _ _ _ _ ((policyVersion_session hresult).resolve_left hnamed)
  · intro reply providerHint host allowValid adaptive hnamed
    exact hrule _ _ _ _ _
      ((policyVersion_rcpt reply providerHint host allowValid _ adaptive).resolve_left hnamed)

/-! ## Every sequence of refreshes -/

theorem traced_start (cfg : Config F) : Traced cfg (start cfg) where
  trimmed := rfl
  copies engine hengine := by
    have hown : cfg.providerReplyPolicyEngine = some engine := hengine
    refine ⟨.configured, ?_, engine, hown, CopyOf.refl engine⟩
    rw [start, hown]
    rfl

omit [Floats F] [DecidableEq F] in
theorem labelled_start (cfg : Config F) : Labelled cfg (start cfg) := by
  intro engine hengine source hsource
  have hown : cfg.providerReplyPolicyEngine = some engine := hengine
  rw [start, hown] at hsource
  obtain rfl := Option.some.inj hsource
  rw [RulesSource.version, hown]
  rfl

/-- **The label says which rules are in use as long as every refresh settles, and no longer.**
The rules are always copies of those of their source, and as long as the label is right the
verdicts are. -/
theorem policyVersion_iff (cfg : Config F) (rs : List Refresh) :
    (refreshes cfg).Throughout (Traced cfg) (start cfg) rs ∧
      ((refreshes cfg).Throughout (Labelled cfg) (start cfg) rs ↔
        (refreshes cfg).Meets (fun t r => r.Settles cfg t) (start cfg) rs) ∧
      ((refreshes cfg).Meets (fun t r => r.Settles cfg t) (start cfg) rs →
        (refreshes cfg).Throughout (VersionsRight cfg) (start cfg) rs) := by
  have htraced : (refreshes cfg).Throughout (Traced cfg) (start cfg) rs :=
    Transition.System.throughout_of_keeps (fun _ _ _ => traced_step) (traced_start cfg)
  have hiff : (refreshes cfg).Throughout (Labelled cfg) (start cfg) rs ↔
      (refreshes cfg).Meets (fun t r => r.Settles cfg t) (start cfg) rs :=
    Transition.System.throughout_iff_meets (fun _ _ _ => traced_step)
      (fun _ _ _ => labelled_step_iff) (traced_start cfg) (labelled_start cfg)
  refine ⟨htraced, hiff, ?_⟩
  intro hmeets
  exact Transition.System.Throughout.mp (fun _ => versionsRight_of_labelled) htraced
    (hiff.mpr hmeets)

end

/-! ## A payload that does not come -/

/-- A worker that follows the control plane, with no engine of its own. -/
def following : Config Number where
  policyRefresh := 60
  controlPlanePolicySyncEnabled := true

/-- A minute later the control plane says that this version is active; only the payload of the
first version is there. -/
def refreshTo (now : Int) (version : Text) : Refresh where
  now := now
  policies := some ⟨true, true, version, []⟩
  payloadOf asked := if asked = "v1".toList then some enabledPayload else none

/-- The worker with the rules of the first version, told that the second is active. -/
def afterTwo : Tracked Number :=
  (refreshes following).next ((refreshes following).next (start following)
    (refreshTo 0 "v1".toList)) (refreshTo 60 "v2".toList)

theorem engineInUse_afterTwo : engineInUse following afterTwo.worker.policy =
    some (labelled true "v2".toList (cloneProviderReplyPolicyEngine (labelled true "v1".toList
      (normalizeProviderReplyPolicyEngine { enabled := true })))) := rfl

theorem source_afterTwo : afterTwo.source = some (.payload "v1".toList enabledPayload) := rfl

theorem profiles_twice {F : Type} [Floats F] [DecidableEq F] (on : Bool) (first second : Text)
    (engine : ProviderReplyPolicyEngine F) :
    (labelled on second (cloneProviderReplyPolicyEngine (labelled on first
        (normalizeProviderReplyPolicyEngine engine)))).profiles =
      normalizedProfiles (normalizedProfiles engine.profiles) := by
  rw [← profiles_normalize]
  exact profiles_clone _

/-- A profile that was added, and normalised twice after that. -/
theorem getElem?_thrice (e : Text × ProviderReplyProfile) (he : e ∈ defaultProviderReplyProfiles) :
    (normalizedProfiles (normalizedProfiles (normalizedProfiles ∅)))[e.1]? =
      some (normalizeProfile e.1 e.2 (normalizeProfile e.1 e.2 e.2)) := by
  have hnone : (∅ : GoMap ProviderReplyProfile)[e.1]? = none :=
    Std.ExtTreeMap.getElem?_eq_none Std.ExtTreeMap.not_mem_empty
  rw [getElem?_normalizedProfiles he, getElem?_normalizedProfiles he,
    getElem?_normalizedProfiles he, hnone]
  rfl

section

variable {F : Type} [Floats F]

/-- A rule of the profile decides on a reply to the recipient, whatever it says. -/
theorem exists_classify {engine : ProviderReplyPolicyEngine F} {provider : Text}
    {profile : ProviderReplyProfile} {reply : SmtpReply Text} {adaptiveRetryEnabled : Bool}
    (hon : engine.enabled = true) (hkey : toLower (trimSpace provider) = provider)
    (hne : provider ≠ []) (hprofile : engine.profiles[provider]? = some profile)
    (hmatch : (matchProviderReplyRule { profile with name := orBlank profile.name provider }
      reply).isSome = true) :
    ∃ result, classifySMTPWithPolicyEngine .rcptTo reply provider (some engine)
      adaptiveRetryEnabled = some result := by
  have hmem : engine.profiles.isEmpty = false := by
    refine Std.ExtTreeMap.isEmpty_eq_false_iff.mpr fun hempty => ?_
    rw [hempty, Std.ExtTreeMap.getElem?_eq_none Std.ExtTreeMap.not_mem_empty] at hprofile
    exact nomatch hprofile
  have hlookup : lookupProviderReplyProfile (some engine) provider =
      { profile with name := orBlank profile.name provider } := by
    rw [lookupProviderReplyProfile]
    simp only [hkey, if_neg hne, hmem, Bool.false_eq_true, if_false, hprofile]
  obtain ⟨rule, hrule⟩ := Option.isSome_iff_exists.mp hmatch
  have hcategory := classifySMTPWithPolicyEngine_rule .rcptTo adaptiveRetryEnabled hon
    ((congrArg (fun found => matchProviderReplyRule found reply) hlookup).trans hrule)
  rw [if_neg fun h => h.1 rfl] at hcategory
  obtain ⟨result, hresult, -⟩ := Option.map_eq_some_iff.mp hcategory
  exact ⟨result, hresult⟩

end

/-- The rules are those of the first payload, the verdict on a busy server says `v2`. -/
theorem versionsRight_fails : ¬ ∀ (cfg : Config Number) (rs : List Refresh),
    (refreshes cfg).Throughout (VersionsRight cfg) (start cfg) rs := by
  intro hall
  have hright : VersionsRight following afterTwo :=
    (hall following [refreshTo 0 "v1".toList, refreshTo 60 "v2".toList]).2.2
  obtain ⟨engine, hengine, hon, hprofiles, hversion⟩ := verifierEngine_eq engineInUse_afterTwo
  rw [profiles_twice] at hprofiles
  rw [ownVersion_labelled, if_neg (by decide)] at hversion
  have hprofile := getElem?_thrice (defaultProfile "gmail".toList) (defaultProfile_mem _)
  rw [← hprofiles] at hprofile
  have hexists : ∃ result, classifySMTPWithPolicyEngine .rcptTo busyReply "gmail".toList
      (some engine) true = some result :=
    exists_classify hon (by decide) (by decide) hprofile (by decide)
  obtain ⟨result, hresult⟩ := hexists
  obtain ⟨_, hdecides, hnamed⟩ := policyVersion_classify hresult
  obtain rfl := Option.some.inj hdecides
  obtain ⟨source, hsource, hsame⟩ := hright.rule .rcptTo busyReply "gmail".toList true result
    (hengine.symm ▸ hresult)
  rw [source_afterTwo] at hsource
  obtain rfl := Option.some.inj hsource
  rw [hnamed, hversion] at hsame
  exact absurd hsame (by decide)

end ValidEmailVerifier.Engine.PolicyRefresh
