/-
# `Engine.PolicyOutages` — a refresh when the control plane does not answer

`resolvePolicyRuntime` starts from two places: the version, the rules and the modes are those the
worker has, the two switches are those of its configuration.  Where the fetch from the control
plane fails nothing else is put in their place, so an outage sets the switches back.  The payload
of the active version is asked for again all the same, since that is the application's.  And an
answer without modes leaves the modes as they were.

`Followed` notes beside the worker what the last fetch that succeeded left in force and which modes
it brought; `outages_iff` compares the worker with both.
-/
import ValidEmailVerifier.Engine.PolicyRefresh

namespace ValidEmailVerifier.Engine.PolicyRefresh

open GoJson GoStrings

variable {F : Type} [Floats F] [DecidableEq F]

/-! ## What is in force -/

/-- The rules of an engine: what it says of the replies of a provider and of a mode. -/
structure ReplyRules (F : Type) where
  profiles : GoMap ProviderReplyProfile
  modes : GoMap (ProviderModeRule F)

def rulesOf (engine : ProviderReplyPolicyEngine F) : ReplyRules F where
  profiles := engine.profiles
  modes := engine.modes

/-- The runtime policy; of the engine only its rules. -/
structure InForce (F : Type) where
  policyEngineEnabled : Bool
  adaptiveRetryEnabled : Bool
  activeVersion : Text
  providerModes : GoMap Text
  rules : Option (ReplyRules F)

def inForce (policy : PolicyRuntimeState F) : InForce F where
  policyEngineEnabled := policy.policyEngineEnabled
  adaptiveRetryEnabled := policy.adaptiveRetryEnabled
  activeVersion := policy.activeVersion
  providerModes := policy.providerModes
  rules := policy.replyPolicyEngine.map rulesOf

/-- The worker, what was in force after the last fetch from the control plane that succeeded, and
the modes that this fetch brought. -/
structure Followed (F : Type) where
  worker : WorkerState F := {}
  lastSet : Option (InForce F) := none
  fetched : Option (GoMap Text) := none

/-- What the control plane answers in a refresh that is made and in which the application
answers. -/
def Refresh.answer (cfg : Config F) (w : WorkerState F) (r : Refresh) :
    Option ControlPlanePolicies :=
  if r.due cfg w && r.policyFetched then r.synced cfg else none

/-- Refresh after refresh. -/
def followed (cfg : Config F) : Transition.System (Followed F) Refresh where
  step f r :=
    let worker := refreshPolicyIfNeeded cfg f.worker r
    some (match r.answer cfg f.worker with
      | some policies =>
          { worker := worker
            lastSet := some (inForce worker.policy)
            fetched := some (providerModesFromControlPlane policies.modes) }
      | none => { f with worker := worker })

/-- **The policy is as the last fetch set it**, and the modes are the ones it brought. -/
structure AsLastSet (f : Followed F) : Prop where
  policy : ∀ last ∈ f.lastSet, inForce f.worker.policy = last
  modes : ∀ modes ∈ f.fetched, f.worker.policy.providerModes = modes

/-- The payload of the active version has the rules in force, if it comes and is read; if not,
none of the profiles in force is one that was added as it stands. -/
def Refresh.KeepsRules (policy : PolicyRuntimeState F) (r : Refresh) : Prop :=
  match loadPolicy (F := F) r.payloadOf policy.activeVersion with
  | some loaded => policy.replyPolicyEngine.map rulesOf = some (rulesOf loaded)
  | none => ∀ engine ∈ policy.replyPolicyEngine,
      normalizedProfiles engine.profiles = engine.profiles

/-- An answer brings modes, or there are none in force.  Where none comes, and one came before, the
switches in force are those of the configuration and the rules stay. -/
def Refresh.Keeps (cfg : Config F) (f : Followed F) (r : Refresh) : Prop :=
  r.due cfg f.worker = true → r.policyFetched = true →
    match r.synced cfg with
    | some policies =>
        (providerModesFromControlPlane policies.modes).isEmpty = true →
          f.worker.policy.providerModes.isEmpty = true
    | none =>
        f.lastSet.isSome = true →
          cfg.providerPolicyEngineEnabled = f.worker.policy.policyEngineEnabled ∧
            cfg.adaptiveRetryEnabled = f.worker.policy.adaptiveRetryEnabled ∧
              r.KeepsRules f.worker.policy

/-- The modes of the engine are normalised, and once an answer came there is an engine unless
none is configured and none is wanted. -/
structure Grounded (cfg : Config F) (f : Followed F) : Prop where
  modes : ∀ engine ∈ f.worker.policy.replyPolicyEngine,
    complete normalizeMode defaultProviderModeRules engine.modes = engine.modes
  off : f.lastSet.isSome = true → f.worker.policy.replyPolicyEngine = none →
    f.worker.policy.policyEngineEnabled = false ∧ cfg.providerReplyPolicyEngine = none

/-! ## One refresh -/

section

variable {cfg : Config F} {policy : PolicyRuntimeState F} {r : Refresh}

omit [DecidableEq F] in
theorem modes_normalize (engine : ProviderReplyPolicyEngine F) :
    complete normalizeMode defaultProviderModeRules
        (normalizeProviderReplyPolicyEngine engine).modes =
      (normalizeProviderReplyPolicyEngine engine).modes :=
  modes_normalize_twice

theorem modes_clone (engine : ProviderReplyPolicyEngine F) :
    complete normalizeMode defaultProviderModeRules
        (cloneProviderReplyPolicyEngine engine).modes =
      (cloneProviderReplyPolicyEngine engine).modes := by
  rw [clone_eq]
  exact modes_normalize engine

/-- What is loaded is a normalised engine. -/
theorem exists_normalize_of_load {payloadOf : Text → Option Json} {version : Text}
    {engine : ProviderReplyPolicyEngine F} (h : loadPolicy payloadOf version = some engine) :
    ∃ raw, engine = normalizeProviderReplyPolicyEngine raw := by
  rw [loadPolicy] at h
  split_ifs at h
  obtain ⟨payload, -, hparse⟩ := Option.bind_eq_some_iff.mp h
  obtain ⟨raw, -, hraw⟩ := Option.map_eq_some_iff.mp hparse
  exact ⟨raw, hraw.symm⟩

/-- The engine a refresh is left with, before its switch and its label are set. -/
def resolvedEngine (cfg : Config F) (r : Refresh) (policy : PolicyRuntimeState F) :
    Option (ProviderReplyPolicyEngine F) :=
  loadPolicy r.payloadOf (r.activeVersion cfg policy) <|>
    (engineInUse cfg policy).map cloneProviderReplyPolicyEngine <|>
      if r.policyEngineEnabled cfg then some defaultProviderReplyPolicyEngine else none

theorem replyPolicyEngine_resolve : (resolvePolicyRuntime cfg r policy).replyPolicyEngine =
    (resolvedEngine cfg r policy).map
      (labelled (r.policyEngineEnabled cfg) (r.activeVersion cfg policy)) := rfl

/-- Switch and label are no rules. -/
theorem rules_resolve : (inForce (resolvePolicyRuntime cfg r policy)).rules =
    (resolvedEngine cfg r policy).map rulesOf := by
  rw [inForce, replyPolicyEngine_resolve, Option.map_map]
  rfl

theorem modes_resolve : ∀ engine ∈ (resolvePolicyRuntime cfg r policy).replyPolicyEngine,
    complete normalizeMode defaultProviderModeRules engine.modes = engine.modes := by
  intro engine hengine
  rw [replyPolicyEngine_resolve] at hengine
  obtain ⟨before, hbefore, rfl⟩ := Option.map_eq_some_iff.mp hengine
  show complete normalizeMode defaultProviderModeRules before.modes = before.modes
  rw [resolvedEngine] at hbefore
  cases hload : loadPolicy (F := F) r.payloadOf (r.activeVersion cfg policy) with
  | some loaded =>
    rw [hload] at hbefore
    obtain rfl := Option.some.inj hbefore
    obtain ⟨raw, rfl⟩ := exists_normalize_of_load hload
    exact modes_normalize raw
  | none =>
    rw [hload] at hbefore
    cases hin : engineInUse cfg policy with
    | some used =>
      rw [hin] at hbefore
      obtain rfl := Option.some.inj hbefore
      exact modes_clone used
    | none =>
      rw [hin] at hbefore
      cases hon : r.policyEngineEnabled cfg with
      | true =>
        rw [hon] at hbefore
        obtain rfl := Option.some.inj hbefore
        exact modes_normalize defaultEngine
      | false =>
        rw [hon] at hbefore
        cases hbefore

/-- A refresh leaves no engine only where none is configured and none is wanted. -/
theorem off_resolve (h : (resolvePolicyRuntime cfg r policy).replyPolicyEngine = none) :
    (resolvePolicyRuntime cfg r policy).policyEngineEnabled = false ∧
      cfg.providerReplyPolicyEngine = none := by
  rw [replyPolicyEngine_resolve, Option.map_eq_none_iff, resolvedEngine] at h
  cases hload : loadPolicy (F := F) r.payloadOf (r.activeVersion cfg policy) with
  | some loaded =>
    rw [hload] at h
    cases h
  | none =>
    rw [hload] at h
    cases hin : engineInUse cfg policy with
    | some used =>
      rw [hin] at h
      cases h
    | none =>
      rw [hin] at h
      refine ⟨?_, ?_⟩
      · show r.policyEngineEnabled cfg = false
        cases hon : r.policyEngineEnabled cfg with
        | true =>
          rw [hon] at h
          cases h
        | false => rfl
      · rw [engineInUse] at hin
        cases hown : policy.replyPolicyEngine with
        | some own =>
          rw [hown] at hin
          cases hin
        | none =>
          rw [hown] at hin
          exact hin

/-! ### With an answer -/

/-- **The modes in force are the ones fetched exactly if some came or none were in force.** -/
theorem providerModes_answer_iff {policies : ControlPlanePolicies}
    (h : r.synced cfg = some policies) :
    (resolvePolicyRuntime cfg r policy).providerModes =
        providerModesFromControlPlane policies.modes ↔
      ((providerModesFromControlPlane policies.modes).isEmpty = true →
        policy.providerModes.isEmpty = true) := by
  have hmodes : (resolvePolicyRuntime cfg r policy).providerModes =
      if (providerModesFromControlPlane policies.modes).isEmpty then policy.providerModes
      else providerModesFromControlPlane policies.modes := by
    show r.providerModes cfg policy = _
    rw [Refresh.providerModes, h]
  rw [hmodes]
  by_cases hempty : (providerModesFromControlPlane policies.modes).isEmpty = true
  · rw [if_pos hempty, imp_iff_right hempty, Std.ExtTreeMap.isEmpty_iff.mp hempty]
    exact Std.ExtTreeMap.isEmpty_iff.symm
  · rw [if_neg hempty]
    exact iff_of_true rfl fun h => absurd h hempty

/-! ### Without one -/

/-- The rules behind a refresh without an answer. -/
theorem rules_outage_iff (h : r.synced cfg = none)
    (hmodes : ∀ engine ∈ policy.replyPolicyEngine,
      complete normalizeMode defaultProviderModeRules engine.modes = engine.modes)
    (hoff : policy.replyPolicyEngine = none →
      policy.policyEngineEnabled = false ∧ cfg.providerReplyPolicyEngine = none)
    (hflag : cfg.providerPolicyEngineEnabled = policy.policyEngineEnabled) :
    (resolvedEngine cfg r policy).map rulesOf = policy.replyPolicyEngine.map rulesOf ↔
      r.KeepsRules policy := by
  have hactive : r.activeVersion cfg policy = policy.activeVersion := by
    rw [Refresh.activeVersion, h]
  have hon : r.policyEngineEnabled cfg = policy.policyEngineEnabled := by
    rw [Refresh.policyEngineEnabled, h]
    exact hflag
  rw [resolvedEngine, hactive, hon, Refresh.KeepsRules]
  cases hload : loadPolicy (F := F) r.payloadOf policy.activeVersion with
  | some loaded => exact eq_comm
  | none =>
    cases hengine : policy.replyPolicyEngine with
    | some engine =>
      have hin : engineInUse cfg policy = some engine := by
        rw [engineInUse, hengine]
        rfl
      have hclone : (cloneProviderReplyPolicyEngine engine).modes = engine.modes := by
        rw [clone_eq]
        exact hmodes engine hengine
      have hrules : rulesOf (cloneProviderReplyPolicyEngine engine) =
          ⟨normalizedProfiles engine.profiles, engine.modes⟩ := by
        rw [rulesOf, profiles_clone, hclone]
      rw [hin]
      show some (rulesOf (cloneProviderReplyPolicyEngine engine)) = some (rulesOf engine) ↔ _
      rw [hrules, Option.some.injEq, rulesOf, ReplyRules.mk.injEq, and_iff_left rfl]
      simp only [Option.mem_some_iff, forall_eq']
    | none =>
      obtain ⟨hdisabled, hnone⟩ := hoff hengine
      have hin : engineInUse cfg policy = none := by
        rw [engineInUse, hengine, hnone]
        rfl
      rw [hin, hdisabled]
      exact iff_of_true rfl (by simp)

/-- **A refresh without an answer leaves the policy as it was exactly if the switches in force are
those of the configuration and the rules stay.** -/
theorem inForce_outage_iff (h : r.synced cfg = none)
    (hmodes : ∀ engine ∈ policy.replyPolicyEngine,
      complete normalizeMode defaultProviderModeRules engine.modes = engine.modes)
    (hoff : policy.replyPolicyEngine = none →
      policy.policyEngineEnabled = false ∧ cfg.providerReplyPolicyEngine = none) :
    inForce (resolvePolicyRuntime cfg r policy) = inForce policy ↔
      cfg.providerPolicyEngineEnabled = policy.policyEngineEnabled ∧
        cfg.adaptiveRetryEnabled = policy.adaptiveRetryEnabled ∧ r.KeepsRules policy := by
  have hafter : inForce (resolvePolicyRuntime cfg r policy) =
      ⟨cfg.providerPolicyEngineEnabled, cfg.adaptiveRetryEnabled, policy.activeVersion,
        policy.providerModes, (resolvedEngine cfg r policy).map rulesOf⟩ := by
    rw [← rules_resolve]
    simp only [inForce, resolvePolicyRuntime, Refresh.policyEngineEnabled,
      Refresh.adaptiveRetryEnabled, Refresh.activeVersion, Refresh.providerModes, h]
  rw [hafter, inForce, InForce.mk.injEq]
  constructor
  · rintro ⟨hflag, hadaptive, -, -, hrules⟩
    exact ⟨hflag, hadaptive, (rules_outage_iff h hmodes hoff hflag).mp hrules⟩
  · rintro ⟨hflag, hadaptive, hkeeps⟩
    exact ⟨hflag, hadaptive, rfl, rfl, (rules_outage_iff h hmodes hoff hflag).mpr hkeeps⟩

end

/-! ## Every sequence of refreshes -/

section

variable {cfg : Config F} {f f' : Followed F} {r : Refresh}

theorem refresh_of_due (hdue : r.due cfg f.worker = true) (hfetched : r.policyFetched = true) :
    refreshPolicyIfNeeded cfg f.worker r =
      ⟨resolvePolicyRuntime cfg r f.worker.policy, some r.now⟩ := by
  rw [refreshPolicyIfNeeded, if_pos hdue, if_pos hfetched]

/-- What a refresh does to the worker and to the notes. -/
theorem followed_cases (h : (followed cfg).step f r = some f') :
    (r.due cfg f.worker = true ∧ r.policyFetched = true ∧
      f'.worker.policy = resolvePolicyRuntime cfg r f.worker.policy ∧
        ((∃ policies, r.synced cfg = some policies ∧
            f'.lastSet = some (inForce f'.worker.policy) ∧
              f'.fetched = some (providerModesFromControlPlane policies.modes)) ∨
          (r.synced cfg = none ∧ f'.lastSet = f.lastSet ∧ f'.fetched = f.fetched))) ∨
    (¬ (r.due cfg f.worker = true ∧ r.policyFetched = true) ∧
      f'.worker.policy = f.worker.policy ∧ f'.lastSet = f.lastSet ∧ f'.fetched = f.fetched) := by
  have hstep := (Option.some.inj h).symm
  rw [Refresh.answer] at hstep
  by_cases hon : r.due cfg f.worker = true ∧ r.policyFetched = true
  · obtain ⟨hdue, hfetched⟩ := hon
    rw [hdue, hfetched, Bool.and_self, if_pos rfl, refresh_of_due hdue hfetched] at hstep
    refine .inl ⟨hdue, hfetched, ?_⟩
    cases hsynced : r.synced cfg with
    | some policies =>
      rw [hsynced] at hstep
      subst hstep
      exact ⟨rfl, .inl ⟨policies, rfl, rfl, rfl⟩⟩
    | none =>
      rw [hsynced] at hstep
      subst hstep
      exact ⟨rfl, .inr ⟨rfl, rfl, rfl⟩⟩
  · rw [if_neg (by rwa [Bool.and_eq_true])] at hstep
    subst hstep
    refine .inr ⟨hon, ?_, rfl, rfl⟩
    show (refreshPolicyIfNeeded cfg f.worker r).policy = f.worker.policy
    rw [refreshPolicyIfNeeded]
    by_cases hdue : r.due cfg f.worker = true
    · rw [if_pos hdue, if_neg fun hfetched => hon ⟨hdue, hfetched⟩]
    · rw [if_neg hdue]

theorem grounded_step (h : Grounded cfg f) (hs : (followed cfg).step f r = some f') :
    Grounded cfg f' := by
  obtain ⟨-, -, hpolicy, -⟩ | ⟨-, hpolicy, hset, -⟩ := followed_cases hs
  · constructor
    · rw [hpolicy]
      exact modes_resolve
    · intro _
      rw [hpolicy]
      exact off_resolve
  · constructor
    · rw [hpolicy]
      exact h.modes
    · rw [hpolicy, hset]
      exact h.off

theorem asLastSet_step_iff (hg : Grounded cfg f) (h : AsLastSet f)
    (hs : (followed cfg).step f r = some f') : AsLastSet f' ↔ r.Keeps cfg f := by
  rw [Refresh.Keeps]
  obtain ⟨hdue, hfetched, hpolicy, hnotes⟩ | ⟨hnot, hpolicy, hset, hmodes⟩ := followed_cases hs
  · rw [imp_iff_right hdue, imp_iff_right hfetched]
    obtain ⟨policies, hsynced, hset, hmodes⟩ | ⟨hsynced, hset, hmodes⟩ := hnotes
    · have hiff := @providerModes_answer_iff F _ _ cfg f.worker.policy r policies hsynced
      rw [← hpolicy] at hiff
      rw [hsynced]
      refine Iff.trans ?_ hiff
      constructor
      · intro h'
        exact h'.modes _ hmodes
      · intro heq
        refine ⟨?_, ?_⟩
        · rw [hset]
          rintro _ ⟨⟩
          rfl
        · rw [hmodes]
          rintro _ ⟨⟩
          exact heq
    · rw [hsynced]
      have hkept : ∀ modes ∈ f'.fetched, f'.worker.policy.providerModes = modes := by
        intro modes hmem
        rw [hmodes] at hmem
        rw [← h.modes modes hmem, hpolicy]
        show r.providerModes cfg f.worker.policy = _
        rw [Refresh.providerModes, hsynced]
      cases hlast : f.lastSet with
      | none =>
        refine iff_of_true ⟨?_, hkept⟩ nofun
        rw [hset, hlast]
        exact nofun
      | some last =>
        have hiff := inForce_outage_iff hsynced hg.modes (hg.off (by rw [hlast]; rfl))
        rw [← hpolicy, h.policy last hlast] at hiff
        show AsLastSet f' ↔ ((some last).isSome = true → _)
        rw [imp_iff_right Option.isSome_some, ← hiff]
        constructor
        · intro h'
          exact h'.policy last (hset.trans hlast)
        · intro heq
          refine ⟨?_, hkept⟩
          rw [hset, hlast]
          rintro _ ⟨⟩
          exact heq
  · refine iff_of_true ⟨?_, ?_⟩ fun hdue hfetched => absurd ⟨hdue, hfetched⟩ hnot
    · rw [hset, hpolicy]
      exact h.policy
    · rw [hmodes, hpolicy]
      exact h.modes

end

/-- **The policy stays as the last fetch set it as long as every refresh keeps it, and no
longer.** -/
theorem outages_iff (cfg : Config F) (rs : List Refresh) :
    (followed cfg).Throughout AsLastSet {} rs ↔
      (followed cfg).Meets (fun f r => r.Keeps cfg f) {} rs :=
  Transition.System.throughout_iff_meets (fun _ _ _ => grounded_step)
    (fun _ _ _ => asLastSet_step_iff) ⟨nofun, nofun⟩ ⟨nofun, nofun⟩

/-! ## One fetch that fails -/

/-- The control plane switches the rules on, which the configuration has off; then it is out of
reach and they are off again. -/
theorem outages_fail : ¬ ∀ (cfg : Config Number) (rs : List Refresh),
    (followed cfg).Throughout AsLastSet {} rs := by
  intro hall
  have hlast := (hall following [⟨0, true, some ⟨true, true, [], []⟩, fun _ => none⟩,
    ⟨60, true, none, fun _ => none⟩]).2.2
  have hflag := congrArg InForce.policyEngineEnabled (hlast.policy _ rfl)
  exact absurd hflag (by decide)

end ValidEmailVerifier.Engine.PolicyRefresh
