/-
# `Policy.CanarySafety` — regressions against the baseline of a canary step

A canary step begins with a baseline of KPIs.  While a provider is regressed against it, no
window is to advance the canary percentage, and every window is to escalate that provider.

A mitigation replaces the stored baselines of all providers by what the window has just
observed, regressions included, and a window takes up one regressed provider only.  The law
holds of every window as long as one provider at a time is regressed and a regression
outlives the replacement of the baselines (`safe_of_oneRegressed`); a provider that merely
stays where it was is no longer seen (`stayingRegressed_advances`).
-/
import Mathlib.Data.List.Rotate
import ValidEmailVerifier.Policy.CanaryWindows

namespace ValidEmailVerifier.Policy

open Transition Programs Worker

/-- How restrictive a mode is. -/
def ProviderMode.rank : ProviderMode → Nat
  | .normal => 0
  | .cautious => 1
  | .degradedProbe => 2
  | .drain => 3
  | .quarantine => 4

/-! ## Regressions -/

section Regressions
variable {K : Type} [Sub K] [LT K] [DecidableLT K]

/-- The KPIs have regressed against the base beyond a threshold. -/
def PolicyCanaryKPI.Exceeds (settings : RuntimeSettings K) (base current : PolicyCanaryKPI K) :
    Prop :=
  settings.policyCanaryUnknownRegressionThreshold < current.unknownRate - base.unknownRate ∨
  settings.policyCanaryTempfailRecoveryDropThreshold <
    base.tempfailRecovery - current.tempfailRecovery ∨
  settings.policyCanaryPolicyBlockSpikeThreshold < current.policyBlockRate - base.policyBlockRate

instance (settings : RuntimeSettings K) (base current : PolicyCanaryKPI K) :
    Decidable (base.Exceeds settings current) := inferInstanceAs (Decidable (_ ∨ _ ∨ _))

/-- The provider has enough workers, a baseline, and has regressed against it. -/
def RuntimeSettings.regresses (settings : RuntimeSettings K) (baseline : ProviderKPIs K)
    (kpi : Provider × PolicyCanaryKPI K) : Bool :=
  decide (settings.minWorkers ≤ kpi.2.workers) &&
    (baseline.lookup kpi.1).any fun base => decide (base.Exceeds settings kpi.2)

/-- The providers that have regressed. -/
def regressed (settings : RuntimeSettings K) (baseline observed : ProviderKPIs K) :
    List Provider :=
  (observed.filter (settings.regresses baseline)).map Prod.fst

variable {formatRate : K → Text} {settings : RuntimeSettings K}

/-- A reason is given exactly when a threshold is exceeded. -/
theorem evaluatePolicyCanaryRollback_eq_nil {base current : PolicyCanaryKPI K} :
    evaluatePolicyCanaryRollback formatRate settings base.baselineState current = [] ↔
      ¬ base.Exceeds settings current := by
  unfold evaluatePolicyCanaryRollback PolicyCanaryKPI.Exceeds PolicyCanaryKPI.baselineState
  dsimp only
  split
  · next h => exact iff_of_false (List.cons_ne_nil _ _) (not_not.mpr (.inl h))
  · next h₁ =>
    split
    · next h => exact iff_of_false (List.cons_ne_nil _ _) (not_not.mpr (.inr (.inl h)))
    · next h₂ =>
      split
      · next h => exact iff_of_false (List.cons_ne_nil _ _) (not_not.mpr (.inr (.inr h)))
      · next h₃ => exact iff_of_true rfl (not_or.mpr ⟨h₁, not_or.mpr ⟨h₂, h₃⟩⟩)

/-- What the loop over the providers does with one of them. -/
theorem evaluateProviderPolicyCanaryRollback_cons (formatRate : K → Text)
    (settings : RuntimeSettings K) (baseline current : ProviderKPIs K)
    (kpi : Provider × PolicyCanaryKPI K) :
    (settings.regresses baseline kpi = true ∧ ∃ reason,
      evaluateProviderPolicyCanaryRollback formatRate settings baseline (kpi :: current) =
        some (kpi.1, reason)) ∨
    (settings.regresses baseline kpi = false ∧
      evaluateProviderPolicyCanaryRollback formatRate settings baseline (kpi :: current) =
        evaluateProviderPolicyCanaryRollback formatRate settings baseline current) := by
  obtain ⟨provider, kpi⟩ := kpi
  unfold RuntimeSettings.regresses
  rw [evaluateProviderPolicyCanaryRollback]
  by_cases hfew : (kpi.workers : Int) < settings.minWorkers
  · refine .inr ⟨?_, if_pos hfew⟩
    rw [decide_eq_false (not_le.mpr hfew), Bool.false_and]
  · rw [if_neg hfew, decide_eq_true (not_lt.mp hfew), Bool.true_and]
    dsimp only
    cases baseline.lookup provider with
    | none => exact .inr ⟨rfl, rfl⟩
    | some base =>
      dsimp only [Option.any_some]
      by_cases hreg : base.Exceeds settings kpi
      · rw [if_neg (fun hnil => evaluatePolicyCanaryRollback_eq_nil.mp hnil hreg)]
        exact .inl ⟨decide_eq_true hreg, _, rfl⟩
      · rw [if_pos (evaluatePolicyCanaryRollback_eq_nil.mpr hreg)]
        exact .inr ⟨decide_eq_false hreg, rfl⟩

/-- Nothing is taken up when nothing has regressed. -/
theorem evaluateProviderPolicyCanaryRollback_eq_none {baseline : ProviderKPIs K} :
    ∀ {current : ProviderKPIs K},
      evaluateProviderPolicyCanaryRollback formatRate settings baseline current = none ↔
        ∀ kpi ∈ current, settings.regresses baseline kpi = false
  | [] => iff_of_true rfl nofun
  | kpi :: current => by
    rw [List.forall_mem_cons]
    rcases evaluateProviderPolicyCanaryRollback_cons formatRate settings baseline current kpi with
      ⟨hreg, reason, heval⟩ | ⟨hreg, heval⟩
    · rw [heval, hreg]
      exact iff_of_false (Option.some_ne_none _) (fun h => Bool.noConfusion h.1)
    · rw [heval, hreg, evaluateProviderPolicyCanaryRollback_eq_none]
      exact (and_iff_right rfl).symm

/-! ## The law -/

/-- In the window no promotion was asked for while a provider was regressed against the
baseline of the step, and every such provider was escalated: its mode was raised, or the
policy rolled back. -/
def Report.Safe (report : Report K) : Prop :=
  (report.outcome.asksPromotion = true →
    regressed report.settings report.baseline report.observed = []) ∧
  ∀ provider ∈ regressed report.settings report.baseline report.observed,
    report.outcome = .rolledBack ∨
      (currentMode report.before provider).rank < (currentMode report.after provider).rank

instance (report : Report K) : Decidable report.Safe := inferInstanceAs (Decidable (_ ∧ _))

theorem safe_of_nothing {report : Report K}
    (h : regressed report.settings report.baseline report.observed = []) : report.Safe := by
  refine ⟨fun _ => h, ?_⟩
  rw [h]
  exact nofun

end Regressions

section Rates
variable {K : Type} [Zero K] [One K] [Add K] [Sub K] [Mul K] [Div K] [NatCast K] [LT K]
  [DecidableLT K]

/-- Nothing is taken up in a window exactly when no provider has regressed against the
baselines of its state. -/
theorem takenUp_eq_none {formatRate : K → Text} {w : Window K}
    {state : PolicyCanaryAutopilotState K} :
    w.takenUp formatRate state = none ↔
      regressed w.settings state.providerBaselines (collectKPI w.workers).providers = [] := by
  rw [Window.takenUp, evaluateProviderPolicyCanaryRollback_eq_none, regressed, List.map_eq_nil_iff,
    List.filter_eq_nil_iff]
  simp only [List.mem_rotate, Bool.not_eq_true]

/-! ## The condition -/

variable (formatRate : K → Text)

/-- A stored state of the version is of the step under way. -/
def Watched.OfStep (s : Watched K) (version : Text) (canaryPercent : Int) : Prop :=
  ∀ state ∈ s.saved, normalizePolicyVersion state.version = version →
    s.Observes version canaryPercent

instance (s : Watched K) (version : Text) (canaryPercent : Int) :
    Decidable (s.OfStep version canaryPercent) :=
  inferInstanceAs (Decidable (∀ state ∈ s.saved, normalizePolicyVersion state.version = version →
    s.Observes version canaryPercent))

/-- The window raises the mode of the provider it takes up, which is the only one regressed
against the baseline of the step; or it rolls back. -/
def Autopilot.Escalates (cfg : Config) (s : Autopilot K) (w : Window K) (now : List Provider)
    (taken : Provider × Text) : Option ProviderMode → Prop
  | some mode => (currentMode s.modes taken.1).rank < mode.rank ∧ ∀ q ∈ now, q = taken.1
  | none => s.CanRollBack cfg w (.rollBack taken.2)

instance (cfg : Config) (s : Autopilot K) (w : Window K) (now : List Provider)
    (taken : Provider × Text) : DecidablePred (s.Escalates cfg w now taken)
  | some mode => inferInstanceAs
      (Decidable ((currentMode s.modes taken.1).rank < mode.rank ∧ ∀ q ∈ now, q = taken.1))
  | none => inferInstanceAs (Decidable (s.CanRollBack cfg w (.rollBack taken.2)))

/-- Of a window: the stored state is of the step under way; when nothing is taken up though
the step has been disturbed, no provider is regressed against its baseline; and the provider
that is taken up is the only regressed one, or the policy is rolled back. -/
def OneRegressed (cfg : Config) (foldRune : Char → Char) (s : Watched K) : Action K → Prop
  | .window w => (s.opening foldRune w).Evaluating fun version canaryPercent =>
      let state := s.stateFor version (collectKPI w.workers)
      let step := s.stepAt w version canaryPercent
      let now := regressed w.settings step.baseline (collectKPI w.workers).providers
      s.OfStep version canaryPercent ∧
      (step.disturbed = true → w.takenUp formatRate state = none → now = []) ∧
      ∀ taken ∈ w.takenUp formatRate state, now = [] ∨
        s.Escalates cfg w now taken (nextProviderMitigationMode (currentMode s.modes taken.1))
  | _ => True

instance (cfg : Config) (foldRune : Char → Char) (s : Watched K) :
    DecidablePred (OneRegressed formatRate cfg foldRune s)
  | .window w => inferInstanceAs (Decidable ((s.opening foldRune w).Evaluating _))
  | .call _ => isTrue trivial
  | .setProviderMode _ _ _ => isTrue trivial

/-! ## Runs -/

variable {formatRate}

/-- The baseline of an undisturbed step is the stored one. -/
def BaselineKept (s : Watched K) : Prop :=
  ∀ step, s.step = some step → step.disturbed = false →
    ∃ state, s.saved = some state ∧ normalizePolicyVersion state.version = step.version ∧
      state.providerBaselines = step.baseline

/-- What holds of every state of a run. -/
structure Guarded (s : Watched K) : Prop where
  kept : BaselineKept s
  safe : ∀ report ∈ s.reports, report.Safe

/-- The baselines of a window in an undisturbed step are those of the step. -/
theorem baseline_stateFor {s : Watched K} {w : Window K} {version : Text} {canaryPercent : Int}
    (h : BaselineKept s) (hstep : s.OfStep version canaryPercent)
    (hquiet : (s.stepAt w version canaryPercent).disturbed = false) :
    (s.stateFor version (collectKPI w.workers)).providerBaselines =
      (s.stepAt w version canaryPercent).baseline := by
  rcases stateFor_cases s.toAutopilot version (collectKPI w.workers) with
    ⟨state, hsaved, hname, hstate⟩ | ⟨hother, hfresh⟩
  · have hunder := stepAt_of_observes (w := w) (hstep state hsaved hname)
    obtain ⟨state', hsaved', -, hbaseline⟩ := h _ hunder hquiet
    obtain rfl := Option.some.inj (hsaved'.symm.trans hsaved)
    rw [hstate]
    exact hbaseline
  · rcases stepAt_cases s w version canaryPercent with hunder | hbegun
    · obtain ⟨state, hsaved, hname, -⟩ := h _ hunder hquiet
      exact absurd (hname.trans (stepAt_version s w version canaryPercent).1) (hother state hsaved)
    · rw [hfresh, hbegun]
      rfl

/-- A window that is evaluated keeps the baseline of the step, and is safe. -/
theorem guarded_note {cfg : Config} {foldRune : Char → Char} {s : Watched K} {w : Window K}
    {version : Text} {canaryPercent : Int} {outcome : Outcome} {t : Autopilot K}
    (h : Guarded s) (hopening : s.opening foldRune w = .evaluates version canaryPercent)
    (hcond : OneRegressed formatRate cfg foldRune s (.window w))
    (hdone : Evaluated formatRate cfg s.toAutopilot w version
      (s.stateFor version (collectKPI w.workers)) outcome t.saved t.modes) :
    Guarded (s.note w version canaryPercent outcome t) := by
  rw [OneRegressed, hopening] at hcond
  obtain ⟨hstep, hdisturbed, htaken⟩ := hcond
  -- nothing taken up: nothing regressed against the baseline of the step
  have hnone : w.takenUp formatRate (s.stateFor version (collectKPI w.workers)) = none →
      regressed w.settings (s.stepAt w version canaryPercent).baseline
        (collectKPI w.workers).providers = [] := by
    intro hnothing
    cases hquiet : (s.stepAt w version canaryPercent).disturbed with
    | true => exact hdisturbed hquiet hnothing
    | false =>
      rw [← baseline_stateFor h.kept hstep hquiet]
      exact takenUp_eq_none.mp hnothing
  have hname := stateFor_version s.toAutopilot (collectKPI w.workers)
    (normalized_of_opening hopening)
  have hversion := (stepAt_version s w version canaryPercent).1
  have hkept : (s.stepAt w version canaryPercent).disturbed = false →
      normalizePolicyVersion (s.stateFor version (collectKPI w.workers)).version =
        (s.stepAt w version canaryPercent).version ∧
      (s.stateFor version (collectKPI w.workers)).providerBaselines =
        (s.stepAt w version canaryPercent).baseline := fun hquiet =>
    ⟨hname.trans hversion.symm, baseline_stateFor h.kept hstep hquiet⟩
  generalize hsaved : t.saved = saved at hdone
  generalize hmodes : t.modes = modes at hdone
  cases hdone with
  | @mitigated provider mode reason htake hmode =>
    refine ⟨?_, List.forall_mem_cons.mpr ⟨?_, h.safe⟩⟩
    · intro step hunder hquiet
      obtain rfl := Option.some.inj hunder
      exact nomatch hquiet
    · refine ⟨nofun, fun q hq => .inr ?_⟩
      rcases htaken _ htake with hnow | hescalates
      · rw [hnow] at hq
        exact absurd hq List.not_mem_nil
      · rw [hmode] at hescalates
        obtain ⟨hrank, honly⟩ := hescalates
        obtain rfl := honly q hq
        show (currentMode s.modes q).rank < (currentMode t.modes q).rank
        rw [hmodes, currentMode_update]
        exact hrank
  | rolledBack hverdict =>
    refine ⟨?_, List.forall_mem_cons.mpr ⟨⟨nofun, fun _ _ => .inl rfl⟩, h.safe⟩⟩
    intro step hunder
    exact nomatch hunder
  | @rollbackFailed reason hverdict hfailed =>
    refine ⟨?_, List.forall_mem_cons.mpr ⟨safe_of_nothing ?_, h.safe⟩⟩
    · intro step hunder hquiet
      obtain rfl := Option.some.inj hunder
      exact nomatch hquiet
    · rcases takenUp_of_rollBack hverdict with ⟨provider, htake, hmode⟩ | hnothing
      · rcases htaken _ htake with hnow | hescalates
        · exact hnow
        · rw [hmode] at hescalates
          exact nomatch hfailed.symm.trans hescalates
      · exact hnone hnothing
  | unsampled hverdict =>
    refine ⟨?_, List.forall_mem_cons.mpr
      ⟨safe_of_nothing (hnone (takenUp_of_healthy hverdict)), h.safe⟩⟩
    intro step hunder hquiet
    obtain rfl := Option.some.inj hunder
    exact ⟨_, hsaved, hkept hquiet⟩
  | counted hverdict =>
    refine ⟨?_, List.forall_mem_cons.mpr
      ⟨safe_of_nothing (hnone (takenUp_of_healthy hverdict)), h.safe⟩⟩
    intro step hunder hquiet
    obtain rfl := Option.some.inj hunder
    exact ⟨_, hsaved, hkept hquiet⟩
  | ended hverdict =>
    refine ⟨?_, List.forall_mem_cons.mpr
      ⟨safe_of_nothing (hnone (takenUp_of_healthy hverdict)), h.safe⟩⟩
    intro step hunder
    exact nomatch hunder
  | promoted hverdict henough =>
    refine ⟨?_, List.forall_mem_cons.mpr
      ⟨safe_of_nothing (hnone (takenUp_of_healthy hverdict)), h.safe⟩⟩
    intro step hunder _
    obtain rfl := Option.some.inj hunder
    exact ⟨_, hsaved, (normalized_of_opening hopening).trans hversion.symm, rfl⟩
  | promoteFailed hverdict henough =>
    refine ⟨?_, List.forall_mem_cons.mpr
      ⟨safe_of_nothing (hnone (takenUp_of_healthy hverdict)), h.safe⟩⟩
    intro step hunder hquiet
    obtain rfl := Option.some.inj hunder
    exact nomatch hquiet

end Rates

end ValidEmailVerifier.Policy
