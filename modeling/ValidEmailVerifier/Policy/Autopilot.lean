/-
# `Policy.Autopilot` — the canary autopilot

The autopilot looks at the health of the providers in windows.  A window in which no
provider has regressed against the stored baselines is healthy; behind enough healthy
windows the active version is promoted to the next canary percentage.  A regressed
provider is moved up a ladder of modes, and at its end the policy is rolled back.

`run` is one window, over the policy store, the provider modes and the stored state of
the autopilot.  The rates are of any type `K` with the operations that the code applies
to them, and nothing is assumed of these; `formatRate` prints one.  The commands of a
promotion or a rollback may fail, those of the autopilot itself are served.

`Watched` keeps beside the system what the laws are about: the canary step under way,
with the baseline taken when it began, and a report of every window that was evaluated.
-/
import Mathlib.Algebra.Order.Field.Rat
import Mathlib.Logic.Function.Basic
import ValidEmailVerifier.Policy.ActiveFlag

namespace ValidEmailVerifier.Policy

open Transition Programs Worker

/-! ## Providers and their modes -/

inductive Provider where
  | generic | gmail | microsoft | yahoo
  deriving DecidableEq, Repr

/-- The providers by name. -/
def Provider.all : List Provider := [.generic, .gmail, .microsoft, .yahoo]

def Provider.name : Provider → Text
  | .generic => "generic".toList
  | .gmail => "gmail".toList
  | .microsoft => "microsoft".toList
  | .yahoo => "yahoo".toList

def normalizeProviderName (provider : Text) : Option Provider :=
  let provider := GoStrings.toLower (trimSpace provider)
  Provider.all.find? fun known => known.name = provider

/-- `mode` of a provider. -/
inductive ProviderMode where
  | normal | cautious | drain | quarantine | degradedProbe
  deriving DecidableEq, Repr

/-- `source` of a mode: who has set it. -/
inductive ModeSource where
  | manual | autoprotect | autopilot
  deriving DecidableEq, Repr

structure ProviderModeState where
  mode : ProviderMode
  source : ModeSource
  deriving DecidableEq, Repr

/-- `control_plane:provider_modes` -/
abbrev ProviderModes := Provider → Option ProviderModeState

def hasManualProviderOverride (modes : ProviderModes) : Bool :=
  Provider.all.any fun provider =>
    match modes provider with
    | none => false
    | some mode => mode.mode ≠ .normal && mode.source = .manual

/-- The mode a window starts from. -/
def currentMode (modes : ProviderModes) (provider : Provider) : ProviderMode :=
  (modes provider).elim .normal ProviderModeState.mode

@[simp] theorem currentMode_update (modes : ProviderModes) (provider : Provider)
    (state : ProviderModeState) :
    currentMode (Function.update modes provider (some state)) provider = state.mode := by
  rw [currentMode, Function.update_self]
  rfl

/-- The next mode of the ladder; `none` asks for a rollback. -/
def nextProviderMitigationMode : ProviderMode → Option ProviderMode
  | .normal => some .cautious
  | .cautious => some .degradedProbe
  | .degradedProbe => some .drain
  | .drain => none
  | .quarantine => some .cautious

/-- The steps of the canary percentage. -/
def nextPolicyCanaryStep (current : Int) : Int × Bool :=
  if current < 5 then (5, true)
  else if current < 25 then (25, true)
  else if current < 50 then (50, true)
  else if current < 100 then (100, true)
  else (100, false)

/-! ## What a window observes -/

structure ProviderMetric (K : Type) where
  provider : Text
  unknownRate : K
  policyBlockRate : K

/-- A worker, with the metrics it has sent. -/
abbrev WorkerSummary (K : Type) := List (ProviderMetric K)

structure ProviderAggregate (K : Type) where
  workers : Nat
  unknownSum : K
  policyBlockSum : K

structure ProviderHealthSummary (K : Type) where
  provider : Provider
  unknownRate : K
  policyBlockedRate : K
  workers : Nat

structure PolicyCanaryKPI (K : Type) where
  unknownRate : K
  tempfailRecovery : K
  policyBlockRate : K
  workers : Nat

/-- The KPIs by provider. -/
abbrev ProviderKPIs (K : Type) := List (Provider × PolicyCanaryKPI K)

structure PolicyCanarySnapshot (K : Type) where
  aggregate : PolicyCanaryKPI K
  providers : ProviderKPIs K

/-- `control_plane:policy_canary:autopilot_state` -/
structure PolicyCanaryAutopilotState (K : Type) where
  version : Text
  healthyWindows : Nat
  baselineUnknownRate : K
  baselineTempfailRecover : K
  baselinePolicyBlockRate : K
  providerBaselines : ProviderKPIs K

structure RuntimeSettings (K : Type) where
  policyCanaryAutopilotEnabled : Bool := true
  policyCanaryRequiredHealthWindows : Int
  policyCanaryUnknownRegressionThreshold : K
  policyCanaryTempfailRecoveryDropThreshold : K
  policyCanaryPolicyBlockSpikeThreshold : K
  policyCanaryMinProviderWorkers : Int

/-- The healthy windows that a promotion takes. -/
def RuntimeSettings.required {K : Type} (settings : RuntimeSettings K) : Int :=
  if settings.policyCanaryRequiredHealthWindows < 1 then 1
  else settings.policyCanaryRequiredHealthWindows

/-- The workers that a provider must have for its KPIs to count. -/
def RuntimeSettings.minWorkers {K : Type} (settings : RuntimeSettings K) : Int :=
  if settings.policyCanaryMinProviderWorkers < 1 then 1
  else settings.policyCanaryMinProviderWorkers

/-! ## A window and what it stores -/

section Window
variable {K : Type}

/-- What a window meets. -/
structure Window (K : Type) where
  settings : RuntimeSettings K
  /-- The instance holds the leader lease. -/
  shouldRun : Bool := true
  /-- The last window is long enough ago. -/
  runDue : Bool := true
  workers : List (WorkerSummary K)
  /-- Where Go starts to range over the KPIs of the providers. -/
  start : Nat := 0
  /-- What the commands of the promotion or rollback of the window meet. -/
  answers : List Answer := []

/-- The policy store, the modes of the providers and the stored state. -/
structure Autopilot (K : Type) where
  ledger : Ledger := {}
  modes : ProviderModes := fun _ => none
  saved : Option (PolicyCanaryAutopilotState K) := none

/-- What a window has come to. -/
inductive Outcome where
  | mitigated (provider : Provider) (mode : ProviderMode)
  | rolledBack
  | rollbackFailed
  | unsampled
  | counted
  | ended
  | promoted (nextCanary : Int)
  | promoteFailed
  deriving DecidableEq, Repr

/-- How a window begins: it does nothing, or finds the rollout complete, or it is evaluated
for the active version at its canary percentage. -/
inductive Opening where
  | idle
  | complete
  | evaluates (activeVersion : Text) (canaryPercent : Int)
  deriving DecidableEq, Repr

/-- When the window is evaluated, for a version at a canary percentage, `P` holds of these. -/
def Opening.Evaluating (P : Text → Int → Prop) : Opening → Prop
  | .evaluates version canaryPercent => P version canaryPercent
  | _ => True

instance (P : Text → Int → Prop) [∀ version canaryPercent, Decidable (P version canaryPercent)] :
    DecidablePred (Opening.Evaluating P)
  | .idle => isTrue trivial
  | .complete => isTrue trivial
  | .evaluates version canaryPercent => inferInstanceAs (Decidable (P version canaryPercent))

theorem listed_eq (foldRune : Char → Char) (l : Ledger) :
    listed foldRune l = .ok ((buildSMTPPolicyVersionList foldRune l.store.versions
      (l.store.active.getD [])).insertionSort ListedBefore,
      normalizePolicyVersion (l.store.active.getD [])) := rfl

/-- The record of the active version in the list of the versions. -/
def activeRecord (foldRune : Char → Char) (l : Ledger) :
    Option (Text × SMTPPolicyVersionRecord) :=
  match listed foldRune l with
  | .error _ => none
  | .ok (versions, activeVersion) =>
      if activeVersion = [] then none
      else
        (versions.find? fun record => normalizePolicyVersion record.version = activeVersion).map
          fun record => (activeVersion, record)

/-- `run`, up to the collection of the KPIs. -/
def Autopilot.opening (foldRune : Char → Char) (s : Autopilot K) (w : Window K) : Opening :=
  if w.settings.policyCanaryAutopilotEnabled = false then .idle
  else if w.shouldRun = false then .idle
  else if w.runDue = false then .idle
  else if hasManualProviderOverride s.modes then .idle
  else
    match activeRecord foldRune s.ledger with
    | none => .idle
    | some (activeVersion, record) =>
        if 100 ≤ record.canaryPercent then .complete
        else .evaluates activeVersion record.canaryPercent

theorem normalized_of_activeRecord {foldRune : Char → Char} {l : Ledger} {version : Text}
    {record : SMTPPolicyVersionRecord} (h : activeRecord foldRune l = some (version, record)) :
    normalizePolicyVersion version = version := by
  unfold activeRecord at h
  rw [listed_eq] at h
  dsimp only at h
  split at h
  · exact nomatch h
  · obtain ⟨_, -, heq⟩ := Option.map_eq_some_iff.mp h
    rw [← (Prod.mk.inj heq).1]
    exact normalizePolicyVersion_idem _

/-- A window is evaluated for the name of a version in its normal form. -/
theorem normalized_of_opening {foldRune : Char → Char} {s : Autopilot K} {w : Window K}
    {version : Text} {canaryPercent : Int}
    (h : s.opening foldRune w = .evaluates version canaryPercent) :
    normalizePolicyVersion version = version := by
  unfold Autopilot.opening at h
  split_ifs at h
  split at h
  · exact nomatch h
  · next activeVersion record hactive =>
    split_ifs at h
    obtain ⟨rfl, -⟩ := Opening.evaluates.inj h
    exact normalized_of_activeRecord hactive

/-- The state a window works with: the stored one, or a new one for another version. -/
def Autopilot.stateFor (s : Autopilot K) (activeVersion : Text)
    (snapshot : PolicyCanarySnapshot K) : PolicyCanaryAutopilotState K :=
  match s.saved with
  | some state => if normalizePolicyVersion state.version = activeVersion then state else fresh
  | none => fresh
where
  fresh : PolicyCanaryAutopilotState K :=
    { version := activeVersion
      healthyWindows := 0
      baselineUnknownRate := snapshot.aggregate.unknownRate
      baselineTempfailRecover := snapshot.aggregate.tempfailRecovery
      baselinePolicyBlockRate := snapshot.aggregate.policyBlockRate
      providerBaselines := snapshot.providers }

/-- The state of a window is the stored one of the version, or has no count. -/
theorem stateFor_cases (s : Autopilot K) (version : Text) (snapshot : PolicyCanarySnapshot K) :
    (∃ state, s.saved = some state ∧ normalizePolicyVersion state.version = version ∧
      s.stateFor version snapshot = state) ∨
    (∀ state, s.saved = some state → normalizePolicyVersion state.version ≠ version) ∧
      s.stateFor version snapshot = Autopilot.stateFor.fresh version snapshot := by
  unfold Autopilot.stateFor
  split
  · next state hsaved =>
    split
    · next hversion => exact .inl ⟨state, hsaved, hversion, rfl⟩
    · next hversion =>
      refine .inr ⟨fun state' hsaved' => ?_, rfl⟩
      rw [← Option.some.inj (hsaved.symm.trans hsaved')]
      exact hversion
  · next hsaved =>
    refine .inr ⟨fun state' hsaved' => ?_, rfl⟩
    rw [hsaved] at hsaved'
    exact nomatch hsaved'

theorem stateFor_of_saved {s : Autopilot K} {version : Text}
    {state : PolicyCanaryAutopilotState K} (snapshot : PolicyCanarySnapshot K)
    (hsaved : s.saved = some state)
    (hname : normalizePolicyVersion state.version = version) :
    s.stateFor version snapshot = state := by
  rw [Autopilot.stateFor, hsaved]
  exact if_pos hname

theorem stateFor_version (s : Autopilot K) {version : Text} (snapshot : PolicyCanarySnapshot K)
    (hversion : normalizePolicyVersion version = version) :
    normalizePolicyVersion (s.stateFor version snapshot).version = version := by
  rcases stateFor_cases s version snapshot with ⟨state, -, hname, hstate⟩ | ⟨-, hfresh⟩
  · rw [hstate]
    exact hname
  · rw [hfresh]
    exact hversion

/-- What a window decides. -/
inductive Verdict where
  | mitigate (provider : Provider) (mode : ProviderMode)
  | rollBack (reason : Text)
  | healthy
  deriving DecidableEq, Repr

/-- The rollback a window asks for. -/
def Window.rollback (w : Window K) (reason : Text) : Call where
  op := .rollback "autopilot".toList reason
  answers := w.answers

/-- The promotion a window asks for. -/
def Window.promotion (w : Window K) (activeVersion : Text) (canaryPercent nextCanary : Int)
    (healthyWindows : Nat) : Call where
  op := .promote activeVersion nextCanary "autopilot".toList
    ("auto canary progression ".toList ++ (toString canaryPercent).toList ++ "->".toList ++
      (toString nextCanary).toList ++ " after ".toList ++ (toString healthyWindows).toList ++
      " healthy windows".toList)
  answers := w.answers

end Window

/-! ## Collecting the KPIs -/

section Rates
variable {K : Type} [Zero K] [One K] [Add K] [Sub K] [Mul K] [Div K] [NatCast K] [LT K]
  [DecidableLT K]

def averageOrZero (sum : K) (count : Nat) : K := if count = 0 then 0 else sum / (count : K)

/-- The metrics of one provider, summed up. -/
def ProviderAggregate.of (provider : Provider) (workers : List (WorkerSummary K)) :
    ProviderAggregate K :=
  workers.flatten.foldl
    (fun entry metric =>
      if normalizeProviderName metric.provider = some provider then
        { workers := entry.workers + 1
          unknownSum := entry.unknownSum + metric.unknownRate
          policyBlockSum := entry.policyBlockSum + metric.policyBlockRate }
      else entry)
    { workers := 0, unknownSum := 0, policyBlockSum := 0 }

/-- All four providers are known, whoever has sent metrics. -/
def aggregateProviderHealth (workers : List (WorkerSummary K)) :
    List (ProviderHealthSummary K) :=
  Provider.all.map fun provider =>
    let aggregate := ProviderAggregate.of provider workers
    { provider := provider
      unknownRate := averageOrZero aggregate.unknownSum aggregate.workers
      policyBlockedRate := averageOrZero aggregate.policyBlockSum aggregate.workers
      workers := aggregate.workers }

def maxFloat (a b : K) : K := if b < a then a else b

/-- The weight of a provider in the aggregate. -/
def ProviderHealthSummary.weight (provider : ProviderHealthSummary K) : K :=
  if (provider.workers : K) < 1 then 1 else provider.workers

def ProviderHealthSummary.kpi (provider : ProviderHealthSummary K) : PolicyCanaryKPI K where
  unknownRate := provider.unknownRate
  tempfailRecovery := maxFloat 0 (1 - provider.unknownRate)
  policyBlockRate := provider.policyBlockedRate
  workers := provider.workers

def collectKPI (workers : List (WorkerSummary K)) : PolicyCanarySnapshot K :=
  let health := aggregateProviderHealth workers
  let unknownWeighted := health.foldl (fun sum h => sum + h.unknownRate * h.weight) 0
  let policyBlockedWeighted := health.foldl (fun sum h => sum + h.policyBlockedRate * h.weight) 0
  let weightTotal := health.foldl (fun sum h => sum + h.weight) 0
  let providerKPI := health.map fun h => (h.provider, h.kpi)
  if 0 < weightTotal then
    let unknownRate := unknownWeighted / weightTotal
    let tempfailRecovery := 1 - unknownRate
    { aggregate :=
        { unknownRate := unknownRate
          tempfailRecovery := if tempfailRecovery < 0 then 0 else tempfailRecovery
          policyBlockRate := policyBlockedWeighted / weightTotal
          workers := workers.length }
      providers := providerKPI }
  else
    { aggregate :=
        { unknownRate := 0, tempfailRecovery := 0, policyBlockRate := 0, workers := 0 }
      providers := providerKPI }

/-! ## Regressions -/

variable (formatRate : K → Text) (settings : RuntimeSettings K)

/-- The reason of a rollback, empty when there is none. -/
def evaluatePolicyCanaryRollback (state : PolicyCanaryAutopilotState K)
    (current : PolicyCanaryKPI K) : Text :=
  if settings.policyCanaryUnknownRegressionThreshold <
      current.unknownRate - state.baselineUnknownRate then
    "auto rollback: unknown-rate regression ".toList ++
      formatRate (current.unknownRate - state.baselineUnknownRate) ++
      " exceeded threshold ".toList ++
      formatRate settings.policyCanaryUnknownRegressionThreshold
  else if settings.policyCanaryTempfailRecoveryDropThreshold <
      state.baselineTempfailRecover - current.tempfailRecovery then
    "auto rollback: tempfail-recovery drop ".toList ++
      formatRate (state.baselineTempfailRecover - current.tempfailRecovery) ++
      " exceeded threshold ".toList ++
      formatRate settings.policyCanaryTempfailRecoveryDropThreshold
  else if settings.policyCanaryPolicyBlockSpikeThreshold <
      current.policyBlockRate - state.baselinePolicyBlockRate then
    "auto rollback: policy-block spike ".toList ++
      formatRate (current.policyBlockRate - state.baselinePolicyBlockRate) ++
      " exceeded threshold ".toList ++
      formatRate settings.policyCanaryPolicyBlockSpikeThreshold
  else []

/-- The state against which one provider is evaluated. -/
def PolicyCanaryKPI.baselineState (base : PolicyCanaryKPI K) : PolicyCanaryAutopilotState K where
  version := []
  healthyWindows := 0
  baselineUnknownRate := base.unknownRate
  baselineTempfailRecover := base.tempfailRecovery
  baselinePolicyBlockRate := base.policyBlockRate
  providerBaselines := []

/-- The first provider that has regressed, in the order in which the map is ranged over. -/
def evaluateProviderPolicyCanaryRollback (baseline : ProviderKPIs K) :
    ProviderKPIs K → Option (Provider × Text)
  | [] => none
  | (provider, currentKPI) :: current =>
      if (currentKPI.workers : Int) < settings.minWorkers then
        evaluateProviderPolicyCanaryRollback baseline current
      else
        match baseline.lookup provider with
        | none => evaluateProviderPolicyCanaryRollback baseline current
        | some baseKPI =>
            let reason :=
              evaluatePolicyCanaryRollback formatRate settings baseKPI.baselineState currentKPI
            if reason = [] then evaluateProviderPolicyCanaryRollback baseline current
            else
              some (provider, "provider ".toList ++ provider.name ++ " regression: ".toList ++
                reason)

def hasMinimumProviderTelemetry (providers : ProviderKPIs K) : Bool :=
  providers.any fun kpi => decide (settings.minWorkers ≤ kpi.2.workers)

/-! ## Running a window -/

/-- The provider that a window takes up. -/
def Window.takenUp (w : Window K) (state : PolicyCanaryAutopilotState K) :
    Option (Provider × Text) :=
  evaluateProviderPolicyCanaryRollback formatRate w.settings state.providerBaselines
    ((collectKPI w.workers).providers.rotate w.start)

def Window.verdict (w : Window K) (modes : ProviderModes)
    (state : PolicyCanaryAutopilotState K) : Verdict :=
  let rollbackReason :=
    evaluatePolicyCanaryRollback formatRate w.settings state (collectKPI w.workers).aggregate
  match w.takenUp formatRate state with
  | some (provider, reason) =>
      match nextProviderMitigationMode (currentMode modes provider) with
      | some nextMode => .mitigate provider nextMode
      | none => .rollBack reason
  | none => if rollbackReason = [] then .healthy else .rollBack rollbackReason

/-- The end of a window in which nothing has regressed. -/
def Autopilot.advance (cfg : Config) (s : Autopilot K) (w : Window K) (activeVersion : Text)
    (canaryPercent : Int) (state : PolicyCanaryAutopilotState K) : Outcome × Autopilot K :=
  let snapshot := collectKPI w.workers
  if hasMinimumProviderTelemetry w.settings snapshot.providers = false then
    (.unsampled, { s with saved := some state })
  else
    let state := { state with healthyWindows := state.healthyWindows + 1 }
    if (state.healthyWindows : Int) < w.settings.required then
      (.counted, { s with saved := some state })
    else
      match nextPolicyCanaryStep canaryPercent with
      | (_, false) => (.ended, { s with saved := none })
      | (nextCanary, true) =>
          match s.ledger.call cfg
            (w.promotion activeVersion canaryPercent nextCanary state.healthyWindows) with
          | (.error _, ledger) => (.promoteFailed, { s with ledger := ledger })
          | (.ok _, ledger) =>
              (.promoted nextCanary,
                { s with
                  ledger := ledger
                  saved := some
                    { version := activeVersion
                      healthyWindows := 0
                      baselineUnknownRate := snapshot.aggregate.unknownRate
                      baselineTempfailRecover := snapshot.aggregate.tempfailRecovery
                      baselinePolicyBlockRate := snapshot.aggregate.policyBlockRate
                      providerBaselines := snapshot.providers } })

/-- A window that is evaluated. -/
def Autopilot.evaluate (cfg : Config) (s : Autopilot K) (w : Window K) (activeVersion : Text)
    (canaryPercent : Int) : Outcome × Autopilot K :=
  let snapshot := collectKPI w.workers
  let state := s.stateFor activeVersion snapshot
  match w.verdict formatRate s.modes state with
  | .mitigate provider nextMode =>
      (.mitigated provider nextMode,
        { s with
          modes := Function.update s.modes provider (some ⟨nextMode, .autopilot⟩)
          saved := some
            { state with healthyWindows := 0, providerBaselines := snapshot.providers } })
  | .rollBack reason =>
      match s.ledger.call cfg (w.rollback reason) with
      | (.error _, ledger) => (.rollbackFailed, { s with ledger := ledger })
      | (.ok _, ledger) => (.rolledBack, { s with ledger := ledger, saved := none })
  | .healthy => s.advance cfg w activeVersion canaryPercent state

/-! ## The system -/

/-- The canary step under way: the version and percentage that the windows observe, the
KPIs when it began, and whether a window has since mitigated, or failed to promote or to
roll back. -/
structure CanaryStep (K : Type) where
  version : Text
  canaryPercent : Int
  baseline : ProviderKPIs K
  disturbed : Bool := false

/-- A window that was evaluated. -/
structure Report (K : Type) where
  version : Text
  canaryPercent : Int
  settings : RuntimeSettings K
  baseline : ProviderKPIs K
  observed : ProviderKPIs K
  before : ProviderModes
  after : ProviderModes
  outcome : Outcome

/-- The autopilot with the step under way and the reports, the newest first. -/
structure Watched (K : Type) extends Autopilot K where
  step : Option (CanaryStep K) := none
  reports : List (Report K) := []

/-- The windows are part of a step of the version at the canary percentage. -/
def Watched.Observes (s : Watched K) (version : Text) (canaryPercent : Int) : Prop :=
  s.step.map (fun step => (step.version, step.canaryPercent)) = some (version, canaryPercent)

instance (s : Watched K) (version : Text) (canaryPercent : Int) :
    Decidable (s.Observes version canaryPercent) := inferInstanceAs (Decidable (_ = _))

/-- The step that a window is part of: the one under way, or one that begins with it. -/
def Watched.stepAt (s : Watched K) (w : Window K) (version : Text) (canaryPercent : Int) :
    CanaryStep K :=
  match s.step with
  | some step => if step.version = version ∧ step.canaryPercent = canaryPercent then step
      else begun
  | none => begun
where
  begun : CanaryStep K :=
    { version := version
      canaryPercent := canaryPercent
      baseline := (collectKPI w.workers).providers }

theorem stepAt_version (s : Watched K) (w : Window K) (version : Text) (canaryPercent : Int) :
    (s.stepAt w version canaryPercent).version = version ∧
      (s.stepAt w version canaryPercent).canaryPercent = canaryPercent := by
  unfold Watched.stepAt
  split
  · split
    · next h => exact h
    · exact ⟨rfl, rfl⟩
  · exact ⟨rfl, rfl⟩

/-- The step of a window is the one under way, or begins with it. -/
theorem stepAt_cases (s : Watched K) (w : Window K) (version : Text) (canaryPercent : Int) :
    s.step = some (s.stepAt w version canaryPercent) ∨
      s.stepAt w version canaryPercent = Watched.stepAt.begun w version canaryPercent := by
  unfold Watched.stepAt
  split
  · next step hstep =>
    split
    · exact .inl hstep
    · exact .inr rfl
  · exact .inr rfl

theorem stepAt_of_observes {s : Watched K} {w : Window K} {version : Text} {canaryPercent : Int}
    (h : s.Observes version canaryPercent) :
    s.step = some (s.stepAt w version canaryPercent) := by
  obtain ⟨step, hstep, hkey⟩ := Option.map_eq_some_iff.mp h
  obtain ⟨rfl, rfl⟩ := Prod.mk.inj hkey
  rw [Watched.stepAt, hstep]
  dsimp only
  rw [if_pos ⟨rfl, rfl⟩]

/-- What becomes of a step. -/
def CanaryStep.behind (step : CanaryStep K) (w : Window K) : Outcome → Option (CanaryStep K)
  | .mitigated _ _ => some { step with disturbed := true }
  | .rolledBack => none
  | .rollbackFailed => some { step with disturbed := true }
  | .unsampled => some step
  | .counted => some step
  | .ended => none
  | .promoted nextCanary =>
      some
        { version := step.version
          canaryPercent := nextCanary
          baseline := (collectKPI w.workers).providers }
  | .promoteFailed => some { step with disturbed := true }

/-- A window comes, somebody calls the control plane, or sets the mode of a provider. -/
inductive Action (K : Type) where
  | window (w : Window K)
  | call (c : Call)
  | setProviderMode (provider : Provider) (mode : ProviderMode) (source : ModeSource)

/-- A window that was evaluated goes into the reports. -/
def Watched.note (s : Watched K) (w : Window K) (version : Text) (canaryPercent : Int)
    (outcome : Outcome) (t : Autopilot K) : Watched K :=
  { t with
    step := (s.stepAt w version canaryPercent).behind w outcome
    reports :=
      { version := version
        canaryPercent := canaryPercent
        settings := w.settings
        baseline := (s.stepAt w version canaryPercent).baseline
        observed := (collectKPI w.workers).providers
        before := s.modes
        after := t.modes
        outcome := outcome } :: s.reports }

def Watched.window (cfg : Config) (foldRune : Char → Char) (s : Watched K) (w : Window K) :
    Watched K :=
  match s.opening foldRune w with
  | .idle => s
  | .complete => { s with saved := none, step := none }
  | .evaluates version canaryPercent =>
      let (outcome, t) := s.evaluate formatRate cfg w version canaryPercent
      s.note w version canaryPercent outcome t

/-- The control plane with its autopilot. -/
def canary (cfg : Config) (foldRune : Char → Char) : System (Watched K) (Action K) where
  step s
    | .window w => some (s.window formatRate cfg foldRune w)
    | .call c => some { s with ledger := (s.ledger.call cfg c).2 }
    | .setProviderMode provider mode source =>
        some { s with modes := Function.update s.modes provider (some ⟨mode, source⟩) }

/-! ## What a window does -/

/-- The outcomes of a window that is evaluated for `version` at `canaryPercent`, with the
state it stores and the modes it leaves. -/
inductive Evaluated (cfg : Config) (s : Autopilot K) (w : Window K) (version : Text)
    (state : PolicyCanaryAutopilotState K) :
    Outcome → Option (PolicyCanaryAutopilotState K) → ProviderModes → Prop
  | mitigated {provider : Provider} {mode : ProviderMode} {reason : Text}
      (htaken : w.takenUp formatRate state = some (provider, reason))
      (hmode : nextProviderMitigationMode (currentMode s.modes provider) = some mode) :
      Evaluated cfg s w version state (.mitigated provider mode)
        (some { state with
          healthyWindows := 0
          providerBaselines := (collectKPI w.workers).providers })
        (Function.update s.modes provider (some ⟨mode, .autopilot⟩))
  | rolledBack {reason : Text} (hverdict : w.verdict formatRate s.modes state = .rollBack reason) :
      Evaluated cfg s w version state .rolledBack none s.modes
  | rollbackFailed {reason : Text}
      (hverdict : w.verdict formatRate s.modes state = .rollBack reason)
      (hfailed : (s.ledger.call cfg (w.rollback reason)).1.toBool = false) :
      Evaluated cfg s w version state .rollbackFailed s.saved s.modes
  | unsampled (hverdict : w.verdict formatRate s.modes state = .healthy) :
      Evaluated cfg s w version state .unsampled (some state) s.modes
  | counted (hverdict : w.verdict formatRate s.modes state = .healthy) :
      Evaluated cfg s w version state .counted
        (some { state with healthyWindows := state.healthyWindows + 1 }) s.modes
  | ended (hverdict : w.verdict formatRate s.modes state = .healthy) :
      Evaluated cfg s w version state .ended none s.modes
  | promoted {nextCanary : Int} (hverdict : w.verdict formatRate s.modes state = .healthy)
      (henough : w.settings.required ≤ state.healthyWindows + 1) :
      Evaluated cfg s w version state (.promoted nextCanary)
        (some
          { version := version
            healthyWindows := 0
            baselineUnknownRate := (collectKPI w.workers).aggregate.unknownRate
            baselineTempfailRecover := (collectKPI w.workers).aggregate.tempfailRecovery
            baselinePolicyBlockRate := (collectKPI w.workers).aggregate.policyBlockRate
            providerBaselines := (collectKPI w.workers).providers })
        s.modes
  | promoteFailed (hverdict : w.verdict formatRate s.modes state = .healthy)
      (henough : w.settings.required ≤ state.healthyWindows + 1) :
      Evaluated cfg s w version state .promoteFailed s.saved s.modes

variable {formatRate}

theorem advanced {cfg : Config} {s : Autopilot K} {w : Window K} {version : Text}
    {canaryPercent : Int} {state : PolicyCanaryAutopilotState K}
    (hverdict : w.verdict formatRate s.modes state = .healthy) :
    Evaluated formatRate cfg s w version state (s.advance cfg w version canaryPercent state).1
      (s.advance cfg w version canaryPercent state).2.saved
      (s.advance cfg w version canaryPercent state).2.modes := by
  unfold Autopilot.advance
  dsimp only
  split
  · exact .unsampled hverdict
  · split
    · exact .counted hverdict
    · next henough =>
      have henough : w.settings.required ≤ state.healthyWindows + 1 := by
        rw [not_lt] at henough
        exact_mod_cast henough
      split
      · exact .ended hverdict
      · split
        · exact .promoteFailed hverdict henough
        · exact .promoted hverdict henough

/-- What a window does is one of these. -/
theorem evaluated {cfg : Config} {s : Autopilot K} {w : Window K} {version : Text}
    {canaryPercent : Int} :
    Evaluated formatRate cfg s w version (s.stateFor version (collectKPI w.workers))
      (s.evaluate formatRate cfg w version canaryPercent).1
      (s.evaluate formatRate cfg w version canaryPercent).2.saved
      (s.evaluate formatRate cfg w version canaryPercent).2.modes := by
  unfold Autopilot.evaluate
  dsimp only
  split
  · next provider nextMode hverdict =>
    unfold Window.verdict at hverdict
    dsimp only at hverdict
    split at hverdict
    · next taken reason htaken =>
      split at hverdict
      · next mode hmode =>
        obtain ⟨rfl, rfl⟩ := Verdict.mitigate.inj hverdict
        exact .mitigated htaken hmode
      · exact nomatch hverdict
    · split at hverdict <;> exact nomatch hverdict
  · next reason hverdict =>
    split
    · next e ledger hcall =>
      refine .rollbackFailed hverdict ?_
      rw [hcall]
      rfl
    · exact .rolledBack hverdict
  · next hverdict => exact advanced hverdict

/-- The rule for windows. -/
theorem window_cases {cfg : Config} {foldRune : Char → Char} {s : Watched K} {w : Window K}
    {P : Watched K → Prop} (hidle : P s) (hcomplete : P { s with saved := none, step := none })
    (hevaluates : ∀ version canaryPercent outcome t,
      s.opening foldRune w = .evaluates version canaryPercent →
      Evaluated formatRate cfg s.toAutopilot w version
        (s.stateFor version (collectKPI w.workers)) outcome t.saved t.modes →
      P (s.note w version canaryPercent outcome t)) :
    P (s.window formatRate cfg foldRune w) := by
  unfold Watched.window
  split
  · exact hidle
  · exact hcomplete
  · next version canaryPercent hopening => exact hevaluates _ _ _ _ hopening evaluated

/-- A rollback is asked for at the end of the ladder of the provider taken up, or when none
is taken up. -/
theorem takenUp_of_rollBack {w : Window K} {modes : ProviderModes}
    {state : PolicyCanaryAutopilotState K} {reason : Text}
    (h : w.verdict formatRate modes state = .rollBack reason) :
    (∃ provider, w.takenUp formatRate state = some (provider, reason) ∧
      nextProviderMitigationMode (currentMode modes provider) = none) ∨
    w.takenUp formatRate state = none := by
  unfold Window.verdict at h
  dsimp only at h
  split at h
  · next provider _ htaken =>
    split at h
    · exact nomatch h
    · next hmode =>
      obtain rfl := Verdict.rollBack.inj h
      exact .inl ⟨provider, htaken, hmode⟩
  · next htaken => exact .inr htaken

/-- Nothing is taken up in a healthy window. -/
theorem takenUp_of_healthy {w : Window K} {modes : ProviderModes}
    {state : PolicyCanaryAutopilotState K}
    (h : w.verdict formatRate modes state = .healthy) : w.takenUp formatRate state = none := by
  unfold Window.verdict at h
  dsimp only at h
  split at h
  · split at h <;> exact nomatch h
  · next htaken => exact htaken

end Rates

/-! ## Rational rates -/

/-- `%.4f` of a rate that has no more than four decimals. -/
def fourDecimals (rate : ℚ) : Text :=
  let n := rate.num.natAbs * 10000 / rate.den
  let decimals := (toString (n % 10000)).toList
  (if rate < 0 then ['-'] else []) ++ (toString (n / 10000)).toList ++ ['.'] ++
    List.replicate (4 - decimals.length) '0' ++ decimals

example : fourDecimals (5 / 80) = "0.0625".toList := by decide +kernel

/-- Two healthy windows take the version to the next canary percentage. -/
def twoWindows : RuntimeSettings ℚ where
  policyCanaryRequiredHealthWindows := 2
  policyCanaryUnknownRegressionThreshold := 1 / 16
  policyCanaryTempfailRecoveryDropThreshold := 1 / 8
  policyCanaryPolicyBlockSpikeThreshold := 1 / 8
  policyCanaryMinProviderWorkers := 1

/-- A window with one worker, which has these rates of unknown outcomes. -/
def windowOf (rates : List (Provider × ℚ)) : Action ℚ :=
  .window
    { settings := twoWindows
      workers := [rates.map fun rate => ⟨rate.1.name, rate.2, 0⟩] }

def manualPromotion (version : Text) (canaryPercent : Int) : Action ℚ :=
  .call { op := .promote version canaryPercent "manual".toList [] }

def manualValidation (version : Text) : Action ℚ :=
  .call { op := .validate version "manual".toList [] }

end ValidEmailVerifier.Policy
