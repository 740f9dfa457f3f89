/-
# `Policy.Escalation` — the ladder of the autopilot beside the autoprotect

A provider that has regressed is moved up a ladder of modes, window by window, and at its
end the policy is rolled back.  The mode of the provider is all that says how far it has
come, and the autoprotect of the alert service writes the same key.

As long as one provider at a time has regressed, and nobody takes a provider that the last
window has escalated back down, a provider that is regressed in as many windows in a row as
its ladder has steps has the policy rolled back (`inTime_of_keepsLadder`).  Autoprotect
respects only modes set by hand: with healthy rates it sets the provider to `normal` between
two windows, and the ladder begins anew (`autoprotect_restarts`).
-/
import ValidEmailVerifier.Policy.ProviderHealth
import ValidEmailVerifier.Policy.CanarySafety

namespace ValidEmailVerifier.Policy

open Transition Programs Worker

/-! ## The ladder -/

/-- The windows it takes from a mode to the rollback. -/
def ProviderMode.stepsLeft : ProviderMode → Nat
  | .normal => 4
  | .cautious => 3
  | .degradedProbe => 2
  | .drain => 1
  | .quarantine => 4

/-- A window takes one of the steps that are left. -/
theorem stepsLeft_of_next {mode next : ProviderMode}
    (h : nextProviderMitigationMode mode = some next) : next.stepsLeft + 1 = mode.stepsLeft := by
  cases mode with
  | drain => exact nomatch h
  | _ => obtain rfl := Option.some.inj h; rfl

theorem stepsLeft_pos (mode : ProviderMode) : 0 < mode.stepsLeft := by
  cases mode <;> exact Nat.succ_pos _

/-! ## The system -/

/-- A window that was evaluated: the providers it found regressed against the stored
baselines, the modes before it, and what it came to. -/
structure Evaluation where
  regressed : List Provider
  before : ProviderModes
  outcome : Outcome

/-- The window asked for the rollback of the policy. -/
def Evaluation.asksRollback (e : Evaluation) : Bool :=
  e.outcome = .rolledBack || e.outcome = .rollbackFailed

/-- A window, a call or a mode set by somebody, or a check of the alert service. -/
inductive Turn (K : Type) where
  | autopilot (a : Action K)
  | check (c : HealthCheck K)

/-- The control plane with the windows evaluated so far, the newest first. -/
structure Escalating (K : Type) extends Watched K where
  evaluations : List Evaluation := []

/-! ## The law -/

section Ladder
variable {K : Type}

/-- Whoever was regressed in the last windows, as many as the steps that were left before
them, has had one of them ask for the rollback. -/
def InTime (evaluations : List Evaluation) : Prop :=
  ∀ provider, ∀ n < evaluations.length,
    (∀ e ∈ evaluations.take (n + 1), provider ∈ e.regressed) →
    (∀ first ∈ evaluations[n]?, (currentMode first.before provider).stepsLeft ≤ n + 1) →
    ∃ e ∈ evaluations.take (n + 1), e.asksRollback = true

/-- Nobody takes a provider back down that the last window found regressed and did not answer
with a rollback. -/
def Escalating.Keeps (s : Escalating K) (modes : ProviderModes) : Prop :=
  ∀ last ∈ s.evaluations.head?, last.asksRollback = false → ∀ provider ∈ last.regressed,
    (currentMode modes provider).stepsLeft ≤ (currentMode s.modes provider).stepsLeft

instance (s : Escalating K) (modes : ProviderModes) : Decidable (s.Keeps modes) :=
  inferInstanceAs (Decidable (∀ last ∈ s.evaluations.head?, last.asksRollback = false →
    ∀ provider ∈ last.regressed,
      (currentMode modes provider).stepsLeft ≤ (currentMode s.modes provider).stepsLeft))

/-- A provider regressed in windows that did not ask for the rollback has come a step up the
ladder in each of them. -/
def Climbed (modes : ProviderModes) (evaluations : List Evaluation) : Prop :=
  ∀ provider, ∀ n < evaluations.length,
    (∀ e ∈ evaluations.take (n + 1), provider ∈ e.regressed ∧ e.asksRollback = false) →
    ∀ first ∈ evaluations[n]?,
      (currentMode modes provider).stepsLeft + (n + 1) ≤
        (currentMode first.before provider).stepsLeft

theorem Climbed.inTime {modes : ProviderModes} {evaluations : List Evaluation}
    (h : Climbed modes evaluations) : InTime evaluations := by
  intro provider n hn hregressed hsteps
  by_contra hnone
  push Not at hnone
  have hclimbed := h provider n hn (fun e he => ⟨hregressed e he,
    Bool.eq_false_iff.mpr (hnone e he)⟩)
  obtain ⟨first, hfirst⟩ : ∃ first, evaluations[n]? = some first :=
    ⟨_, List.getElem?_eq_getElem hn⟩
  have hpos := stepsLeft_pos (currentMode modes provider)
  have hle := hclimbed first hfirst
  have hleft := hsteps first hfirst
  omega

/-- Modes that keep the ladder. -/
theorem Climbed.keeps {s : Escalating K} {modes : ProviderModes}
    (h : Climbed s.modes s.evaluations) (hkeeps : s.Keeps modes) :
    Climbed modes s.evaluations := by
  intro provider n hn hall first hfirst
  have hclimbed := h provider n hn hall first hfirst
  cases hevaluations : s.evaluations with
  | nil =>
    rw [hevaluations] at hn
    exact absurd hn (Nat.not_lt_zero n)
  | cons last rest =>
    rw [hevaluations, List.take_succ_cons] at hall
    obtain ⟨hmem, hasks⟩ := hall last (.head _)
    have hle := hkeeps last (by rw [hevaluations]; rfl) hasks provider hmem
    omega

/-- A window that is evaluated. -/
theorem Climbed.cons {modes modes' : ProviderModes} {evaluations : List Evaluation}
    {e : Evaluation} (h : Climbed modes evaluations) (hbefore : e.before = modes)
    (hstep : ∀ provider ∈ e.regressed, e.asksRollback = false →
      (currentMode modes' provider).stepsLeft + 1 = (currentMode modes provider).stepsLeft) :
    Climbed modes' (e :: evaluations) := by
  intro provider n hn hall first hfirst
  rw [List.take_succ_cons] at hall
  obtain ⟨hmem, hasks⟩ := hall e (.head _)
  have hone := hstep provider hmem hasks
  cases n with
  | zero =>
    obtain rfl : e = first := Option.some.inj hfirst
    rw [hbefore]
    omega
  | succ n =>
    have hrest := h provider n (Nat.lt_of_succ_lt_succ hn) (fun d hd => hall d (.tail _ hd))
      first hfirst
    omega

end Ladder

/-! ## Windows and checks -/

section Rates
variable {K : Type} [Zero K] [One K] [Add K] [Sub K] [Mul K] [Div K] [NatCast K] [LT K]
  [DecidableLT K]

/-- The providers that a window finds regressed against the stored baselines. -/
def Autopilot.regressedIn (s : Autopilot K) (w : Window K) (version : Text) : List Provider :=
  regressed w.settings (s.stateFor version (collectKPI w.workers)).providerBaselines
    (collectKPI w.workers).providers

variable (formatRate : K → Text)

/-- The evaluation of a window, if it is evaluated. -/
def Autopilot.evaluation (cfg : Config) (foldRune : Char → Char) (s : Autopilot K)
    (w : Window K) : Option Evaluation :=
  match s.opening foldRune w with
  | .evaluates version canaryPercent =>
      some ⟨s.regressedIn w version, s.modes,
        (s.evaluate formatRate cfg w version canaryPercent).1⟩
  | _ => none

/-- What an action adds to the evaluations. -/
def Escalating.noted (cfg : Config) (foldRune : Char → Char) (s : Escalating K) :
    Action K → List Evaluation
  | .window w => (s.evaluation formatRate cfg foldRune w).toList ++ s.evaluations
  | _ => s.evaluations

variable {formatRate} in
/-- What a window that is evaluated does to a provider it finds regressed. -/
theorem stepsLeft_of_evaluated {cfg : Config} {s : Autopilot K} {w : Window K} {version : Text}
    {outcome : Outcome} {saved : Option (PolicyCanaryAutopilotState K)} {modes : ProviderModes}
    (hdone : Evaluated formatRate cfg s w version (s.stateFor version (collectKPI w.workers))
      outcome saved modes)
    (honly : ∀ taken ∈ w.takenUp formatRate (s.stateFor version (collectKPI w.workers)),
      ∀ provider ∈ s.regressedIn w version, provider = taken.1)
    {provider : Provider} (hmem : provider ∈ s.regressedIn w version)
    (hasks : outcome ≠ .rolledBack ∧ outcome ≠ .rollbackFailed) :
    (currentMode modes provider).stepsLeft + 1 = (currentMode s.modes provider).stepsLeft := by
  have hhealthy : w.verdict formatRate s.modes (s.stateFor version (collectKPI w.workers)) ≠
      .healthy := by
    intro hverdict
    have hnone := takenUp_eq_none.mp (takenUp_of_healthy hverdict)
    rw [Autopilot.regressedIn, hnone] at hmem
    exact absurd hmem List.not_mem_nil
  cases hdone with
  | @mitigated taken mode reason htaken hmode =>
    obtain rfl := honly _ htaken provider hmem
    rw [currentMode_update]
    exact stepsLeft_of_next hmode
  | rolledBack _ => exact absurd rfl hasks.1
  | rollbackFailed _ _ => exact absurd rfl hasks.2
  | unsampled hverdict => exact absurd hverdict hhealthy
  | counted hverdict => exact absurd hverdict hhealthy
  | ended hverdict => exact absurd hverdict hhealthy
  | promoted hverdict _ => exact absurd hverdict hhealthy
  | promoteFailed hverdict _ => exact absurd hverdict hhealthy

variable [LE K] [DecidableLE K]

/-- Windows of the autopilot and checks of the alert service, in any order. -/
def controlPlane (cfg : Config) (foldRune : Char → Char) : System (Escalating K) (Turn K) where
  step s
    | .autopilot a =>
        ((canary formatRate cfg foldRune).step s.toWatched a).map fun t =>
          { t with evaluations := s.noted formatRate cfg foldRune a }
    | .check c => some { s with modes := c.apply s.modes }

/-- A window finds no other provider regressed than the one it takes up; and checks, and
whoever sets modes, keep the providers on the ladder where they are or further up. -/
def KeepsLadder (foldRune : Char → Char) (s : Escalating K) : Turn K → Prop
  | .autopilot (.window w) => (s.opening foldRune w).Evaluating fun version _ =>
      ∀ taken ∈ w.takenUp formatRate (s.stateFor version (collectKPI w.workers)),
        ∀ provider ∈ s.regressedIn w version, provider = taken.1
  | .autopilot (.setProviderMode provider mode source) =>
      s.Keeps (Function.update s.modes provider (some ⟨mode, source⟩))
  | .autopilot (.call _) => True
  | .check c => s.Keeps (c.apply s.modes)

instance (foldRune : Char → Char) (s : Escalating K) :
    DecidablePred (KeepsLadder formatRate foldRune s)
  | .autopilot (.window w) => inferInstanceAs (Decidable ((s.opening foldRune w).Evaluating _))
  | .autopilot (.setProviderMode _ _ _) => inferInstanceAs (Decidable (s.Keeps _))
  | .autopilot (.call _) => isTrue trivial
  | .check c => inferInstanceAs (Decidable (s.Keeps (c.apply s.modes)))

variable {formatRate}

theorem climbed_window {cfg : Config} {foldRune : Char → Char} {s : Escalating K} {w : Window K}
    (h : Climbed s.modes s.evaluations)
    (hcond : KeepsLadder formatRate foldRune s (.autopilot (.window w))) :
    Climbed (s.toWatched.window formatRate cfg foldRune w).modes
      (s.noted formatRate cfg foldRune (.window w)) := by
  rw [Watched.window, Escalating.noted, Autopilot.evaluation]
  rw [KeepsLadder] at hcond
  cases hopening : s.opening foldRune w with
  | idle => exact h
  | complete => exact h
  | evaluates version canaryPercent =>
    rw [hopening] at hcond
    refine h.cons rfl fun provider hmem hasks => ?_
    have hneither : (s.evaluate formatRate cfg w version canaryPercent).1 ≠ .rolledBack ∧
        (s.evaluate formatRate cfg w version canaryPercent).1 ≠ .rollbackFailed := by
      simpa [Evaluation.asksRollback] using hasks
    exact stepsLeft_of_evaluated evaluated hcond hmem hneither

/-- **In every run that keeps the ladder the rollback comes in time.** -/
theorem inTime_of_keepsLadder {cfg : Config} {foldRune : Char → Char} {s : Escalating K}
    (h : (controlPlane formatRate cfg foldRune).Reaches (KeepsLadder formatRate foldRune) {} s) :
    InTime s.evaluations := by
  refine (h.invariant (P := fun s => Climbed s.modes s.evaluations) nofun ?_).inTime
  intro s turn t hs hcond hstep
  cases turn with
  | autopilot a =>
    obtain ⟨u, hu, rfl⟩ := Option.map_eq_some_iff.mp hstep
    cases a with
    | window w =>
      rw [← Option.some.inj hu]
      exact climbed_window hs hcond
    | call c =>
      rw [← Option.some.inj hu]
      exact hs
    | setProviderMode provider mode source =>
      rw [← Option.some.inj hu]
      exact hs.keeps hcond
  | check c =>
    rw [← Option.some.inj hstep]
    exact hs.keeps hcond

end Rates

/-- Gmail with ever more unknown outcomes, and what comes between two windows. -/
def climbing (between : List (Turn ℚ)) : List (Turn ℚ) :=
  [.autopilot (manualValidation "v1".toList), .autopilot (manualPromotion "v1".toList 5),
    .autopilot (windowOf [(.gmail, 0)])] ++
  [1 / 8, 1 / 4, 3 / 8, 1 / 2].flatMap fun rate =>
    .autopilot (windowOf [(.gmail, rate)]) :: between

/-- A check that finds all providers healthy. -/
def healthyCheck : Turn ℚ :=
  .check { thresholds := ⟨1, 1, 1, 1, 1, 1⟩, workers := some [] }

/-- Gmail was regressed in four windows in a row, from `normal` on. -/
def FourRegressed (evaluations : List Evaluation) : Prop :=
  evaluations.length = 5 ∧ (∀ e ∈ evaluations.take 4, .gmail ∈ e.regressed) ∧
    ∀ first ∈ evaluations[3]?, (currentMode first.before .gmail).stepsLeft ≤ 4

instance (evaluations : List Evaluation) : Decidable (FourRegressed evaluations) :=
  inferInstanceAs (Decidable (_ ∧ _ ∧ ∀ first ∈ evaluations[3]?, _))

/-- Without a check in between the fourth window asks for the rollback. -/
theorem inTime_of_keepsLadder_gmail :
    ∃ s : Escalating ℚ, FourRegressed s.evaluations ∧ InTime s.evaluations := by
  have hrun : ((controlPlane fourDecimals ⟨false, true⟩ Char.toLower).runIf
      (KeepsLadder fourDecimals Char.toLower) {} (climbing [])).any
      (fun s => decide (FourRegressed s.evaluations)) = true := by
    decide +kernel
  obtain ⟨s, hs, hp⟩ := System.exists_reaches hrun
  exact ⟨s, of_decide_eq_true hp, inTime_of_keepsLadder hs⟩

/-- With a healthy check behind each window gmail is on the first step again and again. -/
theorem autoprotect_restarts :
    ¬ ∀ (formatRate : ℚ → Text) (cfg : Config) (foldRune : Char → Char) (s : Escalating ℚ),
      (controlPlane formatRate cfg foldRune).Reaches Always {} s → InTime s.evaluations := by
  intro h
  have hrun : ((controlPlane fourDecimals ⟨false, true⟩ Char.toLower).run {}
      (climbing [healthyCheck])).any
      (fun s => decide (FourRegressed s.evaluations ∧
        ∀ e ∈ s.evaluations, e.asksRollback = false)) = true := by
    decide +kernel
  obtain ⟨s, hs, hp⟩ := System.exists_reaches_always hrun
  obtain ⟨⟨hlength, hregressed, hsteps⟩, hnone⟩ := of_decide_eq_true hp
  obtain ⟨e, he, hasks⟩ := h _ _ _ s hs .gmail 3 (by rw [hlength]; decide) hregressed hsteps
  exact nomatch (hnone e (List.mem_of_mem_take he)).symm.trans hasks

end ValidEmailVerifier.Policy
