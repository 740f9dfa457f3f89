/-
# `Policy.CanaryWindows` — healthy windows behind every promotion of the autopilot

The autopilot counts healthy windows in a state that it stores by version.  When
somebody promotes the same version to another canary percentage, the count goes on; and a
window that fails to roll back leaves it as it was.

As long as a window finds a count only at the canary percentage at which it was made, and
rolls back when it is to, the autopilot promotes from a percentage only behind the required
number of healthy windows in a row at it (`promotedInTime_of_countsHere`).  A manual
promotion in between breaks this (`countedElsewhere_promotes`).
-/
import ValidEmailVerifier.Policy.Autopilot

namespace ValidEmailVerifier.Policy

open Transition Programs Worker

/-! ## The law -/

/-- Nothing had regressed in the window. -/
def Outcome.isHealthy : Outcome → Bool
  | .counted => true
  | .ended => true
  | .promoted _ => true
  | .promoteFailed => true
  | _ => false

/-- The window asked for a promotion. -/
def Outcome.asksPromotion : Outcome → Bool
  | .promoted _ => true
  | .promoteFailed => true
  | _ => false

section Rates
variable {K : Type}

/-- The healthy windows in a row, up to now, that have observed the version at the canary
percentage.  A window without enough telemetry is no observation. -/
def healthyStreak (version : Text) (canaryPercent : Int) : List (Report K) → Nat
  | [] => 0
  | report :: reports =>
      if report.outcome = .unsampled then healthyStreak version canaryPercent reports
      else if report.outcome.isHealthy = true ∧ report.version = version ∧
          report.canaryPercent = canaryPercent then
        healthyStreak version canaryPercent reports + 1
      else 0

/-- Every promotion came behind the required number of healthy windows in a row, observed at
the canary percentage that it left. -/
def PromotedInTime : List (Report K) → Prop
  | [] => True
  | report :: reports =>
      (report.outcome.asksPromotion = true → report.settings.required ≤
        healthyStreak report.version report.canaryPercent (report :: reports)) ∧
      PromotedInTime reports

instance decidablePromotedInTime : DecidablePred (PromotedInTime (K := K))
  | [] => isTrue trivial
  | _ :: reports =>
      haveI := decidablePromotedInTime reports
      inferInstanceAs (Decidable (_ ∧ _))

theorem healthyStreak_healthy {version : Text} {canaryPercent : Int} {report : Report K}
    {reports : List (Report K)} (h : report.outcome.isHealthy = true)
    (hversion : report.version = version) (hcanary : report.canaryPercent = canaryPercent) :
    healthyStreak version canaryPercent (report :: reports) =
      healthyStreak version canaryPercent reports + 1 := by
  have hsampled : report.outcome ≠ .unsampled := by
    intro hne
    rw [hne] at h
    exact nomatch h
  rw [healthyStreak, if_neg hsampled, if_pos ⟨h, hversion, hcanary⟩]

/-- A count that was true is true with one more healthy window. -/
theorem enough_of_found {n : Nat} {report : Report K} {reports : List (Report K)}
    (h : report.outcome.isHealthy = true)
    (hn : n ≤ healthyStreak report.version report.canaryPercent reports) :
    (n : Int) + 1 ≤ healthyStreak report.version report.canaryPercent (report :: reports) := by
  rw [healthyStreak_healthy h rfl rfl]
  exact_mod_cast Nat.succ_le_succ hn

/-! ## The condition -/

variable [Zero K] [One K] [Add K] [Sub K] [Mul K] [Div K] [NatCast K] [LT K] [DecidableLT K]
variable (formatRate : K → Text)

/-- When the window is to roll back, `RollbackSMTPPolicyVersion` returns no error. -/
def Autopilot.CanRollBack (cfg : Config) (s : Autopilot K) (w : Window K) : Verdict → Prop
  | .rollBack reason => (s.ledger.call cfg (w.rollback reason)).1.toBool = true
  | _ => True

instance (cfg : Config) (s : Autopilot K) (w : Window K) : DecidablePred (s.CanRollBack cfg w)
  | .rollBack reason =>
      inferInstanceAs (Decidable ((s.ledger.call cfg (w.rollback reason)).1.toBool = true))
  | .mitigate _ _ => isTrue trivial
  | .healthy => isTrue trivial

/-- A window that finds a count of healthy windows finds it at the canary percentage of the
step under way, and can roll back when it is to. -/
def CountsHere (cfg : Config) (foldRune : Char → Char) (s : Watched K) : Action K → Prop
  | .window w => (s.opening foldRune w).Evaluating fun version canaryPercent =>
      let state := s.stateFor version (collectKPI w.workers)
      0 < state.healthyWindows →
        s.Observes version canaryPercent ∧
          s.CanRollBack cfg w (w.verdict formatRate s.modes state)
  | _ => True

instance (cfg : Config) (foldRune : Char → Char) (s : Watched K) :
    DecidablePred (CountsHere formatRate cfg foldRune s)
  | .window w => inferInstanceAs (Decidable ((s.opening foldRune w).Evaluating _))
  | .call _ => isTrue trivial
  | .setProviderMode _ _ _ => isTrue trivial

/-! ## Runs -/

/-- The stored count is one of windows at the step under way. -/
def CountTrue (s : Watched K) : Prop :=
  ∀ state step, s.saved = some state → s.step = some step →
    step.version = normalizePolicyVersion state.version →
    state.healthyWindows ≤ healthyStreak step.version step.canaryPercent s.reports

variable {formatRate}

/-- What holds of every state of a run. -/
structure Counted (s : Watched K) : Prop where
  count : CountTrue s
  inTime : PromotedInTime s.reports

theorem counted_note {cfg : Config} {s : Watched K} {w : Window K} {version : Text}
    {canaryPercent : Int} {outcome : Outcome} {t : Autopilot K} (h : Counted s)
    (hcond : 0 < (s.stateFor version (collectKPI w.workers)).healthyWindows →
      s.Observes version canaryPercent ∧ s.CanRollBack cfg w
        (w.verdict formatRate s.modes (s.stateFor version (collectKPI w.workers))))
    (hdone : Evaluated formatRate cfg s.toAutopilot w version
      (s.stateFor version (collectKPI w.workers)) outcome t.saved t.modes) :
    Counted (s.note w version canaryPercent outcome t) := by
  obtain ⟨hversion, hcanary⟩ := stepAt_version s w version canaryPercent
  -- the count that the window finds is one of windows that observed the same
  have hfound : (s.stateFor version (collectKPI w.workers)).healthyWindows ≤
      healthyStreak version canaryPercent s.reports := by
    rcases Nat.eq_zero_or_pos (s.stateFor version (collectKPI w.workers)).healthyWindows
      with hzero | hpos
    · rw [hzero]
      exact Nat.zero_le _
    · rcases stateFor_cases s.toAutopilot version (collectKPI w.workers) with
        ⟨state, hsaved, hname, hstate⟩ | ⟨-, hfresh⟩
      · have hstep := stepAt_of_observes (w := w) (hcond hpos).1
        have hle := h.count _ _ hsaved hstep (hversion.trans hname.symm)
        rwa [hversion, hcanary, ← hstate] at hle
      · rw [hfresh] at hpos
        exact absurd hpos (Nat.lt_irrefl 0)
  have hstreak : ∀ {outcome : Outcome}, outcome.isHealthy = true →
      healthyStreak version canaryPercent (s.note w version canaryPercent outcome t).reports =
        healthyStreak version canaryPercent s.reports + 1 :=
    fun houtcome => healthyStreak_healthy houtcome rfl rfl
  generalize hsaved : t.saved = saved at hdone
  generalize t.modes = modes at hdone
  cases hdone with
  | mitigated htaken hmode =>
    refine ⟨?_, nofun, h.inTime⟩
    intro state step hstored _ _
    rw [← Option.some.inj (hsaved.symm.trans hstored)]
    exact Nat.zero_le _
  | rolledBack hverdict =>
    refine ⟨?_, nofun, h.inTime⟩
    intro state step hstored
    exact nomatch hsaved.symm.trans hstored
  | rollbackFailed hverdict hfailed =>
    refine ⟨?_, nofun, h.inTime⟩
    intro state step hstored hstep hname
    obtain rfl := Option.some.inj hstep
    have hstate := stateFor_of_saved (collectKPI w.workers)
      (hsaved.symm.trans hstored) (hname.symm.trans hversion)
    rcases Nat.eq_zero_or_pos state.healthyWindows with hzero | hpos
    · rw [hzero]
      exact Nat.zero_le _
    · rw [← hstate] at hpos
      have hok := (hcond hpos).2
      rw [hverdict] at hok
      exact nomatch hfailed.symm.trans hok
  | unsampled hverdict =>
    refine ⟨?_, nofun, h.inTime⟩
    intro state step hstored hstep _
    rw [← Option.some.inj (hsaved.symm.trans hstored), ← Option.some.inj hstep]
    show _ ≤ healthyStreak (s.stepAt w version canaryPercent).version
      (s.stepAt w version canaryPercent).canaryPercent _
    rw [hversion, hcanary]
    exact hfound
  | counted hverdict =>
    refine ⟨?_, nofun, h.inTime⟩
    intro state step hstored hstep _
    rw [← Option.some.inj (hsaved.symm.trans hstored), ← Option.some.inj hstep]
    show _ + 1 ≤ healthyStreak (s.stepAt w version canaryPercent).version
      (s.stepAt w version canaryPercent).canaryPercent (s.note w version canaryPercent _ t).reports
    rw [hversion, hcanary, hstreak rfl]
    exact Nat.succ_le_succ hfound
  | ended hverdict =>
    refine ⟨?_, nofun, h.inTime⟩
    intro state step hstored
    exact nomatch hsaved.symm.trans hstored
  | promoted hverdict henough =>
    refine ⟨?_, fun _ => ?_, h.inTime⟩
    · intro state step hstored _ _
      rw [← Option.some.inj (hsaved.symm.trans hstored)]
      exact Nat.zero_le _
    · exact henough.trans (enough_of_found rfl hfound)
  | promoteFailed hverdict henough =>
    refine ⟨?_, fun _ => ?_, h.inTime⟩
    · intro state step hstored hstep hname
      obtain rfl := Option.some.inj hstep
      have hstate := stateFor_of_saved (collectKPI w.workers)
        (hsaved.symm.trans hstored) (hname.symm.trans hversion)
      rw [hstate] at hfound
      show _ ≤ healthyStreak (s.stepAt w version canaryPercent).version
        (s.stepAt w version canaryPercent).canaryPercent
        (s.note w version canaryPercent _ t).reports
      rw [hversion, hcanary, hstreak rfl]
      exact hfound.trans (Nat.le_succ _)
    · exact henough.trans (enough_of_found rfl hfound)

/-- **In every run of windows, calls and modes set by others, in which a window finds a count
only at the canary percentage of the step under way and rolls back when it is to, the
autopilot promotes from a canary percentage only behind the required number of healthy
windows in a row that have observed the version at it.** -/
theorem promotedInTime_of_countsHere {cfg : Config} {foldRune : Char → Char} {s : Watched K}
    (h : (canary formatRate cfg foldRune).Reaches (CountsHere formatRate cfg foldRune) {} s) :
    PromotedInTime s.reports := by
  refine (h.invariant (P := Counted) ⟨nofun, trivial⟩ ?_).inTime
  intro s action t hs hcond hstep
  cases action with
  | window w =>
    rw [← Option.some.inj hstep]
    refine window_cases hs ⟨nofun, hs.inTime⟩ ?_
    intro version canaryPercent outcome t hopening hdone
    rw [CountsHere, hopening] at hcond
    exact counted_note hs hcond hdone
  | call c =>
    rw [← Option.some.inj hstep]
    exact ⟨hs.count, hs.inTime⟩
  | setProviderMode provider mode source =>
    rw [← Option.some.inj hstep]
    exact ⟨hs.count, hs.inTime⟩

end Rates

/-- The outcomes of the windows, the latest first. -/
def Watched.outcomes {K : Type} (s : Watched K) : List Outcome := s.reports.map Report.outcome

/-- Promoted by hand to 5%, two healthy windows, then to another 10%, and two more. -/
theorem promotedInTime_of_countsHere_twice :
    ∃ s : Watched ℚ, s.outcomes = [.promoted 25, .counted, .promoted 25, .counted] ∧
      PromotedInTime s.reports := by
  have hrun : ((canary fourDecimals ⟨false, true⟩ Char.toLower).runIf
      (CountsHere fourDecimals ⟨false, true⟩ Char.toLower) {}
      [manualValidation "v1".toList, manualPromotion "v1".toList 5, windowOf [(.gmail, 0)],
        windowOf [(.gmail, 0)], manualPromotion "v1".toList 10, windowOf [(.gmail, 0)],
        windowOf [(.gmail, 0)]]).any
      (fun s => decide (s.outcomes = [.promoted 25, .counted, .promoted 25, .counted])) = true := by
    decide +kernel
  obtain ⟨s, hs, hp⟩ := System.exists_reaches hrun
  exact ⟨s, of_decide_eq_true hp, promotedInTime_of_countsHere hs⟩

/-- One healthy window at 5%, a promotion by hand to 25%, one healthy window there: the
autopilot promotes to 50%. -/
theorem countedElsewhere_promotes :
    ¬ ∀ (formatRate : ℚ → Text) (cfg : Config) (foldRune : Char → Char) (s : Watched ℚ),
      (canary formatRate cfg foldRune).Reaches Always {} s → PromotedInTime s.reports := by
  intro h
  have hrun : ((canary fourDecimals ⟨false, true⟩ Char.toLower).run {}
      [manualValidation "v1".toList, manualPromotion "v1".toList 5, windowOf [(.gmail, 0)],
        manualPromotion "v1".toList 25, windowOf [(.gmail, 0)]]).any
      (fun s => decide (¬ PromotedInTime s.reports)) = true := by
    decide +kernel
  obtain ⟨s, hs, hbad⟩ := System.exists_reaches_always hrun
  exact of_decide_eq_true hbad (h _ _ _ s hs)

end ValidEmailVerifier.Policy
