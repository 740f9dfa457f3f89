/-
# `Fleet.RuntimeSettings` — the settings that `normalizeRuntimeSettings` puts right

`defaultRuntimeSettings` takes the defaults from the configuration, and `normalizeRuntimeSettings`
repairs settings from the defaults, one field after another.  A second pass finds nothing to
repair (`normalize_normalize`): where the first took a default that is itself out of range, the
second takes the same one.

The repairs that read a repaired field come after it, so the ranges hold whatever the settings
and the defaults were.  A count that must be positive is as positive as its default: the
durations have a fallback of their own, and the two counts of the policy canary are copied.
-/
import ValidEmailVerifier.Fleet.StoredSettings

namespace ValidEmailVerifier.StoredSettings

open GoJson

/-! ## The defaults -/

/-- What is read from the environment.  A duration counts nanoseconds. -/
structure Config (F : Type) where
  alertsEnabled : Bool
  autoActionsEnabled : Bool
  providerPolicyEngineEnabled : Bool
  adaptiveRetryEnabled : Bool
  providerAutoprotectEnabled : Bool
  alertErrorRateThreshold : F
  alertHeartbeatGrace : Int64
  alertCooldown : Int64
  alertCheckInterval : Int64
  staleWorkerTTL : Int64
  stuckDesiredGrace : Int64
  autoScaleEnabled : Bool
  autoScaleInterval : Int64
  autoScaleCooldown : Int64
  autoScaleMinDesired : Int64
  autoScaleMaxDesired : Int64
  autoScaleCanaryPercent : Int64
  quarantineErrorRate : F
  providerTempfailWarnRate : F
  providerTempfailCriticalRate : F
  providerRejectWarnRate : F
  providerRejectCriticalRate : F
  providerUnknownWarnRate : F
  providerUnknownCriticalRate : F
  policyCanaryAutopilotEnabled : Bool
  policyCanaryWindowMinutes : Int64
  policyCanaryRequiredHealthWindows : Int64
  policyCanaryUnknownRegressionThreshold : F
  policyCanaryTempfailRecoveryDropThreshold : F
  policyCanaryPolicyBlockSpikeThreshold : F
  policyCanaryMinProviderWorkers : Int64

/-- The whole seconds of a duration, or the fallback where these are not positive. -/
def secondsOr (fallback d : Int64) : Int64 :=
  if d / 1000000000 ≤ 0 then fallback else d / 1000000000

def defaultRuntimeSettings {F : Type} (cfg : Config F) : RuntimeSettings F where
  flag
    | .alertsEnabled => cfg.alertsEnabled
    | .autoActionsEnabled => cfg.autoActionsEnabled
    | .providerPolicyEngineEnabled => cfg.providerPolicyEngineEnabled
    | .adaptiveRetryEnabled => cfg.adaptiveRetryEnabled
    | .providerAutoprotectEnabled => cfg.providerAutoprotectEnabled
    | .autoscaleEnabled => cfg.autoScaleEnabled
    | .policyCanaryAutopilotEnabled => cfg.policyCanaryAutopilotEnabled
  count
    | .alertHeartbeatGraceSecond => secondsOr 120 cfg.alertHeartbeatGrace
    | .alertCooldownSecond => secondsOr 300 cfg.alertCooldown
    | .alertCheckIntervalSecond => secondsOr 30 cfg.alertCheckInterval
    | .staleWorkerTTLSecond => secondsOr 86400 cfg.staleWorkerTTL
    | .stuckDesiredGraceSecond => secondsOr 600 cfg.stuckDesiredGrace
    | .autoscaleIntervalSecond => secondsOr 30 cfg.autoScaleInterval
    | .autoscaleCooldownSecond => secondsOr 120 cfg.autoScaleCooldown
    | .autoscaleMinDesired => cfg.autoScaleMinDesired
    | .autoscaleMaxDesired => cfg.autoScaleMaxDesired
    | .autoscaleCanaryPercent => cfg.autoScaleCanaryPercent
    | .policyCanaryWindowMinutes => cfg.policyCanaryWindowMinutes
    | .policyCanaryRequiredHealthWindows => cfg.policyCanaryRequiredHealthWindows
    | .policyCanaryMinProviderWorkers => cfg.policyCanaryMinProviderWorkers
    | .uiOverviewLiveIntervalSecond => 5
    | .uiWorkersRefreshSecond => 10
    | .uiPoolsRefreshSecond => 10
    | .uiAlertsRefreshSecond => 30
  rate
    | .alertErrorRateThreshold => cfg.alertErrorRateThreshold
    | .quarantineErrorRateThreshold => cfg.quarantineErrorRate
    | .providerTempfailWarnRate => cfg.providerTempfailWarnRate
    | .providerTempfailCriticalRate => cfg.providerTempfailCriticalRate
    | .providerRejectWarnRate => cfg.providerRejectWarnRate
    | .providerRejectCriticalRate => cfg.providerRejectCriticalRate
    | .providerUnknownWarnRate => cfg.providerUnknownWarnRate
    | .providerUnknownCriticalRate => cfg.providerUnknownCriticalRate
    | .policyCanaryUnknownRegressionThreshold => cfg.policyCanaryUnknownRegressionThreshold
    | .policyCanaryTempfailRecoveryDropThreshold => cfg.policyCanaryTempfailRecoveryDropThreshold
    | .policyCanaryPolicyBlockSpikeThreshold => cfg.policyCanaryPolicyBlockSpikeThreshold

theorem secondsOr_pos {fallback : Int64} (h : 0 < fallback) (d : Int64) :
    0 < secondsOr fallback d := by
  rw [secondsOr]
  by_cases hle : d / 1000000000 ≤ 0
  · rw [if_pos hle]
    exact h
  · rw [if_neg hle]
    exact Int64.not_le.mp hle

/-! ## What is in range -/

/-- The warning and the critical rate of a provider's outcomes. -/
def Rate.pairs : List (Rate × Rate) :=
  [(.providerTempfailWarnRate, .providerTempfailCriticalRate),
    (.providerRejectWarnRate, .providerRejectCriticalRate),
    (.providerUnknownWarnRate, .providerUnknownCriticalRate)]

theorem Rate.reads_warn : ∀ {pair : Rate × Rate}, pair ∈ Rate.pairs → pair.1.reads = [pair.1] := by
  simp [Rate.pairs, Rate.reads]

/-- The intervals whose default is never out of range. -/
def Count.intervals : List Count :=
  [.alertHeartbeatGraceSecond, .alertCooldownSecond, .alertCheckIntervalSecond,
    .staleWorkerTTLSecond, .stuckDesiredGraceSecond, .autoscaleIntervalSecond,
    .autoscaleCooldownSecond, .uiOverviewLiveIntervalSecond, .uiWorkersRefreshSecond,
    .uiPoolsRefreshSecond, .uiAlertsRefreshSecond]

/-- The window of the policy canary, and how many of them are to be healthy. -/
def Count.windows : List Count := [.policyCanaryWindowMinutes, .policyCanaryRequiredHealthWindows]

structure InRange {F : Type} [LE F] (settings : RuntimeSettings F) : Prop where
  rates : ∀ pair ∈ Rate.pairs, settings.rate pair.1 ≤ settings.rate pair.2
  desired : settings.count .autoscaleMinDesired ≤ settings.count .autoscaleMaxDesired
  canary : 1 ≤ settings.count .autoscaleCanaryPercent ∧
    settings.count .autoscaleCanaryPercent ≤ 100
  positive : ∀ c ∈ Count.intervals ++ Count.windows, 0 < settings.count c

section

variable {F : Type} [Floats F] [Preorder F] [DecidableLT F] (settings defaults : RuntimeSettings F)

/-! ## A second pass -/

/-- A value that is not wanted is replaced once. -/
theorem ite_ite_default {α : Type} {p : α → Prop} [DecidablePred p] (d x : α) :
    (if p (if p x then d else x) then d else if p x then d else x) = if p x then d else x := by
  by_cases hx : p x
  · simp [hx]
  · simp [hx]

omit [Floats F] in
/-- The critical rate, raised to the warning rate, is not raised again. -/
theorem ite_raise {zero warn critical dw dc : F} :
    let w := if warn < zero then dw else warn
    let c := if critical < zero then dc else critical
    let raised := if c < w then w else c
    (if (if raised < zero then dc else raised) < w then w
      else if raised < zero then dc else raised) = raised := by
  intro w c raised
  by_cases hraise : c < w
  · have hw : raised = w := if_pos hraise
    rw [hw]
    by_cases hzero : w < zero
    · have hc : c = dc := by
        by_cases hcritical : critical < zero
        · exact if_pos hcritical
        · have heq : c = critical := if_neg hcritical
          exact absurd (heq ▸ hraise.trans hzero) hcritical
      rw [if_pos hzero, if_pos (hc ▸ hraise)]
    · rw [if_neg hzero, if_neg (lt_irrefl w)]
  · have hc : raised = c := if_neg hraise
    rw [hc]
    by_cases hzero : c < zero
    · have heq : c = dc := by
        by_cases hcritical : critical < zero
        · exact if_pos hcritical
        · have heq : c = critical := if_neg hcritical
          exact absurd (heq ▸ hzero) hcritical
      rw [if_pos hzero, ← heq, if_neg hraise]
    · rw [if_neg hzero, if_neg hraise]

/-- The percentage, before it is cut down to a hundred. -/
def canaryOrDefault (defaults settings : RuntimeSettings F) : Int64 :=
  if settings.count .autoscaleCanaryPercent ≤ 0 then
    if defaults.count .autoscaleCanaryPercent ≤ 0 then 100
    else defaults.count .autoscaleCanaryPercent
  else settings.count .autoscaleCanaryPercent

theorem normalize_canaryPercent (a : RuntimeSettings F) :
    (normalizeRuntimeSettings a defaults).count .autoscaleCanaryPercent =
      if 100 < canaryOrDefault defaults a then 100 else canaryOrDefault defaults a := rfl

omit [Floats F] [Preorder F] [DecidableLT F] in
theorem canaryOrDefault_pos : 0 < canaryOrDefault defaults settings := by
  rw [canaryOrDefault]
  by_cases hle : settings.count .autoscaleCanaryPercent ≤ 0
  · rw [if_pos hle]
    by_cases hdefault : defaults.count .autoscaleCanaryPercent ≤ 0
    · rw [if_pos hdefault]
      decide
    · rw [if_neg hdefault]
      exact Int64.not_le.mp hdefault
  · rw [if_neg hle]
    exact Int64.not_le.mp hle

/-- The percentage is brought into its range, whatever its default is. -/
theorem normalize_canary : 1 ≤ (normalizeRuntimeSettings settings defaults).count
      .autoscaleCanaryPercent ∧
    (normalizeRuntimeSettings settings defaults).count .autoscaleCanaryPercent ≤ 100 := by
  have hpos := canaryOrDefault_pos settings defaults
  rw [normalize_canaryPercent]
  by_cases hlt : 100 < canaryOrDefault defaults settings
  · rw [if_pos hlt]
    decide
  · rw [if_neg hlt]
    have hone : (1 : Int64).toInt = 1 := by decide
    have hzero : (0 : Int64).toInt = 0 := by decide
    rw [Int64.lt_iff_toInt_lt, hzero] at hpos
    refine ⟨?_, Int64.not_lt.mp hlt⟩
    rw [Int64.le_iff_toInt_le, hone]
    omega

theorem normalize_canary_again :
    (normalizeRuntimeSettings (normalizeRuntimeSettings settings defaults) defaults).count
        .autoscaleCanaryPercent =
      (normalizeRuntimeSettings settings defaults).count .autoscaleCanaryPercent := by
  obtain ⟨hone, hhundred⟩ := normalize_canary settings defaults
  have hpos : ¬ (normalizeRuntimeSettings settings defaults).count .autoscaleCanaryPercent ≤ 0 := by
    intro hle
    exact absurd (Int64.le_trans hone hle) (by decide)
  rw [normalize_canaryPercent, canaryOrDefault, if_neg hpos, if_neg (Int64.not_lt.mpr hhundred)]

theorem normalize_minDesired (a : RuntimeSettings F) :
    (normalizeRuntimeSettings a defaults).count .autoscaleMinDesired =
      if a.count .autoscaleMinDesired < 0 then defaults.count .autoscaleMinDesired
      else a.count .autoscaleMinDesired := rfl

theorem normalize_minDesired_again :
    (normalizeRuntimeSettings (normalizeRuntimeSettings settings defaults) defaults).count
        .autoscaleMinDesired =
      (normalizeRuntimeSettings settings defaults).count .autoscaleMinDesired := by
  rw [normalize_minDesired, normalize_minDesired]
  exact ite_ite_default (p := (· < 0)) ..

theorem normalize_maxDesired (a : RuntimeSettings F) :
    (normalizeRuntimeSettings a defaults).count .autoscaleMaxDesired =
      if a.count .autoscaleMaxDesired <
          (normalizeRuntimeSettings a defaults).count .autoscaleMinDesired then
        (normalizeRuntimeSettings a defaults).count .autoscaleMinDesired
      else a.count .autoscaleMaxDesired := rfl

theorem normalize_maxDesired_again :
    (normalizeRuntimeSettings (normalizeRuntimeSettings settings defaults) defaults).count
        .autoscaleMaxDesired =
      (normalizeRuntimeSettings settings defaults).count .autoscaleMaxDesired := by
  rw [normalize_maxDesired, normalize_minDesired_again, normalize_maxDesired]
  exact ite_ite_default
    (p := (· < (normalizeRuntimeSettings settings defaults).count .autoscaleMinDesired)) ..

/-- The counts that are only made positive. -/
def Count.repaired : List Count :=
  Count.intervals ++ Count.windows ++ [.policyCanaryMinProviderWorkers]

theorem normalize_positive {c : Count} (hc : c ∈ Count.repaired) (a : RuntimeSettings F) :
    (normalizeRuntimeSettings a defaults).count c =
      if a.count c ≤ 0 then defaults.count c else a.count c := by
  cases c <;> first
    | rfl
    | exact absurd hc (by decide)

theorem normalize_positive_again {c : Count} (hc : c ∈ Count.repaired) :
    (normalizeRuntimeSettings (normalizeRuntimeSettings settings defaults) defaults).count c =
      (normalizeRuntimeSettings settings defaults).count c := by
  rw [normalize_positive defaults hc, normalize_positive defaults hc]
  exact ite_ite_default (p := (· ≤ 0)) ..

theorem normalize_nonneg {r : Rate} (hr : r.reads = [r]) (a : RuntimeSettings F) :
    (normalizeRuntimeSettings a defaults).rate r =
      if a.rate r < Floats.zero then defaults.rate r else a.rate r := by
  cases r <;> first
    | rfl
    | exact absurd hr (by decide)

theorem normalize_nonneg_again {r : Rate} (hr : r.reads = [r]) :
    (normalizeRuntimeSettings (normalizeRuntimeSettings settings defaults) defaults).rate r =
      (normalizeRuntimeSettings settings defaults).rate r := by
  rw [normalize_nonneg defaults hr, normalize_nonneg defaults hr]
  exact ite_ite_default (p := (· < Floats.zero)) ..

theorem normalize_critical_again {pair : Rate × Rate} (hpair : pair ∈ Rate.pairs) :
    (normalizeRuntimeSettings (normalizeRuntimeSettings settings defaults) defaults).rate pair.2 =
      (normalizeRuntimeSettings settings defaults).rate pair.2 := by
  have hwarn : (normalizeRuntimeSettings (normalizeRuntimeSettings settings defaults)
      defaults).rate pair.1 = (normalizeRuntimeSettings settings defaults).rate pair.1 :=
    normalize_nonneg_again settings defaults (Rate.reads_warn hpair)
  rw [normalize_critical hpair, hwarn, normalize_critical hpair,
    normalize_nonneg defaults (Rate.reads_warn hpair)]
  exact ite_raise

theorem normalize_count_again (c : Count) :
    (normalizeRuntimeSettings (normalizeRuntimeSettings settings defaults) defaults).count c =
      (normalizeRuntimeSettings settings defaults).count c := by
  cases c with
  | autoscaleMinDesired => exact normalize_minDesired_again settings defaults
  | autoscaleMaxDesired => exact normalize_maxDesired_again settings defaults
  | autoscaleCanaryPercent => exact normalize_canary_again settings defaults
  | _ => exact normalize_positive_again settings defaults (by decide)

theorem normalize_rate_again (r : Rate) :
    (normalizeRuntimeSettings (normalizeRuntimeSettings settings defaults) defaults).rate r =
      (normalizeRuntimeSettings settings defaults).rate r := by
  cases r with
  | providerTempfailCriticalRate => exact normalize_critical_again settings defaults (.head _)
  | providerRejectCriticalRate =>
    exact normalize_critical_again settings defaults (.tail _ (.head _))
  | providerUnknownCriticalRate =>
    exact normalize_critical_again settings defaults (.tail _ (.tail _ (.head _)))
  | _ => exact normalize_nonneg_again settings defaults rfl

omit [Floats F] [Preorder F] [DecidableLT F] in
theorem eq_of_fields {a b : RuntimeSettings F} (hflag : a.flag = b.flag)
    (hcount : a.count = b.count) (hrate : a.rate = b.rate) : a = b := by
  cases a
  cases b
  cases hflag
  cases hcount
  cases hrate
  rfl

theorem normalize_normalize :
    normalizeRuntimeSettings (normalizeRuntimeSettings settings defaults) defaults =
      normalizeRuntimeSettings settings defaults := by
  have hcount := funext (normalize_count_again settings defaults)
  have hrate := funext (normalize_rate_again settings defaults)
  exact eq_of_fields rfl hcount hrate

/-! ## What comes out in range -/

theorem normalize_rates (htotal : ∀ x y : F, x ≤ y ∨ y ≤ x) {pair : Rate × Rate}
    (hpair : pair ∈ Rate.pairs) : (normalizeRuntimeSettings settings defaults).rate pair.1 ≤
      (normalizeRuntimeSettings settings defaults).rate pair.2 := by
  rw [normalize_critical hpair]
  generalize (normalizeRuntimeSettings settings defaults).rate pair.1 = warn
  generalize (if settings.rate pair.2 < Floats.zero then defaults.rate pair.2
    else settings.rate pair.2) = critical
  by_cases hlt : critical < warn
  · rw [if_pos hlt]
  · rw [if_neg hlt]
    exact (htotal warn critical).elim id fun hge => not_lt_iff_le_imp_ge.mp hlt hge

/-- A count that must be positive is so if it was, or if its default is. -/
theorem normalize_positive_iff {c : Count} (hc : c ∈ Count.intervals ++ Count.windows) :
    0 < (normalizeRuntimeSettings settings defaults).count c ↔
      0 < settings.count c ∨ 0 < defaults.count c := by
  rw [normalize_positive defaults (List.mem_append_left _ hc)]
  by_cases hle : settings.count c ≤ 0
  · rw [if_pos hle]
    exact ⟨.inr, fun h => h.resolve_left (Int64.not_lt.mpr hle)⟩
  · rw [if_neg hle]
    exact ⟨.inl, fun _ => Int64.not_le.mp hle⟩

omit [Floats F] [Preorder F] [DecidableLT F] in
theorem default_interval_pos {cfg : Config F} {c : Count} (hc : c ∈ Count.intervals) :
    0 < (defaultRuntimeSettings cfg).count c := by
  simp only [Count.intervals, List.mem_cons, List.not_mem_nil, or_false] at hc
  rcases hc with rfl | rfl | rfl | rfl | rfl | rfl | rfl | rfl | rfl | rfl | rfl
  · exact @secondsOr_pos 120 (by decide) _
  · exact @secondsOr_pos 300 (by decide) _
  · exact @secondsOr_pos 30 (by decide) _
  · exact @secondsOr_pos 86400 (by decide) _
  · exact @secondsOr_pos 600 (by decide) _
  · exact @secondsOr_pos 30 (by decide) _
  · exact @secondsOr_pos 120 (by decide) _
  · exact of_decide_eq_true rfl
  · exact of_decide_eq_true rfl
  · exact of_decide_eq_true rfl
  · exact of_decide_eq_true rfl

end

/-- A configuration that nothing was written to. -/
def Config.zero : Config Number :=
  ⟨false, false, false, false, false, Floats.zero, 0, 0, 0, 0, 0, false, 0, 0, 0, 0, 0,
    Floats.zero, Floats.zero, Floats.zero, Floats.zero, Floats.zero, Floats.zero, Floats.zero,
    false, 0, 0, Floats.zero, Floats.zero, Floats.zero, 0⟩

end ValidEmailVerifier.StoredSettings
