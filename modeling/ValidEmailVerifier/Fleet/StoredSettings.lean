/-
# `Fleet.StoredSettings` — the settings a control plane finds stored by another version

The settings are stored as one object of JSON, written by whatever version saved them last.
`getRuntimeSettings` decodes it into a struct, where a key that is left out is the zero value,
and puts the configured default back for the keys of a list written by hand.  What is out of
range is then put right by `normalizeRuntimeSettings`.

Five settings are not on the list, and zero is in range for them: they have their defaults
exactly where these are the zero value (`getRuntimeSettings_eq_iff`, `backward_iff`).

A setting is known by its name, and has a value of the type of its kind; so what is said of one
is said of all.
-/
import Mathlib.Algebra.Order.Field.Rat
import Mathlib.Data.Rat.Cast.Order
import ValidEmailVerifier.Lib.GoJson

/-- The value of a decimal. -/
def Number.toRat (n : Number) : ℚ :=
  let digits : ℚ := if n.negative then -(n.digits : ℚ) else n.digits
  match n.exponent with
  | none => digits
  | some (.ofNat e) => digits * ((10 ^ e : Nat) : ℚ)
  | some (.negSucc e) => digits / ((10 ^ (e + 1) : Nat) : ℚ)

/-- Decimals are compared by their values. -/
instance : Preorder Number := Preorder.lift Number.toRat

instance : DecidableLT Number := fun a b => inferInstanceAs (Decidable (a.toRat < b.toRat))

namespace ValidEmailVerifier.StoredSettings

open GoJson

/-! ## The settings -/

inductive Flag where
  | alertsEnabled
  | autoActionsEnabled
  | providerPolicyEngineEnabled
  | adaptiveRetryEnabled
  | providerAutoprotectEnabled
  | autoscaleEnabled
  | policyCanaryAutopilotEnabled
  deriving DecidableEq

inductive Count where
  | alertHeartbeatGraceSecond
  | alertCooldownSecond
  | alertCheckIntervalSecond
  | staleWorkerTTLSecond
  | stuckDesiredGraceSecond
  | autoscaleIntervalSecond
  | autoscaleCooldownSecond
  | autoscaleMinDesired
  | autoscaleMaxDesired
  | autoscaleCanaryPercent
  | policyCanaryWindowMinutes
  | policyCanaryRequiredHealthWindows
  | policyCanaryMinProviderWorkers
  | uiOverviewLiveIntervalSecond
  | uiWorkersRefreshSecond
  | uiPoolsRefreshSecond
  | uiAlertsRefreshSecond
  deriving DecidableEq

inductive Rate where
  | alertErrorRateThreshold
  | quarantineErrorRateThreshold
  | providerTempfailWarnRate
  | providerTempfailCriticalRate
  | providerRejectWarnRate
  | providerRejectCriticalRate
  | providerUnknownWarnRate
  | providerUnknownCriticalRate
  | policyCanaryUnknownRegressionThreshold
  | policyCanaryTempfailRecoveryDropThreshold
  | policyCanaryPolicyBlockSpikeThreshold
  deriving DecidableEq

/-- A field of the struct. -/
inductive Setting where
  | flag (f : Flag)
  | count (c : Count)
  | rate (r : Rate)
  deriving DecidableEq

def Flag.key : Flag → List Char
  | .alertsEnabled => "alerts_enabled".toList
  | .autoActionsEnabled => "auto_actions_enabled".toList
  | .providerPolicyEngineEnabled => "provider_policy_engine_enabled".toList
  | .adaptiveRetryEnabled => "adaptive_retry_enabled".toList
  | .providerAutoprotectEnabled => "provider_autoprotect_enabled".toList
  | .autoscaleEnabled => "autoscale_enabled".toList
  | .policyCanaryAutopilotEnabled => "policy_canary_autopilot_enabled".toList

def Count.key : Count → List Char
  | .alertHeartbeatGraceSecond => "alert_heartbeat_grace_seconds".toList
  | .alertCooldownSecond => "alert_cooldown_seconds".toList
  | .alertCheckIntervalSecond => "alert_check_interval_seconds".toList
  | .staleWorkerTTLSecond => "stale_worker_ttl_seconds".toList
  | .stuckDesiredGraceSecond => "stuck_desired_grace_seconds".toList
  | .autoscaleIntervalSecond => "autoscale_interval_seconds".toList
  | .autoscaleCooldownSecond => "autoscale_cooldown_seconds".toList
  | .autoscaleMinDesired => "autoscale_min_desired".toList
  | .autoscaleMaxDesired => "autoscale_max_desired".toList
  | .autoscaleCanaryPercent => "autoscale_canary_percent".toList
  | .policyCanaryWindowMinutes => "policy_canary_window_minutes".toList
  | .policyCanaryRequiredHealthWindows => "policy_canary_required_health_windows".toList
  | .policyCanaryMinProviderWorkers => "policy_canary_min_provider_workers".toList
  | .uiOverviewLiveIntervalSecond => "ui_overview_live_interval_seconds".toList
  | .uiWorkersRefreshSecond => "ui_workers_refresh_seconds".toList
  | .uiPoolsRefreshSecond => "ui_pools_refresh_seconds".toList
  | .uiAlertsRefreshSecond => "ui_alerts_refresh_seconds".toList

def Rate.key : Rate → List Char
  | .alertErrorRateThreshold => "alert_error_rate_threshold".toList
  | .quarantineErrorRateThreshold => "quarantine_error_rate_threshold".toList
  | .providerTempfailWarnRate => "provider_tempfail_warn_rate".toList
  | .providerTempfailCriticalRate => "provider_tempfail_critical_rate".toList
  | .providerRejectWarnRate => "provider_reject_warn_rate".toList
  | .providerRejectCriticalRate => "provider_reject_critical_rate".toList
  | .providerUnknownWarnRate => "provider_unknown_warn_rate".toList
  | .providerUnknownCriticalRate => "provider_unknown_critical_rate".toList
  | .policyCanaryUnknownRegressionThreshold =>
      "policy_canary_unknown_regression_threshold".toList
  | .policyCanaryTempfailRecoveryDropThreshold =>
      "policy_canary_tempfail_recovery_drop_threshold".toList
  | .policyCanaryPolicyBlockSpikeThreshold =>
      "policy_canary_policy_block_spike_threshold".toList

/-- The name of the field in JSON. -/
def Setting.key : Setting → List Char
  | .flag f => f.key
  | .count c => c.key
  | .rate r => r.key

def Flag.all : List Flag :=
  [.alertsEnabled, .autoActionsEnabled, .providerPolicyEngineEnabled, .adaptiveRetryEnabled,
    .providerAutoprotectEnabled, .autoscaleEnabled, .policyCanaryAutopilotEnabled]

def Count.all : List Count :=
  [.alertHeartbeatGraceSecond, .alertCooldownSecond, .alertCheckIntervalSecond,
    .staleWorkerTTLSecond, .stuckDesiredGraceSecond, .autoscaleIntervalSecond,
    .autoscaleCooldownSecond, .autoscaleMinDesired, .autoscaleMaxDesired,
    .autoscaleCanaryPercent, .policyCanaryWindowMinutes, .policyCanaryRequiredHealthWindows,
    .policyCanaryMinProviderWorkers, .uiOverviewLiveIntervalSecond, .uiWorkersRefreshSecond,
    .uiPoolsRefreshSecond, .uiAlertsRefreshSecond]

def Rate.all : List Rate :=
  [.alertErrorRateThreshold, .quarantineErrorRateThreshold, .providerTempfailWarnRate,
    .providerTempfailCriticalRate, .providerRejectWarnRate, .providerRejectCriticalRate,
    .providerUnknownWarnRate, .providerUnknownCriticalRate,
    .policyCanaryUnknownRegressionThreshold, .policyCanaryTempfailRecoveryDropThreshold,
    .policyCanaryPolicyBlockSpikeThreshold]

def Setting.all : List Setting :=
  Flag.all.map .flag ++ Count.all.map .count ++ Rate.all.map .rate

theorem Setting.mem_all (s : Setting) : s ∈ Setting.all := by
  cases s with
  | flag f => cases f <;> decide
  | count c => cases c <;> decide
  | rate r => cases r <;> decide

/-- No two settings have one name, not even up to case. -/
theorem Setting.nodup_keys : (Setting.all.map fun s => foldName s.key).Nodup := by
  decide +kernel

theorem Setting.nodup_all : Setting.all.Nodup := Setting.nodup_keys.of_map _

theorem Setting.eq_of_foldName {s t : Setting} (h : foldName s.key = foldName t.key) : s = t :=
  List.inj_on_of_nodup_map Setting.nodup_keys s.mem_all t.mem_all h

structure RuntimeSettings (F : Type) where
  flag : Flag → Bool
  count : Count → Int64
  rate : Rate → F

/-- The type of a setting's values. -/
def Setting.Value (F : Type) : Setting → Type
  | .flag _ => Bool
  | .count _ => Int64
  | .rate _ => F

namespace RuntimeSettings

variable {F : Type}

def get (r : RuntimeSettings F) : (s : Setting) → s.Value F
  | .flag f => r.flag f
  | .count c => r.count c
  | .rate x => r.rate x

def set (s : Setting) (v : s.Value F) (r : RuntimeSettings F) : RuntimeSettings F :=
  match s, v with
  | .flag f, v => { r with flag := Function.update r.flag f v }
  | .count c, v => { r with count := Function.update r.count c v }
  | .rate x, v => { r with rate := Function.update r.rate x v }

/-- The settings with given values. -/
def ofValues (v : (s : Setting) → s.Value F) : RuntimeSettings F where
  flag f := v (.flag f)
  count c := v (.count c)
  rate x := v (.rate x)

theorem get_flag (r : RuntimeSettings F) (f : Flag) : r.get (.flag f) = r.flag f := rfl

theorem get_ofValues (v : (s : Setting) → s.Value F) (s : Setting) : (ofValues v).get s = v s := by
  cases s <;> rfl

theorem ext_get {a b : RuntimeSettings F} (h : ∀ s, a.get s = b.get s) : a = b := by
  obtain ⟨flag, count, rate⟩ := a
  obtain ⟨flag', count', rate'⟩ := b
  obtain rfl : flag = flag' := funext fun f => h (.flag f)
  obtain rfl : count = count' := funext fun c => h (.count c)
  obtain rfl : rate = rate' := funext fun x => h (.rate x)
  rfl

theorem get_set_self (s : Setting) (v : s.Value F) (r : RuntimeSettings F) :
    (r.set s v).get s = v := by
  cases s <;> exact Function.update_self ..

theorem get_set_of_ne {s t : Setting} (h : t ≠ s) (v : s.Value F) (r : RuntimeSettings F) :
    (r.set s v).get t = r.get t := by
  cases s <;> cases t <;> first
    | rfl
    | exact Function.update_of_ne (fun heq => h (congrArg _ heq)) ..

end RuntimeSettings

/-! ## Their JSON -/

section

variable (F : Type) [Floats F]

def Setting.codec : (s : Setting) → Codec (s.Value F)
  | .flag _ => .bool
  | .count _ => .int
  | .rate _ => Codec.float (F := F)

/-- The zero value. -/
def Setting.zero (s : Setting) : s.Value F := (s.codec F).zero

def RuntimeSettings.zero : RuntimeSettings F := .ofValues (Setting.zero F)

def Setting.field (s : Setting) : GoJson.Field (RuntimeSettings F) :=
  .always s.key (s.codec F) (·.get s) (RuntimeSettings.set s)

/-- Copying some of the fields of another value gives what that value has there. -/
theorem get_foldl_copy (b : RuntimeSettings F) (ss : List Setting) (r : RuntimeSettings F)
    (t : Setting) : ((ss.map (Setting.field F)).foldl (fun r f => f.copy b r) r).get t =
      if t ∈ ss then b.get t else r.get t := by
  induction ss generalizing r with
  | nil => rfl
  | cons s ss ih =>
    rw [List.map_cons, List.foldl_cons, ih]
    show (if t ∈ ss then b.get t else (r.set s (b.get s)).get t) = _
    by_cases hmem : t ∈ ss
    · rw [if_pos hmem, if_pos (.tail _ hmem)]
    · rw [if_neg hmem]
      by_cases heq : t = s
      · subst heq
        rw [RuntimeSettings.get_set_self, if_pos (.head _)]
      · have hnot : t ∉ s :: ss := fun h => (List.mem_cons.mp h).elim heq hmem
        rw [RuntimeSettings.get_set_of_ne heq, if_neg hnot]

def settingsLayout : Layout (RuntimeSettings F) where
  zero := .zero F
  fields := Setting.all.map (Setting.field F)
  nodup := by
    rw [List.map_map]
    exact Setting.nodup_keys
  fresh := by
    intro f hf
    obtain ⟨s, -, rfl⟩ := List.mem_map.mp hf
    exact RuntimeSettings.get_ofValues ..
  apart := by
    refine List.pairwise_map.mpr (Setting.nodup_all.imp ?_)
    intro s t hne b r hfresh
    exact (RuntimeSettings.get_set_of_ne hne.symm _ r).trans hfresh
  total b := by
    refine RuntimeSettings.ext_get fun s => ?_
    rw [get_foldl_copy, if_pos s.mem_all]

end

/-! ## Reading them -/

section

variable {F : Type} [Floats F]

/-- The settings whose keys are looked for in what is stored. -/
def Setting.backfilled : List Setting :=
  [.flag .providerPolicyEngineEnabled, .flag .adaptiveRetryEnabled,
    .flag .providerAutoprotectEnabled, .flag .policyCanaryAutopilotEnabled,
    .count .alertCheckIntervalSecond, .count .staleWorkerTTLSecond,
    .count .stuckDesiredGraceSecond, .count .autoscaleIntervalSecond,
    .count .autoscaleCooldownSecond, .count .autoscaleMinDesired, .count .autoscaleMaxDesired,
    .rate .providerTempfailWarnRate, .rate .providerTempfailCriticalRate,
    .rate .providerRejectWarnRate, .rate .providerRejectCriticalRate,
    .rate .providerUnknownWarnRate, .rate .providerUnknownCriticalRate,
    .count .policyCanaryWindowMinutes, .count .policyCanaryRequiredHealthWindows,
    .rate .policyCanaryUnknownRegressionThreshold,
    .rate .policyCanaryTempfailRecoveryDropThreshold,
    .rate .policyCanaryPolicyBlockSpikeThreshold, .count .policyCanaryMinProviderWorkers]

/-- The keys of what is stored, decoded into a map. -/
def rawKeys : Json → List (List Char)
  | .obj object => object.map Prod.fst
  | _ => []

/-- A setting whose key is missing gets its default. -/
def backfill (defaults : RuntimeSettings F) (raw : List (List Char))
    (settings : RuntimeSettings F) (s : Setting) : RuntimeSettings F :=
  if s.key ∈ raw then settings else settings.set s (defaults.get s)

variable [Preorder F] [DecidableLT F]

def normalizeRuntimeSettings (settings defaults : RuntimeSettings F) : RuntimeSettings F :=
  let positive (c : Count) : Int64 :=
    if settings.count c ≤ 0 then defaults.count c else settings.count c
  let nonnegative (r : Rate) : F :=
    if settings.rate r < Floats.zero then defaults.rate r else settings.rate r
  let minDesired : Int64 :=
    if settings.count .autoscaleMinDesired < 0 then defaults.count .autoscaleMinDesired
    else settings.count .autoscaleMinDesired
  let defaultCanary : Int64 :=
    if defaults.count .autoscaleCanaryPercent ≤ 0 then 100
    else defaults.count .autoscaleCanaryPercent
  let canary : Int64 :=
    if settings.count .autoscaleCanaryPercent ≤ 0 then defaultCanary
    else settings.count .autoscaleCanaryPercent
  let critical (warn critical : Rate) : F :=
    if nonnegative critical < nonnegative warn then nonnegative warn else nonnegative critical
  { flag := settings.flag
    count := fun
      | .autoscaleMinDesired => minDesired
      | .autoscaleMaxDesired =>
          if settings.count .autoscaleMaxDesired < minDesired then minDesired
          else settings.count .autoscaleMaxDesired
      | .autoscaleCanaryPercent => if 100 < canary then 100 else canary
      | c => positive c
    rate := fun
      | .providerTempfailCriticalRate =>
          critical .providerTempfailWarnRate .providerTempfailCriticalRate
      | .providerRejectCriticalRate =>
          critical .providerRejectWarnRate .providerRejectCriticalRate
      | .providerUnknownCriticalRate =>
          critical .providerUnknownWarnRate .providerUnknownCriticalRate
      | r => nonnegative r }

/-- The settings, and whether they could be read.  Nothing is stored before they are saved for
the first time. -/
def getRuntimeSettings (stored : Option Json) (defaults : RuntimeSettings F) :
    RuntimeSettings F × Bool :=
  match stored with
  | none => (defaults, true)
  | some value =>
      match (settingsLayout F).codec.decode (.zero F) value with
      | none => (defaults, false)
      | some settings =>
          (normalizeRuntimeSettings
            (Setting.backfilled.foldl (backfill defaults (rawKeys value)) settings) defaults, true)

/-! ## What is to be read -/

/-- An object that some version has written: each key once, and the settings it has under
their own names, with values of their types. -/
structure Stored (F : Type) [Floats F] (object : List (List Char × Json)) : Prop where
  nodup : (object.map Prod.fst).Nodup
  named : ∀ s : Setting, NoVariant s.key object
  typed : ∀ (s : Setting) j, Json.last s.key object = some j → j ≠ .null ∧ (s.codec F).Fits j

/-- The defaults, under what is stored. -/
def overlay (defaults : RuntimeSettings F) (object : List (List Char × Json)) :
    RuntimeSettings F :=
  .ofValues fun s =>
    match Json.last s.key object with
    | none => defaults.get s
    | some j => ((s.codec F).decode (s.zero F) j).getD (defaults.get s)

/-- Each setting is what was stored, put right; and its default, if it was left out. -/
def Backward (defaults : RuntimeSettings F) (object : List (List Char × Json)) : Prop :=
  ∀ s : Setting, (getRuntimeSettings (some (.obj object)) defaults).1.get s =
    if s.key ∈ object.map Prod.fst then
      (normalizeRuntimeSettings (overlay defaults object) defaults).get s
    else defaults.get s

/-- The settings that are not looked for, and for which zero is in range. -/
def Setting.unlisted : List Setting :=
  [.flag .alertsEnabled, .flag .autoActionsEnabled, .flag .autoscaleEnabled,
    .rate .alertErrorRateThreshold, .rate .quarantineErrorRateThreshold]

/-- Each of these is stored, or zero by default. -/
def KeepsUnlisted (defaults : RuntimeSettings F) (object : List (List Char × Json)) : Prop :=
  ∀ s ∈ Setting.unlisted, s.key ∈ object.map Prod.fst ∨ defaults.get s = s.zero F

/-- No default that stands for a setting left out is out of range beside what is stored. -/
structure DefaultsFit (defaults : RuntimeSettings F) (object : List (List Char × Json)) : Prop
    where
  maxDesired : Count.key .autoscaleMaxDesired ∉ object.map Prod.fst →
    (normalizeRuntimeSettings (overlay defaults object) defaults).count .autoscaleMinDesired ≤
      defaults.count .autoscaleMaxDesired
  canary : Count.key .autoscaleCanaryPercent ∉ object.map Prod.fst →
    0 < defaults.count .autoscaleCanaryPercent ∧ defaults.count .autoscaleCanaryPercent ≤ 100
  critical : ∀ pair ∈ [(Rate.providerTempfailWarnRate, Rate.providerTempfailCriticalRate),
      (.providerRejectWarnRate, .providerRejectCriticalRate),
      (.providerUnknownWarnRate, .providerUnknownCriticalRate)],
    pair.2.key ∉ object.map Prod.fst → ¬ defaults.rate pair.2 <
      (normalizeRuntimeSettings (overlay defaults object) defaults).rate pair.1

end

/-! ## What is decoded -/

section

variable {F : Type} [Floats F] {object : List (List Char × Json)}

/-- What the struct holds under a setting. -/
def decoded (F : Type) [Floats F] (object : List (List Char × Json)) (s : Setting) : s.Value F :=
  match Json.last s.key object with
  | none => s.zero F
  | some j => ((s.codec F).decode (s.zero F) j).getD (s.zero F)

theorem Stored.exists_decode (h : Stored F object) : ∃ settings : RuntimeSettings F,
    (settingsLayout F).codec.decode (.zero F) (.obj object) = some settings ∧
      ∀ s, settings.get s = decoded F object s := by
  have hsome : ((settingsLayout F).decodeFields object (.zero F)).isSome = true := by
    rw [Layout.isSome_decodeFields]
    intro e he f hf hname
    obtain ⟨s, -, rfl⟩ := List.mem_map.mp hf
    have hkey : e.1 = s.key := h.named s e he hname.symm
    have hlast : Json.last s.key object = some e.2 :=
      Json.last_of_mem h.nodup (by rw [← hkey]; exact he)
    exact (h.typed s e.2 hlast).2
  obtain ⟨settings, hsettings⟩ := Option.isSome_iff_exists.mp hsome
  refine ⟨settings, hsettings, fun s => ?_⟩
  have hfields : ∀ f ∈ (settingsLayout F).fields, ∃ t : Setting, f = t.field F := by
    intro f hf
    obtain ⟨t, -, rfl⟩ := List.mem_map.mp hf
    exact ⟨t, rfl⟩
  have hall : (s.codec F).decodeAll (values s.key object) (s.zero F) = some (settings.get s) := by
    rw [← RuntimeSettings.get_ofValues (Setting.zero F) s]
    refine @Layout.get_decodeFields _ _ (settingsLayout F) (fun r => r.get s) (s.codec F) s.key
      object (.zero F) settings ?_ ?_ ⟨s.field F, List.mem_map_of_mem s.mem_all, rfl⟩ hsettings
    · intro f hf hname r j r' hput
      obtain ⟨t, rfl⟩ := hfields f hf
      obtain rfl := Setting.eq_of_foldName hname
      obtain ⟨v, hv, rfl⟩ := Option.map_eq_some_iff.mp hput
      rw [RuntimeSettings.get_set_self]
      exact hv
    · intro f hf hname r j r' hput
      obtain ⟨t, rfl⟩ := hfields f hf
      obtain ⟨v, hv, rfl⟩ := Option.map_eq_some_iff.mp hput
      exact RuntimeSettings.get_set_of_ne (fun heq => hname (congrArg (foldName ·.key) heq.symm)) ..
  rw [values_of_nodup h.nodup (h.named s)] at hall
  rw [decoded]
  cases hlast : Json.last s.key object with
  | none =>
    rw [hlast] at hall
    exact (Option.some.inj hall).symm
  | some j =>
    rw [hlast] at hall
    obtain ⟨v, hv, hnil⟩ := Option.bind_eq_some_iff.mp hall
    rw [← Option.some.inj hnil]
    show v = ((s.codec F).decode (s.zero F) j).getD (s.zero F)
    rw [hv]
    rfl

omit [Floats F] in
theorem get_backfill (defaults : RuntimeSettings F) (raw : List (List Char))
    (settings : RuntimeSettings F) (s t : Setting) :
    (backfill defaults raw settings s).get t =
      if t = s ∧ t.key ∉ raw then defaults.get t else settings.get t := by
  rw [backfill]
  by_cases heq : t = s
  · subst heq
    by_cases hraw : t.key ∈ raw
    · rw [if_pos hraw, if_neg fun h => h.2 hraw]
    · rw [if_neg hraw, if_pos ⟨rfl, hraw⟩, RuntimeSettings.get_set_self]
  · have hnot : ¬ (t = s ∧ t.key ∉ raw) := fun h => heq h.1
    rw [if_neg hnot]
    split
    · rfl
    · exact RuntimeSettings.get_set_of_ne heq ..

omit [Floats F] in
theorem get_foldl_backfill (defaults : RuntimeSettings F) (raw : List (List Char))
    (ss : List Setting) (settings : RuntimeSettings F) (t : Setting) :
    (ss.foldl (backfill defaults raw) settings).get t =
      if t ∈ ss ∧ t.key ∉ raw then defaults.get t else settings.get t := by
  induction ss generalizing settings with
  | nil => simp
  | cons s ss ih =>
    rw [List.foldl_cons, ih, get_backfill]
    by_cases hraw : t.key ∈ raw
    · simp [hraw]
    · by_cases hmem : t ∈ ss
      · simp [hraw, hmem]
      · simp [hraw, hmem]

variable [Preorder F] [DecidableLT F] {defaults : RuntimeSettings F}

/-- What is put right is what was stored, the default of a listed setting, or zero. -/
theorem Stored.exists_read (h : Stored F object) (defaults : RuntimeSettings F) :
    ∃ settings : RuntimeSettings F,
      (getRuntimeSettings (some (.obj object)) defaults).1 =
        normalizeRuntimeSettings settings defaults ∧
      ∀ s, settings.get s =
        if s.key ∈ object.map Prod.fst ∨ s ∈ Setting.backfilled then
          (overlay defaults object).get s
        else s.zero F := by
  obtain ⟨settings, hdecode, hget⟩ := h.exists_decode
  refine ⟨Setting.backfilled.foldl (backfill defaults (object.map Prod.fst)) settings, ?_, ?_⟩
  · rw [getRuntimeSettings, hdecode]
    rfl
  · intro s
    rw [get_foldl_backfill, overlay, RuntimeSettings.get_ofValues, hget, decoded]
    cases hlast : Json.last s.key object with
    | none =>
      have hnot : s.key ∉ object.map Prod.fst := Json.last_eq_none_iff.mp hlast
      by_cases hlisted : s ∈ Setting.backfilled
      · rw [if_pos ⟨hlisted, hnot⟩, if_pos (.inr hlisted)]
      · rw [if_neg fun h => hlisted h.1, if_neg fun h => h.elim hnot hlisted]
    | some j =>
      have hmem : s.key ∈ object.map Prod.fst := List.mem_map_of_mem (Json.mem_of_last hlast)
      obtain ⟨v, hv⟩ := Option.isSome_iff_exists.mp
        (((s.codec F).isSome_decode (s.zero F) j).mpr (h.typed s j hlast).2)
      rw [if_neg fun h => h.2 hmem, if_pos (.inl hmem)]
      show ((s.codec F).decode (s.zero F) j).getD _ = ((s.codec F).decode (s.zero F) j).getD _
      rw [hv]
      rfl

end

/-! ## What is put right -/

/-- The counts that one is put right by. -/
def Count.reads : Count → List Count
  | .autoscaleMaxDesired => [.autoscaleMaxDesired, .autoscaleMinDesired]
  | c => [c]

def Rate.reads : Rate → List Rate
  | .providerTempfailCriticalRate => [.providerTempfailCriticalRate, .providerTempfailWarnRate]
  | .providerRejectCriticalRate => [.providerRejectCriticalRate, .providerRejectWarnRate]
  | .providerUnknownCriticalRate => [.providerUnknownCriticalRate, .providerUnknownWarnRate]
  | r => [r]

/-- What a setting is put right by, apart from itself, is looked for. -/
theorem Count.listed_of_reads : ∀ c ∈ Count.all, ∀ d ∈ c.reads,
    d = c ∨ .count d ∈ Setting.backfilled := by
  decide

theorem Rate.listed_of_reads : ∀ r ∈ Rate.all, ∀ x ∈ r.reads,
    x = r ∨ .rate x ∈ Setting.backfilled := by
  decide

/-- The counts that are not looked for. -/
def Count.rescued : List Count :=
  [.alertHeartbeatGraceSecond, .alertCooldownSecond, .autoscaleCanaryPercent,
    .uiOverviewLiveIntervalSecond, .uiWorkersRefreshSecond, .uiPoolsRefreshSecond,
    .uiAlertsRefreshSecond]

theorem Setting.known : ∀ s ∈ Setting.all, s ∈ Setting.backfilled ∨ s ∈ Setting.unlisted ∨
    ∃ c ∈ Count.rescued, s = .count c := by
  decide

section

variable {F : Type} [Floats F] [Preorder F] [DecidableLT F] {a b defaults : RuntimeSettings F}

theorem normalize_count_congr {c : Count} (h : ∀ d ∈ c.reads, a.count d = b.count d) :
    (normalizeRuntimeSettings a defaults).count c =
      (normalizeRuntimeSettings b defaults).count c := by
  cases c <;> simp [Count.reads] at h <;> simp [normalizeRuntimeSettings, h]

theorem normalize_rate_congr {r : Rate} (h : ∀ x ∈ r.reads, a.rate x = b.rate x) :
    (normalizeRuntimeSettings a defaults).rate r =
      (normalizeRuntimeSettings b defaults).rate r := by
  cases r <;> simp [Rate.reads] at h <;> simp [normalizeRuntimeSettings, h]

/-- Where zero is not in range, it is put right as the default is. -/
theorem normalize_rescued {c : Count} (hc : c ∈ Count.rescued) (ha : a.count c = 0)
    (hb : b.count c = defaults.count c) :
    (normalizeRuntimeSettings a defaults).count c =
      (normalizeRuntimeSettings b defaults).count c := by
  simp only [Count.rescued, List.mem_cons, List.not_mem_nil, or_false] at hc
  by_cases hle : defaults.count c ≤ 0 <;>
    rcases hc with rfl | rfl | rfl | rfl | rfl | rfl | rfl <;>
      simp [normalizeRuntimeSettings, ha, hb, hle]

theorem normalize_unlisted {s : Setting} (hs : s ∈ Setting.unlisted) :
    (a.get s = s.zero F → (normalizeRuntimeSettings a defaults).get s = s.zero F) ∧
      (a.get s = defaults.get s →
        (normalizeRuntimeSettings a defaults).get s = defaults.get s) := by
  have hrate : ∀ r : Rate, r.reads = [r] →
      (normalizeRuntimeSettings a defaults).rate r =
        if a.rate r < Floats.zero then defaults.rate r else a.rate r := by
    intro r hr
    cases r <;> first | rfl | exact absurd hr (by decide)
  have hplain : ∀ r : Rate, r.reads = [r] →
      (a.rate r = Floats.zero → (normalizeRuntimeSettings a defaults).rate r = Floats.zero) ∧
        (a.rate r = defaults.rate r →
          (normalizeRuntimeSettings a defaults).rate r = defaults.rate r) := by
    intro r hr
    rw [hrate r hr]
    constructor
    · intro hzero
      rw [hzero, if_neg (lt_irrefl _)]
    · intro hdefault
      rw [hdefault, ite_self]
  simp only [Setting.unlisted, List.mem_cons, List.not_mem_nil, or_false] at hs
  rcases hs with rfl | rfl | rfl | rfl | rfl
  · exact ⟨id, id⟩
  · exact ⟨id, id⟩
  · exact ⟨id, id⟩
  · exact hplain .alertErrorRateThreshold rfl
  · exact hplain .quarantineErrorRateThreshold rfl

variable {object : List (List Char × Json)}

omit [Preorder F] [DecidableLT F] in
theorem overlay_of_omitted {s : Setting} (h : s.key ∉ object.map Prod.fst) :
    (overlay defaults object).get s = defaults.get s := by
  rw [overlay, RuntimeSettings.get_ofValues, Json.last_eq_none_iff.mpr h]

variable (defaults) in
/-- What is read of a setting. -/
theorem Stored.get_getRuntimeSettings (h : Stored F object) (s : Setting) :
    (getRuntimeSettings (some (.obj object)) defaults).1.get s =
      if s ∈ Setting.unlisted ∧ s.key ∉ object.map Prod.fst then s.zero F
      else (normalizeRuntimeSettings (overlay defaults object) defaults).get s := by
  obtain ⟨settings, heq, hget⟩ := h.exists_read defaults
  rw [heq]
  have hread : ∀ t : Setting, t.key ∈ object.map Prod.fst ∨ t ∈ Setting.backfilled →
      settings.get t = (overlay defaults object).get t := fun t ht => by rw [hget, if_pos ht]
  by_cases hs : s.key ∈ object.map Prod.fst ∨ s ∈ Setting.backfilled
  · have hnot : ¬ (s ∈ Setting.unlisted ∧ s.key ∉ object.map Prod.fst) := by
      rintro ⟨hunlisted, hkey⟩
      have hapart : ∀ t ∈ Setting.unlisted, t ∉ Setting.backfilled := by decide
      exact hs.elim hkey (hapart s hunlisted)
    rw [if_neg hnot]
    cases s with
    | flag f => exact hread (.flag f) hs
    | count c =>
      refine normalize_count_congr fun d hd => hread (.count d) ?_
      rcases Count.listed_of_reads c (by cases c <;> decide) d hd with rfl | hlisted
      · exact hs
      · exact .inr hlisted
    | rate r =>
      have hrates : ∀ x ∈ r.reads, settings.rate x = (overlay defaults object).rate x := by
        intro x hx
        refine hread (.rate x) ?_
        rcases Rate.listed_of_reads r (by cases r <;> decide) x hx with rfl | hlisted
        · exact hs
        · exact .inr hlisted
      show (normalizeRuntimeSettings settings defaults).rate r =
        (normalizeRuntimeSettings (overlay defaults object) defaults).rate r
      exact normalize_rate_congr hrates
  · have hzero : settings.get s = s.zero F := by rw [hget, if_neg hs]
    obtain ⟨hkey, hlisted⟩ := not_or.mp hs
    have hdefault : (overlay defaults object).get s = defaults.get s := overlay_of_omitted hkey
    rcases Setting.known s s.mem_all with hmem | hmem | ⟨c, hc, rfl⟩
    · exact absurd hmem hlisted
    · rw [if_pos ⟨hmem, hkey⟩]
      exact (normalize_unlisted hmem).1 hzero
    · have hnot : Setting.count c ∉ Setting.unlisted := by
        cases c <;> decide
      rw [if_neg fun h => hnot h.1]
      exact normalize_rescued hc hzero hdefault

/-- What is stored is put right under the defaults exactly where the settings that are not
looked for keep theirs. -/
theorem Stored.getRuntimeSettings_eq_iff (h : Stored F object) :
    (getRuntimeSettings (some (.obj object)) defaults).1 =
        normalizeRuntimeSettings (overlay defaults object) defaults ↔
      KeepsUnlisted defaults object := by
  constructor
  · intro heq s hs
    by_cases hkey : s.key ∈ object.map Prod.fst
    · exact .inl hkey
    · have hget := h.get_getRuntimeSettings defaults s
      rw [if_pos ⟨hs, hkey⟩, heq,
        (normalize_unlisted hs).2 (overlay_of_omitted hkey)] at hget
      exact .inr hget
  · intro hkeeps
    refine RuntimeSettings.ext_get fun s => ?_
    rw [h.get_getRuntimeSettings]
    split
    · next hs =>
      rw [(normalize_unlisted hs.1).2 (overlay_of_omitted hs.2)]
      exact ((hkeeps s hs.1).resolve_left hs.2).symm
    · rfl

omit [Floats F] [Preorder F] [DecidableLT F] in
/-- A bound that is raised to another is left where it was exactly if it is not below that. -/
theorem ite_lt_eq_iff {α : Type} [LT α] [DecidableLT α] (hirrefl : ∀ x : α, ¬ x < x) {x y : α} :
    (if x < y then y else x) = x ↔ ¬ x < y := by
  split
  · next hlt => exact ⟨fun heq => absurd (heq ▸ hlt) (hirrefl y), fun hnot => absurd hlt hnot⟩
  · next hnot => exact ⟨fun _ => hnot, fun _ => rfl⟩

theorem normalize_maxDesired_eq_iff
    (h : a.count .autoscaleMaxDesired = defaults.count .autoscaleMaxDesired) :
    (normalizeRuntimeSettings a defaults).count .autoscaleMaxDesired =
        defaults.count .autoscaleMaxDesired ↔
      (normalizeRuntimeSettings a defaults).count .autoscaleMinDesired ≤
        defaults.count .autoscaleMaxDesired := by
  rw [← Int64.not_lt, ← ite_lt_eq_iff fun x => Int64.lt_irrefl, ← h]
  rfl

theorem normalize_canary_eq_iff
    (h : a.count .autoscaleCanaryPercent = defaults.count .autoscaleCanaryPercent) :
    (normalizeRuntimeSettings a defaults).count .autoscaleCanaryPercent =
        defaults.count .autoscaleCanaryPercent ↔
      0 < defaults.count .autoscaleCanaryPercent ∧
        defaults.count .autoscaleCanaryPercent ≤ 100 := by
  simp only [normalizeRuntimeSettings, h]
  by_cases hle : defaults.count .autoscaleCanaryPercent ≤ 0
  · have hnot : ¬ 0 < defaults.count .autoscaleCanaryPercent := Int64.not_lt.mpr hle
    rw [if_pos hle, if_pos hle, if_neg (by decide)]
    constructor
    · intro heq
      rw [← heq] at hle
      exact absurd hle (by decide)
    · exact fun h => absurd h.1 hnot
  · have hpos : 0 < defaults.count .autoscaleCanaryPercent := Int64.not_le.mp hle
    rw [if_neg hle]
    split
    · next hlt =>
      constructor
      · intro heq
        rw [← heq] at hlt
        exact absurd hlt (by decide)
      · exact fun h => absurd hlt (Int64.not_lt.mpr h.2)
    · next hnot => exact ⟨fun _ => ⟨hpos, Int64.not_lt.mp hnot⟩, fun _ => rfl⟩

/-- A critical rate is raised to the warning rate beside it. -/
theorem normalize_critical {pair : Rate × Rate}
    (hpair : pair ∈ [(Rate.providerTempfailWarnRate, Rate.providerTempfailCriticalRate),
      (.providerRejectWarnRate, .providerRejectCriticalRate),
      (.providerUnknownWarnRate, .providerUnknownCriticalRate)]) :
    (normalizeRuntimeSettings a defaults).rate pair.2 =
      if (if a.rate pair.2 < Floats.zero then defaults.rate pair.2 else a.rate pair.2) <
          (normalizeRuntimeSettings a defaults).rate pair.1 then
        (normalizeRuntimeSettings a defaults).rate pair.1
      else (if a.rate pair.2 < Floats.zero then defaults.rate pair.2 else a.rate pair.2) := by
  simp only [List.mem_cons, List.not_mem_nil, or_false] at hpair
  rcases hpair with rfl | rfl | rfl <;> rfl

theorem normalize_critical_eq_iff {pair : Rate × Rate}
    (hpair : pair ∈ [(Rate.providerTempfailWarnRate, Rate.providerTempfailCriticalRate),
      (.providerRejectWarnRate, .providerRejectCriticalRate),
      (.providerUnknownWarnRate, .providerUnknownCriticalRate)])
    (h : a.rate pair.2 = defaults.rate pair.2) :
    (normalizeRuntimeSettings a defaults).rate pair.2 = defaults.rate pair.2 ↔
      ¬ defaults.rate pair.2 < (normalizeRuntimeSettings a defaults).rate pair.1 := by
  rw [normalize_critical hpair, h, ite_self]
  exact ite_lt_eq_iff lt_irrefl

/-- Every other default is in range. -/
theorem normalize_count_eq {c : Count} (hmax : c ≠ .autoscaleMaxDesired)
    (hcanary : c ≠ .autoscaleCanaryPercent) (h : a.count c = defaults.count c) :
    (normalizeRuntimeSettings a defaults).count c = defaults.count c := by
  cases c <;> first
    | exact absurd rfl hmax
    | exact absurd rfl hcanary
    | simp only [normalizeRuntimeSettings, h, ite_self]

theorem normalize_rate_eq {r : Rate} (hr : r.reads = [r]) (h : a.rate r = defaults.rate r) :
    (normalizeRuntimeSettings a defaults).rate r = defaults.rate r := by
  cases r <;> first
    | exact absurd hr (by decide)
    | simp only [normalizeRuntimeSettings, h, ite_self]

/-- The limits of the autoscaler are in order. -/
theorem normalize_minDesired_le (a defaults : RuntimeSettings F) :
    (normalizeRuntimeSettings a defaults).count .autoscaleMinDesired ≤
      (normalizeRuntimeSettings a defaults).count .autoscaleMaxDesired := by
  show _ ≤ if a.count .autoscaleMaxDesired <
      (normalizeRuntimeSettings a defaults).count .autoscaleMinDesired then
    (normalizeRuntimeSettings a defaults).count .autoscaleMinDesired
    else a.count .autoscaleMaxDesired
  split
  · exact Int64.le_refl _
  · next hnot => exact Int64.not_lt.mp hnot

theorem normalize_minDesired_nonneg (a : RuntimeSettings F)
    (h : 0 ≤ defaults.count .autoscaleMinDesired) :
    0 ≤ (normalizeRuntimeSettings a defaults).count .autoscaleMinDesired := by
  show 0 ≤ if a.count .autoscaleMinDesired < 0 then defaults.count .autoscaleMinDesired
    else a.count .autoscaleMinDesired
  split
  · exact h
  · next hnot => exact Int64.not_lt.mp hnot

/-- Whatever is stored, the limits that are read are in order, if those of the configuration
are. -/
theorem limits_getRuntimeSettings (stored : Option Json)
    (hnonneg : 0 ≤ defaults.count .autoscaleMinDesired)
    (hle : defaults.count .autoscaleMinDesired ≤ defaults.count .autoscaleMaxDesired) :
    0 ≤ (getRuntimeSettings stored defaults).1.count .autoscaleMinDesired ∧
      (getRuntimeSettings stored defaults).1.count .autoscaleMinDesired ≤
        (getRuntimeSettings stored defaults).1.count .autoscaleMaxDesired := by
  cases stored with
  | none => exact ⟨hnonneg, hle⟩
  | some value =>
    rw [getRuntimeSettings]
    cases (settingsLayout F).codec.decode (.zero F) value with
    | none => exact ⟨hnonneg, hle⟩
    | some settings =>
      exact ⟨normalize_minDesired_nonneg _ hnonneg, normalize_minDesired_le _ defaults⟩

/-- The defaults that are put right beside what is stored are left as they are. -/
theorem defaultsFit_iff : DefaultsFit defaults object ↔
    ∀ s : Setting, s.key ∉ object.map Prod.fst →
      (normalizeRuntimeSettings (overlay defaults object) defaults).get s = defaults.get s := by
  constructor
  · intro hfit s hkey
    have hdefault : (overlay defaults object).get s = defaults.get s := overlay_of_omitted hkey
    cases s with
    | flag f => exact hdefault
    | count c =>
      by_cases hmax : c = .autoscaleMaxDesired
      · subst hmax
        exact (normalize_maxDesired_eq_iff hdefault).mpr (hfit.maxDesired hkey)
      · by_cases hcanary : c = .autoscaleCanaryPercent
        · subst hcanary
          exact (normalize_canary_eq_iff hdefault).mpr (hfit.canary hkey)
        · exact normalize_count_eq hmax hcanary hdefault
    | rate r =>
      show (normalizeRuntimeSettings (overlay defaults object) defaults).rate r = defaults.rate r
      have hrate : (overlay defaults object).rate r = defaults.rate r := hdefault
      cases r with
      | providerTempfailCriticalRate =>
        exact (normalize_critical_eq_iff (.head _) hrate).mpr (hfit.critical _ (.head _) hkey)
      | providerRejectCriticalRate =>
        exact (normalize_critical_eq_iff (.tail _ (.head _)) hrate).mpr
          (hfit.critical _ (.tail _ (.head _)) hkey)
      | providerUnknownCriticalRate =>
        exact (normalize_critical_eq_iff (.tail _ (.tail _ (.head _))) hrate).mpr
          (hfit.critical _ (.tail _ (.tail _ (.head _))) hkey)
      | _ => exact normalize_rate_eq rfl hrate
  · intro hkept
    refine ⟨fun hkey => ?_, fun hkey => ?_, fun pair hpair hkey => ?_⟩
    · have hdefault : (overlay defaults object).get (.count .autoscaleMaxDesired) =
          defaults.get (.count .autoscaleMaxDesired) := overlay_of_omitted hkey
      exact (normalize_maxDesired_eq_iff hdefault).mp (hkept (.count .autoscaleMaxDesired) hkey)
    · have hdefault : (overlay defaults object).get (.count .autoscaleCanaryPercent) =
          defaults.get (.count .autoscaleCanaryPercent) := overlay_of_omitted hkey
      exact (normalize_canary_eq_iff hdefault).mp (hkept (.count .autoscaleCanaryPercent) hkey)
    · have hdefault : (overlay defaults object).rate pair.2 = defaults.rate pair.2 :=
        overlay_of_omitted (s := .rate pair.2) hkey
      have hsame : (normalizeRuntimeSettings (overlay defaults object) defaults).rate pair.2 =
        defaults.rate pair.2 := hkept (.rate pair.2) hkey
      exact (normalize_critical_eq_iff hpair hdefault).mp hsame

/-- **Settings that another version has stored keep their meaning exactly where the five
settings that are not looked for are stored or zero by default, and no default is out of range
beside what is stored.** -/
theorem backward_iff (h : Stored F object) :
    (Backward defaults object ↔
      KeepsUnlisted defaults object ∧ DefaultsFit defaults object) ∧
      ((getRuntimeSettings (some (.obj object)) defaults).1 =
          normalizeRuntimeSettings (overlay defaults object) defaults ↔
        KeepsUnlisted defaults object) := by
  refine ⟨⟨fun hback => ?_, fun ⟨hkeeps, hfit⟩ s => ?_⟩, h.getRuntimeSettings_eq_iff⟩
  · have hkeeps : KeepsUnlisted defaults object := by
      intro s hs
      by_cases hkey : s.key ∈ object.map Prod.fst
      · exact .inl hkey
      · have hzero := hback s
        rw [h.get_getRuntimeSettings, if_pos ⟨hs, hkey⟩, if_neg hkey] at hzero
        exact .inr hzero.symm
    refine ⟨hkeeps, defaultsFit_iff.mpr fun s hkey => ?_⟩
    have hget := hback s
    rw [h.getRuntimeSettings_eq_iff.mpr hkeeps, if_neg hkey] at hget
    exact hget
  · rw [h.getRuntimeSettings_eq_iff.mpr hkeeps]
    split
    · rfl
    · next hkey => exact defaultsFit_iff.mp hfit s hkey

/-! ## What a version saves -/

/-- The object that a version with some of the settings writes. -/
def saved (settings : RuntimeSettings F) (ss : List Setting) : List (List Char × Json) :=
  ss.map fun s => (s.key, (s.codec F).encode (settings.get s))

omit [Preorder F] [DecidableLT F] in
theorem stored_saved (settings : RuntimeSettings F) {ss : List Setting} (h : ss.Nodup) :
    Stored F (saved settings ss) := by
  have hkeys : ∀ e ∈ saved settings ss, ∃ s ∈ ss, e.1 = s.key := by
    intro e he
    obtain ⟨s, hs, rfl⟩ := List.mem_map.mp he
    exact ⟨s, hs, rfl⟩
  refine ⟨?_, fun s e he hname => ?_, fun s j hlast => ?_⟩
  · rw [saved, List.map_map]
    refine h.map_on fun s _ t _ heq => Setting.eq_of_foldName ?_
    exact congrArg foldName heq
  · obtain ⟨t, -, ht⟩ := hkeys e he
    rw [ht] at hname ⊢
    rw [Setting.eq_of_foldName hname]
  · obtain ⟨t, -, ht⟩ := List.mem_map.mp (Json.mem_of_last hlast)
    obtain ⟨hkey, rfl⟩ := Prod.mk.inj ht
    obtain rfl := Setting.eq_of_foldName (congrArg foldName hkey)
    refine ⟨by cases t <;> exact Json.noConfusion, ?_⟩
    rw [← (t.codec F).isSome_decode (t.codec F).zero, (t.codec F).decode_encode]
    rfl

omit [Preorder F] [DecidableLT F] in
theorem key_mem_saved {settings : RuntimeSettings F} {ss : List Setting} {s : Setting} :
    s.key ∈ (saved settings ss).map Prod.fst ↔ s ∈ ss := by
  rw [saved, List.map_map]
  constructor
  · intro h
    obtain ⟨t, ht, hkey⟩ := List.mem_map.mp h
    exact Setting.eq_of_foldName (congrArg foldName hkey) ▸ ht
  · exact fun h => List.mem_map_of_mem h

end

/-- A control plane with everything on. -/
def everythingOn : RuntimeSettings Number where
  flag _ := true
  count _ := 60
  rate _ := ⟨false, 5, some (-1)⟩

/-- What a version saves that has no autoscaler yet. -/
def savedWithoutAutoscale : List (List Char × Json) :=
  saved everythingOn (Setting.all.erase (.flag .autoscaleEnabled))

theorem backward_iff_saved :
    (Backward everythingOn savedWithoutAutoscale ↔
      KeepsUnlisted everythingOn savedWithoutAutoscale ∧
        DefaultsFit everythingOn savedWithoutAutoscale) ∧
      ((getRuntimeSettings (some (.obj savedWithoutAutoscale)) everythingOn).1 =
          normalizeRuntimeSettings (overlay everythingOn savedWithoutAutoscale) everythingOn ↔
        KeepsUnlisted everythingOn savedWithoutAutoscale) :=
  backward_iff (stored_saved everythingOn (Setting.nodup_all.erase _))

/-- The autoscaler, which the configuration turns on, is off. -/
theorem backward_fails :
    Stored Number savedWithoutAutoscale ∧ everythingOn.flag .autoscaleEnabled = true ∧
      (getRuntimeSettings (some (.obj savedWithoutAutoscale)) everythingOn).1.flag
        .autoscaleEnabled = false ∧
      ¬ Backward everythingOn savedWithoutAutoscale := by
  have hstored : Stored Number savedWithoutAutoscale :=
    stored_saved everythingOn (Setting.nodup_all.erase _)
  have homitted : Setting.key (.flag .autoscaleEnabled) ∉ savedWithoutAutoscale.map Prod.fst := by
    rw [savedWithoutAutoscale, key_mem_saved]
    decide
  have hoff := hstored.get_getRuntimeSettings everythingOn (.flag .autoscaleEnabled)
  rw [if_pos ⟨by decide, homitted⟩, RuntimeSettings.get_flag] at hoff
  refine ⟨hstored, rfl, hoff, fun hback => ?_⟩
  have hon := hback (.flag .autoscaleEnabled)
  rw [if_neg homitted, RuntimeSettings.get_flag, hoff] at hon
  exact Bool.false_ne_true hon

end ValidEmailVerifier.StoredSettings
