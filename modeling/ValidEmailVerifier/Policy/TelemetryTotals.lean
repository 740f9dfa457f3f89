/-
# `Policy.TelemetryTotals` — what the telemetry says of the rows of the probe chunks

`recordChunkSuccess` counts the rows of a probe chunk twice, for the worker and for its provider,
and `snapshot` makes rates of both.  The counters are those of the rows, so the rates of failed,
rejected and unknown rows are shares of them.  The tags of the reasons are counted for the worker
only: the share of blocked rows that a snapshot states of a provider is always zero, and so is
every one that the autopilot compares (`telemetry_iff`).

Rates are exact; the counters do not overflow.
-/
import Mathlib
import ValidEmailVerifier.Pipeline.RowConservation

namespace ValidEmailVerifier.Policy.Totals

open GoStrings WorkerLoop Worker

/-! ## The counters -/

/-- `providerCounters`; the counters `smtp…` of the worker are of the same kind. -/
structure ProbeCounters where
  processed : Nat := 0
  tempfail : Nat := 0
  reject : Nat := 0
  unknown : Nat := 0
  catchAll : Nat := 0
  deriving DecidableEq

namespace ProbeCounters

instance : Zero ProbeCounters := ⟨{}⟩

instance : Add ProbeCounters where
  add a b :=
    { processed := a.processed + b.processed
      tempfail := a.tempfail + b.tempfail
      reject := a.reject + b.reject
      unknown := a.unknown + b.unknown
      catchAll := a.catchAll + b.catchAll }

theorem add_def (a b : ProbeCounters) : a + b = ⟨a.processed + b.processed,
    a.tempfail + b.tempfail, a.reject + b.reject, a.unknown + b.unknown,
    a.catchAll + b.catchAll⟩ := rfl

theorem zero_def : (0 : ProbeCounters) = ⟨0, 0, 0, 0, 0⟩ := rfl

instance : AddCommMonoid ProbeCounters where
  add_assoc a b c := by simp only [add_def, Nat.add_assoc]
  zero_add a := by simp only [add_def, zero_def, Nat.zero_add]
  add_zero a := by simp only [add_def, zero_def, Nat.add_zero]
  add_comm a b := by simp only [add_def, Nat.add_comm]
  nsmul := nsmulRec

/-- No part is more than the whole. -/
structure Bounded (c : ProbeCounters) : Prop where
  tempfail : c.tempfail ≤ c.processed
  reject : c.reject ≤ c.processed
  unknown : c.unknown ≤ c.processed
  catchAll : c.catchAll ≤ c.processed

theorem bounded_zero : Bounded 0 := ⟨le_rfl, le_rfl, le_rfl, le_rfl⟩

theorem Bounded.add {a b : ProbeCounters} (ha : a.Bounded) (hb : b.Bounded) : (a + b).Bounded :=
  ⟨Nat.add_le_add ha.tempfail hb.tempfail, Nat.add_le_add ha.reject hb.reject,
    Nat.add_le_add ha.unknown hb.unknown, Nat.add_le_add ha.catchAll hb.catchAll⟩

end ProbeCounters

/-- `workerTelemetry`, the counters of chunks that succeeded.  A provider without counters has
them at zero. -/
structure WorkerTelemetry where
  screeningProcessed : Nat := 0
  smtp : ProbeCounters := 0
  provider : Provider → ProbeCounters := fun _ => 0
  reasonTagCounters : List (Text × Nat) := []
  throttleAppliedTotal : Nat := 0
  mxFallbackAttemptsTotal : Nat := 0

def baseReasonCount (outputs : ChunkOutputs) (reason : Text) : Nat :=
  countOf outputs.reasonCounts reason

def baseReasonPrefixCount (outputs : ChunkOutputs) (start : Text) : Nat :=
  ((outputs.reasonCounts.filter fun entry => hasPrefix entry.1 start).map Prod.snd).sum

/-- What a chunk adds to the counters of the worker and to those of its provider. -/
def probeCounters (outputs : ChunkOutputs) : ProbeCounters where
  processed := outputs.emailCount
  tempfail := baseReasonCount outputs "smtp_tempfail".toList
  reject := outputs.counts.get .invalid
  unknown := outputs.counts.get .risky
  catchAll := baseReasonPrefixCount outputs "catch_all".toList

/-- `counters[key] += count` -/
def addTo : List (Text × Nat) → Text → Nat → List (Text × Nat)
  | [], key, count => [(key, count)]
  | entry :: rest, key, count =>
      if entry.1 = key then (key, entry.2 + count) :: rest else entry :: addTo rest key count

/-- The loop over the tags of a chunk. -/
def recordReasonTags (counters : List (Text × Nat)) (outputs : ChunkOutputs) :
    List (Text × Nat) :=
  outputs.reasonTags.foldl (fun counters entry =>
    let normalizedTag := toLower (trimSpace entry.1)
    if normalizedTag = [] then counters else addTo counters normalizedTag entry.2) counters

/-- `outputs` is `none` where there are none. -/
def recordChunkSuccess (stage provider : Text) (outputs : Option ChunkOutputs)
    (t : WorkerTelemetry) : WorkerTelemetry :=
  match outputs with
  | none => t
  | some outputs =>
      if stage = "smtp_probe".toList then
        let providerName := normalizeProviderForRuntime provider
        { t with
          smtp := t.smtp + probeCounters outputs
          provider := Function.update t.provider providerName
            (t.provider providerName + probeCounters outputs)
          reasonTagCounters := recordReasonTags t.reasonTagCounters outputs
          throttleAppliedTotal :=
            t.throttleAppliedTotal + baseReasonCount outputs "smtp_tempfail".toList
          mxFallbackAttemptsTotal :=
            t.mxFallbackAttemptsTotal + baseReasonPrefixCount outputs "mx_fallback".toList }
      else { t with screeningProcessed := t.screeningProcessed + outputs.emailCount }

/-! ## The snapshot -/

structure SMTPMetrics where
  tempfailRate : ℚ := 0
  rejectRate : ℚ := 0
  unknownRate : ℚ := 0
  catchAllRate : ℚ := 0
  deriving DecidableEq

structure ControlPlaneProviderMetric where
  provider : Text
  tempfailRate : ℚ
  rejectRate : ℚ
  unknownRate : ℚ
  policyBlockRate : ℚ
  avgRetryAfter : ℚ
  deriving DecidableEq

/-- `telemetrySnapshot`, as far as it is made of the counters above. -/
structure TelemetrySnapshot where
  screeningProcessed : Nat
  smtpProcessed : Nat
  smtpMetrics : SMTPMetrics
  providerMetrics : List ControlPlaneProviderMetric
  connectionReuseRate : ℚ
  throttleAppliedTotal : Nat
  mxFallbackAttemptsTotal : Nat
  reasonTagCounts : List (Text × Nat)

def smtpMetrics (c : ProbeCounters) : SMTPMetrics :=
  if 0 < c.processed then
    { tempfailRate := c.tempfail / c.processed
      rejectRate := c.reject / c.processed
      unknownRate := c.unknown / c.processed
      catchAllRate := c.catchAll / c.processed }
  else {}

def providerMetric (provider : Provider) (c : ProbeCounters) :
    Option ControlPlaneProviderMetric :=
  if c.processed ≤ 0 then none
  else
    some
      { provider := provider.name
        tempfailRate := c.tempfail / c.processed
        rejectRate := c.reject / c.processed
        unknownRate := c.unknown / c.processed
        policyBlockRate := 0
        avgRetryAfter := 0 }

def snapshot (t : WorkerTelemetry) : TelemetrySnapshot where
  screeningProcessed := t.screeningProcessed
  smtpProcessed := t.smtp.processed
  smtpMetrics := smtpMetrics t.smtp
  providerMetrics := Provider.all.filterMap fun provider =>
    providerMetric provider (t.provider provider)
  connectionReuseRate := 0
  throttleAppliedTotal := t.throttleAppliedTotal
  mxFallbackAttemptsTotal := t.mxFallbackAttemptsTotal
  reasonTagCounts := t.reasonTagCounters

/-! ## The rows behind it -/

/-- A call of `recordChunkSuccess`, and of `buildOutputs` before it. -/
structure Recording where
  stage : Text
  provider : Text
  verify : Nat → Text → VerifierResult
  probeAttemptChainEnabled : Bool := false
  unknownReasonTaxonomyEnabled : Bool := false
  reader : Reader

/-- A row of a probe chunk: the file it is in, and its reason. -/
structure ProbeRow where
  outcome : OutputType
  reason : Text
  deriving DecidableEq

namespace Recording

def outputs (call : Recording) : Option ChunkOutputs :=
  buildOutputs call.verify call.probeAttemptChainEnabled call.unknownReasonTaxonomyEnabled
    call.reader

/-- The rows that the call records as probed. -/
def rows (call : Recording) : List ProbeRow :=
  if call.stage = "smtp_probe".toList ∧ call.outputs.isSome = true then
    (verdicts call.verify (addressLines call.reader.content)).map fun v =>
      ⟨bucket v.2.category, reasonWithEvidence v.2 call.probeAttemptChainEnabled
        call.unknownReasonTaxonomyEnabled⟩
  else []

/-- Those of them that are a provider's. -/
def rowsOf (call : Recording) (provider : Provider) : List ProbeRow :=
  if normalizeProviderForRuntime call.provider = provider then call.rows else []

def record (t : WorkerTelemetry) (call : Recording) : WorkerTelemetry :=
  recordChunkSuccess call.stage call.provider call.outputs t

end Recording

def telemetry (calls : List Recording) : WorkerTelemetry := calls.foldl Recording.record {}

/-- The recorded probe rows of a provider. -/
def recordedRows (calls : List Recording) (provider : Provider) : List ProbeRow :=
  calls.flatMap fun call => call.rowsOf provider

namespace ProbeRow

def tempfailed (row : ProbeRow) : Bool := baseReasonOnly row.reason = "smtp_tempfail".toList

def rejected (row : ProbeRow) : Bool := row.outcome = .invalid

def isUnknown (row : ProbeRow) : Bool := row.outcome = .risky

/-- The reason has one of the two tags that `unknownReasonTagCounters` counts as
`policy_blocked_ambiguous`. -/
def policyBlocked (row : ProbeRow) : Bool :=
  toLower (trimSpace (reasonTagFrom row.reason)) ∈
    ["policy_blocked".toList, "policy_blocked_ambiguous".toList]

end ProbeRow

/-- The share of the rows that pass a test. -/
def fraction (rows : List ProbeRow) (test : ProbeRow → Bool) : ℚ :=
  rows.countP test / rows.length

/-- The rates of a metric. -/
def ControlPlaneProviderMetric.rates (metric : ControlPlaneProviderMetric) : List ℚ :=
  [metric.tempfailRate, metric.rejectRate, metric.unknownRate, metric.policyBlockRate]

/-- The rates that rows should have. -/
def ratesOf (rows : List ProbeRow) : List ℚ :=
  [fraction rows ProbeRow.tempfailed, fraction rows ProbeRow.rejected,
    fraction rows ProbeRow.isUnknown, fraction rows ProbeRow.policyBlocked]

def SMTPMetrics.rates (metrics : SMTPMetrics) : List ℚ :=
  [metrics.tempfailRate, metrics.rejectRate, metrics.unknownRate, metrics.catchAllRate]

/-- Every rate that a snapshot reports. -/
def TelemetrySnapshot.rates (s : TelemetrySnapshot) : List ℚ :=
  s.smtpMetrics.rates ++ s.providerMetrics.flatMap ControlPlaneProviderMetric.rates ++
    [s.connectionReuseRate]

/-- **The telemetry is that of the rows**: the counters of the providers add up to those of the
worker, rates are between zero and one, and a provider with rows has the rates of its rows. -/
structure Accounts (rows : Provider → List ProbeRow) (t : WorkerTelemetry) : Prop where
  sum : (Provider.all.map t.provider).sum = t.smtp
  rates : ∀ rate ∈ (snapshot t).rates, 0 ≤ rate ∧ rate ≤ 1
  provider : ∀ provider,
    (providerMetric provider (t.provider provider)).map ControlPlaneProviderMetric.rates =
      if rows provider = [] then none else some (ratesOf (rows provider))

/-! ## What the autopilot reads -/

/-- A metric, as the control plane reads it. -/
def ControlPlaneProviderMetric.received (metric : ControlPlaneProviderMetric) :
    ProviderMetric ℚ := ⟨metric.provider, metric.unknownRate, metric.policyBlockRate⟩

/-- What a worker sends of its providers. -/
def sent (t : WorkerTelemetry) : WorkerSummary ℚ :=
  (snapshot t).providerMetrics.map ControlPlaneProviderMetric.received

/-! ## One chunk -/

section

variable {call : Recording} {outputs : ChunkOutputs}

theorem baseReasonPrefixCount_le (start : Text) :
    baseReasonPrefixCount outputs start ≤ (outputs.reasonCounts.map Prod.snd).sum := by
  have hsub : (outputs.reasonCounts.filter fun entry => hasPrefix entry.1 start).Sublist
      outputs.reasonCounts := List.filter_sublist
  exact (hsub.map Prod.snd).sum_le_sum fun _ _ => Nat.zero_le _

/-- The counters say of rows what they are. -/
structure Counted (rows : List ProbeRow) (c : ProbeCounters) : Prop where
  processed : c.processed = rows.length
  tempfail : c.tempfail = rows.countP ProbeRow.tempfailed
  reject : c.reject = rows.countP ProbeRow.rejected
  unknown : c.unknown = rows.countP ProbeRow.isUnknown
  catchAll : c.catchAll ≤ c.processed

theorem counted_zero : Counted [] 0 := ⟨rfl, rfl, rfl, rfl, le_rfl⟩

theorem Counted.append {rows more : List ProbeRow} {a b : ProbeCounters} (ha : Counted rows a)
    (hb : Counted more b) : Counted (rows ++ more) (a + b) where
  processed := by
    rw [List.length_append, ← ha.processed, ← hb.processed]
    rfl
  tempfail := by
    rw [List.countP_append, ← ha.tempfail, ← hb.tempfail]
    rfl
  reject := by
    rw [List.countP_append, ← ha.reject, ← hb.reject]
    rfl
  unknown := by
    rw [List.countP_append, ← ha.unknown, ← hb.unknown]
    rfl
  catchAll := Nat.add_le_add ha.catchAll hb.catchAll

theorem Counted.bounded {rows : List ProbeRow} {c : ProbeCounters} (h : Counted rows c) :
    c.Bounded where
  tempfail := by
    rw [h.tempfail, h.processed]
    exact List.countP_le_length
  reject := by
    rw [h.reject, h.processed]
    exact List.countP_le_length
  unknown := by
    rw [h.unknown, h.processed]
    exact List.countP_le_length
  catchAll := h.catchAll

/-- **The counters of a chunk are those of its rows.** -/
theorem counted_probeCounters (hstage : call.stage = "smtp_probe".toList)
    (h : call.outputs = some outputs) : Counted call.rows (probeCounters outputs) := by
  have hconserved := conserved_buildOutputs h
  have hrows : call.rows = (verdicts call.verify (addressLines call.reader.content)).map fun v =>
      ⟨bucket v.2.category, reasonWithEvidence v.2 call.probeAttemptChainEnabled
        call.unknownReasonTaxonomyEnabled⟩ := if_pos ⟨hstage, by rw [h]; rfl⟩
  have hlength : (verdicts call.verify (addressLines call.reader.content)).length =
      (addressLines call.reader.content).length := List.length_mapIdx
  have hcount : ∀ t, outputs.counts.get t = (verdicts call.verify
      (addressLines call.reader.content)).countP fun v => bucket v.2.category == t := by
    intro t
    rw [hconserved.counts, verdictsOf, List.countP_eq_length_filter]
  rw [hrows]
  refine ⟨?_, ?_, ?_, ?_, ?_⟩
  · rw [List.length_map, hlength]
    exact hconserved.emailCount
  · rw [List.countP_map]
    have htempfail := hconserved.reasonCount "smtp_tempfail".toList
    refine htempfail.trans (List.countP_congr fun v _ => ?_)
    rw [decide_eq_true_iff, Function.comp_apply, ProbeRow.tempfailed, decide_eq_true_iff, reasonOf]
  · rw [List.countP_map]
    exact hcount .invalid
  · rw [List.countP_map]
    exact hcount .risky
  · show baseReasonPrefixCount outputs _ ≤ outputs.emailCount
    rw [hconserved.emailCount, ← hconserved.reasons]
    exact baseReasonPrefixCount_le _

/-- What a call adds to the counters. -/
theorem record_cases (t : WorkerTelemetry) (call : Recording) : ∃ c, Counted call.rows c ∧
    (call.record t).smtp = t.smtp + c ∧
    (call.record t).provider = Function.update t.provider
      (normalizeProviderForRuntime call.provider)
      (t.provider (normalizeProviderForRuntime call.provider) + c) := by
  have hidle : ∀ {t' : WorkerTelemetry}, call.record t = t' → t'.smtp = t.smtp →
      t'.provider = t.provider → call.rows = [] → ∃ c, Counted call.rows c ∧
        (call.record t).smtp = t.smtp + c ∧
        (call.record t).provider = Function.update t.provider
          (normalizeProviderForRuntime call.provider)
          (t.provider (normalizeProviderForRuntime call.provider) + c) := by
    intro t' ht hsmtp hprovider hrows
    refine ⟨0, ?_, ?_, ?_⟩
    · rw [hrows]
      exact counted_zero
    · rw [ht, hsmtp, add_zero]
    · rw [ht, hprovider, add_zero, Function.update_eq_self]
  cases houtputs : call.outputs with
  | none =>
    refine @hidle t ?_ rfl rfl ?_
    · rw [Recording.record, houtputs]
      rfl
    · rw [Recording.rows, houtputs, if_neg fun h => absurd h.2 Bool.false_ne_true]
  | some outputs =>
    by_cases hstage : call.stage = "smtp_probe".toList
    · refine ⟨probeCounters outputs, counted_probeCounters hstage houtputs, ?_, ?_⟩
      · rw [Recording.record, houtputs, recordChunkSuccess]
        dsimp only
        rw [if_pos hstage]
      · rw [Recording.record, houtputs, recordChunkSuccess]
        dsimp only
        rw [if_pos hstage]
    · refine @hidle { t with
        screeningProcessed := t.screeningProcessed + outputs.emailCount } ?_ rfl rfl ?_
      · rw [Recording.record, houtputs, recordChunkSuccess]
        dsimp only
        rw [if_neg hstage]
      · rw [Recording.rows, if_neg fun h => hstage h.1]

end

/-! ## Every sequence of calls -/

/-- The counters of every provider are those of its rows, and they add up to those of the
worker. -/
structure Tallied (calls : List Recording) (t : WorkerTelemetry) : Prop where
  counted : ∀ provider, Counted (recordedRows calls provider) (t.provider provider)
  sum : (Provider.all.map t.provider).sum = t.smtp

/-- What is added to the counters of one provider is added to the sum. -/
theorem sum_update (f : Provider → ProbeCounters) (provider : Provider) (c : ProbeCounters) :
    (Provider.all.map (Function.update f provider (f provider + c))).sum =
      (Provider.all.map f).sum + c := by
  have hnodup : Provider.all.Nodup := by decide
  have hmem : ∀ p, p ∈ Provider.all := by
    intro p
    cases p <;> decide
  have hsum : ∀ l : List Provider, l.Nodup →
      (l.map (Function.update f provider (f provider + c))).sum =
        (l.map f).sum + if provider ∈ l then c else 0 := by
    intro l hl
    induction l with
    | nil => simp
    | cons p rest ih =>
      obtain ⟨hnot, hrest⟩ := List.nodup_cons.mp hl
      rw [List.map_cons, List.sum_cons, ih hrest, List.map_cons, List.sum_cons]
      by_cases hp : provider = p
      · subst hp
        rw [Function.update_self, if_neg hnot, if_pos List.mem_cons_self, add_zero]
        exact add_right_comm _ _ _
      · rw [Function.update_of_ne (Ne.symm hp)]
        simp only [List.mem_cons, hp, false_or, add_assoc]
  rw [hsum _ hnodup, if_pos (hmem provider)]

theorem tallied_record {calls : List Recording} {t : WorkerTelemetry} (h : Tallied calls t)
    (call : Recording) : Tallied (calls ++ [call]) (call.record t) := by
  obtain ⟨c, hcounted, hsmtp, hprovider⟩ := record_cases t call
  refine ⟨?_, ?_⟩
  · intro provider
    have hrows : recordedRows (calls ++ [call]) provider =
        recordedRows calls provider ++ call.rowsOf provider := by
      rw [recordedRows, List.flatMap_append, List.flatMap_singleton]
      rfl
    rw [hrows, hprovider, Recording.rowsOf]
    by_cases hp : normalizeProviderForRuntime call.provider = provider
    · subst hp
      rw [Function.update_self, if_pos rfl]
      exact (h.counted _).append hcounted
    · rw [Function.update_of_ne (Ne.symm hp), if_neg hp, List.append_nil]
      exact h.counted provider
  · rw [hprovider, sum_update, h.sum, hsmtp]

theorem tallied_foldl {before : List Recording} {t : WorkerTelemetry} (h : Tallied before t)
    (calls : List Recording) : Tallied (before ++ calls) (calls.foldl Recording.record t) := by
  induction calls generalizing before t with
  | nil =>
    rw [List.append_nil]
    exact h
  | cons call rest ih =>
    rw [List.append_cons]
    exact ih (tallied_record h call)

theorem tallied_nil : Tallied [] {} where
  counted _ := counted_zero
  sum := rfl

/-- **Whatever is recorded, the counters are those of the rows.** -/
theorem tallied_telemetry (calls : List Recording) : Tallied calls (telemetry calls) :=
  tallied_foldl tallied_nil calls

/-! ## Rates -/

theorem share_bounds {part whole : Nat} (h : part ≤ whole) :
    0 ≤ (part : ℚ) / (whole : ℚ) ∧ (part : ℚ) / (whole : ℚ) ≤ 1 := by
  refine ⟨div_nonneg (Nat.cast_nonneg _) (Nat.cast_nonneg _), ?_⟩
  exact div_le_one_of_le₀ (Nat.cast_le.mpr h) (Nat.cast_nonneg _)

theorem rates_smtpMetrics {c : ProbeCounters} (h : c.Bounded) :
    ∀ rate ∈ (smtpMetrics c).rates, 0 ≤ rate ∧ rate ≤ 1 := by
  rw [smtpMetrics]
  split
  · simp only [SMTPMetrics.rates, List.mem_cons, List.not_mem_nil, or_false]
    rintro rate (rfl | rfl | rfl | rfl)
    · exact share_bounds h.tempfail
    · exact share_bounds h.reject
    · exact share_bounds h.unknown
    · exact share_bounds h.catchAll
  · simp only [SMTPMetrics.rates, List.mem_cons, List.not_mem_nil, or_false, or_self]
    rintro rate rfl
    exact ⟨le_rfl, zero_le_one⟩

theorem rates_providerMetric {c : ProbeCounters} (h : c.Bounded) (provider : Provider) :
    ∀ metric ∈ providerMetric provider c, ∀ rate ∈ metric.rates, 0 ≤ rate ∧ rate ≤ 1 := by
  intro metric hmetric
  rw [Option.mem_def, providerMetric] at hmetric
  split_ifs at hmetric
  obtain rfl := Option.some.inj hmetric
  simp only [ControlPlaneProviderMetric.rates, List.mem_cons, List.not_mem_nil, or_false]
  rintro rate (rfl | rfl | rfl | rfl)
  · exact share_bounds h.tempfail
  · exact share_bounds h.reject
  · exact share_bounds h.unknown
  · exact ⟨le_rfl, zero_le_one⟩

theorem fraction_eq_zero_iff {rows : List ProbeRow} {test : ProbeRow → Bool} :
    fraction rows test = 0 ↔ ∀ row ∈ rows, test row = false := by
  rw [fraction, div_eq_zero_iff, Nat.cast_eq_zero, Nat.cast_eq_zero, List.countP_eq_zero,
    List.length_eq_zero_iff]
  constructor
  · rintro (h | rfl)
    · intro row hrow
      exact Bool.not_eq_true _ ▸ h row hrow
    · intro row hrow
      cases hrow
  · intro h
    refine .inl ?_
    intro row hrow
    rw [h row hrow]
    exact Bool.false_ne_true

/-- The rates of a provider are those of its rows exactly if none of these was blocked. -/
theorem providerMetric_iff {rows : List ProbeRow} {c : ProbeCounters} (h : Counted rows c)
    (provider : Provider) :
    (providerMetric provider c).map ControlPlaneProviderMetric.rates =
        (if rows = [] then none else some (ratesOf rows)) ↔
      ∀ row ∈ rows, row.policyBlocked = false := by
  by_cases hrows : rows = []
  · subst hrows
    have hnone : providerMetric provider c = none := if_pos h.processed.le
    rw [hnone, if_pos rfl]
    refine iff_of_true rfl ?_
    intro row hrow
    cases hrow
  · have hsome : providerMetric provider c = some
        { provider := provider.name
          tempfailRate := fraction rows ProbeRow.tempfailed
          rejectRate := fraction rows ProbeRow.rejected
          unknownRate := fraction rows ProbeRow.isUnknown
          policyBlockRate := 0
          avgRetryAfter := 0 } := by
      have hpos : ¬ c.processed ≤ 0 := by
        rw [h.processed, Nat.le_zero, List.length_eq_zero_iff]
        exact hrows
      rw [providerMetric, if_neg hpos, h.processed, h.tempfail, h.reject, h.unknown]
      rfl
    rw [hsome, if_neg hrows, Option.map_some, Option.some.injEq, ← fraction_eq_zero_iff,
      ControlPlaneProviderMetric.rates, ratesOf]
    simp only [List.cons.injEq, true_and, and_true]
    exact eq_comm

/-! ## The autopilot -/

/-- Metrics without blocked rows are summed up to none. -/
theorem policyBlockSum_of (provider : Provider) {workers : List (WorkerSummary ℚ)}
    (h : ∀ metrics ∈ workers, ∀ metric ∈ metrics, metric.policyBlockRate = 0) :
    (ProviderAggregate.of provider workers).policyBlockSum = 0 := by
  have hfold : ∀ (metrics : WorkerSummary ℚ) (entry : ProviderAggregate ℚ),
      (∀ metric ∈ metrics, metric.policyBlockRate = 0) → entry.policyBlockSum = 0 →
      (metrics.foldl (fun entry metric =>
        if normalizeProviderName metric.provider = some provider then
          { workers := entry.workers + 1
            unknownSum := entry.unknownSum + metric.unknownRate
            policyBlockSum := entry.policyBlockSum + metric.policyBlockRate }
        else entry) entry).policyBlockSum = 0 := by
    intro metrics
    induction metrics with
    | nil => exact fun entry _ hentry => hentry
    | cons metric rest ih =>
      intro entry hmetrics hentry
      rw [List.foldl_cons]
      apply ih
      · exact fun metric hmetric => hmetrics metric (.tail _ hmetric)
      · split
        · show entry.policyBlockSum + metric.policyBlockRate = 0
          rw [hentry, hmetrics metric (.head _), add_zero]
        · exact hentry
  apply hfold
  · intro metric hmetric
    obtain ⟨metrics, hmetrics, hmem⟩ := List.mem_flatten.mp hmetric
    exact h metrics hmetrics metric hmem
  · rfl

/-- **The autopilot sees no blocked rows** where no metric has any. -/
theorem policyBlockRate_collectKPI {workers : List (WorkerSummary ℚ)}
    (h : ∀ metrics ∈ workers, ∀ metric ∈ metrics, metric.policyBlockRate = 0) :
    (collectKPI workers).aggregate.policyBlockRate = 0 ∧
      ∀ kpi ∈ (collectKPI workers).providers, kpi.2.policyBlockRate = 0 := by
  have hhealth : ∀ provider ∈ aggregateProviderHealth workers,
      provider.policyBlockedRate = 0 := by
    intro health hhealth
    obtain ⟨provider, -, rfl⟩ := List.mem_map.mp hhealth
    show averageOrZero (ProviderAggregate.of provider workers).policyBlockSum _ = 0
    rw [policyBlockSum_of provider h, averageOrZero, zero_div, ite_self]
  have hweighted : ∀ (health : List (ProviderHealthSummary ℚ)) (sum : ℚ),
      (∀ provider ∈ health, provider.policyBlockedRate = 0) →
      health.foldl (fun sum h => sum + h.policyBlockedRate * h.weight) sum = sum := by
    intro health
    induction health with
    | nil => exact fun _ _ => rfl
    | cons provider rest ih =>
      intro sum hall
      rw [List.foldl_cons, hall provider (.head _), zero_mul, add_zero]
      exact ih sum fun provider hprovider => hall provider (.tail _ hprovider)
  have hkpis : ∀ kpi ∈ (aggregateProviderHealth workers).map fun h => (h.provider, h.kpi),
      kpi.2.policyBlockRate = 0 := by
    intro kpi hkpi
    obtain ⟨provider, hprovider, rfl⟩ := List.mem_map.mp hkpi
    exact hhealth provider hprovider
  rw [collectKPI]
  dsimp only
  split
  · refine ⟨?_, hkpis⟩
    show List.foldl _ 0 (aggregateProviderHealth workers) / _ = 0
    rw [hweighted _ _ hhealth, zero_div]
  · exact ⟨rfl, hkpis⟩

theorem policyBlockRate_sent (t : WorkerTelemetry) :
    ∀ metric ∈ sent t, metric.policyBlockRate = 0 := by
  intro metric hmetric
  obtain ⟨own, hown, rfl⟩ := List.mem_map.mp hmetric
  obtain ⟨provider, -, hprovider⟩ := List.mem_filterMap.mp hown
  rw [providerMetric] at hprovider
  split_ifs at hprovider
  obtain rfl := Option.some.inj hprovider
  rfl

/-! ## All of it -/

/-- **The telemetry is that of the rows exactly if no row of a probe chunk is blocked.**  And
whatever workers have recorded, every share of blocked rows that the autopilot compares is zero. -/
theorem telemetry_iff (calls : List Recording) (workers : List (List Recording)) :
    (Accounts (recordedRows calls) (telemetry calls) ↔
      ∀ provider, ∀ row ∈ recordedRows calls provider, row.policyBlocked = false) ∧
    (collectKPI (workers.map fun calls => sent (telemetry calls))).aggregate.policyBlockRate = 0 ∧
    ∀ kpi ∈ (collectKPI (workers.map fun calls => sent (telemetry calls))).providers,
      kpi.2.policyBlockRate = 0 := by
  have htallied := tallied_telemetry calls
  refine ⟨⟨?_, ?_⟩, policyBlockRate_collectKPI ?_⟩
  · intro haccounts provider
    exact (providerMetric_iff (htallied.counted provider) provider).mp
      (haccounts.provider provider)
  · intro hblocked
    refine ⟨htallied.sum, ?_, ?_⟩
    · have hsmtp : (telemetry calls).smtp.Bounded := by
        rw [← htallied.sum]
        apply List.sum_induction
        · exact fun _ _ => ProbeCounters.Bounded.add
        · exact ProbeCounters.bounded_zero
        · intro c hc
          obtain ⟨provider, -, rfl⟩ := List.mem_map.mp hc
          exact (htallied.counted provider).bounded
      intro rate hrate
      rw [TelemetrySnapshot.rates, List.mem_append, List.mem_append] at hrate
      rcases hrate with (hrate | hrate) | hrate
      · exact rates_smtpMetrics hsmtp rate hrate
      · obtain ⟨metric, hmetric, hmem⟩ := List.mem_flatMap.mp hrate
        obtain ⟨provider, -, hprovider⟩ := List.mem_filterMap.mp hmetric
        exact rates_providerMetric (htallied.counted provider).bounded provider metric hprovider
          rate hmem
      · obtain rfl := List.mem_singleton.mp hrate
        exact ⟨le_rfl, zero_le_one⟩
    · intro provider
      exact (providerMetric_iff (htallied.counted provider) provider).mpr (hblocked provider)
  · intro metrics hmetrics
    obtain ⟨calls, -, rfl⟩ := List.mem_map.mp hmetrics
    exact policyBlockRate_sent (telemetry calls)

/-! ## One blocked row -/

/-- A probe chunk of gmail with one address, which the server blocks. -/
def blockedChunk : Recording where
  stage := "smtp_probe".toList
  provider := "gmail".toList
  verify _ _ :=
    { category := "risky".toList
      reason := "smtp_policy_blocked".toList
      reasonTag := "policy_blocked".toList
      decisionClass := "policy_blocked".toList }
  reader := { content := "a@b.c\n".toList }

theorem telemetry_blocked : ¬ ∀ calls : List Recording,
    Accounts (recordedRows calls) (telemetry calls) := by
  intro hall
  have hcounted := (tallied_telemetry [blockedChunk]).counted .gmail
  have hnone := (providerMetric_iff hcounted .gmail).mp ((hall [blockedChunk]).provider .gmail)
  have hrows : recordedRows [blockedChunk] .gmail =
      [⟨.risky, "smtp_policy_blocked:decision=policy_blocked;tag=policy_blocked".toList⟩] := by
    decide +kernel
  have hrow := hnone _ (by rw [hrows]; exact List.mem_singleton_self _)
  exact absurd hrow (by decide +kernel)

end ValidEmailVerifier.Policy.Totals
