/-
# `Queues.MetricsRollups` — the rollups of queue metrics, and what pruning does to them

`rollup` aggregates the samples that are stored, bucket by bucket, and puts the rows over the old
ones; the window reaches back by whole buckets.  `ops:queue-prune` deletes the samples from
before a moment that lies anywhere in a bucket.  A rollup after it finds the bucket cut in two and
replaces the row of all its samples by one of those that are left.

A bucket that was aggregated from all its samples keeps its row, in every run, exactly if no
rollup finds it cut (`kept_iff`).
-/
import Mathlib.Algebra.BigOperators.Group.List.Basic
import Mathlib.Algebra.Ring.Int.Defs
import Mathlib.Data.List.Sort
import ValidEmailVerifier.Lib.Text
import ValidEmailVerifier.Lib.Upserts
import ValidEmailVerifier.Pipeline.Schema

namespace ValidEmailVerifier.QueueMetricsRollupService

open Upserts

/-! ## The tables -/

/-- A sample; times are in seconds of UTC. -/
structure QueueMetric where
  driver : Text
  queue : Text
  depth : Int
  failedCount : Int
  oldestAgeSeconds : Option Int
  throughputPerMin : Option Int
  capturedAt : Nat
  deriving DecidableEq, Repr

inductive PeriodType where
  | hour | day
  deriving DecidableEq, Repr

def PeriodType.seconds : PeriodType → Nat
  | .hour => 3600
  | .day => 86400

/-- `startOfHour` and `startOfDay`. -/
def startOf (p : PeriodType) (t : Nat) : Nat := t / p.seconds * p.seconds

/-- The unique index of the rollups. -/
structure Bucket where
  driver : Text
  queue : Text
  periodType : PeriodType
  periodStart : Nat
  deriving DecidableEq, Repr

def bucketOf (p : PeriodType) (metric : QueueMetric) : Bucket :=
  ⟨metric.driver, metric.queue, p, startOf p metric.capturedAt⟩

/-- A row of the rollups; an average is in hundredths. -/
structure QueueMetricsRollup where
  bucket : Bucket
  samples : Nat
  avgDepth : Int
  maxDepth : Int
  avgOldestAgeSeconds : Option Int
  maxOldestAgeSeconds : Option Int
  avgFailedCount : Int
  maxFailedCount : Int
  avgThroughputPerMin : Option Int
  maxThroughputPerMin : Option Int
  deriving DecidableEq, Repr

/-! ## Rolling up -/

/-- `round($average, 2)`, half away from zero. -/
def roundedAverage (values : List Int) : Int :=
  let rounded (sum : Nat) : Int := ((200 * sum + values.length) / (2 * values.length) : Nat)
  if 0 ≤ values.sum then rounded values.sum.natAbs else -rounded values.sum.natAbs

/-- `nullableAverage`. -/
def nullableAverage (values : List (Option Int)) : Option Int :=
  if values.reduceOption = [] then none else some (roundedAverage values.reduceOption)

/-- `nullableMax`. -/
def nullableMax (values : List (Option Int)) : Option Int := values.reduceOption.max?

/-- The row of a bucket with these samples. -/
def aggregate (bucket : Bucket) (samples : List QueueMetric) : QueueMetricsRollup where
  bucket := bucket
  samples := samples.length
  avgDepth := roundedAverage (samples.map QueueMetric.depth)
  maxDepth := (samples.map QueueMetric.depth).max?.getD 0
  avgOldestAgeSeconds := nullableAverage (samples.map QueueMetric.oldestAgeSeconds)
  maxOldestAgeSeconds := nullableMax (samples.map QueueMetric.oldestAgeSeconds)
  avgFailedCount := roundedAverage (samples.map QueueMetric.failedCount)
  maxFailedCount := (samples.map QueueMetric.failedCount).max?.getD 0
  avgThroughputPerMin := nullableAverage (samples.map QueueMetric.throughputPerMin)
  maxThroughputPerMin := nullableMax (samples.map QueueMetric.throughputPerMin)

/-- The key of a group has bars between its parts.  With a bar in a name the last part that
`explode` makes of it has one too, and is no time. -/
def QueueMetric.barred (metric : QueueMetric) : Bool :=
  metric.driver.contains '|' || metric.queue.contains '|'

def samplesOf (bucket : Bucket) (metrics : List QueueMetric) : List QueueMetric :=
  metrics.filter fun metric => bucketOf bucket.periodType metric = bucket

/-- The samples from some time on, in their order. -/
def foundIn (start : Nat) (metrics : List QueueMetric) : List QueueMetric :=
  (metrics.filter fun metric => start ≤ metric.capturedAt).insertionSort
    fun a b => a.capturedAt ≤ b.capturedAt

/-- `rollupByPeriod`; `none` stands for an exception. -/
def rollupByPeriod (p : PeriodType) (start : Nat) (metrics : List QueueMetric)
    (rollups : List QueueMetricsRollup) : Option (List QueueMetricsRollup) :=
  let found := foundIn start metrics
  let grouped := (found.map (bucketOf p)).eraseDups
  if found.any QueueMetric.barred then none
  else
    some (putAll QueueMetricsRollup.bucket rollups
      (grouped.map fun bucket => aggregate bucket (samplesOf bucket found)))

/-- The window of the command: 48 hours, or 30 days. -/
def PeriodType.window : PeriodType → Nat
  | .hour => 48
  | .day => 30

def windowStart (p : PeriodType) (now : Nat) : Nat := startOf p (now - p.window * p.seconds)

def rollup (now : Nat) (metrics : List QueueMetric) (rollups : List QueueMetricsRollup) :
    List QueueMetricsRollup :=
  match rollupByPeriod .hour (windowStart .hour now) metrics rollups with
  | none => rollups
  | some hours => (rollupByPeriod .day (windowStart .day now) metrics hours).getD hours

/-! ## Runs -/

/-- `queue_slo.rollups`. -/
structure Settings where
  queueMetricsRetentionDays : Int := 14
  queueMetricsRollupRetentionDays : Int := 90

structure Tables where
  metrics : List QueueMetric := []
  rollups : List QueueMetricsRollup := []

def metricsCutoff (σ : Settings) (now : Nat) : Nat :=
  now - (max 1 σ.queueMetricsRetentionDays).toNat * 86400

def rollupsCutoff (σ : Settings) (now : Nat) : Nat :=
  now - (max 1 σ.queueMetricsRollupRetentionDays).toNat * 86400

inductive Command where
  /-- A sample is captured; its time is that of the capture. -/
  | capture (metric : QueueMetric)
  | rollup
  | prune
  deriving DecidableEq

/-- Commands, each with its time. -/
abbrev Steps := List (Nat × Command)

def step (σ : Settings) (s : Tables) (command : Nat × Command) : Tables :=
  match command with
  | (now, .capture metric) => { s with metrics := s.metrics ++ [{ metric with capturedAt := now }] }
  | (now, .rollup) => { s with rollups := rollup now s.metrics s.rollups }
  | (now, .prune) =>
      { metrics := s.metrics.filter fun metric => ¬ metric.capturedAt < metricsCutoff σ now
        rollups := s.rollups.filter fun row => ¬ row.bucket.periodStart < rollupsCutoff σ now }

def run (σ : Settings) (steps : Steps) : Tables := steps.foldl (step σ) {}

/-- All samples of a run, whether they are still stored or not. -/
def captured (steps : Steps) : List QueueMetric :=
  steps.filterMap fun command =>
    match command.2 with
    | .capture metric => some { metric with capturedAt := command.1 }
    | _ => none

/-- The row of a bucket. -/
def Tables.rollupOf (s : Tables) (bucket : Bucket) : Option QueueMetricsRollup :=
  s.rollups.find? fun row => row.bucket = bucket

def Bucket.stop (bucket : Bucket) : Nat := bucket.periodStart + bucket.periodType.seconds

/-- No name with a bar keeps a rollup from a bucket of this type. -/
def Runs (metrics : List QueueMetric) (now : Nat) (p : PeriodType) : Prop :=
  (∀ metric ∈ metrics, windowStart .hour now ≤ metric.capturedAt → metric.barred = false) ∧
    (p = .day →
      ∀ metric ∈ metrics, windowStart .day now ≤ metric.capturedAt → metric.barred = false)

/-- A rollup at `now` reads the samples of the bucket. -/
structure Reads (s : Tables) (now : Nat) (bucket : Bucket) : Prop where
  runs : Runs s.metrics now bucket.periodType
  window : windowStart bucket.periodType now ≤ bucket.periodStart
  stored : samplesOf bucket s.metrics ≠ []

/-- A rollup after these commands finds the bucket over, and reads all its samples. -/
structure Complete (σ : Settings) (earlier : Steps) (now : Nat) (bucket : Bucket) : Prop where
  ended : bucket.stop ≤ now
  reads : Reads (run σ earlier) now bucket
  all : samplesOf bucket (run σ earlier).metrics = samplesOf bucket (captured earlier)

/-- The rollup of the bucket is not pruned. -/
def Unpruned (σ : Settings) (later : Steps) (bucket : Bucket) : Prop :=
  ∀ now, (now, Command.prune) ∈ later → rollupsCutoff σ now ≤ bucket.periodStart

/-- A bucket that is over and was aggregated from all its samples keeps its row until that is
pruned. -/
def Kept (σ : Settings) (steps : Steps) : Prop :=
  ∀ earlier now later bucket, earlier ++ (now, Command.rollup) :: later <+: steps →
    Complete σ earlier now bucket → Unpruned σ later bucket →
      (run σ (earlier ++ (now, Command.rollup) :: later)).rollupOf bucket =
        some (aggregate bucket (samplesOf bucket (captured earlier)))

/-- No rollup reads some and not all samples of a bucket that was aggregated from all of them
and not pruned since. -/
def NeverCut (σ : Settings) (steps : Steps) : Prop :=
  ∀ earlier now later now' bucket,
    earlier ++ (now, Command.rollup) :: later ++ [(now', Command.rollup)] <+: steps →
      Complete σ earlier now bucket → Unpruned σ later bucket →
        Reads (run σ (earlier ++ (now, Command.rollup) :: later)) now' bucket →
          samplesOf bucket (run σ (earlier ++ (now, Command.rollup) :: later)).metrics =
            samplesOf bucket (captured earlier)

/-! ## Samples in any order -/

theorem max?_perm {values values' : List Int} (h : values.Perm values') :
    values.max? = values'.max? := by
  cases hmax : values.max? with
  | none =>
    rw [List.max?_eq_none_iff] at hmax
    subst hmax
    rw [← h.nil_eq, List.max?_nil]
  | some m =>
    obtain ⟨hmem, hle⟩ := List.max?_eq_some_iff.mp hmax
    exact (List.max?_eq_some_iff.mpr
      ⟨h.mem_iff.mp hmem, fun b hb => hle b (h.mem_iff.mpr hb)⟩).symm

theorem roundedAverage_perm {values values' : List Int} (h : values.Perm values') :
    roundedAverage values = roundedAverage values' := by
  rw [roundedAverage, roundedAverage, h.sum_eq, h.length_eq]

theorem nullableAverage_perm {values values' : List (Option Int)} (h : values.Perm values') :
    nullableAverage values = nullableAverage values' := by
  have hreduce : values.reduceOption.Perm values'.reduceOption := h.filterMap id
  have hnil : values.reduceOption = [] ↔ values'.reduceOption = [] :=
    ⟨fun heq => (heq ▸ hreduce).nil_eq.symm, fun heq => (heq ▸ hreduce).eq_nil⟩
  rw [nullableAverage, nullableAverage, roundedAverage_perm hreduce, if_congr hnil rfl rfl]

/-- The row of a bucket does not depend on the order of its samples. -/
theorem aggregate_perm (bucket : Bucket) {samples samples' : List QueueMetric}
    (h : samples.Perm samples') : aggregate bucket samples = aggregate bucket samples' := by
  have hmax : ∀ field : QueueMetric → Option Int,
      nullableMax (samples.map field) = nullableMax (samples'.map field) :=
    fun field => max?_perm ((h.map field).filterMap id)
  rw [aggregate, aggregate, h.length_eq, roundedAverage_perm (h.map _), max?_perm (h.map _),
    nullableAverage_perm (h.map _), hmax, roundedAverage_perm (h.map QueueMetric.failedCount),
    max?_perm (h.map QueueMetric.failedCount),
    nullableAverage_perm (h.map QueueMetric.throughputPerMin), hmax]

/-! ## What a rollup does to a bucket -/

section Rollup
variable {p : PeriodType} {now : Nat} {metrics : List QueueMetric}
  {rollups rows : List QueueMetricsRollup} {bucket : Bucket}

theorem mem_samplesOf {metric : QueueMetric} : metric ∈ samplesOf bucket metrics ↔
    metric ∈ metrics ∧ bucketOf bucket.periodType metric = bucket := by
  rw [samplesOf, List.mem_filter, decide_eq_true_eq]

theorem PeriodType.seconds_pos (p : PeriodType) : 0 < p.seconds := by
  cases p with
  | hour => decide
  | day => decide

/-- A window begins with a bucket: it has all of one or nothing of it. -/
theorem windowStart_le_iff {metric : QueueMetric} (h : bucketOf p metric = bucket) :
    windowStart p now ≤ metric.capturedAt ↔ windowStart p now ≤ bucket.periodStart := by
  rw [← h, windowStart, bucketOf, startOf, startOf,
    Nat.mul_le_mul_right_iff p.seconds_pos, Nat.le_div_iff_mul_le p.seconds_pos]

theorem perm_foundIn (start : Nat) : (foundIn start metrics).Perm
    (metrics.filter fun metric => start ≤ metric.capturedAt) :=
  List.perm_insertionSort _ _

/-- What the window has of a bucket: all its samples, or none. -/
theorem samplesOf_foundIn (hp : bucket.periodType = p) :
    (samplesOf bucket (foundIn (windowStart p now) metrics)).Perm
      (if windowStart p now ≤ bucket.periodStart then samplesOf bucket metrics else []) := by
  subst hp
  refine ((perm_foundIn (windowStart bucket.periodType now)).filter _).trans (.of_eq ?_)
  rw [List.filter_filter, samplesOf]
  split
  · next hwindow =>
    refine List.filter_congr fun metric _ => ?_
    by_cases hbucket : bucketOf bucket.periodType metric = bucket
    · rw [decide_eq_true ((windowStart_le_iff hbucket).mpr hwindow), Bool.and_true]
    · rw [decide_eq_false hbucket, Bool.false_and]
  · next hwindow =>
    refine List.filter_eq_nil_iff.mpr fun metric _ hboth => hwindow ?_
    rw [Bool.and_eq_true, decide_eq_true_eq, decide_eq_true_eq] at hboth
    exact (windowStart_le_iff hboth.1).mp hboth.2

theorem any_barred_iff (start : Nat) : (foundIn start metrics).any QueueMetric.barred = false ↔
    ∀ metric ∈ metrics, start ≤ metric.capturedAt → metric.barred = false := by
  rw [List.any_eq_false]
  constructor
  · intro h metric hmetric hstart
    have hmem : metric ∈ foundIn start metrics :=
      (perm_foundIn start).mem_iff.mpr (List.mem_filter.mpr ⟨hmetric, decide_eq_true hstart⟩)
    exact Bool.eq_false_iff.mpr (h metric hmem)
  · intro h metric hmem
    obtain ⟨hmetric, hstart⟩ := List.mem_filter.mp ((perm_foundIn start).mem_iff.mp hmem)
    exact Bool.eq_false_iff.mp (h metric hmetric (of_decide_eq_true hstart))

/-- The buckets of another type keep their rows. -/
theorem find?_rollupByPeriod_other (hp : bucket.periodType ≠ p) {start : Nat}
    (h : rollupByPeriod p start metrics rollups = some rows) :
    rows.find? (fun row => row.bucket = bucket) =
      rollups.find? fun row => row.bucket = bucket := by
  rw [rollupByPeriod] at h
  split at h
  · cases h
  · obtain rfl := Option.some.inj h
    rw [find?_putAll, Option.or_eq_right_of_none]
    refine List.find?_eq_none.mpr fun row hrow heq => hp ?_
    obtain ⟨b, hb, rfl⟩ := List.mem_map.mp (List.mem_reverse.mp hrow)
    obtain ⟨metric, -, rfl⟩ := List.mem_map.mp (List.mem_eraseDups.mp hb)
    rw [← of_decide_eq_true heq]
    rfl

/-- A bucket with samples in the window gets the row of all that are stored. -/
theorem find?_rollupByPeriod (hp : bucket.periodType = p)
    (h : rollupByPeriod p (windowStart p now) metrics rollups = some rows) :
    rows.find? (fun row => row.bucket = bucket) =
      if windowStart p now ≤ bucket.periodStart ∧ samplesOf bucket metrics ≠ [] then
        some (aggregate bucket (samplesOf bucket metrics))
      else rollups.find? fun row => row.bucket = bucket := by
  rw [rollupByPeriod] at h
  split at h
  · cases h
  · obtain rfl := Option.some.inj h
    rw [find?_putAll]
    have hsamples := @samplesOf_foundIn p now metrics bucket hp
    have hgroup : bucket ∈ ((foundIn (windowStart p now) metrics).map (bucketOf p)).eraseDups ↔
        samplesOf bucket (foundIn (windowStart p now) metrics) ≠ [] := by
      rw [List.mem_eraseDups, List.mem_map, Ne, List.eq_nil_iff_forall_not_mem, not_forall]
      refine exists_congr fun metric => ?_
      rw [not_not, mem_samplesOf, hp]
    by_cases hread : windowStart p now ≤ bucket.periodStart ∧ samplesOf bucket metrics ≠ []
    · rw [if_pos hread.1] at hsamples
      have hmem := hgroup.mpr fun hnil => hread.2 (hnil ▸ hsamples).nil_eq.symm
      have hrow := List.mem_map_of_mem
        (f := fun b => aggregate b (samplesOf b (foundIn (windowStart p now) metrics))) hmem
      rw [if_pos hread]
      cases hfind : ((((foundIn (windowStart p now) metrics).map (bucketOf p)).eraseDups.map
          fun b => aggregate b (samplesOf b (foundIn (windowStart p now) metrics))).reverse.find?
            fun row => row.bucket = bucket) with
      | none =>
        have hnone := List.find?_eq_none.mp hfind _ (List.mem_reverse.mpr hrow)
        exact absurd (decide_eq_true rfl) hnone
      | some row =>
        have hkey := List.find?_some hfind
        rw [decide_eq_true_eq] at hkey
        obtain ⟨b, -, rfl⟩ :=
          List.mem_map.mp (List.mem_reverse.mp (List.mem_of_find?_eq_some hfind))
        obtain rfl : b = bucket := hkey
        rw [Option.some_or, aggregate_perm _ hsamples]
    · rw [if_neg hread, Option.or_eq_right_of_none]
      refine List.find?_eq_none.mpr fun row hrow heq => ?_
      obtain ⟨b, hb, rfl⟩ := List.mem_map.mp (List.mem_reverse.mp hrow)
      obtain rfl : b = bucket := of_decide_eq_true heq
      refine hgroup.mp hb ?_
      split at hsamples
      · next hwindow =>
        rw [not_and, not_not] at hread
        rw [hread hwindow] at hsamples
        exact hsamples.eq_nil
      · exact hsamples.eq_nil

end Rollup

/-! ## What a step does to a bucket -/

section Step
variable {σ : Settings} {s : Tables} {now : Nat} {bucket : Bucket}

theorem rollupByPeriod_ne_none {p : PeriodType} {start : Nat} {metrics : List QueueMetric}
    (rollups : List QueueMetricsRollup)
    (h : ∀ metric ∈ metrics, start ≤ metric.capturedAt → metric.barred = false) :
    ∃ rows, rollupByPeriod p start metrics rollups = some rows := by
  refine ⟨_, if_neg ?_⟩
  rw [(any_barred_iff start).mpr h]
  exact Bool.false_ne_true

theorem unbarred_of_rollupByPeriod {p : PeriodType} {start : Nat} {metrics : List QueueMetric}
    {rollups rows : List QueueMetricsRollup}
    (h : rollupByPeriod p start metrics rollups = some rows) :
    ∀ metric ∈ metrics, start ≤ metric.capturedAt → metric.barred = false := by
  rw [rollupByPeriod] at h
  split at h
  · cases h
  · next hbarred => exact (any_barred_iff start).mp (Bool.eq_false_iff.mpr hbarred)

/-- The row after a rollup is that after its last part that ran. -/
theorem rollupOf_eq {hours days : List QueueMetricsRollup}
    (hhours : rollupByPeriod .hour (windowStart .hour now) s.metrics s.rollups = some hours)
    (hdays : (rollupByPeriod .day (windowStart .day now) s.metrics hours).getD hours = days) :
    (step σ s (now, .rollup)).rollupOf bucket = days.find? fun row => row.bucket = bucket := by
  rw [step, Tables.rollupOf, rollup, hhours, ← hdays]

/-- **A rollup that reads a bucket writes the row of the samples that are stored.** -/
theorem rollupOf_rollup (σ : Settings) (h : Reads s now bucket) :
    (step σ s (now, .rollup)).rollupOf bucket =
      some (aggregate bucket (samplesOf bucket s.metrics)) := by
  obtain ⟨hours, hhours⟩ := @rollupByPeriod_ne_none .hour _ _ s.rollups h.runs.1
  rw [rollupOf_eq hhours rfl]
  cases hp : bucket.periodType with
  | hour =>
    have hwindow := h.window
    rw [hp] at hwindow
    have hrow := find?_rollupByPeriod hp hhours
    rw [if_pos ⟨hwindow, h.stored⟩] at hrow
    cases hdays : rollupByPeriod .day (windowStart .day now) s.metrics hours with
    | none => exact hrow
    | some days =>
      have hne : bucket.periodType ≠ .day := by simp [hp]
      exact (find?_rollupByPeriod_other hne hdays).trans hrow
  | day =>
    have hwindow := h.window
    rw [hp] at hwindow
    obtain ⟨days, hdays⟩ := @rollupByPeriod_ne_none .day _ _ hours (h.runs.2 hp)
    rw [hdays]
    exact (find?_rollupByPeriod hp hdays).trans (if_pos ⟨hwindow, h.stored⟩)

/-- A bucket that is not read keeps its row. -/
theorem rollupOf_rollup_of_not_reads (σ : Settings) (h : ¬ Reads s now bucket) :
    (step σ s (now, .rollup)).rollupOf bucket = s.rollupOf bucket := by
  cases hhours : rollupByPeriod .hour (windowStart .hour now) s.metrics s.rollups with
  | none =>
    rw [step, Tables.rollupOf, rollup, hhours]
    rfl
  | some hours =>
    have hunbarred := unbarred_of_rollupByPeriod hhours
    rw [rollupOf_eq hhours rfl]
    cases hp : bucket.periodType with
    | hour =>
      have hread : ¬ (windowStart .hour now ≤ bucket.periodStart ∧
          samplesOf bucket s.metrics ≠ []) := by
        rintro ⟨hwindow, hstored⟩
        refine h ⟨⟨hunbarred, fun hday => ?_⟩, hp ▸ hwindow, hstored⟩
        rw [hp] at hday
        cases hday
      have hrow := (find?_rollupByPeriod hp hhours).trans (if_neg hread)
      cases hdays : rollupByPeriod .day (windowStart .day now) s.metrics hours with
      | none => exact hrow
      | some days =>
        have hne : bucket.periodType ≠ .day := by simp [hp]
        exact (find?_rollupByPeriod_other hne hdays).trans hrow
    | day =>
      have hne : bucket.periodType ≠ .hour := by simp [hp]
      have hrow := find?_rollupByPeriod_other hne hhours
      cases hdays : rollupByPeriod .day (windowStart .day now) s.metrics hours with
      | none => exact hrow
      | some days =>
        have hread : ¬ (windowStart .day now ≤ bucket.periodStart ∧
            samplesOf bucket s.metrics ≠ []) := by
          rintro ⟨hwindow, hstored⟩
          exact h ⟨⟨hunbarred, fun _ => unbarred_of_rollupByPeriod hdays⟩, hp ▸ hwindow, hstored⟩
        exact ((find?_rollupByPeriod hp hdays).trans (if_neg hread)).trans hrow

theorem rollupOf_capture (metric : QueueMetric) :
    (step σ s (now, .capture metric)).rollupOf bucket = s.rollupOf bucket := rfl

theorem rollupOf_prune (h : rollupsCutoff σ now ≤ bucket.periodStart) :
    (step σ s (now, .prune)).rollupOf bucket = s.rollupOf bucket := by
  rw [step, Tables.rollupOf, Tables.rollupOf, List.find?_filter]
  congr 1
  funext row
  by_cases hrow : row.bucket = bucket
  · rw [hrow]
    simp [h]
  · simp [hrow]

end Step

/-! ## Runs -/

section Runs
variable {σ : Settings} {steps earlier later : Steps} {now : Nat} {bucket : Bucket}

theorem run_append : run σ (earlier ++ later) = later.foldl (step σ) (run σ earlier) :=
  List.foldl_append

theorem captured_append : captured (earlier ++ later) = captured earlier ++ captured later :=
  List.filterMap_append

/-- What is stored was captured. -/
theorem metrics_sublist (σ : Settings) (steps : Steps) :
    (run σ steps).metrics.Sublist (captured steps) := by
  induction steps using List.reverseRecOn with
  | nil => exact .refl _
  | append_singleton steps command ih =>
    rw [run_append, captured_append]
    obtain ⟨now, command⟩ := command
    cases command with
    | capture metric => exact ih.append (.refl _)
    | rollup => exact ih.trans (List.sublist_append_left _ _)
    | prune =>
      exact (List.filter_sublist.trans ih).trans (List.sublist_append_left _ _)

/-- A bucket that is over gets no more samples. -/
theorem samplesOf_captured (hended : bucket.stop ≤ now)
    (hlater : ∀ command ∈ later, now ≤ command.1) :
    samplesOf bucket (captured (earlier ++ later)) = samplesOf bucket (captured earlier) := by
  have hnone : samplesOf bucket (captured later) = [] := by
    refine List.filter_eq_nil_iff.mpr fun metric hmetric hbucket => ?_
    have hof : bucketOf bucket.periodType metric = bucket := of_decide_eq_true hbucket
    obtain ⟨⟨time, command⟩, hcommand, hcaptured⟩ := List.mem_filterMap.mp hmetric
    have htime : metric.capturedAt = time := by
      cases command with
      | capture sample => exact (Option.some.inj hcaptured) ▸ rfl
      | rollup => cases hcaptured
      | prune => cases hcaptured
    have hle : now ≤ time := hlater _ hcommand
    have hlt := Nat.lt_div_mul_add (a := metric.capturedAt) bucket.periodType.seconds_pos
    have hstart : metric.capturedAt / bucket.periodType.seconds * bucket.periodType.seconds =
        bucket.periodStart := congrArg Bucket.periodStart hof
    rw [Bucket.stop] at hended
    omega
  rw [captured_append, samplesOf, List.filter_append]
  exact (congrArg _ hnone).trans (List.append_nil _)

theorem kept_of_neverCut (h : NeverCut σ steps) : Kept σ steps := by
  intro earlier now later bucket hrun hcomplete
  induction later using List.reverseRecOn with
  | nil =>
    intro _
    rw [run_append, ← hcomplete.all]
    exact rollupOf_rollup σ hcomplete.reads
  | append_singleton later command ih =>
    intro hunpruned
    rw [← List.cons_append, ← List.append_assoc] at hrun
    have hbefore : Unpruned σ later bucket :=
      fun now hprune => hunpruned now (List.mem_append_left _ hprune)
    have hrow := ih ((List.prefix_append _ _).trans hrun) hbefore
    rw [← List.cons_append, ← List.append_assoc, run_append, List.foldl_cons, List.foldl_nil]
    obtain ⟨time, command⟩ := command
    cases command with
    | capture metric => exact hrow
    | rollup =>
      by_cases hreads : Reads (run σ (earlier ++ (now, Command.rollup) :: later)) time bucket
      · rw [rollupOf_rollup σ hreads,
          h earlier now later time bucket hrun hcomplete hbefore hreads]
      · rw [rollupOf_rollup_of_not_reads σ hreads, hrow]
    | prune =>
      rw [rollupOf_prune (hunpruned time (List.mem_append_right _ (.head _))), hrow]

theorem neverCut_of_kept (hclock : steps.Pairwise fun a b => a.1 ≤ b.1) (h : Kept σ steps) :
    NeverCut σ steps := by
  intro earlier now later now' bucket hrun hcomplete hunpruned hreads
  have hwhole : earlier ++ (now, Command.rollup) :: (later ++ [(now', Command.rollup)]) <+:
      steps := by
    rw [← List.cons_append, ← List.append_assoc]
    exact hrun
  have hunpruned' : Unpruned σ (later ++ [(now', .rollup)]) bucket := by
    intro time htime
    rcases List.mem_append.mp htime with hlater | hlast
    · exact hunpruned time hlater
    · simp at hlast
  have hkept := h earlier now (later ++ [(now', .rollup)]) bucket hwhole hcomplete hunpruned'
  rw [← List.cons_append, ← List.append_assoc, run_append, List.foldl_cons, List.foldl_nil,
    rollupOf_rollup σ hreads] at hkept
  have hlength := congrArg QueueMetricsRollup.samples (Option.some.inj hkept)
  have hlater : ∀ command ∈ (now, Command.rollup) :: later, now ≤ command.1 := by
    have hpair := hclock.sublist (((List.prefix_append _ _).trans hrun).sublist)
    intro command hcommand
    rcases List.mem_cons.mp hcommand with rfl | hmem
    · exact Nat.le_refl _
    · exact (List.pairwise_cons.mp (List.pairwise_append.mp hpair).2.1).1 command hmem
  rw [← samplesOf_captured hcomplete.ended hlater] at hlength ⊢
  exact ((metrics_sublist σ _).filter _).eq_of_length hlength

/-- **The rollups of whole buckets are kept exactly if no bucket is found cut.** -/
theorem kept_iff (hclock : steps.Pairwise fun a b => a.1 ≤ b.1) :
    Kept σ steps ↔ NeverCut σ steps :=
  ⟨neverCut_of_kept hclock, kept_of_neverCut⟩

end Runs

/-! ## A day that is cut at noon -/

def sampleOf (depth : Int) : QueueMetric :=
  ⟨"redis".toList, "default".toList, depth, 0, none, none, 0⟩

/-- Two samples of a day, and the rollup at its end. -/
def wholeDay : Steps :=
  [(21600, .capture (sampleOf 10)), (64800, .capture (sampleOf 0)), (86400, .rollup)]

/-- A fortnight later the samples are pruned at noon, and rolled up again. -/
def cutDay : Steps := wholeDay ++ [(1252800, .prune), (1256400, .rollup)]

theorem kept_iff_wholeDay : Kept {} wholeDay ↔ NeverCut {} wholeDay := kept_iff (by decide)

/-- The row of the two samples becomes a row of one. -/
theorem kept_fails : ¬ ∀ (σ : Settings) (steps : Steps), σ.queueMetricsRetentionDays < 30 →
    steps.Pairwise (fun a b => a.1 ≤ b.1) → Kept σ steps := by
  intro hall
  have hkept := hall {} cutDay (by decide) (by decide)
  have hcomplete : Complete {} (wholeDay.take 2) 86400
      ⟨"redis".toList, "default".toList, .day, 0⟩ := by
    refine ⟨by decide, ⟨⟨by decide, fun _ => by decide⟩, by decide, by decide⟩, by decide⟩
  have hunpruned : Unpruned {} [(1252800, .prune), (1256400, .rollup)]
      ⟨"redis".toList, "default".toList, .day, 0⟩ := by
    intro now hprune
    have htime : now = 1252800 := by simpa using hprune
    rw [htime]
    decide
  have hrow := hkept _ _ _ _ (List.prefix_refl _) hcomplete hunpruned
  exact absurd hrow (by decide +kernel)

end ValidEmailVerifier.QueueMetricsRollupService
