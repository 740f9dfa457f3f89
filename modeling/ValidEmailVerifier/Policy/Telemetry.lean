/-
# `Policy.Telemetry` — the rates that a worker reports for a provider

A worker counts the rows of the probe chunks it has completed, by provider, and reports the
share of those that failed for a while, were rejected or remained unknown.  The alert service
sets the mode of a provider by the average of these rates; and by the mode a worker decides
whether it probes the rows of a chunk at all, or answers every one of them with unknown.

The telemetry counts the rows of both kinds of chunk alike.  As long as every row of a chunk
has had an attempt, the rates are those of the attempted rows, and so is what the alert
service makes of them.  A chunk that is answered without a probe changes the rates, unless it
has no rows or nothing but unknown rows has been counted before it (`determined_of_probed`).

Rates are exact; the counters do not overflow.
-/
import Mathlib.Tactic.FieldSimp
import Mathlib.Tactic.Ring
import ValidEmailVerifier.Pipeline.ReasonEvidence
import ValidEmailVerifier.Policy.ProviderHealth

namespace ValidEmailVerifier.Policy

open GoStrings Transition Worker

/-! ## The rows of a chunk -/

def baseReasonOnly (reason : Text) : Text :=
  let normalized := trimSpace reason
  if normalized = [] then "unknown".toList
  else
    let base := trimSpace (normalized.takeWhile (· ≠ ':'))
    if base = [] then "unknown".toList else base

/-- What the telemetry reads of `chunkOutputs`. -/
structure ChunkCounts where
  emailCount : Nat
  invalidCount : Nat
  riskyCount : Nat
  /-- `ReasonCounts["smtp_tempfail"]`. -/
  tempfailCount : Nat
  deriving DecidableEq

/-- The counters of `buildOutputs`.  What is neither invalid nor valid is risky. -/
def chunkCounts (verify : Text → VerifierResult)
    (probeAttemptChainEnabled unknownReasonTaxonomyEnabled : Bool) (rows : List Text) :
    ChunkCounts where
  emailCount := rows.length
  invalidCount := rows.countP fun row => (verify row).category = "invalid".toList
  riskyCount := rows.countP fun row =>
    (verify row).category ≠ "invalid".toList ∧ (verify row).category ≠ "valid".toList
  tempfailCount := rows.countP fun row =>
    baseReasonOnly (reasonWithEvidence (verify row) probeAttemptChainEnabled
      unknownReasonTaxonomyEnabled) = "smtp_tempfail".toList

/-! ## Whether a chunk is probed -/

structure ClaimedChunk where
  processingStage : Text
  routingProvider : Text
  input : File

/-- What a worker has at hand when it processes a chunk. -/
structure ProbeSettings where
  workerCapability : Text := "all".toList
  trustTier : Text := []
  /-- The policy of the enhanced mode, if the policies have been loaded. -/
  policyEnabled : Option Bool := some true
  enhancedModeEnabled : Bool := true
  baseMailFromAddress : Text := "verify@example.org".toList
  mailFromAddress : Text := []
  /-- The modes by provider, if there are any; those of others are empty. -/
  providerModes : Option (Text → Text) := none
  probeAttemptChainEnabled : Bool := false
  unknownReasonTaxonomyEnabled : Bool := false
  /-- The verdicts of `verifierForMode`. -/
  verifierForMode : Text → VerifierResult

/-- The stage is `smtp_probe`; otherwise it is `screening`. -/
def isSmtpProbe (processingStage : Text) : Bool :=
  toLower (trimSpace processingStage) = "smtp_probe".toList

def normalizeProviderForRuntime (value : Text) : Provider :=
  (normalizeProviderName value).getD .generic

namespace ProbeSettings

def canProcessStage (s : ProbeSettings) (smtpProbe : Bool) : Bool :=
  let capability := toLower (trimSpace s.workerCapability)
  if capability = "screening".toList then !smtpProbe
  else if capability = "smtp_probe".toList then smtpProbe
  else true

def isTrustedProbeWorker (s : ProbeSettings) : Bool :=
  toLower (trimSpace s.trustTier) ∈ ["trusted".toList, "premium".toList, "high".toList]

def enhancedAllowed (s : ProbeSettings) : Bool :=
  s.policyEnabled.any fun enabled => s.enhancedModeEnabled && enabled

def hasMailFromIdentity (s : ProbeSettings) : Bool :=
  s.baseMailFromAddress ≠ [] ∨ s.mailFromAddress ≠ []

def providerModeForRuntime (s : ProbeSettings) (provider : Provider) : ProviderMode :=
  match s.providerModes with
  | none => .normal
  | some modes =>
      let mode := toLower (trimSpace (modes provider.name))
      if mode = "cautious".toList then .cautious
      else if mode = "drain".toList then .drain
      else if mode = "quarantine".toList then .quarantine
      else if mode = "degraded_probe".toList then .degradedProbe
      else .normal

/-- The reason of the static verifier, when a probe chunk is not to be probed. -/
def skipReason (s : ProbeSettings) (routingProvider : Text) : Option Text :=
  let providerMode := s.providerModeForRuntime (normalizeProviderForRuntime routingProvider)
  if providerMode = .quarantine ∨ providerMode = .drain then
    some "smtp_probe_quarantine_mode".toList
  else if providerMode = .degradedProbe ∧ s.isTrustedProbeWorker = false then
    some "smtp_probe_degraded_mode".toList
  else if s.enhancedAllowed = false then some "smtp_probe_disabled".toList
  else if s.hasMailFromIdentity = false then some "smtp_probe_identity_missing".toList
  else none

end ProbeSettings

/-- `staticRiskyVerifier`. -/
def staticRisky (reason : Text) : VerifierResult :=
  { category := "risky".toList
    reason := if trimSpace reason = [] then "smtp_tempfail".toList else trimSpace reason
    decisionClass := "unknown".toList }

/-- `engineVerifier`. -/
def engineVerifier (s : ProbeSettings) (chunk : ClaimedChunk) : Text → VerifierResult :=
  match if isSmtpProbe chunk.processingStage then s.skipReason chunk.routingProvider else none with
  | some reason => fun _ => staticRisky reason
  | none => s.verifierForMode

/-- There has been an attempt at a session for the row: every attempt leaves its evidence in
the chain. -/
def attempted (s : ProbeSettings) (chunk : ClaimedChunk) (row : Text) : Bool :=
  (engineVerifier s chunk row).attemptChain ≠ []

/-! ## The counters -/

structure ProviderCounters where
  processed : Nat := 0
  tempfail : Nat := 0
  reject : Nat := 0
  unknown : Nat := 0
  deriving DecidableEq

abbrev Telemetry := Provider → ProviderCounters

def ProviderCounters.add (c : ProviderCounters) (outputs : ChunkCounts) : ProviderCounters where
  processed := c.processed + outputs.emailCount
  tempfail := c.tempfail + outputs.tempfailCount
  reject := c.reject + outputs.invalidCount
  unknown := c.unknown + outputs.riskyCount

/-- The part of a probe chunk. -/
def recordChunkSuccess (t : Telemetry) (routingProvider : Text) (outputs : ChunkCounts) :
    Telemetry :=
  let providerName := normalizeProviderForRuntime routingProvider
  Function.update t providerName ((t providerName).add outputs)

/-- A chunk is recorded for its provider when it is a probe chunk that the worker may process,
and every call it takes to complete it has succeeded. -/
def recorded (s : ProbeSettings) (delivered : Bool) (chunk : ClaimedChunk) : Bool :=
  s.canProcessStage (isSmtpProbe chunk.processingStage) && delivered &&
    isSmtpProbe chunk.processingStage

/-- `processChunk`, as far as the counters of the providers go, on some of the rows. -/
def processRows (s : ProbeSettings) (delivered : Bool) (chunk : ClaimedChunk) (rows : List Text)
    (t : Telemetry) : Telemetry :=
  if recorded s delivered chunk then
    recordChunkSuccess t chunk.routingProvider
      (chunkCounts (engineVerifier s chunk) s.probeAttemptChainEnabled
        s.unknownReasonTaxonomyEnabled rows)
  else t

def processChunk (s : ProbeSettings) (delivered : Bool) (chunk : ClaimedChunk) (t : Telemetry) :
    Telemetry := processRows s delivered chunk (lines chunk.input) t

/-- The share of the rows that failed for a while, were rejected, remained unknown. -/
def ProviderCounters.rates (c : ProviderCounters) : Option (ℚ × ℚ × ℚ) :=
  if c.processed = 0 then none
  else some (c.tempfail / c.processed, c.reject / c.processed, c.unknown / c.processed)

/-- The provider metrics of `snapshot`. -/
def snapshot (t : Telemetry) : List (ProviderRates ℚ) :=
  Provider.all.filterMap fun provider =>
    (t provider).rates.map fun rates => ⟨provider.name, rates.1, rates.2.1, rates.2.2⟩

/-! ## The loop -/

/-- The telemetry of the workers, the metrics they have sent, and the modes of the providers;
and beside them the telemetry of the attempted rows alone. -/
structure Probing where
  telemetry : Text → Telemetry := fun _ _ => {}
  attempted : Text → Telemetry := fun _ _ => {}
  reported : Text → List (ProviderRates ℚ) := fun _ => []
  reportedAttempted : Text → List (ProviderRates ℚ) := fun _ => []
  modes : ProviderModes := fun _ => none

inductive ProbeAct where
  | chunk (worker : Text) (s : ProbeSettings) (delivered : Bool) (chunk : ClaimedChunk)
  | heartbeat (worker : Text)
  /-- A check of the alert service, which finds some workers online. -/
  | check (c : HealthCheck ℚ) (online : List Text)
  /-- Somebody else sets or clears the mode of a provider. -/
  | setMode (provider : Provider) (state : Option ProviderModeState)

/-- The check, on the metrics of the workers that are online. -/
def onMetrics (c : HealthCheck ℚ) (metrics : Text → List (ProviderRates ℚ))
    (online : List Text) : HealthCheck ℚ := { c with workers := some (online.map metrics) }

def Probing.act (q : Probing) : ProbeAct → Probing
  | .chunk worker s delivered chunk =>
      { q with
        telemetry := Function.update q.telemetry worker
          (processChunk s delivered chunk (q.telemetry worker))
        attempted := Function.update q.attempted worker
          (processRows s delivered chunk
            ((lines chunk.input).filter (Policy.attempted s chunk)) (q.attempted worker)) }
  | .heartbeat worker =>
      { q with
        reported := Function.update q.reported worker (snapshot (q.telemetry worker))
        reportedAttempted := Function.update q.reportedAttempted worker
          (snapshot (q.attempted worker)) }
  | .check c online => { q with modes := (onMetrics c q.reported online).apply q.modes }
  | .setMode provider state => { q with modes := Function.update q.modes provider state }

def probing : System Probing ProbeAct where
  step q a := some (q.act a)

/-- The rates are those of the attempted rows, and so are the modes that the autoprotect sets
by them. -/
structure Determined (q : Probing) : Prop where
  rates : ∀ worker, snapshot (q.telemetry worker) = snapshot (q.attempted worker)
  autoprotect : ∀ (c : HealthCheck ℚ) (online : List Text) (provider : Provider),
    (onMetrics c q.reported online).writes q.modes provider =
      (onMetrics c q.reportedAttempted online).writes q.modes provider

/-- Every row that is counted has had an attempt. -/
def Probed (_ : Probing) : ProbeAct → Prop
  | .chunk _ s delivered chunk =>
      recorded s delivered chunk = true → ∀ row ∈ lines chunk.input,
        Policy.attempted s chunk row = true
  | _ => True

instance (q : Probing) : DecidablePred (Probed q)
  | .chunk _ s delivered chunk => inferInstanceAs (Decidable (recorded s delivered chunk = true →
      ∀ row ∈ lines chunk.input, Policy.attempted s chunk row = true))
  | .heartbeat _ => isTrue trivial
  | .check _ _ => isTrue trivial
  | .setMode _ _ => isTrue trivial

/-! ## A chunk without a probe -/

/-- The reasons of the static verifier are none of a session. -/
theorem baseReasonOnly_staticRisky {s : ProbeSettings} {routingProvider reason : Text}
    (h : s.skipReason routingProvider = some reason) (chain taxonomy : Bool) :
    baseReasonOnly (reasonWithEvidence (staticRisky reason) chain taxonomy) ≠
      "smtp_tempfail".toList := by
  have hreason : reason ∈ ["smtp_probe_quarantine_mode".toList, "smtp_probe_degraded_mode".toList,
      "smtp_probe_disabled".toList, "smtp_probe_identity_missing".toList] := by
    rw [ProbeSettings.skipReason] at h
    split_ifs at h
    all_goals
      obtain rfl := Option.some.inj h
      simp only [List.mem_cons, true_or, or_true]
  have hall : ∀ reason ∈ ["smtp_probe_quarantine_mode".toList,
      "smtp_probe_degraded_mode".toList, "smtp_probe_disabled".toList,
      "smtp_probe_identity_missing".toList], ∀ chain taxonomy : Bool,
      baseReasonOnly (reasonWithEvidence (staticRisky reason) chain taxonomy) ≠
        "smtp_tempfail".toList := by decide +kernel
  exact hall reason hreason chain taxonomy

/-- All its rows are unknown. -/
theorem chunkCounts_skipped {s : ProbeSettings} {chunk : ClaimedChunk} {reason : Text}
    (hstage : isSmtpProbe chunk.processingStage = true)
    (hskip : s.skipReason chunk.routingProvider = some reason) (rows : List Text) :
    chunkCounts (engineVerifier s chunk) s.probeAttemptChainEnabled
      s.unknownReasonTaxonomyEnabled rows = ⟨rows.length, 0, rows.length, 0⟩ := by
  have hverify : engineVerifier s chunk = fun _ => staticRisky reason := by
    rw [engineVerifier, if_pos hstage, hskip]
  have hreason := baseReasonOnly_staticRisky hskip s.probeAttemptChainEnabled
    s.unknownReasonTaxonomyEnabled
  have hinvalid : (staticRisky reason).category ≠ "invalid".toList := by
    show "risky".toList ≠ _
    decide
  have hvalid : (staticRisky reason).category ≠ "valid".toList := by
    show "risky".toList ≠ _
    decide
  rw [hverify, chunkCounts, ChunkCounts.mk.injEq]
  refine ⟨rfl, ?_, ?_, ?_⟩
  · exact List.countP_eq_zero.mpr fun _ _ h => hinvalid (of_decide_eq_true h)
  · exact List.countP_eq_length.mpr fun _ _ => decide_eq_true ⟨hinvalid, hvalid⟩
  · exact List.countP_eq_zero.mpr fun _ _ h => hreason (of_decide_eq_true h)

/-- Rows have been counted, and all of them as unknown. -/
structure ProviderCounters.Saturated (c : ProviderCounters) : Prop where
  processed : 0 < c.processed
  tempfail : c.tempfail = 0
  reject : c.reject = 0
  unknown : c.unknown = c.processed

/-- A share of nothing or of all stays what it is when rows are added, and no other does. -/
theorem share_add_eq (part new : Nat) {whole more : Nat} (hwhole : 0 < whole) (hmore : 0 < more) :
    ((part + new : Nat) : ℚ) / ((whole + more : Nat) : ℚ) = (part : ℚ) / (whole : ℚ) ↔
      new * whole = part * more := by
  have hw : (whole : ℚ) ≠ 0 := Nat.cast_ne_zero.mpr (by omega)
  have hsum : ((whole + more : Nat) : ℚ) ≠ 0 := Nat.cast_ne_zero.mpr (by omega)
  rw [div_eq_div_iff hsum hw, ← Nat.cast_mul, ← Nat.cast_mul, Nat.cast_inj, Nat.add_mul,
    Nat.mul_add]
  omega

/-- Unknown rows change the rates, unless all the rows before them were unknown. -/
theorem rates_add_skipped (c : ProviderCounters) (rows : Nat) :
    (c.add ⟨rows, 0, rows, 0⟩).rates = c.rates ↔ rows = 0 ∨ c.Saturated := by
  rcases Nat.eq_zero_or_pos rows with rfl | hrows
  · exact ⟨fun _ => .inl rfl, fun _ => rfl⟩
  rcases Nat.eq_zero_or_pos c.processed with hzero | hprocessed
  · have hnone : c.rates = none := if_pos hzero
    have hsome : (c.add ⟨rows, 0, rows, 0⟩).rates ≠ none := by
      have hne : (c.add ⟨rows, 0, rows, 0⟩).processed ≠ 0 := by
        show c.processed + rows ≠ 0
        omega
      rw [ProviderCounters.rates, if_neg hne]
      exact Option.some_ne_none _
    rw [hnone]
    refine ⟨fun h => absurd h hsome, fun h => ?_⟩
    rcases h with h | h
    · omega
    · exact absurd h.processed (by omega)
  · rw [ProviderCounters.rates, ProviderCounters.rates,
      if_neg (show (c.add ⟨rows, 0, rows, 0⟩).processed ≠ 0 from
        (show c.processed + rows ≠ 0 by omega)),
      if_neg (show c.processed ≠ 0 by omega), Option.some_inj, Prod.mk.injEq, Prod.mk.injEq]
    have htempfail := share_add_eq c.tempfail 0 hprocessed hrows
    have hreject := share_add_eq c.reject 0 hprocessed hrows
    have hunknown := share_add_eq c.unknown rows hprocessed hrows
    rw [show (c.add ⟨rows, 0, rows, 0⟩).processed = c.processed + rows from rfl,
      show (c.add ⟨rows, 0, rows, 0⟩).tempfail = c.tempfail + 0 from rfl,
      show (c.add ⟨rows, 0, rows, 0⟩).reject = c.reject + 0 from rfl,
      show (c.add ⟨rows, 0, rows, 0⟩).unknown = c.unknown + rows from rfl,
      htempfail, hreject, hunknown]
    constructor
    · rintro ⟨ht, hr, hu⟩
      refine .inr ⟨hprocessed, ?_, ?_, ?_⟩
      · exact (Nat.mul_eq_zero.mp (ht.symm.trans (Nat.zero_mul _))).resolve_right (by omega)
      · exact (Nat.mul_eq_zero.mp (hr.symm.trans (Nat.zero_mul _))).resolve_right (by omega)
      · rw [Nat.mul_comm] at hu
        exact (Nat.eq_of_mul_eq_mul_right hrows hu).symm
    · rintro (h | h)
      · omega
      · rw [h.tempfail, h.reject, h.unknown]
        exact ⟨by omega, by omega, Nat.mul_comm ..⟩

/-- The rates of the provider of a chunk that is answered without a probe. -/
theorem rates_processChunk_skipped {s : ProbeSettings} {chunk : ClaimedChunk}
    (hrecorded : recorded s true chunk = true)
    (hskip : (s.skipReason chunk.routingProvider).isSome = true) (t : Telemetry) :
    (processChunk s true chunk t (normalizeProviderForRuntime chunk.routingProvider)).rates =
        (t (normalizeProviderForRuntime chunk.routingProvider)).rates ↔
      lines chunk.input = [] ∨
        (t (normalizeProviderForRuntime chunk.routingProvider)).Saturated := by
  obtain ⟨reason, hreason⟩ := Option.isSome_iff_exists.mp hskip
  have hstage : isSmtpProbe chunk.processingStage = true := (Bool.and_eq_true_iff.mp hrecorded).2
  rw [processChunk, processRows, if_pos hrecorded, chunkCounts_skipped hstage hreason,
    recordChunkSuccess, Function.update_self, rates_add_skipped, List.length_eq_zero_iff]

/-! ## Runs in which every row is attempted -/

/-- The two telemetries are one. -/
structure OneTelemetry (q : Probing) : Prop where
  telemetry : q.telemetry = q.attempted
  reported : q.reported = q.reportedAttempted

theorem oneTelemetry_step (q : Probing) (a : ProbeAct) (q' : Probing) (h : OneTelemetry q)
    (hC : Probed q a) (hs : probing.step q a = some q') : OneTelemetry q' := by
  obtain rfl := Option.some.inj hs
  cases a with
  | chunk worker s delivered chunk =>
    refine ⟨?_, h.reported⟩
    show Function.update q.telemetry worker _ = Function.update q.attempted worker _
    have hrows : processChunk s delivered chunk = processRows s delivered chunk
        ((lines chunk.input).filter (Policy.attempted s chunk)) := by
      funext t
      rw [processChunk, processRows, processRows]
      by_cases hrecorded : recorded s delivered chunk = true
      · rw [List.filter_eq_self.mpr (hC hrecorded)]
      · rw [if_neg hrecorded, if_neg hrecorded]
    rw [hrows, h.telemetry]
  | heartbeat worker =>
    refine ⟨h.telemetry, ?_⟩
    show Function.update q.reported worker _ = Function.update q.reportedAttempted worker _
    rw [h.reported, h.telemetry]
  | check c online => exact ⟨h.telemetry, h.reported⟩
  | setMode provider state => exact ⟨h.telemetry, h.reported⟩

/-- **As long as every row that is counted has had an attempt, the rates and the modes that
the autoprotect sets are those of the attempted rows; and a chunk that is answered without a
probe leaves the rates as they are exactly if it has no rows, or all that was counted before
it is unknown.** -/
theorem determined_of_probed (q : Probing) :
    (probing.Reaches Probed {} q → Determined q) ∧
    (probing.Reaches Always {} q → ∀ worker (s : ProbeSettings) (chunk : ClaimedChunk),
      recorded s true chunk = true → (s.skipReason chunk.routingProvider).isSome = true →
      let provider := normalizeProviderForRuntime chunk.routingProvider
      ((processChunk s true chunk (q.telemetry worker) provider).rates =
          (q.telemetry worker provider).rates ↔
        lines chunk.input = [] ∨ (q.telemetry worker provider).Saturated)) := by
  constructor
  · intro hq
    have hone : OneTelemetry q := hq.invariant ⟨rfl, rfl⟩ oneTelemetry_step
    refine ⟨fun worker => ?_, fun c online provider => ?_⟩
    · rw [hone.telemetry]
    · rw [hone.reported]
  · intro _ worker s chunk hrecorded hskip
    exact rates_processChunk_skipped hrecorded hskip (q.telemetry worker)

/-- Every address is probed; `u@example.org` remains unknown, and all others are valid. -/
def probingSettings (mode : Text) : ProbeSettings :=
  { providerModes := some fun _ => mode
    verifierForMode := fun row =>
      { category := if row = "u@example.org".toList then "risky".toList else "valid".toList
        reason := "smtp".toList
        attemptChain := [91, 93] } }

def gmailChunk (rows : List String) : ClaimedChunk :=
  { processingStage := "smtp_probe".toList
    routingProvider := "gmail".toList
    input := rows.map fun row => [row.toList] }

/-- Half of the rows unknown is critical. -/
def halfUnknown : HealthCheck ℚ :=
  { thresholds := ⟨1, 1, 1, 1, 2 / 5, 1 / 2⟩
    workers := none }

theorem determined_of_probed_half :
    (∃ q, probing.Reaches Probed {} q ∧ Determined q ∧ q.modes .gmail = some ⟨.drain, .autoprotect⟩)
      ∧ (((processChunk (probingSettings "drain".toList) true (gmailChunk ["a@example.org"])
            fun _ => {}) .gmail).rates = ({} : ProviderCounters).rates ↔
          lines (gmailChunk ["a@example.org"]).input = [] ∨ ({} : ProviderCounters).Saturated) := by
  constructor
  · let q := probing.final Probed {}
      [.chunk "w1".toList (probingSettings []) true (gmailChunk ["u@example.org", "a@example.org"]),
        .heartbeat "w1".toList, .check halfUnknown ["w1".toList]]
    have hq : probing.Reaches Probed {} q := System.reaches_final (by decide +kernel)
    exact ⟨q, hq, (determined_of_probed q).1 hq, by decide +kernel⟩
  · exact (determined_of_probed {}).2 .refl "w1".toList (probingSettings "drain".toList)
      (gmailChunk ["a@example.org"]) (by decide +kernel) (by decide +kernel)

/-- A provider is kept in `drain` for the rows that have not been probed because of it: of the
rows that have been attempted, behind those of a chunk that was under way, a quarter is
unknown. -/
theorem drain_feeds_itself :
    ∃ q, probing.Reaches Always {} q ∧ q.modes .gmail = some ⟨.drain, .autoprotect⟩ ∧
      (snapshot (q.telemetry "w1".toList)).map (·.unknownRate) = [5 / 8] ∧
      (snapshot (q.attempted "w1".toList)).map (·.unknownRate) = [1 / 4] ∧
      (onMetrics halfUnknown q.reported ["w1".toList]).writes q.modes .gmail = none ∧
      (onMetrics halfUnknown q.reportedAttempted ["w1".toList]).writes q.modes .gmail =
        some .normal := by
  let q := probing.final Always {}
    [.chunk "w1".toList (probingSettings []) true (gmailChunk ["u@example.org", "a@example.org"]),
      .heartbeat "w1".toList, .check halfUnknown ["w1".toList],
      .chunk "w1".toList (probingSettings []) true (gmailChunk ["b@example.org", "c@example.org"]),
      .chunk "w1".toList (probingSettings "drain".toList) true
        (gmailChunk ["d@example.org", "e@example.org", "f@example.org", "g@example.org"]),
      .heartbeat "w1".toList]
  refine ⟨q, System.reaches_final ?_, ?_, ?_, ?_, ?_, ?_⟩
  · decide +kernel
  · decide +kernel
  · decide +kernel
  · decide +kernel
  · decide +kernel
  · decide +kernel

end ValidEmailVerifier.Policy
