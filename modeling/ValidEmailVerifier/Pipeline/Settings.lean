/-
# `Pipeline.Settings` — what the pipeline reads from `EngineSettings` and `config`

The values as the accessors return them, with the accessors' own clamping left
to the places that read them.  They live in the database and in the
environment, so they may change between any two steps of a run.
-/
import ValidEmailVerifier.Pipeline.Schema

namespace ValidEmailVerifier

/-- `cache_failure_mode`. -/
inductive CacheFailureMode where
  | failJob | treatMiss | skipCache
  deriving DecidableEq, Repr

structure Settings where
  /-- `JobStorage::disk()`. -/
  storageDisk : Disk := "local"
  enginePaused : Bool := false
  maxAttempts : Int := 3
  /-- `SmtpProbeStage::evaluate()['enabled']`. -/
  probeStageEnabled : Bool := false
  probeMaxAttempts : Int := 3
  probeShardingEnabled : Bool := true
  probeShardTargetSize : Int := 1000
  probeShardMinSize : Int := 200
  probeShardMaxSize : Int := 2000
  /-- `engine.probe_preferred_pools`, in its array form. -/
  probePreferredPools : List (Text × Text) := []
  screeningHardInvalidReasons : List Text := ["syntax".toList, "mx_missing".toList]
  tempfailRetryEnabled : Bool := false
  tempfailRetryMaxAttempts : Int := 2
  tempfailRetryBackoffMinutes : List Nat := [10, 30, 60]
  tempfailRetryReasons : List Text :=
    ["smtp_tempfail".toList, "smtp_timeout".toList, "smtp_connect_timeout".toList,
      "dns_timeout".toList, "dns_servfail".toList]
  chunkSizeDefault : Int := 5000
  maxEmailsPerUpload : Int := 100000
  cacheBatchSize : Int := 100
  cacheOnlyEnabled : Bool := false
  cacheOnlyMissStatus : Text := "risky".toList
  cacheFailureMode : CacheFailureMode := .failJob
  cacheWritebackTestEnabled : Bool := false
  /-- `catch_all_policy` is `promote_if_score_gte`. -/
  catchAllPromote : Bool := false
  catchAllPromoteThreshold : Option Int := none
  scoreBase : PerType Int := ⟨90, 10, 55⟩
  scoreReasonOverrides : List (Text × Int) :=
    [("smtp_connect_ok".toList, 95), ("rcpt_ok".toList, 95), ("syntax".toList, 5),
      ("mx_missing".toList, 10), ("rcpt_rejected".toList, 10),
      ("smtp_unavailable".toList, 10), ("catch_all".toList, 55),
      ("disposable_domain".toList, 40), ("role_account".toList, 65),
      ("domain_typo_suspected".toList, 50), ("smtp_timeout".toList, 45),
      ("smtp_connect_timeout".toList, 45), ("smtp_tempfail".toList, 40),
      ("dns_timeout".toList, 45), ("dns_servfail".toList, 40)]
  scoreSubStatusCaps : List (Text × Int) := [("catch_all".toList, 80)]
  scoreCacheAdjustments : List (Text × Int) :=
    [("valid".toList, 10), ("invalid".toList, -30), ("risky".toList, -10)]
  deriving DecidableEq, Repr

/-- `max(1, (int) config('engine.probe_max_attempts', 3))`. -/
def Settings.probeAttempts (σ : Settings) : Nat := (max 1 σ.probeMaxAttempts).toNat

/-- The functions of PHP's library whose results the pipeline treats as given:
`filter_var($email, FILTER_VALIDATE_EMAIL)` and `sha1`. -/
structure Php where
  filterVarEmail : Text → Bool
  sha1 : Text → Text

end ValidEmailVerifier
