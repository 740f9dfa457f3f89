/-
# `Pipeline.FinalizeVerificationJob` — what a finalize run decides and writes

The decision is a function of the job row, loaded when the run starts, and of
the chunk rows, loaded after it; nothing in it asks whether parsing has
finished.
-/
import ValidEmailVerifier.Pipeline.VerificationResultsMerger

namespace ValidEmailVerifier.FinalizeVerificationJob

/-- What `handle` does before its `try` block. -/
inductive Decision where
  | stop
  | failJob
  | finalize
  deriving DecidableEq, Repr

/-- `$hasCached`. -/
def hasCached (job : Job) : Bool :=
  job.cachedKeys.valid.isSome || job.cachedKeys.invalid.isSome || job.cachedKeys.risky.isSome

/-- `$hasFinalKeys`. -/
def hasFinalKeys (job : Job) : Bool :=
  job.keys.valid.isSome && job.keys.invalid.isSome && job.keys.risky.isSome

/-- The early returns of `handle`. -/
def decision (job : Job) (chunks : List Chunk) : Decision :=
  if chunks.isEmpty && !hasCached job then .stop
  else if job.status == .completed && hasFinalKeys job then .stop
  else if job.status == .failed then .stop
  else if chunks.any (fun c => c.status == .failed) then .failJob
  else if chunks.any (fun c => c.status != .completed) then .stop
  else .finalize

/-- `$outputDisk`. -/
def outputDisk (σ : Settings) (job : Job) : Disk :=
  (job.outputDisk <|> job.inputDisk).getD σ.storageDisk

/-- `$job->total_emails ?: $totalFromCounts`. -/
def totalEmails (job : Job) (counts : PerType Nat) : Nat :=
  let total := job.totalEmails.getD 0
  if total = 0 then counts.valid + counts.invalid + counts.risky else total

/-- `$updatePayload`. -/
def completed (job : Job) (disk : Disk) (counts : PerType Nat) (now : Nat) : Job :=
  { job with
    status := .completed
    outputDisk := some disk
    keys := ⟨some (.finalResult .valid), some (.finalResult .invalid),
      some (.finalResult .risky)⟩
    outputKey := job.outputKey <|> some (.finalResult .valid)
    counts := counts.map some
    totalEmails := some (totalEmails job counts)
    finishedAt := some now
    errorMessage := none
    failureSource := none
    failureCode := none }

/-- `markJobFailed`. -/
def failed (job : Job) (message : String) (now : Nat) : Job :=
  { job with
    status := .failed
    finishedAt := some now
    errorMessage := some message
    failureSource := some "engine" }

/-- A run goes on to merge only when every chunk it saw was completed. -/
theorem completed_of_finalize {job : Job} {chunks : List Chunk}
    (h : decision job chunks = .finalize) : ∀ c ∈ chunks, c.status = .completed := by
  intro c hc
  unfold decision at h
  split at h
  · exact nomatch h
  split at h
  · exact nomatch h
  split at h
  · exact nomatch h
  split at h
  · exact nomatch h
  split at h
  · exact nomatch h
  next hall =>
    by_contra hne
    exact hall (List.any_eq_true.mpr ⟨c, hc, by simpa using hne⟩)

end ValidEmailVerifier.FinalizeVerificationJob
