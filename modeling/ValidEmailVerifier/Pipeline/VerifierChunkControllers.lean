/-
# `Pipeline.VerifierChunkControllers` — claim, complete and fail a chunk

The three requests an engine worker makes about a chunk, as functions of the row
they read.  When they read it and when they write it back is the business of
`Pipeline.Machine`: neither `complete` nor `fail` compares the claim token, and
both write what they computed from the row they loaded.
-/
import ValidEmailVerifier.Lib.Text
import ValidEmailVerifier.Pipeline.Settings

namespace ValidEmailVerifier

open Text

/-! ## `VerifierChunkClaimNextController` -/

namespace ClaimNext

/-- `worker_capability`. -/
inductive Capability where
  | screening | smtpProbe | all
  deriving DecidableEq, Repr

/-- The stage filter of the query. -/
def stageMatches : Capability → Chunk → Bool
  | .all, _ => true
  | .screening, chunk =>
      chunk.processingStage == some .screening || chunk.processingStage == none
  | .smtpProbe, chunk => chunk.processingStage == some .smtpProbe

/-- `COALESCE(retry_attempt, 0) < COALESCE(max_probe_attempts, 3)`, asked of the
probe stage only. -/
def attemptsLeft (chunk : Chunk) : Bool :=
  if chunk.processingStage = some .smtpProbe then
    decide (chunk.retryAttempt < chunk.maxProbeAttempts)
  else true

/-- The filters of `selectClaimableChunk`. -/
def isCandidate (now : Nat) (capability : Capability) (chunk : Chunk) : Bool :=
  chunk.status == .pending && stageMatches capability chunk &&
    chunk.availableAt.all (· ≤ now) && chunk.claimExpiresAt.all (· < now) &&
    attemptsLeft chunk

/-- The update of the selected chunk. -/
def claimed (now : Nat) (engineServer : Nat) (worker : Text) (leaseSeconds : Int)
    (token : Nat) (chunk : Chunk) : Chunk :=
  { chunk with
    status := .processing
    engineServerId := some engineServer
    assignedWorkerId := some worker
    claimedAt := some now
    claimExpiresAt := some (now + (max 1 leaseSeconds).toNat)
    claimToken := some token }

end ClaimNext

/-! ## `VerifierChunkCompleteController` -/

/-- The body of a completion request. -/
structure Payload where
  outputDisk : Option Disk
  keys : PerType Key
  emailCount : Option Nat
  counts : PerType (Option Nat)
  deriving DecidableEq, Repr

/-- A completion request with the chunk as it was loaded. -/
structure Request where
  chunk : Chunk
  payload : Payload
  deriving DecidableEq, Repr

namespace Request

/-- `$outputDisk`. -/
def outputDisk (r : Request) : Option Disk :=
  r.payload.outputDisk <|> r.chunk.outputDisk <|> r.chunk.inputDisk

/-- `$totalCount`. -/
def totalCount (r : Request) : Nat := r.payload.emailCount.getD r.chunk.emailCount

/-- `array_unique`: the first of equal entries stays. -/
def arrayUnique (ids : List Text) : List Text :=
  ids.foldl (fun seen id => if id ∈ seen then seen else seen ++ [id]) []

/-- `$lastWorkerIds`: the last five workers, this one included. -/
def lastWorkerIds (r : Request) : List Text :=
  let ids := arrayUnique
    ((r.chunk.lastWorkerIds.map trim).filter (fun id => id != [] && id != ['0']))
  let completedBy := trim (r.chunk.assignedWorkerId.getD [])
  if completedBy = [] then ids
  else
    let ids := arrayUnique (ids ++ [completedBy])
    ids.drop (ids.length - 5)

/-- `payloadMatches`: every field the payload gives is that of the chunk. -/
def payloadMatches (r : Request) : Bool :=
  (r.outputDisk.isNone || r.chunk.outputDisk == r.outputDisk) &&
    OutputType.all.all (fun t => r.chunk.keys.get t == some (r.payload.keys.get t)) &&
    r.payload.emailCount.all (· == r.chunk.emailCount) &&
    OutputType.all.all (fun t =>
      (r.payload.counts.get t).all (fun n => r.chunk.counts.get t == some n))

/-- The attributes of `$chunk->update([... 'status' => 'completed' ...])`. -/
def completed (r : Request) : Chunk :=
  { r.chunk with
    status := .completed
    outputDisk := r.outputDisk
    keys := r.payload.keys.map some
    emailCount := r.totalCount
    counts :=
      ⟨r.payload.counts.valid <|> r.chunk.counts.valid,
        r.payload.counts.invalid <|> r.chunk.counts.invalid,
        r.payload.counts.risky <|> r.chunk.counts.risky⟩
    claimedAt := none
    claimExpiresAt := none
    claimToken := none
    engineServerId := none
    assignedWorkerId := none
    lastWorkerIds := r.lastWorkerIds }

end Request

/-! ## `VerifierChunkFailController` -/

/-- `$nextStatus`. -/
def Chunk.nextStatus (σ : Settings) (chunk : Chunk) (retryable : Bool) : ChunkStatus :=
  if retryable && decide (((chunk.attempts + 1 : Nat) : Int) < σ.maxAttempts) then .pending
  else .failed

/-- The attributes of the failure's `$chunk->update([...])`. -/
def Chunk.failedAttempt (σ : Settings) (chunk : Chunk) (retryable : Bool) : Chunk :=
  { chunk with
    status := chunk.nextStatus σ retryable
    attempts := chunk.attempts + 1
    claimedAt := none
    claimExpiresAt := none
    claimToken := none
    engineServerId := none
    assignedWorkerId := none }

/-! ## `TempfailRetryPlanner`: the parent's last update -/

/-- The attributes of `$chunk->update(['risky_key' => $filteredKey, ...])`. -/
def Chunk.withFilteredRisky (chunk : Chunk) (riskyKey : Key) (filteredCount : Nat) : Chunk :=
  { chunk with
    keys := { chunk.keys with risky := some (.filteredRisky riskyKey) }
    counts := { chunk.counts with risky := some filteredCount }
    emailCount := chunk.counts.valid.getD 0 + chunk.counts.invalid.getD 0 + filteredCount }

end ValidEmailVerifier
