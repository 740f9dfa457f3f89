/-
# `Pipeline.TempfailRetryPlanner` — splitting a risky output

What `TempfailRetryPlanner` computes from the rows it reads and the chunk it is
given; the effects it has on storage and on the chunk table are instructions of
`Pipeline.Machine`.

The law of the split is `split_emails`: of the addresses in the risky file,
those that are kept in the filtered file and those that are queued for a retry
are together exactly the ones there were.
-/
import ValidEmailVerifier.Lib.Text
import ValidEmailVerifier.Pipeline.Settings

namespace ValidEmailVerifier.TempfailRetryPlanner

open Text

/-- `parseLine`: the address and the reason of a record, in the two-column form
of the workers or the five-column form of a final output. -/
def parseLine (columns : Record) : Text × Text :=
  let email := trim (columns[0]?.getD [])
  let reason :=
    if 5 ≤ columns.length ∧
        (OutputType.ofName? (strtolower (columns[1]?.getD []))).isSome then
      trim (columns[4]?.getD [])
    else trim (columns[1]?.getD [])
  (email, reason)

/-- `isRetryReason`: the reason without its evidence is one to retry. -/
def isRetryReason (reason : Text) (retryReasons : List Text) : Bool :=
  let reason := strtolower (trim reason)
  if reason = [] then false else retryReasons.contains (before ':' reason)

/-- The record names an address: rows that do not are dropped. -/
def hasEmail (line : Record) : Bool :=
  let email := (parseLine line).1
  email != [] && email.contains '@'

/-- The record is queued for a retry. -/
def isRetry (retryReasons : List Text) (line : Record) : Bool :=
  isRetryReason (parseLine line).2 retryReasons

/-- The loop over the risky file: the filtered rows and the addresses to retry. -/
def split (retryReasons : List Text) : File → File × List Text
  | [] => ([], [])
  | line :: rest =>
      let (filtered, retry) := split retryReasons rest
      if hasEmail line then
        if isRetry retryReasons line then (filtered, (parseLine line).1 :: retry)
        else (line :: filtered, retry)
      else (filtered, retry)

/-- `filteredRiskyKey`. -/
def filteredRiskyKey (key : Key) : Key := .filteredRisky key

/-- The attempt limit `plan` stops at: the chunk's own, or the configured one
when the chunk has none. -/
def maxAttempts (σ : Settings) (chunk : Chunk) : Int :=
  if 0 < chunk.maxProbeAttempts then chunk.maxProbeAttempts else σ.tempfailRetryMaxAttempts

/-- The checks `plan` makes before it reads the risky file. -/
def enabledFor (σ : Settings) (chunk : Chunk) : Bool :=
  σ.tempfailRetryEnabled && decide ((chunk.retryAttempt : Int) < maxAttempts σ chunk) &&
    chunk.keys.risky.isSome && !σ.tempfailRetryReasons.isEmpty

/-- `backoffForAttempt`, in minutes: the schedule's entry, its last one past the
end, and ten minutes where that is zero or the schedule is empty. -/
def backoffForAttempt (schedule : List Nat) (attempt : Nat) : Nat :=
  let minutes := schedule[attempt - 1]?.getD (schedule.getLast?.getD 10)
  if minutes = 0 then 10 else minutes

/-- The row `createRetryChunk` inserts.  `chunk` is the parent as `plan` was
given it, and `max_probe_attempts` is copied from it. -/
def retryChunk (chunk : Chunk) (id chunkNo : Nat) (inputDisk : Disk) (retryCount : Nat)
    (availableAt now : Nat) : Chunk where
  id := id
  chunkNo := chunkNo
  status := .pending
  processingStage := some .smtpProbe
  sourceStage := some .smtpProbe
  parentChunkId := some chunk.id
  routingProvider := chunk.routingProvider
  routingDomain := chunk.routingDomain
  preferredPool := chunk.preferredPool
  rotationGroupId := chunk.rotationGroupId
  lastWorkerIds := chunk.lastWorkerIds
  maxProbeAttempts := chunk.maxProbeAttempts
  inputDisk := some inputDisk
  inputKey := .chunkInput chunkNo
  emailCount := retryCount
  retryAttempt := chunk.retryAttempt + 1
  retryParentId := some chunk.id
  availableAt := some availableAt
  createdAt := now

/-! ## The split loses and repeats nothing -/

/-- The addresses of the rows `plan` looks at. -/
def emails (file : File) : List Text :=
  (file.filter hasEmail).map (fun line => (parseLine line).1)

theorem split_filtered (retryReasons : List Text) (file : File) :
    (split retryReasons file).1 =
      file.filter (fun line => hasEmail line && !isRetry retryReasons line) := by
  induction file with
  | nil => rfl
  | cons line rest ih =>
      cases h : hasEmail line with
      | false => simp [split, h, ih]
      | true =>
          cases hr : isRetry retryReasons line with
          | false => simp [split, h, hr, ih]
          | true => simp [split, h, hr, ih]

/-- The filtered rows keep their addresses. -/
theorem emails_filtered (retryReasons : List Text) (file : File) :
    emails (split retryReasons file).1 =
      ((file.filter hasEmail).filter (fun line => !isRetry retryReasons line)).map
        (fun line => (parseLine line).1) := by
  rw [split_filtered, emails, List.filter_filter, List.filter_filter]
  congr 1
  refine List.filter_congr fun line _ => ?_
  cases hasEmail line <;> simp

theorem split_retry (retryReasons : List Text) (file : File) :
    (split retryReasons file).2 =
      ((file.filter hasEmail).filter (isRetry retryReasons)).map
        (fun line => (parseLine line).1) := by
  induction file with
  | nil => rfl
  | cons line rest ih =>
      cases h : hasEmail line with
      | false => simp [split, h, ih]
      | true =>
          cases hr : isRetry retryReasons line with
          | false => simp [split, h, hr, ih]
          | true => simp [split, h, hr, ih]

/-- **The split conserves addresses.** -/
theorem split_emails (retryReasons : List Text) (file : File) :
    (emails file).Perm
      (emails (split retryReasons file).1 ++ (split retryReasons file).2) := by
  rw [emails_filtered, split_retry, emails, ← List.map_append]
  refine List.Perm.map _ ?_
  have := List.filter_append_perm (isRetry retryReasons) (file.filter hasEmail)
  exact (this.symm).trans List.perm_append_comm

example : split ["smtp_tempfail".toList]
    [["email".toList, "reason".toList], ["a@b.c".toList, "smtp_tempfail:retry=1".toList],
      ["d@e.f".toList, "catch_all".toList]] =
    ([["d@e.f".toList, "catch_all".toList]], ["a@b.c".toList]) := by decide

end ValidEmailVerifier.TempfailRetryPlanner
