/-
# `Pipeline.Console` — who else writes the job and its chunks

The pipeline under the calls that write its rows from outside it: the job status
and job completion endpoints, the admin's actions on a job, on its order and on
a single chunk, and `PrepareVerificationJob`.  Each loads a row, checks the
loaded status and writes the model back with the attributes it fills, so a call
is a process like those of the pipeline, with the pipeline as its store.

Some writes come after an update that the same caller has made before: a
finalize run whose `catch` block fails the job behind its own update, and an
order that is reopened but cannot be enqueued.  They are calls that the first
update leaves behind, and `leave` ends a call that has nothing more to do.

The two requeue actions of a job, and the endpoint that claims a job, are single
statements of SQL and see the rows as they are.
-/
import ValidEmailVerifier.Pipeline.Finality

namespace ValidEmailVerifier.Console

open Processes

/-! ## The changes of a job -/

/-- The body of a job completion request; the disk may be missing, or null. -/
structure JobPayload where
  outputDisk : Option (Option Disk) := none
  outputKey : Key
  totalEmails : Option Nat := none
  counts : PerType (Option Nat) := .const none
  unknownCount : Option Nat := none
  deriving DecidableEq, Repr

inductive JobChange where
  -- `VerifierJobStatusController`
  | processing
  | failed (message : String)
  -- `VerifierJobCompleteController`
  | complete (payload : JobPayload)
  -- the admin's actions on the job; the order's are `cancel` and `reopen`
  | markFailed (message : String)
  | cancel (message code : String)
  | retry
  | reopen
  | enqueueFailed
  -- `PrepareVerificationJob`
  | prepare
  -- the `catch` block of `FinalizeVerificationJob`
  | finalizationFailed
  deriving DecidableEq, Repr

/-- `[Pending, Processing]`. -/
def unfinished (job : Job) : Bool := job.status == .pending || job.status == .processing

/-- The check of the loaded job.  A job that cannot be enqueued has just been
created, and nobody asks for the write of a `catch` block. -/
def allowed (job : Job) : JobChange → Bool
  | .processing => job.status == .pending
  | .failed _ => unfinished job
  | .complete _ => job.status != .completed && job.status != .failed
  | .markFailed _ => job.status != .failed
  | .cancel _ _ => unfinished job
  | .retry => job.status == .failed && job.failureSource != some "admin"
  | .reopen => true
  | .enqueueFailed => job.status == .pending
  | .prepare => job.status == .pending
  | .finalizationFailed => false

/-- The attributes of a failure. -/
def failedBy (job : Job) (message source code : String) (now : Nat) : Job :=
  { job with
    status := .failed
    errorMessage := some message
    failureSource := some source
    failureCode := some code
    finishedAt := some now }

/-- The attributes of a job that waits for its preparation again. -/
def reopened (job : Job) : Job :=
  { job with
    status := .pending
    errorMessage := none
    failureSource := none
    failureCode := none
    finishedAt := none }

/-- The attributes each change fills. -/
def filled (s : Store) (job : Job) : JobChange → Job
  | .processing => { job with status := .processing }
  | .failed message => failedBy job message "engine" "engine_error" s.now
  | .complete payload =>
      { job with
        status := .completed
        outputDisk := payload.outputDisk.getD (some s.settings.storageDisk)
        outputKey := some payload.outputKey
        totalEmails := payload.totalEmails
        counts := payload.counts
        unknownCount := payload.unknownCount
        finishedAt := some s.now
        errorMessage := none }
  | .markFailed message => failedBy job message "admin" "manual_fail" s.now
  | .cancel message code => failedBy job message "admin" code s.now
  | .retry =>
      { reopened job with
        outputDisk := none
        outputKey := none
        totalEmails := none
        counts := .const none
        unknownCount := none }
  | .reopen => reopened job
  | .enqueueFailed =>
      failedBy job "Failed to enqueue verification job." "engine" "enqueue_failed" s.now
  | .prepare => { job with status := .processing, preparedAt := none }
  | .finalizationFailed => FinalizeVerificationJob.failed job finalizationFailed s.now

/-! ## The changes of a chunk -/

/-- The admin's actions on a chunk that is not completed. -/
inductive ChunkChange where
  | requeue
  | markFailed
  deriving DecidableEq, Repr

/-- The columns a requeue sets. -/
def requeued (chunk : Chunk) : Chunk :=
  { chunk with
    status := .pending
    attempts := chunk.attempts + 1
    claimedAt := none
    claimExpiresAt := none
    claimToken := none
    engineServerId := none
    assignedWorkerId := none
    outputDisk := none
    keys := .const none
    counts := .const none }

/-- The attributes each change fills. -/
def filledChunk (chunk : Chunk) : ChunkChange → Chunk
  | .requeue => requeued chunk
  | .markFailed =>
      { chunk with
        status := .failed
        attempts := chunk.attempts + 1
        claimedAt := none
        claimExpiresAt := none
        claimToken := none
        engineServerId := none
        assignedWorkerId := none }

/-- `where('status', 'failed')`. -/
def isFailed (chunk : Chunk) : Bool := chunk.status == .failed

/-- A processing chunk whose lease has run out. -/
def isStuck (now : Nat) (chunk : Chunk) : Bool :=
  chunk.status == .processing && chunk.claimExpiresAt.any (· < now)

/-- Requeue the chunks that a `where` clause selects. -/
def requeue (select : Chunk → Bool) (s : Store) : Store :=
  { s with chunks := s.chunks.map fun chunk => if select chunk then requeued chunk else chunk }

/-! ## Calls -/

/-- A statement of a call. -/
inductive Statement where
  | loadChunks
  | deleteObject (addr : Addr)
  | deleteChunks
  | save (model : Job) (change : JobChange)
  | saveChunk (model : Chunk) (change : ChunkChange)
  deriving DecidableEq, Repr

/-- The pipeline and the calls on its rows. -/
abbrev Desk := Conf State Unit Statement

/-- The job row. -/
def Desk.job (d : Desk) : Job := d.store.store.job

/-- What a call does once its job has passed the check. -/
def callCode (job : Job) : JobChange → List Statement
  | .prepare => [.loadChunks, .save job .prepare]
  | change => [.save job change]

/-- `purgeExistingChunks`. -/
def purgeCode (chunks : List Chunk) : List Statement :=
  if chunks = [] then []
  else
    chunks.filterMap (fun chunk => chunk.inputDisk.map fun disk =>
      .deleteObject (disk, chunk.inputKey)) ++ [.deleteChunks]

/-- What an update leaves behind. -/
def followUp (model : Job) : JobChange → List Statement
  | .reopen => [.save model .enqueueFailed]
  | _ => []

/-- Change the store of the pipeline. -/
def onStore (c : State) (f : Store → Store) : State := withStore c (f c.store)

/-- `$job->update([...])` of a loaded job. -/
def saveJob (model filled : Job) (s : Store) : Store :=
  { s with job := Job.update model filled s.job }

/-- What a statement does to the store. -/
def Statement.effect (i : Statement) (s : Store) : Store :=
  match i with
  | .loadChunks => s
  | .deleteObject addr => { s with objects := Function.update s.objects addr none }
  | .deleteChunks => { s with chunks := [] }
  | .save model change => saveJob model (filled s model change) s
  | .saveChunk model change =>
      s.updateChunk model.id (Chunk.update model (filledChunk model change))

/-- What a statement has its call do next. -/
def Statement.next (i : Statement) (s : Store) : List Statement :=
  match i with
  | .loadChunks => purgeCode s.chunks
  | .save model change => followUp (filled s model change) change
  | _ => []

def exec (_ : Nat) (i : Statement) (c : State) : Option (State × Next Statement) :=
  some (onStore c i.effect, .go (i.next c.store))

/-! ## The system -/

inductive Event where
  | core (a : Action)
  /-- A call loads the job, and passes the check of its change. -/
  | request (change : JobChange)
  /-- A call loads a chunk that is not completed. -/
  | requestChunk (id : Nat) (change : ChunkChange)
  | exec (n : Nat)
  /-- A call ends, whatever it has left. -/
  | leave (n : Nat)
  /-- `VerifierJobClaimController`. -/
  | claimJob
  /-- The admin's finalize action. -/
  | finalize
  | requeueFailed
  | requeueStuck
  deriving DecidableEq, Repr

/-- The update of a claimed job. -/
def claimedJob (s : Store) : Store := { s with job := { s.job with status := .processing } }

/-- `FinalizeVerificationJob::dispatch`. -/
def queued (s : Store) : Store := { s with queue := s.queue + 1 }

/-- The finalize action is not disabled. -/
def canFinalize (s : Store) : Bool :=
  match s.job.status with
  | .completed => !FinalizeVerificationJob.hasFinalKeys s.job
  | .processing => s.chunks.all fun chunk => chunk.status == .completed
  | _ => false

/-- The model of a finalize run that completes the job in this step: the run stays
inside its `try` block. -/
def behindUpdate (c : State) (a : Action) : Option Job :=
  match nextInstr c a with
  | some (.completeJob job disk counts) =>
      some (FinalizeVerificationJob.completed job disk counts c.store.now)
  | _ => none

/-- A step of the pipeline. -/
def coreStep (d : Desk) (a : Action) (c : State) : Desk :=
  match behindUpdate d.store a with
  | none => { d with store := c }
  | some model =>
      Conf.spawn { d with store := c } () [.save model .finalizationFailed]

def step (php : Php) (d : Desk) : Event → Option Desk
  | .core a => (act php d.store a).map (coreStep d a)
  | .request change =>
      if allowed d.job change then some (d.spawn () (callCode d.job change)) else none
  | .requestChunk id change =>
      match d.store.store.findChunk id with
      | some chunk =>
          if chunk.status = .completed then none else some (d.spawn () [.saveChunk chunk change])
      | none => none
  | .exec n => d.execAt exec (fun _ _ => []) n
  | .leave n => some (d.setCode n [])
  | .claimJob =>
      if d.job.status = .pending then some { d with store := onStore d.store claimedJob }
      else none
  | .finalize =>
      if canFinalize d.store.store then some { d with store := onStore d.store queued }
      else none
  | .requeueFailed => some { d with store := onStore d.store (requeue isFailed) }
  | .requeueStuck =>
      some { d with store := onStore d.store (requeue (isStuck d.store.store.now)) }

/-- The pipeline of one job, under the calls on its rows. -/
def console (php : Php) : Transition.System Desk Event := ⟨step php⟩

/-! ## What a step does -/

section Steps
variable {php : Php} {d d' : Desk}

@[simp] theorem coreStep_store (d : Desk) (a : Action) (c : State) :
    (coreStep d a c).store = c := by
  unfold coreStep
  split <;> rfl

/-- A step of the console, by shape. -/
inductive StepShape (php : Php) (d : Desk) : Event → Desk → Prop
  | core {a : Action} {c : State} (hact : act php d.store a = some c) :
      StepShape php d (.core a) (coreStep d a c)
  | request {change : JobChange} (hallowed : allowed d.job change = true) :
      StepShape php d (.request change) (d.spawn () (callCode d.job change))
  | requestChunk {id : Nat} {change : ChunkChange} {chunk : Chunk}
      (hfind : d.store.store.findChunk id = some chunk) (hopen : chunk.status ≠ .completed) :
      StepShape php d (.requestChunk id change) (d.spawn () [.saveChunk chunk change])
  | exec {n : Nat} {i : Statement} {rest : List Statement} (hat : d.At n () (i :: rest)) :
      StepShape php d (.exec n)
        (Conf.setCode { d with store := onStore d.store i.effect } n
          (i.next d.store.store ++ rest))
  | leave (n : Nat) : StepShape php d (.leave n) (d.setCode n [])
  | claimJob (hpending : d.job.status = .pending) :
      StepShape php d .claimJob { d with store := onStore d.store claimedJob }
  | finalize (hopen : canFinalize d.store.store = true) :
      StepShape php d .finalize { d with store := onStore d.store queued }
  | requeue {e : Event} (select : Chunk → Bool)
      (he : (e = .requeueFailed ∧ select = isFailed) ∨
        (e = .requeueStuck ∧ select = isStuck d.store.store.now)) :
      StepShape php d e { d with store := onStore d.store (requeue select) }

/-- Every step has one of the shapes. -/
theorem step_cases {e : Event} (h : step php d e = some d') : StepShape php d e d' := by
  cases e with
  | core a =>
      obtain ⟨c, hact, rfl⟩ := Option.map_eq_some_iff.mp h
      exact .core hact
  | request change =>
      simp only [step] at h
      split at h
      next hallowed =>
        cases h
        exact .request hallowed
      next => exact nomatch h
  | requestChunk id change =>
      simp only [step] at h
      split at h
      next chunk hfind =>
        split at h
        next => exact nomatch h
        next hopen =>
          cases h
          exact .requestChunk hfind hopen
      next => exact nomatch h
  | exec n =>
      have hrun : d.execAt exec (fun _ _ => []) n = some d' := h
      obtain ⟨_, i, rest, c, next, hat, hexec, rfl⟩ := Conf.execAt_cases hrun
      cases hexec
      exact .exec hat
  | leave n =>
      cases h
      exact .leave n
  | claimJob =>
      simp only [step] at h
      split at h
      next hpending =>
        cases h
        exact .claimJob hpending
      next => exact nomatch h
  | finalize =>
      simp only [step] at h
      split at h
      next hopen =>
        cases h
        exact .finalize hopen
      next => exact nomatch h
  | requeueFailed =>
      cases h
      exact .requeue isFailed (.inl ⟨rfl, rfl⟩)
  | requeueStuck =>
      cases h
      exact .requeue _ (.inr ⟨rfl, rfl⟩)

/-- The pipeline takes a step of its own, or its processes stay as they are. -/
theorem core_cases {e : Event} (h : step php d e = some d') :
    (∃ a, e = .core a ∧ act php d.store a = some d'.store) ∨
      d'.store.procs = d.store.procs := by
  cases step_cases h with
  | core hact => exact .inl ⟨_, rfl, by rwa [coreStep_store]⟩
  | exec hat => exact .inr rfl
  | request hallowed => exact .inr rfl
  | requestChunk hfind hopen => exact .inr rfl
  | finalize hopen => exact .inr rfl
  | leave n => exact .inr rfl
  | claimJob hpending => exact .inr rfl
  | requeue select he => exact .inr rfl

/-- The statements a step can add to the calls. -/
inductive Adds (s : Store) : Statement → Prop
  | loadChunks : Adds s .loadChunks
  | deleteObject {chunk : Chunk} (hmem : chunk ∈ s.chunks) (disk : Disk) :
      Adds s (.deleteObject (disk, chunk.inputKey))
  | deleteChunks : Adds s .deleteChunks
  | save (model : Job) (change : JobChange) : Adds s (.save model change)
  | saveChunk {id : Nat} {chunk : Chunk} (hfind : s.findChunk id = some chunk)
      (hopen : chunk.status ≠ .completed) (change : ChunkChange) :
      Adds s (.saveChunk chunk change)

theorem adds_callCode {s : Store} {job : Job} {change : JobChange} :
    ∀ i ∈ callCode job change, Adds s i := by
  have hone : ∀ i ∈ [Statement.save job change], Adds s i := by
    intro i hi
    rw [List.mem_singleton.mp hi]
    exact .save job change
  intro i hi
  cases change with
  | prepare =>
      simp only [callCode, List.mem_cons, List.not_mem_nil, or_false] at hi
      rcases hi with rfl | rfl
      · exact .loadChunks
      · exact .save job .prepare
  | _ => exact hone i hi

theorem adds_next {s : Store} {i : Statement} : ∀ j ∈ i.next s, Adds s j := by
  intro j hj
  cases i with
  | loadChunks =>
      simp only [Statement.next, purgeCode] at hj
      split at hj
      · exact nomatch hj
      · rcases List.mem_append.mp hj with hj | hj
        · obtain ⟨chunk, hmem, hchunk⟩ := List.mem_filterMap.mp hj
          obtain ⟨disk, -, rfl⟩ := Option.map_eq_some_iff.mp hchunk
          exact .deleteObject hmem disk
        · rw [List.mem_singleton.mp hj]
          exact .deleteChunks
  | save model change =>
      cases change with
      | reopen =>
          rw [List.mem_singleton.mp hj]
          exact .save _ .enqueueFailed
      | _ => exact nomatch hj
  | _ => exact nomatch hj

/-- **What a step adds to the calls.** -/
theorem calls_step {e : Event} (hs : step php d e = some d') {n : Nat} {code : List Statement}
    (hat : d'.At n () code) :
    ∀ i ∈ code, (∃ m code', d.At m () code' ∧ i ∈ code') ∨ Adds d.store.store i := by
  intro i hi
  have hspawn : ∀ {d₁ : Desk} {new : List Statement}, d₁.procs = d.procs →
      (∀ j ∈ new, Adds d.store.store j) → (d₁.spawn () new).At n () code →
        (∃ m code', d.At m () code' ∧ i ∈ code') ∨ Adds d.store.store i := by
    intro d₁ new hprocs hnew hat
    rcases Conf.at_spawn.mp hat with hat | ⟨-, -, rfl⟩
    · refine .inl ⟨n, code, ?_, hi⟩
      show d.procs[n]? = some ⟨(), code⟩
      rw [← hprocs]
      exact hat
    · exact .inr (hnew i hi)
  cases step_cases hs with
  | core hact =>
      unfold coreStep at hat
      split at hat
      · exact .inl ⟨n, code, hat, hi⟩
      · refine hspawn rfl ?_ hat
        intro j hj
        rw [List.mem_singleton.mp hj]
        exact .save _ _
  | request hallowed => exact hspawn rfl adds_callCode hat
  | requestChunk hfind hopen =>
      refine hspawn rfl ?_ hat
      intro j hj
      rw [List.mem_singleton.mp hj]
      exact .saveChunk hfind hopen _
  | @exec m j rest hold =>
      rcases Conf.at_setCode.mp hat with ⟨-, rfl, -⟩ | ⟨-, hat⟩
      · rcases List.mem_append.mp hi with hi | hi
        · exact .inr (adds_next i hi)
        · exact .inl ⟨m, _, hold, .tail _ hi⟩
      · exact .inl ⟨n, code, hat, hi⟩
  | leave m =>
      rcases Conf.at_setCode.mp hat with ⟨-, rfl, -⟩ | ⟨-, hat⟩
      · exact nomatch hi
      · exact .inl ⟨n, code, hat, hi⟩
  | claimJob hpending => exact .inl ⟨n, code, hat, hi⟩
  | finalize hopen => exact .inl ⟨n, code, hat, hi⟩
  | requeue select he => exact .inl ⟨n, code, hat, hi⟩

/-- The statement a step executes. -/
def nextStatement (d : Desk) (n : Nat) : Option Statement :=
  d.procs[n]?.bind (fun q => q.code.head?)

theorem nextStatement_exec {n : Nat} {i : Statement} {rest : List Statement}
    (h : d.At n () (i :: rest)) : nextStatement d n = some i := by
  have hn : d.procs[n]? = some ⟨(), i :: rest⟩ := h
  rw [nextStatement, hn]
  rfl

end Steps

/-- The desk of a job that is about to be parsed. -/
def sampleDesk (σ : Settings) (upload : List String) : Desk := ⟨sampleJob σ upload, []⟩

end ValidEmailVerifier.Console
