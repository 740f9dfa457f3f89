/-
# `Pipeline.Machine` — one verification job under every interleaving

The store of one job (its row, its chunk rows, the objects on its disks, the
metrics row, the finalize queue) and the processes that work on it: parse runs,
engine workers, completion and failure requests, finalize runs.  Each process is
a list of instructions, one for each database statement or storage access of the
source, and any process may take the next step.

* A transaction holds the lock of the job row from its `begin` to its `commit`;
  the rows it inserts are visible to others from the commit on, but their
  numbers are taken at once, as the unique index has it.
* `throw` is an exception at the next instruction of a process, and runs the
  handler of its `catch` block; `kill` is the death of the process, which runs
  nothing.
* An engine worker is a process too: it downloads its input, uploads three
  outputs and waits for the answer to its completion request, and it reports a
  failure when one of these goes wrong.
-/
import ValidEmailVerifier.Lib.Processes
import ValidEmailVerifier.Lib.Table
import ValidEmailVerifier.Lib.Transition
import ValidEmailVerifier.Pipeline.Address
import ValidEmailVerifier.Pipeline.FinalizeVerificationJob
import ValidEmailVerifier.Pipeline.VerifierChunkControllers

namespace ValidEmailVerifier

open Processes

/-! ## The store -/

/-- An open transaction: the process that holds the job lock, and the chunk rows
it has inserted. -/
structure Txn where
  owner : Nat
  rows : List Chunk
  deriving DecidableEq, Repr

structure Store where
  now : Nat := 0
  settings : Settings := {}
  job : Job := {}
  /-- The upload, as the readers hand it to the parser. -/
  upload : Option (List ParseAndChunkJob.Feed) := none
  chunks : List Chunk := []
  txn : Option Txn := none
  objects : Objects := fun _ => none
  metrics : Metrics := {}
  /-- The chunks whose completion has been added to the metrics. -/
  recorded : List Nat := []
  /-- Finalize jobs on the queue. -/
  queue : Nat := 0
  nextId : Nat := 0

namespace Store

def findChunk (s : Store) (id : Nat) : Option Chunk := Table.find Chunk.id s.chunks id

def updateChunk (s : Store) (id : Nat) (f : Chunk → Chunk) : Store :=
  { s with chunks := Table.update Chunk.id s.chunks id f }

/-- `Storage::disk($disk)->put($key, $file)`. -/
def put (s : Store) (addr : Addr) (file : File) : Store :=
  { s with objects := Function.update s.objects addr (some file) }

/-- `max('chunk_no')` of the committed rows. -/
def maxChunkNo (s : Store) : Nat := (s.chunks.map Chunk.chunkNo).foldr max 0

/-- A committed row has the number. -/
def taken (s : Store) (chunkNo : Nat) : Bool := s.chunks.any (fun c => c.chunkNo == chunkNo)

/-- A row of the open transaction has the number. -/
def staged (s : Store) (chunkNo : Nat) : Bool :=
  s.txn.any (fun t => t.rows.any (fun c => c.chunkNo == chunkNo))

/-- The transaction of a process that dies or throws is rolled back. -/
def rollback (s : Store) (p : Nat) : Store :=
  if s.txn.any (fun t => t.owner == p) then { s with txn := none } else s

/-- `DB::transaction`: wait for the job lock. -/
def lockJob (s : Store) (p : Nat) : Option Store :=
  if s.txn.isSome then none else some { s with txn := some ⟨p, []⟩ }

end Store

/-! ## Instructions -/

/-- What `completed` adds to the metrics of the job. -/
inductive MetricsDelta where
  | screening (total : Nat) (candidates : Option Nat)
  | probe (completed unknown : Nat)
  deriving DecidableEq, Repr

/-- The counters `recordPhase` is given. -/
inductive MetricsWrite where
  | screening (total : Nat) (candidates : Option Nat)
  | probe (completed unknown : Nat)
  deriving DecidableEq, Repr

/-- `total_emails` to `cache_miss_key` of a finished parse. -/
structure Totals where
  totalEmails : Nat
  cachedCount : Nat
  unknownCount : Nat
  cachedKeys : PerType (Option Key)
  cacheMissKey : Option Key
  deriving DecidableEq, Repr

inductive Instr where
  | putObject (addr : Addr) (file : File)
  | dispatchFinalize
  -- `ParseAndChunkJob`
  | createChunk (disk : Disk) (chunkNo emailCount : Nat)
  | updateTotals (job : Job) (totals : Totals)
  | resetMetrics (screeningTotal : Nat)
  | failJob (job : Job) (message : String)
  -- the engine worker
  | download (id : Nat) (verdicts : List (Text × Worker.Verdict))
  -- `VerifierChunkCompleteController` and its two planners
  | loadCompletion (id : Nat) (payload : Payload)
  | planHandoff (r : Request)
  | beginProbe (r : Request) (disk : Disk) (shards : List ScreeningToProbeChunkPlanner.Shard)
  | insertChunk (row : Chunk)
  | commit
  | updateCompleted (r : Request)
  | planRetry (r : Request)
  | splitRisky (chunk : Chunk) (disk : Disk)
  | beginRetry (chunk : Chunk) (disk : Disk) (emails : List Text)
  | updateParent (chunk : Chunk) (riskyKey : Key) (filteredCount : Nat)
  | readMetrics (id : Nat) (delta : MetricsDelta)
  | saveMetrics (id : Nat) (write : MetricsWrite)
  -- `VerifierChunkFailController`
  | loadFailure (id : Nat) (retryable : Bool)
  | updateFailed (chunk : Chunk) (retryable : Bool)
  -- `FinalizeVerificationJob`
  | loadChunks (job : Job) (cache : List (Text × Text))
  | merge (job : Job) (chunks : List Chunk) (cache : List (Text × Text))
  | completeJob (job : Job) (disk : Disk) (counts : PerType Nat)
  | markJobFailed (job : Job) (message : String)
  deriving DecidableEq, Repr

/-- What a process is. -/
inductive Kind where
  | parse (job : Job)
  | worker (id : Nat)
  | request (id : Nat)
  | finalize (job : Job)
  deriving DecidableEq, Repr

/-- What an instruction does: the store after it, and how the process goes on;
`none` when it has to wait. -/
abbrev Effect := Option (Store × Next Instr)

/-! ### The engine worker -/

/-- Upload three files. -/
def putFiles (disk : Disk) (keys : PerType Key) (files : PerType File) : List Instr :=
  [.putObject (disk, keys.valid) files.valid, .putObject (disk, keys.invalid) files.invalid,
    .putObject (disk, keys.risky) files.risky]

/-- The keys of `VerifierChunkOutputUrlsController`. -/
def outputKeys (chunk : Chunk) : PerType Key :=
  ⟨.chunkOutput chunk.chunkNo .valid, .chunkOutput chunk.chunkNo .invalid,
    .chunkOutput chunk.chunkNo .risky⟩

/-- `VerifierChunkInputUrlController`: where the worker downloads from. -/
def inputAddr (s : Store) (chunk : Chunk) : Addr :=
  ((chunk.inputDisk <|> s.job.inputDisk).getD s.settings.storageDisk, chunk.inputKey)

/-- `VerifierChunkOutputUrlsController`: the disk the worker uploads to. -/
def uploadDisk (s : Store) (chunk : Chunk) : Disk :=
  (chunk.outputDisk <|> s.job.outputDisk).getD s.settings.storageDisk

/-- `processChunk` up to the completion request. -/
def download (s : Store) (id : Nat) (verdicts : List (Text × Worker.Verdict)) : Effect :=
  match s.findChunk id with
  | none => some (s, .raise)
  | some chunk =>
      match s.objects (inputAddr s chunk) with
      | none => some (s, .raise)
      | some input =>
          let outputs := Worker.buildOutputs verdicts input
          let disk := uploadDisk s chunk
          some (s, .go (putFiles disk (outputKeys chunk) outputs.files ++
            [.loadCompletion id
              { outputDisk := some disk
                keys := outputKeys chunk
                emailCount := some outputs.emailCount
                counts := outputs.counts.map some }]))

/-! ### Completion -/

/-- The rest of a screening completion; `candidates` is the planned number when
the probe stage is enabled. -/
def finishScreening (r : Request) (candidates : Option Nat) : List Instr :=
  [.updateCompleted r,
    .readMetrics r.chunk.id (.screening (r.payload.emailCount.getD 0) candidates),
    .dispatchFinalize]

/-- The rest of a probe completion. -/
def finishProbe (r : Request) : List Instr :=
  [.updateCompleted r, .planRetry r,
    .readMetrics r.chunk.id (.probe r.totalCount (r.completed.counts.risky.getD 0)),
    .dispatchFinalize]

/-- The chunk is loaded and its status is checked. -/
def loadCompletion (s : Store) (id : Nat) (payload : Payload) : Effect :=
  match s.findChunk id with
  | none => some (s, .raise)
  | some chunk =>
      let r : Request := ⟨chunk, payload⟩
      match chunk.status with
      | .completed => some (s, if r.payloadMatches then .go [] else .raise)
      | .failed => some (s, .raise)
      | _ =>
          match chunk.stage with
          | .screening =>
              if s.settings.probeStageEnabled then some (s, .go [.planHandoff r])
              else some (s, .go (finishScreening r none))
          | .smtpProbe => some (s, .go (finishProbe r))

/-- The three outputs of a completion, as the planner reads them. -/
def outputFiles (s : Store) (r : Request) (disk : Disk) : PerType (Option File) :=
  r.payload.keys.map fun k => s.objects (disk, k)

/-- `plan`'s two loops over the outputs. -/
def classification (php : Php) (s : Store) (r : Request) (disk : Disk) :
    ScreeningToProbeChunkPlanner.Classification :=
  ScreeningToProbeChunkPlanner.classify php s.settings.screeningHardInvalidReasons
    (outputFiles s r disk)

/-- `createProbeChunks` and `rewriteScreeningOutputs`. -/
def handoffCode (σ : Settings) (r : Request) (disk : Disk)
    (plan : ScreeningToProbeChunkPlanner.Classification) : List Instr :=
  [.beginProbe r disk (ScreeningToProbeChunkPlanner.buildProbeShards σ plan.candidates),
    .putObject (disk, r.payload.keys.valid) (ScreeningToProbeChunkPlanner.writeRows []),
    .putObject (disk, r.payload.keys.risky) (ScreeningToProbeChunkPlanner.writeRows []),
    .putObject (disk, r.payload.keys.invalid)
      (ScreeningToProbeChunkPlanner.writeRows plan.hardInvalidRows)]

/-- `ScreeningToProbeChunkPlanner::plan`, and what the controller does after it. -/
def planHandoff (php : Php) (s : Store) (r : Request) : Effect :=
  match r.outputDisk with
  | none => some (s, .raise)
  | some disk =>
      let plan := classification php s r disk
      if plan.candidates = [] then some (s, .go (finishScreening r (some 0)))
      else
        some (s, .go (handoffCode s.settings r disk plan ++
          finishScreening r (some plan.candidates.length)))

/-- The loop of `createProbeChunks`; empty shards are skipped. -/
def insertShards (parent rotationGroupId : Nat) (disk : Disk) (maxProbeAttempts now : Nat) :
    Nat → Nat → List ScreeningToProbeChunkPlanner.Shard → List Instr
  | _, _, [] => []
  | id, chunkNo, shard :: rest =>
      if shard.emails = [] then
        insertShards parent rotationGroupId disk maxProbeAttempts now id chunkNo rest
      else
        .putObject (disk, .chunkInput chunkNo) (inputFile shard.emails) ::
          .insertChunk (ScreeningToProbeChunkPlanner.probeChunk parent id chunkNo
            rotationGroupId disk maxProbeAttempts shard now) ::
          insertShards parent rotationGroupId disk maxProbeAttempts now (id + 1)
            (chunkNo + 1) rest

/-- A probe chunk of the parent is there already. -/
def hasProbeChunks (s : Store) (parent : Nat) : Bool :=
  s.chunks.any fun c => c.processingStage == some .smtpProbe &&
    c.sourceStage == some .screening && c.parentChunkId == some parent

/-- The transaction of `createProbeChunks`. -/
def beginProbe (s : Store) (p : Nat) (r : Request) (disk : Disk)
    (shards : List ScreeningToProbeChunkPlanner.Shard) : Effect :=
  match s.lockJob p with
  | none => none
  | some s' =>
      if hasProbeChunks s r.chunk.id then some (s, .go [])
      else
        some ({ s' with nextId := s.nextId + shards.length + 1 },
          .go (insertShards r.chunk.id (s.nextId + shards.length) disk
            s.settings.probeAttempts s.now s.nextId (s.maxChunkNo + 1) shards ++ [.commit]))

/-- `VerificationJobChunk::create` inside a transaction. -/
def insertChunk (s : Store) (p : Nat) (row : Chunk) : Effect :=
  if s.taken row.chunkNo then some (s.rollback p, .raise)
  else
    match s.txn with
    | some t => some ({ s with txn := some { t with rows := t.rows ++ [row] } }, .go [])
    | none => some (s, .raise)

def commit (s : Store) : Effect :=
  match s.txn with
  | some t => some ({ s with chunks := s.chunks ++ t.rows, txn := none }, .go [])
  | none => some (s, .raise)

def updateCompleted (s : Store) (r : Request) : Effect :=
  some (s.updateChunk r.chunk.id (Chunk.update r.chunk r.completed), .go [])

/-- `TempfailRetryPlanner::plan` of the fresh chunk, up to its risky file. -/
def planRetry (s : Store) (r : Request) : Effect :=
  match s.findChunk r.chunk.id, r.outputDisk with
  | some fresh, some disk =>
      if TempfailRetryPlanner.enabledFor s.settings fresh then
        some (s, .go [.splitRisky fresh disk])
      else some (s, .go [])
  | _, _ => some (s, .raise)

/-- The loop over the risky file, and what follows when a row is to be retried. -/
def splitRisky (s : Store) (chunk : Chunk) (disk : Disk) : Effect :=
  match chunk.keys.risky with
  | none => some (s, .go [])
  | some key =>
      match s.objects (disk, key) with
      | none => some (s, .go [])
      | some file =>
          let (filtered, retry) :=
            TempfailRetryPlanner.split s.settings.tempfailRetryReasons file
          if retry = [] then some (s, .go [])
          else
            some (s, .go
              [.putObject (disk, TempfailRetryPlanner.filteredRiskyKey key) filtered,
                .beginRetry chunk disk retry,
                .updateParent chunk key filtered.length])

/-- The transaction of `createRetryChunk`. -/
def beginRetry (s : Store) (p : Nat) (chunk : Chunk) (disk : Disk) (emails : List Text) :
    Effect :=
  match s.lockJob p with
  | none => none
  | some s' =>
      let chunkNo := s.maxChunkNo + 1
      let inputDisk := chunk.inputDisk.getD disk
      let minutes := TempfailRetryPlanner.backoffForAttempt
        s.settings.tempfailRetryBackoffMinutes (chunk.retryAttempt + 1)
      let row := TempfailRetryPlanner.retryChunk chunk s.nextId chunkNo inputDisk
        emails.length (s.now + 60 * minutes) s.now
      some ({ s' with nextId := s.nextId + 1 },
        .go [.putObject (inputDisk, .chunkInput chunkNo) (inputFile emails),
          .insertChunk row, .commit])

def updateParent (s : Store) (chunk : Chunk) (key : Key) (filteredCount : Nat) : Effect :=
  some (s.updateChunk chunk.id
    (Chunk.update chunk (chunk.withFilteredRisky key filteredCount)), .go [])

/-- The counters are read, and written with what is added. -/
def readMetrics (s : Store) (id : Nat) (delta : MetricsDelta) : Effect :=
  let write : MetricsWrite :=
    match delta with
    | .screening total candidates =>
        .screening (s.metrics.screeningTotalCount + total)
          (candidates.map (s.metrics.probeCandidateCount + ·))
    | .probe completed unknown =>
        .probe (s.metrics.probeCompletedCount + completed)
          (s.metrics.probeUnknownCount + unknown)
  some (s, .go [.saveMetrics id write])

/-- `recordPhase`. -/
def MetricsWrite.apply (write : MetricsWrite) (m : Metrics) : Metrics :=
  match write with
  | .screening total candidates =>
      { m with
        screeningTotalCount := total
        probeCandidateCount := candidates.getD m.probeCandidateCount }
  | .probe completed unknown =>
      { m with probeCompletedCount := completed, probeUnknownCount := unknown }

def saveMetrics (s : Store) (id : Nat) (write : MetricsWrite) : Effect :=
  some ({ s with metrics := write.apply s.metrics, recorded := s.recorded ++ [id] }, .go [])

/-! ### Failure -/

def loadFailure (s : Store) (id : Nat) (retryable : Bool) : Effect :=
  match s.findChunk id with
  | none => some (s, .raise)
  | some chunk =>
      match chunk.status with
      | .completed => some (s, .raise)
      | .failed => some (s, .go [])
      | _ => some (s, .go [.updateFailed chunk retryable])

def updateFailed (s : Store) (chunk : Chunk) (retryable : Bool) : Effect :=
  some (s.updateChunk chunk.id
    (Chunk.update chunk (chunk.failedAttempt s.settings retryable)), .go [])

/-! ### Parsing -/

/-- `VerificationJobChunk::create` of `finalizeChunk`: a violation of the unique
index throws, and a number that an open transaction has taken makes it wait. -/
def createChunk (s : Store) (disk : Disk) (chunkNo emailCount : Nat) : Effect :=
  if s.taken chunkNo then some (s, .raise)
  else if s.staged chunkNo then none
  else
    let row : Chunk :=
      { id := s.nextId, chunkNo := chunkNo, inputDisk := some disk,
        inputKey := .chunkInput chunkNo, emailCount := emailCount, createdAt := s.now }
    some ({ s with chunks := s.chunks ++ [row], nextId := s.nextId + 1 }, .go [])

/-- The attributes of the update at the end of a parse. -/
def withTotals (job : Job) (totals : Totals) (now : Nat) : Job :=
  { job with
    totalEmails := some totals.totalEmails
    cachedCount := some totals.cachedCount
    unknownCount := some totals.unknownCount
    preparedAt := some now
    cachedKeys := totals.cachedKeys
    cacheMissKey := totals.cacheMissKey }

def updateTotals (s : Store) (job : Job) (totals : Totals) : Effect :=
  some ({ s with job := Job.update job (withTotals job totals s.now) s.job }, .go [])

def resetMetrics (s : Store) (screeningTotal : Nat) : Effect :=
  some ({ s with metrics := { screeningTotalCount := screeningTotal } }, .go [])

/-- The attributes `failJob` of the parse writes. -/
def prepareFailedJob (job : Job) (message : String) (now : Nat) : Job :=
  { job with
    status := .failed
    errorMessage := some message
    failureSource := some "system"
    finishedAt := some now }

/-- `failJob` of the parse. -/
def failJob (s : Store) (job : Job) (message : String) : Effect :=
  some ({ s with job := Job.update job (prepareFailedJob job message s.now) s.job }, .go [])

/-- A parse's effects as instructions. -/
def effectCode (disk : Disk) : ParseAndChunkJob.Effect → Instr
  | .putChunk chunkNo emails => .putObject (disk, .chunkInput chunkNo) (inputFile emails)
  | .createChunk chunkNo emailCount => .createChunk disk chunkNo emailCount

/-- `finalizeCachedOutputs`. -/
def cachedPuts (disk : Disk) (streams : PerType (Option File)) : List Instr :=
  OutputType.all.filterMap fun t =>
    (streams.get t).map fun file => .putObject (disk, .cachedResult t) file

/-- `finalizeCacheMissList`. -/
def cacheMissPut (disk : Disk) (stream : Option (List Text)) : List Instr :=
  stream.toList.map fun emails => .putObject (disk, .cacheMiss) (inputFile emails)

/-- The keys of the cached streams that exist. -/
def cachedKeys (streams : PerType (Option File)) : PerType (Option Key) :=
  ⟨streams.valid.map fun _ => .cachedResult .valid,
    streams.invalid.map fun _ => .cachedResult .invalid,
    streams.risky.map fun _ => .cachedResult .risky⟩

def totalsOf (m : ParseAndChunkJob.Mem) : Totals where
  totalEmails := m.totalUnique
  cachedCount := m.cachedCount
  unknownCount := m.unknownCount
  cachedKeys := cachedKeys m.cachedStreams
  cacheMissKey := m.cacheMissStream.map fun _ => .cacheMiss

def prepareFailed : String := "Failed to prepare verification job."

/-- What a finished parse does after its last chunk. -/
def finishParse (job : Job) (disk : Disk) (m : ParseAndChunkJob.Mem) : List Instr :=
  cachedPuts disk m.cachedStreams ++ cacheMissPut disk m.cacheMissStream ++
    [.updateTotals job (totalsOf m), .resetMetrics m.unknownCount] ++
    (if m.cacheOnlyMode && m.chunksCreated == 0 then [.dispatchFinalize] else [])

/-- The code of `ParseAndChunkJob::handle` for a job that is processing. -/
def parseCode (php : Php) (σ : Settings) (job : Job)
    (upload : Option (List ParseAndChunkJob.Feed))
    (lookups : List ParseAndChunkJob.Lookup) : List Instr :=
  let disk := job.inputDisk.getD σ.storageDisk
  match upload with
  | none => [.failJob job "Input file not found on storage disk."]
  | some feeds =>
      match ParseAndChunkJob.parse php σ feeds lookups with
      | .ok m => m.effects.map (effectCode disk) ++ finishParse job disk m
      | .error m => m.effects.map (effectCode disk) ++ [.failJob job prepareFailed]

/-! ### Finalization -/

/-- The chunks are loaded and the early returns are taken. -/
def loadChunks (s : Store) (job : Job) (cache : List (Text × Text)) : Effect :=
  match FinalizeVerificationJob.decision job s.chunks with
  | .stop => some (s, .go [])
  | .failJob => some (s, .go [.markJobFailed job "One or more chunks failed."])
  | .finalize => some (s, .go [.merge job s.chunks cache])

/-- The keys of `initializeWriters`. -/
def finalKeys : PerType Key :=
  ⟨.finalResult .valid, .finalResult .invalid, .finalResult .risky⟩

/-- `$merger->merge(...)`. -/
def merged (s : Store) (job : Job) (chunks : List Chunk) (cache : List (Text × Text)) :
    VerificationResultsMerger.Merged :=
  VerificationResultsMerger.merge s.settings cache s.objects job chunks
    (FinalizeVerificationJob.outputDisk s.settings job)

def merge (s : Store) (job : Job) (chunks : List Chunk) (cache : List (Text × Text)) :
    Effect :=
  let disk := FinalizeVerificationJob.outputDisk s.settings job
  let result := merged s job chunks cache
  some (s, .go (putFiles disk finalKeys result.files ++
    [if result.missing = [] then .completeJob job disk result.counts
      else .markJobFailed job "Chunk outputs missing during finalization."]))

def completeJob (s : Store) (job : Job) (disk : Disk) (counts : PerType Nat) : Effect :=
  let filled := FinalizeVerificationJob.completed job disk counts s.now
  some ({ s with job := Job.update job filled s.job }, .go [])

def markJobFailed (s : Store) (job : Job) (message : String) : Effect :=
  let filled := FinalizeVerificationJob.failed job message s.now
  some ({ s with job := Job.update job filled s.job }, .go [])

/-! ### Execution -/

/-- Execute an instruction of process `p`. -/
def exec (php : Php) (p : Nat) (i : Instr) (s : Store) : Effect :=
  match i with
  | .putObject addr file => some (s.put addr file, .go [])
  | .dispatchFinalize => some ({ s with queue := s.queue + 1 }, .go [])
  | .createChunk disk chunkNo emailCount => createChunk s disk chunkNo emailCount
  | .updateTotals job totals => updateTotals s job totals
  | .resetMetrics screeningTotal => resetMetrics s screeningTotal
  | .failJob job message => failJob s job message
  | .download id verdicts => download s id verdicts
  | .loadCompletion id payload => loadCompletion s id payload
  | .planHandoff r => planHandoff php s r
  | .beginProbe r disk shards => beginProbe s p r disk shards
  | .insertChunk row => insertChunk s p row
  | .commit => commit s
  | .updateCompleted r => updateCompleted s r
  | .planRetry r => planRetry s r
  | .splitRisky chunk disk => splitRisky s chunk disk
  | .beginRetry chunk disk emails => beginRetry s p chunk disk emails
  | .updateParent chunk key filteredCount => updateParent s chunk key filteredCount
  | .readMetrics id delta => readMetrics s id delta
  | .saveMetrics id write => saveMetrics s id write
  | .loadFailure id retryable => loadFailure s id retryable
  | .updateFailed chunk retryable => updateFailed s chunk retryable
  | .loadChunks job cache => loadChunks s job cache
  | .merge job chunks cache => merge s job chunks cache
  | .completeJob job disk counts => completeJob s job disk counts
  | .markJobFailed job message => markJobFailed s job message

def finalizationFailed : String := "Finalization failed."

/-- What a process runs after an exception in `code`: a parse and a finalize run
fail the job, a worker reports the failure of its chunk, a request is answered
with an error.  An exception of the handler itself ends the process, and so does
one in front of the `try` block of a finalize run. -/
def handler : Kind → List Instr → List Instr
  | .parse _, .failJob _ _ :: _ => []
  | .parse job, _ => [.failJob job prepareFailed]
  | .worker _, .loadFailure _ _ :: _ => []
  | .worker _, .updateFailed _ _ :: _ => []
  | .worker id, _ => [.loadFailure id true]
  | .request _, _ => []
  | .finalize _, .loadChunks _ _ :: _ => []
  | .finalize _, .markJobFailed _ _ :: _ => []
  | .finalize job, _ => [.markJobFailed job finalizationFailed]

/-! ## The system -/

abbrev State := Conf Store Kind Instr

inductive Action where
  | tick (seconds : Nat)
  | configure (settings : Settings)
  /-- A worker is handed a candidate; which candidate the routing score prefers
  is left open. -/
  | claim (id : Nat) (capability : ClaimNext.Capability) (engineServer : Nat)
      (worker : Text) (leaseSeconds : Int) (verdicts : List (Text × Worker.Verdict))
  /-- A completion request that no waiting worker sent: a resend, or one of a
  worker whose lease was superseded. -/
  | complete (id : Nat) (payload : Payload)
  | fail (id : Nat) (retryable : Bool)
  /-- A signed upload to an output key. -/
  | upload (disk : Disk) (chunkNo : Nat) (type : OutputType) (file : File)
  | startParse (lookups : List ParseAndChunkJob.Lookup)
  | startFinalize (cache : List (Text × Text))
  | exec (p : Nat)
  | throw (p : Nat)
  | kill (p : Nat)
  deriving DecidableEq, Repr

def isParse : Kind → Bool
  | .parse _ => true
  | _ => false

def isFinalize : Kind → Bool
  | .finalize _ => true
  | _ => false

/-- A process of the kind has code left. -/
def running (c : State) (kind : Kind → Bool) : Bool :=
  c.procs.any (fun q => kind q.kind && !q.code.isEmpty)

/-- Change the store alone. -/
def withStore (c : State) (s : Store) : State := { c with store := s }

def claim (c : State) (id : Nat) (capability : ClaimNext.Capability) (engineServer : Nat)
    (worker : Text) (leaseSeconds : Int) (verdicts : List (Text × Worker.Verdict)) :
    Option State :=
  match c.store.findChunk id with
  | none => none
  | some chunk =>
      if !c.store.settings.enginePaused &&
          ClaimNext.isCandidate c.store.now capability chunk then
        -- the token stands for a fresh UUID, and only the claimant's process has its number
        some ((withStore c (c.store.updateChunk id
          (ClaimNext.claimed c.store.now engineServer worker leaseSeconds
            c.procs.length))).spawn (.worker id) [.download id verdicts])
      else none

/-- The queue hands the parse of a processing job to a queue worker. -/
def startParse (php : Php) (c : State) (lookups : List ParseAndChunkJob.Lookup) :
    Option State :=
  if c.store.job.status = .processing ∧ running c isParse = false then
    some (c.spawn (.parse c.store.job)
      (parseCode php c.store.settings c.store.job c.store.upload lookups))
  else none

/-- The queue hands out a finalize job; `WithoutOverlapping` puts it back while
another one runs. -/
def startFinalize (c : State) (cache : List (Text × Text)) : Option State :=
  if 0 < c.store.queue ∧ running c isFinalize = false then
    some ((withStore c { c.store with queue := c.store.queue - 1 }).spawn
      (.finalize c.store.job) [.loadChunks c.store.job cache])
  else none

/-- The next instruction of process `p` throws. -/
def throwAt (c : State) (p : Nat) : Option State :=
  match c.procs[p]? with
  | some ⟨k, i :: rest⟩ =>
      some ((withStore c (c.store.rollback p)).setCode p (handler k (i :: rest)))
  | _ => none

/-- Process `p` dies. -/
def killAt (c : State) (p : Nat) : Option State :=
  match c.procs[p]? with
  | some ⟨_, _ :: _⟩ => some ((withStore c (c.store.rollback p)).setCode p [])
  | _ => none

def act (php : Php) (c : State) : Action → Option State
  | .tick seconds => some (withStore c { c.store with now := c.store.now + seconds })
  | .configure settings => some (withStore c { c.store with settings := settings })
  | .claim id capability engineServer worker leaseSeconds verdicts =>
      claim c id capability engineServer worker leaseSeconds verdicts
  | .complete id payload => some (c.spawn (.request id) [.loadCompletion id payload])
  | .fail id retryable => some (c.spawn (.request id) [.loadFailure id retryable])
  | .upload disk chunkNo type file =>
      some (withStore c (c.store.put (disk, .chunkOutput chunkNo type) file))
  | .startParse lookups => startParse php c lookups
  | .startFinalize cache => startFinalize c cache
  | .exec p => c.execAt (exec php) handler p
  | .throw p => throwAt c p
  | .kill p => killAt c p

/-- The pipeline of one job. -/
def pipeline (php : Php) : Transition.System State Action := ⟨act php⟩

end ValidEmailVerifier
