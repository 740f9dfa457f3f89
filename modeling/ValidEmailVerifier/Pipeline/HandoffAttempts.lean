/-
# `Pipeline.HandoffAttempts` — a screening chunk that is completed in several attempts

A completion request of a screening chunk may throw behind any of its instructions.  The worker
then reports a failure, the chunk is claimed and screened again, and the next request comes with
other outputs; or the same request is sent again, on whatever outputs are there.

The transaction of `createProbeChunks` is the only step that is not repeated: once the probe
chunks are committed, later attempts leave them as they are and rewrite the outputs by what they
find themselves.  A request that is under way is in one of a few phases (`Phase.step`), and
wherever it throws, it leaves the chunk open, with outputs that have been rewritten in part, or
completed (`Phase.stop`).
-/
import ValidEmailVerifier.Pipeline.RewrittenOutputs
import ValidEmailVerifier.Pipeline.Steps

namespace ValidEmailVerifier.HandoffAttempts

open Processes Text ScreeningToProbeChunkPlanner

/-! ## Attempts -/

/-- The chunk: where its outputs are, and the addresses of its input. -/
structure Target where
  id : Nat
  chunkNo : Nat
  disk : Disk
  emails : List Text

namespace Target

/-- The keys of `VerifierChunkOutputUrlsController`. -/
def keys (x : Target) : PerType Key :=
  ⟨.chunkOutput x.chunkNo .valid, .chunkOutput x.chunkNo .invalid, .chunkOutput x.chunkNo .risky⟩

/-- What a worker writes with these verdicts. -/
def screened (x : Target) (verdicts : List (Text × Worker.Verdict)) : PerType File :=
  (Worker.buildOutputs verdicts (inputFile x.emails)).files

end Target

/-- Run the request of a chunk alone, for at most so many instructions. -/
def runAlone (php : Php) (id : Nat) : Nat → Store × List Instr → Store × List Instr
  | 0, x => x
  | _ + 1, (s, []) => (s, [])
  | steps + 1, (s, i :: rest) =>
      match exec php 0 i s with
      | some (s', next) =>
          runAlone php id steps (s', next.resume (handler (.request id) (i :: rest)) rest)
      | none => (s, i :: rest)

/-- A request that throws after so many instructions, unless it has come to its end. -/
def request (php : Php) (id : Nat) (steps : Nat) (code : List Instr) (s : Store) : Store :=
  (runAlone php id steps (s, code)).1.rollback 0

/-- What happens to the chunk. -/
inductive Step where
  /-- A completion: with the outputs of a screening just done, or sent again. -/
  | complete (verdicts : Option (List (Text × Worker.Verdict))) (emailCount : Option Nat)
      (counts : PerType (Option Nat)) (steps : Nat)
  | fail (retryable : Bool) (steps : Nat)
  | claim (capability : ClaimNext.Capability) (engineServer : Nat) (worker : Text)
      (leaseSeconds : Int) (token : Nat)
  | tick (seconds : Nat)
  deriving DecidableEq, Repr

/-- The screening whose outputs come with it. -/
def Step.screening : Step → Option (List (Text × Worker.Verdict))
  | .complete verdicts _ _ _ => verdicts
  | _ => none

namespace Target

/-- The signed uploads of a worker. -/
def upload (x : Target) (s : Store) (verdicts : List (Text × Worker.Verdict)) : Store :=
  ((s.put (x.disk, x.keys.valid) (x.screened verdicts).valid).put
    (x.disk, x.keys.invalid) (x.screened verdicts).invalid).put
    (x.disk, x.keys.risky) (x.screened verdicts).risky

/-- The store when the outputs are there. -/
def arrival (x : Target) (s : Store) (a : Step) : Store :=
  match a.screening with
  | some verdicts => x.upload s verdicts
  | none => s

def step (php : Php) (x : Target) (s : Store) (a : Step) : Store :=
  match a with
  | .complete _ emailCount counts steps =>
      request php x.id steps [.loadCompletion x.id ⟨some x.disk, x.keys, emailCount, counts⟩]
        (x.arrival s a)
  | .fail retryable steps => request php x.id steps [.loadFailure x.id retryable] s
  | .claim capability engineServer worker leaseSeconds token =>
      match s.findChunk x.id with
      | some chunk =>
          if !s.settings.enginePaused && ClaimNext.isCandidate s.now capability chunk then
            s.updateChunk x.id (ClaimNext.claimed s.now engineServer worker leaseSeconds token)
          else s
      | none => s
  | .tick seconds => { s with now := s.now + seconds }

def run (php : Php) (x : Target) (s : Store) (steps : List Step) : Store :=
  steps.foldl (x.step php) s

/-! ## Where the addresses are -/

/-- The three outputs. -/
def outputs (x : Target) (s : Store) : PerType (Option File) :=
  x.keys.map fun key => s.objects (x.disk, key)

def isProbe (x : Target) (c : Chunk) : Bool :=
  c.processingStage == some .smtpProbe && c.sourceStage == some .screening &&
    c.parentChunkId == some x.id

/-- The probe chunks of the chunk. -/
def probes (x : Target) (s : Store) : List Chunk := s.chunks.filter x.isProbe

/-- The lines of their inputs. -/
def probeLines (x : Target) (s : Store) : List Text :=
  (x.probes s).flatMap fun c => Worker.lines ((s.objects (inputAddr s c)).getD [])

/-- The addresses of three output files, as the merge reads them. -/
def emailsOf (files : PerType (Option File)) : List Text :=
  OutputType.all.flatMap fun t => VerificationResultsMerger.emails ((files.get t).getD [])

/-- The outputs that a completed chunk names. -/
def finalFiles (s : Store) (chunk : Chunk) : PerType (Option File) :=
  chunk.keys.map fun key => key.bind fun key => chunk.outputDisk.bind fun disk =>
    s.objects (disk, key)

def completed (x : Target) (s : Store) : Bool :=
  (s.findChunk x.id).any fun chunk => chunk.status == .completed

/-- Once the chunk is completed, each of its addresses is in one place: a row of its outputs or a
line of the input of a probe chunk. -/
def Conserved (x : Target) (s : Store) : Prop :=
  ∀ chunk, s.findChunk x.id = some chunk → chunk.status = .completed →
    (emailsOf (finalFiles s chunk) ++ x.probeLines s).Perm x.emails

/-! ## The condition -/

/-- What `plan` makes of the outputs with these verdicts. -/
def planned (php : Php) (x : Target) (σ : Settings) (verdicts : List (Text × Worker.Verdict)) :
    Classification :=
  classify php σ.screeningHardInvalidReasons ((x.screened verdicts).map some)

def kept (php : Php) (x : Target) (σ : Settings) (verdicts : List (Text × Worker.Verdict)) :
    List Text :=
  (x.planned php σ verdicts).hardInvalidRows.map Prod.fst

def handedOn (php : Php) (x : Target) (σ : Settings)
    (verdicts : List (Text × Worker.Verdict)) : List Text :=
  (x.planned php σ verdicts).candidates.map Candidate.email

end Target

/-- An attempt that succeeds hands on what the probe chunks hold that it finds; and no outputs are
uploaded for a completed chunk with addresses in probe chunks.  `verdicts` are those of the outputs
that were uploaded last. -/
def Agrees (php : Php) (x : Target) (s : Store) (verdicts : List (Text × Worker.Verdict))
    (a : Step) : Prop :=
  if x.completed s then a.screening = none ∨ x.probeLines s = []
  else x.completed (x.step php s a) = true → hasProbeChunks s x.id = true →
    (x.probeLines s).Perm (x.handedOn php s.settings (a.screening.getD verdicts))

/-! ## Reading the store back -/

section Reading
variable {x : Target} {s : Store}

theorem hasProbeChunks_iff : hasProbeChunks s x.id = true ↔ x.probes s ≠ [] := by
  rw [hasProbeChunks, List.any_eq_true, Target.probes, ne_eq, List.filter_eq_nil_iff, not_forall]
  constructor
  · rintro ⟨c, hc, hprobe⟩
    exact ⟨c, fun h => h hc hprobe⟩
  · rintro ⟨c, h⟩
    obtain ⟨hc, hprobe⟩ := Classical.not_imp.mp h
    exact ⟨c, hc, Classical.not_not.mp hprobe⟩

theorem hasProbeChunks_eq_false : hasProbeChunks s x.id = false ↔ x.probes s = [] := by
  rw [← Bool.not_eq_true, hasProbeChunks_iff, not_not]

/-- The rows have inputs of their own on the disk. -/
def Inputs (x : Target) (rows : List Chunk) : Prop :=
  ∀ c ∈ rows, c.inputDisk = some x.disk ∧ ∃ n, c.inputKey = .chunkInput n

/-- The lines of such rows. -/
def linesOf (x : Target) (s : Store) (rows : List Chunk) : List Text :=
  rows.flatMap fun c => Worker.lines ((s.objects (x.disk, c.inputKey)).getD [])

theorem probeLines_eq (h : Inputs x (x.probes s)) :
    x.probeLines s = linesOf x s (x.probes s) := by
  refine List.flatMap_congr fun c hc => ?_
  rw [inputAddr, (h c hc).1]
  rfl

/-- Lines are those of the inputs. -/
theorem linesOf_congr {s' : Store} {rows : List Chunk}
    (h : ∀ c ∈ rows, s'.objects (x.disk, c.inputKey) = s.objects (x.disk, c.inputKey)) :
    linesOf x s' rows = linesOf x s rows := by
  refine List.flatMap_congr fun c hc => ?_
  rw [h c hc]

theorem put_objects_self (addr : Addr) (file : File) :
    (s.put addr file).objects addr = some file := by
  simp [Store.put]

theorem put_objects_of_ne {addr addr' : Addr} (h : addr' ≠ addr) (file : File) :
    (s.put addr file).objects addr' = s.objects addr' := by
  simp [Store.put, h]

/-- A row that an update keeps in its place. -/
theorem probes_updateChunk {f : Chunk → Chunk} (hf : ∀ c, SameOrigin c (f c)) :
    x.probes (s.updateChunk x.id f) =
      (x.probes s).map fun c => if c.id = x.id then f c else c := by
  rw [Target.probes, Store.updateChunk, Table.update, List.filter_map]
  refine congrArg (List.map _) (List.filter_congr fun c _ => ?_)
  rw [Function.comp_apply]
  split
  · rw [Target.isProbe, (hf c).processingStage, (hf c).sourceStage, (hf c).parentChunkId]
    rfl
  · rfl

theorem Inputs.updateChunk {f : Chunk → Chunk} (h : Inputs x (x.probes s))
    (hf : ∀ c, SameOrigin c (f c)) : Inputs x (x.probes (s.updateChunk x.id f)) := by
  rw [probes_updateChunk hf]
  intro c hc
  obtain ⟨row, hrow, rfl⟩ := List.mem_map.mp hc
  split
  · rw [(hf row).inputDisk, (hf row).inputKey]
    exact h row hrow
  · exact h row hrow

theorem probeLines_updateChunk {f : Chunk → Chunk} (h : Inputs x (x.probes s))
    (hf : ∀ c, SameOrigin c (f c)) : x.probeLines (s.updateChunk x.id f) = x.probeLines s := by
  rw [probeLines_eq h, probeLines_eq (h.updateChunk hf), probes_updateChunk hf, linesOf, linesOf,
    List.flatMap_map]
  refine List.flatMap_congr fun c _ => ?_
  split
  · rw [(hf c).inputKey]
    rfl
  · rfl

/-- An output is written: the inputs of the probe chunks stay. -/
theorem probeLines_put_output (h : Inputs x (x.probes s)) (no : Nat) (t : OutputType)
    (file : File) :
    x.probeLines (s.put (x.disk, .chunkOutput no t) file) = x.probeLines s := by
  have hinputs : Inputs x (x.probes (s.put (x.disk, .chunkOutput no t) file)) := h
  rw [probeLines_eq h, probeLines_eq hinputs]
  refine linesOf_congr fun c hc => put_objects_of_ne ?_ file
  obtain ⟨-, n, hkey⟩ := h c hc
  rw [hkey]
  simp

theorem outputs_put_valid (file : File) : x.outputs (s.put (x.disk, x.keys.valid) file) =
    { x.outputs s with valid := some file } := by
  simp [Target.outputs, Target.keys, PerType.map, Store.put, Function.update]

theorem outputs_put_invalid (file : File) : x.outputs (s.put (x.disk, x.keys.invalid) file) =
    { x.outputs s with invalid := some file } := by
  simp [Target.outputs, Target.keys, PerType.map, Store.put, Function.update]

theorem outputs_put_risky (file : File) : x.outputs (s.put (x.disk, x.keys.risky) file) =
    { x.outputs s with risky := some file } := by
  simp [Target.outputs, Target.keys, PerType.map, Store.put, Function.update]

theorem outputs_put_input (no : Nat) (file : File) :
    x.outputs (s.put (x.disk, .chunkInput no) file) = x.outputs s := by
  simp [Target.outputs, Target.keys, PerType.map, Store.put, Function.update]

theorem outputs_upload (verdicts : List (Text × Worker.Verdict)) :
    x.outputs (x.upload s verdicts) = (x.screened verdicts).map some := by
  rw [Target.upload, outputs_put_risky, outputs_put_invalid, outputs_put_valid]
  rfl

theorem probeLines_upload (h : Inputs x (x.probes s)) (verdicts : List (Text × Worker.Verdict)) :
    x.probeLines (x.upload s verdicts) = x.probeLines s := by
  have hvalid := probeLines_put_output h x.chunkNo .valid (x.screened verdicts).valid
  have hinvalid := @probeLines_put_output x
    (s.put (x.disk, x.keys.valid) (x.screened verdicts).valid) h x.chunkNo .invalid
    (x.screened verdicts).invalid
  have hrisky := @probeLines_put_output x
    ((s.put (x.disk, x.keys.valid) (x.screened verdicts).valid).put
      (x.disk, x.keys.invalid) (x.screened verdicts).invalid) h x.chunkNo .risky
    (x.screened verdicts).risky
  exact hrisky.trans (hinvalid.trans hvalid)

end Reading

/-! ## Between the attempts -/

/-- The chunk is not completed, no request is under way, and the outputs are those of the last
screening or have been rewritten in part, which takes probe chunks. -/
structure Rest (php : Php) (x : Target) (σ : Settings) (verdicts : List (Text × Worker.Verdict))
    (s : Store) : Prop where
  settings : s.settings = σ
  idle : s.txn = none
  inputs : Inputs x (x.probes s)
  row : ∃ chunk, s.findChunk x.id = some chunk ∧ chunk.stage = .screening ∧
    chunk.status ≠ .completed
  files : x.outputs s ∈ rewrites (x.planned php σ verdicts).hardInvalidRows
    ((x.screened verdicts).map some)
  untouched : x.probes s = [] → x.outputs s = (x.screened verdicts).map some

/-- The chunk is completed, and names its outputs. -/
structure Done (x : Target) (σ : Settings) (s : Store) : Prop where
  settings : s.settings = σ
  idle : s.txn = none
  inputs : Inputs x (x.probes s)
  row : ∃ chunk, s.findChunk x.id = some chunk ∧ chunk.status = .completed ∧
    chunk.outputDisk = some x.disk ∧ chunk.keys = x.keys.map some

/-- The probe chunks after a handoff: those that were there before, or new ones. -/
def Handed (php : Php) (x : Target) (σ : Settings) (verdicts : List (Text × Worker.Verdict))
    (s₀ s : Store) : Prop :=
  if hasProbeChunks s₀ x.id then x.probeLines s = x.probeLines s₀
  else (x.probeLines s).Perm (x.handedOn php σ verdicts)

/-- What the request finds of the chunk. -/
structure Loaded (x : Target) (s : Store) (r : Request) : Prop where
  row : s.findChunk x.id = some r.chunk
  keys : r.payload.keys = x.keys
  disk : r.payload.outputDisk = some x.disk

/-- The transaction is open, `rest` are the shards that are still to be inserted. -/
structure Inserting (php : Php) (x : Target) (s₀ s : Store) (shards : List Shard) (chunkNo : Nat)
    (rest : List Shard) : Prop where
  fresh : x.probes s₀ = []
  chunks : s.chunks = s₀.chunks
  settings : s.settings = s₀.settings
  outputs : x.outputs s = x.outputs s₀
  clean : ∀ shard ∈ rest, ∀ e ∈ shard.emails, Clean php e
  staged : ∃ rows, s.txn = some ⟨0, rows⟩ ∧
    (∀ c ∈ rows, x.isProbe c = true ∧ c.inputDisk = some x.disk ∧
      ∃ n < chunkNo, c.inputKey = .chunkInput n) ∧
    linesOf x s rows ++ rest.flatMap Shard.emails = shards.flatMap Shard.emails

/-- What the request does after the outputs are rewritten does not touch the handoff. -/
def isLast : Instr → Bool
  | .readMetrics _ _ | .saveMetrics _ _ | .dispatchFinalize => true
  | _ => false

section Phases
variable (php : Php) (x : Target) (σ : Settings) (verdicts : List (Text × Worker.Verdict))

/-- The end of `rewriteScreeningOutputs`, and what follows. -/
def writeInvalid (r : Request) (candidates : Nat) : List Instr :=
  .putObject (x.disk, x.keys.invalid) (writeRows (x.planned php σ verdicts).hardInvalidRows) ::
    finishScreening r (some candidates)

def writeRisky (r : Request) (candidates : Nat) : List Instr :=
  .putObject (x.disk, x.keys.risky) (writeRows []) :: writeInvalid php x σ verdicts r candidates

/-- `rewriteScreeningOutputs`, and what follows. -/
def writeValid (r : Request) (candidates : Nat) : List Instr :=
  .putObject (x.disk, x.keys.valid) (writeRows []) :: writeRisky php x σ verdicts r candidates

/-- The run begins when the outputs of a first screening are there. -/
structure Begins (s : Store) : Prop where
  idle : s.txn = none
  row : ∃ chunk, s.findChunk x.id = some chunk ∧ chunk.stage = .screening ∧
    chunk.status ≠ .completed
  fresh : x.probes s = []
  outputs : x.outputs s = (x.screened verdicts).map some

/-- What a run may rely on: the filter, the settings, and addresses as the parser accepts them. -/
structure Sound : Prop where
  lawful : php.Lawful
  enabled : σ.probeStageEnabled = true
  reasons : ∃ configured, σ.screeningHardInvalidReasons = hardInvalidReasons configured
  clean : ∀ e ∈ x.emails, Clean php e
  nodup : x.emails.Nodup

/-- A request under way that began at `s₀`. -/
inductive Phase (s₀ : Store) : Store → List Instr → Prop
  | load (emailCount : Option Nat) (counts : PerType (Option Nat))
      (hrest : Rest php x σ verdicts s₀) :
      Phase s₀ s₀ [.loadCompletion x.id ⟨some x.disk, x.keys, emailCount, counts⟩]
  | plan {r : Request} (hrest : Rest php x σ verdicts s₀) (hr : Loaded x s₀ r) :
      Phase s₀ s₀ [.planHandoff r]
  | probe {r : Request} {n : Nat} {candidates : List Candidate}
      (hrest : Rest php x σ verdicts s₀) (hr : Loaded x s₀ r)
      (hplan : candidates =
        (classify php σ.screeningHardInvalidReasons (x.outputs s₀)).candidates)
      (hne : candidates ≠ []) :
      Phase s₀ s₀ (.beginProbe r x.disk (buildProbeShards σ candidates) ::
        writeValid php x σ verdicts r n)
  | shards {s : Store} {r : Request} {n group attempts now id chunkNo : Nat}
      {shards rest : List Shard} (hrest : Rest php x σ verdicts s₀) (hr : Loaded x s₀ r)
      (hins : Inserting php x s₀ s shards chunkNo rest)
      (hshards : (shards.flatMap Shard.emails).Perm (x.handedOn php σ verdicts))
      (hne : shards.flatMap Shard.emails ≠ []) :
      Phase s₀ s (insertShards x.id group x.disk attempts now id chunkNo rest ++
        .commit :: writeValid php x σ verdicts r n)
  | insert {s : Store} {r : Request} {n group attempts now id chunkNo : Nat}
      {shards rest : List Shard} {shard : Shard} (hrest : Rest php x σ verdicts s₀)
      (hr : Loaded x s₀ r) (hins : Inserting php x s₀ s shards chunkNo (shard :: rest))
      (hput : s.objects (x.disk, .chunkInput chunkNo) = some (inputFile shard.emails))
      (hshards : (shards.flatMap Shard.emails).Perm (x.handedOn php σ verdicts))
      (hne : shards.flatMap Shard.emails ≠ []) :
      Phase s₀ s (.insertChunk (probeChunk x.id id chunkNo group x.disk attempts shard now) ::
        (insertShards x.id group x.disk attempts now (id + 1) (chunkNo + 1) rest ++
          .commit :: writeValid php x σ verdicts r n))
  | valid {s : Store} {r : Request} {n : Nat} (hrest : Rest php x σ verdicts s)
      (hr : Loaded x s r) (hprobes : x.probes s ≠ []) (hhanded : Handed php x σ verdicts s₀ s) :
      Phase s₀ s (writeValid php x σ verdicts r n)
  | risky {s : Store} {r : Request} {n : Nat} (hrest : Rest php x σ verdicts s)
      (hr : Loaded x s r) (hprobes : x.probes s ≠ []) (hhanded : Handed php x σ verdicts s₀ s)
      (hvalid : (x.outputs s).valid = some (writeRows [])) :
      Phase s₀ s (writeRisky php x σ verdicts r n)
  | invalid {s : Store} {r : Request} {n : Nat} (hrest : Rest php x σ verdicts s)
      (hr : Loaded x s r) (hprobes : x.probes s ≠ []) (hhanded : Handed php x σ verdicts s₀ s)
      (hvalid : (x.outputs s).valid = some (writeRows []))
      (hrisky : (x.outputs s).risky = some (writeRows [])) :
      Phase s₀ s (writeInvalid php x σ verdicts r n)
  | finish {s : Store} {r : Request} {n : Nat} (hrest : Rest php x σ verdicts s)
      (hr : Loaded x s r) (hhanded : Handed php x σ verdicts s₀ s)
      (hkept : (normalized php (x.outputs s)).Perm (x.kept php σ verdicts)) :
      Phase s₀ s (finishScreening r (some n))
  | done {s : Store} {code : List Instr} (hdone : Done x σ s)
      (hfiles : x.outputs s ∈ rewrites (x.planned php σ verdicts).hardInvalidRows
        ((x.screened verdicts).map some))
      (hhanded : Handed php x σ verdicts s₀ s)
      (hkept : (normalized php (x.outputs s)).Perm (x.kept php σ verdicts))
      (hcode : code.all isLast = true) :
      Phase s₀ s code
  | refused {s : Store} (hrest : Rest php x σ verdicts s) : Phase s₀ s []

end Phases

/-! ## A screening -/

section Screening
variable {php : Php} {x : Target} {σ : Settings} {verdicts : List (Text × Worker.Verdict)}

theorem outputFiles_screened (hphp : php.Lawful) (hclean : ∀ e ∈ x.emails, Clean php e)
    (t : OutputType) : OutputFile php ((x.screened verdicts).get t) := by
  have hfile := outputFile_worker hphp hclean verdicts t
  cases t with
  | valid | invalid | risky => exact hfile

/-- The outputs of a screening have each address of the input once. -/
theorem perm_screened (hphp : php.Lawful) (hclean : ∀ e ∈ x.emails, Clean php e) :
    (normalized php ((x.screened verdicts).map some)).Perm x.emails := by
  rw [normalized_emails hphp (outputFiles_screened hphp hclean)]
  exact buildOutputs_emails hphp hclean verdicts

/-- What is kept and what is handed on are the addresses. -/
theorem perm_planned (hphp : php.Lawful) (hclean : ∀ e ∈ x.emails, Clean php e)
    (hnodup : x.emails.Nodup) :
    (x.kept php σ verdicts ++ x.handedOn php σ verdicts).Perm x.emails :=
  (classify_emails ((perm_screened hphp hclean).nodup_iff.mpr hnodup)).trans
    (perm_screened hphp hclean)

/-- Rewritten outputs are read by the merge as by the planner. -/
theorem emailsOf_of_rewrites (hphp : php.Lawful) (hclean : ∀ e ∈ x.emails, Clean php e)
    {files : PerType (Option File)}
    (h : files ∈ rewrites (x.planned php σ verdicts).hardInvalidRows
      ((x.screened verdicts).map some)) : Target.emailsOf files = normalized php files := by
  obtain ⟨left, rfl, hleft⟩ := outputFiles_of_rewrites (outputFiles_screened hphp hclean) h
  rw [normalized_emails hphp hleft, Target.emailsOf]
  refine List.flatMap_congr fun t _ => ?_
  rw [PerType.get_map]
  rfl

end Screening

/-! ## A step of a request -/

section Step
variable {php : Php} {x : Target} {σ : Settings} {verdicts : List (Text × Worker.Verdict)}
  {s₀ s s' : Store} {i : Instr} {rest : List Instr} {next : Next Instr} {r : Request} {n : Nat}

theorem rollback_of_idle (h : s.txn = none) (p : Nat) : s.rollback p = s := by
  rw [Store.rollback, h]
  rfl

theorem Loaded.id_eq (h : Loaded x s r) : r.chunk.id = x.id := Table.key_of_find h.row

theorem Loaded.outputDisk (h : Loaded x s r) : r.outputDisk = some x.disk := by
  rw [Request.outputDisk, h.disk]
  rfl

/-- One of the outputs is rewritten. -/
theorem Rest.put (h : Rest php x σ verdicts s) (hprobes : x.probes s ≠ []) {t : OutputType}
    {file : File}
    (hfiles : x.outputs (s.put (x.disk, .chunkOutput x.chunkNo t) file) ∈
      rewrites (x.planned php σ verdicts).hardInvalidRows ((x.screened verdicts).map some)) :
    Rest php x σ verdicts (s.put (x.disk, .chunkOutput x.chunkNo t) file) where
  settings := h.settings
  idle := h.idle
  inputs := h.inputs
  row := h.row
  files := hfiles
  untouched := fun hnil => absurd hnil hprobes

theorem Handed.put (h : Handed php x σ verdicts s₀ s) (hinputs : Inputs x (x.probes s))
    (t : OutputType) (file : File) :
    Handed php x σ verdicts s₀ (s.put (x.disk, .chunkOutput x.chunkNo t) file) := by
  rw [Handed, probeLines_put_output hinputs]
  exact h

/-- A transaction that is rolled back leaves the handoff where it was. -/
theorem Inserting.rolledBack {shards rest : List Shard} {chunkNo : Nat}
    (h : Inserting php x s₀ s shards chunkNo rest) (hrest : Rest php x σ verdicts s₀) :
    Rest php x σ verdicts (s.rollback 0) := by
  obtain ⟨rows, htxn, -⟩ := h.staged
  have hback : s.rollback 0 = { s with txn := none } := by
    rw [Store.rollback, htxn]
    rfl
  have hprobes : x.probes (s.rollback 0) = x.probes s₀ := by
    rw [Target.probes, Target.probes, Store.rollback_chunks, h.chunks]
  have houtputs : x.outputs (s.rollback 0) = x.outputs s₀ := by
    rw [← h.outputs, Target.outputs, Target.outputs, Store.rollback_objects]
  refine ⟨?_, ?_, ?_, ?_, houtputs ▸ hrest.files, fun _ => ?_⟩
  · rw [hback]
    exact h.settings.trans hrest.settings
  · rw [hback]
  · rw [hprobes]
    exact hrest.inputs
  · rw [Store.findChunk_rollback, Store.findChunk, h.chunks]
    exact hrest.row
  · rw [houtputs]
    exact hrest.untouched h.fresh

/-- The transaction is committed: its rows are the probe chunks. -/
theorem Inserting.commit {shards : List Shard} {chunkNo : Nat} {rows : List Chunk}
    (h : Inserting php x s₀ s shards chunkNo []) (hrest : Rest php x σ verdicts s₀)
    (hr : Loaded x s₀ r) (htxn : s.txn = some ⟨0, rows⟩)
    (hshards : (shards.flatMap Shard.emails).Perm (x.handedOn php σ verdicts))
    (hne : shards.flatMap Shard.emails ≠ []) :
    Phase php x σ verdicts s₀ { s with chunks := s.chunks ++ rows, txn := none }
      (writeValid php x σ verdicts r n) := by
  obtain ⟨rows', htxn', hrows, hlines⟩ := h.staged
  obtain rfl : rows' = rows := by
    rw [htxn] at htxn'
    exact (congrArg Txn.rows (Option.some.inj htxn')).symm
  have hprobes : x.probes { s with chunks := s.chunks ++ rows', txn := none } = rows' := by
    have hold : s₀.chunks.filter x.isProbe = [] := h.fresh
    rw [Target.probes, h.chunks, List.filter_append, hold, List.nil_append]
    exact List.filter_eq_self.mpr fun c hc => (hrows c hc).1
  have hinputs : Inputs x (x.probes { s with chunks := s.chunks ++ rows', txn := none }) := by
    rw [hprobes]
    intro c hc
    obtain ⟨-, hdisk, m, -, hkey⟩ := hrows c hc
    exact ⟨hdisk, m, hkey⟩
  rw [List.flatMap_nil, List.append_nil] at hlines
  have hfind : ∀ chunk, s₀.findChunk x.id = some chunk →
      Store.findChunk { s with chunks := s.chunks ++ rows', txn := none } x.id = some chunk := by
    intro chunk hchunk
    rw [Store.findChunk, Table.find_append, h.chunks]
    rw [Store.findChunk] at hchunk
    rw [hchunk]
    rfl
  obtain ⟨chunk, hchunk, hopen⟩ := hrest.row
  refine .valid ⟨h.settings.trans hrest.settings, rfl, hinputs,
    ⟨chunk, hfind chunk hchunk, hopen⟩, ?_, fun _ => ?_⟩ ⟨hfind _ hr.row, hr.keys, hr.disk⟩ ?_ ?_
  · exact h.outputs ▸ hrest.files
  · exact h.outputs.trans (hrest.untouched h.fresh)
  · rw [hprobes]
    rintro rfl
    exact hne hlines.symm
  · rw [Handed, hasProbeChunks_eq_false.mpr h.fresh, if_neg Bool.false_ne_true,
      probeLines_eq hinputs, hprobes]
    exact (List.Perm.of_eq hlines).trans hshards

/-- The input of the next shard is written. -/
theorem Inserting.put {shards rest : List Shard} {shard : Shard} {chunkNo : Nat}
    (h : Inserting php x s₀ s shards chunkNo (shard :: rest)) :
    Inserting php x s₀ (s.put (x.disk, .chunkInput chunkNo) (inputFile shard.emails)) shards
      chunkNo (shard :: rest) := by
  obtain ⟨rows, htxn, hrows, hlines⟩ := h.staged
  refine ⟨h.fresh, h.chunks, h.settings, (outputs_put_input _ _).trans h.outputs, h.clean, rows,
    htxn, hrows, ?_⟩
  rw [← hlines]
  refine congrArg (· ++ _) (linesOf_congr fun c hc => put_objects_of_ne ?_ _)
  obtain ⟨-, -, m, hm, hkey⟩ := hrows c hc
  rw [hkey]
  simpa using hm.ne

/-- Its row is inserted. -/
theorem Inserting.insert {shards rest : List Shard} {shard : Shard}
    {chunkNo id group attempts now : Nat} {rows : List Chunk} (hphp : php.Lawful)
    (h : Inserting php x s₀ s shards chunkNo (shard :: rest))
    (hput : s.objects (x.disk, .chunkInput chunkNo) = some (inputFile shard.emails))
    (htxn : s.txn = some ⟨0, rows⟩) :
    Inserting php x s₀ { s with txn := some ⟨0, rows ++
        [probeChunk x.id id chunkNo group x.disk attempts shard now]⟩ }
      shards (chunkNo + 1) rest := by
  obtain ⟨rows', htxn', hrows, hlines⟩ := h.staged
  obtain rfl : rows' = rows := by
    rw [htxn] at htxn'
    exact (congrArg Txn.rows (Option.some.inj htxn')).symm
  refine ⟨h.fresh, h.chunks, h.settings, h.outputs, fun other ho => h.clean other (.tail _ ho),
    _, rfl, ?_, ?_⟩
  · intro c hc
    rcases List.mem_append.mp hc with hc | hc
    · obtain ⟨hprobe, hdisk, m, hm, hkey⟩ := hrows c hc
      exact ⟨hprobe, hdisk, m, hm.trans (Nat.lt_succ_self _), hkey⟩
    · rw [List.mem_singleton.mp hc]
      exact ⟨by simp [Target.isProbe, probeChunk], rfl, chunkNo, Nat.lt_succ_self _, rfl⟩
  · have hlast : linesOf x s [probeChunk x.id id chunkNo group x.disk attempts shard now] =
        shard.emails := by
      have hkey : (probeChunk x.id id chunkNo group x.disk attempts shard now).inputKey =
          .chunkInput chunkNo := rfl
      rw [linesOf, List.flatMap_singleton, hkey, hput, Option.getD_some,
        lines_inputFile hphp (h.clean shard (.head _))]
    rw [← hlines, List.flatMap_cons, ← List.append_assoc]
    refine congrArg (· ++ _) ?_
    rw [linesOf, List.flatMap_append]
    exact congrArg (_ ++ ·) hlast

/-- The next instruction of the transaction. -/
theorem Phase.step_shards {id group attempts now chunkNo : Nat} {shards more : List Shard}
    (hrest : Rest php x σ verdicts s₀) (hr : Loaded x s₀ r)
    (hins : Inserting php x s₀ s shards chunkNo more)
    (hshards : (shards.flatMap Shard.emails).Perm (x.handedOn php σ verdicts))
    (hne : shards.flatMap Shard.emails ≠ [])
    (hcode : i :: rest = insertShards x.id group x.disk attempts now id chunkNo more ++
      .commit :: writeValid php x σ verdicts r n)
    (hexec : exec php 0 i s = some (s', next)) :
    Phase php x σ verdicts s₀ s' (next.resume [] rest) := by
  induction more generalizing id chunkNo with
  | nil =>
    rw [insertShards, List.nil_append] at hcode
    obtain ⟨rfl, rfl⟩ := List.cons.inj hcode
    obtain ⟨rows, htxn, -⟩ := hins.staged
    have hdone : exec php 0 .commit s =
        some ({ s with chunks := s.chunks ++ rows, txn := none }, .go []) := by
      rw [exec, ValidEmailVerifier.commit, htxn]
    obtain ⟨rfl, rfl⟩ := Prod.mk.inj (Option.some.inj (hdone.symm.trans hexec))
    exact hins.commit hrest hr htxn hshards hne
  | cons shard more ih =>
    rw [insertShards] at hcode
    split at hcode
    · next hnil =>
      -- an empty shard is skipped
      have hskip : Inserting php x s₀ s shards chunkNo more := by
        obtain ⟨rows, htxn, hrows, hlines⟩ := hins.staged
        rw [List.flatMap_cons, hnil, List.nil_append] at hlines
        exact ⟨hins.fresh, hins.chunks, hins.settings, hins.outputs,
          fun other ho => hins.clean other (.tail _ ho), rows, htxn, hrows, hlines⟩
      exact ih hskip hcode
    · rw [List.cons_append, List.cons_append] at hcode
      obtain ⟨rfl, rfl⟩ := List.cons.inj hcode
      obtain ⟨rfl, rfl⟩ := Prod.mk.inj (Option.some.inj hexec)
      exact .insert hrest hr hins.put (put_objects_self _ _) hshards hne

theorem Phase.step_insert {id group attempts now chunkNo : Nat} {shards more : List Shard}
    {shard : Shard} (hphp : php.Lawful)
    (hrest : Rest php x σ verdicts s₀) (hr : Loaded x s₀ r)
    (hins : Inserting php x s₀ s shards chunkNo (shard :: more))
    (hput : s.objects (x.disk, .chunkInput chunkNo) = some (inputFile shard.emails))
    (hshards : (shards.flatMap Shard.emails).Perm (x.handedOn php σ verdicts))
    (hne : shards.flatMap Shard.emails ≠ [])
    (hexec : insertChunk s 0 (probeChunk x.id id chunkNo group x.disk attempts shard now) =
      some (s', next)) :
    Phase php x σ verdicts s₀ s' (next.resume []
      (insertShards x.id group x.disk attempts now (id + 1) (chunkNo + 1) more ++
        .commit :: writeValid php x σ verdicts r n)) := by
  obtain ⟨rows, htxn, -⟩ := hins.staged
  rw [insertChunk] at hexec
  split at hexec
  · obtain ⟨rfl, rfl⟩ := Prod.mk.inj (Option.some.inj hexec)
    exact .refused (hins.rolledBack hrest)
  · rw [htxn] at hexec
    obtain ⟨rfl, rfl⟩ := Prod.mk.inj (Option.some.inj hexec)
    exact .shards hrest hr (hins.insert hphp hput htxn) hshards hne

theorem Sound.normal (h : Sound php x σ) : ∀ reason ∈ σ.screeningHardInvalidReasons,
    trim reason = reason ∧ strtolower reason = reason := by
  obtain ⟨configured, hconfigured⟩ := h.reasons
  rw [hconfigured]
  exact fun reason hreason => normal_of_mem_hardInvalidReasons hreason

theorem Sound.nodup_screened (h : Sound php x σ) :
    (normalized php ((x.screened verdicts).map some)).Nodup :=
  (perm_screened h.lawful h.clean).nodup_iff.mpr h.nodup

/-- The chunk is loaded. -/
theorem Phase.step_load (hsound : Sound php x σ) (hrest : Rest php x σ verdicts s)
    {emailCount : Option Nat} {counts : PerType (Option Nat)}
    (hexec : loadCompletion s x.id ⟨some x.disk, x.keys, emailCount, counts⟩ = some (s', next)) :
    Phase php x σ verdicts s s' (next.resume [] []) := by
  obtain ⟨chunk, hchunk, hstage, hopen⟩ := hrest.row
  have henabled : s.settings.probeStageEnabled = true := hrest.settings ▸ hsound.enabled
  have hgo : ∀ {s' : Store} {next : Next Instr},
      (some (s, .go [.planHandoff ⟨chunk, ⟨some x.disk, x.keys, emailCount, counts⟩⟩]) : Effect) =
        some (s', next) → Phase php x σ verdicts s s' (next.resume [] []) := by
    intro s' next heq
    obtain ⟨rfl, rfl⟩ := store_eq heq
    exact .plan hrest ⟨hchunk, rfl, rfl⟩
  rw [loadCompletion, hchunk] at hexec
  cases hstatus : chunk.status with
  | completed => exact absurd hstatus hopen
  | failed =>
    simp only [hstatus] at hexec
    obtain ⟨rfl, rfl⟩ := store_eq hexec
    exact .refused hrest
  | pending | processing =>
    simp only [hstatus, hstage, henabled, if_true] at hexec
    exact hgo hexec

/-- The outputs are classified. -/
theorem Phase.step_plan (hsound : Sound php x σ) (hrest : Rest php x σ verdicts s)
    (hr : Loaded x s r) (hexec : planHandoff php s r = some (s', next)) :
    Phase php x σ verdicts s s' (next.resume [] []) := by
  have hplan : classification php s r x.disk =
      classify php σ.screeningHardInvalidReasons (x.outputs s) := by
    rw [classification, outputFiles, hr.keys, hrest.settings]
    rfl
  have hkept := hardInvalidRows_of_rewrites hsound.lawful hsound.normal hrest.files
  rw [planHandoff, hr.outputDisk] at hexec
  simp only [hplan] at hexec
  split at hexec
  · next hnil =>
    obtain ⟨rfl, rfl⟩ := store_eq hexec
    have hemails := emails_of_rewrites hsound.lawful hsound.normal hsound.nodup_screened hrest.files
    rw [hnil, List.map_nil, List.append_nil] at hemails
    refine .finish hrest hr ?_ hemails
    rw [Handed]
    split
    · rfl
    · next hnone =>
      have hprobes := hasProbeChunks_eq_false.mp (Bool.eq_false_iff.mpr hnone)
      have hhanded : x.handedOn php σ verdicts = [] := by
        rw [Target.handedOn, Target.planned, ← hrest.untouched hprobes, hnil]
        rfl
      rw [hhanded, Target.probeLines, hprobes]
      exact .refl []
  · next hne =>
    obtain ⟨rfl, rfl⟩ := store_eq hexec
    have hcode : ∀ n, handoffCode s'.settings r x.disk
          (classify php σ.screeningHardInvalidReasons (x.outputs s')) ++
        finishScreening r (some n) =
        .beginProbe r x.disk (buildProbeShards σ
          (classify php σ.screeningHardInvalidReasons (x.outputs s')).candidates) ::
          writeValid php x σ verdicts r n := by
      intro n
      rw [handoffCode, hr.keys, hrest.settings, hkept]
      rfl
    rw [Next.resume_go, List.append_nil, hcode]
    exact .probe hrest hr rfl hne

/-- The transaction is opened, unless there are probe chunks. -/
theorem Phase.step_probe (hrest : Rest php x σ verdicts s) (hr : Loaded x s r)
    {candidates : List Candidate}
    (hplan : candidates = (classify php σ.screeningHardInvalidReasons (x.outputs s)).candidates)
    (hne : candidates ≠ [])
    (hexec : beginProbe s 0 r x.disk (buildProbeShards σ candidates) = some (s', next)) :
    Phase php x σ verdicts s s' (next.resume [] (writeValid php x σ verdicts r n)) := by
  rw [beginProbe, Store.lockJob, hrest.idle, hr.id_eq] at hexec
  simp only [Option.isSome_none, Bool.false_eq_true, if_false] at hexec
  split at hexec
  · next hhas =>
    obtain ⟨rfl, rfl⟩ := Prod.mk.inj (Option.some.inj hexec)
    refine .valid hrest hr (hasProbeChunks_iff.mp hhas) ?_
    rw [Handed, if_pos hhas]
  · next hnone =>
    obtain ⟨rfl, rfl⟩ := Prod.mk.inj (Option.some.inj hexec)
    have hprobes := hasProbeChunks_eq_false.mp (Bool.eq_false_iff.mpr hnone)
    have hshards : ((buildProbeShards σ candidates).flatMap Shard.emails).Perm
        (candidates.map Candidate.email) :=
      buildProbeShards_emails σ (hplan ▸ nodup_candidates php _ _)
    have hhanded : candidates.map Candidate.email = x.handedOn php σ verdicts := by
      rw [hplan, hrest.untouched hprobes]
      rfl
    have hsome : (buildProbeShards σ candidates).flatMap Shard.emails ≠ [] := by
      intro hnil
      rw [hnil] at hshards
      exact hne (List.map_eq_nil_iff.mp hshards.symm.eq_nil)
    have hins : Inserting php x s
        { s with nextId := s.nextId + (buildProbeShards σ candidates).length + 1
                 txn := some ⟨0, []⟩ }
        (buildProbeShards σ candidates) (s.maxChunkNo + 1) (buildProbeShards σ candidates) := by
      refine ⟨hprobes, rfl, rfl, rfl, fun shard hshard => ?_, [], rfl, ?_, rfl⟩
      · exact WorkerLoop.clean_shards (hplan ▸ hshard)
      · intro c hc
        exact absurd hc List.not_mem_nil
    rw [Next.resume_go, List.append_assoc, List.singleton_append]
    exact .shards hrest hr hins (hhanded ▸ hshards) hsome

/-- The row is updated: the chunk is completed. -/
theorem Done.of_update (hrest : Rest php x σ verdicts s) (hr : Loaded x s r) :
    Done x σ (s.updateChunk x.id (Chunk.update r.chunk r.completed)) := by
  obtain ⟨chunk, hchunk, -, hopen⟩ := hrest.row
  obtain rfl : r.chunk = chunk := Option.some.inj (hr.row.symm.trans hchunk)
  have hsame : ∀ c, SameOrigin c (Chunk.update r.chunk r.completed c) :=
    sameOrigin_update r.chunk r.completed
  refine ⟨hrest.settings, hrest.idle, hrest.inputs.updateChunk hsame,
    Chunk.update r.chunk r.completed r.chunk, ?_, dirty_fresh _ _, ?_, ?_⟩
  · rw [Store.findChunk_updateChunk_self fun c => (hsame c).id, hchunk]
    rfl
  · exact (dirty_fresh _ _).trans hr.outputDisk
  · have hkeys : r.completed.keys = x.keys.map some := congrArg (PerType.map some) hr.keys
    rw [← hkeys]
    simp only [Chunk.update, dirty_fresh]

/-- What follows does not touch the handoff. -/
theorem Phase.step_last (hdone : Done x σ s)
    (hfiles : x.outputs s ∈ rewrites (x.planned php σ verdicts).hardInvalidRows
      ((x.screened verdicts).map some))
    (hhanded : Handed php x σ verdicts s₀ s)
    (hkept : (normalized php (x.outputs s)).Perm (x.kept php σ verdicts))
    (hcode : (i :: rest).all isLast = true) (hexec : exec php 0 i s = some (s', next)) :
    Phase php x σ verdicts s₀ s' (next.resume [] rest) := by
  rw [List.all_cons, Bool.and_eq_true] at hcode
  obtain ⟨hi, hrest⟩ := hcode
  have hsame : ∀ t : Store, t.settings = s.settings → t.txn = s.txn → t.chunks = s.chunks →
      t.objects = s.objects → t.job = s.job → ∀ {code : List Instr}, code.all isLast = true →
        Phase php x σ verdicts s₀ t code := by
    rintro ⟨_, _, _, _, _, _, _, _, _, _, _⟩ rfl rfl rfl rfl rfl code hall
    exact .done ⟨hdone.settings, hdone.idle, hdone.inputs, hdone.row⟩ hfiles hhanded hkept hall
  cases i with
  | readMetrics id delta =>
    obtain ⟨rfl, rfl⟩ := Prod.mk.inj (Option.some.inj hexec)
    exact hsame _ rfl rfl rfl rfl rfl hrest
  | saveMetrics id write =>
    obtain ⟨rfl, rfl⟩ := Prod.mk.inj (Option.some.inj hexec)
    exact hsame { s with metrics := write.apply s.metrics, recorded := s.recorded ++ [id] }
      rfl rfl rfl rfl rfl hrest
  | dispatchFinalize =>
    obtain ⟨rfl, rfl⟩ := Prod.mk.inj (Option.some.inj hexec)
    exact hsame { s with queue := s.queue + 1 } rfl rfl rfl rfl rfl hrest
  | _ => cases hi

/-- **An instruction keeps the request within its phases.** -/
theorem Phase.step (hsound : Sound php x σ) {code : List Instr}
    (h : Phase php x σ verdicts s₀ s code) (hcode : code = i :: rest)
    (hexec : exec php 0 i s = some (s', next)) :
    Phase php x σ verdicts s₀ s' (next.resume [] rest) := by
  cases h with
  | load emailCount counts hrest =>
    obtain ⟨rfl, rfl⟩ := List.cons.inj hcode
    exact .step_load hsound hrest hexec
  | plan hrest hr =>
    obtain ⟨rfl, rfl⟩ := List.cons.inj hcode
    exact .step_plan hsound hrest hr hexec
  | probe hrest hr hplan hne =>
    obtain ⟨rfl, rfl⟩ := List.cons.inj hcode
    exact .step_probe hrest hr hplan hne hexec
  | shards hrest hr hins hshards hne =>
    exact .step_shards hrest hr hins hshards hne hcode.symm hexec
  | insert hrest hr hins hput hshards hne =>
    obtain ⟨rfl, rfl⟩ := List.cons.inj hcode
    exact .step_insert hsound.lawful hrest hr hins hput hshards hne hexec
  | valid hrest hr hprobes hhanded =>
    obtain ⟨rfl, rfl⟩ := List.cons.inj hcode
    obtain ⟨rfl, rfl⟩ := Prod.mk.inj (Option.some.inj hexec)
    have hfiles := rewrites_valid hrest.files
    rw [← outputs_put_valid] at hfiles
    refine .risky (hrest.put hprobes hfiles) ⟨hr.row, hr.keys, hr.disk⟩ hprobes
      (hhanded.put hrest.inputs _ _) ?_
    exact congrArg PerType.valid (outputs_put_valid _)
  | risky hrest hr hprobes hhanded hvalid =>
    obtain ⟨rfl, rfl⟩ := List.cons.inj hcode
    obtain ⟨rfl, rfl⟩ := Prod.mk.inj (Option.some.inj hexec)
    have hfiles := rewrites_risky hrest.files hvalid
    rw [← outputs_put_risky] at hfiles
    refine .invalid (hrest.put hprobes hfiles) ⟨hr.row, hr.keys, hr.disk⟩ hprobes
      (hhanded.put hrest.inputs _ _) ?_ ?_
    · exact (congrArg PerType.valid (outputs_put_risky _)).trans hvalid
    · exact congrArg PerType.risky (outputs_put_risky _)
  | invalid hrest hr hprobes hhanded hvalid hrisky =>
    obtain ⟨rfl, rfl⟩ := List.cons.inj hcode
    obtain ⟨rfl, rfl⟩ := Prod.mk.inj (Option.some.inj hexec)
    have hlast := @outputs_put_invalid x s (writeRows (x.planned php σ verdicts).hardInvalidRows)
    rw [rewrites_invalid hvalid hrisky] at hlast
    refine .finish (hrest.put hprobes (hlast ▸ mem_rewrites.mpr (.inr (.inr (.inr rfl)))))
      ⟨hr.row, hr.keys, hr.disk⟩ (hhanded.put hrest.inputs _ _) ?_
    have hnone : ∀ t, addresses php (some (writeRows [])) t = [] :=
      addresses_writeRows hsound.lawful (by simp)
    have hclean : ∀ r ∈ (x.planned php σ verdicts).hardInvalidRows, Clean php r.1 :=
      fun r hr => (of_mem_hardInvalidRows hr).1
    rw [hlast, normalized_eq, hnone, hnone, List.nil_append, List.append_nil,
      addresses_writeRows hsound.lawful hclean]
    exact .refl _
  | @finish _ r n hrest hr hhanded hkept =>
    obtain ⟨rfl, rfl⟩ := List.cons.inj hcode
    obtain ⟨rfl, rfl⟩ := Prod.mk.inj (Option.some.inj hexec)
    have hsame : ∀ c, SameOrigin c (Chunk.update r.chunk r.completed c) :=
      sameOrigin_update r.chunk r.completed
    rw [hr.id_eq]
    refine .done (.of_update hrest hr) hrest.files ?_ hkept rfl
    rw [Handed, probeLines_updateChunk hrest.inputs hsame]
    exact hhanded
  | done hdone hfiles hhanded hkept hall =>
    exact .step_last hdone hfiles hhanded hkept (hcode ▸ hall) hexec
  | refused hrest => cases hcode

theorem runAlone_nil (id steps : Nat) : runAlone php id steps (s, []) = (s, []) := by
  cases steps with
  | zero => rfl
  | succ steps => rfl

/-- However many instructions are executed. -/
theorem Phase.runAlone (hsound : Sound php x σ) {code : List Instr}
    (h : Phase php x σ verdicts s₀ s code) (steps : Nat) :
    Phase php x σ verdicts s₀ (runAlone php x.id steps (s, code)).1
      (runAlone php x.id steps (s, code)).2 := by
  induction steps generalizing s code with
  | zero => exact h
  | succ steps ih =>
    cases code with
    | nil => exact h
    | cons i rest =>
      rw [HandoffAttempts.runAlone]
      cases hexec : exec php 0 i s with
      | none => exact h
      | some result => exact ih (h.step hsound rfl hexec)

/-- Where a request leaves the chunk. -/
inductive After (php : Php) (x : Target) (σ : Settings) (verdicts : List (Text × Worker.Verdict))
    (s₀ s : Store) : Prop
  | rest (hrest : Rest php x σ verdicts s)
  | done (hdone : Done x σ s) (hhanded : Handed php x σ verdicts s₀ s)
      (hkept : (Target.emailsOf (x.outputs s)).Perm (x.kept php σ verdicts))

/-- **Wherever a request throws**, the chunk is open, or completed and handed on. -/
theorem Phase.stop (hsound : Sound php x σ) {code : List Instr}
    (h : Phase php x σ verdicts s₀ s code) :
    After php x σ verdicts s₀ (s.rollback 0) := by
  have hopen : ∀ {t : Store}, Rest php x σ verdicts t →
      After php x σ verdicts s₀ (t.rollback 0) := by
    intro t hrest
    rw [rollback_of_idle hrest.idle]
    exact .rest hrest
  cases h with
  | load emailCount counts hrest => exact hopen hrest
  | plan hrest => exact hopen hrest
  | probe hrest => exact hopen hrest
  | shards hrest hr hins => exact .rest (hins.rolledBack hrest)
  | insert hrest hr hins => exact .rest (hins.rolledBack hrest)
  | valid hrest => exact hopen hrest
  | risky hrest => exact hopen hrest
  | invalid hrest => exact hopen hrest
  | finish hrest => exact hopen hrest
  | done hdone hfiles hhanded hkept =>
    rw [rollback_of_idle hdone.idle]
    refine .done hdone hhanded ?_
    rw [emailsOf_of_rewrites hsound.lawful hsound.clean hfiles]
    exact hkept
  | refused hrest => exact hopen hrest

/-! ## A step -/

theorem Rest.upload (h : Rest php x σ verdicts s) (new : List (Text × Worker.Verdict)) :
    Rest php x σ new (x.upload s new) where
  settings := h.settings
  idle := h.idle
  inputs := h.inputs
  row := h.row
  files := by
    rw [outputs_upload]
    exact mem_rewrites.mpr (.inl rfl)
  untouched := fun _ => outputs_upload new

/-- The row is updated, and not completed by that. -/
theorem Rest.updateChunk {f : Chunk → Chunk} (h : Rest php x σ verdicts s)
    (hf : ∀ c, SameOrigin c (f c))
    (hrow : ∀ chunk, s.findChunk x.id = some chunk → (f chunk).status ≠ .completed) :
    Rest php x σ verdicts (s.updateChunk x.id f) := by
  obtain ⟨chunk, hchunk, hstage, -⟩ := h.row
  refine ⟨h.settings, h.idle, h.inputs.updateChunk hf, ⟨f chunk, ?_, ?_, hrow chunk hchunk⟩,
    h.files, fun hnil => h.untouched ?_⟩
  · rw [Store.findChunk_updateChunk_self fun c => (hf c).id, hchunk]
    rfl
  · rw [Chunk.stage, (hf chunk).processingStage]
    exact hstage
  · rw [probes_updateChunk hf] at hnil
    exact List.map_eq_nil_iff.mp hnil

theorem Rest.fail (h : Rest php x σ verdicts s) (retryable : Bool) (steps : Nat) :
    Rest php x σ verdicts (request php x.id steps [.loadFailure x.id retryable] s) := by
  obtain ⟨chunk, hchunk, hstage, hopen⟩ := h.row
  have hstay : Rest php x σ verdicts (s.rollback 0) := (rollback_of_idle h.idle 0).symm ▸ h
  have hupdate : Rest php x σ verdicts
      ((s.updateChunk x.id (Chunk.update chunk (chunk.failedAttempt s.settings retryable))).rollback
        0) := by
    have hrest := h.updateChunk (sameOrigin_update chunk (chunk.failedAttempt s.settings retryable))
      fun c hc => by
        obtain rfl := Option.some.inj (hchunk.symm.trans hc)
        rw [Chunk.update_status, dirty_fresh]
        show chunk.nextStatus s.settings retryable ≠ .completed
        rw [Chunk.nextStatus]
        split
        · decide
        · decide
    exact (rollback_of_idle hrest.idle 0).symm ▸ hrest
  rw [request]
  cases steps with
  | zero => exact hstay
  | succ steps =>
    have hid : chunk.id = x.id := Table.key_of_find hchunk
    have hload : exec php 0 (.loadFailure x.id retryable) s = some (s, .go []) ∨
        exec php 0 (.loadFailure x.id retryable) s =
          some (s, .go [.updateFailed chunk retryable]) := by
      rw [exec, loadFailure, hchunk]
      cases hstatus : chunk.status with
      | completed => exact absurd hstatus hopen
      | failed => simp [hstatus]
      | pending | processing => simp [hstatus]
    rcases hload with hload | hload
    · rw [runAlone, hload]
      dsimp only
      rw [Next.resume_go, List.append_nil, runAlone_nil]
      exact hstay
    · rw [runAlone, hload]
      dsimp only
      rw [Next.resume_go, List.append_nil]
      cases steps with
      | zero => exact hstay
      | succ steps =>
        rw [runAlone, exec, updateFailed]
        dsimp only
        rw [Next.resume_go, List.append_nil, runAlone_nil, hid]
        exact hupdate

/-- **A step from an open chunk.** -/
theorem Rest.step (hsound : Sound php x σ) (h : Rest php x σ verdicts s)
    (a : HandoffAttempts.Step) :
    After php x σ (a.screening.getD verdicts) s (x.step php s a) := by
  cases a with
  | complete new emailCount counts steps =>
    have hrun : ∀ {t : Store} {now : List (Text × Worker.Verdict)}, Rest php x σ now t →
        After php x σ now t (request php x.id steps
          [.loadCompletion x.id ⟨some x.disk, x.keys, emailCount, counts⟩] t) :=
      fun hrest => ((Phase.load emailCount counts hrest).runAlone hsound steps).stop hsound
    cases new with
    | none => exact hrun h
    | some new =>
      cases hrun (h.upload new) with
      | rest hrest => exact .rest hrest
      | done hdone hhanded hkept =>
        refine .done hdone ?_ hkept
        rw [Handed, probeLines_upload h.inputs] at hhanded
        exact hhanded
  | fail retryable steps => exact .rest (h.fail retryable steps)
  | claim capability engineServer worker leaseSeconds token =>
    rw [Target.step]
    split
    · split
      · refine .rest (h.updateChunk (sameOrigin_claimed _ _ _ _ _) fun c _ => ?_)
        exact ChunkStatus.noConfusion
      · exact .rest h
    · exact .rest h
  | tick seconds => exact .rest ⟨h.settings, h.idle, h.inputs, h.row, h.files, h.untouched⟩

theorem Done.upload (h : Done x σ s) (new : List (Text × Worker.Verdict)) :
    Done x σ (x.upload s new) :=
  ⟨h.settings, h.idle, h.inputs, h.row⟩

theorem Done.arrival (h : Done x σ s) (a : HandoffAttempts.Step) : Done x σ (x.arrival s a) := by
  rw [Target.arrival]
  split
  · exact h.upload _
  · exact h

/-- A request about a completed chunk is answered from its row. -/
theorem Done.request (h : Done x σ s) (steps : Nat) {i : Instr}
    (hexec : ∃ next, exec php 0 i s = some (s, next) ∧ next.resume [] [] = []) :
    request php x.id steps [i] s = s := by
  obtain ⟨next, hnext, hresume⟩ := hexec
  rw [HandoffAttempts.request]
  cases steps with
  | zero => exact rollback_of_idle h.idle 0
  | succ steps =>
    have hhandler : handler (.request x.id) [i] = [] := rfl
    rw [runAlone, hnext]
    dsimp only
    rw [hhandler, hresume, runAlone_nil]
    exact rollback_of_idle h.idle 0

/-- **A step from a completed chunk** changes the outputs, if at all. -/
theorem Done.step (h : Done x σ s) (a : HandoffAttempts.Step) : Done x σ (x.step php s a) ∧
    x.outputs (x.step php s a) = x.outputs (x.arrival s a) ∧
    x.probeLines (x.step php s a) = x.probeLines (x.arrival s a) := by
  obtain ⟨chunk, hchunk, hstatus, hrow⟩ := h.row
  cases a with
  | complete new emailCount counts steps =>
    have harrival := h.arrival (.complete new emailCount counts steps)
    have hsame : x.step php s (.complete new emailCount counts steps) =
        x.arrival s (.complete new emailCount counts steps) := by
      refine harrival.request steps ?_
      obtain ⟨chunk, hchunk, hstatus, -⟩ := harrival.row
      rw [exec, loadCompletion, hchunk]
      simp only [hstatus]
      split
      · exact ⟨_, rfl, rfl⟩
      · exact ⟨_, rfl, rfl⟩
    rw [hsame]
    exact ⟨harrival, rfl, rfl⟩
  | fail retryable steps =>
    have hsame : x.step php s (.fail retryable steps) = s := by
      refine h.request steps ?_
      rw [exec, loadFailure, hchunk]
      simp only [hstatus]
      exact ⟨_, rfl, rfl⟩
    rw [hsame]
    exact ⟨h, rfl, rfl⟩
  | claim capability engineServer worker leaseSeconds token =>
    have hsame : x.step php s (.claim capability engineServer worker leaseSeconds token) = s := by
      have hnot : ClaimNext.isCandidate s.now capability chunk = false := by
        rw [ClaimNext.isCandidate, hstatus]
        rfl
      rw [Target.step, hchunk]
      simp [hnot]
    rw [hsame]
    exact ⟨h, rfl, rfl⟩
  | tick seconds => exact ⟨⟨h.settings, h.idle, h.inputs, h.row⟩, rfl, rfl⟩

end Step

end ValidEmailVerifier.HandoffAttempts
