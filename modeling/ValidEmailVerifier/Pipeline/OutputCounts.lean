/-
# `Pipeline.OutputCounts` — the counts of a completed chunk

Four writers care for the counts of a chunk and for the files they are about: the
worker, the handoff, which empties the files, the completion update, which writes
the worker's counts, and the retry planner, which filters the risky file and
counts it anew.

The counts of a request are true when its chunk is loaded; from then on its
process counts on the files, and so does the completed row.  `Promises` says this
of the code a process has left, for one chunk: an upload changes the objects for
what follows it, and whatever is about to be written as the outputs of the chunk
is true by then.  Only the handoff breaks its promise: `countedWhenCompleted` asks
that the handoff of the chunk finds no candidate, and that nobody writes files
that others count on.
-/
import Mathlib.Algebra.Ring.Nat
import ValidEmailVerifier.Pipeline.SealedOutputs

namespace ValidEmailVerifier.Console

open Processes

/-! ## Counts and rows -/

/-- The number of rows of a file, as the merge reads them. -/
def rowCount (file : File) : Nat := (VerificationResultsMerger.sourceRows file).length

/-- Where an output of the chunk is. -/
def outputAddr (chunk : Chunk) (t : OutputType) : Option Addr :=
  chunk.outputDisk.bind fun disk => (chunk.keys.get t).map fun key => (disk, key)

/-- The sum of the three counts. -/
def countSum (chunk : Chunk) : Nat := (OutputType.all.map fun t => (chunk.counts.get t).getD 0).sum

/-- Every count is the number of rows of its file, and the total is their sum. -/
structure CountsTrue (objects : Objects) (chunk : Chunk) : Prop where
  count : ∀ t, ∃ addr file, outputAddr chunk t = some addr ∧ objects addr = some file ∧
    chunk.counts.get t = some (rowCount file)
  total : chunk.emailCount = countSum chunk

/-- One count, checked. -/
def countTrue (objects : Objects) (chunk : Chunk) (t : OutputType) : Bool :=
  match (outputAddr chunk t).bind objects with
  | some file => chunk.counts.get t == some (rowCount file)
  | none => false

theorem countTrue_iff {objects : Objects} {chunk : Chunk} {t : OutputType} :
    countTrue objects chunk t = true ↔ ∃ addr file, outputAddr chunk t = some addr ∧
      objects addr = some file ∧ chunk.counts.get t = some (rowCount file) := by
  unfold countTrue
  constructor
  · intro h
    split at h
    next file hfile =>
      obtain ⟨addr, haddr, hfile⟩ := Option.bind_eq_some_iff.mp hfile
      exact ⟨addr, file, haddr, hfile, beq_iff_eq.mp h⟩
    next => exact nomatch h
  · rintro ⟨addr, file, haddr, hfile, hcount⟩
    rw [haddr, Option.bind_some, hfile]
    exact beq_iff_eq.mpr hcount

instance (objects : Objects) (chunk : Chunk) : Decidable (CountsTrue objects chunk) :=
  decidable_of_iff
    ((countTrue objects chunk .valid ∧ countTrue objects chunk .invalid ∧
      countTrue objects chunk .risky) ∧ chunk.emailCount = countSum chunk) <| by
    constructor
    · rintro ⟨⟨hvalid, hinvalid, hrisky⟩, htotal⟩
      refine ⟨?_, htotal⟩
      intro t
      cases t with
      | valid => exact countTrue_iff.mp hvalid
      | invalid => exact countTrue_iff.mp hinvalid
      | risky => exact countTrue_iff.mp hrisky
    · intro h
      exact ⟨⟨countTrue_iff.mpr (h.count .valid), countTrue_iff.mpr (h.count .invalid),
        countTrue_iff.mpr (h.count .risky)⟩, h.total⟩

/-- The chunk has the object among its outputs. -/
def holds (chunk : Chunk) (addr : Addr) : Bool :=
  OutputType.all.any fun t => outputAddr chunk t == some addr

/-- The counts are true, and the keys are those of the chunk's number. -/
structure Sound (objects : Objects) (chunk : Chunk) : Prop where
  own : OwnKeys chunk
  counts : CountsTrue objects chunk

section Counts
variable {o o' : Objects} {chunk row : Chunk} {addr : Addr} {t : OutputType}

theorem holds_iff : holds chunk addr = true ↔ ∃ t, outputAddr chunk t = some addr := by
  rw [holds, List.any_eq_true]
  constructor
  · rintro ⟨t, -, ht⟩
    exact ⟨t, beq_iff_eq.mp ht⟩
  · rintro ⟨t, ht⟩
    refine ⟨t, ?_, beq_iff_eq.mpr ht⟩
    cases t <;> simp [OutputType.all]

theorem outputAddr_eq_some : outputAddr chunk t = some addr ↔
    chunk.outputDisk = some addr.1 ∧ chunk.keys.get t = some addr.2 := by
  unfold outputAddr
  rw [Option.bind_eq_some_iff]
  constructor
  · rintro ⟨disk, hdisk, hkey⟩
    obtain ⟨key, hkey', rfl⟩ := Option.map_eq_some_iff.mp hkey
    exact ⟨hdisk, hkey'⟩
  · rintro ⟨hdisk, hkey⟩
    exact ⟨addr.1, hdisk, by rw [hkey]; rfl⟩

/-- An output is at a key of the chunk's number. -/
theorem root_of_holds (hown : OwnKeys chunk) (h : holds chunk addr = true) :
    root addr.2 = some chunk.chunkNo := by
  obtain ⟨t, ht⟩ := holds_iff.mp h
  have hkey := (outputAddr_eq_some.mp ht).2
  exact root_of_guarded hown (guarded_of_key hown hkey)

/-- Whoever leaves the outputs alone leaves the counts true. -/
theorem Sound.congr (h : Sound o chunk)
    (hsame : ∀ addr, holds chunk addr = true → o' addr = o addr) : Sound o' chunk := by
  refine ⟨h.own, ?_, h.counts.total⟩
  intro t
  obtain ⟨addr, file, haddr, hfile, hcount⟩ := h.counts.count t
  exact ⟨addr, file, haddr, (hsame addr (holds_iff.mpr ⟨t, haddr⟩)).trans hfile, hcount⟩

/-- Two chunks with the same outputs. -/
structure SameOutputs (chunk row : Chunk) : Prop where
  chunkNo : row.chunkNo = chunk.chunkNo
  outputDisk : row.outputDisk = chunk.outputDisk
  keys : row.keys = chunk.keys
  emailCount : row.emailCount = chunk.emailCount
  counts : row.counts = chunk.counts

instance (chunk row : Chunk) : Decidable (SameOutputs chunk row) :=
  decidable_of_iff (row.chunkNo = chunk.chunkNo ∧ row.outputDisk = chunk.outputDisk ∧
    row.keys = chunk.keys ∧ row.emailCount = chunk.emailCount ∧ row.counts = chunk.counts)
    ⟨fun h => ⟨h.1, h.2.1, h.2.2.1, h.2.2.2.1, h.2.2.2.2⟩,
      fun h => ⟨h.chunkNo, h.outputDisk, h.keys, h.emailCount, h.counts⟩⟩

theorem Sound.of_same (h : Sound o chunk) (hsame : SameOutputs chunk row) : Sound o row := by
  refine ⟨⟨?_, ?_, ?_⟩, ?_, ?_⟩
  · rw [hsame.keys, hsame.chunkNo]
    exact h.own.valid
  · rw [hsame.keys, hsame.chunkNo]
    exact h.own.invalid
  · rw [hsame.keys, hsame.chunkNo]
    exact h.own.risky
  · rw [hsame.counts]
    intro t
    rw [outputAddr, hsame.outputDisk, hsame.keys]
    exact h.counts.count t
  · rw [countSum, hsame.emailCount, hsame.counts]
    exact h.counts.total

/-- A write to a row that still has the outputs of the model gives it those of the
attributes filled in. -/
theorem sameOutputs_update {model filled : Chunk} (h : SameOutputs model row)
    (hno : filled.chunkNo = model.chunkNo) :
    SameOutputs filled (Chunk.update model filled row) where
  chunkNo := h.chunkNo.trans hno.symm
  outputDisk := by
    show dirty model.outputDisk filled.outputDisk row.outputDisk = filled.outputDisk
    rw [h.outputDisk, dirty_fresh]
  keys := by
    show PerType.mk (dirty model.keys.valid filled.keys.valid row.keys.valid)
      (dirty model.keys.invalid filled.keys.invalid row.keys.invalid)
      (dirty model.keys.risky filled.keys.risky row.keys.risky) = filled.keys
    rw [h.keys, dirty_fresh, dirty_fresh, dirty_fresh]
  emailCount := by
    show dirty model.emailCount filled.emailCount row.emailCount = filled.emailCount
    rw [h.emailCount, dirty_fresh]
  counts := by
    show PerType.mk (dirty model.counts.valid filled.counts.valid row.counts.valid)
      (dirty model.counts.invalid filled.counts.invalid row.counts.invalid)
      (dirty model.counts.risky filled.counts.risky row.counts.risky) = filled.counts
    rw [h.counts, dirty_fresh, dirty_fresh, dirty_fresh]

end Counts

/-! ## What a process counts on -/

/-- The outputs an instruction is about to give its chunk, or goes on with. -/
def outputs : Instr → Option Chunk
  | .planHandoff r => some r.completed
  | .updateCompleted r => some r.completed
  | .splitRisky chunk _ => some chunk
  | .updateParent chunk key filteredCount => some (chunk.withFilteredRisky key filteredCount)
  | _ => none

/-- The instruction counts on the object, as an output of chunk `id`. -/
def names (id : Nat) (addr : Addr) (i : Instr) : Bool :=
  (outputs i).any fun chunk => chunk.id == id && holds chunk addr

/-- The instructions that write outputs, or lead to one that does. -/
def lastly : Instr → Bool
  | .download _ _ | .loadCompletion _ _ | .planHandoff _ | .planRetry _ | .splitRisky _ _ => true
  | _ => false

/-- An instruction that has nothing to do with outputs. -/
def plain (i : Instr) : Bool := (outputs i).isNone && !lastly i

/-- The objects after an instruction. -/
def applied (o : Objects) : Instr → Objects
  | .putObject addr file => Function.update o addr (some file)
  | _ => o

/-- What an instruction counts on is true, and no outputs come after those it writes. -/
structure Ready (id : Nat) (o : Objects) (i : Instr) (rest : List Instr) : Prop where
  sound : ∀ chunk, outputs i = some chunk → chunk.id = id → Sound o chunk
  last : lastly i = true → ∀ j ∈ rest, plain j = true
  disk : ∀ chunk disk, i = .splitRisky chunk disk → chunk.id = id →
    chunk.outputDisk = some disk

/-- What the code of a process counts on, for chunk `id`, is true when it gets there. -/
def Promises (id : Nat) (o : Objects) : List Instr → Prop
  | [] => True
  | i :: rest => Ready id o i rest ∧ Promises id (applied o i) rest

section Promises
variable {id : Nat} {o o' : Objects} {i : Instr} {code rest : List Instr} {addr : Addr}

theorem ready_of_plain (h : plain i = true) : Ready id o i rest := by
  rw [plain, Bool.and_eq_true, Option.isNone_iff_eq_none, Bool.not_eq_true'] at h
  refine ⟨?_, ?_, ?_⟩
  · intro chunk hchunk
    rw [h.1] at hchunk
    exact nomatch hchunk
  · intro hlast
    rw [h.2] at hlast
    exact nomatch hlast
  · rintro chunk disk rfl
    exact nomatch h.2

theorem promises_of_plain (h : ∀ i ∈ code, plain i = true) : Promises id o code := by
  induction code generalizing o with
  | nil => trivial
  | cons i rest ih =>
      exact ⟨ready_of_plain (h i (.head _)), ih fun j hj => h j (.tail _ hj)⟩

/-- **Only the objects it names matter to a process.** -/
theorem promises_congr (h : Promises id o code)
    (hsame : ∀ addr, (∃ i ∈ code, names id addr i = true) → o' addr = o addr) :
    Promises id o' code := by
  induction code generalizing o o' with
  | nil => trivial
  | cons i rest ih =>
      obtain ⟨hready, hrest⟩ := h
      refine ⟨⟨?_, hready.last, hready.disk⟩, ih hrest ?_⟩
      · intro chunk hchunk hid
        refine (hready.sound chunk hchunk hid).congr fun addr haddr => hsame addr ?_
        exact ⟨i, .head _, by simp [names, hchunk, hid, haddr]⟩
      · rintro addr ⟨j, hj, hnames⟩
        have hkeep := hsame addr ⟨j, .tail _ hj, hnames⟩
        cases i with
        | putObject put file =>
            show Function.update o' put (some file) addr = Function.update o put (some file) addr
            by_cases heq : addr = put
            · subst heq
              rw [Function.update_self, Function.update_self]
            · rw [Function.update_of_ne heq, Function.update_of_ne heq]
              exact hkeep
        | _ => exact hkeep

/-- A write to an object that nobody names keeps the promise. -/
theorem promises_update (h : Promises id o code) (hfree : ∀ i ∈ code, names id addr i = false)
    (file : Option File) : Promises id (Function.update o addr file) code := by
  refine promises_congr h ?_
  rintro other ⟨i, hi, hnames⟩
  refine Function.update_of_ne ?_ _ _
  rintro rfl
  rw [hfree i hi] at hnames
  exact nomatch hnames

/-- What a promising process names is at an output key. -/
theorem root_of_names (h : Promises id o code) (hi : i ∈ code)
    (hnames : names id addr i = true) : root addr.2 ≠ none := by
  induction code generalizing o with
  | nil => exact nomatch hi
  | cons j rest ih =>
      rcases List.mem_cons.mp hi with rfl | hi
      · rw [names, Option.any_eq_true] at hnames
        obtain ⟨chunk, hchunk, hnamed⟩ := hnames
        rw [Bool.and_eq_true, beq_iff_eq] at hnamed
        rw [root_of_holds (h.1.sound chunk hchunk hnamed.1).own hnamed.2]
        exact Option.some_ne_none _
      · exact ih h.2 hi

/-- An instruction that leaves the outputs of chunks alone. -/
def Inputs (i : Instr) : Prop :=
  plain i = true ∧ ∀ addr file, i = .putObject addr file → root addr.2 = none

/-- Inputs may be written in front of what has been promised. -/
theorem promises_inputs (h : Promises id o rest) (hcode : ∀ i ∈ code, Inputs i) :
    Promises id o (code ++ rest) := by
  induction code generalizing o with
  | nil => exact h
  | cons i tail ih =>
      obtain ⟨hplain, hinput⟩ := hcode i (.head _)
      refine ⟨ready_of_plain hplain, ih ?_ fun j hj => hcode j (.tail _ hj)⟩
      cases i with
      | putObject addr file =>
          refine promises_update h ?_ (some file)
          intro j hj
          by_contra hnames
          exact root_of_names h hj ((Bool.not_eq_false _).mp hnames) (hinput addr file rfl)
      | _ => exact h

/-- Nothing about outputs may follow. -/
theorem promises_append (h : Promises id o code) (hrest : ∀ j ∈ rest, plain j = true) :
    Promises id o (code ++ rest) := by
  induction code generalizing o with
  | nil => exact promises_of_plain hrest
  | cons i tail ih =>
      refine ⟨⟨h.1.sound, ?_, h.1.disk⟩, ih h.2⟩
      intro hlast j hj
      rcases List.mem_append.mp hj with hj | hj
      · exact h.1.last hlast j hj
      · exact hrest j hj

end Promises

/-! ## Steps that keep the counts -/

/-- Nobody counts on the object as an output of chunk `id`. -/
def free (id : Nat) (c : State) (addr : Addr) : Bool :=
  (c.store.findChunk id).all (fun row => row.status != .completed || !holds row addr) &&
    !ahead c (names id addr)

/-- Nobody else counts on a file that is written; a request is true of the files at the
keys of its chunk when it loads the chunk; the handoff finds no candidate; and the row is
still as it was loaded when its outputs are written.  All this is asked for one chunk. -/
def fairInstr (php : Php) (id : Nat) (c : State) (p : Nat) : Instr → Bool
  | .putObject addr _ => free id (c.setCode p []) addr
  | .loadCompletion id' payload =>
      id' != id || (c.store.findChunk id).all fun row =>
        row.status == .completed || row.status == .failed ||
          (payload.keys == outputKeys row &&
            decide (CountsTrue c.store.objects (Request.completed ⟨row, payload⟩)))
  | .planHandoff r =>
      r.chunk.id != id || r.outputDisk.all fun disk =>
        (classification php c.store r disk).candidates.isEmpty
  | .planRetry r =>
      r.chunk.id != id || (c.store.findChunk id).all fun row =>
        row.status == .completed && row.outputDisk == r.outputDisk
  | .updateCompleted r =>
      r.chunk.id != id || (c.store.findChunk id).all fun row =>
        decide (SameOutputs r.chunk row)
  | .updateParent chunk _ _ =>
      chunk.id != id || (c.store.findChunk id).all fun row => decide (SameOutputs chunk row)
  | _ => true

/-- Nobody counts on a file that is deleted, and the chunk is not rewritten once it is
completed. -/
def fairStatement (id : Nat) (c : State) : Statement → Bool
  | .deleteObject addr => free id c addr
  | .saveChunk model _ =>
      model.id != id || (c.store.findChunk id).all fun row => row.status != .completed
  | _ => true

/-- The step keeps the counts of chunk `id` true. -/
def countedWhenCompleted (php : Php) (id : Nat) (d : Desk) : Event → Bool
  | .core (.upload disk chunkNo type _) => free id d.store (disk, .chunkOutput chunkNo type)
  | .core (.exec p) => (nextInstr d.store (.exec p)).all (fairInstr php id d.store p)
  | .exec n => (nextStatement d n).all (fairStatement id d.store)
  | _ => true

/-- The counts of the row are true when it is completed. -/
def RowSound (id : Nat) (s : Store) : Prop :=
  ∀ row, s.findChunk id = some row → row.status = .completed → Sound s.objects row

/-- What the runs keep. -/
structure CountsInv (id : Nat) (d : Desk) : Prop where
  fresh : FreshInv d.store
  sound : Outline (RowSound id) (fun _ _ code s => Promises id s.objects code) d.store

section Step
variable {php : Php} {id p : Nat} {d d' : Desk} {c c' : State} {e : Event} {s s' : Store}
  {a : Action} {addr : Addr} {i j : Instr} {rest code : List Instr} {row : Chunk} {o : Objects}

theorem holds_of_free (h : free id c addr = true) (hfind : c.store.findChunk id = some row)
    (hcompleted : row.status = .completed) : holds row addr = false := by
  rw [free, hfind, Bool.and_eq_true, Option.all_some] at h
  simpa [hcompleted] using h.1

theorem names_of_free {k : Kind} (h : free id c addr = true) (hat : c.At p k code) :
    ∀ i ∈ code, names id addr i = false := by
  rw [free, Bool.and_eq_true, Bool.not_eq_true'] at h
  exact ahead_eq_false h.2 hat

/-- A write to a file that is no output of the row keeps its counts true. -/
theorem Sound.update (h : Sound o row) (hfree : holds row addr = false) (file : Option File) :
    Sound (Function.update o addr file) row := by
  refine h.congr fun other hother => Function.update_of_ne ?_ _ _
  rintro rfl
  rw [hfree] at hother
  exact nomatch hother

/-! ### What an instruction leads to -/

theorem inputs_leads (hi : lastly i = false) (h : Leads s i j) : Inputs j := by
  cases h with
  | put file hput =>
      rename_i addr
      obtain ⟨disk, key⟩ := addr
      refine ⟨rfl, ?_⟩
      intro addr' file' heq
      cases heq
      cases hput with
      | output => exact nomatch hi
      | rewrite => exact nomatch hi
      | filtered => exact nomatch hi
      | probeInput => rfl
      | retryInput => rfl
      | final => rfl
  | complete => exact nomatch hi
  | handoff => exact nomatch hi
  | update => exact nomatch hi
  | handoffUpdate => exact nomatch hi
  | retry => exact nomatch hi
  | split => exact nomatch hi
  | updateParent => exact nomatch hi
  | _ => exact ⟨rfl, nofun⟩

theorem plain_handler {k : Kind} : ∀ i ∈ handler k code, plain i = true :=
  forall_handler (fun _ => rfl) (fun _ => rfl) fun _ => rfl

theorem plain_parse (h : isParseInstr i = true) : plain i = true := by
  cases i with
  | putObject | createChunk | updateTotals | resetMetrics | failJob | dispatchFinalize => rfl
  | _ => exact nomatch h

/-- A row of the filtered file is a row for the merge. -/
theorem readLine_of_hasEmail {record : Record} (h : TempfailRetryPlanner.hasEmail record = true) :
    (VerificationResultsMerger.readLine record).isSome = true := by
  simp only [TempfailRetryPlanner.hasEmail, TempfailRetryPlanner.parseLine, Bool.and_eq_true,
    bne_iff_ne, ne_eq, List.contains_iff_mem] at h
  obtain ⟨hne, hat⟩ := h
  have hmem : '@' ∈ record[0]?.getD [] := (Text.trimBy_sublist _ _).subset hat
  have hrecord : record ≠ [] := by
    rintro rfl
    cases hmem
  have hhead : VerificationResultsMerger.isHeaderLine record = false := by
    rw [VerificationResultsMerger.isHeaderLine, List.all_eq_false]
    cases record with
    | nil => exact absurd rfl hrecord
    | cons column columns => exact ⟨column, .head _, by simpa using hmem⟩
  rw [VerificationResultsMerger.readLine, if_neg (by simp [hhead]),
    VerificationResultsMerger.parseRow]
  simp only [hrecord, hne, or_self, if_false]
  split <;> rfl

/-- **The filtered count is the number of rows of the filtered file.** -/
theorem rowCount_filtered (reasons : List Text) (file : File) :
    rowCount (TempfailRetryPlanner.split reasons file).1 =
      (TempfailRetryPlanner.split reasons file).1.length := by
  rw [rowCount, VerificationResultsMerger.sourceRows, List.filterMap_length_eq_length]
  intro line hline
  rw [TempfailRetryPlanner.split_filtered] at hline
  have hkeep := (List.mem_filter.mp hline).2
  rw [Bool.and_eq_true] at hkeep
  exact readLine_of_hasEmail hkeep.1

/-! ### The promise of the process that moves -/

/-- The outputs of a chunk are about to be written. -/
theorem ready_write {chunk : Chunk} (houtputs : outputs i = some chunk)
    (hlast : lastly i = false) (h : chunk.id = id → Sound o chunk) : Ready id o i rest := by
  refine ⟨?_, ?_, ?_⟩
  · intro chunk' hchunk' hid
    rw [houtputs, Option.some.injEq] at hchunk'
    subst hchunk'
    exact h hid
  · intro hlast'
    rw [hlast] at hlast'
    exact nomatch hlast'
  · rintro chunk' disk rfl
    exact nomatch hlast

theorem ready_last (houtputs : outputs i = none) (h : ∀ j ∈ rest, plain j = true) :
    Ready id o i rest := by
  refine ⟨?_, fun _ => h, ?_⟩
  · intro chunk hchunk
    rw [houtputs] at hchunk
    exact nomatch hchunk
  · rintro chunk disk rfl
    exact nomatch houtputs

theorem ready_handoff {r : Request} (h : r.chunk.id = id → Sound o r.completed)
    (hrest : ∀ j ∈ rest, plain j = true) : Ready id o (.planHandoff r) rest := by
  refine ⟨?_, fun _ => hrest, ?_⟩
  · intro chunk hchunk hid
    have hsame : r.completed = chunk := Option.some.inj hchunk
    subst hsame
    exact h hid
  · intro chunk disk heq
    exact nomatch heq

theorem ready_split {chunk : Chunk} {disk : Disk} (h : chunk.id = id → Sound o chunk)
    (hdisk : chunk.id = id → chunk.outputDisk = some disk)
    (hrest : ∀ j ∈ rest, plain j = true) : Ready id o (.splitRisky chunk disk) rest := by
  refine ⟨?_, fun _ => hrest, ?_⟩
  · intro chunk' hchunk' hid
    have hsame : chunk = chunk' := Option.some.inj hchunk'
    subst hsame
    exact h hid
  · intro chunk' disk' heq hid
    cases heq
    exact hdisk hid

/-- The code of a worker after its download. -/
theorem promises_upload {disk : Disk} {keys : PerType Key} {files : PerType File}
    {id' : Nat} {payload : Payload} :
    Promises id o (putFiles disk keys files ++ [.loadCompletion id' payload]) := by
  have hload : ∀ {o : Objects}, Promises id o [.loadCompletion id' payload] :=
    ⟨ready_last rfl fun _ => nofun, trivial⟩
  exact ⟨ready_of_plain rfl, ready_of_plain rfl, ready_of_plain rfl, hload⟩

/-- The last instructions of a request. -/
theorem plain_metrics {id' : Nat} {delta : MetricsDelta} :
    ∀ j ∈ [Instr.readMetrics id' delta, .dispatchFinalize], plain j = true := by
  intro j hj
  simp only [List.mem_cons, List.not_mem_nil, or_false] at hj
  rcases hj with rfl | rfl <;> rfl

theorem promises_finishScreening {r : Request} {candidates : Option Nat}
    (h : r.chunk.id = id → Sound o r.completed) : Promises id o (finishScreening r candidates) :=
  ⟨ready_write rfl rfl h, promises_of_plain plain_metrics⟩

theorem promises_finishProbe {r : Request} (h : r.chunk.id = id → Sound o r.completed) :
    Promises id o (finishProbe r) :=
  ⟨ready_write rfl rfl h, ready_last rfl plain_metrics, promises_of_plain plain_metrics⟩

/-- A handoff rewrites the outputs of another chunk. -/
theorem promises_handoffCode {r : Request} {σ : Settings} {disk : Disk}
    {plan : ScreeningToProbeChunkPlanner.Classification} {candidates : Option Nat}
    (hne : r.chunk.id ≠ id) :
    Promises id o (handoffCode σ r disk plan ++ finishScreening r candidates) :=
  ⟨ready_of_plain rfl, ready_of_plain rfl, ready_of_plain rfl, ready_of_plain rfl,
    promises_finishScreening fun h => absurd h hne⟩

/-- **The retry planner counts what it filters.** -/
theorem sound_filtered {o : Objects} {chunk : Chunk} {disk : Disk} {key : Key} {file : File}
    (h : Sound o chunk) (hdisk : chunk.outputDisk = some disk)
    (hkey : chunk.keys.risky = some key) (hcount : rowCount file = file.length) :
    Sound (Function.update o (disk, .filteredRisky key) (some file))
      (chunk.withFilteredRisky key file.length) := by
  have hsame : ∀ {t : OutputType} {addr : Addr}, t ≠ .risky → outputAddr chunk t = some addr →
      Function.update o (disk, .filteredRisky key) (some file) addr = o addr := by
    intro t addr ht haddr
    refine Function.update_of_ne ?_ _ _
    rintro rfl
    have hkey' := (outputAddr_eq_some.mp haddr).2
    cases t with
    | valid => exact nomatch h.own.valid _ hkey'
    | invalid => exact nomatch h.own.invalid _ hkey'
    | risky => exact ht rfl
  refine ⟨⟨h.own.valid, h.own.invalid, ?_⟩, ?_, ?_⟩
  · intro new hnew
    cases hnew
    exact h.own.risky key hkey
  · intro t
    cases t with
    | valid =>
        obtain ⟨addr, old, haddr, hold, hcount⟩ := h.counts.count .valid
        exact ⟨addr, old, haddr, (hsame (t := .valid) nofun haddr).trans hold, hcount⟩
    | invalid =>
        obtain ⟨addr, old, haddr, hold, hcount⟩ := h.counts.count .invalid
        exact ⟨addr, old, haddr, (hsame (t := .invalid) nofun haddr).trans hold, hcount⟩
    | risky =>
        refine ⟨(disk, .filteredRisky key), file, outputAddr_eq_some.mpr ⟨hdisk, rfl⟩,
          Function.update_self _ _ _, ?_⟩
        rw [hcount]
        rfl
  · show chunk.counts.valid.getD 0 + chunk.counts.invalid.getD 0 + file.length =
      chunk.counts.valid.getD 0 + (chunk.counts.invalid.getD 0 + (file.length + 0))
    omega

/-- The promise of a request that has loaded a live chunk. -/
theorem sound_completed {payload : Payload} {chunk : Chunk}
    (hcond : fairInstr php id c p (.loadCompletion id payload) = true)
    (hfind : c.store.findChunk id = some chunk) (hlive : Live chunk) :
    Sound c.store.objects (Request.completed ⟨chunk, payload⟩) := by
  simp only [fairInstr, bne_self_eq_false, Bool.false_or, hfind, Option.all_some,
    Bool.or_eq_true, Bool.and_eq_true, beq_iff_eq, decide_eq_true_eq] at hcond
  rcases hcond with hclosed | ⟨hkeys, hcounts⟩
  · exact absurd hlive (not_live hclosed)
  · have hfilled : (Request.completed ⟨chunk, payload⟩).keys = (outputKeys chunk).map some := by
      rw [← hkeys]
      rfl
    refine ⟨⟨?_, ?_, ?_⟩, hcounts⟩
    · intro key hkey
      rw [hfilled] at hkey
      exact (Option.some.inj hkey).symm
    · intro key hkey
      rw [hfilled] at hkey
      exact (Option.some.inj hkey).symm
    · intro key hkey
      rw [hfilled] at hkey
      rw [← Option.some.inj hkey]
      rfl

/-- **A process keeps its promise.** -/
theorem promises_go (hrow : RowSound id c.store) (h : Promises id c.store.objects (i :: rest))
    (hcond : fairInstr php id c p i = true)
    (hexec : ValidEmailVerifier.exec php p i c.store = some (s', .go code)) :
    Promises id s'.objects (code ++ rest) := by
  obtain ⟨hready, htail⟩ := h
  by_cases hi : lastly i = false
  · have hobjects : s'.objects = applied c.store.objects i := by
      rcases (exec_frame hexec).objects with hsame | ⟨addr, file, rfl, rfl⟩
      · cases i with
        | putObject addr file =>
            cases hexec
            rfl
        | _ => exact hsame
      · rfl
    rw [hobjects]
    exact promises_inputs htail fun j hj => inputs_leads hi (exec_leads hexec j hj)
  · have hrest := hready.last ((Bool.not_eq_false _).mp hi)
    cases i with
    | download id' verdicts =>
        obtain ⟨rfl, hn | ⟨chunk, input, -, -, hn⟩⟩ := download_cases hexec
        · exact nomatch hn
        · cases hn
          exact promises_append promises_upload hrest
    | loadCompletion id' payload =>
        obtain ⟨rfl, hn | hn | ⟨chunk, hfind, hlive, hcases⟩⟩ := loadCompletion_cases hexec
        · exact nomatch hn
        · cases hn
          exact htail
        · have hsound : chunk.id = id → Sound c.store.objects
              (Request.completed ⟨chunk, payload⟩) := by
            intro hid
            have hfound : chunk.id = id' := Table.key_of_find hfind
            have hid' : id' = id := hfound.symm.trans hid
            subst hid'
            exact sound_completed hcond hfind hlive
          rcases hcases with ⟨-, -, hn⟩ | ⟨-, -, hn⟩ | ⟨-, hn⟩
          · cases hn
            exact ⟨ready_handoff hsound hrest, htail⟩
          · cases hn
            exact promises_append (promises_finishScreening hsound) hrest
          · cases hn
            exact promises_append (promises_finishProbe hsound) hrest
    | planHandoff r =>
        obtain ⟨rfl, hn | ⟨disk, hdisk, ⟨-, hn⟩ | ⟨hcandidates, hn⟩⟩⟩ := planHandoff_cases hexec
        · exact nomatch hn
        · cases hn
          exact promises_append (promises_finishScreening (hready.sound _ rfl)) hrest
        · cases hn
          refine promises_append (promises_handoffCode ?_) hrest
          intro hid
          simp only [fairInstr, hid, bne_self_eq_false, Bool.false_or, hdisk, Option.all_some,
            List.isEmpty_iff] at hcond
          exact hcandidates hcond
    | planRetry r =>
        obtain ⟨rfl, hn | ⟨fresh, disk, hfind, hdisk, ⟨-, hn⟩ | ⟨-, hn⟩⟩⟩ := planRetry_cases hexec
        · exact nomatch hn
        · cases hn
          have hfresh : fresh.id = id → fresh.status = .completed ∧
              fresh.outputDisk = r.outputDisk ∧ c.store.findChunk id = some fresh := by
            intro hid
            have hfound : fresh.id = r.chunk.id := Table.key_of_find hfind
            have hr : r.chunk.id = id := hfound.symm.trans hid
            rw [hr] at hfind
            simp only [fairInstr, hr, bne_self_eq_false, Bool.false_or, hfind, Option.all_some,
              Bool.and_eq_true, beq_iff_eq] at hcond
            exact ⟨hcond.1, hcond.2, hfind⟩
          refine ⟨ready_split ?_ ?_ hrest, htail⟩
          · intro hid
            obtain ⟨hcompleted, -, hfound⟩ := hfresh hid
            exact hrow fresh hfound hcompleted
          · exact fun hid => (hfresh hid).2.1.trans hdisk
        · cases hn
          exact htail
    | splitRisky chunk disk =>
        obtain ⟨rfl, hn | ⟨key, file, hkey, -, -, hn⟩⟩ := splitRisky_cases hexec
        · cases hn
          exact htail
        · cases hn
          refine ⟨ready_of_plain rfl, ready_of_plain rfl, ready_write rfl rfl ?_,
            promises_of_plain hrest⟩
          intro hid
          exact sound_filtered (hready.sound chunk rfl hid) (hready.disk chunk disk rfl hid) hkey
            (rowCount_filtered _ _)
    | _ => exact absurd rfl hi

/-! ### Rows -/

theorem fair_of_exec {k : Kind} (hat : d.store.At p k (i :: rest))
    (h : countedWhenCompleted php id d (.core (.exec p)) = true) :
    fairInstr php id d.store p i = true := by
  rwa [countedWhenCompleted, nextInstr_exec hat] at h

/-- Nobody writes what a completed row counts on. -/
theorem sound_kept (hcond : countedWhenCompleted php id d (.core a) = true)
    (hs : act php d.store a = some c') (hfind : d.store.store.findChunk id = some row)
    (hcompleted : row.status = .completed) (h : Sound d.store.store.objects row) :
    Sound c'.store.objects row := by
  refine h.congr ?_
  intro addr haddr
  cases act_cases hs with
  | upload disk chunkNo type file =>
      refine Function.update_of_ne ?_ _ _
      rintro rfl
      rw [holds_of_free hcond hfind hcompleted] at haddr
      exact nomatch haddr
  | @exec p k i rest s' n hat hexec =>
      rcases (exec_frame hexec).objects with hsame | ⟨put, file, rfl, rfl⟩
      · exact congrFun hsame _
      · refine Function.update_of_ne ?_ _ _
        rintro rfl
        have hfree : free id (d.store.setCode p []) addr = true := fair_of_exec hat hcond
        rw [holds_of_free hfree hfind hcompleted] at haddr
        exact nomatch haddr
  | throw hat => rw [withStore, Conf.setCode_store, Store.rollback_objects]
  | kill hat => rw [withStore, Conf.setCode_store, Store.rollback_objects]
  | _ => rfl

/-- A failure leaves the outputs of a row alone. -/
theorem sameOutputs_failedAttempt (σ : Settings) (chunk row : Chunk) (retryable : Bool) :
    SameOutputs row (Chunk.update chunk (chunk.failedAttempt σ retryable) row) where
  chunkNo := rfl
  outputDisk := dirty_clean _ _
  keys := by
    show PerType.mk (dirty chunk.keys.valid chunk.keys.valid row.keys.valid)
      (dirty chunk.keys.invalid chunk.keys.invalid row.keys.invalid)
      (dirty chunk.keys.risky chunk.keys.risky row.keys.risky) = row.keys
    rw [dirty_clean, dirty_clean, dirty_clean]
  emailCount := dirty_clean _ _
  counts := by
    show PerType.mk (dirty chunk.counts.valid chunk.counts.valid row.counts.valid)
      (dirty chunk.counts.invalid chunk.counts.invalid row.counts.invalid)
      (dirty chunk.counts.risky chunk.counts.risky row.counts.risky) = row.counts
    rw [dirty_clean, dirty_clean, dirty_clean]

/-- **What a request writes is true.** -/
theorem sound_written {k : Kind} {model filled : Chunk} {n : Next Instr}
    (hrow : RowSound id d.store.store) (hat : d.store.At p k (i :: rest))
    (hpromise : Promises id d.store.store.objects (i :: rest))
    (hcond : countedWhenCompleted php id d (.core (.exec p)) = true)
    (hexec : ValidEmailVerifier.exec php p i d.store.store = some (s', n))
    (hw : Writes d.store.store i id model filled)
    (hfind : d.store.store.findChunk id = some row)
    (hcompleted : (Chunk.update model filled row).status = .completed) :
    Sound s'.objects (Chunk.update model filled row) := by
  have hfair := fair_of_exec hat hcond
  have hobjects : s'.objects = d.store.store.objects := by
    rcases (exec_frame hexec).objects with hsame | ⟨addr, file, rfl, -⟩
    · exact hsame
    · exact nomatch hw
  rw [hobjects]
  cases hw with
  | completed r =>
      simp only [fairInstr, bne_self_eq_false, Bool.false_or, hfind, Option.all_some,
        decide_eq_true_eq] at hfair
      exact (hpromise.1.sound _ rfl rfl).of_same (sameOutputs_update hfair rfl)
  | failed _ retryable =>
      have hold := hrow row hfind (completed_of_failedAttempt hcompleted)
      exact hold.of_same (sameOutputs_failedAttempt _ _ _ _)
  | parent _ key filteredCount =>
      simp only [fairInstr, bne_self_eq_false, Bool.false_or, hfind, Option.all_some,
        decide_eq_true_eq] at hfair
      exact (hpromise.1.sound _ rfl rfl).of_same (sameOutputs_update hfair rfl)

theorem rowSound_act (h : CountsInv id d) (hcond : countedWhenCompleted php id d (.core a) = true)
    (hs : act php d.store a = some c') : RowSound id c'.store := by
  intro row hfind hcompleted
  rcases completed_act h.fresh.staged hs hfind hcompleted with hold | ⟨p, k, i, rest, s', n, old,
    model, filled, rfl, hat, hexec, rfl, hw, hold, rfl⟩
  · exact sound_kept hcond hs hold hcompleted (h.sound.store row hold hcompleted)
  · exact sound_written h.sound.store hat (h.sound.procs hat) hcond hexec hw hold hcompleted

/-! ### Runs -/

/-- **The counts stay true** in a step of the pipeline. -/
theorem countsInv_act (h : CountsInv id d) (hcond : countedWhenCompleted php id d (.core a) = true)
    (hs : act php d.store a = some c') :
    Outline (RowSound id) (fun _ _ code s => Promises id s.objects code) c' := by
  have hrow : RowSound id c'.store := rowSound_act h hcond hs
  have hone : ∀ {o : Objects} {i : Instr}, plain i = true → Promises id o [i] := by
    intro o i hi
    exact ⟨ready_of_plain hi, trivial⟩
  have hkeep : ∀ {q : Nat} {k : Kind} {code : List Instr} {s : Store},
      s.objects = d.store.store.objects → d.store.At q k code →
        Promises id d.store.store.objects code → Promises id s.objects code := by
    intro q k code s hobjects _ hJ
    rw [hobjects]
    exact hJ
  cases act_cases hs with
  | tick seconds => exact outline_withStore h.sound hrow (hkeep rfl)
  | configure settings => exact outline_withStore h.sound hrow (hkeep rfl)
  | upload disk chunkNo type file =>
      refine outline_withStore h.sound hrow ?_
      intro q k code hq hJ
      exact promises_update hJ (names_of_free hcond hq) (some file)
  | claim hfind hpaused hcand =>
      refine outline_launch h.sound hrow (hkeep rfl) ?_
      exact ⟨ready_last rfl fun _ => nofun, trivial⟩
  | complete id payload =>
      exact h.sound.spawn ⟨ready_last rfl fun _ => nofun, trivial⟩
  | fail id retryable => exact h.sound.spawn (hone rfl)
  | startParse hstatus hidle =>
      exact h.sound.spawn (promises_of_plain fun i hi => plain_parse (isParse_parseCode hi))
  | startFinalize hqueue hidle =>
      exact outline_launch h.sound hrow (hkeep rfl) (hone rfl)
  | @exec p k i rest s' n hat hexec =>
      have hfair := fair_of_exec hat hcond
      refine h.sound.exec hat hrow ?_ ?_
      · cases n with
        | raise => exact promises_of_plain plain_handler
        | go code => exact promises_go h.sound.store (h.sound.procs hat) hfair hexec
      · intro q k' code' hne hq hJ
        rcases (exec_frame hexec).objects with hsame | ⟨addr, file, rfl, rfl⟩
        · exact hkeep hsame hq hJ
        · have hq' : (d.store.setCode p []).At q k' code' := Conf.at_setCode.mpr (.inr ⟨hne, hq⟩)
          exact promises_update hJ (names_of_free hfair hq') (some file)
  | throw hat =>
      exact h.sound.exec hat hrow (promises_of_plain plain_handler)
        fun _ => hkeep (Store.rollback_objects _)
  | kill hat => exact h.sound.exec hat hrow trivial fun _ => hkeep (Store.rollback_objects _)

/-- **The counts stay true** whatever the console does. -/
theorem countsInv_step (h : CountsInv id d) (hcond : countedWhenCompleted php id d e = true)
    (hs : step php d e = some d') : CountsInv id d' := by
  refine ⟨freshInv_step h.fresh hs, ?_⟩
  have hrow : RowSound id d.store.store := h.sound.store
  cases step_cases hs with
  | core hact =>
      rw [coreStep_store]
      exact countsInv_act h hcond hact
  | request hallowed => exact h.sound
  | requestChunk hfind hopen => exact h.sound
  | leave n => exact h.sound
  | claimJob hpending => exact outline_withStore h.sound hrow fun _ hJ => hJ
  | finalize hopen => exact outline_withStore h.sound hrow fun _ hJ => hJ
  | @exec n i rest hat =>
      rw [countedWhenCompleted, nextStatement_exec hat, Option.all_some] at hcond
      cases i with
      | deleteObject addr =>
          refine outline_withStore h.sound ?_ ?_
          · intro row hfind hcompleted
            exact (hrow row hfind hcompleted).update (holds_of_free hcond hfind hcompleted) none
          · intro q k code hq hJ
            exact promises_update hJ (names_of_free hcond hq) none
      | deleteChunks =>
          refine outline_withStore h.sound ?_ fun _ hJ => hJ
          intro row hfind
          exact nomatch hfind
      | saveChunk model change =>
          refine outline_withStore h.sound ?_ fun _ hJ => hJ
          intro row hfind hcompleted
          rcases completed_saveChunk hfind hcompleted with hkept | ⟨rfl, old, hold, hdone⟩
          · exact hrow row hkept hcompleted
          · simp [fairStatement, hold, hdone] at hcond
      | _ => exact outline_withStore h.sound hrow fun _ hJ => hJ
  | requeue select he =>
      refine outline_withStore h.sound ?_ fun _ hJ => hJ
      intro row hfind hcompleted
      have hfind' : (requeue select d.store.store).findChunk id = some row := hfind
      rw [findChunk_requeue] at hfind'
      obtain ⟨old, hold, heq⟩ := Option.map_eq_some_iff.mp hfind'
      split at heq
      · subst heq
        exact nomatch hcompleted
      · subst heq
        exact hrow old hold hcompleted

end Step

/-! ## The counts of completed chunks -/

section Handoff
open ScreeningToProbeChunkPlanner
variable {php : Php} {r : Request} {disk : Disk} {o : Objects} {file : File} {t : OutputType}

/-- The rows a handoff leaves in a file. -/
def rewrittenRows (plan : Classification) : OutputType → List (Text × Text)
  | .invalid => plan.hardInvalidRows
  | _ => []

/-- The objects after `rewriteScreeningOutputs`. -/
def rewritten (o : Objects) (keys : PerType Key) (disk : Disk) (plan : Classification) : Objects :=
  [.valid, .risky, .invalid].foldl
    (fun o t => Function.update o (disk, keys.get t) (some (writeRows (rewrittenRows plan t)))) o

/-- It is what the code of a handoff makes of the objects. -/
theorem foldl_handoffCode (σ : Settings) (plan : Classification) :
    (handoffCode σ r disk plan).foldl applied o = rewritten o r.payload.keys disk plan := rfl

/-- A classified row is a hard invalid one or a candidate, if it is new. -/
theorem classifyRow_length (php : Php) (reasons : List Text) (acc : Classification)
    (row : ResultRow) :
    (classifyRow php reasons acc t row).hardInvalidRows.length +
        (classifyRow php reasons acc t row).candidates.length ≤
      acc.hardInvalidRows.length + acc.candidates.length +
        (normalizeEmail php row.email).toList.length := by
  unfold classifyRow
  cases normalizeEmail php row.email with
  | none => exact Nat.le_refl _
  | some email =>
      simp only [Option.toList_some, List.length_singleton]
      split
      · simp only [List.length_append, List.length_singleton]
        omega
      · split
        · omega
        · simp only [List.length_append, List.length_singleton]
          omega

theorem classify_length (php : Php) (reasons : List Text) (files : PerType (Option File)) :
    (classify php reasons files).hardInvalidRows.length +
        (classify php reasons files).candidates.length ≤ (normalized php files).length := by
  have hfold : ∀ (rows : List (OutputType × ResultRow)) (acc : Classification),
      (rows.foldl (fun acc r => classifyRow php reasons acc r.1 r.2) acc).hardInvalidRows.length +
          (rows.foldl (fun acc r => classifyRow php reasons acc r.1 r.2) acc).candidates.length ≤
        acc.hardInvalidRows.length + acc.candidates.length +
          (rows.filterMap fun r => normalizeEmail php r.2.email).length := by
    intro rows
    induction rows with
    | nil => exact fun acc => Nat.le_refl _
    | cons row rest ih =>
        intro acc
        have hrest := ih (classifyRow php reasons acc row.1 row.2)
        have hone := classifyRow_length php (t := row.1) reasons acc row.2
        cases hn : normalizeEmail php row.2.email with
        | none =>
            rw [hn] at hone
            simp only [List.foldl_cons, List.filterMap_cons, hn]
            simp only [Option.toList_none, List.length_nil] at hone
            omega
        | some email =>
            rw [hn] at hone
            simp only [List.foldl_cons, List.filterMap_cons, hn, List.length_cons]
            simp only [Option.toList_some, List.length_singleton] at hone
            omega
  have h := hfold (ScreeningToProbeChunkPlanner.allRows files) {}
  simp only [List.length_nil, Nat.zero_add] at h
  exact h

/-- The merge reads every row that the planner classifies. -/
theorem readLine_of_readRow (hphp : php.Lawful) {record : Record} {row : ResultRow}
    (hrow : readRow t record = some row) (hn : (normalizeEmail php row.email).isSome = true) :
    (VerificationResultsMerger.readLine record).isSome = true := by
  have hemail : row.email = Text.trim (record[0]?.getD []) := by
    unfold readRow at hrow
    simp only at hrow
    split at hrow
    · exact nomatch hrow
    · split at hrow
      · split at hrow <;> cases hrow <;> rfl
      · cases hrow
        rfl
  have hat : '@' ∈ row.email := by
    unfold normalizeEmail at hn
    simp only at hn
    split at hn
    · exact nomatch hn
    next hvalid =>
      rw [not_or, Bool.not_eq_false] at hvalid
      have hlower := hphp.at_mem _ hvalid.2
      exact (Text.trimBy_sublist _ _).subset (Text.mem_of_mem_strtolower (by decide) hlower)
  have hmail : TempfailRetryPlanner.hasEmail record = true := by
    have hne : Text.trim (record[0]?.getD []) ≠ [] := List.ne_nil_of_mem (hemail ▸ hat)
    simp [TempfailRetryPlanner.hasEmail, TempfailRetryPlanner.parseLine, hne, hemail ▸ hat]
  exact readLine_of_hasEmail hmail

/-- A file has at least the rows that the planner classifies. -/
theorem normalized_le_rowCount (hphp : php.Lawful) (t : OutputType) (file : File) :
    ((readResultRows (some file) t).filterMap fun r => normalizeEmail php r.email).length ≤
      rowCount file := by
  rw [readResultRows, Option.getD_some, List.filterMap_filterMap,
    List.length_filterMap_eq_countP, rowCount, VerificationResultsMerger.sourceRows,
    List.length_filterMap_eq_countP]
  refine List.countP_mono_left ?_
  intro line _ hline
  obtain ⟨email, hemail⟩ := Option.isSome_iff_exists.mp hline
  obtain ⟨row, hrow, hn⟩ := Option.bind_eq_some_iff.mp hemail
  exact readLine_of_readRow hphp hrow (by rw [hn]; rfl)

theorem rowCount_writeRows (rows : List (Text × Text)) :
    rowCount (writeRows rows) ≤ rows.length := by
  have hheader : VerificationResultsMerger.readLine ["email".toList, "reason".toList] = none :=
    readLine_header
  rw [rowCount, VerificationResultsMerger.sourceRows, writeRows,
    List.filterMap_cons_none hheader]
  exact (List.length_filterMap_le _ _).trans (List.length_map _).le

/-- What the planner classifies is among the rows that are counted. -/
theorem normalized_le_countSum (hphp : php.Lawful) {chunk : Chunk} {files : PerType (Option File)}
    (h : ∀ t, ∃ file, files.get t = some file ∧ chunk.counts.get t = some (rowCount file)) :
    (normalized php files).length ≤ countSum chunk := by
  have hone : ∀ t, (((readResultRows (files.get t) t).map fun r => (t, r)).filterMap
      fun r => normalizeEmail php r.2.email).length ≤ (chunk.counts.get t).getD 0 := by
    intro t
    obtain ⟨file, hfile, hcount⟩ := h t
    rw [hfile, hcount, List.filterMap_map]
    exact normalized_le_rowCount hphp t file
  have hvalid := hone .valid
  have hinvalid := hone .invalid
  have hrisky := hone .risky
  simp only [normalized, ScreeningToProbeChunkPlanner.allRows, List.filterMap_append,
    OutputType.all, List.flatMap_cons, List.flatMap_nil, List.append_nil, List.length_append,
    countSum, List.map_cons, List.map_nil, List.sum_cons, List.sum_nil]
  omega

theorem rewritten_get (hkeys : r.payload.keys = outputKeys r.chunk) (plan : Classification) :
    rewritten o r.payload.keys disk plan (disk, (outputKeys r.chunk).get t) =
      some (writeRows (rewrittenRows plan t)) := by
  rw [hkeys, rewritten]
  cases t with
  | invalid => exact Function.update_self _ _ _
  | risky =>
      refine (Function.update_of_ne ?_ _ _).trans (Function.update_self _ _ _)
      simp [outputKeys, PerType.get]
  | valid =>
      refine (Function.update_of_ne ?_ _ _).trans
        ((Function.update_of_ne ?_ _ _).trans (Function.update_self _ _ _))
      · simp [outputKeys, PerType.get]
      · simp [outputKeys, PerType.get]

/-- **A handoff of a candidate leaves false counts behind**: what was true of the files of
a request is not true of the rewritten ones. -/
theorem handoff_miscounts (hphp : php.Lawful) (hdisk : r.outputDisk = some disk)
    (hkeys : r.payload.keys = outputKeys r.chunk) {s : Store}
    (htrue : CountsTrue s.objects r.completed)
    (hcandidates : (classification php s r disk).candidates ≠ []) :
    ¬ CountsTrue ((handoffCode s.settings r disk (classification php s r disk)).foldl applied
      s.objects) r.completed := by
  rw [foldl_handoffCode]
  intro hafter
  have haddr : ∀ t, outputAddr r.completed t = some (disk, (outputKeys r.chunk).get t) := by
    intro t
    refine outputAddr_eq_some.mpr ⟨hdisk, ?_⟩
    show (r.payload.keys.map some).get t = some ((outputKeys r.chunk).get t)
    rw [PerType.get_map, hkeys]
  have hbefore : (normalized php (outputFiles s r disk)).length ≤ countSum r.completed := by
    refine normalized_le_countSum hphp ?_
    intro t
    obtain ⟨addr, file, hat, hfile, hcount⟩ := htrue.count t
    refine ⟨file, ?_, hcount⟩
    rw [haddr t, Option.some.injEq] at hat
    rw [outputFiles, PerType.get_map, hkeys, hat]
    exact hfile
  have hrows : ∀ t, (r.completed.counts.get t).getD 0 ≤
      (rewrittenRows (classification php s r disk) t).length := by
    intro t
    obtain ⟨addr, file, hat, hfile, hcount⟩ := hafter.count t
    rw [haddr t, Option.some.injEq] at hat
    subst hat
    rw [hcount, Option.getD_some]
    rw [rewritten_get hkeys, Option.some.injEq] at hfile
    subst hfile
    exact rowCount_writeRows _
  have hsum : countSum r.completed ≤ (classification php s r disk).hardInvalidRows.length := by
    have hvalid : (r.completed.counts.get .valid).getD 0 ≤ 0 := hrows .valid
    have hinvalid := hrows .invalid
    have hrisky : (r.completed.counts.get .risky).getD 0 ≤ 0 := hrows .risky
    rw [rewrittenRows] at hinvalid
    simp only [countSum, OutputType.all, List.map_cons, List.map_nil, List.sum_cons,
      List.sum_nil]
    omega
  have hlength := classify_length php s.settings.screeningHardInvalidReasons
    (outputFiles s r disk)
  have hpos := List.length_pos_iff.mpr hcandidates
  rw [classification] at hsum hpos
  omega

end Handoff

/-- One address is screened and handed off. -/
def handoffSchedule : List Action :=
  .startParse [] :: turns 0 5 ++ claimBy 0 ["a@b.co"] .valid "rcpt_ok" :: turns 1 17

end ValidEmailVerifier.Console
