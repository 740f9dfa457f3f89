/-
# `Pipeline.Numbering` — chunk numbers are never shared

A parse numbers its chunks by a counter of its own, the planners by the highest
number in the table, under the job lock.  As long as no planner begins while a
parse has a chunk to create, and no parse starts on a job that has chunks
(`countersApart`), at most one process has a row to create, and its numbers are
free: so no number is used twice, no input object of a chunk is written again,
and no insert violates the unique index.
-/
import ValidEmailVerifier.Pipeline.Transactions

namespace ValidEmailVerifier

open Processes

/-! ## Numbers -/

/-- The number of the row an instruction creates. -/
def creates : Instr → Option Nat
  | .createChunk _ chunkNo _ => some chunkNo
  | .insertChunk row => some row.chunkNo
  | _ => none

/-- The chunk number whose input object an instruction writes. -/
def writesInput : Instr → Option Nat
  | .putObject (_, .chunkInput chunkNo) _ => some chunkNo
  | _ => none

/-- The numbers a process has still to create rows with. -/
def numbers (code : List Instr) : List Nat := code.filterMap creates

/-- An input object is written for a row that is created after it. -/
def Backed : List Instr → Prop
  | [] => True
  | i :: rest => (∀ n, writesInput i = some n → n ∈ numbers rest) ∧ Backed rest

/-- The row of an insert has the key of its number. -/
def keyed : Instr → Prop
  | .insertChunk row => row.inputKey = .chunkInput row.chunkNo
  | _ => True

def isCreateChunk : Instr → Bool
  | .createChunk _ _ _ => true
  | _ => false

/-- No output of the request is the input of a chunk. -/
def outputsApart (payload : Payload) : Bool :=
  OutputType.all.all fun t =>
    match payload.keys.get t with
    | .chunkInput _ => false
    | _ => true

/-- The planners begin when no parse has a chunk to create, a parse with chunks to
create starts when the job has none, and requests name outputs. -/
def countersApart (php : Php) (c : State) (a : Action) : Bool :=
  match a with
  | .startParse lookups =>
      !(parseCode php c.store.settings c.store.job c.store.upload lookups).any isCreateChunk ||
        (c.store.chunks.isEmpty && c.store.txn.isNone)
  | .complete _ payload => outputsApart payload
  | a =>
      match nextInstr c a with
      | some (.beginProbe r _ _) =>
          hasProbeChunks c.store r.chunk.id || !ahead c isCreateChunk
      | some (.beginRetry _ _ _) => !ahead c isCreateChunk
      | _ => true

/-! ## Code with fresh numbers -/

/-- What a process has still to create is free, each number once, and it writes no
input object but those of its own rows. -/
structure Fresh (_ : Nat) (_ : Kind) (code : List Instr) (s : Store) : Prop where
  nodup : (numbers code).Nodup
  free : ∀ n ∈ numbers code, n ∉ (allRows s).map Chunk.chunkNo
  backed : Backed code
  keyed : ∀ i ∈ code, keyed i

section Fresh
variable {php : Php} {p q : Nat} {k : Kind} {s s' : Store} {n : Next Instr}
  {code rest : List Instr} {i : Instr}

@[simp] theorem numbers_nil : numbers [] = [] := rfl

theorem numbers_append (code rest : List Instr) :
    numbers (code ++ rest) = numbers code ++ numbers rest := List.filterMap_append

theorem numbers_cons_none (h : creates i = none) : numbers (i :: rest) = numbers rest :=
  List.filterMap_cons_none h

theorem numbers_cons_some {m : Nat} (h : creates i = some m) :
    numbers (i :: rest) = m :: numbers rest := List.filterMap_cons_some h

theorem numbers_eq_nil (h : ∀ i ∈ code, creates i = none) : numbers code = [] :=
  List.filterMap_eq_nil_iff.mpr h

/-- Code that creates nothing and writes no input. -/
theorem backed_append (hcode : ∀ i ∈ code, writesInput i = none) (h : Backed rest) :
    Backed (code ++ rest) := by
  induction code with
  | nil => exact h
  | cons i code ih =>
      refine ⟨fun n hn => ?_, ih fun j hj => hcode j (.tail _ hj)⟩
      rw [hcode i (.head _)] at hn
      exact nomatch hn

theorem backed_of_none (hcode : ∀ i ∈ code, writesInput i = none) : Backed code := by
  have h : Backed (code ++ []) := backed_append hcode trivial
  rwa [List.append_nil] at h

/-- Code that creates no rows and writes no input is fresh whatever the rows are. -/
theorem Fresh.of_none (hcreates : ∀ i ∈ code, creates i = none)
    (hwrites : ∀ i ∈ code, writesInput i = none) : Fresh p k code s := by
  have hnil : numbers code = [] := numbers_eq_nil hcreates
  refine ⟨hnil ▸ .nil, ?_, backed_of_none hwrites, ?_⟩
  · intro n hn
    rw [hnil] at hn
    exact nomatch hn
  · intro i hi
    cases i with
    | insertChunk row => exact nomatch hcreates _ hi
    | _ => trivial

/-- A process without rows to create is fresh in any store. -/
theorem Fresh.of_numbers (h : Fresh p k code s) (hnil : numbers code = []) :
    Fresh p k code s' := by
  refine ⟨h.nodup, ?_, h.backed, h.keyed⟩
  intro n hn
  rw [hnil] at hn
  exact nomatch hn

/-- What is free stays free when no row appears. -/
theorem Fresh.mono (h : Fresh p k code s)
    (hrows : (allRows s').map Chunk.chunkNo ⊆ (allRows s).map Chunk.chunkNo) :
    Fresh p k code s' :=
  ⟨h.nodup, fun n hn hmem => h.free n hn (hrows hmem), h.backed, h.keyed⟩

theorem Fresh.of_rows (h : Fresh p k code s) (heq : allRows s' = allRows s) :
    Fresh p k code s' := by
  refine h.mono ?_
  rw [heq]
  exact List.Subset.refl _

theorem Fresh.tail (h : Fresh p k (i :: rest) s) : Fresh p k rest s := by
  have hsub : (numbers rest).Sublist (numbers (i :: rest)) :=
    (List.sublist_cons_self i rest).filterMap creates
  exact ⟨h.nodup.sublist hsub, fun n hn => h.free n (hsub.subset hn), h.backed.2,
    fun j hj => h.keyed j (.tail _ hj)⟩

end Fresh

/-! ## What the planners number -/

section Planned
variable {parent group attempts now : Nat} {disk : Disk}

/-- The shards that get a chunk. -/
def filled (shards : List ScreeningToProbeChunkPlanner.Shard) : Nat :=
  shards.countP fun shard => shard.emails ≠ []

theorem numbers_insertShards {shards : List ScreeningToProbeChunkPlanner.Shard} :
    ∀ {id chunkNo : Nat},
      numbers (insertShards parent group disk attempts now id chunkNo shards) =
        List.range' chunkNo (filled shards) := by
  induction shards with
  | nil => exact rfl
  | cons shard rest ih =>
      intro id chunkNo
      unfold insertShards
      split
      next hnil =>
        rw [ih]
        simp [filled, hnil]
      next hcons =>
        have hcount : filled (shard :: rest) = filled rest + 1 := by simp [filled, hcons]
        rw [numbers_cons_none rfl, numbers_cons_some rfl, ih, hcount, List.range'_succ]
        rfl

theorem backed_insertShards {shards : List ScreeningToProbeChunkPlanner.Shard}
    {tail : List Instr} (htail : Backed tail) :
    ∀ {id chunkNo : Nat},
      Backed (insertShards parent group disk attempts now id chunkNo shards ++ tail) := by
  induction shards with
  | nil => exact htail
  | cons shard rest ih =>
      intro id chunkNo
      unfold insertShards
      split
      next => exact ih
      next =>
        refine ⟨fun n hn => ?_, fun _ hn => (by cases hn), ih⟩
        obtain rfl : chunkNo = n := by simpa [writesInput] using hn
        exact List.mem_filterMap.mpr ⟨_, .head _, rfl⟩

end Planned

/-! ## What a parse numbers -/

section Parsed

theorem numbers_chunkEffects (disk : Disk) (files : List (List Text)) :
    ∀ chunkNo : Nat, numbers ((ParseAndChunkJob.chunkEffects chunkNo files).map
      (effectCode disk)) = List.range' chunkNo files.length := by
  induction files with
  | nil => exact fun _ => rfl
  | cons file rest ih =>
      intro chunkNo
      rw [ParseAndChunkJob.chunkEffects, List.map_cons, List.map_cons, numbers_cons_none rfl,
        numbers_cons_some rfl, ih, List.length_cons, List.range'_succ]

theorem backed_chunkEffects (disk : Disk) (files : List (List Text)) {tail : List Instr}
    (htail : Backed tail) : ∀ chunkNo : Nat,
      Backed ((ParseAndChunkJob.chunkEffects chunkNo files).map (effectCode disk) ++ tail) := by
  induction files with
  | nil => exact fun _ => htail
  | cons file rest ih =>
      intro chunkNo
      refine ⟨fun n hn => ?_, nofun, ih (chunkNo + 1)⟩
      obtain rfl : chunkNo = n := by simpa [effectCode, writesInput] using hn
      exact List.mem_filterMap.mpr ⟨_, .head _, rfl⟩

/-- An instruction of a parse that neither creates a chunk nor writes an input. -/
def Quiet (i : Instr) : Prop := creates i = none ∧ writesInput i = none

theorem quiet_finishParse {job : Job} {disk : Disk} {m : ParseAndChunkJob.Mem} :
    ∀ i ∈ finishParse job disk m, Quiet i := by
  intro i hi
  simp only [finishParse, List.mem_append] at hi
  rcases hi with ((hi | hi) | hi) | hi
  · obtain ⟨t, -, ht⟩ := List.mem_filterMap.mp hi
    obtain ⟨file, -, rfl⟩ := Option.map_eq_some_iff.mp ht
    exact ⟨rfl, rfl⟩
  · obtain ⟨emails, -, rfl⟩ := List.mem_map.mp hi
    exact ⟨rfl, rfl⟩
  · rcases List.mem_cons.mp hi with rfl | hi
    · exact ⟨rfl, rfl⟩
    · rw [List.mem_singleton.mp hi]
      exact ⟨rfl, rfl⟩
  · split at hi
    · rw [List.mem_singleton.mp hi]
      exact ⟨rfl, rfl⟩
    · cases hi

/-- **A parse writes chunks numbered from one**, and then nothing that is numbered. -/
theorem parseCode_shape (php : Php) (σ : Settings) (job : Job)
    (upload : Option (List ParseAndChunkJob.Feed)) (lookups : List ParseAndChunkJob.Lookup) :
    ∃ files disk tail, parseCode php σ job upload lookups =
        (ParseAndChunkJob.chunkEffects 1 files).map (effectCode disk) ++ tail ∧
      ∀ i ∈ tail, Quiet i := by
  unfold parseCode
  simp only
  split
  next =>
    refine ⟨[], σ.storageDisk, _, rfl, ?_⟩
    intro i hi
    rw [List.mem_singleton.mp hi]
    exact ⟨rfl, rfl⟩
  next feeds =>
    obtain ⟨files, hw⟩ := ParseAndChunkJob.parse_numbered php σ feeds lookups
    split
    next m hm =>
      rw [hm] at hw
      exact ⟨files, _, _, by rw [← hw.effects]; rfl, quiet_finishParse⟩
    next m hm =>
      rw [hm] at hw
      refine ⟨files, _, _, by rw [← hw.effects]; rfl, ?_⟩
      intro i hi
      rw [List.mem_singleton.mp hi]
      exact ⟨rfl, rfl⟩

end Parsed

/-! ## Rows with numbers of their own -/

/-- No number is used twice, and a row has the input key of its number. -/
structure OwnNumbers (s : Store) : Prop where
  nodup : ((allRows s).map Chunk.chunkNo).Nodup
  keyed : ∀ row ∈ allRows s, row.inputKey = .chunkInput row.chunkNo

/-- At most one process has rows to create. -/
def Sole (c : State) : Prop :=
  ∀ (p q : Nat) (k k' : Kind) (code code' : List Instr), c.At p k code → c.At q k' code' →
    numbers code ≠ [] → numbers code' ≠ [] → p = q

/-- Chunks are created by parses, and requests name outputs. -/
def NumberingInstr (k : Kind) : Instr → Prop
  | .createChunk _ _ _ => isParse k = true
  | .loadCompletion _ payload => outputsApart payload = true
  | .planHandoff r => outputsApart r.payload = true
  | _ => True

/-- What the runs keep. -/
structure NumberingInv (c : State) : Prop where
  inTxn : AllInTxn c
  instr : EachInstr NumberingInstr c
  fresh : Outline OwnNumbers Fresh c
  sole : Sole c

section Step
variable {php : Php} {p q : Nat} {k : Kind} {s s' : Store} {n : Next Instr} {c c' : State}
  {code rest : List Instr} {i j : Instr} {a : Action}

theorem numberingInstr_step (h : EachInstr NumberingInstr c)
    (hcond : countersApart php c a = true) (hs : act php c a = some c') :
    EachInstr NumberingInstr c' := by
  refine eachInstr_step h ?_ ?_ hs
  · intro k i hi ha
    cases hi with
    | complete id payload =>
        rw [ha id payload rfl] at hcond
        exact hcond
    | parse job hparse =>
        cases i with
        | createChunk => exact rfl
        | loadCompletion | planHandoff => exact nomatch hparse
        | _ => trivial
    | _ => trivial
  · intro k i j hi hj
    cases hj with
    | complete hfind hkeys => simp [NumberingInstr, outputsApart, hkeys, outputKeys, OutputType.all,
        PerType.get]
    | handoff => exact hi
    | _ => trivial

/-- Nothing is left to create when no transaction is open and no parse has chunks to
create. -/
theorem numbers_nil_of_open (htxn : AllInTxn c) (hopen : c.store.txn = none)
    (hno : ahead c isCreateChunk = false) (hat : c.At p k code) : numbers code = [] := by
  refine numbers_eq_nil fun i hi => ?_
  have hfree := (htxn.procs hat).free hopen i hi
  have hcreate := ahead_eq_false hno hat i hi
  cases i with
  | createChunk => exact nomatch hcreate
  | insertChunk => exact nomatch hfree
  | _ => rfl

theorem created_chunkNo (s : Store) (i : Instr) :
    (created s i).map Chunk.chunkNo = (creates i).toList := by
  cases i <;> rfl

/-- The numbers in use after an instruction. -/
theorem Change.numbers (h : Change p s i s') :
    ((allRows s').map Chunk.chunkNo).Subperm
      ((creates i).toList ++ (allRows s).map Chunk.chunkNo) := by
  have hcol := h.column Chunk.chunkNo fun _ _ _ => rfl
  rwa [List.map_append, created_chunkNo] at hcol

theorem numbers_subset (h : Change p s i s') (hi : creates i = none) :
    (allRows s').map Chunk.chunkNo ⊆ (allRows s).map Chunk.chunkNo := by
  have hsub := h.numbers.subset
  rwa [hi] at hsub

theorem OwnNumbers.of_rows (h : OwnNumbers s) (heq : allRows s' = allRows s) :
    OwnNumbers s' := ⟨heq ▸ h.nodup, heq ▸ h.keyed⟩

theorem OwnNumbers.change (h : OwnNumbers s) (hJ : Fresh p k (i :: rest) s)
    (hc : Change p s i s') : OwnNumbers s' where
  nodup := by
    obtain ⟨l, hperm, hsub⟩ := hc.numbers
    refine hperm.nodup_iff.mp (List.Nodup.sublist hsub ?_)
    cases hi : creates i with
    | none => exact h.nodup
    | some m =>
        have hm : m ∈ numbers (i :: rest) := by
          rw [numbers_cons_some hi]
          exact .head _
        exact List.nodup_cons.mpr ⟨hJ.free m hm, h.nodup⟩
  keyed := by
    intro row hrow
    rcases hc.mem_allRows hrow with ⟨old, hmem, ho⟩ | rfl | ⟨-, hkey⟩
    · rw [ho.inputKey, ho.chunkNo]
      exact h.keyed old hmem
    · exact hJ.keyed _ (.head _)
    · exact hkey

theorem writesInput_of_apart {payload : Payload} (h : outputsApart payload = true)
    (disk : Disk) (file : File) (type : OutputType) :
    writesInput (.putObject (disk, payload.keys.get type) file) = none := by
  have hkey := List.all_eq_true.mp h type (by cases type <;> decide)
  generalize payload.keys.get type = key at hkey ⊢
  cases key with
  | chunkInput => exact nomatch hkey
  | _ => rfl

theorem writesInput_leads (hinstr : NumberingInstr k i) (h : Leads s i j) (hi : ¬ Begins i) :
    writesInput j = none := by
  cases h with
  | put file hput =>
      rename_i addr
      obtain ⟨disk, key⟩ := addr
      cases hput with
      | rewrite r type => exact writesInput_of_apart hinstr disk file type
      | probeInput => exact absurd (.probe _ _ _) hi
      | retryInput => exact absurd (.retry _ _ _) hi
      | _ => rfl
  | _ => rfl

theorem le_foldr_max {m : Nat} : ∀ {l : List Nat}, m ∈ l → m ≤ l.foldr max 0
  | x :: l, h => by
      rcases List.mem_cons.mp h with rfl | h
      · exact Nat.le_max_left _ _
      · exact Nat.le_trans (le_foldr_max h) (Nat.le_max_right _ _)

/-- What a planner is about to create when it has begun. -/
theorem Fresh.begins (hJ : Fresh p k (i :: rest) s) (hb : Begins i) (hopen : s.txn = none)
    (hrest : numbers rest = []) (h : exec php p i s = some (s', .go code)) :
    Fresh p k (code ++ rest) s' := by
  have hnew : ∀ {m : Nat}, s.maxChunkNo < m → m ∉ s.chunks.map Chunk.chunkNo := by
    intro m hm hmem
    have hle : m ≤ s.maxChunkNo := le_foldr_max hmem
    omega
  cases hb with
  | probe r disk shards =>
      obtain ⟨-, ⟨-, rfl, hn⟩ | ⟨-, rfl, hn⟩⟩ := beginProbe_cases h
      · cases hn
        exact hJ.tail
      · cases hn
        have hnumbers : numbers (insertShards r.chunk.id (s.nextId + shards.length) disk
            s.settings.probeAttempts s.now s.nextId (s.maxChunkNo + 1) shards ++ [.commit] ++
              rest) = List.range' (s.maxChunkNo + 1) (filled shards) := by
          rw [List.append_assoc, numbers_append, numbers_insertShards, numbers_append, hrest]
          exact List.append_nil _
        refine ⟨?_, ?_, ?_, ?_⟩
        · rw [hnumbers]
          exact List.nodup_range'
        · intro m hm
          rw [hnumbers, List.mem_range'_1] at hm
          simpa [allRows, stagedRows] using hnew (m := m) (by omega)
        · have htail : Backed (.commit :: rest) := ⟨fun _ hn => (by cases hn), hJ.tail.backed⟩
          rw [List.append_assoc]
          exact backed_insertShards htail
        · intro j hj
          rcases List.mem_append.mp hj with hj | hj
          · cases exec_leads h j hj with
            | insertProbe => exact rfl
            | _ => trivial
          · exact hJ.keyed j (.tail _ hj)
  | retry chunk disk emails =>
      obtain ⟨-, rfl, hn⟩ := beginRetry_cases h
      cases hn
      have hnumbers : numbers ([.putObject (chunk.inputDisk.getD disk,
          .chunkInput (s.maxChunkNo + 1)) (inputFile emails),
            .insertChunk (retryRow s chunk disk emails), .commit] ++ rest) =
          [s.maxChunkNo + 1] := by
        rw [numbers_append, hrest]
        rfl
      refine ⟨?_, ?_, ?_, ?_⟩
      · rw [hnumbers]
        exact List.nodup_singleton _
      · intro m hm
        rw [hnumbers, List.mem_singleton] at hm
        simpa [allRows, stagedRows] using hnew (m := m) (by omega)
      · refine ⟨fun m hm => ?_, fun _ hn => (by cases hn), fun _ hn => (by cases hn),
          hJ.tail.backed⟩
        obtain rfl : s.maxChunkNo + 1 = m := by simpa [writesInput] using hm
        exact List.mem_filterMap.mpr ⟨_, .head _, rfl⟩
      · intro j hj
        rcases List.mem_append.mp hj with hj | hj
        · cases exec_leads h j hj with
          | insertRetry => exact rfl
          | _ => trivial
        · exact hJ.keyed j (.tail _ hj)

/-- An instruction that opens no transaction leaves its process fewer numbers. -/
theorem numbers_go (hi : ¬ Begins i) (h : exec php p i s = some (s', .go code)) :
    numbers (code ++ rest) = numbers rest := by
  have hcode : numbers code = [] := by
    refine numbers_eq_nil fun j hj => ?_
    have hleads := exec_leads h j hj
    have hfree := txnFree_leads hleads hi
    cases j with
    | insertChunk => exact nomatch hfree
    | createChunk => cases hleads
    | _ => rfl
  rw [numbers_append, hcode, List.nil_append]

theorem Fresh.go (hJ : Fresh p k (i :: rest) s) (hinstr : NumberingInstr k i)
    (hi : ¬ Begins i) (h : exec php p i s = some (s', .go code)) :
    Fresh p k (code ++ rest) s' := by
  have hnumbers : numbers (code ++ rest) = numbers rest := numbers_go hi h
  have htail := hJ.tail
  refine ⟨hnumbers ▸ htail.nodup, ?_, ?_, ?_⟩
  · intro m hm hmem
    rw [hnumbers] at hm
    rcases List.mem_append.mp ((exec_change h).numbers.subset hmem) with hnew | hold
    · -- the number just used is not used again
      have hcreates : creates i = some m := by simpa using hnew
      have hnodup := hJ.nodup
      rw [numbers_cons_some hcreates] at hnodup
      exact (List.nodup_cons.mp hnodup).1 hm
    · exact htail.free m hm hold
  · exact backed_append (fun j hj => writesInput_leads hinstr (exec_leads h j hj) hi)
      htail.backed
  · intro j hj
    rcases List.mem_append.mp hj with hj | hj
    · cases exec_leads h j hj with
      | insertProbe => exact rfl
      | insertRetry => exact rfl
      | _ => trivial
    · exact htail.keyed j hj

theorem quiet_handler (k : Kind) (code : List Instr) : ∀ i ∈ handler k code, Quiet i :=
  forall_handler (fun _ => ⟨rfl, rfl⟩) (fun _ => ⟨rfl, rfl⟩) fun _ => ⟨rfl, rfl⟩

theorem Fresh.of_quiet (h : ∀ i ∈ code, Quiet i) : Fresh p k code s :=
  .of_none (fun i hi => (h i hi).1) fun i hi => (h i hi).2

end Step

/-! ## Runs -/

section Run
variable {php : Php} {c c' : State} {a : Action}

/-- Between the steps of a process that has rows to create, no other has any. -/
theorem Sole.spawn {s : Store} {k : Kind} {code : List Instr} (h : Sole c)
    (hcode : numbers code = [] ∨ ∀ p k' code', c.At p k' code' → numbers code' = []) :
    Sole ((withStore c s).spawn k code) := by
  intro p q k₁ k₂ code₁ code₂ hp hq h₁ h₂
  rcases Conf.at_spawn.mp hp with hp' | ⟨rfl, -, rfl⟩
  · rcases Conf.at_spawn.mp hq with hq' | ⟨rfl, -, rfl⟩
    · exact h p q k₁ k₂ code₁ code₂ hp' hq' h₁ h₂
    · exact absurd (hcode.resolve_left h₂ p k₁ code₁ hp') h₁
  · rcases Conf.at_spawn.mp hq with hq' | ⟨rfl, -, rfl⟩
    · exact absurd (hcode.resolve_left h₁ q k₂ code₂ hq') h₂
    · rfl

theorem Sole.setCode {s : Store} {p : Nat} {k : Kind} {old code : List Instr} (h : Sole c)
    (hat : c.At p k old)
    (hcode : numbers code ≠ [] → ∀ q k' code', q ≠ p → c.At q k' code' → numbers code' = []) :
    Sole ((withStore c s).setCode p code) := by
  intro q q' k₁ k₂ code₁ code₂ hq hq' h₁ h₂
  rcases Conf.at_setCode.mp hq with ⟨rfl, rfl, -⟩ | ⟨hne, hold⟩
  · rcases Conf.at_setCode.mp hq' with ⟨rfl, -, -⟩ | ⟨hne', hold'⟩
    · rfl
    · exact absurd (hcode h₁ q' k₂ code₂ hne' hold') h₂
  · rcases Conf.at_setCode.mp hq' with ⟨rfl, rfl, -⟩ | ⟨-, hold'⟩
    · exact absurd (hcode h₂ q k₁ code₁ hne hold) h₁
    · exact h q q' k₁ k₂ code₁ code₂ hold hold' h₁ h₂

/-- A planner begins when nobody else has rows to create. -/
theorem numbers_nil_of_begins {p : Nat} {k : Kind} {i : Instr} {rest code : List Instr}
    {s' : Store} (h : NumberingInv c) (hat : c.At p k (i :: rest))
    (hcond : countersApart php c (.exec p) = true) (hb : Begins i)
    (hexec : exec php p i c.store = some (s', .go code)) :
    c.store.txn = none ∧ ((code = [] ∧ s' = c.store) ∨
      ∀ q k' code', c.At q k' code' → numbers code' = []) := by
  have hnone : c.store.txn = none → ahead c isCreateChunk = false →
      ∀ q k' code', c.At q k' code' → numbers code' = [] :=
    fun hopen hno _ _ _ hq => numbers_nil_of_open h.inTxn hopen hno hq
  cases hb with
  | probe r disk shards =>
      obtain ⟨hopen, ⟨-, hs, hn⟩ | ⟨hhas, -, -⟩⟩ := beginProbe_cases hexec
      · cases hn
        exact ⟨hopen, .inl ⟨rfl, hs⟩⟩
      · refine ⟨hopen, .inr (hnone hopen ?_)⟩
        simpa [countersApart, nextInstr_exec hat, hhas] using hcond
  | retry chunk disk emails =>
      obtain ⟨hopen, -, -⟩ := beginRetry_cases hexec
      refine ⟨hopen, .inr (hnone hopen ?_)⟩
      simpa [countersApart, nextInstr_exec hat] using hcond

theorem creates_parse {i : Instr} (h : isParseInstr i = true) (hi : isCreateChunk i = false) :
    creates i = none := by
  cases i with
  | createChunk => exact nomatch hi
  | insertChunk => exact nomatch h
  | _ => rfl

/-- A parse that is started has free numbers, and nobody else has any. -/
theorem fresh_startParse {lookups : List ParseAndChunkJob.Lookup} {p : Nat} {k : Kind}
    (h : NumberingInv c) (hcond : countersApart php c (.startParse lookups) = true)
    (hidle : running c isParse = false) :
    let code := parseCode php c.store.settings c.store.job c.store.upload lookups
    Fresh p k code c.store ∧
      (numbers code = [] ∨ ∀ q k' code', c.At q k' code' → numbers code' = []) := by
  intro code
  obtain ⟨files, disk, tail, hcode, hquiet⟩ :=
    parseCode_shape php c.store.settings c.store.job c.store.upload lookups
  have hnumbers : numbers code = List.range' 1 files.length := by
    show numbers (parseCode _ _ _ _ _) = _
    rw [hcode, numbers_append, numbers_chunkEffects,
      numbers_eq_nil fun i hi => (hquiet i hi).1, List.append_nil]
  have hbacked : Backed code := by
    show Backed (parseCode _ _ _ _ _)
    rw [hcode]
    exact backed_chunkEffects disk files (backed_of_none fun i hi => (hquiet i hi).2) 1
  have hkeyed : ∀ i ∈ code, keyed i := by
    intro i hi
    have hparse := isParse_parseCode hi
    cases i with
    | insertChunk => cases hparse
    | _ => trivial
  rw [countersApart, Bool.or_eq_true, Bool.not_eq_true'] at hcond
  rcases hcond with hnone | hempty
  · have hnil : numbers code = [] := by
      refine numbers_eq_nil fun i hi => creates_parse (isParse_parseCode hi) ?_
      simpa using List.any_eq_false.mp hnone i hi
    refine ⟨⟨hnil ▸ .nil, ?_, hbacked, hkeyed⟩, .inl hnil⟩
    intro n hn
    rw [hnil] at hn
    cases hn
  · rw [Bool.and_eq_true, List.isEmpty_iff, Option.isNone_iff_eq_none] at hempty
    refine ⟨⟨hnumbers ▸ List.nodup_range', ?_, hbacked, hkeyed⟩, .inr ?_⟩
    · intro n _ hmem
      simp [allRows, stagedRows, hempty.1, hempty.2] at hmem
    · intro q k' code' hq
      refine numbers_nil_of_open h.inTxn hempty.2 ?_ hq
      -- the chunks of a parse are created by parses, and none is running
      by_contra hne
      obtain ⟨q, k', code', hq, i, hi, hcreate⟩ := ahead_iff.mp (by simpa using hne)
      have hkind : isParse k' = true := by
        have hinstr := h.instr q k' code' hq i hi
        cases i with
        | createChunk => exact hinstr
        | _ => cases hcreate
      have hrun : running c isParse = true := by
        refine List.any_eq_true.mpr ⟨⟨k', code'⟩, List.mem_of_getElem? hq, ?_⟩
        cases code' with
        | nil => cases hi
        | cons => simp [hkind]
      rw [hidle] at hrun
      cases hrun

theorem fresh_exec {p : Nat} {k : Kind} {i : Instr} {rest : List Instr} {s' : Store}
    {n : Next Instr} (h : NumberingInv c) (hat : c.At p k (i :: rest))
    (hcond : countersApart php c (.exec p) = true) (hexec : exec php p i c.store = some (s', n)) :
    let code := n.resume (handler k (i :: rest)) rest
    Fresh p k code s' ∧ (numbers code = [] ∨ numbers (i :: rest) ≠ [] ∨
      ∀ q k' code', c.At q k' code' → numbers code' = []) := by
  have hJ := h.fresh.procs hat
  cases n with
  | raise =>
      have hquiet := quiet_handler k (i :: rest)
      exact ⟨.of_quiet hquiet, .inl (numbers_eq_nil fun j hj => (hquiet j hj).1)⟩
  | go code =>
      by_cases hb : Begins i
      · obtain ⟨hopen, hcode⟩ := numbers_nil_of_begins h hat hcond hb hexec
        have hcreates : creates i = none := by cases hb <;> rfl
        rcases hcode with ⟨rfl, rfl⟩ | hothers
        · refine ⟨hJ.tail, ?_⟩
          by_cases hnil : numbers rest = []
          · exact .inl hnil
          · rw [numbers_cons_none hcreates]
            exact .inr (.inl hnil)
        · have hrest : numbers rest = [] := by
            have hnil := hothers p k _ hat
            rwa [numbers_cons_none hcreates] at hnil
          exact ⟨hJ.begins hb hopen hrest hexec, .inr (.inr hothers)⟩
      · refine ⟨hJ.go (h.instr p k _ hat i (.head _)) hb hexec, ?_⟩
        rw [Next.resume_go, numbers_go hb hexec]
        by_cases hnil : numbers rest = []
        · exact .inl hnil
        · refine .inr (.inl fun hold => hnil ?_)
          cases hi : creates i with
          | none => rwa [numbers_cons_none hi] at hold
          | some m =>
              rw [numbers_cons_some hi] at hold
              exact nomatch hold

/-- The rows and the processes after an instruction of a process that may create
rows: nobody else has any to create. -/
theorem fresh_step (h : NumberingInv c) (hcond : countersApart php c a = true)
    (hs : act php c a = some c') : Outline OwnNumbers Fresh c' ∧ Sole c' := by
  have hrollback : ∀ {p : Nat}, (allRows (c.store.rollback p)).map Chunk.chunkNo ⊆
      (allRows c.store).map Chunk.chunkNo :=
    fun {p} => ((allRows_rollback_sublist c.store p).map Chunk.chunkNo).subset
  have hrows : ∀ {p : Nat}, OwnNumbers (c.store.rollback p) := fun {p} =>
    ⟨h.fresh.store.nodup.sublist ((allRows_rollback_sublist c.store p).map Chunk.chunkNo),
      fun row hrow => h.fresh.store.keyed row (mem_allRows_rollback hrow)⟩
  have hone : ∀ {p : Nat} {k : Kind} {i : Instr} {s : Store}, Quiet i → Fresh p k [i] s := by
    intro p k i s hi
    refine .of_quiet fun j hj => ?_
    rw [List.mem_singleton.mp hj]
    exact hi
  cases act_cases hs with
  | tick seconds =>
      exact ⟨outline_withStore h.fresh (h.fresh.store.of_rows rfl) fun _ hJ => hJ.of_rows rfl,
        h.sole⟩
  | configure settings =>
      exact ⟨outline_withStore h.fresh (h.fresh.store.of_rows rfl) fun _ hJ => hJ.of_rows rfl,
        h.sole⟩
  | upload disk chunkNo type file =>
      exact ⟨outline_withStore h.fresh (h.fresh.store.of_rows rfl) fun _ hJ => hJ.of_rows rfl,
        h.sole⟩
  | claim hfind hpaused hcand =>
      have hcol : ∀ {id server : Nat} {worker : Text} {lease : Int} {token : Nat},
          (allRows (c.store.updateChunk id (ClaimNext.claimed c.store.now server worker lease
            token))).map Chunk.chunkNo = (allRows c.store).map Chunk.chunkNo :=
        column_updateChunk _ fun _ => rfl
      refine ⟨outline_launch h.fresh ?_ ?_ ?_, h.sole.spawn (.inl rfl)⟩
      · refine ⟨hcol ▸ h.fresh.store.nodup, fun row hrow => ?_⟩
        obtain ⟨old, hmem, ho⟩ :=
          mem_allRows_updateChunk (sameOrigin_claimed _ _ _ _ _) hrow
        rw [ho.inputKey, ho.chunkNo]
        exact h.fresh.store.keyed old hmem
      · refine fun _ hJ => hJ.mono ?_
        rw [hcol]
        exact List.Subset.refl _
      · exact hone ⟨rfl, rfl⟩
  | complete id payload =>
      exact ⟨h.fresh.spawn (hone ⟨rfl, rfl⟩), h.sole.spawn (s := c.store) (.inl rfl)⟩
  | fail id retryable =>
      exact ⟨h.fresh.spawn (hone ⟨rfl, rfl⟩), h.sole.spawn (s := c.store) (.inl rfl)⟩
  | startParse hstatus hidle =>
      obtain ⟨hfresh, hnumbers⟩ := fresh_startParse h hcond hidle
      exact ⟨h.fresh.spawn hfresh, h.sole.spawn (s := c.store) hnumbers⟩
  | startFinalize hqueue hidle =>
      exact ⟨outline_launch h.fresh (h.fresh.store.of_rows rfl) (fun _ hJ => hJ.of_rows rfl)
        (hone ⟨rfl, rfl⟩), h.sole.spawn (.inl rfl)⟩
  | @exec p k i rest s' n hat hexec =>
      obtain ⟨hfresh, hnumbers⟩ := fresh_exec h hat hcond hexec
      have hc := exec_change hexec
      refine ⟨h.fresh.exec hat (h.fresh.store.change (h.fresh.procs hat) hc) hfresh ?_, ?_⟩
      · intro q k' code' hne hq hJ
        cases hi : creates i with
        | none => exact hJ.mono (numbers_subset hc hi)
        | some m =>
            refine hJ.of_numbers ?_
            by_contra hq'
            refine hne (h.sole p q k k' _ _ hat hq ?_ hq').symm
            rw [numbers_cons_some hi]
            exact nofun
      · refine h.sole.setCode hat fun hne q k' code' hqp hq => ?_
        rcases hnumbers with hnil | hold | hothers
        · exact absurd hnil hne
        · by_contra hq'
          exact hqp (h.sole p q k k' _ _ hat hq hold hq').symm
        · exact hothers q k' code' hq
  | @throw p k i rest hat =>
      have hquiet := quiet_handler k (i :: rest)
      refine ⟨h.fresh.exec hat hrows (.of_quiet hquiet) fun _ _ hJ => hJ.mono hrollback, ?_⟩
      exact h.sole.setCode hat fun hne => absurd (numbers_eq_nil fun i hi => (hquiet i hi).1) hne
  | kill hat =>
      refine ⟨h.fresh.exec hat hrows (.of_quiet fun _ hi => nomatch hi)
        fun _ _ hJ => hJ.mono hrollback, ?_⟩
      exact h.sole.setCode hat fun hne => absurd rfl hne

theorem numberingInv_step (h : NumberingInv c) (hcond : countersApart php c a = true)
    (hs : act php c a = some c') : NumberingInv c' := by
  obtain ⟨hfresh, hsole⟩ := fresh_step h hcond hs
  exact ⟨inTxn_step h.inTxn hs, numberingInstr_step h.instr hcond hs, hfresh, hsole⟩

end Run

theorem numberingInv_untouched {c : State} (h : Untouched c) : NumberingInv c := by
  refine ⟨inTxn_idle h.procs, eachInstr_idle h.procs, outline_idle h.procs ⟨?_, ?_⟩, ?_⟩
  · simp [allRows, stagedRows, h.chunks, h.txn]
  · intro row hrow
    simp [allRows, stagedRows, h.chunks, h.txn] at hrow
  · intro p q k k' code code' hp
    have hp' : c.procs[p]? = some ⟨k, code⟩ := hp
    rw [h.procs] at hp'
    cases hp'

/-! ## The law -/

/-- Chunk numbers and input objects are never shared: no two rows have the same
number or the same input key, no process is about to write the input object of a
row that is there, and none is about to violate the unique index. -/
structure NumbersApart (c : State) : Prop where
  chunkNo : ((allRows c.store).map Chunk.chunkNo).Nodup
  inputKey : ((allRows c.store).map Chunk.inputKey).Nodup
  overwrite : ∀ p k addr file rest, c.At p k (.putObject addr file :: rest) →
    ∀ row ∈ allRows c.store, row.inputKey ≠ addr.2
  unique : ∀ p k i rest n, c.At p k (i :: rest) → creates i = some n →
    ∀ row ∈ allRows c.store, row.chunkNo ≠ n

theorem NumberingInv.numbersApart {c : State} (h : NumberingInv c) : NumbersApart c where
  chunkNo := h.fresh.store.nodup
  inputKey := by
    have hcol : (allRows c.store).map Chunk.inputKey =
        ((allRows c.store).map Chunk.chunkNo).map Key.chunkInput := by
      rw [List.map_map]
      exact List.map_congr_left fun row hrow => h.fresh.store.keyed row hrow
    rw [hcol]
    exact h.fresh.store.nodup.map fun _ _ heq => by cases heq; rfl
  overwrite := by
    intro p k addr file rest hat row hrow hkey
    have hJ := h.fresh.procs hat
    rw [h.fresh.store.keyed row hrow] at hkey
    have hwrites : writesInput (.putObject addr file) = some row.chunkNo := by
      obtain ⟨disk, key⟩ := addr
      simp only at hkey
      rw [← hkey]
      rfl
    exact hJ.tail.free _ (hJ.backed.1 _ hwrites) (List.mem_map_of_mem hrow)
  unique := by
    intro p k i rest n hat hi row hrow heq
    have hmem : n ∈ numbers (i :: rest) := by
      rw [numbers_cons_some hi]
      exact .head _
    exact (h.fresh.procs hat).free n hmem (heq ▸ List.mem_map_of_mem hrow)

/-- **Chunk numbers are never shared**, in every run in which no planner begins while
a parse has a chunk to create and no parse numbers a job that has chunks. -/
theorem numbersApart_of_countersApart {php : Php} {c₀ c : State} (h₀ : Untouched c₀)
    (h : (pipeline php).Reaches (fun c a => countersApart php c a = true) c₀ c) :
    NumbersApart c :=
  (h.invariant (numberingInv_untouched h₀) fun _ _ _ => numberingInv_step).numbersApart

theorem numbersApart_tempfail :
    ∃ c, (pipeline samplePhp).Reaches (fun c a => countersApart samplePhp c a = true)
        (sampleJob (retrySettings 3) ["a@b.co"]) c ∧
      c.store.chunks.map Chunk.chunkNo = [1, 2, 3] ∧ NumbersApart c := by
  have hrun : ((pipeline samplePhp).runIf (fun c a => countersApart samplePhp c a = true)
      (sampleJob (retrySettings 3) ["a@b.co"]) tempfailSchedule).any
        (fun c => c.store.chunks.map Chunk.chunkNo == [1, 2, 3]) = true := by
    decide
  obtain ⟨c, hreach, htest⟩ := Transition.System.exists_reaches hrun
  rw [beq_iff_eq] at htest
  exact ⟨c, hreach, htest, numbersApart_of_countersApart ⟨rfl, rfl, rfl, rfl⟩ hreach⟩

/-- Settings under which a chunk has one address and is probed. -/
def singleSettings : Settings := { retrySettings 3 with chunkSizeDefault := 1 }

/-- The first chunk is screened, and its probe chunk is created, while the parse has
the second chunk to write. -/
def earlyProbeSchedule : List Action :=
  .startParse [] :: turns 0 2 ++ claimBy 0 ["a@b.co"] .valid "rcpt_ok" :: turns 1 10

/-- The parse is about to overwrite the input of the probe chunk. -/
theorem earlyProbe_not_numbersApart :
    ∃ c, (pipeline samplePhp).Reaches Transition.Always
        (sampleJob singleSettings ["a@b.co", "d@e.co"]) c ∧ ¬ NumbersApart c := by
  have hrun : ((pipeline samplePhp).run (sampleJob singleSettings ["a@b.co", "d@e.co"])
      earlyProbeSchedule).any (fun c =>
        (allRows c.store).any (fun row => row.inputKey == .chunkInput 2) &&
          c.procs[0]?.any fun q => q.code.head?.any fun i => writesInput i == some 2) = true := by
    decide
  obtain ⟨c, hreach, htest⟩ := Transition.System.exists_reaches_always hrun
  rw [Bool.and_eq_true] at htest
  obtain ⟨row, hrow, hkey⟩ := List.any_eq_true.mp htest.1
  obtain ⟨q, hq, hhead⟩ := (Option.any_eq_true _ _).mp htest.2
  obtain ⟨i, hi, hwrites⟩ := (Option.any_eq_true _ _).mp hhead
  rw [beq_iff_eq] at hkey hwrites
  refine ⟨c, hreach, fun h => ?_⟩
  obtain ⟨k, code⟩ := q
  obtain ⟨rest, rfl⟩ : ∃ rest, code = i :: rest := by
    cases code with
    | nil => exact nomatch hi
    | cons j rest => exact ⟨rest, by rw [Option.some.inj hi]⟩
  cases i with
  | putObject addr file =>
      obtain ⟨disk, key⟩ := addr
      cases key with
      | chunkInput n =>
          obtain rfl : n = 2 := Option.some.inj hwrites
          exact h.overwrite 0 k _ file rest hq row hrow hkey
      | _ => exact nomatch hwrites
  | _ => exact nomatch hwrites

end ValidEmailVerifier
