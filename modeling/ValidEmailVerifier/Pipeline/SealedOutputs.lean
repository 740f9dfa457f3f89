/-
# `Pipeline.SealedOutputs` — the output files of a completed chunk

The output keys of a chunk depend on its number only, and nothing asks a worker
whether the chunk is still its own when it uploads.  What keeps the files of a
completed chunk is that nobody is left who would write them.

An instruction is a *hazard* for a row when it may write one of its output
objects, or move the row from completed.  When a completion gives a row its
keys, and when the retry planner moves the risky one, no hazard may be ahead
(`sealedWhenCompleted`); then none appears any more, since whoever comes later
is turned away by the status of the row or works on another number.  So the
objects at the keys are never written again.
-/
import ValidEmailVerifier.Pipeline.FreshRows
import ValidEmailVerifier.Pipeline.UniqueNumbers

namespace ValidEmailVerifier.Console

open Processes

/-! ## Keys of a chunk -/

/-- The number of the chunk whose output a key is, filtered or not. -/
def root : Key → Option Nat
  | .chunkOutput chunkNo _ => some chunkNo
  | .filteredRisky key => root key
  | _ => none

/-- `inner` is the second key, or one that it was filtered from. -/
def covers (inner : Key) : Key → Bool
  | .filteredRisky key => inner == .filteredRisky key || covers inner key
  | key => inner == key

/-- How often a key was filtered. -/
def depth : Key → Nat
  | .filteredRisky key => depth key + 1
  | _ => 0

/-- The output keys of the row's number, and those its risky key was filtered from. -/
def guarded (row : Chunk) (key : Key) : Bool :=
  OutputType.all.any (fun t => key == .chunkOutput row.chunkNo t) ||
    row.keys.risky.any (covers key)

/-- The keys of the row are those of its number. -/
structure OwnKeys (row : Chunk) : Prop where
  valid : ∀ key, row.keys.valid = some key → key = .chunkOutput row.chunkNo .valid
  invalid : ∀ key, row.keys.invalid = some key → key = .chunkOutput row.chunkNo .invalid
  risky : ∀ key, row.keys.risky = some key → root key = some row.chunkNo

section Keys
variable {row : Chunk} {key inner : Key} {t : OutputType}

theorem covers_self (key : Key) : covers key key = true := by
  cases key <;> simp [covers]

/-- A key covers itself and what the key it was filtered from covers. -/
theorem covers_cases (h : covers inner key = true) :
    inner = key ∨ ∃ source, key = .filteredRisky source ∧ covers inner source = true := by
  cases key with
  | filteredRisky source =>
      rw [covers, Bool.or_eq_true, beq_iff_eq] at h
      exact h.imp_right fun h => ⟨source, rfl, h⟩
  | _ => exact .inl (beq_iff_eq.mp h)

theorem root_of_covers {key : Key} (h : covers inner key = true) : root inner = root key := by
  rcases covers_cases h with rfl | ⟨source, rfl, hsource⟩
  · rfl
  · have hroot : root inner = root source := root_of_covers hsource
    exact hroot

theorem depth_of_covers {key : Key} (h : covers inner key = true) : depth inner ≤ depth key := by
  rcases covers_cases h with rfl | ⟨source, rfl, hsource⟩
  · exact Nat.le_refl _
  · have hdepth : depth inner ≤ depth source := depth_of_covers hsource
    exact Nat.le_succ_of_le hdepth

theorem guarded_iff : guarded row key = true ↔
    (∃ t, key = .chunkOutput row.chunkNo t) ∨
      ∃ risky, row.keys.risky = some risky ∧ covers key risky = true := by
  rw [guarded, Bool.or_eq_true, Option.any_eq_true]
  refine or_congr ?_ Iff.rfl
  constructor
  · intro h
    obtain ⟨t, -, ht⟩ := List.any_eq_true.mp h
    exact ⟨t, beq_iff_eq.mp ht⟩
  · rintro ⟨t, rfl⟩
    cases t <;> simp [OutputType.all]

/-- A guarded key is one of the row's number. -/
theorem root_of_guarded (hown : OwnKeys row) (h : guarded row key = true) :
    root key = some row.chunkNo := by
  rcases guarded_iff.mp h with ⟨t, rfl⟩ | ⟨risky, hrisky, hcovers⟩
  · rfl
  · exact (root_of_covers hcovers).trans (hown.risky risky hrisky)

/-- The keys of the row are guarded. -/
theorem guarded_of_key (hown : OwnKeys row) (h : row.keys.get t = some key) :
    guarded row key = true := by
  refine guarded_iff.mpr ?_
  cases t with
  | valid => exact .inl ⟨.valid, hown.valid key h⟩
  | invalid => exact .inl ⟨.invalid, hown.invalid key h⟩
  | risky => exact .inr ⟨key, h, covers_self key⟩

/-- The key a filtered file would get is not guarded yet. -/
theorem not_guarded_filtered (h : row.keys.risky = some key) :
    guarded row (.filteredRisky key) = false := by
  by_contra hne
  rw [Bool.not_eq_false] at hne
  rcases guarded_iff.mp hne with ⟨t, ht⟩ | ⟨risky, hrisky, hcovers⟩
  · exact nomatch ht
  · rw [h, Option.some.injEq] at hrisky
    subst hrisky
    have hle : depth key + 1 ≤ depth key := depth_of_covers hcovers
    omega

end Keys

/-! ## Hazards -/

/-- An instruction that may write a guarded object of the row, or move the row from
completed. -/
def hazard (row : Chunk) : Instr → Bool
  | .putObject addr _ => guarded row addr.2
  | .download id _ => id == row.id
  | .planHandoff r => r.chunk.id == row.id || r.chunk.chunkNo == row.chunkNo
  | .updateCompleted r => r.chunk.id == row.id
  | .updateFailed chunk _ => chunk.id == row.id
  | .splitRisky chunk _ => chunk.keys.risky.any fun key => guarded row (.filteredRisky key)
  | _ => false

/-- A statement that writes the row. -/
def Statement.rewrites (id : Nat) : Statement → Bool
  | .saveChunk model _ => model.id == id
  | _ => false

/-- What is left when the mover has executed its instruction. -/
def afterHead (c : State) : Action → State
  | .exec p =>
      match c.procs[p]? with
      | some ⟨_, _ :: rest⟩ => c.setCode p rest
      | _ => c
  | _ => c

/-- Nobody else can harm the row. -/
def unharmed (d : Desk) (a : Action) (row : Chunk) : Bool :=
  !ahead (afterHead d.store a) (hazard row) &&
    d.procs.all fun q => q.code.all fun i => !i.rewrites row.id

/-- A request names the outputs of its chunk; when a completed row is given its keys,
nobody can harm it any more; nothing is uploaded for a completed chunk, and none is
deleted. -/
def sealedWhenCompleted (d : Desk) (e : Event) : Bool :=
  match e with
  | .core (.upload _ chunkNo _ _) =>
      d.store.store.chunks.all fun row => row.status != .completed || row.chunkNo != chunkNo
  | .core a =>
      match nextInstr d.store a with
      | some (.loadCompletion id payload) =>
          (d.store.store.findChunk id).all fun row =>
            row.status == .completed || row.status == .failed || payload.keys == outputKeys row
      | some (.updateCompleted r) =>
          (d.store.store.findChunk r.chunk.id).all fun row =>
            r.payload.keys == outputKeys row &&
              unharmed d a (Chunk.update r.chunk r.completed row)
      | some (.updateParent chunk key filteredCount) =>
          (d.store.store.findChunk chunk.id).all fun row =>
            row.keys.risky == some key &&
              unharmed d a
                (Chunk.update chunk (chunk.withFilteredRisky key filteredCount) row)
      | _ => true
  | .exec n =>
      match nextStatement d n with
      | some .deleteChunks => d.store.store.chunks.all fun row => row.status != .completed
      | _ => true
  | _ => true

/-! ## Rows and instructions are clean -/

/-- The rows have keys of their own. -/
structure CleanRows (s : Store) : Prop where
  own : ∀ {id : Nat} {row : Chunk}, s.findChunk id = some row → OwnKeys row
  input : ∀ row ∈ s.chunks, root row.inputKey = none

/-- A handoff rewrites the outputs of its chunk. -/
def CleanInstr (_ : Kind) : Instr → Prop
  | .planHandoff r => r.payload.keys = outputKeys r.chunk
  | _ => True

theorem root_of_fresh {row : Chunk} (h : FreshRow row) : root row.inputKey = none := by
  obtain ⟨chunkNo, hkey⟩ := h.input
  rw [hkey]
  rfl

theorem ownKeys_of_fresh {row : Chunk} (h : FreshRow row) : OwnKeys row := by
  constructor
  · intro key hkey
    rw [h.keys] at hkey
    exact nomatch hkey
  · intro key hkey
    rw [h.keys] at hkey
    exact nomatch hkey
  · intro key hkey
    rw [h.keys] at hkey
    exact nomatch hkey

section Rows
variable {php : Php} {p : Nat} {s s' : Store} {row chunk : Chunk} {i j : Instr}
  {code : List Instr}

/-- A number names one row. -/
theorem eq_of_number {id id' : Nat} (h : Unique s) (hfind : s.findChunk id = some chunk)
    (hfind' : s.findChunk id' = some row) (hno : chunk.chunkNo = row.chunkNo) : chunk = row := by
  have hmem : ∀ {id : Nat} {c : Chunk}, s.findChunk id = some c → c ∈ allRows s :=
    fun hc => List.mem_append_left _ (Table.mem_of_find hc)
  exact List.inj_on_of_nodup_map h (hmem hfind) (hmem hfind') hno

/-- A live chunk is not the completed row. -/
theorem id_ne_of_live {id : Nat} (hrow : s.findChunk row.id = some row)
    (hcompleted : row.status = .completed) (hfind : s.findChunk id = some chunk)
    (hlive : Live chunk) : chunk.id ≠ row.id := by
  intro heq
  have hid : chunk.id = id := Table.key_of_find hfind
  rw [← hid, heq, hrow, Option.some.injEq] at hfind
  subst hfind
  exact not_live_of_completed hcompleted hlive

theorem guarded_outputKeys (hown : OwnKeys row) {t : OutputType}
    (h : guarded row ((outputKeys chunk).get t) = true) : chunk.chunkNo = row.chunkNo := by
  have hroot := root_of_guarded hown h
  cases t <;> exact Option.some.inj hroot

/-- The instructions that go on with the outputs of a chunk. -/
def picks : Instr → Bool
  | .download _ _ | .splitRisky _ _ | .planHandoff _ | .planRetry _ => true
  | _ => false

/-- The others go on with inputs and final outputs, and with chunks that are live. -/
theorem hazard_leads (hunique : Unique s) (hclean : CleanRows s)
    (hrow : s.findChunk row.id = some row) (hcompleted : row.status = .completed)
    (hpicks : picks i = false) (h : Leads s i j) : hazard row j = false := by
  have hfree : ∀ {addr : Addr} {file : File}, root addr.2 = none →
      hazard row (.putObject addr file) = false := by
    intro addr file hroot
    by_contra hne
    have hguarded := root_of_guarded (hclean.own hrow) ((Bool.not_eq_false _).mp hne)
    rw [hroot] at hguarded
    exact nomatch hguarded
  cases h with
  | put file hput =>
      rename_i addr
      obtain ⟨disk, key⟩ := addr
      cases hput with
      | output => exact nomatch hpicks
      | rewrite => exact nomatch hpicks
      | filtered => exact nomatch hpicks
      | probeInput => exact hfree rfl
      | retryInput => exact hfree rfl
      | final => exact hfree rfl
  | handoff hfind hlive hstage =>
      have hne := id_ne_of_live hrow hcompleted hfind hlive
      simp only [hazard, Bool.or_eq_false_iff, beq_eq_false_iff_ne]
      refine ⟨hne, fun hno => hne ?_⟩
      rw [eq_of_number hunique hfind hrow hno]
  | update hfind hlive => simpa [hazard] using id_ne_of_live hrow hcompleted hfind hlive
  | updateFailed hfind hlive => simpa [hazard] using id_ne_of_live hrow hcompleted hfind hlive
  | handoffUpdate => exact nomatch hpicks
  | split => exact nomatch hpicks
  | _ => rfl

/-- **No hazard comes from an instruction that is none.** -/
theorem hazard_go {k : Kind} (hunique : Unique s) (hclean : CleanRows s)
    (hrow : s.findChunk row.id = some row) (hcompleted : row.status = .completed)
    (hi : hazard row i = false) (hinstr : CleanInstr k i)
    (hexec : ValidEmailVerifier.exec php p i s = some (s', .go code)) :
    ∀ j ∈ code, hazard row j = false := by
  have hown := hclean.own hrow
  have hother : ∀ {other : Chunk} {t : OutputType} {disk : Disk} {file : File},
      other.chunkNo ≠ row.chunkNo →
        hazard row (.putObject (disk, (outputKeys other).get t) file) = false := by
    intro other t disk file hne
    by_contra hguarded
    exact hne (guarded_outputKeys hown ((Bool.not_eq_false _).mp hguarded))
  cases i with
  | download id verdicts =>
      obtain ⟨-, hn | ⟨chunk, input, hfind, -, hn⟩⟩ := download_cases hexec
      · exact nomatch hn
      · cases hn
        have hid : chunk.id = id := Table.key_of_find hfind
        have hno : chunk.chunkNo ≠ row.chunkNo := by
          intro heq
          obtain rfl := eq_of_number hunique hfind hrow heq
          rw [hazard, hid, beq_self_eq_true] at hi
          exact nomatch hi
        intro j hj
        rcases mem_putFiles hj with ⟨t, rfl⟩ | rfl
        · exact hother hno
        · rfl
  | splitRisky chunk disk =>
      obtain ⟨-, hn | ⟨key, file, hkey, -, -, hn⟩⟩ := splitRisky_cases hexec
      · cases hn
        exact fun j hj => nomatch hj
      · cases hn
        intro j hj
        simp only [List.mem_cons, List.not_mem_nil, or_false] at hj
        rcases hj with rfl | rfl | rfl
        · rw [hazard, hkey] at hi
          exact hi
        · rfl
        · rfl
  | planHandoff r =>
      simp only [hazard, Bool.or_eq_false_iff, beq_eq_false_iff_ne] at hi
      intro j hj
      cases exec_leads hexec j hj with
      | put file hput =>
          rename_i addr
          obtain ⟨disk, key⟩ := addr
          cases hput with
          | rewrite _ type =>
              have hkeys : r.payload.keys = outputKeys r.chunk := hinstr
              rw [hkeys]
              exact hother hi.2
      | handoffUpdate => simpa [hazard] using hi.1
      | _ => rfl
  | planRetry r =>
      intro j hj
      cases exec_leads hexec j hj with
      | put file hput => cases hput
      | @split _ fresh hfind disk =>
          by_contra hne
          rw [Bool.not_eq_false, hazard, Option.any_eq_true] at hne
          obtain ⟨key, hkey, hguarded⟩ := hne
          have hroot : root (.filteredRisky key) = some row.chunkNo :=
            root_of_guarded hown hguarded
          have hno : fresh.chunkNo = row.chunkNo := by
            rw [root, (hclean.own hfind).risky key hkey, Option.some.injEq] at hroot
            exact hroot
          obtain rfl := eq_of_number hunique hfind hrow hno
          rw [not_guarded_filtered hkey] at hguarded
          exact nomatch hguarded
  | _ => exact fun j hj => hazard_leads hunique hclean hrow hcompleted rfl (exec_leads hexec j hj)

/-- A key that is written is the row's, or one that the update fills in. -/
theorem ownKeys_update {model filled : Chunk} (hrow : OwnKeys row)
    (hvalid : filled.keys.valid ≠ model.keys.valid →
      ∀ key, filled.keys.valid = some key → key = .chunkOutput row.chunkNo .valid)
    (hinvalid : filled.keys.invalid ≠ model.keys.invalid →
      ∀ key, filled.keys.invalid = some key → key = .chunkOutput row.chunkNo .invalid)
    (hrisky : filled.keys.risky ≠ model.keys.risky →
      ∀ key, filled.keys.risky = some key → root key = some row.chunkNo) :
    OwnKeys (Chunk.update model filled row) := by
  constructor
  · intro key hkey
    have hdirty : dirty model.keys.valid filled.keys.valid row.keys.valid = some key := hkey
    rw [dirty] at hdirty
    split at hdirty
    next => exact hrow.valid key hdirty
    next hne => exact hvalid hne key hdirty
  · intro key hkey
    have hdirty : dirty model.keys.invalid filled.keys.invalid row.keys.invalid = some key :=
      hkey
    rw [dirty] at hdirty
    split at hdirty
    next => exact hrow.invalid key hdirty
    next hne => exact hinvalid hne key hdirty
  · intro key hkey
    have hdirty : dirty model.keys.risky filled.keys.risky row.keys.risky = some key := hkey
    rw [dirty] at hdirty
    split at hdirty
    next => exact hrow.risky key hdirty
    next hne => exact hrisky hne key hdirty

end Rows

/-! ## One step -/

/-- Nobody can harm the row. -/
structure SafeFor (d : Desk) (row : Chunk) : Prop where
  core : EachInstr (fun _ i => hazard row i = false) d.store
  calls : ∀ n code, d.At n () code → ∀ i ∈ code, i.rewrites row.id = false

/-- No completed row is in danger. -/
def Sealed (d : Desk) : Prop :=
  ∀ row, d.store.store.findChunk row.id = some row → row.status = .completed → SafeFor d row

/-- A call deletes inputs. -/
def CleanCalls (d : Desk) : Prop :=
  ∀ n code, d.At n () code → ∀ i ∈ code, ∀ addr, i = .deleteObject addr → root addr.2 = none

/-- What the runs keep. -/
structure SealedInv (d : Desk) : Prop where
  unique : UniqueInv d.store
  fresh : FreshInv d.store
  rows : CleanRows d.store.store
  instr : EachInstr CleanInstr d.store
  calls : CleanCalls d
  noHazard : Sealed d

section Step
variable {php : Php} {d d' : Desk} {c c' : State} {e : Event} {s s' : Store} {a : Action}

/-- A completion that the condition allows names the outputs of the row, and a retry
moves the risky key the row has; then nobody can harm the row. -/
theorem seals_of_cond {p : Nat} {k : Kind} {i : Instr} {rest : List Instr} {id : Nat}
    {model filled row : Chunk} (hat : d.store.At p k (i :: rest))
    (hcond : sealedWhenCompleted d (.core (.exec p)) = true)
    (hw : Writes d.store.store i id model filled)
    (hfind : d.store.store.findChunk id = some row) :
    (∃ chunk retryable, i = .updateFailed chunk retryable) ∨
      (((∃ r, i = .updateCompleted r ∧ r.payload.keys = outputKeys row) ∨
          ∃ chunk key n, i = .updateParent chunk key n ∧ row.keys.risky = some key) ∧
        unharmed d (.exec p) (Chunk.update model filled row) = true) := by
  cases hw with
  | failed _ retryable => exact .inl ⟨model, retryable, rfl⟩
  | completed r =>
      simp only [sealedWhenCompleted, nextInstr_exec hat, hfind, Option.all_some,
        Bool.and_eq_true, beq_iff_eq] at hcond
      exact .inr ⟨.inl ⟨r, rfl, hcond.1⟩, hcond.2⟩
  | parent _ key n =>
      simp only [sealedWhenCompleted, nextInstr_exec hat, hfind, Option.all_some,
        Bool.and_eq_true, beq_iff_eq] at hcond
      exact .inr ⟨.inr ⟨model, key, n, rfl, hcond.1⟩, hcond.2⟩

/-- Such a write leaves the row keys of its own. -/
theorem ownKeys_writes {p : Nat} {k : Kind} {i : Instr} {rest : List Instr} {id : Nat}
    {model filled row : Chunk} (hat : d.store.At p k (i :: rest))
    (hcond : sealedWhenCompleted d (.core (.exec p)) = true)
    (hw : Writes d.store.store i id model filled)
    (hfind : d.store.store.findChunk id = some row) (hrow : OwnKeys row) :
    OwnKeys (Chunk.update model filled row) := by
  rcases seals_of_cond hat hcond hw hfind with ⟨chunk, retryable, rfl⟩ |
    ⟨⟨r, rfl, hkeys⟩ | ⟨chunk, key, n, rfl, hkey⟩, -⟩
  · cases hw with
    | failed => exact ownKeys_update hrow (absurd rfl) (absurd rfl) (absurd rfl)
  · cases hw with
    | completed =>
        have hfilled : r.completed.keys = (outputKeys row).map some := by rw [← hkeys]; rfl
        refine ownKeys_update hrow ?_ ?_ ?_
        · intro _ key hkey
          rw [hfilled] at hkey
          exact (Option.some.inj hkey).symm
        · intro _ key hkey
          rw [hfilled] at hkey
          exact (Option.some.inj hkey).symm
        · intro _ key hkey
          rw [hfilled] at hkey
          rw [← Option.some.inj hkey]
          rfl
  · cases hw with
    | parent =>
        refine ownKeys_update hrow (absurd rfl) (absurd rfl) ?_
        intro _ new hnew
        rw [← Option.some.inj hnew]
        exact hrow.risky key hkey

/-- **The rows stay clean.** -/
theorem cleanRows_exec {p : Nat} {k : Kind} {i : Instr} {rest : List Instr} {n : Next Instr}
    (h : CleanRows d.store.store)
    (hstaged : ∀ row ∈ stagedRows d.store.store, FreshRow row) (hat : d.store.At p k (i :: rest))
    (hcond : sealedWhenCompleted d (.core (.exec p)) = true)
    (hexec : ValidEmailVerifier.exec php p i d.store.store = some (s', n)) : CleanRows s' := by
  refine ⟨?_, ?_⟩
  · intro id row' hfind
    rcases found_exec hstaged hexec hfind with ⟨row, hrow, rfl | ⟨model, filled, hw, rfl⟩⟩ | hfresh
    · exact h.own hrow
    · exact ownKeys_writes hat hcond hw hrow (h.own hrow)
    · exact ownKeys_of_fresh hfresh
  · intro row hmem
    cases exec_change hexec with
    | keep hchunks => exact h.input row (hchunks ▸ hmem)
    | create _ _ hchunks =>
        rw [hchunks] at hmem
        rcases List.mem_append.mp hmem with hmem | hmem
        · exact h.input row hmem
        · rw [List.mem_singleton.mp hmem]
          rfl
    | lock _ _ hchunks => exact h.input row (hchunks ▸ hmem)
    | stage _ _ hchunks => exact h.input row (hchunks ▸ hmem)
    | violation _ hs =>
        rw [hs, Store.rollback_chunks] at hmem
        exact h.input row hmem
    | @commit t _ hopen hchunks =>
        rw [hchunks] at hmem
        rcases List.mem_append.mp hmem with hmem | hmem
        · exact h.input row hmem
        · exact root_of_fresh (hstaged row (by simpa [stagedRows, hopen] using hmem))
    | write _ hchunks =>
        rw [hchunks] at hmem
        refine Table.update_forall h.input ?_ row hmem
        exact fun _ _ _ hrow => hrow

theorem CleanRows.of_same (h : CleanRows s) (hchunks : s'.chunks = s.chunks) :
    CleanRows s' where
  own := by
    intro id row hfind
    rw [Store.findChunk, hchunks] at hfind
    exact h.own hfind
  input := fun row hmem => h.input row (hchunks ▸ hmem)

/-- A row that is changed under its id keeps clean keys. -/
theorem CleanRows.update (h : CleanRows s) {id : Nat} {f : Chunk → Chunk}
    (hid : ∀ row, (f row).id = row.id) (hinput : ∀ row, (f row).inputKey = row.inputKey)
    (hown : ∀ row, OwnKeys row → OwnKeys (f row)) : CleanRows (s.updateChunk id f) where
  own := by
    intro id' row' hfind
    by_cases heq : id' = id
    · subst heq
      rw [Store.findChunk_updateChunk_self hid] at hfind
      obtain ⟨row, hrow, rfl⟩ := Option.map_eq_some_iff.mp hfind
      exact hown row (h.own hrow)
    · rw [Store.findChunk_updateChunk_of_ne hid heq] at hfind
      exact h.own hfind
  input := by
    refine Table.update_forall h.input ?_
    intro row hmem _ hroot
    rw [hinput]
    exact hroot

theorem OwnKeys.claimed {row : Chunk} (h : OwnKeys row) (now server : Nat) (worker : Text)
    (lease : Int) (token : Nat) :
    OwnKeys (ClaimNext.claimed now server worker lease token row) :=
  ⟨h.valid, h.invalid, h.risky⟩

theorem OwnKeys.requeued {row : Chunk} : OwnKeys (requeued row) :=
  ⟨fun _ => nofun, fun _ => nofun, fun _ => nofun⟩

/-- A requeue and a failure give a row no new keys. -/
theorem OwnKeys.filledChunk {row model : Chunk} (h : OwnKeys row) (change : ChunkChange) :
    OwnKeys (Chunk.update model (filledChunk model change) row) := by
  cases change with
  | requeue =>
      refine ownKeys_update h ?_ ?_ ?_
      · exact fun _ _ hkey => nomatch hkey
      · exact fun _ _ hkey => nomatch hkey
      · exact fun _ _ hkey => nomatch hkey
  | markFailed => exact ownKeys_update h (absurd rfl) (absurd rfl) (absurd rfl)

/-- A requeue changes the row it selects in place. -/
theorem findChunk_requeue (select : Chunk → Bool) (id : Nat) :
    (requeue select s).findChunk id =
      (s.findChunk id).map fun chunk => if select chunk then requeued chunk else chunk := by
  rw [Store.findChunk, Store.findChunk, Table.find, Table.find, requeue, List.find?_map]
  congr 2
  funext chunk
  show decide ((if select chunk then requeued chunk else chunk).id = id) = _
  split <;> rfl

/-- **The rows stay clean** in a step of the pipeline. -/
theorem cleanRows_act (h : SealedInv d) (hcond : sealedWhenCompleted d (.core a) = true)
    (hs : act php d.store a = some c') : CleanRows c'.store := by
  have hrows := h.rows
  cases act_cases hs with
  | tick seconds => exact hrows.of_same rfl
  | configure settings => exact hrows.of_same rfl
  | upload disk chunkNo type file => exact hrows.of_same rfl
  | claim hfind hpaused hcand =>
      refine hrows.update (fun _ => rfl) (fun _ => rfl) ?_
      exact fun row hown => hown.claimed _ _ _ _ _
  | complete id payload => exact hrows
  | fail id retryable => exact hrows
  | startParse hstatus hidle => exact hrows
  | startFinalize hqueue hidle => exact hrows.of_same rfl
  | exec hat hexec =>
      exact cleanRows_exec hrows h.fresh.staged hat hcond hexec
  | throw hat => exact hrows.of_same (Store.rollback_chunks _)
  | kill hat => exact hrows.of_same (Store.rollback_chunks _)

/-- So they do whatever the console does. -/
theorem cleanRows_step (h : SealedInv d) (hcond : sealedWhenCompleted d e = true)
    (hs : step php d e = some d') : CleanRows d'.store.store := by
  have hrows := h.rows
  cases step_cases hs with
  | core hact =>
      rw [coreStep_store]
      exact cleanRows_act h hcond hact
  | request hallowed => exact hrows
  | requestChunk hfind hopen => exact hrows
  | leave n => exact hrows
  | claimJob hpending => exact hrows.of_same rfl
  | finalize hopen => exact hrows.of_same rfl
  | @exec n i rest hat =>
      cases i with
      | deleteChunks =>
          exact ⟨nofun, fun _ => nofun⟩
      | saveChunk model change =>
          refine hrows.update (fun _ => rfl) (fun _ => rfl) ?_
          exact fun row hown => hown.filledChunk change
      | _ => exact hrows.of_same rfl
  | requeue select he =>
      refine ⟨?_, ?_⟩
      · intro id row' hfind
        have hfind' : (requeue select d.store.store).findChunk id = some row' := hfind
        rw [findChunk_requeue] at hfind'
        obtain ⟨row, hrow, rfl⟩ := Option.map_eq_some_iff.mp hfind'
        split
        · exact .requeued
        · exact hrows.own hrow
      · intro row' hmem
        obtain ⟨row, hrow, rfl⟩ := List.mem_map.mp hmem
        split
        · exact hrows.input row hrow
        · exact hrows.input row hrow

/-! ### Instructions and calls -/

theorem exec_of_nextInstr {i : Instr} (h : nextInstr c a = some i) : ∃ p, a = .exec p := by
  cases a with
  | exec p => exact ⟨p, rfl⟩
  | _ => exact nomatch h

/-- **The instructions stay clean**: a handoff goes on with a request that names the
outputs of its chunk. -/
theorem cleanInstr_act (h : EachInstr CleanInstr d.store)
    (hcond : sealedWhenCompleted d (.core a) = true) (hs : act php d.store a = some c') :
    EachInstr CleanInstr c' := by
  refine eachInstr_stepAt h ?_ ?_ hs
  · intro k i hi _
    cases hi with
    | parse job hparse =>
        cases i with
        | planHandoff => exact nomatch hparse
        | _ => trivial
    | _ => trivial
  · intro k i j hnext hi hj
    cases hj with
    | @handoff id payload chunk hfind hlive hstage =>
        obtain ⟨p, rfl⟩ := exec_of_nextInstr hnext
        simp only [sealedWhenCompleted, hnext, hfind, Option.all_some, Bool.or_eq_true,
          beq_iff_eq] at hcond
        rcases hcond with hclosed | hkeys
        · exact absurd hlive (not_live hclosed)
        · exact hkeys
    | _ => trivial

/-- A parse writes inputs and cached results. -/
theorem root_parseCode {σ : Settings} {job : Job} {upload : Option (List ParseAndChunkJob.Feed)}
    {lookups : List ParseAndChunkJob.Lookup} {addr : Addr} {file : File}
    (h : .putObject addr file ∈ parseCode php σ job upload lookups) : root addr.2 = none := by
  have heffects : ∀ {disk : Disk} {effects : List ParseAndChunkJob.Effect},
      .putObject addr file ∈ effects.map (effectCode disk) → root addr.2 = none := by
    intro disk effects hmem
    obtain ⟨effect, -, heq⟩ := List.mem_map.mp hmem
    cases effect with
    | putChunk chunkNo emails =>
        cases heq
        rfl
    | createChunk chunkNo emailCount => cases heq
  unfold parseCode at h
  simp only at h
  split at h
  next => cases List.mem_singleton.mp h
  next =>
    split at h
    next m _ =>
      rcases List.mem_append.mp h with h | h
      · exact heffects h
      · simp only [finishParse, List.mem_append] at h
        rcases h with ((h | h) | h) | h
        · obtain ⟨t, -, ht⟩ := List.mem_filterMap.mp h
          obtain ⟨_, -, heq⟩ := Option.map_eq_some_iff.mp ht
          cases heq
          rfl
        · obtain ⟨_, -, heq⟩ := List.mem_map.mp h
          cases heq
          rfl
        · simp at h
        · split at h
          · cases List.mem_singleton.mp h
          · cases h
    next =>
      rcases List.mem_append.mp h with h | h
      · exact heffects h
      · cases List.mem_singleton.mp h

/-- A parse harms no row. -/
theorem hazard_parseCode {row : Chunk} {σ : Settings} {job : Job}
    {upload : Option (List ParseAndChunkJob.Feed)} {lookups : List ParseAndChunkJob.Lookup}
    {i : Instr} (hown : OwnKeys row) (hi : i ∈ parseCode php σ job upload lookups) :
    hazard row i = false := by
  have hparse := isParse_parseCode hi
  cases i with
  | putObject addr file =>
      by_contra hne
      have hroot := root_of_guarded hown ((Bool.not_eq_false _).mp hne)
      rw [root_parseCode hi] at hroot
      exact nomatch hroot
  | download | planHandoff | updateCompleted | updateFailed | splitRisky => exact nomatch hparse
  | _ => rfl

/-- Nor does what runs after an exception. -/
theorem hazard_handler {row : Chunk} {k : Kind} {code : List Instr} :
    ∀ i ∈ handler k code, hazard row i = false :=
  forall_handler (fun _ => rfl) (fun _ => rfl) fun _ => rfl

/-- A row that was completed, and that nobody could harm, is still out of danger after a
step of the pipeline. -/
theorem hazard_act {row : Chunk} (hunique : Unique c.store) (hclean : CleanRows c.store)
    (hinstr : EachInstr CleanInstr c) (hrow : c.store.findChunk row.id = some row)
    (hcompleted : row.status = .completed)
    (h : EachInstr (fun _ i => hazard row i = false) c) (hs : act php c a = some c') :
    EachInstr (fun _ i => hazard row i = false) c' := by
  have hone : ∀ {i : Instr}, hazard row i = false → ∀ j ∈ [i], hazard row j = false := by
    intro i hi j hj
    rw [List.mem_singleton.mp hj]
    exact hi
  cases act_cases hs with
  | tick seconds => exact h
  | configure settings => exact h
  | upload disk chunkNo type file => exact h
  | @claim id capability server worker lease verdicts chunk hfind hpaused hcand =>
      refine h.spawn (hone ?_)
      rw [hazard, beq_eq_false_iff_ne]
      rintro rfl
      rw [hrow, Option.some.injEq] at hfind
      subst hfind
      simp [ClaimNext.isCandidate, hcompleted] at hcand
  | complete id payload => exact h.spawn (s := c.store) (hone rfl)
  | fail id retryable => exact h.spawn (s := c.store) (hone rfl)
  | startParse hstatus hidle =>
      exact h.spawn (s := c.store) fun i hi => hazard_parseCode (hclean.own hrow) hi
  | startFinalize hqueue hidle => exact h.spawn (hone rfl)
  | @exec p k i rest s' n hat hexec =>
      refine h.setCode hat ?_
      intro j hj
      cases n with
      | raise => exact hazard_handler j hj
      | go code =>
          rcases List.mem_append.mp hj with hj | hj
          · have hi : hazard row i = false := h p k _ hat i (.head _)
            exact hazard_go hunique hclean hrow hcompleted hi (hinstr p k _ hat i (.head _))
              hexec j hj
          · exact h p k _ hat j (.tail _ hj)
  | throw hat => exact h.setCode hat hazard_handler
  | kill hat => exact h.setCode hat fun _ hi => (by cases hi)

/-! ### Completed rows -/

theorem core_of_unharmed {p : Nat} {k : Kind} {i : Instr} {rest : List Instr} {row : Chunk}
    (hat : c.At p k (i :: rest)) (h : ahead (afterHead c (.exec p)) (hazard row) = false) :
    EachInstr (fun _ j => hazard row j = false) (c.setCode p rest) := by
  have hp : c.procs[p]? = some ⟨k, i :: rest⟩ := hat
  rw [afterHead, hp] at h
  exact fun q k' code hq => ahead_eq_false h hq

/-- A write returns. -/
theorem next_of_writes {p : Nat} {i : Instr} {id : Nat} {model filled : Chunk}
    {n : Next Instr} (hw : Writes s i id model filled)
    (hexec : ValidEmailVerifier.exec php p i s = some (s', n)) : n = .go [] := by
  cases hw <;> cases hexec <;> rfl

theorem writes_failed {chunk : Chunk} {retryable : Bool} {id : Nat} {model filled : Chunk}
    (hw : Writes s (.updateFailed chunk retryable) id model filled) :
    id = chunk.id ∧ model = chunk ∧ filled = chunk.failedAttempt s.settings retryable := by
  cases hw
  exact ⟨rfl, rfl, rfl⟩

theorem writes_parent {chunk : Chunk} {key : Key} {m id : Nat} {model filled : Chunk}
    (hw : Writes s (.updateParent chunk key m) id model filled) :
    id = chunk.id ∧ model = chunk ∧ filled = chunk.withFilteredRisky key m := by
  cases hw
  exact ⟨rfl, rfl, rfl⟩

/-- A failure does not complete a row. -/
theorem completed_of_failedAttempt {σ : Settings} {chunk row : Chunk} {retryable : Bool}
    (h : (Chunk.update chunk (chunk.failedAttempt σ retryable) row).status = .completed) :
    row.status = .completed := by
  have hdirty : dirty chunk.status (chunk.nextStatus σ retryable) row.status = .completed := h
  rw [dirty] at hdirty
  split at hdirty
  · exact hdirty
  · rw [Chunk.nextStatus] at hdirty
    split at hdirty <;> cases hdirty

/-- Nor does an admin's action. -/
theorem completed_of_filledChunk {model row : Chunk} {change : ChunkChange}
    (h : (Chunk.update model (filledChunk model change) row).status = .completed) :
    row.status = .completed := by
  have hdirty : dirty model.status (filledChunk model change).status row.status =
      .completed := h
  rw [dirty] at hdirty
  split at hdirty
  · exact hdirty
  · cases change <;> cases hdirty

/-- A row that is completed once a model is saved is another one, or was completed before. -/
theorem completed_saveChunk {s : Store} {model row : Chunk} {change : ChunkChange} {id : Nat}
    (hfind : (s.updateChunk model.id (Chunk.update model (filledChunk model change))).findChunk
      id = some row) (hcompleted : row.status = .completed) :
    s.findChunk id = some row ∨
      id = model.id ∧ ∃ old, s.findChunk id = some old ∧ old.status = .completed := by
  have hkey : ∀ row, (Chunk.update model (filledChunk model change) row).id = row.id :=
    fun _ => rfl
  by_cases hid : id = model.id
  · subst hid
    rw [Store.findChunk_updateChunk_self hkey] at hfind
    obtain ⟨old, hold, rfl⟩ := Option.map_eq_some_iff.mp hfind
    exact .inr ⟨rfl, old, hold, completed_of_filledChunk hcompleted⟩
  · rw [Store.findChunk_updateChunk_of_ne hkey hid] at hfind
    exact .inl hfind

/-- **No completed row is in danger** after a step of the pipeline. -/
theorem safeFor_core {row : Chunk} (h : SealedInv d)
    (hcond : sealedWhenCompleted d (.core a) = true) (hs : act php d.store a = some c')
    (hfind : c'.store.findChunk row.id = some row) (hcompleted : row.status = .completed) :
    EachInstr (fun _ i => hazard row i = false) c' ∧
      ∀ n code, d.At n () code → ∀ i ∈ code, i.rewrites row.id = false := by
  rcases completed_act h.fresh.staged hs hfind hcompleted with hrow | ⟨p, k, i, rest, s', n, old,
    model, filled, rfl, hat, hexec, rfl, hw, hold, rfl⟩
  · have hsafe := h.noHazard row hrow hcompleted
    exact ⟨hazard_act h.unique.apart.store h.rows h.instr hrow hcompleted hsafe.core hs,
      hsafe.calls⟩
  · obtain rfl := next_of_writes hw hexec
    rcases seals_of_cond hat hcond hw hold with ⟨chunk, retryable, rfl⟩ | ⟨-, hunharmed⟩
    · obtain ⟨hid, rfl, rfl⟩ := writes_failed hw
      have hsafe := h.noHazard old hold (completed_of_failedAttempt hcompleted)
      have hno : (model.id == old.id) = false := hsafe.core p k _ hat _ (.head _)
      rw [show old.id = model.id from hid, beq_self_eq_true] at hno
      exact nomatch hno
    · simp only [unharmed, Bool.and_eq_true, Bool.not_eq_true', List.all_eq_true] at hunharmed
      refine ⟨core_of_unharmed (c := d.store) hat hunharmed.1, ?_⟩
      exact fun m code hm => hunharmed.2 _ (List.mem_of_getElem? hm)

/-- A statement completes no row. -/
theorem completed_effect {i : Statement} {n : Nat} {rest : List Statement} {id : Nat}
    {row : Chunk} (h : Sealed d) (hat : d.At n () (i :: rest))
    (hfind : (i.effect d.store.store).findChunk id = some row)
    (hcompleted : row.status = .completed) : d.store.store.findChunk id = some row := by
  cases i with
  | deleteChunks => exact nomatch hfind
  | saveChunk model change =>
      rcases completed_saveChunk hfind hcompleted with hkept | ⟨rfl, old, hold, hcompleted⟩
      · exact hkept
      · have hid : old.id = model.id := Table.key_of_find hold
        have hsafe := h old (hid ▸ hold) hcompleted
        have hno := hsafe.calls n _ hat _ (.head _)
        simp [Statement.rewrites, hid] at hno
  | _ => exact hfind

/-- **A step adds no call that rewrites a completed row**, and none that deletes an
output. -/
theorem rewrites_adds {i : Statement} {row : Chunk}
    (hrow : d.store.store.findChunk row.id = some row) (hcompleted : row.status = .completed)
    (h : Adds d.store.store i) : i.rewrites row.id = false := by
  cases h with
  | @saveChunk id chunk hfind hopen change =>
      rw [Statement.rewrites, beq_eq_false_iff_ne]
      intro heq
      have hid : chunk.id = id := Table.key_of_find hfind
      rw [← hid, heq, hrow, Option.some.injEq] at hfind
      subst hfind
      exact hopen hcompleted
  | _ => rfl

theorem cleanCalls_step (h : SealedInv d) (hs : step php d e = some d') : CleanCalls d' := by
  intro n code hat i hi addr heq
  rcases calls_step hs hat i hi with ⟨m, code', hat', hi'⟩ | hadds
  · exact h.calls m code' hat' i hi' addr heq
  · subst heq
    cases hadds with
    | deleteObject hmem disk => exact h.rows.input _ hmem

/-- The same under the console. -/
theorem sealed_step (h : SealedInv d) (hcond : sealedWhenCompleted d e = true)
    (hs : step php d e = some d') : Sealed d' := by
  intro row hfind hcompleted
  have hcalls : (∀ n code, d.At n () code → ∀ i ∈ code, i.rewrites row.id = false) →
      (∀ i, Adds d.store.store i → i.rewrites row.id = false) →
        ∀ n code, d'.At n () code → ∀ i ∈ code, i.rewrites row.id = false := by
    intro hold hnew n code hat i hi
    rcases calls_step hs hat i hi with ⟨m, code', hat', hi'⟩ | hadds
    · exact hold m code' hat' i hi'
    · exact hnew i hadds
  have hkeep : d'.store.procs = d.store.procs → d.store.store.findChunk row.id = some row →
      SafeFor d' row := by
    intro hprocs hrow
    have hsafe := h.noHazard row hrow hcompleted
    refine ⟨?_, hcalls hsafe.calls fun _ => rewrites_adds hrow hcompleted⟩
    intro p k code hat
    refine hsafe.core p k code ?_
    show d.store.procs[p]? = some ⟨k, code⟩
    rw [← hprocs]
    exact hat
  cases step_cases hs with
  | @core a c hact =>
      rw [coreStep_store] at hfind
      obtain ⟨hcore, hold⟩ := safeFor_core h hcond hact hfind hcompleted
      refine ⟨by rwa [coreStep_store], ?_⟩
      intro n code hat i hi
      unfold coreStep at hat
      split at hat
      · exact hold n code hat i hi
      · rcases Conf.at_spawn.mp hat with hat | ⟨-, -, rfl⟩
        · exact hold n code hat i hi
        · rw [List.mem_singleton.mp hi]
          rfl
  | request hallowed => exact hkeep rfl hfind
  | requestChunk hfind' hopen => exact hkeep rfl hfind
  | leave n => exact hkeep rfl hfind
  | claimJob hpending => exact hkeep rfl hfind
  | finalize hopen => exact hkeep rfl hfind
  | exec hat => exact hkeep rfl (completed_effect h.noHazard hat hfind hcompleted)
  | requeue select he =>
      refine hkeep rfl ?_
      have hfind' : (requeue select d.store.store).findChunk row.id = some row := hfind
      rw [findChunk_requeue] at hfind'
      obtain ⟨old, hold, heq⟩ := Option.map_eq_some_iff.mp hfind'
      split at heq
      · subst heq
        exact nomatch hcompleted
      · exact heq ▸ hold

/-- **What the runs keep.** -/
theorem sealedInv_step (h : SealedInv d) (hcond : sealedWhenCompleted d e = true)
    (hs : step php d e = some d') : SealedInv d' where
  unique := uniqueInv_step h.unique hs
  fresh := freshInv_step h.fresh hs
  rows := cleanRows_step h hcond hs
  instr := by
    rcases core_cases hs with ⟨a, rfl, hact⟩ | hprocs
    · exact cleanInstr_act h.instr hcond hact
    · intro p k code hat
      refine h.instr p k code ?_
      show d.store.procs[p]? = some ⟨k, code⟩
      rw [← hprocs]
      exact hat
  calls := cleanCalls_step h hs
  noHazard := sealed_step h hcond hs

/-! ### What a completed row guards -/

/-- A retry moves the risky key of a row, and the row guards the old one too. -/
theorem guarded_withFilteredRisky {row chunk : Chunk} {key risky : Key} {n : Nat}
    (hrisky : row.keys.risky = some risky) (h : guarded row key = true) :
    guarded (Chunk.update chunk (chunk.withFilteredRisky risky n) row) key = true := by
  rcases guarded_iff.mp h with ⟨t, rfl⟩ | ⟨old, hold, hcovers⟩
  · exact guarded_iff.mpr (.inl ⟨t, rfl⟩)
  · refine guarded_iff.mpr (.inr ?_)
    rw [hrisky, Option.some.injEq] at hold
    subst hold
    have hnew : (Chunk.update chunk (chunk.withFilteredRisky risky n) row).keys.risky =
        dirty chunk.keys.risky (some (.filteredRisky risky)) row.keys.risky := rfl
    rw [hnew, dirty]
    split
    · exact ⟨risky, hrisky, hcovers⟩
    · refine ⟨.filteredRisky risky, rfl, ?_⟩
      rw [covers, hcovers, Bool.or_true]

/-- **A completed row stays**, and guards what it guarded, in a step of the pipeline. -/
theorem row_act {row : Chunk} (h : SealedInv d)
    (hcond : sealedWhenCompleted d (.core a) = true) (hs : act php d.store a = some c')
    (hrow : d.store.store.findChunk row.id = some row) (hcompleted : row.status = .completed) :
    ∃ row', c'.store.findChunk row.id = some row' ∧ row'.status = .completed ∧
      ∀ key, guarded row key = true → guarded row' key = true := by
  have hsame : c'.store.findChunk row.id = some row →
      ∃ row', c'.store.findChunk row.id = some row' ∧ row'.status = .completed ∧
        ∀ key, guarded row key = true → guarded row' key = true :=
    fun hfind => ⟨row, hfind, hcompleted, fun _ hkey => hkey⟩
  cases act_cases hs with
  | tick seconds => exact hsame hrow
  | configure settings => exact hsame hrow
  | upload disk chunkNo type file => exact hsame hrow
  | @claim id capability server worker lease verdicts chunk hfind hpaused hcand =>
      refine hsame ?_
      have hkey : ∀ row, (ClaimNext.claimed d.store.store.now server worker lease
          d.store.procs.length row).id = row.id := fun _ => rfl
      refine (Store.findChunk_updateChunk_of_ne hkey ?_).trans hrow
      rintro rfl
      rw [hrow, Option.some.injEq] at hfind
      subst hfind
      simp [ClaimNext.isCandidate, hcompleted] at hcand
  | complete id payload => exact hsame hrow
  | fail id retryable => exact hsame hrow
  | startParse hstatus hidle => exact hsame hrow
  | startFinalize hqueue hidle => exact hsame hrow
  | @exec p k i rest s' n hat hexec =>
      rcases (exec_change hexec).find hrow with hfind | ⟨model, filled, hw, hfind⟩
      · exact hsame hfind
      · have hno : hazard row i = false :=
          (h.noHazard row hrow hcompleted).core p k _ hat i (.head _)
        have hsubject := hw.subject
        rcases seals_of_cond hat hcond hw hrow with ⟨chunk, retryable, rfl⟩ |
          ⟨⟨r, rfl, -⟩ | ⟨chunk, key, n, rfl, hrisky⟩, -⟩
        · simp [hazard, Option.some.inj hsubject] at hno
        · simp [hazard, Option.some.inj hsubject] at hno
        · obtain ⟨-, rfl, rfl⟩ := writes_parent hw
          refine ⟨_, hfind, ?_, fun _ => guarded_withFilteredRisky hrisky⟩
          exact (dirty_clean model.status row.status).trans hcompleted
  | throw hat => exact hsame (by rwa [← Store.findChunk_rollback] at hrow)
  | kill hat => exact hsame (by rwa [← Store.findChunk_rollback] at hrow)

/-- **Nothing writes what a completed row guards**, in a step of the pipeline. -/
theorem objects_act {row : Chunk} (h : SealedInv d)
    (hcond : sealedWhenCompleted d (.core a) = true) (hs : act php d.store a = some c')
    (hrow : d.store.store.findChunk row.id = some row) (hcompleted : row.status = .completed)
    {key : Key} (hkey : guarded row key = true) (disk : Disk) :
    c'.store.objects (disk, key) = d.store.store.objects (disk, key) := by
  cases act_cases hs with
  | upload disk' chunkNo type file =>
      refine Function.update_of_ne ?_ _ _
      intro heq
      have hroot := root_of_guarded (h.rows.own hrow) hkey
      rw [(Prod.mk.inj heq).2, root, Option.some.injEq] at hroot
      have hall := List.all_eq_true.mp hcond row (Table.mem_of_find hrow)
      simp [hcompleted, hroot] at hall
  | @exec p k i rest s' n hat hexec =>
      rcases (exec_frame hexec).objects with hsame | ⟨addr, file, rfl, rfl⟩
      · exact congrFun hsame _
      · refine Function.update_of_ne ?_ _ _
        rintro rfl
        have hno : guarded row key = false :=
          (h.noHazard row hrow hcompleted).core p k _ hat _ (.head _)
        rw [hkey] at hno
        exact nomatch hno
  | throw hat => rw [withStore, Conf.setCode_store, Store.rollback_objects]
  | kill hat => rw [withStore, Conf.setCode_store, Store.rollback_objects]
  | _ => rfl

/-- The same under the console. -/
theorem row_step {row : Chunk} (h : SealedInv d) (hcond : sealedWhenCompleted d e = true)
    (hs : step php d e = some d') (hrow : d.store.store.findChunk row.id = some row)
    (hcompleted : row.status = .completed) :
    ∃ row', d'.store.store.findChunk row.id = some row' ∧ row'.status = .completed ∧
      ∀ key, guarded row key = true → guarded row' key = true := by
  have hsame : d'.store.store.findChunk row.id = some row →
      ∃ row', d'.store.store.findChunk row.id = some row' ∧ row'.status = .completed ∧
        ∀ key, guarded row key = true → guarded row' key = true :=
    fun hfind => ⟨row, hfind, hcompleted, fun _ hkey => hkey⟩
  cases step_cases hs with
  | core hact =>
      rw [coreStep_store]
      exact row_act h hcond hact hrow hcompleted
  | request hallowed => exact hsame hrow
  | requestChunk hfind hopen => exact hsame hrow
  | leave n => exact hsame hrow
  | claimJob hpending => exact hsame hrow
  | finalize hopen => exact hsame hrow
  | @exec n i rest hat =>
      refine hsame ?_
      cases i with
      | deleteChunks =>
          simp only [sealedWhenCompleted, nextStatement_exec hat] at hcond
          have hopen := List.all_eq_true.mp hcond row (Table.mem_of_find hrow)
          rw [hcompleted] at hopen
          exact nomatch hopen
      | saveChunk model change =>
          have hno : (model.id == row.id) = false :=
            (h.noHazard row hrow hcompleted).calls n _ hat _ (.head _)
          have hkey : ∀ r, (Chunk.update model (filledChunk model change) r).id = r.id :=
            fun _ => rfl
          exact (Store.findChunk_updateChunk_of_ne hkey
            (beq_eq_false_iff_ne.mp hno).symm).trans hrow
      | _ => exact hrow
  | requeue select he =>
      refine hsame ?_
      have hselect : select row = false := by
        rcases he with ⟨-, rfl⟩ | ⟨-, rfl⟩
        · rw [isFailed, hcompleted]
          rfl
        · rw [isStuck, hcompleted]
          rfl
      refine (findChunk_requeue select row.id).trans ?_
      rw [hrow, Option.map_some, hselect]
      rfl

theorem objects_step {row : Chunk} (h : SealedInv d) (hcond : sealedWhenCompleted d e = true)
    (hs : step php d e = some d') (hrow : d.store.store.findChunk row.id = some row)
    (hcompleted : row.status = .completed) {key : Key} (hkey : guarded row key = true)
    (disk : Disk) :
    d'.store.store.objects (disk, key) = d.store.store.objects (disk, key) := by
  cases step_cases hs with
  | core hact =>
      rw [coreStep_store]
      exact objects_act h hcond hact hrow hcompleted hkey disk
  | @exec n i rest hat =>
      cases i with
      | deleteObject addr =>
          refine Function.update_of_ne ?_ _ _
          rintro rfl
          have hroot := root_of_guarded (h.rows.own hrow) hkey
          rw [h.calls n _ hat _ (.head _) _ rfl] at hroot
          exact nomatch hroot
      | _ => rfl
  | _ => rfl

end Step

theorem sealedInv_untouched {d : Desk} (h : Untouched d.store) (hcalls : d.procs = []) :
    SealedInv d where
  unique := uniqueInv_untouched h
  fresh := freshInv_untouched h
  rows := by
    refine ⟨?_, ?_⟩
    · intro id row hfind
      have hmem : row ∈ d.store.store.chunks := Table.mem_of_find hfind
      rw [h.chunks] at hmem
      exact nomatch hmem
    · intro row hmem
      rw [h.chunks] at hmem
      exact nomatch hmem
  instr := eachInstr_idle h.procs
  calls := by
    intro n code hat
    have hn : d.procs[n]? = some ⟨(), code⟩ := hat
    rw [hcalls] at hn
    exact nomatch hn
  noHazard := by
    intro row hfind
    have hmem : row ∈ d.store.store.chunks := Table.mem_of_find hfind
    rw [h.chunks] at hmem
    exact nomatch hmem

/-! ## The outputs of a completed chunk are final -/

/-- The row is still completed and guards the key, and the objects there are as they
were. -/
structure Kept (id : Nat) (key : Key) (objects : Objects) (d : Desk) : Prop where
  inv : SealedInv d
  row : ∃ row, row.id = id ∧ d.store.store.findChunk row.id = some row ∧
    row.status = .completed ∧ guarded row key = true
  same : ∀ disk, d.store.store.objects (disk, key) = objects (disk, key)

theorem kept_step {php : Php} {d d' : Desk} {e : Event} {id : Nat} {key : Key}
    {objects : Objects} (h : Kept id key objects d) (hcond : sealedWhenCompleted d e = true)
    (hs : step php d e = some d') : Kept id key objects d' := by
  obtain ⟨row, hid, hfind, hcompleted, hguarded⟩ := h.row
  obtain ⟨row', hfind', hcompleted', hmono⟩ := row_step h.inv hcond hs hfind hcompleted
  have hid' : row'.id = row.id := Table.key_of_find hfind'
  refine ⟨sealedInv_step h.inv hcond hs, ?_, ?_⟩
  · exact ⟨row', hid'.trans hid, hid'.symm ▸ hfind', hcompleted', hmono key hguarded⟩
  · intro disk
    exact (objects_step h.inv hcond hs hfind hcompleted hguarded disk).trans (h.same disk)

/-- No object at an output key of a completed chunk changes any more, in runs whose
steps meet `C`. -/
def OutputsFinal (php : Php) (C : Desk → Event → Prop) (d : Desk) : Prop :=
  ∀ id row t key, d.store.store.findChunk id = some row → row.status = .completed →
    row.keys.get t = some key → ∀ d', (console php).Reaches C d d' →
      ∀ disk, d'.store.store.objects (disk, key) = d.store.store.objects (disk, key)

/-- **The outputs of a completed chunk never change again**, in every run in which nobody
is left to harm the chunk when its completion is written. -/
theorem outputsFinal_of_sealed {php : Php} {d₀ d : Desk} (h₀ : Untouched d₀.store)
    (hcalls : d₀.procs = [])
    (h : (console php).Reaches (fun d e => sealedWhenCompleted d e = true) d₀ d) :
    OutputsFinal php (fun d e => sealedWhenCompleted d e = true) d := by
  have hinv : SealedInv d := h.invariant (sealedInv_untouched h₀ hcalls)
    fun _ _ _ hd hC hs => sealedInv_step hd hC hs
  intro id row t key hfind hcompleted hkey d' hlater disk
  obtain rfl : row.id = id := Table.key_of_find hfind
  have hguarded := guarded_of_key (hinv.rows.own hfind) hkey
  have hkept : Kept row.id key d.store.store.objects d := by
    exact ⟨hinv, ⟨row, rfl, hfind, hcompleted, hguarded⟩, fun _ => rfl⟩
  have hkept' : Kept row.id key d.store.store.objects d' :=
    hlater.invariant hkept fun _ _ _ => kept_step
  exact hkept'.same disk

/-- A screened chunk that was handed off, and a probed one with a retry. -/
theorem outputsFinal_tempfail :
    ∃ d, (console samplePhp).Reaches (fun d e => sealedWhenCompleted d e = true)
        (sampleDesk (retrySettings 3) ["a@b.co"]) d ∧
      (d.store.store.chunks.map Chunk.status = [.completed, .completed, .pending]) ∧
        OutputsFinal samplePhp (fun d e => sealedWhenCompleted d e = true) d := by
  have hrun : ((console samplePhp).runIf (fun d e => sealedWhenCompleted d e = true)
      (sampleDesk (retrySettings 3) ["a@b.co"]) (tempfailSchedule.map .core)).any
        (fun d => d.store.store.chunks.map Chunk.status ==
          [.completed, .completed, .pending]) = true := by
    decide
  obtain ⟨d, hreach, htest⟩ := Transition.System.exists_reaches hrun
  exact ⟨d, hreach, beq_iff_eq.mp htest,
    outputsFinal_of_sealed ⟨rfl, rfl, rfl, rfl⟩ rfl hreach⟩

/-- A worker downloads its input and stalls; the chunk is requeued when its lease has run
out, and another worker completes it. -/
def stalledEvents : List Event :=
  (.startParse [] :: turns 0 5 ++
      claimBy 0 ["a@b.co"] .invalid "mailbox_not_found" :: turns 1 1 ++ [.tick 601] :
    List Action).map .core ++
    .requeueStuck ::
      (claimBy 0 ["a@b.co"] .valid "rcpt_ok" :: turns 2 9 : List Action).map .core

/-- The uploads of the first worker replace the rows that were accepted. -/
theorem stalledWorker_overwrites :
    ∃ d, (console samplePhp).Reaches Transition.Always (sampleDesk {} ["a@b.co"]) d ∧
      ¬ OutputsFinal samplePhp Transition.Always d := by
  let addr : Addr := ("local", .chunkOutput 1 .valid)
  have hrun : ((console samplePhp).run (sampleDesk {} ["a@b.co"]) stalledEvents).any
      (fun d => (d.store.store.findChunk 0).any (fun row =>
          row.status == .completed && row.keys.get .valid == some addr.2) &&
        ((console samplePhp).run d ((turns 1 3).map .core)).any fun d' =>
          d'.store.store.objects addr != d.store.store.objects addr) = true := by
    decide
  obtain ⟨d, hreach, htest⟩ := Transition.System.exists_reaches_always hrun
  rw [Bool.and_eq_true, Option.any_eq_true] at htest
  obtain ⟨⟨row, hfind, hrow⟩, hlater⟩ := htest
  rw [Bool.and_eq_true, beq_iff_eq, beq_iff_eq] at hrow
  obtain ⟨d', hreach', hobjects⟩ := Transition.System.exists_reaches_always hlater
  refine ⟨d, hreach, fun h => ?_⟩
  exact bne_iff_ne.mp hobjects (h 0 row .valid addr.2 hfind hrow.1 hrow.2 d' hreach' addr.1)

end ValidEmailVerifier.Console
