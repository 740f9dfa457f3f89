/-
# `Pipeline.FreshRows` — where the rows of a job come from

A parse and the two planners create their rows pending and without outputs, in a
transaction or not.  So a completed row that is found after a step was found
completed before it, or the step has written it: the laws about completed rows
need no more than the three updates of a chunk.
-/
import ValidEmailVerifier.Pipeline.Console

namespace ValidEmailVerifier

open Processes

/-- A row that has just been inserted. -/
structure FreshRow (row : Chunk) : Prop where
  status : row.status = .pending
  keys : row.keys = .const none
  input : ∃ chunkNo, row.inputKey = .chunkInput chunkNo

/-- Planners insert fresh rows. -/
def InsertsFresh (_ : Kind) : Instr → Prop
  | .insertChunk row => FreshRow row
  | _ => True

/-- What every run keeps. -/
structure FreshInv (c : State) : Prop where
  instr : EachInstr InsertsFresh c
  staged : ∀ row ∈ stagedRows c.store, FreshRow row

section Step
variable {php : Php} {p : Nat} {s s' : Store} {i : Instr} {c c' : State} {a : Action}

theorem insertsFresh_act (h : EachInstr InsertsFresh c) (hs : act php c a = some c') :
    EachInstr InsertsFresh c' := by
  refine eachInstr_step h ?_ ?_ hs
  · intro k i hi _
    cases hi with
    | parse job hparse =>
        cases i with
        | insertChunk => exact nomatch hparse
        | _ => trivial
    | _ => trivial
  · intro k i j _ hj
    cases hj with
    | insertProbe id chunkNo hshard => exact ⟨rfl, rfl, _, rfl⟩
    | insertRetry chunk disk emails => exact ⟨rfl, rfl, _, rfl⟩
    | _ => trivial

theorem mem_stagedRows_rollback {row : Chunk} (h : row ∈ stagedRows (s.rollback p)) :
    row ∈ stagedRows s := by
  rw [Store.rollback] at h
  split at h
  · cases h
  · exact h

/-- What an instruction stages is fresh. -/
theorem staged_exec {k : Kind} {n : Next Instr} (h : ∀ row ∈ stagedRows s, FreshRow row)
    (hinstr : InsertsFresh k i) (hexec : exec php p i s = some (s', n)) :
    ∀ row ∈ stagedRows s', FreshRow row := by
  intro row hmem
  have hold : stagedRows s' = stagedRows s → FreshRow row := fun heq => h row (heq ▸ hmem)
  cases exec_change hexec with
  | keep _ htxn => exact hold (by rw [stagedRows, stagedRows, htxn])
  | create _ _ _ htxn => exact hold (by rw [stagedRows, stagedRows, htxn])
  | lock _ _ _ htxn => simp [stagedRows, htxn] at hmem
  | @stage new t _ _ hopen _ htxn =>
      have hmem' : row ∈ t.rows ∨ row = new := by simpa [stagedRows, htxn] using hmem
      rcases hmem' with hmem' | rfl
      · exact h row (by simpa [stagedRows, hopen] using hmem')
      · exact hinstr
  | violation _ hs => exact h row (mem_stagedRows_rollback (hs ▸ hmem))
  | commit _ _ htxn => simp [stagedRows, htxn] at hmem
  | write _ _ htxn => exact hold (by rw [stagedRows, stagedRows, htxn])

/-- **Rows are created fresh**, in every step of the pipeline. -/
theorem freshInv_act (h : FreshInv c) (hs : act php c a = some c') : FreshInv c' := by
  refine ⟨insertsFresh_act h.instr hs, ?_⟩
  cases act_cases hs with
  | exec hat hexec => exact staged_exec h.staged (h.instr _ _ _ hat _ (.head _)) hexec
  | throw hat => exact fun row hmem => h.staged row (mem_stagedRows_rollback hmem)
  | kill hat => exact fun row hmem => h.staged row (mem_stagedRows_rollback hmem)
  | _ => exact h.staged

/-- A row after an instruction is one that was there, the result of a write to it, or
fresh. -/
theorem found_exec {n : Next Instr} {id : Nat} {row' : Chunk}
    (hstaged : ∀ row ∈ stagedRows s, FreshRow row)
    (hexec : exec php p i s = some (s', n))
    (hfind : s'.findChunk id = some row') :
    (∃ row, s.findChunk id = some row ∧ (row' = row ∨ ∃ model filled,
      Writes s i id model filled ∧ row' = Chunk.update model filled row)) ∨ FreshRow row' := by
  have hc := exec_change hexec
  cases hold : s.findChunk id with
  | some row =>
      left
      rcases hc.find hold with hsame | ⟨model, filled, hw, hupd⟩
      · rw [hsame, Option.some.injEq] at hfind
        exact ⟨row, rfl, .inl hfind.symm⟩
      · rw [hupd, Option.some.injEq] at hfind
        exact ⟨row, rfl, .inr ⟨model, filled, hw, hfind.symm⟩⟩
  | none =>
      right
      have hsame : s'.chunks = s.chunks → FreshRow row' := by
        intro hchunks
        rw [Store.findChunk, hchunks] at hfind
        cases hold.symm.trans hfind
      have hgrow : ∀ {rows : List Chunk}, s'.chunks = s.chunks ++ rows → row' ∈ rows := by
        intro rows hrows
        rw [Store.findChunk, hrows, Table.find_append] at hfind
        have hnone : Table.find Chunk.id s.chunks id = none := hold
        rw [hnone] at hfind
        exact Table.mem_of_find hfind
      cases hc with
      | keep hchunks => exact hsame hchunks
      | create _ _ hchunks =>
          have hnew := hgrow hchunks
          rw [List.mem_singleton] at hnew
          subst hnew
          exact ⟨rfl, rfl, _, rfl⟩
      | lock _ _ hchunks => exact hsame hchunks
      | stage _ _ hchunks => exact hsame hchunks
      | violation _ hs => exact hsame (hs ▸ Store.rollback_chunks p)
      | @commit t _ hopen hchunks =>
          refine hstaged row' ?_
          simpa [stagedRows, hopen] using hgrow hchunks
      | @write _ id' model filled _ _ hchunks =>
          by_cases hid : id = id'
          · subst hid
            rw [Store.findChunk, hchunks,
              Table.find_update_self (fun r => Chunk.update_id model filled r)] at hfind
            obtain ⟨row, hrow, -⟩ := Option.map_eq_some_iff.mp hfind
            cases hold.symm.trans hrow
          · rw [Store.findChunk, hchunks,
              Table.find_update_of_ne (fun r => Chunk.update_id model filled r) hid] at hfind
            cases hold.symm.trans hfind

/-- A completed row after a step was completed before it, or the step has written it. -/
theorem completed_act {id : Nat} {row' : Chunk} (hstaged : ∀ row ∈ stagedRows c.store, FreshRow row)
    (hs : act php c a = some c') (hfind : c'.store.findChunk id = some row')
    (hcompleted : row'.status = .completed) :
    c.store.findChunk id = some row' ∨
      ∃ p k i rest s' n row model filled, a = .exec p ∧ c.At p k (i :: rest) ∧
        exec php p i c.store = some (s', n) ∧
        c' = (withStore c s').setCode p (n.resume (handler k (i :: rest)) rest) ∧
        Writes c.store i id model filled ∧ c.store.findChunk id = some row ∧
        row' = Chunk.update model filled row := by
  cases act_cases hs with
  | tick seconds => exact .inl hfind
  | configure settings => exact .inl hfind
  | upload disk chunkNo type file => exact .inl hfind
  | @claim id' capability server worker lease verdicts chunk hfind' hpaused hcand =>
      left
      let f := ClaimNext.claimed c.store.now server worker lease c.procs.length
      have hmap : (c.store.updateChunk id' f).findChunk id = some row' := hfind
      have hkey : ∀ row, (f row).id = row.id := fun _ => rfl
      by_cases hid : id = id'
      · subst hid
        rw [Store.findChunk_updateChunk_self hkey] at hmap
        obtain ⟨row, -, rfl⟩ := Option.map_eq_some_iff.mp hmap
        exact nomatch hcompleted
      · rwa [Store.findChunk_updateChunk_of_ne hkey hid] at hmap
  | complete id payload => exact .inl hfind
  | fail id retryable => exact .inl hfind
  | startParse hstatus hidle => exact .inl hfind
  | startFinalize hqueue hidle => exact .inl hfind
  | @exec p k i rest s' n hat hexec =>
      rcases found_exec hstaged hexec hfind with ⟨row, hrow, rfl | ⟨model, filled, hw, rfl⟩⟩ | hnew
      · exact .inl hrow
      · exact .inr ⟨p, k, i, rest, s', n, row, model, filled, rfl, hat, hexec, rfl, hw, hrow, rfl⟩
      · rw [hnew.status] at hcompleted
        exact nomatch hcompleted
  | throw hat => exact .inl (by rwa [← Store.findChunk_rollback])
  | kill hat => exact .inl (by rwa [← Store.findChunk_rollback])

end Step

theorem freshInv_untouched {c : State} (h : Untouched c) : FreshInv c where
  instr := eachInstr_idle h.procs
  staged := by
    intro row hmem
    rw [stagedRows, h.txn] at hmem
    cases hmem

/-- **Rows are created fresh**, whatever the console does. -/
theorem Console.freshInv_step {php : Php} {d d' : Desk} {e : Event} (h : FreshInv d.store)
    (hs : step php d e = some d') : FreshInv d'.store := by
  have hkeep : ∀ {f : Store → Store}, (f d.store.store).txn = d.store.store.txn →
      FreshInv (onStore d.store f) := by
    intro f htxn
    refine ⟨h.instr, ?_⟩
    intro row hmem
    refine h.staged row ?_
    rw [stagedRows, ← htxn]
    exact hmem
  cases step_cases hs with
  | core hact =>
      rw [coreStep_store]
      exact freshInv_act h hact
  | request hallowed => exact h
  | requestChunk hfind hopen => exact h
  | leave n => exact h
  | @exec n i rest hat => exact hkeep (f := i.effect) (by cases i <;> rfl)
  | claimJob hpending => exact hkeep (f := claimedJob) rfl
  | finalize hopen => exact hkeep (f := queued) rfl
  | requeue select he => exact hkeep (f := requeue select) rfl

end ValidEmailVerifier
