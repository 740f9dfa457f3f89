/-
# `Pipeline.UniqueNumbers` — no two rows of a job share a chunk number

The unique index on `(verification_job_id, chunk_no)`, as the pipeline keeps it in
every run and whatever the admin does: a parse creates a chunk only under a free
number, an insert of a planner checks the committed rows, and the rows a planner
has inserted and has still to insert have different numbers.  Whether an insert
then violates the index is another matter (`Pipeline.Numbering`).
-/
import ValidEmailVerifier.Pipeline.Console
import ValidEmailVerifier.Pipeline.Numbering

namespace ValidEmailVerifier

open Processes

/-! ## Rows still to insert -/

/-- The number of the row an instruction inserts. -/
def insertNumber : Instr → Option Nat
  | .insertChunk row => some row.chunkNo
  | _ => none

/-- The numbers of the rows a planner has still to insert. -/
def inserts (code : List Instr) : List Nat := code.filterMap insertNumber

/-- The rows a planner has inserted and those it has still to insert have different
numbers. -/
def StagedApart (p : Nat) (_ : Kind) (code : List Instr) (s : Store) : Prop :=
  ∀ rows, s.txn = some ⟨p, rows⟩ → (rows.map Chunk.chunkNo ++ inserts code).Nodup

/-- No number is used twice. -/
def Unique (s : Store) : Prop := ((allRows s).map Chunk.chunkNo).Nodup

/-- What every run keeps. -/
structure UniqueInv (c : State) : Prop where
  inTxn : AllInTxn c
  apart : Outline Unique StagedApart c

section Step
variable {php : Php} {p q : Nat} {k : Kind} {s s' : Store} {n : Next Instr} {c c' : State}
  {code rest : List Instr} {i : Instr} {a : Action}

theorem inserts_append (code rest : List Instr) :
    inserts (code ++ rest) = inserts code ++ inserts rest := List.filterMap_append

theorem inserts_eq_nil (h : TxnFree code) : inserts code = [] := by
  refine List.filterMap_eq_nil_iff.mpr ?_
  intro i hi
  have hfree := h i hi
  cases i with
  | insertChunk => exact nomatch hfree
  | _ => rfl

theorem inserts_insertShards {parent group attempts now : Nat} {disk : Disk}
    {shards : List ScreeningToProbeChunkPlanner.Shard} :
    ∀ {id chunkNo : Nat},
      inserts (insertShards parent group disk attempts now id chunkNo shards) =
        List.range' chunkNo (filled shards) := by
  intro id chunkNo
  rw [← numbers_insertShards]
  refine List.filterMap_congr fun i hi => ?_
  rcases insertShards_cases i hi with ⟨no, file, rfl⟩ | ⟨_, _, _, -, rfl⟩
  · rfl
  · rfl

/-- Rows that are staged have different numbers. -/
theorem Unique.staged {rows : List Chunk} (h : Unique s) (htxn : s.txn = some ⟨p, rows⟩) :
    (rows.map Chunk.chunkNo).Nodup := by
  have hsub : rows.Sublist (allRows s) := by
    have hrows : stagedRows s = rows := by simp [stagedRows, htxn]
    rw [allRows, hrows]
    exact List.sublist_append_right _ _
  exact List.Nodup.sublist (hsub.map _) h

/-- A process with nothing to insert is apart. -/
theorem stagedApart_of_nil (h : Unique s) (hnil : inserts code = []) :
    StagedApart p k code s := by
  intro rows htxn
  rw [hnil, List.append_nil]
  exact h.staged htxn

theorem Unique.of_column (h : Unique s)
    (heq : (allRows s').map Chunk.chunkNo = (allRows s).map Chunk.chunkNo) : Unique s' := by
  rw [Unique, heq]
  exact h

theorem Unique.rollback (h : Unique s) (p : Nat) : Unique (s.rollback p) :=
  List.Nodup.sublist ((allRows_rollback_sublist s p).map _) h

/-- A transaction that is open after a rollback was open before it. -/
theorem txn_of_rollback {t : Txn} (h : (s.rollback p).txn = some t) : s.txn = some t := by
  unfold Store.rollback at h
  split at h
  · exact nomatch h
  · exact h

theorem StagedApart.rollback (h : StagedApart q k code s) : StagedApart q k code (s.rollback p) :=
  fun rows hrows => h rows (txn_of_rollback hrows)

/-- **The index is kept** by what an instruction does. -/
theorem Unique.change (h : Unique s) (hJ : StagedApart p k (i :: rest) s)
    (htxn : InTxn p k (i :: rest) s) (hc : Change p s i s') : Unique s' := by
  cases hc with
  | keep hchunks hopen => exact h.of_column (by simp [allRows, stagedRows, hchunks, hopen])
  | @create disk chunkNo emailCount _ hfree hunstaged hchunks hopen =>
      have hperm : ((allRows s').map Chunk.chunkNo).Perm
          (chunkNo :: (allRows s).map Chunk.chunkNo) := by
        simp only [allRows, stagedRows, hchunks, hopen, List.map_append, List.append_assoc,
          List.map_cons, List.map_nil]
        exact List.perm_middle
      refine hperm.nodup_iff.mpr (List.nodup_cons.mpr ⟨?_, h⟩)
      intro hmem
      obtain ⟨row, hrow, rfl⟩ := List.mem_map.mp hmem
      rcases List.mem_append.mp hrow with hrow | hrow
      · have hno := List.any_eq_false.mp hfree row hrow
        simp at hno
      · cases htxn' : s.txn with
        | none => simp [stagedRows, htxn'] at hrow
        | some t =>
            have hrow' : row ∈ t.rows := by simpa [stagedRows, htxn'] using hrow
            have hno : t.rows.any (fun c => c.chunkNo == row.chunkNo) = false := by
              simpa [Store.staged, htxn'] using hunstaged
            have hne := List.any_eq_false.mp hno row hrow'
            simp at hne
  | lock hbegins hopen hchunks htxn' =>
      exact h.of_column (by simp [allRows, stagedRows, hchunks, hopen, htxn'])
  | @stage row t _ hfree hopen hchunks htxn' =>
      obtain ⟨rows, howner⟩ := htxn.owner rfl
      have hrows : t = ⟨p, rows⟩ := Option.some.inj (hopen.symm.trans howner)
      subst hrows
      have hapart := hJ rows howner
      have hcol : (allRows s').map Chunk.chunkNo =
          (allRows s).map Chunk.chunkNo ++ [row.chunkNo] := by
        simp [allRows, stagedRows, hchunks, htxn', hopen]
      rw [Unique, hcol]
      refine List.nodup_append.mpr ⟨h, List.nodup_singleton _, ?_⟩
      rintro m hm _ hnew rfl
      rw [List.mem_singleton] at hnew
      subst hnew
      simp only [allRows, stagedRows, hopen, Option.map_some, Option.getD_some,
        List.map_append, List.mem_append] at hm
      rcases hm with hm | hm
      · obtain ⟨old, hold, heq⟩ := List.mem_map.mp hm
        have hno := List.any_eq_false.mp hfree old hold
        simp [heq] at hno
      · exact (List.nodup_append.mp hapart).2.2 _ hm _ (.head _) rfl
  | violation htaken hs => exact hs ▸ h.rollback p
  | @commit t _ hopen hchunks htxn' =>
      exact h.of_column (by simp [allRows, stagedRows, hchunks, hopen, htxn'])
  | @write _ id model filled _ hwrites hchunks htxn' =>
      refine h.of_column ?_
      simp only [allRows, stagedRows, hchunks, htxn', List.map_append]
      rw [Table.map_update Chunk.chunkNo fun row _ _ => Chunk.update_chunkNo model filled row]

/-- What a process has left after an instruction that returned is apart. -/
theorem StagedApart.go (h : Unique s') (hJ : StagedApart p k (i :: rest) s)
    (htxn : InTxn p k (i :: rest) s) (hexec : exec php p i s = some (s', .go code)) :
    StagedApart p k (code ++ rest) s' := by
  by_cases hb : Begins i
  · have hfree : s.txn = none → inserts rest = [] := fun hopen =>
      inserts_eq_nil fun j hj => htxn.free hopen j (.tail _ hj)
    cases hb with
    | probe r disk shards =>
        obtain ⟨hopen, ⟨-, rfl, hn⟩ | ⟨-, rfl, hn⟩⟩ := beginProbe_cases hexec
        · cases hn
          exact stagedApart_of_nil h (hfree hopen)
        · cases hn
          intro rows hrows
          cases hrows
          rw [inserts_append, hfree hopen, inserts_append, inserts_insertShards]
          have hcommit : inserts [.commit] = [] := rfl
          rw [hcommit, List.append_nil, List.append_nil]
          exact List.nodup_range'
    | retry chunk disk emails =>
        obtain ⟨hopen, rfl, hn⟩ := beginRetry_cases hexec
        cases hn
        intro rows hrows
        cases hrows
        rw [inserts_append, hfree hopen, List.append_nil]
        exact List.nodup_singleton _
  · have hcode : inserts (code ++ rest) = inserts rest := by
      rw [inserts_append, inserts_eq_nil fun j hj => txnFree_leads (exec_leads hexec j hj) hb]
      rfl
    have htail : s'.txn = s.txn → StagedApart p k (code ++ rest) s' := by
      intro heq rows hrows
      rw [heq] at hrows
      have hsub : (inserts rest).Sublist (inserts (i :: rest)) :=
        (List.sublist_cons_self i rest).filterMap _
      rw [hcode]
      exact (hJ rows hrows).sublist ((List.append_sublist_append_left _).mpr hsub)
    cases exec_change hexec with
    | keep hchunks heq => exact htail heq
    | create _ _ _ heq => exact htail heq
    | lock hbegins => exact absurd hbegins hb
    | @stage row t _ _ hopen _ heq =>
        intro rows hrows
        rw [heq, Option.some.injEq, Txn.mk.injEq] at hrows
        obtain ⟨howner, rfl⟩ := hrows
        have hold := hJ t.rows (by rw [hopen, ← howner])
        rw [hcode, List.map_append, List.append_assoc]
        exact hold
    | violation htaken hs => simp [exec, insertChunk, htaken] at hexec
    | commit _ _ heq =>
        intro rows hrows
        rw [heq] at hrows
        cases hrows
    | write _ _ heq => exact htail heq

/-- Only its owner changes what a transaction has staged. -/
theorem StagedApart.of_ne (hJ : StagedApart q k code s) {k' : Kind}
    (hmover : InTxn p k' (i :: rest) s) (hne : q ≠ p) (hc : Change p s i s') :
    StagedApart q k code s' := by
  intro rows hrows
  refine hJ rows ?_
  cases hc with
  | keep _ heq => exact heq ▸ hrows
  | create _ _ _ heq => exact heq ▸ hrows
  | lock _ _ _ heq =>
      rw [heq, Option.some.injEq, Txn.mk.injEq] at hrows
      exact absurd hrows.1.symm hne
  | @stage row t _ _ hopen _ heq =>
      obtain ⟨rows', howner⟩ := hmover.owner rfl
      rw [howner, Option.some.injEq] at hopen
      subst hopen
      rw [heq, Option.some.injEq, Txn.mk.injEq] at hrows
      exact absurd hrows.1.symm hne
  | violation _ hs => exact txn_of_rollback (hs ▸ hrows)
  | commit _ _ heq =>
      rw [heq] at hrows
      exact nomatch hrows
  | write _ _ heq => exact heq ▸ hrows

theorem inserts_handler (k : Kind) (code : List Instr) : inserts (handler k code) = [] :=
  inserts_eq_nil (txnFree_handler k code)

/-- **No two rows share a number**, after any step of the pipeline. -/
theorem uniqueInv_act (h : UniqueInv c) (hs : act php c a = some c') : UniqueInv c' := by
  refine ⟨inTxn_step h.inTxn hs, ?_⟩
  have hU := h.apart.store
  have hone : ∀ {p : Nat} {k : Kind} {i : Instr} {s : Store}, Unique s → needsTxn i = false →
      StagedApart p k [i] s := by
    intro p k i s hs hi
    refine stagedApart_of_nil hs (inserts_eq_nil ?_)
    intro j hj
    rw [List.mem_singleton.mp hj]
    exact hi
  cases act_cases hs with
  | tick seconds => exact outline_withStore h.apart hU fun _ hJ => hJ
  | configure settings => exact outline_withStore h.apart hU fun _ hJ => hJ
  | upload disk chunkNo type file => exact outline_withStore h.apart hU fun _ hJ => hJ
  | claim hfind hpaused hcand =>
      have hU' : ∀ {id server : Nat} {worker : Text} {lease : Int} {token : Nat},
          Unique (c.store.updateChunk id
            (ClaimNext.claimed c.store.now server worker lease token)) :=
        hU.of_column (column_updateChunk _ fun _ => rfl)
      exact outline_launch h.apart hU' (fun _ hJ => hJ) (hone hU' rfl)
  | complete id payload => exact h.apart.spawn (hone hU rfl)
  | fail id retryable => exact h.apart.spawn (hone hU rfl)
  | startParse hstatus hidle =>
      refine h.apart.spawn (stagedApart_of_nil hU (inserts_eq_nil ?_))
      intro i hi
      have hparse := isParse_parseCode hi
      cases i <;> first | rfl | exact nomatch hparse
  | startFinalize hqueue hidle =>
      exact outline_launch h.apart hU (fun _ hJ => hJ) (hone hU rfl)
  | @exec p k i rest s' n hat hexec =>
      have hJ := h.apart.procs hat
      have htxn := h.inTxn.procs hat
      have hU' : Unique s' := hU.change hJ htxn (exec_change hexec)
      refine h.apart.exec hat hU' ?_ ?_
      · cases n with
        | raise => exact stagedApart_of_nil hU' (inserts_handler _ _)
        | go code => exact hJ.go hU' htxn hexec
      · exact fun hne _ hJq => hJq.of_ne htxn hne (exec_change hexec)
  | @throw p k i rest hat =>
      refine h.apart.exec hat (hU.rollback p) ?_ fun _ _ hJ => hJ.rollback
      exact stagedApart_of_nil (hU.rollback p) (inserts_handler _ _)
  | @kill p k i rest hat =>
      refine h.apart.exec hat (hU.rollback p) ?_ fun _ _ hJ => hJ.rollback
      exact stagedApart_of_nil (hU.rollback p) rfl

end Step

theorem uniqueInv_untouched {c : State} (h : Untouched c) : UniqueInv c := by
  refine ⟨inTxn_idle h.procs, outline_idle h.procs ?_⟩
  simp [Unique, allRows, stagedRows, h.chunks, h.txn]

/-! ## Under the console -/

namespace Console

section Step
variable {php : Php} {d d' : Desk} {e : Event} {s : Store}

/-- What is done to the rows keeps their numbers, or removes rows. -/
theorem unique_effect {i : Statement} (h : Unique s) : Unique (i.effect s) := by
  cases i with
  | deleteChunks =>
      refine List.Nodup.sublist (List.Sublist.map _ ?_) h
      exact (List.nil_sublist s.chunks).append (List.Sublist.refl (stagedRows s))
  | saveChunk model change => exact h.of_column (column_updateChunk _ fun _ => rfl)
  | _ => exact h

theorem unique_requeue {select : Chunk → Bool} (h : Unique s) : Unique (requeue select s) := by
  refine h.of_column ?_
  have hcol : (requeue select s).chunks.map Chunk.chunkNo = s.chunks.map Chunk.chunkNo := by
    rw [requeue, List.map_map]
    refine List.map_congr_left fun chunk _ => ?_
    show (if select chunk then requeued chunk else chunk).chunkNo = chunk.chunkNo
    split <;> rfl
  rw [allRows, allRows, List.map_append, List.map_append, hcol]
  rfl

theorem uniqueInv_withStore {c : State} {f : Store → Store} (h : UniqueInv c)
    (htxn : (f c.store).txn = c.store.txn) (hU : Unique (f c.store)) : UniqueInv (onStore c f) where
  inTxn := outline_withStore h.inTxn trivial fun _ hJ => hJ.of_txn htxn
  apart := by
    refine outline_withStore h.apart hU fun _ hJ => ?_
    intro rows hrows
    exact hJ rows (htxn ▸ hrows)

theorem txn_effect (i : Statement) (s : Store) : (i.effect s).txn = s.txn := by
  cases i <;> rfl

/-- **No two rows share a number**, whatever the console does. -/
theorem uniqueInv_step (h : UniqueInv d.store) (hs : step php d e = some d') :
    UniqueInv d'.store := by
  cases step_cases hs with
  | core hact =>
      rw [coreStep_store]
      exact uniqueInv_act h hact
  | request hallowed => exact h
  | requestChunk hfind hopen => exact h
  | exec hat => exact uniqueInv_withStore h (txn_effect _ _) (unique_effect h.apart.store)
  | leave n => exact h
  | claimJob hpending => exact uniqueInv_withStore (f := claimedJob) h rfl h.apart.store
  | finalize hopen => exact uniqueInv_withStore (f := queued) h rfl h.apart.store
  | requeue select he => exact uniqueInv_withStore h rfl (unique_requeue h.apart.store)

end Step

end Console

end ValidEmailVerifier
