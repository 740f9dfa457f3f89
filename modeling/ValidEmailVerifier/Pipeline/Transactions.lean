/-
# `Pipeline.Transactions` — the job lock

A process that has rows to insert or a commit ahead is inside a transaction, and
then the open transaction is its own: nobody else can insert into it, commit it
or roll it back, and nobody else can open one.
-/
import ValidEmailVerifier.Pipeline.Steps

namespace ValidEmailVerifier

open Processes

/-! ## Code inside a transaction -/

/-- The instructions that only stand inside a transaction. -/
def needsTxn : Instr → Bool
  | .insertChunk _ | .commit => true
  | _ => false

/-- Nothing of a transaction is left. -/
def TxnFree (code : List Instr) : Prop := ∀ i ∈ code, needsTxn i = false

/-- A transaction ends with its only commit. -/
def commitLast : List Instr → Prop
  | [] => True
  | .commit :: rest => TxnFree rest
  | _ :: rest => commitLast rest

theorem TxnFree.commitLast : ∀ {code : List Instr}, TxnFree code → commitLast code
  | [], _ => trivial
  | i :: rest, h => by
      have hrest : TxnFree rest := fun j hj => h j (.tail _ hj)
      unfold ValidEmailVerifier.commitLast
      split
      next => trivial
      next heq =>
        cases heq
        exact hrest
      next heq =>
        cases heq
        exact hrest.commitLast

theorem commitLast_append : ∀ {new rest : List Instr}, TxnFree new → commitLast rest →
    commitLast (new ++ rest)
  | [], _, _, h => h
  | i :: new, rest, hnew, h => by
      have ih : commitLast (new ++ rest) :=
        commitLast_append (fun j hj => hnew j (.tail _ hj)) h
      cases i with
      | commit => exact nomatch hnew .commit (.head _)
      | _ => exact ih

/-- A transaction: inserts, a commit, and code outside it. -/
theorem commitLast_txn : ∀ {body rest : List Instr}, (∀ i ∈ body, i ≠ .commit) →
    TxnFree rest → commitLast (body ++ .commit :: rest)
  | [], _, _, h => h
  | i :: body, rest, hbody, h => by
      have ih : commitLast (body ++ .commit :: rest) :=
        commitLast_txn (fun j hj => hbody j (.tail _ hj)) h
      cases i with
      | commit => exact absurd rfl (hbody .commit (.head _))
      | _ => exact ih

theorem commitLast_tail {i : Instr} {rest : List Instr} (h : commitLast (i :: rest)) :
    commitLast rest := by
  cases i with
  | commit => exact TxnFree.commitLast h
  | _ => exact h

/-- A process inside a transaction holds the job lock. -/
structure InTxn (p : Nat) (_ : Kind) (code : List Instr) (s : Store) : Prop where
  owns : ¬ TxnFree code → ∃ rows, s.txn = some ⟨p, rows⟩
  last : commitLast code

/-- Every process inside a transaction holds the job lock. -/
def AllInTxn (c : State) : Prop := Outline (fun _ => True) InTxn c

/-! ## One step -/

section Step
variable {php : Php} {p q : Nat} {k : Kind} {s s' : Store} {n : Next Instr}
  {code rest : List Instr} {i : Instr}

theorem TxnFree.inTxn (h : TxnFree code) : InTxn p k code s := ⟨fun hn => absurd h hn, h.commitLast⟩

theorem InTxn.free (h : InTxn p k code s) (hopen : s.txn = none) : TxnFree code := by
  by_contra hn
  obtain ⟨rows, hrows⟩ := h.owns hn
  rw [hopen] at hrows
  exact nomatch hrows

theorem InTxn.owner (h : InTxn p k (i :: rest) s) (hi : needsTxn i = true) :
    ∃ rows, s.txn = some ⟨p, rows⟩ := by
  refine h.owns fun hfree => ?_
  have hno := hfree i (.head _)
  rw [hi] at hno
  exact nomatch hno

/-- A rollback of somebody else's transaction changes nothing. -/
theorem rollback_of_ne {rows : List Chunk} (h : s.txn = some ⟨q, rows⟩) (hne : q ≠ p) :
    s.rollback p = s := by
  have hown : s.txn.any (fun t => t.owner == p) = false := by simp [h, hne]
  simp [Store.rollback, hown]

theorem txnFree_handler (k : Kind) (code : List Instr) : TxnFree (handler k code) :=
  forall_handler (fun _ => rfl) (fun _ => rfl) fun _ => rfl

/-- **Nobody touches another's transaction.** -/
theorem Change.txn_of_ne {rows : List Chunk} (hc : Change p s i s')
    (hmover : InTxn p k (i :: rest) s) (hne : q ≠ p) (howns : s.txn = some ⟨q, rows⟩) :
    s'.txn = s.txn := by
  have hself : needsTxn i = false := by
    by_contra hi
    obtain ⟨rows', hrows⟩ := hmover.owner (by simpa using hi)
    rw [hrows, Option.some.injEq, Txn.mk.injEq] at howns
    exact hne howns.1.symm
  cases hc with
  | keep _ htxn => exact htxn
  | create _ _ _ htxn => exact htxn
  | lock _ hopen => exact nomatch howns.symm.trans hopen
  | stage => exact nomatch hself
  | violation => exact nomatch hself
  | commit => exact nomatch hself
  | write _ _ htxn => exact htxn

theorem InTxn.of_ne (h : InTxn q k code s) (htxn : ∀ {rows : List Chunk},
    s.txn = some ⟨q, rows⟩ → s'.txn = s.txn) : InTxn q k code s' := by
  refine ⟨fun hn => ?_, h.last⟩
  obtain ⟨rows, hrows⟩ := h.owns hn
  exact ⟨rows, (htxn hrows).trans hrows⟩

theorem InTxn.of_txn (h : InTxn q k code s) (htxn : s'.txn = s.txn) : InTxn q k code s' :=
  h.of_ne fun _ => htxn

theorem InTxn.rollback_of_ne (h : InTxn q k code s) (hne : q ≠ p) :
    InTxn q k code (s.rollback p) :=
  h.of_ne fun hrows => by rw [ValidEmailVerifier.rollback_of_ne hrows hne]

/-- Only the beginning of a transaction leads into one. -/
theorem txnFree_leads {j : Instr} (h : Leads s i j) (hi : ¬ Begins i) :
    needsTxn j = false := by
  cases h with
  | insertProbe => exact absurd (.probe _ _ _) hi
  | insertRetry => exact absurd (.retry _ _ _) hi
  | commitProbe => exact absurd (.probe _ _ _) hi
  | commitRetry => exact absurd (.retry _ _ _) hi
  | _ => rfl

theorem insertShards_ne_commit {parent group attempts now : Nat} {disk : Disk}
    {shards : List ScreeningToProbeChunkPlanner.Shard} {id chunkNo : Nat} :
    ∀ i ∈ insertShards parent group disk attempts now id chunkNo shards, i ≠ .commit := by
  intro i hi
  rcases insertShards_cases i hi with ⟨addr, file, rfl⟩ | ⟨_, _, _, -, rfl⟩
  · exact nofun
  · exact nofun

/-- What a process has left after opening a transaction. -/
theorem inTxn_begins (h : InTxn p k (i :: rest) s) (hb : Begins i)
    (hexec : exec php p i s = some (s', .go code)) : InTxn p k (code ++ rest) s' := by
  have hfree : s.txn = none → TxnFree rest :=
    fun hopen j hj => h.free hopen j (.tail _ hj)
  cases hb with
  | probe r disk shards =>
      obtain ⟨hopen, ⟨-, rfl, hn⟩ | ⟨-, rfl, hn⟩⟩ := beginProbe_cases hexec
      · cases hn
        exact (hfree hopen).inTxn
      · cases hn
        refine ⟨fun _ => ⟨[], rfl⟩, ?_⟩
        rw [List.append_assoc]
        exact commitLast_txn insertShards_ne_commit (hfree hopen)
  | retry chunk disk emails =>
      obtain ⟨hopen, rfl, hn⟩ := beginRetry_cases hexec
      cases hn
      exact ⟨fun _ => ⟨[], rfl⟩, hfree hopen⟩

/-- What a process has left after an instruction that returned. -/
theorem InTxn.go (h : InTxn p k (i :: rest) s)
    (hexec : exec php p i s = some (s', .go code)) : InTxn p k (code ++ rest) s' := by
  by_cases hb : Begins i
  · exact inTxn_begins h hb hexec
  · have hcode : TxnFree code := fun j hj => txnFree_leads (exec_leads hexec j hj) hb
    refine ⟨fun hn => ?_, commitLast_append hcode (commitLast_tail h.last)⟩
    have hrest : ¬ TxnFree rest := by
      intro hfree
      refine hn fun j hj => ?_
      rcases List.mem_append.mp hj with hj | hj
      · exact hcode j hj
      · exact hfree j hj
    obtain ⟨rows, hrows⟩ := h.owns fun hfree => hrest fun j hj => hfree j (.tail _ hj)
    cases exec_change hexec with
    | keep _ htxn => exact ⟨rows, htxn.trans hrows⟩
    | create _ _ _ htxn => exact ⟨rows, htxn.trans hrows⟩
    | lock _ hopen => exact nomatch hrows.symm.trans hopen
    | @stage row t _ _ hopen _ htxn =>
        rw [hopen, Option.some.injEq] at hrows
        exact ⟨t.rows ++ [row], by rw [htxn, hrows]⟩
    | violation htaken hs =>
        simp [exec, insertChunk, htaken] at hexec
    | commit => exact absurd h.last hrest
    | write _ _ htxn => exact ⟨rows, htxn.trans hrows⟩

end Step

/-- **The job lock is respected.** -/
theorem inTxn_step {php : Php} {c c' : State} {a : Action} (h : AllInTxn c)
    (hs : act php c a = some c') : AllInTxn c' := by
  have hsingle : ∀ {p : Nat} {k : Kind} {s : Store} {i : Instr}, needsTxn i = false →
      InTxn p k [i] s := by
    intro p k s i hi
    refine TxnFree.inTxn fun j hj => ?_
    rw [List.mem_singleton.mp hj]
    exact hi
  cases act_cases hs with
  | tick seconds => exact outline_withStore h trivial fun _ hJ => hJ.of_txn rfl
  | configure settings => exact outline_withStore h trivial fun _ hJ => hJ.of_txn rfl
  | upload disk chunkNo type file =>
      exact outline_withStore h trivial fun _ hJ => hJ.of_txn rfl
  | claim hfind hpaused hcand =>
      exact outline_launch h trivial (fun _ hJ => hJ.of_txn rfl) (hsingle rfl)
  | complete id payload => exact h.spawn (hsingle rfl)
  | fail id retryable => exact h.spawn (hsingle rfl)
  | startParse hstatus hidle =>
      refine h.spawn (TxnFree.inTxn fun i hi => ?_)
      have hparse := isParse_parseCode hi
      cases i <;> first | rfl | exact nomatch hparse
  | startFinalize hqueue hidle =>
      exact outline_launch h trivial (fun _ hJ => hJ.of_txn rfl) (hsingle rfl)
  | @exec p k i rest s' n hat hexec =>
      refine h.exec hat trivial ?_ ?_
      · cases n with
        | raise => exact (txnFree_handler _ _).inTxn
        | go code => exact (h.procs hat).go hexec
      · intro q k' code' hne _ hJ
        exact hJ.of_ne fun hrows => (exec_change hexec).txn_of_ne (h.procs hat) hne hrows
  | throw hat =>
      refine h.exec hat trivial (txnFree_handler _ _).inTxn ?_
      exact fun hne _ hJ => hJ.rollback_of_ne hne
  | kill hat =>
      refine h.exec hat trivial (TxnFree.inTxn fun _ hj => nomatch hj) ?_
      exact fun hne _ hJ => hJ.rollback_of_ne hne

theorem inTxn_idle {c : State} (h : c.procs = []) : AllInTxn c := outline_idle h trivial

end ValidEmailVerifier
