/-
# `Pipeline.Completion` — a chunk is completed or failed once

Both handlers check the status of the row they loaded and write later.  As long
as no write comes to a chunk that another request has finished meanwhile
(`finishesLive`), a finished chunk stays as it is, and the side effects of its
completion happen at most once: the retry chunk and the metrics, which follow
the write, because only one write passes; the probe chunks, which precede it,
because the planner looks for them under the job lock.

The first two are one counting argument.  What has happened for a chunk and what
is due to happen, summed over all processes, is nothing before its completion is
written and at most one after it.
-/
import ValidEmailVerifier.Pipeline.Transactions

namespace ValidEmailVerifier

open Processes

/-! ## The condition -/

/-- A completion is written only to a chunk that is still live, and so is a failure
that would change the status. -/
def finishesLive (c : State) (a : Action) : Bool :=
  match nextInstr c a with
  | some (.updateCompleted r) => (c.store.findChunk r.chunk.id).any fun row => decide (Live row)
  | some (.updateFailed chunk retryable) =>
      let next := chunk.nextStatus c.store.settings retryable
      (c.store.findChunk chunk.id).any fun row =>
        decide (Live row) || next == chunk.status || next == row.status
  | _ => true

/-! ## Finished chunks stay as they are -/

/-- The row of a chunk, finished with a status. -/
def FinishedAs (s : Store) (id : Nat) (status : ChunkStatus) : Prop :=
  ∃ row, s.findChunk id = some row ∧ row.status = status ∧ ¬ Live row

section Finished
variable {php : Php} {c c' : State} {a : Action} {id : Nat} {status : ChunkStatus}

/-- A write that the condition allows leaves the status of a finished row. -/
theorem status_of_finishesLive {p : Nat} {k : Kind} {i : Instr} {rest : List Instr}
    {model filled row : Chunk} (hat : c.At p k (i :: rest))
    (hcond : finishesLive c (.exec p) = true) (hwrites : Writes c.store i id model filled)
    (hfind : c.store.findChunk id = some row) (hfin : ¬ Live row) :
    (Chunk.update model filled row).status = row.status := by
  rw [Chunk.update_status]
  cases hwrites with
  | completed r => simp [finishesLive, nextInstr_exec hat, hfind, hfin] at hcond
  | failed model retryable =>
      have hnext : model.nextStatus c.store.settings retryable = model.status ∨
          model.nextStatus c.store.settings retryable = row.status := by
        simpa [finishesLive, nextInstr_exec hat, hfind, hfin] using hcond
      show dirty model.status (model.nextStatus c.store.settings retryable) row.status = _
      rcases hnext with hnext | hnext
      · rw [hnext, dirty_clean]
      · unfold dirty
        split
        next => rfl
        next => exact hnext
  | parent => exact dirty_clean _ _

/-- **Completed and failed are absorbing.** -/
theorem finishedAs_step (h : FinishedAs c.store id status) (hcond : finishesLive c a = true)
    (hs : act php c a = some c') : FinishedAs c'.store id status := by
  obtain ⟨row, hfind, hstatus, hfin⟩ := h
  cases act_cases hs with
  | @claim id' _ _ _ _ _ chunk hfind' hpaused hcand =>
      have hne : id ≠ id' := by
        rintro rfl
        rw [hfind, Option.some.injEq] at hfind'
        subst hfind'
        simp only [ClaimNext.isCandidate, Bool.and_eq_true, beq_iff_eq] at hcand
        exact hfin (.inl hcand.1.1.1.1)
      refine ⟨row, ?_, hstatus, hfin⟩
      refine Eq.trans (Store.findChunk_updateChunk_of_ne ?_ hne) hfind
      exact fun _ => rfl
  | @exec p k i rest s' n hat hexec =>
      rcases (exec_change hexec).find hfind with hsame | ⟨model, filled, hwrites, hupd⟩
      · exact ⟨row, hsame, hstatus, hfin⟩
      · have hkeep := status_of_finishesLive hat hcond hwrites hfind hfin
        refine ⟨_, hupd, hkeep.trans hstatus, ?_⟩
        unfold Live
        rw [hkeep]
        exact hfin
  | throw hat => exact ⟨row, (Store.findChunk_rollback _).trans hfind, hstatus, hfin⟩
  | kill hat => exact ⟨row, (Store.findChunk_rollback _).trans hfind, hstatus, hfin⟩
  | _ => exact ⟨row, hfind, hstatus, hfin⟩

end Finished

/-! ## Side effects -/

/-- What follows the write of a completion. -/
inductive SideEffect where
  | retryChunk | metrics
  deriving DecidableEq, Repr

/-- The instruction is on its way to the effect, for chunk `id`. -/
def causes (e : SideEffect) (id : Nat) : Instr → Bool
  | .planRetry r => e == .retryChunk && r.chunk.id == id
  | .splitRisky chunk _ => e == .retryChunk && chunk.id == id
  | .beginRetry chunk _ _ => e == .retryChunk && chunk.id == id
  | .insertChunk row => e == .retryChunk && row.retryParentId == some id
  | .readMetrics id' _ => e == .metrics && id' == id
  | .saveMetrics id' _ => e == .metrics && id' == id
  | _ => false

/-- The write of a completion of chunk `id`. -/
def marks (id : Nat) : Instr → Bool
  | .updateCompleted r => r.chunk.id == id
  | _ => false

/-- How often the effect has happened for chunk `id`. -/
def happened (e : SideEffect) (id : Nat) (s : Store) : Nat :=
  match e with
  | .retryChunk => (allRows s).countP fun row => row.retryParentId == some id
  | .metrics => s.recorded.count id

/-- How often the effect will happen without another write. -/
def due (e : SideEffect) (id : Nat) (_ : Kind) (code : List Instr) : Nat :=
  code.countP (causes e id) - code.countP (marks id)

/-- What has happened and what is due. -/
def effects (e : SideEffect) (id : Nat) (c : State) : Nat :=
  happened e id c.store + c.total (due e id)

/-- No request has finished chunk `id`. -/
def Unfinished (s : Store) (id : Nat) : Prop := ∀ row, s.findChunk id = some row → Live row

/-- The effect happens once, and not before the chunk is finished. -/
structure Once (e : SideEffect) (id : Nat) (c : State) : Prop where
  once : effects e id c ≤ 1
  after : Unfinished c.store id → effects e id c = 0

/-! ### One write, and nothing before it -/

/-- After such an instruction no completion is written. -/
def lastWrite : Instr → Bool
  | .download _ _ | .loadCompletion _ _ | .planHandoff _ | .updateCompleted _ | .planRetry _
  | .splitRisky _ _ | .beginRetry _ _ _ | .updateParent _ _ _ | .readMetrics _ _
  | .saveMetrics _ _ => true
  | .insertChunk row => row.retryParentId.isSome
  | _ => false

def isUpdateCompleted : Instr → Bool
  | .updateCompleted _ => true
  | _ => false

/-- A process writes one completion, and what follows from it comes after. -/
def Orderly (_ : Nat) (_ : Kind) (code : List Instr) (_ : Store) : Prop :=
  code.Pairwise fun i j => lastWrite i = true → isUpdateCompleted j = false

def AllOrderly (c : State) : Prop := Outline (fun _ => True) Orderly c

section Orderly
variable {php : Php} {p : Nat} {k : Kind} {s s' : Store} {n : Next Instr}
  {code rest : List Instr} {i j : Instr}

theorem lastWrite_leads (h : Leads s i j) (hj : lastWrite j = true) : lastWrite i = true := by
  cases h with
  | put => exact nomatch hj
  | dispatch => exact nomatch hj
  | handoffDispatch => exact nomatch hj
  | beginProbe => rfl
  | insertProbe => exact nomatch hj
  | insertRetry => rfl
  | commitProbe => exact nomatch hj
  | commitRetry => exact nomatch hj
  | updateFailed => exact nomatch hj
  | merge => exact nomatch hj
  | failChunks => exact nomatch hj
  | completeJob => exact nomatch hj
  | failMissing => exact nomatch hj
  | _ => rfl

theorem orderly_of_noWrite (h : ∀ i ∈ code, isUpdateCompleted i = false) :
    Orderly p k code s :=
  List.pairwise_of_forall_mem_list fun _ _ j hj _ => h j hj

theorem orderly_finishScreening (r : Request) (candidates : Option Nat) :
    Orderly p k (finishScreening r candidates) s := by
  simp [Orderly, finishScreening, isUpdateCompleted]

/-- The code an instruction expands into writes one completion. -/
theorem orderly_code (h : exec php p i s = some (s', .go code)) : Orderly p k code s' := by
  by_cases hw : ∀ j ∈ code, isUpdateCompleted j = false
  · exact orderly_of_noWrite hw
  · obtain ⟨j, hj, hupd⟩ : ∃ j ∈ code, isUpdateCompleted j ≠ false := by
      simpa only [not_forall, exists_prop] using hw
    cases exec_leads h j hj with
    | update hfind hlive =>
        obtain ⟨-, hn | hn | ⟨chunk, -, -, ⟨-, -, hn⟩ | ⟨-, -, hn⟩ | ⟨-, hn⟩⟩⟩ :=
          loadCompletion_cases h
        · cases hn
        · cases hn
          cases hj
        · cases hn
          simp at hj
        · cases hn
          exact orderly_finishScreening _ _
        · cases hn
          simp [Orderly, finishProbe, isUpdateCompleted]
    | handoffUpdate r =>
        obtain ⟨-, hn | ⟨disk, -, ⟨-, hn⟩ | ⟨-, hn⟩⟩⟩ := planHandoff_cases h
        · cases hn
        · cases hn
          exact orderly_finishScreening _ _
        · cases hn
          refine List.pairwise_append.mpr
            ⟨?_, orderly_finishScreening (p := p) (k := k) (s := s) _ _, ?_⟩
          · simp [handoffCode, isUpdateCompleted]
          · intro a ha b _ hlast
            simp only [handoffCode, List.mem_cons, List.not_mem_nil, or_false] at ha
            rcases ha with rfl | rfl | rfl | rfl <;> cases hlast
    | _ => simp [isUpdateCompleted] at hupd

theorem orderly_handler : Orderly p k (handler k code) s :=
  orderly_of_noWrite (forall_handler (fun _ => rfl) (fun _ => rfl) fun _ => rfl)

theorem Orderly.resume (h : Orderly p k (i :: rest) s)
    (hexec : exec php p i s = some (s', n)) :
    Orderly p k (n.resume (handler k (i :: rest)) rest) s' := by
  cases n with
  | raise => exact orderly_handler (s := s')
  | go code =>
      obtain ⟨hi, hrest⟩ := List.pairwise_cons.mp h
      refine List.pairwise_append.mpr ⟨orderly_code (k := k) hexec, hrest, ?_⟩
      intro a ha b hb hlast
      exact hi b hb (lastWrite_leads (exec_leads hexec a ha) hlast)

end Orderly

theorem orderly_step {php : Php} {c c' : State} {a : Action} (h : AllOrderly c)
    (hs : act php c a = some c') : AllOrderly c' := by
  have hone : ∀ {p : Nat} {k : Kind} {i : Instr} {s : Store}, Orderly p k [i] s :=
    fun {_ _ _ _} => List.pairwise_singleton _ _
  cases act_cases hs with
  | tick seconds => exact outline_withStore h trivial fun _ hJ => hJ
  | configure settings => exact outline_withStore h trivial fun _ hJ => hJ
  | upload disk chunkNo type file => exact outline_withStore h trivial fun _ hJ => hJ
  | claim hfind hpaused hcand => exact outline_launch h trivial (fun _ hJ => hJ) hone
  | complete id payload => exact h.spawn hone
  | fail id retryable => exact h.spawn hone
  | startParse hstatus hidle =>
      refine h.spawn (orderly_of_noWrite fun i hi => ?_)
      have hparse := isParse_parseCode hi
      cases i <;> first | rfl | exact nomatch hparse
  | startFinalize hqueue hidle => exact outline_launch h trivial (fun _ hJ => hJ) hone
  | exec hat hexec =>
      exact h.exec hat trivial ((h.procs hat).resume hexec) fun _ _ hJ => hJ
  | throw hat => exact h.exec hat trivial orderly_handler fun _ _ hJ => hJ
  | kill hat => exact h.exec hat trivial .nil fun _ _ hJ => hJ

/-! ### Counting -/

section Counting
variable {php : Php} {p : Nat} {k : Kind} {s s' : Store} {n : Next Instr}
  {code rest : List Instr} {i j : Instr} {e : SideEffect} {id : Nat}

theorem countP_leads (hno : ∀ j, Leads s i j → causes e id j = false)
    (h : exec php p i s = some (s', .go code)) : code.countP (causes e id) = 0 :=
  List.countP_eq_zero.mpr fun j hj => by simp [hno j (exec_leads h j hj)]

/-- Code that an instruction expands into causes no more than the instruction, but
for what stands behind a write. -/
theorem countP_code (e : SideEffect) (id : Nat) (h : exec php p i s = some (s', .go code))
    (hi : emits i = true) :
    code.countP (causes e id) ≤ [i].countP (causes e id) + code.countP (marks id) := by
  have hnone : (∀ j, Leads s i j → causes e id j = false) →
      code.countP (causes e id) ≤ [i].countP (causes e id) + code.countP (marks id) := by
    intro hno
    rw [countP_leads hno h]
    exact Nat.zero_le _
  cases i with
  | download id' verdicts => exact hnone fun j hj => by cases hj <;> rfl
  | loadCompletion id' payload =>
      obtain ⟨-, hn | hn | ⟨chunk, -, -, ⟨-, -, hn⟩ | ⟨-, -, hn⟩ | ⟨-, hn⟩⟩⟩ :=
        loadCompletion_cases h
      · cases hn
      · cases hn
        simp
      · cases hn
        simp [causes]
      · cases hn
        cases e <;> simp [finishScreening, causes, marks, List.countP_cons]
      · cases hn
        cases e <;> simp [finishProbe, causes, marks, List.countP_cons]
  | planHandoff r =>
      obtain ⟨-, hn | ⟨disk, -, ⟨-, hn⟩ | ⟨-, hn⟩⟩⟩ := planHandoff_cases h
      · cases hn
      · cases hn
        cases e <;> simp [finishScreening, causes, marks, List.countP_cons]
      · cases hn
        cases e <;> simp [handoffCode, finishScreening, causes, marks, List.countP_cons]
  | beginProbe r disk shards =>
      refine hnone fun j hj => ?_
      cases hj with
      | insertProbe => cases e <;> rfl
      | _ => rfl
  | planRetry r =>
      obtain ⟨-, hn | ⟨fresh, disk, hfind, -, ⟨-, hn⟩ | ⟨-, hn⟩⟩⟩ := planRetry_cases h
      · cases hn
      · cases hn
        have hid := Table.key_of_find hfind
        simp [causes, hid]
      · cases hn
        simp
  | splitRisky chunk disk =>
      obtain ⟨-, hn | ⟨key, file, -, -, -, hn⟩⟩ := splitRisky_cases h
      · cases hn
        simp
      · cases hn
        simp [causes, List.countP_cons]
  | beginRetry chunk disk emails =>
      obtain ⟨-, -, hn⟩ := beginRetry_cases h
      cases hn
      simp [causes, retryRow, TempfailRetryPlanner.retryChunk, List.countP_cons]
  | readMetrics id' delta =>
      cases h
      simp [causes]
  | loadFailure id' retryable => exact hnone fun j hj => by cases hj <;> rfl
  | loadChunks job cache => exact hnone fun j hj => by cases hj <;> rfl
  | merge job chunks cache => exact hnone fun j hj => by cases hj <;> rfl
  | _ => cases hi

theorem countP_retryParentId_update (f : Chunk → Chunk)
    (hf : ∀ row, (f row).retryParentId = row.retryParentId) (rows : List Chunk) (id' : Nat) :
    (Table.update Chunk.id rows id' f).countP (fun row => row.retryParentId == some id) =
      rows.countP fun row => row.retryParentId == some id := by
  have hcol : (Table.update Chunk.id rows id' f).map Chunk.retryParentId =
      rows.map Chunk.retryParentId := Table.map_update _ fun row _ _ => hf row
  have hcount : ∀ rows : List Chunk, rows.countP (fun row => row.retryParentId == some id) =
      (rows.map Chunk.retryParentId).countP (· == some id) := by
    intro rows
    rw [List.countP_map]
    rfl
  rw [hcount, hcount, hcol]

theorem happened_rollback : happened e id (s.rollback p) ≤ happened e id s := by
  cases e with
  | metrics =>
      unfold Store.rollback
      split <;> exact Nat.le_refl _
  | retryChunk =>
      unfold Store.rollback
      split
      · simp [happened, allRows, stagedRows]
      · exact Nat.le_refl _

/-- The rows an instruction leaves have no new retry chunk, unless it inserts one. -/
theorem countP_change (h : Change p s i s') :
    happened .retryChunk id s' ≤ happened .retryChunk id s ∨
      (happened .retryChunk id s' = happened .retryChunk id s + 1 ∧
        causes .retryChunk id i = true ∧ emits i = false) := by
  have hsame : allRows s' = allRows s → happened .retryChunk id s' ≤
      happened .retryChunk id s ∨ (happened .retryChunk id s' =
        happened .retryChunk id s + 1 ∧ causes .retryChunk id i = true ∧ emits i = false) := by
    intro heq
    exact .inl (Nat.le_of_eq (by rw [happened, happened, heq]))
  cases h with
  | keep hchunks htxn => exact hsame (by rw [allRows, stagedRows, hchunks, htxn]; rfl)
  | create hfree hunstaged hchunks htxn =>
      left
      simp [happened, allRows, stagedRows, hchunks, htxn, List.countP_append]
  | lock hbegins hopen hchunks htxn =>
      exact hsame (by simp [allRows, stagedRows, hchunks, htxn, hopen])
  | @stage row t _ hfree hopen hchunks htxn =>
      by_cases hrow : row.retryParentId = some id
      · right
        refine ⟨?_, by simp [causes, hrow], rfl⟩
        simp [happened, allRows, stagedRows, hchunks, htxn, hopen, hrow, Nat.add_assoc]
      · left
        simp [happened, allRows, stagedRows, hchunks, htxn, hopen, hrow]
  | violation htaken hs =>
      left
      rw [hs]
      exact happened_rollback
  | commit hopen hchunks htxn =>
      exact hsame (by simp [allRows, stagedRows, hchunks, htxn, hopen])
  | @write _ id' model filled _ hwrites hchunks htxn =>
      left
      refine Nat.le_of_eq ?_
      simp only [happened, allRows, stagedRows, hchunks, htxn, List.countP_append]
      rw [countP_retryParentId_update (Chunk.update model filled) fun _ => rfl]

/-- **An effect happens only by an instruction that causes it.** -/
theorem happened_exec (e : SideEffect) (id : Nat) (h : exec php p i s = some (s', n)) :
    happened e id s' ≤ happened e id s ∨
      (happened e id s' = happened e id s + 1 ∧ causes e id i = true ∧ emits i = false) := by
  cases e with
  | retryChunk => exact countP_change (exec_change h)
  | metrics =>
      rcases (exec_frame h).recorded with hrec | ⟨id', write, rfl, hrec⟩
      · exact .inl (Nat.le_of_eq (by rw [happened, happened, hrec]))
      · by_cases hid : id' = id
        · right
          refine ⟨?_, by simp [causes, hid], rfl⟩
          simp [happened, hrec, hid]
        · left
          simp [happened, hrec, hid]

/-- What is due after an instruction that returned, with what it did. -/
theorem due_go (horder : Orderly p k (i :: rest) s)
    (h : exec php p i s = some (s', .go code)) :
    happened e id s' + due e id k (code ++ rest) ≤
      happened e id s + due e id k (i :: rest) + [i].countP (marks id) := by
  have hsplit : ∀ f : Instr → Bool, (i :: rest).countP f = [i].countP f + rest.countP f := by
    intro f
    show ([i] ++ rest).countP f = _
    exact List.countP_append
  simp only [due, List.countP_append, hsplit]
  cases hem : emits i with
  | true =>
      have hcode := countP_code e id h hem
      have hmark : [i].countP (marks id) = 0 := by
        cases i <;> first | rfl | exact nomatch hem
      have hhap : happened e id s' ≤ happened e id s := by
        rcases happened_exec e id h with hle | ⟨-, -, hno⟩
        · exact hle
        · rw [hem] at hno
          exact nomatch hno
      omega
  | false =>
      obtain rfl := exec_quiet hem h
      simp only [List.countP_nil]
      rcases happened_exec e id h with hle | ⟨heq, hcause, -⟩
      · omega
      · have hone : [i].countP (causes e id) = 1 := by simp [hcause]
        -- what follows the write has no write behind it
        have hlast : lastWrite i = true := by
          cases i with
          | insertChunk row =>
              simp only [causes, Bool.and_eq_true, beq_iff_eq] at hcause
              simp [lastWrite, hcause.2]
          | _ => first | rfl | exact nomatch hcause
        have hrest : rest.countP (marks id) = 0 := by
          refine List.countP_eq_zero.mpr fun j hj hmark => ?_
          have hno := (List.pairwise_cons.mp horder).1 j hj hlast
          cases j with
          | updateCompleted r => exact nomatch hno
          | _ => exact nomatch hmark
        omega

theorem due_nil : due e id k [] = 0 := rfl

theorem due_none (h : ∀ i ∈ code, causes e id i = false) : due e id k code = 0 := by
  have hzero : code.countP (causes e id) = 0 :=
    List.countP_eq_zero.mpr fun i hi => by simp [h i hi]
  rw [due, hzero, Nat.zero_sub]

theorem due_handler (code : List Instr) : due e id k (handler k code) = 0 :=
  due_none (forall_handler (fun _ => rfl) (fun _ => rfl) fun _ => rfl)

end Counting

/-! ### Once -/

section Once
variable {php : Php} {c c' : State} {a : Action} {e : SideEffect} {id : Nat}

/-- A row that is unfinished after a step was so before it. -/
theorem Unfinished.before (hcond : finishesLive c a = true) (hs : act php c a = some c')
    (h : Unfinished c'.store id) : Unfinished c.store id := by
  intro row hfind
  by_contra hfin
  obtain ⟨row', hfind', -, hfin'⟩ := finishedAs_step ⟨row, hfind, rfl, hfin⟩ hcond hs
  exact hfin' (h row' hfind')

theorem effects_spawn {s : Store} {k : Kind} {code : List Instr}
    (hhap : happened e id s = happened e id c.store)
    (hcode : ∀ i ∈ code, causes e id i = false) :
    effects e id ((withStore c s).spawn k code) = effects e id c := by
  have hdue : due e id k code = 0 := due_none hcode
  rw [effects, Conf.total_spawn, hdue]
  exact congrArg (· + Conf.total (due e id) c) hhap

/-- Replacing the code of a process that holds no more afterwards. -/
theorem effects_setCode {p : Nat} {k : Kind} {old code : List Instr} {s : Store} {m : Nat}
    (hat : c.At p k old) (h : happened e id s + due e id k code ≤
      happened e id c.store + due e id k old + m) :
    effects e id ((withStore c s).setCode p code) ≤ effects e id c + m := by
  have htotal := Conf.total_setCode (w := due e id) (c := withStore c s) hat code
  have hsame : Conf.total (due e id) (withStore c s) = Conf.total (due e id) c := rfl
  show happened e id s + _ ≤ happened e id c.store + _ + m
  omega

/-- **A step adds an effect only by a write of the chunk's completion.** -/
theorem effects_step (e : SideEffect) (id : Nat) (horder : AllOrderly c)
    (hs : act php c a = some c') :
    effects e id c' ≤ effects e id c ∨
      (effects e id c' ≤ effects e id c + 1 ∧ ∃ p r, a = .exec p ∧
        nextInstr c a = some (.updateCompleted r) ∧ r.chunk.id = id) := by
  have hone : ∀ {i : Instr}, causes e id i = false → ∀ j ∈ [i], causes e id j = false := by
    intro i hi j hj
    rw [List.mem_singleton.mp hj]
    exact hi
  cases act_cases hs with
  | tick seconds => exact .inl (Nat.le_of_eq (by cases e <;> rfl))
  | configure settings => exact .inl (Nat.le_of_eq (by cases e <;> rfl))
  | upload disk chunkNo type file => exact .inl (Nat.le_of_eq (by cases e <;> rfl))
  | claim hfind hpaused hcand =>
      refine .inl (Nat.le_of_eq (effects_spawn ?_ (hone rfl)))
      cases e with
      | metrics => rfl
      | retryChunk =>
          simp only [happened, allRows, Store.updateChunk, List.countP_append]
          rw [countP_retryParentId_update (ClaimNext.claimed _ _ _ _ _) fun _ => rfl]
          rfl
  | complete id' payload =>
      exact .inl (Nat.le_of_eq (effects_spawn (s := c.store) rfl (hone rfl)))
  | fail id' retryable =>
      exact .inl (Nat.le_of_eq (effects_spawn (s := c.store) rfl (hone rfl)))
  | startParse hstatus hidle =>
      refine .inl (Nat.le_of_eq (effects_spawn (s := c.store) rfl ?_))
      intro i hi
      have hparse := isParse_parseCode hi
      cases i <;> first | rfl | cases hparse
  | startFinalize hqueue hidle =>
      exact .inl (Nat.le_of_eq (effects_spawn (by cases e <;> rfl) (hone rfl)))
  | @exec p k i rest s' n hat hexec =>
      have hdue : happened e id s' + due e id k (n.resume (handler k (i :: rest)) rest) ≤
          happened e id c.store + due e id k (i :: rest) + [i].countP (marks id) := by
        cases n with
        | go code => exact due_go (horder.procs hat) hexec
        | raise =>
            have hzero : due e id k (Next.raise.resume (handler k (i :: rest)) rest) = 0 :=
              due_handler _
            rw [hzero]
            refine Nat.le_trans ?_ (Nat.le_trans (Nat.le_add_right _ _) (Nat.le_add_right _ _))
            rcases exec_raise hexec with rfl | rfl
            · exact Nat.le_refl _
            · exact happened_rollback
      have hstep := effects_setCode hat hdue
      cases hmark : marks id i with
      | false => exact .inl (by simpa [hmark] using hstep)
      | true =>
          refine .inr ⟨by simpa [hmark] using hstep, ?_⟩
          cases i with
          | updateCompleted r =>
              exact ⟨p, r, rfl, nextInstr_exec hat, by simpa [marks] using hmark⟩
          | _ => cases hmark
  | throw hat =>
      refine .inl (effects_setCode (m := 0) hat ?_)
      rw [due_handler]
      exact Nat.le_trans happened_rollback (Nat.le_add_right _ _)
  | kill hat =>
      refine .inl (effects_setCode (m := 0) hat ?_)
      rw [due_nil]
      exact Nat.le_trans happened_rollback (Nat.le_add_right _ _)

/-- The write of a completion finishes the chunk. -/
theorem not_unfinished_of_update {p : Nat} {s s' : Store} {n : Next Instr} {r : Request}
    {row : Chunk} (hmodel : Live r.chunk) (hfind : s.findChunk r.chunk.id = some row)
    (hexec : exec php p (.updateCompleted r) s = some (s', n)) :
    ¬ Unfinished s' r.chunk.id := by
  cases hexec
  intro hopen
  have hfind' : (s.updateChunk r.chunk.id (Chunk.update r.chunk r.completed)).findChunk
      r.chunk.id = some (Chunk.update r.chunk r.completed row) := by
    rw [Store.findChunk_updateChunk_self fun row => Chunk.update_id r.chunk r.completed row,
      hfind]
    rfl
  have hlive := hopen _ hfind'
  have hstatus : (Chunk.update r.chunk r.completed row).status = .completed := by
    rw [Chunk.update_status, dirty, if_neg]
    · rfl
    · rcases hmodel with h | h <;> rw [h] <;> exact nofun
  rcases hlive with h | h <;> rw [hstatus] at h <;> exact nomatch h

/-- **The effects of a completion happen once.** -/
theorem once_step (h : Once e id c) (horder : AllOrderly c) (hloaded : EachInstr LoadedLive c)
    (hcond : finishesLive c a = true) (hs : act php c a = some c') : Once e id c' := by
  rcases effects_step e id horder hs with hle | ⟨hle, p, r, rfl, hnext, rfl⟩
  · refine ⟨Nat.le_trans hle h.once, fun hopen => ?_⟩
    have hzero := h.after (hopen.before hcond hs)
    omega
  · -- the completion is written to a live chunk, which it finishes
    obtain ⟨row, hfind, hlive⟩ : ∃ row, c.store.findChunk r.chunk.id = some row ∧ Live row := by
      have hany : (c.store.findChunk r.chunk.id).any (fun row => decide (Live row)) = true := by
        simpa [finishesLive, hnext] using hcond
      obtain ⟨row, hfind, hlive⟩ := (Option.any_eq_true _ _).mp hany
      exact ⟨row, hfind, by simpa using hlive⟩
    have hzero : effects e r.chunk.id c = 0 := by
      refine h.after fun row' hfind' => ?_
      rw [hfind, Option.some.injEq] at hfind'
      exact hfind' ▸ hlive
    refine ⟨by omega, fun hopen => ?_⟩
    cases act_cases hs with
    | @exec p k i rest s' n hat hexec =>
        rw [nextInstr_exec hat, Option.some.injEq] at hnext
        subst hnext
        have hmodel : Live r.chunk := hloaded p k _ hat _ (.head _)
        exact absurd hopen (not_unfinished_of_update hmodel hfind hexec)

end Once

/-! ## Probe chunks -/

/-- The row is a probe chunk of a screening chunk. -/
def isProbeChunkOf (id : Nat) (row : Chunk) : Bool :=
  row.processingStage == some .smtpProbe && row.sourceStage == some .screening &&
    row.parentChunkId == some id

/-- The probe chunks of a chunk are those of one plan, which has given them its
rotation group. -/
def OneProbePlan (rows : List Chunk) : Prop :=
  ∀ (id : Nat), ∀ row ∈ rows, ∀ row' ∈ rows, isProbeChunkOf id row = true →
    isProbeChunkOf id row' = true → row'.rotationGroupId = row.rotationGroupId

/-- A row that a process has still to insert belongs to the plan of those that are
there. -/
def PlansOnce (_ : Nat) (_ : Kind) (code : List Instr) (s : Store) : Prop :=
  ∀ row, .insertChunk row ∈ code → ∀ id, isProbeChunkOf id row = true → ∀ row',
    row' ∈ allRows s ∨ .insertChunk row' ∈ code → isProbeChunkOf id row' = true →
      row'.rotationGroupId = row.rotationGroupId

def AllPlanOnce (c : State) : Prop := Outline (fun s => OneProbePlan (allRows s)) PlansOnce c

section ProbePlan
variable {php : Php} {p q : Nat} {k k' : Kind} {s s' : Store} {n : Next Instr}
  {code code' rest : List Instr} {i : Instr} {id : Nat}

theorem isProbeChunkOf_of_sameOrigin {row row' : Chunk} (h : SameOrigin row row') :
    isProbeChunkOf id row' = isProbeChunkOf id row := by
  simp [isProbeChunkOf, h.processingStage, h.sourceStage, h.parentChunkId]

theorem not_probeChunk {row : Chunk} (h : row.parentChunkId = none) :
    isProbeChunkOf id row = false := by
  simp [isProbeChunkOf, h]

theorem PlansOnce.of_noInsert (h : ∀ row, .insertChunk row ∉ code) : PlansOnce p k code s :=
  fun row hrow => absurd hrow (h row)

/-- What holds of the rows the others stem from holds of these. -/
theorem OneProbePlan.of_origins {rows : List Chunk} {Origin : Chunk → Prop}
    (hplan : ∀ (id : Nat) (row row' : Chunk), Origin row → Origin row' →
      isProbeChunkOf id row = true → isProbeChunkOf id row' = true →
        row'.rotationGroupId = row.rotationGroupId)
    (hold : ∀ row' ∈ rows, (∃ row, Origin row ∧ SameOrigin row row') ∨
      row'.parentChunkId = none) : OneProbePlan rows := by
  intro id row hrow row' hrow' hprobe hprobe'
  rcases hold row hrow with ⟨old, hmem, ho⟩ | hnone
  · rcases hold row' hrow' with ⟨old', hmem', ho'⟩ | hnone
    · rw [isProbeChunkOf_of_sameOrigin ho] at hprobe
      rw [isProbeChunkOf_of_sameOrigin ho'] at hprobe'
      rw [ho.rotationGroupId, ho'.rotationGroupId]
      exact hplan id old old' hmem hmem' hprobe hprobe'
    · rw [not_probeChunk hnone] at hprobe'
      exact nomatch hprobe'
  · rw [not_probeChunk hnone] at hprobe
    exact nomatch hprobe

theorem OneProbePlan.mono {rows rows' : List Chunk} (h : OneProbePlan rows)
    (hold : ∀ row' ∈ rows', (∃ row ∈ rows, SameOrigin row row') ∨
      row'.parentChunkId = none) : OneProbePlan rows' :=
  of_origins (fun id row row' hrow hrow' => h id row hrow row' hrow') hold

theorem PlansOnce.mono (h : PlansOnce p k code s)
    (hold : ∀ row' ∈ allRows s', (∃ row ∈ allRows s, SameOrigin row row') ∨
      row'.parentChunkId = none) : PlansOnce p k code s' := by
  intro row hrow id hprobe row' hrow' hprobe'
  rcases hrow' with hmem | hcode
  · rcases hold row' hmem with ⟨old, hmem', ho⟩ | hnone
    · rw [isProbeChunkOf_of_sameOrigin ho] at hprobe'
      rw [ho.rotationGroupId]
      exact h row hrow id hprobe old (.inl hmem') hprobe'
    · rw [not_probeChunk hnone] at hprobe'
      exact nomatch hprobe'
  · exact h row hrow id hprobe row' (.inr hcode) hprobe'

/-- Rows that an instruction other than an insert leaves. -/
theorem mem_allRows_of_noInsert (hc : Change p s i s') (hi : ∀ row, i ≠ .insertChunk row) :
    ∀ row' ∈ allRows s', (∃ row ∈ allRows s, SameOrigin row row') ∨
      row'.parentChunkId = none := by
  intro row' hmem
  rcases hc.mem_allRows hmem with hold | hins | ⟨hnone, -⟩
  · exact .inl hold
  · exact absurd hins (hi row')
  · exact .inr hnone

theorem PlansOnce.single (hi : needsTxn i = false) : PlansOnce p k [i] s := by
  refine .of_noInsert fun row hrow => ?_
  rw [← List.mem_singleton.mp hrow] at hi
  exact nomatch hi

theorem noInsert_of_txnFree (h : TxnFree code) : ∀ row, .insertChunk row ∉ code :=
  fun _ hrow => nomatch h _ hrow

/-- **A plan is made when there is none**, and its rows share a group. -/
theorem PlansOnce.begins (htxn : InTxn p k (i :: rest) s) (hb : Begins i)
    (h : exec php p i s = some (s', .go code)) : PlansOnce p k (code ++ rest) s' := by
  cases hb with
  | probe r disk shards =>
      obtain ⟨hopen, ⟨-, rfl, hn⟩ | ⟨hnone, rfl, hn⟩⟩ := beginProbe_cases h
      · cases hn
        exact .of_noInsert (noInsert_of_txnFree fun j hj => htxn.free hopen j (.tail _ hj))
      · have hrest : ∀ row, .insertChunk row ∉ rest :=
          noInsert_of_txnFree fun j hj => htxn.free hopen j (.tail _ hj)
        have hgroup : ∀ row, .insertChunk row ∈ code ++ rest →
            row.rotationGroupId = some (s.nextId + shards.length) ∧
              row.parentChunkId = some r.chunk.id := by
          intro row hrow
          rcases List.mem_append.mp hrow with hrow | hrow
          · cases exec_leads h _ hrow with
            | insertProbe => exact ⟨rfl, rfl⟩
          · exact absurd hrow (hrest row)
        intro row hrow id hprobe row' hrow' hprobe'
        rcases hrow' with hmem | hcode
        · -- the planner has looked for probe chunks
          have hid : id = r.chunk.id := by
            simp only [isProbeChunkOf, Bool.and_eq_true, beq_iff_eq] at hprobe
            rw [(hgroup row hrow).2, Option.some.injEq] at hprobe
            exact hprobe.2.symm
          have hmem' : row' ∈ s.chunks := by simpa [allRows, stagedRows] using hmem
          have hhas : hasProbeChunks s r.chunk.id = true :=
            List.any_eq_true.mpr ⟨row', hmem', hid ▸ hprobe'⟩
          rw [hnone] at hhas
          cases hhas
        · rw [(hgroup row hrow).1, (hgroup row' hcode).1]
  | retry chunk disk emails =>
      obtain ⟨hopen, -, -⟩ := beginRetry_cases h
      have hrest : ∀ row, .insertChunk row ∉ rest :=
        noInsert_of_txnFree fun j hj => htxn.free hopen j (.tail _ hj)
      intro row hrow id hprobe
      rcases List.mem_append.mp hrow with hrow | hrow
      · cases exec_leads h _ hrow with
        | insertRetry =>
            simp [isProbeChunkOf, retryRow, TempfailRetryPlanner.retryChunk] at hprobe
      · exact absurd hrow (hrest row)

theorem PlansOnce.go (hJ : PlansOnce p k (i :: rest) s) (htxn : InTxn p k (i :: rest) s)
    (h : exec php p i s = some (s', .go code)) : PlansOnce p k (code ++ rest) s' := by
  by_cases hb : Begins i
  · exact .begins htxn hb h
  · have hcode : ∀ row, .insertChunk row ∉ code :=
      noInsert_of_txnFree fun j hj => txnFree_leads (exec_leads h j hj) hb
    have htail : ∀ {row}, .insertChunk row ∈ code ++ rest → .insertChunk row ∈ rest := by
      intro row hrow
      exact (List.mem_append.mp hrow).resolve_left (hcode row)
    intro row hrow id hprobe row' hrow' hprobe'
    have hrow₁ := htail hrow
    rcases hrow' with hmem | hcode'
    · rcases (exec_change h).mem_allRows hmem with ⟨old, hold, ho⟩ | rfl | ⟨hnone, -⟩
      · rw [isProbeChunkOf_of_sameOrigin ho] at hprobe'
        rw [ho.rotationGroupId]
        exact hJ row (.tail _ hrow₁) id hprobe old (.inl hold) hprobe'
      · exact hJ row (.tail _ hrow₁) id hprobe row' (.inr (.head _)) hprobe'
      · rw [not_probeChunk hnone] at hprobe'
        exact nomatch hprobe'
    · exact hJ row (.tail _ hrow₁) id hprobe row' (.inr (.tail _ (htail hcode'))) hprobe'

/-- The row of an insert belongs to the plan of the rows that are there. -/
theorem OneProbePlan.change (h : OneProbePlan (allRows s)) (hJ : PlansOnce p k (i :: rest) s)
    (hc : Change p s i s') : OneProbePlan (allRows s') := by
  have hold : ∀ row' ∈ allRows s', (∃ row, (row ∈ allRows s ∨ i = .insertChunk row) ∧
      SameOrigin row row') ∨ row'.parentChunkId = none := by
    intro row' hmem
    rcases hc.mem_allRows hmem with ⟨row, hmem, ho⟩ | hins | ⟨hnone, -⟩
    · exact .inl ⟨row, .inl hmem, ho⟩
    · exact .inl ⟨row', .inr hins, .refl row'⟩
    · exact .inr hnone
  have hplan : ∀ (id : Nat) (row row' : Chunk), row ∈ allRows s ∨ i = .insertChunk row →
      row' ∈ allRows s ∨ i = .insertChunk row' → isProbeChunkOf id row = true →
        isProbeChunkOf id row' = true → row'.rotationGroupId = row.rotationGroupId := by
    rintro id row row' (hrow | rfl) hrow' hprobe hprobe'
    · rcases hrow' with hrow' | rfl
      · exact h id row hrow row' hrow' hprobe hprobe'
      · exact (hJ row' (.head _) id hprobe' row (.inl hrow) hprobe).symm
    · refine hJ row (.head _) id hprobe row' (hrow'.imp_right fun heq => ?_) hprobe'
      rw [heq]
      exact .head _
  exact .of_origins hplan hold

theorem PlansOnce.of_ne (hJ : PlansOnce q k' code' s) (htxn' : InTxn q k' code' s)
    (htxn : InTxn p k (i :: rest) s) (hne : q ≠ p) (hc : Change p s i s') :
    PlansOnce q k' code' s' := by
  by_cases hins : ∃ row, i = .insertChunk row
  · obtain ⟨row, rfl⟩ := hins
    obtain ⟨rows, howns⟩ := htxn.owner rfl
    refine .of_noInsert (noInsert_of_txnFree ?_)
    by_contra hfree
    obtain ⟨rows', howns'⟩ := htxn'.owns hfree
    rw [howns, Option.some.injEq, Txn.mk.injEq] at howns'
    exact hne howns'.1.symm
  · exact hJ.mono (mem_allRows_of_noInsert hc fun row heq => hins ⟨row, heq⟩)

end ProbePlan

theorem planOnce_step {php : Php} {c c' : State} {a : Action} (h : AllPlanOnce c)
    (htxn : AllInTxn c) (hs : act php c a = some c') : AllPlanOnce c' := by
  have hrollback : ∀ {p : Nat}, ∀ row' ∈ allRows (c.store.rollback p),
      (∃ row ∈ allRows c.store, SameOrigin row row') ∨ row'.parentChunkId = none :=
    fun {_} row' hmem => .inl ⟨row', mem_allRows_rollback hmem, .refl row'⟩
  cases act_cases hs with
  | tick seconds => exact outline_withStore h h.store fun _ hJ => hJ
  | configure settings => exact outline_withStore h h.store fun _ hJ => hJ
  | upload disk chunkNo type file => exact outline_withStore h h.store fun _ hJ => hJ
  | claim hfind hpaused hcand =>
      refine outline_launch h ?_ ?_ ?_
      · refine h.store.mono fun row' hmem => .inl ?_
        exact mem_allRows_updateChunk (sameOrigin_claimed _ _ _ _ _) hmem
      · refine fun _ hJ => hJ.mono fun row' hmem => .inl ?_
        exact mem_allRows_updateChunk (sameOrigin_claimed _ _ _ _ _) hmem
      · exact .single rfl
  | complete id payload => exact h.spawn (.single rfl)
  | fail id retryable => exact h.spawn (.single rfl)
  | startParse hstatus hidle =>
      refine h.spawn (.of_noInsert fun row hrow => ?_)
      exact nomatch isParse_parseCode hrow
  | startFinalize hqueue hidle =>
      exact outline_launch h h.store (fun _ hJ => hJ) (.single rfl)
  | @exec p k i rest s' n hat hexec =>
      have hc := exec_change hexec
      refine h.exec hat (h.store.change (h.procs hat) hc) ?_ ?_
      · cases n with
        | raise =>
            exact .of_noInsert (noInsert_of_txnFree (txnFree_handler _ _))
        | go code => exact (h.procs hat).go (htxn.procs hat) hexec
      · intro q k' code' hne hq hJ
        exact hJ.of_ne (htxn.procs hq) (htxn.procs hat) hne hc
  | throw hat =>
      refine h.exec hat (h.store.mono hrollback) ?_ fun _ _ hJ => hJ.mono hrollback
      exact .of_noInsert (noInsert_of_txnFree (txnFree_handler _ _))
  | kill hat =>
      refine h.exec hat (h.store.mono hrollback) ?_ fun _ _ hJ => hJ.mono hrollback
      exact .of_noInsert fun row hrow => nomatch hrow

/-! ## The law -/

/-- The side effects of completing a chunk have happened at most once. -/
structure EffectsOnce (s : Store) : Prop where
  retry : ∀ id, (allRows s).countP (fun row => row.retryParentId == some id) ≤ 1
  metrics : ∀ id, s.recorded.count id ≤ 1
  probe : OneProbePlan (allRows s)

/-- A chunk that is completed or failed stays so, in every run from here. -/
def FinishedForGood (php : Php) (C : State → Action → Prop) (c : State) : Prop :=
  ∀ c', (pipeline php).Reaches C c c' → ∀ id row, c.store.findChunk id = some row →
    ¬ Live row → ∃ row', c'.store.findChunk id = some row' ∧ row'.status = row.status

/-- What the runs keep. -/
structure CompletionInv (c : State) : Prop where
  inTxn : AllInTxn c
  orderly : AllOrderly c
  loaded : EachInstr LoadedLive c
  plan : AllPlanOnce c
  once : ∀ e id, Once e id c

theorem completionInv_step {php : Php} {c c' : State} {a : Action} (h : CompletionInv c)
    (hcond : finishesLive c a = true) (hs : act php c a = some c') : CompletionInv c' where
  inTxn := inTxn_step h.inTxn hs
  orderly := orderly_step h.orderly hs
  loaded := loadedLive_step h.loaded hs
  plan := planOnce_step h.plan h.inTxn hs
  once := fun e id => once_step (h.once e id) h.orderly h.loaded hcond hs

theorem completionInv_untouched {c : State} (h : Untouched c) : CompletionInv c where
  inTxn := inTxn_idle h.procs
  orderly := outline_idle h.procs trivial
  loaded := eachInstr_idle h.procs
  plan := outline_idle h.procs fun id row hrow => by
    simp [allRows, stagedRows, h.chunks, h.txn] at hrow
  once := by
    intro e id
    have hzero : effects e id c = 0 := by
      cases e <;> simp [effects, happened, allRows, stagedRows, Conf.total, h.procs, h.chunks,
        h.txn, h.recorded]
    exact ⟨by omega, fun _ => hzero⟩

/-- **A chunk is finished once**: its side effects happen at most once, and it stays
finished, in every run in which no request writes to a chunk that another one has
finished. -/
theorem effectsOnce_of_finishesLive {php : Php} {c₀ c : State} (h₀ : Untouched c₀)
    (h : (pipeline php).Reaches (fun c a => finishesLive c a = true) c₀ c) :
    EffectsOnce c.store ∧ FinishedForGood php (fun c a => finishesLive c a = true) c := by
  have hinv : CompletionInv c :=
    h.invariant (completionInv_untouched h₀) fun _ _ _ => completionInv_step
  have honce : ∀ e id, happened e id c.store ≤ 1 := by
    intro e id
    have hle := (hinv.once e id).once
    unfold effects at hle
    omega
  refine ⟨⟨honce .retryChunk, honce .metrics, hinv.plan.store⟩, ?_⟩
  intro c' hrun id row hfind hfin
  have hstay : FinishedAs c'.store id row.status :=
    hrun.invariant (P := fun d => FinishedAs d.store id row.status) ⟨row, hfind, rfl, hfin⟩
      fun _ _ _ hf hcond hs => finishedAs_step hf hcond hs
  obtain ⟨row', hfind', hstatus, -⟩ := hstay
  exact ⟨row', hfind', hstatus⟩

theorem effectsOnce_tempfail :
    ∃ c, (pipeline samplePhp).Reaches (fun c a => finishesLive c a = true)
        (sampleJob (retrySettings 3) ["a@b.co"]) c ∧
      (c.store.chunks.length = 3 ∧ c.store.recorded = [0, 1]) ∧
        EffectsOnce c.store ∧
          FinishedForGood samplePhp (fun c a => finishesLive c a = true) c := by
  have hrun : ((pipeline samplePhp).runIf (fun c a => finishesLive c a = true)
      (sampleJob (retrySettings 3) ["a@b.co"]) tempfailSchedule).any
        (fun c => c.store.chunks.length == 3 && c.store.recorded == [0, 1]) = true := by
    decide
  obtain ⟨c, hreach, htest⟩ := Transition.System.exists_reaches hrun
  rw [Bool.and_eq_true, beq_iff_eq, beq_iff_eq] at htest
  exact ⟨c, hreach, htest, effectsOnce_of_finishesLive ⟨rfl, rfl, rfl, rfl⟩ hreach⟩

/-- A worker reports the same failure twice; both reports find its chunk processing.
After the first one another worker takes the chunk and completes it. -/
def supersededSchedule : List Action :=
  .startParse [] :: turns 0 5 ++
    claimBy 0 ["a@b.co"] .valid "rcpt_ok" :: .fail 0 true :: .fail 0 true ::
    turns 2 1 ++ turns 3 1 ++ turns 2 1 ++
    claimBy 0 ["a@b.co"] .valid "rcpt_ok" :: turns 4 6

/-- The second report makes the completed chunk pending again. -/
theorem superseded_not_finishedForGood :
    ∃ c, (pipeline samplePhp).Reaches Transition.Always (sampleJob {} ["a@b.co"]) c ∧
      ¬ (EffectsOnce c.store ∧ FinishedForGood samplePhp Transition.Always c) := by
  have hrun : ((pipeline samplePhp).run (sampleJob {} ["a@b.co"]) supersededSchedule).any
      (fun c => (c.store.findChunk 0).any (fun row => row.status == .completed) &&
        ((pipeline samplePhp).run c (turns 3 1)).any fun c' =>
          (c'.store.findChunk 0).any fun row => row.status == .pending) = true := by
    decide
  obtain ⟨c, hreach, htest⟩ := Transition.System.exists_reaches_always hrun
  rw [Bool.and_eq_true] at htest
  obtain ⟨row, hfind, hstatus⟩ := (Option.any_eq_true _ _).mp htest.1
  obtain ⟨c', hreach', hlater⟩ := Transition.System.exists_reaches_always htest.2
  obtain ⟨row', hfind', hstatus'⟩ := (Option.any_eq_true _ _).mp hlater
  rw [beq_iff_eq] at hstatus hstatus'
  refine ⟨c, hreach, fun h => ?_⟩
  obtain ⟨row₁, hfind₁, heq⟩ := h.2 c' hreach' 0 row hfind (not_live_of_completed hstatus)
  rw [hfind', Option.some.injEq] at hfind₁
  rw [← hfind₁, hstatus', hstatus] at heq
  exact nomatch heq

end ValidEmailVerifier
