/-
# `Pipeline.CounterAccounts` — the condition under which no addition is lost or repeated

A completion reads a counter and writes it later, and the end of a parse writes the
counters afresh.  `accountable` says of a step that it does neither while somebody else
holds an older value, that no process ends with additions it owes, and that what is
counted is counted by the request that brought it about.

`accounts_step`: under this condition a counter of the probe stage and what the processes
still owe to it are together what a `Tally` beside the state has recorded.
-/
import Mathlib
import ValidEmailVerifier.Pipeline.CounterShares
import ValidEmailVerifier.Pipeline.ParseLedger
import ValidEmailVerifier.Pipeline.Progress

namespace ValidEmailVerifier.JobMetrics

open Processes

/-! ## What the counters are to count -/

/-- The candidates that were handed over in a run, and the rows that were reported. -/
abbrev Tally := Counter → Nat

/-- The tally after an action. -/
def note (c : State) (a : Action) (t : Tally) : Tally := fun x =>
  t x + ((nextInstr c a).map (event x c.store)).getD 0

/-- The pipeline with its tally. -/
def tallied (php : Php) : Transition.System (State × Tally) Action :=
  ⟨fun x a => (act php x.1 a).map fun c => (c, note x.1 a x.2)⟩

/-- The addresses of a screening chunk. -/
def screened (row : Chunk) : Nat := if row.stage = .screening then row.emailCount else 0

/-- The sum of the email counts of the screening chunks. -/
def screeningSum (s : Store) : Nat := (s.chunks.map screened).sum

/-- The instruction reads or writes the counters of a completion. -/
def isCounting : Instr → Bool
  | .readMetrics _ _ | .saveMetrics _ _ => true
  | _ => false

/-- Parsing has ended, and no completion has its counters still to write. -/
structure Settled (c : State) : Prop where
  prepared : c.store.job.preparedAt ≠ none
  parsed : running c isParse = false
  counted : ahead c isCounting = false

/-- The counters say what they are to say. -/
structure Exact (s : Store) (t : Tally) : Prop where
  screening : s.metrics.screeningTotalCount = screeningSum s
  candidates : s.metrics.probeCandidateCount = t .candidates
  completed : s.metrics.probeCompletedCount = t .completed

/-! ## The condition -/

def isReset : Instr → Bool
  | .resetMetrics _ => true
  | _ => false

/-- The counter of the probe stage that a write is about. -/
def counterOf : MetricsWrite → Counter
  | .screening _ _ => .candidates
  | .probe _ _ => .completed

/-- The instruction writes a value of the counter, and of those of its phase, that was read
before. -/
def savesTo (x : Counter) : Instr → Bool
  | .saveMetrics _ write => decide (counterOf write = x)
  | _ => false

/-- The job has been prepared. -/
def prepared (s : Store) : Bool := s.job.preparedAt.isSome

/-- The write leaves the email counts of the screening chunks. -/
def keepsCounts (s : Store) (id : Nat) (model filled : Chunk) : Bool :=
  s.chunks.all fun row => row.id != id || screened (Chunk.update model filled row) == screened row

/-- A process may end with this code: it owes nothing to the counters, and it is no parse that
has prepared the job and not written its totals. -/
def mayEnd (s : Store) (k : Kind) (code : List Instr) : Bool :=
  decide (∀ x ∈ [Counter.candidates, Counter.completed], owed x (x.value s.metrics) k code = 0) &&
    (!code.any isReset || !prepared s)

/-- The condition on the next instruction of a process; `others` is the state in which the
process has gone past it. -/
def keepsAccounts (s : Store) (others : State) : Instr → Bool
  | .createChunk _ _ _ => ahead others isReset || !prepared s
  | .resetMetrics _ =>
      s.metrics.probeCandidateCount == 0 && s.metrics.probeCompletedCount == 0 &&
        !ahead others (savesTo .candidates)
  | .beginProbe r _ _ => !hasProbeChunks s r.chunk.id
  | .updateCompleted r => keepsCounts s r.chunk.id r.chunk r.completed
  | .updateParent chunk key filteredCount =>
      keepsCounts s chunk.id chunk (chunk.withFilteredRisky key filteredCount)
  | .readMetrics _ (.screening total _) => total == 0 || ahead others isReset || !prepared s
  | .saveMetrics _ write => !ahead others (savesTo (counterOf write))
  | _ => true

/-- No step makes a counter lose or repeat an addition. -/
def accountable (php : Php) (c : State) (a : Action) : Bool :=
  finishesLive c a &&
    match a with
    | .startParse _ => c.store.chunks.isEmpty
    | .throw p | .kill p => c.procs[p]?.all fun q => mayEnd c.store q.kind q.code
    | .exec p =>
        c.procs[p]?.all fun q =>
          match q.code with
          | [] => true
          | i :: rest =>
              if throws php p i c.store then mayEnd c.store q.kind q.code
              else keepsAccounts c.store (c.setCode p rest) i
    | _ => true

section Condition
variable {php : Php} {c c' : State} {a : Action} {p : Nat} {k : Kind} {i : Instr}
  {rest code : List Instr} {s' : Store}

theorem accountable_go (h : accountable php c (.exec p) = true) (hat : c.At p k (i :: rest))
    (hexec : exec php p i c.store = some (s', .go code)) :
    finishesLive c (.exec p) = true ∧ keepsAccounts c.store (c.setCode p rest) i = true := by
  have hp : c.procs[p]? = some ⟨k, i :: rest⟩ := hat
  have hno : throws php p i c.store = false := by simp [throws, hexec]
  simpa [accountable, hp, hno] using h

theorem accountable_raise (h : accountable php c (.exec p) = true) (hat : c.At p k (i :: rest))
    (hexec : exec php p i c.store = some (s', .raise)) :
    mayEnd c.store k (i :: rest) = true := by
  have hp : c.procs[p]? = some ⟨k, i :: rest⟩ := hat
  have hyes : throws php p i c.store = true := by simp [throws, hexec]
  have hboth : finishesLive c (.exec p) = true ∧ mayEnd c.store k (i :: rest) = true := by
    simpa [accountable, hp, hyes] using h
  exact hboth.2

theorem accountable_throw (h : accountable php c (.throw p) = true)
    (hat : c.At p k (i :: rest)) : mayEnd c.store k (i :: rest) = true := by
  have hp : c.procs[p]? = some ⟨k, i :: rest⟩ := hat
  simpa [accountable, hp, finishesLive, nextInstr] using h

theorem accountable_kill (h : accountable php c (.kill p) = true)
    (hat : c.At p k (i :: rest)) : mayEnd c.store k (i :: rest) = true := by
  have hp : c.procs[p]? = some ⟨k, i :: rest⟩ := hat
  simpa [accountable, hp, finishesLive, nextInstr] using h

theorem owed_of_mayEnd (h : mayEnd c.store k code = true) (x : Counter) :
    owed x (x.value c.store.metrics) k code = 0 := by
  have hall := of_decide_eq_true (Bool.and_eq_true_iff.mp h).1
  cases x with
  | candidates => exact hall _ (.head _)
  | completed => exact hall _ (.tail _ (.head _))

/-- What the condition asks of an instruction. -/
theorem accountable_instr (hlive : finishesLive c (.exec p) = true) (hat : c.At p k (i :: rest))
    (h : keepsAccounts c.store (c.setCode p rest) i = true) : Accountable c.store i where
  first := by
    rintro r disk shards rfl
    simpa [keepsAccounts] using h
  live := by
    rintro r rfl
    simpa [finishesLive, nextInstr_exec hat] using hlive
  reset := by
    rintro total rfl x
    simp only [keepsAccounts, Bool.and_eq_true, beq_iff_eq] at h
    cases x with
    | candidates => exact h.1.1
    | completed => exact h.1.2

end Condition

/-! ## The counters of the probe stage -/

/-- What the runs keep. -/
structure Accounts (c : State) (t : Tally) : Prop where
  inTxn : AllInTxn c
  course : Outline (fun _ => True) (fun p _ code s => Course p s code) c
  balance : ∀ x : Counter, (x.value c.store.metrics : Int) +
    c.total (owed x (x.value c.store.metrics)) = t x

section Accounts
variable {php : Php} {c c' : State} {a : Action} {t : Tally} {p : Nat} {k : Kind} {i : Instr}
  {rest code : List Instr} {s s' : Store} {x : Counter}

theorem share_congr {v v' : Nat} (h : savesTo x i = false) : share x v' i = share x v i := by
  cases i with
  | saveMetrics id write =>
      cases x with
      | candidates =>
          cases write with
          | screening => exact nomatch h
          | probe => rfl
      | completed =>
          cases write with
          | screening => rfl
          | probe => exact nomatch h
  | readMetrics id delta =>
      cases x with
      | candidates => cases delta <;> rfl
      | completed => cases delta <;> rfl
  | _ => cases x <;> rfl

theorem owed_congr {v v' : Nat} (h : ∀ i ∈ code, savesTo x i = false) :
    owed x v' k code = owed x v k code := by
  have hmap : code.map (share x v') = code.map (share x v) :=
    List.map_congr_left fun i hi => share_congr (h i hi)
  unfold owed
  rw [hmap]

/-- A counter that is written while nobody else holds a value of it. -/
theorem total_owed_congr {v v' : Nat} (h : v' = v ∨ ahead c (savesTo x) = false) :
    c.total (owed x v') = c.total (owed x v) := by
  rcases h with rfl | h
  · rfl
  · unfold Conf.total
    congr 1
    refine List.map_congr_left fun q hq => ?_
    refine owed_congr fun i hi => ?_
    obtain ⟨n, hn⟩ := List.getElem?_of_mem hq
    exact ahead_eq_false h (show c.At n q.kind q.code from hn) i hi

theorem quiet_handler (k : Kind) (code : List Instr) : ∀ i ∈ handler k code, quiet i = true :=
  forall_handler (fun _ => rfl) (fun _ => rfl) fun _ => rfl

theorem quiet_of_parse (h : isParseInstr i = true) : quiet i = true := by
  cases i with
  | putObject => rfl
  | createChunk => rfl
  | updateTotals => rfl
  | resetMetrics => rfl
  | failJob => rfl
  | dispatchFinalize => rfl
  | _ => exact nomatch h

/-- A counter moves only while no other value of it is held. -/
theorem value_exec (hkeeps : keepsAccounts c.store (c.setCode p rest) i = true)
    (hexec : exec php p i c.store = some (s', .go code)) (x : Counter) :
    x.value s'.metrics = x.value c.store.metrics ∨
      (code = [] ∧ ahead (c.setCode p rest) (savesTo x) = false) := by
  by_cases hwrites : writesCounters i = false
  · left
    rw [exec_metrics hwrites hexec]
  · cases i with
    | resetMetrics total =>
        left
        simp only [keepsAccounts, Bool.and_eq_true, beq_iff_eq] at hkeeps
        cases hexec
        cases x with
        | candidates => exact hkeeps.1.1.symm
        | completed => exact hkeeps.1.2.symm
    | saveMetrics id write =>
        simp only [keepsAccounts, Bool.not_eq_true'] at hkeeps
        cases hexec
        cases write with
        | screening total candidates =>
            cases x with
            | candidates => exact .inr ⟨rfl, hkeeps⟩
            | completed => exact .inl rfl
        | probe completed unknown =>
            cases x with
            | candidates => exact .inl rfl
            | completed => exact .inr ⟨rfl, hkeeps⟩
    | _ => exact absurd rfl hwrites

/-- **One instruction keeps the accounts.** -/
theorem balance_go (h : Accounts c t) (hat : c.At p k (i :: rest))
    (hcond : accountable php c (.exec p) = true)
    (hexec : exec php p i c.store = some (s', .go code)) :
    Course p s' (code ++ rest) ∧ ∀ x : Counter,
      (x.value s'.metrics : Int) + Conf.total (owed x (x.value s'.metrics))
          ((withStore c s').setCode p (code ++ rest)) = note c (.exec p) t x := by
  obtain ⟨hlive, hkeeps⟩ := accountable_go hcond hat hexec
  obtain ⟨hcourse, hbalance⟩ :=
    (h.course.procs hat).advances (accountable_instr hlive hat hkeeps) hexec
  refine ⟨hcourse, fun x => ?_⟩
  have hmoved := hbalance x k
  have hbefore := h.balance x
  have hset := Conf.total_setCode (w := owed x (x.value c.store.metrics)) (c := withStore c s')
    hat (code ++ rest)
  have hstore : Conf.total (owed x (x.value c.store.metrics)) (withStore c s') =
      Conf.total (owed x (x.value c.store.metrics)) c := rfl
  have hnote : (note c (.exec p) t x : Int) = t x + event x c.store i := by
    simp [note, nextInstr_exec hat]
  -- the counter may have moved, but then what the processes owe does not depend on it
  have hfree : x.value s'.metrics = x.value c.store.metrics ∨
      ahead ((withStore c s').setCode p (code ++ rest)) (savesTo x) = false := by
    refine (value_exec hkeeps hexec x).imp_right ?_
    rintro ⟨rfl, hnone⟩
    exact hnone
  have hat' : ((withStore c s').setCode p (code ++ rest)).At p k (code ++ rest) :=
    Conf.at_setCode.mpr (.inl ⟨rfl, rfl, _, hat⟩)
  have howed : owed x (x.value s'.metrics) k (code ++ rest) =
      owed x (x.value c.store.metrics) k (code ++ rest) := by
    rcases hfree with heq | hnone
    · rw [heq]
    · exact owed_congr (ahead_eq_false hnone hat')
  rw [total_owed_congr hfree, hnote]
  omega

/-- The end of a process that owes nothing. -/
theorem balance_end (h : Accounts c t) (hat : c.At p k (i :: rest))
    (hmay : mayEnd c.store k (i :: rest) = true) (hmetrics : s'.metrics = c.store.metrics)
    (hcode : ∀ j ∈ code, quiet j = true) (x : Counter) :
    (x.value s'.metrics : Int) + Conf.total (owed x (x.value s'.metrics))
        ((withStore c s').setCode p code) = t x := by
  have hbefore := h.balance x
  have hset := Conf.total_setCode (w := owed x (x.value c.store.metrics)) (c := withStore c s')
    hat code
  have hstore : Conf.total (owed x (x.value c.store.metrics)) (withStore c s') =
      Conf.total (owed x (x.value c.store.metrics)) c := rfl
  rw [owed_of_mayEnd hmay, owed_of_quiet hcode] at hset
  rw [hmetrics]
  omega

theorem balance_spawn (h : Accounts c t) (hmetrics : s'.metrics = c.store.metrics)
    (hcode : ∀ j ∈ code, quiet j = true) (x : Counter) :
    (x.value s'.metrics : Int) + Conf.total (owed x (x.value s'.metrics))
        ((withStore c s').spawn k code) = t x := by
  rw [hmetrics, Conf.total_spawn, owed_of_quiet hcode, add_zero]
  exact h.balance x

/-- An instruction that throws brings nothing into account. -/
theorem event_raise (hexec : exec php p i s = some (s', .raise)) (x : Counter) :
    event x s i = 0 := by
  cases i with
  | commit =>
      cases x with
      | completed => rfl
      | candidates =>
          simp only [exec, commit] at hexec
          split at hexec
          · cases hexec
          next hopen => simp [event, stagedRows, hopen, handedIn]
  | updateCompleted => cases hexec
  | _ => cases x <;> rfl

theorem metrics_rollback (s : Store) (p : Nat) : (s.rollback p).metrics = s.metrics := by
  unfold Store.rollback
  split <;> rfl

theorem note_of_none (h : nextInstr c a = none) : note c a t = t := by
  funext x
  simp [note, h]

variable (s') in
/-- A process that is started owes nothing. -/
theorem accounts_launch (h : Accounts c t) (hinTxn : AllInTxn ((withStore c s').spawn k code))
    (htxn : s'.txn = c.store.txn) (hmetrics : s'.metrics = c.store.metrics)
    (hcode : ∀ j ∈ code, quiet j = true) : Accounts ((withStore c s').spawn k code) t where
  inTxn := hinTxn
  course := outline_launch h.course trivial (fun _ hJ => hJ.of_txn fun _ => htxn) (.quiet hcode)
  balance := balance_spawn h hmetrics hcode

theorem accounts_end (h : Accounts c t) (hinTxn : AllInTxn ((withStore c s').setCode p code))
    (hat : c.At p k (i :: rest)) (hmay : mayEnd c.store k (i :: rest) = true)
    (hs : s' = c.store ∨ s' = c.store.rollback p) (hcode : ∀ j ∈ code, quiet j = true) :
    Accounts ((withStore c s').setCode p code) t where
  inTxn := hinTxn
  course := by
    refine h.course.exec hat trivial (.quiet hcode) ?_
    intro q k' code' hne _ hJ
    refine hJ.of_txn fun hrows => ?_
    rcases hs with rfl | rfl
    · rfl
    · rw [rollback_of_ne hrows hne]
  balance := by
    refine balance_end h hat hmay ?_ hcode
    rcases hs with rfl | rfl
    · rfl
    · exact metrics_rollback _ _

/-- **The accounts are kept by every step that meets the condition.** -/
theorem accounts_step (h : Accounts c t) (hcond : accountable php c a = true)
    (hs : act php c a = some c') : Accounts c' (note c a t) := by
  have hinTxn := inTxn_step h.inTxn hs
  have hone : ∀ {i : Instr}, quiet i = true → ∀ j ∈ [i], quiet j = true := by
    intro i hi j hj
    rw [List.mem_singleton.mp hj]
    exact hi
  cases act_cases hs with
  | tick seconds =>
      rw [note_of_none rfl]
      exact ⟨hinTxn, outline_withStore h.course trivial fun _ hJ => hJ.of_txn fun _ => rfl,
        h.balance⟩
  | configure settings =>
      rw [note_of_none rfl]
      exact ⟨hinTxn, outline_withStore h.course trivial fun _ hJ => hJ.of_txn fun _ => rfl,
        h.balance⟩
  | upload disk chunkNo type file =>
      rw [note_of_none rfl]
      exact ⟨hinTxn, outline_withStore h.course trivial fun _ hJ => hJ.of_txn fun _ => rfl,
        h.balance⟩
  | claim hfind hpaused hcand =>
      rw [note_of_none rfl]
      exact accounts_launch _ h hinTxn rfl rfl (hone rfl)
  | complete id payload =>
      rw [note_of_none rfl]
      exact accounts_launch c.store h hinTxn rfl rfl (hone rfl)
  | fail id retryable =>
      rw [note_of_none rfl]
      exact accounts_launch c.store h hinTxn rfl rfl (hone rfl)
  | startParse hstatus hidle =>
      rw [note_of_none rfl]
      exact accounts_launch c.store h hinTxn rfl rfl fun i hi =>
        quiet_of_parse (isParse_parseCode hi)
  | startFinalize hqueue hidle =>
      rw [note_of_none rfl]
      exact accounts_launch _ h hinTxn rfl rfl (hone rfl)
  | @exec p k i rest s' n hat hexec =>
      cases n with
      | go code =>
          obtain ⟨hcourse, hbalance⟩ := balance_go h hat hcond hexec
          refine ⟨hinTxn, h.course.exec hat trivial hcourse ?_, hbalance⟩
          intro q k' code' hne _ hJ
          exact hJ.of_txn fun hrows =>
            (exec_change hexec).txn_of_ne (h.inTxn.procs hat) hne hrows
      | raise =>
          have hnote : note c (.exec p) t = t := by
            funext x
            simp [note, nextInstr_exec hat, event_raise hexec]
          rw [hnote]
          exact accounts_end h hinTxn hat (accountable_raise hcond hat hexec)
            (exec_raise hexec) (quiet_handler k (i :: rest))
  | @throw p k i rest hat =>
      rw [note_of_none rfl]
      exact accounts_end h hinTxn hat (accountable_throw hcond hat) (.inr rfl)
        (quiet_handler k (i :: rest))
  | @kill p k i rest hat =>
      rw [note_of_none rfl]
      exact accounts_end h hinTxn hat (accountable_kill hcond hat) (.inr rfl)
        (List.forall_mem_nil _)

end Accounts

end ValidEmailVerifier.JobMetrics
