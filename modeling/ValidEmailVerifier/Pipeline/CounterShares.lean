/-
# `Pipeline.CounterShares` — what a process still owes to the counters of its job

`probe_candidate_count` and `probe_completed_count` are read by one instruction of a
request and written by another, some time after the probe chunks have been committed
or the rows of a probe chunk have been reported.  In between, the difference is in the
hands of the request.  `owed` says how much that is, from the code the request has
left, and `Course` lists what that code can look like.

`Course.advances` is the law of one instruction: a counter and what its process owes
to it grow together by what the instruction brings into account, and by nothing else.
-/
import Mathlib
import ValidEmailVerifier.Pipeline.Completion
import ValidEmailVerifier.Pipeline.ProbeShards

namespace ValidEmailVerifier.JobMetrics

open Processes

/-! ## The counters of the probe stage -/

/-- The counters that completions add to and that parsing sets to zero. -/
inductive Counter where
  | candidates | completed
  deriving DecidableEq, Repr

/-- Its value. -/
def Counter.value : Counter → Metrics → Nat
  | .candidates, m => m.probeCandidateCount
  | .completed, m => m.probeCompletedCount

/-- The candidates a row of `createProbeChunks` is created for. -/
def handed (row : Chunk) : Nat :=
  if row.sourceStage = some .screening then row.emailCount else 0

/-- The candidates handed over in some rows. -/
def handedIn (rows : List Chunk) : Nat := (rows.map handed).sum

/-- What an instruction brings into account: a commit hands over the candidates of its rows,
and the completion of a probe chunk reports the chunk's rows. -/
def event (x : Counter) (s : Store) (i : Instr) : Nat :=
  match x, i with
  | .candidates, .commit => handedIn (stagedRows s)
  | .completed, .updateCompleted r =>
      if r.chunk.stage = .smtpProbe ∧
          (s.findChunk r.chunk.id).any (fun row => decide (Live row)) = true then
        r.totalCount
      else 0
  | _, _ => 0

/-! ## What is owed -/

/-- What an instruction will add to a counter that stands at `v`. -/
def share (x : Counter) (v : Nat) (i : Instr) : Int :=
  match x, i with
  | .candidates, .readMetrics _ (.screening _ candidates) => candidates.getD 0
  | .candidates, .saveMetrics _ (.screening _ candidates) => candidates.getD v - v
  | .completed, .readMetrics _ (.probe completed _) => completed
  | .completed, .saveMetrics _ (.probe completed _) => completed - v
  | _, _ => 0

/-- What is brought into account is still to come. -/
def awaited (x : Counter) (i : Instr) : Bool :=
  match x, i with
  | .candidates, .beginProbe _ _ _ => true
  | .candidates, .commit => true
  | .completed, .updateCompleted _ => true
  | _, _ => false

/-- What a process with this code has brought into account and not yet added. -/
def owed (x : Counter) (v : Nat) (_ : Kind) (code : List Instr) : Int :=
  if code.any (awaited x) then 0 else (code.map (share x v)).sum

section Owed
variable {x : Counter} {v : Nat} {k : Kind} {i : Instr} {code : List Instr}

theorem owed_of_awaited (hmem : i ∈ code) (h : awaited x i = true) : owed x v k code = 0 :=
  if_pos (List.any_eq_true.mpr ⟨i, hmem, h⟩)

theorem owed_of_none (h : ∀ i ∈ code, awaited x i = false) :
    owed x v k code = (code.map (share x v)).sum := by
  refine if_neg ?_
  rw [List.any_eq_true]
  rintro ⟨i, hi, htrue⟩
  rw [h i hi] at htrue
  exact nomatch htrue

/-- An instruction in front that neither adds nor is waited for. -/
theorem owed_cons (hshare : share x v i = 0) (hawait : awaited x i = false) :
    owed x v k (i :: code) = owed x v k code := by
  simp [owed, hshare, hawait]

theorem owed_of_no_share (h : ∀ i ∈ code, share x v i = 0) : owed x v k code = 0 := by
  unfold owed
  split
  · rfl
  · refine List.sum_eq_zero fun n hn => ?_
    obtain ⟨i, hi, rfl⟩ := List.mem_map.mp hn
    exact h i hi

end Owed

/-! ## The code of a request -/

/-- An instruction that hands nothing over, completes nothing and counts nothing. -/
def quiet : Instr → Bool
  | .beginProbe _ _ _ | .insertChunk _ | .commit | .updateCompleted _ | .planRetry _
  | .splitRisky _ _ | .beginRetry _ _ _ | .readMetrics _ _ | .saveMetrics _ _ => false
  | .planHandoff r => r.chunk.stage == .screening
  | _ => true

/-- A screening completion up to the counters: rows are written, the chunk is completed,
and `candidates` is what will be added. -/
inductive Completes (candidates : Option Nat) : List Instr → Prop
  | put {addr : Addr} {file : File} {code : List Instr} (h : Completes candidates code) :
      Completes candidates (.putObject addr file :: code)
  | update {r : Request} {id total : Nat} {rest : List Instr}
      (hstage : r.chunk.stage = .screening) (hrest : ∀ i ∈ rest, quiet i = true) :
      Completes candidates
        (.updateCompleted r :: .readMetrics id (.screening total candidates) :: rest)

/-- The transaction of `createProbeChunks`, and the completion after it: `m` of `n` candidates
are in rows that have been inserted. -/
inductive Hands (n : Nat) : Nat → List Instr → Prop
  | put {m : Nat} {addr : Addr} {file : File} {code : List Instr} (h : Hands n m code) :
      Hands n m (.putObject addr file :: code)
  | insert {m : Nat} {row : Chunk} {code : List Instr} (hstage : row.stage = .smtpProbe)
      (h : Hands n (m + handed row) code) : Hands n m (.insertChunk row :: code)
  | commit {code : List Instr} (h : Completes (some n) code) : Hands n n (.commit :: code)

/-- An instruction of `TempfailRetryPlanner` outside its transaction. -/
def retrying : Instr → Bool
  | .putObject _ _ | .planRetry _ | .splitRisky _ _ | .beginRetry _ _ _
  | .updateParent _ _ _ => true
  | _ => false

/-- A probe completion between the write of the chunk and the counters: `n` rows will be
added. -/
inductive Retries (n : Nat) : List Instr → Prop
  | step {i : Instr} {code : List Instr} (hi : retrying i = true) (h : Retries n code) :
      Retries n (i :: code)
  | count {id unknown : Nat} {rest : List Instr} (hrest : ∀ i ∈ rest, quiet i = true) :
      Retries n (.readMetrics id (.probe n unknown) :: rest)

/-- A row that hands nothing over. -/
def IsRetry (row : Chunk) : Prop := row.stage = .smtpProbe ∧ handed row = 0

/-- The same inside the transaction of `createRetryChunk`. -/
inductive Reinserts (n : Nat) : List Instr → Prop
  | put {addr : Addr} {file : File} {code : List Instr} (h : Reinserts n code) :
      Reinserts n (.putObject addr file :: code)
  | insert {row : Chunk} {code : List Instr} (hrow : IsRetry row) (h : Reinserts n code) :
      Reinserts n (.insertChunk row :: code)
  | commit {code : List Instr} (h : Retries n code) : Reinserts n (.commit :: code)

/-- The code process `p` has left. -/
inductive Course (p : Nat) (s : Store) : List Instr → Prop
  | quiet {code : List Instr} (h : ∀ i ∈ code, quiet i = true) : Course p s code
  | plan {r : Request} {disk : Disk} {shards : List ScreeningToProbeChunkPlanner.Shard}
      {n : Nat} {code : List Instr} (hn : (shards.map fun b => b.emails.length).sum = n)
      (h : Completes (some n) code) : Course p s (.beginProbe r disk shards :: code)
  | hand {n : Nat} {rows : List Chunk} {code : List Instr} (howns : s.txn = some ⟨p, rows⟩)
      (hrows : ∀ row ∈ rows, row.stage = .smtpProbe) (h : Hands n (handedIn rows) code) :
      Course p s code
  | complete {candidates : Option Nat} {code : List Instr} (h : Completes candidates code) :
      Course p s code
  | count {id total : Nat} {candidates : Option Nat} {rest : List Instr}
      (hrest : ∀ i ∈ rest, JobMetrics.quiet i = true) :
      Course p s (.readMetrics id (.screening total candidates) :: rest)
  | save {id : Nat} {write : MetricsWrite} {rest : List Instr}
      (hrest : ∀ i ∈ rest, JobMetrics.quiet i = true) :
      Course p s (.saveMetrics id write :: rest)
  | probe {r : Request} {code : List Instr} (hstage : r.chunk.stage = .smtpProbe)
      (h : Retries r.totalCount code) : Course p s (.updateCompleted r :: code)
  | retry {n : Nat} {code : List Instr} (h : Retries n code) : Course p s code
  | reinsert {n : Nat} {rows : List Chunk} {code : List Instr}
      (howns : s.txn = some ⟨p, rows⟩) (hrows : ∀ row ∈ rows, IsRetry row)
      (h : Reinserts n code) : Course p s code

section Shares
variable {x : Counter} {v : Nat} {k : Kind} {p : Nat} {s : Store} {i : Instr}
  {code rest : List Instr}

theorem share_of_quiet (h : quiet i = true) : share x v i = 0 := by
  cases i with
  | readMetrics => exact nomatch h
  | saveMetrics => exact nomatch h
  | _ => cases x <;> rfl

theorem awaited_of_quiet (h : quiet i = true) : awaited x i = false := by
  cases i with
  | beginProbe => exact nomatch h
  | commit => exact nomatch h
  | updateCompleted => exact nomatch h
  | _ => cases x <;> rfl

theorem owed_of_quiet (h : ∀ i ∈ code, quiet i = true) : owed x v k code = 0 :=
  owed_of_no_share fun i hi => share_of_quiet (h i hi)

/-- A counter access with quiet code behind it owes its own share. -/
theorem owed_access (hawait : awaited x i = false) (hrest : ∀ j ∈ rest, quiet j = true) :
    owed x v k (i :: rest) = share x v i := by
  have hzero : (rest.map (share x v)).sum = 0 := by
    refine List.sum_eq_zero fun n hn => ?_
    obtain ⟨j, hj, rfl⟩ := List.mem_map.mp hn
    exact share_of_quiet (hrest j hj)
  rw [owed_of_none, List.map_cons, List.sum_cons, hzero, add_zero]
  intro j hj
  rcases List.mem_cons.mp hj with rfl | hj
  · exact hawait
  · exact awaited_of_quiet (hrest j hj)

/-- The rows that a completing request has handed over, and the counter does not have. -/
def due : Counter → Option Nat → Int
  | .candidates, candidates => candidates.getD 0
  | .completed, _ => 0

theorem Completes.owed {candidates : Option Nat} (h : Completes candidates code) :
    owed x v k code = due x candidates := by
  induction h with
  | put h ih =>
      rw [owed_cons, ih]
      · cases x <;> rfl
      · cases x <;> rfl
  | update hstage hrest =>
      cases x with
      | completed => exact owed_of_awaited (.head _) rfl
      | candidates =>
          rw [owed_cons rfl rfl, owed_access rfl hrest]
          rfl

theorem Hands.owed {n m : Nat} (h : Hands n m code) : owed x v k code = 0 := by
  induction h with
  | put h ih =>
      rw [owed_cons, ih]
      · cases x <;> rfl
      · cases x <;> rfl
  | insert hstage h ih =>
      rw [owed_cons, ih]
      · cases x <;> rfl
      · cases x <;> rfl
  | commit h =>
      cases x with
      | candidates => exact owed_of_awaited (.head _) rfl
      | completed =>
          rw [owed_cons rfl rfl, h.owed]
          rfl

/-- The rows that a completed probe chunk has reported, and the counter does not have. -/
def reported : Counter → Nat → Int
  | .candidates, _ => 0
  | .completed, n => n

theorem share_of_retrying (h : retrying i = true) : share x v i = 0 := by
  cases i with
  | readMetrics => exact nomatch h
  | saveMetrics => exact nomatch h
  | _ => cases x <;> rfl

theorem owed_retrying (h : retrying i = true) : owed x v k (i :: code) = owed x v k code := by
  refine owed_cons (share_of_retrying h) ?_
  cases i with
  | beginProbe => exact nomatch h
  | commit => exact nomatch h
  | updateCompleted => exact nomatch h
  | _ => cases x <;> rfl

theorem Retries.owed {n : Nat} (h : Retries n code) : owed x v k code = reported x n := by
  induction h with
  | step hi h ih =>
      rw [owed_retrying hi, ih]
  | count hrest =>
      rw [owed_access _ hrest]
      · cases x <;> rfl
      · cases x <;> rfl

theorem Reinserts.owed {n : Nat} (h : Reinserts n code) : owed x v k code = reported x n := by
  induction h with
  | put h ih =>
      rw [owed_cons, ih]
      · cases x <;> rfl
      · cases x <;> rfl
  | insert hrow h ih =>
      rw [owed_cons, ih]
      · cases x <;> rfl
      · cases x <;> rfl
  | commit h =>
      cases x with
      | candidates => exact owed_of_awaited (.head _) rfl
      | completed =>
          rw [owed_cons rfl rfl, h.owed]

end Shares

/-! ## What is written to the counters -/

section Written
variable {php : Php} {p : Nat} {s s' : Store} {i : Instr} {n : Next Instr}

/-- An instruction that writes counters. -/
def writesCounters : Instr → Bool
  | .saveMetrics _ _ | .resetMetrics _ => true
  | _ => false

/-- **The others leave the counters alone.** -/
theorem exec_metrics (hi : writesCounters i = false) (h : exec php p i s = some (s', n)) :
    s'.metrics = s.metrics := by
  have hrollback : (s.rollback p).metrics = s.metrics := by
    unfold Store.rollback
    split <;> rfl
  cases i with
  | saveMetrics => cases hi
  | resetMetrics => cases hi
  | createChunk disk chunkNo emailCount =>
      simp only [exec, createChunk] at h
      split at h
      · cases h
        rfl
      · split at h
        · cases h
        · cases h
          rfl
  | beginProbe r disk shards =>
      obtain ⟨-, ⟨-, rfl, -⟩ | ⟨-, rfl, -⟩⟩ := beginProbe_cases h
      · rfl
      · rfl
  | insertChunk row =>
      simp only [exec, insertChunk] at h
      split at h
      · cases h
        exact hrollback
      · split at h
        · cases h
          rfl
        · cases h
          rfl
  | commit =>
      simp only [exec, commit] at h
      split at h
      · cases h
        rfl
      · cases h
        rfl
  | beginRetry chunk disk emails =>
      obtain ⟨-, rfl, -⟩ := beginRetry_cases h
      rfl
  | putObject => cases h; rfl
  | dispatchFinalize => cases h; rfl
  | updateTotals => cases h; rfl
  | failJob => cases h; rfl
  | updateCompleted => cases h; rfl
  | updateParent => cases h; rfl
  | updateFailed => cases h; rfl
  | completeJob => cases h; rfl
  | markJobFailed => cases h; rfl
  | _ =>
      obtain rfl := exec_reads rfl h
      rfl

/-- A write that follows its read at once adds its share. -/
theorem value_apply (x : Counter) (id : Nat) (write : MetricsWrite) (m : Metrics) :
    (x.value (write.apply m) : Int) = x.value m + share x (x.value m) (.saveMetrics id write) := by
  cases x <;> cases write <;> simp [Counter.value, MetricsWrite.apply, share]

/-- What is read is written with what is added. -/
theorem share_read {code : List Instr} {id : Nat} {delta : MetricsDelta} (x : Counter)
    (h : exec php p (.readMetrics id delta) s = some (s', .go code)) :
    ∃ write, code = [.saveMetrics id write] ∧
      share x (x.value s.metrics) (.saveMetrics id write) =
        share x (x.value s.metrics) (.readMetrics id delta) := by
  cases h
  refine ⟨_, rfl, ?_⟩
  cases x <;> cases delta <;> simp [Counter.value, share]
  next total candidates => cases candidates <;> simp

end Written

/-! ## One instruction -/

/-- After instruction `i` the process is on its course, and what was brought into account has
been added or is owed. -/
structure Advances (p : Nat) (s s' : Store) (i : Instr) (rest code : List Instr) : Prop where
  course : Course p s' (code ++ rest)
  balance : ∀ x k, (x.value s'.metrics : Int) + owed x (x.value s'.metrics) k (code ++ rest) =
    x.value s.metrics + owed x (x.value s.metrics) k (i :: rest) + event x s i

section Advance
variable {php : Php} {p : Nat} {s s' : Store} {i j : Instr} {rest code : List Instr}

/-- An instruction that leaves the counters alone. -/
theorem Advances.of_owed (hm : s'.metrics = s.metrics) (hcourse : Course p s' (code ++ rest))
    (howed : ∀ x v k, owed x v k (code ++ rest) = owed x v k (i :: rest) + event x s i) :
    Advances p s s' i rest code where
  course := hcourse
  balance := by
    intro x k
    rw [hm, howed, add_assoc]

theorem event_of_awaited (h : ∀ x, awaited x i = false) (x : Counter) : event x s i = 0 := by
  cases i with
  | commit => exact nomatch h .candidates
  | updateCompleted => exact nomatch h .completed
  | _ => cases x <;> rfl

/-- Quiet code stays quiet, until a completion is loaded or planned. -/
theorem quiet_leads (h : Leads s i j) (hi : quiet i = true)
    (hload : ∀ id payload, i ≠ .loadCompletion id payload)
    (hplan : ∀ r, i ≠ .planHandoff r) : quiet j = true := by
  cases h with
  | handoff => exact absurd rfl (hload _ _)
  | update => exact absurd rfl (hload _ _)
  | metrics => exact absurd rfl (hload _ _)
  | retry => exact absurd rfl (hload _ _)
  | handoffUpdate => exact absurd rfl (hplan _)
  | handoffMetrics => exact absurd rfl (hplan _)
  | beginProbe => exact absurd rfl (hplan _)
  | insertProbe => exact nomatch hi
  | insertRetry => exact nomatch hi
  | commitProbe => exact nomatch hi
  | commitRetry => exact nomatch hi
  | split => exact nomatch hi
  | beginRetry => exact nomatch hi
  | saveMetrics => exact nomatch hi
  | _ => rfl

theorem quiet_append (hcode : ∀ i ∈ code, quiet i = true) (hrest : ∀ i ∈ rest, quiet i = true) :
    ∀ i ∈ code ++ rest, quiet i = true := by
  intro i hi
  rcases List.mem_append.mp hi with hi | hi
  · exact hcode i hi
  · exact hrest i hi

theorem completes_finishScreening {r : Request} (candidates : Option Nat)
    (hstage : r.chunk.stage = .screening) (hrest : ∀ i ∈ rest, quiet i = true) :
    Completes candidates (finishScreening r candidates ++ rest) := by
  refine .update hstage fun i hi => ?_
  rcases List.mem_cons.mp hi with rfl | hi
  · rfl
  · exact hrest i hi

/-- The shards of a plan hold its candidates. -/
theorem shards_total (php : Php) (σ : Settings) (s : Store) (r : Request) (disk : Disk) :
    ((ScreeningToProbeChunkPlanner.buildProbeShards σ (classification php s r disk).candidates).map
      fun b => b.emails.length).sum = (classification php s r disk).candidates.length := by
  have hperm := ScreeningToProbeChunkPlanner.buildProbeShards_emails σ
    (ScreeningToProbeChunkPlanner.nodup_candidates php s.settings.screeningHardInvalidReasons
      (outputFiles s r disk))
  have hlength := hperm.length_eq
  rw [List.length_flatMap, List.length_map] at hlength
  exact hlength

/-- **A completion is loaded**: nothing is owed yet. -/
theorem advances_load {id : Nat} {payload : Payload} (hrest : ∀ i ∈ rest, quiet i = true)
    (h : exec php p (.loadCompletion id payload) s = some (s', .go code)) :
    Advances p s s' (.loadCompletion id payload) rest code := by
  have hbefore : ∀ x v k, owed x v k (.loadCompletion id payload :: rest) = 0 := by
    intro x v k
    exact owed_of_quiet (List.forall_mem_cons.mpr ⟨rfl, hrest⟩)
  have hm := exec_metrics rfl h
  obtain ⟨-, hn | hn | ⟨chunk, -, -, ⟨hstage, -, hn⟩ | ⟨hstage, -, hn⟩ | ⟨hstage, hn⟩⟩⟩ :=
    loadCompletion_cases h
  · exact nomatch hn
  · cases hn
    refine .of_owed hm (.quiet hrest) fun x v k => ?_
    rw [hbefore, List.nil_append, owed_of_quiet hrest]
    cases x <;> rfl
  · cases hn
    have hquiet : ∀ i ∈ Instr.planHandoff ⟨chunk, payload⟩ :: rest, quiet i = true :=
      List.forall_mem_cons.mpr ⟨by simp [quiet, hstage], hrest⟩
    refine .of_owed hm (.quiet hquiet) fun x v k => ?_
    rw [hbefore, List.singleton_append, owed_of_quiet hquiet]
    cases x <;> rfl
  · cases hn
    have hcompletes := completes_finishScreening (r := ⟨chunk, payload⟩) none hstage hrest
    refine .of_owed hm (.complete hcompletes) fun x v k => ?_
    rw [hbefore, hcompletes.owed]
    cases x <;> rfl
  · cases hn
    have hretries : Retries (Request.totalCount ⟨chunk, payload⟩)
        (.planRetry ⟨chunk, payload⟩ :: .readMetrics chunk.id (.probe
          (Request.totalCount ⟨chunk, payload⟩)
          ((Request.completed ⟨chunk, payload⟩).counts.risky.getD 0)) ::
          .dispatchFinalize :: rest) :=
      .step rfl (.count (List.forall_mem_cons.mpr ⟨rfl, hrest⟩))
    refine .of_owed hm (.probe hstage hretries) fun x v k => ?_
    rw [hbefore]
    cases x with
    | candidates => exact (owed_cons rfl rfl).trans hretries.owed
    | completed => exact owed_of_awaited (.head _) rfl

/-- **The handover is planned**: the plan's shards hold what will be added. -/
theorem advances_plan {r : Request} (hstage : r.chunk.stage = .screening)
    (hrest : ∀ i ∈ rest, quiet i = true)
    (h : exec php p (.planHandoff r) s = some (s', .go code)) :
    Advances p s s' (.planHandoff r) rest code := by
  have hbefore : ∀ x v k, owed x v k (.planHandoff r :: rest) = 0 := by
    intro x v k
    exact owed_of_quiet (List.forall_mem_cons.mpr ⟨by simp [quiet, hstage], hrest⟩)
  have hm := exec_metrics rfl h
  obtain ⟨-, hn | ⟨disk, -, ⟨-, hn⟩ | ⟨-, hn⟩⟩⟩ := planHandoff_cases h
  · exact nomatch hn
  · cases hn
    have hcompletes := completes_finishScreening (some 0) hstage hrest
    refine .of_owed hm (.complete hcompletes) fun x v k => ?_
    rw [hbefore, hcompletes.owed]
    cases x <;> rfl
  · cases hn
    have hcompletes := completes_finishScreening
      (some (classification php s r disk).candidates.length) hstage hrest
    refine .of_owed hm ?_ fun x v k => ?_
    · rw [List.append_assoc]
      exact .plan (shards_total php s.settings s r disk) (.put (.put (.put hcompletes)))
    · rw [hbefore, List.append_assoc]
      cases x with
      | candidates => exact owed_of_awaited (.head _) rfl
      | completed =>
          refine (owed_cons rfl rfl).trans ?_
          exact (Completes.put (Completes.put (Completes.put hcompletes))).owed

/-- **A quiet instruction** leaves quiet code, or a course that owes nothing. -/
theorem advances_quiet (hquiet : ∀ j ∈ i :: rest, quiet j = true)
    (hreset : ∀ total, i = .resetMetrics total → ∀ x : Counter, x.value s.metrics = 0)
    (h : exec php p i s = some (s', .go code)) : Advances p s s' i rest code := by
  obtain ⟨hi, hrest⟩ := List.forall_mem_cons.mp hquiet
  by_cases hload : ∃ id payload, i = .loadCompletion id payload
  · obtain ⟨id, payload, rfl⟩ := hload
    exact advances_load hrest h
  by_cases hplan : ∃ r, i = .planHandoff r
  · obtain ⟨r, rfl⟩ := hplan
    exact advances_plan (by simpa [quiet] using hi) hrest h
  have hcode : ∀ j ∈ code ++ rest, quiet j = true := by
    refine quiet_append (fun j hj => ?_) hrest
    exact quiet_leads (exec_leads h j hj) hi (fun id payload heq => hload ⟨id, payload, heq⟩)
      fun r heq => hplan ⟨r, heq⟩
  have hevent : ∀ x, event x s i = 0 :=
    event_of_awaited fun x => awaited_of_quiet hi
  refine ⟨.quiet hcode, fun x k => ?_⟩
  rw [owed_of_quiet hcode, owed_of_quiet hquiet, hevent]
  have hvalue : x.value s'.metrics = x.value s.metrics := by
    by_cases hr : ∃ total, i = .resetMetrics total
    · obtain ⟨total, rfl⟩ := hr
      cases h
      rw [hreset total rfl x]
      cases x <;> rfl
    · rw [exec_metrics ?_ h]
      cases i with
      | saveMetrics => exact nomatch hi
      | resetMetrics total => exact absurd ⟨total, rfl⟩ hr
      | _ => rfl
  rw [hvalue]
  rfl

/-! ### Screening completions -/

theorem handedIn_append (rows : List Chunk) (row : Chunk) :
    handedIn (rows ++ [row]) = handedIn rows + handed row := by
  simp [handedIn]

/-- The transaction of a plan inserts what its shards hold. -/
theorem hands_insertShards {parent group attempts now n : Nat} {disk : Disk}
    (h : Completes (some n) rest) {shards : List ScreeningToProbeChunkPlanner.Shard} :
    ∀ {id chunkNo m : Nat}, m + (shards.map fun b => b.emails.length).sum = n →
      Hands n m (insertShards parent group disk attempts now id chunkNo shards ++
        .commit :: rest) := by
  induction shards with
  | nil =>
      rintro id chunkNo m rfl
      exact .commit h
  | cons shard shards ih =>
      intro id chunkNo m hm
      rw [List.map_cons, List.sum_cons] at hm
      unfold insertShards
      split
      next hnil =>
        refine ih ?_
        rw [hnil, List.length_nil, Nat.zero_add] at hm
        exact hm
      next =>
        refine .put (.insert rfl (ih ?_))
        rw [← hm, ← Nat.add_assoc]
        rfl

theorem advances_begin {r : Request} {disk : Disk}
    {shards : List ScreeningToProbeChunkPlanner.Shard} {n : Nat}
    (hn : (shards.map fun b => b.emails.length).sum = n) (hcompletes : Completes (some n) rest)
    (hnone : hasProbeChunks s r.chunk.id = false)
    (h : exec php p (.beginProbe r disk shards) s = some (s', .go code)) :
    Advances p s s' (.beginProbe r disk shards) rest code := by
  have hm := exec_metrics rfl h
  obtain ⟨-, ⟨hhas, -, -⟩ | ⟨-, rfl, hcode⟩⟩ := beginProbe_cases h
  · rw [hnone] at hhas
    exact nomatch hhas
  · cases hcode
    have hhands : Hands n 0 (insertShards r.chunk.id (s.nextId + shards.length) disk
        s.settings.probeAttempts s.now s.nextId (s.maxChunkNo + 1) shards ++ .commit :: rest) :=
      hands_insertShards hcompletes (by rw [hn, Nat.zero_add])
    refine .of_owed hm ?_ fun x v k => ?_
    · rw [List.append_assoc]
      exact .hand rfl (List.forall_mem_nil _) hhands
    · rw [List.append_assoc, List.singleton_append, hhands.owed]
      cases x with
      | candidates =>
          rw [owed_of_awaited (.head _) rfl]
          rfl
      | completed =>
          rw [owed_cons rfl rfl, hcompletes.owed]
          rfl

theorem advances_hand {n : Nat} {rows : List Chunk} (howns : s.txn = some ⟨p, rows⟩)
    (hrows : ∀ row ∈ rows, row.stage = .smtpProbe) (hhands : Hands n (handedIn rows) (i :: rest))
    (h : exec php p i s = some (s', .go code)) : Advances p s s' i rest code := by
  have hbefore : ∀ {x v k}, owed x v k (i :: rest) = 0 := fun {_ _ _} => hhands.owed
  cases hhands with
  | put hrest =>
      cases h
      refine .of_owed rfl (.hand howns hrows hrest) fun x v k => ?_
      rw [hbefore, List.nil_append, hrest.owed]
      cases x <;> rfl
  | @insert _ row _ hstage hrest =>
      have hm := exec_metrics rfl h
      simp only [exec, insertChunk, howns] at h
      split at h
      · cases h
      · cases h
        refine .of_owed hm (.hand rfl ?_ ((handedIn_append rows row).symm ▸ hrest)) fun x v k => ?_
        · exact List.forall_mem_append.mpr ⟨hrows, List.forall_mem_singleton.mpr hstage⟩
        · rw [hbefore, List.nil_append, hrest.owed]
          cases x <;> rfl
  | commit hrest =>
      have hm := exec_metrics rfl h
      simp only [exec, commit, howns] at h
      cases h
      refine .of_owed hm (.complete hrest) fun x v k => ?_
      rw [hbefore, List.nil_append, hrest.owed]
      cases x with
      | completed => rfl
      | candidates => simp [due, event, stagedRows, howns]

theorem advances_complete {candidates : Option Nat} (hcompletes : Completes candidates (i :: rest))
    (h : exec php p i s = some (s', .go code)) : Advances p s s' i rest code := by
  have hbefore : ∀ {x v k}, owed x v k (i :: rest) = due x candidates :=
    fun {_ _ _} => hcompletes.owed
  cases hcompletes with
  | put hrest =>
      cases h
      refine .of_owed rfl (.complete hrest) fun x v k => ?_
      rw [hbefore, List.nil_append, hrest.owed]
      cases x <;> simp [event]
  | update hstage hrest =>
      cases h
      refine .of_owed rfl (.count hrest) fun x v k => ?_
      rw [hbefore, List.nil_append, owed_access _ hrest]
      · cases x with
        | candidates => simp [share, due, event]
        | completed => simp [share, due, event, hstage]
      · cases x <;> rfl

/-! ### The counters themselves -/

theorem advances_read {id : Nat} {delta : MetricsDelta} (hrest : ∀ j ∈ rest, quiet j = true)
    (h : exec php p (.readMetrics id delta) s = some (s', .go code)) :
    Advances p s s' (.readMetrics id delta) rest code := by
  have hs := exec_reads rfl h
  have hshare := fun x => share_read x h
  obtain ⟨write, rfl, -⟩ := share_read .candidates h
  refine ⟨.save hrest, fun x k => ?_⟩
  obtain ⟨write', hwrite, heq⟩ := hshare x
  cases hwrite
  rw [hs, List.singleton_append, owed_access _ hrest, owed_access _ hrest, heq]
  · cases x <;> simp [event]
  · cases x <;> rfl
  · cases x <;> rfl

theorem advances_save {id : Nat} {write : MetricsWrite} (hrest : ∀ j ∈ rest, quiet j = true)
    (h : exec php p (.saveMetrics id write) s = some (s', .go code)) :
    Advances p s s' (.saveMetrics id write) rest code := by
  cases h
  refine ⟨.quiet hrest, fun x k => ?_⟩
  rw [List.nil_append, owed_of_quiet hrest, owed_access _ hrest]
  · have hvalue := value_apply x id write s.metrics
    simp only [hvalue]
    cases x <;> simp [event]
  · cases x <;> rfl

/-! ### Probe completions -/

theorem advances_probe {r : Request} (hstage : r.chunk.stage = .smtpProbe)
    (hlive : (s.findChunk r.chunk.id).any (fun row => decide (Live row)) = true)
    (hretries : Retries r.totalCount rest)
    (h : exec php p (.updateCompleted r) s = some (s', .go code)) :
    Advances p s s' (.updateCompleted r) rest code := by
  cases h
  refine .of_owed rfl (.retry hretries) fun x v k => ?_
  rw [List.nil_append, hretries.owed]
  cases x with
  | candidates =>
      rw [owed_cons rfl rfl, hretries.owed]
      rfl
  | completed =>
      rw [owed_of_awaited (.head _) rfl]
      simp [reported, event, hstage, hlive]

/-- What a retry goes on with. -/
theorem retries_leads {n : Nat} (hi : retrying i = true) (hbegin : ¬ Begins i)
    (hretries : Retries n rest) (h : exec php p i s = some (s', .go code)) :
    Retries n (code ++ rest) := by
  have hcode : ∀ j ∈ code, retrying j = true := by
    intro j hj
    cases exec_leads h j hj with
    | put => rfl
    | split => rfl
    | beginRetry => rfl
    | updateParent => rfl
    | insertRetry => exact absurd (.retry _ _ _) hbegin
    | commitRetry => exact absurd (.retry _ _ _) hbegin
    | _ => exact nomatch hi
  clear h
  induction code with
  | nil => exact hretries
  | cons j code ih =>
      exact .step (hcode j (.head _)) (ih fun j hj => hcode j (.tail _ hj))

theorem isRetry_retryRow (s : Store) (chunk : Chunk) (disk : Disk) (emails : List Text) :
    IsRetry (retryRow s chunk disk emails) := ⟨rfl, rfl⟩

theorem advances_retry {n : Nat} (hretries : Retries n (i :: rest))
    (h : exec php p i s = some (s', .go code)) : Advances p s s' i rest code := by
  cases hretries with
  | count hrest => exact advances_read hrest h
  | step hi hrest =>
      have hwrites : writesCounters i = false := by
        cases i with
        | saveMetrics => exact nomatch hi
        | resetMetrics => exact nomatch hi
        | _ => rfl
      have hevent : ∀ x, event x s i = 0 := by
        intro x
        cases i with
        | commit => exact nomatch hi
        | updateCompleted => exact nomatch hi
        | _ => cases x <;> rfl
      by_cases hbegin : Begins i
      · cases hbegin with
        | probe => exact nomatch hi
        | retry chunk disk emails =>
            have hm := exec_metrics rfl h
            obtain ⟨-, rfl, hcode⟩ := beginRetry_cases h
            cases hcode
            have hin : Reinserts n ([.putObject (chunk.inputDisk.getD disk,
                .chunkInput (s.maxChunkNo + 1)) (inputFile emails),
                .insertChunk (retryRow s chunk disk emails), .commit] ++ rest) :=
              .put (.insert (isRetry_retryRow _ _ _ _) (.commit hrest))
            refine .of_owed hm (.reinsert rfl (List.forall_mem_nil _) hin) fun x v k => ?_
            rw [hin.owed, owed_retrying hi, hrest.owed, hevent]
            simp
      · have hnext := retries_leads hi hbegin hrest h
        refine .of_owed (exec_metrics hwrites h) (.retry hnext) fun x v k => ?_
        rw [hnext.owed, owed_retrying hi, hrest.owed, hevent]
        simp

theorem advances_reinsert {n : Nat} {rows : List Chunk} (howns : s.txn = some ⟨p, rows⟩)
    (hrows : ∀ row ∈ rows, IsRetry row) (hin : Reinserts n (i :: rest))
    (h : exec php p i s = some (s', .go code)) : Advances p s s' i rest code := by
  have hbefore : ∀ {x v k}, owed x v k (i :: rest) = reported x n := fun {_ _ _} => hin.owed
  cases hin with
  | put hrest =>
      cases h
      refine .of_owed rfl (.reinsert howns hrows hrest) fun x v k => ?_
      rw [hbefore, List.nil_append, hrest.owed]
      cases x <;> simp [event]
  | @insert row _ hrow hrest =>
      have hm := exec_metrics rfl h
      simp only [exec, insertChunk, howns] at h
      split at h
      · cases h
      · cases h
        refine .of_owed hm (.reinsert rfl ?_ hrest) fun x v k => ?_
        · exact List.forall_mem_append.mpr ⟨hrows, List.forall_mem_singleton.mpr hrow⟩
        · rw [hbefore, List.nil_append, hrest.owed]
          cases x <;> simp [event]
  | commit hrest =>
      have hm := exec_metrics rfl h
      have hnothing : handedIn rows = 0 := by
        refine List.sum_eq_zero fun m hmem => ?_
        obtain ⟨row, hrow, rfl⟩ := List.mem_map.mp hmem
        exact (hrows row hrow).2
      simp only [exec, commit, howns] at h
      cases h
      refine .of_owed hm (.retry hrest) fun x v k => ?_
      rw [hbefore, List.nil_append, hrest.owed]
      cases x <;> simp [event, stagedRows, howns, hnothing]

/-! ### Every course -/

/-- What is asked of an instruction: a plan is the first of its chunk, a completion is written to
a live chunk, and the counters are reset before anything has been added. -/
structure Accountable (s : Store) (i : Instr) : Prop where
  first : ∀ r disk shards, i = .beginProbe r disk shards → hasProbeChunks s r.chunk.id = false
  live : ∀ r, i = .updateCompleted r →
    (s.findChunk r.chunk.id).any (fun row => decide (Live row)) = true
  reset : ∀ total, i = .resetMetrics total → ∀ x : Counter, x.value s.metrics = 0

/-- **A counter grows by what is brought into account**, or its process owes it. -/
theorem Course.advances (hcourse : Course p s (i :: rest)) (haccount : Accountable s i)
    (h : exec php p i s = some (s', .go code)) : Advances p s s' i rest code := by
  cases hcourse with
  | quiet hquiet => exact advances_quiet hquiet haccount.reset h
  | plan hn hcompletes => exact advances_begin hn hcompletes (haccount.first _ _ _ rfl) h
  | hand howns hrows hhands => exact advances_hand howns hrows hhands h
  | complete hcompletes => exact advances_complete hcompletes h
  | count hrest => exact advances_read hrest h
  | save hrest => exact advances_save hrest h
  | probe hstage hretries => exact advances_probe hstage (haccount.live _ rfl) hretries h
  | retry hretries => exact advances_retry hretries h
  | reinsert howns hrows hin => exact advances_reinsert howns hrows hin h

/-- A process stays on its course while others keep off its transaction. -/
theorem Course.of_txn (h : Course p s code)
    (htxn : ∀ {rows : List Chunk}, s.txn = some ⟨p, rows⟩ → s'.txn = s.txn) : Course p s' code := by
  cases h with
  | quiet hquiet => exact .quiet hquiet
  | plan hn hcompletes => exact .plan hn hcompletes
  | hand howns hrows hhands => exact .hand ((htxn howns).trans howns) hrows hhands
  | complete hcompletes => exact .complete hcompletes
  | count hrest => exact .count hrest
  | save hrest => exact .save hrest
  | probe hstage hretries => exact .probe hstage hretries
  | retry hretries => exact .retry hretries
  | reinsert howns hrows hin => exact .reinsert ((htxn howns).trans howns) hrows hin

end Advance

end ValidEmailVerifier.JobMetrics
