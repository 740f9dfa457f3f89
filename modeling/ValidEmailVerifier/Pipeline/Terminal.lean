/-
# `Pipeline.Terminal` — a job that is completed or failed

Two laws about the end of a job.

* The claim query reads the columns of a chunk and never those of its job, so a
  terminal job is safe from workers only because it has nothing to hand out: it
  was settled when its status was written, and a settled job stays settled
  (`Pipeline.Finality`).  `settledWhenEnding` asks this of every step that ends
  the job.
* Whoever wants to write the job loads it first and is turned away by a failed
  job, and by a completed one with its three final keys.  Once such a job is
  quiet, with nobody left who loaded it before, its row never changes again.
-/
import ValidEmailVerifier.Pipeline.Console
import ValidEmailVerifier.Pipeline.Numbering

namespace ValidEmailVerifier.Console

open Processes

/-! ## Steps that end the job -/

/-- The job is completed or failed. -/
def terminal (job : Job) : Bool := job.status == .completed || job.status == .failed

/-- The instructions that write a terminal status. -/
def ends : Instr → Bool
  | .failJob _ _ | .completeJob _ _ _ | .markJobFailed _ _ => true
  | _ => false

/-- The changes to a terminal status. -/
def JobChange.ends : JobChange → Bool
  | .failed _ | .complete _ | .markFailed _ | .cancel _ _ | .enqueueFailed
  | .finalizationFailed => true
  | _ => false

def Statement.ends : Statement → Bool
  | .save _ change => change.ends
  | _ => false

/-- The requeue of one chunk. -/
def Statement.requeues : Statement → Bool
  | .saveChunk _ .requeue => true
  | _ => false

/-- The step writes a terminal status. -/
def endsJob (d : Desk) : Event → Bool
  | .core a => (nextInstr d.store a).any Console.ends
  | .exec n => (nextStatement d n).any Statement.ends
  | _ => false

/-- Every chunk is finished, and no process behind a status check can leave one
unfinished. -/
def settledNow (c : State) : Bool :=
  c.store.chunks.all (fun chunk => chunk.status == .completed || chunk.status == .failed) &&
    !ahead c stray

/-- Whoever ends the job finds it settled, and nobody requeues a chunk of a job that
has ended. -/
def settledWhenEnding (d : Desk) (e : Event) : Bool :=
  match e with
  | .requeueFailed => !terminal d.job || d.store.store.chunks.all fun chunk => !isFailed chunk
  | .requeueStuck =>
      !terminal d.job ||
        d.store.store.chunks.all fun chunk => !isStuck d.store.store.now chunk
  | .exec n =>
      if terminal d.job then !(nextStatement d n).any Statement.requeues
      else !endsJob d (.exec n) || settledNow d.store
  | e => terminal d.job || !endsJob d e || settledNow d.store

theorem settled_of_settledNow {c : State} (h : settledNow c = true) : Settled c := by
  rw [settledNow, Bool.and_eq_true, Bool.not_eq_true'] at h
  refine ⟨?_, fun hat => ahead_eq_false h.2 hat⟩
  intro chunk hmem
  simpa [Finished] using List.all_eq_true.mp h.1 chunk hmem

section Ending
variable {php : Php} {d d' : Desk}

theorem terminal_of_status {job job' : Job} (h : job'.status = job.status) :
    terminal job' = terminal job := by
  rw [terminal, terminal, h]

/-- A step of the pipeline that makes the job terminal writes a terminal status. -/
theorem ends_of_act {c c' : State} {a : Action} (h : act php c a = some c')
    (hbefore : terminal c.store.job = false) (hafter : terminal c'.store.job = true) :
    (nextInstr c a).any Console.ends = true := by
  have hsame : ∀ {s : Store}, s.job.status = c.store.job.status →
      terminal s.job = true → False := by
    intro s hst hs
    rw [terminal_of_status hst, hbefore] at hs
    exact nomatch hs
  cases act_cases h with
  | @exec p k i rest s' n hat hexec =>
      rw [nextInstr_exec hat]
      rcases (exec_frame hexec).job with hjob | ⟨model, filled, hw, hjob⟩
      · exact (hsame (congrArg Job.status hjob) hafter).elim
      · cases hw with
        | totals job totals =>
            have hstatus : s'.job.status = c.store.job.status :=
              (congrArg Job.status hjob).trans (dirty_clean _ _)
            exact (hsame hstatus hafter).elim
        | failJob => rfl
        | completed => rfl
        | failed => rfl
  | throw hat => exact (hsame (congrArg Job.status (Store.rollback_job _)) hafter).elim
  | kill hat => exact (hsame (congrArg Job.status (Store.rollback_job _)) hafter).elim
  | _ => exact (hsame rfl hafter).elim

/-- A statement that makes the job terminal writes a terminal status. -/
theorem ends_of_effect {i : Statement} {s : Store} (hbefore : terminal s.job = false)
    (hafter : terminal (i.effect s).job = true) : i.ends = true := by
  cases i with
  | save model change =>
      by_contra hne
      have hkeep : ∀ {status : JobStatus}, status = .pending ∨ status = .processing →
          (filled s model change).status = status → False := by
        intro status hstatus hfilled
        have hjob : (Statement.effect (.save model change) s).job.status =
            dirty model.status status s.job.status := by
          rw [← hfilled]
          rfl
        rw [terminal, hjob, dirty] at hafter
        split at hafter
        · rw [terminal] at hbefore
          rw [hbefore] at hafter
          cases hafter
        · rcases hstatus with rfl | rfl <;> cases hafter
      cases change with
      | processing => exact hkeep (.inr rfl) rfl
      | retry => exact hkeep (.inl rfl) rfl
      | reopen => exact hkeep (.inl rfl) rfl
      | prepare => exact hkeep (.inr rfl) rfl
      | _ => exact hne rfl
  | _ => cases hbefore.symm.trans hafter

theorem requeues_of_ends {i : Statement} (h : i.ends = true) : i.requeues = false := by
  cases i with
  | save => rfl
  | _ => exact nomatch h

/-- A settled job stays settled in a step after which it is terminal: a parse is
started on a processing job only. -/
theorem settled_act {c c' : State} {a : Action} (h : Settled c) (hs : act php c a = some c')
    (hafter : terminal c'.store.job = true) : Settled c' := by
  refine settled_step h ?_ hs
  rintro lookups rfl
  cases act_cases hs with
  | startParse hprocessing hidle =>
      have hstatus : terminal c.store.job = true := hafter
      rw [terminal, hprocessing] at hstatus
      exact nomatch hstatus

theorem finished_markFailed {model row : Chunk} (h : Finished row) :
    Finished (Chunk.update model (filledChunk model .markFailed) row) := by
  have hstatus : (Chunk.update model (filledChunk model .markFailed) row).status =
      dirty model.status .failed row.status := rfl
  unfold Finished
  rw [hstatus, dirty]
  split
  · exact h
  · exact .inr rfl

theorem chunksFinished_effect {i : Statement} {s : Store} (h : ChunksFinished s)
    (hi : i.requeues = false) : ChunksFinished (i.effect s) := by
  cases i with
  | deleteChunks => exact fun chunk hmem => nomatch hmem
  | saveChunk model change =>
      cases change with
      | requeue => exact nomatch hi
      | markFailed =>
          exact Table.update_forall h fun row _ _ hrow => finished_markFailed hrow
  | _ => exact h

/-- A requeue that selects nothing changes nothing. -/
theorem requeue_none {select : Chunk → Bool} {s : Store}
    (h : ∀ chunk ∈ s.chunks, select chunk = false) : (requeue select s).chunks = s.chunks := by
  refine (List.map_congr_left ?_).trans (List.map_id _)
  intro chunk hmem
  rw [h chunk hmem]
  rfl

/-- A terminal job is settled. -/
def TerminalSettled (d : Desk) : Prop := terminal d.job = true → Settled d.store

/-- **A job that was settled when it ended is settled as long as it is terminal.** -/
theorem terminalSettled_step {e : Event} (h : TerminalSettled d)
    (hcond : settledWhenEnding d e = true) (hs : step php d e = some d') :
    TerminalSettled d' := by
  intro hafter
  cases step_cases hs with
  | @core a c hact =>
      have hc : terminal c.store.job = true := by
        rw [Desk.job, coreStep_store] at hafter
        exact hafter
      rw [coreStep_store]
      refine settled_act ?_ hact hc
      cases hbefore : terminal d.store.store.job with
      | true => exact h hbefore
      | false =>
          have hends := ends_of_act hact hbefore hc
          refine settled_of_settledNow ?_
          simpa [settledWhenEnding, endsJob, Desk.job, hbefore, hends] using hcond
  | request hallowed => exact h hafter
  | requestChunk hfind hopen => exact h hafter
  | finalize hopen => exact outline_withStore (h hafter) (h hafter).store fun _ hJ => hJ
  | leave n => exact h hafter
  | @exec n i rest hat =>
      have hnext : nextStatement d n = some i := nextStatement_exec hat
      have hboth : Settled d.store ∧ i.requeues = false := by
        cases hbefore : terminal d.store.store.job with
        | true =>
            refine ⟨h hbefore, ?_⟩
            simpa [settledWhenEnding, Desk.job, hbefore, hnext] using hcond
        | false =>
            have hends : i.ends = true := ends_of_effect hbefore hafter
            refine ⟨settled_of_settledNow ?_, requeues_of_ends hends⟩
            simpa [settledWhenEnding, endsJob, Desk.job, hbefore, hnext, hends] using hcond
      exact outline_withStore hboth.1 (chunksFinished_effect hboth.1.store hboth.2)
        fun _ hJ => hJ
  | claimJob hpending => exact nomatch hafter
  | requeue select he =>
      have hsettled : Settled d.store := h hafter
      have hterminal : terminal d.job = true := hafter
      refine outline_withStore hsettled ?_ fun _ hJ => hJ
      have hnone : ∀ chunk ∈ d.store.store.chunks, select chunk = false := by
        rcases he with ⟨rfl, rfl⟩ | ⟨rfl, rfl⟩
        all_goals
          simp only [settledWhenEnding, hterminal, Bool.not_true, Bool.false_or,
            List.all_eq_true, Bool.not_eq_true'] at hcond
          exact hcond
      intro chunk hmem
      rw [requeue_none hnone] at hmem
      exact hsettled.store chunk hmem

end Ending

/-! ## No chunk of a terminal job is leased -/

/-- Claim-next hands out no chunk of a completed or failed job. -/
def TerminalNotLeased (php : Php) (d : Desk) : Prop :=
  ∀ id capability engineServer worker leaseSeconds verdicts,
    (step php d (.core (.claim id capability engineServer worker leaseSeconds
      verdicts))).isSome = true → terminal d.job = false

/-- **No chunk of a terminal job is leased**, in every run in which the job is settled
when it ends and no chunk is requeued after that. -/
theorem terminalNotLeased_of_settledWhenEnding {php : Php} {d₀ d : Desk}
    (h₀ : Untouched d₀.store)
    (h : (console php).Reaches (fun d e => settledWhenEnding d e = true) d₀ d) :
    TerminalNotLeased php d := by
  have hinit : TerminalSettled d₀ := by
    intro _
    refine outline_idle h₀.procs ?_
    intro chunk hmem
    rw [h₀.chunks] at hmem
    cases hmem
  have hsettled : TerminalSettled d := h.invariant hinit fun _ _ _ => terminalSettled_step
  intro id capability engineServer worker leaseSeconds verdicts hleased
  by_contra hterminal
  rw [Bool.not_eq_false] at hterminal
  obtain ⟨d', hstep⟩ := Option.isSome_iff_exists.mp hleased
  cases step_cases hstep with
  | core hact =>
      cases act_cases hact with
      | claim hfind hpaused hcand =>
          simp only [ClaimNext.isCandidate, Bool.and_eq_true, beq_iff_eq] at hcand
          exact (hsettled hterminal).store.find hfind (.inl hcand.1.1.1.1)
  | requeue select he => rcases he with ⟨he, -⟩ | ⟨he, -⟩ <;> cases he

theorem terminalNotLeased_finalized :
    ∃ d, (console samplePhp).Reaches (fun d e => settledWhenEnding d e = true)
        (sampleDesk {} ["a@b.co"]) d ∧
      terminal d.job = true ∧ TerminalNotLeased samplePhp d := by
  have hrun : ((console samplePhp).runIf (fun d e => settledWhenEnding d e = true)
      (sampleDesk {} ["a@b.co"]) (finalizedSchedule.map .core)).any
        (fun d => terminal d.job) = true := by
    decide
  obtain ⟨d, hreach, hterminal⟩ := Transition.System.exists_reaches hrun
  exact ⟨d, hreach, hterminal,
    terminalNotLeased_of_settledWhenEnding ⟨rfl, rfl, rfl, rfl⟩ hreach⟩

/-- A parse writes its first chunk and throws at the second. -/
def brokenParseSchedule : List Action := .startParse [] :: turns 0 2 ++ [.throw 0, .exec 0]

/-- The first chunk of the failed job is leased. -/
theorem brokenParse_leased :
    ∃ d, (console samplePhp).Reaches Transition.Always
        (sampleDesk singleSettings ["a@b.co", "d@e.co"]) d ∧
      d.job.status = .failed ∧ ¬ TerminalNotLeased samplePhp d := by
  have hrun : ((console samplePhp).run (sampleDesk singleSettings ["a@b.co", "d@e.co"])
      (brokenParseSchedule.map .core)).any (fun d => d.job.status == .failed &&
        (step samplePhp d (.core (claimBy 0 [] .valid ""))).isSome) = true := by
    decide
  obtain ⟨d, hreach, htest⟩ := Transition.System.exists_reaches_always hrun
  rw [Bool.and_eq_true, beq_iff_eq] at htest
  refine ⟨d, hreach, htest.1, fun h => ?_⟩
  have hopen := h _ _ _ _ _ _ htest.2
  rw [terminal, htest.1] at hopen
  exact nomatch hopen

/-! ## A closed job turns its writers away -/

/-- A failed job, or a completed one with its three final keys. -/
def closed (job : Job) : Bool :=
  job.status == .failed ||
    (job.status == .completed && FinalizeVerificationJob.hasFinalKeys job)

/-- The instructions that write the job, or have it loaded to decide on a write. -/
def jobInstr : Instr → Bool
  | .updateTotals _ _ | .failJob _ _ | .loadChunks _ _ | .merge _ _ _ | .completeJob _ _ _
  | .markJobFailed _ _ => true
  | _ => false

/-- A statement that writes the job. -/
def Statement.savesJob : Statement → Bool
  | .save _ _ => true
  | _ => false

/-- Nobody who loaded the job has something left to do. -/
def quiet (d : Desk) : Bool :=
  !running d.store isParse && !running d.store isFinalize &&
    d.procs.all fun q => q.code.all fun i => !i.savesJob

/-- The step is not an admin who fails, retries or reopens the job. -/
def unforced : Event → Bool
  | .request change =>
      match change with
      | .markFailed _ | .retry | .reopen => false
      | _ => true
  | _ => true

/-- The step is one of the pipeline, or of a call of the job status and job completion
endpoints. -/
def apiOnly : Event → Bool
  | .core _ | .exec _ | .leave _ => true
  | .request change =>
      match change with
      | .processing | .failed _ | .complete _ => true
      | _ => false
  | _ => false

section Closed
variable {php : Php} {p : Nat} {s s' : Store} {c c' : State} {d d' : Desk} {job : Job}

theorem closed_cases (h : closed job = true) :
    job.status = .failed ∨
      (job.status = .completed ∧ FinalizeVerificationJob.hasFinalKeys job = true) := by
  simpa [closed] using h

theorem terminal_of_closed (h : closed job = true) : terminal job = true := by
  rcases closed_cases h with hfailed | ⟨hcompleted, -⟩
  · rw [terminal, hfailed]
    rfl
  · rw [terminal, hcompleted]
    rfl

/-- A finalize run that loads a closed job stops. -/
theorem decision_of_closed (h : closed job = true) (chunks : List Chunk) :
    FinalizeVerificationJob.decision job chunks = .stop := by
  unfold FinalizeVerificationJob.decision
  split
  · rfl
  rcases closed_cases h with hfailed | ⟨hcompleted, hkeys⟩
  · simp [hfailed]
  · simp [hcompleted, hkeys]

/-- A closed job passes no check but those of the admin. -/
theorem not_allowed_of_closed (h : closed job = true) {change : JobChange}
    (hunforced : unforced (.request change) = true) : allowed job change = false := by
  have hstatus := terminal_of_closed h
  rw [terminal] at hstatus
  cases change with
  | markFailed => exact nomatch hunforced
  | retry => exact nomatch hunforced
  | reopen => exact nomatch hunforced
  | finalizationFailed => rfl
  | _ => cases hst : job.status <;> simp_all [allowed, unfinished]

/-- Only parses and finalize runs have instructions about the job. -/
def OwnJobInstrs (c : State) : Prop :=
  EachInstr (fun k i => jobInstr i = true → isParse k = true ∨ isFinalize k = true) c

theorem ownJobInstrs_act {a : Action} (h : OwnJobInstrs c) (hs : act php c a = some c') :
    OwnJobInstrs c' := by
  refine eachInstr_step h ?_ ?_ hs
  · intro k i hi _ hjob
    cases hi with
    | parse => exact .inl rfl
    | finalize => exact .inr rfl
    | failed => exact .inr rfl
    | _ => exact nomatch hjob
  · intro k i j hi hj hjob
    cases hj with
    | merge => exact hi rfl
    | failChunks => exact hi rfl
    | completeJob => exact hi rfl
    | failMissing => exact hi rfl
    | _ => exact nomatch hjob

theorem ownJobInstrs_step {e : Event} (h : OwnJobInstrs d.store)
    (hs : step php d e = some d') : OwnJobInstrs d'.store := by
  rcases core_cases hs with ⟨a, -, hact⟩ | hprocs
  · exact ownJobInstrs_act h hact
  · intro p k code hat
    refine h p k code ?_
    show d.store.procs[p]? = some ⟨k, code⟩
    rw [← hprocs]
    exact hat

/-- No parse is at work, whoever finalizes has loaded a closed job, and nobody else has
an instruction about it. -/
def Dormant (_ : Nat) (k : Kind) (code : List Instr) (_ : Store) : Prop :=
  match k with
  | .parse _ => code = []
  | .finalize _ =>
      ∀ i ∈ code, ∃ loaded cache, i = .loadChunks loaded cache ∧ closed loaded = true
  | _ => ∀ i ∈ code, jobInstr i = false

/-- The job row is `job`, and no process of the pipeline is about to change that. -/
def Resting (job : Job) (c : State) : Prop := Outline (fun s => s.job = job) Dormant c

theorem jobInstr_of_jobWrites {i : Instr} {model filled : Job}
    (h : JobWrites s i model filled) : jobInstr i = true := by
  cases h <;> rfl

theorem job_of_exec {i : Instr} {n : Next Instr}
    (h : ValidEmailVerifier.exec php p i s = some (s', n)) (hi : jobInstr i = false) :
    s'.job = s.job := by
  rcases (exec_frame h).job with hjob | ⟨model, filled, hw, -⟩
  · exact hjob
  · rw [jobInstr_of_jobWrites hw] at hi
    exact nomatch hi

theorem jobInstr_leads {i j : Instr} (hi : jobInstr i = false) (h : Leads s i j) :
    jobInstr j = false := by
  cases h with
  | merge => exact nomatch hi
  | failChunks => exact nomatch hi
  | completeJob => exact nomatch hi
  | failMissing => exact nomatch hi
  | _ => rfl

/-- Whoever works on a chunk leaves the job alone, also after an exception. -/
theorem handler_plain {k : Kind} {code : List Instr} (hk : k.subject ≠ none) :
    ∀ i ∈ handler k code, jobInstr i = false := by
  intro i hi
  cases enters_handler hi with
  | parse => exact absurd rfl hk
  | finalize => exact absurd rfl hk
  | failed => exact absurd rfl hk
  | _ => rfl

/-- What a dormant process executes keeps the job, and leaves the process dormant. -/
theorem dormant_exec {k : Kind} {i : Instr} {rest : List Instr} {n : Next Instr}
    (h : Dormant p k (i :: rest) s)
    (hexec : ValidEmailVerifier.exec php p i s = some (s', n)) :
    s'.job = s.job ∧ Dormant p k (n.resume (handler k (i :: rest)) rest) s' := by
  have hplain : k.subject ≠ none → (∀ j ∈ i :: rest, jobInstr j = false) →
      s'.job = s.job ∧ ∀ j ∈ n.resume (handler k (i :: rest)) rest, jobInstr j = false := by
    intro hk hcode
    refine ⟨job_of_exec hexec (hcode i (.head _)), ?_⟩
    intro j hj
    cases n with
    | raise => exact (handler_plain hk) j hj
    | go code =>
        rcases List.mem_append.mp hj with hj | hj
        · exact jobInstr_leads (hcode i (.head _)) (exec_leads hexec j hj)
        · exact hcode j (.tail _ hj)
  cases k with
  | parse loaded => exact nomatch (show i :: rest = [] from h)
  | worker id => exact hplain nofun h
  | request id => exact hplain nofun h
  | finalize model =>
      obtain ⟨loaded, cache, rfl, hloaded⟩ := h i (.head _)
      obtain ⟨rfl, ⟨-, rfl⟩ | ⟨hdecision, -⟩ | ⟨hdecision, -⟩⟩ := loadChunks_cases hexec
      · exact ⟨rfl, fun j hj => h j (.tail _ hj)⟩
      · rw [decision_of_closed hloaded] at hdecision
        exact nomatch hdecision
      · rw [decision_of_closed hloaded] at hdecision
        exact nomatch hdecision

/-- So does an exception. -/
theorem dormant_handler {k : Kind} {i : Instr} {rest : List Instr}
    (h : Dormant p k (i :: rest) s) : Dormant p k (handler k (i :: rest)) s' := by
  cases k with
  | parse loaded => exact nomatch (show i :: rest = [] from h)
  | worker id => exact handler_plain nofun
  | request id => exact handler_plain nofun
  | finalize model =>
      obtain ⟨loaded, cache, rfl, -⟩ := h i (.head _)
      exact fun j hj => nomatch hj

theorem dormant_nil (k : Kind) : Dormant p k [] s := by
  cases k with
  | parse loaded => rfl
  | _ => exact fun j hj => nomatch hj

/-- **A resting job rests after every step of the pipeline.** -/
theorem resting_act {a : Action} (hclosed : closed job = true) (h : Resting job c)
    (hs : act php c a = some c') : Resting job c' := by
  have hone : ∀ {i : Instr}, jobInstr i = false → ∀ j ∈ [i], jobInstr j = false := by
    intro i hi j hj
    rw [List.mem_singleton.mp hj]
    exact hi
  cases act_cases hs with
  | tick seconds => exact outline_withStore h h.store fun _ hJ => hJ
  | configure settings => exact outline_withStore h h.store fun _ hJ => hJ
  | upload disk chunkNo type file => exact outline_withStore h h.store fun _ hJ => hJ
  | claim hfind hpaused hcand => exact outline_launch h h.store (fun _ hJ => hJ) (hone rfl)
  | complete id payload => exact h.spawn (hone rfl)
  | fail id retryable => exact h.spawn (hone rfl)
  | startParse hstatus hidle =>
      have hterminal := terminal_of_closed hclosed
      rw [← h.store, terminal, hstatus] at hterminal
      exact nomatch hterminal
  | startFinalize hqueue hidle =>
      refine outline_launch h h.store (fun _ hJ => hJ) ?_
      intro i hi
      refine ⟨_, _, List.mem_singleton.mp hi, ?_⟩
      rw [h.store]
      exact hclosed
  | exec hat hexec =>
      obtain ⟨hjob, hdormant⟩ := dormant_exec (h.procs hat) hexec
      exact h.exec hat (hjob.trans h.store) hdormant fun _ _ hJ => hJ
  | throw hat =>
      exact h.exec hat ((Store.rollback_job _).trans h.store) (dormant_handler (h.procs hat))
        fun _ _ hJ => hJ
  | kill hat =>
      exact h.exec hat ((Store.rollback_job _).trans h.store) (dormant_nil _)
        fun _ _ hJ => hJ

/-- No dormant process completes the job. -/
theorem behindUpdate_resting {a : Action} (h : Resting job c) (hs : act php c a = some c') :
    behindUpdate c a = none := by
  cases act_cases hs with
  | @exec p k i rest s' n hat hexec =>
      rw [behindUpdate, nextInstr_exec hat]
      have hcode := h.procs hat
      cases i with
      | completeJob model disk counts =>
          cases k with
          | parse loaded => exact nomatch (show _ :: rest = [] from hcode)
          | worker id => exact nomatch hcode _ (.head _)
          | request id => exact nomatch hcode _ (.head _)
          | finalize model' =>
              obtain ⟨loaded, cache, hi, -⟩ := hcode _ (.head _)
              exact nomatch hi
      | _ => rfl
  | _ => rfl

/-- The job row is `job`, and no process and no call is about to change that. -/
structure ClosedFor (job : Job) (d : Desk) : Prop where
  core : Resting job d.store
  calls : ∀ {n : Nat} {code : List Statement}, d.At n () code →
    ∀ i ∈ code, i.savesJob = false

theorem job_effect {i : Statement} (h : i.savesJob = false) : (i.effect s).job = s.job := by
  cases i with
  | save => exact nomatch h
  | _ => rfl

theorem savesJob_next {i : Statement} (h : i.savesJob = false) :
    ∀ j ∈ i.next s, j.savesJob = false := by
  cases i with
  | loadChunks =>
      intro j hj
      simp only [Statement.next, purgeCode] at hj
      split at hj
      · cases hj
      · rcases List.mem_append.mp hj with hj | hj
        · obtain ⟨chunk, -, hchunk⟩ := List.mem_filterMap.mp hj
          obtain ⟨disk, -, rfl⟩ := Option.map_eq_some_iff.mp hchunk
          rfl
        · rw [List.mem_singleton.mp hj]
          rfl
  | save => cases h
  | _ => exact fun j hj => (by cases hj)

/-- **Nobody gets past a closed job**, but an admin. -/
theorem closedFor_step {e : Event} (hclosed : closed job = true) (h : ClosedFor job d)
    (hunforced : unforced e = true) (hs : step php d e = some d') : ClosedFor job d' := by
  cases step_cases hs with
  | @core a c hact =>
      rw [coreStep, behindUpdate_resting h.core hact]
      exact ⟨resting_act hclosed h.core hact, h.calls⟩
  | request hallowed =>
      rw [Desk.job, h.core.store, not_allowed_of_closed hclosed hunforced] at hallowed
      exact nomatch hallowed
  | requestChunk hfind hopen =>
      refine ⟨h.core, ?_⟩
      intro m code hat i hi
      rcases Conf.at_spawn.mp hat with hat | ⟨-, -, rfl⟩
      · exact h.calls hat i hi
      · rw [List.mem_singleton.mp hi]
        rfl
  | finalize hopen => exact ⟨outline_withStore h.core h.core.store fun _ hJ => hJ, h.calls⟩
  | @exec n i rest hat =>
      have hi : i.savesJob = false := h.calls hat i (.head _)
      refine ⟨outline_withStore h.core ((job_effect hi).trans h.core.store) fun _ hJ => hJ, ?_⟩
      intro m code hat' j hj
      rcases Conf.at_setCode.mp hat' with ⟨rfl, rfl, -⟩ | ⟨-, hat'⟩
      · rcases List.mem_append.mp hj with hj | hj
        · exact savesJob_next hi j hj
        · exact h.calls hat j (.tail _ hj)
      · exact h.calls hat' j hj
  | leave n =>
      refine ⟨h.core, ?_⟩
      intro m code hat i hi
      rcases Conf.at_setCode.mp hat with ⟨-, rfl, -⟩ | ⟨-, hat⟩
      · exact nomatch hi
      · exact h.calls hat i hi
  | claimJob hpending =>
      have hterminal := terminal_of_closed hclosed
      rw [Desk.job, h.core.store] at hpending
      rw [terminal, hpending] at hterminal
      exact nomatch hterminal
  | requeue select he =>
      exact ⟨outline_withStore h.core h.core.store fun _ hJ => hJ, h.calls⟩

/-- A process that is not running has no code left. -/
theorem code_of_not_running {kind : Kind → Bool} {k : Kind} {code : List Instr}
    (h : running c kind = false) (hat : c.At p k code) (hk : kind k = true) : code = [] := by
  by_contra hne
  have hrunning : running c kind = true :=
    List.any_eq_true.mpr ⟨⟨k, code⟩, List.mem_of_getElem? hat, by simpa [hk] using hne⟩
  rw [h] at hrunning
  exact nomatch hrunning

theorem closedFor_of_quiet (hown : OwnJobInstrs d.store) (hquiet : quiet d = true) :
    ClosedFor d.job d := by
  simp only [quiet, Bool.and_eq_true, Bool.not_eq_true', List.all_eq_true] at hquiet
  obtain ⟨⟨hparse, hfinalize⟩, hcalls⟩ := hquiet
  refine ⟨⟨rfl, ?_⟩, ?_⟩
  · intro p k code hat
    cases k with
    | parse loaded => exact code_of_not_running hparse hat rfl
    | finalize model =>
        intro i hi
        rw [code_of_not_running hfinalize hat rfl] at hi
        exact nomatch hi
    | worker id =>
        intro i hi
        by_contra hjob
        rcases hown p _ code hat i hi (by simpa using hjob) with hk | hk <;> exact nomatch hk
    | request id =>
        intro i hi
        by_contra hjob
        rcases hown p _ code hat i hi (by simpa using hjob) with hk | hk <;> exact nomatch hk
  · intro n code hat i hi
    exact hcalls _ (List.mem_of_getElem? hat) i hi

end Closed

/-! ## The row of a closed job is final -/

/-- **A closed job keeps its row**: when the job is failed, or completed with its three
final keys, and nobody who loaded it before has something left to do, no finalize run
and no call ever writes to it again, unless an admin fails, retries or reopens it. -/
theorem closedJob_unchanged {php : Php} {d₀ d d' : Desk} (h₀ : Untouched d₀.store)
    (h : (console php).Reaches Transition.Always d₀ d) (hclosed : closed d.job = true)
    (hquiet : quiet d = true)
    (hlater : (console php).Reaches (fun _ e => unforced e = true) d d') :
    d'.job = d.job := by
  have hown : OwnJobInstrs d.store :=
    h.invariant (eachInstr_idle h₀.procs) fun _ _ _ hown _ hs => ownJobInstrs_step hown hs
  have hrest : ClosedFor d.job d' :=
    hlater.invariant (closedFor_of_quiet hown hquiet) fun _ _ _ => closedFor_step hclosed
  exact hrest.core.store

/-- The job is finalized, and the run that did it has ended. -/
theorem closedJob_unchanged_finalized :
    ∃ d, (console samplePhp).Reaches Transition.Always (sampleDesk {} ["a@b.co"]) d ∧
      d.job.status = .completed ∧ d.job.counts = ⟨some 1, some 0, some 0⟩ ∧
        ∀ d', (console samplePhp).Reaches (fun _ e => unforced e = true) d d' →
          d'.job = d.job := by
  have hrun : ((console samplePhp).run (sampleDesk {} ["a@b.co"])
      (finalizedSchedule.map .core ++ [.leave 0])).any (fun d => quiet d &&
        closed d.job && d.job.status == .completed &&
          d.job.counts == ⟨some 1, some 0, some 0⟩) = true := by
    decide
  obtain ⟨d, hreach, htest⟩ := Transition.System.exists_reaches_always hrun
  simp only [Bool.and_eq_true, beq_iff_eq] at htest
  obtain ⟨⟨⟨hquiet, hclosed⟩, hstatus⟩, hcounts⟩ := htest
  exact ⟨d, hreach, hstatus, hcounts, fun d' hlater =>
    closedJob_unchanged ⟨rfl, rfl, rfl, rfl⟩ hreach hclosed hquiet hlater⟩

/-- A terminal job keeps its status, its output keys and its counts, whatever finalize
runs and calls of the two endpoints do. -/
def Absorbing (php : Php) (d : Desk) : Prop :=
  terminal d.job = true →
    ∀ d', (console php).Reaches (fun _ e => apiOnly e = true) d d' →
      d'.job.status = d.job.status ∧ d'.job.keys = d.job.keys ∧ d'.job.counts = d.job.counts

/-- One address is verified in one chunk. -/
def firstChunkSchedule : List Action :=
  .startParse [] :: turns 0 5 ++ claimBy 0 ["a@b.co"] .valid "rcpt_ok" :: turns 1 9

/-- One address is verified, and an engine reports seven valid ones for the job. -/
def reportedEvents : List Event :=
  (firstChunkSchedule.map .core) ++
    [.request (.complete { outputKey := .finalResult .valid
                           counts := ⟨some 7, some 0, some 0⟩ }),
      .exec 0]

/-- The finalize run that the chunk has left on the queue merges the completed job. -/
def mergeSchedule : List Action := .startFinalize [] :: turns 2 6

/-- The counts of the completed job are overwritten. -/
theorem reported_not_absorbing :
    ∃ d, (console samplePhp).Reaches Transition.Always (sampleDesk {} ["a@b.co"]) d ∧
      d.job.status = .completed ∧ ¬ Absorbing samplePhp d := by
  have hrun : ((console samplePhp).run (sampleDesk {} ["a@b.co"]) reportedEvents).any
      (fun d => d.job.status == .completed &&
        ((console samplePhp).runIf (fun _ e => apiOnly e = true) d
          (mergeSchedule.map .core)).any fun d' => d'.job.counts != d.job.counts) = true := by
    decide
  obtain ⟨d, hreach, htest⟩ := Transition.System.exists_reaches_always hrun
  rw [Bool.and_eq_true, beq_iff_eq] at htest
  obtain ⟨hstatus, hmerged⟩ := htest
  obtain ⟨d', hlater, hcounts⟩ := Transition.System.exists_reaches hmerged
  refine ⟨d, hreach, hstatus, fun h => ?_⟩
  have hterminal : terminal d.job = true := by
    rw [terminal, hstatus]
    rfl
  exact bne_iff_ne.mp hcounts (h hterminal d' hlater).2.2

end ValidEmailVerifier.Console
