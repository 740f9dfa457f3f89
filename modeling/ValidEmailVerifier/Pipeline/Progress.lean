/-
# `Pipeline.Progress` — a prepared job is never left waiting

A prepared job waits for one of three things: an unfinished chunk, a finalize job
that is queued or about to be dispatched, or a finalize run that goes on to decide
it (`awaits`).  The completion of a chunk hands the first over to the second, and a
finalize run that stops without a decision has seen an unfinished chunk.

What breaks the chain is a step that takes the last of them away and puts nothing
in its place (`keepsFinalizing`): a failure of the last chunk, which dispatches
nothing; a parse that ends after the last finalize run, or without chunks and
outside the cache-only mode; and the end of a request or of a finalize run on its
way.
-/
import ValidEmailVerifier.Pipeline.Attempts
import ValidEmailVerifier.Pipeline.Finality

namespace ValidEmailVerifier

open Processes

/-! ## What a job waits for -/

/-- The job is completed or failed. -/
def Done (job : Job) : Prop := job.status = .completed ∨ job.status = .failed

instance (job : Job) : Decidable (Done job) := instDecidableOr

def isDispatch : Instr → Bool
  | .dispatchFinalize => true
  | _ => false

/-- A finalize run of the job finds something to finalize. -/
def loadable (s : Store) (job : Job) : Bool :=
  !s.chunks.isEmpty || FinalizeVerificationJob.hasCached job

/-- An instruction of a finalize run that is not going to stop for want of rows. -/
def decides (s : Store) : Instr → Bool
  | .loadChunks job _ => loadable s job
  | .merge _ _ _ | .completeJob _ _ _ | .markJobFailed _ _ => true
  | _ => false

/-- The job is done, or a finalize job is queued, running or about to be
dispatched, and will find something to finalize. -/
def settling (c : State) : Bool :=
  decide (Done c.store.job) ||
    (decide (0 < c.store.queue) || ahead c isDispatch) && loadable c.store c.store.job ||
    ahead c (decides c.store)

/-- If the job is prepared, it has an unfinished chunk or is being settled. -/
def awaits (c : State) : Bool :=
  c.store.job.preparedAt.isNone || settling c ||
    c.store.chunks.any fun chunk => decide (Live chunk)

/-! ## The condition -/

/-- The job row that the end of a parse writes. -/
def preparedJob (s : Store) (job : Job) (totals : Totals) : Job :=
  Job.update job (withTotals job totals s.now) s.job

/-- Process `p` can do without its remaining code: what the job waits for is
elsewhere. -/
def canLose (c : State) (p : Nat) (code : List Instr) : Bool := awaits (c.setCode p code)

/-- The instruction of process `p` throws an exception. -/
def throws (php : Php) (p : Nat) (i : Instr) (s : Store) : Bool :=
  match exec php p i s with
  | some (_, .raise) => true
  | _ => false

/-- No step takes away the last thing a prepared job waits for: a failure leaves
another chunk unfinished or the job being settled, a parse that ends finds the same,
and a process whose dispatch or decision is still needed does not end. -/
def keepsFinalizing (php : Php) (c : State) (a : Action) : Bool :=
  match a with
  | .kill p => canLose c p []
  | .throw p => c.procs[p]?.all fun q => canLose c p (handler q.kind q.code)
  | .exec p =>
      c.procs[p]?.all fun q =>
        match q.code with
        | [] => true
        | i :: _ =>
            if throws php p i c.store then canLose c p (handler q.kind q.code)
            else
              match i with
              | .updateFailed chunk retryable =>
                  chunk.nextStatus c.store.settings retryable != .failed ||
                    c.store.job.preparedAt.isNone || settling c ||
                    c.store.chunks.any fun other => other.id != chunk.id && decide (Live other)
              | .updateTotals job totals =>
                  settling (withStore c { c.store with job := preparedJob c.store job totals }) ||
                    c.store.chunks.any fun chunk => decide (Live chunk)
              | _ => true
  | _ => true

/-! ## The law -/

/-- The job is not stuck: when its parsing has finished, all its chunks are completed
or failed, no finalize job is queued or running and no request is about to dispatch
one, then the job is completed or failed. -/
def NotStuck (c : State) : Prop :=
  c.store.job.preparedAt ≠ none → running c isParse = false →
    (∀ chunk ∈ c.store.chunks, ¬ Live chunk) → c.store.queue = 0 →
      running c isFinalize = false → ahead c isDispatch = false → Done c.store.job

/-! ## Finalize runs and their job -/

theorem done_exec {php : Php} {p : Nat} {s s' : Store} {i : Instr} {n : Next Instr}
    (h : Done s.job) (hexec : exec php p i s = some (s', n)) : Done s'.job := by
  rcases jobStatus_exec hexec with hsame | hfailed | ⟨hcompleted, -⟩
  · unfold Done
    rw [hsame]
    exact h
  · exact .inr hfailed
  · exact .inl hcompleted

theorem done_step {php : Php} {c c' : State} {a : Action} (h : Done c.store.job)
    (hs : act php c a = some c') : Done c'.store.job := by
  cases act_cases hs with
  | exec hat hexec => exact done_exec h hexec
  | throw hat =>
      show Done (c.store.rollback _).job
      rw [Store.rollback_job]
      exact h
  | kill hat =>
      show Done (c.store.rollback _).job
      rw [Store.rollback_job]
      exact h
  | _ => exact h

/-- The job model that an instruction of a finalize run works with. -/
def jobModel : Instr → Option Job
  | .loadChunks job _ | .merge job _ _ | .completeJob job _ _ | .markJobFailed job _ => some job
  | _ => none

/-- Only the finalize run of a job works with its model. -/
def OnOwnJob (k : Kind) (i : Instr) : Prop := ∀ job, jobModel i = some job → k = .finalize job

theorem ownJob_step {php : Php} {c c' : State} {a : Action} (h : EachInstr OnOwnJob c)
    (hs : act php c a = some c') : EachInstr OnOwnJob c' := by
  refine eachInstr_step h ?_ ?_ hs
  · intro k i hi _ job hjob
    cases hi with
    | parse job' hparse =>
        cases i with
        | putObject | createChunk | updateTotals | resetMetrics | failJob | dispatchFinalize =>
            exact nomatch hjob
        | _ => exact nomatch hparse
    | finalize => exact congrArg Kind.finalize (Option.some.inj hjob)
    | failed => exact congrArg Kind.finalize (Option.some.inj hjob)
    | _ => exact nomatch hjob
  · intro k i j hi hj job hjob
    cases hj with
    | merge => exact hi job hjob
    | failChunks => exact hi job hjob
    | completeJob => exact hi job hjob
    | failMissing => exact hi job hjob
    | _ => exact nomatch hjob

/-- A finalize run that was started for a job that was done finds it done. -/
def LoadedBefore (_ : Nat) (k : Kind) (_ : List Instr) (s : Store) : Prop :=
  ∀ job, k = .finalize job → Done job → Done s.job

def AllLoadedBefore (c : State) : Prop := Outline (fun _ => True) LoadedBefore c

theorem loadedBefore_step {php : Php} {c c' : State} {a : Action} (h : AllLoadedBefore c)
    (hs : act php c a = some c') : AllLoadedBefore c' := by
  have hmono : ∀ {q : Nat} {k : Kind} {code code' : List Instr},
      LoadedBefore q k code c.store → LoadedBefore q k code' c'.store := by
    intro q k code code' hq job hk hdone
    exact done_step (hq job hk hdone) hs
  have hother : ∀ {q : Nat} {k : Kind} {code : List Instr} {s : Store},
      isFinalize k = false → LoadedBefore q k code s := by
    rintro q k code s hk job rfl
    exact nomatch hk
  cases act_cases hs with
  | tick seconds => exact outline_withStore h trivial fun _ => hmono
  | configure settings => exact outline_withStore h trivial fun _ => hmono
  | upload disk chunkNo type file => exact outline_withStore h trivial fun _ => hmono
  | claim hfind hpaused hcand => exact outline_launch h trivial (fun _ => hmono) (hother rfl)
  | complete id payload => exact h.spawn (hother rfl)
  | fail id retryable => exact h.spawn (hother rfl)
  | startParse hstatus hidle => exact h.spawn (hother rfl)
  | startFinalize hqueue hidle =>
      refine outline_launch h trivial (fun _ => hmono) ?_
      rintro job ⟨⟩ hdone
      exact hdone
  | exec hat hexec => exact h.exec hat trivial (hmono (h.procs hat)) fun _ _ => hmono
  | throw hat => exact h.exec hat trivial (hmono (h.procs hat)) fun _ _ => hmono
  | kill hat => exact h.exec hat trivial (hmono (h.procs hat)) fun _ _ => hmono

/-! ## A completion is followed by a dispatch -/

/-- An instruction that a completion may still grow out of. -/
def opens : Instr → Bool
  | .download _ _ | .loadCompletion _ _ | .planHandoff _ => true
  | _ => false

/-- Such an instruction, or the completion itself. -/
def leadsOn : Instr → Bool
  | .updateCompleted _ => true
  | i => opens i

/-- What a completion may grow out of stands last, and code with a completion ends
with the dispatch. -/
structure Answers (code : List Instr) : Prop where
  last : ∀ i ∈ code.dropLast, opens i = false
  dispatch : ∀ r, .updateCompleted r ∈ code → code.getLast? = some .dispatchFinalize

def AllAnswer (c : State) : Prop := Outline (fun _ => True) (fun _ _ code _ => Answers code) c

section Answers
variable {php : Php} {p : Nat} {k : Kind} {s s' : Store} {n : Next Instr}
  {code rest : List Instr} {i j : Instr}

theorem opens_of_leads (h : Leads s i j) (hj : leadsOn j = true) : opens i = true := by
  cases h with
  | complete => rfl
  | handoff => rfl
  | update => rfl
  | handoffUpdate => rfl
  | _ => exact nomatch hj

theorem opens_le (h : leadsOn i = false) : opens i = false := by
  cases i <;> first | rfl | exact nomatch h

theorem answers_of_quiet (h : ∀ i ∈ code, leadsOn i = false) : Answers code where
  last := fun i hi => opens_le (h i (List.dropLast_subset code hi))
  dispatch := by
    intro r hr
    exact nomatch h _ hr

theorem answers_finishScreening (r : Request) (candidates : Option Nat) :
    Answers (finishScreening r candidates) :=
  ⟨by simp [finishScreening, opens], by simp [finishScreening]⟩

/-- The code an instruction expands into. -/
theorem answers_code (h : exec php p i s = some (s', .go code)) : Answers code := by
  by_cases hquiet : ∀ j ∈ code, leadsOn j = false
  · exact answers_of_quiet hquiet
  · obtain ⟨j, hj, hlead⟩ : ∃ j ∈ code, leadsOn j ≠ false := by
      simpa only [not_forall, exists_prop] using hquiet
    have hopens := opens_of_leads (exec_leads h j hj) (by simpa using hlead)
    cases i with
    | download id verdicts =>
        obtain ⟨-, hn | ⟨chunk, input, -, -, hn⟩⟩ := download_cases h
        · cases hn
        · cases hn
          exact ⟨by simp [putFiles, opens], by simp [putFiles]⟩
    | loadCompletion id payload =>
        obtain ⟨-, hn | hn | ⟨chunk, -, -, ⟨-, -, hn⟩ | ⟨-, -, hn⟩ | ⟨-, hn⟩⟩⟩ :=
          loadCompletion_cases h
        · cases hn
        · cases hn
          cases hj
        · cases hn
          exact ⟨by simp, by simp⟩
        · cases hn
          exact answers_finishScreening _ _
        · cases hn
          exact ⟨by simp [finishProbe, opens], by simp [finishProbe]⟩
    | planHandoff r =>
        obtain ⟨-, hn | ⟨disk, -, ⟨-, hn⟩ | ⟨-, hn⟩⟩⟩ := planHandoff_cases h
        · cases hn
        · cases hn
          exact answers_finishScreening _ _
        · cases hn
          exact ⟨by simp [handoffCode, finishScreening, opens],
            by simp [handoffCode, finishScreening]⟩
    | _ => cases hopens

theorem leadsOn_handler : ∀ j ∈ handler k code, leadsOn j = false :=
  forall_handler (fun _ => rfl) (fun _ => rfl) fun _ => rfl

theorem Answers.resume (h : Answers (i :: rest)) (hexec : exec php p i s = some (s', n)) :
    Answers (n.resume (handler k (i :: rest)) rest) := by
  cases n with
  | raise => exact answers_of_quiet leadsOn_handler
  | go code =>
      have hcode := answers_code hexec
      show Answers (code ++ rest)
      by_cases hrest : rest = []
      · subst hrest
        rw [List.append_nil]
        exact hcode
      -- what stands before other code does not lead to a completion
      have hi : opens i = false := h.last i (by
        rw [List.dropLast_cons_of_ne_nil hrest]
        exact .head _)
      have hquiet : ∀ j ∈ code, leadsOn j = false := by
        intro j hj
        by_contra hlead
        have hopens := opens_of_leads (exec_leads hexec j hj) (by simpa using hlead)
        exact nomatch hi.symm.trans hopens
      refine ⟨?_, ?_⟩
      · intro j hj
        rw [List.dropLast_append_of_ne_nil hrest] at hj
        rcases List.mem_append.mp hj with hj | hj
        · exact opens_le (hquiet j hj)
        · refine h.last j ?_
          rw [List.dropLast_cons_of_ne_nil hrest]
          exact .tail _ hj
      · intro r hr
        rcases List.mem_append.mp hr with hr | hr
        · exact nomatch hquiet _ hr
        · have hlast := h.dispatch r (.tail _ hr)
          rw [List.getLast?_append_of_ne_nil _ hrest]
          rwa [List.getLast?_cons_of_ne_nil hrest] at hlast

end Answers

theorem answers_step {php : Php} {c c' : State} {a : Action} (h : AllAnswer c)
    (hs : act php c a = some c') : AllAnswer c' := by
  have hone : ∀ {i : Instr}, leadsOn i = opens i → Answers [i] := by
    intro i hi
    refine ⟨(fun _ hj => nomatch hj), ?_⟩
    intro r hr
    rw [← List.mem_singleton.mp hr] at hi
    exact nomatch hi
  cases act_cases hs with
  | tick seconds => exact outline_withStore h trivial fun _ hJ => hJ
  | configure settings => exact outline_withStore h trivial fun _ hJ => hJ
  | upload disk chunkNo type file => exact outline_withStore h trivial fun _ hJ => hJ
  | claim hfind hpaused hcand => exact outline_launch h trivial (fun _ hJ => hJ) (hone rfl)
  | complete id payload => exact h.spawn (hone rfl)
  | fail id retryable => exact h.spawn (hone rfl)
  | startParse hstatus hidle =>
      refine h.spawn (answers_of_quiet fun i hi => ?_)
      have hparse := isParse_parseCode hi
      cases i <;> first | rfl | exact nomatch hparse
  | startFinalize hqueue hidle => exact outline_launch h trivial (fun _ hJ => hJ) (hone rfl)
  | exec hat hexec =>
      exact h.exec hat trivial ((h.procs hat).resume hexec) fun _ _ hJ => hJ
  | throw hat =>
      exact h.exec hat trivial (answers_of_quiet leadsOn_handler) fun _ _ hJ => hJ
  | kill hat =>
      exact h.exec hat trivial (answers_of_quiet fun _ hj => nomatch hj) fun _ _ hJ => hJ

/-! ## What a step leaves waiting -/

theorem settling_iff {c : State} : settling c = true ↔ Done c.store.job ∨
    ((0 < c.store.queue ∨ ahead c isDispatch = true) ∧
      loadable c.store c.store.job = true) ∨ ahead c (decides c.store) = true := by
  simp [settling, or_assoc]

theorem awaits_iff {c : State} : awaits c = true ↔ c.store.job.preparedAt = none ∨
    settling c = true ∨ ∃ chunk ∈ c.store.chunks, Live chunk := by
  simp [awaits, or_assoc]

section Keep
variable {php : Php} {p : Nat} {s s' : Store} {i : Instr} {n : Next Instr}

theorem loadable_iff {job : Job} : loadable s job = true ↔
    s.chunks ≠ [] ∨ FinalizeVerificationJob.hasCached job = true := by
  simp [loadable]

theorem loadable_mono {job : Job} (hchunks : s.chunks ≠ [] → s'.chunks ≠ [])
    (h : loadable s job = true) : loadable s' job = true :=
  loadable_iff.mpr ((loadable_iff.mp h).imp_left hchunks)

theorem decides_mono (hchunks : s.chunks ≠ [] → s'.chunks ≠ []) (h : decides s i = true) :
    decides s' i = true := by
  cases i with
  | loadChunks job cache => exact loadable_mono hchunks h
  | merge => rfl
  | completeJob => rfl
  | markJobFailed => rfl
  | _ => exact nomatch h

/-- No instruction removes a row. -/
theorem Change.chunks_ne_nil (h : Change p s i s') (hne : s.chunks ≠ []) : s'.chunks ≠ [] := by
  cases h with
  | keep hchunks _ => exact hchunks ▸ hne
  | create _ _ hchunks _ => simp [hchunks]
  | lock _ _ hchunks _ => exact hchunks ▸ hne
  | stage _ _ hchunks _ => exact hchunks ▸ hne
  | violation _ hs => simpa [hs] using hne
  | commit _ hchunks _ => simp [hchunks, hne]
  | write _ hchunks _ => simpa [hchunks, Table.update] using hne

/-- The writes that may finish a chunk. -/
def finishes : Instr → Bool
  | .updateCompleted _ | .updateFailed _ _ => true
  | _ => false

/-- The write that ends a parse. -/
def prepares : Instr → Bool
  | .updateTotals _ _ => true
  | _ => false

theorem live_of_append {chunks chunks' more : List Chunk} (hchunks : chunks' = chunks ++ more)
    (h : ∃ chunk ∈ chunks, Live chunk) : ∃ chunk ∈ chunks', Live chunk := by
  obtain ⟨chunk, hmem, hlive⟩ := h
  exact ⟨chunk, hchunks ▸ List.mem_append_left _ hmem, hlive⟩

theorem live_of_update {id : Nat} {f : Chunk → Chunk} {chunks : List Chunk}
    (hf : ∀ row, Live row → Live (f row)) (h : ∃ chunk ∈ chunks, Live chunk) :
    ∃ chunk ∈ Table.update Chunk.id chunks id f, Live chunk := by
  obtain ⟨chunk, hmem, hlive⟩ := h
  refine ⟨_, Table.mem_update.mpr ⟨chunk, hmem, rfl⟩, ?_⟩
  split
  · exact hf chunk hlive
  · exact hlive

/-- Only a completion or a failure takes the last unfinished chunk away. -/
theorem Change.live (h : Change p s i s') (hi : finishes i = false)
    (hlive : ∃ chunk ∈ s.chunks, Live chunk) : ∃ chunk ∈ s'.chunks, Live chunk := by
  have hsame : s'.chunks = s.chunks → ∃ chunk ∈ s'.chunks, Live chunk := fun h => h ▸ hlive
  cases h with
  | keep hchunks _ => exact hsame hchunks
  | create _ _ hchunks _ => exact live_of_append hchunks hlive
  | lock _ _ hchunks _ => exact hsame hchunks
  | stage _ _ hchunks _ => exact hsame hchunks
  | violation _ hs => exact hsame (by rw [hs, Store.rollback_chunks])
  | commit _ hchunks _ => exact live_of_append hchunks hlive
  | @write _ id model filled _ hwrites hchunks _ =>
      rw [hchunks]
      cases hwrites with
      | completed => exact nomatch hi
      | failed => exact nomatch hi
      | parent _ key filteredCount =>
          refine live_of_update (fun row hrow => ?_) hlive
          have hstatus : (Chunk.update model (model.withFilteredRisky key filteredCount)
              row).status = row.status := dirty_clean _ _
          unfold Live
          rw [hstatus]
          exact hrow

/-- The columns that say whether the job is prepared and what it has cached. -/
theorem job_kept (h : exec php p i s = some (s', n))
    (hi : prepares i = false) :
    s'.job.preparedAt = s.job.preparedAt ∧ s'.job.cachedKeys = s.job.cachedKeys := by
  rcases (exec_frame h).job with hjob | ⟨model, filled, hw, hjob⟩
  · rw [hjob]
    exact ⟨rfl, rfl⟩
  · rw [hjob]
    cases hw with
    | totals => exact nomatch hi
    | failJob => simp [Job.update, prepareFailedJob]
    | completed => simp [Job.update, FinalizeVerificationJob.completed]
    | failed => simp [Job.update, FinalizeVerificationJob.failed]

theorem hasCached_congr {job job' : Job} (h : job'.cachedKeys = job.cachedKeys) :
    FinalizeVerificationJob.hasCached job' = FinalizeVerificationJob.hasCached job := by
  simp [FinalizeVerificationJob.hasCached, h]

/-- Code that other processes have ahead stays ahead, and so does what the process has
behind its instruction. -/
theorem ahead_keep {c : State} {f g : Instr → Bool} {k : Kind} {rest code : List Instr}
    (h : ahead c f = true) (hfg : ∀ j, f j = true → g j = true) (hat : c.At p k (i :: rest))
    (hcode : f i = true ∨ (∃ j ∈ rest, f j = true) → ∃ j ∈ code, g j = true) :
    ahead ((withStore c s').setCode p code) g = true := by
  obtain ⟨q, k', code', hq, j, hj, hfj⟩ := ahead_iff.mp h
  by_cases hqp : q = p
  · subst hqp
    obtain ⟨rfl, rfl⟩ := hat.unique hq
    obtain ⟨j', hj', hgj⟩ := hcode (by
      rcases List.mem_cons.mp hj with rfl | hj
      · exact .inl hfj
      · exact .inr ⟨j, hj, hfj⟩)
    exact ahead_iff.mpr ⟨q, _, code, Conf.at_setCode.mpr (.inl ⟨rfl, rfl, _, hat⟩), j', hj', hgj⟩
  · exact ahead_iff.mpr ⟨q, k', code', Conf.at_setCode.mpr (.inr ⟨hqp, hq⟩), j, hj, hfg j hfj⟩

theorem ahead_launch {c : State} {f g : Instr → Bool} {k : Kind} {code : List Instr}
    (hfg : ∀ j, f j = true → g j = true)
    (h : ahead c f = true ∨ ∃ j ∈ code, g j = true) :
    ahead ((withStore c s').spawn k code) g = true := by
  rcases h with h | hcode
  · obtain ⟨q, k', code', hq, j, hj, hfj⟩ := ahead_iff.mp h
    exact ahead_iff.mpr ⟨q, k', code', Conf.at_spawn.mpr (.inl hq), j, hj, hfg j hfj⟩
  · exact ahead_iff.mpr ⟨_, k, code, Conf.at_spawn.mpr (.inr ⟨rfl, rfl, rfl⟩), hcode⟩

end Keep

/-! ### Starting a process -/

/-- Starting a process takes away nothing, unless it takes a finalize job from the
queue; then it goes on with it. -/
theorem awaits_launch {c : State} {s' : Store} {k : Kind} {code : List Instr}
    (h : awaits c = true) (hjob : s'.job = c.store.job)
    (hchunks : c.store.chunks ≠ [] → s'.chunks ≠ [])
    (hlive : (∃ chunk ∈ c.store.chunks, Live chunk) → ∃ chunk ∈ s'.chunks, Live chunk)
    (hqueue : 0 < c.store.queue → loadable c.store c.store.job = true →
      0 < s'.queue ∨ ∃ j ∈ code, decides s' j = true) :
    awaits ((withStore c s').spawn k code) = true := by
  rw [awaits_iff, settling_iff] at h ⊢
  have hload : loadable c.store c.store.job = true → loadable s' s'.job = true := by
    rw [hjob]
    exact loadable_mono hchunks
  rcases h with hprep | (hdone | ⟨hnext, hloadable⟩ | hdec) | hlives
  · left
    show s'.job.preparedAt = none
    rw [hjob]
    exact hprep
  · right; left; left
    show Done s'.job
    rw [hjob]
    exact hdone
  · right; left
    rcases hnext with hpos | hdisp
    · rcases hqueue hpos hloadable with hpos' | hcode
      · exact .inr (.inl ⟨.inl hpos', hload hloadable⟩)
      · exact .inr (.inr (ahead_launch (f := decides s') (fun _ hj => hj) (.inr hcode)))
    · exact .inr (.inl ⟨.inr (ahead_launch (fun _ hj => hj) (.inl hdisp)), hload hloadable⟩)
  · exact .inr (.inl (.inr (.inr
      (ahead_launch (fun _ hj => decides_mono hchunks hj) (.inl hdec)))))
  · exact .inr (.inr (hlive hlives))

/-! ### Executing an instruction -/

section Go
variable {php : Php} {c : State} {p : Nat} {k : Kind} {i : Instr} {code rest : List Instr}
  {s' : Store}

theorem settling_go (hat : c.At p k (i :: rest))
    (hexec : exec php p i c.store = some (s', .go code))
    (hprep : prepares i = false)
    (hdec : decides c.store i = false ∨ Done s'.job ∨ ∃ j ∈ code, decides s' j = true)
    (h : settling c = true) : settling ((withStore c s').setCode p (code ++ rest)) = true := by
  have hchange := exec_change hexec
  rw [settling_iff] at h ⊢
  rcases h with hdone | ⟨hnext, hloadable⟩ | hahead
  · exact .inl (done_exec hdone hexec)
  · right; left
    refine ⟨?_, ?_⟩
    · rcases (exec_frame hexec).queue with ⟨hne, hqueue⟩ | ⟨-, hqueue⟩
      · refine hnext.imp (fun hpos => ?_) fun hdisp => ?_
        · show 0 < s'.queue
          omega
        · refine ahead_keep hdisp (fun _ hj => hj) hat ?_
          rintro (hi | ⟨j, hj, hdispatch⟩)
          · cases i <;> first | exact absurd rfl hne | exact nomatch hi
          · exact ⟨j, List.mem_append_right _ hj, hdispatch⟩
      · left
        show 0 < s'.queue
        omega
    · have hkept := job_kept hexec hprep
      rw [loadable_iff] at hloadable ⊢
      refine hloadable.imp hchange.chunks_ne_nil fun hcached => ?_
      exact (hasCached_congr hkept.2).trans hcached
  · by_cases hdone : Done s'.job
    · exact .inl hdone
    · refine .inr (.inr (ahead_keep hahead ?_ hat ?_))
      · exact fun _ hj => decides_mono hchange.chunks_ne_nil hj
      · rintro (hi | ⟨j, hj, hdecides⟩)
        · rcases hdec with hno | hdone' | ⟨j, hj, hgo⟩
          · exact nomatch hno.symm.trans hi
          · exact absurd hdone' hdone
          · exact ⟨j, List.mem_append_left _ hj, hgo⟩
        · exact ⟨j, List.mem_append_right _ hj,
            decides_mono hchange.chunks_ne_nil hdecides⟩

/-- What a prepared job waits for outlasts an instruction that neither finishes a
chunk nor ends the parse. -/
theorem awaits_go (hat : c.At p k (i :: rest)) (hexec : exec php p i c.store = some (s', .go code))
    (hprep : prepares i = false) (hfin : finishes i = false)
    (hdec : (decides c.store i = false ∨ Done s'.job ∨ ∃ j ∈ code, decides s' j = true) ∨
      ∃ chunk ∈ s'.chunks, Live chunk)
    (h : awaits c = true) : awaits ((withStore c s').setCode p (code ++ rest)) = true := by
  rw [awaits_iff] at h ⊢
  rcases h with hnone | hset | hlive
  · exact .inl ((job_kept hexec hprep).1.trans hnone)
  · rcases hdec with hdec | hlive
    · exact .inr (.inl (settling_go hat hexec hprep hdec hset))
    · exact .inr (.inr hlive)
  · exact .inr (.inr ((exec_change hexec).live hfin hlive))

/-- A finalize run that stops has seen an unfinished chunk, or the job is done. -/
theorem decision_stop {job : Job} {chunks : List Chunk}
    (h : FinalizeVerificationJob.decision job chunks = .stop)
    (hload : chunks ≠ [] ∨ FinalizeVerificationJob.hasCached job = true) :
    Done job ∨ ∃ chunk ∈ chunks, Live chunk := by
  unfold FinalizeVerificationJob.decision at h
  split at h
  next hnone =>
    rw [Bool.and_eq_true, List.isEmpty_iff, Bool.not_eq_true'] at hnone
    rcases hload with hne | hcached
    · exact absurd hnone.1 hne
    · exact nomatch hnone.2.symm.trans hcached
  split at h
  next hcompleted =>
    rw [Bool.and_eq_true, beq_iff_eq] at hcompleted
    exact .inl (.inl hcompleted.1)
  split at h
  next hfailed => exact .inl (.inr (by simpa using hfailed))
  split at h
  · exact nomatch h
  next hno =>
    split at h
    next hany =>
      obtain ⟨chunk, hmem, hne⟩ := List.any_eq_true.mp hany
      refine .inr ⟨chunk, hmem, live_of_ne (by simpa using hne) ?_⟩
      intro hfailed
      exact hno (List.any_eq_true.mpr ⟨chunk, hmem, by simpa using hfailed⟩)
    · exact nomatch h

/-- The step of a finalize run that decides: the job is done then, or the run goes on,
or there is an unfinished chunk. -/
theorem decided_go {job : Job} (hexec : exec php p i c.store = some (s', .go code))
    (hmodel : jobModel i = some job) (hbefore : Done job → Done c.store.job) :
    (decides c.store i = false ∨ Done s'.job ∨ ∃ j ∈ code, decides s' j = true) ∨
      ∃ chunk ∈ s'.chunks, Live chunk := by
  by_cases hi : decides c.store i = true
  swap
  · exact .inl (.inl (by simpa using hi))
  rw [or_assoc]
  right
  cases i with
  | loadChunks job' cache =>
      obtain rfl : job' = job := Option.some.inj hmodel
      obtain ⟨rfl, ⟨hd, hn⟩ | ⟨hd, hn⟩ | ⟨hd, hn⟩⟩ := loadChunks_cases hexec
      · rcases decision_stop hd (loadable_iff.mp hi) with hdone | hlive
        · exact .inl (.inl (hbefore hdone))
        · exact .inr hlive
      · cases hn
        exact .inl (.inr ⟨_, .head _, rfl⟩)
      · cases hn
        exact .inl (.inr ⟨_, .head _, rfl⟩)
  | merge job' chunks cache =>
      obtain ⟨-, ⟨-, hn⟩ | ⟨-, hn⟩⟩ := merge_cases hexec
      · cases hn
        exact .inl (.inr ⟨_, List.mem_append_right _ (.head _), rfl⟩)
      · cases hn
        exact .inl (.inr ⟨_, List.mem_append_right _ (.head _), rfl⟩)
  | completeJob job' disk counts =>
      obtain rfl : job' = job := Option.some.inj hmodel
      by_cases hcompleted : job'.status = .completed
      · exact .inl (.inl (done_exec (hbefore (.inl hcompleted)) hexec))
      · cases hexec
        exact .inl (.inl (.inl (if_neg (Ne.symm hcompleted))))
  | markJobFailed job' message =>
      obtain rfl : job' = job := Option.some.inj hmodel
      by_cases hfailed : job'.status = .failed
      · exact .inl (.inl (done_exec (hbefore (.inr hfailed)) hexec))
      · cases hexec
        exact .inl (.inl (.inr (if_neg (Ne.symm hfailed))))
  | _ => exact nomatch hi

/-- A completion is followed by its dispatch. -/
theorem awaits_completed {r : Request} (hat : c.At p k (.updateCompleted r :: rest))
    (hexec : exec php p (.updateCompleted r) c.store = some (s', .go code))
    (hans : Answers (.updateCompleted r :: rest)) (h : awaits c = true) :
    awaits ((withStore c s').setCode p (code ++ rest)) = true := by
  have hkept := job_kept hexec rfl
  rw [awaits_iff] at h ⊢
  rcases h with hprep | hset | ⟨chunk, hmem, -⟩
  · exact .inl (hkept.1.trans hprep)
  · exact .inr (.inl (settling_go hat hexec rfl (.inl rfl) hset))
  · have hdispatch : Instr.dispatchFinalize ∈ rest := by
      have hlast := List.mem_of_getLast? (hans.dispatch r (.head _))
      rcases List.mem_cons.mp hlast with heq | hmem
      · exact nomatch heq
      · exact hmem
    refine .inr (.inl (settling_iff.mpr (.inr (.inl ⟨.inr ?_, ?_⟩))))
    · exact ahead_iff.mpr ⟨p, k, _, Conf.at_setCode.mpr (.inl ⟨rfl, rfl, _, hat⟩),
        _, List.mem_append_right _ hdispatch, rfl⟩
    · exact loadable_iff.mpr (.inl ((exec_change hexec).chunks_ne_nil
        (List.ne_nil_of_mem hmem)))

/-- A failure that the condition allows. -/
theorem awaits_failed {chunk : Chunk} {retryable : Bool}
    (hat : c.At p k (.updateFailed chunk retryable :: rest))
    (hexec : exec php p (.updateFailed chunk retryable) c.store = some (s', .go code))
    (hcond : chunk.nextStatus c.store.settings retryable = .pending ∨
      c.store.job.preparedAt = none ∨ settling c = true ∨
        ∃ other ∈ c.store.chunks, other.id ≠ chunk.id ∧ Live other)
    (h : awaits c = true) : awaits ((withStore c s').setCode p (code ++ rest)) = true := by
  have hkept := job_kept hexec rfl
  have hset : settling c = true →
      settling ((withStore c s').setCode p (code ++ rest)) = true :=
    settling_go hat hexec rfl (.inl rfl)
  have hchunks : s'.chunks = Table.update Chunk.id c.store.chunks chunk.id
      (Chunk.update chunk (chunk.failedAttempt c.store.settings retryable)) := by
    cases hexec
    rfl
  rw [awaits_iff] at h ⊢
  rcases hcond with hpending | hprep | hsettling | ⟨other, hmem, hne, hlive⟩
  · rcases h with hprep | hsettling | hlive
    · exact .inl (hkept.1.trans hprep)
    · exact .inr (.inl (hset hsettling))
    · right; right
      show ∃ chunk ∈ s'.chunks, Live chunk
      rw [hchunks]
      refine live_of_update (fun row hrow => ?_) hlive
      show dirty chunk.status (chunk.nextStatus _ _) row.status = .pending ∨
        dirty chunk.status (chunk.nextStatus _ _) row.status = .processing
      rw [hpending]
      unfold dirty
      split
      · exact hrow
      · exact .inl rfl
  · exact .inl (hkept.1.trans hprep)
  · exact .inr (.inl (hset hsettling))
  · right; right
    refine ⟨other, ?_, hlive⟩
    show other ∈ s'.chunks
    rw [hchunks, Table.mem_update]
    exact ⟨other, hmem, (if_neg hne).symm⟩

/-- The end of a parse that the condition allows. -/
theorem awaits_prepared {job : Job} {totals : Totals}
    (hat : c.At p k (.updateTotals job totals :: rest))
    (hexec : exec php p (.updateTotals job totals) c.store = some (s', .go code))
    (hcond : settling (withStore c { c.store with job := preparedJob c.store job totals }) = true ∨
      ∃ chunk ∈ c.store.chunks, Live chunk) :
    awaits ((withStore c s').setCode p (code ++ rest)) = true := by
  cases hexec
  rw [awaits_iff]
  refine .inr (hcond.imp_left fun hset => ?_)
  rw [settling_iff] at hset ⊢
  have hrest : ∀ {f : Instr → Bool}, f (.updateTotals job totals) = false →
      ahead c f = true → ahead ((withStore c { c.store with
        job := preparedJob c.store job totals }).setCode p rest) f = true := by
    intro f hf hahead
    refine ahead_keep hahead (fun _ hj => hj) hat ?_
    rintro (hi | hj)
    · exact nomatch hf.symm.trans hi
    · exact hj
  rcases hset with hdone | ⟨hnext, hloadable⟩ | hdec
  · exact .inl hdone
  · exact .inr (.inl ⟨hnext.imp_right (hrest rfl), hloadable⟩)
  · exact .inr (.inr (hrest rfl hdec))

end Go

/-! ## The run -/

/-- What the runs keep. -/
structure ProgressInv (c : State) : Prop where
  ownJob : EachInstr OnOwnJob c
  loaded : AllLoadedBefore c
  answers : AllAnswer c
  awaits : awaits c = true

theorem awaits_step {php : Php} {c c' : State} {a : Action} (h : ProgressInv c)
    (hcond : keepsFinalizing php c a = true) (hs : act php c a = some c') :
    awaits c' = true := by
  have hsame : ∀ {k : Kind} {code : List Instr}, awaits (c.spawn k code) = true := by
    intro k code
    show awaits ((withStore c c.store).spawn k code) = true
    exact awaits_launch h.awaits rfl id id fun hpos _ => .inl hpos
  have hrollback : ∀ {p : Nat} {code : List Instr}, canLose c p code = true →
      awaits ((withStore c (c.store.rollback p)).setCode p code) = true := by
    intro p code hlose
    unfold Store.rollback
    split
    · exact hlose
    · exact hlose
  cases act_cases hs with
  | tick seconds => exact h.awaits
  | configure settings => exact h.awaits
  | upload disk chunkNo type file => exact h.awaits
  | claim hfind hpaused hcand =>
      refine awaits_launch h.awaits rfl ?_ ?_ fun hpos _ => .inl hpos
      · intro hne
        simpa [Store.updateChunk, Table.update] using hne
      · exact live_of_update fun row _ => .inr rfl
  | complete id payload => exact hsame
  | fail id retryable => exact hsame
  | startParse hstatus hidle => exact hsame
  | startFinalize hqueue hidle =>
      refine awaits_launch h.awaits rfl id id fun _ hload => .inr ⟨_, .head _, ?_⟩
      exact hload
  | throw hat =>
      refine hrollback ?_
      have hp : c.procs[_]? = _ := hat
      simpa [keepsFinalizing, hp] using hcond
  | kill hat => exact hrollback hcond
  | @exec p k i rest s' n hat hexec =>
      have hp : c.procs[p]? = some ⟨k, i :: rest⟩ := hat
      cases n with
      | raise =>
          have hlose : canLose c p (handler k (i :: rest)) = true := by
            simpa [keepsFinalizing, hp, throws, hexec] using hcond
          rcases exec_raise hexec with rfl | rfl
          · exact hlose
          · exact hrollback hlose
      | go code =>
          have hthrows : throws php p i c.store = false := by simp [throws, hexec]
          cases i with
          | updateCompleted r => exact awaits_completed hat hexec (h.answers.procs hat) h.awaits
          | updateFailed chunk retryable =>
              refine awaits_failed hat hexec ?_ h.awaits
              have hallowed : (chunk.nextStatus c.store.settings retryable ≠ .failed ∨
                  c.store.job.preparedAt = none) ∨ settling c = true ∨
                    ∃ other ∈ c.store.chunks, other.id ≠ chunk.id ∧ Live other := by
                simpa [keepsFinalizing, hp, hthrows, or_assoc] using hcond
              rcases hallowed with (hne | hprep) | hrest
              · exact .inl ((nextStatus_cases _ _ _).resolve_right hne)
              · exact .inr (.inl hprep)
              · exact .inr (.inr hrest)
          | updateTotals job totals =>
              refine awaits_prepared hat hexec ?_
              simpa [keepsFinalizing, hp, hthrows] using hcond
          | loadChunks job cache =>
              have hown : k = .finalize job := h.ownJob p k _ hat _ (.head _) job rfl
              exact awaits_go hat hexec rfl rfl
                (decided_go hexec rfl (h.loaded.procs hat job hown)) h.awaits
          | merge job chunks cache =>
              have hown : k = .finalize job := h.ownJob p k _ hat _ (.head _) job rfl
              exact awaits_go hat hexec rfl rfl
                (decided_go hexec rfl (h.loaded.procs hat job hown)) h.awaits
          | completeJob job disk counts =>
              have hown : k = .finalize job := h.ownJob p k _ hat _ (.head _) job rfl
              exact awaits_go hat hexec rfl rfl
                (decided_go hexec rfl (h.loaded.procs hat job hown)) h.awaits
          | markJobFailed job message =>
              have hown : k = .finalize job := h.ownJob p k _ hat _ (.head _) job rfl
              exact awaits_go hat hexec rfl rfl
                (decided_go hexec rfl (h.loaded.procs hat job hown)) h.awaits
          | _ => exact awaits_go hat hexec rfl rfl (.inl (.inl rfl)) h.awaits

theorem progressInv_step {php : Php} {c c' : State} {a : Action} (h : ProgressInv c)
    (hcond : keepsFinalizing php c a = true) (hs : act php c a = some c') : ProgressInv c' where
  ownJob := ownJob_step h.ownJob hs
  loaded := loadedBefore_step h.loaded hs
  answers := answers_step h.answers hs
  awaits := awaits_step h hcond hs

/-- Only a finalize run decides. -/
theorem running_of_decides {c : State} {s : Store} (h : EachInstr OnOwnJob c)
    (hdec : ahead c (decides s) = true) : running c isFinalize = true := by
  obtain ⟨p, k, code, hat, i, hi, hdecides⟩ := ahead_iff.mp hdec
  obtain ⟨job, hjob⟩ : ∃ job, jobModel i = some job := by
    cases i with
    | loadChunks | merge | completeJob | markJobFailed => exact ⟨_, rfl⟩
    | _ => exact nomatch hdecides
  obtain rfl : k = .finalize job := h p k code hat i hi job hjob
  refine List.any_eq_true.mpr ⟨_, List.mem_of_getElem? hat, ?_⟩
  cases code with
  | nil => exact nomatch hi
  | cons j rest => rfl

/-- **No prepared job is stuck**, in every run in which no step takes away the last
thing the job waits for. -/
theorem notStuck_of_keepsFinalizing {php : Php} {c₀ c : State} (h₀ : Untouched c₀)
    (hprep : c₀.store.job.preparedAt = none)
    (h : (pipeline php).Reaches (fun c a => keepsFinalizing php c a = true) c₀ c) :
    NotStuck c := by
  have hinit : ProgressInv c₀ :=
    { ownJob := eachInstr_idle h₀.procs
      loaded := outline_idle h₀.procs trivial
      answers := outline_idle h₀.procs trivial
      awaits := awaits_iff.mpr (.inl hprep) }
  have hinv : ProgressInv c := h.invariant hinit fun _ _ _ => progressInv_step
  intro hprepared hparse hfinished hqueue hidle hquiet
  rcases awaits_iff.mp hinv.awaits with hnone | hset | ⟨chunk, hmem, hlive⟩
  · exact absurd hnone hprepared
  · rcases settling_iff.mp hset with hdone | ⟨hpos | hdispatch, -⟩ | hdec
    · exact hdone
    · omega
    · exact nomatch hquiet.symm.trans hdispatch
    · exact nomatch hidle.symm.trans (running_of_decides hinv.ownJob hdec)
  · exact absurd hlive (hfinished chunk hmem)

theorem notStuck_finalized :
    ∃ c, (pipeline samplePhp).Reaches (fun c a => keepsFinalizing samplePhp c a = true)
        (sampleJob {} ["a@b.co"]) c ∧
      (c.store.job.status = .completed ∧ c.store.job.preparedAt = some 0 ∧
        ahead c (fun _ => true) = false) ∧ NotStuck c := by
  have hrun : ((pipeline samplePhp).runIf (fun c a => keepsFinalizing samplePhp c a = true)
      (sampleJob {} ["a@b.co"]) finalizedSchedule).any
        (fun c => c.store.job.status == .completed && (c.store.job.preparedAt == some 0 &&
          !ahead c fun _ => true)) = true := by
    decide
  obtain ⟨c, hreach, htest⟩ := Transition.System.exists_reaches hrun
  simp only [Bool.and_eq_true, beq_iff_eq, Bool.not_eq_true'] at htest
  exact ⟨c, hreach, htest,
    notStuck_of_keepsFinalizing ⟨rfl, rfl, rfl, rfl⟩ rfl hreach⟩

/-- The only chunk fails for good. -/
def failedSchedule : List Action :=
  .startParse [] :: turns 0 5 ++ .fail 0 false :: turns 1 2

/-- Nobody is going to finalize the job. -/
theorem lastFailure_stuck :
    ∃ c, (pipeline samplePhp).Reaches Transition.Always (sampleJob {} ["a@b.co"]) c ∧
      ¬ NotStuck c := by
  have hrun : ((pipeline samplePhp).run (sampleJob {} ["a@b.co"]) failedSchedule).any
      (fun c => c.store.job.preparedAt == some 0 && !running c isParse &&
        c.store.chunks.all (fun chunk => !decide (Live chunk)) && c.store.queue == 0 &&
        !running c isFinalize && !ahead c isDispatch && !decide (Done c.store.job)) = true := by
    decide
  obtain ⟨c, hreach, htest⟩ := Transition.System.exists_reaches_always hrun
  simp only [Bool.and_eq_true, beq_iff_eq, Bool.not_eq_true', List.all_eq_true,
    decide_eq_false_iff_not] at htest
  obtain ⟨⟨⟨⟨⟨⟨hprep, hparse⟩, hfinished⟩, hqueue⟩, hidle⟩, hquiet⟩, hdone⟩ := htest
  refine ⟨c, hreach, fun h => hdone (h ?_ hparse hfinished hqueue hidle hquiet)⟩
  rw [hprep]
  exact nofun

end ValidEmailVerifier
