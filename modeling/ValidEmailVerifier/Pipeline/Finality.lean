/-
# `Pipeline.Finality` — a completed job has no unfinished chunk

A finalize run completes the job when every chunk row it read is completed.  The
rows it did not see are those of the planners and requests that have passed
their status check and have not written yet.  When there are none of these at
the moment of the read (`settledWhenFinalizing`), the job is settled from then
on: every chunk is finished and no process can change that.
-/
import ValidEmailVerifier.Pipeline.Steps

namespace ValidEmailVerifier

open Processes

/-! ## Stray writes -/

/-- An instruction behind a status check that may leave a chunk unfinished. -/
def stray : Instr → Bool
  | .createChunk _ _ _ | .planHandoff _ | .beginProbe _ _ _ | .insertChunk _ | .commit
  | .planRetry _ | .splitRisky _ _ | .beginRetry _ _ _ | .updateFailed _ _ => true
  | _ => false

/-- An instruction of a finalize run that has decided to merge. -/
def finishing : Instr → Bool
  | .merge _ _ _ | .completeJob _ _ _ => true
  | _ => false

/-- When a finalize run finds every chunk completed, no request has a chunk still
to write; and no parse is started while a finalize run merges. -/
def settledWhenFinalizing (c : State) (a : Action) : Bool :=
  match a with
  | .startParse _ => !ahead c finishing
  | a =>
      match nextInstr c a with
      | some (.loadChunks job _) =>
          FinalizeVerificationJob.decision job c.store.chunks != .finalize || !ahead c stray
      | _ => true

/-- A chunk that is completed or failed. -/
def Finished (chunk : Chunk) : Prop := chunk.status = .completed ∨ chunk.status = .failed

theorem Finished.not_live {chunk : Chunk} (h : Finished chunk) : ¬ Live chunk :=
  ValidEmailVerifier.not_live h

/-- Every chunk is finished. -/
def ChunksFinished (s : Store) : Prop := ∀ chunk ∈ s.chunks, Finished chunk

/-- No instruction of the process can leave a chunk unfinished. -/
def Harmless (_ : Nat) (_ : Kind) (code : List Instr) (_ : Store) : Prop :=
  ∀ i ∈ code, stray i = false

/-- Every chunk is finished, and stays so. -/
def Settled (c : State) : Prop := Outline ChunksFinished Harmless c

/-! ## A settled job stays settled -/

section Settled
variable {php : Php} {p : Nat} {s s' : Store}

theorem ChunksFinished.find {id : Nat} {chunk : Chunk} (h : ChunksFinished s)
    (hfind : s.findChunk id = some chunk) : ¬ Live chunk :=
  (h chunk (Table.mem_of_find hfind)).not_live

/-- A harmless write leaves a finished row finished. -/
theorem Finished.write {i : Instr} {id : Nat} {model filled row : Chunk}
    (hrow : Finished row) (hw : Writes s i id model filled) (hi : stray i = false) :
    Finished (Chunk.update model filled row) := by
  cases hw with
  | completed r =>
      have hstatus : (Chunk.update r.chunk r.completed row).status =
          dirty r.chunk.status .completed row.status := rfl
      unfold Finished
      rw [hstatus, dirty]
      split
      · exact hrow
      · exact .inl rfl
  | failed => exact nomatch hi
  | parent model key filteredCount =>
      have hstatus : (Chunk.update model (model.withFilteredRisky key filteredCount)
          row).status = row.status := dirty_clean _ _
      unfold Finished
      rw [hstatus]
      exact hrow

/-- A harmless instruction leaves every chunk finished. -/
theorem ChunksFinished.change {i : Instr} (h : ChunksFinished s) (hc : Change p s i s')
    (hi : stray i = false) : ChunksFinished s' := by
  cases hc with
  | keep hchunks htxn =>
      intro chunk hmem
      exact h chunk (hchunks ▸ hmem)
  | create => exact nomatch hi
  | lock hbegins => cases hbegins <;> exact nomatch hi
  | stage => exact nomatch hi
  | violation => exact nomatch hi
  | commit => exact nomatch hi
  | write hwrites hchunks htxn =>
      intro chunk hmem
      rw [hchunks] at hmem
      refine Table.update_forall h ?_ chunk hmem
      intro row _ _ hrow
      exact hrow.write hwrites hi

theorem ChunksFinished.rollback (h : ChunksFinished s) (p : Nat) :
    ChunksFinished (s.rollback p) := by
  unfold Store.rollback
  split <;> exact h

theorem harmless_handler (k : Kind) (code : List Instr) :
    ∀ i ∈ handler k code, stray i = false :=
  forall_handler (fun _ => rfl) (fun _ => rfl) fun _ => rfl

/-- When every chunk is finished, a harmless instruction goes on harmlessly: the
status checks turn away whoever comes now. -/
theorem harmless_leads {i j : Instr} (hfin : ChunksFinished s) (hi : stray i = false)
    (h : Leads s i j) : stray j = false := by
  cases h with
  | handoff hfind hlive => exact absurd hlive (hfin.find hfind)
  | retry hfind hlive => exact absurd hlive (hfin.find hfind)
  | updateFailed hfind hlive => exact absurd hlive (hfin.find hfind)
  | put => rfl
  | complete => rfl
  | update => rfl
  | metrics => rfl
  | dispatch => rfl
  | saveMetrics => rfl
  | merge => rfl
  | failChunks => rfl
  | completeJob => rfl
  | failMissing => rfl
  | handoffUpdate => rfl
  | handoffMetrics => rfl
  | handoffDispatch => rfl
  | updateParent => rfl
  | _ => exact nomatch hi

end Settled

/-- **A settled job stays settled**, unless it is parsed again. -/
theorem settled_step {php : Php} {c c' : State} {a : Action} (h : Settled c)
    (hparse : ∀ lookups, a ≠ .startParse lookups) (hs : act php c a = some c') :
    Settled c' := by
  cases act_cases hs with
  | tick seconds => exact outline_withStore h h.store fun _ hJ => hJ
  | configure settings => exact outline_withStore h h.store fun _ hJ => hJ
  | upload disk chunkNo type file => exact outline_withStore h h.store fun _ hJ => hJ
  | claim hfind hpaused hcand =>
      have hpending : Live _ := .inl (by
        simp only [ClaimNext.isCandidate, Bool.and_eq_true, beq_iff_eq] at hcand
        exact hcand.1.1.1.1)
      exact absurd hpending (h.store.find hfind)
  | complete id payload =>
      refine h.spawn ?_
      intro i hi
      rw [List.mem_singleton.mp hi]
      rfl
  | fail id retryable =>
      refine h.spawn ?_
      intro i hi
      rw [List.mem_singleton.mp hi]
      rfl
  | startParse hstatus hidle => exact absurd rfl (hparse _)
  | startFinalize hqueue hidle =>
      refine outline_launch h h.store (fun _ hJ => hJ) ?_
      intro i hi
      rw [List.mem_singleton.mp hi]
      rfl
  | @exec p k i rest s' n hat hexec =>
      have hcode := h.procs hat
      have hi : stray i = false := hcode i (.head _)
      refine h.exec hat (h.store.change (exec_change hexec) hi) ?_ fun _ _ hJ => hJ
      intro j hj
      cases n with
      | raise => exact harmless_handler _ _ j hj
      | go code =>
          rcases List.mem_append.mp hj with hj | hj
          · exact harmless_leads h.store hi (exec_leads hexec j hj)
          · exact hcode j (.tail _ hj)
  | throw hat =>
      exact h.exec hat (h.store.rollback _) (harmless_handler _ _) fun _ _ hJ => hJ
  | kill hat =>
      refine h.exec hat (h.store.rollback _) ?_ fun _ _ hJ => hJ
      intro j hj
      exact nomatch hj

/-! ## Only a settled job is completed -/

/-- The job is completed, or a finalize run is about to complete it. -/
def Completing (c : State) : Prop := c.store.job.status = .completed ∨ ahead c finishing = true

/-- Whoever completes the job has seen it settled. -/
def CompletingSettled (c : State) : Prop := Completing c → Settled c

section Completing
variable {php : Php} {p : Nat} {s s' : Store} {n : Next Instr}

/-- A job row is only ever moved to completed, by the last instruction of a merging
run, or to failed. -/
theorem jobStatus_exec {i : Instr} (h : exec php p i s = some (s', n)) :
    s'.job.status = s.job.status ∨ s'.job.status = .failed ∨
      (s'.job.status = .completed ∧ finishing i = true) := by
  rcases (exec_frame h).job with hjob | ⟨model, filled, hw, hjob⟩
  · exact .inl (congrArg Job.status hjob)
  · have hstatus : s'.job.status = dirty model.status filled.status s.job.status :=
      congrArg Job.status hjob
    by_cases heq : filled.status = model.status
    · exact .inl (by rw [hstatus, dirty, if_pos heq])
    · rw [dirty, if_neg heq] at hstatus
      cases hw with
      | totals => exact absurd rfl heq
      | failJob => exact .inr (.inl hstatus)
      | completed => exact .inr (.inr ⟨hstatus, rfl⟩)
      | failed => exact .inr (.inl hstatus)

theorem finishing_handler (k : Kind) (code : List Instr) :
    ∀ i ∈ handler k code, finishing i = false :=
  forall_handler (fun _ => rfl) (fun _ => rfl) fun _ => rfl

/-- Only a finalize run that has found every chunk completed goes on to merge. -/
theorem finishing_leads {i j : Instr} (hi : finishing i = false) (h : Leads s i j)
    (hj : finishing j = true) : ∃ job cache, i = .loadChunks job cache ∧
      FinalizeVerificationJob.decision job s.chunks = .finalize := by
  cases h with
  | merge hfinalize => exact ⟨_, _, rfl, hfinalize⟩
  | completeJob => exact nomatch hi
  | _ => exact nomatch hj

end Completing

/-- What a process has left is finishing only if something was before, or if it has
just found every chunk completed. -/
theorem finishing_resume {php : Php} {p : Nat} {s s' : Store} {n : Next Instr} {k : Kind}
    {i j : Instr} {rest : List Instr} (hold : ∀ i' ∈ i :: rest, finishing i' = false)
    (hexec : exec php p i s = some (s', n))
    (hj : j ∈ n.resume (handler k (i :: rest)) rest) (hfin : finishing j = true) :
    ∃ job cache, i = .loadChunks job cache ∧
      FinalizeVerificationJob.decision job s.chunks = .finalize := by
  cases n with
  | raise =>
      have hno := finishing_handler k (i :: rest) j hj
      rw [hfin] at hno
      exact nomatch hno
  | go code =>
      rcases List.mem_append.mp hj with hj | hj
      · exact finishing_leads (hold i (.head _)) (exec_leads hexec j hj) hfin
      · have hno := hold j (.tail _ hj)
        rw [hfin] at hno
        exact nomatch hno

/-- The rows are all completed and nothing stray is ahead: the job is settled. -/
theorem settled_of_finalize {c : State} {job : Job}
    (hfinalize : FinalizeVerificationJob.decision job c.store.chunks = .finalize)
    (hstray : ahead c stray = false) : Settled c where
  store := by
    intro chunk hmem
    exact .inl (FinalizeVerificationJob.completed_of_finalize hfinalize chunk hmem)
  procs := fun hat => ahead_eq_false hstray hat

/-- **A step that begins to complete the job finds it settled.** -/
theorem completing_exec {php : Php} {c : State} {p : Nat} {k : Kind} {i : Instr}
    {rest : List Instr} {s' : Store} {n : Next Instr} (hbefore : ¬ Completing c)
    (hat : c.At p k (i :: rest)) (hexec : exec php p i c.store = some (s', n))
    (h : Completing ((withStore c s').setCode p (n.resume (handler k (i :: rest)) rest))) :
    ∃ job cache, i = .loadChunks job cache ∧
      FinalizeVerificationJob.decision job c.store.chunks = .finalize := by
  have hquiet : ahead c finishing = false := by
    by_contra hne
    exact hbefore (.inr (by simpa using hne))
  have hold := ahead_eq_false hquiet hat
  rcases h with hstatus | hahead
  · rcases jobStatus_exec hexec with hsame | hfailed | ⟨-, hi⟩
    · exact absurd (.inl (hsame ▸ hstatus)) hbefore
    · exact nomatch hfailed.symm.trans hstatus
    · have hno := hold i (.head _)
      rw [hi] at hno
      exact nomatch hno
  · rcases ahead_setCode hahead with hahead | ⟨j, hj, hfin⟩
    · exact absurd (.inr hahead) hbefore
    · exact finishing_resume hold hexec hj hfin

/-- Starting a process does not begin to complete the job. -/
theorem completing_spawn {c : State} {k : Kind} {code : List Instr}
    (hcode : ∀ i ∈ code, finishing i = false) (h : Completing (c.spawn k code)) :
    Completing c := by
  rcases h with hstatus | hahead
  · exact .inl hstatus
  · rcases ahead_spawn hahead with hahead | ⟨j, hj, hfin⟩
    · exact .inr hahead
    · rw [hcode j hj] at hfin
      exact nomatch hfin

/-- Nor does replacing the code of a process. -/
theorem completing_setCode {c : State} {p : Nat} {s : Store} {code : List Instr}
    (hjob : s.job = c.store.job) (hcode : ∀ i ∈ code, finishing i = false)
    (h : Completing ((withStore c s).setCode p code)) : Completing c := by
  rcases h with hstatus | hahead
  · have hstatus' : s.job.status = .completed := hstatus
    exact .inl (hjob ▸ hstatus')
  · rcases ahead_setCode hahead with hahead | ⟨j, hj, hfin⟩
    · exact .inr hahead
    · rw [hcode j hj] at hfin
      exact nomatch hfin

theorem finishing_parse {i : Instr} (h : isParseInstr i = true) : finishing i = false := by
  cases i <;> first | rfl | exact nomatch h

theorem completingSettled_step {php : Php} {c c' : State} {a : Action}
    (h : CompletingSettled c) (hcond : settledWhenFinalizing c a = true)
    (hs : act php c a = some c') : CompletingSettled c' := by
  intro hc'
  by_cases hc : Completing c
  · refine settled_step (h hc) ?_ hs
    rintro lookups rfl
    cases act_cases hs with
    | startParse hstatus hidle =>
        rcases hc with hcompleted | hahead
        · exact nomatch hstatus.symm.trans hcompleted
        · simp [settledWhenFinalizing, hahead] at hcond
  · have hlaunch : ∀ {k : Kind} {i : Instr}, finishing i = false → {s : Store} →
        s.job = c.store.job → ¬ Completing ((withStore c s).spawn k [i]) := by
      intro k i hi s hjob hspawn
      refine hc ((completing_spawn ?_ hspawn).imp_left fun hst => by rw [← hjob]; exact hst)
      intro j hj
      rw [List.mem_singleton.mp hj]
      exact hi
    cases act_cases hs with
    | tick seconds => exact absurd hc' hc
    | configure settings => exact absurd hc' hc
    | upload disk chunkNo type file => exact absurd hc' hc
    | claim hfind hpaused hcand => exact absurd hc' (hlaunch rfl rfl)
    | complete id payload => exact absurd hc' (hlaunch rfl rfl)
    | fail id retryable => exact absurd hc' (hlaunch rfl rfl)
    | startParse hstatus hidle =>
        refine absurd (completing_spawn ?_ hc') hc
        intro i hi
        exact finishing_parse (isParse_parseCode hi)
    | startFinalize hqueue hidle => exact absurd hc' (hlaunch rfl rfl)
    | @exec p k i rest s' n hat hexec =>
        obtain ⟨job, cache, rfl, hfinalize⟩ := completing_exec hc hat hexec hc'
        have hstray : ahead c stray = false := by
          simpa [settledWhenFinalizing, nextInstr_exec hat, hfinalize] using hcond
        refine settled_step (settled_of_finalize hfinalize hstray) ?_ hs
        exact nofun
    | throw hat =>
        refine absurd (completing_setCode ?_ ?_ hc') hc
        · exact Store.rollback_job _
        · exact finishing_handler _ _
    | kill hat =>
        refine absurd (completing_setCode ?_ ?_ hc') hc
        · exact Store.rollback_job _
        · exact fun j hj => nomatch hj

/-! ## The law -/

/-- Nothing makes a job processing again. -/
theorem not_processing_step {php : Php} {c c' : State} {a : Action}
    (h : c.store.job.status ≠ .processing) (hs : act php c a = some c') :
    c'.store.job.status ≠ .processing := by
  cases act_cases hs with
  | exec hat hexec =>
      rcases jobStatus_exec hexec with hsame | hfailed | ⟨hcompleted, -⟩
      · exact fun hst => h (hsame ▸ hst)
      · exact fun hst => nomatch hfailed.symm.trans hst
      · exact fun hst => nomatch hcompleted.symm.trans hst
  | throw hat =>
      show (c.store.rollback _).job.status ≠ .processing
      rw [Store.rollback_job]
      exact h
  | kill hat =>
      show (c.store.rollback _).job.status ≠ .processing
      rw [Store.rollback_job]
      exact h
  | _ => exact h

/-- Once the job is completed, none of its chunks is pending or processing, then or
in any later state. -/
def CompletedForGood (php : Php) (c : State) : Prop :=
  c.store.job.status = .completed → ∀ c', (pipeline php).Reaches Transition.Always c c' →
    ∀ chunk ∈ c'.store.chunks, ¬ Live chunk

/-- **A completed job has no unfinished chunk, and never gets one again**, in every
run in which a finalize run that finds all chunks completed is not overtaken. -/
theorem completedForGood_of_settledWhenFinalizing {php : Php} {c₀ c : State}
    (h₀ : Untouched c₀) (hstatus : c₀.store.job.status ≠ .completed)
    (h : (pipeline php).Reaches (fun c a => settledWhenFinalizing c a = true) c₀ c) :
    CompletedForGood php c := by
  have hinit : CompletingSettled c₀ := by
    rintro (hcompleted | hahead)
    · exact absurd hcompleted hstatus
    · obtain ⟨p, k, code, hat, -⟩ := ahead_iff.mp hahead
      have hp : c₀.procs[p]? = some ⟨k, code⟩ := hat
      rw [h₀.procs] at hp
      exact nomatch hp
  have hsettled : CompletingSettled c :=
    h.invariant hinit fun _ _ _ => completingSettled_step
  intro hcompleted c' hrun
  have hlater : Settled c' ∧ c'.store.job.status ≠ .processing := by
    refine hrun.invariant (P := fun d => Settled d ∧ d.store.job.status ≠ .processing)
      ⟨hsettled (.inl hcompleted), ?_⟩ ?_
    · rw [hcompleted]
      exact nofun
    · rintro t a u ⟨hset, hproc⟩ - hs
      refine ⟨settled_step hset ?_ hs, not_processing_step hproc hs⟩
      -- a parse would need a processing job
      rintro lookups rfl
      have hparse : act php t (.startParse lookups) = some u := hs
      cases act_cases hparse with
      | startParse hprocessing hidle => exact hproc hprocessing
  exact fun chunk hmem => (hlater.1.store chunk hmem).not_live

/-- One address is verified in one chunk, and the job is finalized. -/
def finalizedSchedule : List Action :=
  .startParse [] :: turns 0 5 ++
    claimBy 0 ["a@b.co"] .valid "rcpt_ok" :: turns 1 9 ++ .startFinalize [] :: turns 2 6

theorem completedForGood_finalized :
    ∃ c, (pipeline samplePhp).Reaches (fun c a => settledWhenFinalizing c a = true)
        (sampleJob {} ["a@b.co"]) c ∧
      (c.store.job.status = .completed ∧ c.store.chunks.length = 1) ∧
        CompletedForGood samplePhp c := by
  have hrun : ((pipeline samplePhp).runIf (fun c a => settledWhenFinalizing c a = true)
      (sampleJob {} ["a@b.co"]) finalizedSchedule).any
        (fun c => c.store.job.status == .completed && c.store.chunks.length == 1) = true := by
    decide
  obtain ⟨c, hreach, htest⟩ := Transition.System.exists_reaches hrun
  rw [Bool.and_eq_true, beq_iff_eq, beq_iff_eq] at htest
  exact ⟨c, hreach, htest,
    completedForGood_of_settledWhenFinalizing ⟨rfl, rfl, rfl, rfl⟩ (by decide) hreach⟩

/-- A finalize run that the screening chunk has left on the queue comes between the
update of the probe chunk and the planning of its retry. -/
def overtakenSchedule : List Action :=
  .startParse [] :: turns 0 5 ++
    claimBy 0 ["a@b.co"] .valid "rcpt_ok" :: turns 1 17 ++
    claimBy 1 ["a@b.co"] .risky "smtp_tempfail" :: turns 2 6 ++
    .startFinalize [] :: turns 3 6 ++ turns 2 8

/-- The retry chunk appears after the job was completed. -/
theorem overtaken_not_completedForGood :
    ∃ c, (pipeline samplePhp).Reaches Transition.Always
        (sampleJob (retrySettings 3) ["a@b.co"]) c ∧ ¬ CompletedForGood samplePhp c := by
  have hrun : ((pipeline samplePhp).run (sampleJob (retrySettings 3) ["a@b.co"])
      overtakenSchedule).any (fun c => c.store.job.status == .completed &&
        c.store.chunks.any fun chunk => decide (Live chunk)) = true := by
    decide
  obtain ⟨c, hreach, htest⟩ := Transition.System.exists_reaches_always hrun
  rw [Bool.and_eq_true, beq_iff_eq] at htest
  obtain ⟨chunk, hmem, hlive⟩ := List.any_eq_true.mp htest.2
  exact ⟨c, hreach, fun h => h htest.1 c .refl chunk hmem (by simpa using hlive)⟩

end ValidEmailVerifier
