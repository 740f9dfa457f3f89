/-
# `Pipeline.Attempts` — which chunks a worker can be handed

The claim query wants `retry_attempt < max_probe_attempts` of a probe chunk and
no lease on a pending one.  Both are invariants of the rows, and of the models
that requests hold while they work, as long as the retry planner schedules a
retry only of a chunk that has an attempt to spare; the planner itself asks for
one attempt less.
-/
import ValidEmailVerifier.Pipeline.Steps

namespace ValidEmailVerifier

open Processes

/-- A pending chunk has no lease, and a processing one has. -/
structure LeaseOk (chunk : Chunk) : Prop where
  pending : chunk.status = .pending → chunk.claimExpiresAt = none
  processing : chunk.status = .processing → chunk.claimExpiresAt ≠ none

/-- A worker can be handed the chunk while it is pending. -/
structure RowOk (chunk : Chunk) : Prop where
  lease : LeaseOk chunk
  attempts : ClaimNext.attemptsLeft chunk = true

/-- What an instruction may hold. -/
def InstrOk : Instr → Prop
  | .insertChunk row => RowOk row
  | .planHandoff r => Live r.chunk
  | .updateCompleted r => Live r.chunk
  | .updateFailed chunk _ => Live chunk ∧ LeaseOk chunk
  | _ => True

/-- Every row, committed or not, is fit to be handed out. -/
structure RowsOk (s : Store) : Prop where
  chunks : ∀ c ∈ s.chunks, RowOk c
  staged : ∀ t, s.txn = some t → ∀ c ∈ t.rows, RowOk c

/-- Every instruction of a process holds what it may. -/
def CodeOk (_ : Nat) (_ : Kind) (code : List Instr) (_ : Store) : Prop :=
  ∀ i ∈ code, InstrOk i

/-- A step schedules a retry only of a chunk with an attempt to spare. -/
def retriesWithinLimit (c : State) (a : Action) : Bool :=
  match nextInstr c a with
  | some (.beginRetry chunk _ _) => decide (chunk.retryAttempt + 1 < chunk.maxProbeAttempts)
  | _ => true

/-! ## Rows -/

/-- A finished chunk has nothing to answer for. -/
theorem LeaseOk.finished {chunk : Chunk} (h : ¬ Live chunk) : LeaseOk chunk :=
  ⟨fun hst => absurd (.inl hst) h, fun hst => absurd (.inr hst) h⟩

theorem attemptsLeft_update (model filled row : Chunk) :
    ClaimNext.attemptsLeft (Chunk.update model filled row) = ClaimNext.attemptsLeft row := rfl

theorem nextStatus_cases (σ : Settings) (chunk : Chunk) (retryable : Bool) :
    chunk.nextStatus σ retryable = .pending ∨ chunk.nextStatus σ retryable = .failed := by
  unfold Chunk.nextStatus
  split
  · exact .inl rfl
  · exact .inr rfl

/-- A failure that leaves the chunk pending writes both its status and its lease,
or neither. -/
theorem LeaseOk.failed {model row : Chunk} (hrow : LeaseOk row) (hlive : Live model)
    (hmodel : LeaseOk model) (σ : Settings) (retryable : Bool) :
    LeaseOk (Chunk.update model (model.failedAttempt σ retryable) row) := by
  have hfilled : (model.failedAttempt σ retryable).status = model.nextStatus σ retryable := rfl
  have hexp : (Chunk.update model (model.failedAttempt σ retryable) row).claimExpiresAt =
      dirty model.claimExpiresAt none row.claimExpiresAt := rfl
  rcases nextStatus_cases σ model retryable with hnext | hnext
  · rcases hlive with h | h
    · -- nothing is dirty: the row keeps both
      have hstatus : (Chunk.update model (model.failedAttempt σ retryable) row).status =
          row.status := by
        rw [Chunk.update_status, hfilled, hnext, h, dirty_clean]
      have hlease : (Chunk.update model (model.failedAttempt σ retryable) row).claimExpiresAt =
          row.claimExpiresAt := by
        rw [hexp, hmodel.pending h, dirty_clean]
      exact ⟨fun hst => hlease ▸ hrow.pending (hstatus ▸ hst),
        fun hst => hlease ▸ hrow.processing (hstatus ▸ hst)⟩
    · have hstatus : (Chunk.update model (model.failedAttempt σ retryable) row).status =
          .pending := by
        have hne : ChunkStatus.pending ≠ model.status := by rw [h]; decide
        rw [Chunk.update_status, hfilled, hnext, dirty, if_neg hne]
      refine ⟨fun _ => ?_, fun hst => by rw [hstatus] at hst; exact nomatch hst⟩
      rw [hexp, dirty, if_neg (fun heq => hmodel.processing h heq.symm)]
  · have hne : ChunkStatus.failed ≠ model.status := by
      rcases hlive with h | h <;> rw [h] <;> decide
    refine .finished (not_live (.inr ?_))
    rw [Chunk.update_status, hfilled, hnext, dirty, if_neg hne]

/-- A write of a request keeps the row fit, whatever it was computed from. -/
theorem RowOk.write {s : Store} {i : Instr} {id : Nat} {model filled row : Chunk}
    (hrow : RowOk row) (hw : Writes s i id model filled) (hi : InstrOk i) :
    RowOk (Chunk.update model filled row) := by
  refine ⟨?_, by rw [attemptsLeft_update]; exact hrow.attempts⟩
  cases hw with
  | completed r =>
      have hlive : Live r.chunk := hi
      have hstatus : (Chunk.update r.chunk r.completed row).status = .completed := by
        have hne : ChunkStatus.completed ≠ r.chunk.status := by
          rcases hlive with h | h <;> rw [h] <;> decide
        exact if_neg hne
      exact .finished (not_live (.inl hstatus))
  | failed model retryable => exact hrow.lease.failed hi.1 hi.2 s.settings retryable
  | parent model key filteredCount =>
      have hstatus : (Chunk.update model (model.withFilteredRisky key filteredCount)
          row).status = row.status := dirty_clean _ _
      have hexp : (Chunk.update model (model.withFilteredRisky key filteredCount)
          row).claimExpiresAt = row.claimExpiresAt := dirty_clean _ _
      exact ⟨fun h => hexp ▸ hrow.lease.pending (hstatus ▸ h),
        fun h => hexp ▸ hrow.lease.processing (hstatus ▸ h)⟩

theorem RowOk.claimed {row : Chunk} (h : RowOk row) (now server : Nat) (worker : Text)
    (lease : Int) (token : Nat) : RowOk (ClaimNext.claimed now server worker lease token row) :=
  ⟨⟨nofun, nofun⟩, h.attempts⟩

/-- The probe planner gives a chunk at least one attempt. -/
theorem rowOk_probeChunk (parent id chunkNo group : Nat) (disk : Disk) (σ : Settings)
    (shard : ScreeningToProbeChunkPlanner.Shard) (now : Nat) :
    RowOk (ScreeningToProbeChunkPlanner.probeChunk parent id chunkNo group disk
      σ.probeAttempts shard now) := by
  refine ⟨⟨fun _ => rfl, nofun⟩, ?_⟩
  have hpos : 0 < σ.probeAttempts := by
    unfold Settings.probeAttempts
    omega
  exact decide_eq_true hpos

theorem rowOk_retryRow {s : Store} {chunk : Chunk} {disk : Disk} {emails : List Text}
    (h : chunk.retryAttempt + 1 < chunk.maxProbeAttempts) :
    RowOk (retryRow s chunk disk emails) := by
  refine ⟨⟨fun _ => rfl, nofun⟩, ?_⟩
  exact decide_eq_true h

/-! ## Store -/

theorem RowsOk.of_eq {s s' : Store} (h : RowsOk s) (hchunks : s'.chunks = s.chunks)
    (htxn : s'.txn = s.txn) : RowsOk s' :=
  ⟨fun c hc => h.chunks c (hchunks ▸ hc), fun t ht => h.staged t (htxn ▸ ht)⟩

theorem RowsOk.rollback {s : Store} (h : RowsOk s) (p : Nat) : RowsOk (s.rollback p) := by
  unfold Store.rollback
  split
  · exact ⟨h.chunks, fun t ht => nomatch ht⟩
  · exact h

/-- Every instruction keeps the rows fit. -/
theorem RowsOk.change {p : Nat} {s s' : Store} {i : Instr} (h : RowsOk s)
    (hc : Change p s i s') (hi : InstrOk i) : RowsOk s' := by
  cases hc with
  | keep hchunks htxn => exact h.of_eq hchunks htxn
  | create hfree hunstaged hchunks htxn =>
      refine ⟨fun c hc => ?_, fun t ht => h.staged t (htxn ▸ ht)⟩
      rw [hchunks] at hc
      rcases List.mem_append.mp hc with hc | hc
      · exact h.chunks c hc
      · rw [List.mem_singleton.mp hc]
        exact ⟨⟨fun _ => rfl, nofun⟩, rfl⟩
  | lock hbegins hopen hchunks htxn =>
      refine ⟨fun c hc => h.chunks c (hchunks ▸ hc), fun t ht c hc => ?_⟩
      rw [htxn] at ht
      cases ht
      exact nomatch hc
  | stage hfree hopen hchunks htxn =>
      refine ⟨fun c hc => h.chunks c (hchunks ▸ hc), fun t ht c hc => ?_⟩
      rw [htxn] at ht
      cases ht
      rcases List.mem_append.mp hc with hc | hc
      · exact h.staged _ hopen c hc
      · rw [List.mem_singleton.mp hc]
        exact hi
  | violation htaken hs => exact hs ▸ h.rollback p
  | commit hopen hchunks htxn =>
      refine ⟨fun c hc => ?_, fun t ht => by rw [htxn] at ht; exact nomatch ht⟩
      rw [hchunks] at hc
      rcases List.mem_append.mp hc with hc | hc
      · exact h.chunks c hc
      · exact h.staged _ hopen c hc
  | write hwrites hchunks htxn =>
      refine ⟨?_, fun t ht => h.staged t (htxn ▸ ht)⟩
      rw [hchunks]
      exact Table.update_forall h.chunks fun r _ _ hr => hr.write hwrites hi

/-! ## Code -/

/-- A row that is found is a row of the table. -/
theorem RowsOk.find {s : Store} {id : Nat} {chunk : Chunk} (h : RowsOk s)
    (hfind : s.findChunk id = some chunk) : RowOk chunk :=
  h.chunks chunk (Table.mem_of_find hfind)

theorem instrOk_parse {i : Instr} (h : isParseInstr i = true) : InstrOk i := by
  cases i <;> trivial

/-- **What a process goes on with holds what it may**, when retries are within
the limit. -/
theorem InstrOk.leads {s : Store} {i j : Instr} (hrows : RowsOk s) (hi : InstrOk i)
    (hlimit : ∀ chunk disk emails, i = .beginRetry chunk disk emails →
      chunk.retryAttempt + 1 < chunk.maxProbeAttempts)
    (h : Leads s i j) : InstrOk j := by
  cases h with
  | handoff hfind hlive => exact hlive
  | update hfind hlive => exact hlive
  | handoffUpdate r => exact hi
  | insertProbe => exact rowOk_probeChunk _ _ _ _ _ _ _ _
  | insertRetry chunk disk emails => exact rowOk_retryRow (hlimit chunk disk emails rfl)
  | updateFailed hfind hlive => exact ⟨hlive, (hrows.find hfind).lease⟩
  | _ => trivial

/-! ## Runs -/

theorem instrOk_handler (k : Kind) (code : List Instr) :
    ∀ i ∈ handler k code, InstrOk i :=
  forall_handler (fun _ => trivial) (fun _ => trivial) fun _ => trivial

/-- A write of the environment changes neither rows nor transactions. -/
theorem attempts_step {php : Php} {c c' : State} {a : Action}
    (h : Outline RowsOk CodeOk c) (hlimit : retriesWithinLimit c a = true)
    (hs : act php c a = some c') : Outline RowsOk CodeOk c' := by
  cases act_cases hs with
  | tick seconds => exact outline_withStore h (h.store.of_eq rfl rfl) fun _ hJ => hJ
  | configure settings => exact outline_withStore h (h.store.of_eq rfl rfl) fun _ hJ => hJ
  | upload disk chunkNo type file =>
      exact outline_withStore h (h.store.of_eq rfl rfl) fun _ hJ => hJ
  | claim hfind hpaused hcand =>
      refine outline_launch h ⟨?_, h.store.staged⟩ ?_ ?_
      · exact Table.update_forall h.store.chunks fun r _ _ hr => hr.claimed _ _ _ _ _
      · exact fun _ hJ => hJ
      · exact fun i hi => by rw [List.mem_singleton.mp hi]; trivial
  | complete id payload =>
      exact h.spawn fun i hi => by rw [List.mem_singleton.mp hi]; trivial
  | fail id retryable =>
      exact h.spawn fun i hi => by rw [List.mem_singleton.mp hi]; trivial
  | startParse hstatus hidle =>
      exact h.spawn fun i hi => instrOk_parse (isParse_parseCode hi)
  | startFinalize hqueue hidle =>
      refine outline_launch h ?_ ?_ ?_
      · exact h.store.of_eq rfl rfl
      · exact fun _ hJ => hJ
      · exact fun i hi => by rw [List.mem_singleton.mp hi]; trivial
  | @exec p k i rest s' n hat hexec =>
      have hcode := h.procs hat
      have hi : InstrOk i := hcode i (.head _)
      refine h.exec hat (h.store.change (exec_change hexec) hi) ?_ fun _ _ hJ => hJ
      intro j hj
      cases n with
      | raise => exact instrOk_handler _ _ j hj
      | go code =>
          rcases List.mem_append.mp hj with hj | hj
          · refine hi.leads h.store ?_ (exec_leads hexec j hj)
            rintro chunk disk emails rfl
            simpa [retriesWithinLimit, nextInstr_exec hat] using hlimit
          · exact hcode j (.tail _ hj)
  | throw hat =>
      exact h.exec hat (h.store.rollback _) (instrOk_handler _ _) fun _ _ hJ => hJ
  | kill hat => exact h.exec hat (h.store.rollback _) (fun _ hj => nomatch hj) fun _ _ hJ => hJ

theorem attempts_untouched {c : State} (h : Untouched c) : Outline RowsOk CodeOk c := by
  refine outline_idle h.procs ⟨fun c' hc => ?_, fun t ht => ?_⟩
  · rw [h.chunks] at hc
    exact nomatch hc
  · rw [h.txn] at ht
    exact nomatch ht

/-! ## The law -/

/-- Every pending probe chunk that one of the planners made can be handed to a
worker, as soon as its backoff is over. -/
def PlannedClaimable (s : Store) : Prop :=
  ∀ chunk ∈ s.chunks, chunk.status = .pending → chunk.processingStage = some .smtpProbe →
    chunk.sourceStage ≠ none → ClaimNext.attemptsLeft chunk = true ∧
      ∀ now, chunk.availableAt.all (· ≤ now) = true →
        ClaimNext.isCandidate now .smtpProbe chunk = true ∧
          ClaimNext.isCandidate now .all chunk = true

theorem RowsOk.plannedClaimable {s : Store} (h : RowsOk s) : PlannedClaimable s := by
  intro chunk hc hpending hstage _
  obtain ⟨hlease, hattempts⟩ := h.chunks chunk hc
  refine ⟨hattempts, fun now havail => ?_⟩
  have hexp : chunk.claimExpiresAt = none := hlease.pending hpending
  constructor
  · simp [ClaimNext.isCandidate, ClaimNext.stageMatches, hpending, hstage, havail, hexp,
      hattempts]
  · simp [ClaimNext.isCandidate, ClaimNext.stageMatches, hpending, havail, hexp, hattempts]

/-- **Planned chunks can be claimed** in every run that schedules retries within
the attempt limit. -/
theorem plannedClaimable_of_retriesWithinLimit {php : Php} {c₀ c : State}
    (h₀ : Untouched c₀)
    (h : (pipeline php).Reaches (fun c a => retriesWithinLimit c a = true) c₀ c) :
    PlannedClaimable c.store := by
  have hinv := h.invariant (attempts_untouched h₀) fun _ _ _ => attempts_step
  exact hinv.store.plannedClaimable

theorem plannedClaimable_retry :
    ∃ c, (pipeline samplePhp).Reaches (fun c a => retriesWithinLimit c a = true)
        (sampleJob (retrySettings 3) ["a@b.co"]) c ∧
      (c.store.chunks.any fun chunk => chunk.retryAttempt == 1) = true ∧
        PlannedClaimable c.store := by
  have hrun : ((pipeline samplePhp).runIf (fun c a => retriesWithinLimit c a = true)
      (sampleJob (retrySettings 3) ["a@b.co"]) tempfailSchedule).any
        (fun c => c.store.chunks.any fun chunk => chunk.retryAttempt == 1) = true := by
    decide
  obtain ⟨c, hreach, hretry⟩ := Transition.System.exists_reaches hrun
  exact ⟨c, hreach, hretry,
    plannedClaimable_of_retriesWithinLimit ⟨rfl, rfl, rfl, rfl⟩ hreach⟩

/-- With a limit of one attempt the retry is planned and can never be claimed. -/
theorem lastRetry_not_claimable :
    ∃ c, (pipeline samplePhp).Reaches Transition.Always
        (sampleJob (retrySettings 1) ["a@b.co"]) c ∧ ¬ PlannedClaimable c.store := by
  have hrun : ((pipeline samplePhp).run (sampleJob (retrySettings 1) ["a@b.co"])
      tempfailSchedule).any (fun c => c.store.chunks.any fun chunk =>
        chunk.status == .pending && chunk.processingStage == some .smtpProbe &&
          chunk.sourceStage == some .smtpProbe && !ClaimNext.attemptsLeft chunk) = true := by
    decide
  obtain ⟨c, hreach, hbad⟩ := Transition.System.exists_reaches_always hrun
  refine ⟨c, hreach, fun h => ?_⟩
  obtain ⟨chunk, hc, htest⟩ := List.any_eq_true.mp hbad
  simp only [Bool.and_eq_true, beq_iff_eq, Bool.not_eq_true'] at htest
  obtain ⟨⟨⟨hpending, hstage⟩, hsource⟩, hleft⟩ := htest
  have hclaim := (h chunk hc hpending hstage (by rw [hsource]; decide)).1
  rw [hleft] at hclaim
  exact nomatch hclaim

end ValidEmailVerifier
