/-
# `Pipeline.Leases` — a lease that runs out

The claim query tests `claim_expires_at`, but it also wants the chunk pending,
and nothing but a request about the chunk makes it so again.  A chunk whose
worker is gone therefore keeps its row, and is no candidate, in every run in
which nobody sends a completion or a failure for it.
-/
import ValidEmailVerifier.Pipeline.Steps

namespace ValidEmailVerifier

open Processes

/-- The step is not the arrival of a request about chunk `id`. -/
def noRequest (id : Nat) (_ : State) : Action → Bool
  | .complete id' _ => id' != id
  | .fail id' _ => id' != id
  | _ => true

/-- Nobody works on chunk `id`: its worker has died, and no request about it is
being answered. -/
def Abandoned (c : State) (id : Nat) : Prop :=
  ∀ (p : Nat) (k : Kind) (code : List Instr), c.At p k code → k.subject = some id → code = []

/-- A chunk that nobody works on, with the row it was left with. -/
structure Stranded (id : Nat) (chunk : Chunk) (c : State) : Prop where
  focused : AllFocused c
  abandoned : Abandoned c id
  row : c.store.findChunk id = some chunk
  processing : chunk.status = .processing

theorem not_candidate_of_processing {chunk : Chunk} (h : chunk.status = .processing)
    (now : Nat) (capability : ClaimNext.Capability) :
    ClaimNext.isCandidate now capability chunk = false := by
  simp [ClaimNext.isCandidate, h]

/-! ## One step -/

/-- An instruction that is not about the chunk leaves its row alone. -/
theorem findChunk_change {p id : Nat} {s s' : Store} {i : Instr} {chunk : Chunk}
    (h : Change p s i s') (hfind : s.findChunk id = some chunk)
    (hsubject : subject i ≠ some id) : s'.findChunk id = some chunk := by
  rcases h.find hfind with hsame | ⟨model, filled, hwrites, -⟩
  · exact hsame
  · exact absurd hwrites.subject hsubject

theorem Abandoned.spawn {c : State} {id : Nat} {k : Kind} {code : List Instr}
    (h : Abandoned c id) (hk : k.subject ≠ some id) : Abandoned (c.spawn k code) id := by
  intro p k' code' hat hs
  rcases Conf.at_spawn.mp hat with hat | ⟨-, rfl, -⟩
  · exact h p k' code' hat hs
  · exact absurd hs hk

theorem Abandoned.setCode {c : State} {id p : Nat} {s' : Store} {k : Kind} {i : Instr}
    {rest code : List Instr} (h : Abandoned c id) (hat : c.At p k (i :: rest)) :
    Abandoned ((withStore c s').setCode p code) id := by
  intro q k' code' hq hs
  rcases Conf.at_setCode.mp hq with ⟨rfl, rfl, old, hold⟩ | ⟨-, hq'⟩
  · -- a process about the chunk has no next instruction
    obtain ⟨rfl, -⟩ := Conf.At.unique hat hold
    exact nomatch h q k _ hat hs
  · exact h q k' code' hq' hs

/-- **An abandoned lease stays**: no step but a request about the chunk moves it. -/
theorem stranded_step {php : Php} {id : Nat} {chunk : Chunk} {c c' : State} {a : Action}
    (h : Stranded id chunk c) (hno : noRequest id c a = true)
    (hs : act php c a = some c') : Stranded id chunk c' := by
  have hfocused := focused_step h.focused hs
  cases act_cases hs with
  | tick seconds => exact ⟨hfocused, h.abandoned, h.row, h.processing⟩
  | configure settings => exact ⟨hfocused, h.abandoned, h.row, h.processing⟩
  | upload disk chunkNo type file => exact ⟨hfocused, h.abandoned, h.row, h.processing⟩
  | @claim id' capability _ _ _ _ other hfind hpaused hcand =>
      have hne : id' ≠ id := by
        rintro rfl
        obtain rfl : other = chunk := by
          rw [h.row, Option.some.injEq] at hfind
          exact hfind.symm
        rw [not_candidate_of_processing h.processing] at hcand
        exact nomatch hcand
      refine ⟨hfocused, ?_, ?_, h.processing⟩
      · refine Abandoned.spawn h.abandoned ?_
        exact fun hk => hne (Option.some.inj hk)
      · refine Eq.trans (Store.findChunk_updateChunk_of_ne ?_ hne.symm) h.row
        exact fun _ => rfl
  | complete id' payload =>
      refine ⟨hfocused, Abandoned.spawn h.abandoned fun hk => ?_, h.row, h.processing⟩
      simp [noRequest, Option.some.inj hk] at hno
  | fail id' retryable =>
      refine ⟨hfocused, Abandoned.spawn h.abandoned fun hk => ?_, h.row, h.processing⟩
      simp [noRequest, Option.some.inj hk] at hno
  | startParse hstatus hidle =>
      refine ⟨hfocused, Abandoned.spawn h.abandoned ?_, h.row, h.processing⟩
      exact nofun
  | startFinalize hqueue hidle =>
      refine ⟨hfocused, Abandoned.spawn h.abandoned ?_, h.row, h.processing⟩
      exact nofun
  | @exec p k i rest s' n hat hexec =>
      refine ⟨hfocused, Abandoned.setCode h.abandoned hat, ?_, h.processing⟩
      refine findChunk_change (exec_change hexec) h.row fun hsub => ?_
      -- the process would be about the chunk
      rcases h.focused p k _ hat i (.head _) with hi | hi
      · rw [hi] at hsub
        exact nomatch hsub
      · exact nomatch h.abandoned p k _ hat (hi ▸ hsub)
  | throw hat =>
      refine ⟨hfocused, Abandoned.setCode h.abandoned hat, ?_, h.processing⟩
      exact (Store.findChunk_rollback _).trans h.row
  | kill hat =>
      refine ⟨hfocused, Abandoned.setCode h.abandoned hat, ?_, h.processing⟩
      exact (Store.findChunk_rollback _).trans h.row

/-! ## The law -/

/-- An expired lease makes its chunk a candidate again, for a worker of the
chunk's stage. -/
def ExpiredLeasesClaimable (s : Store) : Prop :=
  ∀ chunk ∈ s.chunks, chunk.status = .processing →
    chunk.claimExpiresAt.any (· < s.now) = true →
    chunk.availableAt.all (· ≤ s.now) = true → ClaimNext.attemptsLeft chunk = true →
      ClaimNext.isCandidate s.now .all chunk = true

/-- **An expired lease is never claimed again.**  In every state a worker's run
can lead to, a processing chunk is no candidate, whatever its lease says and
whoever asks; and when nobody works on it any more, it keeps its row for good,
in every run in which no request about it is sent. -/
theorem expiredLease_stranded {php : Php} {c₀ c : State} (h₀ : Untouched c₀)
    (h : (pipeline php).Reaches Transition.Always c₀ c) {id : Nat} {chunk : Chunk}
    (hrow : c.store.findChunk id = some chunk) (hproc : chunk.status = .processing) :
    (∀ now capability, ClaimNext.isCandidate now capability chunk = false) ∧
      (Abandoned c id → ∀ c', (pipeline php).Reaches (fun c a => noRequest id c a = true) c c' →
        c'.store.findChunk id = some chunk ∧
          ∀ capability, ClaimNext.isCandidate c'.store.now capability chunk = false) := by
  have hfocused : AllFocused c :=
    h.invariant (eachInstr_idle h₀.procs) fun _ _ _ hf _ hs => focused_step hf hs
  refine ⟨fun now capability => not_candidate_of_processing hproc now capability, ?_⟩
  intro habandoned c' hrun
  have hstay : Stranded id chunk c' :=
    hrun.invariant ⟨hfocused, habandoned, hrow, hproc⟩ fun _ _ _ => stranded_step
  exact ⟨hstay.row, fun capability => not_candidate_of_processing hproc _ capability⟩

/-- A worker takes the only chunk of a job and dies; its lease runs out. -/
def deadWorkerSchedule : List Action :=
  .startParse [] :: turns 0 5 ++
    [claimBy 0 ["a@b.co"] .valid "rcpt_ok", .kill 1, .tick 601]

theorem expiredLease_stranded_deadWorker :
    ∃ c chunk, (pipeline samplePhp).Reaches Transition.Always (sampleJob {} ["a@b.co"]) c ∧
      c.store.findChunk 0 = some chunk ∧ chunk.claimExpiresAt = some 600 ∧
        c.store.now = 601 ∧ ∀ c', (pipeline samplePhp).Reaches
            (fun c a => noRequest 0 c a = true) c c' →
          c'.store.findChunk 0 = some chunk ∧
            ∀ capability, ClaimNext.isCandidate c'.store.now capability chunk = false := by
  have hrun : ((pipeline samplePhp).run (sampleJob {} ["a@b.co"]) deadWorkerSchedule).any
      (fun c => (c.store.findChunk 0).any (fun chunk => chunk.status == .processing &&
          chunk.claimExpiresAt == some 600) && c.store.now == 601 &&
        c.procs.all (fun q => q.code.isEmpty)) = true := by
    decide
  obtain ⟨c, hreach, htest⟩ := Transition.System.exists_reaches_always hrun
  rw [Bool.and_eq_true, Bool.and_eq_true, beq_iff_eq] at htest
  obtain ⟨⟨hfind, hnow⟩, hidle⟩ := htest
  obtain ⟨chunk, hrow, hchunk⟩ := (Option.any_eq_true _ _).mp hfind
  simp only [Bool.and_eq_true, beq_iff_eq] at hchunk
  have habandoned : Abandoned c 0 := by
    intro p k code hat _
    have hcode := List.all_eq_true.mp hidle _ (List.mem_of_getElem? hat)
    simpa using hcode
  exact ⟨c, chunk, hreach, hrow, hchunk.2, hnow,
    (expiredLease_stranded ⟨rfl, rfl, rfl, rfl⟩ hreach hrow hchunk.1).2 habandoned⟩

/-- The chunk of the dead worker has an expired lease and is no candidate. -/
theorem deadWorker_not_claimable :
    ∃ c, (pipeline samplePhp).Reaches Transition.Always (sampleJob {} ["a@b.co"]) c ∧
      ¬ ExpiredLeasesClaimable c.store := by
  have hrun : ((pipeline samplePhp).run (sampleJob {} ["a@b.co"]) deadWorkerSchedule).any
      (fun c => c.store.chunks.any fun chunk => chunk.status == .processing &&
        chunk.claimExpiresAt.any (· < c.store.now) &&
        chunk.availableAt.all (· ≤ c.store.now) && ClaimNext.attemptsLeft chunk) = true := by
    decide
  obtain ⟨c, hreach, hbad⟩ := Transition.System.exists_reaches_always hrun
  refine ⟨c, hreach, fun h => ?_⟩
  obtain ⟨chunk, hc, htest⟩ := List.any_eq_true.mp hbad
  simp only [Bool.and_eq_true, beq_iff_eq] at htest
  obtain ⟨⟨⟨hproc, hexp⟩, havail⟩, hleft⟩ := htest
  have hcand := h chunk hc hproc hexp havail hleft
  rw [not_candidate_of_processing hproc] at hcand
  exact nomatch hcand

end ValidEmailVerifier
