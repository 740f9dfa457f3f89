/-
# `Pipeline.HandoffConservation` — one place for each address of a screening chunk

A screening chunk is completed in several attempts, each of which may throw anywhere and may come
with outputs of its own.  What an attempt that succeeds leaves in the outputs is what it keeps
itself, what is in the probe chunks may be what another attempt has handed on.

So the addresses are in one place each exactly if the attempt that succeeds hands on the addresses
of the probe chunks that it finds (`conserved_iff`).
-/
import ValidEmailVerifier.Pipeline.HandoffAttempts

namespace ValidEmailVerifier.HandoffAttempts

open Text ScreeningToProbeChunkPlanner

section Conservation
variable {php : Php} {x : Target} {σ : Settings} {verdicts : List (Text × Worker.Verdict)}
  {s s₀ : Store}

theorem Rest.completed (h : Rest php x σ verdicts s) : x.completed s = false := by
  obtain ⟨chunk, hchunk, -, hopen⟩ := h.row
  rw [Target.completed, hchunk, Option.any_some, beq_eq_false_iff_ne]
  exact hopen

theorem Rest.conserved (h : Rest php x σ verdicts s) : x.Conserved s := by
  intro chunk hchunk hstatus
  obtain ⟨other, hother, -, hopen⟩ := h.row
  rw [hchunk] at hother
  exact absurd hstatus (Option.some.inj hother ▸ hopen)

theorem Done.completed (h : Done x σ s) : x.completed s = true := by
  obtain ⟨chunk, hchunk, hstatus, -⟩ := h.row
  rw [Target.completed, hchunk, Option.any_some, hstatus]
  rfl

theorem Done.conserved_perm (h : Done x σ s) :
    x.Conserved s ↔ (Target.emailsOf (x.outputs s) ++ x.probeLines s).Perm x.emails := by
  obtain ⟨chunk, hchunk, hstatus, hdisk, hkeys⟩ := h.row
  have hfiles : Target.finalFiles s chunk = x.outputs s := by
    rw [Target.finalFiles, hkeys, hdisk]
    rfl
  rw [← hfiles]
  constructor
  · exact fun hall => hall chunk hchunk hstatus
  · intro hperm other hother _
    obtain rfl := Option.some.inj (hchunk.symm.trans hother)
    exact hperm

/-- The chunk is open, or completed. -/
def Known (php : Php) (x : Target) (σ : Settings) (verdicts : List (Text × Worker.Verdict))
    (s : Store) : Prop :=
  Rest php x σ verdicts s ∨ Done x σ s

theorem Known.step (hsound : Sound php x σ) (h : Known php x σ verdicts s) (a : Step) :
    Known php x σ (a.screening.getD verdicts) (x.step php s a) := by
  rcases h with hrest | hdone
  · cases hrest.step hsound a with
    | rest hrest => exact .inl hrest
    | done hdone => exact .inr hdone
  · exact .inr (hdone.step a).1

/-- **One step keeps the addresses in one place exactly if it agrees.** -/
theorem conserved_step (hsound : Sound php x σ) (h : Known php x σ verdicts s)
    (hconserved : x.Conserved s) (a : Step) :
    x.Conserved (x.step php s a) ↔ Agrees php x s verdicts a := by
  rw [Agrees]
  rcases h with hrest | hdone
  · rw [if_neg (by rw [hrest.completed]; exact Bool.false_ne_true), hrest.settings]
    cases hrest.step hsound a with
    | rest hafter =>
      refine ⟨fun _ hcompleted => ?_, fun _ => hafter.conserved⟩
      exact absurd (hafter.completed.symm.trans hcompleted) Bool.false_ne_true
    | done hafter hhanded hkept =>
      have hplanned := @perm_planned php x σ (a.screening.getD verdicts) hsound.lawful
        hsound.clean hsound.nodup
      rw [hafter.conserved_perm]
      rw [Handed] at hhanded
      cases hhas : hasProbeChunks s x.id with
      | false =>
        rw [hhas, if_neg Bool.false_ne_true] at hhanded
        refine ⟨fun _ _ hfalse => absurd hfalse Bool.false_ne_true, fun _ => ?_⟩
        exact (hkept.append hhanded).trans hplanned
      | true =>
        rw [hhas, if_pos rfl] at hhanded
        rw [hhanded]
        constructor
        · intro hperm _ _
          refine (List.perm_append_left_iff (x.kept php σ (a.screening.getD verdicts))).mp ?_
          exact ((hkept.symm.append_right _).trans hperm).trans hplanned.symm
        · intro hagrees
          have hperm := hagrees hafter.completed rfl
          exact (hkept.append hperm).trans hplanned
  · rw [if_pos hdone.completed]
    obtain ⟨hafter, houtputs, hlines⟩ := @Done.step php x σ s hdone a
    rw [hafter.conserved_perm, houtputs, hlines]
    rw [hdone.conserved_perm] at hconserved
    cases hscreening : a.screening with
    | none =>
      have harrival : x.arrival s a = s := by
        rw [Target.arrival, hscreening]
      rw [harrival]
      exact ⟨fun _ => .inl rfl, fun _ => hconserved⟩
    | some new =>
      have harrival : x.arrival s a = x.upload s new := by
        rw [Target.arrival, hscreening]
      have hemails : (Target.emailsOf (x.outputs (x.upload s new))).Perm x.emails := by
        rw [outputs_upload, @emailsOf_of_rewrites php x σ new hsound.lawful hsound.clean _
          (mem_rewrites.mpr (.inl rfl))]
        exact perm_screened hsound.lawful hsound.clean
      rw [harrival, probeLines_upload hdone.inputs]
      constructor
      · intro hperm
        have hnil : x.probeLines s = [] := by
          have hlength := (hemails.append_right (x.probeLines s)).symm.trans hperm
          have hcount := hlength.length_eq
          rw [List.length_append] at hcount
          exact List.eq_nil_of_length_eq_zero (by omega)
        exact .inr hnil
      · rintro (hnone | hnil)
        · cases hnone
        · rw [hnil, List.append_nil]
          exact hemails

/-- The verdicts of the outputs that were uploaded last. -/
def lastScreening (verdicts : List (Text × Worker.Verdict)) (steps : List Step) :
    List (Text × Worker.Verdict) :=
  steps.foldl (fun verdicts a => a.screening.getD verdicts) verdicts

theorem Begins.rest (h : Begins x verdicts s) : Rest php x s.settings verdicts s where
  settings := rfl
  idle := h.idle
  inputs := by
    rw [h.fresh]
    exact fun _ hc => absurd hc List.not_mem_nil
  row := h.row
  files := mem_rewrites.mpr (.inl h.outputs)
  untouched := fun _ => h.outputs

theorem Known.run (hsound : Sound php x σ) (h : Known php x σ verdicts s) (steps : List Step) :
    Known php x σ (lastScreening verdicts steps) (x.run php s steps) := by
  induction steps generalizing s verdicts with
  | nil => exact h
  | cons a steps ih => exact ih (h.step hsound a)

/-- **The addresses of a screening chunk are in one place each, in every state of a run, exactly
if its steps agree**: every attempt that succeeds hands on what it finds in probe chunks, and
nobody uploads outputs for a completed chunk that has been handed on. -/
theorem conserved_iff (hsound : Sound php x s.settings) (hbegins : Begins x verdicts s)
    (steps : List Step) :
    (∀ before, before <+: steps → x.Conserved (x.run php s before)) ↔
      ∀ before a, before ++ [a] <+: steps →
        Agrees php x (x.run php s before) (lastScreening verdicts before) a := by
  have hknown : ∀ before, Known php x s.settings (lastScreening verdicts before)
      (x.run php s before) := fun before => Known.run hsound (.inl hbegins.rest) before
  have hrun : ∀ before a, x.run php s (before ++ [a]) = x.step php (x.run php s before) a :=
    fun before a => List.foldl_concat _ _ _ _
  constructor
  · intro h before a hrest
    have hbefore := h before ((List.prefix_append _ _).trans hrest)
    refine (conserved_step hsound (hknown before) hbefore a).mp ?_
    rw [← hrun]
    exact h _ hrest
  · intro h before
    induction before using List.reverseRecOn with
    | nil => exact fun _ => (@Begins.rest php x verdicts s hbegins).conserved
    | append_singleton before a ih =>
      intro hrest
      rw [hrun]
      exact (conserved_step hsound (hknown before)
        (ih ((List.prefix_append _ _).trans hrest)) a).mpr (h before a hrest)

end Conservation

/-! ## Two screenings -/

def user : Text := "user@example.com".toList

def gone : Text := "gone@example.org".toList

/-- A chunk of two addresses. -/
def twoAddresses : Target := ⟨1, 1, "local", [user, gone]⟩

/-- One of them has no mail server. -/
def oneGone : List (Text × Worker.Verdict) :=
  [(user, .valid, []), (gone, .invalid, "mx_missing".toList)]

/-- The second time, neither has one. -/
def bothGone : List (Text × Worker.Verdict) :=
  [(user, .invalid, "mx_missing".toList), (gone, .invalid, "mx_missing".toList)]

/-- The outputs of the first screening are there. -/
def screenedOnce : Store :=
  twoAddresses.upload
    { settings := { probeStageEnabled := true }
      chunks := [{ id := 1, chunkNo := 1, status := .processing, inputDisk := some "local"
                   inputKey := .chunkInput 1, emailCount := 2 }]
      nextId := 2 } oneGone

/-- The first request throws behind the commit, the second one comes with other outputs. -/
def screenedTwice : List Step :=
  [.complete none none (.const none) 6, .complete (some bothGone) none (.const none) 20]

theorem sound_twoAddresses : Sound (.table [user, gone]) twoAddresses screenedOnce.settings where
  lawful := Php.table_lawful (by decide)
  enabled := rfl
  reasons := ⟨[], by decide⟩
  clean := by
    intro e he
    rcases List.mem_cons.mp he with rfl | he
    · exact ⟨by decide, by decide, by decide⟩
    · rw [List.mem_singleton.mp he]
      exact ⟨by decide, by decide, by decide⟩
  nodup := by decide

theorem begins_screenedOnce : Begins twoAddresses oneGone screenedOnce where
  idle := rfl
  row := ⟨_, rfl, rfl, by decide⟩
  fresh := by decide
  outputs := outputs_upload oneGone

theorem conserved_iff_screenedTwice :
    (∀ before, before <+: screenedTwice →
      twoAddresses.Conserved (twoAddresses.run (.table [user, gone]) screenedOnce before)) ↔
      ∀ before a, before ++ [a] <+: screenedTwice →
        Agrees (.table [user, gone]) twoAddresses
          (twoAddresses.run (.table [user, gone]) screenedOnce before)
          (lastScreening oneGone before) a :=
  conserved_iff sound_twoAddresses begins_screenedOnce screenedTwice

/-- The first address is in a probe chunk and in the invalid file. -/
theorem conserved_fails : ¬ ∀ (php : Php) (x : Target) (verdicts : List (Text × Worker.Verdict))
    (s : Store) (steps : List Step), Sound php x s.settings → Begins x verdicts s →
      x.Conserved (x.run php s steps) := by
  intro hall
  have hconserved := hall _ _ _ _ screenedTwice sound_twoAddresses begins_screenedOnce
  have hplaces : (Store.findChunk (twoAddresses.run (.table [user, gone]) screenedOnce
      screenedTwice) 1).any (fun chunk => chunk.status = .completed ∧
        (Target.emailsOf (Target.finalFiles (twoAddresses.run (.table [user, gone]) screenedOnce
          screenedTwice) chunk) ++ twoAddresses.probeLines (twoAddresses.run (.table [user, gone])
            screenedOnce screenedTwice)).length = 3) = true := by decide +kernel
  cases hchunk : Store.findChunk (twoAddresses.run (.table [user, gone]) screenedOnce
      screenedTwice) 1 with
  | none =>
    rw [hchunk] at hplaces
    exact Bool.false_ne_true hplaces
  | some chunk =>
    rw [hchunk, Option.any_some, decide_eq_true_eq] at hplaces
    have hlength := (hconserved chunk hchunk hplaces.1).length_eq
    rw [hplaces.2] at hlength
    exact absurd hlength (by decide)

end ValidEmailVerifier.HandoffAttempts
