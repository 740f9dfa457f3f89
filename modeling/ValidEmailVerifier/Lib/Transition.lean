/-
# `Transition` — guarded transition systems and conditional runs

A system is one executable step function: `step s a` is the next state when the
action `a` is enabled in `s`, and `none` when it is not.  Replaying a concrete
schedule and proving a law about all schedules then read the same definition.

`Reaches C s t` is the run relation used everywhere: some run leads from `s` to
`t`, and every step of it was taken in a state and with an action that meet the
condition `C`.  `C := Always` gives the ordinary reachable states.  A law that
holds of a system only as long as its environment behaves is stated as an
invariant of `Reaches C`, with `C` a condition on the step about to be taken.
-/
import Mathlib.Data.List.Basic
import Mathlib.Logic.Basic

namespace Transition

/-- A labelled transition system with a guarded, executable step. -/
structure System (σ α : Type) where
  step : σ → α → Option σ

/-- The condition every step meets. -/
def Always {σ α : Type} : σ → α → Prop := fun _ _ => True

instance {σ α : Type} (s : σ) (a : α) : Decidable (Always s a) := isTrue trivial

namespace System

variable {σ α : Type} (M : System σ α)

/-- `M.Reaches C s t`: a run from `s` to `t` whose steps all meet `C`. -/
inductive Reaches (C : σ → α → Prop) (s : σ) : σ → Prop
  | refl : Reaches C s s
  | tail {t u : σ} {a : α} : Reaches C s t → C t a → M.step t a = some u →
      Reaches C s u

/-- Replay a schedule as long as every step meets `C`. -/
def runIf (C : σ → α → Prop) [∀ s a, Decidable (C s a)] : σ → List α → Option σ
  | s, [] => some s
  | s, a :: as =>
      if C s a then
        match M.step s a with
        | some s' => runIf C s' as
        | none => none
      else none

/-- Replay a schedule. -/
def run : σ → List α → Option σ
  | s, [] => some s
  | s, a :: as =>
      match M.step s a with
      | some s' => run s' as
      | none => none

variable {M}

/-- What holds initially and survives every step that meets `C` holds along
every run whose steps meet `C`. -/
theorem Reaches.invariant {C : σ → α → Prop} {P : σ → Prop} {s t : σ}
    (h : M.Reaches C s t) (hinit : P s)
    (hstep : ∀ t a u, P t → C t a → M.step t a = some u → P u) : P t := by
  induction h with
  | refl => exact hinit
  | tail _ hC hs ih => exact hstep _ _ _ ih hC hs

theorem Reaches.trans {C : σ → α → Prop} {s t u : σ}
    (h₁ : M.Reaches C s t) (h₂ : M.Reaches C t u) : M.Reaches C s u := by
  induction h₂ with
  | refl => exact h₁
  | tail _ hC hs ih => exact .tail ih hC hs

/-- A weaker condition allows more runs. -/
theorem Reaches.mono {C D : σ → α → Prop} {s t : σ} (h : M.Reaches C s t)
    (hCD : ∀ t a, C t a → D t a) : M.Reaches D s t := by
  induction h with
  | refl => exact .refl
  | tail _ hC hs ih => exact .tail ih (hCD _ _ hC) hs

theorem Reaches.head {C : σ → α → Prop} {s t u : σ} {a : α} (hC : C s a)
    (hs : M.step s a = some t) (h : M.Reaches C t u) : M.Reaches C s u :=
  (Reaches.tail .refl hC hs).trans h

theorem reaches_of_runIf {C : σ → α → Prop} [∀ s a, Decidable (C s a)] :
    ∀ {as : List α} {s t : σ}, M.runIf C s as = some t → M.Reaches C s t
  | [], s, t, h => by
      simp only [runIf, Option.some.injEq] at h
      exact h ▸ .refl
  | a :: as, s, t, h => by
      simp only [runIf] at h
      split at h
      next hC =>
        split at h
        next s' hs => exact .head hC hs (reaches_of_runIf h)
        next => exact nomatch h
      next => exact nomatch h

theorem reaches_of_run : ∀ {as : List α} {s t : σ}, M.run s as = some t →
    M.Reaches Always s t
  | [], s, t, h => by
      simp only [run, Option.some.injEq] at h
      exact h ▸ .refl
  | a :: as, s, t, h => by
      simp only [run] at h
      split at h
      next s' hs => exact .head trivial hs (reaches_of_run h)
      next => exact nomatch h

/-- A schedule whose steps meet `C` and whose last state passes a test. -/
theorem exists_reaches {C : σ → α → Prop} [∀ s a, Decidable (C s a)] {as : List α} {s : σ}
    {p : σ → Bool} (h : (M.runIf C s as).any p = true) :
    ∃ t, M.Reaches C s t ∧ p t = true := by
  cases hr : M.runIf C s as with
  | none => simp [hr] at h
  | some t => exact ⟨t, reaches_of_runIf hr, by simpa [hr] using h⟩

/-- The state a schedule leads to, if every step of it meets `C`. -/
def final (M : System σ α) (C : σ → α → Prop) [∀ s a, Decidable (C s a)] (s : σ)
    (as : List α) : σ := (M.runIf C s as).getD s

theorem reaches_final {C : σ → α → Prop} [∀ s a, Decidable (C s a)] {as : List α} {s : σ}
    (h : (M.runIf C s as).isSome = true) : M.Reaches C s (M.final C s as) := by
  obtain ⟨t, ht⟩ := Option.isSome_iff_exists.mp h
  rw [final, ht]
  exact reaches_of_runIf ht

/-- The state after an action, if it is enabled. -/
def next (M : System σ α) (s : σ) (a : α) : σ := (M.step s a).getD s

theorem step_eq_next {s : σ} {a : α} (h : (M.step s a).isSome = true) :
    M.step s a = some (M.next s a) := by
  obtain ⟨t, ht⟩ := Option.isSome_iff_exists.mp h
  rw [next, ht]
  rfl

/-! ## Along a schedule -/

variable (M) in
/-- `P` holds in every state that a schedule leads through, up to the first action that is not
enabled. -/
def Throughout (P : σ → Prop) : σ → List α → Prop
  | s, [] => P s
  | s, a :: as =>
      P s ∧ match M.step s a with
        | some t => Throughout P t as
        | none => True

instance decidableThroughout {P : σ → Prop} [∀ s, Decidable (P s)] :
    ∀ (s : σ) (as : List α), Decidable (M.Throughout P s as)
  | s, [] => inferInstanceAs (Decidable (P s))
  | s, a :: as =>
      match hs : M.step s a with
      | some t =>
          have := decidableThroughout (P := P) t as
          decidable_of_iff (P s ∧ M.Throughout P t as) (by rw [Throughout, hs])
      | none => decidable_of_iff (P s) (by rw [Throughout, hs, and_true])

variable (M) in
/-- Every step that a schedule takes meets `C`. -/
def Meets (C : σ → α → Prop) : σ → List α → Prop
  | _, [] => True
  | s, a :: as =>
      match M.step s a with
      | some t => C s a ∧ Meets C t as
      | none => True

instance decidableMeets {C : σ → α → Prop} [∀ s a, Decidable (C s a)] :
    ∀ (s : σ) (as : List α), Decidable (M.Meets C s as)
  | _, [] => isTrue trivial
  | s, a :: as =>
      match hs : M.step s a with
      | some t =>
          have := decidableMeets (C := C) t as
          decidable_of_iff (C s a ∧ M.Meets C t as) (by rw [Meets, hs])
      | none => isTrue (by rw [Meets, hs]; trivial)

/-- A condition that says of every step whether it keeps `P` says of every schedule whether `P`
holds throughout; `I` is what holds anyway. -/
theorem throughout_iff_meets {C : σ → α → Prop} {P I : σ → Prop}
    (hkeeps : ∀ s a t, I s → M.step s a = some t → I t)
    (hone : ∀ s a t, I s → P s → M.step s a = some t → (P t ↔ C s a)) :
    ∀ {as : List α} {s : σ}, I s → P s → (M.Throughout P s as ↔ M.Meets C s as)
  | [], _, _, hP => ⟨fun _ => trivial, fun _ => hP⟩
  | a :: as, s, hI, hP => by
      simp only [Throughout, Meets]
      cases hs : M.step s a with
      | none => exact ⟨fun _ => trivial, fun _ => ⟨hP, trivial⟩⟩
      | some t =>
          have hIt := hkeeps s a t hI hs
          have hiff := hone s a t hI hP hs
          constructor
          · rintro ⟨-, h⟩
            have hPt : P t := by
              cases as with
              | nil => exact h
              | cons => exact h.1
            exact ⟨hiff.mp hPt, (throughout_iff_meets hkeeps hone hIt hPt).mp h⟩
          · rintro ⟨hC, h⟩
            have hPt := hiff.mpr hC
            exact ⟨hP, (throughout_iff_meets hkeeps hone hIt hPt).mpr h⟩

/-- What every step keeps holds throughout. -/
theorem throughout_of_keeps {P : σ → Prop} (hkeeps : ∀ s a t, P s → M.step s a = some t → P t) :
    ∀ {as : List α} {s : σ}, P s → M.Throughout P s as
  | [], _, hP => hP
  | a :: as, s, hP => by
      rw [Throughout]
      cases hs : M.step s a with
      | none => exact ⟨hP, trivial⟩
      | some t => exact ⟨hP, throughout_of_keeps hkeeps (hkeeps s a t hP hs)⟩

theorem Throughout.mp {P Q R : σ → Prop} (h : ∀ s, P s → Q s → R s) :
    ∀ {as : List α} {s : σ}, M.Throughout P s as → M.Throughout Q s as → M.Throughout R s as
  | [], s, hP, hQ => h s hP hQ
  | a :: as, s, hP, hQ => by
      rw [Throughout] at hP hQ ⊢
      refine ⟨h s hP.1 hQ.1, ?_⟩
      cases hs : M.step s a with
      | none => trivial
      | some t =>
          rw [hs] at hP hQ
          exact Throughout.mp h hP.2 hQ.2

variable (M) in
/-- Whenever `P` holds in a state that a schedule leads through, it holds throughout the rest. -/
def Absorbs (P : σ → Prop) : σ → List α → Prop
  | _, [] => True
  | s, a :: as =>
      (P s → M.Throughout P s (a :: as)) ∧
        match M.step s a with
        | some t => Absorbs P t as
        | none => True

instance decidableAbsorbs {P : σ → Prop} [∀ s, Decidable (P s)] :
    ∀ (s : σ) (as : List α), Decidable (M.Absorbs P s as)
  | _, [] => isTrue trivial
  | s, a :: as =>
      match hs : M.step s a with
      | some t =>
          have := decidableAbsorbs (P := P) t as
          decidable_of_iff ((P s → M.Throughout P s (a :: as)) ∧ M.Absorbs P t as)
            (by rw [Absorbs, hs])
      | none =>
          decidable_of_iff (P s → M.Throughout P s (a :: as)) (by rw [Absorbs, hs, and_true])

/-- A condition that says of every step whether it keeps each `P i` that holds says of every
schedule whether each `P i` is kept for good; `I` is what holds anyway. -/
theorem absorbs_iff_meets {ι : Type} {C : σ → α → Prop} {P : ι → σ → Prop} {I : σ → Prop}
    (hkeeps : ∀ s a t, I s → M.step s a = some t → I t)
    (hone : ∀ s a t, I s → M.step s a = some t → ((∀ i, P i s → P i t) ↔ C s a)) :
    ∀ {as : List α} {s : σ}, I s → ((∀ i, M.Absorbs (P i) s as) ↔ M.Meets C s as)
  | [], _, _ => ⟨fun _ => trivial, fun _ _ => trivial⟩
  | a :: as, s, hI => by
      cases hs : M.step s a with
      | none =>
          simp only [Absorbs, Meets, Throughout, hs, and_true, imp_self, implies_true]
      | some t =>
          have ih : (∀ i, M.Absorbs (P i) t as) ↔ M.Meets C t as :=
            absorbs_iff_meets hkeeps hone (hkeeps s a t hI hs)
          have hiff := hone s a t hI hs
          simp only [Absorbs, Meets, Throughout, hs]
          constructor
          · intro h
            refine ⟨hiff.mp fun i hi => ?_, ih.mp fun i => (h i).2⟩
            have hrest := ((h i).1 hi).2
            cases as with
            | nil => exact hrest
            | cons => exact hrest.1
          · rintro ⟨hC, hrest⟩ i
            have habsorbs := ih.mpr hrest i
            refine ⟨fun hi => ⟨hi, ?_⟩, habsorbs⟩
            have hPt := hiff.mpr hC i hi
            cases as with
            | nil => exact hPt
            | cons => exact habsorbs.1 hPt

/-- The same for a schedule without a condition. -/
theorem exists_reaches_always {as : List α} {s : σ} {p : σ → Bool}
    (h : (M.run s as).any p = true) : ∃ t, M.Reaches Always s t ∧ p t = true := by
  cases hr : M.run s as with
  | none => simp [hr] at h
  | some t => exact ⟨t, reaches_of_run hr, by simpa [hr] using h⟩

end System

end Transition
