/-
# `Transition.Interleaving` — systems that share nothing, side by side

A state of the interleaving has a state of each component, and a step is a step
of one of them.  Nothing that a component does enables or disables a step of
another, so the states that can be reached together are those that can be
reached one by one (`reaches_interleave_iff`): whatever bounds the components
together has to bound every choice of states, one for each.
-/
import Mathlib.Data.Fintype.Basic
import Mathlib.Data.Fintype.EquivFin
import ValidEmailVerifier.Lib.Transition

namespace Transition.System

variable {ι σ α : Type} [DecidableEq ι]

/-- The components, a step of one at a time. -/
def interleave (M : ι → System σ α) : System (ι → σ) (ι × α) where
  step s x := ((M x.1).step (s x.1) x.2).map (Function.update s x.1)

/-- Every step meets the condition of the component that takes it. -/
def Each (C : ι → σ → α → Prop) (s : ι → σ) (x : ι × α) : Prop := C x.1 (s x.1) x.2

variable {M : ι → System σ α} {C : ι → σ → α → Prop} {s t : ι → σ}

/-- A component sees its own steps only. -/
theorem Reaches.component (h : (interleave M).Reaches (Each C) s t) (i : ι) :
    (M i).Reaches (C i) (s i) (t i) := by
  induction h with
  | refl => exact .refl
  | @tail t u x _ hC hstep ih =>
      obtain ⟨v, hv, hu⟩ := Option.map_eq_some_iff.mp hstep
      subst hu
      by_cases hi : i = x.1
      · subst hi
        rw [Function.update_self]
        exact .tail ih hC hv
      · rw [Function.update_of_ne hi]
        exact ih

/-- A run of one component, the others waiting. -/
theorem Reaches.lift {i : ι} {u : σ} (h : (M i).Reaches (C i) (s i) u) :
    (interleave M).Reaches (Each C) s (Function.update s i u) := by
  induction h with
  | refl =>
      rw [Function.update_eq_self]
      exact .refl
  | @tail u v a _ hC hstep ih =>
      have hself : Function.update s i u i = u := Function.update_self ..
      refine .tail (a := (i, a)) ih ?_ ?_
      · show C i (Function.update s i u i) a
        rw [hself]
        exact hC
      · show ((M i).step (Function.update s i u i) a).map _ = _
        rw [hself, hstep, Option.map_some, Function.update_idem]

/-- One component after the other. -/
theorem reaches_ite (h : ∀ i, (M i).Reaches (C i) (s i) (t i)) (S : Finset ι) :
    (interleave M).Reaches (Each C) s (fun i => if i ∈ S then t i else s i) := by
  induction S using Finset.induction_on with
  | empty =>
      have hs : (fun i => if i ∈ (∅ : Finset ι) then t i else s i) = s := by
        funext i
        exact if_neg (Finset.notMem_empty i)
      rw [hs]
      exact .refl
  | @insert j S hj ih =>
      have hupdate : (fun i => if i ∈ insert j S then t i else s i) =
          Function.update (fun i => if i ∈ S then t i else s i) j (t j) := by
        funext i
        by_cases hi : i = j
        · subst hi
          rw [Function.update_self, if_pos (Finset.mem_insert_self i S)]
        · rw [Function.update_of_ne hi]
          simp only [Finset.mem_insert, hi, false_or]
      rw [hupdate]
      refine ih.trans (Reaches.lift ?_)
      rw [if_neg hj]
      exact h j

/-- **What components that share nothing reach together is what they reach one by one.** -/
theorem reaches_interleave_iff [Finite ι] :
    (interleave M).Reaches (Each C) s t ↔ ∀ i, (M i).Reaches (C i) (s i) (t i) := by
  constructor
  · exact fun h i => h.component i
  · intro h
    have := Fintype.ofFinite ι
    have hall := reaches_ite h Finset.univ
    simp only [Finset.mem_univ, if_true] at hall
    exact hall

end Transition.System
