/-
# `Ranking` — the first of a list by an order

What a sorted list has at its front, and what is found first in it, are first in the order among
all elements (`top_head`), respectively among those looked for (`top_find`).  The first `n` of a
sorted list are a window on the list: what is not in it comes after all that is (`window_spec`).

The order is any total and transitive relation, so several elements may be equally first.
-/
import Mathlib.Data.List.Sort

namespace Ranking

variable {α : Type} {r : α → α → Prop} [DecidableRel r] [Std.Total r] [IsTrans α r]

/-- `a` is first in `l`. -/
def Top (r : α → α → Prop) (l : List α) (a : α) : Prop := a ∈ l ∧ ∀ b ∈ l, r a b

theorem top_head {l : List α} {a : α} (h : (l.insertionSort r).head? = some a) : Top r l a := by
  obtain ⟨rest, hsorted⟩ := List.head?_eq_some_iff.mp h
  have hperm := List.perm_insertionSort r l
  have hpair := List.pairwise_insertionSort r l
  rw [hsorted] at hperm hpair
  refine ⟨hperm.mem_iff.mp (.head _), fun b hb => ?_⟩
  rcases List.mem_cons.mp (hperm.mem_iff.mpr hb) with rfl | hb
  · rcases Std.Total.total (r := r) b b with h | h <;> exact h
  · exact (List.pairwise_cons.mp hpair).1 b hb

/-- What is found first in the sorted list is first among all that could be found. -/
theorem top_find {l : List α} {p : α → Bool} {a : α}
    (h : (l.insertionSort r).find? p = some a) : Top r (l.filter p) a := by
  obtain ⟨hp, before, after, hsorted, hbefore⟩ := List.find?_eq_some_iff_append.mp h
  have hperm := List.perm_insertionSort r l
  have hpair := List.pairwise_insertionSort r l
  rw [hsorted] at hperm hpair
  have hin : a ∈ l := hperm.mem_iff.mp (by simp)
  refine ⟨List.mem_filter.mpr ⟨hin, hp⟩, fun b hb => ?_⟩
  obtain ⟨hb, hpb⟩ := List.mem_filter.mp hb
  rcases List.mem_append.mp (hperm.mem_iff.mpr hb) with hb | hb
  · have := hbefore b hb
    rw [hpb] at this
    exact nomatch this
  · rcases List.mem_cons.mp hb with rfl | hb
    · rcases Std.Total.total (r := r) b b with h | h <;> exact h
    · exact (List.pairwise_cons.mp (List.pairwise_append.mp hpair).2.1).1 b hb

/-- `w` is a window of at most `n` elements on `l`, in the order. -/
structure Window (r : α → α → Prop) (n : Nat) (l w : List α) : Prop where
  mem : ∀ a ∈ w, a ∈ l
  length : w.length ≤ n
  first : ∀ b ∈ l, b ∉ w → w.length = n ∧ ∀ a ∈ w, r a b

theorem window_take (n : Nat) (l : List α) : Window r n l ((l.insertionSort r).take n) where
  mem a ha := (List.perm_insertionSort r l).mem_iff.mp (List.mem_of_mem_take ha)
  length := List.length_take_le _ _
  first b hb hout := by
    have hsplit := List.take_append_drop n (l.insertionSort r)
    have hin : b ∈ (l.insertionSort r).drop n := by
      have hmem := (List.perm_insertionSort r l).mem_iff.mpr hb
      rw [← hsplit] at hmem
      exact (List.mem_append.mp hmem).resolve_left hout
    have hpair := List.pairwise_insertionSort r l
    rw [← hsplit] at hpair
    refine ⟨?_, fun a ha => (List.pairwise_append.mp hpair).2.2 a ha b hin⟩
    have hdrop := List.length_pos_of_mem hin
    rw [List.length_drop] at hdrop
    rw [List.length_take]
    omega

end Ranking
