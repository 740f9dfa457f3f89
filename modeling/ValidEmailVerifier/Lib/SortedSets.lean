/-
# `SortedSets` — members with scores, read from the greatest score down

A sorted set holds each member once, with a score.  Members of one score are in their own order,
and a read from the top takes the greatest first, down to a number of members.

    add       a member with its score, in place of the one it had
    revRange  the members of the greatest scores

A read that is thinned out by a test afterwards is short of members that pass it exactly where
the test fails within the read and holds beyond it (`length_filter_take_iff`).
-/
import Mathlib

namespace SortedSets

/-- What is left of the first `n` by a test is as much as there can be of it, exactly if all of
them pass it, or nothing behind them does. -/
theorem length_filter_take_iff {α : Type} (p : α → Bool) (n : Nat) (l : List α) :
    ((l.take n).filter p).length = min n (l.filter p).length ↔
      (∀ a ∈ l.take n, p a = true) ∨ ∀ a ∈ l.drop n, p a = false := by
  have hsplit : (l.filter p).length =
      ((l.take n).filter p).length + ((l.drop n).filter p).length := by
    rw [← List.length_append, ← List.filter_append, List.take_append_drop]
  have hle : ((l.take n).filter p).length ≤ (l.take n).length := List.length_filter_le _ _
  have htake : (l.take n).length = min n l.length := List.length_take
  rw [hsplit]
  by_cases hnone : (l.drop n).filter p = []
  · have hbeyond : ∀ a ∈ l.drop n, p a = false := by
      intro a ha
      exact Bool.eq_false_iff.mpr (List.filter_eq_nil_iff.mp hnone a ha)
    refine iff_of_true ?_ (.inr hbeyond)
    rw [hnone, List.length_nil]
    omega
  · have hpos : 0 < ((l.drop n).filter p).length := List.length_pos_iff.mpr hnone
    have hlong : n < l.length := by
      have hdrop : 0 < (l.drop n).length := hpos.trans_le (List.length_filter_le _ _)
      rw [List.length_drop] at hdrop
      omega
    constructor
    · intro hlength
      have hfull : ((l.take n).filter p).length = (l.take n).length := by omega
      exact .inl (List.length_filter_eq_length_iff.mp hfull)
    · rintro (hall | hbeyond)
      · have hfull := List.length_filter_eq_length_iff.mpr hall
        omega
      · refine absurd (List.filter_eq_nil_iff.mpr fun a ha => ?_) hnone
        rw [hbeyond a ha]
        exact Bool.false_ne_true

variable {κ : Type} [LinearOrder κ]

/-- The entry stands before another when it is read from the top. -/
def Before (a b : κ × Nat) : Prop := b.2 < a.2 ∨ b.2 = a.2 ∧ b.1 ≤ a.1

instance : DecidableRel (Before (κ := κ)) := fun _ _ => inferInstanceAs (Decidable (_ ∨ _))

instance : Std.Total (Before (κ := κ)) where
  total a b := by
    rcases lt_trichotomy a.2 b.2 with hlt | heq | hlt
    · exact .inr (.inl hlt)
    · rcases le_total a.1 b.1 with hle | hle
      · exact .inr (.inr ⟨heq, hle⟩)
      · exact .inl (.inr ⟨heq.symm, hle⟩)
    · exact .inl (.inl hlt)

instance : IsTrans (κ × Nat) Before where
  trans a b c := by
    rintro (hab | ⟨hab, hle⟩) (hbc | ⟨hbc, hle'⟩)
    · exact .inl (hbc.trans hab)
    · exact .inl (hbc ▸ hab)
    · exact .inl (hab ▸ hbc)
    · exact .inr ⟨hbc.trans hab, hle'.trans hle⟩

/-- A sorted set, by its members and their scores. -/
structure SortedSet (κ : Type) where
  entries : List (κ × Nat) := []
  nodup : (entries.map Prod.fst).Nodup := by exact List.nodup_nil

namespace SortedSet

/-- `ZADD`. -/
def add (s : SortedSet κ) (member : κ) (score : Nat) : SortedSet κ where
  entries := (member, score) :: s.entries.filter fun e => decide (e.1 ≠ member)
  nodup := by
    refine List.nodup_cons.mpr ⟨fun hmem => ?_, ?_⟩
    · obtain ⟨e, he, heq⟩ := List.mem_map.mp hmem
      exact of_decide_eq_true (List.mem_filter.mp he).2 heq
    · exact s.nodup.sublist (List.filter_sublist.map Prod.fst)

/-- `ZREVRANGE` from the first to the `n`th. -/
def revRange (s : SortedSet κ) (n : Nat) : List κ :=
  ((s.entries.insertionSort Before).take n).map Prod.fst

/-- What such a read leaves out. -/
def beyond (s : SortedSet κ) (n : Nat) : List κ :=
  ((s.entries.insertionSort Before).drop n).map Prod.fst

theorem mem_add {s : SortedSet κ} {member : κ} {score : Nat} {e : κ × Nat} :
    e ∈ (s.add member score).entries ↔
      e = (member, score) ∨ e ∈ s.entries ∧ e.1 ≠ member := by
  rw [add, List.mem_cons, List.mem_filter, decide_eq_true_iff]

variable (s : SortedSet κ) (n : Nat)

theorem revRange_append_beyond : s.revRange n ++ s.beyond n =
    (s.entries.insertionSort Before).map Prod.fst := by
  rw [revRange, beyond, ← List.map_append, List.take_append_drop]

theorem perm_revRange_append_beyond :
    (s.revRange n ++ s.beyond n).Perm (s.entries.map Prod.fst) := by
  rw [revRange_append_beyond]
  exact (List.perm_insertionSort Before s.entries).map Prod.fst

theorem nodup_revRange : (s.revRange n).Nodup :=
  (List.nodup_append.mp ((s.perm_revRange_append_beyond n).nodup_iff.mpr s.nodup)).1

/-- The members are read in the order of their scores. -/
theorem pairwise_entries :
    (s.entries.insertionSort Before).Pairwise fun a b => b.2 ≤ a.2 := by
  refine (List.pairwise_insertionSort Before s.entries).imp fun {a b} h => ?_
  rcases h with hlt | ⟨heq, -⟩
  · exact hlt.le
  · exact heq.le

/-- As many members with a property are read as there can be, exactly if all that are read have
it, or none that are not. -/
theorem length_filter_revRange_iff (p : κ → Bool) :
    ((s.revRange n).filter p).length = min n ((s.entries.map Prod.fst).filter p).length ↔
      (∀ k ∈ s.revRange n, p k = true) ∨ ∀ k ∈ s.beyond n, p k = false := by
  have hlength : ((s.entries.map Prod.fst).filter p).length =
      (((s.entries.insertionSort Before).map Prod.fst).filter p).length :=
    (((List.perm_insertionSort Before s.entries).map Prod.fst).filter p).length_eq.symm
  rw [hlength, revRange, beyond, List.map_take, List.map_drop]
  exact length_filter_take_iff p n _

end SortedSet

end SortedSets
