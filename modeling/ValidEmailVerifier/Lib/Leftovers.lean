/-
# `Leftovers` — requests that are answered in part

A store that is given a batch may process some of it and hand back the rest.  `Leftover batch` is
such a rest, which has nothing that was not in the batch; what was processed is the difference.
Sent again and again, a batch is split into what has been processed and what has not
(`Leftover.perm`, `Leftover.Into.cons`).
-/
import Mathlib.Data.List.Perm.Subperm

/-- What is left of a batch. -/
structure Leftover {α : Type} (batch : List α) where
  rest : List α
  sub : rest.Subperm batch

namespace Leftover

variable {α : Type} {batch : List α}

/-- `Into done rest batch`: the batch, with `done` processed so far and `rest` left. -/
def Into (done rest batch : List α) : Prop := (done ++ rest).Perm batch

theorem Into.start (batch : List α) : Into [] batch batch := .refl _

theorem Into.length_le {done rest : List α} (h : Into done rest batch) :
    done.length ≤ batch.length := by
  rw [← h.length_eq, List.length_append]
  exact Nat.le_add_right _ _

variable [DecidableEq α]

/-- What was processed of it. -/
def done (l : Leftover batch) : List α := batch.diff l.rest

theorem perm (l : Leftover batch) : (l.done ++ l.rest).Perm batch := by
  refine List.perm_append_comm.trans ?_
  refine List.subperm_append_diff_self_of_count_le fun a _ => ?_
  exact l.sub.count_le a

theorem length_done (l : Leftover batch) : l.done.length + l.rest.length = batch.length := by
  rw [← List.length_append, l.perm.length_eq]

/-- What is done with the rest of a batch is added to what was done before. -/
theorem Into.cons (l : Leftover batch) {done rest : List α} (h : Into done rest l.rest) :
    Into (l.done ++ done) rest batch := by
  unfold Into at h ⊢
  rw [List.append_assoc]
  exact (h.append_left l.done).trans l.perm

end Leftover
