/-
# `Registers` — values written one after another

A register keeps the value that was written to it last.  A run of writes leaves in each register
the last value written to it, or the one it had (`foldl_write`), so two runs end the same exactly
if they agree on the last writes, whatever the order of the others (`foldl_write_eq_iff`).
-/
import Mathlib.Logic.Function.Basic

namespace Registers

variable {ι α : Type} [DecidableEq ι]

/-- A register is written. -/
def write (f : ι → α) (w : ι × α) : ι → α := Function.update f w.1 w.2

/-- The last value written to register `i`. -/
def lastTo (i : ι) : List (ι × α) → Option α
  | [] => none
  | w :: ws => (lastTo i ws).or (if w.1 = i then some w.2 else none)

variable {f : ι → α} {i : ι} {ws vs : List (ι × α)}

theorem foldl_write : ws.foldl write f i = (lastTo i ws).getD (f i) := by
  induction ws generalizing f with
  | nil => rfl
  | cons w ws ih =>
    rw [List.foldl_cons, ih, lastTo, write]
    cases lastTo i ws with
    | some v => rfl
    | none =>
      by_cases hw : w.1 = i
      · subst hw
        simp
      · simp [hw, Ne.symm hw]

theorem foldl_write_eq_iff : ws.foldl write f = vs.foldl write f ↔
    ∀ i, (lastTo i ws).getD (f i) = (lastTo i vs).getD (f i) := by
  constructor
  · intro h i
    rw [← foldl_write, ← foldl_write, h]
  · intro h
    funext i
    rw [foldl_write, foldl_write, h i]

end Registers
