/-
# `Mealy` — machines that answer every question they are asked

A machine keeps a state and answers one question after another.  One machine stands for another
when a relation between their states makes them give the same answers and survives every
question (`Simulation`); it then holds after every list of questions (`Simulation.after`).

`novelty` is the machine that says of each thing whether it is new.  What it says is a fact about
the list of questions alone (`novelty_after`).
-/
import Mathlib.Data.List.Basic

namespace Mealy

/-- A machine with states in `σ`: the answer to a question and the state after it. -/
structure Machine (σ α β : Type) where
  ask : σ → α → β × σ

namespace Machine

variable {σ τ α β : Type}

/-- The state after a list of questions. -/
def after (M : Machine σ α β) (s : σ) (as : List α) : σ := as.foldl (fun s a => (M.ask s a).2) s

/-- States related by `R` answer alike and stay related. -/
structure Simulation (M : Machine σ α β) (N : Machine τ α β) (R : σ → τ → Prop) : Prop where
  answer : ∀ {s t a}, R s t → (M.ask s a).1 = (N.ask t a).1
  next : ∀ {s t a}, R s t → R (M.ask s a).2 (N.ask t a).2

variable {M : Machine σ α β} {N : Machine τ α β} {R : σ → τ → Prop} {s : σ} {t : τ}

theorem Simulation.after (h : Simulation M N R) (hR : R s t) (as : List α) :
    R (M.after s as) (N.after t as) := by
  induction as generalizing s t with
  | nil => exact hR
  | cons a as ih => exact ih (h.next hR)

end Machine

/-! ## What is new -/

section Novelty
variable {α : Type} [DecidableEq α]

/-- A thing is new if it is not among those asked about before. -/
def novelty : Machine (List α) α Bool where
  ask seen a := if a ∈ seen then (false, seen) else (true, seen ++ [a])

theorem ask_of_mem {seen : List α} {a : α} (h : a ∈ seen) : novelty.ask seen a = (false, seen) :=
  if_pos h

theorem ask_of_notMem {seen : List α} {a : α} (h : a ∉ seen) :
    novelty.ask seen a = (true, seen ++ [a]) :=
  if_neg h

theorem novelty_new {seen : List α} {a : α} :
    (novelty.ask seen a).1 = true ↔ a ∉ seen := by
  by_cases ha : a ∈ seen
  · simp [ask_of_mem ha, ha]
  · simp [ask_of_notMem ha, ha]

theorem mem_novelty {seen : List α} {a b : α} :
    b ∈ (novelty.ask seen a).2 ↔ b ∈ seen ∨ b = a := by
  by_cases ha : a ∈ seen
  · rw [ask_of_mem ha]
    refine ⟨Or.inl, fun h => ?_⟩
    rcases h with h | rfl
    · exact h
    · exact ha
  · simp [ask_of_notMem ha]

/-- What has been seen is what was there and what was asked about. -/
theorem novelty_after {as seen : List α} {b : α} :
    b ∈ novelty.after seen as ↔ b ∈ seen ∨ b ∈ as := by
  induction as generalizing seen with
  | nil => simp [Machine.after]
  | cons a as ih =>
    show b ∈ novelty.after (novelty.ask seen a).2 as ↔ _
    rw [ih, mem_novelty, List.mem_cons, or_assoc]

end Novelty

end Mealy
