/-
# `Table` — rows looked up and updated by a key

A table is a list of rows with a key.  `find` is the row of a key, `update`
changes the row of a key in place, and rows are inserted at the end.  An update
keeps the order, the keys and every other row, so what is true of all rows is
re-proved for the changed row only (`update_forall`).
-/
import Mathlib.Data.List.Basic
import Mathlib.Data.List.Nodup

namespace Table

variable {ρ κ : Type} [DecidableEq κ] (key : ρ → κ)

/-- The row with key `k`. -/
def find (rows : List ρ) (k : κ) : Option ρ := rows.find? (fun r => key r = k)

/-- Change the row with key `k`. -/
def update (rows : List ρ) (k : κ) (f : ρ → ρ) : List ρ :=
  rows.map (fun r => if key r = k then f r else r)

variable {key} {rows : List ρ} {k k' : κ} {f : ρ → ρ} {r r' : ρ}

theorem mem_of_find (h : find key rows k = some r) : r ∈ rows := List.mem_of_find?_eq_some h

theorem key_of_find (h : find key rows k = some r) : key r = k := by
  simpa using List.find?_some h

theorem mem_update : r' ∈ update key rows k f ↔
    ∃ r ∈ rows, r' = if key r = k then f r else r := by
  simp [update, eq_comm]

/-- A row of an updated table is an old row, or the changed one. -/
theorem mem_update_cases (h : r' ∈ update key rows k f) :
    (r' ∈ rows ∧ key r' ≠ k) ∨ ∃ r ∈ rows, key r = k ∧ r' = f r := by
  obtain ⟨r, hr, rfl⟩ := mem_update.mp h
  by_cases hk : key r = k
  · rw [if_pos hk]
    exact .inr ⟨r, hr, hk, rfl⟩
  · rw [if_neg hk]
    exact .inl ⟨hr, hk⟩

/-- What holds of every row survives an update of one row that keeps it. -/
theorem update_forall {P : ρ → Prop} (h : ∀ r ∈ rows, P r)
    (hf : ∀ r ∈ rows, key r = k → P r → P (f r)) : ∀ r ∈ update key rows k f, P r := by
  intro r' hr'
  rcases mem_update_cases hr' with ⟨hr, -⟩ | ⟨r, hr, hk, rfl⟩
  · exact h r' hr
  · exact hf r hr hk (h r hr)

section Keeps
variable (hkey : ∀ r, key (f r) = key r)
include hkey

theorem find_update_self : find key (update key rows k f) k = (find key rows k).map f := by
  induction rows with
  | nil => rfl
  | cons a rest ih =>
      unfold find update at *
      by_cases hk : key a = k
      · simp [hk, hkey]
      · simp [hk, ih]

theorem find_update_of_ne (hne : k' ≠ k) :
    find key (update key rows k f) k' = find key rows k' := by
  induction rows with
  | nil => rfl
  | cons a rest ih =>
      unfold find update at *
      by_cases hk : key a = k
      · have h1 : key a ≠ k' := fun h => hne (h ▸ hk)
        have h2 : key (f a) ≠ k' := by rw [hkey]; exact h1
        rw [List.map_cons, if_pos hk, List.find?_cons_of_neg (by simpa using h2),
          List.find?_cons_of_neg (by simpa using h1)]
        exact ih
      · by_cases hk' : key a = k'
        · rw [List.map_cons, if_neg hk, List.find?_cons_of_pos (by simpa using hk'),
            List.find?_cons_of_pos (by simpa using hk')]
        · rw [List.map_cons, if_neg hk, List.find?_cons_of_neg (by simpa using hk'),
            List.find?_cons_of_neg (by simpa using hk')]
          exact ih

end Keeps

/-- A projection the update keeps is the same column afterwards. -/
theorem map_update {α : Type} (g : ρ → α) (hg : ∀ r ∈ rows, key r = k → g (f r) = g r) :
    (update key rows k f).map g = rows.map g := by
  rw [update, List.map_map]
  refine List.map_congr_left fun r hr => ?_
  by_cases hk : key r = k
  · simp [hk, hg r hr hk]
  · simp [hk]

theorem find_append (more : List ρ) :
    find key (rows ++ more) k = (find key rows k).or (find key more k) := by
  simp [find, List.find?_append]

end Table
