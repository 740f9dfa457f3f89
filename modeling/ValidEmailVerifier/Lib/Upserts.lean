/-
# `Upserts` — rows put into a table that has one row of each key

A row that is put into the table takes the place of the one with its key.  What a run of rows
leaves is the old rows whose keys it does not have, and the last row of each of its keys
(`putAll_eq`, `mem_putAll_nil`), so a run that was begun before leaves the same (`putAll_again`).
-/
import Mathlib.Data.List.Induction

namespace Upserts

variable {ρ κ : Type} [DecidableEq κ] (key : ρ → κ)

/-- A row is put into the table. -/
def put (rows : List ρ) (r : ρ) : List ρ := rows.filter (fun old => key old ≠ key r) ++ [r]

/-- Rows are put into the table, one after another. -/
def putAll (rows more : List ρ) : List ρ := more.foldl (put key) rows

variable {key} {rows more part : List ρ} {r : ρ}

@[simp] theorem putAll_nil : putAll key rows [] = rows := rfl

theorem putAll_append : putAll key rows (more ++ part) = putAll key (putAll key rows more) part :=
  List.foldl_append

theorem putAll_concat : putAll key rows (more ++ [r]) = put key (putAll key rows more) r := by
  rw [putAll_append]
  rfl

/-- The old rows stay in front, without those of the new keys. -/
theorem putAll_eq : putAll key rows more =
    rows.filter (fun old => key old ∉ more.map key) ++ putAll key [] more := by
  induction more using List.reverseRecOn with
  | nil =>
    rw [putAll_nil, putAll_nil, List.append_nil, List.filter_eq_self.mpr fun old _ => by simp]
  | append_singleton more r ih =>
    have hfilter : (rows.filter fun old => key old ∉ more.map key).filter
        (fun old => key old ≠ key r) = rows.filter fun old => key old ∉ (more ++ [r]).map key := by
      rw [List.filter_filter]
      refine List.filter_congr fun old _ => ?_
      simp only [List.map_append, List.map_cons, List.map_nil, List.mem_append,
        List.mem_singleton, not_or, Bool.decide_and, Bool.and_comm]
    rw [putAll_concat, putAll_concat, put, ih, List.filter_append, hfilter, put,
      List.append_assoc]

theorem mem_keys_putAll {k : κ} (h : k ∈ (putAll key rows more).map key) :
    k ∈ rows.map key ∨ k ∈ more.map key := by
  induction more using List.reverseRecOn with
  | nil => exact .inl h
  | append_singleton more r ih =>
    rw [putAll_concat, put, List.map_append, List.mem_append] at h
    rcases h with hold | hnew
    · obtain ⟨old, hmem, rfl⟩ := List.mem_map.mp hold
      rcases ih (List.mem_map_of_mem (List.mem_filter.mp hmem).1) with hrows | hmore
      · exact .inl hrows
      · right
        rw [List.map_append]
        exact List.mem_append_left _ hmore
    · right
      rw [List.map_append]
      exact List.mem_append_right _ hnew

/-- A row that was put stays, or one with its key. -/
theorem exists_of_mem (h : r ∈ more) : ∃ r' ∈ putAll key rows more, key r' = key r := by
  induction more using List.reverseRecOn with
  | nil => exact absurd h List.not_mem_nil
  | append_singleton more last ih =>
    rw [putAll_concat, put]
    by_cases hkey : key last = key r
    · exact ⟨last, List.mem_append_right _ (.head _), hkey⟩
    · have hmore : r ∈ more := by
        rcases List.mem_append.mp h with hmem | hlast
        · exact hmem
        · exact absurd (congrArg key (List.mem_singleton.mp hlast).symm) hkey
      obtain ⟨r', hr', heq⟩ := ih hmore
      refine ⟨r', List.mem_append_left _ (List.mem_filter.mpr ⟨hr', ?_⟩), heq⟩
      exact decide_eq_true (heq ▸ Ne.symm hkey)

section Find
variable {k : κ}

theorem find?_put : (put key rows r).find? (fun old => key old = k) =
    if key r = k then some r else rows.find? fun old => key old = k := by
  rw [put, List.find?_append, List.find?_singleton]
  by_cases hkey : key r = k
  · have hnone : (rows.filter fun old => key old ≠ key r).find? (fun old => key old = k) =
        none := by
      refine List.find?_eq_none.mpr fun old hold heq => ?_
      have hne : key old ≠ key r := of_decide_eq_true (List.mem_filter.mp hold).2
      exact hne ((of_decide_eq_true heq).trans hkey.symm)
    rw [hnone, if_pos (decide_eq_true hkey), if_pos hkey]
    rfl
  · have hsame : (rows.filter fun old => key old ≠ key r).find? (fun old => key old = k) =
        rows.find? fun old => key old = k := by
      rw [List.find?_filter]
      congr 1
      funext old
      by_cases hold : key old = k
      · have hne : key old ≠ key r := fun heq => hkey (heq.symm.trans hold)
        simp [hne]
      · simp [hold]
    rw [hsame, if_neg (fun h => hkey (of_decide_eq_true h)), if_neg hkey, Option.or_none]

/-- What is found behind a key is the last row that was put under it, or the old one. -/
theorem find?_putAll : (putAll key rows more).find? (fun old => key old = k) =
    (more.reverse.find? fun old => key old = k).or (rows.find? fun old => key old = k) := by
  induction more using List.reverseRecOn with
  | nil => rfl
  | append_singleton more r ih =>
    rw [putAll_concat, find?_put, List.reverse_concat, List.find?_cons]
    by_cases hkey : key r = k
    · simp [hkey]
    · simp [hkey, ih]

end Find

/-- **Rows whose keys all come again leave no trace.** -/
theorem putAll_again (h : ∀ r ∈ part, key r ∈ more.map key) :
    putAll key (putAll key rows part) more = putAll key rows more := by
  have hpart : (putAll key [] part).filter (fun old => key old ∉ more.map key) = [] := by
    rw [List.filter_eq_nil_iff]
    intro old hold hnew
    obtain ⟨r, hr, hkey⟩ := List.mem_map.mp
      ((mem_keys_putAll (List.mem_map_of_mem hold)).resolve_left List.not_mem_nil)
    exact of_decide_eq_true hnew (hkey ▸ h r hr)
  have hrows : (putAll key rows part).filter (fun old => key old ∉ more.map key) =
      rows.filter fun old => key old ∉ more.map key := by
    rw [putAll_eq, List.filter_append, hpart, List.append_nil, List.filter_filter]
    refine List.filter_congr fun old _ => ?_
    rw [← Bool.decide_and, decide_eq_decide]
    refine and_iff_left_of_imp fun hnot hmem => hnot ?_
    obtain ⟨r, hr, hkey⟩ := List.mem_map.mp hmem
    exact hkey ▸ h r hr
  rw [putAll_eq, hrows, ← putAll_eq]

/-- A row is left exactly if it is the last one with its key. -/
theorem mem_putAll_nil : r ∈ putAll key [] more ↔
    ∃ before after, more = before ++ r :: after ∧ ∀ r' ∈ after, key r' ≠ key r := by
  induction more using List.reverseRecOn with
  | nil => simp
  | append_singleton more last ih =>
    rw [putAll_concat, put, List.mem_append, List.mem_filter, ih, List.mem_singleton,
      decide_eq_true_eq]
    constructor
    · rintro (⟨⟨before, after, rfl, hafter⟩, hne⟩ | rfl)
      · refine ⟨before, after ++ [last], by simp, fun r' hr' => ?_⟩
        rcases List.mem_append.mp hr' with hmem | hmem
        · exact hafter r' hmem
        · obtain rfl := List.mem_singleton.mp hmem
          exact hne.symm
      · exact ⟨more, [], rfl, by simp⟩
    · rintro ⟨before, after, heq, hafter⟩
      cases after using List.reverseRecOn with
      | nil =>
        obtain ⟨-, hlast⟩ := List.append_inj' heq rfl
        exact .inr (List.cons.inj hlast).1.symm
      | append_singleton after x =>
        rw [← List.cons_append, ← List.append_assoc] at heq
        obtain ⟨rfl, hlast⟩ := List.append_inj' heq rfl
        obtain rfl := (List.cons.inj hlast).1
        refine .inl ⟨⟨before, after, rfl, fun r' hr' => ?_⟩, ?_⟩
        · exact hafter r' (List.mem_append_left _ hr')
        · exact (hafter last (List.mem_append_right _ (.head _))).symm

end Upserts
