/-
# `Json` — the values of a JSON text

What a text of JSON says, with the fields of an object in the order they stand in and as
often as they do.  A number keeps whether it is written as an integer.
-/
import Mathlib.Data.Int.Order.Basic
import Mathlib.Data.List.Dedup
import ValidEmailVerifier.Lib.Text

/-- A number as it is written: `-1.50e3` has the digits `150` and the exponent `1`; there
is no exponent when there is neither a fraction nor an exponent. -/
structure Number where
  negative : Bool := false
  digits : Nat
  exponent : Option Int := none
  deriving DecidableEq, Repr

namespace Number

/-- The value of a number that is written as an integer. -/
def toInt? (n : Number) : Option Int :=
  match n.exponent with
  | none => some (if n.negative then -(n.digits : Int) else n.digits)
  | some _ => none

/-- The integer, written. -/
def ofInt (i : Int) : Number := ⟨i < 0, i.natAbs, none⟩

theorem toInt?_ofInt (i : Int) : (ofInt i).toInt? = some i := by
  show some (if decide (i < 0) = true then -(i.natAbs : Int) else (i.natAbs : Int)) = some i
  by_cases hi : i < 0
  · rw [if_pos (decide_eq_true hi), Int.ofNat_natAbs_of_nonpos (Int.le_of_lt hi), Int.neg_neg]
  · rw [if_neg (by simpa using hi), Int.natAbs_of_nonneg (Int.not_lt.mp hi)]

end Number

/-- A value of a JSON text. -/
inductive Json where
  | null
  | bool (b : Bool)
  | num (n : Number)
  | str (s : List Char)
  | arr (elems : List Json)
  | obj (fields : List (List Char × Json))
  deriving Repr

namespace Json

variable {ν : Type}

/-- The value of a key, the last one when it stands more than once. -/
def last (k : List Char) : List (List Char × ν) → Option ν
  | [] => none
  | field :: rest => (last k rest).or (if field.1 = k then some field.2 else none)

/-- The fields that no later field overrides. -/
def lastWins : List (List Char × ν) → List (List Char × ν)
  | [] => []
  | field :: rest =>
      if field.1 ∈ rest.map Prod.fst then lastWins rest else field :: lastWins rest

variable {k : List Char} {fields : List (List Char × ν)}

theorem last_eq_none_iff : last k fields = none ↔ k ∉ fields.map Prod.fst := by
  induction fields with
  | nil => simp [last]
  | cons field rest ih =>
    rw [last, Option.or_eq_none_iff, ih, List.map_cons, List.mem_cons, not_or]
    constructor
    · rintro ⟨hrest, hhead⟩
      refine ⟨fun heq => ?_, hrest⟩
      rw [if_pos heq.symm] at hhead
      exact nomatch hhead
    · rintro ⟨hhead, hrest⟩
      exact ⟨hrest, if_neg (Ne.symm hhead)⟩

theorem mem_of_last {v : ν} (h : last k fields = some v) : (k, v) ∈ fields := by
  induction fields with
  | nil => exact nomatch h
  | cons field rest ih =>
    rw [last] at h
    cases hrest : last k rest with
    | some w =>
      rw [hrest, Option.some_or] at h
      exact .tail _ (ih (hrest.trans h))
    | none =>
      rw [hrest, Option.none_or, Option.ite_none_right_eq_some] at h
      obtain ⟨rfl, hv⟩ := h
      rw [← Option.some.inj hv]
      exact .head _

theorem mem_lastWins {v : ν} : (k, v) ∈ lastWins fields ↔ last k fields = some v := by
  induction fields with
  | nil => simp [last, lastWins]
  | cons field rest ih =>
    obtain ⟨key, value⟩ := field
    rw [lastWins, last]
    by_cases hmem : key ∈ rest.map Prod.fst
    · rw [if_pos hmem, ih]
      by_cases heq : key = k
      · obtain ⟨w, hw⟩ := Option.ne_none_iff_exists'.mp
          (fun hnone => (last_eq_none_iff.mp hnone) (heq ▸ hmem))
        rw [hw, Option.some_or]
      · rw [if_neg heq, Option.or_none]
    · rw [if_neg hmem, List.mem_cons, ih]
      by_cases heq : key = k
      · have hnone : last k rest = none := last_eq_none_iff.mpr (heq ▸ hmem)
        rw [hnone, if_pos heq, Option.none_or]
        simp [heq, eq_comm]
      · rw [if_neg heq, Option.or_none]
        simp [Ne.symm heq]

/-- Each key stands for the one value that is there under it. -/
theorem last_of_mem {v : ν} (hnodup : (fields.map Prod.fst).Nodup) (h : (k, v) ∈ fields) :
    last k fields = some v := by
  cases hlast : last k fields with
  | none => exact absurd (List.mem_map_of_mem h) (last_eq_none_iff.mp hlast)
  | some w =>
    have hsame : (k, w) = (k, v) := List.inj_on_of_nodup_map hnodup (mem_of_last hlast) h rfl
    rw [(Prod.mk.inj hsame).2]

/-! ## Arrays of keys and values -/

/-- The fields with each key once, in the place where it came first, with its last value. -/
def merged (fields : List (List Char × ν)) : List (List Char × ν) :=
  (fields.map Prod.fst).eraseDups.filterMap fun k => (last k fields).map fun v => (k, v)

theorem mem_merged {v : ν} : (k, v) ∈ merged fields ↔ last k fields = some v := by
  rw [merged, List.mem_filterMap]
  constructor
  · rintro ⟨key, -, hmap⟩
    obtain ⟨w, hw, heq⟩ := Option.map_eq_some_iff.mp hmap
    obtain ⟨rfl, rfl⟩ := Prod.mk.inj heq
    exact hw
  · intro h
    have hmem : k ∈ (fields.map Prod.fst).eraseDups :=
      List.mem_eraseDups.mpr (List.mem_map_of_mem (mem_of_last h))
    exact ⟨k, hmem, by rw [h]; rfl⟩

/-- Fields that stand once are an array as they are. -/
theorem merged_of_nodup (h : (fields.map Prod.fst).Nodup) : merged fields = fields := by
  have hdups : ∀ {l : List (List Char)}, l.Nodup → l.eraseDups = l := by
    intro l hl
    induction l with
    | nil => rfl
    | cons a l ih =>
      obtain ⟨ha, hl⟩ := List.nodup_cons.mp hl
      have hrest : l.filter (fun b => !b == a) = l := by
        refine List.filter_eq_self.mpr fun b hb => ?_
        have hne : b ≠ a := fun heq => ha (heq ▸ hb)
        simpa using hne
      rw [List.eraseDups_cons, hrest, ih hl]
  have heach : ∀ field ∈ fields,
      ((fun k => (last k fields).map fun v => (k, v)) ∘ Prod.fst) field = some field := by
    intro field hfield
    show (last field.1 fields).map _ = _
    rw [last_of_mem h hfield]
    rfl
  rw [merged, hdups h, List.filterMap_map, List.filterMap_congr heach, List.filterMap_some]

/-- The elements of a list under their indices. -/
def indexed (elems : List ν) : List (List Char × ν) :=
  elems.zipIdx.map fun e => (Nat.toDigits 10 e.2, e.1)

theorem map_snd_indexed (elems : List ν) : (indexed elems).map Prod.snd = elems := by
  rw [indexed, List.map_map]
  exact List.zipIdx_map_fst 0 elems

/-- There is nothing under a name with a character that is no digit. -/
theorem last_indexed {elems : List ν} (h : ∃ c ∈ k, c.isDigit = false) :
    last k (indexed elems) = none := by
  obtain ⟨c, hc, hdigit⟩ := h
  refine last_eq_none_iff.mpr fun hmem => ?_
  obtain ⟨entry, hentry, rfl⟩ := List.mem_map.mp hmem
  obtain ⟨e, -, rfl⟩ := List.mem_map.mp hentry
  have htrue : c.isDigit = true :=
    Nat.isDigit_of_mem_toDigits (b := 10) (by decide) (by decide) hc
  rw [hdigit] at htrue
  exact nomatch htrue

end Json
