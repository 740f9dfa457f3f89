/-
# `KeyValues` — a line of `key=value` fields

Fields behind each other with `;` between them, read back into a table: a field without
an equals sign, a key or a value of blanks only are passed over, keys are lowered, and of
two fields with one key the later stands.  What is written with clean keys is read back,
each value trimmed (`read_line`), also when the line as a whole was trimmed on its way.
-/
import ValidEmailVerifier.Lib.Text
import Mathlib.Logic.Function.Basic

namespace KeyValues

open Text

/-- The value, when there is one. -/
def filled (value : List Char) : Option (List Char) := if value = [] then none else some value

/-- One field, if it is one. -/
def parse (segment : List Char) : Option (List Char × List Char) :=
  if '=' ∈ segment then
    let key := strtolower (trim (before '=' segment))
    let value := trim (after '=' segment)
    if key = [] ∨ value = [] then none else some (key, value)
  else none

/-- What the table holds behind one more field. -/
def record (table : List Char → Option (List Char)) (segment : List Char) :
    List Char → Option (List Char) :=
  match parse segment with
  | some (key, value) => Function.update table key (some value)
  | none => table

/-- The table of a line. -/
def read (line : List Char) : List Char → Option (List Char) :=
  (line.splitOn ';').foldl record (fun _ => none)

def render (field : List Char × List Char) : List Char := field.1 ++ '=' :: field.2

/-- The fields with `;` between them. -/
def line : List (List Char × List Char) → List Char
  | [] => []
  | [field] => render field
  | field :: rest => render field ++ ';' :: line rest

theorem line_ne_nil {field : List Char × List Char} {rest : List (List Char × List Char)} :
    line (field :: rest) ≠ [] := by
  cases rest with
  | nil => exact List.append_ne_nil_of_right_ne_nil _ nofun
  | cons => exact List.append_ne_nil_of_right_ne_nil _ nofun

/-- What stands before a line belongs to the key of its first field. -/
theorem line_append {start : List Char} {field : List Char × List Char}
    {rest : List (List Char × List Char)} :
    line ((start ++ field.1, field.2) :: rest) = start ++ line (field :: rest) := by
  cases rest with
  | nil => simp [line, render]
  | cons => simp [line, render]

/-! ## Trimming around a character that stays -/

/-- Trimming keeps what is not trimmed away. -/
theorem mem_trimBy {p : Char → Bool} {c : Char} {s : List Char} (hc : p c = false) (h : c ∈ s) :
    c ∈ trimBy p s := by
  have hdrop : c ∈ s.dropWhile p := by
    rw [← List.takeWhile_append_dropWhile (p := p) (l := s)] at h
    refine (List.mem_append.mp h).resolve_left fun htake => ?_
    exact Bool.false_ne_true (hc.symm.trans (List.mem_takeWhile_imp htake))
  rw [← List.rdropWhile_append_rtakeWhile (p := p) (l := s.dropWhile p)] at hdrop
  refine (List.mem_append.mp hdrop).resolve_right fun htake => ?_
  exact Bool.false_ne_true (hc.symm.trans (List.mem_rtakeWhile_imp htake))

theorem before_append {c : Char} {s t : List Char} (h : c ∉ s) : before c (s ++ c :: t) = s := by
  rw [before, List.takeWhile_append_of_pos]
  · rw [List.takeWhile_cons_of_neg (by simp), List.append_nil]
  · intro d hd
    have hne : d ≠ c := fun heq => h (heq ▸ hd)
    simpa using hne

theorem after_append {c : Char} {s t : List Char} (h : c ∉ s) : after c (s ++ c :: t) = t := by
  rw [after, List.dropWhile_append_of_pos]
  · rw [List.dropWhile_cons_of_neg (by simp)]
    rfl
  · intro d hd
    have hne : d ≠ c := fun heq => h (heq ▸ hd)
    simpa using hne

/-- The first of several stays the first. -/
theorem after_append_of_mem {c : Char} {s t : List Char} (h : c ∈ s) :
    after c (s ++ t) = after c s ++ t := by
  obtain ⟨first, rest, rfl, hfirst⟩ := List.eq_append_cons_of_mem h
  rw [List.append_assoc, List.cons_append, after_append hfirst, after_append hfirst]

theorem before_append_of_mem {c : Char} {s t : List Char} (h : c ∈ s) :
    before c (s ++ t) = before c s := by
  obtain ⟨first, rest, rfl, hfirst⟩ := List.eq_append_cons_of_mem h
  rw [List.append_assoc, List.cons_append, before_append hfirst, before_append hfirst]

/-- A beginning without a character that comes later ends before it. -/
theorem prefix_of_append_cons {c : Char} {start s t : List Char} (h : start <+: s ++ c :: t)
    (hc : c ∉ start) : start <+: s := by
  rcases List.prefix_or_prefix_of_prefix h (List.prefix_append s (c :: t)) with hin | ⟨more, rfl⟩
  · exact hin
  · cases more with
    | nil => exact ⟨[], by simp⟩
    | cons d more =>
      obtain ⟨rfl, -⟩ := List.cons_prefix_cons.mp ((List.prefix_append_right_inj s).mp h)
      exact absurd (List.mem_append_right s (.head _)) hc

/-- What has none of a character lies on one side of it. -/
theorem infix_of_append_cons {c : Char} {word s t : List Char} (h : word <:+: s ++ c :: t)
    (hc : c ∉ word) : word <:+: s ∨ word <:+: t := by
  induction s with
  | nil =>
    rcases List.infix_cons_iff.mp h with hstart | hrest
    · cases word with
      | nil => exact .inl List.nil_infix
      | cons d word =>
        obtain ⟨rfl, -⟩ := List.cons_prefix_cons.mp hstart
        exact absurd (.head _) hc
    · exact .inr hrest
  | cons d s ih =>
    rcases List.infix_cons_iff.mp h with hstart | hrest
    · exact .inl (prefix_of_append_cons hstart hc).isInfix
    · exact (ih hrest).imp_left fun hs => hs.trans (List.suffix_cons d s).isInfix

theorem infix_of_mem_splitOn {c : Char} {piece s : List Char} (h : piece ∈ s.splitOn c) :
    piece <:+: s := by
  induction hlength : s.length using Nat.strong_induction_on generalizing s with
  | _ n ih =>
    by_cases hc : c ∈ s
    · obtain ⟨first, rest, rfl, hfirst⟩ := List.eq_append_cons_of_mem hc
      rw [List.splitOn_append_cons_self, List.splitOn_eq_singleton hfirst,
        List.singleton_append] at h
      rcases List.mem_cons.mp h with rfl | hrest
      · exact (List.prefix_append _ _).isInfix
      · have hshort : rest.length < n := by
          rw [← hlength, List.length_append, List.length_cons]
          omega
        have hin : piece <:+: rest := ih _ hshort hrest rfl
        exact hin.trans ((List.suffix_cons c rest).trans (List.suffix_append first _)).isInfix
    · rw [List.splitOn_eq_singleton hc, List.mem_singleton] at h
      exact h ▸ List.infix_rfl

theorem dropWhile_append_cons {p : Char → Bool} {c : Char} {s t : List Char} (h : p c = false) :
    (s ++ c :: t).dropWhile p = s.dropWhile p ++ c :: t := by
  induction s with
  | nil => exact List.dropWhile_cons_of_neg (by simp [h])
  | cons d s ih =>
    rw [List.cons_append, List.dropWhile_cons, List.dropWhile_cons]
    split
    · exact ih
    · rfl

theorem rdropWhile_append_cons {p : Char → Bool} {c : Char} {s t : List Char} (h : p c = false) :
    (s ++ c :: t).rdropWhile p = s ++ c :: t.rdropWhile p := by
  have hrev := @dropWhile_append_cons p c t.reverse s.reverse h
  rw [List.rdropWhile, List.rdropWhile, List.reverse_append, List.reverse_cons,
    List.append_assoc, List.singleton_append, hrev]
  simp

/-- A character that is not dropped keeps what stands on its other side. -/
theorem trimBy_append_cons {p : Char → Bool} {c : Char} {s t : List Char} (h : p c = false) :
    trimBy p (s ++ c :: t) = s.dropWhile p ++ c :: t.rdropWhile p := by
  rw [trimBy, dropWhile_append_cons h, rdropWhile_append_cons h]

theorem dropWhile_dropWhile {p : Char → Bool} {s : List Char} :
    (s.dropWhile p).dropWhile p = s.dropWhile p := List.dropWhile_idempotent p s

theorem trimBy_dropWhile {p : Char → Bool} {s : List Char} :
    trimBy p (s.dropWhile p) = trimBy p s := by
  rw [trimBy, trimBy, dropWhile_dropWhile]

theorem trimBy_rdropWhile {p : Char → Bool} {s : List Char} :
    trimBy p (s.rdropWhile p) = trimBy p s := by
  by_cases hall : ∀ c ∈ s, p c = true
  · rw [List.rdropWhile_eq_nil_iff.mpr hall, trimBy, trimBy, List.dropWhile_eq_nil_iff.mpr hall]
    rfl
  · push Not at hall
    obtain ⟨c, hc, hp⟩ := hall
    obtain ⟨first, last, rfl⟩ := List.append_of_mem hc
    have hp : p c = false := by simpa using hp
    rw [rdropWhile_append_cons hp, trimBy_append_cons hp, trimBy_append_cons hp,
      List.rdropWhile_idempotent]

/-! ## One field -/

/-- A key that is read as it is written. -/
structure Clean (key : List Char) : Prop where
  lowered : strtolower (trim key) = key
  ne_nil : key ≠ []
  no_equals : '=' ∉ key
  no_semicolon : ';' ∉ key

instance {key : List Char} : Decidable (Clean key) :=
  decidable_of_iff (strtolower (trim key) = key ∧ key ≠ [] ∧ '=' ∉ key ∧ ';' ∉ key)
    ⟨fun ⟨h1, h2, h3, h4⟩ => ⟨h1, h2, h3, h4⟩, fun ⟨h1, h2, h3, h4⟩ => ⟨h1, h2, h3, h4⟩⟩

theorem parse_render {key value : List Char} (h : Clean key) :
    parse (render (key, value)) = (filled (trim value)).map fun v => (key, v) := by
  rw [parse, render, if_pos (by simp), before_append h.no_equals, after_append h.no_equals,
    h.lowered, filled]
  by_cases hv : trim value = []
  · rw [hv]
    simp
  · rw [if_neg hv]
    simp [h.ne_nil, hv]

theorem record_render {key value : List Char} {table : List Char → Option (List Char)}
    (h : Clean key) (k : List Char) : record table (render (key, value)) k =
      if k = key then (filled (trim value)).or (table k) else table k := by
  rw [record, parse_render h]
  cases filled (trim value) with
  | none => simp
  | some v =>
    simp only [Option.map_some, Option.some_or]
    split
    · next heq => rw [heq, Function.update_self]
    · next hne => rw [Function.update_of_ne hne]

/-! ## All fields -/

variable {fields : List (List Char × List Char)}

/-- Each key stands once, and is clean. -/
structure Distinct (fields : List (List Char × List Char)) : Prop where
  clean : ∀ field ∈ fields, Clean field.1
  nodup : (fields.map Prod.fst).Nodup

theorem Distinct.tail {field : List Char × List Char} (h : Distinct (field :: fields)) :
    Distinct fields :=
  ⟨fun f hf => h.clean f (.tail _ hf), (List.nodup_cons.mp h.nodup).2⟩

theorem lookup_of_not_mem {k : List Char} (h : k ∉ fields.map Prod.fst) :
    fields.lookup k = none := by
  rw [List.lookup_eq_none_iff]
  intro field hfield
  rw [bne_iff_ne]
  exact fun heq => h (heq ▸ List.mem_map_of_mem hfield)

/-- What the fields say of a key, if they say anything. -/
theorem foldl_record {table : List Char → Option (List Char)} {k : List Char}
    (h : Distinct fields) : (fields.map render).foldl record table k =
      ((fields.lookup k).bind fun v => filled (trim v)).or (table k) := by
  induction fields generalizing table with
  | nil => rfl
  | cons field rest ih =>
    obtain ⟨key, value⟩ := field
    have hkey : Clean key := h.clean (key, value) (.head _)
    rw [List.map_cons, List.foldl_cons, ih h.tail, record_render hkey, List.lookup_cons]
    by_cases heq : k = key
    · have hrest : rest.lookup k = none :=
        lookup_of_not_mem (heq ▸ (List.nodup_cons.mp h.nodup).1)
      rw [hrest, if_pos heq]
      simp [heq]
    · have hbeq : (k == key) = false := beq_eq_false_iff_ne.mpr heq
      rw [if_neg heq, hbeq]

/-- No value has a semicolon. -/
def Undelimited (fields : List (List Char × List Char)) : Prop := ∀ field ∈ fields, ';' ∉ field.2

theorem not_mem_render {field : List Char × List Char} (hkey : Clean field.1)
    (hvalue : ';' ∉ field.2) : ';' ∉ render field := by
  rw [render, List.mem_append, List.mem_cons]
  rintro (h | h | h)
  · exact hkey.no_semicolon h
  · exact absurd h (by decide)
  · exact hvalue h

/-- A line is split where its fields were joined. -/
theorem splitOn_line_of_free (hfree : ∀ field ∈ fields, ';' ∉ render field) (hne : fields ≠ []) :
    (line fields).splitOn ';' = fields.map render := by
  fun_induction line fields with
  | case1 => exact absurd rfl hne
  | case2 field => exact List.splitOn_eq_singleton (hfree field (.head _))
  | case3 field rest hrest ih =>
    rw [List.splitOn_append_cons_self, List.splitOn_eq_singleton (hfree field (.head _)),
      ih (fun f hf => hfree f (.tail _ hf)) hrest]
    rfl

theorem splitOn_line (h : Distinct fields) (hfree : Undelimited fields) (hne : fields ≠ []) :
    (line fields).splitOn ';' = fields.map render :=
  splitOn_line_of_free
    (fun field hfield => not_mem_render (h.clean field hfield) (hfree field hfield)) hne

/-- The table of a line that was written so. -/
theorem read_line {k : List Char} (h : Distinct fields) (hfree : Undelimited fields)
    (hne : fields ≠ []) :
    read (line fields) k = (fields.lookup k).bind fun v => filled (trim v) := by
  rw [read, splitOn_line h hfree hne, foldl_record h, Option.or_none]

/-! ## The last field -/

theorem line_concat {field : List Char × List Char} (hne : fields ≠ []) :
    line (fields ++ [field]) = line fields ++ ';' :: render field := by
  fun_induction line fields with
  | case1 => exact absurd rfl hne
  | case2 first => rfl
  | case3 first rest hrest ih =>
    rw [List.cons_append, line, ih hrest, List.append_assoc, List.cons_append]
    exact List.append_ne_nil_of_right_ne_nil rest (List.cons_ne_nil field [])

/-- The last field has the last word, whatever stands before it. -/
theorem read_append_render {key value start : List Char} (hkey : Clean key)
    (hfree : ';' ∉ value) (hvalue : trim value ≠ []) :
    read (start ++ ';' :: render (key, value)) key = some (trim value) := by
  have hlast : ';' ∉ render (key, value) := not_mem_render hkey hfree
  rw [read, List.splitOn_append_cons_self, List.splitOn_eq_singleton hlast, List.foldl_append]
  show record _ (render (key, value)) key = _
  rw [record_render hkey, if_pos rfl, filled, if_neg hvalue, Option.some_or]

theorem read_render {key value : List Char} (hkey : Clean key) (hfree : ';' ∉ value)
    (hvalue : trim value ≠ []) : read (render (key, value)) key = some (trim value) := by
  have hlast : ';' ∉ render (key, value) := not_mem_render hkey hfree
  rw [read, List.splitOn_eq_singleton hlast]
  show record _ (render (key, value)) key = _
  rw [record_render hkey, if_pos rfl, filled, if_neg hvalue, Option.some_or]

/-! ## A key that is not written -/

theorem infix_trimBy (p : Char → Bool) (s : List Char) : trimBy p s <:+: s :=
  (List.rdropWhile_prefix p _).isInfix.trans (List.dropWhile_suffix p).isInfix

/-- What is read under a key is written under it. -/
theorem infix_of_read {key line : List Char} (h : read line key ≠ none) :
    key <:+: strtolower line := by
  have hfold : ∀ (segments : List (List Char)) (table : List Char → Option (List Char)),
      segments.foldl record table key ≠ none →
        table key ≠ none ∨ ∃ segment ∈ segments, key <:+: strtolower segment := by
    intro segments
    induction segments with
    | nil => exact fun table hne => .inl hne
    | cons segment rest ih =>
      intro table hne
      rcases ih (record table segment) hne with hrecord | ⟨later, hlater, hin⟩
      · cases hparse : parse segment with
        | none =>
          rw [record, hparse] at hrecord
          exact .inl hrecord
        | some field =>
          by_cases hkey : key = field.1
          · refine .inr ⟨segment, .head _, ?_⟩
            rw [parse, Option.ite_none_right_eq_some] at hparse
            simp only [Option.ite_none_left_eq_some, Option.some.injEq] at hparse
            rw [hkey, ← hparse.2.2]
            exact List.IsInfix.map _
              ((infix_trimBy isBlank _).trans (List.takeWhile_prefix _).isInfix)
          · rw [record, hparse] at hrecord
            exact .inl (Function.update_of_ne hkey _ table ▸ hrecord)
      · exact .inr ⟨later, .tail _ hlater, hin⟩
  rcases hfold (line.splitOn ';') _ h with hnone | ⟨segment, hsegment, hin⟩
  · exact absurd rfl hnone
  · exact hin.trans (List.IsInfix.map _ (infix_of_mem_splitOn hsegment))

/-! ## A line that was trimmed -/

/-- The fields, when the blanks at the end of the line are gone. -/
def clipLast : List (List Char × List Char) → List (List Char × List Char)
  | [] => []
  | [field] => [(field.1, field.2.rdropWhile isBlank)]
  | field :: rest => field :: clipLast rest

theorem map_fst_clipLast : (clipLast fields).map Prod.fst = fields.map Prod.fst := by
  fun_induction clipLast fields with
  | case1 => rfl
  | case2 field => rfl
  | case3 field rest _ ih => rw [List.map_cons, List.map_cons, ih]

theorem clipLast_ne_nil (h : fields ≠ []) : clipLast fields ≠ [] := by
  fun_cases clipLast fields with
  | case1 => exact h
  | case2 field => exact List.cons_ne_nil _ _
  | case3 field rest _ => exact List.cons_ne_nil _ _

theorem rdropWhile_line : (line fields).rdropWhile isBlank = line (clipLast fields) := by
  fun_induction line fields with
  | case1 => rfl
  | case2 field =>
    rw [render, rdropWhile_append_cons (by decide)]
    rfl
  | case3 field rest hrest ih =>
    rw [rdropWhile_append_cons (by decide), ih]
    have hne : clipLast rest ≠ [] := clipLast_ne_nil hrest
    rw [clipLast, line]
    · exact hne
    · exact hrest

theorem Undelimited.clipLast (h : Undelimited fields) : Undelimited (clipLast fields) := by
  fun_induction KeyValues.clipLast fields with
  | case1 => exact h
  | case2 field =>
    intro f hf hmem
    rw [List.mem_singleton.mp hf] at hmem
    exact h field (.head _) ((List.rdropWhile_prefix isBlank field.2).subset hmem)
  | case3 field rest _ ih =>
    intro f hf
    rcases List.mem_cons.mp hf with rfl | hf
    · exact h f (.head _)
    · exact ih (fun f hf => h f (.tail _ hf)) f hf

theorem Distinct.clipLast (h : Distinct fields) : Distinct (clipLast fields) := by
  refine ⟨fun field hfield => ?_, by rw [map_fst_clipLast]; exact h.nodup⟩
  have hkey : field.1 ∈ fields.map Prod.fst :=
    map_fst_clipLast ▸ List.mem_map_of_mem hfield
  obtain ⟨other, hother, heq⟩ := List.mem_map.mp hkey
  exact heq ▸ h.clean other hother

/-- Trimmed values are the same. -/
theorem lookup_clipLast {k : List Char} :
    ((clipLast fields).lookup k).map trim = (fields.lookup k).map trim := by
  fun_induction clipLast fields with
  | case1 => rfl
  | case2 field =>
    rw [List.lookup_cons, List.lookup_cons]
    cases k == field.1 with
    | true => exact congrArg some trimBy_rdropWhile
    | false => rfl
  | case3 field rest _ ih =>
    rw [List.lookup_cons, List.lookup_cons]
    cases k == field.1 with
    | true => rfl
    | false => exact ih

theorem bind_filled {o : Option (List Char)} :
    (o.bind fun v => filled (trim v)) = (o.map trim).bind filled := by cases o <;> rfl

/-- **What was written is read, each value trimmed**, also from a line whose end was
trimmed. -/
theorem read_rdropWhile_line {k : List Char} (h : Distinct fields) (hfree : Undelimited fields)
    (hne : fields ≠ []) : read ((line fields).rdropWhile isBlank) k =
      (fields.lookup k).bind fun v => filled (trim v) := by
  rw [rdropWhile_line, read_line h.clipLast hfree.clipLast (clipLast_ne_nil hne), bind_filled,
    lookup_clipLast, ← bind_filled]

/-! ## Fields without a value are not written -/

/-- The fields that have a value. -/
def nonempty (fields : List (List Char × List Char)) : List (List Char × List Char) :=
  fields.filter fun field => field.2 ≠ []

theorem Distinct.nonempty (h : Distinct fields) : Distinct (nonempty fields) :=
  ⟨fun field hfield => h.clean field (List.mem_filter.mp hfield).1,
    h.nodup.sublist (List.filter_sublist.map Prod.fst)⟩

theorem Undelimited.nonempty (h : Undelimited fields) : Undelimited (nonempty fields) :=
  fun field hfield => h field (List.mem_filter.mp hfield).1

/-- A field without a value would say nothing. -/
theorem lookup_nonempty {k : List Char} (h : (fields.map Prod.fst).Nodup) :
    ((nonempty fields).lookup k).bind (fun v => filled (trim v)) =
      (fields.lookup k).bind fun v => filled (trim v) := by
  induction fields with
  | nil => rfl
  | cons field rest ih =>
    obtain ⟨hnot, hrest⟩ := List.nodup_cons.mp h
    rw [nonempty, List.filter_cons]
    split
    · rw [List.lookup_cons, List.lookup_cons]
      cases k == field.1 with
      | true => rfl
      | false => exact ih hrest
    · next hempty =>
      have hvalue : field.2 = [] := by simpa using hempty
      show ((nonempty rest).lookup k).bind _ = _
      rw [ih hrest, List.lookup_cons]
      cases hk : k == field.1 with
      | false => rfl
      | true =>
        rw [eq_of_beq hk, lookup_of_not_mem hnot, hvalue]
        rfl

end KeyValues
