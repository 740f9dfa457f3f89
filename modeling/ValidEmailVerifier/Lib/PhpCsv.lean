/-
# `PhpCsv` — rows of `fputcsv`, read with `str_getcsv`

`fputcsv` puts a field between quotes and doubles its own, but not one behind a backslash.
`str_getcsv` takes the character behind a backslash as it stands, also when that is a backslash
itself.  So of two backslashes the writer still leaves the quote behind them alone, while the
reader takes it for the closing one; and a backslash at the end hides the closing quote.  A field
without these is read as it was written (`from_start_of_readsBack`), at the start of a row too
(`getElem?_zero_fields`).
-/
import ValidEmailVerifier.Lib.Csv

namespace PhpCsv

open Csv Text

/-! ## Writing -/

/-- The characters for which `fputcsv` puts a field between quotes. -/
def encloses (c : Char) : Bool :=
  c == ',' || c == '"' || c == '\\' || c == '\n' || c == '\r' || c == '\t' || c == ' '

/-- A field between quotes; `escaped` tells whether a backslash has just been written. -/
def enclosed (escaped : Bool) : List Char → List Char
  | [] => []
  | c :: s =>
      if c = '\\' then c :: enclosed true s
      else if escaped = false ∧ c = '"' then '"' :: '"' :: enclosed false s
      else c :: enclosed false s

def field (s : List Char) : List Char :=
  if s.any encloses then '"' :: (enclosed false s ++ ['"']) else s

/-- The fields of a row, without the line end. -/
def fields : List (List Char) → List Char
  | [] => []
  | [s] => field s
  | s :: more => field s ++ ',' :: fields more

/-- `fputcsv($stream, $fields)`. -/
def fputcsv (row : List (List Char)) : List Char := fields row ++ ['\n']

/-! ## Fields that are read back -/

/-- No quote stands behind an even number of backslashes but none, and the field does not end in
an odd number; `escaped` is the state of the writer, `odd` that of the reader. -/
def followed (escaped odd : Bool) : List Char → Bool
  | [] => !odd
  | c :: s =>
      if c = '\\' then followed true (!odd) s
      else if c = '"' then escaped == odd && followed false false s
      else followed false false s

/-- The field is read as it is written. -/
def readsBack (s : List Char) : Bool := !s.any encloses || followed false false s

/-- A field that is followed is read to its closing quote. -/
theorem from_of_followed {rest : List Char} :
    ∀ {s column : List Char} {escaped odd : Bool}, followed escaped odd s = true →
      (odd = true → escaped = true) →
      strGetcsvFrom (modeOf odd) column (enclosed escaped s ++ '"' :: rest) =
        strGetcsvFrom .quote (column ++ s) rest := by
  intro s
  induction s with
  | nil =>
    intro column escaped odd h _
    cases odd with
    | true => cases h
    | false =>
      rw [enclosed, List.nil_append, List.append_nil, modeOf, if_neg Bool.false_ne_true,
        strGetcsvFrom, if_pos rfl]
  | cons c s ih =>
    intro column escaped odd h hodd
    have hcolumn : column ++ c :: s = column ++ [c] ++ s := by simp
    rw [followed] at h
    rw [hcolumn, enclosed]
    by_cases hslash : c = '\\'
    · subst hslash
      rw [if_pos rfl] at h ⊢
      rw [List.cons_append]
      cases odd with
      | true => exact ih h (fun _ => rfl)
      | false => exact ih h (fun _ => rfl)
    · rw [if_neg hslash] at h ⊢
      by_cases hquote : c = '"'
      · subst hquote
        rw [if_pos rfl, Bool.and_eq_true, beq_iff_eq] at h
        obtain ⟨rfl, hrest⟩ := h
        cases escaped with
        | true =>
          rw [if_neg (by simp), List.cons_append]
          exact ih hrest (fun hfalse => absurd hfalse Bool.false_ne_true)
        | false =>
          rw [if_pos ⟨rfl, rfl⟩, List.cons_append, List.cons_append, modeOf,
            if_neg Bool.false_ne_true, strGetcsvFrom, if_pos rfl, strGetcsvFrom,
            if_neg (by decide), if_pos rfl]
          exact ih hrest (fun hfalse => absurd hfalse Bool.false_ne_true)
      · rw [if_neg hquote] at h
        rw [if_neg (fun hboth => hquote hboth.2), List.cons_append]
        have hnext := @ih (column ++ [c]) false false h
          (fun hfalse => absurd hfalse Bool.false_ne_true)
        cases odd with
        | true => exact hnext
        | false =>
          rw [modeOf, if_neg Bool.false_ne_true, strGetcsvFrom, if_neg hquote, if_neg hslash]
          exact hnext

/-- A field with nothing to enclose is bare, and ends no line. -/
theorem bare_of_any {s : List Char} (h : s.any encloses = false) :
    isBare s = true ∧ '\n' ∉ s ∧ '\r' ∉ s := by
  have hno : ∀ c ∈ s, encloses c = false := fun c hc => by
    simpa using List.any_eq_false.mp h c hc
  have hnot : ∀ c, encloses c = true → c ∉ s := by
    intro c hc hmem
    rw [hno c hmem] at hc
    cases hc
  refine ⟨?_, hnot _ rfl, hnot _ rfl⟩
  rw [isBare, Bool.and_eq_true, Bool.not_eq_true', List.contains_eq_mem, decide_eq_false_iff_not]
  refine ⟨hnot _ rfl, bne_iff_ne.mpr fun hhead => hnot '"' rfl ?_⟩
  exact (List.dropWhile_sublist isCsvSpace).subset (List.mem_of_mem_head? hhead)

/-- **A field that reads back is read as it was written**, and the row goes on. -/
theorem from_start_of_readsBack {s rest : List Char} (h : readsBack s = true)
    (hrest : AfterField rest) :
    strGetcsvFrom .start [] (field s ++ rest) = s :: nextColumns rest := by
  rw [field]
  cases henclosed : s.any encloses with
  | true =>
    rw [readsBack, henclosed] at h
    have hread := @from_of_followed rest s [] false false h
      (fun hfalse => absurd hfalse Bool.false_ne_true)
    rw [if_pos rfl, List.cons_append, List.append_assoc, List.singleton_append, strGetcsvFrom,
      if_neg (by decide), if_pos rfl]
    rw [modeOf, if_neg Bool.false_ne_true, List.nil_append] at hread
    rw [hread, from_quote hrest]
  | false =>
    obtain ⟨hbare, hn, hr⟩ := bare_of_any henclosed
    rw [if_neg Bool.false_ne_true, from_start_of_isBare hrest hbare, List.nil_append,
      stripEol_eq_self hn hr]

/-- What follows the first field of a row. -/
theorem exists_rest (s : List Char) (more : List (List Char)) :
    ∃ rest, AfterField rest ∧ fields (s :: more) = field s ++ rest ∧
      nextColumns rest = if more = [] then [] else strGetcsv (fields more) := by
  cases more with
  | nil => exact ⟨[], .inl rfl, (List.append_nil _).symm, rfl⟩
  | cons next more => exact ⟨',' :: fields (next :: more), .inr ⟨_, rfl⟩, rfl, rfl⟩

/-- **The first column of a row is its first field**, if that reads back. -/
theorem getElem?_zero_fields {s : List Char} {more : List (List Char)} (h : readsBack s = true) :
    (strGetcsv (fields (s :: more)))[0]? = some s := by
  obtain ⟨rest, hrest, hfields, -⟩ := exists_rest s more
  rw [strGetcsv, hfields, from_start_of_readsBack h hrest]
  rfl

/-! ## Lines -/

theorem mem_enclosed {c : Char} (hc : c ≠ '"') :
    ∀ {s : List Char} {escaped : Bool}, c ∈ enclosed escaped s ↔ c ∈ s := by
  intro s
  induction s with
  | nil => exact fun {_} => Iff.rfl
  | cons d s ih =>
    intro escaped
    rw [enclosed]
    split
    · simp [ih]
    · split
      next hquote => simp [ih, hc, hquote.2]
      · simp [ih]

theorem mem_field {c : Char} (hc : c ≠ '"') {s : List Char} : c ∈ field s ↔ c ∈ s := by
  rw [field]
  split
  · simp [mem_enclosed hc, hc]
  · exact Iff.rfl

theorem mem_fields {c : Char} (hc : c ≠ '"') (hcomma : c ≠ ',') {row : List (List Char)} :
    c ∈ fields row ↔ ∃ s ∈ row, c ∈ s := by
  induction row with
  | nil => simp [fields]
  | cons s more ih =>
    cases more with
    | nil => simp [fields, mem_field hc]
    | cons next more =>
      have hfields : fields (s :: next :: more) = field s ++ ',' :: fields (next :: more) := rfl
      rw [hfields, List.mem_append, List.mem_cons, mem_field hc, or_iff_right hcomma, ih]
      simp

/-! ### Their ends -/

theorem head?_field {s : List Char} : (field s).head? = some '"' ∨ (field s).head? = s.head? := by
  rw [field]
  split
  · exact .inl rfl
  · exact .inr rfl

theorem getLast?_field {s : List Char} :
    (field s).getLast? = some '"' ∨ (field s).getLast? = s.getLast? := by
  rw [field]
  split
  · rw [← List.cons_append, List.getLast?_append_of_ne_nil _ (List.cons_ne_nil _ _)]
    exact .inl rfl
  · exact .inr rfl

theorem field_ne_nil {s : List Char} (h : s ≠ []) : field s ≠ [] := by
  rw [field]
  split
  · exact List.cons_ne_nil _ _
  · exact h

/-- A row begins with its first field. -/
theorem head?_fields {s : List Char} {more : List (List Char)} (h : s ≠ []) :
    (fields (s :: more)).head? = (field s).head? := by
  cases more with
  | nil => rfl
  | cons next more => exact List.head?_append_of_ne_nil _ (field_ne_nil h)

/-- A row ends with its last field. -/
theorem getLast?_fields {s : List Char} (h : s ≠ []) {front : List (List Char)} :
    (fields (front ++ [s])).getLast? = (field s).getLast? := by
  induction front with
  | nil => rfl
  | cons first front ih =>
    have hfields : fields (first :: front ++ [s]) = field first ++ ',' :: fields (front ++ [s]) := by
      cases front <;> rfl
    have hne : fields (front ++ [s]) ≠ [] := by
      intro hnil
      rw [hnil, List.getLast?_nil, eq_comm, List.getLast?_eq_none_iff] at ih
      exact field_ne_nil h ih
    rw [hfields, List.getLast?_append_of_ne_nil _ (List.cons_ne_nil _ _),
      ← List.singleton_append, List.getLast?_append_of_ne_nil _ hne, ih]

/-- Rows without line ends are read line by line. -/
theorem fgets_rows {rows : List (List (List Char))}
    (h : ∀ row ∈ rows, ∀ s ∈ row, '\n' ∉ s) :
    fgets (rows.flatMap fputcsv) = rows.map fputcsv := by
  induction rows with
  | nil => rfl
  | cons row rows ih =>
    have hline : '\n' ∉ fields row := by
      rw [mem_fields (by decide) (by decide)]
      rintro ⟨s, hs, hmem⟩
      exact h row (.head _) s hs hmem
    rw [List.flatMap_cons, List.map_cons, fputcsv, List.append_assoc, List.singleton_append,
      fgets_line hline, ih fun row hrow => h row (.tail _ hrow)]

end PhpCsv
