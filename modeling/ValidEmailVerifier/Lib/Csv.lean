/-
# `Csv` — rows of `encoding/csv`, read with `str_getcsv`

Go writes a quoted field with its quotes doubled and knows no escape character;
PHP reads a backslash of a quoted field as one, and takes the next character as it
stands.  The two agree on a field exactly when no such backslash comes before a quote:
before one of the field (`paired`), or before the closing one.

A field on which they disagree is read as something else, even when the reader trims
what it has read (`Misread.trim_ne`).
-/
import ValidEmailVerifier.Lib.Text
import Mathlib.Data.List.Infix

namespace Csv

open Text

/-! ## Writing -/

/-- `fieldNeedsQuotes` of a writer with commas; `space` is `unicode.IsSpace`. -/
def fieldNeedsQuotes (space : Char → Bool) (field : List Char) : Bool :=
  if field = [] then false
  else if field = ['\\', '.'] then true
  else field.any (fun c => c == '\n' || c == '\r' || c == '"' || c == ',') ||
    (field.head?.map space).getD false

/-- A field between quotes: its own are doubled. -/
def escape : List Char → List Char
  | [] => []
  | c :: s => if c = '"' then '"' :: '"' :: escape s else c :: escape s

def writeField (space : Char → Bool) (field : List Char) : List Char :=
  if fieldNeedsQuotes space field then '"' :: (escape field ++ ['"']) else field

/-- The fields of a record, without the line end. -/
def writeFields (space : Char → Bool) : List (List Char) → List Char
  | [] => []
  | [field] => writeField space field
  | field :: fields => writeField space field ++ ',' :: writeFields space fields

/-- `Writer.Write`. -/
def write (space : Char → Bool) (record : List (List Char)) : List Char :=
  writeFields space record ++ ['\n']

/-! ## Lines -/

/-- A text without a line end in it is read as one line. -/
theorem fgets_line {rest : List Char} : ∀ {s : List Char}, '\n' ∉ s →
    fgets (s ++ '\n' :: rest) = (s ++ ['\n']) :: fgets rest := by
  intro s
  induction s with
  | nil =>
    intro _
    rw [List.nil_append, fgets, if_pos rfl, List.nil_append]
  | cons c s ih =>
    intro h
    obtain ⟨hc, hs⟩ := not_or.mp (mt List.mem_cons.mpr h)
    rw [List.cons_append, fgets, if_neg (Ne.symm hc), ih hs, List.cons_append]

/-- A text without a line end is one line. -/
theorem fgets_of_notMem : ∀ {s : List Char}, '\n' ∉ s → s ≠ [] → fgets s = [s] := by
  intro s
  induction s with
  | nil => exact fun _ h => absurd rfl h
  | cons c s ih =>
    intro h _
    obtain ⟨hc, hs⟩ := not_or.mp (mt List.mem_cons.mpr h)
    rw [fgets, if_neg (Ne.symm hc)]
    cases s with
    | nil => rfl
    | cons d s => rw [ih hs (List.cons_ne_nil d s)]

/-- Whole lines are read before what follows them. -/
theorem fgets_append {rest : List Char} : ∀ {text : List Char},
    (text = [] ∨ text.getLast? = some '\n') → fgets (text ++ rest) = fgets text ++ fgets rest := by
  intro text
  induction text with
  | nil => exact fun _ => rfl
  | cons c s ih =>
    intro h
    have hlast : (c :: s).getLast? = some '\n' := h.resolve_left nofun
    cases s with
    | nil =>
      have hc : c = '\n' := Option.some.inj hlast
      rw [hc]
      rfl
    | cons d s =>
      have hrest := ih (.inr ((List.getLast?_cons_cons).symm.trans hlast))
      rw [List.cons_append, fgets, fgets]
      split
      · rw [hrest, List.cons_append]
      · rw [hrest]
        cases hs : fgets (d :: s) with
        | nil =>
          rw [fgets] at hs
          split at hs
          · exact nomatch hs
          · split at hs <;> exact nomatch hs
        | cons line lines => rfl

/-- A line is a text without a line end, and perhaps one behind it. -/
theorem of_mem_fgets : ∀ {text line : List Char}, line ∈ fgets text →
    ∃ s, '\n' ∉ s ∧ (line = s ∨ line = s ++ ['\n']) := by
  intro text
  induction text with
  | nil => exact fun h => nomatch h
  | cons c s ih =>
    intro line h
    rw [fgets] at h
    split at h
    · next hc =>
      rcases List.mem_cons.mp h with rfl | h
      · exact ⟨[], List.not_mem_nil, .inr (hc ▸ rfl)⟩
      · exact ih h
    · next hc =>
      split at h
      · exact ⟨[c], by simpa using Ne.symm hc, .inl (List.mem_singleton.mp h)⟩
      · next first more heq =>
        rw [heq] at ih
        rcases List.mem_cons.mp h with rfl | h
        · obtain ⟨t, ht, hline⟩ := ih (.head _)
          refine ⟨c :: t, ?_, hline.imp (congrArg (c :: ·)) (congrArg (c :: ·))⟩
          rw [List.mem_cons, not_or]
          exact ⟨Ne.symm hc, ht⟩
        · exact ih (.tail _ h)

/-! ## The ends of a written field -/

theorem head?_writeField {space : Char → Bool} {field : List Char} :
    (writeField space field).head? = some '"' ∨
      (writeField space field).head? = field.head? := by
  rw [writeField]
  split
  · exact .inl rfl
  · exact .inr rfl

theorem getLast?_writeField {space : Char → Bool} {field : List Char} :
    (writeField space field).getLast? = some '"' ∨
      (writeField space field).getLast? = field.getLast? := by
  rw [writeField]
  split
  · rw [← List.cons_append, List.getLast?_append_of_ne_nil _ (List.cons_ne_nil _ _)]
    exact .inl rfl
  · exact .inr rfl

theorem writeField_ne_nil {space : Char → Bool} {field : List Char} (h : field ≠ []) :
    writeField space field ≠ [] := by
  rw [writeField]
  split
  · exact List.cons_ne_nil _ _
  · exact h

theorem mem_escape {c : Char} : ∀ {s : List Char}, c ∈ escape s ↔ c ∈ s := by
  intro s
  induction s with
  | nil => exact Iff.rfl
  | cons d s ih =>
    rw [escape]
    split
    · next hd => simp [ih, hd]
    · simp [ih]

/-- Writing a field adds nothing but quotes. -/
theorem mem_writeField {space : Char → Bool} {c : Char} {field : List Char} (hc : c ≠ '"') :
    c ∈ writeField space field ↔ c ∈ field := by
  rw [writeField]
  split
  · simp [mem_escape, hc]
  · exact Iff.rfl

/-! ## Fields that are read back -/

/-- No backslash that PHP takes for an escape comes before a quote, the closing one
included; `escaped` tells whether one has just been read. -/
def paired (escaped : Bool) : List Char → Bool
  | [] => !escaped
  | c :: s =>
      if escaped then c != '"' && paired false s
      else if c = '\\' then paired true s
      else paired false s

/-- The field is read back as it was written. -/
def readsBack (space : Char → Bool) (field : List Char) : Bool :=
  !fieldNeedsQuotes space field || paired false field

/-- What follows a field of a row: nothing, or a comma and the next field. -/
def AfterField (rest : List Char) : Prop := rest = [] ∨ ∃ more, rest = ',' :: more

/-- The columns that follow the field. -/
def nextColumns : List Char → List (List Char)
  | ',' :: more => strGetcsvFrom .start [] more
  | _ => []

theorem from_quote {column rest : List Char} (h : AfterField rest) :
    strGetcsvFrom .quote column rest = column :: nextColumns rest := by
  rcases h with rfl | ⟨more, rfl⟩
  · rfl
  · rw [strGetcsvFrom, if_pos rfl, nextColumns]

theorem from_tail {column rest : List Char} (h : AfterField rest) :
    strGetcsvFrom .tail column rest = column :: nextColumns rest := by
  rcases h with rfl | ⟨more, rfl⟩
  · rfl
  · rw [strGetcsvFrom, if_pos rfl, nextColumns]

/-- The part of the reader's state that `paired` follows. -/
def modeOf (escaped : Bool) : CsvMode := if escaped then .escaped else .quoted

/-- A paired field is read to its closing quote. -/
theorem from_of_paired {rest : List Char} :
    ∀ {s column : List Char} {escaped : Bool}, paired escaped s = true →
      strGetcsvFrom (modeOf escaped) column (escape s ++ '"' :: rest) =
        strGetcsvFrom .quote (column ++ s) rest := by
  intro s
  induction s with
  | nil =>
    intro column escaped h
    cases escaped with
    | true => exact nomatch h
    | false => rw [escape, List.nil_append, List.append_nil, modeOf, if_neg nofun,
        strGetcsvFrom, if_pos rfl]
  | cons c s ih =>
    intro column escaped h
    have hcolumn : column ++ c :: s = column ++ [c] ++ s := by simp
    rw [paired] at h
    rw [hcolumn]
    cases escaped with
    | true =>
      rw [if_pos rfl, Bool.and_eq_true] at h
      have hc : c ≠ '"' := by simpa using h.1
      rw [escape, if_neg hc, List.cons_append, modeOf, if_pos rfl, strGetcsvFrom]
      exact ih h.2
    | false =>
      rw [if_neg nofun] at h
      rw [escape]
      by_cases hquote : c = '"'
      · subst hquote
        rw [if_neg (by decide)] at h
        rw [if_pos rfl, List.cons_append, List.cons_append, modeOf, if_neg nofun,
          strGetcsvFrom, if_pos rfl, strGetcsvFrom, if_neg (by decide), if_pos rfl]
        exact ih h
      · rw [if_neg hquote, List.cons_append, modeOf, if_neg nofun, strGetcsvFrom,
          if_neg hquote]
        split at h
        · next hslash =>
          rw [if_pos hslash]
          exact ih h
        · next hslash =>
          rw [if_neg hslash]
          exact ih h

/-! ## Bare fields -/

theorem stripEol_eq_self {s : List Char} (hn : '\n' ∉ s) (hr : '\r' ∉ s) : stripEol s = s := by
  have hn' : '\n' ∉ s.reverse := fun h => hn (List.mem_reverse.mp h)
  have hr' : '\r' ∉ s.reverse := fun h => hr (List.mem_reverse.mp h)
  rw [stripEol]
  split
  · next h => exact absurd (h ▸ .head _) hn'
  · next h => exact absurd (h ▸ .head _) hn'
  · next h => exact absurd (h ▸ .head _) hr'
  · rfl

theorem from_bare {rest : List Char} (hrest : AfterField rest) :
    ∀ {s column : List Char}, ',' ∉ s →
      strGetcsvFrom .bare column (s ++ rest) = stripEol (column ++ s) :: nextColumns rest := by
  intro s
  induction s with
  | nil =>
    intro column _
    rw [List.nil_append, List.append_nil]
    rcases hrest with rfl | ⟨more, rfl⟩
    · rfl
    · rw [strGetcsvFrom, if_pos rfl, nextColumns]
  | cons c s ih =>
    intro column hcomma
    obtain ⟨hc, hs⟩ := not_or.mp (mt List.mem_cons.mpr hcomma)
    rw [List.cons_append, strGetcsvFrom, if_neg (Ne.symm hc), ih hs, List.append_assoc]
    rfl

/-- What a field that is written bare does not have. -/
theorem bare_of_needs {space : Char → Bool} {field : List Char} (hne : field ≠ [])
    (h : fieldNeedsQuotes space field = false) :
    '\n' ∉ field ∧ '\r' ∉ field ∧ '"' ∉ field ∧ ',' ∉ field ∧
      ∀ c ∈ field.head?, space c = false := by
  rw [fieldNeedsQuotes, if_neg hne] at h
  split at h
  · exact nomatch h
  · rw [Bool.or_eq_false_iff, List.any_eq_false] at h
    obtain ⟨hany, hspace⟩ := h
    have hno : ∀ c ∈ field, c ≠ '\n' ∧ c ≠ '\r' ∧ c ≠ '"' ∧ c ≠ ',' := by
      intro c hc
      have := hany c hc
      simpa [not_or, and_assoc] using this
    refine ⟨fun hc => (hno _ hc).1 rfl, fun hc => (hno _ hc).2.1 rfl,
      fun hc => (hno _ hc).2.2.1 rfl, fun hc => (hno _ hc).2.2.2 rfl, fun c hc => ?_⟩
    rw [Option.mem_def.mp hc] at hspace
    exact hspace

/-- **A field that reads back is read as it was written**, and the row goes on. -/
theorem from_start_of_readsBack {space : Char → Bool}
    (hspace : ∀ c, isCsvSpace c = true → space c = true) {field rest : List Char}
    (hne : field ≠ []) (h : readsBack space field = true) (hrest : AfterField rest) :
    strGetcsvFrom .start [] (writeField space field ++ rest) =
      field :: nextColumns rest := by
  rw [writeField]
  cases hneeds : fieldNeedsQuotes space field with
  | true =>
    rw [readsBack, hneeds] at h
    have hread := @from_of_paired rest field [] false h
    rw [if_pos rfl, List.cons_append, List.append_assoc, List.singleton_append, strGetcsvFrom,
      if_neg (by decide), if_pos rfl]
    rw [modeOf, if_neg (by simp), List.nil_append] at hread
    rw [hread, from_quote hrest]
  | false =>
    obtain ⟨hn, hr, hquote, hcomma, hhead⟩ := bare_of_needs hne hneeds
    rw [if_neg (by simp)]
    cases field with
    | nil => exact absurd rfl hne
    | cons c s =>
      obtain ⟨hc, hs⟩ := not_or.mp (mt List.mem_cons.mpr hcomma)
      have hq : c ≠ '"' := fun heq => hquote (heq ▸ .head _)
      have hsp : isCsvSpace c = false := by
        rw [Bool.eq_false_iff]
        intro hcsv
        cases (hhead c rfl).symm.trans (hspace c hcsv)
      rw [List.cons_append, strGetcsvFrom, if_neg (Ne.symm hc), if_neg hq, hsp,
        if_neg (by simp), from_bare hrest hs, List.nil_append, List.singleton_append,
        stripEol_eq_self hn hr]

/-! ## Fields that are misread -/

/-- The column is not the field: it shares a beginning with a backslash, and then it
either has fewer commas or a quote beyond the length of the field. -/
def Misread (column field : List Char) : Prop :=
  ∃ start, '\\' ∈ start ∧ start <+: column ∧ start <+: field ∧
    (column.count ',' < field.count ',' ∨ '"' ∈ column.drop field.length)

/-- What has been read of a field whose quoted part the reader has left, or is about to
leave: no shorter than what was written, with no more commas. -/
structure Astray (column field : List Char) : Prop where
  start : ∃ start, '\\' ∈ start ∧ start <+: column ∧ start <+: field
  length : field.length ≤ column.length
  commas : column.count ',' ≤ field.count ','

theorem Astray.append {column field more more' : List Char} (h : Astray column field)
    (hlength : more'.length ≤ more.length) (hcommas : more.count ',' ≤ more'.count ',') :
    Astray (column ++ more) (field ++ more') := by
  obtain ⟨start, hmem, hcolumn, hfield⟩ := h.start
  refine ⟨⟨start, hmem, hcolumn.trans (List.prefix_append _ _),
    hfield.trans (List.prefix_append _ _)⟩, ?_, ?_⟩
  · have := h.length
    rw [List.length_append, List.length_append]
    omega
  · have := h.commas
    rw [List.count_append, List.count_append]
    omega

/-- A field that goes on with a comma the column does not have. -/
theorem Astray.comma {column field more : List Char} (h : Astray column field) :
    Misread column (field ++ ',' :: more) := by
  obtain ⟨start, hmem, hcolumn, hfield⟩ := h.start
  refine ⟨start, hmem, hcolumn, hfield.trans (List.prefix_append _ _), .inl ?_⟩
  have := h.commas
  rw [List.count_append, List.count_cons_self]
  omega

/-- A column that goes on with a quote the field does not have. -/
theorem Astray.quote {column column' field : List Char} (h : Astray column field)
    (hstart : column ++ ['"'] <+: column') : Misread column' field := by
  obtain ⟨start, hmem, hcolumn, hfield⟩ := h.start
  obtain ⟨more, rfl⟩ := hstart
  refine ⟨start, hmem, ?_, hfield, .inr ?_⟩
  · exact hcolumn.trans ((List.prefix_append _ _).trans (List.prefix_append _ _))
  · have hlength := h.length
    rw [List.append_assoc, List.drop_append_of_le_length hlength]
    exact List.mem_append_right _ (.head _)

/-- Behind the quoted part everything is taken as it stands, up to a comma. -/
theorem misread_tail {rest : List Char} (hrest : AfterField rest) :
    ∀ {s column field : List Char}, Astray column field →
      ∃ d ds, strGetcsvFrom .tail column (escape s ++ '"' :: rest) = d :: ds ∧
        Misread d (field ++ s) := by
  intro s
  induction s with
  | nil =>
    intro column field h
    rw [escape, List.nil_append, List.append_nil, strGetcsvFrom, if_neg (by decide),
      from_tail hrest]
    exact ⟨_, _, rfl, h.quote (List.prefix_refl _)⟩
  | cons c s ih =>
    intro column field h
    have hfield : field ++ c :: s = field ++ [c] ++ s := by simp
    rw [escape]
    by_cases hcomma : c = ','
    · subst hcomma
      rw [if_neg (by decide), List.cons_append, strGetcsvFrom, if_pos rfl]
      exact ⟨_, _, rfl, h.comma⟩
    · rw [hfield]
      split
      · next hquote =>
        subst hquote
        rw [List.cons_append, List.cons_append, strGetcsvFrom, if_neg (by decide),
          strGetcsvFrom, if_neg (by decide), List.append_assoc]
        exact ih (h.append (by simp) (by simp))
      · rw [List.cons_append, strGetcsvFrom, if_neg hcomma]
        exact ih (h.append (Nat.le_refl _) (Nat.le_refl _))

/-- The first column begins with what has been read of it. -/
theorem exists_column {mode : CsvMode} (hstart : mode ≠ .start) (hbare : mode ≠ .bare) :
    ∀ {s column : List Char}, ∃ d ds, strGetcsvFrom mode column s = d :: ds ∧ column <+: d := by
  intro s
  induction s generalizing mode with
  | nil =>
    intro column
    cases mode with
    | start => exact absurd rfl hstart
    | bare => exact absurd rfl hbare
    | quoted | quote | escaped | tail => exact ⟨_, _, rfl, List.prefix_refl _⟩
  | cons c s ih =>
    intro column
    have hnext : ∀ {m : CsvMode}, m ≠ .start → m ≠ .bare → ∃ d ds,
        strGetcsvFrom m (column ++ [c]) s = d :: ds ∧ column <+: d := by
      intro m hs hb
      obtain ⟨d, ds, heq, hstart⟩ := @ih m hs hb (column ++ [c])
      exact ⟨d, ds, heq, (List.prefix_append _ _).trans hstart⟩
    cases mode with
    | start => exact absurd rfl hstart
    | bare => exact absurd rfl hbare
    | quoted =>
      rw [strGetcsvFrom]
      split
      · exact @ih .quote (by simp) (by simp) column
      split <;> exact hnext (by simp) (by simp)
    | quote =>
      rw [strGetcsvFrom]
      split
      · exact ⟨_, _, rfl, List.prefix_refl _⟩
      split <;> exact hnext (by simp) (by simp)
    | escaped =>
      rw [strGetcsvFrom]
      exact hnext (by simp) (by simp)
    | tail =>
      rw [strGetcsvFrom]
      split
      · exact ⟨_, _, rfl, List.prefix_refl _⟩
      · exact hnext (by simp) (by simp)

/-- A reader that takes the second half of a doubled quote for the closing one. -/
theorem misread_quote {rest : List Char} (hrest : AfterField rest) :
    ∀ {s column : List Char}, '\\' ∈ column →
      ∃ d ds, strGetcsvFrom .quote column (escape s ++ '"' :: rest) = d :: ds ∧
        Misread d (column ++ s) := by
  intro s
  induction s with
  | nil =>
    intro column h
    have hself : Astray column column :=
      ⟨⟨column, h, List.prefix_refl _, List.prefix_refl _⟩, Nat.le_refl _, Nat.le_refl _⟩
    obtain ⟨d, ds, heq, hstart⟩ :=
      @exists_column .quoted nofun nofun rest (column ++ ['"'])
    rw [escape, List.nil_append, List.append_nil, strGetcsvFrom, if_neg (by decide),
      if_pos rfl]
    exact ⟨d, ds, heq, hself.quote hstart⟩
  | cons c s ih =>
    intro column h
    have hself : Astray column column :=
      ⟨⟨column, h, List.prefix_refl _, List.prefix_refl _⟩, Nat.le_refl _, Nat.le_refl _⟩
    have hfield : column ++ c :: s = column ++ [c] ++ s := by simp
    rw [escape]
    by_cases hquote : c = '"'
    · subst hquote
      rw [if_pos rfl, hfield, List.cons_append, List.cons_append, strGetcsvFrom,
        if_neg (by decide), if_pos rfl, strGetcsvFrom, if_pos rfl]
      exact ih (List.mem_append_left _ h)
    · rw [if_neg hquote, List.cons_append, strGetcsvFrom]
      split
      · next hcomma =>
        subst hcomma
        exact ⟨_, _, rfl, hself.comma⟩
      · rw [hfield]
        exact misread_tail hrest (hself.append (Nat.le_refl _) (Nat.le_refl _))

/-- A field that is not paired is misread. -/
theorem misread_of_not_paired {rest : List Char} (hrest : AfterField rest) :
    ∀ {s column : List Char} {escaped : Bool}, (escaped = true → '\\' ∈ column) →
      paired escaped s = false →
      ∃ d ds, strGetcsvFrom (modeOf escaped) column (escape s ++ '"' :: rest) = d :: ds ∧
        Misread d (column ++ s) := by
  intro s
  induction s with
  | nil =>
    intro column escaped hmem h
    cases escaped with
    | false => cases h
    | true =>
      have hself : Astray column column :=
        ⟨⟨column, hmem rfl, List.prefix_refl _, List.prefix_refl _⟩, Nat.le_refl _,
          Nat.le_refl _⟩
      obtain ⟨d, ds, heq, hstart⟩ :=
        @exists_column .quoted (by simp) (by simp) rest (column ++ ['"'])
      rw [escape, List.nil_append, List.append_nil, modeOf, if_pos rfl, strGetcsvFrom]
      exact ⟨d, ds, heq, hself.quote hstart⟩
  | cons c s ih =>
    intro column escaped hmem h
    have hcolumn : column ++ c :: s = column ++ [c] ++ s := by simp
    rw [paired] at h
    rw [hcolumn, escape]
    cases escaped with
    | true =>
      rw [if_pos rfl, Bool.and_eq_false_iff] at h
      have hslash : '\\' ∈ column ++ [c] := List.mem_append_left _ (hmem rfl)
      by_cases hquote : c = '"'
      · subst hquote
        -- the first half of the doubled quote is escaped
        rw [if_pos rfl, List.cons_append, List.cons_append, modeOf, if_pos rfl, strGetcsvFrom,
          strGetcsvFrom, if_pos rfl]
        exact misread_quote hrest hslash
      · have hs : paired false s = false := h.resolve_left (by simpa using hquote)
        rw [if_neg hquote, List.cons_append, modeOf, if_pos rfl, strGetcsvFrom]
        exact @ih (column ++ [c]) false (by simp) hs
    | false =>
      rw [if_neg (by simp)] at h
      by_cases hquote : c = '"'
      · subst hquote
        rw [if_neg (by decide)] at h
        rw [if_pos rfl, List.cons_append, List.cons_append, modeOf, if_neg (by simp),
          strGetcsvFrom, if_pos rfl, strGetcsvFrom, if_neg (by decide), if_pos rfl]
        exact @ih (column ++ ['"']) false (by simp) h
      · rw [if_neg hquote, List.cons_append, modeOf, if_neg (by simp), strGetcsvFrom,
          if_neg hquote]
        split at h
        · next hslash =>
          rw [if_pos hslash]
          exact ih (fun _ => List.mem_append_right _ (hslash ▸ .head _)) h
        · next hslash =>
          rw [if_neg hslash]
          exact @ih (column ++ [c]) false (by simp) h

/-- **A field that does not read back is misread.** -/
theorem from_start_of_not_readsBack {space : Char → Bool} {field rest : List Char}
    (h : readsBack space field = false) (hrest : AfterField rest) :
    ∃ d ds, strGetcsvFrom .start [] (writeField space field ++ rest) = d :: ds ∧
      Misread d field := by
  rw [readsBack, Bool.or_eq_false_iff, Bool.not_eq_false'] at h
  obtain ⟨d, ds, heq, hmis⟩ := @misread_of_not_paired rest hrest field [] false nofun h.2
  refine ⟨d, ds, ?_, hmis⟩
  rw [writeField, if_pos h.1, List.cons_append, List.append_assoc, List.singleton_append,
    strGetcsvFrom, if_neg (by decide), if_pos rfl]
  exact heq

/-- No trimming makes it the field again. -/
theorem Misread.trim_ne {column field : List Char} (h : Misread column field)
    (hfield : trim field = field) : trim column ≠ field := by
  obtain ⟨start, hslash, hcolumn, hstart, hbad⟩ := h
  intro heq
  obtain ⟨a, start, rfl⟩ := List.exists_cons_of_ne_nil (List.ne_nil_of_mem hslash)
  obtain ⟨more, rfl⟩ := hcolumn
  obtain ⟨more', rfl⟩ := hstart
  -- the first character is none that is trimmed
  have ha : isBlank a = false := by
    have hne : trim (a :: start ++ more') ≠ [] := by
      rw [hfield]
      exact nofun
    have hhead := head_trimBy hne
    have hfirst : (trimBy isBlank (a :: start ++ more')).head hne = a := by
      simp only [show trimBy isBlank (a :: start ++ more') = a :: start ++ more' from hfield]
      rfl
    rwa [hfirst] at hhead
  have hdrop : (a :: start ++ more).dropWhile isBlank = a :: start ++ more := by
    rw [List.cons_append, List.dropWhile_cons_of_neg (by rw [ha]; exact nofun)]
  rw [trim, trimBy, hdrop] at heq
  rcases hbad with hcount | hquote
  · have hle : (a :: start ++ more').count ',' ≤ (a :: start ++ more).count ',' := by
      rw [← heq]
      exact (List.rdropWhile_prefix isBlank _).sublist.count_le ','
    omega
  · -- what is trimmed at the end is blank, and a quote is not
    have happ := @List.rdropWhile_append_rtakeWhile _ isBlank (a :: start ++ more)
    rw [heq] at happ
    rw [← happ, List.drop_left] at hquote
    exact absurd (List.mem_rtakeWhile_imp hquote) (by decide)

/-! ## Fields that are not quoted -/

/-- The field needs no quotes for PHP: there is no comma in it, and no quote at its start. -/
def isBare (field : List Char) : Bool :=
  !field.contains ',' && (field.dropWhile isCsvSpace).head? != some '"'

theorem length_stripEol_le (s : List Char) : (stripEol s).length ≤ s.length :=
  (prefix_stripEol s).length_le

/-- A column is no longer than what was read. -/
theorem length_le_of_mem : ∀ {s column d : List Char} {mode : CsvMode},
    d ∈ strGetcsvFrom mode column s → d.length ≤ column.length + s.length := by
  intro s
  induction s with
  | nil =>
    intro column d mode hd
    have hstrip := length_stripEol_le column
    cases mode with
    | start | bare =>
      rw [List.mem_singleton.mp hd]
      exact hstrip
    | quoted | quote | escaped | tail =>
      rw [List.mem_singleton.mp hd]
      exact Nat.le_refl _
  | cons c s ih =>
    intro column d mode hd
    have hfresh : ∀ {m}, d ∈ strGetcsvFrom m [] s → d.length ≤ column.length + (c :: s).length := by
      intro m hmem
      have := ih hmem
      simp only [List.length_nil, List.length_cons] at this ⊢
      omega
    have hnext : ∀ {m}, d ∈ strGetcsvFrom m (column ++ [c]) s →
        d.length ≤ column.length + (c :: s).length := by
      intro m hmem
      have := ih hmem
      simp only [List.length_append, List.length_cons, List.length_nil] at this ⊢
      omega
    have hsame : ∀ {m}, d ∈ strGetcsvFrom m column s →
        d.length ≤ column.length + (c :: s).length := by
      intro m hmem
      have := ih hmem
      simp only [List.length_cons]
      omega
    have hcut : ∀ {column' : List Char}, column'.length ≤ column.length →
        d ∈ column' :: strGetcsvFrom .start [] s → d.length ≤ column.length + (c :: s).length := by
      intro column' hlength hmem
      rcases List.mem_cons.mp hmem with rfl | hmem
      · omega
      · exact hfresh hmem
    cases mode with
    | start =>
      rw [strGetcsvFrom] at hd
      split at hd
      · exact hcut (length_stripEol_le column) hd
      split at hd
      · exact hfresh hd
      split at hd
      · exact hnext hd
      · exact hnext hd
    | bare =>
      rw [strGetcsvFrom] at hd
      split at hd
      · exact hcut (length_stripEol_le column) hd
      · exact hnext hd
    | quoted =>
      rw [strGetcsvFrom] at hd
      split at hd
      · exact hsame hd
      split at hd
      · exact hnext hd
      · exact hnext hd
    | quote =>
      rw [strGetcsvFrom] at hd
      split at hd
      · exact hcut (Nat.le_refl _) hd
      split at hd
      · exact hnext hd
      · exact hnext hd
    | escaped => exact hnext hd
    | tail =>
      rw [strGetcsvFrom] at hd
      split at hd
      · exact hcut (Nat.le_refl _) hd
      · exact hnext hd

/-- A field that needs no quotes is the column as it stands. -/
theorem from_start_of_isBare {rest : List Char} (hrest : AfterField rest) :
    ∀ {s column : List Char}, isBare s = true →
      strGetcsvFrom .start column (s ++ rest) = stripEol (column ++ s) :: nextColumns rest := by
  intro s
  induction s with
  | nil =>
    intro column _
    rw [List.nil_append, List.append_nil]
    rcases hrest with rfl | ⟨more, rfl⟩
    · rfl
    · rw [strGetcsvFrom, if_pos rfl, nextColumns]
  | cons c s ih =>
    intro column h
    rw [isBare, Bool.and_eq_true, Bool.not_eq_true', List.contains_eq_mem, decide_eq_false_iff_not,
      List.mem_cons, not_or] at h
    obtain ⟨⟨hc, hs⟩, hquote⟩ := h
    have happend : column ++ c :: s = column ++ [c] ++ s := by simp
    rw [List.cons_append, strGetcsvFrom, if_neg (Ne.symm hc), happend]
    cases hspace : isCsvSpace c with
    | true =>
      have hne : c ≠ '"' := by
        rintro rfl
        exact absurd hspace (by decide)
      rw [if_neg hne, if_pos rfl]
      apply ih
      rw [isBare, Bool.and_eq_true, Bool.not_eq_true', List.contains_eq_mem,
        decide_eq_false_iff_not]
      refine ⟨hs, ?_⟩
      rwa [List.dropWhile_cons_of_pos hspace] at hquote
    | false =>
      have hdrop : (c :: s).dropWhile isCsvSpace = c :: s :=
        List.dropWhile_cons_of_neg (by rw [hspace]; exact Bool.false_ne_true)
      have hne : c ≠ '"' := by
        rintro rfl
        rw [hdrop, List.head?_cons, bne_self_eq_false] at hquote
        exact Bool.false_ne_true hquote
      rw [if_neg hne, if_neg Bool.false_ne_true, from_bare hrest hs]

theorem afterField_dropWhile (line : List Char) : AfterField (line.dropWhile (· != ',')) := by
  cases hdrop : line.dropWhile (· != ',') with
  | nil => exact .inl rfl
  | cons c more =>
    have hne : line.dropWhile (· != ',') ≠ [] := by simp [hdrop]
    have hc := List.head_dropWhile_not (· != ',') hne
    simp only [hdrop, List.head_cons, bne_eq_false_iff_eq] at hc
    exact .inr ⟨more, by rw [hc]⟩

/-- The first column of a line is what stands before the first comma, if that needs no quotes. -/
theorem getElem?_zero_of_isBare {line : List Char}
    (h : isBare (line.takeWhile (· != ',')) = true) :
    (strGetcsv line)[0]? = some (stripEol (line.takeWhile (· != ','))) := by
  have hread := @from_start_of_isBare _ (afterField_dropWhile line) _ [] h
  rw [List.takeWhile_append_dropWhile, List.nil_append] at hread
  rw [strGetcsv, hread]
  rfl

/-- Any other is split or loses a quote: the columns are shorter. -/
theorem length_lt_of_not_isBare : ∀ {s column d : List Char}, isBare s = false →
    d ∈ strGetcsvFrom .start column s → d.length < column.length + s.length := by
  intro s
  induction s with
  | nil =>
    intro column d h
    exact absurd h (by decide)
  | cons c s ih =>
    intro column d h hd
    rw [strGetcsvFrom] at hd
    split at hd
    · rcases List.mem_cons.mp hd with rfl | hd
      · have := length_stripEol_le column
        simp only [List.length_cons]
        omega
      · have := length_le_of_mem hd
        simp only [List.length_cons, List.length_nil] at this ⊢
        omega
    next hc =>
    split at hd
    · have := length_le_of_mem hd
      simp only [List.length_cons, List.length_nil] at this ⊢
      omega
    next hq =>
    split at hd
    · next hspace =>
      have hrest : isBare s = false := by
        have hcontains : (c :: s).contains ',' = s.contains ',' := by
          rw [List.contains_cons, beq_eq_false_iff_ne.mpr (Ne.symm hc), Bool.false_or]
        rwa [isBare, hcontains, List.dropWhile_cons_of_pos hspace] at h
      have := ih hrest hd
      simp only [List.length_append, List.length_cons, List.length_nil] at this ⊢
      omega
    · next hspace =>
      have hdrop : (c :: s).dropWhile isCsvSpace = c :: s := List.dropWhile_cons_of_neg hspace
      have hcomma : ',' ∈ s := by
        rw [isBare, hdrop, List.head?_cons, bne_iff_ne.mpr fun heq => hq (Option.some.inj heq),
          Bool.and_true, Bool.not_eq_false', List.contains_eq_mem, decide_eq_true_iff,
          List.mem_cons] at h
        exact h.resolve_left (Ne.symm hc)
      obtain ⟨front, more, rfl, hfront⟩ := List.eq_append_cons_of_mem hcomma
      rw [from_bare (.inr ⟨more, rfl⟩) hfront, nextColumns] at hd
      rcases List.mem_cons.mp hd with rfl | hd
      · have := length_stripEol_le (column ++ [c] ++ front)
        simp only [List.length_append, List.length_cons, List.length_nil] at this ⊢
        omega
      · have := length_le_of_mem hd
        simp only [List.length_append, List.length_cons, List.length_nil] at this ⊢
        omega

end Csv
