/-
# `Text` — the string functions of PHP, on lists of characters

`trim`, `strtolower` and the first part of `explode`, by structural recursion,
with the facts about them that do not depend on who calls them: trimming twice
is trimming once by the larger set, lowering is idempotent, and a list of
lowered characters stays lowered when it is trimmed.
-/
import Mathlib.Data.List.DropRight

/-- Equality of texts decides which text it is. -/
instance instLawfulBEqText : LawfulBEq (List Char) := inferInstance

namespace Text

/-- `trim($s, $chars)`: drop the characters that satisfy `p` at both ends. -/
def trimBy (p : Char → Bool) (s : List Char) : List Char :=
  (s.dropWhile p).rdropWhile p

/-- The characters PHP's `trim` drops by default: blank, `\t`, `\n`, `\r`,
`\0` and `\x0B`. -/
def isBlank (c : Char) : Bool :=
  c == ' ' || c == '\t' || c == '\n' || c == '\r' || c == Char.ofNat 0 || c == Char.ofNat 11

/-- `trim($s)`. -/
def trim (s : List Char) : List Char := trimBy isBlank s

/-- `strtolower($s)`: since PHP 8 the ASCII letters only. -/
def strtolower (s : List Char) : List Char := s.map Char.toLower

/-- The whitespace that `is_numeric` passes over: blank, `\t`, `\n`, `\r`, `\v` and `\f`. -/
def isNumericBlank (c : Char) : Bool :=
  c == ' ' || c == '\t' || c == '\n' || c == '\r' || c == Char.ofNat 11 || c == Char.ofNat 12

/-- A sign in front is passed over. -/
def unsigned : List Char → List Char
  | '+' :: s => s
  | '-' :: s => s
  | s => s

/-- An exponent, or nothing. -/
def isExponent : List Char → Bool
  | [] => true
  | c :: s => (c == 'e' || c == 'E') && unsigned s != [] && (unsigned s).all Char.isDigit

/-- Digits with at most one point among or beside them, and an exponent. -/
def isDecimal (s : List Char) : Bool :=
  match s.dropWhile Char.isDigit with
  | '.' :: rest =>
      (s.takeWhile Char.isDigit != [] || rest.takeWhile Char.isDigit != []) &&
        isExponent (rest.dropWhile Char.isDigit)
  | rest => s.takeWhile Char.isDigit != [] && isExponent rest

/-- `is_numeric($s)` of a string. -/
def isNumeric (s : List Char) : Bool := isDecimal (unsigned (trimBy isNumericBlank s))

/-- `explode($c, $s, 2)[0]`: everything before the first `c`. -/
def before (c : Char) (s : List Char) : List Char := s.takeWhile (· != c)

/-- `explode($c, $s, 2)[1] ?? ''`: everything after the first `c`. -/
def after (c : Char) (s : List Char) : List Char := (s.dropWhile (· != c)).drop 1

/-- `rtrim($s, "\r\n")`. -/
def rtrimEol (s : List Char) : List Char := s.rdropWhile (fun c => c == '\r' || c == '\n')

/-- The lines `fgets` returns until the end of a stream, each with its `\n`. -/
def fgets : List Char → List (List Char)
  | [] => []
  | c :: s =>
      if c = '\n' then [c] :: fgets s
      else
        match fgets s with
        | [] => [[c]]
        | line :: lines => (c :: line) :: lines

/-! ## `str_getcsv` -/

/-- Where `str_getcsv` is: before a column, in a bare or a quoted one, behind a quote or
behind a backslash of a quoted one, or behind the end of the quoted part. -/
inductive CsvMode where
  | start | bare | quoted | quote | escaped | tail
  deriving DecidableEq, Repr

/-- `isspace`. -/
def isCsvSpace (c : Char) : Bool :=
  c == ' ' || c == '\t' || c == '\n' || c == '\r' || c == Char.ofNat 11 || c == Char.ofNat 12

/-- A bare column loses one line end. -/
def stripEol (s : List Char) : List Char :=
  match s.reverse with
  | '\n' :: '\r' :: rest => rest.reverse
  | '\n' :: rest => rest.reverse
  | '\r' :: rest => rest.reverse
  | _ => s

/-- The loop of `str_getcsv` with its default control characters, on a string that does
not end a line; `column` is the column read so far. -/
def strGetcsvFrom : CsvMode → List Char → List Char → List (List Char)
  | .start, column, [] | .bare, column, [] => [stripEol column]
  | _, column, [] => [column]
  | .start, column, c :: cs =>
      if c = ',' then stripEol column :: strGetcsvFrom .start [] cs
      -- blanks before a quoted column are dropped
      else if c = '"' then strGetcsvFrom .quoted [] cs
      else if isCsvSpace c then strGetcsvFrom .start (column ++ [c]) cs
      else strGetcsvFrom .bare (column ++ [c]) cs
  | .bare, column, c :: cs =>
      if c = ',' then stripEol column :: strGetcsvFrom .start [] cs
      else strGetcsvFrom .bare (column ++ [c]) cs
  | .quoted, column, c :: cs =>
      if c = '"' then strGetcsvFrom .quote column cs
      else if c = '\\' then strGetcsvFrom .escaped (column ++ [c]) cs
      else strGetcsvFrom .quoted (column ++ [c]) cs
  | .quote, column, c :: cs =>
      if c = ',' then column :: strGetcsvFrom .start [] cs
      else if c = '"' then strGetcsvFrom .quoted (column ++ [c]) cs
      else strGetcsvFrom .tail (column ++ [c]) cs
  | .escaped, column, c :: cs => strGetcsvFrom .quoted (column ++ [c]) cs
  | .tail, column, c :: cs =>
      if c = ',' then column :: strGetcsvFrom .start [] cs
      else strGetcsvFrom .tail (column ++ [c]) cs

/-- `str_getcsv($s)`. -/
def strGetcsv (s : List Char) : List (List Char) := strGetcsvFrom .start [] s

theorem prefix_stripEol (s : List Char) : stripEol s <+: s := by
  have hstart : ∀ {front rest : List Char}, s.reverse = front ++ rest →
      rest.reverse <+: s := by
    intro front rest h
    rw [← List.reverse_reverse s, h, List.reverse_append]
    exact List.prefix_append _ _
  rw [stripEol]
  split
  · next rest h => exact @hstart ['\n', '\r'] rest h
  · next rest _ h => exact @hstart ['\n'] rest h
  · next rest h => exact @hstart ['\r'] rest h
  · exact List.prefix_refl s

/-- Only line ends are stripped. -/
theorem mem_stripEol {c : Char} {s : List Char} (hn : c ≠ '\n') (hr : c ≠ '\r') :
    c ∈ stripEol s ↔ c ∈ s := by
  refine ⟨fun h => (prefix_stripEol s).subset h, fun h => ?_⟩
  rw [← List.mem_reverse] at h
  rw [stripEol]
  split
  · next heq =>
    rw [heq] at h
    simpa [hn, hr] using h
  · next heq =>
    rw [heq] at h
    simpa [hn, hr] using h
  · next heq =>
    rw [heq] at h
    simpa [hn, hr] using h
  · exact List.mem_reverse.mp h

/-- The columns are made of what was read. -/
theorem mem_strGetcsvFrom {x : Char} : ∀ {s column d : List Char} {mode : CsvMode},
    d ∈ strGetcsvFrom mode column s → x ∈ d → x ∈ column ∨ x ∈ s := by
  intro s
  induction s with
  | nil =>
    intro column d mode hd hx
    cases mode with
    | start | bare =>
      rw [strGetcsvFrom, List.mem_singleton] at hd
      exact .inl ((prefix_stripEol column).subset (hd ▸ hx))
    | quoted | quote | escaped | tail => exact .inl (List.mem_singleton.mp hd ▸ hx)
  | cons c s ih =>
    intro column d mode hd hx
    have hfresh : ∀ {m}, d ∈ strGetcsvFrom m [] s → x ∈ column ∨ x ∈ c :: s := by
      intro m hd
      rcases ih hd hx with h | h
      · exact nomatch h
      · exact .inr (.tail _ h)
    have hnext : ∀ {m}, d ∈ strGetcsvFrom m (column ++ [c]) s → x ∈ column ∨ x ∈ c :: s := by
      intro m hd
      rcases ih hd hx with h | h
      · rcases List.mem_append.mp h with h | h
        · exact .inl h
        · exact .inr (List.mem_singleton.mp h ▸ .head _)
      · exact .inr (.tail _ h)
    have hsame : ∀ {m}, d ∈ strGetcsvFrom m column s → x ∈ column ∨ x ∈ c :: s := by
      intro m hd
      exact (ih hd hx).imp_right (.tail _)
    have hcut : ∀ {column' : List Char}, column' <+: column →
        d ∈ column' :: strGetcsvFrom .start [] s → x ∈ column ∨ x ∈ c :: s := by
      intro column' hstart hd
      rcases List.mem_cons.mp hd with rfl | hd
      · exact .inl (hstart.subset hx)
      · exact hfresh hd
    cases mode with
    | start =>
      rw [strGetcsvFrom] at hd
      split at hd
      · exact hcut (prefix_stripEol column) hd
      split at hd
      · exact hfresh hd
      split at hd <;> exact hnext hd
    | bare =>
      rw [strGetcsvFrom] at hd
      split at hd
      · exact hcut (prefix_stripEol column) hd
      · exact hnext hd
    | quoted =>
      rw [strGetcsvFrom] at hd
      split at hd
      · exact hsame hd
      split at hd <;> exact hnext hd
    | quote =>
      rw [strGetcsvFrom] at hd
      split at hd
      · exact hcut (List.prefix_refl column) hd
      split at hd <;> exact hnext hd
    | escaped =>
      rw [strGetcsvFrom] at hd
      exact hnext hd
    | tail =>
      rw [strGetcsvFrom] at hd
      split at hd
      · exact hcut (List.prefix_refl column) hd
      · exact hnext hd

/-- Only commas, quotes and blanks are lost. -/
theorem exists_mem_strGetcsvFrom {x : Char} (hx : x ≠ ',' ∧ x ≠ '"' ∧ isCsvSpace x = false) :
    ∀ {s column : List Char} {mode : CsvMode}, (mode = .start → x ∉ column) →
      x ∈ column ∨ x ∈ s → ∃ d ∈ strGetcsvFrom mode column s, x ∈ d := by
  obtain ⟨hcomma, hquote, hspace⟩ := hx
  have hstrip : ∀ {column : List Char}, x ∈ column → x ∈ stripEol column := by
    intro column h
    refine (mem_stripEol ?_ ?_).mpr h
    · rintro rfl
      exact nomatch hspace
    · rintro rfl
      exact nomatch hspace
  intro s
  induction s with
  | nil =>
    intro column mode _ hmem
    have hcol := hmem.resolve_right nofun
    cases mode with
    | start | bare => exact ⟨_, .head _, hstrip hcol⟩
    | quoted | quote | escaped | tail => exact ⟨_, .head _, hcol⟩
  | cons c s ih =>
    intro column mode hstart hmem
    have hsplit : x ∈ column ++ [c] ∨ x ∈ s := by
      rcases hmem with h | h
      · exact .inl (List.mem_append_left _ h)
      · rcases List.mem_cons.mp h with rfl | h
        · exact .inl (by simp)
        · exact .inr h
    have hnext : ∀ {m}, m ≠ .start → ∃ d ∈ strGetcsvFrom m (column ++ [c]) s, x ∈ d :=
      fun hm => ih (fun h => absurd h hm) hsplit
    have hother : x ≠ c → x ∈ column ∨ x ∈ s := by
      intro hne
      exact hmem.imp_right fun h => (List.mem_cons.mp h).resolve_left hne
    have hcut : ∀ {column' : List Char}, (x ∈ column → x ∈ column') → x ≠ c →
        ∃ d ∈ column' :: strGetcsvFrom .start [] s, x ∈ d := by
      intro column' hcol hne
      rcases hother hne with h | h
      · exact ⟨_, .head _, hcol h⟩
      · obtain ⟨d, hd, hxd⟩ := ih (fun _ => List.not_mem_nil) (.inr h)
        exact ⟨d, .tail _ hd, hxd⟩
    cases mode with
    | start =>
      rw [strGetcsvFrom]
      split
      · next hc => exact hcut hstrip (hc ▸ hcomma)
      split
      · next hc =>
        have hs := (hother (hc ▸ hquote)).resolve_left (hstart rfl)
        exact ih nofun (.inr hs)
      split
      · next hc =>
        refine ih (fun _ => ?_) hsplit
        rw [List.mem_append, not_or]
        refine ⟨hstart rfl, fun h => ?_⟩
        rw [List.mem_singleton.mp h] at hspace
        exact nomatch hspace.symm.trans hc
      · exact hnext nofun
    | bare =>
      rw [strGetcsvFrom]
      split
      · next hc => exact hcut hstrip (hc ▸ hcomma)
      · exact hnext nofun
    | quoted =>
      rw [strGetcsvFrom]
      split
      · next hc => exact ih (fun h => nomatch h) (hother (hc ▸ hquote))
      split <;> exact hnext nofun
    | quote =>
      rw [strGetcsvFrom]
      split
      · next hc => exact hcut id (hc ▸ hcomma)
      split <;> exact hnext nofun
    | escaped =>
      rw [strGetcsvFrom]
      exact hnext nofun
    | tail =>
      rw [strGetcsvFrom]
      split
      · next hc => exact hcut id (hc ▸ hcomma)
      · exact hnext nofun

/-! ## Trimming -/

/-- A list that neither begins nor ends with a dropped character is kept. -/
theorem trimBy_eq_self {p : Char → Bool} {s : List Char}
    (hhead : s.dropWhile p = s) (hlast : s.rdropWhile p = s) : trimBy p s = s := by
  rw [trimBy, hhead, hlast]

theorem head_trimBy {p : Char → Bool} {s : List Char} (h : trimBy p s ≠ []) :
    p ((trimBy p s).head h) = false := by
  have hpre : trimBy p s <+: s.dropWhile p := List.rdropWhile_prefix p _
  have hne : s.dropWhile p ≠ [] := by
    rintro hnil
    rw [hnil, List.prefix_nil] at hpre
    exact h hpre
  rw [hpre.head h]
  simpa using List.head_dropWhile_not p hne

theorem getLast_trimBy {p : Char → Bool} {s : List Char} (h : trimBy p s ≠ []) :
    p ((trimBy p s).getLast h) = false := by
  simpa [trimBy] using List.rdropWhile_last_not p (s.dropWhile p) h

/-- A text is trimmed when neither its first nor its last character is dropped. -/
theorem trimBy_eq_self_iff {p : Char → Bool} {s : List Char} :
    trimBy p s = s ↔ (∀ c ∈ s.head?, p c = false) ∧ ∀ c ∈ s.getLast?, p c = false := by
  constructor
  · intro h
    have hfirst : ∀ c ∈ (trimBy p s).head?, p c = false := by
      intro c hc
      have hne : trimBy p s ≠ [] := fun hnil => by
        rw [hnil] at hc
        exact nomatch hc
      rw [List.head?_eq_some_head hne] at hc
      exact Option.some.inj hc ▸ head_trimBy hne
    have hlast : ∀ c ∈ (trimBy p s).getLast?, p c = false := by
      intro c hc
      have hne : trimBy p s ≠ [] := fun hnil => by
        rw [hnil] at hc
        exact nomatch hc
      rw [List.getLast?_eq_some_getLast hne] at hc
      exact Option.some.inj hc ▸ getLast_trimBy hne
    rw [h] at hfirst hlast
    exact ⟨hfirst, hlast⟩
  · rintro ⟨hfirst, hlast⟩
    refine trimBy_eq_self ?_ ?_
    · cases s with
      | nil => rfl
      | cons a s => exact List.dropWhile_cons_of_neg (by rw [hfirst a rfl]; exact nofun)
    · rw [List.rdropWhile_eq_self_iff]
      intro hne
      rw [hlast _ (List.getLast?_eq_some_getLast hne)]
      exact nofun

/-- Trimming by a smaller set after a larger one changes nothing. -/
theorem trimBy_trimBy {p q : Char → Bool} (hqp : ∀ c, q c = true → p c = true)
    (s : List Char) : trimBy q (trimBy p s) = trimBy p s := by
  by_cases h : trimBy p s = []
  · rw [h]; rfl
  · have hq : ∀ {c : Char}, p c = false → q c = false := by
      intro c hc
      cases hqc : q c with
      | false => rfl
      | true => rw [hqp c hqc] at hc; exact nomatch hc
    refine trimBy_eq_self ?_ ?_
    · rw [List.dropWhile_eq_self_iff]
      intro hl
      have := hq (head_trimBy h)
      rw [List.head_eq_getElem] at this
      simpa using this
    · rw [List.rdropWhile_eq_self_iff]
      intro hne
      simpa using hq (getLast_trimBy h)

theorem trim_trim (s : List Char) : trim (trim s) = trim s :=
  trimBy_trimBy (fun _ h => h) s

theorem trimBy_sublist (p : Char → Bool) (s : List Char) : (trimBy p s).Sublist s :=
  (List.rdropWhile_prefix p _).sublist.trans (List.dropWhile_sublist p)

theorem trimBy_map {p q : Char → Bool} {f : Char → Char} (h : ∀ c, p (f c) = q c)
    (s : List Char) : trimBy p (s.map f) = (trimBy q s).map f := by
  have hclass : p ∘ f = q := funext h
  rw [trimBy, trimBy, List.dropWhile_map, hclass, List.rdropWhile, List.rdropWhile,
    ← List.map_reverse, List.dropWhile_map, hclass, List.map_reverse]

/-! ## Words that stand in a text -/

/-- The word is in the text, and beside it there is a character of the class, or nothing. -/
def StandsIn (p : Char → Bool) (word s : List Char) : Prop :=
  ∃ u v, s = u ++ word ++ v ∧ (∀ c ∈ u.getLast?, p c = true) ∧ ∀ c ∈ v.head?, p c = true

section StandsIn
variable {p : Char → Bool} {word s t : List Char}

theorem StandsIn.trans (h : StandsIn p word s) (h' : StandsIn p s t) : StandsIn p word t := by
  obtain ⟨u, v, rfl, hu, hv⟩ := h
  obtain ⟨u', v', rfl, hu', hv'⟩ := h'
  refine ⟨u' ++ u, v ++ v', by simp [List.append_assoc], ?_, ?_⟩
  · intro c hc
    rw [List.getLast?_append] at hc
    cases hlast : u.getLast? with
    | none => exact hu' c (by rwa [hlast, Option.none_or] at hc)
    | some d => exact hu c (by rwa [hlast, Option.some_or, ← hlast] at hc)
  · intro c hc
    rw [List.head?_append] at hc
    cases hhead : v.head? with
    | none => exact hv' c (by rwa [hhead, Option.none_or] at hc)
    | some d => exact hv c (by rwa [hhead, Option.some_or, ← hhead] at hc)

theorem StandsIn.mono {q : Char → Bool} (h : StandsIn p word s)
    (hpq : ∀ c, p c = true → q c = true) : StandsIn q word s := by
  obtain ⟨u, v, hs, hu, hv⟩ := h
  exact ⟨u, v, hs, fun c hc => hpq c (hu c hc), fun c hc => hpq c (hv c hc)⟩

theorem standsIn_append {v : List Char} (hv : ∀ c ∈ v.head?, p c = true) :
    StandsIn p s (s ++ v) :=
  ⟨[], v, rfl, by simp, hv⟩

theorem standsIn_trimBy (s : List Char) : StandsIn p (trimBy p s) s := by
  refine ⟨s.takeWhile p, (s.dropWhile p).rtakeWhile p, ?_, ?_, ?_⟩
  · rw [trimBy, List.append_assoc, List.rdropWhile_append_rtakeWhile,
      List.takeWhile_append_dropWhile]
  · exact fun c hc => List.mem_takeWhile_imp (List.mem_of_getLast? hc)
  · exact fun c hc => List.mem_rtakeWhile_imp (List.mem_of_head? hc)

theorem standsIn_stripEol (hn : p '\n' = true) (hr : p '\r' = true) (s : List Char) :
    StandsIn p (stripEol s) s := by
  have hstart : ∀ {front rest : List Char}, s.reverse = front ++ rest →
      (∀ c ∈ front, p c = true) → StandsIn p rest.reverse s := by
    intro front rest h hfront
    rw [← List.reverse_reverse s, h, List.reverse_append]
    exact standsIn_append fun c hc => hfront c (List.mem_reverse.mp (List.mem_of_head? hc))
  rw [stripEol]
  split
  · next rest h => exact @hstart ['\n', '\r'] rest h (by simp [hn, hr])
  · next rest _ h => exact @hstart ['\n'] rest h (by simp [hn])
  · next rest h => exact @hstart ['\r'] rest h (by simp [hr])
  · exact ⟨[], [], by simp, by simp, by simp⟩

end StandsIn

/-! ## Lowering -/

theorem toLower_of_not_capital {c : Char} (h : ¬ (c.val ≥ 'A'.val ∧ c.val ≤ 'Z'.val)) :
    c.toLower = c :=
  dif_neg h

/-- A character that is lowered becomes one above `Z`. -/
theorem toLower_cases (c : Char) : c.toLower = c ∨ 'Z'.val < c.toLower.val := by
  by_cases h : c.val ≥ 'A'.val ∧ c.val ≤ 'Z'.val
  · right
    have hval : c.toLower.val = c.val + 32 := congrArg Char.val (dif_pos h)
    rw [hval]
    obtain ⟨h1, h2⟩ := h
    rw [ge_iff_le, UInt32.le_iff_toNat_le] at h1
    rw [UInt32.le_iff_toNat_le] at h2
    rw [UInt32.lt_iff_toNat_lt, UInt32.toNat_add]
    have hA : 'A'.val.toNat = 65 := rfl
    have hZ : 'Z'.val.toNat = 90 := rfl
    have h32 : (32 : UInt32).toNat = 32 := rfl
    omega
  · left
    exact toLower_of_not_capital h

theorem toLower_toLower (c : Char) : c.toLower.toLower = c.toLower := by
  rcases toLower_cases c with hsame | hgt
  · rw [hsame, hsame]
  · exact toLower_of_not_capital fun h => absurd h.2 (UInt32.not_le.mpr hgt)

/-- What is not above `Z` in a lowered list was there before. -/
theorem mem_of_mem_strtolower {c : Char} {s : List Char} (hc : ¬ 'Z'.val < c.val)
    (h : c ∈ strtolower s) : c ∈ s := by
  obtain ⟨d, hd, rfl⟩ := List.mem_map.mp h
  rcases toLower_cases d with hsame | hgt
  · rw [hsame]
    exact hd
  · exact absurd hgt hc

/-- A sublist of a lowered list is lowered. -/
theorem strtolower_of_sublist {s t : List Char} (h : s.Sublist (strtolower t)) :
    strtolower s = s := by
  conv_rhs => rw [← List.map_id s]
  refine List.map_congr_left fun c hc => ?_
  obtain ⟨d, -, rfl⟩ := List.mem_map.mp (h.subset hc)
  exact toLower_toLower d

/-- Lowering makes no blank. -/
theorem isBlank_toLower {c : Char} (h : isBlank c = false) : isBlank c.toLower = false := by
  rcases toLower_cases c with hsame | hgt
  · rw [hsame]
    exact h
  · rw [Bool.eq_false_iff]
    intro hblank
    have hsmall : ∀ d, isBlank d = true → d.val ≤ 'Z'.val := by
      intro d hd
      simp only [isBlank, Bool.or_eq_true, beq_iff_eq] at hd
      rcases hd with ((((rfl | rfl) | rfl) | rfl) | rfl) | rfl <;> decide
    exact absurd hgt (UInt32.not_lt.mpr (hsmall _ hblank))

theorem trim_strtolower (s : List Char) : trim (strtolower (trim s)) = strtolower (trim s) := by
  obtain ⟨hhead, hlast⟩ := trimBy_eq_self_iff.mp (trim_trim s)
  refine trimBy_eq_self_iff.mpr ⟨?_, ?_⟩
  · intro c hc
    rw [strtolower, List.head?_map] at hc
    obtain ⟨d, hd, rfl⟩ := Option.map_eq_some_iff.mp hc
    exact isBlank_toLower (hhead d hd)
  · intro c hc
    rw [strtolower, List.getLast?_map] at hc
    obtain ⟨d, hd, rfl⟩ := Option.map_eq_some_iff.mp hc
    exact isBlank_toLower (hlast d hd)

theorem strtolower_strtolower (s : List Char) : strtolower (strtolower s) = strtolower s :=
  strtolower_of_sublist (List.Sublist.refl _)

theorem eraseDups_of_nodup {l : List (List Char)} (h : l.Nodup) : l.eraseDups = l := by
  induction l with
  | nil => rfl
  | cons x xs ih =>
    obtain ⟨hx, hxs⟩ := List.nodup_cons.mp h
    have hkeep : xs.filter (fun b => !b == x) = xs := by
      refine List.filter_eq_self.mpr fun b hb => ?_
      have hne : b ≠ x := fun heq => hx (heq ▸ hb)
      simpa using hne
    rw [List.eraseDups_cons, hkeep, ih hxs]

end Text
