/-
# `JsonText` — values of JSON, written and read

`render` writes a value as `encoding/json` does, without blanks and with the signs of HTML and the
two line separators escaped; `parse` reads a text by the grammar of JSON.  What is written is read
again (`parse_render`).
-/
import ValidEmailVerifier.Lib.Json
import Mathlib.Data.List.Basic

namespace Json

/-! ## Writing -/

/-- The digit of a value below sixteen. -/
def hexDigit (n : Nat) : Char := Nat.digitChar (n % 16)

/-- `\u` and four digits. -/
def unicodeEscape (n : Nat) : List Char :=
  ['\\', 'u', hexDigit (n / 4096), hexDigit (n / 256), hexDigit (n / 16), hexDigit n]

/-- A character within a string. -/
def escape (c : Char) : List Char :=
  if c = '"' ∨ c = '\\' then ['\\', c]
  else if c = '\n' then ['\\', 'n']
  else if c = '\r' then ['\\', 'r']
  else if c = '\t' then ['\\', 't']
  else if c.toNat = 8 then ['\\', 'b']
  else if c.toNat = 12 then ['\\', 'f']
  else if c.toNat < 32 ∨ c ∈ ['<', '>', '&'] ∨ c.toNat = 0x2028 ∨ c.toNat = 0x2029 then
    unicodeEscape c.toNat
  else [c]

def renderString (s : List Char) : List Char := '"' :: s.flatMap escape ++ ['"']

def renderExponent : Option Int → List Char
  | none => []
  | some e => 'e' :: (if e < 0 then ['-'] else []) ++ Nat.toDigits 10 e.natAbs

def renderNumber (n : Number) : List Char :=
  (if n.negative then ['-'] else []) ++ Nat.toDigits 10 n.digits ++ renderExponent n.exponent

mutual

def render : Json → List Char
  | .null => ['n', 'u', 'l', 'l']
  | .bool true => ['t', 'r', 'u', 'e']
  | .bool false => ['f', 'a', 'l', 's', 'e']
  | .num n => renderNumber n
  | .str s => renderString s
  | .arr [] => ['[', ']']
  | .arr (j :: elems) => '[' :: render j ++ renderElems elems
  | .obj [] => ['\x7b', '\x7d']
  | .obj ((k, j) :: fields) => '\x7b' :: renderString k ++ ':' :: render j ++ renderFields fields

/-- The elements behind the first one, and the end of the array. -/
def renderElems : List Json → List Char
  | [] => [']']
  | j :: elems => ',' :: render j ++ renderElems elems

/-- The fields behind the first one, and the end of the object. -/
def renderFields : List (List Char × Json) → List Char
  | [] => ['\x7d']
  | (k, j) :: fields => ',' :: renderString k ++ ':' :: render j ++ renderFields fields

end

/-! ## Reading -/

def isWhite (c : Char) : Bool := c = ' ' || c = '\t' || c = '\n' || c = '\r'

/-- What follows the white space. -/
def skip (s : List Char) : List Char := s.dropWhile isWhite

def hexValue (c : Char) : Option Nat :=
  if c.isDigit then some (c.toNat - 48)
  else if 'a' ≤ c ∧ c ≤ 'f' then some (c.toNat - 87)
  else if 'A' ≤ c ∧ c ≤ 'F' then some (c.toNat - 55)
  else none

/-- Four digits. -/
def readHex : List Char → Option (Nat × List Char)
  | a :: b :: c :: d :: s => do
      let a ← hexValue a
      let b ← hexValue b
      let c ← hexValue c
      let d ← hexValue d
      some (4096 * a + 256 * b + 16 * c + d, s)
  | _ => none

/-- The character behind `\u`: a code point by itself, or two halves of one. -/
def readUnicode (s : List Char) : Option (Char × List Char) := do
  let (n, s) ← readHex s
  if 0xDC00 ≤ n ∧ n ≤ 0xDFFF then none
  else if 0xD800 ≤ n ∧ n ≤ 0xDBFF then
    match s with
    | '\\' :: 'u' :: s => do
        let (low, s) ← readHex s
        if 0xDC00 ≤ low ∧ low ≤ 0xDFFF then
          some (Char.ofNat (0x10000 + 1024 * (n - 0xD800) + (low - 0xDC00)), s)
        else none
    | _ => none
  else some (Char.ofNat n, s)

/-- The escape of one letter. -/
def unescape (c : Char) : Option Char :=
  if c = '"' ∨ c = '\\' ∨ c = '/' then some c
  else if c = 'n' then some '\n'
  else if c = 'r' then some '\r'
  else if c = 't' then some '\t'
  else if c = 'b' then some (Char.ofNat 8)
  else if c = 'f' then some (Char.ofNat 12)
  else none

/-- The first character of a string that is not at its end. -/
def readChar : List Char → Option (Char × List Char)
  | [] => none
  | '\\' :: 'u' :: s => readUnicode s
  | '\\' :: c :: s => (unescape c).map fun c => (c, s)
  | c :: s => if c = '\\' ∨ c.toNat < 32 then none else some (c, s)

/-- The characters up to the closing quotation mark. -/
def readChars : Nat → List Char → Option (List Char × List Char)
  | 0, _ => none
  | fuel + 1, s =>
      match s with
      | '"' :: s => some ([], s)
      | s => do
          let (c, s) ← readChar s
          let (text, s) ← readChars fuel s
          some (c :: text, s)

/-- A string with both of its quotation marks. -/
def readString : List Char → Option (List Char × List Char)
  | '"' :: s => readChars s.length s
  | _ => none

/-- The digits of a fraction, if there is one. -/
def readFraction : List Char → Option (List Char × List Char)
  | '.' :: s =>
      if s.takeWhile Char.isDigit = [] then none
      else some (s.takeWhile Char.isDigit, s.dropWhile Char.isDigit)
  | s => some ([], s)

/-- The value of an exponent behind its letter and its sign. -/
def readDigits (s : List Char) : Option (Nat × List Char) :=
  if s.takeWhile Char.isDigit = [] then none
  else some (Nat.ofDigitChars 10 (s.takeWhile Char.isDigit) 0, s.dropWhile Char.isDigit)

/-- The sign of an exponent, if there is one. -/
def readSign : List Char → Bool × List Char
  | '-' :: s => (true, s)
  | '+' :: s => (false, s)
  | s => (false, s)

def readExponent : List Char → Option (Option Int × List Char)
  | c :: s =>
      if c = 'e' ∨ c = 'E' then
        (readDigits (readSign s).2).map fun e =>
          (some (if (readSign s).1 then -(e.1 : Int) else e.1), e.2)
      else some (none, c :: s)
  | [] => some (none, [])

/-- A number behind its sign. -/
def readUnsigned (negative : Bool) (s : List Char) : Option (Number × List Char) := do
  let int := s.takeWhile Char.isDigit
  if int = [] ∨ int.head? = some '0' ∧ 1 < int.length then none
  else
    let (fraction, s) ← readFraction (s.dropWhile Char.isDigit)
    let (exponent, s) ← readExponent s
    some (⟨negative, Nat.ofDigitChars 10 (int ++ fraction) 0,
      if fraction = [] then exponent else some (exponent.getD 0 - fraction.length)⟩, s)

def readNumber : List Char → Option (Number × List Char)
  | '-' :: s => readUnsigned true s
  | s => readUnsigned false s

mutual

def readValue : Nat → List Char → Option (Json × List Char)
  | 0, _ => none
  | fuel + 1, s =>
      match skip s with
      | 'n' :: 'u' :: 'l' :: 'l' :: s => some (.null, s)
      | 't' :: 'r' :: 'u' :: 'e' :: s => some (.bool true, s)
      | 'f' :: 'a' :: 'l' :: 's' :: 'e' :: s => some (.bool false, s)
      | '"' :: s => (readString ('"' :: s)).map fun (text, s) => (.str text, s)
      | '[' :: s =>
          match skip s with
          | ']' :: s => some (.arr [], s)
          | s => (readElems fuel s).map fun (elems, s) => (.arr elems, s)
      | '\x7b' :: s =>
          match skip s with
          | '\x7d' :: s => some (.obj [], s)
          | s => (readFields fuel s).map fun (fields, s) => (.obj fields, s)
      | s => (readNumber s).map fun (n, s) => (.num n, s)

/-- One element or more, and the end of the array. -/
def readElems : Nat → List Char → Option (List Json × List Char)
  | 0, _ => none
  | fuel + 1, s => do
      let (j, s) ← readValue fuel s
      match skip s with
      | ',' :: s => do
          let (elems, s) ← readElems fuel s
          some (j :: elems, s)
      | ']' :: s => some ([j], s)
      | _ => none

/-- One field or more, and the end of the object. -/
def readFields : Nat → List Char → Option (List (List Char × Json) × List Char)
  | 0, _ => none
  | fuel + 1, s => do
      let (k, s) ← readString (skip s)
      match skip s with
      | ':' :: s => do
          let (j, s) ← readValue fuel s
          match skip s with
          | ',' :: s => do
              let (fields, s) ← readFields fuel s
              some ((k, j) :: fields, s)
          | '\x7d' :: s => some ([(k, j)], s)
          | _ => none
      | _ => none

end

/-- A value with nothing but white space around it. -/
def parse (s : List Char) : Option Json :=
  match readValue (s.length + 1) s with
  | some (j, s) => if skip s = [] then some j else none
  | none => none

/-! ## Numbers are read as they are written -/

/-- What stands behind a value within a text. -/
def Ends (s : List Char) : Prop := ∀ c ∈ s.head?, c = ',' ∨ c = ']' ∨ c = '\x7d'

theorem ends_nil : Ends [] := nofun

theorem ends_cons {c : Char} {s : List Char} (h : c = ',' ∨ c = ']' ∨ c = '\x7d') :
    Ends (c :: s) := by
  intro d hd
  obtain rfl := Option.some.inj hd
  exact h

/-- No number goes on there. -/
theorem Ends.stops {s : List Char} (h : Ends s) :
    ∀ c ∈ s.head?, c.isDigit = false ∧ c ≠ '.' ∧ c ≠ 'e' ∧ c ≠ 'E' := by
  intro c hc
  rcases h c hc with rfl | rfl | rfl
  · decide
  · decide
  · decide

theorem span_digits {digits s : List Char} (hdigits : ∀ c ∈ digits, c.isDigit = true)
    (hs : ∀ c ∈ s.head?, c.isDigit = false) :
    (digits ++ s).takeWhile Char.isDigit = digits ∧ (digits ++ s).dropWhile Char.isDigit = s := by
  have hstop : s.takeWhile Char.isDigit = [] ∧ s.dropWhile Char.isDigit = s := by
    cases s with
    | nil => exact ⟨rfl, rfl⟩
    | cons c s =>
      have hc : ¬ c.isDigit = true := by
        rw [hs c rfl]
        exact Bool.false_ne_true
      exact ⟨List.takeWhile_cons_of_neg hc, List.dropWhile_cons_of_neg hc⟩
  rw [List.takeWhile_append_of_pos hdigits, List.dropWhile_append_of_pos hdigits, hstop.1,
    hstop.2, List.append_nil]
  exact ⟨rfl, rfl⟩

theorem isDigit_toDigits (n : Nat) : ∀ c ∈ Nat.toDigits 10 n, c.isDigit = true := fun _ hc =>
  Nat.isDigit_of_mem_toDigits (by decide) (by decide) hc

/-- Only zero begins with a zero. -/
theorem head_toDigits (n : Nat) :
    ¬ ((Nat.toDigits 10 n).head? = some '0' ∧ 1 < (Nat.toDigits 10 n).length) := by
  induction n using Nat.strongRecOn with
  | ind n ih =>
    by_cases hlt : n < 10
    · rw [Nat.toDigits_of_lt_base hlt]
      exact fun h => Nat.lt_irrefl 1 h.2
    · rw [Nat.toDigits_of_base_le (by decide) (by omega),
        List.head?_append_of_ne_nil _ Nat.toDigits_ne_nil]
      rintro ⟨hhead, -⟩
      have hfirst := ih (n / 10) (by omega)
      by_cases hsmall : n / 10 < 10
      · have hpos : 0 < n / 10 := by omega
        rw [Nat.toDigits_of_lt_base hsmall] at hhead
        have hzero : ∀ k, k < 10 → 0 < k → k.digitChar ≠ '0' := by decide
        exact hzero _ hsmall hpos (Option.some.inj hhead)
      · refine hfirst ⟨hhead, ?_⟩
        by_contra hshort
        have hle := (Nat.length_toDigits_le_iff (b := 10) (n := n / 10) (k := 1) (by decide)
          (by decide)).mp (by omega)
        omega

theorem readDigits_toDigits {n : Nat} {s : List Char} (h : ∀ c ∈ s.head?, c.isDigit = false) :
    readDigits (Nat.toDigits 10 n ++ s) = some (n, s) := by
  obtain ⟨htake, hdrop⟩ := span_digits (isDigit_toDigits n) h
  rw [readDigits, htake, hdrop, if_neg Nat.toDigits_ne_nil, Nat.ofDigitChars_ten_toDigits]

/-- A digit is no sign. -/
theorem readSign_of_isDigit {s : List Char} (h : ∀ c ∈ s.head?, c.isDigit = true) :
    readSign s = (false, s) := by
  unfold readSign
  split
  · exact absurd (h '-' rfl) (by decide)
  · exact absurd (h '+' rfl) (by decide)
  · rfl

theorem head_toDigits_append (n : Nat) (s : List Char) :
    ∀ c ∈ (Nat.toDigits 10 n ++ s).head?, c.isDigit = true := by
  intro c hc
  rw [List.head?_append_of_ne_nil _ Nat.toDigits_ne_nil] at hc
  exact isDigit_toDigits n c (List.mem_of_mem_head? hc)

theorem readExponent_render {exponent : Option Int} {s : List Char} (h : Ends s) :
    readExponent (renderExponent exponent ++ s) = some (exponent, s) := by
  have hstops := h.stops
  cases exponent with
  | none =>
    rw [renderExponent, List.nil_append]
    cases s with
    | nil => rfl
    | cons c s =>
      obtain ⟨-, -, he, hE⟩ := hstops c rfl
      exact if_neg (not_or.mpr ⟨he, hE⟩)
  | some e =>
    have hread := @readDigits_toDigits e.natAbs s fun c hc => (hstops c hc).1
    simp only [renderExponent, List.cons_append, List.append_assoc]
    rw [readExponent, if_pos (.inl rfl)]
    by_cases hneg : e < 0
    · rw [if_pos hneg, List.singleton_append, readSign, hread]
      have hvalue : -(e.natAbs : Int) = e := by omega
      show some (some (-(e.natAbs : Int)), s) = some (some e, s)
      rw [hvalue]
    · rw [if_neg hneg, List.nil_append, readSign_of_isDigit (head_toDigits_append e.natAbs s),
        hread]
      have hvalue : (e.natAbs : Int) = e := by omega
      show some (some (e.natAbs : Int), s) = some (some e, s)
      rw [hvalue]

theorem readUnsigned_render {n : Number} {s : List Char} (h : Ends s) :
    readUnsigned n.negative (Nat.toDigits 10 n.digits ++ (renderExponent n.exponent ++ s)) =
      some (n, s) := by
  have hstop : ∀ c ∈ (renderExponent n.exponent ++ s).head?, c.isDigit = false ∧ c ≠ '.' := by
    intro c hc
    cases hexponent : n.exponent with
    | none =>
      rw [hexponent] at hc
      exact ⟨(h.stops c hc).1, (h.stops c hc).2.1⟩
    | some e =>
      rw [hexponent] at hc
      obtain rfl := Option.some.inj hc
      decide
  obtain ⟨htake, hdrop⟩ := span_digits (isDigit_toDigits n.digits) fun c hc => (hstop c hc).1
  have hfraction : readFraction (renderExponent n.exponent ++ s) =
      some ([], renderExponent n.exponent ++ s) := by
    unfold readFraction
    split
    · next s' heq => exact absurd rfl (hstop '.' (by rw [heq]; rfl)).2
    · rfl
  rw [readUnsigned]
  dsimp only
  rw [htake, hdrop, if_neg (not_or.mpr ⟨Nat.toDigits_ne_nil, head_toDigits n.digits⟩), hfraction]
  show (readExponent (renderExponent n.exponent ++ s)).bind _ = _
  rw [readExponent_render h, Option.bind_some]
  simp [Nat.ofDigitChars_ten_toDigits]

theorem readNumber_render {n : Number} {s : List Char} (h : Ends s) :
    readNumber (renderNumber n ++ s) = some (n, s) := by
  have hunsigned := readUnsigned_render (n := n) h
  rw [renderNumber, List.append_assoc, List.append_assoc]
  cases hneg : n.negative with
  | true =>
    rw [hneg] at hunsigned
    exact hunsigned
  | false =>
    rw [hneg] at hunsigned
    rw [if_neg Bool.false_ne_true, List.nil_append]
    unfold readNumber
    split
    · next s' heq =>
      have hminus := head_toDigits_append n.digits (renderExponent n.exponent ++ s) '-'
        (by rw [heq]; rfl)
      exact absurd hminus (by decide)
    · exact hunsigned

/-! ## Strings are read as they are written -/

theorem hexValue_hexDigit (n : Nat) : hexValue (hexDigit n) = some (n % 16) := by
  have hall : ∀ k, k < 16 → hexValue k.digitChar = some k := by decide
  exact hall (n % 16) (Nat.mod_lt n (by decide))

theorem readHex_digits {n : Nat} (h : n < 65536) (s : List Char) :
    readHex (hexDigit (n / 4096) :: hexDigit (n / 256) :: hexDigit (n / 16) :: hexDigit n :: s) =
      some (n, s) := by
  have hvalue :
      4096 * (n / 4096 % 16) + 256 * (n / 256 % 16) + 16 * (n / 16 % 16) + n % 16 = n := by
    omega
  simp only [readHex, hexValue_hexDigit, Option.bind_eq_bind, Option.bind_some, hvalue]

/-- A code point that is not half of one stands for itself. -/
theorem readUnicode_digits {c : Char} (h : c.toNat < 0xD800) (s : List Char) :
    readUnicode (hexDigit (c.toNat / 4096) :: hexDigit (c.toNat / 256) ::
      hexDigit (c.toNat / 16) :: hexDigit c.toNat :: s) = some (c, s) := by
  rw [readUnicode, readHex_digits (by omega)]
  show (if _ then _ else _) = _
  rw [if_neg (by omega), if_neg (by omega), Char.ofNat_toNat]

/-- A character is read as it is written. -/
theorem readChar_escape (c : Char) (s : List Char) : readChar (escape c ++ s) = some (c, s) := by
  have hnat : ∀ n, c.toNat = n → c = Char.ofNat n := fun n hn => hn ▸ (Char.ofNat_toNat c).symm
  rw [escape]
  split_ifs with hquote hnewline hreturn htab hback hfeed hunicode
  · rcases hquote with rfl | rfl
    · rfl
    · rfl
  · rw [hnewline]
    rfl
  · rw [hreturn]
    rfl
  · rw [htab]
    rfl
  · rw [hnat 8 hback]
    rfl
  · rw [hnat 12 hfeed]
    rfl
  · have hlt : c.toNat < 0xD800 := by
      rcases hunicode with hlow | hsign | hline | hline
      · omega
      · simp only [List.mem_cons, List.not_mem_nil, or_false] at hsign
        rcases hsign with rfl | rfl | rfl
        · decide
        · decide
        · decide
      · omega
      · omega
    exact readUnicode_digits hlt s
  · obtain ⟨-, hslash⟩ := not_or.mp hquote
    have hlow : ¬ c.toNat < 32 := fun hlow => hunicode (.inl hlow)
    rw [List.singleton_append]
    unfold readChar
    split
    · next heq => exact nomatch heq
    · next heq => exact absurd (List.cons.inj heq).1 hslash
    · next heq => exact absurd (List.cons.inj heq).1 hslash
    · next heq =>
      obtain ⟨rfl, rfl⟩ := List.cons.inj heq
      exact if_neg (not_or.mpr ⟨hslash, hlow⟩)

/-- No character is written as a quotation mark. -/
theorem head_escape (c : Char) : ∃ d t, escape c = d :: t ∧ d ≠ '"' := by
  have hslash : '\\' ≠ '"' := by decide
  rw [escape]
  split_ifs with hquote
  · exact ⟨_, _, rfl, hslash⟩
  · exact ⟨_, _, rfl, hslash⟩
  · exact ⟨_, _, rfl, hslash⟩
  · exact ⟨_, _, rfl, hslash⟩
  · exact ⟨_, _, rfl, hslash⟩
  · exact ⟨_, _, rfl, hslash⟩
  · exact ⟨_, _, rfl, hslash⟩
  · exact ⟨_, _, rfl, fun heq => hquote (.inl heq)⟩

theorem readChars_escape {fuel : Nat} {text s : List Char} (h : text.length < fuel) :
    readChars fuel (text.flatMap escape ++ '"' :: s) = some (text, s) := by
  induction text generalizing fuel with
  | nil =>
    obtain ⟨fuel, rfl⟩ := Nat.exists_eq_succ_of_ne_zero (Nat.ne_zero_of_lt h)
    rfl
  | cons c text ih =>
    obtain ⟨fuel, rfl⟩ := Nat.exists_eq_succ_of_ne_zero (Nat.ne_zero_of_lt h)
    obtain ⟨d, t, hescape, hd⟩ := head_escape c
    have hchar := readChar_escape c (text.flatMap escape ++ '"' :: s)
    rw [List.flatMap_cons, List.append_assoc]
    unfold readChars
    split
    · next heq =>
      rw [hescape] at heq
      exact absurd (List.cons.inj heq).1 hd
    · rw [hchar]
      show (readChars fuel (text.flatMap escape ++ '"' :: s)).bind _ = _
      rw [ih (Nat.lt_of_succ_lt_succ h)]
      rfl

theorem length_le_flatMap_escape (text : List Char) :
    text.length ≤ (text.flatMap escape).length := by
  induction text with
  | nil => exact Nat.le_refl 0
  | cons c text ih =>
    obtain ⟨d, t, hescape, -⟩ := head_escape c
    rw [List.flatMap_cons, List.length_append, hescape, List.length_cons, List.length_cons]
    omega

theorem readString_render (text s : List Char) :
    readString (renderString text ++ s) = some (text, s) := by
  have hlength := length_le_flatMap_escape text
  rw [renderString, List.append_assoc, List.cons_append]
  show readChars _ (text.flatMap escape ++ '"' :: s) = _
  apply readChars_escape
  rw [List.length_append, List.length_append, List.length_singleton]
  omega

/-! ## Values are read as they are written -/

/-- No value begins with white space or with the end of an array. -/
theorem head_render (j : Json) : ∃ c t, render j = c :: t ∧ isWhite c = false ∧ c ≠ ']' := by
  cases j with
  | null => exact ⟨_, _, rfl, by decide⟩
  | bool b =>
    cases b with
    | true => exact ⟨_, _, rfl, by decide⟩
    | false => exact ⟨_, _, rfl, by decide⟩
  | num n =>
    have hdigit : ∀ c : Char, c.isDigit = true → isWhite c = false ∧ c ≠ ']' := by
      intro c hc
      refine ⟨?_, fun heq => absurd (heq ▸ hc) (by decide)⟩
      have hne : ∀ d : Char, d.isDigit = false → c ≠ d :=
        fun d hd heq => Bool.false_ne_true (hd.symm.trans (heq ▸ hc))
      simp [isWhite, hne ' ' (by decide), hne '\t' (by decide), hne '\n' (by decide),
        hne '\r' (by decide)]
    rw [render, renderNumber]
    cases n.negative with
    | true => exact ⟨_, _, rfl, by decide⟩
    | false =>
      obtain ⟨d, t, hdigits⟩ := List.exists_cons_of_ne_nil (@Nat.toDigits_ne_nil n.digits 10)
      have hd := isDigit_toDigits n.digits d (hdigits ▸ .head _)
      rw [hdigits]
      exact ⟨d, _, rfl, hdigit d hd⟩
  | str s => exact ⟨_, _, rfl, by decide⟩
  | arr elems =>
    cases elems with
    | nil => exact ⟨_, _, rfl, by decide⟩
    | cons => exact ⟨_, _, rfl, by decide⟩
  | obj fields =>
    cases fields with
    | nil => exact ⟨_, _, rfl, by decide⟩
    | cons field => exact ⟨_, _, rfl, by decide⟩

theorem skip_cons {c : Char} {s : List Char} (h : isWhite c = false) : skip (c :: s) = c :: s :=
  List.dropWhile_cons_of_neg (by rw [h]; exact Bool.false_ne_true)

theorem skip_render (j : Json) (s : List Char) : skip (render j ++ s) = render j ++ s := by
  obtain ⟨c, t, hrender, hwhite, -⟩ := head_render j
  rw [hrender]
  exact skip_cons hwhite

theorem ends_renderElems (elems : List Json) (s : List Char) : Ends (renderElems elems ++ s) := by
  cases elems with
  | nil => exact ends_cons (.inr (.inl rfl))
  | cons => exact ends_cons (.inl rfl)

theorem ends_renderFields (fields : List (List Char × Json)) (s : List Char) :
    Ends (renderFields fields ++ s) := by
  cases fields with
  | nil => exact ends_cons (.inr (.inr rfl))
  | cons field => exact ends_cons (.inl rfl)

theorem readValue_num {n : Number} {fuel : Nat} {s : List Char} (h : Ends s) :
    readValue (fuel + 1) (renderNumber n ++ s) = some (.num n, s) := by
  have hskip := skip_render (.num n) s
  have hnumber := readNumber_render (n := n) h
  have hhead : ∃ c t, renderNumber n ++ s = c :: t ∧ (c = '-' ∨ c.isDigit = true) := by
    rw [renderNumber]
    cases n.negative with
    | true => exact ⟨_, _, rfl, .inl rfl⟩
    | false =>
      obtain ⟨d, t, hdigits⟩ := List.exists_cons_of_ne_nil (@Nat.toDigits_ne_nil n.digits 10)
      rw [hdigits]
      exact ⟨d, _, rfl, .inr (isDigit_toDigits n.digits d (hdigits ▸ .head _))⟩
  obtain ⟨c, t, hc, hfirst⟩ := hhead
  rw [render] at hskip
  rw [readValue, hskip]
  have hne : ∀ d : Char, d ≠ '-' → d.isDigit = false → ∀ t, renderNumber n ++ s ≠ d :: t := by
    intro d hminus hdigit t heq
    rw [hc] at heq
    obtain ⟨rfl, -⟩ := List.cons.inj heq
    rcases hfirst with rfl | htrue
    · exact hminus rfl
    · exact Bool.false_ne_true (hdigit.symm.trans htrue)
  split
  · next heq => exact absurd heq (hne _ (by decide) (by decide) _)
  · next heq => exact absurd heq (hne _ (by decide) (by decide) _)
  · next heq => exact absurd heq (hne _ (by decide) (by decide) _)
  · next heq => exact absurd heq (hne _ (by decide) (by decide) _)
  · next heq => exact absurd heq (hne _ (by decide) (by decide) _)
  · next heq => exact absurd heq (hne _ (by decide) (by decide) _)
  · rw [hnumber]
    rfl

theorem readValue_str (text : List Char) (fuel : Nat) (s : List Char) :
    readValue (fuel + 1) (renderString text ++ s) = some (.str text, s) := by
  show (readString (renderString text ++ s)).map _ = _
  rw [readString_render]
  rfl

theorem readValue_arr {fuel : Nat} {s rest : List Char} {elems : List Json}
    (hne : ∀ t, skip s ≠ ']' :: t) (h : readElems fuel (skip s) = some (elems, rest)) :
    readValue (fuel + 1) ('[' :: s) = some (.arr elems, rest) := by
  show (match skip s with
    | ']' :: s => some (Json.arr [], s)
    | s => (readElems fuel s).map fun (p : List Json × List Char) => (Json.arr p.1, p.2)) = _
  split
  · next heq => exact absurd heq (hne _)
  · rw [h]
    rfl

theorem readValue_obj {fuel : Nat} {s rest : List Char} {fields : List (List Char × Json)}
    (hne : ∀ t, skip s ≠ '\x7d' :: t) (h : readFields fuel (skip s) = some (fields, rest)) :
    readValue (fuel + 1) ('\x7b' :: s) = some (.obj fields, rest) := by
  show (match skip s with
    | '\x7d' :: s => some (Json.obj [], s)
    | s => (readFields fuel s).map fun (p : List (List Char × Json) × List Char) =>
        (Json.obj p.1, p.2)) = _
  split
  · next heq => exact absurd heq (hne _)
  · rw [h]
    rfl

theorem readElems_succ {j : Json} {fuel : Nat} {s t : List Char}
    (h : readValue fuel s = some (j, t)) : readElems (fuel + 1) s =
      match skip t with
      | ',' :: t => (readElems fuel t).map fun p => (j :: p.1, p.2)
      | ']' :: t => some ([j], t)
      | _ => none := by
  rw [readElems, h]
  show (match skip t with
    | ',' :: t => (readElems fuel t).bind fun p => some (j :: p.1, p.2)
    | ']' :: t => some ([j], t)
    | _ => none) = _
  split <;> simp [Option.map_eq_bind, Function.comp_def]

theorem readFields_succ {k : List Char} {j : Json} {fuel : Nat} {s t u : List Char}
    (hk : readString (skip s) = some (k, ':' :: t)) (h : readValue fuel t = some (j, u)) :
    readFields (fuel + 1) s =
      match skip u with
      | ',' :: u => (readFields fuel u).map fun p => ((k, j) :: p.1, p.2)
      | '\x7d' :: u => some ([(k, j)], u)
      | _ => none := by
  rw [readFields, hk]
  show ((readValue fuel t).bind fun p => match skip p.2 with
    | ',' :: u => (readFields fuel u).bind fun q => some ((k, p.1) :: q.1, q.2)
    | '\x7d' :: u => some ([(k, p.1)], u)
    | _ => none) = _
  rw [h, Option.bind_some]
  dsimp only
  split <;> simp [Option.map_eq_bind, Function.comp_def]

theorem length_render_pos (j : Json) : 0 < (render j).length := by
  obtain ⟨c, t, hrender, -⟩ := head_render j
  rw [hrender]
  exact Nat.succ_pos _

mutual

theorem readValue_render (j : Json) (fuel : Nat) (s : List Char)
    (hfuel : (render j).length ≤ fuel) (hs : Ends s) :
    readValue fuel (render j ++ s) = some (j, s) := by
  cases fuel with
  | zero => exact absurd (length_render_pos j) (by omega)
  | succ fuel =>
    cases j with
    | null => rfl
    | bool b =>
      cases b with
      | true => rfl
      | false => rfl
    | num n => exact readValue_num hs
    | str text => exact readValue_str text fuel s
    | arr elems =>
      cases elems with
      | nil => rfl
      | cons j elems =>
        have hlength : (render j ++ renderElems elems).length ≤ fuel := by
          simpa [render] using hfuel
        have hrest := readElems_render j elems fuel s hlength
        rw [← skip_render] at hrest
        simp only [render, List.cons_append, List.append_assoc]
        refine readValue_arr ?_ hrest
        intro t heq
        obtain ⟨c, rest, hrender, -, hend⟩ := head_render j
        rw [skip_render, hrender] at heq
        exact hend (List.cons.inj heq).1
    | obj fields =>
      cases fields with
      | nil => rfl
      | cons field fields =>
        cases field with
        | mk k j =>
          have hlength : (renderString k ++ ':' :: render j ++ renderFields fields).length ≤
              fuel := by
            simpa [render] using hfuel
          have hrest := readFields_render k j fields fuel s hlength
          have hskip := @skip_cons '"' (k.flatMap escape ++ '"' :: ':' :: (render j ++
            (renderFields fields ++ s))) (by decide)
          simp only [render, renderString, List.cons_append, List.append_assoc, List.nil_append]
            at hrest ⊢
          rw [← hskip] at hrest
          refine readValue_obj ?_ hrest
          intro t heq
          rw [hskip] at heq
          exact absurd (List.cons.inj heq).1 (by decide)
termination_by sizeOf j

/-- One element, those behind it, and the end. -/
theorem readElems_render (j : Json) (elems : List Json) (fuel : Nat) (s : List Char)
    (hfuel : (render j ++ renderElems elems).length ≤ fuel) :
    readElems fuel (render j ++ (renderElems elems ++ s)) = some (j :: elems, s) := by
  rw [List.length_append] at hfuel
  cases fuel with
  | zero => exact absurd (length_render_pos j) (by omega)
  | succ fuel =>
    cases elems with
    | nil =>
      rw [renderElems, List.length_singleton] at hfuel
      rw [readElems_succ (readValue_render j fuel _ (by omega) (ends_renderElems [] s))]
      rfl
    | cons next elems =>
      rw [renderElems, List.length_append, List.length_cons] at hfuel
      rw [readElems_succ (readValue_render j fuel _ (by omega) (ends_renderElems _ s))]
      have hpos := length_render_pos j
      have hrest := readElems_render next elems fuel s (by rw [List.length_append]; omega)
      simp only [renderElems, List.cons_append, List.append_assoc]
      show (readElems fuel (render next ++ (renderElems elems ++ s))).map _ = _
      rw [hrest]
      rfl
termination_by sizeOf (j :: elems)

theorem readFields_render (k : List Char) (j : Json) (fields : List (List Char × Json))
    (fuel : Nat) (s : List Char)
    (hfuel : (renderString k ++ ':' :: render j ++ renderFields fields).length ≤ fuel) :
    readFields fuel (renderString k ++ ':' :: (render j ++ (renderFields fields ++ s))) =
        some ((k, j) :: fields, s) := by
  simp only [List.length_append, List.length_cons] at hfuel
  have hkey : readString
      (skip (renderString k ++ ':' :: (render j ++ (renderFields fields ++ s)))) =
        some (k, ':' :: (render j ++ (renderFields fields ++ s))) := by
    have hskip := skip_render (.str k) (':' :: (render j ++ (renderFields fields ++ s)))
    rw [render] at hskip
    rw [hskip]
    exact readString_render k _
  have hpos := length_render_pos j
  cases fuel with
  | zero => omega
  | succ fuel =>
    rw [readFields_succ hkey (readValue_render j fuel _ (by omega) (ends_renderFields fields s))]
    cases fields with
    | nil => rfl
    | cons field fields =>
      cases field with
      | mk key next =>
        have hrest := readFields_render key next fields fuel s (by
          simp only [renderFields, List.length_append, List.length_cons] at hfuel ⊢
          omega)
        simp only [renderFields, List.cons_append, List.append_assoc]
        show (readFields fuel (renderString key ++ ':' :: (render next ++
          (renderFields fields ++ s)))).map _ = _
        rw [hrest]
        rfl
termination_by sizeOf ((k, j) :: fields)

end

/-- **What is written is read again.** -/
theorem parse_render (j : Json) : parse (render j) = some j := by
  have hread := readValue_render j ((render j).length + 1) [] (Nat.le_succ _) ends_nil
  rw [List.append_nil] at hread
  rw [parse, hread]
  rfl

end Json
