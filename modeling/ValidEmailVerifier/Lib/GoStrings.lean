/-
# `GoStrings` — functions of Go's `strings` package, on lists of characters

`ToLower`, `HasPrefix` and `Contains`.  Lowering treats the ASCII letters and the
two other characters that are lowered to ASCII letters, the Kelvin sign and the
dotted capital I; every other letter is lowered to one outside ASCII, which makes
no difference to whoever looks for ASCII text.
-/
import Mathlib.Data.List.Infix

namespace GoStrings

/-- `unicode.ToLower`, as far as ASCII text can tell. -/
def lowerChar (c : Char) : Char :=
  if c.val = 0x212A then 'k' else if c.val = 0x0130 then 'i' else c.toLower

/-- `strings.ToLower`. -/
def toLower (s : List Char) : List Char := s.map lowerChar

/-- `strings.HasPrefix(s, prefix)`. -/
def hasPrefix (s start : List Char) : Bool := start.isPrefixOf s

/-- `strings.Contains(s, substr)`. -/
def contains : List Char → List Char → Bool
  | [], sub => sub.isEmpty
  | c :: s, sub => sub.isPrefixOf (c :: s) || contains s sub

/-- Some of the words is in the text. -/
def containsAny (s : List Char) (words : List (List Char)) : Bool := words.any (contains s)

/-- The text begins with some of the words. -/
def hasPrefixAny (s : List Char) (words : List (List Char)) : Bool := words.any (hasPrefix s)

theorem contains_iff {sub : List Char} : ∀ {s : List Char},
    contains s sub = true ↔ sub <:+: s
  | [] => by simp [contains]
  | c :: s => by
      rw [contains, Bool.or_eq_true, List.isPrefixOf_iff_prefix, contains_iff,
        List.infix_cons_iff]

end GoStrings
