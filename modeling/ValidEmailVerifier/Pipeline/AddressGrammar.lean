/-
# `Pipeline.AddressGrammar` — the addresses that pass `FILTER_VALIDATE_EMAIL`

The filter of PHP is one regular expression, matched against the whole text without
regard to case, and a limit on the length.  The expression is written down here as it
is documented: a local part of words with dots between them, each an atom or a quoted
string, an `@`, and a domain, which is a host name or the literal of an address.

An address has no `@` after the one that the expression matches (`Reads`), and a host
name is a list of labels (`hostname_of_run`).  The filter keeps what the readers of the
files of a job rely on (`lawful`).
-/
import ValidEmailVerifier.Lib.RegExp
import ValidEmailVerifier.Pipeline.RowConservation

namespace ValidEmailVerifier.FilterVar

open Computability RegExp Text Worker WorkerLoop

/-! ## Characters -/

/-- A class of characters, by the ranges of their codes. -/
def within (ranges : List (Nat × Nat)) (c : Char) : Bool :=
  ranges.any fun r => r.1 ≤ c.toNat && c.toNat ≤ r.2

/-- `/i`: a letter is in a class when either case is. -/
def fold (p : Char → Bool) (c : Char) : Bool := p c || p c.toLower || p c.toUpper

/-- `[…]` -/
def char (ranges : List (Nat × Nat)) : RegExp Char := one (fold (within ranges))

def lit (c : Char) : RegExp Char := char [(c.toNat, c.toNat)]

def letter : RegExp Char := char [(0x61, 0x7A)]

def alnum : RegExp Char := char [(0x61, 0x7A), (0x30, 0x39)]

def hexDigit : RegExp Char := char [(0x61, 0x66), (0x30, 0x39)]

def digit : RegExp Char := char [(0x30, 0x39)]

/-- `.` -/
def anyChar : RegExp Char := one (· != '\n')

/-! ## The local part -/

/-- `"?\\[\x00-\x7E]"?|"?[^\\"]"?`, a character as the limits of the local part count them. -/
def unit : RegExp Char :=
  alt (seqs [opt (lit '"'), lit '\\', char [(0x00, 0x7E)], opt (lit '"')])
    (seqs [opt (lit '"'), one fun c => c != '\\' && c != '"', opt (lit '"')])

def atom : RegExp Char :=
  plus (char [(0x21, 0x21), (0x23, 0x27), (0x2A, 0x2A), (0x2B, 0x2B), (0x2D, 0x2D), (0x2F, 0x39),
    (0x3D, 0x3D), (0x3F, 0x3F), (0x5E, 0x7E)])

def quoted : RegExp Char :=
  seqs [lit '"',
    star (alt (char [(0x01, 0x08), (0x0B, 0x0B), (0x0C, 0x0C), (0x0E, 0x1F), (0x21, 0x21),
        (0x23, 0x5B), (0x5D, 0x7F)])
      (seq (lit '\\') (char [(0x00, 0x7F)]))),
    lit '"']

def word : RegExp Char := alt atom quoted

def localPart : RegExp Char := seq word (star (seq (lit '.') word))

/-! ## The domain -/

/-- `xn--` -/
def xn : RegExp Char := seqs [lit 'x', lit 'n', lit '-', lit '-']

/-- `(?:-+[a-z0-9]+)*` -/
def hyphenated : RegExp Char := star (seq (plus (lit '-')) (plus alnum))

def label : RegExp Char := seqs [opt xn, plus alnum, hyphenated]

def topLabel : RegExp Char :=
  seq (alt (seq letter (star alnum)) (seq xn (plus alnum))) hyphenated

def host : RegExp Char := seq (plus (between (seq label (lit '.')) 1 125)) topLabel

/-- `[a-f0-9]{1,4}` -/
def hexGroup : RegExp Char := between hexDigit 1 3

/-- `[a-f0-9]{1,4}(?::[a-f0-9]{1,4}){0,n}` -/
def hexGroups (n : Nat) : RegExp Char := seq hexGroup (upTo (seq (lit ':') hexGroup) n)

/-- `IPv6:` -/
def ipv6Tag : RegExp Char := seqs [lit 'I', lit 'P', lit 'v', lit '6', lit ':']

def ipv6 : RegExp Char :=
  seq ipv6Tag
    (alt (seq hexGroup (times (seq (lit ':') hexGroup) 7))
      (seqs [
        notAhead (atLeast (seqs [star anyChar, hexDigit, char [(0x3A, 0x3A), (0x5D, 0x5D)]]) 7),
        opt (hexGroups 5), lit ':', lit ':', opt (hexGroups 5)]))

/-- What may stand in front of the four numbers. -/
def ipv6Front : RegExp Char :=
  seq ipv6Tag
    (alt (seqs [hexGroup, times (seq (lit ':') hexGroup) 5, lit ':'])
      (seqs [notAhead (atLeast (seqs [star anyChar, hexDigit, lit ':']) 5),
        opt (hexGroups 3), lit ':', lit ':', opt (seq (hexGroups 3) (lit ':'))]))

/-- A number up to 255. -/
def octet : RegExp Char :=
  alt (seqs [lit '2', lit '5', char [(0x30, 0x35)]])
    (alt (seqs [lit '2', char [(0x30, 0x34)], digit])
      (alt (seqs [lit '1', digit, digit]) (seq (opt (char [(0x31, 0x39)])) digit)))

def literal : RegExp Char :=
  seqs [lit '[',
    alt ipv6 (seqs [opt ipv6Front, octet, times (seq (lit '.') octet) 3]),
    lit ']']

/-- No label of a host is longer than 63 characters. -/
def domainPart : RegExp Char :=
  alt (seq (notAhead (seq (star anyChar) (atLeast (one (· != '.')) 64))) host) literal

/-! ## The filter -/

def address : RegExp Char :=
  seqs [notAhead (atLeast unit 255), notAhead (seq (atLeast unit 65) (lit '@')), localPart, lit '@',
    domainPart]

/-- `filter_var($email, FILTER_VALIDATE_EMAIL)`. -/
def validateEmail (email : Text) : Bool := byteLength email ≤ 320 && address.test email

/-- The functions of PHP, with this filter. -/
def php (sha1 : Text → Text) : Php where
  filterVarEmail := validateEmail
  sha1 := sha1

/-- The filter takes the address for this local part at this domain. -/
structure Reads (email localText domain : Text) : Prop where
  split : email = localText ++ '@' :: domain
  localRun : localPart.Run email ('@' :: domain)
  domainRun : domainPart.Run domain []

/-! ## What the classes are made of -/

/-- The ASCII characters of a class, in either case, are in another. -/
def confined (ranges : List (Nat × Nat)) (p : Char → Bool) : Bool :=
  ranges.all (fun r => r.2 < 128) &&
    (List.range 128).all fun n => !fold (within ranges) (Char.ofNat n) || p (Char.ofNat n)

theorem toNat_lt_of_toLower {c : Char} (h : c.toLower.toNat < 128) : c.toNat < 128 := by
  unfold Char.toLower at h
  split at h
  next hupper =>
    have hZ : c.toNat ≤ 90 := hupper.2
    omega
  next => exact h

theorem toNat_lt_of_toUpper {c : Char} (h : c.toUpper.toNat < 128) : c.toNat < 128 := by
  unfold Char.toUpper at h
  split at h
  next hlower =>
    have hz : c.toNat ≤ 122 := hlower.2
    omega
  next => exact h

theorem of_confined {ranges : List (Nat × Nat)} {p : Char → Bool}
    (h : confined ranges p = true) : ∀ c, fold (within ranges) c = true → p c = true := by
  intro c hc
  rw [confined, Bool.and_eq_true, List.all_eq_true, List.all_eq_true] at h
  obtain ⟨hascii, hall⟩ := h
  have hwithin : ∀ {d : Char}, within ranges d = true → d.toNat < 128 := by
    intro d hd
    obtain ⟨r, hr, hd⟩ := List.any_eq_true.mp hd
    have hr := decide_eq_true_iff.mp (hascii r hr)
    simp only [Bool.and_eq_true, decide_eq_true_iff] at hd
    omega
  have hlt : c.toNat < 128 := by
    rcases Bool.or_eq_true _ _ |>.mp hc with hc | hc
    · rcases Bool.or_eq_true _ _ |>.mp hc with hc | hc
      · exact hwithin hc
      · exact toNat_lt_of_toLower (hwithin hc)
    · exact toNat_lt_of_toUpper (hwithin hc)
  have hp := hall c.toNat (List.mem_range.mpr hlt)
  rw [Char.ofNat_toNat, hc, Bool.not_true, Bool.false_or] at hp
  exact hp

/-- A character outside quotes and other than the `@`. -/
def isPlain (c : Char) : Bool :=
  0x21 ≤ c.toNat && c.toNat ≤ 0x7E && c != '@' && c != '"' && c != ',' && c != ';'

def isAscii (c : Char) : Bool := c.toNat < 128

theorem isAscii_of_isPlain {c : Char} (h : isPlain c = true) : isAscii c = true := by
  simp only [isPlain, Bool.and_eq_true, decide_eq_true_iff] at h
  simp only [isAscii, decide_eq_true_iff]
  omega

theorem isSpace_of_isPlain {c : Char} (h : isPlain c = true) : isSpace c = false := by
  have hall : ∀ n, n < 128 → isPlain (Char.ofNat n) = true → isSpace (Char.ofNat n) = false := by
    decide +kernel
  have hlt : c.toNat < 128 := decide_eq_true_iff.mp (isAscii_of_isPlain h)
  have hc := hall c.toNat hlt
  rw [Char.ofNat_toNat] at hc
  exact hc h

/-! ## The shape of the local part -/

/-- The words that are within a class up to their first quote. -/
def bare (p : Char → Prop) : Language Char := {w : Text | ∀ c ∈ before '"' w, p c}

theorem wordsOver_le_bare (p : Char → Prop) : wordsOver p ≤ bare p := by
  intro w hw c hc
  exact hw c ((List.takeWhile_prefix _).subset hc)

/-- Nothing comes before a quote at the beginning. -/
theorem quote_mul_le_bare (p : Char → Prop) (l : Language Char) :
    (lit '"').language * l ≤ bare p := by
  rintro w ⟨a, ⟨d, hd, rfl⟩, b, -, rfl⟩ c hc
  have hquote : d = '"' := beq_iff_eq.mp (of_confined (p := (· == '"')) (by decide) d hd)
  subst hquote
  exact absurd hc List.not_mem_nil

theorem bare_mul_bare (p : Char → Prop) : bare p * bare p ≤ bare p := by
  rintro w ⟨a, ha, b, hb, rfl⟩ c hc
  by_cases hquote : '"' ∈ a
  · have hbefore : before '"' (a ++ b) = before '"' a := by
      obtain ⟨s, t, rfl⟩ := List.append_of_mem hquote
      simp only [before, List.append_assoc, List.cons_append, List.takeWhile_append,
        List.takeWhile_cons, bne_self_eq_false, Bool.false_eq_true, if_false, List.append_nil]
    exact ha c (hbefore ▸ hc)
  · have hall : ∀ d ∈ a, (d != '"') = true := by
      intro d hd
      rw [bne_iff_ne]
      rintro rfl
      exact hquote hd
    rw [before, List.takeWhile_append_of_pos hall] at hc
    rcases List.mem_append.mp hc with hc | hc
    · refine ha c ?_
      rwa [before, List.takeWhile_eq_self_iff.mpr hall]
    · exact hb c hc

/-- An inequality that holds of words holds of the local part. -/
theorem localPart_le_mul {l : Language Char} (hword : word.language ≤ l)
    (hmul : l * ((lit '.').language * word.language) ≤ l) : localPart.language ≤ l :=
  mul_kstar_le hword hmul

theorem word_uses_ascii : word.Uses (isAscii · = true) := by
  have hclass : ∀ {ranges}, confined ranges isAscii = true →
      (char ranges).Uses (isAscii · = true) := fun h => of_confined h
  refine ⟨⟨hclass (by decide), hclass (by decide)⟩, hclass (by decide), ?_, hclass (by decide),
    trivial⟩
  exact ⟨hclass (by decide), hclass (by decide), hclass (by decide)⟩

theorem localPart_le_ascii : localPart.language ≤ wordsOver (isAscii · = true) :=
  language_le_wordsOver ⟨word_uses_ascii, of_confined (by decide), word_uses_ascii⟩

/-- The characters a word begins and ends with. -/
def isOuter (c : Char) : Bool := isPlain c || c == '"'

theorem word_le_starts : word.language ≤ starts (isOuter · = true) := by
  refine add_le ?_ ?_
  · exact (mul_le_mul_left (language_one_le_starts (of_confined (by decide))) _).trans
      (starts_mul _ _)
  · exact (mul_le_mul_left (language_one_le_starts (of_confined (by decide))) _).trans
      (starts_mul _ _)

theorem word_le_ends : word.language ≤ ends (isOuter · = true) := by
  refine add_le ?_ ?_
  · exact mul_kstar_le_ends (language_one_le_ends (of_confined (by decide)))
  · have hlast : (lit '"').language * 1 ≤ ends (isOuter · = true) := by
      rw [mul_one]
      exact language_one_le_ends (of_confined (by decide))
    refine (mul_le_mul_right ?_ _).trans (mul_ends _ _)
    exact (mul_le_mul_right hlast _).trans (mul_ends _ _)

theorem localPart_le_starts : localPart.language ≤ starts (isOuter · = true) :=
  localPart_le_mul word_le_starts (starts_mul _ _)

theorem localPart_le_ends : localPart.language ≤ ends (isOuter · = true) := by
  refine localPart_le_mul word_le_ends ?_
  refine (mul_le_mul_right ?_ _).trans (mul_ends _ _)
  exact (mul_le_mul_right word_le_ends _).trans (mul_ends _ _)

theorem localPart_le_bare : localPart.language ≤ bare (isPlain · = true) := by
  have hatom : atom.language ≤ bare (isPlain · = true) :=
    (language_le_wordsOver (r := atom) ⟨of_confined (by decide), of_confined (by decide)⟩).trans
      (wordsOver_le_bare _)
  have hdot : (lit '.').language ≤ bare (isPlain · = true) :=
    (language_le_wordsOver (r := lit '.') (of_confined (by decide))).trans (wordsOver_le_bare _)
  have hword : word.language ≤ bare (isPlain · = true) := add_le hatom (quote_mul_le_bare _ _)
  refine localPart_le_mul hword ?_
  calc bare (isPlain · = true) * ((lit '.').language * word.language)
      ≤ bare (isPlain · = true) * (bare (isPlain · = true) * bare (isPlain · = true)) :=
        mul_le_mul_right (mul_le_mul' hdot hword) _
    _ ≤ bare (isPlain · = true) * bare (isPlain · = true) :=
        mul_le_mul_right (bare_mul_bare _) _
    _ ≤ bare (isPlain · = true) := bare_mul_bare _

/-! ## The shape of the domain -/

/-- The letters, the digits and the hyphen. -/
def isLDH (c : Char) : Bool := c.isAlphanum || c == '-'

/-- A label of a host name has letters and digits at its ends, and hyphens inside. -/
def isLabel (l : Text) : Bool :=
  l.all isLDH && l.head?.any Char.isAlphanum && l.getLast?.any Char.isAlphanum

/-- Labels with dots between them. -/
def Hostname (domain : Text) : Prop := ∀ l ∈ domain.splitOn '.', isLabel l = true

instance {domain : Text} : Decidable (Hostname domain) :=
  inferInstanceAs (Decidable (∀ l ∈ domain.splitOn '.', isLabel l = true))

def labels : Language Char := {l : Text | isLabel l = true}

def hostnames : Language Char := {domain : Text | Hostname domain}

theorem mem_labels {l : Text} (hover : l ∈ wordsOver (isLDH · = true))
    (hstarts : l ∈ starts (Char.isAlphanum · = true))
    (hends : l ∈ ends (Char.isAlphanum · = true)) : l ∈ labels := by
  obtain ⟨a, ha, hfirst⟩ := hstarts
  obtain ⟨b, hb, hlast⟩ := hends
  simp only [labels, isLabel, Bool.and_eq_true, List.all_eq_true, Option.any_eq_true]
  exact ⟨⟨hover, a, ha, hfirst⟩, b, hb, hlast⟩

theorem dot_not_mem_of_isLabel {l : Text} (h : isLabel l = true) : '.' ∉ l := by
  intro hdot
  simp only [isLabel, Bool.and_eq_true, List.all_eq_true] at h
  exact absurd (h.1.1 '.' hdot) (by decide)

theorem labels_le_hostnames : labels ≤ hostnames := by
  intro l hl k hk
  rw [List.splitOn_eq_singleton (dot_not_mem_of_isLabel hl), List.mem_singleton] at hk
  exact hk ▸ hl

/-- A label and a dot may be put in front of a host name. -/
theorem labels_dot_mul_hostnames :
    labels * (lit '.').language * hostnames ≤ hostnames := by
  rintro w ⟨u, ⟨l, hl, d, ⟨c, hc, rfl⟩, rfl⟩, rest, hrest, rfl⟩ k hk
  have hdot : c = '.' := beq_iff_eq.mp (of_confined (p := (· == '.')) (by decide) c hc)
  subst hdot
  simp only [List.append_assoc, List.singleton_append,
    List.splitOn_append_cons_self_of_not_mem (dot_not_mem_of_isLabel hl), List.mem_cons] at hk
  rcases hk with rfl | hk
  · exact hl
  · exact hrest k hk

theorem hyphenated_uses : hyphenated.Uses (isLDH · = true) :=
  ⟨⟨of_confined (by decide), of_confined (by decide)⟩, of_confined (by decide),
    of_confined (by decide)⟩

theorem xn_uses : xn.Uses (isLDH · = true) :=
  ⟨of_confined (by decide), of_confined (by decide), of_confined (by decide),
    of_confined (by decide), trivial⟩

theorem alnum_plus_uses : (plus alnum).Uses (isLDH · = true) :=
  ⟨of_confined (by decide), of_confined (by decide)⟩

theorem alnum_le_ends : (plus alnum).language ≤ ends (Char.isAlphanum · = true) :=
  mul_kstar_le_ends (language_one_le_ends (of_confined (by decide)))

theorem alnum_le_starts : (plus alnum).language ≤ starts (Char.isAlphanum · = true) :=
  (mul_le_mul_left (language_one_le_starts (of_confined (by decide))) _).trans (starts_mul _ _)

theorem xn_le_starts : xn.language ≤ starts (Char.isAlphanum · = true) :=
  (mul_le_mul_left (language_one_le_starts (of_confined (by decide))) _).trans (starts_mul _ _)

/-- Hyphens and what stands after them leave a letter or a digit at the end. -/
theorem mul_hyphenated_le_ends {l : Language Char} (h : l ≤ ends (Char.isAlphanum · = true)) :
    l * hyphenated.language ≤ ends (Char.isAlphanum · = true) := by
  refine mul_kstar_le h ?_
  refine (mul_le_mul_right ?_ _).trans (mul_ends _ _)
  exact (mul_le_mul_right alnum_le_ends _).trans (mul_ends _ _)

theorem label_le_labels : label.language ≤ labels := by
  intro l hl
  refine mem_labels ?_ ?_ ?_
  · exact language_le_wordsOver (r := label)
      ⟨⟨xn_uses, trivial⟩, alnum_plus_uses, hyphenated_uses, trivial⟩ hl
  · have hle : label.language ≤ starts (Char.isAlphanum · = true) := by
      rw [label, language_seqs_cons, language_seqs_cons, language_opt, add_mul, one_mul]
      refine add_le ?_ ?_
      · exact (mul_le_mul_left xn_le_starts _).trans (starts_mul _ _)
      · exact (mul_le_mul_left alnum_le_starts _).trans (starts_mul _ _)
    exact hle hl
  · have hle : label.language ≤ ends (Char.isAlphanum · = true) := by
      rw [label, language_seqs_cons, language_seqs_cons, language_seqs_cons, language_seqs_nil,
        mul_one]
      exact (mul_le_mul_right (mul_hyphenated_le_ends alnum_le_ends) _).trans (mul_ends _ _)
    exact hle hl

theorem topLabel_le_labels : topLabel.language ≤ labels := by
  intro l hl
  refine mem_labels ?_ ?_ ?_
  · exact language_le_wordsOver (r := topLabel)
      ⟨⟨⟨of_confined (by decide), of_confined (by decide)⟩, xn_uses, alnum_plus_uses⟩,
        hyphenated_uses⟩ hl
  · have hle : topLabel.language ≤ starts (Char.isAlphanum · = true) := by
      refine (mul_le_mul_left (add_le ?_ ?_) _).trans (starts_mul _ _)
      · exact (mul_le_mul_left (language_one_le_starts (of_confined (by decide))) _).trans
          (starts_mul _ _)
      · exact (mul_le_mul_left xn_le_starts _).trans (starts_mul _ _)
    exact hle hl
  · have hle : topLabel.language ≤ ends (Char.isAlphanum · = true) := by
      refine mul_hyphenated_le_ends (add_le ?_ ?_)
      · exact mul_kstar_le (language_one_le_ends (of_confined (by decide)))
          ((mul_le_mul_right (language_one_le_ends (of_confined (by decide))) _).trans
            (mul_ends _ _))
      · exact (mul_le_mul_right alnum_le_ends _).trans (mul_ends _ _)
    exact hle hl

theorem host_le_hostnames : host.language ≤ hostnames := by
  have hfront : (seq label (lit '.')).language * hostnames ≤ hostnames :=
    (mul_le_mul_left (mul_le_mul_left label_le_labels _) _).trans labels_dot_mul_hostnames
  have hrepeat : (between (seq label (lit '.')) 1 125).language * hostnames ≤ hostnames :=
    (mul_le_mul_left (language_between_le _ 1 125) _).trans (kstar_mul_le_self hfront)
  have hplus : (plus (between (seq label (lit '.')) 1 125)).language * hostnames ≤ hostnames := by
    rw [language_plus, mul_assoc]
    exact (mul_le_mul_right (kstar_mul_le_self hrepeat) _).trans hrepeat
  exact (mul_le_mul_right (topLabel_le_labels.trans labels_le_hostnames) _).trans hplus

theorem isPlain_of_isLDH {c : Char} (h : isLDH c = true) : isPlain c = true := by
  have hlt : c.toNat < 128 := by
    simp only [isLDH, Bool.or_eq_true, beq_iff_eq] at h
    rcases h with h | rfl
    · unfold Char.isAlphanum Char.isAlpha Char.isUpper Char.isLower Char.isDigit at h
      simp only [Bool.or_eq_true, Bool.and_eq_true, decide_eq_true_iff, ge_iff_le,
        UInt32.le_iff_toNat_le] at h
      have hZ : 'Z'.val.toNat = 90 := rfl
      have hz : 'z'.val.toNat = 122 := rfl
      have h9 : '9'.val.toNat = 57 := rfl
      have hc : c.toNat = c.val.toNat := rfl
      omega
    · decide
  have hall : ∀ n, n < 128 → isLDH (Char.ofNat n) = true → isPlain (Char.ofNat n) = true := by
    decide +kernel
  have hc := hall c.toNat hlt
  rw [Char.ofNat_toNat] at hc
  exact hc h

/-- A character other than the separator is in some part. -/
theorem exists_mem_splitOn {c sep : Char} (hne : c ≠ sep) : ∀ {s : Text}, c ∈ s →
    ∃ l ∈ s.splitOn sep, c ∈ l := by
  intro s
  induction s with
  | nil =>
      intro h
      exact absurd h List.not_mem_nil
  | cons a s ih =>
      intro h
      rw [List.splitOn_cons_eq_if_modifyHead]
      obtain ⟨k, ks, hsplit⟩ := List.exists_cons_of_ne_nil (List.splitOn_ne_nil sep s)
      rw [hsplit] at ih ⊢
      rcases List.mem_cons.mp h with rfl | h
      · rw [if_neg (by simpa using hne)]
        exact ⟨c :: k, List.mem_cons_self, List.mem_cons_self⟩
      · obtain ⟨l, hl, hcl⟩ := ih h
        split
        · exact ⟨l, List.mem_cons_of_mem _ hl, hcl⟩
        · rcases List.mem_cons.mp hl with rfl | hl
          · exact ⟨a :: l, List.mem_cons_self, List.mem_cons_of_mem _ hcl⟩
          · exact ⟨l, List.mem_cons_of_mem _ hl, hcl⟩

theorem isPlain_of_hostname {domain : Text} (h : Hostname domain) {c : Char} (hc : c ∈ domain) :
    isPlain c = true := by
  by_cases hdot : c = '.'
  · subst hdot
    decide
  · obtain ⟨l, hl, hcl⟩ := exists_mem_splitOn hdot hc
    have hlabel := h l hl
    simp only [isLabel, Bool.and_eq_true, List.all_eq_true] at hlabel
    exact isPlain_of_isLDH (hlabel.1.1 c hcl)

/-- The classes of a group of digits. -/
theorem hexGroups_uses (n : Nat) : (hexGroups n).Uses (isPlain · = true) := by
  have hdigit : hexDigit.Uses (isPlain · = true) := of_confined (by decide)
  have hgroup : hexGroup.Uses (isPlain · = true) := ⟨hdigit.times 1, hdigit.upTo 3⟩
  have hnext : (seq (lit ':') hexGroup).Uses (isPlain · = true) := ⟨of_confined (by decide), hgroup⟩
  exact ⟨hgroup, hnext.upTo n⟩

theorem ipv6Tag_uses : ipv6Tag.Uses (isPlain · = true) :=
  ⟨of_confined (by decide), of_confined (by decide), of_confined (by decide),
    of_confined (by decide), of_confined (by decide), trivial⟩

theorem ipv6_uses : ipv6.Uses (isPlain · = true) := by
  have hcolon : (lit ':').Uses (isPlain · = true) := of_confined (by decide)
  have hgroup : hexGroup.Uses (isPlain · = true) := (hexGroups_uses 0).1
  have hnext : (seq (lit ':') hexGroup).Uses (isPlain · = true) := ⟨hcolon, hgroup⟩
  refine ⟨ipv6Tag_uses, ⟨hgroup, hnext.times 7⟩, trivial, ?_⟩
  exact ⟨⟨hexGroups_uses 5, trivial⟩, hcolon, hcolon, ⟨hexGroups_uses 5, trivial⟩, trivial⟩

theorem ipv6Front_uses : ipv6Front.Uses (isPlain · = true) := by
  have hcolon : (lit ':').Uses (isPlain · = true) := of_confined (by decide)
  have hgroup : hexGroup.Uses (isPlain · = true) := (hexGroups_uses 0).1
  have hnext : (seq (lit ':') hexGroup).Uses (isPlain · = true) := ⟨hcolon, hgroup⟩
  refine ⟨ipv6Tag_uses, ⟨hgroup, hnext.times 5, hcolon, trivial⟩, trivial, ?_⟩
  exact ⟨⟨hexGroups_uses 3, trivial⟩, hcolon, hcolon, ⟨⟨hexGroups_uses 3, hcolon⟩, trivial⟩,
    trivial⟩

theorem octet_uses : octet.Uses (isPlain · = true) := by
  have hdigit : digit.Uses (isPlain · = true) := of_confined (by decide)
  refine ⟨⟨of_confined (by decide), of_confined (by decide), of_confined (by decide), trivial⟩,
    ⟨of_confined (by decide), of_confined (by decide), hdigit, trivial⟩,
    ⟨of_confined (by decide), hdigit, hdigit, trivial⟩, ?_⟩
  exact ⟨⟨of_confined (by decide), trivial⟩, hdigit⟩

theorem literal_uses : literal.Uses (isPlain · = true) := by
  have hnext : (seq (lit '.') octet).Uses (isPlain · = true) :=
    ⟨of_confined (by decide), octet_uses⟩
  refine ⟨of_confined (by decide), ⟨ipv6_uses, ?_⟩, of_confined (by decide), trivial⟩
  exact ⟨⟨ipv6Front_uses, trivial⟩, octet_uses, hnext.times 3, trivial⟩

theorem literal_le_starts : literal.language ≤ starts (· = '[') := by
  have hfirst : (lit '[').language ≤ starts (· = '[') :=
    language_one_le_starts fun c hc =>
      beq_iff_eq.mp (of_confined (p := (· == '[')) (by decide) c hc)
  exact (mul_le_mul_left hfirst _).trans (starts_mul _ _)

/-- A domain is a host name or a literal. -/
theorem domain_cases {domain : Text} (h : domainPart.Run domain []) :
    Hostname domain ∨ domain ∈ literal.language := by
  rcases h with ⟨t, ⟨rfl, -⟩, hhost⟩ | hliteral
  · obtain ⟨w, hw, hs⟩ := exists_mem_language hhost
    rw [List.append_nil] at hs
    exact Or.inl (host_le_hostnames (hs ▸ hw))
  · obtain ⟨w, hw, hs⟩ := exists_mem_language hliteral
    rw [List.append_nil] at hs
    exact Or.inr (hs ▸ hw)

theorem isPlain_of_domainPart {domain : Text} (h : domainPart.Run domain []) :
    ∀ c ∈ domain, isPlain c = true := by
  rcases domain_cases h with hhost | hliteral
  · exact fun c hc => isPlain_of_hostname hhost hc
  · exact language_le_wordsOver literal_uses hliteral

/-! ## How the filter reads an address -/

/-- The text in front of the last `@`. -/
def localOf (email : Text) : Text := (email.rdropWhile (· != '@')).dropLast

/-- The text after the last `@`. -/
def domainOf (email : Text) : Text := email.rtakeWhile (· != '@')

section Reading
variable {e l d : Text}

theorem exists_reads (h : validateEmail e = true) : ∃ l d, Reads e l d := by
  rw [validateEmail, Bool.and_eq_true] at h
  obtain ⟨s, ⟨rfl, -⟩, t, ⟨rfl, -⟩, rest, hlocal, d, ⟨c, hc, hrest⟩, u, hdomain, rfl⟩ :=
    test_iff.mp h.2
  have hat : c = '@' := beq_iff_eq.mp (of_confined (p := (· == '@')) (by decide) c hc)
  subst hat
  subst hrest
  obtain ⟨l, -, hsplit⟩ := exists_mem_language hlocal
  exact ⟨l, d, hsplit, hlocal, hdomain⟩

namespace Reads

theorem local_mem (h : Reads e l d) : l ∈ localPart.language := by
  obtain ⟨w, hw, hs⟩ := exists_mem_language h.localRun
  have hwl : w = l := List.append_cancel_right (hs.symm.trans h.split)
  exact hwl ▸ hw

theorem domain_plain (h : Reads e l d) : ∀ c ∈ d, isPlain c = true :=
  isPlain_of_domainPart h.domainRun

/-- The filter splits an address at the last `@`. -/
theorem at_not_mem (h : Reads e l d) : '@' ∉ d := fun hat =>
  absurd (h.domain_plain '@' hat) (by decide)

theorem domainOf_eq (h : Reads e l d) : domainOf e = d := by
  have hall : ∀ c ∈ d, (c != '@') = true := by
    intro c hc
    rw [bne_iff_ne]
    rintro rfl
    exact h.at_not_mem hc
  rw [domainOf, h.split, List.rtakeWhile, List.reverse_append, List.reverse_cons, List.append_assoc,
    List.takeWhile_append_of_pos fun c hc => hall c (List.mem_reverse.mp hc)]
  simp

theorem localOf_eq (h : Reads e l d) : localOf e = l := by
  have hall : ∀ c ∈ d, (c != '@') = true := by
    intro c hc
    rw [bne_iff_ne]
    rintro rfl
    exact h.at_not_mem hc
  rw [localOf, h.split, List.rdropWhile, List.reverse_append, List.reverse_cons, List.append_assoc,
    List.dropWhile_append_of_pos fun c hc => hall c (List.mem_reverse.mp hc)]
  simp

theorem domain_ne_nil (h : Reads e l d) : d ≠ [] := by
  rintro rfl
  rcases domain_cases h.domainRun with hhost | hliteral
  · exact absurd (hhost [] (List.mem_singleton.mpr rfl)) (by decide)
  · obtain ⟨c, hc, -⟩ := literal_le_starts hliteral
    cases hc

theorem ascii (h : Reads e l d) : ∀ c ∈ e, isAscii c = true := by
  intro c hc
  rw [h.split] at hc
  rcases List.mem_append.mp hc with hc | hc
  · exact localPart_le_ascii h.local_mem c hc
  · rcases List.mem_cons.mp hc with rfl | hc
    · decide
    · exact isAscii_of_isPlain (h.domain_plain c hc)

end Reads

/-- No character of a word's ends is white space. -/
theorem isSpace_of_isOuter {c : Char} (h : isOuter c = true) : isSpace c = false := by
  rcases Bool.or_eq_true _ _ |>.mp h with h | h
  · exact isSpace_of_isPlain h
  · rw [beq_iff_eq.mp h]
    decide

namespace Reads

/-- There is no white space around the local part. -/
theorem trimSpace_local (h : Reads e l d) : trimSpace l = l := by
  obtain ⟨a, ha, houter⟩ := localPart_le_starts h.local_mem
  obtain ⟨b, hb, houter'⟩ := localPart_le_ends h.local_mem
  refine trimBy_eq_self_iff.mpr ⟨fun c hc => ?_, fun c hc => ?_⟩
  · rw [Option.mem_unique hc ha]
    exact isSpace_of_isOuter houter
  · rw [Option.mem_unique hc hb]
    exact isSpace_of_isOuter houter'

theorem local_ne_nil (h : Reads e l d) : l ≠ [] := by
  rintro rfl
  obtain ⟨a, ha, -⟩ := localPart_le_starts h.local_mem
  cases ha

/-- There is no white space in the domain. -/
theorem trimSpace_domain (h : Reads e l d) : trimSpace d = d :=
  trimBy_eq_self_iff.mpr
    ⟨fun c hc => isSpace_of_isPlain (h.domain_plain c (List.mem_of_mem_head? hc)),
      fun c hc => isSpace_of_isPlain (h.domain_plain c (List.mem_of_mem_getLast? hc))⟩

theorem trimSpace_eq (h : Reads e l d) : trimSpace e = e := by
  have hlocal := trimBy_eq_self_iff.mp h.trimSpace_local
  have hdomain := trimBy_eq_self_iff.mp h.trimSpace_domain
  refine trimBy_eq_self_iff.mpr ⟨fun c hc => hlocal.1 c ?_, fun c hc => hdomain.2 c ?_⟩
  · rw [h.split] at hc
    rwa [List.head?_append_of_ne_nil _ h.local_ne_nil] at hc
  · rw [h.split, List.getLast?_append_of_ne_nil _ (List.cons_ne_nil _ _)] at hc
    rwa [List.getLast?_cons_of_ne_nil h.domain_ne_nil] at hc

/-- Outside quotes there are no separators. -/
theorem no_separator (h : Reads e l d) : ∀ c ∈ before '"' e, c ≠ ',' ∧ c ≠ ';' := by
  have hplain : ∀ c, (isPlain c || c == '@') = true → c ≠ ',' ∧ c ≠ ';' := by
    intro c hc
    constructor
    · rintro rfl
      exact absurd hc (by decide)
    · rintro rfl
      exact absurd hc (by decide)
  have hlocal : l ∈ bare fun c => (isPlain c || c == '@') = true :=
    fun c hc => (Bool.or_eq_true _ _).mpr (Or.inl (localPart_le_bare h.local_mem c hc))
  have hdomain : '@' :: d ∈ bare fun c => (isPlain c || c == '@') = true := by
    refine wordsOver_le_bare _ fun c hc => ?_
    rcases List.mem_cons.mp hc with rfl | hc
    · rfl
    · rw [h.domain_plain c hc]
      rfl
  intro c hc
  rw [h.split] at hc
  exact hplain c (bare_mul_bare _ (Language.append_mem_mul hlocal hdomain) c hc)

end Reads

end Reading

/-- The filter keeps its promises. -/
theorem lawful (sha1 : Text → Text) : (php sha1).Lawful where
  at_mem e h := by
    obtain ⟨l, d, hreads⟩ := exists_reads h
    rw [hreads.split]
    exact List.mem_append_right _ List.mem_cons_self
  trimSpace e h := by
    obtain ⟨l, d, hreads⟩ := exists_reads h
    exact hreads.trimSpace_eq
  no_separator e h := by
    obtain ⟨l, d, hreads⟩ := exists_reads h
    exact hreads.no_separator

end ValidEmailVerifier.FilterVar
