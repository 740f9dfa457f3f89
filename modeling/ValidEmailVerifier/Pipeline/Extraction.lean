/-
# `Pipeline.Extraction` — the candidates of a line of an upload

`extractEmailsFromLine` takes the first column of a CSV line when there is an `@` in it,
and every match of a pattern in the line.  The pattern knows fewer characters than the
filter that judges the candidates, and it does not know columns: around an `@` it takes
what its own alphabet allows (`matchAll_emailPattern`, over `fragments`).  So a line with
one address gives that address and no other exactly when no fragment of the line passes
the filter as something else, and the address is in the first column or is a fragment
itself (`Exact`).
-/
import ValidEmailVerifier.Lib.Patterns
import ValidEmailVerifier.Pipeline.CsvRows

namespace ValidEmailVerifier.ParseAndChunkJob

open Text Patterns

/-! ## Candidates -/

/-- `[A-Z0-9._%+\-]`, in either case. -/
def isLocal (c : Char) : Bool :=
  c.isAlphanum || c == '.' || c == '_' || c == '%' || c == '+' || c == '-'

/-- `[A-Z0-9.\-]`, in either case. -/
def isDomain (c : Char) : Bool := c.isAlphanum || c == '.' || c == '-'

/-- `[A-Z0-9.\-]+\.[A-Z]{2,}`. -/
def domainPattern : List (Piece Char) :=
  [.many isDomain, .one (· == '.'), .one Char.isAlpha, .many Char.isAlpha]

/-- `/[A-Z0-9._%+\-]+@[A-Z0-9.\-]+\.[A-Z]{2,}/i`. -/
def emailPattern : List (Piece Char) := lead isLocal '@' domainPattern

/-- `looksLikeEmail`. -/
def looksLikeEmail (value : Text) : Bool := value != [] && value.contains '@'

/-- `extractEmailsFromLine`. -/
def extractEmailsFromLine (line : Text) (isCsv : Bool) : List Text :=
  let first := trim ((strGetcsv line)[0]?.getD [])
  let emails := if isCsv && looksLikeEmail first then [first] else []
  (emails ++ matchAll emailPattern line).eraseDups

/-! ## Fragments -/

/-- A domain as the pattern knows it: in its alphabet, with something before the last dot
and at least two letters behind it. -/
def isDomainName (d : Text) : Bool :=
  let tld := d.rtakeWhile (· != '.')
  d.all isDomain && tld.all Char.isAlpha && 2 ≤ tld.length && tld.length + 2 ≤ d.length

/-- The fragments around the `@`s of a text, given what stands before each: the longest
run before the `@` and the longest domain behind it, which the next fragment does not
reach into. -/
def fragmentsFrom (before : Text) : List Text → List Text
  | [] => []
  | s :: rest =>
      match longestPrefix isDomainName s with
      | some d =>
          if before.rtakeWhile isLocal = [] then fragmentsFrom s rest
          else (before.rtakeWhile isLocal ++ '@' :: d) :: fragmentsFrom (s.drop d.length) rest
      | none => fragmentsFrom s rest

/-- The fragments of a line. -/
def fragments (line : Text) : List Text :=
  match line.splitOn '@' with
  | [] => []
  | s :: rest => fragmentsFrom s rest

theorem matches_domainPattern {d : Text} :
    Matches domainPattern d ↔ ∃ name tld, d = name ++ '.' :: tld ∧ name ≠ [] ∧
      (∀ c ∈ name, isDomain c = true) ∧ 2 ≤ tld.length ∧ ∀ c ∈ tld, c.isAlpha = true := by
  rw [domainPattern, matches_many]
  constructor
  · rintro ⟨name, rest, rfl, hne, hname, hrest⟩
    obtain ⟨dot, rest, rfl, hdot, hrest⟩ := matches_one.mp hrest
    obtain ⟨c, rest, rfl, hc, hrest⟩ := matches_one.mp hrest
    obtain ⟨letters, rest, rfl, hletters, htld, hrest⟩ := matches_many.mp hrest
    cases hrest
    obtain rfl := beq_iff_eq.mp hdot
    rw [List.append_nil]
    refine ⟨name, c :: letters, rfl, hne, hname, ?_, List.forall_mem_cons.mpr ⟨hc, htld⟩⟩
    exact Nat.succ_le_succ (List.length_pos_iff.mpr hletters)
  · rintro ⟨name, tld, rfl, hne, hname, hlength, htld⟩
    refine ⟨name, '.' :: tld, rfl, hne, hname, .one rfl ?_⟩
    match tld with
    | c :: b :: letters =>
      obtain ⟨hc, hletters⟩ := List.forall_mem_cons.mp htld
      refine .one hc (matches_many.mpr ⟨b :: letters, [], ?_, List.cons_ne_nil _ _, hletters, .nil⟩)
      rw [List.append_nil]

theorem isDomainName_iff {d : Text} : isDomainName d = true ↔ Matches domainPattern d := by
  rw [matches_domainPattern]
  constructor
  · intro h
    simp only [isDomainName, Bool.and_eq_true, List.all_eq_true, decide_eq_true_eq] at h
    obtain ⟨⟨⟨hall, htld⟩, htwo⟩, hlength⟩ := h
    have hsplit := List.rdropWhile_append_rtakeWhile (p := (· != '.')) (l := d)
    have hne : d.rdropWhile (· != '.') ≠ [] := by
      intro hnil
      rw [hnil, List.nil_append] at hsplit
      rw [hsplit] at hlength
      omega
    have hdot : (d.rdropWhile (· != '.')).getLast hne = '.' := by
      simpa using List.rdropWhile_last_not (· != '.') d hne
    have hlast := List.dropLast_append_getLast hne
    rw [hdot] at hlast
    rw [← hlast, List.append_assoc, List.singleton_append] at hsplit
    refine ⟨_, _, hsplit.symm, ?_, ?_, htwo, htld⟩
    · intro hnil
      rw [hnil, List.nil_append] at hsplit
      have hshort := congrArg List.length hsplit
      rw [List.length_cons] at hshort
      omega
    · intro c hc
      exact hall c (hsplit ▸ List.mem_append_left _ hc)
  · rintro ⟨name, tld, rfl, hne, hname, hlength, htld⟩
    have hdot : '.' ∉ tld := fun h => absurd (htld _ h) (by decide)
    have htake : (name ++ '.' :: tld).rtakeWhile (· != '.') = tld := by
      rw [List.rtakeWhile, List.reverse_append, List.reverse_cons, List.append_assoc,
        List.takeWhile_append_of_pos]
      · simp
      · intro c hc
        exact bne_iff_ne.mpr fun h => hdot (h ▸ List.mem_reverse.mp hc)
    have hnamelen := List.length_pos_iff.mpr hne
    simp only [isDomainName, htake, Bool.and_eq_true, List.all_eq_true, decide_eq_true_eq]
    refine ⟨⟨⟨?_, htld⟩, hlength⟩, ?_⟩
    · intro c hc
      rcases List.mem_append.mp hc with hc | hc
      · exact hname c hc
      · rcases List.mem_cons.mp hc with rfl | hc
        · rfl
        · simp [isDomain, Char.isAlphanum, htld c hc]
    · rw [List.length_append, List.length_cons]
      omega

/-- The pattern takes the longest domain. -/
theorem longest_domainPattern : Longest domainPattern := by
  refine ((Longest.nil.many ?_).one.one).many ?_
  · intro m t hm ht hpre
    cases ht
    rw [List.prefix_nil.mp hpre] at hm
    exact nomatch hm
  · intro m t hm ht hpre
    -- the dot of the longer one would be a letter of the shorter one
    obtain ⟨name, tld, rfl, hne, -⟩ := matches_domainPattern.mp hm
    obtain ⟨dot, rest, rfl, -, hrest⟩ := matches_one.mp ht
    obtain ⟨c, rest, rfl, hc, hrest⟩ := matches_one.mp hrest
    obtain ⟨letters, rest, rfl, -, hletters, hrest⟩ := matches_many.mp hrest
    cases hrest
    obtain ⟨b, name, rfl⟩ := List.exists_cons_of_ne_nil hne
    have hmem : '.' ∈ c :: (letters ++ []) :=
      (List.cons_prefix_cons.mp hpre).2.subset (by simp)
    rcases List.mem_cons.mp hmem with rfl | hmem
    · exact absurd hc (by decide)
    · rw [List.append_nil] at hmem
      exact absurd (hletters _ hmem) (by decide)

theorem longest_emailPattern : Longest emailPattern := by
  refine longest_domainPattern.one.many ?_
  intro m t hm ht hpre
  -- the mark at the beginning of the shorter one would be of the run of the longer one
  obtain ⟨run, rest, rfl, hne, hrun, -⟩ := matches_many.mp hm
  obtain ⟨mark, domain, rfl, hmark, -⟩ := matches_one.mp ht
  obtain ⟨c, run, rfl⟩ := List.exists_cons_of_ne_nil hne
  rw [List.cons_append, List.cons_prefix_cons, beq_iff_eq.mp hmark] at hpre
  exact absurd (hrun c (.head _)) (hpre.1 ▸ by decide)

theorem matchAt_domainPattern {s : Text} :
    matchAt domainPattern s = longestPrefix isDomainName s :=
  longest_domainPattern.matchAt_eq fun _ => isDomainName_iff

theorem domainPattern_rejects : ∀ piece ∈ domainPattern, piece.accepts '@' = false := by
  intro piece hpiece
  simp only [domainPattern, List.mem_cons, List.not_mem_nil, or_false] at hpiece
  rcases hpiece with rfl | rfl | rfl | rfl <;> decide

/-- Each `@` cuts the text for the domains. -/
theorem matchAt_domainPattern_append {s : Text} {rest : List Text} :
    matchAt domainPattern (s ++ rest.flatMap ('@' :: ·)) = longestPrefix isDomainName s := by
  rw [← matchAt_domainPattern]
  cases rest with
  | nil => simp
  | cons t rest =>
    rw [List.flatMap_cons, List.cons_append]
    exact matchAt_append domainPattern_rejects

theorem matchAll_segments {before : Text} {rest : List Text} (hbefore : '@' ∉ before)
    (hrest : ∀ s ∈ rest, '@' ∉ s) :
    matchAll emailPattern (before ++ rest.flatMap ('@' :: ·)) = fragmentsFrom before rest := by
  induction rest generalizing before with
  | nil =>
    rw [List.flatMap_nil, List.append_nil]
    exact matchAll_lead_of_notMem hbefore
  | cons s rest ih =>
    obtain ⟨hs, hrest⟩ := List.forall_mem_cons.mp hrest
    rw [List.flatMap_cons, List.cons_append, emailPattern, matchAll_lead (by decide) hbefore,
      matchAt_domainPattern_append, fragmentsFrom, ← emailPattern]
    cases hd : longestPrefix isDomainName s with
    | none => exact ih hs hrest
    | some d =>
      have hle : d.length ≤ s.length := (longestPrefix_eq_some hd).1.length_le
      have hdrop : '@' ∉ s.drop d.length := fun h => hs (List.mem_of_mem_drop h)
      dsimp only
      rw [ih hs hrest, List.drop_append_of_le_length hle, ih hdrop hrest]

/-- **The matches of the pattern are the fragments of the line.** -/
theorem matchAll_emailPattern (line : Text) : matchAll emailPattern line = fragments line := by
  obtain ⟨s, rest, hsplit, hline, hs, hrest⟩ := splitOn_eq_cons '@' line
  rw [fragments, hsplit]
  conv_lhs => rw [hline]
  exact matchAll_segments hs hrest

/-! ## What becomes of a fragment -/

section Fragments

variable {php : Php} {line f : Text}

theorem trimBy_eq_self_of_forall {p : Char → Bool} {s : Text} (h : ∀ c ∈ s, p c = false) :
    trimBy p s = s :=
  trimBy_eq_self_iff.mpr
    ⟨fun c hc => h c (List.mem_of_head? hc), fun c hc => h c (List.mem_of_getLast? hc)⟩

/-- No delimiter comes from lowering. -/
theorem not_upper_of_isDelimiter {c : Char} (hc : isDelimiter c = true) :
    ¬ 'Z'.val < c.val := by
  simp only [isDelimiter, isBlank, Bool.or_eq_true, beq_iff_eq, or_assoc] at hc
  rcases hc with rfl | rfl | rfl | rfl | rfl | rfl | rfl | rfl | rfl | rfl <;> decide

theorem isDelimiter_toLower (c : Char) : isDelimiter c.toLower = isDelimiter c := by
  by_cases hsame : c.toLower = c
  · rw [hsame]
  · have hlower : isDelimiter c.toLower = false := by
      rw [Bool.eq_false_iff]
      exact fun h => not_upper_of_isDelimiter h ((toLower_cases c).resolve_left hsame)
    rw [hlower, eq_comm, Bool.eq_false_iff]
    intro h
    refine hsame ?_
    simp only [isDelimiter, isBlank, Bool.or_eq_true, beq_iff_eq, or_assoc] at h
    rcases h with rfl | rfl | rfl | rfl | rfl | rfl | rfl | rfl | rfl | rfl <;> rfl

theorem isDelimiter_of_isBlank {c : Char} (h : isBlank c = true) : isDelimiter c = true := by
  simp [isDelimiter, h]

theorem emailPattern_rejects {c : Char} (hc : isDelimiter c = true) :
    ∀ piece ∈ emailPattern, piece.accepts c = false := by
  intro piece hpiece
  simp only [emailPattern, lead, domainPattern, List.mem_cons, List.not_mem_nil,
    or_false] at hpiece
  simp only [isDelimiter, isBlank, Bool.or_eq_true, beq_iff_eq, or_assoc] at hc
  rcases hc with rfl | rfl | rfl | rfl | rfl | rfl | rfl | rfl | rfl | rfl <;>
    rcases hpiece with rfl | rfl | rfl | rfl | rfl | rfl <;> rfl

/-- A fragment has no delimiter in it. -/
theorem not_delimiter_of_fragment (hf : f ∈ fragments line) : ∀ c ∈ f, isDelimiter c = false := by
  rw [← matchAll_emailPattern] at hf
  intro c hc
  obtain ⟨piece, hpiece, haccepts⟩ := (matches_of_mem_matchAll hf).accepts c hc
  rw [Bool.eq_false_iff]
  intro hdelimiter
  exact nomatch (emailPattern_rejects hdelimiter piece hpiece).symm.trans haccepts

/-- So `normalizeEmail` only lowers it. -/
theorem normalizeEmail_fragment (hf : f ∈ fragments line) :
    normalizeEmail php f =
      if php.filterVarEmail (strtolower f) then some (strtolower f) else none := by
  have hplain := not_delimiter_of_fragment hf
  have hne : f ≠ [] := by
    rintro rfl
    rw [← matchAll_emailPattern] at hf
    cases matches_of_mem_matchAll hf
  have htrim : trim f = f := trimBy_eq_self_of_forall fun c hc => by
    have hc := hplain c hc
    simp only [isDelimiter, Bool.or_eq_false_iff] at hc
    exact hc.1.1.1.1
  have hlower : trimBy isDelimiter (strtolower f) = strtolower f := by
    refine trimBy_eq_self_of_forall fun c hc => ?_
    rw [Bool.eq_false_iff]
    intro hdelimiter
    have hmem : c ∈ f := mem_of_mem_strtolower (not_upper_of_isDelimiter hdelimiter) hc
    cases (hplain c hmem).symm.trans hdelimiter
  rw [normalizeEmail, htrim, if_neg hne]
  simp only [hlower]

end Fragments

/-! ## One address in a line -/

/-- A CSV line with one address: `normalizeEmail` makes `a` of column `i`, and no other
column has an `@`. -/
structure HoldsAddress (php : Php) (line : Text) (i : Nat) (a : Text) : Prop where
  column : ∃ value, (strGetcsv line)[i]? = some value ∧ normalizeEmail php value = some a
  others : ∀ j value, (strGetcsv line)[j]? = some value → j ≠ i → '@' ∉ value

/-- The fragments of the line lead to `a` and to nothing else. -/
structure Exact (php : Php) (line : Text) (i : Nat) (a : Text) : Prop where
  only : ∀ f ∈ fragments line, php.filterVarEmail (strtolower f) = true → strtolower f = a
  found : i = 0 ∨ ∃ f ∈ fragments line, strtolower f = a

theorem foldl_remember_of_seen {l seen : List Text} (h : ∀ b ∈ l, b ∈ seen) :
    l.foldl remember seen = seen := by
  induction l with
  | nil => rfl
  | cons b l ih =>
    obtain ⟨hb, hl⟩ := List.forall_mem_cons.mp h
    rw [List.foldl_cons, remember, if_pos hb]
    exact ih hl

theorem foldl_remember_eq_singleton {l : List Text} {a : Text} :
    l.foldl remember [] = [a] ↔ a ∈ l ∧ ∀ b ∈ l, b = a := by
  constructor
  · intro h
    have hmem : ∀ b, b ∈ l ↔ b = a := by
      intro b
      have hb := @mem_foldl_remember l [] b
      rw [h, List.mem_singleton] at hb
      simpa using hb.symm
    exact ⟨(hmem a).mpr rfl, fun b hb => (hmem b).mp hb⟩
  · rintro ⟨ha, hall⟩
    cases l with
    | nil => exact nomatch ha
    | cons b l =>
      obtain ⟨rfl, hall⟩ := List.forall_mem_cons.mp hall
      have hseen : ∀ c ∈ l, c ∈ [b] := fun c hc => List.mem_singleton.mpr (hall c hc)
      exact foldl_remember_of_seen hseen

theorem accepted_eq_singleton {php : Php} {emails : List Text} {a : Text} :
    accepted php (emails.map .candidate) = [a] ↔
      (∃ email ∈ emails, normalizeEmail php email = some a) ∧
        ∀ email ∈ emails, ∀ b ∈ normalizeEmail php email, b = a := by
  have hfeeds : (emails.map Feed.candidate).filterMap (feedEmail php) =
      emails.filterMap (normalizeEmail php) := by
    rw [List.filterMap_map]
    rfl
  rw [accepted, hfeeds, foldl_remember_eq_singleton]
  simp only [List.mem_filterMap]
  exact and_congr Iff.rfl ⟨fun h email hemail b hb => h b ⟨email, hemail, hb⟩,
    fun h b ⟨email, hemail, hb⟩ => h email hemail b hb⟩

theorem mem_extractEmailsFromLine {line email : Text} :
    email ∈ extractEmailsFromLine line true ↔
      looksLikeEmail (trim ((strGetcsv line)[0]?.getD [])) = true ∧
          email = trim ((strGetcsv line)[0]?.getD []) ∨
        email ∈ fragments line := by
  rw [extractEmailsFromLine, List.mem_eraseDups, List.mem_append, matchAll_emailPattern,
    Bool.true_and]
  refine or_congr_left ?_
  split
  · next h => simp [h]
  · next h => simp [h]

section Line

variable {php : Php} {line : Text} {i : Nat} {a : Text}

/-- The `@` of an address is in the raw text. -/
theorem at_mem_of_normalizeEmail (hphp : php.Lawful) {raw : Text}
    (h : normalizeEmail php raw = some a) : '@' ∈ raw := by
  have hmem := hphp.at_mem a (clean_of_normalizeEmail h).valid
  rw [normalizeEmail] at h
  split at h
  · exact nomatch h
  · dsimp only at h
    split at h
    · obtain rfl := Option.some.inj h
      have hlower : '@' ∈ strtolower (trim raw) := (trimBy_sublist _ _).subset hmem
      exact (trimBy_sublist _ _).subset (mem_of_mem_strtolower (by decide) hlower)
    · exact nomatch h

/-- The first column is a candidate when the address is in it. -/
theorem looksLikeEmail_first_iff (hphp : php.Lawful) (h : HoldsAddress php line i a) :
    looksLikeEmail (trim ((strGetcsv line)[0]?.getD [])) = true ↔ i = 0 := by
  have hlooks : ∀ value, looksLikeEmail (trim value) = true ↔ '@' ∈ value := by
    intro value
    rw [looksLikeEmail, Bool.and_eq_true, bne_iff_ne, List.contains_iff_mem]
    constructor
    · exact fun hmem => (trimBy_sublist _ _).subset hmem.2
    · intro hmem
      have htrim : '@' ∈ trim value := RowReader.mem_trim (by decide) hmem
      exact ⟨List.ne_nil_of_mem htrim, htrim⟩
  rw [hlooks]
  constructor
  · intro hmem
    cases hzero : (strGetcsv line)[0]? with
    | none => exact nomatch (hzero ▸ hmem : '@' ∈ (none : Option Text).getD [])
    | some value =>
      rw [hzero, Option.getD_some] at hmem
      exact not_not.mp fun hi => h.others 0 value hzero (Ne.symm hi) hmem
  · rintro rfl
    obtain ⟨value, hvalue, hnormal⟩ := h.column
    rw [hvalue, Option.getD_some]
    exact at_mem_of_normalizeEmail hphp hnormal

theorem normalizeEmail_first (h : HoldsAddress php line 0 a) :
    normalizeEmail php (trim ((strGetcsv line)[0]?.getD [])) = some a := by
  obtain ⟨value, hvalue, hnormal⟩ := h.column
  rw [hvalue, Option.getD_some]
  rw [normalizeEmail] at hnormal ⊢
  rw [trim_trim]
  exact hnormal

/-- **A line with one address gives that address, once, and nothing else exactly when its
fragments lead to it and to nothing else.** -/
theorem accepted_line_iff (hphp : php.Lawful) (h : HoldsAddress php line i a) :
    accepted php ((extractEmailsFromLine line true).map .candidate) = [a] ↔
      Exact php line i a := by
  have hfirst := looksLikeEmail_first_iff hphp h
  rw [accepted_eq_singleton]
  constructor
  · rintro ⟨⟨email, hemail, hnormal⟩, hall⟩
    refine ⟨?_, ?_⟩
    · intro f hf hvalid
      refine hall f (mem_extractEmailsFromLine.mpr (.inr hf)) _ ?_
      rw [normalizeEmail_fragment hf, if_pos hvalid]
      rfl
    · rcases mem_extractEmailsFromLine.mp hemail with ⟨hlooks, -⟩ | hf
      · exact .inl (hfirst.mp hlooks)
      · refine .inr ⟨email, hf, ?_⟩
        rw [normalizeEmail_fragment hf] at hnormal
        split at hnormal
        · exact Option.some.inj hnormal
        · exact nomatch hnormal
  · intro hexact
    refine ⟨?_, ?_⟩
    · rcases hexact.found with rfl | ⟨f, hf, rfl⟩
      · exact ⟨_, mem_extractEmailsFromLine.mpr (.inl ⟨hfirst.mpr rfl, rfl⟩),
          normalizeEmail_first h⟩
      · refine ⟨f, mem_extractEmailsFromLine.mpr (.inr hf), ?_⟩
        obtain ⟨value, -, hnormal⟩ := h.column
        rw [normalizeEmail_fragment hf, if_pos (clean_of_normalizeEmail hnormal).valid]
    · intro email hemail b hb
      rcases mem_extractEmailsFromLine.mp hemail with ⟨hlooks, rfl⟩ | hf
      · obtain rfl := hfirst.mp hlooks
        rw [normalizeEmail_first h] at hb
        exact (Option.some.inj hb).symm
      · rw [normalizeEmail_fragment hf] at hb
        split at hb
        · next hvalid => exact Option.some.inj hb ▸ hexact.only email hf hvalid
        · exact nomatch hb

/-- An address in the first column with a character the pattern does not know. -/
theorem accepted_line_fails :
    ¬ ∀ (php : Php) (line : Text) (i : Nat) (a : Text), php.Lawful → HoldsAddress php line i a →
      accepted php ((extractEmailsFromLine line true).map .candidate) = [a] := by
  intro hall
  have hcolumns : strGetcsv "o'brien@example.com,Ada".toList =
      ["o'brien@example.com".toList, "Ada".toList] := by decide
  have hholds : HoldsAddress (Php.table ["o'brien@example.com".toList, "brien@example.com".toList])
      "o'brien@example.com,Ada".toList 0 "o'brien@example.com".toList := by
    refine ⟨⟨_, congrArg (·[0]?) hcolumns, by decide⟩, ?_⟩
    intro j value hvalue hj
    rw [hcolumns] at hvalue
    match j with
    | 0 => exact absurd rfl hj
    | 1 => exact Option.some.inj hvalue ▸ by decide
  exact absurd (hall _ _ _ _ (Php.table_lawful (by decide)) hholds) (by decide)

/-- An ordinary address in the second column. -/
theorem accepted_line_iff_second :
    accepted (Php.table ["user@example.com".toList])
        ((extractEmailsFromLine "Ada,User@Example.com".toList true).map .candidate) =
          ["user@example.com".toList] ↔
      Exact (Php.table ["user@example.com".toList]) "Ada,User@Example.com".toList 1
        "user@example.com".toList := by
  have hcolumns : strGetcsv "Ada,User@Example.com".toList =
      ["Ada".toList, "User@Example.com".toList] := by decide
  refine accepted_line_iff (Php.table_lawful (by decide))
    ⟨⟨_, congrArg (·[1]?) hcolumns, by decide⟩, ?_⟩
  intro j value hvalue hj
  rw [hcolumns] at hvalue
  match j with
  | 0 => exact Option.some.inj hvalue ▸ by decide
  | 1 => exact absurd rfl hj

end Line

end ValidEmailVerifier.ParseAndChunkJob
