/-
# `Engine.ParsedAddresses` — the parser of the worker and the filter of the application

An address is admitted by the application when it passes `FILTER_VALIDATE_EMAIL`, which reads it
up to its last `@`, and it is verified by a worker that splits it at the first one and has its
domain converted by a package.  The conversion is a parameter (`LookupProfile`): it takes no
characters but letters, digits and hyphens, and no label with two hyphens in its third and fourth
place that does not say `xn--`.

The two agree on an address when neither difference shows in it (`parsed_iff`): no `@` in a quoted
part, no literal, no such label, and of an internationalised domain what the package makes of it.
-/
import ValidEmailVerifier.Engine.Providers
import ValidEmailVerifier.Pipeline.AddressGrammar

namespace ValidEmailVerifier.Engine

open FilterVar GoStrings Text Worker

/-! ## The parser -/

structure ParsedEmail where
  localText : Text
  domain : Text
  deriving DecidableEq, Repr

/-- `Result{Category: CategoryInvalid, Reason: "syntax"}` -/
def syntaxResult : VerifierResult where
  category := "invalid".toList
  reason := "syntax".toList

/-- `strings.TrimSuffix(s, ".")` -/
def trimDot (s : Text) : Text := if ['.'].isSuffixOf s then s.dropLast else s

/-- `parseEmail`; an error is the result that the address is given at once. -/
def parseEmail (toASCII : Text → Option Text) (email : Text) :
    Except VerifierResult ParsedEmail :=
  let normalized := trimSpace (toLower email)
  if normalized = [] ∨ '@' ∉ normalized then .error syntaxResult
  else
    let localText := trimSpace (before '@' normalized)
    let domain := trimSpace (after '@' normalized)
    if localText = [] ∨ domain = [] then .error syntaxResult
    else
      match toASCII domain with
      | none => .error syntaxResult
      | some asciiDomain =>
          if toLower (trimDot asciiDomain) = [] then .error syntaxResult
          else .ok { localText := localText, domain := toLower (trimDot asciiDomain) }

/-! ## The package -/

/-- Hyphens in the third and fourth place. -/
def isReserved (l : Text) : Bool := l[2]? == some '-' && l[3]? == some '-'

/-- A label that stands for an internationalised one. -/
def isACE (l : Text) : Bool := "xn--".toList.isPrefixOf l

/-- `idna.Lookup.ToASCII`, of text in lower case.  Labels that stand for internationalised ones are
decoded and checked, by tables that are not part of this. -/
structure LookupProfile (toASCII : Text → Option Text) : Prop where
  /-- Of the ASCII characters only letters, digits, hyphens and dots may occur. -/
  strict : ∀ domain, ∀ c ∈ domain, isAscii c = true → isLDH c = false → c ≠ '.' →
    toASCII domain = none
  /-- The check of the hyphens. -/
  hyphens : ∀ domain, Hostname domain → strtolower domain = domain →
    (∃ l ∈ domain.splitOn '.', isReserved l = true ∧ isACE l = false) → toASCII domain = none
  /-- A domain that passes the checks and says nothing of other alphabets stays as it is. -/
  plain : ∀ domain, Hostname domain → strtolower domain = domain →
    (∀ l ∈ domain.splitOn '.', isReserved l = false) → toASCII domain = some domain
  /-- What it returns is in lower case, with no dot at the end that was not there. -/
  canonical : ∀ domain asciiDomain, Hostname domain → strtolower domain = domain →
    toASCII domain = some asciiDomain →
      toLower asciiDomain = asciiDomain ∧ ['.'].isSuffixOf asciiDomain = false

/-! ## Where they agree -/

/-- Nothing in the address is read in two ways. -/
structure Agreed (toASCII : Text → Option Text) (email : Text) : Prop where
  one_at : '@' ∉ localOf email
  not_literal : (domainOf email).head? ≠ some '['
  hyphens : ∀ l ∈ (domainOf email).splitOn '.', isReserved l = true → isACE l = true
  ace : (∃ l ∈ (domainOf email).splitOn '.', isACE l = true) →
    toASCII (domainOf email) = some (domainOf email)

theorem toLower_eq_strtolower {s : Text} (h : ∀ c ∈ s, isAscii c = true) :
    toLower s = strtolower s := by
  refine List.map_congr_left fun c hc => ?_
  have hlt : c.val.toNat < 128 := decide_eq_true_iff.mp (h c hc)
  have hkelvin : ¬ c.val = 0x212A := by
    intro heq
    rw [heq] at hlt
    exact absurd hlt (by decide)
  have hdotted : ¬ c.val = 0x0130 := by
    intro heq
    rw [heq] at hlt
    exact absurd hlt (by decide)
  rw [lowerChar, if_neg hkelvin, if_neg hdotted]

section Admitted
variable {toASCII : Text → Option Text} {e l d : Text}

/-- The parser sees an address as it is. -/
theorem normalized_eq (hreads : Reads e l d) (hlower : strtolower e = e) :
    trimSpace (toLower e) = e := by
  rw [toLower_eq_strtolower hreads.ascii, hlower, hreads.trimSpace_eq]

theorem at_mem (hreads : Reads e l d) : '@' ∈ e := by
  rw [hreads.split]
  exact List.mem_append_right _ List.mem_cons_self

/-- With an `@` in the local part the domain has one, and is not converted. -/
theorem parseEmail_quoted (lib : LookupProfile toASCII) (hreads : Reads e l d)
    (hlower : strtolower e = e) (hat : '@' ∈ l) : parseEmail toASCII e = .error syntaxResult := by
  have hafter : '@' ∈ trimSpace (after '@' e) := by
    refine KeyValues.mem_trimBy (by decide) ?_
    rw [hreads.split, KeyValues.after_append_of_mem hat]
    exact List.mem_append_right _ List.mem_cons_self
  have hnone : toASCII (trimSpace (after '@' e)) = none :=
    lib.strict _ '@' hafter (by decide) (by decide) (by decide)
  simp only [parseEmail, normalized_eq hreads hlower, hnone]
  split
  · rfl
  · split <;> rfl

/-- Otherwise the two parts are those that the filter reads. -/
theorem parseEmail_single (hreads : Reads e l d) (hlower : strtolower e = e) (hat : '@' ∉ l) :
    parseEmail toASCII e =
      match toASCII d with
      | none => .error syntaxResult
      | some asciiDomain =>
          if toLower (trimDot asciiDomain) = [] then .error syntaxResult
          else .ok { localText := l, domain := toLower (trimDot asciiDomain) } := by
  have hbefore : trimSpace (before '@' e) = l := by
    rw [hreads.split, KeyValues.before_append hat, hreads.trimSpace_local]
  have hafter : trimSpace (after '@' e) = d := by
    rw [hreads.split, KeyValues.after_append hat, hreads.trimSpace_domain]
  have hguard : ¬ (e = [] ∨ '@' ∉ e) := by
    rintro (rfl | hno)
    · exact absurd (at_mem hreads) List.not_mem_nil
    · exact hno (at_mem hreads)
  have hparts : ¬ (l = [] ∨ d = []) := by
    rintro (hnil | hnil)
    · exact hreads.local_ne_nil hnil
    · exact hreads.domain_ne_nil hnil
  simp only [parseEmail, normalized_eq hreads hlower, hbefore, hafter, if_neg hguard, if_neg hparts]

/-- A literal is not converted. -/
theorem toASCII_literal (lib : LookupProfile toASCII) (h : d.head? = some '[') :
    toASCII d = none :=
  lib.strict d '[' (List.mem_of_mem_head? h) (by decide) (by decide) (by decide)

/-- A host name comes out of the parser as it is when it comes so out of the conversion. -/
theorem parseEmail_host_iff (lib : LookupProfile toASCII) (hreads : Reads e l d)
    (hlower : strtolower e = e) (hat : '@' ∉ l) (hhost : Hostname d)
    (hdlower : strtolower d = d) :
    parseEmail toASCII e = .ok { localText := l, domain := d } ↔ toASCII d = some d := by
  rw [parseEmail_single hreads hlower hat]
  cases h : toASCII d with
  | none =>
      constructor
      · intro herror
        cases herror
      · intro hsome
        cases hsome
  | some asciiDomain =>
      obtain ⟨hcanonical, hdot⟩ := lib.canonical d asciiDomain hhost hdlower h
      have htrim : toLower (trimDot asciiDomain) = asciiDomain := by
        rw [trimDot, hdot, if_neg Bool.false_ne_true, hcanonical]
      simp only [htrim]
      split
      next hnil =>
        constructor
        · intro herror
          cases herror
        · intro hsome
          exact absurd ((Option.some.inj hsome).symm.trans hnil) hreads.domain_ne_nil
      next => simp

/-- The conversion keeps a host name when its hyphens are in order, and of an internationalised one
when the tables do. -/
theorem toASCII_eq_self_iff (lib : LookupProfile toASCII) (hhost : Hostname d)
    (hdlower : strtolower d = d) :
    toASCII d = some d ↔
      (∀ k ∈ d.splitOn '.', isReserved k = true → isACE k = true) ∧
        ((∃ k ∈ d.splitOn '.', isACE k = true) → toASCII d = some d) := by
  constructor
  · intro hself
    refine ⟨fun k hk hreserved => ?_, fun _ => hself⟩
    by_contra hno
    rw [lib.hyphens d hhost hdlower ⟨k, hk, hreserved, Bool.eq_false_iff.mpr hno⟩] at hself
    cases hself
  · rintro ⟨hhyphens, hace⟩
    by_cases h : ∃ k ∈ d.splitOn '.', isACE k = true
    · exact hace h
    · refine lib.plain d hhost hdlower fun k hk => Bool.eq_false_iff.mpr fun hreserved => ?_
      exact h ⟨k, hk, hhyphens k hk hreserved⟩

/-- **An admitted address is parsed as the filter read it when nothing in it is read in two
ways, and otherwise it is not.** -/
theorem parsed_iff (lib : LookupProfile toASCII) {sha1 : Text → Text} {raw email : Text}
    (h : ParseAndChunkJob.normalizeEmail (php sha1) raw = some email) :
    Reads email (localOf email) (domainOf email) ∧
      (parseEmail toASCII email =
          .ok { localText := localOf email, domain := domainOf email } ↔
        Agreed toASCII email) := by
  have hclean := clean_of_normalizeEmail h
  obtain ⟨l, d, hreads⟩ := exists_reads (e := email) hclean.valid
  rw [← hreads.localOf_eq, ← hreads.domainOf_eq] at hreads
  refine ⟨hreads, ?_⟩
  by_cases hat : '@' ∈ localOf email
  · rw [parseEmail_quoted lib hreads hclean.lower hat]
    constructor
    · intro herror
      cases herror
    · exact fun hagreed => absurd hat hagreed.one_at
  by_cases hliteral : (domainOf email).head? = some '['
  · rw [parseEmail_single hreads hclean.lower hat, toASCII_literal lib hliteral]
    constructor
    · intro herror
      cases herror
    · exact fun hagreed => absurd hliteral hagreed.not_literal
  have hhost : Hostname (domainOf email) := by
    rcases domain_cases hreads.domainRun with hhost | hword
    · exact hhost
    · obtain ⟨c, hc, rfl⟩ := literal_le_starts hword
      exact absurd hc hliteral
  have hdlower : strtolower (domainOf email) = domainOf email := by
    refine strtolower_of_sublist (t := email) ?_
    rw [hclean.lower]
    exact (List.rtakeWhile_suffix (· != '@') email).sublist
  rw [parseEmail_host_iff lib hreads hclean.lower hat hhost hdlower,
    toASCII_eq_self_iff lib hhost hdlower]
  constructor
  · rintro ⟨hhyphens, hace⟩
    exact ⟨hat, hliteral, hhyphens, hace⟩
  · intro hagreed
    exact ⟨hagreed.hyphens, hagreed.ace⟩

end Admitted

/-- A conversion that knows no internationalised labels. -/
def plainToASCII (domain : Text) : Option Text :=
  if Hostname domain ∧ strtolower domain = domain ∧
      ∀ l ∈ domain.splitOn '.', isReserved l = false
  then some domain else none

theorem plainToASCII_lookup : LookupProfile plainToASCII where
  strict domain c hc _ hldh hdot := by
    refine if_neg fun hgood => ?_
    obtain ⟨l, hl, hcl⟩ := exists_mem_splitOn hdot hc
    have hlabel := hgood.1 l hl
    simp only [isLabel, Bool.and_eq_true, List.all_eq_true] at hlabel
    rw [hlabel.1.1 c hcl] at hldh
    cases hldh
  hyphens domain _ _ h := by
    obtain ⟨l, hl, hreserved, -⟩ := h
    refine if_neg fun hgood => ?_
    rw [hgood.2.2 l hl] at hreserved
    cases hreserved
  plain domain hhost hlower hnone := if_pos ⟨hhost, hlower, hnone⟩
  canonical domain asciiDomain hhost hlower h := by
    have hself : asciiDomain = domain := by
      rw [plainToASCII] at h
      split at h
      · exact (Option.some.inj h).symm
      · cases h
    subst hself
    refine ⟨?_, ?_⟩
    · rw [toLower_eq_strtolower fun c hc => isAscii_of_isPlain (isPlain_of_hostname hhost hc),
        hlower]
    · rw [Bool.eq_false_iff]
      intro hdot
      obtain ⟨s, rfl⟩ := List.isSuffixOf_iff_suffix.mp hdot
      have hnil : [] ∈ (s ++ ['.']).splitOn '.' := by
        rw [List.splitOn_append_cons_self, List.splitOn_nil]
        exact List.mem_append_right _ (List.mem_singleton.mpr rfl)
      exact absurd (hhost [] hnil) (by decide)

theorem parsed_iff_plain :
    Reads "user@example.com".toList "user".toList "example.com".toList ∧
      (parseEmail plainToASCII "user@example.com".toList =
          .ok { localText := "user".toList, domain := "example.com".toList } ↔
        Agreed plainToASCII "user@example.com".toList) :=
  @parsed_iff plainToASCII plainToASCII_lookup id " User@Example.com;".toList
    "user@example.com".toList (by decide +kernel)

/-- The filter passes hyphens that the conversion does not. -/
theorem parsed_fails :
    ¬ ∀ toASCII, LookupProfile toASCII → ∀ (sha1 : Text → Text) (raw email : Text),
        ParseAndChunkJob.normalizeEmail (php sha1) raw = some email →
          parseEmail toASCII email =
            .ok { localText := localOf email, domain := domainOf email } := by
  intro hclaim
  have hparsed := hclaim plainToASCII plainToASCII_lookup id "user@ab--cd.com".toList
    "user@ab--cd.com".toList (by decide +kernel)
  have hfails : (parseEmail plainToASCII "user@ab--cd.com".toList).isOk = false := by
    decide +kernel
  rw [hparsed] at hfails
  cases hfails

end ValidEmailVerifier.Engine
