/-
# `Pipeline.BilledEmails` — the emails that are counted, and those that are verified

`EmailListAnalyzer` prices an upload by the matches of an expression in its whole text.
`ParseAndChunkJob` goes through the lines, takes the matches of the same expression, and of a
CSV line the first column too, whatever it looks like, if there is an `@` in it.  The filter
decides.

No match goes over a line end, so the matches of the lines are those of the text
(`matchAll_lines`).  What is verified beyond them is in first columns that are no match
(`unmatched`); what is counted beyond the addresses is in matches that are refused or come again
(`spare`).  The upload is paid for exactly if the latter make up for the former
(`verified_le_counted_iff`).
-/
import Mathlib.Data.List.Dedup
import ValidEmailVerifier.Pipeline.AddressGrammar
import ValidEmailVerifier.Pipeline.Extraction

namespace ValidEmailVerifier

open Text Patterns

/-- `countFromText`; the expression is `/[A-Z0-9._%+-]+@[A-Z0-9.-]+\.[A-Z]{2,}/i`. -/
def EmailListAnalyzer.countFromText (text : Text) : Nat :=
  if text = [] then 0 else (matchAll ParseAndChunkJob.emailPattern text).length

namespace ParseAndChunkJob

/-- `parseTextStream`: what it hands to `handleCandidate`. -/
def parseTextStream (content : Text) (isCsv : Bool) : List Feed :=
  ((fgets content).flatMap fun line => extractEmailsFromLine line isCsv).map .candidate

/-- The first columns that are candidates. -/
def firstColumns (content : Text) (isCsv : Bool) : List Text :=
  if isCsv then
    ((fgets content).map fun line => trim ((strGetcsv line)[0]?.getD [])).filter looksLikeEmail
  else []

/-- The addresses among the matches, as often as they come. -/
def matched (php : Php) (content : Text) : List Text :=
  (matchAll emailPattern content).filterMap (normalizeEmail php)

/-- The addresses of first columns that no match gives. -/
def unmatched (php : Php) (content : Text) (isCsv : Bool) : List Text :=
  ((firstColumns content isCsv).filterMap (normalizeEmail php)).dedup.filter
    fun email => email ∉ matched php content

/-- The matches that are refused, or whose address is among those of a match before. -/
def spareFrom (php : Php) : (seen : List Text) → List Text → List Text
  | _, [] => []
  | seen, found :: rest =>
      match normalizeEmail php found with
      | none => found :: spareFrom php seen rest
      | some email =>
          if email ∈ seen then found :: spareFrom php seen rest
          else spareFrom php (email :: seen) rest

def spare (php : Php) (content : Text) : List Text :=
  spareFrom php [] (matchAll emailPattern content)

/-! ## Line by line -/

theorem emailPattern_ne_nil : emailPattern ≠ [] := List.cons_ne_nil _ _

theorem emailPattern_rejects_eol : ∀ piece ∈ emailPattern, piece.accepts '\n' = false :=
  emailPattern_rejects (by decide)

/-- **The matches of a text are those of its lines.** -/
theorem matchAll_lines (content : Text) : matchAll emailPattern content =
    (fgets content).flatMap (matchAll emailPattern) := by
  induction hn : content.length using Nat.strong_induction_on generalizing content with
  | _ n ih =>
    by_cases heol : '\n' ∈ content
    · obtain ⟨line, rest, rfl, hline⟩ := List.eq_append_cons_of_mem heol
      have hlast : matchAll emailPattern (line ++ ['\n']) = matchAll emailPattern line := by
        rw [matchAll_append emailPattern_ne_nil emailPattern_rejects_eol]
        exact List.append_nil _
      have hrest : rest.length < n := by
        rw [← hn, List.length_append, List.length_cons]
        omega
      rw [matchAll_append emailPattern_ne_nil emailPattern_rejects_eol, Csv.fgets_line hline,
        List.flatMap_cons, hlast, ih _ hrest rest rfl]
    · cases hcontent : content with
      | nil => rfl
      | cons c s =>
        rw [← hcontent, Csv.fgets_of_notMem heol (hcontent ▸ List.cons_ne_nil c s),
          List.flatMap_singleton]

/-- The count is that of the matches, of an empty text too. -/
theorem countFromText_eq (content : Text) :
    EmailListAnalyzer.countFromText content = (matchAll emailPattern content).length := by
  rw [EmailListAnalyzer.countFromText]
  split
  · next hnil =>
    rw [hnil]
    rfl
  · rfl

/-! ## What is accepted -/

section Accepted
variable {php : Php} {content email : Text} {isCsv : Bool}

theorem mem_candidates {candidate : Text} :
    candidate ∈ (fgets content).flatMap (fun line => extractEmailsFromLine line isCsv) ↔
      candidate ∈ firstColumns content isCsv ∨ candidate ∈ matchAll emailPattern content := by
  rw [matchAll_lines, List.mem_flatMap, List.mem_flatMap]
  have hline : ∀ line, candidate ∈ extractEmailsFromLine line isCsv ↔
      (isCsv = true ∧ looksLikeEmail (trim ((strGetcsv line)[0]?.getD [])) = true ∧
        candidate = trim ((strGetcsv line)[0]?.getD [])) ∨
      candidate ∈ matchAll emailPattern line := by
    intro line
    rw [extractEmailsFromLine, List.mem_eraseDups, List.mem_append, ← and_assoc,
      ← Bool.and_eq_true]
    refine or_congr_left ?_
    split
    · next h => simp [h]
    · next h => simp [h]
  have hfirst : candidate ∈ firstColumns content isCsv ↔ ∃ line ∈ fgets content,
      isCsv = true ∧ looksLikeEmail (trim ((strGetcsv line)[0]?.getD [])) = true ∧
        candidate = trim ((strGetcsv line)[0]?.getD []) := by
    rw [firstColumns]
    cases isCsv with
    | false => simp
    | true =>
      rw [if_pos rfl, List.mem_filter, List.mem_map]
      constructor
      · rintro ⟨⟨line, hmem, rfl⟩, hlooks⟩
        exact ⟨line, hmem, rfl, hlooks, rfl⟩
      · rintro ⟨line, hmem, -, hlooks, rfl⟩
        exact ⟨⟨line, hmem, rfl⟩, hlooks⟩
  rw [hfirst]
  simp only [hline]
  constructor
  · rintro ⟨line, hmem, hcolumn | hmatch⟩
    · exact .inl ⟨line, hmem, hcolumn⟩
    · exact .inr ⟨line, hmem, hmatch⟩
  · rintro (⟨line, hmem, hcolumn⟩ | ⟨line, hmem, hmatch⟩)
    · exact ⟨line, hmem, .inl hcolumn⟩
    · exact ⟨line, hmem, .inr hmatch⟩

/-- An address is accepted from a match, or else from a first column. -/
theorem mem_accepted : email ∈ accepted php (parseTextStream content isCsv) ↔
    email ∈ (matched php content).dedup ++ unmatched php content isCsv := by
  have hfeeds : (parseTextStream content isCsv).filterMap (feedEmail php) =
      ((fgets content).flatMap fun line => extractEmailsFromLine line isCsv).filterMap
        (normalizeEmail php) := by
    rw [parseTextStream, List.filterMap_map]
    rfl
  have hmem : email ∈ accepted php (parseTextStream content isCsv) ↔
      email ∈ (firstColumns content isCsv).filterMap (normalizeEmail php) ∨
        email ∈ matched php content := by
    rw [accepted, mem_foldl_remember, hfeeds, matched]
    simp only [List.mem_filterMap, mem_candidates, List.not_mem_nil, false_or]
    constructor
    · rintro ⟨candidate, hcolumn | hmatch, hemail⟩
      · exact .inl ⟨candidate, hcolumn, hemail⟩
      · exact .inr ⟨candidate, hmatch, hemail⟩
    · rintro (⟨candidate, hcolumn, hemail⟩ | ⟨candidate, hmatch, hemail⟩)
      · exact ⟨candidate, .inl hcolumn, hemail⟩
      · exact ⟨candidate, .inr hmatch, hemail⟩
  rw [hmem, List.mem_append, List.mem_dedup, unmatched, List.mem_filter, List.mem_dedup,
    decide_eq_true_eq]
  constructor
  · rintro (hcolumn | hmatch)
    · by_cases hmatch : email ∈ matched php content
      · exact .inl hmatch
      · exact .inr ⟨hcolumn, hmatch⟩
    · exact .inl hmatch
  · rintro (hmatch | ⟨hcolumn, -⟩)
    · exact .inr hmatch
    · exact .inl hcolumn

theorem nodup_foldl_remember {emails seen : List Text} (h : seen.Nodup) :
    (emails.foldl remember seen).Nodup := by
  induction emails generalizing seen with
  | nil => exact h
  | cons email emails ih =>
    refine ih ?_
    rw [remember]
    split
    · exact h
    · next hnew =>
      refine List.nodup_append.mpr ⟨h, List.nodup_singleton _, fun a ha b hb => ?_⟩
      rw [List.mem_singleton.mp hb]
      exact fun heq => hnew (heq ▸ ha)

/-- So many are accepted: the addresses of the matches, and those that no match gives. -/
theorem length_accepted : (accepted php (parseTextStream content isCsv)).length =
    (matched php content).dedup.length + (unmatched php content isCsv).length := by
  have hdisjoint : ((matched php content).dedup ++ unmatched php content isCsv).Nodup := by
    refine List.nodup_append.mpr ⟨List.nodup_dedup _, (List.nodup_dedup _).filter _, ?_⟩
    intro a ha b hb heq
    have hnot := of_decide_eq_true (List.mem_filter.mp hb).2
    exact hnot (heq ▸ List.mem_dedup.mp ha)
  have hperm : (accepted php (parseTextStream content isCsv)).Perm
      ((matched php content).dedup ++ unmatched php content isCsv) :=
    (List.perm_ext_iff_of_nodup (nodup_foldl_remember List.nodup_nil) hdisjoint).mpr
      fun _ => mem_accepted
  rw [hperm.length_eq, List.length_append]

/-- The different addresses that were not seen. -/
def unseen (emails seen : List Text) : List Text := emails.dedup.filter fun email => email ∉ seen

theorem nodup_unseen (emails seen : List Text) : (unseen emails seen).Nodup :=
  (List.nodup_dedup emails).filter _

theorem mem_unseen {emails seen : List Text} :
    email ∈ unseen emails seen ↔ email ∈ emails ∧ email ∉ seen := by
  rw [unseen, List.mem_filter, List.mem_dedup, decide_eq_true_eq]

theorem unseen_cons_of_mem {emails seen : List Text} (h : email ∈ seen) :
    (unseen (email :: emails) seen).Perm (unseen emails seen) := by
  refine (List.perm_ext_iff_of_nodup (nodup_unseen _ _) (nodup_unseen _ _)).mpr fun a => ?_
  rw [mem_unseen, mem_unseen, List.mem_cons]
  refine ⟨fun hand => ⟨hand.1.resolve_left fun heq => hand.2 (heq ▸ h), hand.2⟩,
    fun hand => ⟨.inr hand.1, hand.2⟩⟩

theorem unseen_cons_of_notMem {emails seen : List Text} (h : email ∉ seen) :
    (unseen (email :: emails) seen).Perm (email :: unseen emails (email :: seen)) := by
  have hnodup : (email :: unseen emails (email :: seen)).Nodup :=
    List.nodup_cons.mpr ⟨fun hmem => (mem_unseen.mp hmem).2 (.head _), nodup_unseen _ _⟩
  refine (List.perm_ext_iff_of_nodup (nodup_unseen _ _) hnodup).mpr fun a => ?_
  rw [mem_unseen, List.mem_cons, List.mem_cons, mem_unseen, List.mem_cons, not_or]
  by_cases heq : a = email
  · subst heq
    simp [h]
  · simp [heq]

/-- A match gives a new address, or is spare. -/
theorem length_spareFrom (found seen : List Text) : (spareFrom php seen found).length +
    (unseen (found.filterMap (normalizeEmail php)) seen).length = found.length := by
  induction found generalizing seen with
  | nil => rfl
  | cons first rest ih =>
    rw [spareFrom, List.filterMap_cons]
    cases hemail : normalizeEmail php first with
    | none =>
      have hrest := ih seen
      dsimp only
      rw [List.length_cons, List.length_cons]
      omega
    | some email =>
      dsimp only
      by_cases hseen : email ∈ seen
      · have hrest := ih seen
        rw [if_pos hseen, (unseen_cons_of_mem hseen).length_eq, List.length_cons, List.length_cons]
        omega
      · have hrest := ih (email :: seen)
        rw [if_neg hseen, (unseen_cons_of_notMem hseen).length_eq, List.length_cons,
          List.length_cons]
        omega

/-- What is verified and not counted is unmatched, what is counted and not verified is spare. -/
theorem accepted_add_spare (php : Php) (content : Text) (isCsv : Bool) :
    (accepted php (parseTextStream content isCsv)).length + (spare php content).length =
      EmailListAnalyzer.countFromText content + (unmatched php content isCsv).length := by
  have hspare := @length_spareFrom php (matchAll emailPattern content) []
  have hall : unseen (matched php content) [] = (matched php content).dedup :=
    List.filter_eq_self.mpr fun _ _ => decide_eq_true List.not_mem_nil
  rw [← matched, hall] at hspare
  rw [length_accepted, countFromText_eq, ← hspare, spare]
  omega

/-- **What is verified is paid for** exactly if the addresses of first columns that no match
gives are no more than the matches that give no new address. -/
theorem verified_le_counted_iff (php : Php) (content : Text) (isCsv : Bool) :
    (accepted php (parseTextStream content isCsv)).length ≤
        EmailListAnalyzer.countFromText content ↔
      (unmatched php content isCsv).length ≤ (spare php content).length := by
  have hbalance := accepted_add_spare php content isCsv
  omega

/-- So a text upload is always paid for, and a CSV upload whose first columns are matches. -/
theorem verified_le_counted (php : Php) (h : unmatched php content isCsv = []) :
    (accepted php (parseTextStream content isCsv)).length ≤
      EmailListAnalyzer.countFromText content := by
  have hbalance := accepted_add_spare php content isCsv
  rw [h, List.length_nil] at hbalance
  omega

theorem unmatched_text (php : Php) (content : Text) : unmatched php content false = [] := rfl

end Accepted

/-! ## First columns that the expression finds -/

section FirstColumn
variable {php : Php} {content line : Text}

/-- The first column of a line. -/
def firstColumn (line : Text) : Text := trim ((strGetcsv line)[0]?.getD [])

/-- What `normalizeEmail` makes of it, if it passes. -/
theorem eq_of_firstColumn {email : Text} (h : normalizeEmail php (firstColumn line) = some email) :
    email = strtolower (trimBy isDelimiter (firstColumn line)) := by
  rw [normalizeEmail, firstColumn, trim_trim] at h
  split at h
  · cases h
  · dsimp only at h
    split at h
    · rw [← Option.some.inj h, strtolower, trimBy_map isDelimiter_toLower]
      rfl
    · cases h

/-- The expression finds the first column of the line: without delimiters around it, it is in
the line as it stands, and belongs to the expression. -/
def FindsFirst (line : Text) : Prop :=
  Matches emailPattern (trimBy isDelimiter (firstColumn line)) ∧
    StandsIn isDelimiter (trimBy isDelimiter (firstColumn line)) line

theorem FindsFirst.mem_matchAll (h : FindsFirst line) :
    trimBy isDelimiter (firstColumn line) ∈ matchAll emailPattern line := by
  obtain ⟨hmatch, u, v, hline, hu, hv⟩ := h
  have hne : trimBy isDelimiter (firstColumn line) ≠ [] := by
    intro hnil
    rw [hnil] at hmatch
    cases hmatch
  have hfound := Patterns.mem_matchAll longest_emailPattern hmatch hne
    (fun c hc => emailPattern_rejects (hu c hc)) fun c hc => emailPattern_rejects (hv c hc)
  rwa [← hline] at hfound

/-- An upload whose accepted first columns are found is paid for. -/
theorem unmatched_eq_nil (h : ∀ line ∈ fgets content,
    normalizeEmail php (firstColumn line) = none ∨ FindsFirst line) :
    unmatched php content true = [] := by
  rw [unmatched, List.filter_eq_nil_iff]
  intro email hemail
  rw [decide_eq_true_eq, not_not]
  obtain ⟨column, hcolumn, hnormal⟩ := List.mem_filterMap.mp (List.mem_dedup.mp hemail)
  rw [firstColumns, if_pos rfl] at hcolumn
  obtain ⟨line, hline, hfirst⟩ := List.mem_map.mp (List.mem_filter.mp hcolumn).1
  rw [← hfirst] at hnormal
  have hemail : email = strtolower (trimBy isDelimiter (firstColumn line)) :=
    eq_of_firstColumn hnormal
  rcases h line hline with hnone | hfinds
  · cases hnone.symm.trans hnormal
  · have hmem := hfinds.mem_matchAll
    have hall : trimBy isDelimiter (firstColumn line) ∈ matchAll emailPattern content := by
      rw [matchAll_lines]
      exact List.mem_flatMap.mpr ⟨line, hline, hmem⟩
    refine List.mem_filterMap.mpr ⟨_, hall, ?_⟩
    rw [normalizeEmail_fragment (matchAll_emailPattern line ▸ hmem), ← hemail,
      if_pos (clean_of_normalizeEmail hnormal).valid]

/-- So it is for bare first columns. -/
theorem standsIn_of_isBare (h : Csv.isBare (line.takeWhile (· != ',')) = true) :
    StandsIn isDelimiter (trimBy isDelimiter (firstColumn line)) line := by
  have hrest : ∀ c ∈ (line.dropWhile (· != ',')).head?, isDelimiter c = true := by
    intro c hc
    rcases Csv.afterField_dropWhile line with hnil | ⟨more, hmore⟩
    · simp [hnil] at hc
    · rw [hmore, List.head?_cons] at hc
      exact Option.some.inj hc ▸ by decide
  have hfield : StandsIn isDelimiter (line.takeWhile (· != ',')) line := by
    have hstart := @standsIn_append isDelimiter (line.takeWhile (· != ',')) _ hrest
    rwa [List.takeWhile_append_dropWhile] at hstart
  have hcolumn : firstColumn line = trim (stripEol (line.takeWhile (· != ','))) := by
    rw [firstColumn, Csv.getElem?_zero_of_isBare h]
    rfl
  have htrim : StandsIn isDelimiter (firstColumn line) (stripEol (line.takeWhile (· != ','))) := by
    rw [hcolumn]
    exact (standsIn_trimBy _).mono fun c => isDelimiter_of_isBlank
  exact (standsIn_trimBy _).trans (htrim.trans ((standsIn_stripEol rfl rfl _).trans hfield))

/-- **A CSV upload is paid for** if every first column that is accepted is bare and belongs to
the expression. -/
theorem verified_le_counted_of_isBare (h : ∀ line ∈ fgets content,
    normalizeEmail php (firstColumn line) = none ∨
      Csv.isBare (line.takeWhile (· != ',')) = true ∧
        Matches emailPattern (trimBy isDelimiter (firstColumn line))) :
    (accepted php (parseTextStream content true)).length ≤
      EmailListAnalyzer.countFromText content :=
  verified_le_counted php <| unmatched_eq_nil fun line hline =>
    (h line hline).imp_right fun hbare => ⟨hbare.2, standsIn_of_isBare hbare.1⟩

end FirstColumn

/-- An address with a top-level domain of one letter, which the filter takes. -/
theorem verified_le_counted_fails : ¬ ∀ (sha1 : Text → Text) (content : Text) (isCsv : Bool),
    (accepted (FilterVar.php sha1) (parseTextStream content isCsv)).length ≤
      EmailListAnalyzer.countFromText content := by
  intro h
  exact absurd (h id "a@b.c".toList true) (by decide +kernel)

end ParseAndChunkJob

end ValidEmailVerifier
