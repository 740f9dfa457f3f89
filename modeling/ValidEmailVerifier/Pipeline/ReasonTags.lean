/-
# `Pipeline.ReasonTags` — what a worker counts of its reason column

A worker reads its own column back to count the rows by reason and by tag: `baseReasonOnly` takes
what stands before the first colon, `reasonTagFrom` the first field `tag=` of what stands behind
it.

The base reason is that of the reason, whatever the evidence.  The tag is the one that was
written, as long as no text has a semicolon and the reason has no colon, or one with evidence
before the tag (`reasonWithEvidence_read`); the suspicion of a typo has its suggestion behind a
colon, and no evidence but perhaps a tag.
-/
import ValidEmailVerifier.Pipeline.DecisionTrace
import ValidEmailVerifier.Policy.Telemetry

namespace ValidEmailVerifier.Worker

open Text GoStrings KeyValues
open SmtpDecisionTraceRecorder (writtenTag evidence evidenceTexts reasonWithEvidence_eq
  not_mem_trimSpace)
open Policy (baseReasonOnly)

/-! ## The tag of a column -/

/-- The value of a token, if it is that of a tag. -/
def tagOf (token : Text) : Option Text :=
  let token := trimSpace token
  if hasPrefix token "tag=".toList then KeyValues.filled (trimSpace (token.drop 4)) else none

def reasonTagFrom (reason : Text) : Text :=
  let normalized := trimSpace reason
  if normalized = [] then []
  else if ':' ∉ normalized ∨ after ':' normalized = [] then []
  else (((after ':' normalized).splitOn ';').findSome? tagOf).getD []

/-- What `Verify` says of an address whose domain is a known typo. -/
def typoSuspected (suggestion : Text) : VerifierResult where
  category := "risky".toList
  reason := "domain_typo_suspected:suggest=".toList ++ suggestion

/-! ## Fields that are tags -/

theorem hasPrefix_tag_iff {s : Text} :
    hasPrefix s "tag=".toList = true ↔ ∃ value, s = "tag".toList ++ '=' :: value := by
  rw [hasPrefix, List.isPrefixOf_iff_prefix]
  exact ⟨fun ⟨value, h⟩ => ⟨value, h.symm⟩, fun ⟨value, h⟩ => ⟨value, h.symm⟩⟩

/-- A key that no white space stands before. -/
structure Named (key : Text) : Prop where
  starts : key.dropWhile isSpace = key
  no_equals : '=' ∉ key

instance {key : Text} : Decidable (Named key) :=
  decidable_of_iff (key.dropWhile isSpace = key ∧ '=' ∉ key)
    ⟨fun h => ⟨h.1, h.2⟩, fun h => ⟨h.1, h.2⟩⟩

theorem trimSpace_render {key value : Text} (h : Named key) :
    trimSpace (render (key, value)) = key ++ '=' :: value.rdropWhile isSpace := by
  rw [render, trimSpace, trimBy_append_cons (by decide), h.starts]

/-- A field is a tag by its key. -/
theorem tagOf_render {key value : Text} (h : Named key) :
    tagOf (render (key, value)) =
      if key = "tag".toList then KeyValues.filled (trimSpace value) else none := by
  rw [tagOf, trimSpace_render h]
  by_cases hkey : key = "tag".toList
  · subst hkey
    have hprefix : hasPrefix ("tag".toList ++ '=' :: value.rdropWhile isSpace) "tag=".toList =
        true := hasPrefix_tag_iff.mpr ⟨_, rfl⟩
    rw [if_pos rfl, if_pos hprefix]
    exact congrArg KeyValues.filled trimBy_rdropWhile
  · rw [if_neg hkey, if_neg]
    intro hprefix
    obtain ⟨rest, hrest⟩ := hasPrefix_tag_iff.mp hprefix
    have hbefore := congrArg (before '=') hrest
    rw [before_append h.no_equals, before_append (by decide)] at hbefore
    exact hkey hbefore

theorem findSome?_tagOf_eq_none {fields : List (Text × Text)}
    (h : ∀ field ∈ fields, Named field.1 ∧ field.1 ≠ "tag".toList) :
    (fields.map render).findSome? tagOf = none := by
  rw [List.findSome?_eq_none_iff]
  intro token htoken
  obtain ⟨field, hfield, rfl⟩ := List.mem_map.mp htoken
  obtain ⟨hnamed, hkey⟩ := h field hfield
  exact (tagOf_render hnamed).trans (if_neg hkey)

/-- What stands before a colon says whether the token is a tag. -/
theorem tagOf_append_colon {s rest : Text} (h : hasPrefix (trimSpace s) "tag=".toList = false) :
    tagOf (s ++ ':' :: rest) = none := by
  rw [tagOf, trimSpace, trimBy_append_cons (by decide), if_neg]
  intro hprefix
  obtain ⟨value, hvalue⟩ := prefix_of_append_cons (List.isPrefixOf_iff_prefix.mp hprefix)
    (by decide)
  have hstart : s.dropWhile isSpace = "tag".toList ++ '=' :: value := hvalue.symm
  have htrim : hasPrefix (trimSpace s) "tag=".toList = true := by
    rw [hasPrefix_tag_iff, trimSpace, trimBy, hstart, rdropWhile_append_cons (by decide)]
    exact ⟨_, rfl⟩
  rw [h] at htrim
  cases htrim

/-! ## The fields of the evidence -/

/-- The fields before the tag. -/
def earlier (result : VerifierResult) : List (Text × Text) :=
  [("decision".toList, trimSpace result.decisionClass),
    ("confidence".toList, trimSpace result.decisionConfidence),
    ("retry".toList, trimSpace result.retryStrategy),
    ("policy".toList, trimSpace result.policyVersion),
    ("rule".toList, trimSpace result.matchedRuleId)]

/-- The fields behind it. -/
def later (result : VerifierResult) (chain : Bool) : List (Text × Text) :=
  [("mode".toList, trimSpace result.providerMode),
    ("session".toList, trimSpace result.sessionStrategyId),
    ("provider".toList, trimSpace result.providerProfile),
    ("mx".toList, trimSpace result.mxHost),
    ("attempt".toList,
      if 0 < result.attemptNumber then (toString result.attemptNumber).toList else []),
    ("route".toList, trimSpace result.attemptRoute),
    ("evidence".toList, trimSpace result.evidenceStrength),
    ("attempt_chain".toList, if chain then encodeToString result.attemptChain else [])]

variable {result : VerifierResult} {chain taxonomy : Bool}

theorem evidence_eq : evidence result chain taxonomy =
    earlier result ++ ("tag".toList, writtenTag result taxonomy) :: later result chain := rfl

theorem named_of_mem {fields : List (Text × Text)} {field : Text × Text}
    (hkeys : ∀ key ∈ fields.map Prod.fst, Named key ∧ key ≠ "tag".toList)
    (h : field ∈ nonempty fields) : Named field.1 ∧ field.1 ≠ "tag".toList :=
  hkeys field.1 (List.mem_map_of_mem (List.mem_filter.mp h).1)

theorem named_earlier : ∀ field ∈ nonempty (earlier result),
    Named field.1 ∧ field.1 ≠ "tag".toList := by
  intro field hfield
  refine named_of_mem ?_ hfield
  show ∀ key ∈ ["decision".toList, "confidence".toList, "retry".toList, "policy".toList,
    "rule".toList], Named key ∧ key ≠ "tag".toList
  decide

theorem named_later : ∀ field ∈ nonempty (later result chain),
    Named field.1 ∧ field.1 ≠ "tag".toList := by
  intro field hfield
  refine named_of_mem ?_ hfield
  show ∀ key ∈ ["mode".toList, "session".toList, "provider".toList, "mx".toList,
    "attempt".toList, "route".toList, "evidence".toList, "attempt_chain".toList],
    Named key ∧ key ≠ "tag".toList
  decide

/-- A written tag has no white space around it. -/
theorem trimSpace_writtenTag : trimSpace (writtenTag result taxonomy) =
    writtenTag result taxonomy := by
  have htrim : ∀ s, trimSpace (trimSpace s) = trimSpace s := trimBy_trimBy (fun _ h => h)
  rw [writtenTag]
  split
  · refine normalizedReasonTag_induction (motive := fun tag => trimSpace tag = tag) ?_ (by decide)
    obtain ⟨hfirst, -⟩ := trimBy_eq_self_iff.mp (htrim result.reasonTag)
    refine trimBy_eq_self_iff.mpr ⟨?_, endsWell_toLower endsWell_trimSpace⟩
    intro c hc
    rw [toLower, List.head?_map, Option.mem_def, Option.map_eq_some_iff] at hc
    obtain ⟨d, hd, rfl⟩ := hc
    exact isSpace_lowerChar (hfirst d hd)
  · exact htrim _

/-- The tag is found behind any fields that are none. -/
theorem findSome?_tagOf {before : List (Text × Text)}
    (h : ∀ field ∈ before, Named field.1 ∧ field.1 ≠ "tag".toList) :
    ((before ++ nonempty (("tag".toList, writtenTag result taxonomy) ::
      later result chain)).map render).findSome? tagOf =
      KeyValues.filled (writtenTag result taxonomy) := by
  have hlater := findSome?_tagOf_eq_none (@named_later result chain)
  have htag : tagOf (render ("tag".toList, writtenTag result taxonomy)) =
      KeyValues.filled (writtenTag result taxonomy) := by
    rw [tagOf_render (by decide), if_pos rfl, trimSpace_writtenTag]
  rw [List.map_append, List.findSome?_append, findSome?_tagOf_eq_none h, Option.none_or,
    SmtpDecisionTraceRecorder.nonempty_cons, List.map_append, List.findSome?_append, hlater,
    Option.or_none, nonempty, List.filter_singleton]
  by_cases hblank : writtenTag result taxonomy = []
  · simp [hblank, KeyValues.filled]
  · rw [decide_eq_true hblank]
    exact List.findSome?_singleton.trans htag

/-! ## Reading the column -/

/-- A colon in the reason does no harm: there is no piece of the reason behind it that reads as a
tag, and no tag to be read, or something before it. -/
structure Harmless (result : VerifierResult) (taxonomy : Bool) : Prop where
  undivided : ';' ∉ after ':' (reasonPart result)
  untagged : hasPrefix (trimSpace (after ':' (reasonPart result))) "tag=".toList = false
  preceded : writtenTag result taxonomy = [] ∨ nonempty (earlier result) ≠ []

/-- No text of the evidence has a semicolon, and a colon in the reason does no harm. -/
structure Readable (result : VerifierResult) (taxonomy : Bool) : Prop where
  texts : ∀ s ∈ evidenceTexts result, ';' ∉ s
  reason : ':' ∈ result.reason → Harmless result taxonomy

/-- The fields that are written have no semicolon. -/
theorem not_mem_render_evidence (h : ∀ s ∈ evidenceTexts result, ';' ∉ s) :
    ∀ field ∈ nonempty (evidence result chain taxonomy), ';' ∉ render field := by
  have hfree : Undelimited (evidence result chain taxonomy) :=
    SmtpDecisionTraceRecorder.undelimited_evidence h
  have hdistinct : Distinct (evidence result chain taxonomy) :=
    SmtpDecisionTraceRecorder.distinct_evidence
  intro field hfield
  exact not_mem_render (hdistinct.nonempty.clean field hfield) (hfree.nonempty field hfield)

theorem nonempty_evidence : nonempty (evidence result chain taxonomy) =
    nonempty (earlier result) ++
      nonempty (("tag".toList, writtenTag result taxonomy) :: later result chain) :=
  List.filter_append (earlier result) (("tag".toList, writtenTag result taxonomy) :: _)

/-- The tag of fields that stand alone behind the colon. -/
theorem findSome?_evidence : ((nonempty (evidence result chain taxonomy)).map render).findSome?
    tagOf = KeyValues.filled (writtenTag result taxonomy) := by
  rw [nonempty_evidence]
  exact findSome?_tagOf named_earlier

/-- The tag of fields whose first one continues the reason. -/
theorem findSome?_continued {extra : Text} {field : Text × Text} {rest : List (Text × Text)}
    (huntagged : hasPrefix (trimSpace extra) "tag=".toList = false)
    (hpreceded : writtenTag result taxonomy = [] ∨ nonempty (earlier result) ≠ [])
    (hfields : nonempty (evidence result chain taxonomy) = field :: rest) :
    ((extra ++ ':' :: render field) :: rest.map render).findSome? tagOf =
      KeyValues.filled (writtenTag result taxonomy) := by
  have hall := @findSome?_evidence result chain taxonomy
  rw [hfields, List.map_cons, List.findSome?_cons] at hall
  have hfirst : tagOf (render field) = none := by
    rcases hpreceded with hblank | hbefore
    · rw [hblank, KeyValues.filled, if_pos rfl] at hall
      cases htag : tagOf (render field) with
      | none => rfl
      | some tag =>
        rw [htag] at hall
        cases hall
    · obtain ⟨first, others, hearlier⟩ := List.exists_cons_of_ne_nil hbefore
      rw [nonempty_evidence, hearlier, List.cons_append] at hfields
      obtain ⟨rfl, -⟩ := List.cons.inj hfields
      obtain ⟨hnamed, hkey⟩ := @named_earlier result first (hearlier ▸ .head _)
      exact (tagOf_render hnamed).trans (if_neg hkey)
  rw [hfirst] at hall
  rw [List.findSome?_cons, tagOf_append_colon huntagged]
  exact hall

/-- A token that does not begin like a tag is none. -/
theorem tagOf_eq_none {s : Text} (h : hasPrefix (trimSpace s) "tag=".toList = false) :
    tagOf s = none := by
  rw [tagOf, h]
  rfl

/-- **The tag that was written is read.** -/
theorem reasonTagFrom_reasonWithEvidence (h : Readable result taxonomy) :
    reasonTagFrom (reasonWithEvidence result chain taxonomy) = writtenTag result taxonomy := by
  have hfree := @not_mem_render_evidence result chain taxonomy h.texts
  have htag := @findSome?_evidence result chain taxonomy
  have hgetD : (KeyValues.filled (writtenTag result taxonomy)).getD [] =
      writtenTag result taxonomy :=
    SmtpDecisionTraceRecorder.getD_filled
  have hharmless : ':' ∈ reasonPart result → Harmless result taxonomy := by
    intro hcolon
    by_contra hnot
    exact SmtpDecisionTraceRecorder.not_mem_reasonPart (fun hin => hnot (h.reason hin)) hcolon
  rw [reasonTagFrom, trimSpace_reasonWithEvidence, if_neg reasonWithEvidence_ne_nil,
    reasonWithEvidence_eq]
  cases hfields : nonempty (evidence result chain taxonomy) with
  | nil =>
    rw [hfields] at htag
    rw [if_pos rfl, ← hgetD, ← htag]
    by_cases hcolon : ':' ∈ reasonPart result
    · obtain ⟨hundivided, huntagged, -⟩ := hharmless hcolon
      split
      · rfl
      · rw [List.splitOn_eq_singleton hundivided, List.findSome?_singleton,
          tagOf_eq_none huntagged]
        rfl
    · rw [if_pos (.inl hcolon)]
      rfl
  | cons field rest =>
    rw [hfields] at hfree htag
    rw [if_neg (List.cons_ne_nil field rest)]
    by_cases hcolon : ':' ∈ reasonPart result
    · obtain ⟨hundivided, huntagged, hpreceded⟩ := hharmless hcolon
      have hmetadata : after ':' (reasonPart result ++ ':' :: line (field :: rest)) =
          line ((after ':' (reasonPart result) ++ [':'] ++ field.1, field.2) :: rest) := by
        rw [after_append_of_mem hcolon, line_append, List.append_assoc]
        rfl
      have hfirst : ';' ∉ render (after ':' (reasonPart result) ++ [':'] ++ field.1, field.2) := by
        have hfield := hfree field (.head _)
        simp only [render, List.mem_append, List.mem_singleton] at hfield ⊢
        rintro (((hin | hin) | hin) | hin)
        · exact hundivided hin
        · exact absurd hin (by decide)
        · exact hfield (.inl hin)
        · exact hfield (.inr hin)
      have hcontinued := findSome?_continued huntagged hpreceded hfields
      rw [hmetadata, if_neg (not_or.mpr ⟨fun hno => hno (List.mem_append_left _ hcolon),
          line_ne_nil⟩), splitOn_line_of_free (List.forall_mem_cons.mpr
          ⟨hfirst, fun f hf => hfree f (.tail _ hf)⟩) (List.cons_ne_nil _ rest), ← hgetD,
        ← hcontinued]
      simp [render]
    · rw [after_append hcolon, if_neg (not_or.mpr ⟨fun hno => hno (by simp), line_ne_nil⟩),
        splitOn_line_of_free hfree (List.cons_ne_nil field rest), htag, hgetD]

/-! ## The base reason -/

/-- What stands before the first colon of the column is that of the reason. -/
theorem before_reasonWithEvidence : before ':' (reasonWithEvidence result chain taxonomy) =
    before ':' (reasonPart result) := by
  rw [reasonWithEvidence_eq]
  split
  · rfl
  · by_cases hcolon : ':' ∈ reasonPart result
    · exact before_append_of_mem hcolon
    · rw [before_append hcolon, before, eq_comm, List.takeWhile_eq_self_iff]
      intro c hc
      have hne : c ≠ ':' := fun heq => hcolon (heq ▸ hc)
      simpa using hne

theorem baseReasonOnly_eq (reason : Text) : baseReasonOnly reason =
    if trimSpace reason = [] then "unknown".toList
    else if trimSpace (before ':' (trimSpace reason)) = [] then "unknown".toList
    else trimSpace (before ':' (trimSpace reason)) := by
  have hbefore : ∀ s : Text, s.takeWhile (· ≠ ':') = before ':' s := by
    intro s
    rw [before]
    congr 1
    funext c
    exact decide_not.trans rfl
  rw [baseReasonOnly]
  simp only [hbefore]

/-- **The base reason of the column is that of the reason**, whatever the evidence. -/
theorem baseReasonOnly_reasonWithEvidence :
    baseReasonOnly (reasonWithEvidence result chain taxonomy) = baseReasonOnly result.reason := by
  rw [baseReasonOnly_eq, trimSpace_reasonWithEvidence, if_neg reasonWithEvidence_ne_nil,
    before_reasonWithEvidence, baseReasonOnly_eq, reasonPart]
  split_ifs with hblank
  · decide
  · rfl
  · rfl
  · rfl

/-- A reason without a colon is its own base. -/
theorem baseReasonOnly_of_not_mem (h : ':' ∉ result.reason) :
    baseReasonOnly result.reason = reasonPart result := by
  have hwhole : before ':' (trimSpace result.reason) = trimSpace result.reason := by
    rw [before, List.takeWhile_eq_self_iff]
    intro c hc
    have hne : c ≠ ':' := fun heq => not_mem_trimSpace h (heq ▸ hc)
    simpa using hne
  have htwice : trimSpace (trimSpace result.reason) = trimSpace result.reason :=
    trimBy_trimBy (fun _ hc => hc) _
  rw [baseReasonOnly_eq, hwhole, htwice, reasonPart]
  split_ifs with hblank
  · rfl
  · rfl

end ValidEmailVerifier.Worker
