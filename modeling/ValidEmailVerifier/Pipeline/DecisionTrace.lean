/-
# `Pipeline.DecisionTrace` — the reason column, read back

`SmtpDecisionTraceRecorder`: a row of the decision traces from the reason column of a
worker's output file.  What the worker writes is the line of its fields
(`reasonWithEvidence_eq`), and the recorder reads each field it knows by name as the
worker wrote it (`parsed_evidence`).  The worker's words for the retry strategy and the
session strategy are not the recorder's, and the codes of the reply are not written at
all (`not_carried`).
-/
import ValidEmailVerifier.Lib.KeyValues
import ValidEmailVerifier.Pipeline.ReasonEvidence

namespace ValidEmailVerifier.SmtpDecisionTraceRecorder

open Text GoStrings KeyValues Worker

/-! ## The recorder -/

/-- `parseReasonEvidence`: the fields behind the first colon, and the reason before it. -/
def parseReasonEvidence (reason : Text) : Text → Option Text :=
  let reason := trim reason
  if reason = [] then fun _ => none
  else
    let metadata := if ':' ∈ reason then KeyValues.read (after ':' reason) else fun _ => none
    Function.update metadata "base_reason".toList
      (some (strtolower (trim (before ':' reason))))

/-- The two files a row can come from. -/
inductive Bucket
  | invalid
  | risky
  deriving DecidableEq, Repr

def resolveDecisionClass (decision : Text) (bucket : Bucket) : Text :=
  let decision := strtolower (trim decision)
  if decision = "deliverable".toList then "deliverable".toList
  else if decision ∈ ["undeliverable".toList, "invalid".toList] then "undeliverable".toList
  else if bucket = .invalid then "undeliverable".toList
  else "unknown".toList

def normalizeConfidence (value : Text) : Text :=
  let value := strtolower (trim value)
  if value ∈ ["low".toList, "medium".toList, "high".toList] then value else "medium".toList

def normalizeReasonTag (value baseReason : Text) : Option Text :=
  let value := strtolower (trim value)
  if value ≠ [] then some value
  else if contains baseReason "greylist".toList then some "greylist".toList
  else if contains baseReason "policy".toList then some "policy_blocked".toList
  else if contains baseReason "rate_limit".toList then some "rate_limit".toList
  else if contains baseReason "mailbox_full".toList then some "mailbox_full".toList
  else none

def normalizeProvider (provider : Text) : Text :=
  let provider := strtolower (trim provider)
  if provider ∈ ["gmail".toList, "microsoft".toList, "yahoo".toList, "generic".toList] then
    provider
  else "generic".toList

/-- What a row of `smtp_decision_traces` says of a verdict. -/
structure TraceRow where
  provider : Text
  policyVersion : Option Text
  matchedRuleId : Option Text
  decisionClass : Text
  smtpCode : Option Text
  enhancedCode : Option Text
  retryStrategy : Option Text
  reasonTag : Option Text
  confidenceHint : Text
  sessionStrategyId : Option Text
  deriving DecidableEq, Repr

/-- One row of `rowsFromOutput`, for the reason in the second column of a file of the
chunk. -/
def traceRow (routingProvider : Option Text) (bucket : Bucket) (column : Text) : TraceRow :=
  let defaultProvider := normalizeProvider (routingProvider.getD [])
  let parsed := parseReasonEvidence (trim column)
  { provider := normalizeProvider ((parsed "provider".toList).getD defaultProvider)
    policyVersion := parsed "policy".toList
    matchedRuleId := parsed "rule".toList
    decisionClass := resolveDecisionClass ((parsed "decision".toList).getD []) bucket
    smtpCode := parsed "smtp".toList
    enhancedCode := parsed "enhanced".toList
    retryStrategy := parsed "strategy".toList
    reasonTag := normalizeReasonTag ((parsed "tag".toList).getD [])
      ((parsed "base_reason".toList).getD [])
    confidenceHint := normalizeConfidence
      ((parsed "confidence".toList).getD ((parsed "evidence".toList).getD []))
    sessionStrategyId := parsed "session_strategy_id".toList }

/-! ## What the worker writes -/

/-- The tag that is written. -/
def writtenTag (result : VerifierResult) (taxonomy : Bool) : Text :=
  if taxonomy then normalizedReasonTag result (reasonPart result) else trimSpace result.reasonTag

/-- The fields of the evidence, those without a value too. -/
def evidence (result : VerifierResult) (chain taxonomy : Bool) : List (Text × Text) :=
  [("decision".toList, trimSpace result.decisionClass),
    ("confidence".toList, trimSpace result.decisionConfidence),
    ("retry".toList, trimSpace result.retryStrategy),
    ("policy".toList, trimSpace result.policyVersion),
    ("rule".toList, trimSpace result.matchedRuleId),
    ("tag".toList, writtenTag result taxonomy),
    ("mode".toList, trimSpace result.providerMode),
    ("session".toList, trimSpace result.sessionStrategyId),
    ("provider".toList, trimSpace result.providerProfile),
    ("mx".toList, trimSpace result.mxHost),
    ("attempt".toList,
      if 0 < result.attemptNumber then (toString result.attemptNumber).toList else []),
    ("route".toList, trimSpace result.attemptRoute),
    ("evidence".toList, trimSpace result.evidenceStrength),
    ("attempt_chain".toList, if chain then encodeToString result.attemptChain else [])]

theorem segment_eq {key value : Text} : segment (key ++ ['=']) value =
    (nonempty [(key, value)]).map render := by
  rw [Worker.segment, nonempty, List.filter_singleton]
  by_cases h : value = []
  · simp [h]
  · simp [h, render]

theorem nonempty_cons {field : Text × Text} {rest : List (Text × Text)} :
    nonempty (field :: rest) = nonempty [field] ++ nonempty rest :=
  List.filter_append [field] rest

theorem evidenceSegments_eq {result : VerifierResult} {chain taxonomy : Bool} :
    evidenceSegments result (reasonPart result) chain taxonomy =
      (nonempty (evidence result chain taxonomy)).map render := by
  have happend : ∀ {fields : List (Text × Text)},
      (nonempty fields).map render =
        (fields.map fun field => segment (field.1 ++ ['=']) field.2).flatten := by
    intro fields
    induction fields with
    | nil => rfl
    | cons field rest ih =>
      rw [nonempty_cons, List.map_append, ih, List.map_cons, List.flatten_cons, segment_eq]
  rw [happend]
  show _ = segment "decision=".toList _ ++ (segment "confidence=".toList _ ++
    (segment "retry=".toList _ ++ (segment "policy=".toList _ ++ (segment "rule=".toList _ ++
    (segment "tag=".toList _ ++ (segment "mode=".toList _ ++ (segment "session=".toList _ ++
    (segment "provider=".toList _ ++ (segment "mx=".toList _ ++ (segment "attempt=".toList _ ++
    (segment "route=".toList _ ++ (segment "evidence=".toList _ ++
    (segment "attempt_chain=".toList _ ++ [])))))))))))))
  simp only [evidenceSegments, List.append_assoc, List.append_nil]
  rfl

theorem joinSegments_eq {fields : List (Text × Text)} :
    joinSegments (fields.map render) = line fields := by
  fun_induction line fields with
  | case1 => rfl
  | case2 field => rfl
  | case3 field rest hrest ih =>
    rw [List.map_cons, joinSegments, ih]
    exact fun h => hrest (List.map_eq_nil_iff.mp h)

/-- The column is the reason, and the line of the fields that have a value. -/
theorem reasonWithEvidence_eq {result : VerifierResult} {chain taxonomy : Bool} :
    reasonWithEvidence result chain taxonomy =
      if nonempty (evidence result chain taxonomy) = [] then reasonPart result
      else reasonPart result ++ ':' :: line (nonempty (evidence result chain taxonomy)) := by
  rw [reasonWithEvidence_segments, evidenceSegments_eq, joinSegments_eq]
  simp only [List.map_eq_nil_iff]

theorem distinct_evidence {result : VerifierResult} {chain taxonomy : Bool} :
    Distinct (evidence result chain taxonomy) := by
  have hkeys : (evidence result chain taxonomy).map Prod.fst =
      ["decision".toList, "confidence".toList, "retry".toList, "policy".toList, "rule".toList,
        "tag".toList, "mode".toList, "session".toList, "provider".toList, "mx".toList,
        "attempt".toList, "route".toList, "evidence".toList, "attempt_chain".toList] := rfl
  refine ⟨fun field hfield => ?_, by rw [hkeys]; decide⟩
  have hmem : field.1 ∈ (evidence result chain taxonomy).map Prod.fst :=
    List.mem_map_of_mem hfield
  rw [hkeys] at hmem
  have hall : ∀ key ∈ ["decision".toList, "confidence".toList, "retry".toList, "policy".toList,
      "rule".toList, "tag".toList, "mode".toList, "session".toList, "provider".toList,
      "mx".toList, "attempt".toList, "route".toList, "evidence".toList,
      "attempt_chain".toList], KeyValues.Clean key := by decide
  exact hall field.1 hmem

/-! ## Delimiters -/

/-- The texts of a result that go into the evidence. -/
def evidenceTexts (result : VerifierResult) : List Text :=
  [result.decisionClass, result.decisionConfidence, result.retryStrategy, result.policyVersion,
    result.matchedRuleId, result.reasonTag, result.providerMode, result.sessionStrategyId,
    result.providerProfile, result.mxHost, result.attemptRoute, result.evidenceStrength]

/-- The fields can be told apart where they are joined. -/
structure Separable (result : VerifierResult) : Prop where
  reason : ':' ∉ result.reason
  texts : ∀ s ∈ evidenceTexts result, ';' ∉ s

instance {result : VerifierResult} : Decidable (Separable result) :=
  decidable_of_iff (':' ∉ result.reason ∧ ∀ s ∈ evidenceTexts result, ';' ∉ s)
    ⟨fun h => ⟨h.1, h.2⟩, fun h => ⟨h.1, h.2⟩⟩

variable {result : VerifierResult} {chain taxonomy : Bool}

theorem not_mem_trimSpace {c : Char} {s : Text} (h : c ∉ s) : c ∉ trimSpace s :=
  fun hc => h ((trimBy_sublist isSpace s).subset hc)

theorem not_mem_reasonPart (h : ':' ∉ result.reason) : ':' ∉ reasonPart result := by
  rw [reasonPart]
  split
  · decide
  · exact not_mem_trimSpace h

/-- Lowering makes no semicolon. -/
theorem not_mem_toLower {s : Text} (h : ';' ∉ s) : ';' ∉ toLower s := by
  intro hc
  obtain ⟨d, hd, heq⟩ := List.mem_map.mp hc
  have hne : d ≠ ';' := fun heq' => h (heq' ▸ hd)
  revert heq
  rw [lowerChar]
  split
  · exact fun heq => absurd heq (by decide)
  · split
    · exact fun heq => absurd heq (by decide)
    · intro heq
      rcases toLower_cases d with hkeep | hlow
      · exact hne (hkeep ▸ heq)
      · rw [heq] at hlow
        exact absurd hlow (by decide)

theorem not_mem_writtenTag (h : ';' ∉ result.reasonTag) : ';' ∉ writtenTag result taxonomy := by
  have hword : ∀ tag ∈ taxonomyTags, ';' ∉ tag := by decide
  rw [writtenTag]
  split
  · exact normalizedReasonTag_induction (motive := fun tag => ';' ∉ tag)
      (not_mem_toLower (not_mem_trimSpace h)) hword
  · exact not_mem_trimSpace h

theorem not_mem_encodeToString {bytes : List UInt8} : ';' ∉ encodeToString bytes := by
  have halphabet : base64Alphabet.elem ';' = false := by decide
  intro hc
  rw [List.elem_eq_true_of_mem (encodeToString_subset bytes hc)] at halphabet
  exact nomatch halphabet

theorem not_mem_toString {n : Int} (h : 0 < n) : ';' ∉ (toString n).toList := by
  obtain ⟨m, rfl⟩ := Int.eq_ofNat_of_zero_le (Int.le_of_lt h)
  intro hc
  rw [show (toString (m : Int)).toList = Nat.toDigits 10 m from Nat.toList_repr] at hc
  exact absurd (Nat.isDigit_of_mem_toDigits (by decide) (by decide) hc) (by decide)

theorem undelimited_evidence (h : ∀ s ∈ evidenceTexts result, ';' ∉ s) :
    Undelimited (evidence result chain taxonomy) := by
  have htext : ∀ s ∈ evidenceTexts result, ';' ∉ trimSpace s :=
    fun s hs => not_mem_trimSpace (h s hs)
  have hattempt : ';' ∉ (if 0 < result.attemptNumber then
      (toString result.attemptNumber).toList else []) := by
    split
    · next hpos => exact not_mem_toString hpos
    · exact List.not_mem_nil
  have hchain : ';' ∉ (if chain then encodeToString result.attemptChain else []) := by
    split
    · exact not_mem_encodeToString
    · exact List.not_mem_nil
  have htag : ';' ∉ writtenTag result taxonomy :=
    not_mem_writtenTag (h result.reasonTag (by simp [evidenceTexts]))
  intro field hfield
  simp only [evidence, List.mem_cons, List.not_mem_nil, or_false] at hfield
  rcases hfield with rfl | rfl | rfl | rfl | rfl | rfl | rfl | rfl | rfl | rfl | rfl | rfl |
    rfl | rfl
  all_goals first
    | exact htext _ (by simp [evidenceTexts])
    | exact htag
    | exact hattempt
    | exact hchain

/-! ## What the recorder reads -/

/-- What is trimmed of the column: the reason at its front, the line at its end. -/
theorem trim_column {reason fields : Text} (h : ':' ∉ reason) :
    trim (reason ++ ':' :: fields) =
        reason.dropWhile isBlank ++ ':' :: fields.rdropWhile isBlank ∧
      ':' ∉ reason.dropWhile isBlank := by
  refine ⟨trimBy_append_cons (by decide), fun hc => h ?_⟩
  exact (List.dropWhile_sublist isBlank).subset hc

/-- **Each field is read as it was written**, trimmed. -/
theorem parsed_evidence (h : Separable result) {key : Text} (hkey : key ≠ "base_reason".toList) :
    parseReasonEvidence (trim (reasonWithEvidence result chain taxonomy)) key =
      ((evidence result chain taxonomy).lookup key).bind fun v => filled (trim v) := by
  have hreason : ':' ∉ reasonPart result := not_mem_reasonPart h.reason
  have hdistinct : Distinct (evidence result chain taxonomy) := distinct_evidence
  rw [← lookup_nonempty hdistinct.nodup, parseReasonEvidence, trim_trim, reasonWithEvidence_eq]
  by_cases hempty : nonempty (evidence result chain taxonomy) = []
  · rw [if_pos hempty, hempty]
    have hnone : ':' ∉ trim (reasonPart result) :=
      fun hc => hreason ((trimBy_sublist isBlank _).subset hc)
    dsimp only
    by_cases hblank : trim (reasonPart result) = []
    · rw [if_pos hblank]
      rfl
    · rw [if_neg hblank, if_neg hnone, Function.update_of_ne hkey]
      rfl
  · obtain ⟨htrim, hfront⟩ := @trim_column _ (line (nonempty (evidence result chain taxonomy)))
      hreason
    rw [if_neg hempty, htrim]
    dsimp only
    rw [if_neg (by simp), if_pos (by simp), Function.update_of_ne hkey, after_append hfront]
    exact read_rdropWhile_line hdistinct.nonempty (undelimited_evidence h.texts).nonempty hempty

/-- The reason itself, lowered. -/
theorem parsed_base_reason (h : Separable result) :
    (parseReasonEvidence (trim (reasonWithEvidence result chain taxonomy))
      "base_reason".toList).getD [] = strtolower (trim (reasonPart result)) := by
  have hreason : ':' ∉ reasonPart result := not_mem_reasonPart h.reason
  rw [parseReasonEvidence, trim_trim, reasonWithEvidence_eq]
  by_cases hempty : nonempty (evidence result chain taxonomy) = []
  · rw [if_pos hempty]
    dsimp only
    split
    · next hnil =>
      rw [hnil]
      rfl
    · have hnone : ':' ∉ trim (reasonPart result) :=
        fun hc => hreason ((trimBy_sublist isBlank _).subset hc)
      have hbefore : before ':' (trim (reasonPart result)) = trim (reasonPart result) := by
        rw [before, List.takeWhile_eq_self_iff]
        intro c hc
        have hne : c ≠ ':' := fun heq => hnone (heq ▸ hc)
        simpa using hne
      rw [Function.update_self, hbefore, trim_trim, Option.getD_some]
  · obtain ⟨htrim, hfront⟩ := @trim_column _ (line (nonempty (evidence result chain taxonomy)))
      hreason
    rw [if_neg hempty, htrim]
    dsimp only
    rw [if_neg (by simp), Function.update_self, before_append hfront, Option.getD_some]
    exact congrArg strtolower trimBy_dropWhile

/-! ## A whole result -/

/-- `verifier.Result` with what the reply said. -/
structure Result extends VerifierResult where
  smtpCode : Int := 0
  enhancedCode : Text := []
  deriving DecidableEq, Repr

/-- No field of the evidence has one of the delimiters. -/
def NoDelimiter (result : Result) : Prop :=
  ∀ s ∈ result.reason :: result.enhancedCode :: evidenceTexts result.toVerifierResult,
    ';' ∉ s ∧ '=' ∉ s ∧ ':' ∉ s

instance {result : Result} : Decidable (NoDelimiter result) :=
  inferInstanceAs (Decidable (∀ s ∈ _, ';' ∉ s ∧ '=' ∉ s ∧ ':' ∉ s))

theorem NoDelimiter.separable {result : Result} (h : NoDelimiter result) :
    Separable result.toVerifierResult :=
  ⟨(h _ (.head _)).2.2, fun s hs => (h s (.tail _ (.tail _ hs))).1⟩

/-- A greylisted address at gmail. -/
def greylisted : Result :=
  { category := "risky".toList
    reason := "smtp_tempfail".toList
    decisionClass := "retryable".toList
    reasonTag := "greylist".toList
    providerProfile := "gmail".toList
    decisionConfidence := "medium".toList
    retryStrategy := "greylist".toList
    smtpCode := 451
    enhancedCode := "4.7.1".toList }

theorem noDelimiter_greylisted : NoDelimiter greylisted := by decide

/-! ## What the row says -/

theorem getD_filled {s : Text} : (filled s).getD [] = s := by
  rw [filled]
  split
  · next h => exact h.symm
  · rfl

theorem resolveDecisionClass_trim {decision : Text} {bucket : Bucket} :
    resolveDecisionClass (trim decision) bucket = resolveDecisionClass decision bucket := by
  rw [resolveDecisionClass, resolveDecisionClass, trim_trim]

theorem normalizeConfidence_trim {value : Text} :
    normalizeConfidence (trim value) = normalizeConfidence value := by
  rw [normalizeConfidence, normalizeConfidence, trim_trim]

theorem normalizeReasonTag_trim {value baseReason : Text} :
    normalizeReasonTag (trim value) baseReason = normalizeReasonTag value baseReason := by
  rw [normalizeReasonTag, normalizeReasonTag, trim_trim]

theorem normalizeProvider_trim {provider : Text} :
    normalizeProvider (trim provider) = normalizeProvider provider := by
  rw [normalizeProvider, normalizeProvider, trim_trim]

/-- A provider's name that the recorder knows. -/
def providers : List Text :=
  ["gmail".toList, "microsoft".toList, "yahoo".toList, "generic".toList]

theorem normalizeProvider_mem {provider : Text} : normalizeProvider provider ∈ providers := by
  rw [normalizeProvider]
  split
  · next h => exact h
  · decide

theorem normalizeProvider_of_mem {provider : Text} (h : provider ∈ providers) :
    normalizeProvider provider = provider := by
  have hall : ∀ provider ∈ providers, normalizeProvider provider = provider := by
    decide
  exact hall provider h

/-- What the recorder is meant to keep of a result. -/
structure Recorded (result : VerifierResult) (taxonomy : Bool) (routingProvider : Option Text)
    (bucket : Bucket) (row : TraceRow) : Prop where
  decisionClass :
    row.decisionClass = resolveDecisionClass (trimSpace result.decisionClass) bucket
  confidenceHint : row.confidenceHint = normalizeConfidence
    (if trim (trimSpace result.decisionConfidence) = [] then trimSpace result.evidenceStrength
    else trimSpace result.decisionConfidence)
  reasonTag : row.reasonTag = normalizeReasonTag (writtenTag result taxonomy)
    (strtolower (trim (reasonPart result)))
  provider : row.provider = normalizeProvider
    (if trim (trimSpace result.providerProfile) = [] then routingProvider.getD []
    else trimSpace result.providerProfile)
  policyVersion : row.policyVersion = filled (trim (trimSpace result.policyVersion))
  matchedRuleId : row.matchedRuleId = filled (trim (trimSpace result.matchedRuleId))
  decisionClass_known : result.decisionClass ∈ ["deliverable".toList, "undeliverable".toList] →
    row.decisionClass = result.decisionClass
  confidence_known : result.decisionConfidence ∈ ["low".toList, "medium".toList, "high".toList] →
    row.confidenceHint = result.decisionConfidence
  provider_known : result.providerProfile ∈ providers → row.provider = result.providerProfile
  tag_written : trim (writtenTag result taxonomy) ≠ [] →
    row.reasonTag = some (strtolower (trim (writtenTag result taxonomy)))

variable {routingProvider : Option Text} {bucket : Bucket}

theorem strtolower_ne_nil {s : Text} (h : s ≠ []) : strtolower s ≠ [] :=
  fun hnil => h (List.map_eq_nil_iff.mp hnil)

/-- A field under one of the worker's names. -/
theorem parsed_field (h : Separable result) {key value : Text} (hkey : key ≠ "base_reason".toList)
    (hlookup : (evidence result chain taxonomy).lookup key = some value) :
    parseReasonEvidence (trim (reasonWithEvidence result chain taxonomy)) key =
      filled (trim value) := by
  rw [parsed_evidence h hkey, hlookup]
  rfl

/-- A field under a name that the worker does not write. -/
theorem parsed_unwritten (h : Separable result) {key : Text} (hkey : key ≠ "base_reason".toList)
    (hlookup : (evidence result chain taxonomy).lookup key = none) :
    parseReasonEvidence (trim (reasonWithEvidence result chain taxonomy)) key = none := by
  rw [parsed_evidence h hkey, hlookup]
  rfl

theorem decisionClass_traceRow (h : Separable result) :
    (traceRow routingProvider bucket (reasonWithEvidence result chain taxonomy)).decisionClass =
      resolveDecisionClass (trimSpace result.decisionClass) bucket := by
  have hdecision : parseReasonEvidence (trim (reasonWithEvidence result chain taxonomy))
      "decision".toList = filled (trim (trimSpace result.decisionClass)) :=
    parsed_field h (by decide) rfl
  rw [traceRow]
  dsimp only
  rw [hdecision, getD_filled, resolveDecisionClass_trim]

theorem confidenceHint_traceRow (h : Separable result) :
    (traceRow routingProvider bucket (reasonWithEvidence result chain taxonomy)).confidenceHint =
      normalizeConfidence (if trim (trimSpace result.decisionConfidence) = [] then
        trimSpace result.evidenceStrength else trimSpace result.decisionConfidence) := by
  have hconfidence : parseReasonEvidence (trim (reasonWithEvidence result chain taxonomy))
      "confidence".toList = filled (trim (trimSpace result.decisionConfidence)) :=
    parsed_field h (by decide) rfl
  have hstrength : parseReasonEvidence (trim (reasonWithEvidence result chain taxonomy))
      "evidence".toList = filled (trim (trimSpace result.evidenceStrength)) :=
    parsed_field h (by decide) rfl
  rw [traceRow]
  dsimp only
  rw [hconfidence, hstrength, getD_filled, filled]
  split
  · exact normalizeConfidence_trim
  · exact normalizeConfidence_trim

theorem reasonTag_traceRow (h : Separable result) :
    (traceRow routingProvider bucket (reasonWithEvidence result chain taxonomy)).reasonTag =
      normalizeReasonTag (writtenTag result taxonomy) (strtolower (trim (reasonPart result))) := by
  have htag : parseReasonEvidence (trim (reasonWithEvidence result chain taxonomy))
      "tag".toList = filled (trim (writtenTag result taxonomy)) :=
    parsed_field h (by decide) rfl
  rw [traceRow]
  dsimp only
  rw [htag, getD_filled, parsed_base_reason h, normalizeReasonTag_trim]

theorem provider_traceRow (h : Separable result) :
    (traceRow routingProvider bucket (reasonWithEvidence result chain taxonomy)).provider =
      normalizeProvider (if trim (trimSpace result.providerProfile) = [] then
        routingProvider.getD [] else trimSpace result.providerProfile) := by
  have hprovider : parseReasonEvidence (trim (reasonWithEvidence result chain taxonomy))
      "provider".toList = filled (trim (trimSpace result.providerProfile)) :=
    parsed_field h (by decide) rfl
  rw [traceRow]
  dsimp only
  rw [hprovider, filled]
  split
  · exact normalizeProvider_of_mem normalizeProvider_mem
  · exact normalizeProvider_trim

/-- **The fields that both sides call by the same name are kept.** -/
theorem recorded_traceRow (h : Separable result) :
    Recorded result taxonomy routingProvider bucket
      (traceRow routingProvider bucket (reasonWithEvidence result chain taxonomy)) where
  decisionClass := decisionClass_traceRow h
  confidenceHint := confidenceHint_traceRow h
  reasonTag := reasonTag_traceRow h
  provider := provider_traceRow h
  policyVersion := by
    have hpolicy : parseReasonEvidence (trim (reasonWithEvidence result chain taxonomy))
        "policy".toList = filled (trim (trimSpace result.policyVersion)) :=
      parsed_field h (by decide) rfl
    rw [traceRow, ← hpolicy]
  matchedRuleId := by
    have hrule : parseReasonEvidence (trim (reasonWithEvidence result chain taxonomy))
        "rule".toList = filled (trim (trimSpace result.matchedRuleId)) :=
      parsed_field h (by decide) rfl
    rw [traceRow, ← hrule]
  decisionClass_known := by
    intro hknown
    have hall : ∀ decision ∈ ["deliverable".toList, "undeliverable".toList], ∀ bucket,
        resolveDecisionClass (trimSpace decision) bucket = decision := by
      intro decision hmem bucket
      cases bucket <;> revert decision <;> decide
    rw [decisionClass_traceRow h, hall _ hknown bucket]
  confidence_known := by
    intro hknown
    have hall : ∀ value ∈ ["low".toList, "medium".toList, "high".toList],
        trim (trimSpace value) ≠ [] ∧ normalizeConfidence (trimSpace value) = value := by
      decide
    obtain ⟨hne, heq⟩ := hall _ hknown
    rw [confidenceHint_traceRow h, if_neg hne, heq]
  provider_known := by
    intro hknown
    have hall : ∀ provider ∈ providers,
        trim (trimSpace provider) ≠ [] ∧ trimSpace provider = provider := by decide
    obtain ⟨hne, heq⟩ := hall _ hknown
    rw [provider_traceRow h, if_neg hne, heq, normalizeProvider_of_mem hknown]
  tag_written := by
    intro hne
    rw [reasonTag_traceRow h, normalizeReasonTag, if_pos (strtolower_ne_nil hne)]

/-- The row of a greylisted address. -/
theorem recorded_greylisted :
    Recorded greylisted.toVerifierResult false none .risky
      (traceRow none .risky
        (reasonWithEvidence greylisted.toVerifierResult true false)) :=
  recorded_traceRow noDelimiter_greylisted.separable

/-! ## What the row loses -/

/-- The cell says what the value says, or `unknown` or nothing where there is no value. -/
def Unchanged (value : Text) (cell : Option Text) : Prop :=
  cell = some value ∨ value = [] ∧ (cell = none ∨ cell = some "unknown".toList)

instance {value : Text} {cell : Option Text} : Decidable (Unchanged value cell) :=
  inferInstanceAs (Decidable (_ ∨ _ ∧ (_ ∨ _)))

/-- Every field of the result is in the row. -/
structure Carried (result : Result) (row : TraceRow) : Prop where
  decisionClass : Unchanged result.decisionClass (some row.decisionClass)
  retryStrategy : Unchanged result.retryStrategy row.retryStrategy
  sessionStrategyId : Unchanged result.sessionStrategyId row.sessionStrategyId
  confidence : Unchanged result.decisionConfidence (some row.confidenceHint)
  reasonTag : Unchanged result.reasonTag row.reasonTag
  providerProfile : Unchanged result.providerProfile (some row.provider)
  smtpCode : Unchanged (if result.smtpCode = 0 then [] else (toString result.smtpCode).toList)
    row.smtpCode
  enhancedCode : Unchanged result.enhancedCode row.enhancedCode

/-- The recorder's own names are not the worker's. -/
theorem unwritten_traceRow (h : Separable result) {row : TraceRow}
    (hrow : row = traceRow routingProvider bucket (reasonWithEvidence result chain taxonomy)) :
    row.smtpCode = none ∧ row.enhancedCode = none ∧ row.retryStrategy = none ∧
      row.sessionStrategyId = none := by
  have hsmtp : parseReasonEvidence (trim (reasonWithEvidence result chain taxonomy))
      "smtp".toList = none := parsed_unwritten h (by decide) rfl
  have henhanced : parseReasonEvidence (trim (reasonWithEvidence result chain taxonomy))
      "enhanced".toList = none := parsed_unwritten h (by decide) rfl
  have hstrategy : parseReasonEvidence (trim (reasonWithEvidence result chain taxonomy))
      "strategy".toList = none := parsed_unwritten h (by decide) rfl
  have hsession : parseReasonEvidence (trim (reasonWithEvidence result chain taxonomy))
      "session_strategy_id".toList = none := parsed_unwritten h (by decide) rfl
  rw [hrow, traceRow]
  dsimp only
  exact ⟨hsmtp, henhanced, hstrategy, hsession⟩

/-- **Not everything is carried**: the row of a greylisted address is of an unknown
decision, without retry strategy and without the codes of the reply. -/
theorem not_carried : ¬ ∀ (result : Result) (chain taxonomy : Bool)
    (routingProvider : Option Text) (bucket : Bucket), NoDelimiter result →
      Carried result (traceRow routingProvider bucket
        (reasonWithEvidence result.toVerifierResult chain taxonomy)) := by
  intro h
  have hrow := h greylisted true false none .risky noDelimiter_greylisted
  have hdecision := hrow.decisionClass
  rw [decisionClass_traceRow noDelimiter_greylisted.separable] at hdecision
  exact absurd hdecision (by decide)

end ValidEmailVerifier.SmtpDecisionTraceRecorder
