/-
# `Pipeline.ReasonEvidence` — the reason column of a worker's row

`reasonWithEvidence`: the reason of a verdict, and behind a colon what is known of
how it came about.  Whatever the verifier says, the column is not empty and has no white
space around it (`trimSpace_reasonWithEvidence`), though it may well have line breaks,
quotes and backslashes inside.
-/
import ValidEmailVerifier.Lib.GoStrings
import ValidEmailVerifier.Pipeline.Worker

namespace ValidEmailVerifier.Worker

open Text GoStrings

/-- `verifier.Result`, as far as the row shows it.  `attemptChain` is the JSON of the
chain of attempts, empty when there is none. -/
structure VerifierResult where
  category : Text := []
  reason : Text := []
  decisionClass : Text := []
  reasonTag : Text := []
  mxHost : Text := []
  attemptNumber : Int := 0
  attemptRoute : Text := []
  attemptChain : List UInt8 := []
  evidenceStrength : Text := []
  providerProfile : Text := []
  providerMode : Text := []
  sessionStrategyId : Text := []
  policyVersion : Text := []
  matchedRuleId : Text := []
  decisionConfidence : Text := []
  retryStrategy : Text := []
  deriving DecidableEq, Repr

/-! ## `base64.RawURLEncoding` -/

def base64Alphabet : Text :=
  "ABCDEFGHIJKLMNOPQRSTUVWXYZabcdefghijklmnopqrstuvwxyz0123456789-_".toList

/-- The sign of the lowest six bits. -/
def base64Sign (n : Nat) : Char := base64Alphabet.getD (n % 64) 'A'

def encodeToString : List UInt8 → Text
  | a :: b :: c :: rest =>
      let n := 65536 * a.toNat + 256 * b.toNat + c.toNat
      base64Sign (n / 262144) :: base64Sign (n / 4096) :: base64Sign (n / 64) ::
        base64Sign n :: encodeToString rest
  | [a, b] =>
      let n := 65536 * a.toNat + 256 * b.toNat
      [base64Sign (n / 262144), base64Sign (n / 4096), base64Sign (n / 64)]
  | [a] =>
      let n := 65536 * a.toNat
      [base64Sign (n / 262144), base64Sign (n / 4096)]
  | [] => []

/-! ## The column -/

def normalizedReasonTag (result : VerifierResult) (baseReason : Text) : Text :=
  let currentTag := toLower (trimSpace result.reasonTag)
  let baseReason := toLower (trimSpace baseReason)
  let decisionClass := toLower (trimSpace result.decisionClass)
  if result.category ≠ "risky".toList then currentTag
  else if baseReason = "smtp_probe_identity_missing".toList ∨
      contains baseReason "mailfrom".toList ∨ currentTag = "auth_required".toList then
    "identity_rejected".toList
  else if contains baseReason "connect_timeout".toList ∨
      contains baseReason "read_error".toList ∨ baseReason = "smtp_timeout".toList then
    "connection_unstable".toList
  else if decisionClass = "policy_blocked".toList ∨ currentTag = "policy_blocked".toList ∨
      contains baseReason "policy_blocked".toList then
    "policy_blocked_ambiguous".toList
  else if decisionClass = "retryable".toList ∨ baseReason = "smtp_tempfail".toList ∨
      currentTag = "greylist".toList ∨ currentTag = "rate_limit".toList then
    "provider_tempfail_unresolved".toList
  else if decisionClass = "unknown".toList then
    if currentTag = "unknown_transient".toList ∨ currentTag = [] then
      "unknown_transient".toList
    else "other_unknown".toList
  else if currentTag ∈ ["unknown_transient".toList, "policy_blocked_ambiguous".toList,
      "provider_tempfail_unresolved".toList, "connection_unstable".toList,
      "identity_rejected".toList, "other_unknown".toList] then
    currentTag
  else if currentTag = "policy_blocked".toList then "policy_blocked_ambiguous".toList
  else if currentTag = "greylist".toList ∨ currentTag = "rate_limit".toList then
    "provider_tempfail_unresolved".toList
  else "other_unknown".toList

/-- A segment of the evidence, when there is a value for it. -/
def segment (name value : Text) : List Text := if value = [] then [] else [name ++ value]

/-- The segments, in their order. -/
def evidenceSegments (result : VerifierResult) (reason : Text)
    (probeAttemptChainEnabled unknownReasonTaxonomyEnabled : Bool) : List Text :=
  segment "decision=".toList (trimSpace result.decisionClass) ++
    segment "confidence=".toList (trimSpace result.decisionConfidence) ++
    segment "retry=".toList (trimSpace result.retryStrategy) ++
    segment "policy=".toList (trimSpace result.policyVersion) ++
    segment "rule=".toList (trimSpace result.matchedRuleId) ++
    segment "tag=".toList
      (if unknownReasonTaxonomyEnabled then normalizedReasonTag result reason
      else trimSpace result.reasonTag) ++
    segment "mode=".toList (trimSpace result.providerMode) ++
    segment "session=".toList (trimSpace result.sessionStrategyId) ++
    segment "provider=".toList (trimSpace result.providerProfile) ++
    segment "mx=".toList (trimSpace result.mxHost) ++
    segment "attempt=".toList
      (if 0 < result.attemptNumber then (toString result.attemptNumber).toList else []) ++
    segment "route=".toList (trimSpace result.attemptRoute) ++
    segment "evidence=".toList (trimSpace result.evidenceStrength) ++
    segment "attempt_chain=".toList
      (if probeAttemptChainEnabled then encodeToString result.attemptChain else [])

/-- `strings.Join(segments, ";")`. -/
def joinSegments : List Text → Text
  | [] => []
  | [s] => s
  | s :: rest => s ++ ';' :: joinSegments rest

def reasonWithEvidence (result : VerifierResult)
    (probeAttemptChainEnabled unknownReasonTaxonomyEnabled : Bool) : Text :=
  let reason := if trimSpace result.reason = [] then "unknown".toList
    else trimSpace result.reason
  let segments := evidenceSegments result reason probeAttemptChainEnabled
    unknownReasonTaxonomyEnabled
  if segments = [] then reason else reason ++ ':' :: joinSegments segments

/-! ## Blank ends -/

/-- The text does not end in white space. -/
def EndsWell (s : Text) : Prop := ∀ c ∈ s.getLast?, isSpace c = false

theorem endsWell_nil : EndsWell [] := fun _ h => nomatch h

theorem endsWell_append {first second : Text} (h : EndsWell second) (hne : second ≠ []) :
    EndsWell (first ++ second) := by
  intro c hc
  rw [List.getLast?_append_of_ne_nil _ hne] at hc
  exact h c hc

theorem endsWell_of_all {s : Text} (h : ∀ c ∈ s, isSpace c = false) : EndsWell s :=
  fun c hc => h c (List.mem_of_mem_getLast? hc)

theorem endsWell_trimSpace {s : Text} : EndsWell (trimSpace s) :=
  (trimBy_eq_self_iff.mp (trimBy_trimBy (fun _ h => h) s)).2

/-- No lower case letter is white space. -/
theorem isSpace_of_lower {c : Char} (hlow : 97 ≤ c.val.toNat) (hhigh : c.val.toNat ≤ 122) :
    isSpace c = false := by
  have hall : ∀ n, n < 123 → 97 ≤ n → isSpace (Char.ofNat n) = false := by decide
  have hc := hall c.val.toNat (by omega) hlow
  rwa [show Char.ofNat c.val.toNat = c from Char.ofNat_toNat c] at hc

/-- Lowering makes no white space. -/
theorem isSpace_lowerChar {c : Char} (h : isSpace c = false) : isSpace (lowerChar c) = false := by
  rw [lowerChar]
  split
  · decide
  · split
    · decide
    · unfold Char.toLower
      split
      · next hupper =>
        obtain ⟨h1, h2⟩ := hupper
        rw [ge_iff_le, UInt32.le_iff_toNat_le] at h1
        rw [UInt32.le_iff_toNat_le] at h2
        have hA : 'A'.val.toNat = 65 := rfl
        have hZ : 'Z'.val.toNat = 90 := rfl
        have h32 : ('a'.val - 'A'.val).toNat = 32 := rfl
        apply isSpace_of_lower <;>
        · simp only [UInt32.toNat_add]
          omega
      · exact h

theorem endsWell_toLower {s : Text} (h : EndsWell s) : EndsWell (toLower s) := by
  intro c hc
  rw [toLower, List.getLast?_map, Option.mem_def, Option.map_eq_some_iff] at hc
  obtain ⟨d, hd, rfl⟩ := hc
  exact isSpace_lowerChar (h d hd)

/-- The tags of the taxonomy. -/
def taxonomyTags : List Text :=
  ["identity_rejected".toList, "connection_unstable".toList, "policy_blocked_ambiguous".toList,
    "provider_tempfail_unresolved".toList, "unknown_transient".toList, "other_unknown".toList]

/-- A tag is kept or replaced by one of the taxonomy. -/
theorem normalizedReasonTag_induction {result : VerifierResult} {reason : Text}
    {motive : Text → Prop} (hkept : motive (toLower (trimSpace result.reasonTag)))
    (hreplaced : ∀ tag ∈ taxonomyTags, motive tag) :
    motive (normalizedReasonTag result reason) := by
  have hidentity := hreplaced _ (.head _)
  have hconnection := hreplaced _ (.tail _ (.head _))
  have hpolicy := hreplaced _ (.tail _ (.tail _ (.head _)))
  have htempfail := hreplaced _ (.tail _ (.tail _ (.tail _ (.head _))))
  have htransient := hreplaced _ (.tail _ (.tail _ (.tail _ (.tail _ (.head _)))))
  have hother := hreplaced _ (.tail _ (.tail _ (.tail _ (.tail _ (.tail _ (.head _))))))
  rw [normalizedReasonTag]
  refine iteInduction (fun _ => hkept) fun _ => ?_
  refine iteInduction (fun _ => hidentity) fun _ => ?_
  refine iteInduction (fun _ => hconnection) fun _ => ?_
  refine iteInduction (fun _ => hpolicy) fun _ => ?_
  refine iteInduction (fun _ => htempfail) fun _ => ?_
  refine iteInduction (fun _ => ?_) fun _ => ?_
  · exact iteInduction (fun _ => htransient) fun _ => hother
  · refine iteInduction (fun _ => hkept) fun _ => ?_
    refine iteInduction (fun _ => hpolicy) fun _ => ?_
    exact iteInduction (fun _ => htempfail) fun _ => hother

theorem endsWell_normalizedReasonTag {result : VerifierResult} {reason : Text} :
    EndsWell (normalizedReasonTag result reason) := by
  have hword : ∀ tag ∈ taxonomyTags, tag.all (fun c => !isSpace c) = true := by decide
  refine normalizedReasonTag_induction (endsWell_toLower endsWell_trimSpace) fun tag htag => ?_
  refine endsWell_of_all fun c hc => ?_
  simpa using List.all_eq_true.mp (hword tag htag) c hc

theorem base64Sign_mem (n : Nat) : base64Sign n ∈ base64Alphabet := by
  have hlength : base64Alphabet.length = 64 := by decide
  have hlt : n % 64 < base64Alphabet.length := by
    rw [hlength]
    exact Nat.mod_lt n (by decide)
  rw [base64Sign, List.getD_eq_getElem?_getD, List.getElem?_eq_getElem hlt]
  exact List.getElem_mem hlt

/-- What is encoded is written in the alphabet. -/
theorem encodeToString_subset (bytes : List UInt8) : encodeToString bytes ⊆ base64Alphabet := by
  induction bytes using encodeToString.induct with
  | case1 a b c rest ih =>
    rw [encodeToString]
    simp [base64Sign_mem, ih]
  | case2 a b =>
    rw [encodeToString]
    simp [base64Sign_mem]
  | case3 a =>
    rw [encodeToString]
    simp [base64Sign_mem]
  | case4 => exact List.nil_subset _

theorem endsWell_encodeToString {bytes : List UInt8} : EndsWell (encodeToString bytes) := by
  have halphabet : base64Alphabet.any isSpace = false := by decide
  refine endsWell_of_all fun c hc => ?_
  exact Bool.not_eq_true _ ▸ List.any_eq_false.mp halphabet c (encodeToString_subset bytes hc)

/-! ## The column is trimmed -/

theorem endsWell_toString {n : Int} (h : 0 < n) : EndsWell (toString n).toList := by
  obtain ⟨m, rfl⟩ := Int.eq_ofNat_of_zero_le (Int.le_of_lt h)
  apply endsWell_of_all
  intro c hc
  have hdigit : c.isDigit = true := by
    rw [show (toString (m : Int)).toList = Nat.toDigits 10 m from Nat.toList_repr] at hc
    exact Nat.isDigit_of_mem_toDigits (by decide) (by decide) hc
  have hall : ∀ k, k < 58 → 48 ≤ k → isSpace (Char.ofNat k) = false := by decide
  rw [Char.isDigit, Bool.and_eq_true, decide_eq_true_eq, decide_eq_true_eq] at hdigit
  obtain ⟨h1, h2⟩ := hdigit
  rw [ge_iff_le, UInt32.le_iff_toNat_le] at h1
  rw [UInt32.le_iff_toNat_le] at h2
  have h0 : '0'.val.toNat = 48 := rfl
  have h9 : '9'.val.toNat = 57 := rfl
  have hc := hall c.val.toNat (by omega) (by omega)
  rwa [show Char.ofNat c.val.toNat = c from Char.ofNat_toNat c] at hc

/-- The texts are not empty, and end well. -/
def EndWell (segments : List Text) : Prop := ∀ s ∈ segments, s ≠ [] ∧ EndsWell s

theorem EndWell.append {first second : List Text} (h : EndWell first) (h' : EndWell second) :
    EndWell (first ++ second) := by
  intro s hs
  rcases List.mem_append.mp hs with hs | hs
  · exact h s hs
  · exact h' s hs

theorem endWell_segment {name value : Text} (h : EndsWell value) :
    EndWell (segment name value) := by
  intro s hs
  rw [segment] at hs
  split at hs
  · exact nomatch hs
  · next hne =>
    rw [List.mem_singleton.mp hs]
    exact ⟨List.append_ne_nil_of_right_ne_nil name hne, endsWell_append h hne⟩

theorem endWell_evidenceSegments {result : VerifierResult} {reason : Text}
    {chain taxonomy : Bool} : EndWell (evidenceSegments result reason chain taxonomy) := by
  have htrim : ∀ {name s : Text}, EndWell (segment name (trimSpace s)) :=
    endWell_segment endsWell_trimSpace
  have htag : EndsWell (if taxonomy then normalizedReasonTag result reason
      else trimSpace result.reasonTag) := by
    split
    · exact endsWell_normalizedReasonTag
    · exact endsWell_trimSpace
  have hattempt : EndsWell (if 0 < result.attemptNumber then
      (toString result.attemptNumber).toList else []) := by
    split
    · next h => exact endsWell_toString h
    · exact endsWell_nil
  have hchain : EndsWell (if chain then encodeToString result.attemptChain else []) := by
    split
    · exact endsWell_encodeToString
    · exact endsWell_nil
  rw [evidenceSegments]
  repeat' apply EndWell.append
  all_goals first
    | exact htrim
    | exact endWell_segment htag
    | exact endWell_segment hattempt
    | exact endWell_segment hchain

theorem endsWell_joinSegments {segments : List Text} (h : EndWell segments)
    (hne : segments ≠ []) : joinSegments segments ≠ [] ∧ EndsWell (joinSegments segments) := by
  fun_induction joinSegments segments with
  | case1 => exact absurd rfl hne
  | case2 s => exact h s (.head _)
  | case3 s rest hrest ih =>
    have hend := ih (fun s hs => h s (.tail _ hs)) hrest
    refine ⟨List.append_ne_nil_of_right_ne_nil _ nofun, endsWell_append ?_ nofun⟩
    exact @endsWell_append [';'] _ hend.2 hend.1

/-- What stands before the colon. -/
def reasonPart (result : VerifierResult) : Text :=
  if trimSpace result.reason = [] then "unknown".toList else trimSpace result.reason

theorem reasonPart_ne_nil {result : VerifierResult} : reasonPart result ≠ [] := by
  rw [reasonPart]
  split
  · exact nofun
  · next h => exact h

theorem trimSpace_reasonPart {result : VerifierResult} :
    trimSpace (reasonPart result) = reasonPart result := by
  rw [reasonPart]
  split
  · decide
  · exact trimBy_trimBy (fun _ h => h) _

/-- The reason stands alone if there are no segments, and before them otherwise. -/
theorem reasonWithEvidence_segments {result : VerifierResult} {chain taxonomy : Bool} :
    reasonWithEvidence result chain taxonomy =
      if evidenceSegments result (reasonPart result) chain taxonomy = [] then reasonPart result
      else reasonPart result ++
        ':' :: joinSegments (evidenceSegments result (reasonPart result) chain taxonomy) := rfl

/-- The column begins with the reason, and what follows ends well. -/
theorem exists_reasonWithEvidence {result : VerifierResult} {chain taxonomy : Bool} :
    ∃ evidence, reasonWithEvidence result chain taxonomy = reasonPart result ++ evidence ∧
      EndsWell evidence := by
  have hsegments : EndWell (evidenceSegments result (reasonPart result) chain taxonomy) :=
    endWell_evidenceSegments
  rw [reasonWithEvidence_segments]
  generalize evidenceSegments result (reasonPart result) chain taxonomy = segments at *
  split
  · exact ⟨[], (List.append_nil _).symm, endsWell_nil⟩
  · next hne =>
    obtain ⟨hjoin, hend⟩ := endsWell_joinSegments hsegments hne
    exact ⟨':' :: joinSegments segments, rfl, @endsWell_append [':'] _ hend hjoin⟩

/-- The column is not empty. -/
theorem reasonWithEvidence_ne_nil {result : VerifierResult} {chain taxonomy : Bool} :
    reasonWithEvidence result chain taxonomy ≠ [] := by
  obtain ⟨evidence, heq, -⟩ := @exists_reasonWithEvidence result chain taxonomy
  rw [heq]
  exact List.append_ne_nil_of_left_ne_nil reasonPart_ne_nil _

/-- **There is no white space around the column.** -/
theorem trimSpace_reasonWithEvidence {result : VerifierResult} {chain taxonomy : Bool} :
    trimSpace (reasonWithEvidence result chain taxonomy) =
      reasonWithEvidence result chain taxonomy := by
  obtain ⟨evidence, heq, hend⟩ := @exists_reasonWithEvidence result chain taxonomy
  obtain ⟨hfirst, hlast⟩ := trimBy_eq_self_iff.mp (@trimSpace_reasonPart result)
  rw [heq]
  refine trimBy_eq_self_iff.mpr ⟨?_, ?_⟩
  · rw [List.head?_append_of_ne_nil _ reasonPart_ne_nil]
    exact hfirst
  · cases evidence with
    | nil =>
      rw [List.append_nil]
      exact hlast
    | cons c rest => exact endsWell_append hend nofun

end ValidEmailVerifier.Worker
