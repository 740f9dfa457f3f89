/-
# `Pipeline.AttemptChains` — the attempts, through the reason column

`encodeAttemptChain` and `decodeAttemptChain`: the worker writes the attempts of a verdict as JSON
in base64 without padding, behind the other fields of the evidence, and the recorder of the
decision traces reads them back.

The alphabet of the encoding has no delimiter, and of two fields with one name the later one is
read.  So nothing the other fields say comes between, whatever the texts of the attempts are
(`attemptChain_survives`); only a colon in a reason without any other field would.
-/
import ValidEmailVerifier.Lib.JsonText
import ValidEmailVerifier.Engine.MxAttempts
import ValidEmailVerifier.Pipeline.DecisionTrace
import ValidEmailVerifier.SeedSend.Webhooks

namespace ValidEmailVerifier.Worker

open Text GoStrings KeyValues
open Engine (AttemptEvidence Attempts CheckResult MX)

/-! ## Writing -/

/-- All fields of an attempt. -/
def allFields (e : AttemptEvidence) : List (Text × Json) :=
  [("attempt_number".toList, .num (.ofInt e.attemptNumber)),
    ("mx_host".toList, .str e.mxHost),
    ("attempt_route".toList, .str e.attemptRoute),
    ("decision_class".toList, .str e.decisionClass),
    ("reason_code".toList, .str e.reasonCode),
    ("reason_tag".toList, .str e.reasonTag),
    ("retry_strategy".toList, .str e.retryStrategy),
    ("smtp_code".toList, .num (.ofInt e.smtpCode)),
    ("enhanced_code".toList, .str e.enhancedCode),
    ("provider_profile".toList, .str e.providerProfile),
    ("confidence_hint".toList, .str e.confidenceHint),
    ("evidence_strength".toList, .str e.evidenceStrength)]

/-- What `omitempty` leaves out. -/
def isEmptyValue : Json → Bool
  | .num n => n.digits = 0
  | .str s => s.isEmpty
  | _ => false

/-- The fields that are written. -/
def attemptFields (e : AttemptEvidence) : List (Text × Json) :=
  (allFields e).filter fun field => !isEmptyValue field.2

/-- The bytes of a text. -/
def utf8 (s : Text) : List UInt8 := s.flatMap String.utf8EncodeChar

/-- `json.Marshal(chain)`; an empty chain is not written. -/
def marshalChain (chain : List AttemptEvidence) : List UInt8 :=
  if chain = [] then []
  else utf8 (Json.render (.arr (chain.map fun e => .obj (attemptFields e))))

/-- `encodeAttemptChain` -/
def encodeAttemptChain (chain : List AttemptEvidence) : Text :=
  encodeToString (marshalChain chain)

/-- A result with its attempts. -/
def withChain (result : VerifierResult) (chain : List AttemptEvidence) : VerifierResult :=
  { result with attemptChain := marshalChain chain }

/-- What a row shows of a result of the attempts; the other texts are any. -/
def shown (r : CheckResult) (others : VerifierResult) : VerifierResult :=
  { others with
    category := r.category
    reason := r.reason
    decisionClass := r.decisionClass
    reasonTag := r.reasonTag
    mxHost := r.mxHost
    attemptNumber := r.attemptNumber
    attemptRoute := r.attemptRoute
    attemptChain := marshalChain r.attemptChain
    evidenceStrength := r.evidenceStrength
    providerProfile := r.providerProfile
    decisionConfidence := r.decisionConfidence
    retryStrategy := r.retryStrategy }

end ValidEmailVerifier.Worker

namespace ValidEmailVerifier.SmtpDecisionTraceRecorder

open Text GoStrings KeyValues Worker
open Engine (AttemptEvidence Attempts CheckResult MX)
open SeedSend.Webhooks (base64Value base64Values base64Bytes base64Decode)

/-! ## Reading -/

/-- `strtr($s, '-_', '+/')` of a character. -/
def standard (c : Char) : Char := if c = '-' then '+' else if c = '_' then '/' else c

/-- The padding that the encoding left out. -/
def padding (s : Text) : Text :=
  if 0 < s.length % 4 then List.replicate (4 - s.length % 4) '=' else []

def utf8Decode (bytes : List UInt8) : Option Text :=
  bytes.toByteArray.utf8Decode?.map Array.toList

/-- `json_decode($s, true)`; nothing when it is `null`. -/
def jsonDecode (bytes : List UInt8) : Option Json := (utf8Decode bytes).bind Json.parse

/-- The array a value is decoded to, if it is one. -/
def toArray : Json → Option (List (Text × Json))
  | .arr elems => some (Json.indexed elems)
  | .obj fields => some (Json.merged fields)
  | _ => none

/-- The entries of the chain, each as the array of its fields. -/
def decodeAttemptChain (encoded : Option Text) : List (List (Text × Json)) :=
  let encoded := trim (encoded.getD [])
  if encoded = [] then []
  else
    let normalized := encoded.map standard
    match base64Decode (normalized ++ padding normalized) with
    | none => []
    | some decoded =>
        match (jsonDecode decoded).bind toArray with
        | none => []
        | some parsed => parsed.filterMap fun item => toArray item.2

/-- The chain of a row. -/
def attemptChain (column : Text) : List (List (Text × Json)) :=
  decodeAttemptChain (parseReasonEvidence (trim column) "attempt_chain".toList)

/-- `$entry[$name] ?? ''` -/
def textOf (entry : List (Text × Json)) (name : Text) : Text :=
  match Json.last name entry with
  | some (.str value) => value
  | _ => []

/-- `(int) ($entry[$name] ?? 0)` -/
def intOf (entry : List (Text × Json)) (name : Text) : Int :=
  match Json.last name entry with
  | some (.num value) => value.toInt?.getD 0
  | _ => 0

/-- The attempt that an entry is read as. -/
def attemptOf (entry : List (Text × Json)) : AttemptEvidence where
  attemptNumber := intOf entry "attempt_number".toList
  mxHost := textOf entry "mx_host".toList
  attemptRoute := textOf entry "attempt_route".toList
  decisionClass := textOf entry "decision_class".toList
  reasonCode := textOf entry "reason_code".toList
  reasonTag := textOf entry "reason_tag".toList
  retryStrategy := textOf entry "retry_strategy".toList
  smtpCode := intOf entry "smtp_code".toList
  enhancedCode := textOf entry "enhanced_code".toList
  providerProfile := textOf entry "provider_profile".toList
  confidenceHint := textOf entry "confidence_hint".toList
  evidenceStrength := textOf entry "evidence_strength".toList

/-! ## The encoding -/

/-- The groups of six bits; the bits above them are cut where they are used. -/
def groups : List UInt8 → List Nat
  | a :: b :: c :: rest =>
      let n := 65536 * a.toNat + 256 * b.toNat + c.toNat
      n / 262144 :: n / 4096 :: n / 64 :: n :: groups rest
  | [a, b] =>
      let n := 65536 * a.toNat + 256 * b.toNat
      [n / 262144, n / 4096, n / 64]
  | [a] =>
      let n := 65536 * a.toNat
      [n / 262144, n / 4096]
  | [] => []

theorem encodeToString_eq (bytes : List UInt8) :
    encodeToString bytes = (groups bytes).map base64Sign := by
  fun_induction encodeToString bytes with
  | case1 a b c rest n ih =>
    rw [ih]
    rfl
  | case2 a b n => rfl
  | case3 a n => rfl
  | case4 => rfl

set_option maxRecDepth 4000 in
/-- The signs have their values, and are neither padding nor blanks. -/
theorem value_sign (n : Nat) :
    base64Value (standard (base64Sign n)) = some (n % 64) ∧
      standard (base64Sign n) ≠ '=' ∧ isBlank (standard (base64Sign n)) = false := by
  have hlt : n % 64 < 64 := Nat.mod_lt n (by decide)
  have hvalue : ∀ k, k < 64 → base64Value (standard (base64Alphabet.getD k 'A')) = some k := by
    decide
  have hpad : ∀ k, k < 64 → standard (base64Alphabet.getD k 'A') ≠ '=' := by decide
  have hblank : ∀ k, k < 64 → isBlank (standard (base64Alphabet.getD k 'A')) = false := by decide
  exact ⟨hvalue _ hlt, hpad _ hlt, hblank _ hlt⟩

theorem base64Values_padding (k : Nat) (values : List Nat) (padding : Nat) :
    base64Values (List.replicate k '=') values padding = some (values.reverse, padding + k) := by
  induction k generalizing padding with
  | zero => rfl
  | succ k ih =>
    rw [List.replicate_succ, base64Values, if_pos rfl, ih, Nat.add_right_comm, Nat.add_assoc]

theorem base64Values_signs (ns : List Nat) (k : Nat) (values : List Nat) :
    base64Values (ns.map (fun n => standard (base64Sign n)) ++ List.replicate k '=') values 0 =
      some (values.reverse ++ ns.map (· % 64), k) := by
  induction ns generalizing values with
  | nil =>
    rw [List.map_nil, List.nil_append, base64Values_padding, List.map_nil, List.append_nil,
      Nat.zero_add]
  | cons n ns ih =>
    obtain ⟨hvalue, hpad, hblank⟩ := value_sign n
    have hspace : standard (base64Sign n) ∉ [' ', '\t', '\n', '\r'] := by
      intro hmem
      have hall : [' ', '\t', '\n', '\r'].all isBlank = true := by decide
      rw [List.all_eq_true.mp hall _ hmem] at hblank
      exact nomatch hblank
    rw [List.map_cons, List.cons_append, base64Values, if_neg hpad, if_neg hspace, hvalue]
    show (if (0 : Nat) = 0 then base64Values _ (n % 64 :: values) 0 else none) = _
    rw [if_pos rfl, ih]
    simp

/-- Four groups are three bytes again. -/
theorem base64Bytes_groups (bytes : List UInt8) :
    base64Bytes ((groups bytes).map (· % 64)) = bytes := by
  have hbyte : ∀ (a : UInt8) (k : Nat), k % 256 = a.toNat → UInt8.ofNat k = a := by
    intro a k hk
    apply UInt8.toNat_inj.mp
    rw [UInt8.toNat_ofNat', hk]
  fun_induction groups bytes with
  | case1 a b c rest n ih =>
    have ha : a.toNat < 256 := a.toNat_lt
    have hb : b.toNat < 256 := b.toNat_lt
    have hc : c.toNat < 256 := c.toNat_lt
    simp only [List.map_cons, base64Bytes]
    rw [ih, hbyte a _ (by omega), hbyte b _ (by omega), hbyte c _ (by omega)]
  | case2 a b n =>
    have ha : a.toNat < 256 := a.toNat_lt
    have hb : b.toNat < 256 := b.toNat_lt
    simp only [List.map_cons, List.map_nil, base64Bytes]
    rw [hbyte a _ (by omega), hbyte b _ (by omega)]
  | case3 a n =>
    have ha : a.toNat < 256 := a.toNat_lt
    simp only [List.map_cons, List.map_nil, base64Bytes]
    rw [hbyte a _ (by omega)]
  | case4 => rfl

/-- No group stands alone behind the last four. -/
theorem length_groups (bytes : List UInt8) : (groups bytes).length % 4 ≠ 1 := by
  fun_induction groups bytes with
  | case1 a b c rest n ih =>
    simp only [List.length_cons]
    omega
  | case2 a b n => exact nofun
  | case3 a n => exact nofun
  | case4 => exact nofun

/-- **What was encoded is decoded**, whatever its length. -/
theorem base64Decode_encodeToString (bytes : List UInt8) :
    base64Decode ((encodeToString bytes).map standard ++
      padding ((encodeToString bytes).map standard)) = some bytes := by
  have hgroups := length_groups bytes
  have hpadding : padding ((encodeToString bytes).map standard) =
      List.replicate (if 0 < (groups bytes).length % 4 then 4 - (groups bytes).length % 4 else 0)
        '=' := by
    rw [padding, List.length_map, encodeToString_eq, List.length_map]
    split
    · rfl
    · rfl
  have hsigns : standard ∘ base64Sign = fun n => standard (base64Sign n) := rfl
  rw [hpadding, encodeToString_eq, List.map_map, base64Decode, hsigns, base64Values_signs]
  simp only [List.reverse_nil, List.nil_append, List.length_map, base64Bytes_groups]
  split_ifs <;> first | rfl | omega

/-! ## The chain -/

theorem utf8Decode_utf8 (s : Text) : utf8Decode (utf8 s) = some s := by
  show (s.utf8Encode.utf8Decode?).map Array.toList = some s
  rw [List.utf8Decode?_utf8Encode]
  rfl

theorem jsonDecode_render (j : Json) : jsonDecode (utf8 (Json.render j)) = some j := by
  rw [jsonDecode, utf8Decode_utf8]
  exact Json.parse_render j

theorem nodup_allFields (e : AttemptEvidence) : ((allFields e).map Prod.fst).Nodup := by
  show List.Nodup ["attempt_number".toList, "mx_host".toList, "attempt_route".toList,
    "decision_class".toList, "reason_code".toList, "reason_tag".toList, "retry_strategy".toList,
    "smtp_code".toList, "enhanced_code".toList, "provider_profile".toList,
    "confidence_hint".toList, "evidence_strength".toList]
  decide

theorem nodup_attemptFields (e : AttemptEvidence) : ((attemptFields e).map Prod.fst).Nodup :=
  (nodup_allFields e).sublist (List.filter_sublist.map Prod.fst)

theorem isBlank_of_mem_encodeToString {bytes : List UInt8} {c : Char}
    (h : c ∈ encodeToString bytes) : isBlank c = false := by
  have halphabet : base64Alphabet.any isBlank = false := by decide
  exact Bool.not_eq_true _ ▸ List.any_eq_false.mp halphabet c (encodeToString_subset bytes h)

theorem trim_encodeToString (bytes : List UInt8) :
    trim (encodeToString bytes) = encodeToString bytes := by
  refine trimBy_eq_self_iff.mpr ⟨fun c hc => ?_, fun c hc => ?_⟩
  · exact isBlank_of_mem_encodeToString (List.mem_of_mem_head? hc)
  · exact isBlank_of_mem_encodeToString (List.mem_of_mem_getLast? hc)

/-- A chain that is not empty is written. -/
theorem encodeAttemptChain_ne_nil {chain : List AttemptEvidence} (h : chain ≠ []) :
    encodeAttemptChain chain ≠ [] := by
  intro hnil
  have hbytes : some (marshalChain chain) = some [] := by
    rw [← base64Decode_encodeToString (marshalChain chain), ← encodeAttemptChain, hnil]
    rfl
  obtain ⟨c, t, hrender, -⟩ := Json.head_render (.arr (chain.map fun e => .obj (attemptFields e)))
  have htext := utf8Decode_utf8 (Json.render (.arr (chain.map fun e => .obj (attemptFields e))))
  rw [marshalChain, if_neg h] at hbytes
  rw [Option.some.inj hbytes, hrender] at htext
  exact nomatch htext

/-- **The entries of a chain are decoded in their order.** -/
theorem decodeAttemptChain_encode {chain : List AttemptEvidence} (h : chain ≠ []) :
    decodeAttemptChain (some (encodeAttemptChain chain)) = chain.map attemptFields := by
  have htrim : trim (encodeAttemptChain chain) = encodeAttemptChain chain :=
    trim_encodeToString (marshalChain chain)
  have hbytes := base64Decode_encodeToString (marshalChain chain)
  rw [← encodeAttemptChain] at hbytes
  have hobjects : (chain.map fun e => Json.obj (attemptFields e)).filterMap toArray =
      chain.map attemptFields := by
    rw [List.filterMap_map, ← List.filterMap_eq_map]
    refine List.filterMap_congr fun e _ => ?_
    exact congrArg some (Json.merged_of_nodup (nodup_attemptFields e))
  have hvalues : ∀ elems : List Json,
      (Json.indexed elems).filterMap (fun item => toArray item.2) = elems.filterMap toArray := by
    intro elems
    conv_rhs => rw [← Json.map_snd_indexed elems, List.filterMap_map]
    rfl
  rw [decodeAttemptChain, Option.getD_some, htrim]
  dsimp only
  rw [if_neg (encodeAttemptChain_ne_nil h), hbytes, marshalChain, if_neg h]
  dsimp only
  rw [jsonDecode_render]
  exact (hvalues _).trans hobjects

/-! ## The entries -/

variable {e : AttemptEvidence} {name : Text}

theorem mem_attemptFields {field : Text × Json} :
    field ∈ attemptFields e ↔ field ∈ allFields e ∧ isEmptyValue field.2 = false := by
  rw [attemptFields, List.mem_filter, Bool.not_eq_true']

/-- There is nothing under a name whose value is left out. -/
theorem last_attemptFields_empty {j : Json} (h : (name, j) ∈ allFields e)
    (hempty : isEmptyValue j = true) : Json.last name (attemptFields e) = none := by
  refine Json.last_eq_none_iff.mpr fun hname => ?_
  obtain ⟨field, hfield, rfl⟩ := List.mem_map.mp hname
  obtain ⟨hall, hfull⟩ := mem_attemptFields.mp hfield
  have hsame : field = (field.1, j) := List.inj_on_of_nodup_map (nodup_allFields e) hall h rfl
  rw [hsame, hempty] at hfull
  exact nomatch hfull

theorem textOf_attemptFields {value : Text} (h : (name, .str value) ∈ allFields e) :
    textOf (attemptFields e) name = value := by
  rw [textOf]
  cases value with
  | nil => rw [last_attemptFields_empty h rfl]
  | cons c value =>
    rw [Json.last_of_mem (nodup_attemptFields e) (mem_attemptFields.mpr ⟨h, rfl⟩)]

theorem intOf_attemptFields {value : Int} (h : (name, .num (.ofInt value)) ∈ allFields e) :
    intOf (attemptFields e) name = value := by
  rw [intOf]
  by_cases hzero : value = 0
  · rw [last_attemptFields_empty h (by rw [hzero]; rfl), hzero]
  · have hfull : isEmptyValue (.num (.ofInt value)) = false := by
      simpa [isEmptyValue, Number.ofInt] using hzero
    rw [Json.last_of_mem (nodup_attemptFields e) (mem_attemptFields.mpr ⟨h, hfull⟩)]
    simp [Number.toInt?_ofInt]

/-- The attempt that was written is read. -/
theorem attemptOf_attemptFields (e : AttemptEvidence) : attemptOf (attemptFields e) = e := by
  rw [attemptOf]
  congr 1
  · exact intOf_attemptFields (by simp [allFields])
  · exact textOf_attemptFields (by simp [allFields])
  · exact textOf_attemptFields (by simp [allFields])
  · exact textOf_attemptFields (by simp [allFields])
  · exact textOf_attemptFields (by simp [allFields])
  · exact textOf_attemptFields (by simp [allFields])
  · exact textOf_attemptFields (by simp [allFields])
  · exact intOf_attemptFields (by simp [allFields])
  · exact textOf_attemptFields (by simp [allFields])
  · exact textOf_attemptFields (by simp [allFields])
  · exact textOf_attemptFields (by simp [allFields])
  · exact textOf_attemptFields (by simp [allFields])

/-! ## The column -/

variable {result : VerifierResult} {chain : List AttemptEvidence} {taxonomy : Bool}

theorem nonempty_evidence_chain : nonempty (evidence result true taxonomy) =
    nonempty (evidence result false taxonomy) ++
      nonempty [("attempt_chain".toList, encodeToString result.attemptChain)] := by
  have hlast : ∀ chain, evidence result chain taxonomy =
      (evidence result false taxonomy).dropLast ++ [("attempt_chain".toList,
        if chain then encodeToString result.attemptChain else [])] := fun _ => rfl
  rw [hlast true, hlast false, nonempty, List.filter_append, nonempty, List.filter_append]
  simp [nonempty]

/-- The column of a chain that is written. -/
theorem reasonWithEvidence_chain (hchain : encodeToString result.attemptChain ≠ []) :
    reasonWithEvidence result true taxonomy =
      reasonPart result ++ ':' :: line (nonempty (evidence result false taxonomy) ++
        [("attempt_chain".toList, encodeToString result.attemptChain)]) := by
  have hlast : nonempty [("attempt_chain".toList, encodeToString result.attemptChain)] =
      [("attempt_chain".toList, encodeToString result.attemptChain)] :=
    List.filter_cons_of_pos (by simpa using hchain)
  rw [reasonWithEvidence_eq, nonempty_evidence_chain, hlast,
    if_neg (List.append_ne_nil_of_right_ne_nil _ (List.cons_ne_nil _ _))]

/-- The fields of a column are read behind its first colon. -/
theorem parseReasonEvidence_append {reason fields key : Text} (hkey : key ≠ "base_reason".toList) :
    parseReasonEvidence (trim (reason ++ ':' :: fields)) key =
      KeyValues.read (after ':' (reason.dropWhile isBlank ++ ':' :: fields.rdropWhile isBlank))
        key := by
  have htrim : trim (reason ++ ':' :: fields) =
      reason.dropWhile isBlank ++ ':' :: fields.rdropWhile isBlank :=
    trimBy_append_cons (by decide)
  rw [parseReasonEvidence, trim_trim, htrim]
  dsimp only
  rw [if_neg (by simp), if_pos (by simp), Function.update_of_ne hkey]

/-- **The last field is read as it was written**, whatever the fields before it are; without any,
the reason has no colon. -/
theorem parsed_attempt_chain (hchain : encodeToString result.attemptChain ≠ [])
    (h : ':' ∉ result.reason ∨ nonempty (evidence result false taxonomy) ≠ []) :
    parseReasonEvidence (trim (reasonWithEvidence result true taxonomy)) "attempt_chain".toList =
      some (encodeToString result.attemptChain) := by
  have hkey : KeyValues.Clean "attempt_chain".toList := by decide
  have hvalue := trim_encodeToString result.attemptChain
  have hfree : ';' ∉ encodeToString result.attemptChain := not_mem_encodeToString
  have hfull : trim (encodeToString result.attemptChain) ≠ [] := hvalue.symm ▸ hchain
  have hend : ∀ start : Text, (start ++ render ("attempt_chain".toList,
      encodeToString result.attemptChain)).rdropWhile isBlank =
        start ++ render ("attempt_chain".toList, encodeToString result.attemptChain) := by
    intro start
    have hkept : (encodeToString result.attemptChain).rdropWhile isBlank =
        encodeToString result.attemptChain := by
      rw [List.rdropWhile_eq_self_iff]
      intro hne
      rw [isBlank_of_mem_encodeToString (List.getLast_mem hne)]
      exact nofun
    rw [render, ← List.append_assoc, rdropWhile_append_cons (by decide), hkept]
  rw [reasonWithEvidence_chain hchain, parseReasonEvidence_append (by decide)]
  by_cases hothers : nonempty (evidence result false taxonomy) = []
  · have hcolon : ':' ∉ (reasonPart result).dropWhile isBlank := fun hc =>
      not_mem_reasonPart (h.resolve_right fun hne => hne hothers)
        ((List.dropWhile_sublist isBlank).subset hc)
    have hread := read_render hkey hfree hfull
    rw [hvalue] at hread
    rw [hothers, List.nil_append, line, after_append hcolon]
    exact (congrArg (KeyValues.read · _) (hend [])).trans hread
  · have hread : ∀ start : Text, KeyValues.read (start ++ ';' :: render ("attempt_chain".toList,
        encodeToString result.attemptChain)) "attempt_chain".toList =
          some (encodeToString result.attemptChain) := fun start =>
      (read_append_render hkey hfree hfull).trans (congrArg some hvalue)
    have hline := hend (line (nonempty (evidence result false taxonomy)) ++ [';'])
    rw [List.append_assoc, List.singleton_append] at hline
    rw [line_concat hothers, hline]
    by_cases hcolon : ':' ∈ (reasonPart result).dropWhile isBlank
    · rw [after_append_of_mem hcolon, ← List.cons_append, ← List.append_assoc]
      exact hread _
    · rw [after_append hcolon]
      exact hread _

/-! ## A column without a chain -/

/-- The name of the field, as a text could spell it. -/
def fieldName : Text := "attempt_chain".toList

/-- No text of the result spells the name of the field. -/
def Unspelled (result : VerifierResult) : Prop :=
  ∀ s ∈ result.reason :: evidenceTexts result, contains (toLower s) fieldName = false

instance : Decidable (Unspelled result) :=
  inferInstanceAs (Decidable (∀ s ∈ result.reason :: evidenceTexts result, _))

/-- The text spells the name. -/
def Spells (s : Text) : Prop := fieldName <:+: strtolower s

theorem Spells.mono {s t : Text} (h : Spells s) (hin : s <:+: t) : Spells t :=
  h.trans (hin.map Char.toLower)

/-- What spells the name is not a sign that the two parts of the column are joined with. -/
theorem Spells.split {c : Char} {s t : Text} (h : Spells (s ++ c :: t))
    (hc : c.toLower ∉ fieldName) : Spells s ∨ Spells t := by
  rw [Spells, strtolower, List.map_append, List.map_cons] at h
  exact infix_of_append_cons h hc

/-- The name can be lowered in either way. -/
theorem Spells.contains_toLower {s : Text} (h : Spells s) :
    contains (toLower s) fieldName = true := by
  have hkelvin : (Char.ofNat 0x212A).toLower ∉ fieldName := by decide
  have hdotted : (Char.ofNat 0x0130).toLower ∉ fieldName := by decide
  have hsame : ∀ c : Char, c.toLower ∈ fieldName → lowerChar c = c.toLower := by
    intro c hc
    have hval : ∀ n, c.val.toNat = n → c = Char.ofNat n :=
      fun n hn => hn ▸ (Char.ofNat_toNat c).symm
    rw [lowerChar]
    split_ifs with h1 h2
    · exact absurd (hval 0x212A (congrArg UInt32.toNat h1) ▸ hc) hkelvin
    · exact absurd (hval 0x0130 (congrArg UInt32.toNat h2) ▸ hc) hdotted
    · rfl
  obtain ⟨l, hl, hname⟩ := List.infix_map_iff.mp h
  have hmap : l.map lowerChar = fieldName := by
    rw [hname]
    exact List.map_congr_left fun c hc => hsame c (hname ▸ List.mem_map_of_mem hc)
  exact contains_iff.mpr (hmap ▸ hl.map lowerChar)

theorem strtolower_toLower (s : Text) : strtolower (toLower s) = toLower s := by
  rw [strtolower, toLower, List.map_map]
  refine List.map_congr_left fun c _ => ?_
  show (lowerChar c).toLower = lowerChar c
  rw [lowerChar]
  split_ifs
  · rfl
  · rfl
  · exact toLower_toLower c

theorem not_spells_of_unspelled {s t : Text} (h : Unspelled result)
    (hs : s ∈ result.reason :: evidenceTexts result) (hin : t <:+: s) : ¬ Spells t := by
  intro hspells
  have hcontains := (hspells.mono hin).contains_toLower
  rw [h s hs] at hcontains
  exact nomatch hcontains

theorem not_spells_trimSpace {s : Text} (h : Unspelled result)
    (hs : s ∈ result.reason :: evidenceTexts result) : ¬ Spells (trimSpace s) :=
  not_spells_of_unspelled h hs (infix_trimBy isSpace s)

theorem not_spells_writtenTag (h : Unspelled result) : ¬ Spells (writtenTag result taxonomy) := by
  have hmem : result.reasonTag ∈ result.reason :: evidenceTexts result := by simp [evidenceTexts]
  have hword : ∀ tag ∈ taxonomyTags, contains (strtolower tag) fieldName = false := by decide
  rw [writtenTag]
  split
  · refine normalizedReasonTag_induction (motive := fun tag => ¬ Spells tag) ?_ ?_
    · intro hspells
      rw [Spells, strtolower_toLower] at hspells
      have hin := hspells.trans ((infix_trimBy isSpace result.reasonTag).map lowerChar)
      have hcontains := contains_iff.mpr hin
      rw [← toLower, h _ hmem] at hcontains
      cases hcontains
    · intro tag htag hspells
      have hcontains := contains_iff.mpr hspells
      rw [hword tag htag] at hcontains
      cases hcontains
  · exact not_spells_trimSpace h hmem

theorem not_spells_attempt {n : Int} (h : 0 < n) : ¬ Spells (toString n).toList := by
  obtain ⟨m, rfl⟩ := Int.eq_ofNat_of_zero_le (Int.le_of_lt h)
  intro hspells
  have hmem : 'a' ∈ strtolower (toString (m : Int)).toList :=
    hspells.subset (by decide)
  obtain ⟨c, hc, hlower⟩ := List.mem_map.mp hmem
  rw [show (toString (m : Int)).toList = Nat.toDigits 10 m from Nat.toList_repr] at hc
  have hdigit := Nat.isDigit_of_mem_toDigits (by decide) (by decide) hc
  have hkept : c.toLower = c := by
    apply Text.toLower_of_not_capital
    rintro ⟨hupper, -⟩
    rw [Char.isDigit, Bool.and_eq_true, decide_eq_true_eq, decide_eq_true_eq] at hdigit
    exact absurd (UInt32.le_trans hupper hdigit.2) (by decide)
  rw [← hkept, hlower] at hdigit
  exact absurd hdigit (by decide)

/-- No field that is written without a chain spells the name. -/
theorem not_spells_evidence (h : Unspelled result) {field : Text × Text}
    (hfield : field ∈ nonempty (evidence result false taxonomy)) :
    ¬ Spells field.1 ∧ ¬ Spells field.2 := by
  have htext : ∀ s ∈ evidenceTexts result, ¬ Spells (trimSpace s) :=
    fun s hs => not_spells_trimSpace h (.tail _ hs)
  have hkeys : ∀ key ∈ ["decision".toList, "confidence".toList, "retry".toList, "policy".toList,
      "rule".toList, "tag".toList, "mode".toList, "session".toList, "provider".toList,
      "mx".toList, "attempt".toList, "route".toList, "evidence".toList],
      contains (strtolower key) fieldName = false := by decide
  have hkey : ∀ key, contains (strtolower key) fieldName = false → ¬ Spells key := by
    intro key hcontains hspells
    rw [contains_iff.mpr hspells] at hcontains
    exact nomatch hcontains
  obtain ⟨hmem, hvalue⟩ := List.mem_filter.mp hfield
  have hattempt : ¬ Spells (if 0 < result.attemptNumber then
      (toString result.attemptNumber).toList else []) := by
    split
    · next hpos => exact not_spells_attempt hpos
    · exact hkey [] (by decide)
  have htag : ¬ Spells (writtenTag result taxonomy) := not_spells_writtenTag h
  simp only [evidence, List.mem_cons, List.not_mem_nil, or_false] at hmem
  rcases hmem with rfl | rfl | rfl | rfl | rfl | rfl | rfl | rfl | rfl | rfl | rfl | rfl |
    rfl | rfl
  all_goals first
    | exact ⟨hkey _ (hkeys _ (by simp)), htext _ (by simp [evidenceTexts])⟩
    | exact ⟨hkey _ (hkeys _ (by simp)), htag⟩
    | exact ⟨hkey _ (hkeys _ (by simp)), hattempt⟩
    | exact nomatch hvalue

theorem not_spells_line {fields : List (Text × Text)}
    (h : ∀ field ∈ fields, ¬ Spells field.1 ∧ ¬ Spells field.2) : ¬ Spells (line fields) := by
  have hrender : ∀ field : Text × Text, ¬ Spells field.1 ∧ ¬ Spells field.2 →
      ¬ Spells (render field) :=
    fun field hnot hspells => (hspells.split (by decide)).elim hnot.1 hnot.2
  fun_induction line fields with
  | case1 =>
    intro hspells
    exact absurd (List.infix_nil.mp hspells) (by decide)
  | case2 field => exact hrender field (h field (.head _))
  | case3 field rest _ ih =>
    intro hspells
    exact (hspells.split (by decide)).elim (hrender field (h field (.head _)))
      (ih fun f hf => h f (.tail _ hf))

/-- A column without a chain has none to be read, unless another text spells its name. -/
theorem parsed_attempt_chain_none (hchain : result.attemptChain = []) (h : Unspelled result) :
    parseReasonEvidence (trim (reasonWithEvidence result true taxonomy))
      "attempt_chain".toList = none := by
  have hreason : ¬ Spells (reasonPart result) := by
    rw [reasonPart]
    split
    · intro hspells
      exact absurd (contains_iff.mpr hspells) (by decide)
    · exact not_spells_trimSpace h (.head _)
  have hfields : nonempty (evidence result true taxonomy) =
      nonempty (evidence result false taxonomy) := by
    rw [nonempty_evidence_chain, hchain]
    exact List.append_nil _
  have hline : ¬ Spells (line (nonempty (evidence result false taxonomy))) :=
    not_spells_line fun field hfield => not_spells_evidence h hfield
  have hcolumn : ¬ Spells (reasonWithEvidence result true taxonomy) := by
    rw [reasonWithEvidence_eq, hfields]
    split
    · exact hreason
    · exact fun hspells => (hspells.split (by decide)).elim hreason hline
  by_contra hsome
  refine hcolumn ?_
  rw [parseReasonEvidence, trim_trim] at hsome
  dsimp only at hsome
  split at hsome
  · exact absurd rfl hsome
  · rw [Function.update_of_ne (by decide)] at hsome
    split at hsome
    · refine Spells.mono (infix_of_read hsome) ?_
      exact ((List.drop_suffix 1 _).trans (List.dropWhile_suffix _)).isInfix.trans
        (infix_trimBy isBlank _)
    · exact absurd rfl hsome

/-! ## Chains survive -/

/-- Where a chain stands, nothing can be taken for it: there is another field before it, or no
colon in the reason; and where none is written, no other text spells its name. -/
structure Placed (result : VerifierResult) (chain : List AttemptEvidence) (taxonomy : Bool) :
    Prop where
  behind : chain ≠ [] → ':' ∉ result.reason ∨ nonempty (evidence result false taxonomy) ≠ []
  unspelled : chain = [] → Unspelled result

/-- **What was written is decoded**, entry by entry. -/
theorem attemptChain_withChain (h : Placed result chain taxonomy) :
    attemptChain (reasonWithEvidence (withChain result chain) true taxonomy) =
      chain.map attemptFields := by
  rw [attemptChain]
  cases chain with
  | nil =>
    have hnone := @parsed_attempt_chain_none (withChain result []) taxonomy rfl (h.unspelled rfl)
    rw [hnone]
    rfl
  | cons e rest =>
    have hne : encodeAttemptChain (e :: rest) ≠ [] := encodeAttemptChain_ne_nil (by simp)
    have hparsed := @parsed_attempt_chain (withChain result (e :: rest)) taxonomy hne
      (h.behind (List.cons_ne_nil e rest))
    rw [hparsed]
    show decodeAttemptChain (some (encodeAttemptChain (e :: rest))) = _
    exact decodeAttemptChain_encode (List.cons_ne_nil e rest)

/-! ## The results of the attempts -/

/-- A result that has evidence of its own, or is the one that stands for none. -/
def Evident (r : CheckResult) : Prop :=
  r.reason = "smtp_timeout".toList ∨ trimSpace r.evidenceStrength ≠ []

theorem evident_applyAttemptEvidence (outcome : CheckResult) (host : Text) (number : Int) :
    trimSpace (Engine.applyAttemptEvidence outcome host number).evidenceStrength ≠ [] := by
  show trimSpace (Engine.ifBlank outcome.evidenceStrength
    (Smtp.normalizedEvidenceStrength outcome.decisionConfidence)) ≠ []
  rw [Engine.ifBlank]
  split
  · have hwords : ∀ word ∈ ["low".toList, "medium".toList, "high".toList],
        trimSpace word ≠ [] := by decide
    rw [Smtp.normalizedEvidenceStrength]
    split
    · next hmem => exact hwords _ hmem
    · decide
  · assumption

theorem evident_attemptsAt (check : Nat → CheckResult) (host : Text) (first : Int)
    (left attempt : Nat) (chain : List AttemptEvidence) :
    Evident (Engine.attemptsAt check host first left attempt chain).1 := by
  induction left generalizing attempt chain with
  | zero =>
    rw [Engine.attemptsAt]
    dsimp only
    split_ifs
    · exact .inr (evident_applyAttemptEvidence (check attempt) host (first + attempt))
    · exact .inr (evident_applyAttemptEvidence (check attempt) host (first + attempt))
  | succ left ih =>
    rw [Engine.attemptsAt]
    dsimp only
    split_ifs
    · exact .inr (evident_applyAttemptEvidence (check attempt) host (first + attempt))
    · exact ih _ _
    · exact .inr (evident_applyAttemptEvidence (check attempt) host (first + attempt))

theorem evident_visit (a : Attempts) (record : Nat) (mx : MX) (attemptCounter : Nat) :
    Evident (a.visit record mx attemptCounter).verdict := by
  rw [Attempts.visit, Engine.checkSMTPHost]
  split
  · exact .inl rfl
  · exact evident_attemptsAt _ _ _ _ _ _

theorem evident_walk (a : Attempts) (mxRecords : List MX) (record : Nat)
    (best : Option CheckResult) (attemptCounter : Nat) (chain : List AttemptEvidence)
    (hbest : ∀ r ∈ best, Evident r) :
    Evident (a.walk mxRecords record best attemptCounter chain).1 := by
  induction mxRecords generalizing record best attemptCounter chain with
  | nil =>
    cases best with
    | none => exact .inl rfl
    | some r => exact hbest r rfl
  | cons mx mxRecords ih =>
    have hvisit := evident_visit a record mx attemptCounter
    rw [Attempts.walk]
    dsimp only
    split_ifs
    · exact hvisit
    · refine ih _ _ _ _ fun r hr => ?_
      cases best with
      | none =>
        obtain ⟨-, hr⟩ := Option.ite_none_left_eq_some.mp hr
        exact Option.some.inj hr ▸ hvisit
      | some existing =>
        have hcases : r = (a.visit record mx attemptCounter).verdict ∨ r = existing := by
          rw [Engine.better] at hr
          split at hr
          · exact .inl (Option.some.inj hr).symm
          · exact .inr (Option.some.inj hr).symm
        rcases hcases with rfl | rfl
        · exact hvisit
        · exact hbest _ rfl
    · exact hvisit

theorem evident_checkSMTP (a : Attempts) (mxRecords : List MX) :
    Evident (a.checkSMTP mxRecords).1 :=
  evident_walk a _ 0 none 0 [] nofun

/-- The chain of a result is placed, once there is one. -/
theorem Evident.placed {r : CheckResult} {others : VerifierResult} (h : Evident r)
    (hchain : r.attemptChain ≠ []) : Placed (shown r others) r.attemptChain taxonomy := by
  refine ⟨fun _ => ?_, fun hnil => absurd hnil hchain⟩
  rcases h with hreason | hstrength
  · left
    show ':' ∉ r.reason
    rw [hreason]
    decide
  · right
    refine List.ne_nil_of_mem (a := ("evidence".toList, trimSpace r.evidenceStrength)) ?_
    refine List.mem_filter.mpr ⟨?_, by simpa using hstrength⟩
    simp [evidence, shown]

/-- **A chain survives the column**: its entries are decoded in their order, and each says what
the attempt said.  The chains of all results of the attempts are placed so. -/
theorem attemptChain_survives :
    (∀ (result : VerifierResult) (chain : List AttemptEvidence) (taxonomy : Bool),
      Placed result chain taxonomy →
        attemptChain (reasonWithEvidence (withChain result chain) true taxonomy) =
          chain.map attemptFields) ∧
      (∀ chain : List AttemptEvidence, (chain.map attemptFields).map attemptOf = chain) ∧
      ∀ (a : Attempts) (mxRecords : List MX) (others : VerifierResult) (taxonomy : Bool),
        (a.checkSMTP mxRecords).1.attemptChain ≠ [] →
          (attemptChain (reasonWithEvidence (shown (a.checkSMTP mxRecords).1 others) true
            taxonomy)).map attemptOf = (a.checkSMTP mxRecords).1.attemptChain := by
  have hread : ∀ chain : List AttemptEvidence, (chain.map attemptFields).map attemptOf = chain := by
    intro chain
    rw [List.map_map]
    exact (List.map_congr_left fun e _ => attemptOf_attemptFields e).trans (List.map_id chain)
  refine ⟨fun result chain taxonomy h => attemptChain_withChain h, hread, ?_⟩
  intro a mxRecords others taxonomy hchain
  have hplaced := @Evident.placed taxonomy _ others (evident_checkSMTP a mxRecords) hchain
  have hsame : withChain (shown (a.checkSMTP mxRecords).1 others)
      (a.checkSMTP mxRecords).1.attemptChain = shown (a.checkSMTP mxRecords).1 others := rfl
  have hdecoded := attemptChain_withChain hplaced
  rw [hsame] at hdecoded
  rw [hdecoded]
  exact hread _

/-- A result with a colon in its reason, and delimiters behind it. -/
def delimited : VerifierResult where
  reason := "a:b;c=d".toList
  evidenceStrength := "low".toList

/-- The chain of a mail that was deferred, and one behind such a reason. -/
theorem attemptChain_survives_deferring :
    (attemptChain (reasonWithEvidence (shown (Engine.deferring.checkSMTP Engine.twoHosts).1
        delimited) true true)).map attemptOf =
        (Engine.deferring.checkSMTP Engine.twoHosts).1.attemptChain ∧
      attemptChain (reasonWithEvidence (withChain delimited [{ attemptNumber := 1 }]) true false) =
        [attemptFields { attemptNumber := 1 }] :=
  ⟨attemptChain_survives.2.2 Engine.deferring Engine.twoHosts delimited true (by decide),
    attemptChain_survives.1 delimited [{ attemptNumber := 1 }] false
      ⟨fun _ => .inr (by decide), fun hnil => absurd hnil (by decide)⟩⟩

end ValidEmailVerifier.SmtpDecisionTraceRecorder
