/-
# `Engine.PayloadValidator` — the web application's check of a policy payload

`SmtpPolicyPayloadValidator::validate`: it collects what is wrong with a payload, over the
arrays that `json_decode` makes of lists and objects alike, and casts what it reads to
strings.  A payload it has nothing to say about has all that it asks for (`validate_nil_iff`).
-/
import ValidEmailVerifier.Lib.Text
import ValidEmailVerifier.Engine.PayloadSchema

namespace ValidEmailVerifier.SmtpPolicyPayloadValidator

open Json Text
open PayloadSchema (Object under under_cons under_nil)

/-- Conversions of PHP: the text of a number, which begins with a sign, a digit or the
infinity; what `%d` prints of a key; and whether the warning about an array that is cast to a
string becomes an exception, as the framework has it. -/
structure Casts where
  number : Number → Text
  integer : Text → Text
  raises : Bool
  number_head : ∀ n, ∃ c rest, number n = c :: rest ∧ (c = '-' ∨ c.isDigit = true ∨ c = 'I')

/-- `(string)`; nothing when it ends in an exception. -/
def Casts.text (casts : Casts) : Json → Option Text
  | .null => some []
  | .bool b => some (if b then "1".toList else [])
  | .num n => some (casts.number n)
  | .str s => some s
  | .arr _ | .obj _ => if casts.raises then none else some "Array".toList

/-- The array a list or an object is decoded to. -/
def toArray : Json → Option (Object)
  | .arr elems => some (indexed elems)
  | .obj fields => some fields
  | _ => none

/-- `$array[$key] ?? $default`. -/
def orDefault (key : Text) (array : Object) (default : Json) : Json :=
  match last key array with
  | none | some .null => default
  | some value => value

def isNumericValue : Json → Bool
  | .num _ => true
  | .str s => isNumeric s
  | _ => false

def isBoolean : Option Json → Bool
  | some (.bool _) => true
  | _ => false

/-- `$errors[] = $message`, unless the condition holds. -/
def expect (p : Prop) [Decidable p] (message : Text) : List Text := if p then [] else [message]

/-- The errors of all entries. -/
def collect {α : Type} (check : α → Option (List Text)) : List α → Option (List Text)
  | [] => some []
  | x :: rest => do
      let errors ← check x
      return errors ++ (← collect check rest)

def allowedRuleTags : List Text :=
  ["greylist".toList, "rate_limit".toList, "mailbox_full".toList, "policy_blocked".toList,
    "mailbox_not_found".toList, "auth_required".toList, "unknown_transient".toList]

def retryFields : List Text :=
  ["default_seconds".toList, "tempfail_seconds".toList, "greylist_seconds".toList,
    "policy_blocked_seconds".toList, "unknown_seconds".toList]

def sessionFields : List Text :=
  ["max_concurrency".toList, "connects_per_minute".toList,
    "reuse_connection_for_retries".toList, "retry_jitter_percent".toList,
    "ehlo_profile".toList]

def ruleCollections : List Text :=
  ["enhanced_rules".toList, "smtp_code_rules".toList, "message_rules".toList]

def ruleFields : List Text :=
  ["rule_tag".toList, "confidence_hint".toList, "provider_scope".toList]

def modes : List Text :=
  ["normal".toList, "cautious".toList, "drain".toList, "quarantine".toList,
    "degraded_probe".toList]

def modeFields : List Text :=
  ["probe_enabled".toList, "max_concurrency_multiplier".toList,
    "connects_per_minute_multiplier".toList]

/-- `"path"` in a message. -/
def quoted (path : Text) : Text := '"' :: path ++ ['"']

/-- One of the fields of a rule. -/
def validateField (casts : Casts) (path : Text) (rule : Object) (field : Text) :
    Option (List Text) :=
  let message := "Payload rule field ".toList ++ quoted (path ++ '.' :: field) ++
    " is required for schema v3.".toList
  match last field rule with
  | none => some [message]
  | some value => (casts.text value).map fun text => expect (trim text ≠ []) message

/-- The body of the loop over the rules of a collection. -/
def validateRule (casts : Casts) (profileName ruleCollection : Text) (entry : Text × Json) :
    Option (List Text) :=
  match toArray entry.2 with
  | none => some []
  | some rule => do
      let path := "profiles.".toList ++ profileName ++ '.' :: ruleCollection ++
        '.' :: casts.integer entry.1
      let errors ← collect (validateField casts path rule) ruleFields
      let tag ← casts.text (orDefault "rule_tag".toList rule (.str []))
      let ruleTag := strtolower (trim tag)
      return errors ++ expect (ruleTag = [] ∨ ruleTag ∈ allowedRuleTags)
        ("Payload rule field ".toList ++ quoted (path ++ ".rule_tag".toList) ++
          " has unsupported value ".toList ++ quoted ruleTag ++ ['.'])

def validateCollection (casts : Casts) (profileName : Text) (profile : Object)
    (ruleCollection : Text) : Option (List Text) :=
  match (last ruleCollection profile).bind toArray with
  | none => some []
  | some rules => collect (validateRule casts profileName ruleCollection) (Json.merged rules)

/-- The array under a key, and the fields it has to have. -/
def expectFields (key : Text) (array : Object) (fields : List Text) (path : Text) : List Text :=
  match (last key array).bind toArray with
  | none => ["Payload field ".toList ++ quoted path ++ " is required for schema v3.".toList]
  | some found => fields.flatMap fun field =>
      expect ((last field found).isSome = true)
        ("Payload field ".toList ++ quoted (path ++ '.' :: field) ++
          " is required for schema v3.".toList)

/-- The errors of the session of a profile. -/
def validateSession (profileName : Text) (profile : Object) : List Text :=
  expectFields "session".toList profile sessionFields
    ("profiles.".toList ++ profileName ++ ".session".toList)

def validateProfile (casts : Casts) (entry : Text × Json) : Option (List Text) :=
  match toArray entry.2 with
  | none => some []
  | some profile => do
      let errors ← collect (validateCollection casts entry.1 profile) ruleCollections
      return validateSession entry.1 profile ++ errors

def validateV3Rules (casts : Casts) (profiles : Object) : Option (List Text) :=
  collect (validateProfile casts) (Json.merged profiles)

def validateV3Modes (payload : Object) : List Text :=
  match (last "modes".toList payload).bind toArray with
  | none =>
      ["Payload field ".toList ++ quoted "modes".toList ++
        " is required and must be an object for schema v3.".toList]
  | some definitions => modes.flatMap fun mode =>
      expectFields mode definitions modeFields ("modes.".toList ++ mode)

/-- What is said about the version of a payload. -/
def validateVersion (payloadVersion expectedVersion : Text) : List Text :=
  if payloadVersion = [] then
    ["Payload field ".toList ++ quoted "version".toList ++ " is required.".toList]
  else expect (payloadVersion = expectedVersion)
    ("Payload version ".toList ++ quoted payloadVersion ++
      " does not match expected version ".toList ++ quoted expectedVersion ++ ['.'])

/-- What the third and the fourth schema add. -/
def validateV3 (casts : Casts) (schemaVersion : Text) (payload profiles : Object) :
    Option (List Text) :=
  if schemaVersion ∈ ["v3".toList, "v4".toList] then
    (validateV3Rules casts profiles).map fun errors => errors ++ validateV3Modes payload
  else some []

/-- The part of the check that begins with the profiles; it ends at the first array that is
missing. -/
def validateProfiles (casts : Casts) (schemaVersion : Text) (payload : Object) :
    Option (List Text) :=
  match (last "profiles".toList payload).bind toArray with
  | none =>
      some ["Payload field ".toList ++ quoted "profiles".toList ++ " must be an object.".toList]
  | some profiles =>
    match (last "generic".toList profiles).bind toArray with
    | none => some ["Payload field ".toList ++ quoted "profiles.generic".toList ++
        " is required and must be an object.".toList]
    | some genericProfile =>
      match (last "retry".toList genericProfile).bind toArray with
      | none => some ["Payload field ".toList ++ quoted "profiles.generic.retry".toList ++
          " is required and must be an object.".toList]
      | some retry =>
        (validateV3 casts schemaVersion payload profiles).map fun errors =>
          retryFields.flatMap (fun retryField =>
            expect (((last retryField retry).map isNumericValue).getD false = true)
              ("Payload retry field ".toList ++ quoted retryField ++
                " must be present and numeric.".toList)) ++ errors

/-- The errors of a payload; a payload that is no array is taken for an empty one. -/
def validate (casts : Casts) (payload : Json) (expectedVersion : Text) : Option (List Text) := do
  let payload := (toArray payload).getD []
  let schema ← casts.text (orDefault "schema_version".toList payload (.str "v2".toList))
  let schemaVersion := strtolower (trim schema)
  let version ← casts.text (orDefault "version".toList payload (.str []))
  let errors ← validateProfiles casts schemaVersion payload
  return expect (schemaVersion ∈ ["v2".toList, "v3".toList, "v4".toList])
      ("Payload field ".toList ++ quoted "schema_version".toList ++
        " must be either v2, v3, or v4.".toList) ++
    (expect (isBoolean (last "enabled".toList payload) = true)
      ("Payload field ".toList ++ quoted "enabled".toList ++
        " must be present and boolean.".toList) ++
    (validateVersion (trim version) (trim expectedVersion) ++ errors))

/-! ## What it asks for -/

/-- What a rule has to have. -/
structure RuleAsks (casts : Casts) (rule : Object) : Prop where
  fields : ∀ field ∈ ruleFields, ∃ text, (last field rule).bind casts.text = some text ∧
    trim text ≠ []
  tag : ∃ text, (last "rule_tag".toList rule).bind casts.text = some text ∧
    strtolower (trim text) ∈ allowedRuleTags

/-- All rules that are arrays, in all collections that are. -/
def RulesAsk (casts : Casts) (profile : Object) : Prop :=
  ∀ ruleCollection ∈ ruleCollections, ∀ rules,
    (last ruleCollection profile).bind toArray = some rules →
      ∀ key rule, (last key rules).bind toArray = some rule → RuleAsks casts rule

/-- An object under a key with all of the fields. -/
def HasFields (key : Text) (object : Object) (fields : List Text) : Prop :=
  ∃ found, last key object = some (.obj found) ∧ ∀ field ∈ fields, (last field found).isSome = true

/-- The session of a profile. -/
def SessionAsks (profile : Object) : Prop := HasFields "session".toList profile sessionFields

/-- The modes of a payload. -/
def ModesAsk (root : Object) : Prop :=
  ∃ definitions, last "modes".toList root = some (.obj definitions) ∧
    ∀ mode ∈ modes, HasFields mode definitions modeFields

/-- What the third and the fourth schema ask for: a session and rules of every profile that
is an array. -/
structure V3Asks (casts : Casts) (root : Object) : Prop where
  profiles : ∀ profiles, last "profiles".toList root = some (.obj profiles) →
    ∀ name profile, (last name profiles).bind toArray = some profile →
      SessionAsks profile ∧ RulesAsk casts profile
  modes : ModesAsk root

/-- The schema a payload is read by. -/
def schemaVersion (casts : Casts) (root : Object) : Option Text :=
  (casts.text (orDefault "schema_version".toList root (.str "v2".toList))).map fun schema =>
    strtolower (trim schema)

/-- The version of a payload. -/
def payloadVersion (casts : Casts) (root : Object) : Option Text :=
  (casts.text (orDefault "version".toList root (.str []))).map trim

/-- What the web application asks of a payload. -/
structure Asks (casts : Casts) (expectedVersion : Text) (root : Object) : Prop where
  schema : ∃ schema, schemaVersion casts root = some schema ∧
    schema ∈ ["v2".toList, "v3".toList, "v4".toList]
  enabled : ∃ b, last "enabled".toList root = some (.bool b)
  version : ∃ version, payloadVersion casts root = some version ∧ version ≠ [] ∧
    version = trim expectedVersion
  retry : ∃ retry, under ["profiles".toList, "generic".toList, "retry".toList] root =
    some retry ∧ ∀ field ∈ retryFields, ∃ value, last field retry = some value ∧
      isNumericValue value = true
  v3 : ∀ schema, schemaVersion casts root = some schema → schema ∈ ["v3".toList, "v4".toList] →
    V3Asks casts root

section

variable {casts : Casts}

theorem expect_nil {p : Prop} [Decidable p] {message : Text} : expect p message = [] ↔ p := by
  rw [expect]
  split
  · next h => exact ⟨fun _ => h, fun _ => rfl⟩
  · next h => exact ⟨nofun, fun hp => absurd hp h⟩

theorem collect_nil {α : Type} {check : α → Option (List Text)} {xs : List α} :
    collect check xs = some [] ↔ ∀ x ∈ xs, check x = some [] := by
  induction xs with
  | nil => exact ⟨fun _ => nofun, fun _ => rfl⟩
  | cons x rest ih =>
    rw [List.forall_mem_cons, ← ih]
    show ((check x).bind fun errors => (collect check rest).bind fun others =>
      some (errors ++ others)) = some [] ↔ _
    constructor
    · intro h
      obtain ⟨errors, hx, h⟩ := Option.bind_eq_some_iff.mp h
      obtain ⟨others, hrest, h⟩ := Option.bind_eq_some_iff.mp h
      obtain ⟨rfl, rfl⟩ := List.append_eq_nil_iff.mp (Option.some.inj h)
      exact ⟨hx, hrest⟩
    · rintro ⟨hx, hrest⟩
      rw [hx, hrest]
      rfl

/-- A name that is no index. -/
def Named (key : Text) : Prop := ∃ c ∈ key, c.isDigit = false

instance {key : Text} : Decidable (Named key) :=
  decidable_of_iff (key.any (fun c => !c.isDigit) = true) (by simp [Named])

/-- An array with something under a name is an object. -/
theorem object_of_last {value v : Json} {fields : Object} {key : Text} (hkey : Named key)
    (hvalue : toArray value = some fields) (hlast : last key fields = some v) :
    value = .obj fields := by
  cases value with
  | obj others => rw [Option.some.inj hvalue]
  | arr elems =>
    rw [← Option.some.inj hvalue, last_indexed hkey] at hlast
    cases hlast
  | _ => cases hvalue

theorem validateField_nil {path : Text} {rule : Object} {field : Text} :
    validateField casts path rule field = some [] ↔
      ∃ text, (last field rule).bind casts.text = some text ∧ trim text ≠ [] := by
  rw [validateField]
  cases last field rule with
  | none => exact ⟨nofun, fun ⟨_, h, _⟩ => nomatch h⟩
  | some value =>
    dsimp only
    rw [Option.bind_some, Option.map_eq_some_iff]
    constructor
    · rintro ⟨text, htext, hnil⟩
      exact ⟨text, htext, expect_nil.mp hnil⟩
    · rintro ⟨text, htext, hne⟩
      exact ⟨text, htext, expect_nil.mpr hne⟩

/-- A text that is not blank is not that of the default. -/
theorem text_orDefault {key text : Text} {array : Object} (hne : text ≠ []) :
    casts.text (orDefault key array (.str [])) = some text ↔
      (last key array).bind casts.text = some text := by
  rw [orDefault]
  cases last key array with
  | none => exact ⟨fun h => absurd (Option.some.inj h).symm hne, nofun⟩
  | some value =>
    cases value with
    | null =>
      constructor
      · exact fun h => absurd (Option.some.inj h).symm hne
      · exact fun h => absurd (Option.some.inj h).symm hne
    | _ => exact Iff.rfl

theorem ne_nil_of_trim {text : Text} (h : trim text ≠ []) : text ≠ [] := by
  rintro rfl
  exact h rfl

theorem validateRule_nil {profileName ruleCollection : Text} {entry : Text × Json} :
    validateRule casts profileName ruleCollection entry = some [] ↔
      ∀ rule, toArray entry.2 = some rule → RuleAsks casts rule := by
  rw [validateRule]
  cases toArray entry.2 with
  | none => exact ⟨fun _ => nofun, fun _ => rfl⟩
  | some rule =>
    constructor
    · rintro h _ ⟨⟩
      obtain ⟨errors, hfields, h⟩ := Option.bind_eq_some_iff.mp h
      obtain ⟨tag, htag, h⟩ := Option.bind_eq_some_iff.mp h
      obtain ⟨rfl, hallowed⟩ := List.append_eq_nil_iff.mp (Option.some.inj h)
      have hfields : ∀ field ∈ ruleFields, ∃ text,
          (last field rule).bind casts.text = some text ∧ trim text ≠ [] :=
        fun field hfield => validateField_nil.mp (collect_nil.mp hfields field hfield)
      obtain ⟨text, htext, hne⟩ := hfields _ (.head _)
      have hsame := htag.symm.trans ((text_orDefault (ne_nil_of_trim hne)).mpr htext)
      rw [Option.some.inj hsame] at hallowed
      refine ⟨hfields, text, htext, (expect_nil.mp hallowed).resolve_left fun hnil => ?_⟩
      exact hne (List.map_eq_nil_iff.mp hnil)
    · intro h
      obtain ⟨hfields, text, htext, hallowed⟩ := h rule rfl
      obtain ⟨other, hother, hne⟩ := hfields _ (.head _)
      obtain rfl := Option.some.inj (hother.symm.trans htext)
      refine Option.bind_eq_some_iff.mpr ⟨[], collect_nil.mpr fun field hfield =>
        validateField_nil.mpr (hfields field hfield), Option.bind_eq_some_iff.mpr ⟨other,
        (text_orDefault (ne_nil_of_trim hne)).mpr htext, ?_⟩⟩
      exact congrArg some (List.append_eq_nil_iff.mpr ⟨rfl, expect_nil.mpr (.inr hallowed)⟩)

theorem validateCollection_nil {profileName ruleCollection : Text} {profile : Object} :
    validateCollection casts profileName profile ruleCollection = some [] ↔
      ∀ rules, (last ruleCollection profile).bind toArray = some rules →
        ∀ key rule, (last key rules).bind toArray = some rule → RuleAsks casts rule := by
  rw [validateCollection]
  cases (last ruleCollection profile).bind toArray with
  | none => exact ⟨fun _ => nofun, fun _ => rfl⟩
  | some rules =>
    dsimp only
    rw [collect_nil]
    constructor
    · rintro h _ ⟨⟩ key rule hrule
      obtain ⟨value, hvalue, harray⟩ := Option.bind_eq_some_iff.mp hrule
      exact validateRule_nil.mp (h (key, value) (mem_merged.mpr hvalue)) rule harray
    · intro h entry hentry
      refine validateRule_nil.mpr fun rule harray => h rules rfl entry.1 rule ?_
      exact Option.bind_eq_some_iff.mpr ⟨entry.2, mem_merged.mp hentry, harray⟩

theorem flatMap_expect_nil {keys : List Text} {p : Text → Prop} [DecidablePred p]
    {message : Text → Text} : (keys.flatMap fun key => expect (p key) (message key)) = [] ↔
      ∀ key ∈ keys, p key := by
  rw [List.flatMap_eq_nil_iff]
  exact forall₂_congr fun _ _ => expect_nil

/-- The object under a name, if there is an array with something in it. -/
theorem last_object {key : Text} {array fields : Object} {keys : List Text}
    (hkeys : ∀ k ∈ keys, Named k) (hne : keys ≠ [])
    (hlast : ∀ k ∈ keys, (last k fields).isSome = true)
    (h : (last key array).bind toArray = some fields) : last key array = some (.obj fields) := by
  obtain ⟨value, hvalue, harray⟩ := Option.bind_eq_some_iff.mp h
  obtain ⟨k, hk⟩ := List.exists_mem_of_ne_nil keys hne
  obtain ⟨v, hv⟩ := Option.isSome_iff_exists.mp (hlast k hk)
  rw [hvalue, object_of_last (hkeys k hk) harray hv]

theorem expectFields_nil {key : Text} {array : Object} {fields : List Text} {path : Text}
    (hnamed : ∀ field ∈ fields, Named field) (hne : fields ≠ []) :
    expectFields key array fields path = [] ↔ HasFields key array fields := by
  rw [expectFields]
  cases h : (last key array).bind toArray with
  | none =>
    constructor
    · exact nofun
    · rintro ⟨found, hfound, -⟩
      rw [hfound] at h
      exact nomatch h
  | some found =>
    dsimp only
    rw [flatMap_expect_nil]
    constructor
    · exact fun hall => ⟨found, last_object hnamed hne hall h, hall⟩
    · rintro ⟨others, hothers, hall⟩
      rw [hothers] at h
      exact Option.some.inj h ▸ hall

theorem validateSession_nil {profileName : Text} {profile : Object} :
    validateSession profileName profile = [] ↔ SessionAsks profile := by
  have hnamed : ∀ field ∈ sessionFields, Named field := by decide
  exact expectFields_nil hnamed nofun

theorem isSome_of_hasFields {key : Text} {object : Object} {fields : List Text}
    (h : HasFields key object fields) : (last key object).isSome = true := by
  obtain ⟨found, hfound, -⟩ := h
  rw [hfound]
  rfl

theorem validateV3Modes_nil {root : Object} : validateV3Modes root = [] ↔ ModesAsk root := by
  have hnamed : ∀ mode ∈ modes, Named mode := by decide
  have hfields : ∀ field ∈ modeFields, Named field := by decide
  rw [validateV3Modes]
  cases h : (last "modes".toList root).bind toArray with
  | none =>
    constructor
    · exact nofun
    · rintro ⟨definitions, hdefinitions, -⟩
      rw [hdefinitions] at h
      exact nomatch h
  | some definitions =>
    dsimp only
    rw [List.flatMap_eq_nil_iff]
    constructor
    · intro hall
      have hmodes : ∀ mode ∈ modes, HasFields mode definitions modeFields :=
        fun mode hmode => (expectFields_nil hfields nofun).mp (hall mode hmode)
      exact ⟨definitions, last_object hnamed nofun
        (fun mode hmode => isSome_of_hasFields (hmodes mode hmode)) h, hmodes⟩
    · rintro ⟨others, hothers, hmodes⟩ mode hmode
      rw [hothers] at h
      rw [← Option.some.inj h]
      exact (expectFields_nil hfields nofun).mpr (hmodes mode hmode)

theorem validateProfile_nil {entry : Text × Json} :
    validateProfile casts entry = some [] ↔
      ∀ profile, toArray entry.2 = some profile → SessionAsks profile ∧ RulesAsk casts profile := by
  rw [validateProfile]
  cases toArray entry.2 with
  | none => exact ⟨fun _ => nofun, fun _ => rfl⟩
  | some profile =>
    constructor
    · rintro h _ ⟨⟩
      obtain ⟨errors, hrules, h⟩ := Option.bind_eq_some_iff.mp h
      obtain ⟨hsession, rfl⟩ := List.append_eq_nil_iff.mp (Option.some.inj h)
      exact ⟨validateSession_nil.mp hsession, fun ruleCollection hmem =>
        validateCollection_nil.mp (collect_nil.mp hrules ruleCollection hmem)⟩
    · intro h
      obtain ⟨hsession, hrules⟩ := h profile rfl
      refine Option.bind_eq_some_iff.mpr ⟨[], collect_nil.mpr fun ruleCollection hmem =>
        validateCollection_nil.mpr (hrules ruleCollection hmem), ?_⟩
      exact congrArg some (List.append_eq_nil_iff.mpr ⟨validateSession_nil.mpr hsession, rfl⟩)

theorem validateV3Rules_nil {profiles : Object} :
    validateV3Rules casts profiles = some [] ↔
      ∀ name profile, (last name profiles).bind toArray = some profile →
        SessionAsks profile ∧ RulesAsk casts profile := by
  rw [validateV3Rules, collect_nil]
  constructor
  · intro h name profile hprofile
    obtain ⟨value, hvalue, harray⟩ := Option.bind_eq_some_iff.mp hprofile
    exact validateProfile_nil.mp (h (name, value) (mem_merged.mpr hvalue)) profile harray
  · intro h entry hentry
    refine validateProfile_nil.mpr fun profile harray => h entry.1 profile ?_
    exact Option.bind_eq_some_iff.mpr ⟨entry.2, mem_merged.mp hentry, harray⟩

theorem validateVersion_nil {version expected : Text} :
    validateVersion version expected = [] ↔ version ≠ [] ∧ version = expected := by
  rw [validateVersion]
  split
  · next h => exact ⟨nofun, fun hne => absurd h hne.1⟩
  · next h => exact expect_nil.trans ⟨fun heq => ⟨h, heq⟩, fun hand => hand.2⟩

theorem isBoolean_iff {value : Option Json} :
    isBoolean value = true ↔ ∃ b, value = some (.bool b) := by
  cases value with
  | none => simp [isBoolean]
  | some j => cases j <;> simp [isBoolean]

theorem isNumericValue_iff {value : Option Json} :
    (value.map isNumericValue).getD false = true ↔
      ∃ j, value = some j ∧ isNumericValue j = true := by
  cases value <;> simp

/-- The object under a path of names, where there is an array with something in it. -/
theorem under_of_arrays {root profiles generic retry : Object}
    (hprofiles : (last "profiles".toList root).bind toArray = some profiles)
    (hgeneric : (last "generic".toList profiles).bind toArray = some generic)
    (hretry : (last "retry".toList generic).bind toArray = some retry)
    (hfields : ∀ field ∈ retryFields, (last field retry).isSome = true) :
    last "profiles".toList root = some (.obj profiles) ∧
      under ["profiles".toList, "generic".toList, "retry".toList] root = some retry := by
  have hnamed : ∀ field ∈ retryFields, Named field := by decide
  have hkeys : ∀ key ∈ ["generic".toList, "retry".toList], Named key := by decide
  have hretry := last_object hnamed nofun hfields hretry
  have hone : ∀ {key : Text} {object : Object} {j : Json}, last key object = some j →
      ∀ k ∈ [key], (last k object).isSome = true := by
    intro key object j h k hk
    rw [List.mem_singleton.mp hk, h]
    rfl
  have hgeneric := last_object (List.forall_mem_singleton.mpr (hkeys _ (.tail _ (.head _)))) nofun
    (hone hretry) hgeneric
  have hprofiles := last_object (List.forall_mem_singleton.mpr (hkeys _ (.head _))) nofun
    (hone hgeneric) hprofiles
  exact ⟨hprofiles, under_cons.mpr ⟨profiles, hprofiles, under_cons.mpr ⟨generic, hgeneric,
    under_cons.mpr ⟨retry, hretry, rfl⟩⟩⟩⟩

theorem validateV3_nil {schema : Text} {root profiles : Object}
    (hprofiles : last "profiles".toList root = some (.obj profiles)) :
    validateV3 casts schema root profiles = some [] ↔
      (schema ∈ ["v3".toList, "v4".toList] → V3Asks casts root) := by
  rw [validateV3]
  split
  · next hstrict =>
    rw [Option.map_eq_some_iff]
    constructor
    · rintro ⟨errors, hrules, happend⟩ -
      obtain ⟨rfl, hmodes⟩ := List.append_eq_nil_iff.mp happend
      refine ⟨fun others hothers => ?_, validateV3Modes_nil.mp hmodes⟩
      rw [hprofiles, Option.some.injEq, Json.obj.injEq] at hothers
      exact hothers ▸ validateV3Rules_nil.mp hrules
    · intro h
      obtain ⟨hrules, hmodes⟩ := h hstrict
      exact ⟨[], validateV3Rules_nil.mpr (hrules profiles hprofiles),
        List.append_eq_nil_iff.mpr ⟨rfl, validateV3Modes_nil.mpr hmodes⟩⟩
  · next hplain => exact ⟨fun _ hstrict => absurd hstrict hplain, fun _ => rfl⟩

theorem validateProfiles_nil {schema : Text} {root : Object} :
    validateProfiles casts schema root = some [] ↔
      (∃ retry, under ["profiles".toList, "generic".toList, "retry".toList] root = some retry ∧
        ∀ field ∈ retryFields, ∃ value, last field retry = some value ∧
          isNumericValue value = true) ∧
      (schema ∈ ["v3".toList, "v4".toList] → V3Asks casts root) := by
  constructor
  · intro h
    rw [validateProfiles] at h
    split at h
    · exact nomatch h
    · next profiles hprofiles =>
      split at h
      · exact nomatch h
      · next generic hgeneric =>
        split at h
        · exact nomatch h
        · next retry hretry =>
          obtain ⟨errors, hv3, happend⟩ := Option.map_eq_some_iff.mp h
          obtain ⟨hfields, rfl⟩ := List.append_eq_nil_iff.mp happend
          have hnumeric : ∀ field ∈ retryFields, ∃ value, last field retry = some value ∧
              isNumericValue value = true :=
            fun field hfield => isNumericValue_iff.mp (flatMap_expect_nil.mp hfields field hfield)
          obtain ⟨hobject, hunder⟩ := under_of_arrays hprofiles hgeneric hretry
            fun field hfield => by
              obtain ⟨value, hvalue, -⟩ := hnumeric field hfield
              rw [hvalue]
              rfl
          exact ⟨⟨retry, hunder, hnumeric⟩, (validateV3_nil hobject).mp hv3⟩
  · rintro ⟨⟨retry, hunder, hnumeric⟩, hv3⟩
    obtain ⟨profiles, hprofiles, hunder⟩ := under_cons.mp hunder
    obtain ⟨generic, hgeneric, hunder⟩ := under_cons.mp hunder
    obtain ⟨_, hretry, hnil⟩ := under_cons.mp hunder
    rw [under_nil.mp hnil] at hretry
    rw [validateProfiles, hprofiles]
    show (match (last "generic".toList profiles).bind toArray with
      | none => _
      | some genericProfile => _) = some []
    rw [hgeneric]
    show (match (last "retry".toList generic).bind toArray with
      | none => _
      | some retry => _) = some []
    rw [hretry]
    refine Option.map_eq_some_iff.mpr ⟨[], (validateV3_nil hprofiles).mpr hv3, ?_⟩
    exact List.append_eq_nil_iff.mpr ⟨flatMap_expect_nil.mpr fun field hfield =>
      isNumericValue_iff.mpr (hnumeric field hfield), rfl⟩

/-- **The web application accepts what has all it asks for.** -/
theorem validate_nil_iff {expectedVersion : Text} {payload : Json} :
    validate casts payload expectedVersion = some [] ↔
      ∃ root, payload = .obj root ∧ Asks casts expectedVersion root := by
  constructor
  · intro h
    obtain ⟨schema, hschema, h⟩ := Option.bind_eq_some_iff.mp h
    obtain ⟨version, hversion, h⟩ := Option.bind_eq_some_iff.mp h
    obtain ⟨errors, hprofiles, h⟩ := Option.bind_eq_some_iff.mp h
    obtain ⟨hallowed, h⟩ := List.append_eq_nil_iff.mp (Option.some.inj h)
    obtain ⟨henabled, h⟩ := List.append_eq_nil_iff.mp h
    obtain ⟨hequal, rfl⟩ := List.append_eq_nil_iff.mp h
    obtain ⟨hretry, hv3⟩ := validateProfiles_nil.mp hprofiles
    obtain ⟨b, hb⟩ := isBoolean_iff.mp (expect_nil.mp henabled)
    obtain ⟨hne, hequal⟩ := validateVersion_nil.mp hequal
    obtain ⟨root, rfl⟩ : ∃ root, payload = .obj root := by
      cases harray : toArray payload with
      | none =>
        rw [harray] at hb
        exact nomatch hb
      | some root =>
        rw [harray] at hb
        exact ⟨root, object_of_last (by decide) harray hb⟩
    have hschema : schemaVersion casts root = some (strtolower (trim schema)) :=
      Option.map_eq_some_iff.mpr ⟨schema, hschema, rfl⟩
    have hversion : payloadVersion casts root = some (trim version) :=
      Option.map_eq_some_iff.mpr ⟨version, hversion, rfl⟩
    refine ⟨root, rfl, ⟨_, hschema, expect_nil.mp hallowed⟩, ⟨b, hb⟩,
      ⟨_, hversion, hne, hequal⟩, hretry, fun other hother hstrict => hv3 ?_⟩
    exact Option.some.inj (hother.symm.trans hschema) ▸ hstrict
  · rintro ⟨root, rfl, hasks⟩
    obtain ⟨_, hschema, hallowed⟩ := hasks.schema
    obtain ⟨_, hversion, hne, hequal⟩ := hasks.version
    obtain ⟨schema, hschemaText, rfl⟩ := Option.map_eq_some_iff.mp hschema
    obtain ⟨version, hversionText, rfl⟩ := Option.map_eq_some_iff.mp hversion
    refine Option.bind_eq_some_iff.mpr ⟨schema, hschemaText, Option.bind_eq_some_iff.mpr
      ⟨version, hversionText, Option.bind_eq_some_iff.mpr ⟨[], validateProfiles_nil.mpr
      ⟨hasks.retry, hasks.v3 _ hschema⟩, congrArg some ?_⟩⟩⟩
    exact List.append_eq_nil_iff.mpr ⟨expect_nil.mpr hallowed, List.append_eq_nil_iff.mpr
      ⟨expect_nil.mpr (isBoolean_iff.mpr hasks.enabled), List.append_eq_nil_iff.mpr
      ⟨validateVersion_nil.mpr ⟨hne, hequal⟩, rfl⟩⟩⟩

end

end ValidEmailVerifier.SmtpPolicyPayloadValidator
