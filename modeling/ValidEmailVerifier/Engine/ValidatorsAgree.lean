/-
# `Engine.ValidatorsAgree` — the two checks of a policy payload, compared

The control plane and the web application ask in part for the same (`Common`); beside it
each asks for something of its own, because one reads values by their type and the other by
the text they are cast to, and because one looks at the session of one profile and the other
at that of all.  They give the same answer to a payload exactly when a common requirement
fails, or the requirements of their own hold for both or for neither (`agree_iff`).
-/
import ValidEmailVerifier.Engine.PayloadValidator

namespace ValidEmailVerifier.PolicyChecks

open GoJson GoStrings Json Text Worker
open PayloadSchema (Object validatePolicyPayloadSchema under under_cons under_nil
  requiredRetryFields requiredSessionFields requiredModes requiredModeFields)
open SmtpPolicyPayloadValidator (Casts HasFields isNumericValue)

/-- The third and the fourth schema. -/
def strictSchemas : List Text := ["v3".toList, "v4".toList]

/-- One of the checks reads the payload by the schema. -/
def Reads (casts : Casts) (root : Object) (schema : Text) : Prop :=
  PayloadSchema.schemaVersion root = schema ∨
    SmtpPolicyPayloadValidator.schemaVersion casts root = some schema

/-- What both checks ask for: whether the policy is enabled, retry delays that are numbers or
numeric texts, and under a strict schema a session of the generic profile and the modes. -/
structure Common (casts : Casts) (root : Object) : Prop where
  enabled : ∃ b, last "enabled".toList root = some (.bool b)
  retry : ∃ retry, under ["profiles".toList, "generic".toList, "retry".toList] root =
    some retry ∧ ∀ field ∈ requiredRetryFields, ∃ value, last field retry = some value ∧
      isNumericValue value = true
  session : ∀ schema ∈ strictSchemas, Reads casts root schema → ∃ generic,
    under ["profiles".toList, "generic".toList] root = some generic ∧
      HasFields "session".toList generic requiredSessionFields
  modes : ∀ schema ∈ strictSchemas, Reads casts root schema → ∃ modes,
    under ["modes".toList] root = some modes ∧
      ∀ mode ∈ requiredModes, HasFields mode modes requiredModeFields

/-- What the control plane alone asks for: numbers in the range of `float64`, a version that
is a string, retry delays that are numbers, and under a strict schema rules that are objects
in lists with fields that are not printed blank and an allowed tag. -/
structure ControlPlaneAsks (F : Type) [Floats F] (version : Text) (root : Object) : Prop where
  inRange : inRangeFields F root = true
  version : ∃ s, last "version".toList root = some (.str s) ∧ trimSpace s ≠ [] ∧
    trimSpace s = trimSpace version
  schema : PayloadSchema.schemaVersion root ∈ "v2".toList :: strictSchemas
  numbers : ∀ retry, under ["profiles".toList, "generic".toList, "retry".toList] root =
    some retry → ∀ field ∈ requiredRetryFields, ∀ s, last field retry ≠ some (.str s)
  rules : PayloadSchema.schemaVersion root ∈ strictSchemas → ∀ profiles,
    last "profiles".toList root = some (.obj profiles) → ∀ name profile,
      last name profiles = some (.obj profile) → PayloadSchema.RulesAsk F profile

/-- What the web application alone asks for: a version whose text is the expected one, and
under a strict schema a session of every profile that is a list or an object, and rules that
are objects in lists or objects with fields whose texts are not blank and an allowed tag. -/
structure WebAsks (casts : Casts) (version : Text) (root : Object) : Prop where
  version : ∃ text, SmtpPolicyPayloadValidator.payloadVersion casts root = some text ∧
    text ≠ [] ∧ text = trim version
  schema : ∃ schema, SmtpPolicyPayloadValidator.schemaVersion casts root = some schema ∧
    schema ∈ "v2".toList :: strictSchemas
  profiles : ∀ schema ∈ strictSchemas,
    SmtpPolicyPayloadValidator.schemaVersion casts root = some schema → ∀ profiles,
      last "profiles".toList root = some (.obj profiles) → ∀ name profile,
        (last name profiles).bind SmtpPolicyPayloadValidator.toArray = some profile →
          SmtpPolicyPayloadValidator.SessionAsks profile ∧
            SmtpPolicyPayloadValidator.RulesAsk casts profile

/-! ## One schema -/

/-- The characters of the three names, before they are lowered. -/
def isSchemaChar (c : Char) : Bool := c ∈ ['v', 'V', '2', '3', '4']

theorem isSchemaChar_of_toLower {c : Char} (h : c.toLower ∈ ['v', '2', '3', '4']) :
    isSchemaChar c = true := by
  by_cases hupper : c.val ≥ 'A'.val ∧ c.val ≤ 'Z'.val
  · have hval : c.toLower.val = c.val + 32 := congrArg Char.val (dif_pos hupper)
    have hnat : c.toLower.val.toNat = c.val.toNat + 32 := by
      have hle := UInt32.le_iff_toNat_le.mp hupper.2
      rw [hval, UInt32.toNat_add]
      have hZ : 'Z'.val.toNat = 90 := rfl
      have h32 : (32 : UInt32).toNat = 32 := rfl
      omega
    have hge : 65 ≤ c.val.toNat := UInt32.le_iff_toNat_le.mp hupper.1
    have hV : ∀ d : Char, d.val.toNat = 118 → c.toLower = d → c = 'V' := by
      intro d hd heq
      rw [heq, hd] at hnat
      refine Char.ext (UInt32.toNat_inj.mp ?_)
      show c.val.toNat = 86
      omega
    simp only [List.mem_cons, List.not_mem_nil, or_false] at h
    rcases h with heq | heq | heq | heq
    · rw [hV 'v' rfl heq]
      rfl
    all_goals
      rw [heq] at hnat
      have hdigit : 65 + 32 ≤ _ := Nat.add_le_add_right hge 32
      rw [← hnat] at hdigit
      exact absurd hdigit (by decide)
  · rw [Text.toLower_of_not_capital hupper] at h
    simp only [List.mem_cons, List.not_mem_nil, or_false] at h
    rcases h with rfl | rfl | rfl | rfl <;> rfl

theorem lowerChar_of_isSchemaChar {c : Char} (h : isSchemaChar c = true) :
    lowerChar c = c.toLower := by
  simp only [isSchemaChar, List.mem_cons, List.not_mem_nil, or_false, decide_eq_true_eq] at h
  rcases h with rfl | rfl | rfl | rfl | rfl <;> rfl

theorem isSchemaChar_of_lowerChar {c : Char} (h : lowerChar c ∈ ['v', '2', '3', '4']) :
    isSchemaChar c = true := by
  rw [lowerChar] at h
  split at h
  · exact absurd h (by decide)
  · split at h
    · exact absurd h (by decide)
    · exact isSchemaChar_of_toLower h

/-- Trimming drops nothing that is kept. -/
theorem filter_trimBy {p q : Char → Bool} (h : ∀ c, q c = true → p c = false) (s : Text) :
    (trimBy q s).filter p = s.filter p := by
  have hdrop : ∀ s : List Char, (s.dropWhile q).filter p = s.filter p := by
    intro s
    induction s with
    | nil => rfl
    | cons c s ih =>
      rw [List.dropWhile_cons]
      split
      · next hc => rw [ih, List.filter_cons_of_neg (by rw [h c hc]; exact nofun)]
      · rfl
  rw [trimBy, List.rdropWhile, List.filter_reverse, hdrop, List.filter_reverse,
    List.reverse_reverse, hdrop]

/-- The characters of a schema. -/
theorem mem_schema {schema : Text} (h : schema ∈ "v2".toList :: strictSchemas) :
    ∀ c ∈ schema, c ∈ ['v', '2', '3', '4'] := by
  have hall : ∀ schema ∈ "v2".toList :: strictSchemas,
      schema.all (fun c => ['v', '2', '3', '4'].contains c) = true := by decide
  exact fun c hc => List.contains_iff_mem.mp (List.all_eq_true.mp (hall schema h) c hc)

theorem not_isBlank_of_isSchemaChar {c : Char} (h : isBlank c = true) :
    isSchemaChar c = false := by
  simp only [isBlank, Bool.or_eq_true, beq_iff_eq] at h
  rcases h with ((((rfl | rfl) | rfl) | rfl) | rfl) | rfl <;> rfl

theorem not_isSpace_of_isSchemaChar {c : Char} (h : isSpace c = true) :
    isSchemaChar c = false := by
  cases hc : isSchemaChar c with
  | false => rfl
  | true =>
    simp only [isSchemaChar, List.mem_cons, List.not_mem_nil, or_false, decide_eq_true_eq] at hc
    rcases hc with rfl | rfl | rfl | rfl | rfl <;> exact absurd h (by decide)

/-- What the web application takes for a schema is what there is of its characters. -/
theorem filter_of_schema {s : Text} (h : strtolower (trim s) ∈ "v2".toList :: strictSchemas) :
    s.filter isSchemaChar = trim s := by
  rw [← filter_trimBy (fun _ => not_isBlank_of_isSchemaChar)]
  exact List.filter_eq_self.mpr fun c hc =>
    isSchemaChar_of_toLower (mem_schema h _ (List.mem_map_of_mem hc))

/-- Both checks see the same in a text that both take for a schema. -/
theorem same_schema {s first second : Text} (hfirst : toLower (trimSpace s) = first)
    (hsecond : strtolower (trim s) = second) (hf : first ∈ "v2".toList :: strictSchemas)
    (hs : second ∈ "v2".toList :: strictSchemas) : first = second := by
  have hspace : (trimSpace s).filter isSchemaChar = trimSpace s := by
    refine List.filter_eq_self.mpr fun c hc => isSchemaChar_of_lowerChar ?_
    exact mem_schema hf _ (hfirst ▸ List.mem_map_of_mem hc)
  have hsame : trimSpace s = trim s := by
    rw [← filter_of_schema (hsecond ▸ hs), ← hspace, trimSpace,
      filter_trimBy (fun _ => not_isSpace_of_isSchemaChar)]
  rw [← hfirst, ← hsecond, ← hsame]
  refine List.map_congr_left fun c hc => lowerChar_of_isSchemaChar ?_
  rw [← hspace] at hc
  exact (List.mem_filter.mp hc).2

variable {casts : Casts} {root : Object}

/-- What a text begins with stays when it is trimmed. -/
theorem exists_trim_cons {c : Char} (rest : Text) (h : isBlank c = false) :
    ∃ tail, trim (c :: rest) = c :: tail := by
  have hkept : (c :: rest).dropWhile isBlank = c :: rest :=
    List.dropWhile_cons_of_neg (by rw [h]; exact nofun)
  have hprefix : trim (c :: rest) <+: c :: rest := by
    rw [trim, trimBy, hkept]
    exact List.rdropWhile_prefix isBlank _
  cases htrim : trim (c :: rest) with
  | nil =>
    rw [trim, trimBy, hkept, List.rdropWhile_eq_nil_iff] at htrim
    have htrue := htrim c (.head _)
    rw [h] at htrue
    exact nomatch htrue
  | cons d tail =>
    rw [htrim] at hprefix
    obtain ⟨rfl, -⟩ := List.cons_prefix_cons.mp hprefix
    exact ⟨tail, rfl⟩

theorem not_isBlank_of_isDigit {c : Char} (h : c.isDigit = true) : isBlank c = false := by
  cases hc : isBlank c with
  | false => rfl
  | true =>
    simp only [isBlank, Bool.or_eq_true, beq_iff_eq] at hc
    rcases hc with ((((rfl | rfl) | rfl) | rfl) | rfl) | rfl <;> cases h

theorem toLower_ne_of_isDigit {c : Char} (h : c.isDigit = true) : c.toLower ≠ 'v' := by
  intro heq
  have hmem : isSchemaChar c = true := isSchemaChar_of_toLower (heq ▸ .head _)
  simp only [isSchemaChar, List.mem_cons, List.not_mem_nil, or_false, decide_eq_true_eq] at hmem
  rcases hmem with rfl | rfl | rfl | rfl | rfl <;>
    first | exact absurd h (by decide) | exact absurd heq (by decide)

/-- What is no string is no schema to the web application. -/
theorem not_schema_of_cast {j : Json} (hnull : j ≠ .null) (hstr : ∀ s, j ≠ .str s) {text : Text}
    (h : casts.text j = some text) : strtolower (trim text) ∉ "v2".toList :: strictSchemas := by
  cases j with
  | null => exact absurd rfl hnull
  | str s => exact absurd rfl (hstr s)
  | bool b =>
    rw [← Option.some.inj h]
    cases b <;> decide
  | num n =>
    obtain ⟨c, rest, hhead, hc⟩ := casts.number_head n
    have hplain : isBlank c = false ∧ c.toLower ≠ 'v' := by
      rcases hc with rfl | hdigit | rfl
      · decide
      · exact ⟨not_isBlank_of_isDigit hdigit, toLower_ne_of_isDigit hdigit⟩
      · decide
    obtain ⟨tail, htail⟩ := exists_trim_cons rest hplain.1
    rw [← Option.some.inj h, hhead, htail]
    intro hmem
    have hfirst : ∀ schema ∈ "v2".toList :: strictSchemas, schema.head? = some 'v' := by
      decide
    exact hplain.2 (Option.some.inj (hfirst _ hmem))
  | arr elems =>
    obtain ⟨-, htext⟩ := Option.ite_none_left_eq_some.mp h
    rw [← Option.some.inj htext]
    decide
  | obj fields =>
    obtain ⟨-, htext⟩ := Option.ite_none_left_eq_some.mp h
    rw [← Option.some.inj htext]
    decide

/-- Both checks read a payload by the same schema, if both know it. -/
theorem schema_eq {schema : Text}
    (hfirst : PayloadSchema.schemaVersion root ∈ "v2".toList :: strictSchemas)
    (hsecond : SmtpPolicyPayloadValidator.schemaVersion casts root = some schema)
    (hmem : schema ∈ "v2".toList :: strictSchemas) :
    PayloadSchema.schemaVersion root = schema := by
  obtain ⟨text, htext, rfl⟩ := Option.map_eq_some_iff.mp hsecond
  rw [PayloadSchema.schemaVersion] at hfirst ⊢
  rw [SmtpPolicyPayloadValidator.orDefault] at htext
  cases hvalue : last "schema_version".toList root with
  | none =>
    rw [hvalue] at htext
    rw [← Option.some.inj htext]
    decide
  | some j =>
    rw [hvalue] at htext hfirst
    cases j with
    | null =>
      rw [← Option.some.inj htext]
      decide
    | str s =>
      obtain rfl := Option.some.inj htext
      dsimp only at hfirst ⊢
      split at hfirst
      · next hblank =>
        have hfilter : (trimSpace s).filter isSchemaChar = s.filter isSchemaChar :=
          filter_trimBy (fun _ => not_isSpace_of_isSchemaChar) s
        rw [hblank, filter_of_schema hmem] at hfilter
        rw [← hfilter] at hmem
        exact absurd hmem (by decide)
      · next hne =>
        rw [if_neg hne]
        exact same_schema rfl rfl hfirst hmem
    | bool b =>
      exact absurd hmem (not_schema_of_cast (j := .bool b) (by simp) (by simp) htext)
    | num n =>
      exact absurd hmem (not_schema_of_cast (j := .num n) (by simp) (by simp) htext)
    | arr elems =>
      exact absurd hmem (not_schema_of_cast (j := .arr elems) (by simp) (by simp) htext)
    | obj fields =>
      exact absurd hmem (not_schema_of_cast (j := .obj fields) (by simp) (by simp) htext)

/-! ## What the checks ask for, taken apart -/

theorem mem_schemas {schema : Text} (h : schema ∈ strictSchemas) :
    schema ∈ "v2".toList :: strictSchemas := .tail _ h

section

variable {F : Type} [Floats F] {version : Text}

theorem controlPlane_iff : PayloadSchema.Asks F version root ↔
    Common casts root ∧ ControlPlaneAsks F version root := by
  constructor
  · intro hasks
    have hstrict : ∀ schema ∈ strictSchemas, Reads casts root schema →
        PayloadSchema.V3Asks F root := by
      rintro schema hschema (hread | hread)
      · exact hasks.v3 (hread ▸ hschema)
      · exact hasks.v3 ((schema_eq hasks.schema hread (mem_schemas hschema)) ▸ hschema)
    obtain ⟨retry, hretry, hnumbers⟩ := hasks.retry
    refine ⟨⟨hasks.enabled, ⟨retry, hretry, fun field hfield => ?_⟩, ?_, ?_⟩,
      ⟨hasks.inRange, hasks.version, hasks.schema, ?_, fun hread => (hasks.v3 hread).rules⟩⟩
    · obtain ⟨n, hn⟩ := hnumbers field hfield
      exact ⟨.num n, hn, rfl⟩
    · intro schema hschema hread
      obtain ⟨session, hsession, hfields⟩ := (hstrict schema hschema hread).session
      obtain ⟨profiles, hprofiles, hsession⟩ := under_cons.mp hsession
      obtain ⟨generic, hgeneric, hsession⟩ := under_cons.mp hsession
      obtain ⟨_, hsession, hnil⟩ := under_cons.mp hsession
      rw [under_nil.mp hnil] at hsession
      exact ⟨generic, under_cons.mpr ⟨profiles, hprofiles, under_cons.mpr ⟨generic, hgeneric,
        rfl⟩⟩, session, hsession, hfields⟩
    · intro schema hschema hread
      obtain ⟨modes, hmodes, hconfigs⟩ := (hstrict schema hschema hread).modes
      exact ⟨modes, under_cons.mpr ⟨modes, hmodes, rfl⟩, hconfigs⟩
    · intro other hother field hfield s hs
      obtain rfl := Option.some.inj (hretry.symm.trans hother)
      obtain ⟨n, hn⟩ := hnumbers field hfield
      exact nomatch hn.symm.trans hs
  · rintro ⟨hcommon, halone⟩
    obtain ⟨retry, hretry, hnumeric⟩ := hcommon.retry
    refine ⟨halone.inRange, hcommon.enabled, halone.version, halone.schema,
      ⟨retry, hretry, fun field hfield => ?_⟩, fun hread => ⟨?_, ?_, halone.rules hread⟩⟩
    · obtain ⟨value, hvalue, hnumeric⟩ := hnumeric field hfield
      cases value with
      | num n => exact ⟨n, hvalue⟩
      | str s => exact absurd hvalue (halone.numbers retry hretry field hfield s)
      | _ => exact nomatch hnumeric
    · obtain ⟨generic, hgeneric, session, hsession, hfields⟩ :=
        hcommon.session _ hread (.inl rfl)
      obtain ⟨profiles, hprofiles, hgeneric⟩ := under_cons.mp hgeneric
      obtain ⟨_, hgeneric, hnil⟩ := under_cons.mp hgeneric
      rw [under_nil.mp hnil] at hgeneric
      exact ⟨session, under_cons.mpr ⟨profiles, hprofiles, under_cons.mpr ⟨generic, hgeneric,
        under_cons.mpr ⟨session, hsession, rfl⟩⟩⟩, hfields⟩
    · obtain ⟨modes, hmodes, hconfigs⟩ := hcommon.modes _ hread (.inl rfl)
      obtain ⟨_, hmodes, hnil⟩ := under_cons.mp hmodes
      rw [under_nil.mp hnil] at hmodes
      exact ⟨modes, hmodes, hconfigs⟩

theorem web_iff : SmtpPolicyPayloadValidator.Asks casts version root ↔
    Common casts root ∧ WebAsks casts version root := by
  constructor
  · intro hasks
    have hstrict : ∀ schema ∈ strictSchemas, Reads casts root schema →
        SmtpPolicyPayloadValidator.V3Asks casts root := by
      rintro schema hschema (hread | hread)
      · obtain ⟨own, hown, hmem⟩ := hasks.schema
        have hsame := schema_eq (hread ▸ mem_schemas hschema) hown hmem
        exact hasks.v3 own hown (hsame ▸ hread ▸ hschema)
      · exact hasks.v3 schema hread hschema
    obtain ⟨retry, hretry, hnumeric⟩ := hasks.retry
    refine ⟨⟨hasks.enabled, ⟨retry, hretry, hnumeric⟩, ?_, ?_⟩, ⟨hasks.version, hasks.schema,
      fun schema hschema hread => (hasks.v3 schema hread hschema).profiles⟩⟩
    · intro schema hschema hread
      obtain ⟨profiles, hprofiles, hunder⟩ := under_cons.mp hretry
      obtain ⟨generic, hgeneric, -⟩ := under_cons.mp hunder
      have harray : (last "generic".toList profiles).bind
          SmtpPolicyPayloadValidator.toArray = some generic := by rw [hgeneric]; rfl
      obtain ⟨hsession, -⟩ :=
        (hstrict schema hschema hread).profiles profiles hprofiles _ generic harray
      exact ⟨generic, under_cons.mpr ⟨profiles, hprofiles, under_cons.mpr ⟨generic, hgeneric,
        rfl⟩⟩, hsession⟩
    · intro schema hschema hread
      obtain ⟨modes, hmodes, hconfigs⟩ := (hstrict schema hschema hread).modes
      exact ⟨modes, under_cons.mpr ⟨modes, hmodes, rfl⟩, hconfigs⟩
  · rintro ⟨hcommon, halone⟩
    refine ⟨halone.schema, hcommon.enabled, halone.version, hcommon.retry,
      fun schema hread hschema => ⟨halone.profiles schema hschema hread, ?_⟩⟩
    obtain ⟨modes, hmodes, hconfigs⟩ := hcommon.modes schema hschema (.inr hread)
    obtain ⟨_, hmodes, hnil⟩ := under_cons.mp hmodes
    rw [under_nil.mp hnil] at hmodes
    exact ⟨modes, hmodes, hconfigs⟩

/-- **The two checks give the same answer to a payload exactly when a requirement they share
fails, or those of their own hold for both or for neither.** -/
theorem agree_iff {payload : Json} :
    (validatePolicyPayloadSchema F version payload = .ok () ↔
        SmtpPolicyPayloadValidator.validate casts payload version = some []) ↔
      ∀ root, payload = .obj root → Common casts root →
        (ControlPlaneAsks F version root ↔ WebAsks casts version root) := by
  rw [PayloadSchema.validate_ok_iff, SmtpPolicyPayloadValidator.validate_nil_iff]
  constructor
  · rintro h root rfl hcommon
    constructor
    · intro halone
      obtain ⟨_, ⟨⟩, hasks⟩ := h.mp ⟨root, rfl, controlPlane_iff.mpr ⟨hcommon, halone⟩⟩
      exact (web_iff.mp hasks).2
    · intro halone
      obtain ⟨_, ⟨⟩, hasks⟩ := h.mpr ⟨root, rfl, web_iff.mpr ⟨hcommon, halone⟩⟩
      have hboth : Common casts root ∧ _ := controlPlane_iff.mp hasks
      exact hboth.2
  · intro h
    constructor
    · rintro ⟨root, rfl, hasks⟩
      obtain ⟨hcommon, halone⟩ := controlPlane_iff.mp hasks
      exact ⟨root, rfl, web_iff.mpr ⟨hcommon, (h root rfl hcommon).mp halone⟩⟩
    · rintro ⟨root, rfl, hasks⟩
      obtain ⟨hcommon, halone⟩ := web_iff.mp hasks
      exact ⟨root, rfl, controlPlane_iff.mpr ⟨hcommon, (h root rfl hcommon).mpr halone⟩⟩

end

/-! ## A profile without a session -/

/-- Numbers are printed with all their digits. -/
def plainCasts : Casts where
  number := Floats.print
  integer := id
  raises := true
  number_head n := by
    obtain ⟨c, rest, hprint, hc⟩ := Floats.print_head n
    exact ⟨c, rest, hprint, hc.elim .inl fun hdigit => .inr (.inl hdigit)⟩

/-- An object with the same value under each of the names. -/
def filled (names : List Text) (value : Json) : Json := .obj (names.map fun name => (name, value))

/-- A policy of the third schema whose second profile is empty. -/
def emptyProfilePolicy : Json :=
  .obj [("enabled".toList, .bool true), ("version".toList, .str "v9".toList),
    ("schema_version".toList, .str "v3".toList),
    ("profiles".toList, .obj [
      ("generic".toList, .obj [
        ("retry".toList, filled requiredRetryFields (.num ⟨false, 60, none⟩)),
        ("session".toList, filled requiredSessionFields (.num ⟨false, 2, none⟩))]),
      ("gmail".toList, .obj [])]),
    ("modes".toList, filled requiredModes (filled requiredModeFields (.num ⟨false, 1, none⟩)))]

/-- The control plane accepts the policy, the web application asks for the session of its
second profile. -/
theorem not_agree : ¬ ∀ (version : Text) (payload : Json),
    validatePolicyPayloadSchema Number version payload = .ok () ↔
      SmtpPolicyPayloadValidator.validate plainCasts payload version = some [] := by
  intro hall
  have hvalid : validatePolicyPayloadSchema Number "v9".toList emptyProfilePolicy = .ok () := by
    decide
  have hrefused : SmtpPolicyPayloadValidator.validate plainCasts emptyProfilePolicy "v9".toList =
      some ["Payload field \"profiles.gmail.session\" is required for schema v3.".toList] := by
    decide
  have haccepted := (hall "v9".toList emptyProfilePolicy).mp hvalid
  rw [hrefused] at haccepted
  exact nomatch haccepted

end ValidEmailVerifier.PolicyChecks
