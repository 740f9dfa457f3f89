/-
# `Engine.PayloadSchema` — the control plane's check of a policy payload

`validatePolicyPayloadSchema`: it decodes the payload into maps of any values, and asks for
what a policy has to have, one field after the other, up to the first that is missing.
What it asks for in all is `Asks` (`validate_ok_iff`).
-/
import ValidEmailVerifier.Engine.PolicyEngine
import ValidEmailVerifier.Policy.Store

namespace ValidEmailVerifier.PayloadSchema

open GoJson GoStrings Worker Json

/-! ## The check -/

/-- Why a payload is refused: `encoding/json` does not decode it, or a field. -/
inductive Failure
  | decode
  | field (message : Text)
  deriving DecidableEq, Repr

/-- An object of the payload. -/
abbrev Object := List (Text × Json)

def requiredRetryFields : List Text :=
  ["default_seconds".toList, "tempfail_seconds".toList, "greylist_seconds".toList,
    "policy_blocked_seconds".toList, "unknown_seconds".toList]

def requiredSessionFields : List Text :=
  ["max_concurrency".toList, "connects_per_minute".toList,
    "reuse_connection_for_retries".toList, "retry_jitter_percent".toList,
    "ehlo_profile".toList]

def requiredModes : List Text :=
  ["normal".toList, "cautious".toList, "drain".toList, "quarantine".toList,
    "degraded_probe".toList]

def requiredModeFields : List Text :=
  ["probe_enabled".toList, "max_concurrency_multiplier".toList,
    "connects_per_minute_multiplier".toList]

def ruleCollections : List Text :=
  ["enhanced_rules".toList, "smtp_code_rules".toList, "message_rules".toList]

def requiredRuleFields : List Text :=
  ["rule_tag".toList, "confidence_hint".toList, "provider_scope".toList]

def allowedRuleTags : List Text :=
  ["greylist".toList, "rate_limit".toList, "mailbox_full".toList, "policy_blocked".toList,
    "mailbox_not_found".toList, "auth_required".toList, "unknown_transient".toList]

/-- The message, unless the condition holds. -/
def require (p : Prop) [Decidable p] (message : Text) : Except Failure Unit :=
  if p then .ok () else .error (.field message)

/-- The object under a key. -/
def requireObject (key : Text) (object : Object) (message : Text) : Except Failure Object :=
  match last key object with
  | some (.obj fields) => .ok fields
  | _ => .error (.field message)

def isString : Option Json → Option Text
  | some (.str s) => some s
  | _ => none

def isJSONNumber : Json → Bool
  | .num _ => true
  | _ => false

def isBool : Option Json → Bool
  | some (.bool _) => true
  | _ => false

section

variable (F : Type) [Floats F]

/-- `json.Unmarshal` into a map. -/
def decodeRoot (payload : Json) : Except Failure Object :=
  match payload with
  | .null => .ok []
  | .obj fields => if inRangeFields F fields then .ok fields else .error .decode
  | _ => .error .decode

/-- The schema the payload is to be read by. -/
def schemaVersion (root : Object) : Text :=
  match last "schema_version".toList root with
  | some (.str value) => if trimSpace value = [] then "v2".toList else toLower (trimSpace value)
  | _ => "v2".toList

/-- What a field of a rule prints. -/
def printed (field : Text) (rule : Object) : Text :=
  ((last field rule).map (sprint F)).getD []

/-- One rule of a collection; only objects are looked at. -/
def checkRule (profileName collection : Text) (rule : Json) (index : Nat) :
    Except Failure Unit :=
  match rule with
  | .obj rule => do
      let path := "profiles.".toList ++ profileName ++ '.' :: collection ++
        '.' :: (toString index).toList
      requiredRuleFields.forM fun field =>
        require (trimSpace (printed F field rule) ≠ [])
          ("policy payload missing required ".toList ++ path ++ '.' :: field ++
            " field".toList)
      let ruleTag := toLower (trimSpace (printed F "rule_tag".toList rule))
      require (ruleTag ∈ allowedRuleTags)
        ("policy payload ".toList ++ path ++ ".rule_tag has unsupported value ".toList ++
          '"' :: ruleTag ++ ['"'])
  | _ => .ok ()

/-- The rules of one collection, if it is a list. -/
def checkCollection (profileName : Text) (profileMap : Object) (collection : Text) :
    Except Failure Unit :=
  match last collection profileMap with
  | some (.arr rules) =>
      rules.zipIdx.forM fun rule => checkRule F profileName collection rule.1 rule.2
  | _ => .ok ()

/-- The rules of one profile. -/
def checkProfile (profile : Text × Json) : Except Failure Unit :=
  match profile.2 with
  | .obj profileMap => ruleCollections.forM (checkCollection F profile.1 profileMap)
  | _ => .ok ()

/-- What the third and the fourth schema ask for. -/
def checkV3 (schema : Text) (root profiles genericProfile : Object) : Except Failure Unit := do
  let session ← requireObject "session".toList genericProfile
    ("policy payload missing required profiles.generic.session block for ".toList ++ schema)
  requiredSessionFields.forM fun key =>
    require ((last key session).isSome = true)
      ("policy payload missing session field ".toList ++ key)
  let modes ← requireObject "modes".toList root
    ("policy payload missing required modes object for ".toList ++ schema)
  requiredModes.forM fun mode => do
    let modeConfig ← requireObject mode modes
      ("policy payload missing required modes.".toList ++ mode ++ " object".toList)
    requiredModeFields.forM fun field =>
      require ((last field modeConfig).isSome = true)
        ("policy payload missing required modes.".toList ++ mode ++ '.' :: field ++
          " field".toList)
  -- the order of the profiles is that of a map, and decides only which message it is
  (lastWins profiles).forM (checkProfile F)

def validatePolicyPayloadSchema (version : Text) (payload : Json) : Except Failure Unit := do
  let root ← decodeRoot F payload
  require ((last "enabled".toList root).isSome = true)
    "policy payload missing required field enabled".toList
  require (isBool (last "enabled".toList root) = true)
    "policy payload field enabled must be boolean".toList
  let payloadVersion := (isString (last "version".toList root)).getD []
  require (trimSpace payloadVersion ≠ [])
    "policy payload missing required field version".toList
  require (Policy.normalizePolicyVersion payloadVersion = Policy.normalizePolicyVersion version)
    "policy payload version does not match requested version".toList
  let schema := schemaVersion root
  require (schema ∈ ["v2".toList, "v3".toList, "v4".toList])
    "policy payload schema_version must be v2, v3, or v4".toList
  let profiles ← requireObject "profiles".toList root
    "policy payload missing required object profiles".toList
  let genericProfile ← requireObject "generic".toList profiles
    "policy payload missing required profiles.generic block".toList
  let retry ← requireObject "retry".toList genericProfile
    "policy payload missing required profiles.generic.retry block".toList
  requiredRetryFields.forM fun key => do
    require ((last key retry).isSome = true) ("policy payload missing retry field ".toList ++ key)
    require (((last key retry).map isJSONNumber).getD false = true)
      ("policy payload retry field ".toList ++ key ++ " must be numeric".toList)
  if schema ∈ ["v3".toList, "v4".toList] then checkV3 F schema root profiles genericProfile
  else .ok ()

end

/-! ## What it asks for -/

theorem bind_ok {α β : Type} {x : Except Failure α} {f : α → Except Failure β} {b : β} :
    (x >>= f) = .ok b ↔ ∃ a, x = .ok a ∧ f a = .ok b := by
  cases x with
  | error e => exact ⟨nofun, fun ⟨_, h, _⟩ => nomatch h⟩
  | ok a => exact ⟨fun h => ⟨a, rfl, h⟩, fun ⟨_, h, hf⟩ => Except.ok.inj h ▸ hf⟩

theorem forM_ok {α : Type} {f : α → Except Failure Unit} {xs : List α} :
    xs.forM f = .ok () ↔ ∀ x ∈ xs, f x = .ok () := by
  induction xs with
  | nil => exact ⟨fun _ => nofun, fun _ => rfl⟩
  | cons x xs ih =>
    show (f x >>= fun _ => xs.forM f) = .ok () ↔ _
    rw [bind_ok, List.forall_mem_cons, ← ih]
    exact ⟨fun ⟨_, hx, hrest⟩ => ⟨hx, hrest⟩, fun ⟨hx, hrest⟩ => ⟨(), hx, hrest⟩⟩

theorem require_ok {p : Prop} [Decidable p] {message : Text} : require p message = .ok () ↔ p := by
  rw [require]
  split
  · next h => exact ⟨fun _ => h, fun _ => rfl⟩
  · next h => exact ⟨nofun, fun hp => absurd hp h⟩

theorem requireObject_ok {key : Text} {object fields : Object} {message : Text} :
    requireObject key object message = .ok fields ↔ last key object = some (.obj fields) := by
  rw [requireObject]
  split
  · next h => rw [h]; simp
  · next hne =>
    constructor
    · exact nofun
    · exact fun h => absurd h (hne fields)

/-- The object under a path of keys. -/
def under : List Text → Object → Option Object
  | [], object => some object
  | key :: path, object =>
      match last key object with
      | some (.obj fields) => under path fields
      | _ => none

theorem under_cons {key : Text} {path : List Text} {object found : Object} :
    under (key :: path) object = some found ↔
      ∃ fields, last key object = some (.obj fields) ∧ under path fields = some found := by
  rw [under]
  split
  · next fields h =>
    rw [h]
    constructor
    · exact fun hfound => ⟨fields, rfl, hfound⟩
    · rintro ⟨other, heq, hfound⟩
      rw [Option.some.injEq, Json.obj.injEq] at heq
      exact heq ▸ hfound
  · next hne =>
    constructor
    · exact nofun
    · rintro ⟨fields, h, -⟩
      exact absurd h (hne fields)

theorem under_nil {object found : Object} : under [] object = some found ↔ object = found :=
  Option.some_inj

section

variable {F : Type} [Floats F]

/-- What a rule has to have. -/
structure RuleAsks (F : Type) [Floats F] (rule : Object) : Prop where
  fields : ∀ field ∈ requiredRuleFields, trimSpace (printed F field rule) ≠ []
  tag : toLower (trimSpace (printed F "rule_tag".toList rule)) ∈ allowedRuleTags

theorem checkRule_ok {profileName collection : Text} {rule : Json} {index : Nat} :
    checkRule F profileName collection rule index = .ok () ↔
      ∀ fields, rule = .obj fields → RuleAsks F fields := by
  cases rule with
  | obj fields =>
    rw [checkRule]
    dsimp only
    rw [bind_ok]
    constructor
    · rintro ⟨_, hfields, htag⟩ _ ⟨⟩
      exact ⟨fun field hfield => require_ok.mp (forM_ok.mp hfields field hfield),
        require_ok.mp htag⟩
    · intro h
      obtain ⟨hfields, htag⟩ := h fields rfl
      exact ⟨(), forM_ok.mpr fun field hfield => require_ok.mpr (hfields field hfield),
        require_ok.mpr htag⟩
  | _ => simp [checkRule]

/-- The rules that are looked at: the objects in the lists of the three collections. -/
def RulesAsk (F : Type) [Floats F] (profile : Object) : Prop :=
  ∀ collection ∈ ruleCollections, ∀ rules, last collection profile = some (.arr rules) →
    ∀ rule, .obj rule ∈ rules → RuleAsks F rule

theorem checkCollection_ok {profileName collection : Text} {profileMap : Object} :
    checkCollection F profileName profileMap collection = .ok () ↔
      ∀ rules, last collection profileMap = some (.arr rules) →
        ∀ rule, .obj rule ∈ rules → RuleAsks F rule := by
  rw [checkCollection]
  split
  · next rules h =>
    rw [forM_ok]
    constructor
    · intro hall _ heq rule hrule
      rw [h, Option.some.injEq, Json.arr.injEq] at heq
      obtain ⟨i, hi⟩ := List.mem_iff_getElem?.mp (heq ▸ hrule)
      exact checkRule_ok.mp (hall (.obj rule, i) (List.mem_zipIdx_iff_getElem?.mpr hi)) rule rfl
    · intro hall entry hentry
      refine checkRule_ok.mpr fun rule heq => ?_
      have hmem : entry.1 ∈ rules :=
        List.mem_iff_getElem?.mpr ⟨_, List.mem_zipIdx_iff_getElem?.mp hentry⟩
      exact hall rules h rule (heq ▸ hmem)
  · next hne => exact ⟨fun _ rules h => absurd h (hne rules), fun _ => rfl⟩

theorem checkProfile_ok {profile : Text × Json} : checkProfile F profile = .ok () ↔
    ∀ fields, profile.2 = .obj fields → RulesAsk F fields := by
  obtain ⟨name, value⟩ := profile
  cases value with
  | obj fields =>
    rw [checkProfile]
    dsimp only
    rw [forM_ok]
    constructor
    · rintro hall _ ⟨⟩ collection hcollection
      exact checkCollection_ok.mp (hall collection hcollection)
    · exact fun h collection hcollection =>
        checkCollection_ok.mpr (h fields rfl collection hcollection)
  | _ => simp [checkProfile]

/-- What the third and the fourth schema ask for. -/
structure V3Asks (F : Type) [Floats F] (root : Object) : Prop where
  session : ∃ session, under ["profiles".toList, "generic".toList, "session".toList] root =
    some session ∧ ∀ key ∈ requiredSessionFields, (last key session).isSome = true
  modes : ∃ modes, last "modes".toList root = some (.obj modes) ∧ ∀ mode ∈ requiredModes,
    ∃ config, last mode modes = some (.obj config) ∧
      ∀ field ∈ requiredModeFields, (last field config).isSome = true
  rules : ∀ profiles, last "profiles".toList root = some (.obj profiles) →
    ∀ name profile, last name profiles = some (.obj profile) → RulesAsk F profile

/-- What the control plane asks of a payload. -/
structure Asks (F : Type) [Floats F] (version : Text) (root : Object) : Prop where
  inRange : inRangeFields F root = true
  enabled : ∃ b, last "enabled".toList root = some (.bool b)
  version : ∃ s, last "version".toList root = some (.str s) ∧ trimSpace s ≠ [] ∧
    trimSpace s = trimSpace version
  schema : schemaVersion root ∈ ["v2".toList, "v3".toList, "v4".toList]
  retry : ∃ retry, under ["profiles".toList, "generic".toList, "retry".toList] root =
    some retry ∧ ∀ key ∈ requiredRetryFields, ∃ n, last key retry = some (.num n)
  v3 : schemaVersion root ∈ ["v3".toList, "v4".toList] → V3Asks F root

theorem checkV3_ok {schema : Text} {root profiles genericProfile : Object}
    (hprofiles : last "profiles".toList root = some (.obj profiles))
    (hgeneric : last "generic".toList profiles = some (.obj genericProfile)) :
    checkV3 F schema root profiles genericProfile = .ok () ↔ V3Asks F root := by
  have hunder : ∀ session : Object, under ["profiles".toList, "generic".toList,
      "session".toList] root = some session ↔
      last "session".toList genericProfile = some (.obj session) := by
    intro session
    rw [under, hprofiles]
    dsimp only
    rw [under, hgeneric]
    dsimp only
    rw [under_cons]
    constructor
    · rintro ⟨fields, hlast, hnil⟩
      rw [hlast, under_nil.mp hnil]
    · exact fun hlast => ⟨session, hlast, rfl⟩
  rw [checkV3, bind_ok]
  constructor
  · rintro ⟨session, hsession, hrest⟩
    obtain ⟨_, hfields, hrest⟩ := bind_ok.mp hrest
    obtain ⟨modes, hmodes, hrest⟩ := bind_ok.mp hrest
    obtain ⟨_, hconfigs, hrules⟩ := bind_ok.mp hrest
    refine ⟨⟨session, (hunder session).mpr (requireObject_ok.mp hsession), fun key hkey =>
      require_ok.mp (forM_ok.mp hfields key hkey)⟩, ⟨modes, requireObject_ok.mp hmodes, ?_⟩, ?_⟩
    · intro mode hmode
      obtain ⟨config, hconfig, hall⟩ := bind_ok.mp (forM_ok.mp hconfigs mode hmode)
      exact ⟨config, requireObject_ok.mp hconfig, fun field hfield =>
        require_ok.mp (forM_ok.mp hall field hfield)⟩
    · intro others hothers name profile hprofile
      rw [hprofiles, Option.some.injEq, Json.obj.injEq] at hothers
      rw [← hothers] at hprofile
      exact checkProfile_ok.mp (forM_ok.mp hrules _ (mem_lastWins.mpr hprofile)) profile rfl
  · rintro ⟨⟨session, hsession, hfields⟩, ⟨modes, hmodes, hconfigs⟩, hrules⟩
    refine ⟨session, requireObject_ok.mpr ((hunder session).mp hsession), bind_ok.mpr ⟨(),
      forM_ok.mpr fun key hkey => require_ok.mpr (hfields key hkey), bind_ok.mpr ⟨modes,
      requireObject_ok.mpr hmodes, bind_ok.mpr ⟨(), forM_ok.mpr fun mode hmode => ?_,
      forM_ok.mpr fun profile hprofile => ?_⟩⟩⟩⟩
    · obtain ⟨config, hconfig, hall⟩ := hconfigs mode hmode
      exact bind_ok.mpr ⟨config, requireObject_ok.mpr hconfig, forM_ok.mpr fun field hfield =>
        require_ok.mpr (hall field hfield)⟩
    · refine checkProfile_ok.mpr fun fields heq => ?_
      exact hrules profiles hprofiles profile.1 fields (heq ▸ mem_lastWins.mp hprofile)

theorem decodeRoot_ok {payload : Json} {root : Object} : decodeRoot F payload = .ok root ↔
    (payload = .obj root ∧ inRangeFields F root = true) ∨ (payload = .null ∧ root = []) := by
  cases payload with
  | null =>
    constructor
    · rintro ⟨⟩
      exact .inr ⟨rfl, rfl⟩
    · rintro (⟨h, -⟩ | ⟨-, rfl⟩)
      · exact nomatch h
      · rfl
  | obj fields =>
    rw [decodeRoot]
    split
    · next h =>
      constructor
      · rintro ⟨⟩
        exact .inl ⟨rfl, h⟩
      · rintro (⟨⟨⟩, -⟩ | ⟨h, -⟩)
        · rfl
        · exact nomatch h
    · next h =>
      constructor
      · exact nofun
      · rintro (⟨⟨⟩, hrange⟩ | ⟨h, -⟩)
        · exact absurd hrange h
        · exact nomatch h
  | _ => simp [decodeRoot]

theorem isString_getD {object : Object} {key : Text}
    (h : trimSpace ((isString (last key object)).getD []) ≠ []) :
    ∃ s, last key object = some (.str s) ∧ (isString (last key object)).getD [] = s := by
  revert h
  cases last key object with
  | none => exact fun h => absurd rfl h
  | some j =>
    cases j with
    | str s => exact fun _ => ⟨s, rfl, rfl⟩
    | _ => exact fun h => absurd rfl h

theorem isBool_iff {j : Option Json} : isBool j = true ↔ ∃ b, j = some (.bool b) := by
  cases j with
  | none => simp [isBool]
  | some j => cases j <;> simp [isBool]

theorem isJSONNumber_iff {j : Option Json} :
    (j.map isJSONNumber).getD false = true ↔ ∃ n, j = some (.num n) := by
  cases j with
  | none => simp
  | some j => cases j <;> simp [isJSONNumber]

/-- **The control plane accepts what has all it asks for.** -/
theorem validate_ok_iff {version : Text} {payload : Json} :
    validatePolicyPayloadSchema F version payload = .ok () ↔
      ∃ root, payload = .obj root ∧ Asks F version root := by
  rw [validatePolicyPayloadSchema, bind_ok]
  constructor
  · rintro ⟨root, hroot, hrest⟩
    obtain ⟨_, hexists, hrest⟩ := bind_ok.mp hrest
    obtain ⟨_, henabled, hrest⟩ := bind_ok.mp hrest
    obtain ⟨_, hblank, hrest⟩ := bind_ok.mp hrest
    obtain ⟨_, hversion, hrest⟩ := bind_ok.mp hrest
    obtain ⟨_, hschema, hrest⟩ := bind_ok.mp hrest
    obtain ⟨profiles, hprofiles, hrest⟩ := bind_ok.mp hrest
    obtain ⟨generic, hgeneric, hrest⟩ := bind_ok.mp hrest
    obtain ⟨retry, hretry, hrest⟩ := bind_ok.mp hrest
    obtain ⟨_, hfields, hv3⟩ := bind_ok.mp hrest
    have hpayload : payload = .obj root ∧ inRangeFields F root = true := by
      rcases decodeRoot_ok.mp hroot with h | ⟨-, rfl⟩
      · exact h
      · exact absurd (require_ok.mp hexists) nofun
    obtain ⟨s, hs, hget⟩ := isString_getD (require_ok.mp hblank)
    have hprofiles := requireObject_ok.mp hprofiles
    have hgeneric := requireObject_ok.mp hgeneric
    have hretry := requireObject_ok.mp hretry
    refine ⟨root, hpayload.1, hpayload.2, isBool_iff.mp (require_ok.mp henabled),
      ⟨s, hs, hget ▸ require_ok.mp hblank, ?_⟩, require_ok.mp hschema,
      ⟨retry, ?_, fun key hkey => ?_⟩, fun hstrict => ?_⟩
    · have hequal := require_ok.mp hversion
      rwa [hget] at hequal
    · exact under_cons.mpr ⟨profiles, hprofiles, under_cons.mpr ⟨generic, hgeneric,
        under_cons.mpr ⟨retry, hretry, rfl⟩⟩⟩
    · obtain ⟨_, -, hnumber⟩ := bind_ok.mp (forM_ok.mp hfields key hkey)
      exact isJSONNumber_iff.mp (require_ok.mp hnumber)
    · rw [if_pos hstrict] at hv3
      exact (checkV3_ok hprofiles hgeneric).mp hv3
  · rintro ⟨root, rfl, hasks⟩
    obtain ⟨b, henabled⟩ := hasks.enabled
    obtain ⟨s, hs, hblank, hversion⟩ := hasks.version
    obtain ⟨retry, hunder, hnumbers⟩ := hasks.retry
    obtain ⟨profiles, hprofiles, hunder⟩ := under_cons.mp hunder
    obtain ⟨generic, hgeneric, hunder⟩ := under_cons.mp hunder
    obtain ⟨_, hretry, hnil⟩ := under_cons.mp hunder
    rw [under_nil.mp hnil] at hretry
    have hget : (isString (last "version".toList root)).getD [] = s := by rw [hs]; rfl
    refine ⟨root, decodeRoot_ok.mpr (.inl ⟨rfl, hasks.inRange⟩),
      bind_ok.mpr ⟨(), require_ok.mpr (by rw [henabled]; rfl),
      bind_ok.mpr ⟨(), require_ok.mpr (isBool_iff.mpr ⟨b, henabled⟩),
      bind_ok.mpr ⟨(), require_ok.mpr (by rwa [hget]),
      bind_ok.mpr ⟨(), require_ok.mpr (by rw [hget]; exact hversion),
      bind_ok.mpr ⟨(), require_ok.mpr hasks.schema,
      bind_ok.mpr ⟨profiles, requireObject_ok.mpr hprofiles,
      bind_ok.mpr ⟨generic, requireObject_ok.mpr hgeneric,
      bind_ok.mpr ⟨retry, requireObject_ok.mpr hretry,
      bind_ok.mpr ⟨(), forM_ok.mpr fun key hkey => ?_, ?_⟩⟩⟩⟩⟩⟩⟩⟩⟩⟩
    · obtain ⟨n, hn⟩ := hnumbers key hkey
      exact bind_ok.mpr ⟨(), require_ok.mpr (by rw [hn]; rfl),
        require_ok.mpr (isJSONNumber_iff.mpr ⟨n, hn⟩)⟩
    · split
      · next hstrict => exact (checkV3_ok hprofiles hgeneric).mpr (hasks.v3 hstrict)
      · rfl

end

end ValidEmailVerifier.PayloadSchema
