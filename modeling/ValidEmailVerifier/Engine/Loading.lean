/-
# `Engine.Loading` — payloads that pass the check, and the engine of a worker

The control plane looks at some fields of a payload, by their exact names and as values of
any type; a worker decodes all of it into its own types, by names up to case.  A payload
that passes the check loads into the engine it describes exactly when every value fits the
worker's type and what the worker reads up to case is what is there under the exact names
(`loads_iff`); without keys that differ in case only, the types are all there is to ask.
-/
import ValidEmailVerifier.Engine.Normalization
import ValidEmailVerifier.Engine.PayloadSchema

namespace ValidEmailVerifier.Engine

open GoJson Json Worker
open PayloadSchema (Object validatePolicyPayloadSchema)

/-! ## What a payload says of its profiles -/

/-- The three lists of rules of a profile. -/
inductive Collection
  | enhancedRules
  | smtpCodeRules
  | messageRules
  deriving DecidableEq, Repr

namespace Collection

def name : Collection → Text
  | enhancedRules => "enhanced_rules".toList
  | smtpCodeRules => "smtp_code_rules".toList
  | messageRules => "message_rules".toList

/-- The list of a profile. -/
def of (profile : ProviderReplyProfile) : Collection → List ProviderReplyRule
  | enhancedRules => profile.enhancedRules
  | smtpCodeRules => profile.smtpCodeRules
  | messageRules => profile.messageRules

/-- The rules of a profile of the payload, under the exact name. -/
def named (profile : Json) (c : Collection) : List Json :=
  match profile with
  | .obj fields =>
      match last c.name fields with
      | some (.arr rules) => rules
      | _ => []
  | _ => []

/-- Its rules as the worker reads them, up to case. -/
def read (profile : Json) (c : Collection) : List Json :=
  match profile with
  | .obj fields => Codec.lastElems (values c.name fields)
  | _ => []

end Collection

/-- The rules, decoded. -/
def decodeRules (rules : List Json) : List ProviderReplyRule :=
  (ruleLayout.codec.decodeElems rules).getD []

/-- The rules of a profile behind the normalisation: under a default key they are completed,
and replaced by the default ones when there are none. -/
def completedRules (key : Text) (c : Collection) (rules : List ProviderReplyRule) :
    List ProviderReplyRule :=
  match defaultProviderReplyProfiles.lookup key with
  | some profile =>
      normalizeProviderReplyRules (orRules rules (c.of profile) (c.of genericProfile)) key
  | none => rules

/-- A profile of the payload, under the exact names. -/
def Profile (root : Object) (key : Text) (profile : Json) : Prop :=
  ∃ profiles, last "profiles".toList root = some (.obj profiles) ∧ last key profiles = some profile

/-- The profile of a key as the worker reads it: the last one in any object that is called
`profiles` up to case. -/
def profileRead (root : Object) (key : Text) : Option Json :=
  Codec.held key (values "profiles".toList root) none

/-- The rules the worker has for a key and a collection in the end. -/
def rulesRead (root : Object) (key : Text) (c : Collection) : Option (List ProviderReplyRule) :=
  match profileRead root key with
  | some profile => some (completedRules key c (decodeRules (c.read profile)))
  | none => (defaultProviderReplyProfiles.lookup key).map fun profile => c.of profile

section

variable {F : Type} [Floats F] [DecidableEq F]

/-- The engine is the one the payload describes. -/
structure Loads (root : Object) (engine : ProviderReplyPolicyEngine F) : Prop where
  enabled : last "enabled".toList root = some (.bool engine.enabled)
  profiles : ∀ key profile, Profile root key profile → ∃ loaded, engine.profiles[key]? =
    some loaded ∧ ∀ c : Collection, c.named profile ≠ [] →
      c.of loaded = completedRules key c (decodeRules (c.named profile))

/-- What the worker reads up to case is what is there under the exact names. -/
structure ReadsAlike (root : Object) : Prop where
  enabled : ∀ b, last "enabled".toList root = some (.bool b) →
    Codec.lastBool (values "enabled".toList root) = some b
  present : ∀ key profile, Profile root key profile →
    (profileRead root key).isSome = true ∨ key ∈ defaultKeys
  rules : ∀ key profile, Profile root key profile → ∀ c : Collection, c.named profile ≠ [] →
    rulesRead root key c = some (completedRules key c (decodeRules (c.named profile)))

/-- No key differs in case only from a name that is read. -/
structure Unambiguous (root : Object) : Prop where
  enabled : NoVariant "enabled".toList root
  profiles : NoVariant "profiles".toList root
  rules : ∀ key fields, Profile root key (.obj fields) → ∀ c : Collection, NoVariant c.name fields

/-! ## What the worker holds of a payload -/

theorem put_always {σ β : Type} {name : Text} {c : Codec β} {get : σ → β} {set : β → σ → σ}
    {s t : σ} {j : Json} (h : (GoJson.Field.always name c get set).put s j = some t) :
    ∃ v, c.decode (get s) j = some v ∧ t = set v s := by
  obtain ⟨v, hv, rfl⟩ := Option.map_eq_some_iff.mp h
  exact ⟨v, hv, rfl⟩

theorem put_omitempty {σ β : Type} [DecidableEq β] {name : Text} {c : Codec β} {get : σ → β}
    {set : β → σ → σ} {hset : ∀ s, set (get s) s = s} {s t : σ} {j : Json}
    (h : (GoJson.Field.omitempty name c get set hset).put s j = some t) :
    ∃ v, c.decode (get s) j = some v ∧ t = set v s := by
  obtain ⟨v, hv, rfl⟩ := Option.map_eq_some_iff.mp h
  exact ⟨v, hv, rfl⟩

/-- What one field of a payload does to the engine. -/
theorem put_engine {f : GoJson.Field (ProviderReplyPolicyEngine F)} (hf : f ∈ engineLayout.fields)
    {s t : ProviderReplyPolicyEngine F} {j : Json} (h : f.put s j = some t) :
    (f.name = "enabled".toList ∧ Codec.bool.decode s.enabled j = some t.enabled ∧
        t.profiles = s.profiles) ∨
      (f.name = "profiles".toList ∧ t.enabled = s.enabled ∧
        (Codec.map profileLayout.codec).decode s.profiles j = some t.profiles) ∨
      (f.name ∈ ["version".toList, "schema_version".toList, "modes".toList] ∧
        t.enabled = s.enabled ∧ t.profiles = s.profiles) := by
  simp only [engineLayout, List.mem_cons, List.not_mem_nil, or_false] at hf
  rcases hf with rfl | rfl | rfl | rfl | rfl
  · obtain ⟨v, hv, rfl⟩ := put_always h
    exact .inl ⟨rfl, hv, rfl⟩
  · obtain ⟨v, -, rfl⟩ := put_omitempty h
    exact .inr (.inr ⟨.head _, rfl, rfl⟩)
  · obtain ⟨v, -, rfl⟩ := put_omitempty h
    exact .inr (.inr ⟨.tail _ (.head _), rfl, rfl⟩)
  · obtain ⟨v, hv, rfl⟩ := put_always h
    exact .inr (.inl ⟨rfl, rfl, hv⟩)
  · obtain ⟨v, -, rfl⟩ := put_omitempty h
    exact .inr (.inr ⟨.tail _ (.tail _ (.head _)), rfl, rfl⟩)

/-- What one field of a profile does to its lists. -/
theorem put_profile {f : GoJson.Field ProviderReplyProfile} (hf : f ∈ profileLayout.fields)
    {s t : ProviderReplyProfile} {j : Json} (h : f.put s j = some t) :
    (∃ c : Collection, f.name = c.name ∧
        (Codec.list ruleLayout.codec).decode (c.of s) j = some (c.of t) ∧
        ∀ other, other ≠ c → other.of t = other.of s) ∨
      (f.name ∈ ["name".toList, "retry".toList, "session".toList] ∧
        ∀ c : Collection, c.of t = c.of s) := by
  simp only [profileLayout, List.mem_cons, List.not_mem_nil, or_false] at hf
  rcases hf with rfl | rfl | rfl | rfl | rfl | rfl
  · obtain ⟨v, -, rfl⟩ := put_omitempty h
    exact .inr ⟨.head _, fun c => by cases c <;> rfl⟩
  · obtain ⟨v, hv, rfl⟩ := put_omitempty h
    exact .inl ⟨.enhancedRules, rfl, hv, fun other hne => by
      cases other <;> first | rfl | exact absurd rfl hne⟩
  · obtain ⟨v, hv, rfl⟩ := put_omitempty h
    exact .inl ⟨.smtpCodeRules, rfl, hv, fun other hne => by
      cases other <;> first | rfl | exact absurd rfl hne⟩
  · obtain ⟨v, hv, rfl⟩ := put_omitempty h
    exact .inl ⟨.messageRules, rfl, hv, fun other hne => by
      cases other <;> first | rfl | exact absurd rfl hne⟩
  · obtain ⟨v, -, rfl⟩ := put_always h
    exact .inr ⟨.tail _ (.head _), fun c => by cases c <;> rfl⟩
  · obtain ⟨v, -, rfl⟩ := put_always h
    exact .inr ⟨.tail _ (.tail _ (.head _)), fun c => by cases c <;> rfl⟩

/-- No name of the list is the name up to case. -/
def Aside (names : List Text) (name : Text) : Prop := ∀ a ∈ names, foldName a ≠ foldName name

instance {names : List Text} {name : Text} : Decidable (Aside names name) :=
  inferInstanceAs (Decidable (∀ a ∈ names, _))

variable {root : Object} {engine : ProviderReplyPolicyEngine F}

theorem enabled_decodeFields (h : engineLayout.decodeFields root engineLayout.zero = some engine) :
    engine.enabled = (Codec.lastBool (values "enabled".toList root)).getD false := by
  have haside : Aside ["profiles".toList, "version".toList, "schema_version".toList,
      "modes".toList] "enabled".toList := by decide
  refine Codec.decodeAll_bool (@Layout.get_decodeFields _ _ engineLayout
    ProviderReplyPolicyEngine.enabled Codec.bool "enabled".toList root engineLayout.zero engine
    ?_ ?_ ⟨_, .head _, rfl⟩ h)
  · intro f hf hname s j t hput
    rcases put_engine hf hput with ⟨-, hv, -⟩ | ⟨heq, -⟩ | ⟨heq, -⟩
    · exact hv
    · exact absurd (heq ▸ hname) (haside _ (.head _))
    · exact absurd hname (haside _ (.tail _ heq))
  · intro f hf hname s j t hput
    rcases put_engine hf hput with ⟨heq, -⟩ | ⟨-, hsame, -⟩ | ⟨-, hsame, -⟩
    · exact absurd (heq ▸ rfl) hname
    · exact hsame
    · exact hsame

theorem profiles_decodeFields
    (h : engineLayout.decodeFields root engineLayout.zero = some engine) :
    (Codec.map profileLayout.codec).decodeAll (values "profiles".toList root) ∅ =
      some engine.profiles := by
  have haside : Aside ["enabled".toList, "version".toList, "schema_version".toList,
      "modes".toList] "profiles".toList := by decide
  refine @Layout.get_decodeFields _ _ engineLayout
    ProviderReplyPolicyEngine.profiles (Codec.map profileLayout.codec) "profiles".toList root
    engineLayout.zero engine ?_ ?_ ⟨_, .tail _ (.tail _ (.tail _ (.head _))), rfl⟩ h
  · intro f hf hname s j t hput
    rcases put_engine hf hput with ⟨heq, -⟩ | ⟨-, -, hv⟩ | ⟨heq, -⟩
    · exact absurd (heq ▸ hname) (haside _ (.head _))
    · exact hv
    · exact absurd hname (haside _ (.tail _ heq))
  · intro f hf hname s j t hput
    rcases put_engine hf hput with ⟨-, -, hsame⟩ | ⟨heq, -⟩ | ⟨-, -, hsame⟩
    · exact hsame
    · exact absurd (heq ▸ rfl) hname
    · exact hsame

/-- The lists of a profile are decoded from what is read for them. -/
theorem rules_decode {profile : Json} {loaded : ProviderReplyProfile} (c : Collection)
    (h : profileLayout.codec.decode profileLayout.zero profile = some loaded) :
    c.of loaded = decodeRules (c.read profile) := by
  cases profile with
  | null =>
    rw [← Option.some.inj h]
    cases c <;> rfl
  | obj fields =>
    have hzero : c.of profileLayout.zero = [] := by cases c <;> rfl
    have hrest : Aside ["name".toList, "retry".toList, "session".toList] c.name := by
      cases c <;> decide
    have hnames : ∀ c c' : Collection, foldName c.name = foldName c'.name → c = c' := by
      intro c c'
      cases c <;> cases c' <;>
        first | exact fun _ => rfl | exact fun h => absurd h (by decide)
    have hall := @Layout.get_decodeFields _ _ profileLayout (fun p => c.of p)
      (Codec.list ruleLayout.codec) c.name fields profileLayout.zero loaded ?_ ?_ ?_ h
    · rw [hzero] at hall
      show c.of loaded = decodeRules (Codec.lastElems (values c.name fields))
      rw [decodeRules, Codec.decodeAll_list hall]
      rfl
    · intro f hf hname s j t hput
      rcases put_profile hf hput with ⟨c', heq, hv, -⟩ | ⟨heq, -⟩
      · rw [hnames c c' (heq ▸ hname.symm)]
        exact hv
      · exact absurd hname (hrest _ heq)
    · intro f hf hname s j t hput
      rcases put_profile hf hput with ⟨c', heq, -, hsame⟩ | ⟨-, hsame⟩
      · exact hsame c fun hc => hname (by rw [heq, hc])
      · exact hsame c
    · cases c
      · exact ⟨_, .tail _ (.head _), rfl⟩
      · exact ⟨_, .tail _ (.tail _ (.head _)), rfl⟩
      · exact ⟨_, .tail _ (.tail _ (.tail _ (.head _))), rfl⟩
  | _ => exact nomatch h

/-- A profile that is read is loaded with the rules that are read for it. -/
theorem getElem?_decodeFields (key : Text)
    (h : engineLayout.decodeFields root engineLayout.zero = some engine) :
    match profileRead root key with
    | some profile => ∃ loaded, engine.profiles[key]? = some loaded ∧
        ∀ c : Collection, c.of loaded = decodeRules (c.read profile)
    | none => engine.profiles[key]? = none := by
  have hall := profiles_decodeFields h
  have hempty : (∅ : GoMap ProviderReplyProfile)[key]? =
      (none : Option Json).bind (profileLayout.codec.decode profileLayout.zero) :=
    Std.ExtTreeMap.getElem?_empty
  have hget : engine.profiles[key]? =
      (profileRead root key).bind (profileLayout.codec.decode profileLayout.zero) :=
    Codec.decodeAll_map hempty hall
  rw [hget]
  cases hread : profileRead root key with
  | none => rfl
  | some profile =>
    have hnone : ∀ j, (none : Option Json) = some j → profileLayout.codec.Fits j := nofun
    have hfits := Codec.fits_held hnone hall hread
    obtain ⟨loaded, hloaded⟩ := Option.isSome_iff_exists.mp
      ((profileLayout.codec.isSome_decode profileLayout.zero profile).mpr hfits)
    exact ⟨loaded, hloaded, fun c => rules_decode c hloaded⟩

theorem of_normalizeProfile {key : Text} {profile existing : ProviderReplyProfile}
    (c : Collection) : c.of (normalizeProfile key profile existing) =
      normalizeProviderReplyRules
        (orRules (c.of existing) (c.of profile) (c.of genericProfile)) key := by
  cases c <;> rfl

/-- The rules of the engine in the end. -/
theorem rules_normalize (key : Text) (c : Collection)
    (h : engineLayout.decodeFields root engineLayout.zero = some engine) :
    ((normalizeProviderReplyPolicyEngine engine).profiles[key]?).map (fun p => c.of p) =
      rulesRead root key c := by
  have hget := getElem?_decodeFields key h
  rw [profiles_normalize, normalizedProfiles, getElem?_complete defaultProfiles_nodup, rulesRead]
  cases hread : profileRead root key with
  | none =>
    rw [hread] at hget
    cases hdefault : defaultProviderReplyProfiles.lookup key with
    | none => simp [hget]
    | some profile => simp [hget, completed]
  | some profile =>
    rw [hread] at hget
    obtain ⟨loaded, hloaded, hrules⟩ := hget
    cases hdefault : defaultProviderReplyProfiles.lookup key with
    | none => simp [hloaded, completedRules, hdefault, hrules]
    | some default =>
      simp [hloaded, completedRules, hdefault, completed, of_normalizeProfile, hrules]

theorem isSome_rulesRead {key : Text} {c : Collection} : (rulesRead root key c).isSome = true ↔
    (profileRead root key).isSome = true ∨ key ∈ defaultKeys := by
  rw [rulesRead]
  cases profileRead root key with
  | some profile => simp
  | none =>
    dsimp only
    rw [Option.isSome_map, defaultKeys]
    constructor
    · intro h
      obtain ⟨d, hd⟩ := Option.isSome_iff_exists.mp h
      exact .inr (List.mem_map_of_mem (mem_of_lookup hd))
    · rintro (h | h)
      · exact nomatch h
      · obtain ⟨e, he, rfl⟩ := List.mem_map.mp h
        rw [lookup_of_mem defaultProfiles_nodup he]
        rfl

/-! ## Loading -/

/-- The engine is the one the payload describes when what was read is what is there. -/
theorem loads_normalize_iff {b : Bool} (hb : last "enabled".toList root = some (.bool b))
    (h : engineLayout.decodeFields root engineLayout.zero = some engine) :
    Loads root (normalizeProviderReplyPolicyEngine engine) ↔ ReadsAlike root := by
  have henabled : (normalizeProviderReplyPolicyEngine engine).enabled =
      (Codec.lastBool (values "enabled".toList root)).getD false :=
    (rfl : _ = engine.enabled).trans (enabled_decodeFields h)
  constructor
  · intro hloads
    refine ⟨?_, ?_, ?_⟩
    · intro b' hb'
      have hmem : Json.bool b' ∈ values "enabled".toList root :=
        List.mem_filterMap.mpr ⟨_, mem_of_last hb', if_pos rfl⟩
      have hself := hb'.symm.trans hloads.enabled
      rw [Option.some.injEq, Json.bool.injEq, henabled] at hself
      rw [hself]
      cases hlast : Codec.lastBool (values "enabled".toList root) with
      | some v => rfl
      | none => exact nomatch Codec.lastBool_eq_none hlast _ hmem
    · intro key profile hprofile
      obtain ⟨loaded, hloaded, -⟩ := hloads.profiles key profile hprofile
      have hread := rules_normalize key .messageRules h
      rw [hloaded] at hread
      have hsome : (rulesRead root key .messageRules).isSome = true := by rw [← hread]; rfl
      exact isSome_rulesRead.mp hsome
    · intro key profile hprofile c hne
      obtain ⟨loaded, hloaded, hrules⟩ := hloads.profiles key profile hprofile
      rw [← rules_normalize key c h, hloaded, Option.map_some, hrules c hne]
  · intro halike
    refine ⟨?_, ?_⟩
    · rw [henabled, halike.enabled b hb]
      exact hb
    · intro key profile hprofile
      have hsome : (rulesRead root key .messageRules).isSome = true :=
        isSome_rulesRead.mpr (halike.present key profile hprofile)
      rw [← rules_normalize key .messageRules h, Option.isSome_map] at hsome
      obtain ⟨loaded, hloaded⟩ := Option.isSome_iff_exists.mp hsome
      refine ⟨loaded, hloaded, fun c hne => ?_⟩
      have hread := rules_normalize key c h
      rw [hloaded, halike.rules key profile hprofile c hne] at hread
      exact Option.some.inj hread

/-- Without variants of the names the worker reads what is there. -/
theorem readsAlike_of_unambiguous (h : Unambiguous root) : ReadsAlike root := by
  have hread : ∀ key profile, Profile root key profile → profileRead root key = some profile := by
    rintro key profile ⟨profiles, hprofiles, hprofile⟩
    exact Codec.held_of_getLast? ((getLast?_values h.profiles).trans hprofiles) hprofile
  refine ⟨?_, ?_, ?_⟩
  · intro b hb
    have hlast := (getLast?_values h.enabled).trans hb
    exact Codec.lastBool_of_getLast? hlast
  · intro key profile hprofile
    exact .inl (by rw [hread key profile hprofile]; rfl)
  · intro key profile hprofile c hne
    cases profile with
    | obj fields =>
      have hsame : c.read (.obj fields) = c.named (.obj fields) := by
        show Codec.lastElems (values c.name fields) = _
        rw [Codec.lastElems, getLast?_values (h.rules key fields hprofile c)]
        rfl
      rw [rulesRead, hread key _ hprofile, ← hsame]
    | _ => exact absurd rfl hne

end

/-! ## Two payloads -/

/-- A profile with one rule and a given delay. -/
def delayProfile (delay : Json) : Object :=
  [("retry".toList, .obj (("default_seconds".toList, delay) ::
      ["tempfail_seconds".toList, "greylist_seconds".toList, "policy_blocked_seconds".toList,
        "unknown_seconds".toList].map fun key => (key, .num ⟨false, 300, none⟩))),
    ("message_rules".toList, .arr [.obj [("rule_id".toList, .str "busy".toList),
      ("message_contains".toList, .arr [.str "too busy".toList]),
      ("decision_class".toList, .str "retryable".toList)]])]

/-- A policy of the second schema with this profile. -/
def delayPolicy (delay : Json) : Object :=
  [("enabled".toList, .bool true), ("version".toList, .str "v9".toList),
    ("profiles".toList, .obj [("generic".toList, .obj (delayProfile delay))])]

end ValidEmailVerifier.Engine
