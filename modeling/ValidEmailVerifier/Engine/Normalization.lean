/-
# `Engine.Normalization` — normalised again

A default profile that a payload leaves out is added as it stands, and its rules without
the hints that the rules of a payload get.  So a normalised engine is normalised again
into itself, and the worker's copy of it classifies as it does, exactly when the payload
had all the default profiles (`stable_iff`).
-/
import ValidEmailVerifier.Engine.Classification

namespace ValidEmailVerifier.Engine

open GoJson GoStrings Worker
open Smtp (SmtpReply Command)

/-! ## Maps that are completed -/

section

variable {β : Type} {f : Text → β → β → β} {defaults : List (Text × β)} {m : GoMap β} {k : Text}

theorem complete_cons {d : Text × β} : complete f (d :: defaults) m =
    complete f defaults (m.insert d.1 (completed f d.1 d.2 m[d.1]?)) := rfl

theorem getElem?_complete (hnodup : (defaults.map Prod.fst).Nodup) :
    (complete f defaults m)[k]? =
      match defaults.lookup k with
      | some d => some (completed f k d m[k]?)
      | none => m[k]? := by
  induction defaults generalizing m with
  | nil => rfl
  | cons d rest ih =>
    obtain ⟨hnot, hrest⟩ := List.nodup_cons.mp hnodup
    rw [complete_cons, ih hrest, List.lookup_cons, Std.ExtTreeMap.getElem?_insert]
    by_cases heq : k = d.1
    · subst heq
      have hnone : rest.lookup d.1 = none := by
        rw [List.lookup_eq_none_iff]
        intro e he
        rw [bne_iff_ne]
        exact fun h => hnot (h ▸ List.mem_map_of_mem he)
      rw [hnone, if_pos Std.ReflCmp.compare_self, beq_self_eq_true]
    · have hne : compare d.1 k ≠ .eq := fun h => heq (Std.LawfulEqCmp.eq_of_compare h).symm
      have hbeq : (k == d.1) = false := beq_eq_false_iff_ne.mpr heq
      rw [if_neg hne, hbeq]

theorem mem_of_lookup {d : β} (h : defaults.lookup k = some d) : (k, d) ∈ defaults := by
  induction defaults with
  | nil => exact nomatch h
  | cons e rest ih =>
    rw [List.lookup_cons] at h
    cases hk : k == e.1 with
    | true =>
      rw [hk] at h
      rw [eq_of_beq hk, ← Option.some.inj h]
      exact .head _
    | false =>
      rw [hk] at h
      exact .tail _ (ih h)

theorem lookup_of_mem {d : β} (hnodup : (defaults.map Prod.fst).Nodup) (h : (k, d) ∈ defaults) :
    defaults.lookup k = some d := by
  induction defaults with
  | nil => exact nomatch h
  | cons e rest ih =>
    obtain ⟨hnot, hrest⟩ := List.nodup_cons.mp hnodup
    rw [List.lookup_cons]
    rcases List.mem_cons.mp h with rfl | hmem
    · rw [beq_self_eq_true]
    · have hne : k ≠ e.1 := fun heq => hnot (heq ▸ List.mem_map_of_mem hmem)
      rw [beq_eq_false_iff_ne.mpr hne]
      exact ih hrest hmem

/-- A map of distinct keys is read like the list it is made of. -/
theorem getElem?_ofList (hnodup : (defaults.map Prod.fst).Nodup) :
    (Std.ExtTreeMap.ofList defaults compare : GoMap β)[k]? = defaults.lookup k := by
  cases hlookup : defaults.lookup k with
  | none =>
    refine Std.ExtTreeMap.getElem?_ofList_of_contains_eq_false ?_
    rw [← Bool.not_eq_true, List.contains_iff_mem, List.mem_map]
    rintro ⟨e, he, rfl⟩
    rw [lookup_of_mem hnodup he] at hlookup
    exact nomatch hlookup
  | some d =>
    refine Std.ExtTreeMap.getElem?_ofList_of_mem Std.ReflCmp.compare_self ?_
      (mem_of_lookup hlookup)
    refine (List.pairwise_map.mp hnodup).imp fun hne heq => ?_
    exact hne (Std.LawfulEqCmp.eq_of_compare heq)

/-- Completed maps stay when completed entries do. -/
theorem complete_complete (hnodup : (defaults.map Prod.fst).Nodup)
    (htwice : ∀ e ∈ defaults, ∀ x, f e.1 e.2 (f e.1 e.2 x) = f e.1 e.2 x)
    (hadded : ∀ e ∈ defaults, e.1 ∉ m → f e.1 e.2 e.2 = e.2) :
    complete f defaults (complete f defaults m) = complete f defaults m := by
  refine Std.ExtTreeMap.ext_getElem? fun k => ?_
  rw [getElem?_complete hnodup, getElem?_complete hnodup]
  cases hk : defaults.lookup k with
  | none => rfl
  | some d =>
    have hmem : (k, d) ∈ defaults := mem_of_lookup hk
    show some (f k d (completed f k d m[k]?)) = some (completed f k d m[k]?)
    cases hx : m[k]? with
    | some x => exact congrArg some (htwice (k, d) hmem x)
    | none =>
      have hnot : k ∉ m := by rw [Std.ExtTreeMap.mem_iff_isSome_getElem?, hx]; exact nofun
      exact congrArg some (hadded (k, d) hmem hnot)

end

/-! ## Parts that are normalised twice -/

theorem orBlank_orBlank {value fallback : Text} :
    orBlank (orBlank value fallback) fallback = orBlank value fallback := by
  by_cases h : trimSpace value = []
  · simp only [orBlank, if_pos h, ite_self]
  · simp only [orBlank, if_neg h]

theorem orPositive_orPositive {value fallback : Int64} :
    orPositive (orPositive value fallback) fallback = orPositive value fallback := by
  by_cases h : value ≤ 0
  · simp only [orPositive, if_pos h, ite_self]
  · simp only [orPositive, if_neg h]

theorem normalizeRule_normalizeRule {provider : Text} {rule : ProviderReplyRule} :
    normalizeRule provider (normalizeRule provider rule) = normalizeRule provider rule := by
  rw [normalizeRule, normalizeRule]
  simp only [orBlank_orBlank]

theorem orRules_ne_nil {rules own generic : List ProviderReplyRule} (h : generic ≠ []) :
    orRules rules own generic ≠ [] := by
  rw [orRules]
  split
  · split
    · exact h
    · assumption
  · assumption

/-- Rules that are there are normalised into themselves. -/
theorem normalizeRules_twice {rules own generic : List ProviderReplyRule} {key : Text}
    (h : generic ≠ []) :
    normalizeProviderReplyRules (orRules
      (normalizeProviderReplyRules (orRules rules own generic) key) own generic) key =
      normalizeProviderReplyRules (orRules rules own generic) key := by
  have hne : normalizeProviderReplyRules (orRules rules own generic) key ≠ [] :=
    fun hnil => orRules_ne_nil h (List.map_eq_nil_iff.mp hnil)
  generalize orRules rules own generic = found at *
  rw [orRules, if_neg hne, normalizeProviderReplyRules, normalizeProviderReplyRules,
    List.map_map]
  exact List.map_congr_left fun rule _ => normalizeRule_normalizeRule

theorem normalizeRetryProfile_twice {value fallback : ProviderRetryPolicy} :
    normalizeRetryProfile (normalizeRetryProfile value fallback) fallback =
      normalizeRetryProfile value fallback := by
  simp only [normalizeRetryProfile, orPositive_orPositive]

theorem boundedPercent_bounds {value fallback : Int64} (h : 0 ≤ fallback) :
    0 ≤ boundedPercent value fallback ∧ boundedPercent value fallback ≤ 50 := by
  have hpercent : 0 ≤ (if value < 0 then fallback else value) := by
    split
    · exact h
    · next hv => exact Int64.not_lt.mp hv
  rw [boundedPercent]
  generalize (if value < 0 then fallback else value) = percent at *
  split
  · exact ⟨by decide, by decide⟩
  · next hle => exact ⟨hpercent, Int64.not_lt.mp hle⟩

theorem boundedPercent_twice {value fallback : Int64} (h : 0 ≤ fallback) :
    boundedPercent (boundedPercent value fallback) fallback = boundedPercent value fallback := by
  obtain ⟨hlow, hhigh⟩ := @boundedPercent_bounds value fallback h
  generalize boundedPercent value fallback = percent at *
  rw [boundedPercent, if_neg (Int64.not_lt.mpr hlow), if_neg (Int64.not_lt.mpr hhigh)]

theorem normalizeSessionProfile_twice {value fallback : ProviderSessionRule}
    (h : 0 ≤ fallback.retryJitterPercent) :
    normalizeSessionProfile (normalizeSessionProfile value fallback) fallback =
      normalizeSessionProfile value fallback := by
  simp only [normalizeSessionProfile, orPositive_orPositive, orBlank_orBlank,
    boundedPercent_twice h]

theorem normalizeProfile_twice {key : Text} {profile existing : ProviderReplyProfile}
    (h : 0 ≤ profile.session.retryJitterPercent) :
    normalizeProfile key profile (normalizeProfile key profile existing) =
      normalizeProfile key profile existing := by
  have henhanced : genericProfile.enhancedRules ≠ [] := nofun
  have hcode : genericProfile.smtpCodeRules ≠ [] := nofun
  have hmessage : genericProfile.messageRules ≠ [] := nofun
  rw [normalizeProfile, normalizeProfile]
  simp only [orBlank_orBlank, normalizeRules_twice henhanced, normalizeRules_twice hcode,
    normalizeRules_twice hmessage, normalizeRetryProfile_twice, normalizeSessionProfile_twice h]

/-- A default profile is no normalised one: its rules have no hints. -/
theorem normalizeProfile_ne :
    ∀ e ∈ defaultProviderReplyProfiles, normalizeProfile e.1 e.2 e.2 ≠ e.2 := by
  decide

section

variable {F : Type} [Floats F]

theorem orMultiplier_orMultiplier {value fallback : F} :
    orMultiplier (orMultiplier value fallback) fallback = orMultiplier value fallback := by
  by_cases h : Floats.positive value
  · simp only [orMultiplier, if_pos h]
  · simp only [orMultiplier, if_neg h, ite_self]

theorem modeProbes_modeProbes {mode : Text} {probeEnabled : Bool} :
    modeProbes mode (modeProbes mode probeEnabled) = modeProbes mode probeEnabled := by
  rw [modeProbes, modeProbes]
  split
  · rfl
  · split
    · rfl
    · rfl

theorem normalizeMode_twice {mode : Text} {modeRule existing : ProviderModeRule F} :
    normalizeMode mode modeRule (normalizeMode mode modeRule existing) =
      normalizeMode mode modeRule existing := by
  simp only [normalizeMode, orMultiplier_orMultiplier, modeProbes_modeProbes]

/-- A default mode is a normalised one. -/
theorem normalizeMode_default : ∀ e ∈ (defaultProviderModeRules : List (Text × _)),
    normalizeMode e.1 e.2 e.2 = (e.2 : ProviderModeRule F) := by
  intro e he
  have hself : ∀ x : F, orMultiplier x x = x := fun x => ite_self x
  have hprobes : modeProbes e.1 e.2.probeEnabled = e.2.probeEnabled := by
    simp only [defaultProviderModeRules, List.mem_cons, List.not_mem_nil, or_false] at he
    have hall : ∀ mode ∈ [("normal".toList, true), ("cautious".toList, true),
        ("drain".toList, false), ("quarantine".toList, false), ("degraded_probe".toList, true)],
        modeProbes mode.1 mode.2 = mode.2 := by decide
    rcases he with rfl | rfl | rfl | rfl | rfl <;> exact hall (_, _) (by simp)
  rw [normalizeMode, hself, hself, hprobes]

/-! ## The engine -/

theorem defaultProfiles_nodup : (defaultProviderReplyProfiles.map Prod.fst).Nodup := by
  decide

theorem defaultModes_nodup :
    ((defaultProviderModeRules : List (Text × ProviderModeRule F)).map Prod.fst).Nodup := by
  show ["normal".toList, "cautious".toList, "drain".toList, "quarantine".toList,
    "degraded_probe".toList].Nodup
  decide

/-- The profiles behind a normalisation. -/
def normalizedProfiles (profiles : GoMap ProviderReplyProfile) : GoMap ProviderReplyProfile :=
  complete normalizeProfile defaultProviderReplyProfiles profiles

theorem getElem?_normalizedProfiles {profiles : GoMap ProviderReplyProfile}
    {e : Text × ProviderReplyProfile} (h : e ∈ defaultProviderReplyProfiles) :
    (normalizedProfiles profiles)[e.1]? =
      some (completed normalizeProfile e.1 e.2 profiles[e.1]?) := by
  rw [normalizedProfiles, getElem?_complete defaultProfiles_nodup,
    lookup_of_mem defaultProfiles_nodup h]

variable {engine : ProviderReplyPolicyEngine F}

/-- The profile `generic` is there by then. -/
theorem profiles_normalize :
    (normalizeProviderReplyPolicyEngine engine).profiles = normalizedProfiles engine.profiles := by
  have hmem : "generic".toList ∈ normalizedProfiles engine.profiles := by
    have hget := @getElem?_normalizedProfiles engine.profiles ("generic".toList, genericProfile)
      (.head _)
    rw [Std.ExtTreeMap.mem_iff_isSome_getElem?]
    exact hget ▸ rfl
  exact if_pos hmem

theorem modes_normalize_twice :
    (normalizeProviderReplyPolicyEngine (normalizeProviderReplyPolicyEngine engine)).modes =
      (normalizeProviderReplyPolicyEngine engine).modes :=
  complete_complete defaultModes_nodup (fun _ _ _ => normalizeMode_twice)
    fun e he _ => normalizeMode_default e he

/-- The default keys. -/
def defaultKeys : List Text := defaultProviderReplyProfiles.map Prod.fst

/-- **Profiles are normalised into themselves exactly when none was added.** -/
theorem normalizedProfiles_twice_iff {profiles : GoMap ProviderReplyProfile} :
    normalizedProfiles (normalizedProfiles profiles) = normalizedProfiles profiles ↔
      ∀ key ∈ defaultKeys, key ∈ profiles := by
  constructor
  · intro htwice key hkey
    obtain ⟨e, he, rfl⟩ := List.mem_map.mp hkey
    by_contra hnot
    have hnone : profiles[e.1]? = none := Std.ExtTreeMap.getElem?_eq_none hnot
    have hadded : (normalizedProfiles profiles)[e.1]? = some e.2 := by
      rw [getElem?_normalizedProfiles he, hnone]
      rfl
    have hagain : (normalizedProfiles (normalizedProfiles profiles))[e.1]? =
        some (normalizeProfile e.1 e.2 e.2) := by
      rw [getElem?_normalizedProfiles he, hadded]
      rfl
    rw [htwice, hadded] at hagain
    exact normalizeProfile_ne e he (Option.some.inj hagain).symm
  · intro hall
    have hjitter : ∀ e ∈ defaultProviderReplyProfiles, 0 ≤ e.2.session.retryJitterPercent := by
      decide
    exact complete_complete defaultProfiles_nodup
      (fun e he _ => normalizeProfile_twice (hjitter e he))
      fun e he hnot => absurd (hall e.1 (List.mem_map_of_mem he)) hnot

/-- What is not blank. -/
theorem trimSpace_orBlank_ne_nil {value fallback : Text} (h : trimSpace fallback ≠ []) :
    trimSpace (orBlank value fallback) ≠ [] := by
  rw [orBlank]
  split
  · exact h
  · assumption

theorem orBlank_of_ne {value fallback : Text} (h : trimSpace value ≠ []) :
    orBlank value fallback = value := if_neg h

theorem version_normalize :
    (normalizeProviderReplyPolicyEngine engine).version = orBlank engine.version "v4".toList :=
  rfl

theorem schemaVersion_normalize : ∃ fallback, trimSpace fallback ≠ [] ∧
    (normalizeProviderReplyPolicyEngine engine).schemaVersion =
      orBlank engine.schemaVersion fallback := by
  have hword : ∀ b : Bool, trimSpace (if b then "v3".toList else "v2".toList) ≠ [] := by decide
  exact ⟨_, hword _, rfl⟩

theorem version_normalize_twice :
    (normalizeProviderReplyPolicyEngine (normalizeProviderReplyPolicyEngine engine)).version =
      (normalizeProviderReplyPolicyEngine engine).version := by
  rw [version_normalize]
  apply orBlank_of_ne
  rw [version_normalize]
  exact trimSpace_orBlank_ne_nil (by decide)

theorem schemaVersion_normalize_twice :
    (normalizeProviderReplyPolicyEngine
        (normalizeProviderReplyPolicyEngine engine)).schemaVersion =
      (normalizeProviderReplyPolicyEngine engine).schemaVersion := by
  obtain ⟨fallback, hword, heq⟩ := @schemaVersion_normalize F _ engine
  obtain ⟨_, _, hagain⟩ := @schemaVersion_normalize F _ (normalizeProviderReplyPolicyEngine engine)
  rw [hagain]
  apply orBlank_of_ne
  rw [heq]
  exact trimSpace_orBlank_ne_nil hword

theorem enabled_normalize :
    (normalizeProviderReplyPolicyEngine engine).enabled = engine.enabled := rfl

/-- **A normalised engine is normalised into itself exactly when no profile was added.** -/
theorem normalize_twice_iff :
    normalizeProviderReplyPolicyEngine (normalizeProviderReplyPolicyEngine engine) =
        normalizeProviderReplyPolicyEngine engine ↔
      ∀ key ∈ defaultKeys, key ∈ engine.profiles := by
  rw [← normalizedProfiles_twice_iff]
  constructor
  · intro htwice
    have hprofiles := congrArg ProviderReplyPolicyEngine.profiles htwice
    rwa [profiles_normalize, profiles_normalize] at hprofiles
  · intro hprofiles
    have heq : ∀ {a b : ProviderReplyPolicyEngine F}, a.enabled = b.enabled →
        a.version = b.version → a.schemaVersion = b.schemaVersion → a.profiles = b.profiles →
        a.modes = b.modes → a = b := by
      rintro ⟨⟩ ⟨⟩ rfl rfl rfl rfl rfl
      rfl
    apply heq
    · exact enabled_normalize
    · exact version_normalize_twice
    · exact schemaVersion_normalize_twice
    · rw [profiles_normalize, profiles_normalize]
      exact hprofiles
    · exact modes_normalize_twice

/-! ## The worker's copy -/

/-- The copy is the engine, normalised again. -/
theorem clone_eq [DecidableEq F] : cloneProviderReplyPolicyEngine engine =
    { normalizeProviderReplyPolicyEngine engine with
      version := if trimSpace engine.version = [] then
        (normalizeProviderReplyPolicyEngine engine).version else trimSpace engine.version } := by
  have hparse : parseProviderReplyPolicyEngineJSON (engineLayout.codec.encode engine) =
      some (normalizeProviderReplyPolicyEngine engine) := by
    rw [parseProviderReplyPolicyEngineJSON]
    exact congrArg (Option.map _) (engineLayout.codec.decode_encode engine)
  rw [cloneProviderReplyPolicyEngine, hparse]
  rfl

/-- What the worker records of a verdict. -/
def Result.summary (result : Result) : Text × Text × Int × Text × Text :=
  (result.category, result.decisionClass, result.retryAfterSecond, result.reasonTag,
    result.decisionConfidence)

/-- Two engines say the same of every reply for every provider. -/
structure Alike (first second : ProviderReplyPolicyEngine F) : Prop where
  session : ∀ command reply providerHint host adaptiveRetryEnabled,
    (classifySMTPSessionReply command reply providerHint host (some first)
        adaptiveRetryEnabled).map Result.summary =
      (classifySMTPSessionReply command reply providerHint host (some second)
        adaptiveRetryEnabled).map Result.summary
  rcpt : ∀ reply providerHint host allowValid adaptiveRetryEnabled,
    (classifySMTPRcptReply reply providerHint host allowValid (some first)
        adaptiveRetryEnabled).summary =
      (classifySMTPRcptReply reply providerHint host allowValid (some second)
        adaptiveRetryEnabled).summary

/-- A reply is classified by the profiles; of the version only the trimmed text is told. -/
theorem classifySMTPWithPolicyEngine_congr {first second : ProviderReplyPolicyEngine F}
    (henabled : first.enabled = second.enabled) (hprofiles : first.profiles = second.profiles)
    (hversion : trimSpace first.version = trimSpace second.version) {command : Command}
    {reply : SmtpReply Text} {profile : Text} {adaptiveRetryEnabled : Bool} :
    classifySMTPWithPolicyEngine command reply profile (some first) adaptiveRetryEnabled =
      classifySMTPWithPolicyEngine command reply profile (some second) adaptiveRetryEnabled := by
  have hlookup : lookupProviderReplyProfile (some first) profile =
      lookupProviderReplyProfile (some second) profile := by
    rw [lookupProviderReplyProfile, lookupProviderReplyProfile]
    simp only [hprofiles]
  have hcontext : withPolicyContext first = withPolicyContext second := by
    funext rule result
    rw [withPolicyContext, withPolicyContext, hversion]
  rw [classifySMTPWithPolicyEngine, classifySMTPWithPolicyEngine]
  simp only [henabled, hlookup, hcontext]

theorem alike_of_congr {first second : ProviderReplyPolicyEngine F}
    (henabled : first.enabled = second.enabled) (hprofiles : first.profiles = second.profiles)
    (hversion : trimSpace first.version = trimSpace second.version) : Alike first second := by
  have hlookup : ∀ profile, lookupProviderReplyProfile (some first) profile =
      lookupProviderReplyProfile (some second) profile := by
    intro profile
    rw [lookupProviderReplyProfile, lookupProviderReplyProfile]
    simp only [hprofiles]
  have hrule : ∀ command reply profile adaptive,
      classifySMTPWithPolicyEngine command reply profile (some first) adaptive =
        classifySMTPWithPolicyEngine command reply profile (some second) adaptive :=
    fun _ _ _ _ => classifySMTPWithPolicyEngine_congr henabled hprofiles hversion
  constructor
  · intro command reply providerHint host adaptive
    simp only [classifySMTPSessionReply, hrule, transientResult, hlookup]
  · intro reply providerHint host allowValid adaptive
    simp only [classifySMTPRcptReply, hrule, transientResult, hlookup]

/-- An engine that is normalised into itself is copied as it is, but for the blanks
around its version. -/
theorem alike_clone [DecidableEq F]
    (h : normalizeProviderReplyPolicyEngine engine = engine) :
    Alike engine (cloneProviderReplyPolicyEngine engine) := by
  rw [clone_eq, h]
  refine alike_of_congr rfl rfl ?_
  dsimp only
  split
  · rfl
  · exact (Text.trimBy_trimBy (fun _ h => h) _).symm

/-- The engines that are handed out, and what they were normalised from. -/
inductive Returned [DecidableEq F] :
    ProviderReplyPolicyEngine F → ProviderReplyPolicyEngine F → Prop
  | default : Returned defaultEngine defaultProviderReplyPolicyEngine
  | parsed {j : Json} {raw engine : ProviderReplyPolicyEngine F}
      (hraw : engineLayout.codec.decode engineLayout.zero j = some raw)
      (hengine : parseProviderReplyPolicyEngineJSON j = some engine) : Returned raw engine

theorem Returned.engine_eq [DecidableEq F] {raw : ProviderReplyPolicyEngine F}
    (h : Returned raw engine) : engine = normalizeProviderReplyPolicyEngine raw := by
  cases h with
  | default => rfl
  | parsed hraw hengine =>
    rw [parseProviderReplyPolicyEngineJSON] at hengine
    rw [hraw] at hengine
    exact (Option.some.inj hengine).symm

/-- **Normalisation and copying leave an engine alone exactly when no default profile had
to be added.** -/
theorem stable_iff [DecidableEq F] {raw : ProviderReplyPolicyEngine F} (h : Returned raw engine) :
    (normalizeProviderReplyPolicyEngine engine = engine ∧
        Alike engine (cloneProviderReplyPolicyEngine engine)) ↔
      ∀ key ∈ defaultKeys, key ∈ raw.profiles := by
  rw [← normalize_twice_iff, ← h.engine_eq]
  exact ⟨fun hstable => hstable.1, fun htwice => ⟨htwice, alike_clone htwice⟩⟩

end

/-- The engine the worker starts with. -/
theorem stable_iff_default :
    (normalizeProviderReplyPolicyEngine (F := Number) defaultProviderReplyPolicyEngine =
        defaultProviderReplyPolicyEngine ∧
      Alike (defaultProviderReplyPolicyEngine (F := Number))
        (cloneProviderReplyPolicyEngine defaultProviderReplyPolicyEngine)) ∧
      ∀ key ∈ defaultKeys, key ∈ (defaultEngine (F := Number)).profiles := by
  have hkeys : ∀ key ∈ defaultKeys, key ∈ (defaultEngine (F := Number)).profiles := by
    decide
  exact ⟨(stable_iff Returned.default).mpr hkeys, hkeys⟩

/-! ## A payload without profiles -/

/-- `{"enabled": true}`. -/
def enabledPayload : Json := .obj [("enabled".toList, .bool true)]

/-- `421 try another server`. -/
def busyReply : SmtpReply Text where
  code := 421
  enhancedCode := []
  message := "try another server".toList
  lines := ["421 try another server".toList]

/-- What the confidence is said to be. -/
def confidence (engine : ProviderReplyPolicyEngine Number) : Text :=
  (classifySMTPRcptReply busyReply "gmail".toList [] true (some engine) true).decisionConfidence

/-- Engines that are alike are as confident. -/
theorem confidence_congr {engine copy : ProviderReplyPolicyEngine Number} (h : Alike engine copy) :
    confidence engine = confidence copy := by
  rw [confidence, confidence]
  exact congrArg (fun s => s.2.2.2.2) (h.rcpt busyReply "gmail".toList [] true true)

/-- **A copy that classifies otherwise**: the engine of a payload without profiles is less
confident of a reply of gmail than the worker's copy of it. -/
theorem not_stable : ¬ ∀ raw engine : ProviderReplyPolicyEngine Number, Returned raw engine →
    normalizeProviderReplyPolicyEngine engine = engine ∧
      Alike engine (cloneProviderReplyPolicyEngine engine) := by
  intro hall
  have hstable := hall { enabled := true } (normalizeProviderReplyPolicyEngine { enabled := true })
    (Returned.parsed (j := enabledPayload) rfl rfl)
  have hconfidence := confidence_congr hstable.2
  rw [clone_eq] at hconfidence
  exact absurd hconfidence (by decide)

end ValidEmailVerifier.Engine
