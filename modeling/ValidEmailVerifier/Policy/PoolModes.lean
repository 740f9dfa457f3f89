/-
# `Policy.PoolModes` — the modes that a pool is served

The policies endpoint lays the provider profiles of the worker's pool over the modes of the
providers.  A profile takes the place of every mode that has not been set by hand, so also of
one that the autoprotect or the autopilot has set: such a mode is served at least as
restrictive as it is exactly when the profile of the pool is (`protected_iff`).
-/
import ValidEmailVerifier.Lib.Json
import ValidEmailVerifier.Policy.CanarySafety

namespace ValidEmailVerifier.Policy

open GoStrings Json Worker

/-! ## The endpoint -/

def ModeSource.name : ModeSource → Text
  | .manual => "manual".toList
  | .autoprotect => "autoprotect".toList
  | .autopilot => "autopilot".toList

/-- A mode as it is served. -/
structure ServedMode where
  provider : Text
  mode : ProviderMode
  source : Text
  deriving DecidableEq

/-- The modes of the store, sorted by provider. -/
def servedModes (modes : ProviderModes) : List ServedMode :=
  Provider.all.filterMap fun provider =>
    (modes provider).map fun state => ⟨provider.name, state.mode, state.source.name⟩

/-- A pool, with its profiles in the order in which the map is ranged over. -/
structure LaravelEnginePoolRecord where
  slug : Text
  isActive : Bool
  providerProfiles : List (Text × Text)

def providerModeFromPoolProfile (profile : Text) : ProviderMode :=
  let profile := toLower (trimSpace profile)
  if profile = "low_hit".toList then .cautious
  else if profile = "warmup".toList then .degradedProbe
  else .normal

/-- The profiles of the first active pool of the slug, as modes. -/
def poolProfiles (pools : List LaravelEnginePoolRecord) (poolSlug : Text) :
    List (Text × ProviderMode) :=
  match pools.find? fun pool => pool.isActive && toLower (trimSpace pool.slug) = poolSlug with
  | none => []
  | some pool =>
      Json.merged (pool.providerProfiles.filterMap fun entry =>
        let normalizedProvider := toLower (trimSpace entry.1)
        if normalizedProvider ∈ Provider.all.map Provider.name then
          some (normalizedProvider, providerModeFromPoolProfile entry.2)
        else none)

/-- What is served for a mode of the store. -/
def overlay (profiles : List (Text × ProviderMode)) (mode : ServedMode) : Option ServedMode :=
  let provider := toLower (trimSpace mode.provider)
  if provider = [] then none
  else
    match last provider profiles with
    | none => some mode
    | some overrideMode =>
        if toLower (trimSpace mode.source) = "manual".toList then some mode
        else some { mode with mode := overrideMode, source := "pool_profile".toList }

/-- `pools` are those the web application lists, unless it cannot be asked. -/
def applyPoolProviderModes (pools : Option (List LaravelEnginePoolRecord))
    (modes : List ServedMode) (poolSlug : Text) : List ServedMode :=
  match pools with
  | none => modes
  | some pools =>
      let profiles := poolProfiles pools poolSlug
      if profiles = [] then modes
      else
        let seen := modes.map fun mode => toLower (trimSpace mode.provider)
        let added := (profiles.filter fun entry => entry.1 ∉ seen).map fun entry =>
          ⟨entry.1, entry.2, "pool_profile".toList⟩
        (modes.filterMap (overlay profiles) ++ added).mergeSort fun a b =>
          !decide (b.provider < a.provider)

/-- The modes for a request, with the pool that the query names. -/
def handleProviderPolicies (pools : Option (List LaravelEnginePoolRecord)) (modes : ProviderModes)
    (pool workerPool : Text) : List ServedMode :=
  let poolSlug := toLower (trimSpace pool)
  let poolSlug := if poolSlug = [] then toLower (trimSpace workerPool) else poolSlug
  if poolSlug = [] then servedModes modes
  else applyPoolProviderModes pools (servedModes modes) poolSlug

/-- The mode a worker has of what it is served. -/
def modeServed (served : List ServedMode) (provider : Provider) : ProviderMode :=
  ((served.filter fun mode => mode.provider = provider.name).getLast?.map ServedMode.mode).getD
    .normal

/-! ## What is served for a provider -/

/-- The mode of the profile that the pool has for a provider. -/
def profileMode (pools : Option (List LaravelEnginePoolRecord)) (poolSlug : Text)
    (provider : Provider) : Option ProviderMode :=
  match pools with
  | none => none
  | some pools => last provider.name (poolProfiles pools poolSlug)

theorem modeServed_eq {served : List ServedMode} {provider : Provider} {mode : ProviderMode}
    (hall : ∀ entry ∈ served, entry.provider = provider.name → entry.mode = mode)
    (hex : ∃ entry ∈ served, entry.provider = provider.name) :
    modeServed served provider = mode := by
  obtain ⟨entry, hentry, hname⟩ := hex
  have hmem : entry ∈ served.filter fun mode => mode.provider = provider.name :=
    List.mem_filter.mpr ⟨hentry, decide_eq_true hname⟩
  have hne := List.ne_nil_of_mem hmem
  have hlast := List.getLast_mem hne
  obtain ⟨hserved, hprovider⟩ := List.mem_filter.mp hlast
  rw [modeServed, List.getLast?_eq_some_getLast hne]
  exact hall _ hserved (of_decide_eq_true hprovider)

theorem mem_servedModes {modes : ProviderModes} {entry : ServedMode} :
    entry ∈ servedModes modes ↔ ∃ provider state, modes provider = some state ∧
      entry = ⟨provider.name, state.mode, state.source.name⟩ := by
  rw [servedModes, List.mem_filterMap]
  constructor
  · rintro ⟨provider, -, hmap⟩
    obtain ⟨state, hstate, rfl⟩ := Option.map_eq_some_iff.mp hmap
    exact ⟨provider, state, hstate, rfl⟩
  · rintro ⟨provider, state, hstate, rfl⟩
    refine ⟨provider, ?_, by rw [hstate]; rfl⟩
    cases provider <;> decide

theorem normalized_name (provider : Provider) : toLower (trimSpace provider.name) =
    provider.name := by
  cases provider <;> decide

theorem name_injective {a b : Provider} (h : a.name = b.name) : a = b := by
  cases a <;> cases b <;> first | rfl | exact absurd h (by decide)

/-- A mode that was not set by hand. -/
theorem overlay_automatic {profiles : List (Text × ProviderMode)} {provider : Provider}
    {state : ProviderModeState} (hsource : state.source ≠ .manual) :
    overlay profiles ⟨provider.name, state.mode, state.source.name⟩ =
      some (match last provider.name profiles with
        | none => ⟨provider.name, state.mode, state.source.name⟩
        | some mode => ⟨provider.name, mode, "pool_profile".toList⟩) := by
  have hne : provider.name ≠ [] := by cases provider <;> decide
  have hauto : toLower (trimSpace state.source.name) ≠ "manual".toList := by
    cases hkind : state.source with
    | manual => exact absurd hkind hsource
    | _ => decide
  rw [overlay, normalized_name, if_neg hne]
  cases last provider.name profiles with
  | none => rfl
  | some mode => exact if_neg hauto

theorem provider_overlay {profiles : List (Text × ProviderMode)} {mode entry : ServedMode}
    (h : overlay profiles mode = some entry) : entry.provider = mode.provider := by
  rw [overlay] at h
  split_ifs at h
  · split at h
    · rw [Option.some.inj h]
    · rw [Option.some.inj h]
  · split at h
    · rw [Option.some.inj h]
    · rw [← Option.some.inj h]

/-- The mode served for one that was not set by hand: that of the profile, if there is one. -/
theorem modeServed_automatic (pools : Option (List LaravelEnginePoolRecord)) (poolSlug : Text)
    {modes : ProviderModes} {provider : Provider} {state : ProviderModeState}
    (hstate : modes provider = some state) (hsource : state.source ≠ .manual) :
    modeServed (applyPoolProviderModes pools (servedModes modes) poolSlug) provider =
      (profileMode pools poolSlug provider).getD state.mode := by
  have hown : ⟨provider.name, state.mode, state.source.name⟩ ∈ servedModes modes :=
    mem_servedModes.mpr ⟨provider, state, hstate, rfl⟩
  have honly : ∀ entry ∈ servedModes modes, entry.provider = provider.name →
      entry = ⟨provider.name, state.mode, state.source.name⟩ := by
    intro entry hentry hname
    obtain ⟨other, otherState, hother, rfl⟩ := mem_servedModes.mp hentry
    obtain rfl := name_injective hname
    rw [Option.some.inj (hother.symm.trans hstate)]
  have hplain : modeServed (servedModes modes) provider = state.mode :=
    modeServed_eq (fun entry hentry hname => by rw [honly entry hentry hname]) ⟨_, hown, rfl⟩
  cases pools with
  | none => exact hplain
  | some pools =>
    rw [applyPoolProviderModes, profileMode]
    dsimp only
    split
    · next hnone => rw [hnone]; exact hplain
    · refine modeServed_eq ?_ ?_
      · intro entry hentry hname
        rcases List.mem_append.mp (List.mem_mergeSort.mp hentry) with hmem | hmem
        · obtain ⟨mode, hmode, hoverlay⟩ := List.mem_filterMap.mp hmem
          have hprovider : mode.provider = provider.name :=
            (provider_overlay hoverlay).symm.trans hname
          rw [honly mode hmode hprovider, overlay_automatic hsource] at hoverlay
          rw [← Option.some.inj hoverlay]
          cases last provider.name (poolProfiles pools poolSlug) <;> rfl
        · obtain ⟨profile, hprofile, rfl⟩ := List.mem_map.mp hmem
          refine absurd (List.mem_map.mpr ⟨_, hown, ?_⟩)
            (of_decide_eq_true (List.mem_filter.mp hprofile).2)
          rw [normalized_name]
          exact hname.symm
      · refine ⟨_, List.mem_mergeSort.mpr (List.mem_append_left _ (List.mem_filterMap.mpr
          ⟨_, hown, overlay_automatic hsource⟩)), ?_⟩
        cases last provider.name (poolProfiles pools poolSlug) <;> rfl

/-! ## The law -/

/-- **A mode of the autoprotect or the autopilot is served at least as restrictive as it is
exactly when the pool has no profile for the provider, or one that is.** -/
theorem protected_iff (pools : Option (List LaravelEnginePoolRecord)) (poolSlug : Text)
    (modes : ProviderModes) :
    (∀ provider state, modes provider = some state → state.source ≠ .manual →
      state.mode.rank ≤
        (modeServed (applyPoolProviderModes pools (servedModes modes) poolSlug) provider).rank) ↔
    ∀ provider state, modes provider = some state → state.source ≠ .manual →
      ∀ mode ∈ profileMode pools poolSlug provider, state.mode.rank ≤ mode.rank := by
  constructor
  · intro h provider state hstate hsource mode hmode
    have hserved := h provider state hstate hsource
    rw [modeServed_automatic pools poolSlug hstate hsource, hmode] at hserved
    exact hserved
  · intro h provider state hstate hsource
    rw [modeServed_automatic pools poolSlug hstate hsource]
    cases hmode : profileMode pools poolSlug provider with
    | none => exact Nat.le_refl _
    | some mode => exact h provider state hstate hsource mode hmode

/-- A pool with the plain profile for gmail, while the autoprotect drains gmail. -/
theorem drain_undone : ¬ ∀ (pools : Option (List LaravelEnginePoolRecord)) (poolSlug : Text)
    (modes : ProviderModes) (provider : Provider) (state : ProviderModeState),
    modes provider = some state → state.source ≠ .manual → state.mode.rank ≤
      (modeServed (applyPoolProviderModes pools (servedModes modes) poolSlug) provider).rank := by
  intro h
  have hserved := h
    (some [⟨"main".toList, true, [("gmail".toList, "standard".toList)]⟩]) "main".toList
    (Function.update (fun _ => none) .gmail (some ⟨.drain, .autoprotect⟩)) .gmail
    ⟨.drain, .autoprotect⟩ (Function.update_self ..) nofun
  exact absurd hserved (by decide +kernel)

end ValidEmailVerifier.Policy
