/-
# `Policy.ActiveFlag` — which version the list marks as active

`ListSMTPPolicyVersions` compares names with `strings.EqualFold`, while every other
function of the store distinguishes upper and lower case.  So the list marks exactly the
active version as long as no other version has a name that differs from it in case only
(`marksActive_iff`), and two versions otherwise (`sameName_marked`).
-/
import ValidEmailVerifier.Policy.Rollout

namespace ValidEmailVerifier.Policy

open Transition Programs Worker

/-! ## The names in the store -/

/-- Every record is kept under its name, names have no blank ends, and the active version
has a record. -/
structure Named (s : PolicyStore) : Prop where
  record : ∀ e ∈ s.versions.entries,
    normalizePolicyVersion e.1 = e.1 ∧ e.1 ≠ [] ∧ e.2.version = e.1
  active : ∀ version, s.active = some version → version ∈ s.versions

namespace Named

variable {s : PolicyStore}

theorem key (h : Named s) {version : Text} (hv : version ∈ s.versions) :
    normalizePolicyVersion version = version ∧ version ≠ [] := by
  obtain ⟨e, he, rfl⟩ := List.mem_map.mp hv
  exact ⟨(h.record e he).1, (h.record e he).2.1⟩

theorem hset (h : Named s) {record : SMTPPolicyVersionRecord}
    (hname : normalizePolicyVersion record.version = record.version)
    (hne : record.version ≠ []) : Named (s.apply (.hset record)) where
  record e he := by
    rw [PolicyStore.apply, AList.entries_insert] at he
    rcases List.mem_cons.mp he with rfl | he
    · exact ⟨hname, hne, rfl⟩
    · exact h.record e ((List.kerase_sublist _ _).subset he)
  active version hv := (AList.mem_insert _).mpr (.inr (h.active version hv))

theorem setActive (h : Named s) {version : Text} (hv : version ∈ s.versions) :
    Named (s.apply (.setActive version)) where
  record := h.record
  active _ ha := Option.some.inj ha ▸ hv

end Named

/-- What an operation has read is in the store. -/
structure Grounded (x : Progress) (m : Ledger) : Prop where
  named : Named m.store
  versions : ∀ version ∈ x.versions, version ∈ m.store.versions
  active : x.active = [] ∨ x.active ∈ m.store.versions

namespace Grounded

variable {m : Ledger} {op : Operation} {x : Progress}

theorem read (h : Grounded x m) {v : View} (hv : Reads m.store x.toView v) :
    Grounded { x with toView := v } m := by
  cases hv with
  | versions => exact { h with versions := fun _ hkey => hkey }
  | active =>
    refine { h with active := ?_ }
    cases hact : m.store.active with
    | none => exact .inl rfl
    | some a =>
      have ha := h.named.active a hact
      show normalizePolicyVersion a = [] ∨ normalizePolicyVersion a ∈ m.store.versions
      rw [(h.named.key ha).1]
      exact .inr ha
  | history stop hne => exact { h with }

theorem mem_of_records (h : Grounded x m) {version : Text} (hv : version ∈ x.records) :
    version ∈ m.store.versions := by
  obtain ⟨-, e, he, hnorm⟩ := mem_loadedRecords.mp hv
  have hmem := h.versions e.1 (List.mem_map_of_mem (f := Sigma.fst) he)
  rw [← hnorm, (h.named.key hmem).1]
  exact hmem

/-- A write that keeps the names keeps what was read. -/
theorem write (h : Grounded x m) {w : Write} (hnamed : Named (m.store.apply w))
    (hkeys : ∀ version ∈ m.store.versions, version ∈ (m.store.apply w).versions) :
    Grounded (x.send w) (m.wrote op w) where
  named := hnamed
  versions version hv := hkeys version (h.versions version hv)
  active := h.active.imp_right (hkeys x.active)

theorem served (h : Grounded x m) {w : Write} (hallow : Allowed op x (.write w)) :
    Grounded (x.send w) (m.wrote op w) := by
  cases w with
  | hset record =>
    have hname : record.version ≠ [] ∧
        normalizePolicyVersion record.version = record.version := by
      cases op with
      | promote => exact ⟨hallow.1, hallow.2.1⟩
      | validate => exact ⟨hallow.1, hallow.2.1⟩
      | rollback =>
        obtain ⟨_, _, hallow⟩ := hallow
        exact ⟨hallow.1, hallow.2.1⟩
    refine h.write (h.named.hset hname.2 hname.1) fun version hv => ?_
    exact (AList.mem_insert _).mpr (.inr hv)
  | setActive version =>
    refine h.write (h.named.setActive ?_) fun _ hv => hv
    cases op with
    | promote =>
      obtain ⟨-, rfl, hmem⟩ := hallow
      exact h.mem_of_records hmem
    | validate =>
      obtain ⟨rfl, hne⟩ := hallow
      exact h.active.resolve_left hne
    | rollback =>
      obtain ⟨_, _, -, rfl, hmem⟩ := hallow
      exact h.mem_of_records hmem
  | delActive => exact h.write ⟨h.named.record, nofun⟩ fun _ hv => hv
  | lpush entry => exact h.write ⟨h.named.record, h.named.active⟩ fun _ hv => hv
  | ltrim stop => exact h.write ⟨h.named.record, h.named.active⟩ fun _ hv => hv

end Grounded

/-- The names are kept by every call, whatever becomes of its commands. -/
theorem named_of_reaches {cfg : Config} {m : Ledger}
    (h : (rollouts cfg).Reaches Always {} m) : Named m.store := by
  refine h.invariant (P := fun m => Named m.store) ⟨nofun, nofun⟩ ?_
  intro t c u ht _ hstep
  rw [← Option.some.inj hstep]
  obtain ⟨x, -, hx⟩ := call_induction cfg (c := c) (J := Grounded)
    ⟨ht, nofun, .inl rfl⟩ (fun h _ hv => h.read hv)
    (fun h => ⟨h.named, h.versions, h.active⟩) (fun h hallow => h.served hallow)
    fun h _ => ⟨h.named, h.versions, h.active⟩
  exact hx.named

/-! ## The list -/

/-- The list marks the active version, and no other. -/
def MarksExactly (items : List SMTPPolicyVersionRecord) (active : Option Text) : Prop :=
  (items.filter (·.active)).map (·.version) = active.toList

instance (items : List SMTPPolicyVersionRecord) (active : Option Text) :
    Decidable (MarksExactly items active) := inferInstanceAs (Decidable (_ = _))

/-- No version but the active one has its name, upper and lower case taken as one. -/
def NoNamesake (foldRune : Char → Char) (s : PolicyStore) : Prop :=
  ∀ active, s.active = some active → ∀ version ∈ s.versions,
    equalFold foldRune version active = true → version = active

instance (foldRune : Char → Char) (s : PolicyStore) : Decidable (NoNamesake foldRune s) :=
  inferInstanceAs (Decidable (∀ active ∈ s.active, ∀ version ∈ s.versions.keys,
    equalFold foldRune version active = true → version = active))

/-- What the program returns when its commands are served. -/
theorem list_ok {foldRune : Char → Char} {op : Operation} {answers : List Answer} {m : Ledger}
    {items : List SMTPPolicyVersionRecord} {name : Text}
    (h : (Prog.run (exec op) (listSMTPPolicyVersions foldRune).run answers m).1 =
      .ok (items, name)) :
    items = (buildSMTPPolicyVersionList foldRune m.store.versions
      (m.store.active.getD [])).insertionSort ListedBefore := by
  have hwp : Prog.wp (exec op) (listSMTPPolicyVersions foldRune).run (fun outcome _ =>
      ∀ items name, outcome = .ok (items, name) →
        items = (buildSMTPPolicyVersionList foldRune m.store.versions
          (m.store.active.getD [])).insertionSort ListedBefore) m := by
    rintro ⟨fate, _, _⟩
    cases fate with
    | refused e => exact fun _ _ h => nomatch h
    | lost e => exact fun _ _ h => nomatch h
    | served =>
      rintro ⟨fate, _, _⟩
      cases fate with
      | refused e => exact fun _ _ h => nomatch h
      | lost e => exact fun _ _ h => nomatch h
      | served =>
        intro items name h
        exact (Prod.mk.inj (Except.ok.inj h)).1.symm
  exact Prog.run_of_wp hwp answers items name h

/-- The names that are marked, before sorting. -/
theorem marked_listedRecords {foldRune : Char → Char} {activeVersion : Text} :
    ∀ {values : List (Sigma fun _ : Text => SMTPPolicyVersionRecord)},
      (∀ e ∈ values, normalizePolicyVersion e.1 = e.1 ∧ e.1 ≠ [] ∧ e.2.version = e.1) →
        ((listedRecords foldRune activeVersion values).filter (·.active)).map (·.version) =
          (values.map Sigma.fst).filter fun version => equalFold foldRune version activeVersion
  | [], _ => rfl
  | ⟨version, payload⟩ :: values, h => by
      obtain ⟨hnorm, hne, hrecord⟩ := h _ (.head _)
      dsimp only at hnorm hne hrecord
      rw [listedRecords]
      simp only [hnorm, hrecord, if_neg hne, List.map_cons]
      rw [List.filter_cons, List.filter_cons, ← marked_listedRecords fun e he => h e (.tail _ he)]
      split <;> rfl

theorem equalFold_nil {foldRune : Char → Char} {version : Text} (hne : version ≠ []) :
    equalFold foldRune version [] = false := by
  cases version with
  | nil => exact absurd rfl hne
  | cons c rest => rfl

theorem equalFold_self (foldRune : Char → Char) (version : Text) :
    equalFold foldRune version version = true := by
  simp [equalFold]

/-- At most one name has one order only. -/
theorem eq_toList_of_perm {names names' : List Text} {active : Option Text}
    (h : names.Perm names') : names = active.toList ↔ names' = active.toList := by
  cases active with
  | none =>
    constructor
    · rintro rfl
      exact h.symm.eq_nil
    · rintro rfl
      exact h.eq_nil
  | some version =>
    constructor
    · rintro rfl
      exact List.perm_singleton.mp h.symm
    · rintro rfl
      exact List.perm_singleton.mp h

/-- The only name of a list without repetitions that passes a test. -/
theorem filter_eq_singleton_iff {names : List Text} {p : Text → Bool} {name : Text}
    (hnodup : names.Nodup) (hmem : name ∈ names) (hp : p name = true) :
    names.filter p = [name] ↔ ∀ other ∈ names, p other = true → other = name := by
  constructor
  · intro h other hother hpo
    have : other ∈ names.filter p := List.mem_filter.mpr ⟨hother, hpo⟩
    rw [h] at this
    exact List.mem_singleton.mp this
  · intro h
    apply List.perm_singleton.mp
    apply (List.perm_ext_iff_of_nodup (hnodup.filter p) (List.nodup_singleton name)).mpr
    intro other
    rw [List.mem_filter, List.mem_singleton]
    constructor
    · rintro ⟨hother, hpo⟩
      exact h other hother hpo
    · rintro rfl
      exact ⟨hmem, hp⟩

/-- **In every reachable state the list marks exactly the active version if and only if no
other version has the active name but for upper and lower case.** -/
theorem marksActive_iff {cfg : Config} {foldRune : Char → Char} {m : Ledger} {op : Operation}
    {answers : List Answer} {items : List SMTPPolicyVersionRecord} {name : Text}
    (h : (rollouts cfg).Reaches Always {} m)
    (hlist : (Prog.run (exec op) (listSMTPPolicyVersions foldRune).run answers m).1 =
      .ok (items, name)) :
    MarksExactly items m.store.active ↔ NoNamesake foldRune m.store := by
  have hnamed := named_of_reaches h
  have hperm := (((List.perm_insertionSort ListedBefore (buildSMTPPolicyVersionList foldRune
    m.store.versions (m.store.active.getD []))).filter (·.active)).map (·.version))
  rw [list_ok hlist, MarksExactly, eq_toList_of_perm hperm, buildSMTPPolicyVersionList,
    marked_listedRecords hnamed.record]
  cases hactive : m.store.active with
  | none =>
    have hnone : ∀ version ∈ m.store.versions.entries.map Sigma.fst,
        ¬ equalFold foldRune version [] = true := by
      intro version hv
      rw [equalFold_nil (hnamed.key hv).2]
      exact Bool.false_ne_true
    constructor
    · intro _ active ha
      rw [hactive] at ha
      exact nomatch ha
    · intro _
      exact List.filter_eq_nil_iff.mpr hnone
  | some active =>
    have hmem := hnamed.active active hactive
    have hnorm : normalizePolicyVersion ((some active).getD []) = active :=
      (hnamed.key hmem).1
    rw [hnorm]
    refine (filter_eq_singleton_iff (p := fun version => equalFold foldRune version active)
      m.store.versions.keys_nodup hmem (equalFold_self foldRune active)).trans ?_
    constructor
    · intro hone active' ha version hv hfold
      rw [hactive] at ha
      obtain rfl := Option.some.inj ha
      exact hone version hv hfold
    · intro hone version hv hfold
      exact hone active hactive version hv hfold

/-- The list of a state. -/
def listed (foldRune : Char → Char) (m : Ledger) :
    Except Text (List SMTPPolicyVersionRecord × Text) :=
  (Prog.run (exec (.rollback [] [])) (listSMTPPolicyVersions foldRune).run [] m).1

theorem marksActive_iff_twoVersions :
    ∃ m items name, listed Char.toLower m = .ok (items, name) ∧ items.length = 2 ∧
      MarksExactly items m.store.active := by
  have hrun : ((rollouts ⟨true, true⟩).run {}
      [⟨.validate " v4 ".toList [] [], []⟩, ⟨.validate "v3".toList [] [], []⟩,
        ⟨.promote "v4".toList 25 [] [], []⟩]).any
      (fun m =>
        match listed Char.toLower m with
        | .ok (items, _) => decide (items.length = 2 ∧ NoNamesake Char.toLower m.store)
        | .error _ => false) = true := by
    decide
  obtain ⟨m, hm, hp⟩ := System.exists_reaches_always hrun
  split at hp
  · next items name hlist =>
    obtain ⟨hlen, hnone⟩ := of_decide_eq_true hp
    exact ⟨m, items, name, hlist, hlen, (marksActive_iff hm hlist).mpr hnone⟩
  · exact nomatch hp

/-- With `v4` active, `V4` is marked as well. -/
theorem sameName_marked :
    ¬ ∀ (cfg : Config) (m : Ledger) (items : List SMTPPolicyVersionRecord) (name : Text),
      (rollouts cfg).Reaches Always {} m → listed Char.toLower m = .ok (items, name) →
        MarksExactly items m.store.active := by
  intro h
  have hrun : ((rollouts ⟨true, true⟩).run {}
      [⟨.validate "v4".toList [] [], []⟩, ⟨.validate "V4".toList [] [], []⟩,
        ⟨.promote "v4".toList 25 [] [], []⟩]).any
      (fun m =>
        match listed Char.toLower m with
        | .ok (items, _) => decide (¬ MarksExactly items m.store.active)
        | .error _ => false) = true := by
    decide
  obtain ⟨m, hm, hp⟩ := System.exists_reaches_always hrun
  split at hp
  · next items name hlist => exact of_decide_eq_true hp (h _ m items name hm hlist)
  · exact nomatch hp

end ValidEmailVerifier.Policy
