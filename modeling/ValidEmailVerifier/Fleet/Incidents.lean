/-
# `Fleet.Incidents` — incidents, and the notifications of them

The alert service keeps a record for every incident and a set of the keys of the active ones,
which are written together.  An incident is opened when its condition is found to hold and it
is not active, and resolved when the condition is found not to hold any more; of both there is
a notification.

However the calls follow each other, the notifications for a key are `opened`, `recovered`,
`opened`, and so on, and the set has the keys of the active records (`sound_syncAll`).
-/
import Mathlib.Data.Finset.Basic
import ValidEmailVerifier.Fleet.Alerts

namespace ValidEmailVerifier.Fleet.Incidents

open Worker

/-! ## The store -/

/-- What a context tells. -/
inductive Value where
  | text (t : Text) | number (q : ℚ) | time (t : Nat)
  deriving DecidableEq

/-- `map[string]interface{}`. -/
abbrev Context := Text → Option Value

structure IncidentRecord where
  key : Text
  type : Text
  severity : Text
  status : IncidentStatus
  message : Text
  context : Context
  openedAt : Nat
  updatedAt : Nat
  resolvedAt : Option Nat := none

/-- The records of the incidents, and the set of the keys of the active ones. -/
structure IncidentStore where
  records : Text → Option IncidentRecord := fun _ => none
  activeKeys : Finset Text := ∅

namespace IncidentStore

def isActive (s : IncidentStore) (key : Text) : Bool :=
  (s.records key).any fun record => record.status = .active

def getIncident (s : IncidentStore) (key : Text) : Option IncidentRecord :=
  if key = [] then none else s.records key

def saveIncident (s : IncidentStore) (record : IncidentRecord) : IncidentStore where
  records := Function.update s.records record.key (some record)
  activeKeys :=
    if record.status = .active then insert record.key s.activeKeys
    else s.activeKeys.erase record.key

/-- The incident has been opened, unless it was active. -/
def activateIncident (s : IncidentStore) (now : Nat)
    (key incidentType severity message : Text) (contextData : Context) : Bool × IncidentStore :=
  let record : IncidentRecord :=
    { key := key
      type := incidentType
      severity := severity
      status := .active
      message := message
      context := contextData
      openedAt := formatRFC3339 now
      updatedAt := formatRFC3339 now }
  match s.getIncident key with
  | some existing =>
      if existing.status = .active then
        (false, s.saveIncident
          { existing with
            message := message
            context := contextData
            severity := severity
            type := incidentType
            updatedAt := formatRFC3339 now })
      else (true, s.saveIncident { record with openedAt := existing.openedAt })
  | none => (true, s.saveIncident record)

/-- The record of the incident that has been resolved, if it was active. -/
def resolveIncident (s : IncidentStore) (now : Nat) (key message : Text)
    (contextData : Context) : Option IncidentRecord × IncidentStore :=
  match s.getIncident key with
  | some existing =>
      if existing.status = .active then
        let record :=
          { existing with
            status := .resolved
            message := if message = [] then existing.message else message
            context := contextData
            updatedAt := formatRFC3339 now
            resolvedAt := some (formatRFC3339 now) }
        (some record, s.saveIncident record)
      else (none, s)
  | none => (none, s)

end IncidentStore

/-! ## Calls -/

structure AlertEvent where
  type : Text
  severity : Text
  message : Text
  context : Context
  createdAt : Nat

inductive Change where
  | opened | recovered
  deriving DecidableEq, Repr

/-- An alert that has been dispatched, and of which incident it tells what; an alert may tell of
something else. -/
structure Notification where
  about : Option (Text × Change)
  alert : AlertEvent

/-- The store, and the notifications that have been sent. -/
structure Service where
  store : IncidentStore := {}
  sent : List Notification := []

def incidentStateKey (incidentType subject : Text) : Text :=
  incidentType ++ ":".toList ++ subject

theorem incidentStateKey_ne_nil (incidentType subject : Text) :
    incidentStateKey incidentType subject ≠ [] := by
  rw [incidentStateKey, List.append_assoc]
  exact List.append_ne_nil_of_right_ne_nil _ (List.cons_ne_nil _ _)

/-- A call of `syncIncident`.  Its key is made with `incidentStateKey`, and never empty. -/
structure SyncCall where
  now : Nat
  settings : RuntimeSettings
  incidentKey : Text
  incidentType : Text
  severity : Text
  message : Text
  active : Bool
  contextData : Context
  keyed : incidentKey ≠ []

def Service.syncIncident (s : Service) (c : SyncCall) : Service :=
  if c.active then
    let (opened, store) := s.store.activateIncident c.now c.incidentKey c.incidentType c.severity
      c.message c.contextData
    let alert : AlertEvent := ⟨c.incidentType, c.severity, c.message, c.contextData, c.now⟩
    ⟨store, if c.settings.alertsEnabled ∧ opened then
        s.sent ++ [⟨some (c.incidentKey, .opened), alert⟩]
      else s.sent⟩
  else
    match s.store.resolveIncident c.now c.incidentKey c.message c.contextData with
    | (none, store) => ⟨store, s.sent⟩
    | (some record, store) =>
        if c.settings.alertsEnabled = false then ⟨store, s.sent⟩
        else
          let merged : Context := fun key => (c.contextData key).or (record.context key)
          let recoveryContext : Context :=
            Function.update (Function.update merged "incident_key".toList
              (some (.text c.incidentKey))) "resolved_at".toList
              (some (.time (formatRFC3339 c.now)))
          let alert : AlertEvent :=
            ⟨c.incidentType ++ "_recovered".toList, "info".toList, "Incident recovered".toList,
              recoveryContext, c.now⟩
          ⟨store, s.sent ++ [⟨some (c.incidentKey, .recovered), alert⟩]⟩

def Service.syncAll (s : Service) (calls : List SyncCall) : Service :=
  calls.foldl Service.syncIncident s

/-! ## What a call does -/

namespace IncidentStore

variable {s : IncidentStore} {key : Text}

/-- Every record is filed under its key, and the set has the keys of the active ones. -/
structure Sound (s : IncidentStore) : Prop where
  filed : ∀ key record, s.records key = some record → record.key = key
  listed : ∀ key, key ∈ s.activeKeys ↔ s.isActive key = true

theorem isActive_saveIncident (record : IncidentRecord) (k : Text) :
    (s.saveIncident record).isActive k =
      if k = record.key then decide (record.status = .active) else s.isActive k := by
  rw [isActive, saveIncident]
  dsimp only
  split_ifs with hk
  · rw [hk, Function.update_self]
    rfl
  · rw [Function.update_of_ne hk]
    rfl

theorem Sound.saveIncident (h : s.Sound) (record : IncidentRecord) :
    (s.saveIncident record).Sound := by
  constructor
  case filed =>
    intro k record' hrecord
    rw [IncidentStore.saveIncident] at hrecord
    dsimp only at hrecord
    by_cases hk : k = record.key
    · rw [hk, Function.update_self] at hrecord
      rw [hk, ← Option.some.inj hrecord]
    · rw [Function.update_of_ne hk] at hrecord
      exact h.filed k record' hrecord
  case listed =>
    intro k
    rw [isActive_saveIncident, IncidentStore.saveIncident]
    dsimp only
    by_cases hk : k = record.key
    · rw [if_pos hk, hk]
      split_ifs with hactive
      · exact iff_of_true (Finset.mem_insert_self _ _) (decide_eq_true hactive)
      · exact iff_of_false (Finset.notMem_erase _ _) (by simp [hactive])
    · rw [if_neg hk, ← h.listed]
      split_ifs
      · rw [Finset.mem_insert, or_iff_right hk]
      · rw [Finset.mem_erase, and_iff_right hk]

/-- An incident that is activated is active, and has been opened unless it was. -/
theorem activateIncident_spec (h : s.Sound) (hkey : key ≠ []) (now : Nat)
    (incidentType severity message : Text) (contextData : Context) :
    (s.activateIncident now key incidentType severity message contextData).1 =
        !s.isActive key ∧
      (s.activateIncident now key incidentType severity message contextData).2.Sound ∧
      ∀ k, (s.activateIncident now key incidentType severity message contextData).2.isActive k =
        if k = key then true else s.isActive k := by
  rw [activateIncident, getIncident, if_neg hkey]
  cases hrecord : s.records key with
  | none =>
    refine ⟨?_, h.saveIncident _, fun k => ?_⟩
    · rw [isActive, hrecord]
      rfl
    · rw [isActive_saveIncident]
      rfl
  | some existing =>
    have hfiled := h.filed key existing hrecord
    have hstatus : s.isActive key = decide (existing.status = .active) := by
      rw [isActive, hrecord]
      rfl
    rw [hstatus]
    dsimp only
    split_ifs with hactive
    · refine ⟨by simp [hactive], h.saveIncident _, fun k => ?_⟩
      rw [isActive_saveIncident]
      dsimp only
      rw [hfiled, hactive]
      rfl
    · refine ⟨by simp [hactive], h.saveIncident _, fun k => ?_⟩
      rw [isActive_saveIncident]
      rfl

/-- An incident that is resolved is not active, and something is told of it if it was. -/
theorem resolveIncident_spec (h : s.Sound) (hkey : key ≠ []) (now : Nat) (message : Text)
    (contextData : Context) :
    (s.resolveIncident now key message contextData).1.isSome = s.isActive key ∧
      (s.resolveIncident now key message contextData).2.Sound ∧
      ∀ k, (s.resolveIncident now key message contextData).2.isActive k =
        if k = key then false else s.isActive k := by
  have hsame : s.isActive key = false → ∀ k, s.isActive k = if k = key then false else
      s.isActive k := by
    intro hoff k
    split_ifs with hk
    · rw [hk, hoff]
    · rfl
  rw [resolveIncident, getIncident, if_neg hkey]
  cases hrecord : s.records key with
  | none =>
    have hoff : s.isActive key = false := by
      rw [isActive, hrecord]
      rfl
    exact ⟨hoff.symm, h, hsame hoff⟩
  | some existing =>
    have hfiled := h.filed key existing hrecord
    have hstatus : s.isActive key = decide (existing.status = .active) := by
      rw [isActive, hrecord]
      rfl
    dsimp only
    by_cases hactive : existing.status = .active
    · rw [if_pos hactive]
      refine ⟨by simp [hstatus, hactive], h.saveIncident _, fun k => ?_⟩
      rw [isActive_saveIncident]
      dsimp only
      rw [hfiled]
      rfl
    · rw [if_neg hactive]
      have hoff : s.isActive key = false := by simp [hstatus, hactive]
      exact ⟨hoff.symm, h, hsame hoff⟩

end IncidentStore

/-! ## Notifications -/

/-- `opened`, `recovered`, `opened`, and so on. -/
def alternation (n : Nat) : List Change :=
  (List.range n).map fun i => if i % 2 = 0 then .opened else .recovered

def Alternates (changes : List Change) : Prop := changes = alternation changes.length

theorem Alternates.append {changes : List Change} (h : Alternates changes) {change : Change}
    (hchange : change = if changes.length % 2 = 0 then .opened else .recovered) :
    Alternates (changes ++ [change]) := by
  rw [Alternates, List.length_append, List.length_singleton, alternation, List.range_succ,
    List.map_append, ← alternation, ← h, hchange, List.map_singleton]

namespace Service

variable (s : Service)

/-- What the notifications that have been sent tell of an incident. -/
def changes (key : Text) : List Change :=
  ((s.sent.filterMap Notification.about).filter fun about => about.1 = key).map Prod.snd

theorem changes_append (store : IncidentStore) (of : Text) (change : Change) (alert : AlertEvent)
    (key : Text) :
    changes ⟨store, s.sent ++ [⟨some (of, change), alert⟩]⟩ key =
      s.changes key ++ if of = key then [change] else [] := by
  rw [changes, List.filterMap_append, List.filter_append, List.map_append, ← changes]
  by_cases hkey : of = key
  · rw [if_pos hkey]
    simp [hkey]
  · rw [if_neg hkey]
    simp [hkey]

/-- The notifications tell of every incident whether it is active. -/
structure Sound : Prop where
  store : s.store.Sound
  alternates : ∀ key, Alternates (s.changes key)
  current : ∀ key, s.store.isActive key = true ↔ (s.changes key).length % 2 = 1

variable {s}

theorem Sound.initial : Sound {} :=
  ⟨⟨nofun, fun _ => iff_of_false (Finset.notMem_empty _) nofun⟩, fun _ => rfl,
    fun _ => iff_of_false nofun nofun⟩

/-- A call tells of its incident if it changes it. -/
theorem syncIncident_spec (h : s.store.Sound) (c : SyncCall) :
    (s.syncIncident c).store.Sound ∧
      (∀ k, (s.syncIncident c).store.isActive k =
        if k = c.incidentKey then c.active else s.store.isActive k) ∧
      (c.settings.alertsEnabled = true → ∀ k, (s.syncIncident c).changes k =
        s.changes k ++
          if c.incidentKey = k ∧ s.store.isActive c.incidentKey ≠ c.active then
            [if c.active then .opened else .recovered]
          else []) := by
  rw [syncIncident]
  cases hactive : c.active with
  | true =>
    obtain ⟨hopened, hsound, hnow⟩ := IncidentStore.activateIncident_spec h c.keyed c.now
      c.incidentType c.severity c.message c.contextData
    refine ⟨hsound, hnow, fun hon k => ?_⟩
    dsimp only
    rw [hopened, hon]
    cases hwas : s.store.isActive c.incidentKey with
    | true => simp [changes]
    | false =>
      simp only [Bool.not_false, and_self, if_true, ne_eq, Bool.false_eq_true, not_false_eq_true,
        and_true]
      exact s.changes_append _ _ _ _ k
  | false =>
    obtain ⟨hresolved, hsound, hnow⟩ := IncidentStore.resolveIncident_spec h c.keyed c.now
      c.message c.contextData
    rw [if_neg Bool.false_ne_true]
    cases hresult : s.store.resolveIncident c.now c.incidentKey c.message c.contextData with
    | mk told store =>
      rw [hresult] at hresolved hsound hnow
      cases told with
      | none =>
        refine ⟨hsound, hnow, fun _ k => ?_⟩
        rw [← hresolved]
        simp [changes]
      | some record =>
        dsimp only
        refine ⟨by split_ifs <;> exact hsound, by split_ifs <;> exact hnow, fun hon k => ?_⟩
        rw [if_neg (by simp [hon]), ← hresolved, changes_append]
        simp

/-- A call with alerts keeps it so. -/
theorem Sound.syncIncident (h : s.Sound) {c : SyncCall} (hon : c.settings.alertsEnabled = true) :
    (s.syncIncident c).Sound := by
  obtain ⟨hstore, hactive, hchanges⟩ := syncIncident_spec h.store c
  have hcurrent := h.current c.incidentKey
  refine ⟨hstore, fun k => ?alternates, fun k => ?current⟩
  case alternates =>
    rw [hchanges hon]
    split_ifs with hchanged hopened
    · obtain ⟨rfl, hwas⟩ := hchanged
      rw [hopened, Ne, hcurrent] at hwas
      exact (h.alternates _).append (by rw [if_pos (by omega)])
    · obtain ⟨rfl, hwas⟩ := hchanged
      rw [Bool.not_eq_true] at hopened
      rw [hopened, Ne, Bool.not_eq_false, hcurrent] at hwas
      exact (h.alternates _).append (by rw [if_neg (by omega)])
    · rw [List.append_nil]
      exact h.alternates k
  case current =>
    rw [hchanges hon, hactive]
    by_cases hk : k = c.incidentKey
    · subst hk
      rw [if_pos rfl]
      by_cases hsame : s.store.isActive c.incidentKey = c.active
      · rw [if_neg fun hchanged => hchanged.2 hsame, List.append_nil, ← hsame]
        exact hcurrent
      · rw [if_pos ⟨rfl, hsame⟩, List.length_append, List.length_singleton]
        cases hnow : c.active with
        | true =>
          rw [hnow, hcurrent] at hsame
          exact iff_of_true rfl (by omega)
        | false =>
          rw [hnow, Bool.not_eq_false, hcurrent] at hsame
          exact iff_of_false Bool.false_ne_true (by omega)
    · rw [if_neg hk, if_neg fun hchanged => hk hchanged.1.symm, List.append_nil]
      exact h.current k

theorem Sound.syncAll {calls : List SyncCall} (h : s.Sound)
    (hon : ∀ c ∈ calls, c.settings.alertsEnabled = true) : (s.syncAll calls).Sound := by
  induction calls generalizing s with
  | nil => exact h
  | cons c calls ih =>
    obtain ⟨hc, hcalls⟩ := List.forall_mem_cons.mp hon
    exact ih (h.syncIncident hc) hcalls

end Service

/-- However the calls follow each other, the notifications of every incident alternate, and the
keys of the set are those of the active records. -/
theorem syncAll_alternates {calls : List SyncCall}
    (hon : ∀ c ∈ calls, c.settings.alertsEnabled = true) :
    (∀ key, Alternates ((Service.syncAll {} calls).changes key)) ∧
      ∀ key, key ∈ (Service.syncAll {} calls).store.activeKeys ↔
        ∃ record, (Service.syncAll {} calls).store.records key = some record ∧
          record.status = .active := by
  have hsound := Service.Sound.initial.syncAll hon
  refine ⟨hsound.alternates, fun key => ?_⟩
  rw [hsound.store.listed, IncidentStore.isActive, Option.any_eq_true]
  simp only [decide_eq_true_eq]

/-- A call about a pool that is, or is no longer, under capacity. -/
def poolCall (atSecond : Nat) (active : Bool) : SyncCall where
  now := atSecond * second
  settings := {}
  incidentKey := incidentStateKey "pool_under_capacity".toList "main".toList
  incidentType := "pool_under_capacity".toList
  severity := "warning".toList
  message := "Pool online workers below desired capacity".toList
  active := active
  contextData := fun _ => none
  keyed := incidentStateKey_ne_nil _ _

theorem syncAll_alternates_pool :
    Alternates ((Service.syncAll {} [poolCall 30 true, poolCall 60 true, poolCall 90 false]).changes
        "pool_under_capacity:main".toList) ∧
      (Service.syncAll {} [poolCall 30 true, poolCall 60 true, poolCall 90 false]).changes
        "pool_under_capacity:main".toList = [.opened, .recovered] :=
  ⟨(syncAll_alternates (by decide)).1 _, by decide⟩

end ValidEmailVerifier.Fleet.Incidents
