/-
# `Fleet.IncidentLists` — the list of the active incidents

Beside the record of every incident there is an index of all of them, open and resolved, by the
second in which they were saved last.  `listIncidents` reads as many keys from the top of the
index as it is asked for, and passes over the resolved incidents among them.

So it has the active incidents that were updated last, as many as it is asked for, exactly where
none of the keys it reads is of a resolved incident, or no active one stands behind them
(`listIncidents_iff`).
-/
import Mathlib
import ValidEmailVerifier.Fleet.Incidents
import ValidEmailVerifier.Lib.SortedSets

namespace ValidEmailVerifier.Fleet.Incidents

open SortedSets

/-! ## The index -/

/-- The records, and the index over them. -/
structure IncidentBook where
  store : IncidentStore := {}
  index : SortedSet Text := {}

namespace IncidentBook

/-- `saveIncident` has written the store; the index gets the key and the second. -/
def saved (b : IncidentBook) (now : Nat) (key : Text) (store : IncidentStore) : IncidentBook where
  store := store
  index := b.index.add key (now / second)

/-- The key under which the record that is saved for an incident is filed. -/
def recordKey (b : IncidentBook) (key : Text) : Text :=
  ((b.store.getIncident key).map (·.key)).getD key

def activateIncident (b : IncidentBook) (now : Nat) (key incidentType severity message : Text)
    (contextData : Context) : IncidentBook :=
  b.saved now (b.recordKey key)
    (b.store.activateIncident now key incidentType severity message contextData).2

def resolveIncident (b : IncidentBook) (now : Nat) (key message : Text) (contextData : Context) :
    IncidentBook :=
  match b.store.resolveIncident now key message contextData with
  | (some record, store) => b.saved now record.key store
  | (none, store) => { b with store := store }

/-- A call of the alert service: the condition of an incident holds, or no longer. -/
def sync (b : IncidentBook) (c : SyncCall) : IncidentBook :=
  if c.active then
    b.activateIncident c.now c.incidentKey c.incidentType c.severity c.message c.contextData
  else b.resolveIncident c.now c.incidentKey c.message c.contextData

def syncAll (b : IncidentBook) (calls : List SyncCall) : IncidentBook := calls.foldl sync b

/-- A limit that is not positive stands for a hundred. -/
def effectiveLimit (limit : Int) : Nat := if limit ≤ 0 then 100 else limit.toNat

def listIncidents (b : IncidentBook) (limit : Int) (includeResolved : Bool) :
    List IncidentRecord :=
  (b.index.revRange (effectiveLimit limit)).filterMap fun key =>
    match b.store.getIncident key with
    | some record =>
        if includeResolved = false ∧ record.status ≠ .active then none else some record
    | none => none

/-! ## What the index has -/

/-- The index has the keys of the records, with the seconds in which these were updated. -/
structure Indexed (b : IncidentBook) : Prop where
  sound : b.store.Sound
  named : ∀ e ∈ b.index.entries, e.1 ≠ []
  recorded : ∀ e ∈ b.index.entries, ∃ record,
    b.store.records e.1 = some record ∧ record.updatedAt = e.2 * second
  indexed : ∀ key record, b.store.records key = some record →
    ∃ score, (key, score) ∈ b.index.entries

variable {b : IncidentBook}

theorem Indexed.empty : Indexed {} where
  sound := ⟨nofun, fun _ => iff_of_false (Finset.notMem_empty _) Bool.false_ne_true⟩
  named _ h := absurd h List.not_mem_nil
  recorded _ h := absurd h List.not_mem_nil
  indexed := nofun

/-- Saving a record keeps it so. -/
theorem Indexed.saved (h : b.Indexed) {now : Nat} (record : IncidentRecord)
    (hkey : record.key ≠ []) (hupdated : record.updatedAt = formatRFC3339 now) :
    (b.saved now record.key (b.store.saveIncident record)).Indexed where
  sound := h.sound.saveIncident record
  named e he := by
    rcases SortedSet.mem_add.mp he with rfl | ⟨hold, -⟩
    · exact hkey
    · exact h.named e hold
  recorded e he := by
    rcases SortedSet.mem_add.mp he with rfl | ⟨hold, hne⟩
    · exact ⟨record, Function.update_self .., hupdated⟩
    · obtain ⟨r, hr, htime⟩ := h.recorded e hold
      exact ⟨r, (Function.update_of_ne hne ..).trans hr, htime⟩
  indexed key r hr := by
    by_cases hsame : key = record.key
    · exact ⟨now / second, SortedSet.mem_add.mpr (.inl (by rw [hsame]))⟩
    · have hold : b.store.records key = some r := (Function.update_of_ne hsame ..).symm.trans hr
      obtain ⟨score, hscore⟩ := h.indexed key r hold
      exact ⟨score, SortedSet.mem_add.mpr (.inr ⟨hscore, hsame⟩)⟩

theorem Indexed.activateIncident (h : b.Indexed) {key : Text} (hkey : key ≠ []) (now : Nat)
    (incidentType severity message : Text) (contextData : Context) :
    (b.activateIncident now key incidentType severity message contextData).Indexed := by
  have hget : b.store.getIncident key = b.store.records key := if_neg hkey
  rw [IncidentBook.activateIncident, recordKey, IncidentStore.activateIncident, hget]
  cases hrecord : b.store.records key with
  | none => exact h.saved { key := key, type := incidentType, severity := severity
                            status := .active, message := message
                            context := contextData, openedAt := formatRFC3339 now
                            updatedAt := formatRFC3339 now } hkey rfl
  | some existing =>
    have hfiled : existing.key ≠ [] := by
      rw [h.sound.filed key existing hrecord]
      exact hkey
    dsimp only
    split_ifs
    · exact h.saved { existing with
        message := message
        context := contextData
        severity := severity
        type := incidentType
        updatedAt := formatRFC3339 now } hfiled rfl
    · have hsame : existing.key = key := h.sound.filed key existing hrecord
      show (b.saved now existing.key _).Indexed
      rw [hsame]
      exact h.saved { key := key, type := incidentType, severity := severity
                      status := .active, message := message, context := contextData
                      openedAt := existing.openedAt
                      updatedAt := formatRFC3339 now } hkey rfl

theorem Indexed.resolveIncident (h : b.Indexed) {key : Text} (hkey : key ≠ []) (now : Nat)
    (message : Text) (contextData : Context) :
    (b.resolveIncident now key message contextData).Indexed := by
  have hget : b.store.getIncident key = b.store.records key := if_neg hkey
  rw [IncidentBook.resolveIncident, IncidentStore.resolveIncident, hget]
  cases hrecord : b.store.records key with
  | none => exact h
  | some existing =>
    dsimp only
    by_cases hactive : existing.status = .active
    · rw [if_pos hactive]
      have hfiled : existing.key ≠ [] := by
        rw [h.sound.filed key existing hrecord]
        exact hkey
      exact h.saved { existing with
        status := .resolved
        message := if message = [] then existing.message else message
        context := contextData
        updatedAt := formatRFC3339 now
        resolvedAt := some (formatRFC3339 now) } hfiled rfl
    · rw [if_neg hactive]
      exact h

theorem Indexed.sync (h : b.Indexed) (c : SyncCall) : (b.sync c).Indexed := by
  rw [IncidentBook.sync]
  split
  · exact h.activateIncident c.keyed ..
  · exact h.resolveIncident c.keyed ..

theorem Indexed.syncAll (h : b.Indexed) (calls : List SyncCall) : (b.syncAll calls).Indexed := by
  induction calls generalizing b with
  | nil => exact h
  | cons c calls ih => exact ih (h.sync c)

/-! ## The list -/

/-- The record is that of an incident, and the incident is active. -/
def Active (b : IncidentBook) (r : IncidentRecord) : Prop :=
  b.store.records r.key = some r ∧ r.status = .active

/-- The active incidents that were updated last, `n` of them or all there are, the latest
first. -/
structure MostRecent (b : IncidentBook) (n : Nat) (answer : List IncidentRecord) : Prop where
  active : ∀ r ∈ answer, b.Active r
  nodup : (answer.map (·.key)).Nodup
  length : answer.length = min n b.store.activeKeys.card
  sorted : answer.Pairwise fun r r' => r'.updatedAt ≤ r.updatedAt
  latest : ∀ r, b.Active r → r ∉ answer → ∀ r' ∈ answer, r.updatedAt ≤ r'.updatedAt

/-- What is listed for a key of the index. -/
def listed (b : IncidentBook) (key : Text) : Option IncidentRecord :=
  (b.store.records key).filter fun record => decide (record.status = .active)

theorem listed_eq_some_iff (h : b.Indexed) {key : Text} {r : IncidentRecord} :
    b.listed key = some r ↔ r.key = key ∧ b.Active r := by
  rw [listed, Option.filter_eq_some_iff, decide_eq_true_iff]
  constructor
  · rintro ⟨hr, hactive⟩
    have hkey := h.sound.filed key r hr
    exact ⟨hkey, by rw [hkey]; exact hr, hactive⟩
  · rintro ⟨rfl, hr, hactive⟩
    exact ⟨hr, hactive⟩

theorem isSome_listed (key : Text) : (b.listed key).isSome = b.store.isActive key := by
  rw [listed, IncidentStore.isActive]
  cases b.store.records key with
  | none => rfl
  | some record =>
    rw [Option.any_some, Option.filter_some]
    split
    · next h => rw [h]; rfl
    · next h => rw [Bool.eq_false_iff.mpr h]; rfl

/-- The list, read from the index. -/
theorem listIncidents_eq (h : b.Indexed) (limit : Int) :
    b.listIncidents limit false = (b.index.revRange (effectiveLimit limit)).filterMap b.listed := by
  refine List.filterMap_congr fun key hkey => ?_
  have hmem := (b.index.perm_revRange_append_beyond (effectiveLimit limit)).subset
    (List.mem_append_left _ hkey)
  obtain ⟨e, he, rfl⟩ := List.mem_map.mp hmem
  rw [IncidentStore.getIncident, if_neg (h.named e he), listed]
  cases b.store.records e.1 with
  | none => rfl
  | some record =>
    by_cases hactive : record.status = .active
    · simp [hactive, Option.filter_some]
    · simp [hactive, Option.filter_some]

theorem map_key_filterMap_listed (h : b.Indexed) (keys : List Text) :
    (keys.filterMap b.listed).map (·.key) = keys.filter b.store.isActive := by
  induction keys with
  | nil => rfl
  | cons key keys ih =>
    have hactive := isSome_listed (b := b) key
    cases hlisted : b.listed key with
    | none =>
      rw [hlisted] at hactive
      rw [List.filterMap_cons_none hlisted, ih, List.filter_cons_of_neg]
      rw [← hactive]
      exact Bool.false_ne_true
    | some r =>
      rw [hlisted] at hactive
      rw [List.filterMap_cons_some hlisted, List.map_cons, ih,
        List.filter_cons_of_pos hactive.symm, ((listed_eq_some_iff h).mp hlisted).1]

/-- The active incidents are as many as the keys of the index that are of one. -/
theorem card_activeKeys (h : b.Indexed) :
    ((b.index.entries.map Prod.fst).filter b.store.isActive).length =
      b.store.activeKeys.card := by
  have hset : ((b.index.entries.map Prod.fst).filter b.store.isActive).toFinset =
      b.store.activeKeys := by
    ext key
    rw [List.mem_toFinset, List.mem_filter, h.sound.listed, and_iff_right_iff_imp]
    intro hactive
    rw [IncidentStore.isActive, Option.any_eq_true] at hactive
    obtain ⟨record, hrecord, -⟩ := hactive
    obtain ⟨score, hscore⟩ := h.indexed key record hrecord
    exact List.mem_map_of_mem hscore
  rw [← hset, List.toFinset_card_of_nodup (b.index.nodup.filter _)]

/-- What is listed is in order, and nothing active that is left out was updated later. -/
theorem mostRecent_iff_length (h : b.Indexed) (limit : Int) :
    b.MostRecent (effectiveLimit limit) (b.listIncidents limit false) ↔
      (b.listIncidents limit false).length =
        min (effectiveLimit limit) b.store.activeKeys.card := by
  refine ⟨fun hrecent => hrecent.length, fun hlength => ?_⟩
  have hupdated : ∀ e ∈ b.index.entries, ∀ r, b.listed e.1 = some r →
      r.updatedAt = e.2 * second := by
    intro e he r hr
    obtain ⟨record, hrecord, htime⟩ := h.recorded e he
    obtain ⟨hkey, hstored, -⟩ := (listed_eq_some_iff h).mp hr
    rw [hkey, hrecord] at hstored
    rw [← Option.some.inj hstored]
    exact htime
  have hperm := List.perm_insertionSort Before b.index.entries
  have hpair := b.index.pairwise_entries
  have hsplit := List.take_append_drop (effectiveLimit limit)
    (b.index.entries.insertionSort Before)
  have hmem : ∀ e ∈ (b.index.entries.insertionSort Before).take (effectiveLimit limit),
      e ∈ b.index.entries := fun e he => hperm.mem_iff.mp (List.mem_of_mem_take he)
  rw [listIncidents_eq h] at hlength ⊢
  refine ⟨?_, ?_, hlength, ?_, ?_⟩
  · intro r hr
    obtain ⟨key, -, hkey⟩ := List.mem_filterMap.mp hr
    exact ((listed_eq_some_iff h).mp hkey).2
  · rw [map_key_filterMap_listed h]
    exact (b.index.nodup_revRange (effectiveLimit limit)).filter _
  · rw [List.pairwise_filterMap, SortedSet.revRange, List.pairwise_map]
    refine List.Pairwise.imp_of_mem ?_
      (hpair.sublist (List.take_sublist (effectiveLimit limit) _))
    intro e e' he he' hle r hr r' hr'
    rw [hupdated e (hmem e he) r hr, hupdated e' (hmem e' he') r' hr']
    exact Nat.mul_le_mul_right _ hle
  · intro r hactive hout r' hr'
    obtain ⟨score, hscore⟩ := h.indexed r.key r hactive.1
    have hlisted : b.listed r.key = some r := (listed_eq_some_iff h).mpr ⟨rfl, hactive⟩
    obtain ⟨key', hkey', hlisted'⟩ := List.mem_filterMap.mp hr'
    obtain ⟨e', he', rfl⟩ := List.mem_map.mp hkey'
    have hdrop : (r.key, score) ∈
        (b.index.entries.insertionSort Before).drop (effectiveLimit limit) := by
      have hin := hperm.mem_iff.mpr hscore
      rw [← hsplit] at hin
      refine (List.mem_append.mp hin).resolve_left fun htake => hout ?_
      exact List.mem_filterMap.mpr ⟨r.key, List.mem_map_of_mem htake, hlisted⟩
    rw [← hsplit] at hpair
    have hle := (List.pairwise_append.mp hpair).2.2 e' he' (r.key, score) hdrop
    rw [hupdated e' (hmem e' he') r' hlisted', hupdated (r.key, score) hscore r hlisted]
    exact Nat.mul_le_mul_right _ hle

/-- **The active incidents that were updated last are listed, as many as are asked for, exactly
where no resolved incident is among the keys that are read, or no active one behind them.** -/
theorem listIncidents_iff (calls : List SyncCall) (limit : Int) :
    (syncAll {} calls).MostRecent (effectiveLimit limit)
        ((syncAll {} calls).listIncidents limit false) ↔
      (∀ key ∈ (syncAll {} calls).index.revRange (effectiveLimit limit),
        (syncAll {} calls).store.isActive key = true) ∨
      ∀ key ∈ (syncAll {} calls).index.beyond (effectiveLimit limit),
        (syncAll {} calls).store.isActive key = false := by
  have h : (syncAll {} calls).Indexed := Indexed.empty.syncAll calls
  rw [mostRecent_iff_length h, listIncidents_eq h, ← List.length_map (·.key),
    map_key_filterMap_listed h, ← card_activeKeys h]
  exact SortedSet.length_filter_revRange_iff ..

/-- A worker that is, or is no longer, offline. -/
def workerCall (atSecond : Nat) (workerID : Text) (active : Bool) : SyncCall where
  now := atSecond * second
  settings := {}
  incidentKey := incidentStateKey "worker_offline".toList workerID
  incidentType := "worker_offline".toList
  severity := "critical".toList
  message := "Worker heartbeat missing".toList
  active := active
  contextData := fun _ => none
  keyed := incidentStateKey_ne_nil _ _

/-- One worker stays offline, and another is offline for a while. -/
def offlineCalls : List SyncCall :=
  [workerCall 30 "w1".toList true, workerCall 60 "w2".toList true, workerCall 90 "w2".toList false]

/-- The one that is offline is not listed. -/
theorem active_not_listed :
    (syncAll {} offlineCalls).store.activeKeys = {"worker_offline:w1".toList} ∧
      (syncAll {} offlineCalls).listIncidents 1 false = [] ∧
      ¬ (syncAll {} offlineCalls).MostRecent (effectiveLimit 1)
        ((syncAll {} offlineCalls).listIncidents 1 false) := by
  have hactive : (syncAll {} offlineCalls).store.activeKeys = {"worker_offline:w1".toList} := by
    decide
  have hlisted : ((syncAll {} offlineCalls).listIncidents 1 false).length = 0 := by
    decide
  refine ⟨hactive, List.length_eq_zero_iff.mp hlisted, fun hrecent => ?_⟩
  have hlength := hrecent.length
  rw [hlisted, hactive, Finset.card_singleton] at hlength
  exact absurd hlength (by decide)

end IncidentBook

end ValidEmailVerifier.Fleet.Incidents
