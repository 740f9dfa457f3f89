/-
# `Queues.IncidentTracker` — the incidents behind the reports of queue health

`sync` looks the unresolved incidents up by their key once, and then goes through the issues of
a report: an issue with an incident updates it, any other creates one.  What is unresolved and
was not reported is then resolved.

A key that stands twice in a report is not looked up again, so an issue that is new and
repeated gets two incidents.  One that is open already keeps the incident it has.  Over a run
of reports there is one incident for each reported key, always the same, exactly if a key that
a report repeats was in the report before (`tracked_iff`).
-/
import Mathlib.Data.List.Count
import ValidEmailVerifier.Lib.Text
import ValidEmailVerifier.Pipeline.Schema

namespace ValidEmailVerifier.QueueIncidentTracker

/-! ## The report and the table -/

/-- An issue as it stands in the report; what is missing or null is `none`. -/
structure RawIssue where
  key : Option Text := none
  severity : Option Text := none
  title : Option Text := none
  detail : Option Text := none
  lane : Option Text := none
  deriving DecidableEq, Repr

/-- The entries of `issues`.  An entry that is no array is `none`. -/
abbrev Report := List (Option RawIssue)

structure Issue where
  key : Text
  severity : Text
  title : Text
  detail : Text
  lane : Option Text
  deriving DecidableEq, Repr

/-- `filled($value)`: neither null nor blank. -/
def filled (value : Option Text) : Bool := value.any fun s => Text.trim s != []

/-- The issues that have a key. -/
def issuesOf (report : Report) : List Issue :=
  report.filterMap fun entry => entry.bind fun issue =>
    if filled issue.key then
      some
        { key := issue.key.getD []
          severity := Text.strtolower (issue.severity.getD "warning".toList)
          title := issue.title.getD "Queue incident".toList
          detail := issue.detail.getD []
          lane := issue.lane }
    else none

def keysOf (report : Report) : List Text := (issuesOf report).map Issue.key

inductive Status where
  | detected | resolved
  deriving DecidableEq, Repr

structure QueueIncident where
  id : Nat
  issueKey : Text
  severity : Text
  status : Status
  lane : Option Text
  title : Text
  detail : Text
  firstDetectedAt : Nat
  lastDetectedAt : Nat
  resolvedAt : Option Nat
  metadata : Option (List (Text × Text))
  deriving DecidableEq, Repr

/-- The incidents, in the order of their ids, and the next id. -/
structure Table where
  rows : List QueueIncident := []
  nextId : Nat := 1

def QueueIncident.unresolved (row : QueueIncident) : Bool := row.resolvedAt.isNone

/-- `array_merge($meta, $extra)`, with one key. -/
def mergeMeta (existing : Option (List (Text × Text))) (key value : Text) :
    List (Text × Text) :=
  let entries := existing.getD []
  if entries.any (·.1 == key) then
    entries.map fun entry => if entry.1 = key then (key, value) else entry
  else entries ++ [(key, value)]

/-! ## The synchronisation -/

/-- The unresolved incidents by their key: of several with one key the last is kept. -/
def activeByKey (t : Table) (key : Text) : Option QueueIncident :=
  (t.rows.filter QueueIncident.unresolved).reverse.find? fun row => row.issueKey = key

/-- The row of an incident is written. -/
def Table.update (t : Table) (id : Nat) (f : QueueIncident → QueueIncident) : Table :=
  { t with rows := t.rows.map fun row => if row.id = id then f row else row }

def Table.create (t : Table) (now : Nat) (issue : Issue) : Table where
  rows := t.rows ++
    [{ id := t.nextId
       issueKey := issue.key
       severity := issue.severity
       status := .detected
       lane := issue.lane
       title := issue.title
       detail := issue.detail
       firstDetectedAt := now
       lastDetectedAt := now
       resolvedAt := none
       metadata := some [("source".toList, "ops:queue-health".toList)] }]
  nextId := t.nextId + 1

/-- One issue of the report. -/
def detect (now : Nat) (active : Text → Option QueueIncident) (t : Table) (issue : Issue) :
    Table :=
  match active issue.key with
  | some existing =>
      t.update existing.id fun row =>
        { row with
          severity := issue.severity
          title := issue.title
          detail := issue.detail
          lane := issue.lane
          lastDetectedAt := now
          metadata := some (mergeMeta existing.metadata "updated_by".toList
            "ops:queue-health".toList) }
  | none => t.create now issue

/-- What is unresolved is resolved, except for the keys that were seen. -/
def Table.resolve (t : Table) (now : Nat) (seenKeys : List Text) : Table :=
  { t with
    rows := t.rows.map fun row =>
      if row.unresolved ∧ (seenKeys = [] ∨ row.issueKey ∉ seenKeys) then
        { row with status := .resolved, resolvedAt := some now, lastDetectedAt := now }
      else row }

def sync (t : Table) (now : Nat) (report : Report) : Table :=
  let issues := issuesOf report
  let detected := issues.foldl (detect now (activeByKey t)) t
  if t.rows.filter QueueIncident.unresolved = [] then detected
  else detected.resolve now (issues.map Issue.key)

/-- Reports, each with the time it is synchronised at. -/
def run (reports : List (Nat × Report)) : Table :=
  reports.foldl (fun t r => sync t r.1 r.2) {}

/-! ## The unresolved incidents of a key -/

/-- The ids of the unresolved incidents of a key. -/
def openIds (t : Table) (key : Text) : List Nat :=
  (t.rows.filter fun row => row.unresolved && row.issueKey == key).map QueueIncident.id

variable {t : Table} {now : Nat} {key : Text}

theorem activeByKey_eq_none_iff : activeByKey t key = none ↔ openIds t key = [] := by
  rw [activeByKey, List.find?_eq_none, openIds, List.map_eq_nil_iff, List.filter_eq_nil_iff]
  constructor
  · intro h row hrow
    simp only [Bool.and_eq_true, beq_iff_eq, not_and]
    intro hopen hkey
    exact h row (List.mem_reverse.mpr (List.mem_filter.mpr ⟨hrow, hopen⟩)) (by simpa using hkey)
  · intro h row hrow hkey
    obtain ⟨hmem, hopen⟩ := List.mem_filter.mp (List.mem_reverse.mp hrow)
    exact h row hmem (by simpa [hopen] using hkey)

/-- A write that leaves the ids, the keys and the resolutions alone leaves the open
incidents. -/
theorem openIds_update {id : Nat} {f : QueueIncident → QueueIncident}
    (hf : ∀ row, (f row).id = row.id ∧ (f row).issueKey = row.issueKey ∧
      (f row).resolvedAt = row.resolvedAt) : openIds (t.update id f) key = openIds t key := by
  rw [openIds, openIds, Table.update, List.filter_map, List.map_map]
  have hsame : ∀ row : QueueIncident,
      (if row.id = id then f row else row).id = row.id ∧
        (if row.id = id then f row else row).issueKey = row.issueKey ∧
        (if row.id = id then f row else row).resolvedAt = row.resolvedAt := by
    intro row
    split
    · exact hf row
    · exact ⟨rfl, rfl, rfl⟩
  have hfilter : ((fun row : QueueIncident => row.unresolved && row.issueKey == key) ∘
      fun row => if row.id = id then f row else row) =
      fun row => row.unresolved && row.issueKey == key := by
    funext row
    simp only [Function.comp, QueueIncident.unresolved, (hsame row).2.1, (hsame row).2.2]
  rw [hfilter]
  exact List.map_congr_left fun row _ => (hsame row).1

theorem openIds_create {issue : Issue} : openIds (t.create now issue) key =
    if issue.key = key then openIds t key ++ [t.nextId] else openIds t key := by
  rw [openIds, openIds, Table.create, List.filter_append, List.map_append]
  by_cases hkey : issue.key = key
  · simp [hkey, QueueIncident.unresolved]
  · simp [hkey, QueueIncident.unresolved]

theorem openIds_resolve {seenKeys : List Text} : openIds (t.resolve now seenKeys) key =
    if key ∈ seenKeys then openIds t key else [] := by
  rw [openIds, Table.resolve, List.filter_map, List.map_map]
  by_cases hseen : key ∈ seenKeys
  · rw [if_pos hseen, openIds]
    have hfilter : ∀ row : QueueIncident, row.unresolved ∧ row.issueKey = key →
        ¬ (row.unresolved ∧ (seenKeys = [] ∨ row.issueKey ∉ seenKeys)) := by
      rintro row ⟨-, rfl⟩ ⟨-, hnil | hnot⟩
      · rw [hnil] at hseen
        exact List.not_mem_nil hseen
      · exact hnot hseen
    have hids : ∀ row : QueueIncident, (if row.unresolved ∧
        (seenKeys = [] ∨ row.issueKey ∉ seenKeys) then
          { row with status := .resolved, resolvedAt := some now, lastDetectedAt := now }
        else row).id = row.id := by
      intro row
      split <;> rfl
    rw [show (QueueIncident.id ∘ fun row : QueueIncident => _) = QueueIncident.id from
      funext hids]
    congr 1
    refine List.filter_congr fun row _ => ?_
    rw [Function.comp_apply]
    split
    · next hresolved =>
      have hnot : (row.unresolved && row.issueKey == key) = false := by
        rw [Bool.and_eq_false_imp]
        intro hopen
        refine beq_eq_false_iff_ne.mpr fun hkey => ?_
        exact hfilter row ⟨hopen, hkey⟩ hresolved
      rw [hnot]
      rfl
    · rfl
  · rw [if_neg hseen, List.map_eq_nil_iff, List.filter_eq_nil_iff]
    intro row _
    rw [Function.comp_apply]
    split
    · exact Bool.false_ne_true
    · next hleft =>
      intro hrow
      obtain ⟨hopen, hkey⟩ := Bool.and_eq_true_iff.mp hrow
      exact hleft ⟨hopen, .inr (beq_iff_eq.mp hkey ▸ hseen)⟩

/-! ## One synchronisation -/

/-- An issue adds an incident to those of its key, or none to any. -/
theorem openIds_detect {active : Text → Option QueueIncident} {issue : Issue} :
    openIds (detect now active t issue) key =
      if active issue.key = none ∧ issue.key = key then openIds t key ++ [t.nextId]
      else openIds t key := by
  rw [detect]
  cases hactive : active issue.key with
  | none =>
    rw [openIds_create]
    simp
  | some existing =>
    rw [if_neg fun h => Option.some_ne_none _ h.1]
    exact openIds_update fun row => ⟨rfl, rfl, rfl⟩

theorem openIds_foldl_of_active {active : Text → Option QueueIncident} (issues : List Issue)
    (h : active key ≠ none) :
    openIds (issues.foldl (detect now active) t) key = openIds t key := by
  induction issues generalizing t with
  | nil => rfl
  | cons issue issues ih =>
    rw [List.foldl_cons, ih, openIds_detect, if_neg]
    rintro ⟨hnone, rfl⟩
    exact h hnone

theorem length_openIds_foldl {active : Text → Option QueueIncident} (issues : List Issue)
    (h : active key = none) :
    (openIds (issues.foldl (detect now active) t) key).length =
      (openIds t key).length + (issues.map Issue.key).count key := by
  induction issues generalizing t with
  | nil => rfl
  | cons issue issues ih =>
    rw [List.foldl_cons, ih, openIds_detect, List.map_cons, List.count_cons]
    by_cases hkey : issue.key = key
    · rw [if_pos ⟨hkey ▸ h, hkey⟩, List.length_append, if_pos (beq_iff_eq.mpr hkey)]
      simp only [List.length_singleton]
      omega
    · rw [if_neg fun hboth => hkey hboth.2, if_neg fun hbeq => hkey (beq_iff_eq.mp hbeq)]
      rfl

/-- What the loop leaves open is kept for the keys that were seen, and resolved for the
others. -/
theorem openIds_sync (report : Report) : openIds (sync t now report) key =
    if key ∈ keysOf report then
      openIds ((issuesOf report).foldl (detect now (activeByKey t)) t) key
    else [] := by
  rw [sync]
  split
  · next hnone =>
    by_cases hkey : key ∈ keysOf report
    · rw [if_pos hkey]
    · have hopen : openIds t key = [] := by
        rw [openIds, List.map_eq_nil_iff, List.filter_eq_nil_iff]
        intro row hrow hopen
        exact List.filter_eq_nil_iff.mp hnone row hrow (Bool.and_eq_true_iff.mp hopen).1
      rw [if_neg hkey, ← List.length_eq_zero_iff,
        length_openIds_foldl _ (activeByKey_eq_none_iff.mpr hopen), hopen, List.length_nil,
        Nat.zero_add]
      exact List.count_eq_zero.mpr hkey
  · exact openIds_resolve

theorem openIds_sync_of_absent {report : Report} (h : key ∉ keysOf report) :
    openIds (sync t now report) key = [] := by
  rw [openIds_sync, if_neg h]

theorem openIds_sync_of_open {report : Report} (h : key ∈ keysOf report)
    (hopen : openIds t key ≠ []) : openIds (sync t now report) key = openIds t key := by
  rw [openIds_sync, if_pos h]
  exact openIds_foldl_of_active _ (mt activeByKey_eq_none_iff.mp hopen)

/-- A key that had no incident gets one for each time it is reported. -/
theorem length_openIds_sync_of_new {report : Report} (hnew : openIds t key = []) :
    (openIds (sync t now report) key).length = (keysOf report).count key := by
  by_cases h : key ∈ keysOf report
  · rw [openIds_sync, if_pos h, length_openIds_foldl _ (activeByKey_eq_none_iff.mpr hnew), hnew,
      List.length_nil, Nat.zero_add]
    rfl
  · rw [openIds_sync_of_absent h, List.count_eq_zero.mpr h]
    rfl

/-! ## A run of reports -/

/-- The keys of the last report of a run. -/
def lastKeys (reports : List (Nat × Report)) : List Text :=
  (reports.getLast?.map fun r => keysOf r.2).getD []

theorem lastKeys_append (reports : List (Nat × Report)) (r : Nat × Report) :
    lastKeys (reports ++ [r]) = keysOf r.2 := by
  rw [lastKeys, List.getLast?_append_of_ne_nil _ (List.cons_ne_nil r [])]
  rfl

theorem run_append (reports : List (Nat × Report)) (r : Nat × Report) :
    run (reports ++ [r]) = sync (run reports) r.1 r.2 := by
  rw [run, List.foldl_append]
  rfl

/-- After each report there is exactly one unresolved incident for each of its keys and none for
any other, and it is the one from before if the key was in the report before. -/
structure Tracked (reports : List (Nat × Report)) : Prop where
  exact : ∀ earlier r, earlier ++ [r] <+: reports → ∀ key,
    (openIds (run (earlier ++ [r])) key).length = if key ∈ keysOf r.2 then 1 else 0
  same : ∀ earlier r, earlier ++ [r] <+: reports → ∀ key ∈ keysOf r.2, key ∈ lastKeys earlier →
    openIds (run (earlier ++ [r])) key = openIds (run earlier) key

/-- A key that a report repeats was in the report before. -/
def RepeatsOnlyKnown (reports : List (Nat × Report)) : Prop :=
  ∀ earlier r, earlier ++ [r] <+: reports → ∀ key, 1 < (keysOf r.2).count key →
    key ∈ lastKeys earlier

/-- One report more. -/
theorem length_openIds_step {earlier : List (Nat × Report)} {r : Nat × Report}
    (hbefore : ∀ key, (openIds (run earlier) key).length = if key ∈ lastKeys earlier then 1 else 0)
    (hknown : ∀ key, 1 < (keysOf r.2).count key → key ∈ lastKeys earlier) (key : Text) :
    (openIds (run (earlier ++ [r])) key).length = if key ∈ keysOf r.2 then 1 else 0 := by
  rw [run_append]
  by_cases hkey : key ∈ keysOf r.2
  · rw [if_pos hkey]
    by_cases hlast : key ∈ lastKeys earlier
    · have hone := hbefore key
      rw [if_pos hlast] at hone
      have hopen : openIds (run earlier) key ≠ [] := by
        intro hnil
        rw [hnil] at hone
        exact Nat.zero_ne_one hone
      rw [openIds_sync_of_open hkey hopen, hone]
    · have hnone := hbefore key
      rw [if_neg hlast] at hnone
      rw [length_openIds_sync_of_new (List.length_eq_zero_iff.mp hnone)]
      have hmany := mt (hknown key) hlast
      have hpos := List.count_pos_iff.mpr hkey
      omega
  · rw [if_neg hkey, openIds_sync_of_absent hkey]
    rfl

theorem length_openIds_run {reports : List (Nat × Report)} (h : RepeatsOnlyKnown reports)
    (key : Text) :
    (openIds (run reports) key).length = if key ∈ lastKeys reports then 1 else 0 := by
  induction reports using List.reverseRecOn generalizing key with
  | nil => rfl
  | append_singleton earlier r ih =>
    rw [lastKeys_append]
    refine length_openIds_step (ih fun before r' hrun => ?_) (h earlier r (List.prefix_refl _))
      key
    exact h before r' (hrun.trans (List.prefix_append _ _))

theorem RepeatsOnlyKnown.of_prefix {earlier reports : List (Nat × Report)}
    (h : RepeatsOnlyKnown reports) (hrun : earlier <+: reports) : RepeatsOnlyKnown earlier :=
  fun before r hbefore => h before r (hbefore.trans hrun)

/-- **The incidents follow the reports** exactly if no report repeats a key that is new. -/
theorem tracked_iff (reports : List (Nat × Report)) :
    Tracked reports ↔ RepeatsOnlyKnown reports := by
  constructor
  · intro h earlier r hrun key hmany
    by_contra hlast
    have hbefore : openIds (run earlier) key = [] := by
      cases earlier using List.reverseRecOn with
      | nil => rfl
      | append_singleton before last =>
        rw [lastKeys_append] at hlast
        have hzero := h.exact before last ((List.prefix_append _ _).trans hrun) key
        rw [if_neg hlast] at hzero
        exact List.length_eq_zero_iff.mp hzero
    have hcount := h.exact earlier r hrun key
    rw [run_append, length_openIds_sync_of_new hbefore] at hcount
    split at hcount <;> omega
  · intro h
    refine ⟨fun earlier r hrun key => ?_, fun earlier r hrun key hkey hlast => ?_⟩
    · have hlength := length_openIds_run (h.of_prefix hrun) key
      rwa [lastKeys_append] at hlength
    · have hearlier := (List.prefix_append earlier [r]).trans hrun
      have hone := length_openIds_run (h.of_prefix hearlier) key
      rw [if_pos hlast] at hone
      rw [run_append]
      refine openIds_sync_of_open hkey fun hnil => ?_
      rw [hnil] at hone
      exact Nat.zero_ne_one hone

/-- Two lanes that share a queue, both too deep. -/
def sharedQueue : List (Nat × Report) :=
  [(0, [some { key := some "lane_depth:redis:default".toList, lane := some "default".toList },
    some { key := some "lane_depth:redis:default".toList, lane := some "prepare".toList }])]

theorem tracked_fails : ¬ ∀ reports, Tracked reports := by
  intro h
  have hone := (h sharedQueue).exact [] _ (List.prefix_refl _) "lane_depth:redis:default".toList
  exact absurd hone (by decide)

end ValidEmailVerifier.QueueIncidentTracker
