/-
# `Queues.HealthNotifier` — the alerts of queue health

A report of queue health is a list of issues.  `notify` remembers in the cache which keys the
report before had, and for each of them a state with the time of its last alert.  A key without
a state is new; one with a state is reminded of when the cooldown has passed; one that was
active and is not reported any more has recovered, and its state is forgotten.

The two records are written at different points of a call and live for a day from then on.
With calls less than a day apart they say the same after every call: a key has a state exactly if
it was in the last report, and the state has the time of the last alert (`Follows`).  So the
alerts of a run are those of the reports (`alerts_of_reports`).
-/
import Mathlib.Data.List.Chain
import Mathlib.Data.List.Nodup
import ValidEmailVerifier.Lib.ExpiringKeys
import ValidEmailVerifier.Queues.IncidentTracker

namespace ValidEmailVerifier.QueueHealthNotifier

open Text ExpiringKeys
open QueueIncidentTracker (RawIssue)

/-! ## The report, the cache and the alerts -/

/-- A report; what is missing or null is `none`, and so is an entry that is no array. -/
structure Report where
  status : Option Text := none
  checkedAt : Option Text := none
  issues : List (Option RawIssue) := []

/-- The state of an issue, as it stands in the cache. -/
structure IssueState where
  key : Text
  severity : Text
  title : Text
  detail : Text
  lane : Option Text
  firstSeenAt : Text
  lastSeenAt : Text
  lastAlertedAt : Text

/-- The keys of the cache, without the prefix: `:active` and `:issue:` with a hash. -/
inductive StoreKey where
  | active
  | issue (sha1 : Text)
  deriving DecidableEq

abbrev StoreKey.Value : StoreKey → Type
  | .active => List Text
  | .issue _ => IssueState

abbrev Store := Keys StoreKey StoreKey.Value

/-- The setting, the hash, and the two directions of a time. -/
structure Env where
  cooldownSeconds : Int
  sha1 : Text → Text
  toIso8601String : Nat → Text
  parse : Text → Option Int

def Env.cooldown (env : Env) : Int := max 0 env.cooldownSeconds

inductive Event where
  | new | reminder | recovery
  deriving DecidableEq, Repr

/-- An alert that is sent. -/
structure Alert where
  event : Event
  key : Text
  subject : Text
  message : Text
  escalated : Bool
  deriving DecidableEq, Repr

/-! ## The messages -/

def strtoupper (s : Text) : Text := s.map Char.toUpper

def implode (lines : List Text) : Text := List.intercalate ['\n'] lines

/-- `formatIncidentMessage`; the event as it is written. -/
def formatIncidentMessage (env : Env) (now : Nat) (issue : RawIssue) (report : Report)
    (event : Text) : Text :=
  implode
    ["Queue health incident detected.".toList,
      "Event: ".toList ++ strtoupper event,
      "Severity: ".toList ++ strtoupper (issue.severity.getD "warning".toList),
      "Issue key: ".toList ++ issue.key.getD "-".toList,
      "Title: ".toList ++ issue.title.getD "-".toList,
      "Lane: ".toList ++ issue.lane.getD "-".toList,
      "Detail: ".toList ++ issue.detail.getD "-".toList,
      "Overall status: ".toList ++ strtoupper (report.status.getD "unknown".toList),
      "Checked at: ".toList ++ report.checkedAt.getD (env.toIso8601String now)]

def sendIncidentAlert (env : Env) (now : Nat) (issueKey : Text) (issue : RawIssue)
    (report : Report) (isNew : Bool) : Alert where
  event := if isNew then .new else .reminder
  key := issueKey
  subject := "[Queue Health][".toList ++ strtoupper (issue.severity.getD "warning".toList) ++
    "] ".toList ++ issue.title.getD "Queue incident".toList
  message := formatIncidentMessage env now issue report
    (if isNew then "new".toList else "reminder".toList)
  escalated := strtolower (issue.severity.getD "warning".toList) = "critical".toList

def sendRecoveryAlert (env : Env) (now : Nat) (issueKey : Text) (state : Option IssueState)
    (report : Report) : Alert where
  event := .recovery
  key := issueKey
  subject := "[Queue Health][RECOVERED] ".toList ++ (state.map IssueState.title).getD issueKey
  message := implode
    ["Queue health incident resolved.".toList,
      "Issue key: ".toList ++ issueKey,
      "Last known detail: ".toList ++ (state.map IssueState.detail).getD "-".toList,
      "Recovered at: ".toList ++ report.checkedAt.getD (env.toIso8601String now)]
  escalated := false

/-! ## One call -/

/-- `mapWithKeys`: of several issues with one key the last stands, at the place of the first. -/
def putIssue (issues : List (Text × RawIssue)) (issue : Text × RawIssue) :
    List (Text × RawIssue) :=
  if issues.any (·.1 == issue.1) then
    issues.map fun old => if old.1 = issue.1 then issue else old
  else issues ++ [issue]

def currentIssues (report : Report) : List (Text × RawIssue) :=
  (report.issues.filterMap fun entry => entry.bind fun issue =>
    if QueueIncidentTracker.filled issue.key then some (issue.key.getD [], issue)
    else none).foldl putIssue []

def keysOf (report : Report) : List Text := (currentIssues report).map Prod.fst

/-- `activeIssueKeys`; an empty text and `0` are dropped. -/
def activeIssueKeys (store : Store) (now : Nat) : List Text :=
  (((store.get now .active).getD ([] : List Text)).map trim).filter fun key =>
    key != [] && key != "0".toList

abbrev Env.issueStateKey (env : Env) (issueKey : Text) : StoreKey := .issue (env.sha1 issueKey)

/-- The state of an issue, if there is one. -/
def Env.state (env : Env) (store : Store) (now : Nat) (issueKey : Text) : Option IssueState :=
  store.get now (env.issueStateKey issueKey)

def safeParseTime (env : Env) (value : Option Text) : Option Int :=
  value.bind fun text => if trim text = [] then none else env.parse text

/-- `$elapsedSeconds` since the last alert. -/
def elapsedSeconds (env : Env) (now : Nat) (state : Option IssueState) : Option Int :=
  (safeParseTime env (state.map IssueState.lastAlertedAt)).map fun last => now - last

def shouldAlert (env : Env) (now : Nat) (state : Option IssueState) : Bool :=
  state.isNone || (elapsedSeconds env now state).isNone ||
    (elapsedSeconds env now state).any (env.cooldown ≤ ·)

def nextState (env : Env) (now : Nat) (issueKey : Text) (issue : RawIssue)
    (state : Option IssueState) : IssueState where
  key := issueKey
  severity := issue.severity.getD "warning".toList
  title := issue.title.getD "Queue incident".toList
  detail := issue.detail.getD []
  lane := issue.lane
  firstSeenAt := (state.map IssueState.firstSeenAt).getD (env.toIso8601String now)
  lastSeenAt := env.toIso8601String now
  lastAlertedAt :=
    if shouldAlert env now state then env.toIso8601String now
    else (state.map IssueState.lastAlertedAt).getD []

/-- `now()->addDay()`. -/
def addDay (now : Nat) : Nat := now + 86400

/-- The cache, what was sent, and `$nextActiveKeys`. -/
structure Loop where
  store : Store
  alerts : List Alert := []
  nextActiveKeys : List Text := []

/-- One issue of the report. -/
def visit (env : Env) (now : Nat) (report : Report) (l : Loop) (issue : Text × RawIssue) : Loop :=
  let state := env.state l.store now issue.1
  { store := l.store.set (env.issueStateKey issue.1) (nextState env now issue.1 issue.2 state)
      (some (addDay now))
    alerts :=
      if shouldAlert env now state then
        l.alerts ++ [sendIncidentAlert env now issue.1 issue.2 report state.isNone]
      else l.alerts
    nextActiveKeys := l.nextActiveKeys ++ [issue.1] }

/-- One key that is not reported any more. -/
def recover (env : Env) (now : Nat) (report : Report) (l : Loop) (resolvedKey : Text) : Loop :=
  { l with
    store := l.store.del [env.issueStateKey resolvedKey]
    alerts := l.alerts ++
      [sendRecoveryAlert env now resolvedKey (env.state l.store now resolvedKey) report] }

/-- `notify`: the cache after it, and what it sent. -/
def notify (env : Env) (store : Store) (now : Nat) (report : Report) : Store × List Alert :=
  let activeKeys := activeIssueKeys store now
  let visited := (currentIssues report).foldl (visit env now report) { store := store }
  let resolvedKeys := activeKeys.filter fun key => key ∉ visited.nextActiveKeys
  let recovered := resolvedKeys.foldl (recover env now report) visited
  (recovered.store.set .active recovered.nextActiveKeys.eraseDups (some (addDay now)),
    recovered.alerts)

/-! ## A run -/

/-- Calls, each with its time. -/
abbrev Calls := List (Nat × Report)

/-- The calls, each with what it sent. -/
abbrev Trace := List (Nat × List Alert)

def run (env : Env) (calls : Calls) : Store × Trace :=
  calls.foldl (fun s call =>
    ((notify env s.1 call.1 call.2).1, s.2 ++ [(call.1, (notify env s.1 call.1 call.2).2)]))
    (Keys.empty, [])

/-- What a call sends that comes after others. -/
def alertsAt (env : Env) (earlier : Calls) (call : Nat × Report) : List Alert :=
  (notify env (run env earlier).1 call.1 call.2).2

def sent (alerts : List Alert) (event : Event) (key : Text) : Nat :=
  alerts.countP fun alert => alert.event = event ∧ alert.key = key

/-- When a key was last alerted about. -/
def lastAlert (trace : Trace) (key : Text) : Option Nat :=
  ((trace.filter fun call => 0 < sent call.2 .new key + sent call.2 .reminder key).getLast?).map
    Prod.fst

/-- The keys of the last report. -/
def lastKeys (calls : Calls) : List Text := (calls.getLast?.map fun call => keysOf call.2).getD []

def issueKeys (calls : Calls) : List Text := calls.flatMap fun call => keysOf call.2

/-- What the alerts of a run are to be: for each key one that it is new when it is and was not
in the report before, one that it has recovered when it was and is not, and a reminder when it is
and was and the cooldown has passed since the last alert. -/
structure Alerted (env : Env) (calls : Calls) : Prop where
  new : ∀ earlier call, earlier ++ [call] <+: calls → ∀ key ∈ issueKeys calls,
    sent (alertsAt env earlier call) .new key =
      if key ∈ keysOf call.2 ∧ key ∉ lastKeys earlier then 1 else 0
  reminder : ∀ earlier call, earlier ++ [call] <+: calls → ∀ key ∈ issueKeys calls,
    sent (alertsAt env earlier call) .reminder key =
      if key ∈ keysOf call.2 ∧ key ∈ lastKeys earlier ∧
          (lastAlert (run env earlier).2 key).any fun last : Nat =>
            env.cooldown ≤ (call.1 : Int) - last
      then 1 else 0
  recovery : ∀ earlier call, earlier ++ [call] <+: calls → ∀ key ∈ issueKeys calls,
    sent (alertsAt env earlier call) .recovery key =
      if key ∈ lastKeys earlier ∧ key ∉ keysOf call.2 then 1 else 0

/-- Less than a day apart, with keys as the evaluator builds them that have different hashes,
and times that are read back from their text. -/
structure Regular (env : Env) (calls : Calls) : Prop where
  apart : calls.IsChain fun call next => call.1 ≤ next.1 ∧ next.1 < addDay call.1
  trimmed : ∀ key ∈ issueKeys calls, trim key = key
  letter : ∀ key ∈ issueKeys calls, ∃ c rest, key = c :: rest ∧ c.isAlpha = true
  sha1 : ∀ key ∈ issueKeys calls, ∀ other ∈ issueKeys calls,
    env.sha1 key = env.sha1 other → key = other
  times : ∀ call ∈ calls, trim (env.toIso8601String call.1) ≠ [] ∧
    env.parse (env.toIso8601String call.1) = some (call.1 : Int)

/-! ## What is sent -/

@[simp] theorem sent_nil (event : Event) (key : Text) : sent [] event key = 0 := rfl

theorem sent_append (alerts more : List Alert) (event : Event) (key : Text) :
    sent (alerts ++ more) event key = sent alerts event key + sent more event key :=
  List.countP_append

theorem sent_singleton (alert : Alert) (event : Event) (key : Text) :
    sent [alert] event key = if alert.event = event ∧ alert.key = key then 1 else 0 := by
  rw [sent, List.countP_singleton]
  simp only [decide_eq_true_eq]

section Alerts
variable {env : Env} {now : Nat} {key : Text} {issue : RawIssue} {report : Report} {isNew : Bool}
  {state : Option IssueState}

theorem sendIncidentAlert_event : (sendIncidentAlert env now key issue report isNew).event =
    if isNew then .new else .reminder := rfl

theorem sendIncidentAlert_key :
    (sendIncidentAlert env now key issue report isNew).key = key := rfl

theorem sendRecoveryAlert_event :
    (sendRecoveryAlert env now key state report).event = .recovery := rfl

theorem sendRecoveryAlert_key : (sendRecoveryAlert env now key state report).key = key := rfl

end Alerts

/-! ## The keys of a report -/

section Keys
variable {issues : List (Text × RawIssue)} {issue : Text × RawIssue}

theorem map_fst_putIssue : (putIssue issues issue).map Prod.fst =
    if issue.1 ∈ issues.map Prod.fst then issues.map Prod.fst
    else issues.map Prod.fst ++ [issue.1] := by
  rw [putIssue]
  by_cases hmem : issue.1 ∈ issues.map Prod.fst
  · have hany : issues.any (·.1 == issue.1) = true := by
      obtain ⟨old, hold, heq⟩ := List.mem_map.mp hmem
      exact List.any_eq_true.mpr ⟨old, hold, beq_iff_eq.mpr heq⟩
    rw [if_pos hany, if_pos hmem, List.map_map]
    refine List.map_congr_left fun old _ => ?_
    rw [Function.comp_apply]
    split
    · next heq => exact heq.symm
    · rfl
  · have hany : ¬ issues.any (·.1 == issue.1) = true := by
      intro h
      obtain ⟨old, hold, heq⟩ := List.any_eq_true.mp h
      exact hmem (List.mem_map.mpr ⟨old, hold, beq_iff_eq.mp heq⟩)
    rw [if_neg hany, if_neg hmem, List.map_append]
    rfl

/-- Every key stands once. -/
theorem nodup_keysOf (report : Report) : (keysOf report).Nodup := by
  have hfold : ∀ entries issues : List (Text × RawIssue), (issues.map Prod.fst).Nodup →
      ((entries.foldl putIssue issues).map Prod.fst).Nodup := by
    intro entries
    induction entries with
    | nil => exact fun _ h => h
    | cons entry entries ih =>
      intro issues hnodup
      refine ih _ ?_
      rw [map_fst_putIssue]
      split
      · exact hnodup
      · next hnew => exact List.nodup_append.mpr ⟨hnodup, by simp, by
          intro a ha b hb
          rw [List.mem_singleton.mp hb]
          exact fun heq => hnew (heq ▸ ha)⟩
  exact hfold _ [] List.nodup_nil

end Keys

/-! ## The issues that are reported -/

section Visit
variable {env : Env} {now : Nat} {report : Report} {key : Text}

/-- Issues with other keys leave a key alone. -/
theorem visits_other {issues : List (Text × RawIssue)} (l : Loop)
    (hsha1 : ∀ other ∈ issues.map Prod.fst, env.sha1 other ≠ env.sha1 key) :
    let visited := issues.foldl (visit env now report) l
    visited.store (env.issueStateKey key) = l.store (env.issueStateKey key) ∧
      ∀ event, sent visited.alerts event key = sent l.alerts event key := by
  induction issues generalizing l with
  | nil => exact ⟨rfl, fun _ => rfl⟩
  | cons issue issues ih =>
    intro visited
    obtain ⟨hstore, hsent⟩ := ih (visit env now report l issue) fun other hother =>
      hsha1 other (.tail _ hother)
    have hne : env.sha1 issue.1 ≠ env.sha1 key := hsha1 issue.1 (.head _)
    have hstep : (visit env now report l issue).store (env.issueStateKey key) =
        l.store (env.issueStateKey key) :=
      Keys.set_of_ne _ (fun heq => hne (StoreKey.issue.inj heq).symm) _ _
    refine ⟨hstore.trans hstep, fun event => (hsent event).trans ?_⟩
    rw [visit]
    dsimp only
    split
    · rw [sent_append, sent_singleton, if_neg, Nat.add_zero]
      rintro ⟨-, rfl⟩
      exact hne rfl
    · rfl

/-- The event that a state leads to. -/
def eventOf (env : Env) (now : Nat) (state : Option IssueState) : Option Event :=
  if shouldAlert env now state then some (if state.isNone then .new else .reminder) else none

theorem visit_self (l : Loop) (issue : Text × RawIssue) :
    let visited := visit env now report l issue
    let state := env.state l.store now issue.1
    visited.store (env.issueStateKey issue.1) =
        some ⟨nextState env now issue.1 issue.2 state, some (addDay now)⟩ ∧
      ∀ event, sent visited.alerts event issue.1 =
        sent l.alerts event issue.1 + if eventOf env now state = some event then 1 else 0 := by
  intro visited state
  refine ⟨Keys.set_self _ _ _ _, fun event => ?_⟩
  show sent (visit env now report l issue).alerts event issue.1 = _
  rw [visit, eventOf]
  dsimp only
  by_cases halert : shouldAlert env now (env.state l.store now issue.1) = true
  · rw [if_pos halert, if_pos halert, sent_append, sent_singleton]
    refine congrArg _ (if_congr ?_ rfl rfl)
    rw [sendIncidentAlert_key, sendIncidentAlert_event, Option.some_inj]
    exact and_iff_left rfl
  · rw [if_neg halert, if_neg halert]
    rfl

/-- **What a report does to a key of it**: its state is that of this moment, and it is alerted
about as the state before says. -/
theorem visits_self {issues : List (Text × RawIssue)} (l : Loop) (hkey : key ∈ issues.map Prod.fst)
    (hnodup : (issues.map Prod.fst).Nodup)
    (hsha1 : ∀ other ∈ issues.map Prod.fst, env.sha1 other = env.sha1 key → other = key) :
    let visited := issues.foldl (visit env now report) l
    let state := env.state l.store now key
    (∃ issue, visited.store (env.issueStateKey key) =
        some ⟨nextState env now key issue state, some (addDay now)⟩) ∧
      ∀ event, sent visited.alerts event key =
        sent l.alerts event key + if eventOf env now state = some event then 1 else 0 := by
  obtain ⟨issue, hissue, rfl⟩ := List.mem_map.mp hkey
  obtain ⟨before, after, rfl⟩ := List.append_of_mem hissue
  rw [List.map_append, List.map_cons] at hnodup hsha1
  have hout : issue.1 ∉ before.map Prod.fst ∧ issue.1 ∉ after.map Prod.fst := by
    have hmiddle := List.nodup_middle.mp hnodup
    have hnot := (List.nodup_cons.mp hmiddle).1
    rw [List.mem_append, not_or] at hnot
    exact hnot
  obtain ⟨hstore, hsent⟩ := @visits_other env now report issue.1 before l fun other hother heq =>
    hout.1 (hsha1 other (List.mem_append_left _ hother) heq ▸ hother)
  obtain ⟨hself, hselfsent⟩ :=
    @visit_self env now report (before.foldl (visit env now report) l) issue
  obtain ⟨hafter, haftersent⟩ := @visits_other env now report issue.1 after
    (visit env now report (before.foldl (visit env now report) l) issue) fun other hother heq =>
      hout.2 (hsha1 other (List.mem_append_right _ (.tail _ hother)) heq ▸ hother)
  have hstate : env.state (before.foldl (visit env now report) l).store now issue.1 =
      env.state l.store now issue.1 := by
    rw [Env.state, Env.state, Keys.get, Keys.get, hstore]
  intro visited state
  have hvisited : visited = after.foldl (visit env now report)
      (visit env now report (before.foldl (visit env now report) l) issue) := by
    rw [← List.foldl_cons, ← List.foldl_append]
  rw [hvisited]
  refine ⟨⟨issue.2, ?_⟩, fun event => ?_⟩
  · rw [hafter, hself, hstate]
  · rw [haftersent, hselfsent, hsent, hstate]

theorem visits_nextActiveKeys (issues : List (Text × RawIssue)) (l : Loop) :
    (issues.foldl (visit env now report) l).nextActiveKeys =
      l.nextActiveKeys ++ issues.map Prod.fst := by
  induction issues generalizing l with
  | nil => exact (List.append_nil _).symm
  | cons issue issues ih =>
    rw [List.foldl_cons, ih, List.map_cons]
    exact List.append_assoc _ [issue.1] _

end Visit

/-! ## The keys that are not -/

section Recover
variable {env : Env} {now : Nat} {report : Report} {key : Text}

theorem recovers_nextActiveKeys (resolved : List Text) (l : Loop) :
    (resolved.foldl (recover env now report) l).nextActiveKeys = l.nextActiveKeys := by
  induction resolved generalizing l with
  | nil => rfl
  | cons other resolved ih => exact ih _

/-- A key that has recovered loses its state and is alerted about once; any other stays. -/
theorem recovers_spec {resolved : List Text} (l : Loop) (hnodup : resolved.Nodup)
    (hsha1 : ∀ other ∈ resolved, env.sha1 other = env.sha1 key → other = key) :
    let recovered := resolved.foldl (recover env now report) l
    recovered.store (env.issueStateKey key) =
        (if key ∈ resolved then none else l.store (env.issueStateKey key)) ∧
      ∀ event, sent recovered.alerts event key = sent l.alerts event key +
        if event = .recovery ∧ key ∈ resolved then 1 else 0 := by
  induction resolved generalizing l with
  | nil => exact ⟨rfl, fun event => by simp⟩
  | cons other resolved ih =>
    obtain ⟨hother, hrest⟩ := List.nodup_cons.mp hnodup
    obtain ⟨hstore, hsent⟩ := ih (recover env now report l other) hrest
      fun k hk => hsha1 k (.tail _ hk)
    intro recovered
    have hdel : (recover env now report l other).store (env.issueStateKey key) =
        if key = other then none else l.store (env.issueStateKey key) := by
      rw [recover]
      by_cases hkey : key = other
      · rw [if_pos hkey]
        exact Keys.del_of_mem _ (by rw [hkey]; exact .head _)
      · rw [if_neg hkey]
        refine Keys.del_of_notMem _ fun hmem => hkey ?_
        have heq := StoreKey.issue.inj (List.mem_singleton.mp hmem)
        exact (hsha1 other (.head _) heq.symm).symm
    have halert : ∀ event, sent (recover env now report l other).alerts event key =
        sent l.alerts event key + if event = .recovery ∧ key = other then 1 else 0 := by
      intro event
      rw [recover]
      dsimp only
      rw [sent_append, sent_singleton, sendRecoveryAlert_event, sendRecoveryAlert_key]
      exact congrArg _ (if_congr (and_congr eq_comm eq_comm) rfl rfl)
    refine ⟨?_, fun event => ?_⟩
    · rw [show recovered.store (env.issueStateKey key) = _ from hstore, hdel]
      by_cases hkey : key = other
      · simp [hkey]
      · simp [hkey]
    · rw [show sent recovered.alerts event key = _ from hsent event, halert]
      by_cases hkey : key = other
      · subst hkey
        simp [hother]
      · simp [hkey]

end Recover

section Notify
variable {env : Env} {store : Store} {now : Nat} {report : Report} {key : Text}

/-- The state of a key is not touched when the active keys are written. -/
theorem notify_state : (notify env store now report).1 (env.issueStateKey key) =
    (((activeIssueKeys store now).filter fun key => key ∉ keysOf report).foldl
      (recover env now report)
        ((currentIssues report).foldl (visit env now report) { store := store })).store
          (env.issueStateKey key) := by
  have hne : env.issueStateKey key ≠ StoreKey.active := fun heq => StoreKey.noConfusion heq
  rw [notify]
  dsimp only
  rw [Keys.set_of_ne _ hne, visits_nextActiveKeys]
  rfl

theorem notify_alerts : (notify env store now report).2 =
    (((activeIssueKeys store now).filter fun key => key ∉ keysOf report).foldl
      (recover env now report)
        ((currentIssues report).foldl (visit env now report) { store := store })).alerts := by
  rw [notify]
  dsimp only
  rw [visits_nextActiveKeys]
  rfl

theorem notify_active : (notify env store now report).1 .active =
    some ⟨keysOf report, some (addDay now)⟩ := by
  rw [notify]
  dsimp only
  rw [Keys.set_self, recovers_nextActiveKeys, visits_nextActiveKeys, List.nil_append]
  rw [show (currentIssues report).map Prod.fst = keysOf report from rfl,
    eraseDups_of_nodup (nodup_keysOf report)]

variable (hactive : (activeIssueKeys store now).Nodup)
include hactive

/-- A key of the report. -/
theorem notify_of_mem (hkey : key ∈ keysOf report)
    (hsha1 : ∀ other, other ∈ keysOf report ∨ other ∈ activeIssueKeys store now →
      env.sha1 other = env.sha1 key → other = key) :
    (∃ issue, (notify env store now report).1 (env.issueStateKey key) =
      some ⟨nextState env now key issue (env.state store now key), some (addDay now)⟩) ∧
      ∀ event, sent (notify env store now report).2 event key =
        if eventOf env now (env.state store now key) = some event then 1 else 0 := by
  have hout : key ∉ (activeIssueKeys store now).filter fun key => key ∉ keysOf report :=
    fun hmem => of_decide_eq_true (List.mem_filter.mp hmem).2 hkey
  obtain ⟨⟨issue, hstate⟩, hvisit⟩ := @visits_self env now report key (currentIssues report)
    { store := store } hkey (nodup_keysOf report) fun other hother => hsha1 other (.inl hother)
  obtain ⟨hstore, hrecover⟩ := @recovers_spec env now report key _
    ((currentIssues report).foldl (visit env now report) { store := store })
    (hactive.filter fun key => key ∉ keysOf report) fun other hother =>
      hsha1 other (.inr (List.mem_filter.mp hother).1)
  refine ⟨⟨issue, ?_⟩, fun event => ?_⟩
  · rw [notify_state, hstore, if_neg hout, hstate]
  · rw [notify_alerts, hrecover, if_neg (fun h => hout h.2), hvisit, sent_nil, Nat.zero_add,
      Nat.add_zero]

/-- Any other key. -/
theorem notify_of_notMem (hkey : key ∉ keysOf report)
    (hsha1 : ∀ other, other ∈ keysOf report ∨ other ∈ activeIssueKeys store now →
      env.sha1 other = env.sha1 key → other = key) :
    (notify env store now report).1 (env.issueStateKey key) =
        (if key ∈ activeIssueKeys store now then none else store (env.issueStateKey key)) ∧
      ∀ event, sent (notify env store now report).2 event key =
        if event = .recovery ∧ key ∈ activeIssueKeys store now then 1 else 0 := by
  have hmem : key ∈ (activeIssueKeys store now).filter (fun key => key ∉ keysOf report) ↔
      key ∈ activeIssueKeys store now := by
    rw [List.mem_filter]
    exact and_iff_left (decide_eq_true hkey)
  obtain ⟨hstate, hvisit⟩ := @visits_other env now report key (currentIssues report)
    { store := store } fun other hother heq => hkey (hsha1 other (.inl hother) heq ▸ hother)
  obtain ⟨hstore, hrecover⟩ := @recovers_spec env now report key _
    ((currentIssues report).foldl (visit env now report) { store := store })
    (hactive.filter fun key => key ∉ keysOf report) fun other hother =>
      hsha1 other (.inr (List.mem_filter.mp hother).1)
  refine ⟨?_, fun event => ?_⟩
  · rw [notify_state, hstore, if_congr hmem rfl rfl, hstate]
  · rw [notify_alerts, hrecover, hvisit, sent_nil, Nat.zero_add,
      if_congr (and_congr_right fun _ => hmem) rfl rfl]

end Notify

/-! ## The cache follows the reports -/

theorem run_append (env : Env) (earlier : Calls) (call : Nat × Report) :
    run env (earlier ++ [call]) =
      ((notify env (run env earlier).1 call.1 call.2).1,
        (run env earlier).2 ++ [(call.1, alertsAt env earlier call)]) := by
  rw [run, List.foldl_concat]
  rfl

theorem lastKeys_append (earlier : Calls) (call : Nat × Report) :
    lastKeys (earlier ++ [call]) = keysOf call.2 := by
  rw [lastKeys, List.getLast?_concat]
  rfl

theorem lastAlert_append (trace : Trace) (now : Nat) (alerts : List Alert) (key : Text) :
    lastAlert (trace ++ [(now, alerts)]) key =
      if 0 < sent alerts .new key + sent alerts .reminder key then some now
      else lastAlert trace key := by
  rw [lastAlert, List.filter_append, List.filter_singleton]
  by_cases hsent : 0 < sent alerts .new key + sent alerts .reminder key
  · simp [hsent]
  · simp [hsent, lastAlert]

/-- The cache after some calls: the active keys are those of the last report, a key has a state
exactly if it is one of them, and the state has the time of its last alert. -/
structure Follows (env : Env) (keys : List Text) (calls : Calls) : Prop where
  active : (run env calls).1 .active =
    calls.getLast?.map fun call => ⟨keysOf call.2, some (addDay call.1)⟩
  idle : ∀ key ∈ keys, key ∉ lastKeys calls → (run env calls).1 (env.issueStateKey key) = none
  alerted : ∀ key ∈ keys, key ∈ lastKeys calls → ∃ state last,
    ((run env calls).1 (env.issueStateKey key) =
      calls.getLast?.map fun call => ⟨state, some (addDay call.1)⟩) ∧
    lastAlert (run env calls).2 key = some last ∧ (∃ call ∈ calls, call.1 = last) ∧
    state.lastAlertedAt = env.toIso8601String last

theorem follows_nil (env : Env) (keys : List Text) : Follows env keys [] where
  active := rfl
  idle := fun _ _ _ => rfl
  alerted := fun _ _ hkey => absurd hkey List.not_mem_nil

section Step
variable {env : Env} {calls earlier : Calls} {call : Nat × Report} {key : Text}

theorem Regular.earlier_live (h : Regular env calls) (hrun : earlier ++ [call] <+: calls)
    {last : Nat × Report} (hlast : earlier.getLast? = some last) :
    last.1 ≤ call.1 ∧ call.1 < addDay last.1 := by
  obtain ⟨rest, rfl⟩ := hrun
  have hchain := h.apart.left_of_append
  exact (List.isChain_append.mp hchain).2.2 last hlast call rfl

theorem mem_issueKeys (hrun : earlier ++ [call] <+: calls) (hkey : key ∈ keysOf call.2) :
    key ∈ issueKeys calls :=
  List.mem_flatMap.mpr ⟨call, hrun.subset (by simp), hkey⟩

theorem mem_issueKeys_of_last (hrun : earlier <+: calls) (hkey : key ∈ lastKeys earlier) :
    key ∈ issueKeys calls := by
  cases earlier using List.reverseRecOn with
  | nil => exact absurd hkey List.not_mem_nil
  | append_singleton before last =>
    rw [lastKeys_append] at hkey
    exact mem_issueKeys hrun hkey

/-- An entry of the last call is still there. -/
theorem Regular.get_eq (h : Regular env calls) (hrun : earlier ++ [call] <+: calls)
    {k : StoreKey} {value : k.Value} {store : Store}
    (hstore : store k = earlier.getLast?.map fun last => ⟨value, some (addDay last.1)⟩)
    (hne : earlier.getLast? ≠ none) : store.get call.1 k = some value := by
  obtain ⟨last, hlast⟩ := Option.ne_none_iff_exists'.mp hne
  rw [hlast, Option.map_some] at hstore
  have hlive := (h.earlier_live hrun hlast).2
  rw [Keys.get, hstore, Option.bind_some]
  exact if_pos (decide_eq_true hlive)

theorem getLast?_ne_none (hkey : key ∈ lastKeys earlier) : earlier.getLast? ≠ none := by
  intro hnone
  rw [lastKeys, hnone] at hkey
  exact List.not_mem_nil hkey

/-- `activeIssueKeys` finds the keys of the report before. -/
theorem Follows.activeIssueKeys_eq (h : Regular env calls)
    (hrun : earlier ++ [call] <+: calls) (hfollows : Follows env (issueKeys calls) earlier) :
    activeIssueKeys (run env earlier).1 call.1 = lastKeys earlier := by
  have hkeys : (((run env earlier).1.get call.1 .active).getD ([] : List Text)) =
      lastKeys earlier := by
    cases hlast : earlier.getLast? with
    | none =>
      have hnone := hfollows.active
      rw [hlast] at hnone
      rw [Keys.get_of_none hnone, lastKeys, hlast]
      rfl
    | some last =>
      have hactive := hfollows.active
      rw [hlast] at hactive
      have hget := @Regular.get_eq env calls earlier call h hrun .active (keysOf last.2)
        (run env earlier).1 (by rw [hactive, hlast]; rfl) (by simp [hlast])
      rw [hget, lastKeys, hlast]
      rfl
  have hgood : ∀ key ∈ lastKeys earlier, trim key = key ∧
      (key != [] && key != "0".toList) = true := by
    intro key hkey
    have hmem := mem_issueKeys_of_last ((List.prefix_append _ _).trans hrun) hkey
    obtain ⟨c, rest, rfl, hc⟩ := h.letter key hmem
    refine ⟨h.trimmed _ hmem, ?_⟩
    rw [Bool.and_eq_true, bne_iff_ne, bne_iff_ne]
    refine ⟨List.cons_ne_nil _ _, fun heq => ?_⟩
    obtain rfl : c = '0' := (List.cons.inj heq).1
    exact absurd hc (by decide)
  rw [activeIssueKeys, hkeys, List.map_congr_left fun key hkey => (hgood key hkey).1, List.map_id',
    List.filter_eq_self.mpr fun key hkey => (hgood key hkey).2]

theorem Regular.sha1_eq (h : Regular env calls) (hrun : earlier ++ [call] <+: calls)
    (hkey : key ∈ issueKeys calls) : ∀ other, other ∈ keysOf call.2 ∨ other ∈ lastKeys earlier →
      env.sha1 other = env.sha1 key → other = key := by
  intro other hother heq
  refine h.sha1 other ?_ key hkey heq
  rcases hother with hcurrent | hlast
  · exact mem_issueKeys hrun hcurrent
  · exact mem_issueKeys_of_last ((List.prefix_append _ _).trans hrun) hlast

theorem nodup_lastKeys (calls : Calls) : (lastKeys calls).Nodup := by
  cases calls using List.reverseRecOn with
  | nil => exact List.nodup_nil
  | append_singleton before last =>
    rw [lastKeys_append]
    exact nodup_keysOf last.2

/-- A state with a time that is read back is due when the cooldown has passed. -/
theorem shouldAlert_some {now last : Nat} {state : IssueState}
    (hstate : state.lastAlertedAt = env.toIso8601String last)
    (htime : trim (env.toIso8601String last) ≠ [] ∧
      env.parse (env.toIso8601String last) = some (last : Int)) :
    shouldAlert env now (some state) = decide (env.cooldown ≤ now - last) := by
  have helapsed : elapsedSeconds env now (some state) = some ((now : Int) - last) := by
    rw [elapsedSeconds, Option.map_some, safeParseTime, Option.bind_some, hstate, if_neg htime.1,
      htime.2, Option.map_some]
  rw [shouldAlert, helapsed]
  rfl

/-- The state that is found for a key of the report before: it has the time of its last alert. -/
theorem Follows.state_of_mem (h : Regular env calls) (hrun : earlier ++ [call] <+: calls)
    (hfollows : Follows env (issueKeys calls) earlier) (hkey : key ∈ issueKeys calls)
    (hlast : key ∈ lastKeys earlier) :
    ∃ state, ∃ before ∈ earlier, env.state (run env earlier).1 call.1 key = some state ∧
      lastAlert (run env earlier).2 key = some before.1 ∧
      state.lastAlertedAt = env.toIso8601String before.1 ∧
      shouldAlert env call.1 (some state) = decide (env.cooldown ≤ call.1 - before.1) := by
  obtain ⟨state, last, hstore, halert, ⟨before, hbefore, rfl⟩, htime⟩ :=
    hfollows.alerted key hkey hlast
  have hget : env.state (run env earlier).1 call.1 key = some state :=
    h.get_eq hrun hstore (getLast?_ne_none hlast)
  have hmem : before ∈ calls := ((List.prefix_append _ _).trans hrun).subset hbefore
  exact ⟨state, before, hbefore, hget, halert, htime, shouldAlert_some htime (h.times before hmem)⟩

theorem Follows.state_of_notMem (hfollows : Follows env (issueKeys calls) earlier)
    (hkey : key ∈ issueKeys calls) (hlast : key ∉ lastKeys earlier) (now : Nat) :
    env.state (run env earlier).1 now key = none :=
  Keys.get_of_none (hfollows.idle key hkey hlast) _

/-- **What a report leads to for a key of it**: it is new if it was not in the report before,
and otherwise a reminder is due when the cooldown has passed. -/
theorem Follows.eventOf_eq (h : Regular env calls) (hrun : earlier ++ [call] <+: calls)
    (hfollows : Follows env (issueKeys calls) earlier) (hkey : key ∈ issueKeys calls) :
    eventOf env call.1 (env.state (run env earlier).1 call.1 key) =
      if key ∈ lastKeys earlier then
        if (lastAlert (run env earlier).2 key).any fun last : Nat =>
            env.cooldown ≤ (call.1 : Int) - last
        then some .reminder else none
      else some .new := by
  by_cases hlast : key ∈ lastKeys earlier
  · obtain ⟨state, before, -, hget, halert, -, hshould⟩ := hfollows.state_of_mem h hrun hkey hlast
    rw [if_pos hlast, hget, eventOf, hshould, halert]
    rfl
  · rw [if_neg hlast, hfollows.state_of_notMem hkey hlast]
    rfl

theorem Follows.sent_alertsAt (h : Regular env calls) (hrun : earlier ++ [call] <+: calls)
    (hfollows : Follows env (issueKeys calls) earlier) (hkey : key ∈ issueKeys calls)
    (event : Event) : sent (alertsAt env earlier call) event key =
      if key ∈ keysOf call.2 then
        if eventOf env call.1 (env.state (run env earlier).1 call.1 key) = some event then 1 else 0
      else if event = .recovery ∧ key ∈ lastKeys earlier then 1 else 0 := by
  have hactive := hfollows.activeIssueKeys_eq h hrun
  have hnodup : (activeIssueKeys (run env earlier).1 call.1).Nodup :=
    hactive ▸ nodup_lastKeys earlier
  by_cases hreport : key ∈ keysOf call.2
  · rw [if_pos hreport]
    exact (notify_of_mem hnodup hreport (hactive ▸ h.sha1_eq hrun hkey)).2 event
  · rw [if_neg hreport, ← hactive]
    exact (notify_of_notMem hnodup hreport (hactive ▸ h.sha1_eq hrun hkey)).2 event

theorem Follows.step (h : Regular env calls) (hrun : earlier ++ [call] <+: calls)
    (hfollows : Follows env (issueKeys calls) earlier) :
    Follows env (issueKeys calls) (earlier ++ [call]) := by
  have hactive := hfollows.activeIssueKeys_eq h hrun
  have hnodup : (activeIssueKeys (run env earlier).1 call.1).Nodup :=
    hactive ▸ nodup_lastKeys earlier
  have hcall : call ∈ calls := hrun.subset (by simp)
  constructor
  · rw [run_append, List.getLast?_concat]
    exact notify_active
  · intro key hkey hout
    rw [lastKeys_append] at hout
    rw [run_append]
    refine (notify_of_notMem hnodup hout (hactive ▸ h.sha1_eq hrun hkey)).1.trans ?_
    rw [hactive]
    split
    · rfl
    · next hlast => exact hfollows.idle key hkey hlast
  · intro key hkey hreport
    rw [lastKeys_append] at hreport
    obtain ⟨issue, hstate⟩ :=
      (notify_of_mem hnodup hreport (hactive ▸ h.sha1_eq hrun hkey)).1
    have hnew := hfollows.sent_alertsAt h hrun hkey .new
    have hreminder := hfollows.sent_alertsAt h hrun hkey .reminder
    rw [if_pos hreport, hfollows.eventOf_eq h hrun hkey] at hnew hreminder
    rw [run_append, List.getLast?_concat, lastAlert_append]
    by_cases hlast : key ∈ lastKeys earlier
    · obtain ⟨state, before, hbefore, hget, halert, htime, hshould⟩ :=
        hfollows.state_of_mem h hrun hkey hlast
      rw [if_pos hlast, halert] at hnew hreminder
      rw [hget] at hstate
      by_cases hdue : env.cooldown ≤ call.1 - before.1
      · refine ⟨_, call.1, hstate, ?_, ⟨call, by simp, rfl⟩, ?_⟩
        · rw [if_pos]
          rw [hreminder]
          simp [hdue]
        · rw [nextState, hshould]
          exact if_pos (decide_eq_true hdue)
      · refine ⟨_, before.1, hstate, ?_, ⟨before, List.mem_append_left _ hbefore, rfl⟩, ?_⟩
        · rw [if_neg, halert]
          rw [hnew, hreminder]
          simp [hdue]
        · rw [nextState, hshould]
          exact (if_neg (fun hd => hdue (of_decide_eq_true hd))).trans htime
    · rw [if_neg hlast] at hnew hreminder
      rw [hfollows.state_of_notMem hkey hlast] at hstate
      refine ⟨_, call.1, hstate, ?_, ⟨call, by simp, rfl⟩, rfl⟩
      rw [if_pos]
      rw [hnew, if_pos rfl]
      exact Nat.add_pos_left Nat.one_pos _

theorem Regular.follows (h : Regular env calls) (hrun : earlier <+: calls) :
    Follows env (issueKeys calls) earlier := by
  induction earlier using List.reverseRecOn with
  | nil => exact follows_nil env _
  | append_singleton earlier call ih =>
    exact (ih ((List.prefix_append _ _).trans hrun)).step h hrun

end Step

/-! ## An episode -/

/-- Some times of the first hour, as they are written. -/
def firstHour : List (Nat × Text) :=
  [(0, "1970-01-01T00:00:00+00:00".toList), (300, "1970-01-01T00:05:00+00:00".toList),
    (900, "1970-01-01T00:15:00+00:00".toList), (1200, "1970-01-01T00:20:00+00:00".toList)]

def firstHourEnv : Env where
  cooldownSeconds := 600
  sha1 := id
  toIso8601String now := (firstHour.lookup now).getD []
  parse text := (firstHour.find? fun time => time.2 = text).map fun time => time.1

def depthReport : Report where
  issues := [some { key := some "lane_depth:redis:default".toList }]

/-- An issue is reported, twice again, and no more. -/
def depthCalls : Calls := [(0, depthReport), (300, depthReport), (900, depthReport), (1200, {})]

end ValidEmailVerifier.QueueHealthNotifier
