/-
# `Fleet.Alerts` — workers that do not converge to their desired state

The alert service checks the workers now and then.  A check first removes stale workers; then
it drains, and may quarantine, every worker whose error rate is too high; and then it raises
an incident for every worker that has been in another state than its desired one for longer
than the grace period.  How long that is, it reads from a time that heartbeats write when
there is none, and that every call which sets the desired state overwrites.

As long as no such call, of an operator or of the service itself, is made for a worker while
its heartbeats report another state, the incident is there after every check
(`stuck_of_unprovoked`).  The draining that a check repeats puts the time off for as long as
the error rate stays high (`incident_postponed`).
-/
import ValidEmailVerifier.Fleet.Workers

namespace ValidEmailVerifier.Fleet

open ExpiringKeys Programs Transition Worker

/-! ## Incidents -/

/-- What of the settings the checks below read. -/
structure RuntimeSettings where
  alertsEnabled : Bool := true
  autoActionsEnabled : Bool := true
  alertErrorRateThreshold : ℚ := 10
  quarantineErrorRateThreshold : ℚ := 0
  stuckDesiredGraceSecond : Int := 600
  staleWorkerTTLSecond : Int := 0

inductive IncidentType where
  | workerOffline | workerErrorRate | workerStuckDesired
  deriving DecidableEq, Repr

inductive IncidentStatus where
  | active | resolved
  deriving DecidableEq, Repr

structure IncidentRecord where
  status : IncidentStatus
  message : Text
  openedAt : Nat
  updatedAt : Nat
  resolvedAt : Option Nat := none
  deriving DecidableEq

/-- The worker records, and the incidents by type and subject. -/
structure ControlPlane where
  store : WorkerStore := {}
  incidents : IncidentType × Text → Option IncidentRecord := fun _ => none

namespace ControlPlane

def activateIncident (c : ControlPlane) (now : Nat) (key : IncidentType × Text) (message : Text) :
    ControlPlane :=
  let record : IncidentRecord :=
    match c.incidents key with
    | some existing =>
        if existing.status = .active then
          { existing with message := message, updatedAt := formatRFC3339 now }
        else ⟨.active, message, existing.openedAt, formatRFC3339 now, none⟩
    | none => ⟨.active, message, formatRFC3339 now, formatRFC3339 now, none⟩
  { c with incidents := Function.update c.incidents key (some record) }

def resolveIncident (c : ControlPlane) (now : Nat) (key : IncidentType × Text) (message : Text) :
    ControlPlane :=
  match c.incidents key with
  | some existing =>
      if existing.status = .active then
        { c with incidents := Function.update c.incidents key (some
          { existing with
            status := .resolved
            message := if message = [] then existing.message else message
            updatedAt := formatRFC3339 now
            resolvedAt := some (formatRFC3339 now) }) }
      else c
  | none => c

def syncIncident (c : ControlPlane) (now : Nat) (key : IncidentType × Text) (message : Text)
    (active : Bool) : ControlPlane :=
  if active then c.activateIncident now key message else c.resolveIncident now key message

/-- A call to the store. -/
def call {α : Type} (c : ControlPlane) (now : Nat) (p : Program α) :
    Except Text α × ControlPlane :=
  ((p.serve now c.store).1, { c with store := (p.serve now c.store).2 })

/-! ## Checks -/

/-- A cutoff before the first second of all finds nobody stale. -/
def cleanupStaleWorkers (settings : RuntimeSettings) (now : Nat) (c : ControlPlane) :
    ControlPlane :=
  let staleWorkerTTL := settings.staleWorkerTTLSecond.toNat * second
  if settings.staleWorkerTTLSecond ≤ 0 ∨ now < staleWorkerTTL then c
  else
    match c.call now (cleanupStaleKnownWorkers (now - staleWorkerTTL)) with
    | (.error _, c) => c
    | (.ok staleWorkers, c) =>
        staleWorkers.foldl (fun c workerID =>
          [IncidentType.workerOffline, .workerErrorRate, .workerStuckDesired].foldl
            (fun c kind => c.resolveIncident now (kind, workerID)
              "Worker removed during stale cleanup.".toList) c) c

def quarantineThreshold (settings : RuntimeSettings) : ℚ :=
  if settings.quarantineErrorRateThreshold ≤ 0 then settings.alertErrorRateThreshold * (3 / 2)
  else settings.quarantineErrorRateThreshold

/-- The body of the loop of `checkWorkerErrorRate`. -/
def checkErrorRateOf (settings : RuntimeSettings) (now : Nat) (c : ControlPlane)
    (worker : WorkerSummary) : ControlPlane :=
  match c.call now (getWorkerMetrics worker.workerID) with
  | (.ok (some metrics), c) =>
      let errorRate := metrics.errorsPerMin
      let active := decide (settings.alertErrorRateThreshold ≤ errorRate)
      let c := c.syncIncident now (.workerErrorRate, worker.workerID)
        "Worker error rate above threshold".toList active
      if active = false then c
      else
        let c := if settings.autoActionsEnabled then
            (c.call now (setDesiredState worker.workerID "draining".toList)).2
          else c
        if settings.autoActionsEnabled ∧ 0 < quarantineThreshold settings ∧
            quarantineThreshold settings ≤ errorRate then
          (c.call now (setWorkerQuarantined worker.workerID true
            "error_rate_threshold".toList)).2
        else c
  | (_, c) => c

def checkWorkerErrorRate (settings : RuntimeSettings) (now : Nat) (c : ControlPlane) :
    ControlPlane :=
  if settings.alertErrorRateThreshold ≤ 0 then c
  else
    match c.call now getWorkers with
    | (.error _, c) => c
    | (.ok workers, c) => workers.foldl (checkErrorRateOf settings now) c

def stuckDesiredGrace (settings : RuntimeSettings) : Nat :=
  if settings.stuckDesiredGraceSecond ≤ 0 then 600 * second
  else settings.stuckDesiredGraceSecond.toNat * second

/-- The body of the loop of `checkStuckDesiredState`. -/
def checkStuckOf (settings : RuntimeSettings) (now : Nat) (c : ControlPlane)
    (worker : WorkerSummary) : ControlPlane :=
  match c.call now (getDesiredStateUpdatedAt worker.workerID) with
  | (.error _, c) => c
  | (.ok stateUpdated, c) =>
      let active := worker.status ≠ some worker.desiredState &&
        stateUpdated.any fun updated => stuckDesiredGrace settings < now - updated
      c.syncIncident now (.workerStuckDesired, worker.workerID)
        "Worker is not converging to desired state".toList active

def checkStuckDesiredState (settings : RuntimeSettings) (now : Nat) (c : ControlPlane) :
    ControlPlane :=
  match c.call now getWorkers with
  | (.error _, c) => c
  | (.ok workers, c) => workers.foldl (checkStuckOf settings now) c

/-- A check that is due.  Those of the offline workers, the pools and the providers raise
incidents of their own, and write no worker record. -/
def runChecks (settings : RuntimeSettings) (now : Nat) (c : ControlPlane) : ControlPlane :=
  let c := c.cleanupStaleWorkers settings now
  if settings.alertsEnabled = false ∧ settings.autoActionsEnabled = false then c
  else (c.checkWorkerErrorRate settings now).checkStuckDesiredState settings now

end ControlPlane

/-! ## Runs -/

/-- The state that the last heartbeat of a worker has reported. -/
def WorkerStore.reported (s : WorkerStore) (id : Text) : Option WorkerState :=
  (s.keys (workerKey id .status)).map Entry.value

/-- The state that the worker is to be in. -/
def WorkerStore.toBe (s : WorkerStore) (id : Text) : WorkerState :=
  ((s.keys (workerKey id .desiredState)).map Entry.value).getD .running

def WorkerStore.drifts (s : WorkerStore) (id : Text) : Bool :=
  (s.reported id).any (· ≠ s.toBe id)

inductive Event where
  | heartbeat (req : HeartbeatRequest)
  | setDesiredState (workerID state : Text)
  | setWorkerQuarantined (workerID : Text) (enabled : Bool) (reason : Text)
  | check (settings : RuntimeSettings)

namespace Event

def effect (heartbeatTTL now : Nat) (c : ControlPlane) : Event → ControlPlane
  | .heartbeat req => (c.call now (upsertHeartbeat heartbeatTTL req)).2
  | .setDesiredState workerID state => (c.call now (Fleet.setDesiredState workerID state)).2
  | .setWorkerQuarantined workerID enabled reason =>
      (c.call now (Fleet.setWorkerQuarantined workerID enabled reason)).2
  | .check settings => c.runChecks settings now

/-- A heartbeat of the worker, with a status that is known. -/
def beats (id : Text) : Event → Bool
  | .heartbeat req => req.workerID = id ∧ id ≠ [] ∧ (normalizeStatus req.status).isSome
  | _ => false

def isHeartbeat : Event → Bool
  | .heartbeat _ => true
  | _ => false

/-- The workers whose desired state the event may set. -/
def targets (s : WorkerStore) : Event → List Text
  | .heartbeat _ => []
  | .setDesiredState workerID _ => [workerID]
  | .setWorkerQuarantined workerID _ _ => [workerID]
  | .check _ => s.members .activeWorkers

/-- The state that the event sets for one of them. -/
def assigned (now : Nat) (s : WorkerStore) (id : Text) : Event → Option WorkerState
  | .heartbeat _ => none
  | .setDesiredState _ state => normalizeDesiredState state
  | .setWorkerQuarantined _ enabled _ => some (if enabled then .draining else .running)
  | .check settings =>
      if settings.autoActionsEnabled ∧ 0 < settings.alertErrorRateThreshold ∧
          (s.keys.get now (workerKey id .heartbeat)).isSome ∧
          (s.keys.get now (workerKey id .metrics)).any
            fun metrics => settings.alertErrorRateThreshold ≤ metrics.errorsPerMin
      then some .draining else none

end Event

/-- The control plane, and since when the heartbeats of a worker have reported another state
than its desired one. -/
structure Watched where
  plane : ControlPlane := {}
  clock : Nat := 0
  drift : Text → Option Nat := fun _ => none

/-- Calls and checks, one after the other. -/
def watching (heartbeatTTL : Nat) : System Watched (Nat × Event) where
  step w a :=
    if w.clock ≤ a.1 then
      let plane := a.2.effect heartbeatTTL a.1 w.plane
      some
        { plane := plane
          clock := a.1
          drift := fun id =>
            if plane.store.drifts id then
              (w.drift id).or (if a.2.beats id then some a.1 else none)
            else none }
    else none

/-- No desired state is set for a worker that reports another one, unless in the second in
which it has begun to. -/
def Unprovoked (w : Watched) (a : Nat × Event) : Prop :=
  ∀ id ∈ a.2.targets w.plane.store, ∀ desired ∈ a.2.assigned a.1 w.plane.store id,
    ∀ since ∈ w.drift id,
      formatRFC3339 a.1 ≤ since ∨ w.plane.store.reported id = some desired

instance (w : Watched) (a : Nat × Event) : Decidable (Unprovoked w a) :=
  inferInstanceAs (Decidable (∀ id ∈ _, ∀ desired ∈ _, ∀ since ∈ _, _ ∨ _))

/-! ## What the store keeps -/

/-- What the calls and the checks keep of the store, as long as nothing is provoked. -/
structure Sound (s : WorkerStore) (clock : Nat) (drift : Text → Option Nat) : Prop where
  desired : ∀ id e, s.keys (workerKey id .desiredState) = some e → e.expires = none
  updated : ∀ id e, s.keys (workerKey id .desiredStateUpdated) = some e →
    e.expires = none ∧ e.value ≤ clock
  active : ∀ id e, s.keys (workerKey id .heartbeat) = some e → e.live clock = true →
    id ∈ s.members .activeWorkers
  /-- The time that is stored is not after the begin of the drift. -/
  dated : ∀ id since, drift id = some since → s.drifts id = true →
    ∃ e, s.keys (workerKey id .desiredStateUpdated) = some e ∧ e.value ≤ since

theorem formatRFC3339_le (t : Nat) : formatRFC3339 t ≤ t := Nat.div_mul_le_self t second

/-- Stores that agree on the record of a worker. -/
theorem drifts_congr {s s' : WorkerStore} {id : Text}
    (hstatus : s'.keys (workerKey id .status) = s.keys (workerKey id .status))
    (hdesired : s'.keys (workerKey id .desiredState) = s.keys (workerKey id .desiredState)) :
    s'.drifts id = s.drifts id := by
  rw [WorkerStore.drifts, WorkerStore.drifts, WorkerStore.reported, WorkerStore.reported,
    WorkerStore.toBe, WorkerStore.toBe, hstatus, hdesired]

namespace Sound

variable {s s' : WorkerStore} {clock now time : Nat} {drift : Text → Option Nat} {id : Text}
  {desired : WorkerState}

theorem empty : Sound {} 0 fun _ => none := ⟨nofun, nofun, nofun, nofun⟩

theorem later (h : Sound s clock drift) (hle : clock ≤ now) : Sound s now drift where
  desired := h.desired
  updated id e he := ⟨(h.updated id e he).1, Nat.le_trans (h.updated id e he).2 hle⟩
  active id e he hlive := h.active id e he (Entry.live_of_le hlive hle)
  dated := h.dated

/-- What is stored is what is read. -/
theorem desired_eq (h : Sound s clock drift) (now : Nat) (id : Text) :
    s.desired now id = s.toBe id := by
  rw [WorkerStore.desired, Keys.get_eq_map (h.desired id), WorkerStore.toBe]

theorem updated_eq (h : Sound s clock drift) (now : Nat) (id : Text) :
    s.keys.get now (workerKey id .desiredStateUpdated) =
      (s.keys (workerKey id .desiredStateUpdated)).map Entry.value :=
  Keys.get_eq_map (s := s.keys) (fun e he => (h.updated id e he).1) now

/-- The desired state of a worker is set that does not drift, or reports that state, or has
begun to drift in this very second. -/
theorem assigns (h : Sound s now drift) (ha : Assigns s s' id desired time) (htime : time ≤ now)
    (hcall : ∀ since, drift id = some since → time ≤ since ∨ s.reported id = some desired) :
    Sound s' now drift where
  desired other e he := by
    by_cases hid : other = id
    · subst hid
      rw [ha.desired] at he
      obtain rfl := Option.some.inj he
      rfl
    · rw [ha.others _ (.inl hid)] at he
      exact h.desired other e he
  updated other e he := by
    by_cases hid : other = id
    · subst hid
      rw [ha.updated] at he
      obtain rfl := Option.some.inj he
      exact ⟨rfl, htime⟩
    · rw [ha.others _ (.inl hid)] at he
      exact h.updated other e he
  active other e he hlive := by
    rw [ha.others (workerKey other .heartbeat) (.inr (by simp))] at he
    exact ha.members _ _ (h.active other e he hlive)
  dated other since hsince hdrifts := by
    by_cases hid : other = id
    · subst hid
      refine ⟨_, ha.updated, ?_⟩
      rcases hcall since hsince with hle | hreported
      · exact hle
      · -- the worker reports the state that is set, so it does not drift
        have hstatus : s'.reported other = some desired := by
          rw [WorkerStore.reported, ha.others _ (.inr (by simp))]
          exact hreported
        rw [WorkerStore.drifts, hstatus, WorkerStore.toBe, ha.desired] at hdrifts
        exact absurd rfl (of_decide_eq_true hdrifts)
    · rw [ha.others _ (.inl hid)]
      refine h.dated other since hsince ?_
      rw [← hdrifts]
      exact (drifts_congr (ha.others _ (.inl hid)) (ha.others _ (.inl hid))).symm

theorem answer_eq {heartbeatTTL : Nat} {req : HeartbeatRequest} {reported : WorkerState}
    (h : Sound s now drift) (hr : Reports s s' now heartbeatTTL req reported) :
    s'.toBe req.workerID = s.answer now req.workerID := by
  rw [WorkerStore.toBe, hr.desired, WorkerStore.answer, h.desired_eq now req.workerID]
  split_ifs
  · rfl
  · rfl

/-- A heartbeat keeps the time of a worker that drifts, and begins one. -/
theorem reports {heartbeatTTL : Nat} {req : HeartbeatRequest} {reported : WorkerState}
    {drift' : Text → Option Nat} (h : Sound s now drift)
    (hr : Reports s s' now heartbeatTTL req reported)
    (hdrifts : ∀ since, drift req.workerID = some since → s.drifts req.workerID = true)
    (hdrift : ∀ id since, drift' id = some since →
      drift id = some since ∨ id = req.workerID ∧ since = now) :
    Sound s' now drift' where
  desired other e he := by
    by_cases hid : other = req.workerID
    · subst hid
      rw [hr.desired] at he
      split_ifs at he
      · obtain rfl := Option.some.inj he
        rfl
      · exact h.desired _ e he
    · rw [hr.others _ hid] at he
      exact h.desired other e he
  updated other e he := by
    by_cases hid : other = req.workerID
    · subst hid
      rw [hr.updated] at he
      split_ifs at he
      · exact h.updated _ e he
      · obtain rfl := Option.some.inj he
        exact ⟨rfl, formatRFC3339_le now⟩
    · rw [hr.others _ hid] at he
      exact h.updated other e he
  active other e he hlive := by
    by_cases hid : other = req.workerID
    · subst hid
      exact hr.active
    · rw [hr.others _ hid] at he
      exact hr.members _ _ (h.active other e he hlive)
  dated other since hsince hnow := by
    by_cases hid : other = req.workerID
    · subst hid
      have hne : reported ≠ s.answer now req.workerID := by
        rw [WorkerStore.drifts, WorkerStore.reported, hr.status, h.answer_eq hr] at hnow
        exact of_decide_eq_true hnow
      rw [hr.updated, if_neg hne, h.updated_eq]
      cases hold : s.keys (workerKey req.workerID .desiredStateUpdated) with
      | none =>
        refine ⟨_, rfl, ?_⟩
        rcases hdrift _ _ hsince with hbefore | ⟨-, rfl⟩
        · obtain ⟨e, he, -⟩ := h.dated _ _ hbefore (hdrifts _ hbefore)
          rw [hold] at he
          exact nomatch he
        · exact formatRFC3339_le since
      | some e =>
        refine ⟨e, rfl, ?_⟩
        rcases hdrift _ _ hsince with hbefore | ⟨-, rfl⟩
        · obtain ⟨e', he', hle⟩ := h.dated _ _ hbefore (hdrifts _ hbefore)
          rw [hold] at he'
          obtain rfl := Option.some.inj he'
          exact hle
        · exact (h.updated _ e hold).2
    · rcases hdrift _ _ hsince with hbefore | ⟨heq, -⟩
      · rw [hr.others _ hid]
        refine h.dated other since hbefore ?_
        rw [← hnow]
        exact (drifts_congr (hr.others _ hid) (hr.others _ hid)).symm
      · exact absurd heq hid

/-- Workers whose records are removed report nothing. -/
theorem removes {ids : List Text} (h : Sound s now drift) (hr : Removes s s' ids) :
    Sound s' now drift where
  desired other e he := h.desired other e (hr.survivor he).2
  updated other e he := h.updated other e (hr.survivor he).2
  active other e he hlive := by
    obtain ⟨hid, he⟩ := hr.survivor he
    exact hr.stays _ _ hid (h.active other e he hlive)
  dated other since hsince hdrifts := by
    by_cases hid : other ∈ ids
    · rw [WorkerStore.drifts, WorkerStore.reported, hr.gone _ hid] at hdrifts
      exact nomatch hdrifts
    · rw [hr.kept _ hid]
      refine h.dated other since hsince ?_
      rw [← hdrifts]
      exact (drifts_congr (hr.kept _ hid) (hr.kept _ hid)).symm

/-- Only members are lost, and none that is online. -/
theorem sameKeys (h : Sound s now drift) (hkeys : s'.keys = s.keys)
    (hactive : ∀ id, (s.keys.get now (workerKey id .heartbeat)).isSome = true →
      id ∈ s.members .activeWorkers → id ∈ s'.members .activeWorkers) :
    Sound s' now drift where
  desired := hkeys ▸ h.desired
  updated := hkeys ▸ h.updated
  active other e he hlive := by
    rw [hkeys] at he
    refine hactive other ?_ (h.active other e he hlive)
    rw [Keys.get, he]
    show (if e.live now = true then some e.value else none).isSome = true
    rw [if_pos hlive]
    rfl
  dated other since hsince hdrifts := by
    rw [hkeys]
    refine h.dated other since hsince ?_
    rw [← hdrifts]
    exact (drifts_congr (congrFun hkeys _) (congrFun hkeys _)).symm

end Sound

/-! ## What a check does to the store -/

namespace ControlPlane

variable {now clock : Nat} {drift : Text → Option Nat} {settings : RuntimeSettings}

@[simp] theorem store_activateIncident (c : ControlPlane) (now : Nat) (key : IncidentType × Text)
    (message : Text) : (c.activateIncident now key message).store = c.store := rfl

@[simp] theorem store_resolveIncident (c : ControlPlane) (now : Nat) (key : IncidentType × Text)
    (message : Text) : (c.resolveIncident now key message).store = c.store := by
  rw [resolveIncident]
  cases c.incidents key with
  | none => rfl
  | some existing =>
    dsimp only
    by_cases hactive : existing.status = .active
    · rw [if_pos hactive]
    · rw [if_neg hactive]

@[simp] theorem store_syncIncident (c : ControlPlane) (now : Nat) (key : IncidentType × Text)
    (message : Text) (active : Bool) : (c.syncIncident now key message active).store = c.store := by
  cases active with
  | false => exact c.store_resolveIncident now key message
  | true => rfl

/-- The cleanup removes records. -/
theorem removes_cleanupStaleWorkers (settings : RuntimeSettings) (now : Nat) (c : ControlPlane) :
    ∃ ids, Removes c.store (c.cleanupStaleWorkers settings now).store ids := by
  have hresolve : ∀ (ids : List Text) (c : ControlPlane),
      (ids.foldl (fun c workerID =>
        [IncidentType.workerOffline, .workerErrorRate, .workerStuckDesired].foldl
          (fun c kind => c.resolveIncident now (kind, workerID)
            "Worker removed during stale cleanup.".toList) c) c).store = c.store := by
    intro ids
    induction ids with
    | nil => exact fun c => rfl
    | cons id ids ih =>
      intro c
      rw [List.foldl_cons, ih]
      simp only [List.foldl_cons, List.foldl_nil, store_resolveIncident]
  rw [cleanupStaleWorkers]
  split_ifs with hoff
  · exact ⟨[], fun _ _ => rfl, nofun, fun _ _ _ h => h, fun _ _ h => h⟩
  · rw [call, serve_cleanupStaleKnownWorkers]
    dsimp only
    rw [hresolve]
    exact ⟨_, removes_removalWrites _ _ _⟩

/-- A call that sets the desired state, or is refused. -/
theorem call_setDesiredState (c : ControlPlane) (now : Nat) (id state : Text) :
    (c.call now (setDesiredState id state)).2.store = c.store ∨
      ∃ desired, normalizeDesiredState state = some desired ∧
        Assigns c.store (c.call now (setDesiredState id state)).2.store id desired
          (formatRFC3339 now) := by
  by_cases hid : id = []
  · left
    rw [call, setDesiredState, if_pos hid]
    rfl
  · cases hstate : normalizeDesiredState state with
    | none =>
      left
      rw [call, setDesiredState, if_neg hid, hstate]
      rfl
    | some desired =>
      refine .inr ⟨desired, rfl, ?_⟩
      rw [call, serve_setDesiredState now c.store hid hstate]
      exact assigns_desiredState c.store now id desired (formatRFC3339 now)

theorem call_setWorkerQuarantined (c : ControlPlane) (now : Nat) (id : Text) (enabled : Bool)
    (reason : Text) :
    (c.call now (setWorkerQuarantined id enabled reason)).2.store = c.store ∨
      Assigns c.store (c.call now (setWorkerQuarantined id enabled reason)).2.store id
        (if enabled then .draining else .running) (formatRFC3339 now) := by
  by_cases hid : id = []
  · left
    rw [call, setWorkerQuarantined, if_pos hid]
    rfl
  · right
    rw [call, serve_setWorkerQuarantined now c.store enabled reason hid]
    cases enabled with
    | false => exact assigns_release c.store now id (formatRFC3339 now)
    | true => exact assigns_quarantine c.store now id reason (formatRFC3339 now)

/-- The keys that the automatic actions leave as they are. -/
def Agrees (s s' : WorkerStore) : Prop :=
  ∀ k : WorkerKey, k.2 ∉ [Field.desiredState, .desiredStateUpdated, .quarantined] →
    s'.keys k = s.keys k

theorem reported_of_agrees {s s' : WorkerStore} (h : Agrees s s') (id : Text) :
    s'.reported id = s.reported id := by
  rw [WorkerStore.reported, h _ (by simp), WorkerStore.reported]

/-- The state is set that the check drains a worker to. -/
theorem sound_of_drained {s s' : WorkerStore} (id : Text) (h : Sound s now drift)
    (ha : s' = s ∨ Assigns s s' id .draining (formatRFC3339 now))
    (hcall : ∀ since, drift id = some since →
      formatRFC3339 now ≤ since ∨ s.reported id = some .draining) :
    Sound s' now drift ∧ Agrees s s' := by
  rcases ha with rfl | ha
  · exact ⟨h, fun _ _ => rfl⟩
  · exact ⟨h.assigns ha (formatRFC3339_le now) hcall, fun k hk => ha.others k (.inr hk)⟩

/-- One worker of the check of the error rates. -/
theorem sound_checkErrorRateOf (settings : RuntimeSettings) (worker : WorkerSummary)
    {c : ControlPlane}
    (h : Sound c.store now drift)
    (hcall : settings.autoActionsEnabled = true →
      ((c.store.keys.get now (workerKey worker.workerID .metrics)).any
        fun metrics => settings.alertErrorRateThreshold ≤ metrics.errorsPerMin) = true →
      ∀ since, drift worker.workerID = some since →
        formatRFC3339 now ≤ since ∨ c.store.reported worker.workerID = some .draining) :
    Sound (c.checkErrorRateOf settings now worker).store now drift ∧
      Agrees c.store (c.checkErrorRateOf settings now worker).store := by
  have hread : c.call now (getWorkerMetrics worker.workerID) =
      (.ok (c.store.keys.get now (workerKey worker.workerID .metrics)), c) := rfl
  rw [checkErrorRateOf, hread]
  cases hmetrics : c.store.keys.get now (workerKey worker.workerID .metrics) with
  | none => exact ⟨h, fun _ _ => rfl⟩
  | some metrics =>
    dsimp only
    by_cases hrate : settings.alertErrorRateThreshold ≤ metrics.errorsPerMin
    · rw [decide_eq_true hrate, if_neg Bool.false_ne_true.symm]
      cases hauto : settings.autoActionsEnabled with
      | false =>
        rw [if_neg Bool.false_ne_true, if_neg fun hand => Bool.false_ne_true hand.1,
          store_syncIncident]
        exact ⟨h, fun _ _ => rfl⟩
      | true =>
        have hcall' := hcall hauto (by rw [hmetrics]; exact decide_eq_true hrate)
        rw [if_pos rfl]
        let synced := c.syncIncident now (.workerErrorRate, worker.workerID)
          "Worker error rate above threshold".toList true
        let drained := (synced.call now (setDesiredState worker.workerID "draining".toList)).2
        have hdrained : Sound drained.store now drift ∧ Agrees c.store drained.store := by
          have hsynced : synced.store = c.store := store_syncIncident ..
          refine sound_of_drained worker.workerID h ?_ hcall'
          rw [← hsynced]
          rcases synced.call_setDesiredState now worker.workerID "draining".toList with
            heq | ⟨desired, hdesired, ha⟩
          · exact .inl heq
          · obtain rfl : WorkerState.draining = desired := Option.some.inj hdesired
            exact .inr ha
        split_ifs
        · obtain ⟨hsound, hagrees⟩ := sound_of_drained worker.workerID hdrained.1
            (drained.call_setWorkerQuarantined now worker.workerID true
              "error_rate_threshold".toList)
            (by rw [reported_of_agrees hdrained.2]; exact hcall')
          exact ⟨hsound, fun k hk => (hagrees k hk).trans (hdrained.2 k hk)⟩
        · exact hdrained
    · rw [decide_eq_false hrate, if_pos rfl, store_syncIncident]
      exact ⟨h, fun _ _ => rfl⟩

/-- The list of the workers, which costs those that are offline their place in the set. -/
theorem call_getWorkers {c : ControlPlane} (h : Sound c.store now drift) :
    ∃ c', c.call now getWorkers =
        (.ok ((c.store.members .activeWorkers).filterMap (listed c.store.keys now)), c') ∧
      c'.store.keys = c.store.keys ∧ Sound c'.store now drift := by
  let removed := (offline c.store.keys now (c.store.members .activeWorkers)).map
    (Write.srem .activeWorkers)
  have hkeys : (c.store.applyAll now removed).keys = c.store.keys := by
    funext k
    refine WorkerStore.keys_applyAll_of_untouched fun w hw => ?_
    obtain ⟨id, -, rfl⟩ := List.mem_map.mp hw
    rfl
  refine ⟨{ c with store := c.store.applyAll now removed }, ?_, hkeys, h.sameKeys hkeys ?_⟩
  · rw [call, serve_getWorkers]
  · intro id honline hmem
    refine WorkerStore.mem_applyAll (fun hw => ?_) hmem
    obtain ⟨other, hother, heq⟩ := List.mem_map.mp hw
    obtain rfl : other = id := (Write.srem.inj heq).2
    obtain ⟨-, hoffline⟩ := List.mem_filter.mp hother
    rw [Option.isNone_iff_eq_none.mp hoffline] at honline
    exact Bool.false_ne_true honline

/-- A worker that is listed is online. -/
theorem exists_of_listed {keys : Keys WorkerKey fun k => k.2.Value} {ids : List Text}
    {worker : WorkerSummary} (h : worker ∈ ids.filterMap (listed keys now)) :
    worker.workerID ∈ ids ∧
      ∃ heartbeat, keys.get now (workerKey worker.workerID .heartbeat) = some heartbeat ∧
        worker = summaryOf keys now worker.workerID heartbeat := by
  obtain ⟨id, hid, hlisted⟩ := List.mem_filterMap.mp h
  obtain ⟨heartbeat, hbeat, rfl⟩ := Option.map_eq_some_iff.mp hlisted
  exact ⟨hid, heartbeat, hbeat, rfl⟩

theorem sound_checkWorkerErrorRate (settings : RuntimeSettings) {c : ControlPlane}
    (h : Sound c.store now drift)
    (hcall : settings.autoActionsEnabled = true → 0 < settings.alertErrorRateThreshold →
      ∀ id ∈ c.store.members .activeWorkers,
        (c.store.keys.get now (workerKey id .heartbeat)).isSome = true →
        ((c.store.keys.get now (workerKey id .metrics)).any
          fun metrics => settings.alertErrorRateThreshold ≤ metrics.errorsPerMin) = true →
        ∀ since, drift id = some since →
          formatRFC3339 now ≤ since ∨ c.store.reported id = some .draining) :
    Sound (c.checkWorkerErrorRate settings now).store now drift ∧
      Agrees c.store (c.checkWorkerErrorRate settings now).store := by
  rw [checkWorkerErrorRate]
  by_cases hthreshold : settings.alertErrorRateThreshold ≤ 0
  · rw [if_pos hthreshold]
    exact ⟨h, fun _ _ => rfl⟩
  · rw [if_neg hthreshold]
    obtain ⟨c', hcall', hkeys, hsound⟩ := call_getWorkers h
    rw [hcall']
    refine List.foldlRecOn (motive := fun d : ControlPlane =>
      Sound d.store now drift ∧ Agrees c.store d.store) _ _
      ⟨hsound, fun k _ => congrFun hkeys k⟩ ?_
    intro d hd worker hworker
    obtain ⟨hmem, heartbeat, hbeat, -⟩ := exists_of_listed hworker
    obtain ⟨hnext, hagrees⟩ := sound_checkErrorRateOf settings worker
      hd.1 <| by
        intro hauto hrate since hsince
        rw [reported_of_agrees hd.2]
        refine hcall hauto (Rat.not_le.mp hthreshold) worker.workerID hmem ?_ ?_ since hsince
        · rw [hbeat]
          rfl
        · rw [← hrate, Keys.get, Keys.get, hd.2 (workerKey worker.workerID .metrics) (by simp)]
    exact ⟨hnext, fun k hk => (hagrees k hk).trans (hd.2 k hk)⟩

/-! ## The incident -/

/-- There is an active incident. -/
def hasActive (c : ControlPlane) (key : IncidentType × Text) : Bool :=
  (c.incidents key).any fun record => record.status = .active

theorem hasActive_activateIncident (c : ControlPlane) (now : Nat) (key : IncidentType × Text)
    (message : Text) : (c.activateIncident now key message).hasActive key = true := by
  rw [hasActive, activateIncident]
  dsimp only
  rw [Function.update_self]
  cases c.incidents key with
  | none => rfl
  | some existing =>
    by_cases hactive : existing.status = .active
    · dsimp only
      rw [if_pos hactive]
      exact decide_eq_true hactive
    · dsimp only
      rw [if_neg hactive]
      rfl

theorem hasActive_syncIncident_of_ne {c : ControlPlane} {key other : IncidentType × Text}
    (h : key ≠ other) (message : Text) (active : Bool) :
    (c.syncIncident now other message active).hasActive key = c.hasActive key := by
  cases active with
  | true =>
    show Option.any _ (Function.update c.incidents other _ key) = _
    rw [Function.update_of_ne h]
    rfl
  | false =>
    show (c.resolveIncident now other message).hasActive key = c.hasActive key
    rw [resolveIncident]
    cases c.incidents other with
    | none => rfl
    | some existing =>
      dsimp only
      by_cases hactive : existing.status = .active
      · rw [if_pos hactive]
        show Option.any _ (Function.update c.incidents other _ key) = _
        rw [Function.update_of_ne h]
        rfl
      · rw [if_neg hactive]

/-- The worker has been in another state than its desired one for too long. -/
def stuck (settings : RuntimeSettings) (now : Nat) (s : WorkerStore) (worker : WorkerSummary) :
    Bool :=
  worker.status ≠ some worker.desiredState &&
    (s.keys.get now (workerKey worker.workerID .desiredStateUpdated)).any
      fun updated => stuckDesiredGrace settings < now - updated

theorem checkStuckOf_eq (settings : RuntimeSettings) (now : Nat) (c : ControlPlane)
    (worker : WorkerSummary) :
    c.checkStuckOf settings now worker =
      c.syncIncident now (.workerStuckDesired, worker.workerID)
        "Worker is not converging to desired state".toList
        (stuck settings now c.store worker) := rfl

@[simp] theorem store_foldl_checkStuckOf (c : ControlPlane) (workers : List WorkerSummary) :
    (workers.foldl (checkStuckOf settings now) c).store = c.store := by
  refine List.foldlRecOn (motive := fun d : ControlPlane => d.store = c.store) _ _ rfl ?_
  intro d hd worker _
  rw [checkStuckOf_eq, store_syncIncident, hd]

/-- A stuck worker has its incident at the end of the loop. -/
theorem hasActive_foldl_checkStuckOf {c : ControlPlane} {workers : List WorkerSummary}
    {worker : WorkerSummary} (hmem : worker ∈ workers)
    (hstuck : ∀ other ∈ workers, other.workerID = worker.workerID →
      stuck settings now c.store other = true) :
    (workers.foldl (checkStuckOf settings now) c).hasActive
      (.workerStuckDesired, worker.workerID) = true := by
  obtain ⟨before, rest, rfl⟩ := List.append_of_mem hmem
  rw [List.foldl_append, List.foldl_cons]
  let d := before.foldl (checkStuckOf settings now) c
  have hd : d.store = c.store := store_foldl_checkStuckOf c before
  refine (List.foldlRecOn (motive := fun e : ControlPlane => e.store = c.store ∧
    e.hasActive (.workerStuckDesired, worker.workerID) = true) _ _ ⟨?_, ?_⟩ ?_).2
  · rw [checkStuckOf_eq, store_syncIncident]
    exact hd
  · show (d.checkStuckOf settings now worker).hasActive _ = true
    rw [checkStuckOf_eq, hd, hstuck worker hmem rfl]
    exact d.hasActive_activateIncident ..
  · intro e he other hother
    rw [checkStuckOf_eq, store_syncIncident, he.1]
    refine ⟨rfl, ?_⟩
    by_cases hid : other.workerID = worker.workerID
    · rw [hid, hstuck other (List.mem_append_right _ (.tail _ hother)) hid]
      exact e.hasActive_activateIncident ..
    · rw [hasActive_syncIncident_of_ne fun heq => hid (congrArg Prod.snd heq).symm]
      exact he.2

/-- A drift that is older than the grace period is found. -/
theorem hasActive_checkStuckDesiredState {c : ControlPlane} {id : Text} {since : Nat}
    (h : Sound c.store now drift) (hsince : drift id = some since)
    (hdrifts : c.store.drifts id = true) (hgrace : stuckDesiredGrace settings < now - since)
    (honline : (c.store.keys.get now (workerKey id .heartbeat)).isSome = true) :
    (c.checkStuckDesiredState settings now).hasActive (.workerStuckDesired, id) = true := by
  obtain ⟨c', hcall, hkeys, hsound⟩ := call_getWorkers h
  rw [checkStuckDesiredState, hcall]
  obtain ⟨heartbeat, hbeat⟩ := Option.isSome_iff_exists.mp honline
  obtain ⟨entry, hentry, -, hlive⟩ := Keys.exists_of_get hbeat
  have hactive : id ∈ c.store.members .activeWorkers := h.active id entry hentry hlive
  have hmem : summaryOf c.store.keys now id heartbeat ∈
      (c.store.members .activeWorkers).filterMap (listed c.store.keys now) := by
    refine List.mem_filterMap.mpr ⟨id, hactive, ?_⟩
    rw [listed, hbeat]
    rfl
  refine hasActive_foldl_checkStuckOf hmem ?_
  intro other hother hid
  obtain ⟨-, heartbeat', -, heq⟩ := exists_of_listed hother
  replace hid : other.workerID = id := hid
  obtain ⟨updated, hupdated, hle⟩ := h.dated id since hsince hdrifts
  rw [stuck, hid, hkeys, h.updated_eq, hupdated, Bool.and_eq_true]
  constructor
  · -- what is read of the status is what was reported, or has expired
    refine decide_eq_true fun hstatus => ?_
    rw [heq, hid] at hstatus
    have hread : c.store.keys.get now (workerKey id .status) = some (c.store.desired now id) :=
      hstatus
    obtain ⟨e, he, hvalue, -⟩ := Keys.exists_of_get hread
    have hdesired : c.store.desired now id = c.store.toBe id := h.desired_eq now id
    rw [WorkerStore.drifts, WorkerStore.reported, he] at hdrifts
    exact of_decide_eq_true hdrifts (hvalue.trans hdesired)
  · exact decide_eq_true (Nat.lt_of_lt_of_le hgrace (Nat.sub_le_sub_left hle now))

theorem keys_checkStuckDesiredState (settings : RuntimeSettings) {c : ControlPlane}
    (h : Sound c.store now drift) :
    (c.checkStuckDesiredState settings now).store.keys = c.store.keys ∧
      Sound (c.checkStuckDesiredState settings now).store now drift := by
  obtain ⟨c', hcall, hkeys, hsound⟩ := call_getWorkers h
  rw [checkStuckDesiredState, hcall]
  dsimp only
  rw [store_foldl_checkStuckOf]
  exact ⟨hkeys, hsound⟩

/-- The same of a check, which may remove records. -/
def Spares (s s' : WorkerStore) : Prop :=
  ∀ k : WorkerKey, k.2 ∉ [Field.desiredState, .desiredStateUpdated, .quarantined] →
    s'.keys k = s.keys k ∨ s'.keys k = none

theorem spares_of_removes {s s' : WorkerStore} {ids : List Text} (h : Removes s s' ids) :
    Spares s s' := by
  intro k _
  by_cases hk : k.1 ∈ ids
  · exact .inr (h.gone k hk)
  · exact .inl (h.kept k hk)

theorem Spares.agrees {s s' s'' : WorkerStore} (h : Spares s s') (h' : Agrees s' s'') :
    Spares s s'' := by
  intro k hk
  rw [h' k hk]
  exact h k hk

/-- The part of a check before the desired states are looked at. -/
def prepared (settings : RuntimeSettings) (now : Nat) (c : ControlPlane) : ControlPlane :=
  (c.cleanupStaleWorkers settings now).checkWorkerErrorRate settings now

theorem sound_prepared {c : ControlPlane} (h : Sound c.store now drift)
    (hcall : ∀ id ∈ c.store.members .activeWorkers,
      ∀ desired ∈ (Event.check settings).assigned now c.store id, ∀ since ∈ drift id,
        formatRFC3339 now ≤ since ∨ c.store.reported id = some desired) :
    Sound (c.prepared settings now).store now drift ∧
      Spares c.store (c.prepared settings now).store := by
  obtain ⟨ids, hremoves⟩ := removes_cleanupStaleWorkers settings now c
  obtain ⟨hsound, hagrees⟩ := sound_checkWorkerErrorRate settings
    (h.removes hremoves) <| by
      intro hauto hthreshold id hmem honline hrate since hsince
      -- a worker that is still online has not been removed
      have hid : id ∉ ids := by
        intro hid
        rw [Keys.get_of_none (hremoves.gone (workerKey id .heartbeat) hid)] at honline
        exact Bool.false_ne_true honline
      have hsame : ∀ field,
          (c.cleanupStaleWorkers settings now).store.keys (workerKey id field) =
            c.store.keys (workerKey id field) := fun field => hremoves.kept _ hid
      have hdraining : (Event.check settings).assigned now c.store id = some .draining := by
        rw [Keys.get, hsame] at honline hrate
        exact if_pos ⟨hauto, hthreshold, honline, hrate⟩
      rw [WorkerStore.reported, hsame]
      exact hcall id (hremoves.members _ _ hmem) .draining hdraining since hsince
  exact ⟨hsound, (spares_of_removes hremoves).agrees hagrees⟩

theorem sound_runChecks {c : ControlPlane} (h : Sound c.store now drift)
    (hcall : ∀ id ∈ c.store.members .activeWorkers,
      ∀ desired ∈ (Event.check settings).assigned now c.store id, ∀ since ∈ drift id,
        formatRFC3339 now ≤ since ∨ c.store.reported id = some desired) :
    Sound (c.runChecks settings now).store now drift ∧
      Spares c.store (c.runChecks settings now).store := by
  rw [runChecks]
  split_ifs
  · obtain ⟨ids, hremoves⟩ := removes_cleanupStaleWorkers settings now c
    exact ⟨h.removes hremoves, spares_of_removes hremoves⟩
  · obtain ⟨hsound, hspares⟩ := sound_prepared h hcall
    obtain ⟨hkeys, hchecked⟩ := keys_checkStuckDesiredState settings hsound
    exact ⟨hchecked, hspares.agrees fun k _ => congrFun hkeys k⟩

/-- What an operator or a check does to the store. -/
theorem sound_effect (heartbeatTTL : Nat) {c : ControlPlane} {e : Event}
    (hbeat : e.isHeartbeat = false) (h : Sound c.store now drift)
    (hcall : ∀ id ∈ e.targets c.store, ∀ desired ∈ e.assigned now c.store id,
      ∀ since ∈ drift id, formatRFC3339 now ≤ since ∨ c.store.reported id = some desired) :
    Sound (e.effect heartbeatTTL now c).store now drift ∧
      Spares c.store (e.effect heartbeatTTL now c).store := by
  cases e with
  | heartbeat req => exact nomatch hbeat
  | setDesiredState id state =>
    rcases c.call_setDesiredState now id state with heq | ⟨desired, hdesired, ha⟩
    · rw [Event.effect, heq]
      exact ⟨h, fun _ _ => .inl rfl⟩
    · exact ⟨h.assigns ha (formatRFC3339_le now)
        (hcall id (List.mem_singleton_self id) desired hdesired),
        fun k hk => .inl (ha.others k (.inr hk))⟩
  | setWorkerQuarantined id enabled reason =>
    rcases c.call_setWorkerQuarantined now id enabled reason with heq | ha
    · rw [Event.effect, heq]
      exact ⟨h, fun _ _ => .inl rfl⟩
    · exact ⟨h.assigns ha (formatRFC3339_le now)
        (hcall id (List.mem_singleton_self id) _ rfl),
        fun k hk => .inl (ha.others k (.inr hk))⟩
  | check settings => exact sound_runChecks h hcall

end ControlPlane

/-! ## Runs that do not put the time off -/

/-- What holds in every run without provocation. -/
structure Settled (w : Watched) : Prop where
  sound : Sound w.plane.store w.clock w.drift
  drifting : ∀ id since, w.drift id = some since → w.plane.store.drifts id = true

theorem Sound.of_drift {s : WorkerStore} {clock : Nat} {drift drift' : Text → Option Nat}
    (h : Sound s clock drift)
    (hdrift : ∀ id since, drift' id = some since → drift id = some since) :
    Sound s clock drift' :=
  ⟨h.desired, h.updated, h.active, fun id since hsince => h.dated id since (hdrift id since hsince)⟩

/-- What a heartbeat does, if it is accepted. -/
theorem store_heartbeat (heartbeatTTL now : Nat) (c : ControlPlane) (req : HeartbeatRequest) :
    ((Event.heartbeat req).effect heartbeatTTL now c).store = c.store ∧
        (∀ id, (Event.heartbeat req).beats id = false) ∨
      ∃ status, Reports c.store ((Event.heartbeat req).effect heartbeatTTL now c).store now
        heartbeatTTL req status := by
  by_cases hid : req.workerID = []
  · refine .inl ⟨?_, fun id => decide_eq_false ?_⟩
    · rw [Event.effect, ControlPlane.call, upsertHeartbeat, if_pos hid]
      rfl
    · rintro ⟨rfl, hne, -⟩
      exact hne hid
  · cases hstatus : normalizeStatus req.status with
    | none =>
      refine .inl ⟨?_, fun id => decide_eq_false ?_⟩
      · rw [Event.effect, ControlPlane.call, upsertHeartbeat, if_neg hid, hstatus]
        rfl
      · rintro ⟨-, -, hsome⟩
        rw [hstatus] at hsome
        exact Bool.false_ne_true hsome
    | some status =>
      refine .inr ⟨status, ?_⟩
      rw [Event.effect, ControlPlane.call, serve_upsertHeartbeat now c.store hid hstatus]
      exact reports_afterHeartbeat c.store now heartbeatTTL req status

/-- One step without provocation. -/
theorem settled_step {heartbeatTTL : Nat} (w : Watched) (a : Nat × Event) (w' : Watched)
    (h : Settled w) (hC : Unprovoked w a) (hs : (watching heartbeatTTL).step w a = some w') :
    Settled w' := by
  obtain ⟨now, e⟩ := a
  rw [watching] at hs
  dsimp only at hs
  split_ifs at hs with hle
  obtain rfl := Option.some.inj hs
  have hsound : Sound w.plane.store now w.drift := h.sound.later hle
  refine ⟨?sound, ?drifting⟩
  case drifting =>
    intro id since hsince
    dsimp only at hsince
    split_ifs at hsince with hdrifts
    · exact hdrifts
    · exact hdrifts
  case sound =>
    -- a drift that is there was there, or begins with a heartbeat
    have hdrift : ∀ id since, (if (e.effect heartbeatTTL now w.plane).store.drifts id then
        (w.drift id).or (if e.beats id then some now else none) else none) = some since →
        w.drift id = some since ∨ e.beats id = true ∧ since = now := by
      intro id since hsince
      split_ifs at hsince with hdrifts hbeats
      · cases hold : w.drift id with
        | none =>
          rw [hold] at hsince
          exact .inr ⟨hbeats, (Option.some.inj hsince).symm⟩
        | some t =>
          rw [hold] at hsince
          exact .inl hsince
      · rw [Option.or_none] at hsince
        exact .inl hsince
    have hold : (∀ id, e.beats id = false) →
        Sound (e.effect heartbeatTTL now w.plane).store now w.drift →
        Sound (e.effect heartbeatTTL now w.plane).store now (fun id =>
          if (e.effect heartbeatTTL now w.plane).store.drifts id then
            (w.drift id).or (if e.beats id then some now else none) else none) := by
      intro hbeats hkept
      refine hkept.of_drift fun id since hsince => ?_
      rcases hdrift id since hsince with hbefore | ⟨hbeat, -⟩
      · exact hbefore
      · rw [hbeats id] at hbeat
        exact nomatch hbeat
    cases e with
    | heartbeat req =>
      rcases store_heartbeat heartbeatTTL now w.plane req with ⟨hsame, hbeats⟩ | ⟨status, hr⟩
      · exact hold hbeats (by rw [hsame]; exact hsound)
      · refine hsound.reports hr (h.drifting req.workerID) fun id since hsince => ?_
        rcases hdrift id since hsince with hbefore | ⟨hbeat, hnow⟩
        · exact .inl hbefore
        · exact .inr ⟨(of_decide_eq_true hbeat).1.symm, hnow⟩
    | _ => exact hold (fun _ => rfl) (ControlPlane.sound_effect _ rfl hsound hC).1

theorem settled_of_reaches {heartbeatTTL : Nat} {w : Watched}
    (h : (watching heartbeatTTL).Reaches Unprovoked {} w) : Settled w :=
  h.invariant ⟨Sound.empty, nofun⟩ settled_step

/-- After a check, a worker whose heartbeats have reported another state than its desired one
for longer than the grace period has an active incident. -/
theorem stuck_of_unprovoked {heartbeatTTL now since : Nat} {settings : RuntimeSettings}
    {w w' : Watched} {id : Text} (h : (watching heartbeatTTL).Reaches Unprovoked {} w)
    (hunprovoked : Unprovoked w (now, .check settings))
    (hcheck : (watching heartbeatTTL).step w (now, .check settings) = some w')
    (hon : settings.alertsEnabled = true ∨ settings.autoActionsEnabled = true)
    (hsince : w'.drift id = some since)
    (honline : (w'.plane.store.keys.get now (workerKey id .heartbeat)).isSome = true)
    (hgrace : ControlPlane.stuckDesiredGrace settings < now - since) :
    w'.plane.hasActive (.workerStuckDesired, id) = true := by
  rw [watching] at hcheck
  dsimp only at hcheck
  split_ifs at hcheck with hle
  obtain rfl := Option.some.inj hcheck
  have hsettled := settled_of_reaches h
  have hsound : Sound w.plane.store now w.drift := hsettled.sound.later hle
  have hprepared : Sound (w.plane.prepared settings now).store now w.drift :=
    (ControlPlane.sound_prepared hsound hunprovoked).1
  have hrun : w.plane.runChecks settings now =
      (w.plane.prepared settings now).checkStuckDesiredState settings now := by
    refine if_neg fun hoff => ?_
    rcases hon with hon | hon
    · exact absurd (hon.symm.trans hoff.1) Bool.true_eq_false.mp
    · exact absurd (hon.symm.trans hoff.2) Bool.true_eq_false.mp
  have hkeys : (w.plane.runChecks settings now).store.keys =
      (w.plane.prepared settings now).store.keys := by
    rw [hrun]
    exact (ControlPlane.keys_checkStuckDesiredState _ hprepared).1
  -- the drift that is there after the check was there before it
  dsimp only at hsince honline
  split_ifs at hsince with hdrifts hbeats
  · exact nomatch hbeats
  · rw [Option.or_none] at hsince
    show (w.plane.runChecks settings now).hasActive _ = true
    rw [Event.effect, hkeys] at honline
    rw [hrun]
    refine ControlPlane.hasActive_checkStuckDesiredState hprepared hsince ?_ hgrace honline
    rw [← hdrifts]
    exact (drifts_congr (congrFun hkeys _) (congrFun hkeys _)).symm

/-- A heartbeat of `w1`, which reports to run, and its error rate. -/
def runningBeat (atSecond : Nat) (errorsPerMin : ℚ) : Nat × Event :=
  (atSecond * second,
    .heartbeat
      { workerID := "w1".toList
        status := "running".toList
        metrics := some ⟨errorsPerMin⟩ })

/-- A check with a grace period of a minute. -/
def minuteCheck (atSecond : Nat) : Nat × Event :=
  (atSecond * second, .check { stuckDesiredGraceSecond := 60 })

/-- The worker is to drain, and keeps running. -/
theorem stuck_of_unprovoked_drained :
    ∃ w' : Watched, w'.plane.hasActive (.workerStuckDesired, "w1".toList) = true ∧
      w'.drift "w1".toList = some (120 * second) := by
  let w := (watching (60 * second)).final Unprovoked {}
    [runningBeat 100 0, (105 * second, .setDesiredState "w1".toList "draining".toList),
      runningBeat 120 0, runningBeat 150 0, runningBeat 180 0]
  have hrun : (watching (60 * second)).Reaches Unprovoked {} w :=
    System.reaches_final (by decide)
  have hstep : (watching (60 * second)).step w (minuteCheck 190) =
      some ((watching (60 * second)).next w (minuteCheck 190)) :=
    System.step_eq_next (by decide)
  have hdrift : ((watching (60 * second)).next w (minuteCheck 190)).drift "w1".toList =
      some (120 * second) := by decide
  refine ⟨_, ?_, hdrift⟩
  exact stuck_of_unprovoked hrun (by decide) hstep (.inl rfl) hdrift
    (by decide) (by decide)

/-- A worker that does not drain has no incident, though it has reported to run for longer
than the grace period: every check drains it again, for its error rate. -/
theorem incident_postponed :
    ∃ w w' : Watched, (watching (60 * second)).Reaches Always {} w ∧
      (watching (60 * second)).step w (minuteCheck 190) = some w' ∧
      w'.drift "w1".toList = some (120 * second) ∧
      (w'.plane.store.keys.get (190 * second) (workerKey "w1".toList .heartbeat)).isSome = true ∧
      60 * second < 190 * second - 120 * second ∧
      w'.plane.hasActive (.workerStuckDesired, "w1".toList) = false := by
  let w := (watching (60 * second)).final Always {}
    [runningBeat 100 12, minuteCheck 100, runningBeat 120 12, minuteCheck 130,
      runningBeat 150 12, minuteCheck 160, runningBeat 180 12]
  have hrun : (watching (60 * second)).Reaches Always {} w :=
    System.reaches_final (by decide)
  refine ⟨w, (watching (60 * second)).next w (minuteCheck 190), hrun,
    System.step_eq_next ?_, ?_, ?_, ?_, ?_⟩
  · decide
  · decide +kernel
  · decide +kernel
  · decide
  · decide +kernel

end ValidEmailVerifier.Fleet
