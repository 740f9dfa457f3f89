/-
# `Fleet.AlertPasses` — which incidents are active after a pass of the alert service

A pass reads the pools, the workers, their metrics and desired states, and the health of the
providers, and calls `syncIncident` for every subject it finds there.  What it reads is given:
it may be anything, and change from pass to pass in any way; every read and every write of an
incident may fail.

An incident of a subject that a pass does not look at is left as it is.  So the incidents that
are active after a pass are those of the subjects whose condition holds exactly if every active
one was of a subject that is looked at, or of a worker removed as stale (`asRead_iff`).
-/
import ValidEmailVerifier.Fleet.Incidents
import ValidEmailVerifier.Lib.KeyValues
import ValidEmailVerifier.Lib.Table
import ValidEmailVerifier.Policy.ProviderHealth

namespace ValidEmailVerifier.Fleet.Incidents

open Transition Worker
open Policy (Provider ProviderRates ProviderHealthThresholds ProviderStatus ProviderSums
  ProviderMode ProviderModes providerStatus currentMode averageOrZero normalizeProviderName)

/-! ## Types of incidents -/

inductive AlertType where
  | workerOffline | poolUnderCapacity | workerErrorRate | workerStuckDesired | providerHealth
  deriving DecidableEq, Repr

def AlertType.name : AlertType → Text
  | .workerOffline => "worker_offline".toList
  | .poolUnderCapacity => "pool_under_capacity".toList
  | .workerErrorRate => "worker_error_rate".toList
  | .workerStuckDesired => "worker_stuck_desired".toList
  | .providerHealth => "provider_health".toList

/-- The key of the incident of a subject. -/
def AlertType.key (type : AlertType) (subject : Text) : Text :=
  incidentStateKey type.name subject

/-- Incidents of different types or subjects have different keys. -/
theorem AlertType.key_inj {type other : AlertType} {subject subject' : Text} :
    type.key subject = other.key subject' ↔ type = other ∧ subject = subject' := by
  have hbefore : ∀ (t : AlertType) (x : Text), Text.before ':' (t.key x) = t.name ∧
      Text.after ':' (t.key x) = x := by
    intro t x
    have hcolon : ':' ∉ t.name := by cases t <;> decide
    have hkey : t.key x = t.name ++ ':' :: x := by
      rw [AlertType.key, incidentStateKey, List.append_assoc]
      rfl
    rw [hkey]
    exact ⟨KeyValues.before_append hcolon, KeyValues.after_append hcolon⟩
  have hname : ∀ t t' : AlertType, t.name = t'.name → t = t' := by
    intro t t'
    cases t <;> cases t' <;> decide
  constructor
  · intro h
    refine ⟨hname _ _ ?_, ?_⟩
    · rw [← (hbefore type subject).1, h, (hbefore other subject').1]
    · rw [← (hbefore type subject).2, h, (hbefore other subject').2]
  · rintro ⟨rfl, rfl⟩
    rfl

/-! ## The incidents of workers by type -/

/-- The types of the incidents of a `ControlPlane`. -/
def AlertType.ofWorker : Fleet.IncidentType → AlertType
  | .workerOffline => .workerOffline
  | .workerErrorRate => .workerErrorRate
  | .workerStuckDesired => .workerStuckDesired

theorem AlertType.ofWorker_inj {kind other : Fleet.IncidentType} :
    AlertType.ofWorker kind = AlertType.ofWorker other ↔ kind = other := by
  cases kind <;> cases other <;> decide

/-- What a `ControlPlane` keeps of a record. -/
def IncidentRecord.brief (record : IncidentRecord) : Fleet.IncidentRecord :=
  ⟨record.status, record.message, record.openedAt, record.updatedAt, record.resolvedAt⟩

/-- The control plane has the incidents of the store that are of workers. -/
def Keeps (c : ControlPlane) (s : IncidentStore) : Prop :=
  ∀ kind subject, c.incidents (kind, subject) =
    (s.records ((AlertType.ofWorker kind).key subject)).map IncidentRecord.brief

section

variable {c : ControlPlane} {s : IncidentStore} {kind : Fleet.IncidentType} {subject : Text}

theorem Keeps.saveIncident (h : Keeps c s) {record : IncidentRecord}
    {brief : Fleet.IncidentRecord} (hkey : record.key = (AlertType.ofWorker kind).key subject)
    (hbrief : record.brief = brief) :
    Keeps { c with incidents := Function.update c.incidents (kind, subject) (some brief) }
      (s.saveIncident record) := by
  subst hbrief
  intro other subject'
  rw [IncidentStore.saveIncident]
  dsimp only
  rw [hkey, Function.update_apply, Function.update_apply, h]
  simp only [AlertType.key_inj, AlertType.ofWorker_inj, Prod.mk.injEq]
  split_ifs
  · rfl
  · rfl

theorem Keeps.activateOrResolve (h : Keeps c s) (hsound : s.Sound)
    (kind : Fleet.IncidentType) (subject : Text) (now : Nat)
    (incidentType severity message : Text) (contextData : Context) :
    Keeps (c.activateIncident now (kind, subject) message)
        (s.activateIncident now ((AlertType.ofWorker kind).key subject) incidentType severity
          message contextData).2 ∧
      Keeps (c.resolveIncident now (kind, subject) message)
        (s.resolveIncident now ((AlertType.ofWorker kind).key subject) message contextData).2 := by
  have hkey : (AlertType.ofWorker kind).key subject ≠ [] := incidentStateKey_ne_nil _ _
  rw [ControlPlane.activateIncident, ControlPlane.resolveIncident, h,
    IncidentStore.activateIncident, IncidentStore.resolveIncident, IncidentStore.getIncident,
    if_neg hkey]
  cases hrecord : s.records ((AlertType.ofWorker kind).key subject) with
  | none =>
    dsimp only [Option.map_none]
    exact ⟨h.saveIncident rfl rfl, h⟩
  | some existing =>
    have hfiled := hsound.filed _ existing hrecord
    have hstatus : existing.brief.status = existing.status := rfl
    simp only [Option.map_some, hstatus]
    by_cases hactive : existing.status = .active
    · simp only [if_pos hactive]
      exact ⟨h.saveIncident hfiled rfl, h.saveIncident hfiled rfl⟩
    · simp only [if_neg hactive]
      exact ⟨h.saveIncident rfl rfl, h⟩

/-- A call for a worker does the same to both. -/
theorem Keeps.syncIncident {service : Service} (h : Keeps c service.store)
    (hsound : service.store.Sound) {call : SyncCall}
    (hkey : call.incidentKey = (AlertType.ofWorker kind).key subject) :
    Keeps (c.syncIncident call.now (kind, subject) call.message call.active)
      (service.syncIncident call).store := by
  obtain ⟨hactivated, hresolved⟩ := h.activateOrResolve hsound kind subject call.now
    call.incidentType call.severity call.message call.contextData
  rw [← hkey] at hactivated hresolved
  rw [ControlPlane.syncIncident, Service.syncIncident]
  cases call.active with
  | true => exact hactivated
  | false =>
    rw [if_neg Bool.false_ne_true, if_neg Bool.false_ne_true]
    cases hresult : service.store.resolveIncident call.now call.incidentKey call.message
      call.contextData with
    | mk told store =>
      rw [hresult] at hresolved
      cases told with
      | none => exact hresolved
      | some record =>
        dsimp only
        split_ifs
        · exact hresolved
        · exact hresolved

end

/-! ## Reads -/

structure PassSettings extends RuntimeSettings where
  alertHeartbeatGraceSecond : Int := 120
  thresholds : ProviderHealthThresholds ℚ

/-- What is listed of the members of a set: each of them once. -/
structure Listing (α : Type) (id : α → Text) where
  members : List α
  nodup : (members.map id).Nodup

structure PoolSummary where
  pool : Text
  online : Int
  desired : Int

structure ProviderMetric extends ProviderRates ℚ where
  avgRetryAfter : ℚ

/-- What a pass reads, with `none` for a read that fails, and the times at which it looks at
the clock; the incidents that are refused can be neither read nor saved. -/
structure Reads where
  settings : PassSettings
  cleanupAt : Nat
  now : AlertType → Nat
  staleWorkers : Option (List Text)
  knownWorkers : Option (Listing (Text × Option (Option Nat)) Prod.fst)
  pools : Option (Listing PoolSummary PoolSummary.pool)
  meteredWorkers :
    Option (Listing (WorkerSummary × Option (Option WorkerMetrics)) fun w => w.1.workerID)
  directedWorkers : Option (Listing (WorkerSummary × Option (Option Nat)) fun w => w.1.workerID)
  reportingWorkers : Option (List (List ProviderMetric))
  providerModes : Option ProviderModes
  refused : Text → Bool := fun _ => false

/-- The members of a set that could be listed. -/
def listed {α : Type} {id : α → Text} : Option (Listing α id) → List α
  | none => []
  | some l => l.members

theorem nodup_listed {α : Type} {id : α → Text} (l : Option (Listing α id)) :
    ((listed l).map id).Nodup := by
  cases l with
  | none => exact List.nodup_nil
  | some l => exact l.nodup

namespace Reads

variable (r : Reads)

/-! ## Checks -/

/-- A context with a few entries. -/
def contextOf (entries : List (String × Value)) : Context := fun key =>
  (entries.find? fun e => e.1.toList = key).map Prod.snd

/-- The call of `syncIncident` for a subject. -/
def call (type : AlertType) (severity message : String) (subject : Text)
    (entries : List (String × Value)) (active : Bool) : SyncCall where
  now := r.now type
  settings := r.settings.toRuntimeSettings
  incidentKey := type.key subject
  incidentType := type.name
  severity := severity.toList
  message := message.toList
  active := active
  contextData := contextOf entries
  keyed := incidentStateKey_ne_nil _ _

/-- A worker whose last sign of life cannot be read is passed over. -/
def checkOfflineWorkers : List SyncCall :=
  let grace :=
    if r.settings.alertHeartbeatGraceSecond ≤ 0 then 120 * second
    else r.settings.alertHeartbeatGraceSecond.toNat * second
  (listed r.knownWorkers).filterMap fun w =>
    w.2.map fun lastSeen =>
      r.call .workerOffline "critical" "Worker heartbeat missing" w.1
        (("worker_id", .text w.1) :: lastSeen.toList.map fun seen => ("last_seen", .time seen))
        (lastSeen.any fun seen => grace < r.now .workerOffline - seen)

def checkPoolCapacity : List SyncCall :=
  (listed r.pools).filterMap fun pool =>
    some (r.call .poolUnderCapacity "warning" "Pool online workers below desired capacity"
      pool.pool
      [("pool", .text pool.pool), ("online", .number pool.online),
        ("desired", .number pool.desired)]
      (0 < pool.desired && pool.online < pool.desired))

/-- A worker without metrics is passed over. -/
def checkWorkerErrorRate : List SyncCall :=
  let threshold := r.settings.alertErrorRateThreshold
  if threshold ≤ 0 then []
  else
    (listed r.meteredWorkers).filterMap fun w =>
      w.2.join.map fun metrics =>
        r.call .workerErrorRate "warning" "Worker error rate above threshold" w.1.workerID
          [("worker_id", .text w.1.workerID), ("errors_per_min", .number metrics.errorsPerMin),
            ("threshold", .number threshold), ("pool", .text w.1.pool)]
          (threshold ≤ metrics.errorsPerMin)

def checkStuckDesiredState : List SyncCall :=
  let grace := ControlPlane.stuckDesiredGrace r.settings.toRuntimeSettings
  (listed r.directedWorkers).filterMap fun w =>
    w.2.map fun stateUpdated =>
      r.call .workerStuckDesired "warning" "Worker is not converging to desired state"
        w.1.workerID
        ([("worker_id", .text w.1.workerID),
            ("current_status", .text (w.1.status.elim [] WorkerState.name)),
            ("desired_status", .text w.1.desiredState.name),
            ("last_heartbeat", .time w.1.lastHeartbeat)] ++
          stateUpdated.toList.map fun updated => ("desired_state_updated", .time updated))
        (w.1.status ≠ some w.1.desiredState &&
          stateUpdated.any fun updated => grace < r.now .workerStuckDesired - updated)

def ratesOf (workers : List (List ProviderMetric)) : List (List (ProviderRates ℚ)) :=
  workers.map fun metrics => metrics.map ProviderMetric.toProviderRates

/-- The severity of an incident of a provider. -/
def severityOf : ProviderStatus → String
  | .healthy => "info"
  | .warning => "warning"
  | .critical => "critical"

def statusName : ProviderStatus → Text
  | .healthy => "healthy".toList
  | .warning => "warning".toList
  | .critical => "critical".toList

def modeName : ProviderMode → Text
  | .normal => "normal".toList
  | .cautious => "cautious".toList
  | .drain => "drain".toList
  | .quarantine => "quarantine".toList
  | .degradedProbe => "degraded_probe".toList

/-- Modes that cannot be read are left out. -/
def checkProviderHealth : List SyncCall :=
  match r.reportingWorkers with
  | none => []
  | some workers =>
      let modes := r.providerModes.getD fun _ => none
      Provider.all.filterMap fun provider =>
        let sums := ProviderSums.of provider (ratesOf workers)
        let status := providerStatus r.settings.thresholds (ratesOf workers) provider
        let retrySum :=
          ((workers.flatten.filter fun metric =>
            normalizeProviderName metric.provider = some provider).map
              ProviderMetric.avgRetryAfter).sum
        some (r.call .providerHealth (severityOf status) "Provider health degraded" provider.name
          [("provider", .text provider.name), ("status", .text (statusName status)),
            ("mode", .text (modeName (currentMode modes provider))),
            ("tempfail_rate", .number (averageOrZero sums.tempfailSum sums.workers)),
            ("reject_rate", .number (averageOrZero sums.rejectSum sums.workers)),
            ("unknown_rate", .number (averageOrZero sums.unknownSum sums.workers)),
            ("avg_retry_after", .number (averageOrZero retrySum sums.workers)),
            ("workers", .number sums.workers)]
          (status ≠ .healthy))

def check : AlertType → List SyncCall
  | .workerOffline => r.checkOfflineWorkers
  | .poolUnderCapacity => r.checkPoolCapacity
  | .workerErrorRate => r.checkWorkerErrorRate
  | .workerStuckDesired => r.checkStuckDesiredState
  | .providerHealth => r.checkProviderHealth

/-! ## Passes -/

/-- A call whose incident can be read and saved. -/
def sync (s : Service) (c : SyncCall) : Service :=
  if r.refused c.incidentKey then s else s.syncIncident c

/-- The workers that have been removed as stale. -/
def removed : List Text :=
  if r.settings.staleWorkerTTLSecond ≤ 0 then [] else r.staleWorkers.getD []

def cutoff : Nat := r.cleanupAt - r.settings.staleWorkerTTLSecond.toNat * second

/-- The types of incidents that are resolved when a worker is removed. -/
def workerTypes : List AlertType := [.workerOffline, .workerErrorRate, .workerStuckDesired]

/-- An incident of a worker that has been removed is resolved. -/
def forget (s : Service) (key workerID : Text) : Service :=
  if r.refused key then s
  else
    { s with
      store := (s.store.resolveIncident r.cleanupAt key
        "Worker removed during stale cleanup.".toList
        (contextOf [("worker_id", .text workerID)])).2 }

/-- The loop body of `cleanupStaleWorkers`. -/
def removeWorker (s : Service) (workerID : Text) : Service :=
  let s := workerTypes.foldl (fun s type => r.forget s (type.key workerID) workerID) s
  if r.settings.alertsEnabled then
    { s with
      sent := s.sent ++ [⟨none, "worker_stale_removed".toList, "warning".toList,
        "Worker removed from active state after stale TTL exceeded".toList,
        contextOf [("worker_id", .text workerID), ("cutoff", .time (formatRFC3339 r.cutoff))],
        r.cleanupAt⟩] }
  else s

def cleanupStaleWorkers (s : Service) : Service := r.removed.foldl r.removeWorker s

/-- The checks in their order. -/
def checks : List AlertType :=
  [.workerOffline, .poolUnderCapacity, .workerErrorRate, .workerStuckDesired, .providerHealth]

/-- A pass that is due. -/
def runChecks (s : Service) : Service :=
  let s := r.cleanupStaleWorkers s
  if r.settings.alertsEnabled = false ∧ r.settings.autoActionsEnabled = false then s
  else checks.foldl (fun s type => (r.check type).foldl r.sync s) s

/-- The store does not fail. -/
structure NoFailure : Prop where
  staleWorkers : 0 < r.settings.staleWorkerTTLSecond → r.staleWorkers.isSome = true
  knownWorkers : r.knownWorkers.isSome = true
  lastSeen : ∀ w ∈ listed r.knownWorkers, w.2.isSome = true
  pools : r.pools.isSome = true
  meteredWorkers : 0 < r.settings.alertErrorRateThreshold → r.meteredWorkers.isSome = true
  metrics : ∀ w ∈ listed r.meteredWorkers, w.2.isSome = true
  directedWorkers : r.directedWorkers.isSome = true
  stateUpdated : ∀ w ∈ listed r.directedWorkers, w.2.isSome = true
  reportingWorkers : r.reportingWorkers.isSome = true
  providerModes : r.providerModes.isSome = true
  refused : ∀ key, r.refused key = false

/-! ## What a pass finds -/

/-- The member of a set with an identifier. -/
def member {α : Type} {id : α → Text} (l : Option (Listing α id)) (subject : Text) : Option α :=
  Table.find id (listed l) subject

/-- Whether the condition of a subject holds in what is read, if the pass looks at it. -/
def finding : AlertType → Text → Option Bool
  | .workerOffline, workerID =>
      (member r.knownWorkers workerID).bind fun w =>
        w.2.map fun lastSeen => lastSeen.any fun seen =>
          (if r.settings.alertHeartbeatGraceSecond ≤ 0 then 120 * second
            else r.settings.alertHeartbeatGraceSecond.toNat * second) <
          r.now .workerOffline - seen
  | .poolUnderCapacity, pool =>
      (member r.pools pool).map fun pool => 0 < pool.desired && pool.online < pool.desired
  | .workerErrorRate, workerID =>
      if r.settings.alertErrorRateThreshold ≤ 0 then none
      else
        (member r.meteredWorkers workerID).bind fun w =>
          w.2.join.map fun metrics => r.settings.alertErrorRateThreshold ≤ metrics.errorsPerMin
  | .workerStuckDesired, workerID =>
      (member r.directedWorkers workerID).bind fun w =>
        w.2.map fun stateUpdated => w.1.status ≠ some w.1.desiredState &&
          stateUpdated.any fun updated =>
            ControlPlane.stuckDesiredGrace r.settings.toRuntimeSettings <
              r.now .workerStuckDesired - updated
  | .providerHealth, provider =>
      r.reportingWorkers.bind fun workers =>
        (Table.find Provider.name Provider.all provider).map fun provider =>
          providerStatus r.settings.thresholds (ratesOf workers) provider ≠ .healthy

end Reads

/-! ## The records of a pass -/

namespace Reads

variable {r : Reads} {s : Service}

theorem sound_foldl {α : Type} {f : Service → α → Service}
    (hf : ∀ s a, s.store.Sound → (f s a).store.Sound) (as : List α) (h : s.store.Sound) :
    (as.foldl f s).store.Sound := by
  induction as generalizing s with
  | nil => exact h
  | cons a as ih => exact ih (hf s a h)

theorem sound_sync (c : SyncCall) (h : s.store.Sound) : (r.sync s c).store.Sound := by
  rw [sync]
  split_ifs
  · exact h
  · exact (Service.syncIncident_spec h c).1

theorem sound_forget (type : AlertType) (workerID : Text) (h : s.store.Sound) :
    (r.forget s (type.key workerID) workerID).store.Sound := by
  rw [forget]
  split_ifs
  · exact h
  · exact (IncidentStore.resolveIncident_spec h (incidentStateKey_ne_nil _ _) _ _ _).2.1

theorem sound_removeWorker (workerID : Text) (h : s.store.Sound) :
    (r.removeWorker s workerID).store.Sound := by
  have hforgot : (workerTypes.foldl
      (fun s type => r.forget s (type.key workerID) workerID) s).store.Sound :=
    sound_foldl (fun _ type => sound_forget type workerID) workerTypes h
  rw [removeWorker]
  split_ifs
  · exact hforgot
  · exact hforgot

theorem sound_cleanupStaleWorkers (h : s.store.Sound) : (r.cleanupStaleWorkers s).store.Sound :=
  sound_foldl (fun _ => sound_removeWorker) r.removed h

/-- Whatever fails, a pass keeps the records in order. -/
theorem sound_runChecks (h : s.store.Sound) : (r.runChecks s).store.Sound := by
  have hcleaned := sound_cleanupStaleWorkers (r := r) h
  rw [runChecks]
  split_ifs
  · exact hcleaned
  · exact sound_foldl (fun _ type => sound_foldl (fun _ => sound_sync) (r.check type)) checks
      hcleaned

/-! ## What is active behind a pass -/

/-- The calls are made for the members of a set, and find of each what `found` says. -/
def Sweeps (calls : List SyncCall) (type : AlertType) (found : Text → Option Bool) : Prop :=
  ∃ (α : Type) (id : α → Text) (members : List α) (look : α → Option SyncCall),
    calls = members.filterMap look ∧ (members.map id).Nodup ∧
      (∀ a c, look a = some c → c.incidentKey = type.key (id a)) ∧
      ∀ x, ((Table.find id members x).bind look).map SyncCall.active = found x

theorem sweeps_nil {type : AlertType} : Sweeps [] type fun _ => none :=
  ⟨Text, id, [], fun _ => none, rfl, List.nodup_nil, nofun, fun _ => rfl⟩

/-- Every check is a sweep, and finds what there is to find. -/
theorem sweeps_check (type : AlertType) : Sweeps (r.check type) type (r.finding type) := by
  cases type with
  | workerOffline =>
    refine ⟨_, Prod.fst, listed r.knownWorkers, _, rfl, nodup_listed _, fun w c hc => ?_,
      fun x => ?_⟩
    · obtain ⟨lastSeen, -, rfl⟩ := Option.map_eq_some_iff.mp hc
      rfl
    · simp only [finding, member, Option.map_bind, Function.comp_def, Option.map_map]
      rfl
  | poolUnderCapacity =>
    refine ⟨_, PoolSummary.pool, listed r.pools, _, rfl, nodup_listed _, fun pool c hc => ?_,
      fun x => ?_⟩
    · obtain rfl := Option.some.inj hc
      rfl
    · simp only [finding, member, Option.map_bind, Function.comp_def, Option.map_some]
      exact Option.map_eq_bind.symm
  | workerErrorRate =>
    rw [check, checkWorkerErrorRate]
    unfold finding
    dsimp only
    split_ifs with hoff
    · exact sweeps_nil
    · refine ⟨_, fun w => w.1.workerID, listed r.meteredWorkers, _, rfl, nodup_listed _,
        fun w c hc => ?_, fun x => ?_⟩
      · obtain ⟨metrics, -, rfl⟩ := Option.map_eq_some_iff.mp hc
        rfl
      · simp only [member, Option.map_bind, Function.comp_def, Option.map_map]
        rfl
  | workerStuckDesired =>
    refine ⟨_, fun w => w.1.workerID, listed r.directedWorkers, _, rfl, nodup_listed _,
      fun w c hc => ?_, fun x => ?_⟩
    · obtain ⟨stateUpdated, -, rfl⟩ := Option.map_eq_some_iff.mp hc
      rfl
    · simp only [finding, member, Option.map_bind, Function.comp_def, Option.map_map]
      rfl
  | providerHealth =>
    rw [check, checkProviderHealth]
    unfold finding
    cases r.reportingWorkers with
    | none => exact sweeps_nil
    | some workers =>
      refine ⟨_, Provider.name, Provider.all, _, rfl, by decide, fun provider c hc => ?_,
        fun x => ?_⟩
      · obtain rfl := Option.some.inj hc
        rfl
      · simp only [Option.map_bind, Function.comp_def, Option.map_some, Option.bind_some]
        exact Option.map_eq_bind.symm

end Reads

def Service.isActive (s : Service) (type : AlertType) (subject : Text) : Bool :=
  s.store.isActive (type.key subject)

namespace Reads

variable {r : Reads} {s : Service}

theorem isActive_sync (hrefused : ∀ key, r.refused key = false) (h : s.store.Sound)
    {c : SyncCall} {type : AlertType} {subject : Text} (hkey : c.incidentKey = type.key subject)
    (t : AlertType) (x : Text) :
    (r.sync s c).isActive t x =
      if t = type ∧ x = subject then c.active else s.isActive t x := by
  rw [sync, if_neg (by simp [hrefused]), Service.isActive,
    (Service.syncIncident_spec h c).2.1, hkey, Service.isActive]
  simp only [AlertType.key_inj]

/-- Behind the calls for the members of a set, the incident of each that is looked at is active
exactly if its condition holds; no other incident has changed. -/
theorem isActive_sweep {α : Type} {id : α → Text} {look : α → Option SyncCall}
    {type : AlertType} (hrefused : ∀ key, r.refused key = false)
    (hkey : ∀ a c, look a = some c → c.incidentKey = type.key (id a)) {members : List α}
    (hnodup : (members.map id).Nodup) (h : s.store.Sound) (t : AlertType) (x : Text) :
    ((members.filterMap look).foldl r.sync s).isActive t x =
      if t = type then
        (((Table.find id members x).bind look).map SyncCall.active).getD (s.isActive t x)
      else s.isActive t x := by
  induction members generalizing s with
  | nil => exact (ite_self _).symm
  | cons a members ih =>
    obtain ⟨hnew, hrest⟩ := List.nodup_cons.mp hnodup
    have hfind : Table.find id (a :: members) x =
        if id a = x then some a else Table.find id members x := by
      rw [Table.find, List.find?_cons]
      by_cases hx : id a = x
      · simp [hx]
      · simp [hx, Table.find]
    have hnone : Table.find id members (id a) = none := by
      refine List.find?_eq_none.mpr fun b hb hsame => hnew ?_
      exact List.mem_map.mpr ⟨b, hb, of_decide_eq_true hsame⟩
    cases hlook : look a with
    | none =>
      rw [List.filterMap_cons_none hlook, ih hrest h, hfind]
      by_cases hx : id a = x
      · subst hx
        rw [if_pos rfl, hnone, Option.bind_some, hlook]
        rfl
      · rw [if_neg hx]
    | some c =>
      rw [List.filterMap_cons_some hlook, List.foldl_cons, ih hrest (sound_sync c h),
        isActive_sync hrefused h (hkey a c hlook), hfind]
      by_cases hx : id a = x
      · subst hx
        rw [if_pos rfl, hnone, Option.bind_some, hlook]
        by_cases ht : t = type
        · simp [ht]
        · simp [ht]
      · have hother : ¬ (t = type ∧ x = id a) := fun heq => hx heq.2.symm
        rw [if_neg hx, if_neg hother]

/-- A check leaves the incidents of its type as it finds them, and no other changed. -/
theorem isActive_check (hrefused : ∀ key, r.refused key = false) (h : s.store.Sound)
    (type t : AlertType) (x : Text) :
    ((r.check type).foldl r.sync s).isActive t x =
      if t = type then (r.finding t x).getD (s.isActive t x) else s.isActive t x := by
  obtain ⟨α, id, members, look, hcalls, hnodup, hkey, hfound⟩ := sweeps_check (r := r) type
  rw [hcalls, isActive_sweep hrefused hkey hnodup h, hfound]
  by_cases ht : t = type
  · rw [ht]
  · rw [if_neg ht, if_neg ht]

theorem isActive_checks (hrefused : ∀ key, r.refused key = false) {types : List AlertType}
    (hnodup : types.Nodup) (h : s.store.Sound) (t : AlertType) (x : Text) :
    (types.foldl (fun s type => (r.check type).foldl r.sync s) s).isActive t x =
      if t ∈ types then (r.finding t x).getD (s.isActive t x) else s.isActive t x := by
  induction types generalizing s with
  | nil => rfl
  | cons type types ih =>
    obtain ⟨hnew, hrest⟩ := List.nodup_cons.mp hnodup
    rw [List.foldl_cons, ih hrest (sound_foldl (fun _ => sound_sync) _ h),
      isActive_check hrefused h]
    by_cases ht : t = type
    · subst ht
      rw [if_neg hnew, if_pos rfl, if_pos (List.mem_cons_self ..)]
    · rw [if_neg ht]
      simp only [List.mem_cons, ht, false_or]

theorem isActive_forget (hrefused : ∀ key, r.refused key = false) (h : s.store.Sound)
    (type : AlertType) (workerID : Text) (t : AlertType) (x : Text) :
    (r.forget s (type.key workerID) workerID).isActive t x =
      if t = type ∧ x = workerID then false else s.isActive t x := by
  obtain ⟨-, -, hactive⟩ := IncidentStore.resolveIncident_spec h
    (incidentStateKey_ne_nil type.name workerID) r.cleanupAt
    "Worker removed during stale cleanup.".toList (contextOf [("worker_id", .text workerID)])
  rw [forget, if_neg (by simp [hrefused])]
  refine (hactive _).trans ?_
  simp only [← AlertType.key_inj]
  rfl

/-- Behind the removal of a worker none of its incidents is active. -/
theorem isActive_removeWorker (hrefused : ∀ key, r.refused key = false) (h : s.store.Sound)
    (workerID : Text) (t : AlertType) (x : Text) :
    (r.removeWorker s workerID).isActive t x =
      if t ∈ workerTypes ∧ x = workerID then false else s.isActive t x := by
  have hforgot : ∀ types : List AlertType,
      (types.foldl (fun s type => r.forget s (type.key workerID) workerID) s).isActive t x =
        if t ∈ types ∧ x = workerID then false else s.isActive t x := by
    intro types
    induction types generalizing s with
    | nil => exact (if_neg fun hmem => nomatch hmem.1).symm
    | cons type types ih =>
      rw [List.foldl_cons, ih (sound_forget type workerID h), isActive_forget hrefused h]
      by_cases hx : x = workerID
      · by_cases ht : t = type
        · simp [hx, ht]
        · simp [hx, ht]
      · simp [hx]
  rw [removeWorker, ← hforgot workerTypes]
  cases r.settings.alertsEnabled with
  | true => rfl
  | false => rfl

theorem isActive_cleanupStaleWorkers (hrefused : ∀ key, r.refused key = false)
    (h : s.store.Sound) (t : AlertType) (x : Text) :
    (r.cleanupStaleWorkers s).isActive t x =
      if t ∈ workerTypes ∧ x ∈ r.removed then false else s.isActive t x := by
  rw [cleanupStaleWorkers]
  induction r.removed generalizing s with
  | nil => exact (if_neg fun hmem => nomatch hmem.2).symm
  | cons workerID workerIDs ih =>
    rw [List.foldl_cons, ih (sound_removeWorker workerID h), isActive_removeWorker hrefused h]
    by_cases hx : x = workerID
    · by_cases ht : t ∈ workerTypes
      · simp [hx, ht]
      · simp [ht]
    · simp [hx]

/-- Behind a pass in which the store does not fail, the incidents of the subjects that it looks
at are active if their condition holds, those of the workers removed are not, and the others
are as they were. -/
theorem isActive_runChecks (hon : r.settings.alertsEnabled = true)
    (hrefused : ∀ key, r.refused key = false) (h : s.store.Sound) (t : AlertType) (x : Text) :
    (r.runChecks s).isActive t x =
      (r.finding t x).getD
        (if t ∈ workerTypes ∧ x ∈ r.removed then false else s.isActive t x) := by
  have hall : t ∈ checks := by cases t <;> decide
  rw [runChecks, if_neg (by simp [hon]), isActive_checks hrefused (by decide)
    (sound_cleanupStaleWorkers h), if_pos hall, isActive_cleanupStaleWorkers hrefused h]

end Reads

/-! ## Passes one after the other -/

/-- The service, and what its last pass has read. -/
structure Passes where
  service : Service := {}
  last : Option Reads := none

def passing : System Passes Reads where
  step p r := some ⟨r.runChecks p.service, some r⟩

/-- The types of the incidents that are to be those of the snapshot. -/
def snapshotTypes : List AlertType :=
  [.poolUnderCapacity, .workerErrorRate, .workerStuckDesired, .providerHealth]

/-- A pass with alerts in which the store does not fail. -/
def Reads.Counts (r : Reads) : Prop := r.settings.alertsEnabled = true ∧ r.NoFailure

/-- Behind a pass that counts, the active incidents are those of the subjects whose condition
holds in what it has read. -/
def AsRead (p : Passes) : Prop :=
  ∀ r ∈ p.last, r.Counts → ∀ type ∈ snapshotTypes, ∀ subject,
    p.service.isActive type subject = true ↔ r.finding type subject = some true

/-- Every incident that is active is of a subject that the pass looks at, or of a worker that
it removes. -/
def LeavesNone (p : Passes) (r : Reads) : Prop :=
  r.Counts → ∀ type ∈ snapshotTypes, ∀ subject, p.service.isActive type subject = true →
    (r.finding type subject).isSome = true ∨
      type ∈ Reads.workerTypes ∧ subject ∈ r.removed

/-- The incidents behind every pass are those of its snapshot exactly if no pass leaves one of a
subject that it does not look at. -/
theorem asRead_iff (passes : List Reads) :
    passing.Throughout AsRead {} passes ↔ passing.Meets LeavesNone {} passes := by
  have hkeeps : ∀ (p : Passes) (r : Reads) (p' : Passes), p.service.store.Sound →
      passing.step p r = some p' → p'.service.store.Sound := by
    intro p r p' hsound hstep
    obtain rfl := Option.some.inj hstep
    exact Reads.sound_runChecks hsound
  have hone : ∀ (p : Passes) (r : Reads) (p' : Passes), p.service.store.Sound → AsRead p →
      passing.step p r = some p' → (AsRead p' ↔ LeavesNone p r) := by
    intro p r p' hsound _ hstep
    obtain rfl := Option.some.inj hstep
    have hread : AsRead ⟨r.runChecks p.service, some r⟩ ↔
        (r.Counts → ∀ type ∈ snapshotTypes, ∀ subject,
          ((r.runChecks p.service).isActive type subject = true ↔
            r.finding type subject = some true)) :=
      ⟨fun h => h r rfl, fun h r' hr' => Option.some.inj hr' ▸ h⟩
    rw [hread, LeavesNone]
    refine forall_congr' fun hcounts => forall₃_congr fun type _ subject => ?_
    rw [Reads.isActive_runChecks hcounts.1 hcounts.2.refused hsound]
    cases r.finding type subject with
    | some b => exact iff_of_true Option.some_inj.symm fun _ => .inl rfl
    | none =>
      rw [Option.getD_none]
      by_cases hremoved : type ∈ Reads.workerTypes ∧ subject ∈ r.removed
      · rw [if_pos hremoved]
        exact iff_of_true (iff_of_false Bool.false_ne_true nofun) fun _ => .inr hremoved
      · rw [if_neg hremoved]
        constructor
        · intro h hactive
          exact nomatch h.mp hactive
        · intro h
          exact ⟨fun hactive => absurd ((h hactive).resolve_left nofun) hremoved, nofun⟩
  have hinit : ({} : Passes).service.store.Sound := Service.Sound.initial.store
  exact System.throughout_iff_meets hkeeps hone hinit fun r hr => nomatch hr

/-- A pass that reads nothing but the error rate of `w1`, if it is online. -/
def onlinePass (atSecond : Nat) (errorsPerMin : Option ℚ) : Reads where
  settings := { thresholds := ⟨1, 1, 1, 1, 1, 1⟩ }
  cleanupAt := atSecond * second
  now _ := atSecond * second
  staleWorkers := some []
  knownWorkers := some ⟨[], List.nodup_nil⟩
  pools := some ⟨[], List.nodup_nil⟩
  meteredWorkers := some
    ⟨errorsPerMin.toList.map fun rate =>
      (⟨"w1".toList, "main".toList, some .running, .running, false, 0, [], [], 0⟩,
        some (some ⟨rate⟩)), by cases errorsPerMin <;> simp⟩
  directedWorkers := some ⟨[], List.nodup_nil⟩
  reportingWorkers := some []
  providerModes := some fun _ => none

theorem counts_onlinePass (atSecond : Nat) (errorsPerMin : Option ℚ) :
    (onlinePass atSecond errorsPerMin).Counts := by
  refine ⟨rfl, fun _ => rfl, rfl, nofun, rfl, fun _ => rfl, ?_, rfl, nofun, rfl, rfl, fun _ => rfl⟩
  intro w hw
  obtain ⟨rate, -, rfl⟩ := List.mem_map.mp hw
  rfl

/-- A worker whose error rate is too high goes offline, and its incident stays active. -/
theorem asRead_fails : ¬ ∀ passes, passing.Throughout AsRead {} passes := by
  intro hall
  obtain ⟨-, -, hread⟩ := hall [onlinePass 30 (some 12), onlinePass 60 none]
  have hactive : ((onlinePass 60 none).runChecks ((onlinePass 30 (some 12)).runChecks {})).isActive
      .workerErrorRate "w1".toList = true := by
    decide
  have hnone := (hread _ rfl (counts_onlinePass 60 none) .workerErrorRate (by decide) _).mp hactive
  exact nomatch hnone

end ValidEmailVerifier.Fleet.Incidents
