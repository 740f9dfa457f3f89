/-
# `Fleet.WorkerStore` — the worker records of the control plane

The control plane keeps a record of every worker in Redis, one key for each field, beside the
sets of the active and of the known workers.  A heartbeat writes the record, and is answered
with the state the worker is to be in; operators and the alert service set that state; and the
cleanup removes the records of workers that have been silent for too long.

These calls are programs over the commands of the store and the clock.  A pipeline is not a
transaction: its commands reach the store one at a time.  Times are in nanoseconds; what is
stored of a time is RFC3339, a whole number of seconds.  The metrics that only the console
shows are left out of the record.
-/
import Mathlib.Data.Rat.Defs
import ValidEmailVerifier.Lib.ExpiringKeys
import ValidEmailVerifier.Lib.Programs
import ValidEmailVerifier.Policy.Rollout

namespace ValidEmailVerifier.Fleet

open ExpiringKeys Programs Worker
open Policy (Fate)

/-! ## Records -/

/-- The state a worker reports, and the one it is to be in. -/
inductive WorkerState where
  | running | paused | draining | stopped
  deriving DecidableEq, Repr

def WorkerState.all : List WorkerState := [.running, .paused, .draining, .stopped]

def WorkerState.name : WorkerState → Text
  | .running => "running".toList
  | .paused => "paused".toList
  | .draining => "draining".toList
  | .stopped => "stopped".toList

/-- `none` is the empty string. -/
def normalizeStatus (status : Text) : Option WorkerState :=
  if status = [] then some .running else WorkerState.all.find? fun s => s.name = status

def normalizeDesiredState (state : Text) : Option WorkerState :=
  if state = "resume".toList then some .running
  else WorkerState.all.find? fun s => s.name = state

structure WorkerMetrics where
  errorsPerMin : ℚ := 0
  deriving DecidableEq

structure WorkerMeta where
  pool : Text := []
  currentJobID : Text := []
  currentChunkID : Text := []
  deriving DecidableEq

structure HeartbeatRequest where
  workerID : Text
  pool : Text := []
  status : Text := []
  currentJobID : Text := []
  currentChunkID : Text := []
  metrics : Option WorkerMetrics := none
  poolHealthHint : Option ℚ := none
  deriving DecidableEq

/-- The payload of the quarantine key. -/
structure Quarantine where
  reason : Text
  updatedAt : Nat
  deriving DecidableEq

/-! ## The store and its commands -/

inductive Field where
  | status | heartbeat | lastSeen | workerMeta | metrics | poolHealthHint | pool
  | desiredState | desiredStateUpdated | quarantined
  deriving DecidableEq, Repr

abbrev Field.Value : Field → Type
  | .status => WorkerState
  | .heartbeat => Nat
  | .lastSeen => Nat
  | .workerMeta => WorkerMeta
  | .metrics => WorkerMetrics
  | .poolHealthHint => ℚ
  | .pool => Text
  | .desiredState => WorkerState
  | .desiredStateUpdated => Nat
  | .quarantined => Quarantine

instance : (f : Field) → DecidableEq f.Value
  | .status => inferInstanceAs (DecidableEq WorkerState)
  | .heartbeat => inferInstanceAs (DecidableEq Nat)
  | .lastSeen => inferInstanceAs (DecidableEq Nat)
  | .workerMeta => inferInstanceAs (DecidableEq WorkerMeta)
  | .metrics => inferInstanceAs (DecidableEq WorkerMetrics)
  | .poolHealthHint => inferInstanceAs (DecidableEq ℚ)
  | .pool => inferInstanceAs (DecidableEq Text)
  | .desiredState => inferInstanceAs (DecidableEq WorkerState)
  | .desiredStateUpdated => inferInstanceAs (DecidableEq Nat)
  | .quarantined => inferInstanceAs (DecidableEq Quarantine)

/-- `worker:ID:FIELD`. -/
abbrev WorkerKey := Text × Field

instance instLawfulBEqWorkerKey : LawfulBEq WorkerKey := inferInstance

abbrev workerKey (workerID : Text) (field : Field) : WorkerKey := (workerID, field)

/-- The sets `workers:active`, `workers:known` and `pools:known`. -/
inductive Members where
  | activeWorkers | knownWorkers | knownPools
  deriving DecidableEq, Repr

structure WorkerStore where
  members : Members → List Text := fun _ => []
  keys : Keys WorkerKey fun k => k.2.Value := Keys.empty

/-- The commands that change the store. -/
inductive Write where
  | sadd (set : Members) (id : Text)
  | srem (set : Members) (id : Text)
  | set (key : WorkerKey) (value : key.2.Value) (ttl : Nat)
  | setNX (key : WorkerKey) (value : key.2.Value) (ttl : Nat)
  | del (keys : List WorkerKey)
  deriving DecidableEq

/-- The workers that a removal is about. -/
def Write.removed : Write → List Text
  | .srem _ id => [id]
  | .del keys => keys.map Prod.fst
  | _ => []

/-- The write may change the key. -/
def Write.touches (k : WorkerKey) : Write → Bool
  | .set key _ _ => key = k
  | .setNX key _ _ => key = k
  | .del keys => k ∈ keys
  | _ => false

/-- A time to live of zero is none. -/
def expiry (now ttl : Nat) : Option Nat := if ttl = 0 then none else some (now + ttl)

def WorkerStore.apply (s : WorkerStore) (now : Nat) : Write → WorkerStore
  | .sadd set id => { s with members := Function.update s.members set ((s.members set).insert id) }
  | .srem set id => { s with
      members := Function.update s.members set ((s.members set).filter (· ≠ id)) }
  | .set key value ttl => { s with keys := s.keys.set key value (expiry now ttl) }
  | .setNX key value ttl => { s with keys := s.keys.setNX now key value (expiry now ttl) }
  | .del keys => { s with keys := s.keys.del keys }

/-- What a write makes of a key. -/
theorem WorkerStore.keys_apply (s : WorkerStore) (now : Nat) (w : Write) (k : WorkerKey) :
    (s.apply now w).keys k = s.keys k ∨
      (∃ keys, w = .del keys ∧ k ∈ keys ∧ (s.apply now w).keys k = none) ∨
      ∃ value ttl, (w = .set k value ttl ∨ w = .setNX k value ttl) ∧
        (s.apply now w).keys k = some ⟨value, expiry now ttl⟩ := by
  cases w with
  | sadd set id => exact .inl rfl
  | srem set id => exact .inl rfl
  | set key value ttl =>
    by_cases hk : k = key
    · subst hk
      exact .inr (.inr ⟨value, ttl, .inl rfl, s.keys.set_self k value _⟩)
    · exact .inl (s.keys.set_of_ne hk value _)
  | setNX key value ttl =>
    by_cases hk : k = key
    · subst hk
      by_cases hset : (s.keys.get now k).isSome = true
      · exact .inl (congrFun (if_pos hset) k)
      · exact .inr (.inr ⟨value, ttl, .inr rfl,
          (congrFun (if_neg hset) k).trans (s.keys.set_self k value _)⟩)
    · exact .inl (s.keys.setNX_of_ne now hk value _)
  | del keys =>
    by_cases hk : k ∈ keys
    · exact .inr (.inl ⟨keys, rfl, hk, s.keys.del_of_mem hk⟩)
    · exact .inl (s.keys.del_of_notMem hk)

/-- What a write makes of the members of a set. -/
theorem WorkerStore.mem_apply (s : WorkerStore) (now : Nat) (w : Write) (set : Members)
    (id : Text) (h : id ∈ s.members set) :
    id ∈ (s.apply now w).members set ∨ w = .srem set id := by
  cases w with
  | sadd other member =>
    left
    show id ∈ Function.update s.members other _ set
    by_cases hset : set = other
    · subst hset
      rw [Function.update_self]
      exact List.mem_insert_of_mem h
    · rw [Function.update_of_ne hset]
      exact h
  | srem other member =>
    show id ∈ Function.update s.members other _ set ∨ _
    by_cases hset : set = other
    · subst hset
      by_cases hid : id = member
      · subst hid
        exact .inr rfl
      · left
        rw [Function.update_self]
        exact List.mem_filter.mpr ⟨h, decide_eq_true hid⟩
    · left
      rw [Function.update_of_ne hset]
      exact h
  | _ => exact .inl h

theorem WorkerStore.mem_apply_sadd (s : WorkerStore) (now : Nat) (set : Members) (id : Text) :
    id ∈ (s.apply now (.sadd set id)).members set := by
  show id ∈ Function.update s.members set _ set
  rw [Function.update_self]
  exact List.mem_insert_self

/-- What a call asks of its surroundings. -/
inductive Command where
  | get (key : WorkerKey)
  | smembers (set : Members)
  | now
  | write (w : Write)
  deriving DecidableEq

abbrev Reply : Command → Type
  | .get key => Except Text (Option key.2.Value)
  | .smembers _ => Except Text (List Text)
  | .now => Nat
  | .write _ => Except Text Unit

/-- A call that may return an error. -/
abbrev Program (α : Type) := ExceptT Text (Prog Command Reply) α

def send (c : Command) : Prog Command Reply (Reply c) := Prog.command c

def get (key : WorkerKey) : Prog Command Reply (Except Text (Option key.2.Value)) :=
  send (.get key)

def smembers (set : Members) : Program (List Text) := .mk (send (.smembers set))

/-- `time.Now()`. -/
def now : Program Nat := .lift (send .now)

def write (w : Write) : Prog Command Reply (Except Text Unit) := send (.write w)

/-- `pipe.Exec`: every command of the pipeline is sent; the first error is returned. -/
def execPipe : List Write → Prog Command Reply (Except Text Unit)
  | [] => pure (.ok ())
  | w :: ws => do
      let first ← write w
      let rest ← execPipe ws
      pure (match first with
        | .error e => .error e
        | .ok () => rest)

def second : Nat := 1000000000

/-- `Format(time.RFC3339)`, parsed again. -/
def formatRFC3339 (t : Nat) : Nat := t / second * second

/-! ## A heartbeat -/

/-- A desired state that is read; a read that fails finds none. -/
def orRunning : Except Text (Option WorkerState) → WorkerState
  | .ok (some state) => state
  | _ => .running

/-- A flag that is read; a read that fails finds none. -/
def isSet : Except Text (Option Quarantine) → Bool
  | .ok (some _) => true
  | _ => false

def isWorkerQuarantined (workerID : Text) : Program Bool := .lift do
  let value ← get (workerKey workerID .quarantined)
  pure (isSet value)

/-- The end of the pipeline of a heartbeat: what is not written by every heartbeat. -/
def heartbeatTail (heartbeatTTL : Nat) (req : HeartbeatRequest)
    (status desiredState : WorkerState) (now : Nat) : List Write :=
  let key := workerKey req.workerID
  (match req.poolHealthHint with
    | none => []
    | some hint => [.set (key .poolHealthHint) hint heartbeatTTL]) ++
  (if req.pool = [] then []
    else [.set (key .pool) req.pool heartbeatTTL, .sadd .knownPools req.pool]) ++
  (if status = desiredState then [.del [key .desiredStateUpdated]]
    else [.setNX (key .desiredStateUpdated) now 0])

/-- The begin of the pipeline of a heartbeat. -/
def heartbeatRecord (heartbeatTTL : Nat) (req : HeartbeatRequest) (status : WorkerState)
    (now : Nat) : List Write :=
  let key := workerKey req.workerID
  [.sadd .activeWorkers req.workerID,
    .sadd .knownWorkers req.workerID,
    .set (key .status) status heartbeatTTL,
    .set (key .heartbeat) now heartbeatTTL,
    .set (key .lastSeen) now 0,
    .set (key .workerMeta) ⟨req.pool, req.currentJobID, req.currentChunkID⟩ heartbeatTTL,
    .set (key .metrics) (req.metrics.getD {}) heartbeatTTL]

/-- The pipeline of a heartbeat. -/
def heartbeatWrites (heartbeatTTL : Nat) (req : HeartbeatRequest)
    (status desiredState : WorkerState) (now : Nat) : List Write :=
  heartbeatRecord heartbeatTTL req status now ++
    heartbeatTail heartbeatTTL req status desiredState now

/-- What a heartbeat does with what it has read: the pipeline, and the desired state of a
quarantined worker in a step of its own, whose failure is ignored. -/
def commitHeartbeat (heartbeatTTL : Nat) (req : HeartbeatRequest)
    (status desiredState : WorkerState) (isQuarantined : Bool) (now : Nat) :
    Program WorkerState := do
  .mk (execPipe (heartbeatWrites heartbeatTTL req status desiredState now))
  if isQuarantined then
    .lift do
      let _ ← write (.set (workerKey req.workerID .desiredState) .draining 0)
      pure desiredState
  else pure desiredState

def upsertHeartbeat (heartbeatTTL : Nat) (req : HeartbeatRequest) : Program WorkerState :=
  if req.workerID = [] then throw "worker_id is required".toList
  else
    match normalizeStatus req.status with
    | none => throw "invalid status".toList
    | some status => do
        let value ← .lift (get (workerKey req.workerID .desiredState))
        let isQuarantined ← isWorkerQuarantined req.workerID
        let desiredState := if isQuarantined then .draining else orRunning value
        let time ← now
        commitHeartbeat heartbeatTTL req status desiredState isQuarantined (formatRFC3339 time)

/-! ## The desired state -/

def desiredStateWrites (workerID : Text) (state : WorkerState) (now : Nat) : List Write :=
  [.set (workerKey workerID .desiredState) state 0,
    .set (workerKey workerID .desiredStateUpdated) now 0] ++
  if state = .running then [.del [workerKey workerID .quarantined]] else []

def setDesiredState (workerID state : Text) : Program Unit :=
  if workerID = [] then throw "worker id is required".toList
  else
    match normalizeDesiredState state with
    | none => throw "invalid desired state".toList
    | some state => do
        let time ← now
        .mk (execPipe (desiredStateWrites workerID state (formatRFC3339 time)))

def quarantineWrites (workerID reason : Text) (now : Nat) : List Write :=
  [.set (workerKey workerID .quarantined) ⟨reason, now⟩ 0,
    .set (workerKey workerID .desiredState) .draining 0,
    .set (workerKey workerID .desiredStateUpdated) now 0]

def releaseWrites (workerID : Text) (now : Nat) : List Write :=
  [.del [workerKey workerID .quarantined],
    .set (workerKey workerID .desiredState) .running 0,
    .set (workerKey workerID .desiredStateUpdated) now 0]

def setWorkerQuarantined (workerID : Text) (enabled : Bool) (reason : Text) : Program Unit :=
  if workerID = [] then throw "worker id is required".toList
  else do
    let time ← now
    .mk (execPipe (if enabled then quarantineWrites workerID reason (formatRFC3339 time)
      else releaseWrites workerID (formatRFC3339 time)))

/-! ## The cleanup -/

def staleWorkerDeleteKeys (workerID : Text) : List WorkerKey :=
  [.status, .heartbeat, .lastSeen, .workerMeta, .metrics, .poolHealthHint, .pool, .desiredState,
    .desiredStateUpdated, .quarantined].map (workerKey workerID)

/-- The known workers that have not been seen after the cutoff. -/
def staleWorkers (cutoff : Nat) : List Text → Prog Command Reply (List Text)
  | [] => pure []
  | workerID :: rest => do
      let lastSeen ← get (workerKey workerID .lastSeen)
      let stale ← staleWorkers cutoff rest
      pure (match lastSeen with
        | .ok (some seen) => if cutoff < seen then stale else workerID :: stale
        | _ => stale)

def removalWrites (workerID : Text) : List Write :=
  [.srem .knownWorkers workerID, .srem .activeWorkers workerID,
    .del (staleWorkerDeleteKeys workerID)]

def cleanupStaleKnownWorkers (cutoff : Nat) : Program (List Text) := do
  let knownWorkers ← smembers .knownWorkers
  let stale ← .lift (staleWorkers cutoff knownWorkers)
  if stale = [] then pure stale
  else
    .mk (execPipe (stale.flatMap removalWrites))
    pure stale

end ValidEmailVerifier.Fleet
