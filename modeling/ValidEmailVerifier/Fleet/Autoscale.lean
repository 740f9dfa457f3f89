/-
# `Fleet.Autoscale` — the load that the autoscaler sees

A worker counts the chunks it is processing, and claims another one only below its limit.
Its heartbeats go to the control plane, which stores a job and a chunk with them; and the
autoscaler takes a worker for busy when one of the two is there.

The heartbeat of a worker fills in neither.  So a worker is never counted as busy, whatever it
is processing, which is right after exactly the heartbeats that are sent between chunks
(`seen_iff`); and no pool is ever given more workers than its desired count or the minimum
(`calculatePoolTargetDesired_le`).

Ratios are exact.
-/
import Mathlib.Data.Char
import Mathlib.Data.List.Lex
import Mathlib.Tactic.NormNum
import ValidEmailVerifier.Fleet.Alerts

namespace ValidEmailVerifier.Fleet

open ExpiringKeys Programs Transition Worker

/-! ## The worker -/

/-- What the loop of a worker and the chunks it has started share. -/
structure WorkerProcess where
  pool : Text
  maxConcurrency : Int
  desiredState : WorkerState := .running
  active : Int := 0
  /-- The chunks that `processChunk` is at work on. -/
  processing : List Text := []
  /-- Chunks that are done, and have not been taken off the counter. -/
  returned : Nat := 0
  deriving DecidableEq

namespace WorkerProcess

def new (pool : Text) (maxConcurrency : Int) : WorkerProcess :=
  { pool := pool, maxConcurrency := if maxConcurrency < 1 then 1 else maxConcurrency }

/-- A chunk is claimed, and its goroutine started. -/
def claim (w : WorkerProcess) (chunkID : Text) : Option WorkerProcess :=
  if w.desiredState ≠ .running ∨ w.maxConcurrency ≤ w.active then none
  else some { w with active := w.active + 1, processing := chunkID :: w.processing }

/-- `processChunk` returns. -/
def finish (w : WorkerProcess) (chunkID : Text) : Option WorkerProcess :=
  if chunkID ∈ w.processing then
    some { w with processing := w.processing.erase chunkID, returned := w.returned + 1 }
  else none

/-- The deferred `decrementActive`. -/
def release (w : WorkerProcess) : Option WorkerProcess :=
  if 0 < w.returned then some { w with active := w.active - 1, returned := w.returned - 1 }
  else none

/-- The payload of `sendHeartbeats`. -/
def heartbeat (w : WorkerProcess) (workerID : Text) : HeartbeatRequest :=
  { workerID := workerID
    pool := w.pool
    status := w.desiredState.name }

end WorkerProcess

/-! ## The autoscaler -/

structure PoolSummary where
  pool : Text
  online : Int
  desired : Int
  healthScore : ℚ
  deriving DecidableEq

/-- The workers of a pool.  Those without a pool are in none. -/
def ofPool (pool : Text) (workers : List WorkerSummary) : List WorkerSummary :=
  workers.filter fun worker => worker.pool ≠ [] ∧ worker.pool = pool

def poolSummary (desiredCount : Text → Int) (workers : List WorkerSummary) (pool : Text) :
    PoolSummary :=
  let hints := ((ofPool pool workers).map (·.poolHealthHint)).filter (0 < ·)
  { pool := pool
    online := (ofPool pool workers).length
    desired := desiredCount pool
    healthScore := if hints = [] then 0 else hints.sum / hints.length }

def getPools (desiredCount : Text → Int) : Program (List PoolSummary) := do
  let pools ← smembers .knownPools
  let workers ← getWorkers
  pure (pools.map (poolSummary desiredCount workers))

/-- The test of the autoscaler. -/
def WorkerSummary.busy (worker : WorkerSummary) : Bool :=
  worker.currentChunkID ≠ [] ∨ worker.currentJobID ≠ []

def busyByPool (workers : List WorkerSummary) (pool : Text) : Int :=
  ((ofPool pool workers).filter (·.busy)).length

def calculatePoolTargetDesired (pool : PoolSummary) (busy minDesired maxDesired : Int) : Int :=
  let target := if pool.desired < minDesired then minDesired else pool.desired
  let onlineForRatio := if pool.online < 1 then 1 else pool.online
  let busyRatio : ℚ := busy / onlineForRatio
  let underCapacity := decide (pool.online < pool.desired)
  if 0 < pool.healthScore ∧ pool.healthScore < 1 / 5 ∧ minDesired < target then target - 1
  else if 17 / 20 ≤ busyRatio ∧ target < maxDesired ∧ 1 / 4 ≤ pool.healthScore then target + 1
  else if busyRatio ≤ 1 / 4 ∧ minDesired < target ∧ underCapacity = false ∧
      target ≤ pool.online then target - 1
  else target

structure AutoscaleSettings where
  autoscaleEnabled : Bool := true
  minDesired : Int := 0
  maxDesired : Int := 10
  canaryPercent : Int := 100
  cooldownSecond : Int := 120
  deriving DecidableEq

def canaryLimit (total percent : Int) : Int :=
  if total ≤ 0 then 0
  else if 100 ≤ percent then total
  else if percent ≤ 0 then 0
  else if total * percent / 100 < 1 then 1
  else total * percent / 100

/-! ## The fleet -/

structure FleetState where
  plane : ControlPlane := {}
  clock : Nat := 0
  desiredCount : Text → Int := fun _ => 0
  /-- The autoscaler's own memory. -/
  lastAction : Text → Option Nat := fun _ => none
  workers : Text → Option WorkerProcess := fun _ => none
  /-- The worker was processing a chunk at its last heartbeat. -/
  loaded : Text → Bool := fun _ => false

namespace FleetState

def cooldownElapsed (settings : AutoscaleSettings) (now : Nat) (f : FleetState) (pool : Text) :
    Bool :=
  let cooldown := if settings.cooldownSecond ≤ 0 then 120 * second
    else settings.cooldownSecond.toNat * second
  (f.lastAction pool).all fun last => cooldown ≤ now - last

/-- The body of the loop of `run`. -/
def adjust (settings : AutoscaleSettings) (now : Nat) (workers : List WorkerSummary)
    (minDesired maxDesired : Int) (f : FleetState) (pool : PoolSummary) : FleetState :=
  if pool.pool = [] then f
  else
    let target := calculatePoolTargetDesired pool (busyByPool workers pool.pool) minDesired
      maxDesired
    if target = pool.desired ∨ f.cooldownElapsed settings now pool.pool = false ∨ target < 0
    then f
    else
      { f with
        plane := (f.plane.call now (.mk (execPipe [.sadd .knownPools pool.pool]))).2
        desiredCount := Function.update f.desiredCount pool.pool target
        lastAction := Function.update f.lastAction pool.pool (some now) }

/-- `run` of the autoscaler. -/
def autoscale (settings : AutoscaleSettings) (now : Nat) (f : FleetState) : FleetState :=
  if settings.autoscaleEnabled = false then f
  else
    match f.plane.call now (getPools f.desiredCount) with
    | (.error _, plane) => { f with plane := plane }
    | (.ok pools, plane) =>
        if pools = [] then { f with plane := plane }
        else
          match plane.call now getWorkers with
          | (.error _, plane) => { f with plane := plane }
          | (.ok workers, plane) =>
              let minDesired := max settings.minDesired 0
              let maxDesired := max settings.maxDesired minDesired
              if settings.canaryPercent ≤ 0 then { f with plane := plane }
              else
                ((pools.mergeSort fun a b => a.pool ≤ b.pool).take
                  (canaryLimit pools.length (min settings.canaryPercent 100)).toNat).foldl
                  (adjust settings now workers minDesired maxDesired) { f with plane := plane }

def setWorker (f : FleetState) (id : Text) (w : WorkerProcess) : FleetState :=
  { f with workers := Function.update f.workers id (some w) }

/-- `sendHeartbeats`, and what the worker does with the answer. -/
def beat (heartbeatTTL now : Nat) (f : FleetState) (id : Text) (w : WorkerProcess) : FleetState :=
  match f.plane.call now (upsertHeartbeat heartbeatTTL (w.heartbeat id)) with
  | (.error _, plane) => { f with plane := plane }
  | (.ok desiredState, plane) =>
      { f with
        plane := plane
        workers := Function.update f.workers id (some { w with desiredState := desiredState })
        loaded := Function.update f.loaded id (decide (w.processing ≠ [])) }

end FleetState

inductive FleetAct where
  | start (id pool : Text) (maxConcurrency : Int)
  | claim (id chunkID : Text)
  | finish (id chunkID : Text)
  | release (id : Text)
  | beat (id : Text)
  /-- A call of an operator, or a check of the alert service. -/
  | plane (e : Event)
  | autoscale (settings : AutoscaleSettings)

def FleetState.act (heartbeatTTL now : Nat) (f : FleetState) : FleetAct → Option FleetState
  | .start id pool maxConcurrency => some (f.setWorker id (.new pool maxConcurrency))
  | .claim id chunkID => (f.workers id).bind fun w => (w.claim chunkID).map (f.setWorker id)
  | .finish id chunkID => (f.workers id).bind fun w => (w.finish chunkID).map (f.setWorker id)
  | .release id => (f.workers id).bind fun w => w.release.map (f.setWorker id)
  | .beat id => (f.workers id).map (f.beat heartbeatTTL now id)
  | .plane e =>
      if e.isHeartbeat then none
      else some { f with plane := e.effect heartbeatTTL now f.plane }
  | .autoscale settings => some (f.autoscale settings now)

/-- Workers, operators, the alert service and the autoscaler, one after the other. -/
def fleet (heartbeatTTL : Nat) : System FleetState (Nat × FleetAct) where
  step f a :=
    if f.clock ≤ a.1 then
      (f.act heartbeatTTL a.1 a.2).map fun next => { next with clock := a.1 }
    else none

/-- The workers, as the autoscaler reads them. -/
def FleetState.listing (f : FleetState) (now : Nat) : List WorkerSummary :=
  (f.plane.store.members .activeWorkers).filterMap (listed f.plane.store.keys now)

/-! ## What the store knows of the load -/

/-- Nobody has told the control plane of a job or a chunk. -/
structure Unlabelled (s : WorkerStore) (clock : Nat) : Prop where
  sound : Sound s clock fun _ => none
  record : ∀ id e, s.keys (workerKey id .workerMeta) = some e →
    e.value.currentJobID = [] ∧ e.value.currentChunkID = []

namespace Unlabelled

variable {s s' : WorkerStore} {clock now : Nat}

theorem later (h : Unlabelled s clock) (hle : clock ≤ now) : Unlabelled s now :=
  ⟨h.sound.later hle, h.record⟩

theorem spares (h : Unlabelled s clock) (hsound : Sound s' now fun _ => none)
    (hspares : ControlPlane.Spares s s') : Unlabelled s' now := by
  refine ⟨hsound, fun id e he => ?_⟩
  rcases hspares (workerKey id .workerMeta) (by simp) with hsame | hnone
  · rw [hsame] at he
    exact h.record id e he
  · rw [hnone] at he
    exact nomatch he

theorem sameKeys (h : Unlabelled s now) (hsound : Sound s' now fun _ => none)
    (hkeys : s'.keys = s.keys) : Unlabelled s' now :=
  h.spares hsound fun k _ => .inl (congrFun hkeys k)

theorem reports {heartbeatTTL : Nat} {req : HeartbeatRequest} {status : WorkerState}
    (h : Unlabelled s now) (hr : Reports s s' now heartbeatTTL req status)
    (hjob : req.currentJobID = []) (hchunk : req.currentChunkID = []) : Unlabelled s' now := by
  refine ⟨h.sound.reports hr nofun nofun, fun id e he => ?_⟩
  by_cases hid : id = req.workerID
  · subst hid
    rw [hr.record] at he
    obtain rfl := Option.some.inj he
    exact ⟨hjob, hchunk⟩
  · rw [hr.others _ hid] at he
    exact h.record id e he

/-- So nobody who is listed is busy. -/
theorem not_busy (h : Unlabelled s clock) {now : Nat} {worker : WorkerSummary}
    (hlisted : worker ∈ (s.members .activeWorkers).filterMap (listed s.keys now)) :
    worker.busy = false := by
  obtain ⟨-, heartbeat, -, heq⟩ := ControlPlane.exists_of_listed hlisted
  have hmeta : ∀ record : WorkerMeta,
      s.keys.get now (workerKey worker.workerID .workerMeta) = some record →
        record.currentJobID = [] ∧ record.currentChunkID = [] := by
    intro record hread
    obtain ⟨e, he, rfl, -⟩ := Keys.exists_of_get hread
    exact h.record _ e he
  rw [heq]
  refine decide_eq_false ?_
  show ¬ (((s.keys.get now (workerKey worker.workerID .workerMeta)).getD {}).currentChunkID ≠ [] ∨
    ((s.keys.get now (workerKey worker.workerID .workerMeta)).getD {}).currentJobID ≠ [])
  cases hread : s.keys.get now (workerKey worker.workerID .workerMeta) with
  | none => exact fun hor => hor.elim (· rfl) (· rfl)
  | some record =>
    obtain ⟨hjob, hchunk⟩ := hmeta record hread
    exact fun hor => hor.elim (· hchunk) (· hjob)

end Unlabelled

/-! ## Runs -/

/-- The list of the pools costs what the list of the workers does. -/
theorem call_getPools {c : ControlPlane} {now : Nat} (h : Sound c.store now fun _ => none)
    (desiredCount : Text → Int) :
    ∃ pools c', c.call now (getPools desiredCount) = (.ok pools, c') ∧
      (∀ pool ∈ pools, pool.desired = desiredCount pool.pool) ∧
      c'.store.keys = c.store.keys ∧ Sound c'.store now fun _ => none := by
  obtain ⟨c', hcall, hkeys, hsound⟩ := ControlPlane.call_getWorkers h
  let workers := (c.store.members .activeWorkers).filterMap (listed c.store.keys now)
  refine ⟨(c.store.members .knownPools).map (poolSummary desiredCount workers), c', ?_, ?_,
    hkeys, hsound⟩
  · let read := Program.serve (getWorkers >>= fun workers =>
      pure ((c.store.members .knownPools).map (poolSummary desiredCount workers))) now c.store
    show (read.1, { c with store := read.2 }) = _
    have hread : read = _ := serve_bind now c.store ..
    rw [ControlPlane.call] at hcall
    obtain ⟨hworkers, rfl⟩ := Prod.mk.inj hcall
    rw [hworkers] at hread
    rw [hread]
    rfl
  · intro pool hpool
    obtain ⟨name, -, rfl⟩ := List.mem_map.mp hpool
    rfl

/-- A pool is known from now on. -/
theorem unlabelled_sadd {c : ControlPlane} {now : Nat} (h : Unlabelled c.store now) (pool : Text) :
    Unlabelled (c.call now (.mk (execPipe [.sadd .knownPools pool]))).2.store now := by
  rw [ControlPlane.call, serve_execPipe]
  refine h.sameKeys (h.sound.sameKeys rfl fun id _ hmem => ?_) rfl
  exact WorkerStore.mem_applyAll (by simp) hmem

theorem unlabelled_autoscale {f : FleetState} {now : Nat} (h : Unlabelled f.plane.store now)
    (settings : AutoscaleSettings) : Unlabelled (f.autoscale settings now).plane.store now := by
  rw [FleetState.autoscale]
  by_cases hoff : settings.autoscaleEnabled = false
  · rw [if_pos hoff]
    exact h
  · rw [if_neg hoff]
    obtain ⟨pools, c, hcall, -, hkeys, hsound⟩ := call_getPools h.sound f.desiredCount
    rw [hcall]
    have hread : Unlabelled c.store now := h.sameKeys hsound hkeys
    by_cases hnil : pools = []
    · rw [hnil]
      exact hread
    · dsimp only
      rw [if_neg hnil]
      obtain ⟨c', hcall', hkeys', hsound'⟩ := ControlPlane.call_getWorkers hsound
      rw [hcall']
      dsimp only
      have hlisted : Unlabelled c'.store now := hread.sameKeys hsound' hkeys'
      split_ifs
      · exact hlisted
      · refine List.foldlRecOn (motive := fun d : FleetState => Unlabelled d.plane.store now)
          _ _ hlisted ?_
        intro d hd pool _
        rw [FleetState.adjust]
        dsimp only
        split_ifs
        · exact hd
        · exact hd
        · exact unlabelled_sadd hd pool.pool

theorem unlabelled_beat {heartbeatTTL now : Nat} {f : FleetState}
    (h : Unlabelled f.plane.store now) (id : Text) (w : WorkerProcess) :
    Unlabelled (f.beat heartbeatTTL now id w).plane.store now := by
  have hbeat : Unlabelled
      ((Event.heartbeat (w.heartbeat id)).effect heartbeatTTL now f.plane).store now := by
    rcases store_heartbeat heartbeatTTL now f.plane (w.heartbeat id) with ⟨hsame, -⟩ | ⟨_, hr⟩
    · rw [hsame]
      exact h
    · exact h.reports hr rfl rfl
  rw [FleetState.beat]
  generalize hcall : f.plane.call now (upsertHeartbeat heartbeatTTL (w.heartbeat id)) = answer
  rw [Event.effect, hcall] at hbeat
  obtain ⟨desired | e, c⟩ := answer
  · exact hbeat
  · exact hbeat

/-- What every run keeps. -/
theorem unlabelled_step {heartbeatTTL : Nat} (f : FleetState) (a : Nat × FleetAct)
    (f' : FleetState) (h : Unlabelled f.plane.store f.clock)
    (hs : (fleet heartbeatTTL).step f a = some f') : Unlabelled f'.plane.store f'.clock := by
  obtain ⟨now, act⟩ := a
  rw [fleet] at hs
  dsimp only at hs
  split_ifs at hs with hle
  obtain ⟨next, hnext, rfl⟩ := Option.map_eq_some_iff.mp hs
  have hnow : Unlabelled f.plane.store now := h.later hle
  show Unlabelled next.plane.store now
  -- what a worker does on its own leaves the store as it is
  have hworker : ∀ id (g : WorkerProcess → Option WorkerProcess),
      ((f.workers id).bind fun w => (g w).map (f.setWorker id)) = some next →
      Unlabelled next.plane.store now := by
    intro id g hg
    obtain ⟨w, -, hw⟩ := Option.bind_eq_some_iff.mp hg
    obtain ⟨w', -, rfl⟩ := Option.map_eq_some_iff.mp hw
    exact hnow
  cases act with
  | start id pool maxConcurrency =>
    obtain rfl := Option.some.inj hnext
    exact hnow
  | claim id chunkID => exact hworker id (·.claim chunkID) hnext
  | finish id chunkID => exact hworker id (·.finish chunkID) hnext
  | release id => exact hworker id (·.release) hnext
  | beat id =>
    obtain ⟨w, -, rfl⟩ := Option.map_eq_some_iff.mp hnext
    exact unlabelled_beat hnow id w
  | plane e =>
    rw [FleetState.act] at hnext
    split_ifs at hnext with hbeat
    obtain rfl := Option.some.inj hnext
    obtain ⟨hsound, hspares⟩ := ControlPlane.sound_effect heartbeatTTL
      (Bool.eq_false_iff.mpr hbeat) hnow.sound fun _ _ _ _ _ hnone => nomatch hnone
    exact hnow.spares hsound hspares
  | autoscale settings =>
    obtain rfl := Option.some.inj hnext
    exact unlabelled_autoscale hnow settings

theorem unlabelled_of_reaches {heartbeatTTL : Nat} {f : FleetState}
    (h : (fleet heartbeatTTL).Reaches Always {} f) : Unlabelled f.plane.store f.clock :=
  h.invariant ⟨Sound.empty, nofun⟩ fun g a g' hg _ => unlabelled_step g a g' hg

/-! ## What the autoscaler makes of it -/

/-- The autoscaler counts the worker as busy, in its pool. -/
def FleetState.counts (f : FleetState) (now : Nat) (id : Text) : Bool :=
  (f.listing now).any fun worker =>
    worker.workerID = id ∧ worker ∈ ofPool worker.pool (f.listing now) ∧ worker.busy

def FleetState.Processes (f : FleetState) (id : Text) : Prop :=
  ∃ w, f.workers id = some w ∧ w.processing ≠ []

/-- The pool is online and healthy, all its workers were processing chunks at their last
heartbeats, and it may have more of them. -/
structure FleetState.Loaded (f : FleetState) (now : Nat) (pool : PoolSummary)
    (minDesired maxDesired : Int) : Prop where
  online : pool.online = (ofPool pool.pool (f.listing now)).length
  positive : 0 < pool.online
  busy : ∀ worker ∈ ofPool pool.pool (f.listing now), f.loaded worker.workerID = true
  healthy : 1 / 4 ≤ pool.healthScore
  below : max pool.desired minDesired < maxDesired

/-- Without a busy worker no target rises. -/
theorem calculatePoolTargetDesired_le (pool : PoolSummary) (minDesired maxDesired : Int) :
    calculatePoolTargetDesired pool 0 minDesired maxDesired ≤ max pool.desired minDesired := by
  have htarget : (if pool.desired < minDesired then minDesired else pool.desired) =
      max pool.desired minDesired := by
    split_ifs <;> omega
  have hratio : ∀ online : Int, ¬ (17 / 20 : ℚ) ≤ ((0 : Int) : ℚ) / online := by
    intro online
    rw [Int.cast_zero, zero_div]
    norm_num
  rw [calculatePoolTargetDesired, htarget]
  generalize (if pool.online < 1 then 1 else pool.online) = online
  split_ifs with hsick hfull hidle
  · omega
  · exact absurd hfull.1 (hratio online)
  · omega
  · omega

theorem busyByPool_eq_zero {s : WorkerStore} {clock : Nat} (h : Unlabelled s clock) (now : Nat)
    (pool : Text) :
    busyByPool ((s.members .activeWorkers).filterMap (listed s.keys now)) pool = 0 := by
  rw [busyByPool, Int.natCast_eq_zero, List.length_eq_zero_iff, List.filter_eq_nil_iff]
  intro worker hworker hbusy
  rw [h.not_busy (List.mem_of_mem_filter hworker)] at hbusy
  exact Bool.false_ne_true hbusy

/-- **The autoscaler is right about a worker exactly after the heartbeats that are sent while
no chunk is processed; and it scales a pool up with its load only where there is no load.** -/
theorem seen_iff {heartbeatTTL : Nat} {f : FleetState}
    (h : (fleet heartbeatTTL).Reaches Always {} f) :
    (∀ now id f', (fleet heartbeatTTL).step f (now, .beat id) = some f' →
      ((f'.counts now id = true ↔ f.Processes id) ↔ ¬ f.Processes id)) ∧
    ∀ now (pool : PoolSummary) minDesired maxDesired,
      ((f.Loaded now pool minDesired maxDesired →
        calculatePoolTargetDesired pool (busyByPool (f.listing now) pool.pool) minDesired
          maxDesired = max pool.desired minDesired + 1) ↔
        ¬ f.Loaded now pool minDesired maxDesired) := by
  have hstore := unlabelled_of_reaches h
  constructor
  · intro now id f' hstep
    have hafter := unlabelled_step f (now, .beat id) f' hstore hstep
    have hcounts : f'.counts now id = false := by
      refine List.any_eq_false.mpr fun worker hworker => ?_
      rw [decide_eq_true_iff]
      rintro ⟨-, -, hbusy⟩
      rw [hafter.not_busy hworker] at hbusy
      exact Bool.false_ne_true hbusy
    rw [hcounts]
    constructor
    · intro hiff hprocesses
      exact Bool.false_ne_true (hiff.mpr hprocesses)
    · intro hidle
      exact ⟨fun hfalse => absurd hfalse Bool.false_ne_true, fun hp => absurd hp hidle⟩
  · intro now pool minDesired maxDesired
    have hle := calculatePoolTargetDesired_le pool minDesired maxDesired
    rw [FleetState.listing, busyByPool_eq_zero hstore now pool.pool]
    constructor
    · intro hup hloaded
      have := hup hloaded
      omega
    · intro hnot hloaded
      exact absurd hloaded hnot

/-- A worker of the pool `main` that is processing a chunk when its heartbeat is sent. -/
def loadedFleet : List (Nat × FleetAct) :=
  [(second, .start "w1".toList "main".toList 1), (2 * second, .claim "w1".toList "c1".toList)]

instance (f : FleetState) (id : Text) : Decidable (f.Processes id) :=
  decidable_of_iff ((f.workers id).any (·.processing ≠ []) = true) <| by
    rw [Option.any_eq_true]
    exact exists_congr fun w => and_congr_right fun _ => decide_eq_true_iff

theorem seen_iff_loaded :
    (((fleet second).final Always {} loadedFleet).Processes "w1".toList) ∧
      ((((fleet second).next ((fleet second).final Always {} loadedFleet)
        (3 * second, .beat "w1".toList)).counts (3 * second) "w1".toList = true ↔
          ((fleet second).final Always {} loadedFleet).Processes "w1".toList) ↔
        ¬ ((fleet second).final Always {} loadedFleet).Processes "w1".toList) :=
  ⟨by decide,
    (seen_iff (System.reaches_final (by decide))).1 (3 * second) "w1".toList _
      (System.step_eq_next (by decide))⟩

/-- The autoscaler does not count it, and does not scale its pool up. -/
theorem load_unseen :
    ∃ f f' : FleetState, (fleet second).Reaches Always {} f ∧
      (fleet second).step f (3 * second, .beat "w1".toList) = some f' ∧
      f.Processes "w1".toList ∧ f'.counts (3 * second) "w1".toList = false ∧
      f'.Loaded (3 * second) ⟨"main".toList, 1, 1, 1⟩ 0 10 ∧
      calculatePoolTargetDesired ⟨"main".toList, 1, 1, 1⟩
        (busyByPool (f'.listing (3 * second)) "main".toList) 0 10 ≠ 2 := by
  let f := (fleet second).final Always {} loadedFleet
  let f' := (fleet second).next f (3 * second, .beat "w1".toList)
  refine ⟨f, f', System.reaches_final (by decide), System.step_eq_next ?_, ?_, ?_,
    ⟨?_, ?_, ?_, ?_, ?_⟩, ?_⟩
  · decide
  · decide
  · decide
  · decide
  · decide
  · decide
  · norm_num
  · decide
  · decide +kernel

end ValidEmailVerifier.Fleet
