/-
# `Fleet.Workers` — the workers that are online

`GetWorkers` lists the active workers whose last heartbeat has not expired, with what their
records say, and takes the others out of the set.  The alert service and the autoscaler read
the workers this way.

Calls that follow each other are executed whole: every command is served, at one time for the
call (`serve`).  What such a call makes of the store is the list of its writes
(`steady_upsertHeartbeat`, `steady_setDesiredState`, `steady_setWorkerQuarantined`,
`steady_cleanupStaleKnownWorkers`, `steady_getWorkers`).
-/
import ValidEmailVerifier.Fleet.Calls

namespace ValidEmailVerifier.Fleet

open ExpiringKeys Programs Worker

/-! ## The list of workers -/

structure WorkerSummary where
  workerID : Text
  pool : Text
  /-- `none` is `unknown`. -/
  status : Option WorkerState
  desiredState : WorkerState
  quarantined : Bool
  lastHeartbeat : Nat
  currentJobID : Text
  currentChunkID : Text
  poolHealthHint : ℚ
  deriving DecidableEq

/-- What a read has found; a read that fails finds nothing. -/
def found {α : Type} : Except Text (Option α) → Option α
  | .ok value => value
  | .error _ => none

/-- The pool of the record, or the one under a key of its own. -/
def workerPool (id : Text) (workerMeta : WorkerMeta) : Program Text :=
  if workerMeta.pool = [] then
    .lift do
      let pool ← get (workerKey id .pool)
      pure ((found pool).getD [])
  else pure workerMeta.pool

/-- The record of a worker whose heartbeat is there. -/
def workerSummary (id : Text) (heartbeat : Nat) : Program WorkerSummary := do
  let status ← .lift (get (workerKey id .status))
  let desired ← .lift (get (workerKey id .desiredState))
  let workerMeta ← .lift (get (workerKey id .workerMeta))
  let workerMeta := (found workerMeta).getD {}
  let pool ← workerPool id workerMeta
  let quarantined ← isWorkerQuarantined id
  let poolHealthHint ← .lift (get (workerKey id .poolHealthHint))
  pure
    { workerID := id
      pool := pool
      status := found status
      desiredState := orRunning desired
      quarantined := quarantined
      lastHeartbeat := heartbeat
      currentJobID := workerMeta.currentJobID
      currentChunkID := workerMeta.currentChunkID
      poolHealthHint := (found poolHealthHint).getD 0 }

/-- The loop of `GetWorkers`. -/
def loadWorkers : List Text → Program (List WorkerSummary)
  | [] => pure []
  | id :: ids => do
      let heartbeat ← .mk (get (workerKey id .heartbeat))
      match heartbeat with
      | none =>
          let _ ← .lift (write (.srem .activeWorkers id))
          loadWorkers ids
      | some heartbeat =>
          let summary ← workerSummary id heartbeat
          let rest ← loadWorkers ids
          pure (summary :: rest)

def getWorkers : Program (List WorkerSummary) := do
  let ids ← smembers .activeWorkers
  loadWorkers ids

/-- Missing metrics are none. -/
def getWorkerMetrics (id : Text) : Program (Option WorkerMetrics) :=
  .mk (get (workerKey id .metrics))

/-- A missing time is none. -/
def getDesiredStateUpdatedAt (id : Text) : Program (Option Nat) :=
  .mk (get (workerKey id .desiredStateUpdated))

/-! ## Whole calls -/

/-- A command, served at the time. -/
def serve (now : Nat) : (c : Command) → WorkerStore → Reply c × WorkerStore
  | .get key, s => (.ok (s.keys.get now key), s)
  | .smembers set, s => (.ok (s.members set), s)
  | .now, s => (now, s)
  | .write w, s => (.ok (), s.apply now w)

/-- A call, executed whole. -/
def Program.serve {α : Type} (p : Program α) (now : Nat) (s : WorkerStore) :
    Except Text α × WorkerStore := p.run.steady (Fleet.serve now) s

def WorkerStore.applyAll (s : WorkerStore) (now : Nat) (ws : List Write) : WorkerStore :=
  ws.foldl (fun s w => s.apply now w) s

namespace WorkerStore

variable {s : WorkerStore} {now : Nat} {ws : List Write} {k : WorkerKey}

theorem applyAll_append (ws vs : List Write) :
    s.applyAll now (ws ++ vs) = (s.applyAll now ws).applyAll now vs := List.foldl_append

theorem keys_apply_of_untouched {w : Write} (h : w.touches k = false) :
    (s.apply now w).keys k = s.keys k := by
  rcases s.keys_apply now w k with heq | ⟨keys, rfl, hmem, -⟩ | ⟨value, ttl, hset, -⟩
  · exact heq
  · exact absurd hmem (of_decide_eq_false h)
  · rcases hset with rfl | rfl <;> exact absurd rfl (of_decide_eq_false h)

/-- Writes that leave a key as it is. -/
theorem keys_applyAll_of_untouched (h : ∀ w ∈ ws, w.touches k = false) :
    (s.applyAll now ws).keys k = s.keys k := by
  induction ws generalizing s with
  | nil => rfl
  | cons w ws ih =>
    show ((s.apply now w).applyAll now ws).keys k = s.keys k
    rw [ih fun v hv => h v (.tail _ hv), keys_apply_of_untouched (h w (.head _))]

/-- The last write of a key. -/
theorem keys_applyAll_set (pre post : List Write) (value : k.2.Value) (ttl : Nat)
    (h : ∀ w ∈ post, w.touches k = false) :
    (s.applyAll now (pre ++ .set k value ttl :: post)).keys k =
      some ⟨value, expiry now ttl⟩ := by
  rw [applyAll_append]
  show (((s.applyAll now pre).apply now (.set k value ttl)).applyAll now post).keys k = _
  rw [keys_applyAll_of_untouched h]
  exact Keys.set_self ..

/-- A member that is not removed. -/
theorem mem_applyAll {set : Members} {id : Text} (h : .srem set id ∉ ws)
    (hmem : id ∈ s.members set) : id ∈ (s.applyAll now ws).members set := by
  induction ws generalizing s with
  | nil => exact hmem
  | cons w ws ih =>
    refine ih (fun hw => h (.tail _ hw)) ?_
    rcases s.mem_apply now w set id hmem with hstays | rfl
    · exact hstays
    · exact absurd (.head _) h

end WorkerStore

section Served
variable (now : Nat) (s : WorkerStore)

theorem serve_bind {α β : Type} (p : Program α) (f : α → Program β) :
    (p >>= f).serve now s =
      match (p.serve now s).1 with
      | .ok a => (f a).serve now (p.serve now s).2
      | .error e => (.error e, (p.serve now s).2) := by
  have hrun : (p >>= f).run = p.run >>= ExceptT.bindCont f := rfl
  rw [Program.serve, hrun, Prog.steady_bind]
  show (ExceptT.bindCont f (p.serve now s).1).steady _ _ = _
  cases (p.serve now s).1 <;> rfl

theorem steady_execPipe (ws : List Write) :
    (execPipe ws).steady (serve now) s = (.ok (), s.applyAll now ws) := by
  induction ws generalizing s with
  | nil => rfl
  | cons w ws ih =>
    show (execPipe ws >>= _).steady (serve now) (s.apply now w) = _
    rw [Prog.steady_bind, ih]
    rfl

/-- What follows a pipeline. -/
theorem serve_pipeline {α : Type} (ws : List Write) (f : Unit → Program α) :
    Program.serve (ExceptT.mk (execPipe ws) >>= f) now s =
      (f ()).serve now (s.applyAll now ws) := by
  have hpipe : Program.serve (ExceptT.mk (execPipe ws)) now s = (.ok (), s.applyAll now ws) :=
    steady_execPipe now s ws
  rw [serve_bind, hpipe]

/-- The desired state that is stored. -/
def WorkerStore.desired (s : WorkerStore) (now : Nat) (id : Text) : WorkerState :=
  (s.keys.get now (workerKey id .desiredState)).getD .running

/-- The quarantine flag is there. -/
def WorkerStore.flagged (s : WorkerStore) (now : Nat) (id : Text) : Bool :=
  (s.keys.get now (workerKey id .quarantined)).isSome

theorem orRunning_ok (value : Option WorkerState) :
    orRunning (.ok value) = value.getD .running := by
  cases value <;> rfl

theorem isSet_ok (value : Option Quarantine) : isSet (.ok value) = value.isSome := by
  cases value <;> rfl

/-- The state a heartbeat is answered with. -/
def WorkerStore.answer (s : WorkerStore) (now : Nat) (id : Text) : WorkerState :=
  if s.flagged now id then .draining else s.desired now id

/-- What a heartbeat writes. -/
def WorkerStore.afterHeartbeat (s : WorkerStore) (now heartbeatTTL : Nat) (req : HeartbeatRequest)
    (status : WorkerState) : WorkerStore :=
  s.applyAll now (heartbeatWrites heartbeatTTL req status (s.answer now req.workerID)
    (formatRFC3339 now) ++ if s.flagged now req.workerID then
      [.set (workerKey req.workerID .desiredState) .draining 0] else [])

theorem serve_commitHeartbeat (heartbeatTTL : Nat) (req : HeartbeatRequest)
    (status desiredState : WorkerState) (isQuarantined : Bool) (time : Nat) :
    (commitHeartbeat heartbeatTTL req status desiredState isQuarantined time).serve now s =
      (.ok desiredState, s.applyAll now
        (heartbeatWrites heartbeatTTL req status desiredState time ++
          if isQuarantined then [.set (workerKey req.workerID .desiredState) .draining 0]
          else [])) := by
  refine (serve_pipeline now s _ _).trans ?_
  rw [WorkerStore.applyAll, WorkerStore.applyAll, List.foldl_append]
  cases isQuarantined <;> rfl

theorem serve_upsertHeartbeat {heartbeatTTL : Nat} {req : HeartbeatRequest} {status : WorkerState}
    (hid : req.workerID ≠ []) (hstatus : normalizeStatus req.status = some status) :
    (upsertHeartbeat heartbeatTTL req).serve now s =
      (.ok (s.answer now req.workerID), s.afterHeartbeat now heartbeatTTL req status) := by
  have hvalue : Program.serve (ExceptT.lift (get (workerKey req.workerID .desiredState))) now s =
      (.ok (.ok (s.keys.get now (workerKey req.workerID .desiredState))), s) := rfl
  have hflag : (isWorkerQuarantined req.workerID).serve now s =
      (.ok (s.flagged now req.workerID), s) := by
    rw [WorkerStore.flagged, ← isSet_ok]
    rfl
  have htime : Program.serve Fleet.now now s = (.ok now, s) := rfl
  rw [upsertHeartbeat, if_neg hid, hstatus]
  dsimp only
  rw [serve_bind, hvalue]
  dsimp only
  rw [serve_bind, hflag]
  dsimp only
  rw [serve_bind, htime]
  dsimp only
  rw [orRunning_ok]
  exact serve_commitHeartbeat ..

theorem serve_execPipe (ws : List Write) :
    Program.serve (ExceptT.mk (execPipe ws)) now s = (.ok (), s.applyAll now ws) :=
  steady_execPipe now s ws

theorem serve_setDesiredState {id state : Text} {desired : WorkerState} (hid : id ≠ [])
    (hstate : normalizeDesiredState state = some desired) :
    (setDesiredState id state).serve now s =
      (.ok (), s.applyAll now (desiredStateWrites id desired (formatRFC3339 now))) := by
  rw [setDesiredState, if_neg hid, hstate]
  exact serve_execPipe now s _

theorem serve_setWorkerQuarantined {id : Text} (enabled : Bool) (reason : Text) (hid : id ≠ []) :
    (setWorkerQuarantined id enabled reason).serve now s =
      (.ok (), s.applyAll now (if enabled then quarantineWrites id reason (formatRFC3339 now)
        else releaseWrites id (formatRFC3339 now))) := by
  rw [setWorkerQuarantined, if_neg hid]
  exact serve_execPipe now s _

/-- The worker was not seen after the cutoff. -/
def WorkerStore.stale (s : WorkerStore) (now cutoff : Nat) (id : Text) : Bool :=
  (s.keys.get now (workerKey id .lastSeen)).any fun seen => seen ≤ cutoff

theorem steady_staleWorkers (cutoff : Nat) (ids : List Text) :
    (staleWorkers cutoff ids).steady (serve now) s = (ids.filter (s.stale now cutoff), s) := by
  induction ids with
  | nil => rfl
  | cons id ids ih =>
    show (staleWorkers cutoff ids >>= _).steady (serve now) s = _
    rw [Prog.steady_bind, ih]
    rw [List.filter_cons, WorkerStore.stale]
    dsimp only [serve]
    cases s.keys.get now (workerKey id .lastSeen) with
    | none => rfl
    | some seen =>
      by_cases hle : seen ≤ cutoff
      · rw [Option.any_some, decide_eq_true hle, if_pos rfl]
        exact Prod.ext (if_neg (Nat.not_lt.mpr hle)) rfl
      · rw [Option.any_some, decide_eq_false hle, if_neg Bool.false_ne_true]
        exact Prod.ext (if_pos (Nat.lt_of_not_le hle)) rfl

theorem serve_lift {α : Type} (p : Prog Command Reply α) :
    Program.serve (ExceptT.lift p) now s =
      (.ok (p.steady (serve now) s).1, (p.steady (serve now) s).2) := by
  show (p >>= fun a => pure (.ok a) : Prog Command Reply (Except Text α)).steady _ s = _
  rw [Prog.steady_bind]
  rfl

theorem serve_cleanupStaleKnownWorkers (cutoff : Nat) :
    (cleanupStaleKnownWorkers cutoff).serve now s =
      (.ok ((s.members .knownWorkers).filter (s.stale now cutoff)),
        s.applyAll now (((s.members .knownWorkers).filter (s.stale now cutoff)).flatMap
          removalWrites)) := by
  show Program.serve (ExceptT.lift (staleWorkers cutoff (s.members .knownWorkers)) >>= _) now s = _
  rw [serve_bind, serve_lift, steady_staleWorkers]
  dsimp only
  by_cases hnil : (s.members .knownWorkers).filter (s.stale now cutoff) = []
  · rw [if_pos hnil, hnil]
    rfl
  · rw [if_neg hnil]
    exact serve_pipeline now s _ _

/-- The record of a worker, as it is listed. -/
def summaryOf (keys : Keys WorkerKey fun k => k.2.Value) (now : Nat) (id : Text)
    (heartbeat : Nat) : WorkerSummary :=
  let workerMeta := (keys.get now (workerKey id .workerMeta)).getD {}
  { workerID := id
    pool := if workerMeta.pool = [] then (keys.get now (workerKey id .pool)).getD []
      else workerMeta.pool
    status := keys.get now (workerKey id .status)
    desiredState := (keys.get now (workerKey id .desiredState)).getD .running
    quarantined := (keys.get now (workerKey id .quarantined)).isSome
    lastHeartbeat := heartbeat
    currentJobID := workerMeta.currentJobID
    currentChunkID := workerMeta.currentChunkID
    poolHealthHint := (keys.get now (workerKey id .poolHealthHint)).getD 0 }

/-- A worker is listed when its heartbeat is there. -/
def listed (keys : Keys WorkerKey fun k => k.2.Value) (now : Nat) (id : Text) :
    Option WorkerSummary :=
  (keys.get now (workerKey id .heartbeat)).map (summaryOf keys now id)

theorem serve_workerPool (id : Text) (workerMeta : WorkerMeta) :
    (workerPool id workerMeta).serve now s = (.ok (if workerMeta.pool = [] then
      (s.keys.get now (workerKey id .pool)).getD [] else workerMeta.pool), s) := by
  rw [workerPool]
  by_cases hpool : workerMeta.pool = []
  · rw [if_pos hpool, if_pos hpool]
    rfl
  · rw [if_neg hpool, if_neg hpool]
    rfl

theorem serve_workerSummary (id : Text) (heartbeat : Nat) :
    (workerSummary id heartbeat).serve now s = (.ok (summaryOf s.keys now id heartbeat), s) := by
  show Program.serve (workerPool id ((s.keys.get now (workerKey id .workerMeta)).getD {}) >>= _)
    now s = _
  rw [serve_bind, serve_workerPool, summaryOf, ← orRunning_ok, ← isSet_ok]
  rfl

/-- Those of the ids whose heartbeat is not there. -/
def offline (keys : Keys WorkerKey fun k => k.2.Value) (now : Nat) (ids : List Text) :
    List Text := ids.filter fun id => (keys.get now (workerKey id .heartbeat)).isNone

theorem serve_loadWorkers (ids : List Text) :
    (loadWorkers ids).serve now s = (.ok (ids.filterMap (listed s.keys now)),
      s.applyAll now ((offline s.keys now ids).map (.srem .activeWorkers))) := by
  induction ids generalizing s with
  | nil => rfl
  | cons id ids ih =>
    rw [loadWorkers, serve_bind]
    have hread : Program.serve (ExceptT.mk (get (workerKey id .heartbeat))) now s =
        (.ok (s.keys.get now (workerKey id .heartbeat)), s) := rfl
    rw [hread, List.filterMap_cons, offline, List.filter_cons, listed]
    cases hbeat : s.keys.get now (workerKey id .heartbeat) with
    | none =>
      show Program.serve (loadWorkers ids) now (s.apply now (.srem .activeWorkers id)) = _
      rw [ih]
      rfl
    | some heartbeat =>
      show Program.serve (workerSummary id heartbeat >>= fun summary => loadWorkers ids >>=
        fun rest => pure (summary :: rest)) now s = _
      rw [serve_bind, serve_workerSummary]
      show Program.serve (loadWorkers ids >>= _) now s = _
      rw [serve_bind, ih]
      rfl

theorem serve_getWorkers :
    getWorkers.serve now s = (.ok ((s.members .activeWorkers).filterMap (listed s.keys now)),
      s.applyAll now ((offline s.keys now (s.members .activeWorkers)).map
        (.srem .activeWorkers))) :=
  serve_loadWorkers now s _

end Served

/-! ## What a call leaves -/

/-- The desired state of a worker is set at a time. -/
structure Assigns (s s' : WorkerStore) (id : Text) (desired : WorkerState) (time : Nat) : Prop where
  desired : s'.keys (workerKey id .desiredState) = some ⟨desired, none⟩
  updated : s'.keys (workerKey id .desiredStateUpdated) = some ⟨time, none⟩
  others : ∀ k : WorkerKey, k.1 ≠ id ∨
    k.2 ∉ [Field.desiredState, .desiredStateUpdated, .quarantined] → s'.keys k = s.keys k
  members : ∀ set member, member ∈ s.members set → member ∈ s'.members set

/-- Writes of the three keys. -/
theorem assigns_of_writes {s : WorkerStore} {now time : Nat} {id : Text} {desired : WorkerState}
    {ws : List Write}
    (hdesired : (s.applyAll now ws).keys (workerKey id .desiredState) = some ⟨desired, none⟩)
    (hupdated : (s.applyAll now ws).keys (workerKey id .desiredStateUpdated) = some ⟨time, none⟩)
    (htouches : ∀ w ∈ ws, ∀ k, w.touches k = true → k.1 = id ∧
      k.2 ∈ [Field.desiredState, .desiredStateUpdated, .quarantined])
    (hsrem : ∀ set member, .srem set member ∉ ws) :
    Assigns s (s.applyAll now ws) id desired time where
  desired := hdesired
  updated := hupdated
  others k hk := by
    refine WorkerStore.keys_applyAll_of_untouched fun w hw => Bool.eq_false_iff.mpr fun ht => ?_
    obtain ⟨hid, hfield⟩ := htouches w hw k ht
    rcases hk with hk | hk
    · exact hk hid
    · exact hk hfield
  members set member hmem := WorkerStore.mem_applyAll (hsrem set member) hmem

theorem touches_eq_false {w : Write} {id : Text} {field other : Field}
    (h : ∀ k, w.touches k = true → k = workerKey id field) (hne : other ≠ field) :
    w.touches (workerKey id other) = false :=
  Bool.eq_false_iff.mpr fun ht => hne (congrArg Prod.snd (h _ ht))

theorem touches_set {id : Text} {field : Field} (value : field.Value) (ttl : Nat) (k : WorkerKey)
    (h : (Write.set (workerKey id field) value ttl).touches k = true) : k = workerKey id field :=
  (of_decide_eq_true h).symm

theorem touches_del {id : Text} {field : Field} (k : WorkerKey)
    (h : (Write.del [workerKey id field]).touches k = true) : k = workerKey id field :=
  List.mem_singleton.mp (of_decide_eq_true h)

theorem assigns_desiredState (s : WorkerStore) (now : Nat) (id : Text) (desired : WorkerState)
    (time : Nat) :
    Assigns s (s.applyAll now (desiredStateWrites id desired time)) id desired time := by
  have htail : ∀ w ∈ (if desired = .running then [Write.del [workerKey id .quarantined]] else []),
      w = .del [workerKey id .quarantined] := by
    intro w hw
    split_ifs at hw
    · exact List.mem_singleton.mp hw
    · exact nomatch hw
  refine assigns_of_writes ?_ ?_ ?_ ?_
  · refine WorkerStore.keys_applyAll_set [] _ _ 0 fun w hw => ?_
    rcases List.mem_cons.mp hw with rfl | hw
    · exact touches_eq_false (touches_set _ _) nofun
    · rw [htail w hw]
      exact touches_eq_false touches_del nofun
  · refine WorkerStore.keys_applyAll_set [_] _ _ 0 fun w hw => ?_
    rw [htail w hw]
    exact touches_eq_false touches_del nofun
  · intro w hw k ht
    rcases List.mem_cons.mp hw with rfl | hw
    · obtain rfl := touches_set _ _ k ht
      exact ⟨rfl, .head _⟩
    · rcases List.mem_cons.mp hw with rfl | hw
      · obtain rfl := touches_set _ _ k ht
        exact ⟨rfl, .tail _ (.head _)⟩
      · rw [htail w hw] at ht
        obtain rfl := touches_del k ht
        exact ⟨rfl, .tail _ (.tail _ (.head _))⟩
  · intro set member hmem
    rcases List.mem_append.mp hmem with hmem | hmem
    · simp at hmem
    · exact nomatch htail _ hmem

/-- The worker is marked or unmarked, and a state is desired of it. -/
theorem assigns_of_mark (s : WorkerStore) (now : Nat) {id : Text} {desired : WorkerState}
    {time : Nat} {mark : Write} (hmark : ∀ k, mark.touches k = true → k = workerKey id .quarantined)
    (hsrem : ∀ set member, .srem set member ≠ mark) :
    Assigns s (s.applyAll now [mark, .set (workerKey id .desiredState) desired 0,
      .set (workerKey id .desiredStateUpdated) time 0]) id desired time := by
  refine assigns_of_writes ?_ ?_ ?_ ?_
  · refine WorkerStore.keys_applyAll_set [_] [_] _ 0 fun w hw => ?_
    obtain rfl := List.mem_singleton.mp hw
    exact touches_eq_false (touches_set _ _) nofun
  · exact WorkerStore.keys_applyAll_set [_, _] [] _ 0 nofun
  · intro w hw k ht
    simp only [List.mem_cons, List.not_mem_nil, or_false] at hw
    rcases hw with rfl | rfl | rfl
    · obtain rfl := hmark k ht
      exact ⟨rfl, .tail _ (.tail _ (.head _))⟩
    · obtain rfl := touches_set _ _ k ht
      exact ⟨rfl, .head _⟩
    · obtain rfl := touches_set _ _ k ht
      exact ⟨rfl, .tail _ (.head _)⟩
  · intro set member hmem
    simp only [List.mem_cons, List.not_mem_nil, or_false, reduceCtorEq] at hmem
    exact hsrem set member hmem

theorem assigns_quarantine (s : WorkerStore) (now : Nat) (id reason : Text) (time : Nat) :
    Assigns s (s.applyAll now (quarantineWrites id reason time)) id .draining time :=
  assigns_of_mark s now (touches_set _ _) nofun

theorem assigns_release (s : WorkerStore) (now : Nat) (id : Text) (time : Nat) :
    Assigns s (s.applyAll now (releaseWrites id time)) id .running time :=
  assigns_of_mark s now touches_del nofun

/-- A worker reports its status. -/
structure Reports (s s' : WorkerStore) (now heartbeatTTL : Nat) (req : HeartbeatRequest)
    (reported : WorkerState) : Prop where
  status : s'.keys (workerKey req.workerID .status) = some ⟨reported, expiry now heartbeatTTL⟩
  heartbeat : s'.keys (workerKey req.workerID .heartbeat) =
    some ⟨formatRFC3339 now, expiry now heartbeatTTL⟩
  record : s'.keys (workerKey req.workerID .workerMeta) =
    some ⟨⟨req.pool, req.currentJobID, req.currentChunkID⟩, expiry now heartbeatTTL⟩
  desired : s'.keys (workerKey req.workerID .desiredState) =
    if s.flagged now req.workerID then some ⟨.draining, none⟩
    else s.keys (workerKey req.workerID .desiredState)
  updated : s'.keys (workerKey req.workerID .desiredStateUpdated) =
    if reported = s.answer now req.workerID then none
    else if (s.keys.get now (workerKey req.workerID .desiredStateUpdated)).isSome then
      s.keys (workerKey req.workerID .desiredStateUpdated)
    else some ⟨formatRFC3339 now, none⟩
  others : ∀ k : WorkerKey, k.1 ≠ req.workerID → s'.keys k = s.keys k
  active : req.workerID ∈ s'.members .activeWorkers
  members : ∀ set member, member ∈ s.members set → member ∈ s'.members set

/-- The records of workers are removed. -/
structure Removes (s s' : WorkerStore) (ids : List Text) : Prop where
  kept : ∀ k : WorkerKey, k.1 ∉ ids → s'.keys k = s.keys k
  gone : ∀ k : WorkerKey, k.1 ∈ ids → s'.keys k = none
  stays : ∀ set id, id ∉ ids → id ∈ s.members set → id ∈ s'.members set
  members : ∀ set id, id ∈ s'.members set → id ∈ s.members set

/-- What is left was there before, and is of none of the workers. -/
theorem Removes.survivor {s s' : WorkerStore} {ids : List Text} (h : Removes s s' ids)
    {k : WorkerKey} {e} (he : s'.keys k = some e) : k.1 ∉ ids ∧ s.keys k = some e := by
  by_cases hid : k.1 ∈ ids
  · rw [h.gone k hid] at he
    exact nomatch he
  · rw [h.kept k hid] at he
    exact ⟨hid, he⟩

/-- The cleanup deletes every key of a worker. -/
theorem mem_staleWorkerDeleteKeys {k : WorkerKey} {id : Text} :
    k ∈ staleWorkerDeleteKeys id ↔ k.1 = id := by
  constructor
  · intro hk
    obtain ⟨field, -, rfl⟩ := List.mem_map.mp hk
    rfl
  · intro hk
    refine List.mem_map.mpr ⟨k.2, ?_, Prod.ext hk.symm rfl⟩
    cases k.2 <;> decide

theorem mem_apply_srem {s : WorkerStore} (now : Nat) {set other : Members} {id member : Text}
    (h : member ∈ (s.apply now (.srem other id)).members set) : member ∈ s.members set := by
  have hmem : member ∈ Function.update s.members other _ set := h
  by_cases hset : set = other
  · subst hset
    rw [Function.update_self] at hmem
    exact List.mem_of_mem_filter hmem
  · rw [Function.update_of_ne hset] at hmem
    exact hmem

theorem removes_removalWrites (s : WorkerStore) (now : Nat) (ids : List Text) :
    Removes s (s.applyAll now (ids.flatMap removalWrites)) ids := by
  induction ids generalizing s with
  | nil => exact ⟨fun _ _ => rfl, nofun, fun _ _ _ h => h, fun _ _ h => h⟩
  | cons id ids ih =>
    let removed := s.applyAll now (removalWrites id)
    have hrest : Removes removed _ ids := ih removed
    have heq : s.applyAll now ((id :: ids).flatMap removalWrites) =
        removed.applyAll now (ids.flatMap removalWrites) := WorkerStore.applyAll_append ..
    have hkeys : removed.keys = s.keys.del (staleWorkerDeleteKeys id) := rfl
    rw [heq]
    constructor
    case kept =>
      intro k hk
      rw [hrest.kept k fun hmem => hk (.tail _ hmem), hkeys]
      refine Keys.del_of_notMem _ fun hmem => hk ?_
      rw [mem_staleWorkerDeleteKeys.mp hmem]
      exact .head _
    case gone =>
      intro k hk
      by_cases hmem : k.1 ∈ ids
      · exact hrest.gone k hmem
      · rw [hrest.kept k hmem, hkeys]
        rcases List.mem_cons.mp hk with hid | hid
        · exact Keys.del_of_mem _ (mem_staleWorkerDeleteKeys.mpr hid)
        · exact absurd hid hmem
    case stays =>
      intro set member hmember hmem
      refine hrest.stays set member (fun h => hmember (.tail _ h)) ?_
      refine WorkerStore.mem_applyAll (fun hw => hmember ?_) hmem
      simp only [removalWrites, List.mem_cons, Write.srem.injEq, reduceCtorEq, List.not_mem_nil,
        or_false] at hw
      rcases hw with ⟨-, rfl⟩ | ⟨-, rfl⟩
      · exact .head _
      · exact .head _
    case members =>
      intro set member hmem
      exact mem_apply_srem now (mem_apply_srem now (hrest.members set member hmem))

section Heartbeat
variable {heartbeatTTL : Nat} {req : HeartbeatRequest} {status desired : WorkerState} {time : Nat}

/-- The keys that a heartbeat writes after the metrics. -/
theorem touches_heartbeatTail {w : Write}
    (hw : w ∈ heartbeatTail heartbeatTTL req status desired time) (k : WorkerKey)
    (ht : w.touches k = true) :
    k.1 = req.workerID ∧ k.2 ∈ [Field.poolHealthHint, .pool, .desiredStateUpdated] := by
  simp only [heartbeatTail, List.mem_append] at hw
  rcases hw with (hw | hw) | hw
  · cases hhint : req.poolHealthHint with
    | none => rw [hhint] at hw; exact nomatch hw
    | some hint =>
      rw [hhint] at hw
      obtain rfl := List.mem_singleton.mp hw
      obtain rfl := touches_set _ _ k ht
      exact ⟨rfl, .head _⟩
  · split_ifs at hw with hpool
    · exact nomatch hw
    · rcases List.mem_cons.mp hw with rfl | hw
      · obtain rfl := touches_set _ _ k ht
        exact ⟨rfl, .tail _ (.head _)⟩
      · obtain rfl := List.mem_singleton.mp hw
        exact nomatch ht
  · split_ifs at hw with hstatus
    · obtain rfl := List.mem_singleton.mp hw
      obtain rfl := touches_del k ht
      exact ⟨rfl, .tail _ (.tail _ (.head _))⟩
    · obtain rfl := List.mem_singleton.mp hw
      obtain rfl : _ = k := of_decide_eq_true ht
      exact ⟨rfl, .tail _ (.tail _ (.head _))⟩

theorem touches_heartbeatWrites {w : Write}
    (hw : w ∈ heartbeatWrites heartbeatTTL req status desired time) (k : WorkerKey)
    (ht : w.touches k = true) :
    k.1 = req.workerID ∧ k.2 ∉ [Field.desiredState, .quarantined] := by
  rcases List.mem_append.mp hw with hw | hw
  · simp only [heartbeatRecord, List.mem_cons, List.not_mem_nil, or_false] at hw
    rcases hw with rfl | rfl | rfl | rfl | rfl | rfl | rfl
    · exact nomatch ht
    · exact nomatch ht
    all_goals
      obtain rfl := touches_set _ _ k ht
      exact ⟨rfl, by simp⟩
  · obtain ⟨hid, hfield⟩ := touches_heartbeatTail hw k ht
    refine ⟨hid, fun hmem => ?_⟩
    cases hk : k.2 <;> simp [hk] at hfield hmem

/-- A key of the record. -/
theorem keys_heartbeatWrites {s : WorkerStore} {now : Nat} {field : Field} {value : field.Value}
    {ttl : Nat} (pre post : List Write)
    (heq : heartbeatRecord heartbeatTTL req status time =
      pre ++ .set (workerKey req.workerID field) value ttl :: post)
    (hpost : ∀ w ∈ post, w.touches (workerKey req.workerID field) = false)
    (hfield : field ∉ [Field.poolHealthHint, .pool, .desiredStateUpdated]) :
    (s.applyAll now (heartbeatWrites heartbeatTTL req status desired time)).keys
      (workerKey req.workerID field) = some ⟨value, expiry now ttl⟩ := by
  have htail : ∀ w ∈ heartbeatTail heartbeatTTL req status desired time,
      w.touches (workerKey req.workerID field) = false :=
    fun w hw => Bool.eq_false_iff.mpr fun ht => hfield (touches_heartbeatTail hw _ ht).2
  rw [heartbeatWrites, WorkerStore.applyAll_append,
    WorkerStore.keys_applyAll_of_untouched htail, heq]
  exact WorkerStore.keys_applyAll_set pre post value ttl hpost

/-- What the pipeline of a heartbeat leaves of the time of the desired state. -/
theorem updated_heartbeatWrites (s : WorkerStore) (now heartbeatTTL : Nat)
    (req : HeartbeatRequest) (status desired : WorkerState) (time : Nat) :
    (s.applyAll now (heartbeatWrites heartbeatTTL req status desired time)).keys
        (workerKey req.workerID .desiredStateUpdated) =
      if status = desired then none
      else if (s.keys.get now (workerKey req.workerID .desiredStateUpdated)).isSome then
        s.keys (workerKey req.workerID .desiredStateUpdated)
      else some ⟨time, none⟩ := by
  let key := workerKey req.workerID .desiredStateUpdated
  -- it is the last write of the pipeline that is about this key
  obtain ⟨earlier, hearlier, heq⟩ : ∃ earlier : List Write,
      (∀ w ∈ earlier, w.touches key = false) ∧
      heartbeatWrites heartbeatTTL req status desired time = earlier ++
        (if status = desired then [.del [key]] else [.setNX key time 0]) := by
    refine ⟨heartbeatRecord heartbeatTTL req status time ++
      ((req.poolHealthHint.toList.map fun hint =>
        .set (workerKey req.workerID .poolHealthHint) hint heartbeatTTL) ++
      (if req.pool = [] then []
        else [.set (workerKey req.workerID .pool) req.pool heartbeatTTL,
          .sadd .knownPools req.pool])), ?_, ?_⟩
    swap
    · simp only [heartbeatWrites, heartbeatTail, List.append_assoc]
      cases req.poolHealthHint <;> rfl
    intro w hw
    rcases List.mem_append.mp hw with hw | hw
    · simp only [heartbeatRecord, List.mem_cons, List.not_mem_nil, or_false] at hw
      rcases hw with rfl | rfl | rfl | rfl | rfl | rfl | rfl
      · rfl
      · rfl
      all_goals exact touches_eq_false (touches_set _ _) (by simp)
    · rcases List.mem_append.mp hw with hw | hw
      · obtain ⟨hint, -, rfl⟩ := List.mem_map.mp hw
        exact touches_eq_false (touches_set _ _) (by simp)
      · split_ifs at hw with hpool
        · cases hw
        · rcases List.mem_cons.mp hw with rfl | hw
          · exact touches_eq_false (touches_set _ _) (by simp)
          · obtain rfl := List.mem_singleton.mp hw
            rfl
  have hkey : (s.applyAll now earlier).keys key = s.keys key :=
    WorkerStore.keys_applyAll_of_untouched hearlier
  have hget : (s.applyAll now earlier).keys.get now key = s.keys.get now key := by
    rw [Keys.get, Keys.get, hkey]
  rw [heq, WorkerStore.applyAll_append]
  by_cases hstatus : status = desired
  · rw [if_pos hstatus, if_pos hstatus]
    exact Keys.del_of_mem _ (List.mem_singleton_self key)
  · rw [if_neg hstatus, if_neg hstatus, ← hget, ← hkey]
    show ((s.applyAll now earlier).keys.setNX now key time none) key = _
    rw [Keys.setNX]
    split_ifs
    · rfl
    · exact Keys.set_self ..

theorem srem_notMem_heartbeatWrites (set : Members) (member : Text) :
    .srem set member ∉ heartbeatWrites heartbeatTTL req status desired time := by
  intro hmem
  simp only [heartbeatWrites, heartbeatRecord, heartbeatTail, List.mem_append, List.mem_cons,
    List.not_mem_nil, or_false, reduceCtorEq, false_or] at hmem
  rcases hmem with (hmem | hmem) | hmem
  · split at hmem
    · exact nomatch hmem
    · exact nomatch List.mem_singleton.mp hmem
  · split_ifs at hmem
    · exact nomatch hmem
    · simp at hmem
  · split_ifs at hmem
    · exact nomatch List.mem_singleton.mp hmem
    · exact nomatch List.mem_singleton.mp hmem

theorem reports_afterHeartbeat (s : WorkerStore) (now heartbeatTTL : Nat) (req : HeartbeatRequest)
    (status : WorkerState) :
    Reports s (s.afterHeartbeat now heartbeatTTL req status) now heartbeatTTL req status := by
  let written := s.applyAll now (heartbeatWrites heartbeatTTL req status
    (s.answer now req.workerID) (formatRFC3339 now))
  let last : List Write := if s.flagged now req.workerID then
    [.set (workerKey req.workerID .desiredState) .draining 0] else []
  have hafter : s.afterHeartbeat now heartbeatTTL req status = written.applyAll now last :=
    WorkerStore.applyAll_append ..
  -- the write after the pipeline touches the desired state alone
  have hmemLast : ∀ w ∈ last, w = .set (workerKey req.workerID .desiredState) .draining 0 := by
    intro w hw
    show _ = _
    dsimp only [last] at hw
    split_ifs at hw
    · exact List.mem_singleton.mp hw
    · exact nomatch hw
  have hlast : ∀ k : WorkerKey, k.1 ≠ req.workerID ∨ k.2 ≠ .desiredState →
      (s.afterHeartbeat now heartbeatTTL req status).keys k = written.keys k := by
    intro k hk
    rw [hafter]
    refine WorkerStore.keys_applyAll_of_untouched fun w hw => ?_
    rw [hmemLast w hw]
    refine Bool.eq_false_iff.mpr fun ht => ?_
    obtain rfl := touches_set _ _ k ht
    rcases hk with hk | hk <;> exact hk rfl
  have hother : ∀ k, (∀ w ∈ heartbeatWrites heartbeatTTL req status (s.answer now req.workerID)
      (formatRFC3339 now), w.touches k = false) → written.keys k = s.keys k :=
    fun k h => WorkerStore.keys_applyAll_of_untouched h
  have hstays : ∀ set member, member ∈ written.members set →
      member ∈ (s.afterHeartbeat now heartbeatTTL req status).members set := by
    intro set member hmem
    rw [hafter]
    refine WorkerStore.mem_applyAll (fun hw => ?_) hmem
    exact nomatch hmemLast _ hw
  refine ⟨?status, ?heartbeat, ?record, ?desired, ?updated, ?others, ?active, ?members⟩
  case status =>
    rw [hlast (workerKey req.workerID .status) (.inr nofun)]
    refine keys_heartbeatWrites [_, _] [_, _, _, _] rfl (fun w hw => ?_) (by decide)
    simp only [List.mem_cons, List.not_mem_nil, or_false] at hw
    rcases hw with rfl | rfl | rfl | rfl
    all_goals exact touches_eq_false (touches_set _ _) nofun
  case heartbeat =>
    rw [hlast (workerKey req.workerID .heartbeat) (.inr nofun)]
    refine keys_heartbeatWrites [_, _, _] [_, _, _] rfl (fun w hw => ?_) (by decide)
    simp only [List.mem_cons, List.not_mem_nil, or_false] at hw
    rcases hw with rfl | rfl | rfl
    all_goals exact touches_eq_false (touches_set _ _) nofun
  case record =>
    rw [hlast (workerKey req.workerID .workerMeta) (.inr nofun)]
    refine keys_heartbeatWrites [_, _, _, _, _] [_] rfl (fun w hw => ?_) (by decide)
    obtain rfl := List.mem_singleton.mp hw
    exact touches_eq_false (touches_set _ _) nofun
  case desired =>
    rw [hafter]
    dsimp only [last]
    split_ifs with hflag
    · exact WorkerStore.keys_applyAll_set [] [] _ 0 nofun
    · exact hother _ fun w hw => Bool.eq_false_iff.mpr fun ht =>
        (touches_heartbeatWrites hw _ ht).2 (.head _)
  case updated =>
    rw [hlast (workerKey req.workerID .desiredStateUpdated) (.inr nofun)]
    exact updated_heartbeatWrites s now heartbeatTTL req status _ _
  case others =>
    intro k hk
    rw [hlast k (.inl hk)]
    exact hother k fun w hw => Bool.eq_false_iff.mpr fun ht =>
      hk (touches_heartbeatWrites hw k ht).1
  case active =>
    refine hstays _ _ ?_
    show req.workerID ∈ ((s.apply now (.sadd .activeWorkers req.workerID)).applyAll now
      (_ :: _)).members .activeWorkers
    refine WorkerStore.mem_applyAll (fun hw => ?_) (WorkerStore.mem_apply_sadd ..)
    exact srem_notMem_heartbeatWrites .activeWorkers req.workerID (.tail _ hw)
  case members =>
    intro set member hmem
    exact hstays _ _ (WorkerStore.mem_applyAll (srem_notMem_heartbeatWrites set member) hmem)

end Heartbeat

end ValidEmailVerifier.Fleet
