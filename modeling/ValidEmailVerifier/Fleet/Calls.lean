/-
# `Fleet.Calls` — calls that share the worker records

Heartbeats, calls that set the desired state or the quarantine of a worker, and cleanups are
under way at once; their commands reach the store one at a time, in any order.  A command may
be refused, or take effect and its reply be lost.

What a call has learned so far is kept beside it (`Seen`), and every call sends only the
commands that follow from it, and returns what follows from it (`follows_program`).
-/
import ValidEmailVerifier.Fleet.WorkerStore

namespace ValidEmailVerifier.Fleet

open ExpiringKeys Programs Transition Worker
open Policy (Fate)

/-! ## Calls -/

inductive Call where
  | heartbeat (req : HeartbeatRequest)
  | setDesired (workerID state : Text)
  | setQuarantined (workerID : Text) (enabled : Bool) (reason : Text)
  | cleanup (cutoff : Nat)
  deriving DecidableEq

def Call.isHeartbeat : Call → Bool
  | .heartbeat _ => true
  | _ => false

/-- What a call returns: the desired state that answers a heartbeat, nothing, or the workers
that a cleanup has removed. -/
inductive Response where
  | desired (state : WorkerState)
  | done
  | removed (workerIDs : List Text)
  deriving DecidableEq

def Call.program (heartbeatTTL : Nat) : Call → Program Response
  | .heartbeat req => do
      let state ← upsertHeartbeat heartbeatTTL req
      pure (.desired state)
  | .setDesired workerID state => do
      setDesiredState workerID state
      pure .done
  | .setQuarantined workerID enabled reason => do
      setWorkerQuarantined workerID enabled reason
      pure .done
  | .cleanup cutoff => do
      let stale ← cleanupStaleKnownWorkers cutoff
      pure (.removed stale)

/-! ## Commands -/

/-- The part of the surroundings in a command. -/
structure Answer where
  fate : Fate := .served
  time : Nat := 0
  deriving DecidableEq

instance : Inhabited Answer := ⟨{}⟩

/-- The store, and the workers of whom cleanups have removed something, each with the cutoff of
the cleanup, the newest first. -/
structure Ledger where
  store : WorkerStore := {}
  dropped : List (Text × Nat) := []

namespace Ledger

def wrote (l : Ledger) (call : Call) (now : Nat) (w : Write) : Ledger where
  store := l.store.apply now w
  dropped :=
    match call with
    | .cleanup cutoff => w.removed.map (·, cutoff) ++ l.dropped
    | _ => l.dropped

/-- A command that reads. -/
def read {α : Type} (value : α) : Fate → Except Text α
  | .served => .ok value
  | .refused error => .error error
  | .lost error => .error error

/-- A command that writes. -/
def write (l : Ledger) (call : Call) (now : Nat) (w : Write) : Fate → Except Text Unit × Ledger
  | .served => (.ok (), l.wrote call now w)
  | .refused error => (.error error, l)
  | .lost error => (.error error, l.wrote call now w)

end Ledger

/-- A command of the call, executed. -/
def exec (call : Call) : (c : Command) → Answer → Ledger → Reply c × Ledger
  | .get key, a, l => (Ledger.read (l.store.keys.get a.time key) a.fate, l)
  | .smembers set, a, l => (Ledger.read (l.store.members set) a.fate, l)
  | .now, a, l => (a.time, l)
  | .write w, a, l => l.write call a.time w a.fate

def takesEffect : Fate → Bool
  | .refused _ => false
  | _ => true

/-- A command leaves the store as it is, or it is a write that takes effect. -/
theorem exec_cases (call : Call) (c : Command) (a : Answer) (l : Ledger) :
    (exec call c a l).2 = l ∨ ∃ w, c = .write w ∧ takesEffect a.fate = true ∧
      (exec call c a l).2 = l.wrote call a.time w := by
  cases c with
  | write w =>
    obtain ⟨_ | e | e, time⟩ := a
    · exact .inr ⟨w, rfl, rfl, rfl⟩
    · exact .inl rfl
    · exact .inr ⟨w, rfl, rfl, rfl⟩
  | _ => exact .inl rfl

/-! ## What a call has learned -/

structure Seen where
  /-- What a heartbeat has read. -/
  desired : WorkerState := .running
  flag : Option Bool := none
  /-- The last reading of the clock. -/
  now : Nat := 0
  /-- The workers whose last heartbeat a cleanup has read. -/
  lastSeen : List (Text × Nat) := []
  /-- The writes that were acknowledged, the newest first. -/
  written : List Write := []
  deriving DecidableEq

namespace Seen

/-- A heartbeat has found the quarantine flag. -/
def quarantined (x : Seen) : Bool := x.flag.getD false

/-- The state a heartbeat is answered with. -/
def effective (x : Seen) : WorkerState := if x.quarantined then .draining else x.desired

/-- What the clock has shown, as it is stored. -/
def stamp (x : Seen) : Nat := formatRFC3339 x.now

def next (x : Seen) : (c : Command) → Reply c → Seen
  | .get (_, .desiredState), value => { x with desired := orRunning value }
  | .get (_, .quarantined), value => { x with flag := some (isSet value) }
  | .get (workerID, .lastSeen), .ok (some seen) =>
      { x with lastSeen := (workerID, seen) :: x.lastSeen }
  | .now, time => { x with now := time }
  | .write w, .ok () => { x with written := w :: x.written }
  | _, _ => x

/-- A write that is acknowledged has taken effect. -/
theorem next_written (x : Seen) (call : Call) (c : Command) (a : Answer) (l : Ledger) :
    (x.next c (exec call c a l).1).written = x.written ∨ ∃ w, c = .write w ∧
      (exec call c a l).2 = l.wrote call a.time w ∧
      (x.next c (exec call c a l).1).written = w :: x.written := by
  obtain ⟨_ | e | e, time⟩ := a
  · cases c with
    | write w => exact .inr ⟨w, rfl, rfl, rfl⟩
    | smembers set => exact .inl rfl
    | now => exact .inl rfl
    | get key =>
      left
      obtain ⟨workerID, field⟩ := key
      cases field with
      | lastSeen =>
        show (x.next (.get (workerID, .lastSeen)) (.ok (l.store.keys.get time _))).written = _
        cases l.store.keys.get time (workerID, .lastSeen) <;> rfl
      | _ => rfl
  all_goals
    left
    cases c with
    | get key =>
      obtain ⟨workerID, field⟩ := key
      cases field <;> rfl
    | _ => rfl

/-- Nothing has been learned but that writes were acknowledged. -/
def Extends (x y : Seen) : Prop := y = { x with written := y.written } ∧ x.written ⊆ y.written

end Seen

/-- The calls of the control plane, interleaved. -/
abbrev Calls := Pool Ledger Call Seen Command Reply (Except Text Response)

/-- No call has been made. -/
def noCalls : Calls := ⟨{}, []⟩

def concurrent (heartbeatTTL : Nat) : System Calls (Move Call Answer) :=
  Pool.interleaved (fun call => (call.program heartbeatTTL).run) {} exec Seen.next

/-! ## The protocol of a call -/

/-- The writes of a call that has learned `x`. -/
def Call.writes (heartbeatTTL : Nat) (x : Seen) : Call → List Write
  | .heartbeat req =>
      match normalizeStatus req.status with
      | none => []
      | some status => heartbeatWrites heartbeatTTL req status x.effective x.stamp
  | .setDesired workerID state =>
      match normalizeDesiredState state with
      | none => []
      | some state => desiredStateWrites workerID state x.stamp
  | .setQuarantined workerID enabled reason =>
      if enabled then quarantineWrites workerID reason x.stamp
      else releaseWrites workerID x.stamp
  | .cleanup cutoff =>
      (x.lastSeen.filter fun entry => entry.2 ≤ cutoff).flatMap fun entry =>
        removalWrites entry.1

/-- The write of a heartbeat after its pipeline. -/
def Call.drains (x : Seen) : Call → Write → Prop
  | .heartbeat req, w =>
      x.quarantined = true ∧ w = .set (workerKey req.workerID .desiredState) .draining 0
  | _, _ => False

/-- A heartbeat reads the keys of its own worker, the desired state before the flag. -/
def Call.reads (x : Seen) : Call → WorkerKey → Prop
  | .heartbeat req, key => key.1 = req.workerID ∧ (key.2 = .desiredState → x.flag = none)
  | _, _ => True

/-- What a call that has learned `x` may send next: it reads before it writes. -/
def Allowed (heartbeatTTL : Nat) (call : Call) (x : Seen) : Command → Prop
  | .write w => w ∈ call.writes heartbeatTTL x ∨ call.drains x w
  | .get key => x.written = [] ∧ call.reads x key
  | _ => x.written = []

/-- What a call that has learned `x` may return. -/
def Returns (heartbeatTTL : Nat) (call : Call) : Except Text Response → Seen → Prop
  | .error _, _ => True
  | .ok response, x =>
      match call with
      | .cleanup _ => True
      | .heartbeat req => response = .desired x.effective ∧
          (normalizeStatus req.status).isSome = true ∧ x.flag.isSome = true ∧
          ∀ w ∈ call.writes heartbeatTTL x, w ∈ x.written
      | _ => ∀ w ∈ call.writes heartbeatTTL x, w ∈ x.written

namespace Seen

theorem Extends.refl (x : Seen) : x.Extends x := ⟨rfl, fun _ => id⟩

theorem Extends.trans {x y z : Seen} (h : x.Extends y) (h' : y.Extends z) : x.Extends z := by
  obtain ⟨hy, hxy⟩ := h
  obtain ⟨hz, hyz⟩ := h'
  refine ⟨?_, fun w hw => hyz (hxy hw)⟩
  rw [hz, hy]

/-- A write that was answered. -/
theorem extends_write (x : Seen) (w : Write) (reply : Except Text Unit) :
    x.Extends (x.next (.write w) reply) := by
  cases reply with
  | error e => exact .refl x
  | ok u => exact ⟨rfl, fun v hv => List.mem_cons_of_mem w hv⟩

/-- The writes of a call do not depend on which of them were acknowledged. -/
theorem Extends.writes {x y : Seen} (h : x.Extends y) (heartbeatTTL : Nat) (call : Call) :
    call.writes heartbeatTTL y = call.writes heartbeatTTL x := by
  rw [h.1]
  cases call <;> rfl

end Seen

section Protocol
variable {heartbeatTTL : Nat} {call : Call}

open Prog

abbrev Obeys (heartbeatTTL : Nat) (call : Call) {α : Type} (p : Prog Command Reply α)
    (Q : α → Seen → Prop) (x : Seen) : Prop :=
  Follows (Allowed heartbeatTTL call) Seen.next p Q x

/-- A pipeline of writes that the call may send. -/
theorem obeys_execPipe {ws : List Write} {x : Seen} (h : ws ⊆ call.writes heartbeatTTL x) :
    Obeys heartbeatTTL call (execPipe ws) (fun outcome y =>
      x.Extends y ∧ (outcome = .ok () → ∀ w ∈ ws, w ∈ y.written)) x := by
  induction ws generalizing x with
  | nil => exact ⟨.refl x, fun _ => nofun⟩
  | cons w ws ih =>
    refine ⟨.inl (h (.head _)), fun first => ?_⟩
    have hext := x.extends_write w first
    have hrest : ws ⊆ call.writes heartbeatTTL (x.next (.write w) first) := by
      rw [hext.writes]
      exact fun v hv => h (.tail _ hv)
    show Obeys heartbeatTTL call (execPipe ws >>= _) _ _
    refine follows_bind.mpr ((ih hrest).mono ?_)
    rintro rest y ⟨hy, hall⟩
    refine ⟨hext.trans hy, ?_⟩
    cases first with
    | error e => exact nofun
    | ok u =>
      intro hok v hv
      rcases List.mem_cons.mp hv with rfl | hv
      · exact hy.2 (.head _)
      · exact hall hok v hv

/-- What follows a pipeline that the call may send. -/
theorem obeys_pipeline {α : Type} {ws : List Write} {rest : Program α}
    {Q : Except Text α → Seen → Prop} {x : Seen} (h : ws ⊆ call.writes heartbeatTTL x)
    (hrest : ∀ y, x.Extends y → (∀ w ∈ ws, w ∈ y.written) → Obeys heartbeatTTL call rest.run Q y)
    (herror : ∀ e y, Q (.error e) y) :
    Obeys heartbeatTTL call ((ExceptT.mk (execPipe ws) >>= fun _ => rest : Program α)).run Q x :=
  Follows.exceptBind (obeys_execPipe h) (fun _ y hy => hrest y hy.1 (hy.2 rfl))
    (fun e y _ => herror e y)

/-- A heartbeat is answered with the state it has read once its pipeline is acknowledged. -/
theorem obeys_upsertHeartbeat (req : HeartbeatRequest) :
    Obeys heartbeatTTL (.heartbeat req) (upsertHeartbeat heartbeatTTL req).run
      (fun outcome x => Returns heartbeatTTL (.heartbeat req) (outcome.map .desired) x) {} := by
  rw [upsertHeartbeat]
  split_ifs with hid
  · trivial
  · cases hstatus : normalizeStatus req.status with
    | none => trivial
    | some status =>
      refine ⟨⟨rfl, rfl, fun _ => rfl⟩, fun value => ⟨⟨rfl, rfl, nofun⟩, fun flag =>
        ⟨rfl, fun time => ?_⟩⟩⟩
      let x : Seen := ⟨orRunning value, some (isSet flag), time, [], []⟩
      have hwrites : heartbeatWrites heartbeatTTL req status x.effective x.stamp =
          (Call.heartbeat req).writes heartbeatTTL x := by
        rw [Call.writes, hstatus]
      have hdone : ∀ y, x.Extends y → (∀ w ∈ (Call.heartbeat req).writes heartbeatTTL x,
          w ∈ y.written) →
        Returns heartbeatTTL (.heartbeat req) (.ok (.desired x.effective)) y := by
        intro y hy hall
        refine ⟨?_, by rw [hstatus]; rfl, ?_, ?_⟩
        · rw [hy.1]
          rfl
        · rw [hy.1]
          rfl
        · rw [hy.writes]
          exact hall
      refine obeys_pipeline (x := x) (fun w hw => hwrites ▸ hw) ?_ (fun _ _ => trivial)
      intro y hy hall
      have hall := hwrites ▸ hall
      show Obeys heartbeatTTL (.heartbeat req) ((if isSet flag then _ else _ : Program _)).run _ y
      by_cases hflag : isSet flag = true
      · rw [if_pos hflag]
        refine ⟨.inr ⟨?_, rfl⟩, fun reply => ?_⟩
        · rw [hy.1]
          exact hflag
        · have hext := y.extends_write
            (.set (workerKey req.workerID .desiredState) .draining 0) reply
          exact hdone _ (hy.trans hext) fun w hw => hext.2 (hall w hw)
      · rw [if_neg hflag]
        exact hdone y hy hall

theorem obeys_setDesiredState (workerID state : Text) :
    Obeys heartbeatTTL (.setDesired workerID state) (setDesiredState workerID state).run
      (fun outcome x => Returns heartbeatTTL (.setDesired workerID state)
        (outcome.map fun _ => .done) x) {} := by
  rw [setDesiredState]
  split_ifs with hid
  · trivial
  · cases hstate : normalizeDesiredState state with
    | none => trivial
    | some desired =>
      refine ⟨rfl, fun time => ?_⟩
      let x : Seen := { now := time }
      have hwrites : desiredStateWrites workerID desired x.stamp =
          (Call.setDesired workerID state).writes heartbeatTTL x := by
        rw [Call.writes, hstate]
      refine (obeys_execPipe (x := x) fun w hw => hwrites ▸ hw).mono ?_
      rintro (e | u) y ⟨hy, hall⟩
      · trivial
      · show ∀ w ∈ (Call.setDesired workerID state).writes heartbeatTTL y, w ∈ y.written
        rw [hy.writes, ← hwrites]
        exact hall rfl

theorem obeys_setWorkerQuarantined (workerID : Text) (enabled : Bool) (reason : Text) :
    Obeys heartbeatTTL (.setQuarantined workerID enabled reason)
      (setWorkerQuarantined workerID enabled reason).run
      (fun outcome x => Returns heartbeatTTL (.setQuarantined workerID enabled reason)
        (outcome.map fun _ => .done) x) {} := by
  rw [setWorkerQuarantined]
  by_cases hid : workerID = []
  · rw [if_pos hid]
    trivial
  · rw [if_neg hid]
    refine ⟨rfl, fun time => ?_⟩
    let x : Seen := { now := time }
    refine (obeys_execPipe (x := x) fun w hw => hw).mono ?_
    rintro (e | u) y ⟨hy, hall⟩
    · trivial
    · show ∀ w ∈ (Call.setQuarantined workerID enabled reason).writes heartbeatTTL y, w ∈ y.written
      rw [hy.writes]
      exact hall rfl

/-- The workers found stale are among those whose last heartbeat was read. -/
theorem obeys_staleWorkers (cutoff : Nat) (workerIDs : List Text) (x : Seen)
    (hx : x.written = []) :
    Obeys heartbeatTTL (.cleanup cutoff) (staleWorkers cutoff workerIDs) (fun stale y =>
      x.lastSeen ⊆ y.lastSeen ∧
        ∀ workerID ∈ stale, ∃ seen ≤ cutoff, (workerID, seen) ∈ y.lastSeen) x := by
  induction workerIDs generalizing x with
  | nil => exact ⟨fun entry => id, nofun⟩
  | cons workerID rest ih =>
    refine ⟨⟨hx, trivial⟩, fun lastSeen => ?_⟩
    have hnext : (x.next (.get (workerKey workerID .lastSeen)) lastSeen).written = [] := by
      rcases lastSeen with e | _ | seen <;> exact hx
    show Obeys heartbeatTTL (.cleanup cutoff) (staleWorkers cutoff rest >>= _) _ _
    refine follows_bind.mpr ((ih _ hnext).mono ?_)
    rintro stale y ⟨hsub, hstale⟩
    show x.lastSeen ⊆ y.lastSeen ∧ _
    rcases lastSeen with e | _ | seen
    · exact ⟨hsub, hstale⟩
    · exact ⟨hsub, hstale⟩
    · have hseen : (workerID, seen) ∈ y.lastSeen := hsub (.head _)
      refine ⟨fun entry hentry => hsub (.tail _ hentry), ?_⟩
      show ∀ id ∈ (if cutoff < seen then stale else workerID :: stale), _
      split_ifs with hcutoff
      · exact hstale
      · intro id hid
        rcases List.mem_cons.mp hid with rfl | hid
        · exact ⟨seen, Nat.le_of_not_lt hcutoff, hseen⟩
        · exact hstale id hid

theorem obeys_cleanupStaleKnownWorkers (cutoff : Nat) :
    Obeys heartbeatTTL (.cleanup cutoff) (cleanupStaleKnownWorkers cutoff).run
      (fun _ _ => True) {} := by
  refine ⟨rfl, fun known => ?_⟩
  cases known with
  | error e => trivial
  | ok known =>
    show Obeys heartbeatTTL (.cleanup cutoff)
      ((ExceptT.lift (staleWorkers cutoff known) >>= _ : Program (List Text))).run _ _
    refine Follows.exceptBind (P := fun outcome y => ∀ stale, outcome = .ok stale →
      ∀ workerID ∈ stale, ∃ seen ≤ cutoff, (workerID, seen) ∈ y.lastSeen) ?_ ?_ fun _ _ _ => trivial
    · show Obeys heartbeatTTL (.cleanup cutoff) (staleWorkers cutoff known >>= _) _ _
      refine follows_bind.mpr ((obeys_staleWorkers cutoff known _ rfl).mono ?_)
      rintro stale y ⟨-, hstale⟩ _ ⟨⟩
      exact hstale
    · intro stale y hstale
      have hstale := hstale stale rfl
      show Obeys heartbeatTTL (.cleanup cutoff) ((if stale = [] then _ else _ : Program _)).run _ _
      split_ifs with hnil
      · trivial
      · refine obeys_pipeline ?_ (fun _ _ _ => trivial) fun _ _ => trivial
        intro w hw
        obtain ⟨workerID, hmem, hw⟩ := List.mem_flatMap.mp hw
        obtain ⟨seen, hle, hseen⟩ := hstale workerID hmem
        exact List.mem_flatMap.mpr
          ⟨(workerID, seen), List.mem_filter.mpr ⟨hseen, decide_eq_true hle⟩, hw⟩

end Protocol

/-- Every call sends only what follows from what it has learned, and so it returns. -/
theorem follows_program (heartbeatTTL : Nat) (call : Call) :
    Prog.Follows (Allowed heartbeatTTL call) Seen.next (call.program heartbeatTTL).run
      (Returns heartbeatTTL call) {} := by
  cases call with
  | heartbeat req =>
    refine Prog.Follows.exceptBind (obeys_upsertHeartbeat req) ?_ fun _ _ _ => trivial
    exact fun state y hy => hy
  | setDesired workerID state =>
    refine Prog.Follows.exceptBind (obeys_setDesiredState workerID state) ?_ fun _ _ _ => trivial
    exact fun _ y hy => hy
  | setQuarantined workerID enabled reason =>
    refine Prog.Follows.exceptBind (obeys_setWorkerQuarantined workerID enabled reason) ?_
      fun _ _ _ => trivial
    exact fun _ y hy => hy
  | cleanup cutoff =>
    refine Prog.Follows.exceptBind (obeys_cleanupStaleKnownWorkers cutoff) ?_ fun _ _ _ => trivial
    exact fun _ _ _ => trivial

/-- A call that has not written yet, or a write. -/
theorem written_nil_or_write {heartbeatTTL : Nat} {call : Call} {x : Seen} {c : Command}
    (h : Allowed heartbeatTTL call x c) (answer : Answer) (l : Ledger) :
    (x.next c (exec call c answer l).1).written = [] ∨ ∃ w, c = .write w := by
  rcases x.next_written call c answer l with hsame | ⟨w, rfl, -, -⟩
  · rw [hsame]
    cases c with
    | get key => exact .inl h.1
    | smembers set => exact .inl h
    | now => exact .inl h
    | write w => exact .inr ⟨w, rfl⟩
  · exact .inr ⟨w, rfl⟩

theorem noCalls_bound {heartbeatTTL : Nat} :
    noCalls.Bound (Allowed heartbeatTTL) Seen.next (Returns heartbeatTTL) :=
  fun _ ht => nomatch ht

/-- The call is started. -/
def opened (heartbeatTTL : Nat) (p : Calls) (call : Call) : Calls :=
  p.start (fun call => (call.program heartbeatTTL).run) {} call

theorem opened_bound {heartbeatTTL : Nat} {p : Calls} (call : Call)
    (hp : (concurrent heartbeatTTL).Reaches Always noCalls p) :
    (opened heartbeatTTL p call).Bound (Allowed heartbeatTTL) Seen.next (Returns heartbeatTTL) :=
  (noCalls_bound.of_reaches (follows_program heartbeatTTL) hp).start
    (follows_program heartbeatTTL call)

/-! ## What a call establishes -/

/-- A fact about the store, with the writes that establish it and those that may break it. -/
structure Fact where
  holds : WorkerStore → Prop
  sets : Write → Bool
  breaks : Write → Bool
  holds_of_sets : ∀ {w : Write} (s : WorkerStore) (now : Nat), sets w = true →
    holds (s.apply now w)
  holds_of_keeps : ∀ {w : Write} {s : WorkerStore} (now : Nat), breaks w = false → holds s →
    holds (s.apply now w)

namespace Fact

/-- The call has established the fact, and knows it. -/
def known (F : Fact) (x : Seen) : Bool := x.written.any F.sets

/-- The move breaks the fact that call `i` has established; it is one of the calls asked
about. -/
def brokenBy (F : Fact) (who : Call → Bool) (i : Nat) (p : Calls) : Move Call Answer → Bool
  | .start _ => false
  | .step j answer =>
      (p.threads[i]?.any fun t => F.known t.seen) && (p.pending j).any fun turn =>
        who turn.1 && takesEffect answer.fate &&
          match turn.2.2 with
          | .write w => F.breaks w
          | _ => false

section Law
variable {F : Fact} {heartbeatTTL : Nat} {call : Call} {i : Nat}

theorem keeps_of_brokenBy {who : Call → Bool} {p : Calls} {j : Nat} {answer : Answer}
    {t u : Thread Call Seen Command Reply (Except Text Response)} {w : Write}
    {rest : Reply (.write w) → Prog Command Reply (Except Text Response)}
    (h : F.brokenBy who i p (.step j answer) = false)
    (hu : p.threads[i]? = some u) (hknown : F.known u.seen = true)
    (ht : p.threads[j]? = some t) (hrest : t.rest = .call (.write w) rest)
    (hwho : who t.kind = true) (heffect : takesEffect answer.fate = true) :
    F.breaks w = false := by
  rw [brokenBy, hu, Pool.pending_of_rest ht hrest] at h
  change (F.known u.seen && (who t.kind && takesEffect answer.fate && F.breaks w)) = false at h
  rwa [hknown, hwho, heffect] at h

/-- What call `i` knows to have established, holds. -/
def Established (F : Fact) (call : Call) (i : Nat) (p : Calls) : Prop :=
  ∃ t, p.threads[i]? = some t ∧ t.kind = call ∧ (F.known t.seen = true → F.holds p.store.store)

/-- A command of the call itself. -/
theorem Established.own {p : Calls} {answer : Answer}
    {t : Thread Call Seen Command Reply (Except Text Response)} {c : Command}
    {rest : Reply c → Prog Command Reply (Except Text Response)}
    (hown : ∀ x w, Allowed heartbeatTTL call x (.write w) → F.breaks w = false)
    (ht : p.threads[i]? = some t) (hkind : t.kind = call)
    (hallow : Allowed heartbeatTTL t.kind t.seen c)
    (h : F.known t.seen = true → F.holds p.store.store) :
    F.Established call i (p.resume Seen.next i t c rest (exec t.kind c answer p.store).1
      (exec t.kind c answer p.store).2) := by
  subst hkind
  refine ⟨_, Pool.resume_getElem?_self ht, rfl, fun hknown => ?_⟩
  change (t.seen.next c (exec t.kind c answer p.store).1).written.any F.sets = true at hknown
  show F.holds (exec t.kind c answer p.store).2.store
  rcases t.seen.next_written t.kind c answer p.store with hsame | ⟨w, rfl, hstore, hmore⟩
  · rw [hsame] at hknown
    rcases exec_cases t.kind c answer p.store with hidle | ⟨w, rfl, -, hstore⟩
    · rw [hidle]
      exact h hknown
    · rw [hstore]
      exact F.holds_of_keeps _ (hown _ _ hallow) (h hknown)
  · rw [hstore]
    rw [hmore, List.any_cons, Bool.or_eq_true] at hknown
    rcases hknown with hset | hknown
    · exact F.holds_of_sets _ _ hset
    · exact F.holds_of_keeps _ (hown _ _ hallow) (h hknown)

/-- **What a call establishes holds from then on**, in every run in which no other call breaks
it. -/
theorem Established.of_reaches {Cond : Calls → Move Call Answer → Prop} {p q : Calls}
    (hown : ∀ x w, Allowed heartbeatTTL call x (.write w) → F.breaks w = false)
    (hcond : ∀ {s j answer t}, Cond s (.step j answer) → s.threads[j]? = some t →
      ∃ who, who t.kind = true ∧ F.brokenBy who i s (.step j answer) = false)
    (hp : p.Bound (Allowed heartbeatTTL) Seen.next (Returns heartbeatTTL))
    (h : F.Established call i p) (hrun : (concurrent heartbeatTTL).Reaches Cond p q) :
    F.Established call i q := by
  refine (hp.induction (follows_program heartbeatTTL) h ?_ ?_ hrun).2
  · rintro p k ⟨t, ht, hkind, hholds⟩
    exact ⟨t, (Pool.start_getElem?_of_lt (List.getElem?_eq_some_iff.mp ht).1).trans ht, hkind,
      hholds⟩
  · rintro p j answer t c rest hbound ht hrest hmeets ⟨u, hu, hkind, hholds⟩
    by_cases hij : j = i
    · subst hij
      obtain rfl := Option.some.inj (ht.symm.trans hu)
      exact Established.own hown ht hkind (hbound.head ht hrest) hholds
    · refine ⟨u, (Pool.resume_getElem?_of_ne hij).trans hu, hkind, fun hknown => ?_⟩
      show F.holds (exec t.kind c answer p.store).2.store
      rcases exec_cases t.kind c answer p.store with hidle | ⟨w, rfl, heffect, hstore⟩
      · rw [hidle]
        exact hholds hknown
      · obtain ⟨who, hwho, hbroken⟩ := hcond hmeets ht
        rw [hstore]
        exact F.holds_of_keeps _ (keeps_of_brokenBy hbroken hu hknown ht hrest hwho heffect)
          (hholds hknown)

/-- Nothing is established by a call that has just been started. -/
theorem established_opened (F : Fact) (p : Calls) (call : Call) :
    F.Established call p.threads.length (opened heartbeatTTL p call) :=
  ⟨_, p.start_getElem?_length call, rfl, nofun⟩

/-- What a call has established once it has returned. -/
theorem Established.holds {p q : Calls} {Cond : Calls → Move Call Answer → Prop}
    {t : Thread Call Seen Command Reply (Except Text Response)}
    {a : Except Text Response} (h : F.Established call i q)
    (hrun : (concurrent heartbeatTTL).Reaches Cond p q) (ht : p.threads[i]? = some t)
    (hend : t.rest = .ret a) (hknown : F.known t.seen = true) : F.holds q.store.store := by
  obtain ⟨u, hu, -, hholds⟩ := h
  obtain rfl := Option.some.inj (hu.symm.trans (Pool.getElem?_of_ended hrun ht hend))
  exact hholds hknown

end Law

end Fact

end ValidEmailVerifier.Fleet
