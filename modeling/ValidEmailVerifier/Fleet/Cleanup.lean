/-
# `Fleet.Cleanup` — workers that are removed, and those that are quarantined

The cleanup reads of every known worker when it was last seen, and later removes the records
of those that were not seen after its cutoff, the quarantine flag and the desired state among
them.

A worker keeps its records beside a cleanup whose cutoff is before its last heartbeat, as long
as the worker is still stale when it is removed, no heartbeat of it is in the middle of its
pipeline, and no heartbeat puts the time it was last seen back.  A worker that is quarantined
is answered with draining until it is released, as long as no cleanup removes it, and its
heartbeats do not fail to read the flag (`survives_and_drains`).  Without these conditions
neither holds (`not_survives_nor_drains`).
-/
import ValidEmailVerifier.Fleet.Calls

namespace ValidEmailVerifier.Fleet

open ExpiringKeys Programs Transition Worker

/-! ## The quarantine flag -/

/-- The call quarantines the worker. -/
def Call.Quarantines (workerID : Text) : Call → Prop
  | .setQuarantined id enabled _ => id = workerID ∧ enabled = true
  | _ => False

def Call.isCleanup : Call → Bool
  | .cleanup _ => true
  | _ => false

/-- The quarantine flag is there, for good. -/
def flagged (workerID : Text) : Fact where
  holds s := ∃ flag, s.keys (workerKey workerID .quarantined) = some ⟨flag, none⟩
  sets
    | .set (id, .quarantined) _ ttl => id = workerID && ttl = 0
    | _ => false
  breaks
    | .del keys => workerKey workerID .quarantined ∈ keys
    | .set (id, .quarantined) _ ttl => id = workerID && ttl ≠ 0
    | .setNX (id, .quarantined) _ ttl => id = workerID && ttl ≠ 0
    | _ => false
  holds_of_sets := by
    intro w s now hset
    cases w with
    | set key flag ttl =>
      obtain ⟨id, field⟩ := key
      cases field with
      | quarantined =>
        obtain ⟨hid, httl⟩ := Bool.and_eq_true_iff.mp hset
        obtain rfl := of_decide_eq_true hid
        obtain rfl := of_decide_eq_true httl
        exact ⟨flag, s.keys.set_self (id, .quarantined) flag _⟩
      | _ => exact nomatch hset
    | _ => exact nomatch hset
  holds_of_keeps := by
    intro w s now hkeep h
    rcases s.keys_apply now w (workerKey workerID .quarantined) with
      heq | ⟨keys, rfl, hmem, -⟩ | ⟨flag, ttl, hset, heq⟩
    · rw [heq]
      exact h
    · exact absurd hmem (of_decide_eq_false hkeep)
    · refine ⟨flag, ?_⟩
      rw [heq, expiry, if_pos]
      by_contra hne
      rcases hset with rfl | rfl <;>
      · change (decide (workerID = workerID) && decide (ttl ≠ 0)) = false at hkeep
        rw [decide_eq_true rfl, decide_eq_true hne] at hkeep
        exact nomatch hkeep

/-- No cleanup removes the worker once call `i` has written the flag. -/
def Sheltered (workerID : Text) (i : Nat) (p : Calls) (m : Move Call Answer) : Prop :=
  (flagged workerID).brokenBy Call.isCleanup i p m = false

/-- No call releases the worker once call `i` has written the flag. -/
def Unreleased (workerID : Text) (i : Nat) (p : Calls) (m : Move Call Answer) : Prop :=
  (flagged workerID).brokenBy (!·.isCleanup) i p m = false

/-- A heartbeat of the worker does not fail to read the flag, unless it has read that the worker
is to drain. -/
def Heard (workerID : Text) (p : Calls) : Move Call Answer → Prop
  | .start _ => True
  | .step j answer => ∀ turn ∈ p.pending j, turn.1.isHeartbeat = true →
      turn.2.2 = .get (workerKey workerID .quarantined) →
      answer.fate = .served ∨ turn.2.1.desired = .draining

section Drains
variable {heartbeatTTL : Nat} {workerID : Text} {call : Call}

theorem Call.Quarantines.keeps (h : call.Quarantines workerID) (x : Seen) (w : Write)
    (hallow : Allowed heartbeatTTL call x (.write w)) : (flagged workerID).breaks w = false := by
  cases call with
  | setQuarantined id enabled reason =>
    obtain ⟨rfl, rfl⟩ := h
    rcases hallow with hw | hw
    · simp only [Call.writes, if_pos, quarantineWrites, List.mem_cons, List.not_mem_nil,
        or_false] at hw
      rcases hw with rfl | rfl | rfl
      · exact Bool.and_false _
      · rfl
      · rfl
    · exact hw.elim
  | _ => exact h.elim

theorem Call.Quarantines.known (h : call.Quarantines workerID) {x : Seen}
    (hx : Returns heartbeatTTL call (.ok .done) x) : (flagged workerID).known x = true := by
  cases call with
  | setQuarantined id enabled reason =>
    obtain ⟨rfl, rfl⟩ := h
    exact List.any_eq_true.mpr ⟨_, hx _ (.head _), Bool.and_eq_true_iff.mpr
      ⟨decide_eq_true rfl, rfl⟩⟩
  | _ => exact h.elim

/-- A heartbeat of the worker has not read the flag, or is to be answered with draining. -/
def Drains (workerID : Text)
    (t : Thread Call Seen Command Reply (Except Text Response)) : Prop :=
  ∀ req, t.kind = .heartbeat req → req.workerID = workerID →
    t.seen.flag = none ∨ t.seen.effective = .draining

/-- A heartbeat that reads a flagged worker. -/
theorem Drains.step {t : Thread Call Seen Command Reply (Except Text Response)}
    {c : Command} {rest : Prog Command Reply (Except Text Response)} {answer : Answer}
    {l : Ledger} (h : Drains workerID t) (hallow : Allowed heartbeatTTL t.kind t.seen c)
    (hflag : (flagged workerID).holds l.store)
    (hheard : t.kind.isHeartbeat = true → c = .get (workerKey workerID .quarantined) →
      answer.fate = .served ∨ t.seen.desired = .draining) :
    Drains workerID
      { t with seen := t.seen.next c (exec t.kind c answer l).1, rest := rest } := by
  intro req hkind hid
  have hread := h req hkind hid
  cases c with
  | get key =>
    obtain ⟨id, field⟩ := key
    have hkey : id = req.workerID ∧ (field = .desiredState → t.seen.flag = none) := by
      rw [show t.kind = .heartbeat req from hkind] at hallow
      exact hallow.2
    obtain rfl : id = workerID := hkey.1.trans hid
    cases field with
    | desiredState => exact .inl (hkey.2 rfl)
    | quarantined =>
      right
      show (if isSet (Ledger.read _ answer.fate) then WorkerState.draining
        else t.seen.desired) = .draining
      obtain ⟨flag, hentry⟩ := hflag
      rw [Keys.get_of_persistent hentry]
      have hheart : t.kind.isHeartbeat = true := by
        rw [show t.kind = .heartbeat req from hkind]
        rfl
      rcases hheard hheart rfl with hserved | hdesired
      · rw [hserved]
        rfl
      · rw [hdesired, ite_self]
    | lastSeen =>
      show (t.seen.next (.get (id, .lastSeen)) (Ledger.read _ answer.fate)).flag = _ ∨
        (t.seen.next (.get (id, .lastSeen)) (Ledger.read _ answer.fate)).effective = _
      rcases Ledger.read (l.store.keys.get answer.time (id, .lastSeen)) answer.fate with
        e | _ | seen <;> exact hread
    | _ => exact hread
  | smembers set => exact hread
  | now => exact hread
  | write w =>
    have hext := t.seen.extends_write w (exec t.kind (.write w) answer l).1
    show (t.seen.next (.write w) _).flag = _ ∨ (t.seen.next (.write w) _).effective = _
    rw [hext.1]
    exact hread

end Drains

/-! ## The records -/

/-- The time a write sets for when the worker was last seen. -/
def Write.lastSeenOf (workerID : Text) : Write → Option Nat
  | .set (id, .lastSeen) seen _ => if id = workerID then some seen else none
  | .setNX (id, .lastSeen) seen _ => if id = workerID then some seen else none
  | _ => none

/-- The write removes the worker from the sets, or when it was last seen. -/
def Write.removes (workerID : Text) : Write → Bool
  | .srem .knownPools _ => false
  | .srem _ id => id = workerID
  | .del keys => workerKey workerID .lastSeen ∈ keys
  | _ => false

theorem Write.mem_removed {workerID : Text} {w : Write} (h : w.removes workerID = true) :
    workerID ∈ w.removed := by
  cases w with
  | srem set id =>
    cases set with
    | knownPools => exact nomatch h
    | _ => exact List.mem_singleton.mpr (of_decide_eq_true h).symm
  | del keys => exact List.mem_map.mpr ⟨_, of_decide_eq_true h, rfl⟩
  | _ => exact nomatch h

/-- A heartbeat has written when the worker was last seen. -/
def Seen.recorded (x : Seen) (workerID : Text) : Bool :=
  x.written.any fun w => (w.lastSeenOf workerID).isSome

/-- A heartbeat of the worker, read after the cutoff, has begun its pipeline and has not yet
written when the worker was last seen. -/
def midway (workerID : Text) (cutoff : Nat)
    (t : Thread Call Seen Command Reply (Except Text Response)) : Bool :=
  match t.kind, t.rest with
  | .heartbeat req, .call (.write _) _ => req.workerID = workerID && t.seen.written ≠ [] &&
      !t.seen.recorded workerID && cutoff < t.seen.stamp
  | _, _ => false

/-- The worker was not seen after the cutoff, and no heartbeat is about to say so. -/
def stillStale (p : Calls) (workerID : Text) (cutoff : Nat) : Bool :=
  (p.store.store.keys (workerKey workerID .lastSeen)).all (fun e => e.value ≤ cutoff) &&
    p.threads.all fun t => !midway workerID cutoff t

/-- A cleanup removes the worker only while it is still stale. -/
def Current (workerID : Text) (p : Calls) : Move Call Answer → Prop
  | .start _ => True
  | .step j answer => ((p.pending j).all fun turn =>
      match turn.1, turn.2.2 with
      | .cleanup cutoff, .write w => !(takesEffect answer.fate && workerID ∈ w.removed) ||
          stillStale p workerID cutoff
      | _, _ => true) = true

/-- When the worker was last seen is not put back. -/
def InOrder (workerID : Text) (p : Calls) : Move Call Answer → Prop
  | .start _ => True
  | .step j answer => ((p.pending j).all fun turn =>
      match turn.2.2 with
      | .write w => !takesEffect answer.fate || (w.lastSeenOf workerID).all fun seen =>
          (p.store.store.keys (workerKey workerID .lastSeen)).all fun e => e.value ≤ seen
      | _ => true) = true

/-- What cleanups have removed since. -/
def Ledger.droppedSince (l base : Ledger) : List (Text × Nat) :=
  l.dropped.take (l.dropped.length - base.dropped.length)

theorem Ledger.droppedSince_eq {l base : Ledger} {new : List (Text × Nat)}
    (h : l.dropped = new ++ base.dropped) : l.droppedSince base = new := by
  rw [droppedSince, h, List.length_append, Nat.add_sub_cancel]
  exact List.take_left

section Records
variable {workerID : Text} {s : WorkerStore} {x : Seen} {w : Write}

/-- What a heartbeat that has learned `x` has written is there. -/
structure Kept (workerID : Text) (x : Seen) (s : WorkerStore) : Prop where
  active : .sadd .activeWorkers workerID ∈ x.written → workerID ∈ s.members .activeWorkers
  known : .sadd .knownWorkers workerID ∈ x.written → workerID ∈ s.members .knownWorkers
  seen : x.recorded workerID = true →
    ∃ e, s.keys (workerKey workerID .lastSeen) = some e ∧ x.stamp ≤ e.value

namespace Kept

theorem of_nil (h : x.written = []) : Kept workerID x s where
  active := by rw [h]; exact nofun
  known := by rw [h]; exact nofun
  seen := by rw [Seen.recorded, h]; exact nofun

/-- A write that removes nothing of the worker, and does not put back when it was last
seen. -/
theorem apply (h : Kept workerID x s) (now : Nat) (hw : w.removes workerID = false)
    (horder : ∀ seen ∈ w.lastSeenOf workerID,
      ∀ e ∈ s.keys (workerKey workerID .lastSeen), e.value ≤ seen) :
    Kept workerID x (s.apply now w) where
  active hmem := by
    rcases s.mem_apply now w .activeWorkers workerID (h.active hmem) with hstays | rfl
    · exact hstays
    · exact absurd rfl (of_decide_eq_false hw)
  known hmem := by
    rcases s.mem_apply now w .knownWorkers workerID (h.known hmem) with hstays | rfl
    · exact hstays
    · exact absurd rfl (of_decide_eq_false hw)
  seen hmem := by
    obtain ⟨e, he, hle⟩ := h.seen hmem
    rcases s.keys_apply now w (workerKey workerID .lastSeen) with
      heq | ⟨keys, rfl, hdel, -⟩ | ⟨seen, ttl, hset, heq⟩
    · exact ⟨e, heq.trans he, hle⟩
    · exact absurd hdel (of_decide_eq_false hw)
    · refine ⟨_, heq, Nat.le_trans hle (horder seen ?_ e he)⟩
      rcases hset with rfl | rfl <;> exact if_pos rfl

/-- A write of the heartbeat itself. -/
theorem wrote (h : Kept workerID x s) (now : Nat) (hw : w.removes workerID = false)
    (horder : ∀ seen ∈ w.lastSeenOf workerID,
      ∀ e ∈ s.keys (workerKey workerID .lastSeen), e.value ≤ seen)
    (hown : (w.lastSeenOf workerID).isSome = true → ∃ ttl,
      w = .set (workerKey workerID .lastSeen) x.stamp ttl) :
    Kept workerID { x with written := w :: x.written } (s.apply now w) where
  active hmem := by
    rcases List.mem_cons.mp hmem with rfl | hmem
    · exact s.mem_apply_sadd now .activeWorkers workerID
    · exact (h.apply now hw horder).active hmem
  known hmem := by
    rcases List.mem_cons.mp hmem with rfl | hmem
    · exact s.mem_apply_sadd now .knownWorkers workerID
    · exact (h.apply now hw horder).known hmem
  seen hmem := by
    change ((w.lastSeenOf workerID).isSome || x.recorded workerID) = true at hmem
    rcases Bool.or_eq_true_iff.mp hmem with hset | hmem
    · obtain ⟨ttl, rfl⟩ := hown hset
      exact ⟨_, s.keys.set_self (workerKey workerID .lastSeen) _ _, Nat.le_refl _⟩
    · exact (h.apply now hw horder).seen hmem

end Kept

/-- A write that is not a removal, and sets when the worker was last seen to nothing but
`now`. -/
def Harmless (workerID : Text) (now : Nat) (w : Write) : Prop :=
  w.removes workerID = false ∧
    ((w.lastSeenOf workerID).isSome = true → w = .set (workerKey workerID .lastSeen) now 0)

theorem harmless_del {id : Text} {field : Field} (now : Nat) (h : field ≠ .lastSeen) :
    Harmless workerID now (.del [workerKey id field]) := by
  refine ⟨decide_eq_false fun hmem => ?_, nofun⟩
  have heq := List.mem_singleton.mp hmem
  exact h (congrArg Prod.snd heq).symm

theorem harmless_set {id : Text} {field : Field} {value : field.Value} {ttl : Nat} (now : Nat)
    (h : field ≠ .lastSeen) : Harmless workerID now (.set (workerKey id field) value ttl) := by
  cases field with
  | lastSeen => exact absurd rfl h
  | _ => exact ⟨rfl, nofun⟩

theorem harmless_heartbeatWrites (workerID : Text) (heartbeatTTL : Nat) (req : HeartbeatRequest)
    (status desiredState : WorkerState) (now : Nat) :
    ∀ w ∈ heartbeatWrites heartbeatTTL req status desiredState now, Harmless workerID now w := by
  intro w hw
  simp only [heartbeatWrites, heartbeatTail, List.mem_append] at hw
  rcases hw with hw | (hw | hw) | hw
  · simp only [heartbeatRecord, List.mem_cons, List.not_mem_nil, or_false] at hw
    rcases hw with rfl | rfl | rfl | rfl | rfl | rfl | rfl
    · exact ⟨rfl, nofun⟩
    · exact ⟨rfl, nofun⟩
    · exact harmless_set now nofun
    · exact harmless_set now nofun
    · refine ⟨rfl, fun hset => ?_⟩
      by_cases hid : req.workerID = workerID
      · rw [← hid]
      · change (if req.workerID = workerID then some now else none).isSome = true at hset
        rw [if_neg hid] at hset
        exact nomatch hset
    · exact harmless_set now nofun
    · exact harmless_set now nofun
  · cases hhint : req.poolHealthHint with
    | none => rw [hhint] at hw; exact nomatch hw
    | some hint =>
      rw [hhint] at hw
      obtain rfl := List.mem_singleton.mp hw
      exact harmless_set now nofun
  · split_ifs at hw with hpool
    · exact nomatch hw
    · rcases List.mem_cons.mp hw with rfl | hw
      · exact harmless_set now nofun
      · obtain rfl := List.mem_singleton.mp hw
        exact ⟨rfl, nofun⟩
  · split_ifs at hw with hstatus
    · obtain rfl := List.mem_singleton.mp hw
      exact harmless_del now nofun
    · obtain rfl := List.mem_singleton.mp hw
      exact ⟨rfl, nofun⟩

/-- A call other than a cleanup removes nothing of a worker. -/
theorem harmless_of_allowed {heartbeatTTL : Nat} {call : Call} {x : Seen}
    (hcall : call.isCleanup = false) (h : Allowed heartbeatTTL call x (.write w)) :
    Harmless workerID x.stamp w := by
  cases call with
  | cleanup cutoff => cases hcall
  | heartbeat req =>
    rcases h with hw | ⟨-, rfl⟩
    · rw [Call.writes] at hw
      cases hstatus : normalizeStatus req.status with
      | none => rw [hstatus] at hw; cases hw
      | some status =>
        rw [hstatus] at hw
        exact harmless_heartbeatWrites workerID _ _ _ _ _ _ hw
    · exact harmless_set _ (by simp)
  | setDesired id state =>
    rcases h with hw | hw
    · rw [Call.writes] at hw
      cases hstate : normalizeDesiredState state with
      | none => rw [hstate] at hw; cases hw
      | some desired =>
        rw [hstate] at hw
        rcases List.mem_append.mp hw with hw | hw
        · rcases List.mem_cons.mp hw with rfl | hw
          · exact harmless_set _ (by simp)
          · obtain rfl := List.mem_singleton.mp hw
            exact harmless_set _ (by simp)
        · split_ifs at hw with hrunning
          · obtain rfl := List.mem_singleton.mp hw
            exact harmless_del _ (by simp)
          · cases hw
    · exact hw.elim
  | setQuarantined id enabled reason =>
    rcases h with hw | hw
    · rw [Call.writes] at hw
      cases enabled <;>
      · simp only [Bool.false_eq_true, if_false, if_true, releaseWrites, quarantineWrites,
          List.mem_cons, List.not_mem_nil, or_false] at hw
        rcases hw with rfl | rfl | rfl
        all_goals first | exact harmless_set _ (by simp) | exact harmless_del _ (by simp)
    · exact hw.elim

end Records

section Survives
variable {heartbeatTTL : Nat} {req : HeartbeatRequest} {i : Nat} {base : List (Text × Nat)}

/-- A heartbeat that was accepted has written when the worker was last seen. -/
theorem writes_of_accepted {x : Seen} {response : Response}
    (h : Returns heartbeatTTL (.heartbeat req) (.ok response) x) :
    .sadd .activeWorkers req.workerID ∈ x.written ∧
      .sadd .knownWorkers req.workerID ∈ x.written ∧ x.recorded req.workerID = true := by
  obtain ⟨-, hstatus, -, hall⟩ := h
  obtain ⟨status, hstatus⟩ := Option.isSome_iff_exists.mp hstatus
  rw [Call.writes, hstatus] at hall
  refine ⟨hall _ (.head _), hall _ (.tail _ (.head _)), List.any_eq_true.mpr
    ⟨.set (workerKey req.workerID .lastSeen) x.stamp 0, hall _ ?_, ?_⟩⟩
  · exact .tail _ (.tail _ (.tail _ (.tail _ (.head _))))
  · show (if req.workerID = req.workerID then some x.stamp else none).isSome = true
    rw [if_pos rfl]
    rfl

/-- A heartbeat of a worker that is still stale has failed, or written nothing, or is not after
the cutoff. -/
theorem stamp_le_of_stillStale {p : Calls} {cutoff : Nat}
    {t : Thread Call Seen Command Reply (Except Text Response)}
    (hbound : p.Bound (Allowed heartbeatTTL) Seen.next (Returns heartbeatTTL))
    (ht : p.threads[i]? = some t) (hkind : t.kind = .heartbeat req)
    (hkept : Kept req.workerID t.seen p.store.store)
    (hstale : stillStale p req.workerID cutoff = true) :
    (∃ e, t.rest = .ret (.error e)) ∨ t.seen.written = [] ∨ t.seen.stamp ≤ cutoff := by
  obtain ⟨hseen, hmidway⟩ := Bool.and_eq_true_iff.mp hstale
  have hrecorded : t.seen.recorded req.workerID = true → t.seen.stamp ≤ cutoff := by
    intro hrecorded
    obtain ⟨e, he, hle⟩ := hkept.seen hrecorded
    rw [he] at hseen
    exact Nat.le_trans hle (of_decide_eq_true hseen)
  cases hrest : t.rest with
  | ret a =>
    cases a with
    | error e => exact .inl ⟨e, rfl⟩
    | ok response =>
      have hreturns := hbound.result ht hrest
      rw [hkind] at hreturns
      exact .inr (.inr (hrecorded (writes_of_accepted hreturns).2.2))
  | call c rest =>
    have hallow := hbound.head ht hrest
    cases c with
    | write w =>
      by_cases hwritten : t.seen.written = []
      · exact .inr (.inl hwritten)
      · by_cases hrec : t.seen.recorded req.workerID = true
        · exact .inr (.inr (hrecorded hrec))
        · refine .inr (.inr (Nat.le_of_not_lt fun hlt => ?_))
          have hmid : midway req.workerID cutoff t = true := by
            rw [midway, hkind, hrest]
            simp [hwritten, hrec, hlt]
          have hnot := List.all_eq_true.mp hmidway t (List.mem_of_getElem? ht)
          rw [hmid] at hnot
          exact nomatch hnot
    | get key => exact .inr (.inl hallow.1)
    | smembers set => exact .inr (.inl hallow)
    | now => exact .inr (.inl hallow)

/-- What heartbeat `i` has written is there, unless it has failed, or a cleanup whose cutoff is
not before it has removed something of the worker since. -/
def Lasting (req : HeartbeatRequest) (i : Nat) (base : List (Text × Nat)) (p : Calls) : Prop :=
  ∃ t new, p.threads[i]? = some t ∧ t.kind = .heartbeat req ∧ p.store.dropped = new ++ base ∧
    ((∃ e, t.rest = .ret (.error e)) ∨
      (∃ entry ∈ new, entry.1 = req.workerID ∧ t.seen.stamp ≤ entry.2) ∨
      Kept req.workerID t.seen p.store.store)

/-- What a call drops is put before what has been dropped. -/
theorem exists_dropped (call : Call) (c : Command) (answer : Answer) (l : Ledger) :
    ∃ new, (exec call c answer l).2.dropped = new ++ l.dropped := by
  rcases exec_cases call c answer l with hidle | ⟨w, -, -, hstore⟩
  · exact ⟨[], by rw [hidle]; rfl⟩
  · rw [hstore]
    cases call with
    | cleanup cutoff => exact ⟨_, rfl⟩
    | _ => exact ⟨[], rfl⟩

/-- A write that the condition of the run lets through. -/
theorem InOrder.le {workerID : Text} {p : Calls} {j : Nat} {answer : Answer}
    {t : Thread Call Seen Command Reply (Except Text Response)} {w : Write}
    {rest : Reply (.write w) → Prog Command Reply (Except Text Response)}
    (h : InOrder workerID p (.step j answer)) (ht : p.threads[j]? = some t)
    (hrest : t.rest = .call (.write w) rest) (heffect : takesEffect answer.fate = true) :
    ∀ seen ∈ w.lastSeenOf workerID,
      ∀ e ∈ p.store.store.keys (workerKey workerID .lastSeen), e.value ≤ seen := by
  rw [InOrder, Pool.pending_of_rest ht hrest] at h
  change (!takesEffect answer.fate || (w.lastSeenOf workerID).all fun seen =>
    (p.store.store.keys (workerKey workerID .lastSeen)).all fun e => e.value ≤ seen) = true at h
  rw [heffect, Bool.not_true, Bool.false_or] at h
  intro seen hseen e he
  rw [hseen, Option.all_some, he] at h
  exact of_decide_eq_true h

/-- A command of the heartbeat itself. -/
theorem Lasting.own {p : Calls} {answer : Answer}
    {t : Thread Call Seen Command Reply (Except Text Response)} {c : Command}
    {rest : Reply c → Prog Command Reply (Except Text Response)}
    (hallow : Allowed heartbeatTTL t.kind t.seen c) (ht : p.threads[i]? = some t)
    (hrest : t.rest = .call c rest)
    (horder : InOrder req.workerID p (.step i answer)) (h : Lasting req i base p) :
    Lasting req i base (p.resume Seen.next i t c rest (exec t.kind c answer p.store).1
      (exec t.kind c answer p.store).2) := by
  obtain ⟨u, new, hu, hkind, hnew, hlast⟩ := h
  obtain rfl := Option.some.inj (ht.symm.trans hu)
  obtain ⟨more, hmore⟩ := exists_dropped t.kind c answer p.store
  refine ⟨_, more ++ new, Pool.resume_getElem?_self ht, hkind, ?_, ?_⟩
  · show (exec t.kind c answer p.store).2.dropped = _
    rw [hmore, hnew, List.append_assoc]
  rcases written_nil_or_write hallow answer p.store with hnil | ⟨w, rfl⟩
  · exact .inr (.inr (.of_nil hnil))
  have hstamp : (t.seen.next (.write w) (exec t.kind (.write w) answer p.store).1).stamp =
      t.seen.stamp := by
    rw [(t.seen.extends_write w (exec t.kind (.write w) answer p.store).1).1]
    rfl
  rcases hlast with ⟨e, hend⟩ | ⟨entry, hentry, hid, hle⟩ | hkept
  · exact nomatch hrest.symm.trans hend
  · exact .inr (.inl ⟨entry, List.mem_append_right _ hentry, hid,
      Nat.le_trans (Nat.le_of_eq hstamp) hle⟩)
  · obtain ⟨hremoves, hsets⟩ : Harmless req.workerID t.seen.stamp w :=
      harmless_of_allowed (by rw [hkind]; rfl) hallow
    have hown : (w.lastSeenOf req.workerID).isSome = true → ∃ ttl,
        w = .set (workerKey req.workerID .lastSeen) t.seen.stamp ttl := fun hset => ⟨0, hsets hset⟩
    refine .inr (.inr ?_)
    obtain ⟨_ | e | e, time⟩ := answer
    · exact hkept.wrote time hremoves (horder.le ht hrest rfl) hown
    · exact hkept
    · exact hkept.apply time hremoves (horder.le ht hrest rfl)

/-- What a step drops of the worker of a heartbeat. -/
theorem dropped_cases {p : Calls} {j : Nat} {answer : Answer}
    {t u : Thread Call Seen Command Reply (Except Text Response)} {c : Command}
    {rest : Reply c → Prog Command Reply (Except Text Response)} {more : List (Text × Nat)}
    (hbound : p.Bound (Allowed heartbeatTTL) Seen.next (Returns heartbeatTTL))
    (ht : p.threads[j]? = some t) (hrest : t.rest = .call c rest)
    (hcurrent : Current req.workerID p (.step j answer)) (hu : p.threads[i]? = some u)
    (hkind : u.kind = .heartbeat req) (hkept : Kept req.workerID u.seen p.store.store)
    (hmore : (exec t.kind c answer p.store).2.dropped = more ++ p.store.dropped) :
    (∀ entry ∈ more, entry.1 ≠ req.workerID) ∨ (∃ e, u.rest = .ret (.error e)) ∨
      u.seen.written = [] ∨ ∃ entry ∈ more, entry.1 = req.workerID ∧ u.seen.stamp ≤ entry.2 := by
  have hnone : (exec t.kind c answer p.store).2.dropped = p.store.dropped →
      ∀ entry ∈ more, entry.1 ≠ req.workerID := by
    intro hsame
    have hnil : more = [] := List.append_left_eq_self.mp (hmore.symm.trans hsame)
    rw [hnil]
    exact nofun
  rcases exec_cases t.kind c answer p.store with hidle | ⟨w, rfl, heffect, hstore⟩
  · exact .inl (hnone (by rw [hidle]))
  cases hcleanup : t.kind with
  | cleanup cutoff =>
    rw [hstore, hcleanup] at hmore
    have hremoved : w.removed.map (·, cutoff) = more := List.append_cancel_right hmore
    by_cases hmem : req.workerID ∈ w.removed
    · have hstale : stillStale p req.workerID cutoff = true := by
        rw [Current, Pool.pending_of_rest ht hrest, hcleanup] at hcurrent
        change (!(takesEffect answer.fate && decide (req.workerID ∈ w.removed)) ||
          stillStale p req.workerID cutoff) = true at hcurrent
        rwa [heffect, decide_eq_true hmem] at hcurrent
      rcases stamp_le_of_stillStale hbound hu hkind hkept hstale with hfailed | hnil | hle
      · exact .inr (.inl hfailed)
      · exact .inr (.inr (.inl hnil))
      · refine .inr (.inr (.inr ⟨(req.workerID, cutoff), ?_, rfl, hle⟩))
        rw [← hremoved]
        exact List.mem_map.mpr ⟨_, hmem, rfl⟩
    · left
      intro entry hentry hid
      rw [← hremoved] at hentry
      obtain ⟨id, hremove, rfl⟩ := List.mem_map.mp hentry
      exact hmem (hid ▸ hremove)
  | _ => exact .inl (hnone (by rw [hstore, hcleanup]; rfl))

/-- A command of another call. -/
theorem Lasting.other {p : Calls} {j : Nat} {answer : Answer}
    {t : Thread Call Seen Command Reply (Except Text Response)} {c : Command}
    {rest : Reply c → Prog Command Reply (Except Text Response)}
    (hbound : p.Bound (Allowed heartbeatTTL) Seen.next (Returns heartbeatTTL))
    (ht : p.threads[j]? = some t) (hrest : t.rest = .call c rest) (hij : j ≠ i)
    (hcurrent : Current req.workerID p (.step j answer))
    (horder : InOrder req.workerID p (.step j answer)) (h : Lasting req i base p) :
    Lasting req i base (p.resume Seen.next j t c rest (exec t.kind c answer p.store).1
      (exec t.kind c answer p.store).2) := by
  obtain ⟨u, new, hu, hkind, hnew, hlast⟩ := h
  obtain ⟨more, hmore⟩ := exists_dropped t.kind c answer p.store
  refine ⟨u, more ++ new, (Pool.resume_getElem?_of_ne hij).trans hu, hkind, ?_, ?_⟩
  · show (exec t.kind c answer p.store).2.dropped = _
    rw [hmore, hnew, List.append_assoc]
  show _ ∨ _ ∨ Kept req.workerID u.seen (exec t.kind c answer p.store).2.store
  rcases hlast with hfailed | ⟨entry, hentry, hid, hle⟩ | hkept
  · exact .inl hfailed
  · exact .inr (.inl ⟨entry, List.mem_append_right _ hentry, hid, hle⟩)
  rcases exec_cases t.kind c answer p.store with hidle | ⟨w, rfl, heffect, hstore⟩
  · rw [hidle]
    exact .inr (.inr hkept)
  rw [hstore]
  by_cases hremoves : w.removes req.workerID = false
  · exact .inr (.inr (hkept.apply _ hremoves (horder.le ht hrest heffect)))
  -- a cleanup removes something of the worker
  have hmem : req.workerID ∈ w.removed := Write.mem_removed (Bool.eq_true_of_not_eq_false hremoves)
  rcases dropped_cases hbound ht hrest hcurrent hu hkind hkept hmore with
    hnone | hfailed | hnil | ⟨entry, hentry, hid, hle⟩
  · cases hcleanup : t.kind with
    | cleanup cutoff =>
      rw [hstore, hcleanup] at hmore
      refine absurd rfl (hnone (req.workerID, cutoff) ?_)
      rw [← List.append_cancel_right hmore]
      exact List.mem_map.mpr ⟨_, hmem, rfl⟩
    | _ =>
      have hallow := hbound.head ht hrest
      rw [hcleanup] at hallow
      exact absurd (harmless_of_allowed rfl hallow).1 hremoves
  · exact .inl hfailed
  · exact .inr (.inr (.of_nil hnil))
  · exact .inr (.inl ⟨entry, List.mem_append_left _ hentry, hid, hle⟩)

/-- A run in which cleanups remove only what is still stale. -/
abbrev Careful (workerID : Text) (p : Calls) (m : Move Call Answer) : Prop :=
  Current workerID p m ∧ InOrder workerID p m

theorem Lasting.step {p : Calls} {j : Nat} {answer : Answer}
    {t : Thread Call Seen Command Reply (Except Text Response)} {c : Command}
    {rest : Reply c → Prog Command Reply (Except Text Response)}
    (hbound : p.Bound (Allowed heartbeatTTL) Seen.next (Returns heartbeatTTL))
    (ht : p.threads[j]? = some t) (hrest : t.rest = .call c rest)
    (hcareful : Careful req.workerID p (.step j answer)) (h : Lasting req i base p) :
    Lasting req i base (p.resume Seen.next j t c rest (exec t.kind c answer p.store).1
      (exec t.kind c answer p.store).2) := by
  by_cases hij : j = i
  · subst hij
    exact h.own (hbound.head ht hrest) ht hrest hcareful.2
  · exact h.other hbound ht hrest hij hcareful.1 hcareful.2

theorem Lasting.start {p : Calls} (h : Lasting req i base p) (call : Call) :
    Lasting req i base (opened heartbeatTTL p call) := by
  obtain ⟨t, new, ht, hrest⟩ := h
  exact ⟨t, new, (Pool.start_getElem?_of_lt (List.getElem?_eq_some_iff.mp ht).1).trans ht, hrest⟩

theorem lasting_opened (p : Calls) (req : HeartbeatRequest) :
    Lasting req p.threads.length p.store.dropped (opened heartbeatTTL p (.heartbeat req)) :=
  ⟨_, [], p.start_getElem?_length _, rfl, rfl, .inr (.inr (.of_nil rfl))⟩

theorem Lasting.of_reaches {p q : Calls}
    (hp : p.Bound (Allowed heartbeatTTL) Seen.next (Returns heartbeatTTL))
    (h : Lasting req i base p)
    (hrun : (concurrent heartbeatTTL).Reaches (Careful req.workerID) p q) :
    Lasting req i base q :=
  (hp.induction (follows_program heartbeatTTL) h (fun _ call h => h.start call)
    (fun _ _ _ _ _ _ hbound ht hrest hcareful h => h.step hbound ht hrest hcareful) hrun).2

/-- Nothing of the worker has been removed since `later`, or something by a cleanup whose cutoff
is not before the heartbeat. -/
def Untouched (req : HeartbeatRequest) (x : Seen) (base later : List (Text × Nat)) (p : Calls) :
    Prop :=
  ∃ new more, p.store.dropped = new ++ base ∧ p.store.dropped = more ++ later ∧
    ((∃ entry ∈ new, entry.1 = req.workerID ∧ x.stamp ≤ entry.2) ∨
      ∀ entry ∈ more, entry.1 ≠ req.workerID)

/-- A step after the heartbeat was accepted. -/
theorem Untouched.step {p : Calls} {j : Nat} {answer : Answer} {later : List (Text × Nat)}
    {t u : Thread Call Seen Command Reply (Except Text Response)} {c : Command}
    {rest : Reply c → Prog Command Reply (Except Text Response)} {response : Response}
    (hbound : p.Bound (Allowed heartbeatTTL) Seen.next (Returns heartbeatTTL))
    (ht : p.threads[j]? = some t) (hrest : t.rest = .call c rest)
    (hcurrent : Current req.workerID p (.step j answer)) (hu : p.threads[i]? = some u)
    (hend : u.rest = .ret (.ok response)) (hlasting : Lasting req i base p)
    (h : Untouched req u.seen base later p) :
    Untouched req u.seen base later (p.resume Seen.next j t c rest
      (exec t.kind c answer p.store).1 (exec t.kind c answer p.store).2) := by
  obtain ⟨new, more, hnew, hmore, huntouched⟩ := h
  obtain ⟨added, hadded⟩ := exists_dropped t.kind c answer p.store
  refine ⟨added ++ new, added ++ more, ?_, ?_, ?_⟩
  · show (exec t.kind c answer p.store).2.dropped = _
    rw [hadded, hnew, List.append_assoc]
  · show (exec t.kind c answer p.store).2.dropped = _
    rw [hadded, hmore, List.append_assoc]
  have hkeep : (∃ entry ∈ new, entry.1 = req.workerID ∧ u.seen.stamp ≤ entry.2) →
      ∃ entry ∈ added ++ new, entry.1 = req.workerID ∧ u.seen.stamp ≤ entry.2 := by
    rintro ⟨entry, hentry, hof⟩
    exact ⟨entry, List.mem_append_right _ hentry, hof⟩
  rcases huntouched with hout | hnone
  · exact .inl (hkeep hout)
  obtain ⟨v, new', hv, hkind, hnew', hlast⟩ := hlasting
  obtain rfl := Option.some.inj (hu.symm.trans hv)
  obtain rfl := List.append_cancel_right (hnew.symm.trans hnew')
  rcases hlast with ⟨e, hfailed⟩ | hout | hkept
  · exact nomatch hend.symm.trans hfailed
  · exact .inl (hkeep hout)
  rcases dropped_cases hbound ht hrest hcurrent hu hkind hkept hadded with
    hclear | ⟨e, hfailed⟩ | hnil | ⟨entry, hentry, hof⟩
  · right
    intro entry hentry
    rcases List.mem_append.mp hentry with hentry | hentry
    · exact hclear entry hentry
    · exact hnone entry hentry
  · exact nomatch hend.symm.trans hfailed
  · have hreturns := hbound.result hu hend
    rw [hkind] at hreturns
    have hmem := (writes_of_accepted hreturns).1
    rw [hnil] at hmem
    exact nomatch hmem
  · exact .inl ⟨entry, List.mem_append_left _ hentry, hof⟩

end Survives

/-! ## The laws -/

/-- A worker whose heartbeat was accepted stays among the known and the active workers, and
nothing of it is removed, unless by a cleanup whose cutoff is not before the heartbeat. -/
def Survives (heartbeatTTL : Nat) (Cond : Text → Calls → Move Call Answer → Prop) : Prop :=
  ∀ (req : HeartbeatRequest) (p q r : Calls) (state : WorkerState) (x : Seen),
    (concurrent heartbeatTTL).Reaches Always noCalls p →
    (concurrent heartbeatTTL).Reaches (Cond req.workerID)
      (opened heartbeatTTL p (.heartbeat req)) q →
    q.result p.threads.length = some (.heartbeat req, .ok (.desired state)) →
    q.threads[p.threads.length]?.map Thread.seen = some x →
    (concurrent heartbeatTTL).Reaches (Cond req.workerID) q r →
    (∃ entry ∈ r.store.droppedSince p.store, entry.1 = req.workerID ∧ x.stamp ≤ entry.2) ∨
      req.workerID ∈ r.store.store.members .knownWorkers ∧
        req.workerID ∈ r.store.store.members .activeWorkers ∧
        ∀ entry ∈ r.store.droppedSince q.store, entry.1 ≠ req.workerID

/-- Once a call that quarantines a worker has returned, every heartbeat of the worker that
starts later is answered with draining, until a call releases the worker. -/
def AnswersDraining (heartbeatTTL : Nat)
    (Cond : Text → Nat → Calls → Move Call Answer → Prop) : Prop :=
  ∀ (workerID : Text) (call : Call) (p q r : Calls) (j : Nat) (req : HeartbeatRequest)
    (state : WorkerState), call.Quarantines workerID →
    (concurrent heartbeatTTL).Reaches Always noCalls p →
    (concurrent heartbeatTTL).Reaches (fun s m => Unreleased workerID p.threads.length s m ∧
      Cond workerID p.threads.length s m) (opened heartbeatTTL p call) q →
    q.result p.threads.length = some (call, .ok .done) →
    (concurrent heartbeatTTL).Reaches (fun s m => Unreleased workerID p.threads.length s m ∧
      Cond workerID p.threads.length s m) q r →
    q.threads.length ≤ j → req.workerID = workerID →
    r.result j = some (.heartbeat req, .ok (.desired state)) → state = .draining

theorem survives (heartbeatTTL : Nat) : Survives heartbeatTTL Careful := by
  intro req p q r state x hp hq hresult hx hr
  have hqbound := (opened_bound _ hp).of_reaches (follows_program heartbeatTTL) hq
  have hlasting := (lasting_opened p req).of_reaches (opened_bound _ hp) hq
  obtain ⟨u, hu, hend, hkind⟩ := Pool.exists_of_result hresult
  obtain rfl : u.seen = x := by
    rw [hu] at hx
    exact Option.some.inj hx
  have hreturns := hqbound.result hu hend
  rw [hkind] at hreturns
  obtain ⟨hactive, hknown, -⟩ := writes_of_accepted hreturns
  have hrun : r.threads[p.threads.length]? = some u ∧
      Lasting req p.threads.length p.store.dropped r ∧
        Untouched req u.seen p.store.dropped q.store.dropped r := by
    refine (hqbound.induction (follows_program heartbeatTTL) (J := fun s =>
      s.threads[p.threads.length]? = some u ∧ Lasting req p.threads.length p.store.dropped s ∧
        Untouched req u.seen p.store.dropped q.store.dropped s) ⟨hu, hlasting, ?_⟩ ?_ ?_ hr).2
    · obtain ⟨-, new, -, -, hnew, -⟩ := hlasting
      exact ⟨new, [], hnew, rfl, .inr nofun⟩
    · rintro s call ⟨hus, hlasts, huntouched⟩
      exact ⟨(Pool.start_getElem?_of_lt (List.getElem?_eq_some_iff.mp hus).1).trans hus,
        hlasts.start call, huntouched⟩
    · rintro s j answer t c rest hbound ht hrest hcareful ⟨hus, hlasts, huntouched⟩
      refine ⟨?_, hlasts.step hbound ht hrest hcareful,
        huntouched.step hbound ht hrest hcareful.1 hus hend hlasts⟩
      rw [Pool.resume_getElem?_of_ne, hus]
      rintro rfl
      obtain rfl := Option.some.inj (ht.symm.trans hus)
      exact nomatch hrest.symm.trans hend
  obtain ⟨hur, ⟨v, new, hv, -, hnew, hlast⟩, new', more, hnew', hmore, huntouched⟩ := hrun
  obtain rfl := Option.some.inj (hur.symm.trans hv)
  obtain rfl := List.append_cancel_right (hnew.symm.trans hnew')
  rw [Ledger.droppedSince_eq hnew, Ledger.droppedSince_eq hmore]
  rcases hlast with ⟨e, hfailed⟩ | hout | hkept
  · exact nomatch hend.symm.trans hfailed
  · exact .inl hout
  · rcases huntouched with hout | hnone
    · exact .inl hout
    · exact .inr ⟨hkept.known hknown, hkept.active hactive, hnone⟩

theorem answersDraining (heartbeatTTL : Nat) :
    AnswersDraining heartbeatTTL fun workerID i p m =>
      Sheltered workerID i p m ∧ Heard workerID p m := by
  intro workerID call p q r j req state hcall hp hq hreturned hr hlater hid hanswer
  have hpbound := opened_bound call hp
  have hqbound := hpbound.of_reaches (follows_program heartbeatTTL) hq
  obtain ⟨u, hu, hend, hkind⟩ := Pool.exists_of_result hreturned
  -- the flag is there from then on
  have hstore : ∀ s, (concurrent heartbeatTTL).Reaches (fun s m =>
      Unreleased workerID p.threads.length s m ∧ Sheltered workerID p.threads.length s m ∧
        Heard workerID s m) q s → (flagged workerID).holds s.store.store := by
    intro s hs
    refine (((flagged workerID).established_opened p call).of_reaches hcall.keeps ?_ hpbound
      (hq.trans hs)).holds hs hu hend ?_
    · rintro s j answer t ⟨hunreleased, hsheltered, -⟩ -
      cases hkind : t.kind.isCleanup with
      | true => exact ⟨_, hkind, hsheltered⟩
      | false => exact ⟨fun c => !c.isCleanup, congrArg (!·) hkind, hunreleased⟩
    · have hreturns := hqbound.result hu hend
      rw [hkind] at hreturns
      exact hcall.known hreturns
  -- so a heartbeat that starts later finds it
  obtain ⟨t, ht, hrest, htkind⟩ := Pool.exists_of_result hanswer
  have hreturns := (hqbound.of_reaches (follows_program heartbeatTTL) hr).result ht hrest
  rw [htkind] at hreturns
  obtain ⟨hstate, -, hread, -⟩ := hreturns
  have hdrains : Drains workerID t := by
    refine hqbound.later (T := Drains workerID) (S := fun l : Ledger =>
      (flagged workerID).holds l.store) (follows_program heartbeatTTL)
      (fun _ _ _ _ => .inl rfl) ?_ hstore hr hlater ht
    intro p i answer t c rest hpending hcond hallow hflag hdrains
    exact hdrains.step hallow hflag fun hheartbeat hc => hcond.2.2 _ hpending hheartbeat hc
  rw [Response.desired.inj hstate]
  rcases hdrains req htkind hid with hnone | heffective
  · rw [hnone] at hread
    exact nomatch hread
  · exact heffective

/-- **A worker survives every cleanup whose cutoff is before its last heartbeat**, in every run
in which cleanups remove only workers that are still stale and no heartbeat puts back when its
worker was last seen; **and a worker that is quarantined is answered with draining until it is
released**, in every run in which no cleanup removes it and its heartbeats read the flag. -/
theorem survives_and_drains (heartbeatTTL : Nat) :
    Survives heartbeatTTL Careful ∧ AnswersDraining heartbeatTTL fun workerID i p m =>
      Sheltered workerID i p m ∧ Heard workerID p m :=
  ⟨survives heartbeatTTL, answersDraining heartbeatTTL⟩

instance (workerID : Text) (i : Nat) (p : Calls) (m : Move Call Answer) :
    Decidable (Sheltered workerID i p m) := inferInstanceAs (Decidable (_ = _))

instance (workerID : Text) (i : Nat) (p : Calls) (m : Move Call Answer) :
    Decidable (Unreleased workerID i p m) := inferInstanceAs (Decidable (_ = _))

instance (workerID : Text) (p : Calls) : DecidablePred (Heard workerID p)
  | .start _ => isTrue trivial
  | .step j answer => inferInstanceAs (Decidable (∀ turn ∈ p.pending j,
      turn.1.isHeartbeat = true → turn.2.2 = .get (workerKey workerID .quarantined) →
      answer.fate = .served ∨ turn.2.1.desired = .draining))

instance (workerID : Text) (p : Calls) : DecidablePred (Current workerID p)
  | .start _ => isTrue trivial
  | .step _ _ => inferInstanceAs (Decidable (_ = true))

instance (workerID : Text) (p : Calls) : DecidablePred (InOrder workerID p)
  | .start _ => isTrue trivial
  | .step _ _ => inferInstanceAs (Decidable (_ = true))

/-- A heartbeat of a worker that runs. -/
def alive : HeartbeatRequest := { workerID := "w1".toList, status := "running".toList }

/-- So many commands of call `i`, each served at the time. -/
def servedAt (time i n : Nat) : List (Move Call Answer) :=
  List.replicate n (.step i { time := time })

/-- A heartbeat in the third second. -/
def afterHeartbeat : Calls :=
  (concurrent second).final Always noCalls
    ([.start (.heartbeat alive)] ++ servedAt (2 * second) 0 11)

theorem reaches_afterHeartbeat : (concurrent second).Reaches Always noCalls afterHeartbeat :=
  System.reaches_final (by decide)

/-- A cleanup with the first second as its cutoff comes after the heartbeat, and after the worker
is quarantined. -/
theorem survives_and_drains_recent :
    (∃ r : Calls, "w1".toList ∈ r.store.store.members .knownWorkers) ∧
      ∃ r : Calls, r.result 3 = some (.heartbeat alive, .ok (.desired .draining)) := by
  constructor
  · let C := Careful "w1".toList
    let q := (concurrent second).final C (opened second noCalls (.heartbeat alive))
      (servedAt (2 * second) 0 11)
    let r := (concurrent second).final C q ([.start (.cleanup second)] ++ servedAt 0 1 2)
    have hq : (concurrent second).Reaches C (opened second noCalls (.heartbeat alive)) q :=
      System.reaches_final (by decide)
    have hr : (concurrent second).Reaches C q r := System.reaches_final (by decide)
    refine ⟨r, ?_⟩
    rcases (survives_and_drains second).1 alive noCalls q r .running
      ⟨.running, some false, 2 * second, [], (q.threads[0]?.map fun t => t.seen.written).getD []⟩
      .refl hq (by decide) (by decide) hr with hout | hkept
    · exact absurd hout (by decide)
    · exact hkept.1
  · let C : Calls → Move Call Answer → Prop := fun s m =>
      Unreleased "w1".toList 1 s m ∧ Sheltered "w1".toList 1 s m ∧ Heard "w1".toList s m
    let call : Call := .setQuarantined "w1".toList true []
    let q := (concurrent second).final C (opened second afterHeartbeat call) (servedAt 0 1 4)
    let r := (concurrent second).final C q ([.start (.cleanup second)] ++ servedAt 0 2 2 ++
      [.start (.heartbeat alive)] ++ servedAt 0 3 12)
    have hq : (concurrent second).Reaches C (opened second afterHeartbeat call) q :=
      System.reaches_final (by decide)
    have hr : (concurrent second).Reaches C q r := System.reaches_final (by decide)
    obtain ⟨state, hanswer⟩ : ∃ state, r.result 3 =
        some (.heartbeat alive, .ok (.desired state)) := ⟨.draining, by decide⟩
    have hstate := (survives_and_drains second).2 "w1".toList call afterHeartbeat q r 3 alive state
      ⟨rfl, rfl⟩ reaches_afterHeartbeat hq (by decide) hr (by decide) rfl hanswer
    exact ⟨r, hstate ▸ hanswer⟩

/-- A heartbeat in the first second, and a cleanup that has found its worker stale. -/
def foundStale : Calls :=
  (concurrent second).final Always noCalls
    ([.start (.heartbeat alive)] ++ servedAt 0 0 11 ++ [.start (.cleanup second)] ++
      servedAt 0 1 2)

/-- The worker returns between what the cleanup reads and what it removes; and a worker that is
quarantined is silent until a cleanup removes it, and returns. -/
theorem not_survives_nor_drains : ¬ Survives second (fun _ => Always) ∧
    ¬ AnswersDraining second (fun _ _ => Always) := by
  constructor
  · intro h
    let q := (concurrent second).final Always (opened second foundStale (.heartbeat alive))
      (servedAt (2 * second) 2 11)
    let r := (concurrent second).final Always q (servedAt 0 1 3)
    have hp : (concurrent second).Reaches Always noCalls foundStale :=
      System.reaches_final (by decide)
    have hq : (concurrent second).Reaches Always (opened second foundStale (.heartbeat alive)) q :=
      System.reaches_final (by decide)
    have hr : (concurrent second).Reaches Always q r := System.reaches_final (by decide)
    rcases h alive foundStale q r .running
      ⟨.running, some false, 2 * second, [], (q.threads[2]?.map fun t => t.seen.written).getD []⟩
      hp hq (by decide) (by decide) hr with hout | hkept
    · exact absurd hout (by decide)
    · exact absurd hkept.1 (by decide)
  · intro h
    let C : Calls → Move Call Answer → Prop := fun s m => Unreleased "w1".toList 1 s m ∧ Always s m
    let call : Call := .setQuarantined "w1".toList true []
    let q := (concurrent second).final C (opened second afterHeartbeat call)
      (servedAt (3 * second) 1 4)
    let r := (concurrent second).final C q ([.start (.cleanup (5 * second))] ++ servedAt 0 2 5 ++
      [.start (.heartbeat alive)] ++ servedAt 0 3 11)
    have hq : (concurrent second).Reaches C (opened second afterHeartbeat call) q :=
      System.reaches_final (by decide)
    have hr : (concurrent second).Reaches C q r := System.reaches_final (by decide)
    have hstate := h "w1".toList call afterHeartbeat q r 3 alive .running ⟨rfl, rfl⟩
      reaches_afterHeartbeat hq (by decide) hr (by decide) rfl (by decide)
    exact nomatch hstate

end ValidEmailVerifier.Fleet
