/-
# `Fleet.Release` — a worker that is set running again

A call that releases a worker sets its desired state to running and removes its quarantine
flag.  A heartbeat reads the flag, commits its pipeline, and then, if it has found the flag,
writes `draining` to the desired state.

As long as no heartbeat does so after the call has written the desired state, every heartbeat
that starts once the call has returned is answered with running, until another call sets
another state (`running_of_timely`).  A heartbeat that has read the flag before the call and
writes after it keeps the worker draining for good (`draining_written_back`).
-/
import ValidEmailVerifier.Fleet.Calls

namespace ValidEmailVerifier.Fleet

open ExpiringKeys Programs Transition Worker

/-! ## What a release establishes -/

/-- The call sets the worker running. -/
def Call.Releases (workerID : Text) : Call → Prop
  | .setDesired id state => id = workerID ∧ normalizeDesiredState state = some .running
  | .setQuarantined id enabled _ => id = workerID ∧ enabled = false
  | _ => False

/-- The desired state is running, or there is none. -/
def runs (workerID : Text) : Fact where
  holds s := ∀ e ∈ s.keys (workerKey workerID .desiredState), e.value = .running
  sets
    | .set (id, .desiredState) state _ => id = workerID && state = .running
    | _ => false
  breaks
    | .set (id, .desiredState) state _ => id = workerID && state ≠ .running
    | .setNX (id, .desiredState) state _ => id = workerID && state ≠ .running
    | _ => false
  holds_of_sets := by
    intro w s now hset
    cases w with
    | set key state ttl =>
      obtain ⟨id, field⟩ := key
      cases field with
      | desiredState =>
        obtain ⟨hid, hstate⟩ := Bool.and_eq_true_iff.mp hset
        obtain rfl := of_decide_eq_true hid
        intro e he
        have hself := (s.keys.set_self (id, .desiredState) state _).symm.trans he
        obtain rfl := Option.some.inj hself
        exact of_decide_eq_true hstate
      | _ => exact nomatch hset
    | _ => exact nomatch hset
  holds_of_keeps := by
    intro w s now hkeep h
    rcases s.keys_apply now w (workerKey workerID .desiredState) with
      heq | ⟨-, -, -, heq⟩ | ⟨state, ttl, hset, heq⟩
    · rw [heq]
      exact h
    · rw [heq]
      exact nofun
    · rw [heq]
      rintro _ ⟨⟩
      by_contra hne
      rcases hset with rfl | rfl <;>
      · change (decide (workerID = workerID) && decide (state ≠ .running)) = false at hkeep
        rw [decide_eq_true rfl, decide_eq_true hne] at hkeep
        exact nomatch hkeep

/-- The quarantine flag is not there. -/
def unflagged (workerID : Text) : Fact where
  holds s := s.keys (workerKey workerID .quarantined) = none
  sets
    | .del keys => workerKey workerID .quarantined ∈ keys
    | _ => false
  breaks
    | .set (id, .quarantined) _ _ => id = workerID
    | .setNX (id, .quarantined) _ _ => id = workerID
    | _ => false
  holds_of_sets := by
    intro w s now hset
    cases w with
    | del keys => exact s.keys.del_of_mem (of_decide_eq_true hset)
    | _ => exact nomatch hset
  holds_of_keeps := by
    intro w s now hkeep h
    rcases s.keys_apply now w (workerKey workerID .quarantined) with
      heq | ⟨-, -, -, heq⟩ | ⟨flag, ttl, hset, heq⟩
    · rw [heq]
      exact h
    · exact heq
    · rcases hset with rfl | rfl <;> exact absurd rfl (of_decide_eq_false hkeep)

/-- What a heartbeat reads of a worker that runs. -/
theorem orRunning_of_runs {workerID : Text} {s : WorkerStore} (h : (runs workerID).holds s)
    (now : Nat) (fate : Policy.Fate) :
    orRunning (Ledger.read (s.keys.get now (workerKey workerID .desiredState)) fate) =
      .running := by
  cases fate with
  | served =>
    cases hget : s.keys.get now (workerKey workerID .desiredState) with
    | none => rfl
    | some state =>
      obtain ⟨e, he, rfl, -⟩ := Keys.exists_of_get hget
      exact h e he
  | _ => rfl

theorem isSet_of_unflagged {workerID : Text} {s : WorkerStore}
    (h : (unflagged workerID).holds s) (now : Nat) (fate : Policy.Fate) :
    isSet (Ledger.read (s.keys.get now (workerKey workerID .quarantined)) fate) = false := by
  rw [Keys.get_of_none h]
  cases fate <;> rfl

/-! ## Runs -/

/-- No heartbeat writes `draining` once call `i` has written the desired state. -/
def Timely (workerID : Text) (i : Nat) (p : Calls) (m : Move Call Answer) : Prop :=
  ∀ F ∈ [runs workerID, unflagged workerID], F.brokenBy Call.isHeartbeat i p m = false

/-- No other call sets another state once call `i` has written its own. -/
def Unopposed (workerID : Text) (i : Nat) (p : Calls) (m : Move Call Answer) : Prop :=
  ∀ F ∈ [runs workerID, unflagged workerID], F.brokenBy (!·.isHeartbeat) i p m = false

instance (workerID : Text) (i : Nat) (p : Calls) (m : Move Call Answer) :
    Decidable (Timely workerID i p m) := inferInstanceAs (Decidable (∀ F ∈ [_, _], _))

instance (workerID : Text) (i : Nat) (p : Calls) (m : Move Call Answer) :
    Decidable (Unopposed workerID i p m) := inferInstanceAs (Decidable (∀ F ∈ [_, _], _))

/-- A run in which nobody undoes what call `i` has written. -/
abbrev Undisturbed (heartbeatTTL : Nat) (workerID : Text) (i : Nat) (p q : Calls) : Prop :=
  (concurrent heartbeatTTL).Reaches
    (fun s m => Timely workerID i s m ∧ Unopposed workerID i s m) p q

section Law
variable {heartbeatTTL : Nat} {workerID : Text} {call : Call}

theorem Call.Releases.mem_writes (h : call.Releases workerID) {x : Seen} {w : Write}
    (hw : Allowed heartbeatTTL call x (.write w)) : w ∈ call.writes heartbeatTTL x := by
  rcases hw with hw | hw
  · exact hw
  · cases call with
    | heartbeat req => exact h.elim
    | _ => exact hw.elim

/-- A release breaks nothing that it establishes. -/
theorem Call.Releases.keeps (h : call.Releases workerID) {F : Fact}
    (hF : F ∈ [runs workerID, unflagged workerID]) (x : Seen) (w : Write)
    (hallow : Allowed heartbeatTTL call x (.write w)) : F.breaks w = false := by
  have hw := h.mem_writes hallow
  have hboth : (runs workerID).breaks w = false ∧ (unflagged workerID).breaks w = false := by
    cases call with
    | heartbeat req => exact h.elim
    | cleanup cutoff => exact h.elim
    | setDesired id state =>
      obtain ⟨rfl, hstate⟩ := h
      rw [Call.writes, hstate] at hw
      simp only [desiredStateWrites, if_pos, List.cons_append, List.nil_append, List.mem_cons,
        List.not_mem_nil, or_false] at hw
      rcases hw with rfl | rfl | rfl
      · exact ⟨Bool.and_false _, rfl⟩
      · exact ⟨rfl, rfl⟩
      · exact ⟨rfl, rfl⟩
    | setQuarantined id enabled reason =>
      obtain ⟨rfl, rfl⟩ := h
      simp only [Call.writes, Bool.false_eq_true, if_false, releaseWrites, List.mem_cons,
        List.not_mem_nil, or_false] at hw
      rcases hw with rfl | rfl | rfl
      · exact ⟨rfl, rfl⟩
      · exact ⟨Bool.and_false _, rfl⟩
      · exact ⟨rfl, rfl⟩
  rcases List.mem_cons.mp hF with rfl | hF
  · exact hboth.1
  · obtain rfl := List.mem_singleton.mp hF
    exact hboth.2

/-- A release that has returned has established both. -/
theorem Call.Releases.known (h : call.Releases workerID) {x : Seen}
    (hx : Returns heartbeatTTL call (.ok .done) x) {F : Fact}
    (hF : F ∈ [runs workerID, unflagged workerID]) : F.known x = true := by
  have hwrites : .set (workerKey workerID .desiredState) .running 0 ∈ call.writes heartbeatTTL x ∧
      .del [workerKey workerID .quarantined] ∈ call.writes heartbeatTTL x := by
    cases call with
    | heartbeat req => exact h.elim
    | cleanup cutoff => exact h.elim
    | setDesired id state =>
      obtain ⟨rfl, hstate⟩ := h
      rw [Call.writes, hstate]
      exact ⟨.head _, .tail _ (.tail _ (.head _))⟩
    | setQuarantined id enabled reason =>
      obtain ⟨rfl, rfl⟩ := h
      exact ⟨.tail _ (.head _), .head _⟩
  have hall : ∀ w ∈ call.writes heartbeatTTL x, w ∈ x.written := by
    cases call with
    | heartbeat req => exact h.elim
    | cleanup cutoff => exact h.elim
    | _ => exact hx
  rcases List.mem_cons.mp hF with rfl | hF
  · exact List.any_eq_true.mpr ⟨_, hall _ hwrites.1,
      Bool.and_eq_true_iff.mpr ⟨decide_eq_true rfl, rfl⟩⟩
  · obtain rfl := List.mem_singleton.mp hF
    exact List.any_eq_true.mpr ⟨_, hall _ hwrites.2, decide_eq_true (.head _)⟩

/-- A heartbeat of the worker has read nothing but a worker that runs. -/
def ReadRunning (workerID : Text)
    (t : Thread Call Seen Command Reply (Except Text Response)) : Prop :=
  ∀ req, t.kind = .heartbeat req → req.workerID = workerID →
    t.seen.desired = .running ∧ t.seen.quarantined = false

/-- A heartbeat that reads a released worker. -/
theorem ReadRunning.step {t : Thread Call Seen Command Reply (Except Text Response)}
    {c : Command} {rest : Prog Command Reply (Except Text Response)} {answer : Answer}
    {l : Ledger} (h : ReadRunning workerID t) (hallow : Allowed heartbeatTTL t.kind t.seen c)
    (hruns : (runs workerID).holds l.store) (hflag : (unflagged workerID).holds l.store) :
    ReadRunning workerID
      { t with seen := t.seen.next c (exec t.kind c answer l).1, rest := rest } := by
  intro req hkind hid
  obtain ⟨hread, hquarantined⟩ := h req hkind hid
  cases c with
  | get key =>
    obtain ⟨id, field⟩ := key
    have hkey : id = req.workerID := by
      rw [show t.kind = .heartbeat req from hkind] at hallow
      exact hallow.2.1
    obtain rfl : id = workerID := hkey.trans hid
    cases field with
    | desiredState => exact ⟨orRunning_of_runs hruns _ _, hquarantined⟩
    | quarantined => exact ⟨hread, isSet_of_unflagged hflag _ _⟩
    | lastSeen =>
      show (t.seen.next (.get (id, .lastSeen)) (Ledger.read _ answer.fate)).desired = _ ∧
        (t.seen.next (.get (id, .lastSeen)) (Ledger.read _ answer.fate)).quarantined = _
      rcases Ledger.read (l.store.keys.get answer.time (id, .lastSeen)) answer.fate with
        e | _ | seen <;> exact ⟨hread, hquarantined⟩
    | _ => exact ⟨hread, hquarantined⟩
  | smembers set => exact ⟨hread, hquarantined⟩
  | now => exact ⟨hread, hquarantined⟩
  | write w =>
    have hext := t.seen.extends_write w (exec t.kind (.write w) answer l).1
    show (t.seen.next (.write w) _).desired = _ ∧ (t.seen.next (.write w) _).quarantined = _
    rw [hext.1]
    exact ⟨hread, hquarantined⟩

/-! ## The law -/

/-- **Once a call that sets a worker running has returned, every heartbeat of the worker that
starts later is answered with running until another call sets another state**, in every run
in which no heartbeat writes `draining` after the call has written the desired state. -/
theorem running_of_timely {p q r : Calls} (hcall : call.Releases workerID)
    (hp : (concurrent heartbeatTTL).Reaches Always noCalls p)
    (hq : Undisturbed heartbeatTTL workerID p.threads.length (opened heartbeatTTL p call) q)
    (hreturned : q.result p.threads.length = some (call, .ok .done))
    (hr : Undisturbed heartbeatTTL workerID p.threads.length q r) {j : Nat}
    {req : HeartbeatRequest} {state : WorkerState} (hlater : q.threads.length ≤ j)
    (hid : req.workerID = workerID)
    (hanswer : r.result j = some (.heartbeat req, .ok (.desired state))) : state = .running := by
  have hpbound := opened_bound call hp
  have hqbound := hpbound.of_reaches (follows_program heartbeatTTL) hq
  obtain ⟨u, hu, hend, hkind⟩ := Pool.exists_of_result hreturned
  -- the call has established both facts, and they hold from then on
  have hstore : ∀ s, Undisturbed heartbeatTTL workerID p.threads.length q s →
      ∀ F ∈ [runs workerID, unflagged workerID], F.holds s.store.store := by
    intro s hs F hF
    refine ((F.established_opened p call).of_reaches (hcall.keeps hF) ?_ hpbound
      (hq.trans hs)).holds hs hu hend ?_
    · rintro s j answer t ⟨htimely, hunopposed⟩ -
      cases hkind : t.kind.isHeartbeat with
      | true => exact ⟨_, hkind, htimely F hF⟩
      | false => exact ⟨fun c => !c.isHeartbeat, congrArg (!·) hkind, hunopposed F hF⟩
    · have hreturns := hqbound.result hu hend
      rw [hkind] at hreturns
      exact hcall.known hreturns hF
  -- so a heartbeat that starts later reads a worker that runs
  obtain ⟨t, ht, hrest, htkind⟩ := Pool.exists_of_result hanswer
  have hreturns := (hqbound.of_reaches (follows_program heartbeatTTL) hr).result ht hrest
  rw [htkind] at hreturns
  have hstate : Response.desired state = .desired t.seen.effective := hreturns.1
  have hread : ReadRunning workerID t := by
    refine hqbound.later (T := ReadRunning workerID) (S := fun l : Ledger =>
      ∀ F ∈ [runs workerID, unflagged workerID], F.holds l.store)
      (follows_program heartbeatTTL) (fun _ _ _ _ => ⟨rfl, rfl⟩) ?_ hstore hr hlater ht
    intro p i answer t c rest _ _ hallow hall hread
    exact hread.step hallow (hall _ (.head _)) (hall _ (.tail _ (.head _)))
  obtain ⟨hdesired, hflag⟩ := hread req htkind hid
  rw [Response.desired.inj hstate, Seen.effective, hflag, hdesired]
  rfl

end Law

/-- So many commands of call `i`, each served. -/
def served (i n : Nat) : List (Move Call Answer) := List.replicate n (.step i {})

/-- A worker that reports `draining`, and one that reports `running`. -/
def drained : HeartbeatRequest := { workerID := "w1".toList, status := "draining".toList }

def resumed : HeartbeatRequest := { workerID := "w1".toList, status := "running".toList }

/-- The worker is quarantined, and `n` commands of a heartbeat of it are executed. -/
def quarantinedFirst (n : Nat) : Calls :=
  (concurrent second).final Always noCalls
    ([.start (.setQuarantined "w1".toList true [])] ++ served 0 4 ++
      [.start (.heartbeat drained)] ++ served 1 n)

theorem reaches_quarantinedFirst (n : Nat)
    (h : ((concurrent second).runIf Always noCalls
      ([.start (.setQuarantined "w1".toList true [])] ++ served 0 4 ++
        [.start (.heartbeat drained)] ++ served 1 n)).isSome = true) :
    (concurrent second).Reaches Always noCalls (quarantinedFirst n) := System.reaches_final h

/-- The heartbeat has written `draining` before the worker is set running. -/
theorem running_of_timely_inTurn : ∃ r : Calls,
    r.result 3 = some (.heartbeat resumed, .ok (.desired .running)) := by
  let call : Call := .setDesired "w1".toList "running".toList
  let C : Calls → Move Call Answer → Prop := fun s m =>
    Timely "w1".toList 2 s m ∧ Unopposed "w1".toList 2 s m
  let q := (concurrent second).final C (opened second (quarantinedFirst 12) call) (served 2 4)
  let r := (concurrent second).final C q ([.start (.heartbeat resumed)] ++ served 3 11)
  have hq : (concurrent second).Reaches C (opened second (quarantinedFirst 12) call) q :=
    System.reaches_final (by decide)
  have hr : (concurrent second).Reaches C q r := System.reaches_final (by decide)
  obtain ⟨state, hanswer⟩ : ∃ state,
      r.result 3 = some (.heartbeat resumed, .ok (.desired state)) := ⟨.running, by decide⟩
  have hrunning := running_of_timely (show call.Releases "w1".toList from ⟨rfl, rfl⟩)
    (reaches_quarantinedFirst 12 (by decide)) hq (by decide) hr
    (by decide) rfl hanswer
  exact ⟨r, hrunning ▸ hanswer⟩

/-- The heartbeat has read the flag, the worker is set running, and the heartbeat writes
`draining`. -/
theorem draining_written_back : ¬ ∀ (heartbeatTTL : Nat) (workerID : Text) (call : Call)
    (p q r : Calls) (j : Nat) (req : HeartbeatRequest) (state : WorkerState),
    call.Releases workerID → (concurrent heartbeatTTL).Reaches Always noCalls p →
    (concurrent heartbeatTTL).Reaches (Unopposed workerID p.threads.length)
      (opened heartbeatTTL p call) q →
    q.result p.threads.length = some (call, .ok .done) →
    (concurrent heartbeatTTL).Reaches (Unopposed workerID p.threads.length) q r →
    q.threads.length ≤ j → req.workerID = workerID →
    r.result j = some (.heartbeat req, .ok (.desired state)) → state = .running := by
  intro h
  let call : Call := .setDesired "w1".toList "running".toList
  let C : Calls → Move Call Answer → Prop := Unopposed "w1".toList 2
  let q := (concurrent second).final C (opened second (quarantinedFirst 2) call) (served 2 4)
  let r := (concurrent second).final C q
    (served 1 10 ++ [.start (.heartbeat resumed)] ++ served 3 11)
  have hq : (concurrent second).Reaches C (opened second (quarantinedFirst 2) call) q :=
    System.reaches_final (by decide)
  have hr : (concurrent second).Reaches C q r := System.reaches_final (by decide)
  have hstate := h second "w1".toList call (quarantinedFirst 2) q r 3 resumed .draining ⟨rfl, rfl⟩
    (reaches_quarantinedFirst 2 (by decide)) hq (by decide) hr
    (by decide) rfl (by decide)
  exact nomatch hstate

end ValidEmailVerifier.Fleet
