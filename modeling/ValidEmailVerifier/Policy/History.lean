/-
# `Policy.History` — the active version and the rollout history

As long as no command fails behind a write, the active version is the version of the
newest promotion or rollback in the history, and a call that returns an error has
changed nothing (`rolloutLaw_of_allOrNothing`).  The active key is written before the
history, so a failure in between leaves the one without the other
(`lostEntry_breaks`).
-/
import ValidEmailVerifier.Policy.Rollout

namespace ValidEmailVerifier.Policy

open Transition Programs Worker

/-! ## The law -/

/-- The newest promotion or rollback of a history. -/
def newestRollout (history : List SMTPPolicyRolloutRecord) : Option SMTPPolicyRolloutRecord :=
  history.find? fun entry => entry.action ≠ .validate

/-- The active version is that of the newest promotion or rollback. -/
def RolloutLaw (s : PolicyStore) : Prop :=
  s.active = (newestRollout s.history).map SMTPPolicyRolloutRecord.version

/-- The operation is to activate a version. -/
def Operation.Activates : Operation → Prop
  | .validate .. => False
  | _ => True

instance : DecidablePred Operation.Activates
  | .promote .. => isTrue trivial
  | .validate .. => isFalse id
  | .rollback .. => isTrue trivial

/-- A command that returned an error. -/
def Event.isFailed : Event → Bool
  | .failed _ => true
  | .wrote .. => false

/-- What happened since the ledger was `l`. -/
def Ledger.since (m l : Ledger) : List Event := m.log.take (m.log.length - l.log.length)

/-- When a command of the call fails, no write of it takes effect. -/
def AllOrNothing (cfg : Config) (l : Ledger) (c : Call) : Prop :=
  ((l.call cfg c).2.since l).any Event.isFailed = true →
    ((l.call cfg c).2.since l).all Event.isFailed = true

instance (cfg : Config) (l : Ledger) (c : Call) : Decidable (AllOrNothing cfg l c) :=
  inferInstanceAs (Decidable (_ → _))

instance (s : PolicyStore) : Decidable (RolloutLaw s) :=
  inferInstanceAs (Decidable (_ = _))

theorem since_append {m l : Ledger} {new : List Event} (h : m.log = new ++ l.log) :
    m.since l = new := by
  rw [Ledger.since, h, List.length_append, Nat.add_sub_cancel, List.take_left]

/-! ## A call -/

/-- What an operation that started at `l` has made of the ledger. -/
structure Tracked (l : Ledger) (op : Operation) (x : Progress) (m : Ledger) : Prop where
  new : ∃ new, m.log = new ++ l.log ∧ (x.failed = true → new.any Event.isFailed = true) ∧
    (new.all Event.isFailed = true → m.store = l.store)
  unsent : x.sent = false → m.store = l.store ∧ x.activated = false ∧ x.recorded = false
  active : x.failed = false →
    m.store.active = if x.activated then op.goal x.toView else l.store.active
  rollout : x.failed = false →
    if x.recorded then ∃ entry rest, m.store.history = entry :: rest ∧
      entry.action ≠ .validate ∧ op.goal x.toView = some entry.version
    else m.store.history = l.store.history

namespace Tracked

variable {l m : Ledger} {op : Operation} {x : Progress}

theorem init : Tracked l op {} l where
  new := ⟨[], rfl, nofun, fun _ => rfl⟩
  unsent _ := ⟨rfl, rfl, rfl⟩
  active _ := rfl
  rollout _ := rfl

theorem read (h : Tracked l op x m) (hs : x.sent = false) (v : View) :
    Tracked l op { x with toView := v } m := by
  obtain ⟨hstore, hact, hrec⟩ := h.unsent hs
  refine ⟨h.new, fun _ => ⟨hstore, hact, hrec⟩, fun hf => ?_, fun hf => ?_⟩
  · have := h.active hf
    simp only [hact] at this ⊢
    exact this
  · have := h.rollout hf
    simp only [hrec] at this ⊢
    exact this

theorem fail (h : Tracked l op x m) : Tracked l op { x with failed := true } (m.failed op) := by
  obtain ⟨new, hlog, _, hall⟩ := h.new
  refine ⟨⟨.failed op :: new, ?_, fun _ => rfl, hall⟩, h.unsent, nofun, nofun⟩
  rw [Ledger.failed_log, hlog]
  rfl

theorem refused (h : Tracked l op x m) (w : Write) :
    Tracked l op { x.send w with failed := true } (m.failed op) := by
  obtain ⟨new, hlog, _, hall⟩ := h.new
  refine ⟨⟨.failed op :: new, ?_, fun _ => rfl, hall⟩, nofun, nofun, nofun⟩
  rw [Ledger.failed_log, hlog]
  rfl

/-- What an operation that activates a version may write. -/
theorem allowedFor {w : Write} (hop : op.Activates) (hallow : Allowed op x (.write w)) :
    ∃ goal isRollback, op.goal x.toView = some goal.1 ∧ AllowedFor x goal isRollback w := by
  cases op with
  | promote version canaryPercent _ _ => exact ⟨_, _, rfl, hallow⟩
  | validate _ _ _ => exact hop.elim
  | rollback _ _ =>
    obtain ⟨goal, htarget, hallow⟩ := hallow
    exact ⟨goal, _, congrArg (Option.map Prod.fst) htarget, hallow⟩

theorem served (h : Tracked l op x m) (hop : op.Activates) {w : Write}
    (hallow : Allowed op x (.write w)) : Tracked l op (x.send w) (m.wrote op w) := by
  obtain ⟨new, hlog, hfailed, _⟩ := h.new
  obtain ⟨goal, isRollback, hgoal, hw⟩ := allowedFor hop hallow
  refine ⟨⟨.wrote op m.store.active w :: new, ?_, fun hf => ?_, fun h => (by cases h)⟩,
    fun h => (by cases h), fun hf => ?_, fun hf => ?_⟩
  · rw [Ledger.wrote_log, hlog]
    rfl
  · rw [List.any_cons, hfailed hf, Bool.or_true]
  · have hact := h.active hf
    cases w with
    | setActive version =>
      obtain ⟨-, rfl, -⟩ := hw
      simp only [Progress.send, Write.isActivation, Bool.or_true, if_true]
      exact hgoal.symm
    | delActive => exact hw.elim
    | hset record => simpa [Progress.send, Write.isActivation] using hact
    | lpush entry => simpa [Progress.send, Write.isActivation] using hact
    | ltrim stop => simpa [Progress.send, Write.isActivation] using hact
  · have hroll := h.rollout hf
    cases w with
    | lpush entry =>
      obtain ⟨-, -, -, hversion, -, haction⟩ := hw
      simp only [Progress.send, Write.isRecording, Bool.or_true, if_true]
      refine ⟨entry, m.store.history, rfl, ?_, ?_⟩
      · rcases haction with haction | ⟨-, haction⟩ <;>
        · rw [haction]
          intro h
          cases h
      · rw [hversion]
        exact hgoal
    | ltrim stop =>
      obtain ⟨hrec, rfl⟩ := hw
      rw [hrec, if_pos rfl] at hroll
      obtain ⟨entry, rest, hhistory, hrest⟩ := hroll
      simp only [Progress.send, hrec, Bool.true_or, if_true]
      refine ⟨entry, rest.take 199, ?_, hrest⟩
      show m.store.history.take 200 = _
      rw [hhistory]
      rfl
    | hset record => simpa [Progress.send, Write.isRecording] using hroll
    | setActive version => simpa [Progress.send, Write.isRecording] using hroll
    | delActive => exact hw.elim

end Tracked

/-- A call that activates a version, from its start to its end. -/
theorem tracked_call (cfg : Config) (l : Ledger) {c : Call} (hop : c.op.Activates) :
    ∃ x, Settled c.op (l.call cfg c).1 x ∧ Tracked l c.op x (l.call cfg c).2 :=
  call_induction cfg Tracked.init (fun h hs _ => h.read hs _) Tracked.fail
    (fun h hallow => h.served hop hallow) fun h _ => h.refused _

/-- **A call that returns an error leaves the store as it was**, when no write takes
effect in a call in which a command fails. -/
theorem store_of_error {cfg : Config} {l : Ledger} {c : Call} (hop : c.op.Activates)
    (hc : AllOrNothing cfg l c) {e : Text} (he : (l.call cfg c).1 = .error e) :
    (l.call cfg c).2.store = l.store := by
  obtain ⟨x, hsettled, h⟩ := tracked_call cfg l hop
  obtain ⟨new, hlog, hfailed, hall⟩ := h.new
  rw [AllOrNothing, since_append hlog] at hc
  have hend : x.failed = true ∨ x.sent = false := by
    rw [he] at hsettled
    cases hc : c.op with
    | validate _ _ _ =>
      rw [hc] at hop
      exact hop.elim
    | promote _ _ _ _ => simpa [hc, Settled] using hsettled
    | rollback _ _ => simpa [hc, Settled] using hsettled
  rcases hend with hf | hs
  · exact hall (hc (hfailed hf))
  · exact (h.unsent hs).1

/-- A call keeps the law. -/
theorem rolloutLaw_call {cfg : Config} {l : Ledger} {c : Call} (hop : c.op.Activates)
    (hc : AllOrNothing cfg l c) (hl : RolloutLaw l.store) :
    RolloutLaw (l.call cfg c).2.store := by
  cases hres : (l.call cfg c).1 with
  | error e =>
    rw [store_of_error hop hc hres]
    exact hl
  | ok record =>
    obtain ⟨x, hsettled, h⟩ := tracked_call cfg l hop
    have hend : x.failed = false ∧ x.activated = true ∧ x.recorded = true := by
      rw [hres] at hsettled
      cases hc : c.op with
      | validate _ _ _ =>
        rw [hc] at hop
        exact hop.elim
      | promote _ _ _ _ => simpa [hc, Settled] using hsettled
      | rollback _ _ => simpa [hc, Settled] using hsettled
    obtain ⟨hf, hact, hrec⟩ := hend
    have hactive := h.active hf
    have hroll := h.rollout hf
    rw [hact, if_pos rfl] at hactive
    rw [hrec, if_pos rfl] at hroll
    obtain ⟨entry, rest, hhistory, haction, hversion⟩ := hroll
    rw [RolloutLaw, hactive, hversion, hhistory, newestRollout, List.find?_cons_of_pos]
    · rfl
    · simpa using haction

/-! ## Runs -/

/-- A promotion or a rollback in which no write takes effect when a command fails. -/
def ActivatesOrNothing (cfg : Config) (l : Ledger) (c : Call) : Prop :=
  c.op.Activates ∧ AllOrNothing cfg l c

instance (cfg : Config) (l : Ledger) (c : Call) : Decidable (ActivatesOrNothing cfg l c) :=
  inferInstanceAs (Decidable (_ ∧ _))

/-- **In every run of promotions and rollbacks in which no write takes effect in a call
whose commands fail, the active version is that of the newest rollout, and a call that
returns an error changes nothing.** -/
theorem rolloutLaw_of_allOrNothing {cfg : Config} {l m : Ledger} (hl : RolloutLaw l.store)
    (h : (rollouts cfg).Reaches (ActivatesOrNothing cfg) l m) :
    RolloutLaw m.store ∧ ∀ c e, ActivatesOrNothing cfg m c → (m.call cfg c).1 = .error e →
      (m.call cfg c).2.store = m.store := by
  refine ⟨h.invariant (P := fun l => RolloutLaw l.store) hl ?_, ?_⟩
  · intro t c u ht hc hstep
    rw [← Option.some.inj hstep]
    exact rolloutLaw_call hc.1 hc.2 ht
  · intro c e hc he
    exact store_of_error hc.1 hc.2 he

/-- A control plane that knows two versions. -/
def twoVersions : Ledger where
  store :=
    { versions := (∅ : VersionMap).insert "v2".toList { version := "v2".toList, status := .draft }
        |>.insert "v1".toList { version := "v1".toList, status := .draft } }

theorem twoVersions_law : RolloutLaw twoVersions.store := rfl

def promotion (version : Text) (answers : List Answer := []) : Call where
  op := .promote version 100 [] []
  answers := answers

def rollback (answers : List Answer := []) : Call where
  op := .rollback [] []
  answers := answers

/-- The connection is lost at the command behind so many others. -/
def lostAt (n : Nat) : List Answer :=
  List.replicate n default ++ [{ fate := .refused "EOF".toList }]

theorem rolloutLaw_of_allOrNothing_twoVersions :
    ∃ m : Ledger, m.store.active = some "v1".toList ∧ RolloutLaw m.store := by
  have hrun : ((rollouts ⟨false, false⟩).runIf (ActivatesOrNothing ⟨false, false⟩) twoVersions
      [promotion "v1".toList, promotion "v2".toList, promotion "v1".toList (lostAt 1),
        rollback]).any (fun m => decide (m.store.active = some "v1".toList)) = true := by
    decide
  obtain ⟨m, hm, hp⟩ := System.exists_reaches hrun
  exact ⟨m, of_decide_eq_true hp, (rolloutLaw_of_allOrNothing twoVersions_law hm).1⟩

/-- The history entry of the second promotion is lost: the call returns an error, but its
version is active. -/
theorem lostEntry_breaks :
    ¬ ∀ (cfg : Config) (l m : Ledger), RolloutLaw l.store →
      (rollouts cfg).Reaches (fun _ c => c.op.Activates) l m →
        RolloutLaw m.store ∧ ∀ c e, c.op.Activates → (m.call cfg c).1 = .error e →
          (m.call cfg c).2.store = m.store := by
  intro h
  have hrun : ((rollouts ⟨false, false⟩).runIf (fun _ c => c.op.Activates) twoVersions
      [promotion "v1".toList, promotion "v2".toList (lostAt 7)]).any
      (fun m => decide (¬ RolloutLaw m.store)) = true := by
    decide
  obtain ⟨m, hm, hp⟩ := System.exists_reaches hrun
  exact of_decide_eq_true hp (h _ _ _ twoVersions_law hm).1

end ValidEmailVerifier.Policy
