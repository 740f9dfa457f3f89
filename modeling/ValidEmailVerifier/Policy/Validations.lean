/-
# `Policy.Validations` — validations beside promotions and rollbacks

Any number of calls are under way at once, and their commands reach the store one at a
time.  A validation reads the active key, asks the application for the payload, and then
saves the version map and the active key as it has read it.

As long as what a validation has read is still what the promotions and the rollbacks have
left when it writes, no validation changes which version is active
(`lastActivated_of_readsCurrent`).  A promotion in between is undone by the validation
(`promotion_undone`).
-/
import ValidEmailVerifier.Policy.History

namespace ValidEmailVerifier.Policy

open Transition Programs Worker

/-! ## The law -/

/-- The active key after a write. -/
def Write.activeAfter (old : Option Text) : Write → Option Text
  | .setActive version => some version
  | .delActive => none
  | _ => old

/-- The active key as the promotions and the rollbacks alone have set it. -/
def lastActivated : List Event → Option Text
  | [] => none
  | .wrote op _ w :: log =>
      if op.Activates then w.activeAfter (lastActivated log) else lastActivated log
  | .failed _ :: log => lastActivated log

/-- The write is one of a validation and changes the active key. -/
def Event.Disturbs : Event → Prop
  | .wrote op old w => ¬ op.Activates ∧ w.activeAfter old ≠ old
  | .failed _ => False

/-! ## Calls under way -/

/-- The calls of the control plane, interleaved. -/
abbrev Calls := Pool Ledger Operation Progress Command Reply (Except Text SMTPPolicyVersionRecord)

/-- No call has been made. -/
def noCalls : Calls := ⟨{}, []⟩

def concurrent (cfg : Config) : System Calls (Move Operation Answer) :=
  Pool.interleaved (fun op => (op.program cfg).run) {} exec Progress.next

/-- A validation is about to write the active key. -/
def Operation.Rewrites : Operation → Command → Bool
  | .validate .., .write w => w.isActivation
  | _, _ => false

def Fate.takesEffect : Fate → Bool
  | .refused _ => false
  | _ => true

/-- A validation writes the active key only as long as no promotion or rollback has left
another version active than the one it has read. -/
def ReadsCurrent (p : Calls) : Move Operation Answer → Prop
  | .start _ => True
  | .step i answer => ∀ turn ∈ p.pending i,
      turn.1.Rewrites turn.2.2 = true → answer.fate.takesEffect = true →
        turn.2.1.active = (lastActivated p.store.log).getD []

instance (p : Calls) : DecidablePred (ReadsCurrent p)
  | .start _ => isTrue trivial
  | .step i answer => inferInstanceAs (Decidable (∀ turn ∈ p.pending i,
      turn.1.Rewrites turn.2.2 = true → answer.fate.takesEffect = true →
        turn.2.1.active = (lastActivated p.store.log).getD []))

/-! ## A command -/

/-- The active key is what the promotions and the rollbacks have made it. -/
structure Undisturbed (m : Ledger) : Prop where
  last : m.store.active = lastActivated m.log
  ne_nil : m.store.active ≠ some []
  kept : ∀ ev ∈ m.log, ¬ ev.Disturbs

theorem apply_active (s : PolicyStore) (w : Write) :
    (s.apply w).active = w.activeAfter s.active := by
  cases w <;> rfl

namespace Undisturbed

variable {m : Ledger} {op : Operation} {x : Progress} {w : Write}

theorem empty : Undisturbed {} where
  last := rfl
  ne_nil h := nomatch h
  kept _ hev := absurd hev List.not_mem_nil

theorem failed (h : Undisturbed m) : Undisturbed (m.failed op) where
  last := h.last
  ne_nil := h.ne_nil
  kept := by
    intro ev hev
    rcases List.mem_cons.mp hev with rfl | hev
    · exact id
    · exact h.kept ev hev

/-- A write of a promotion or a rollback. -/
theorem activated (h : Undisturbed m) (hop : op.Activates) (hallow : Allowed op x (.write w)) :
    Undisturbed (m.wrote op w) where
  last := by
    show (m.store.apply w).active = if op.Activates then _ else _
    rw [if_pos hop, apply_active, h.last]
  ne_nil := by
    obtain ⟨goal, _, -, hw⟩ := Tracked.allowedFor hop hallow
    rw [Ledger.wrote_store, apply_active]
    cases w with
    | setActive version =>
      obtain ⟨-, rfl, hmem⟩ := hw
      intro hnil
      exact (mem_loadedRecords.mp hmem).1 (Option.some.inj hnil)
    | delActive => exact hw.elim
    | hset record => exact h.ne_nil
    | lpush entry => exact h.ne_nil
    | ltrim stop => exact h.ne_nil
  kept := by
    intro ev hev
    rcases List.mem_cons.mp hev with rfl | hev
    · exact fun hev => hev.1 hop
    · exact h.kept ev hev

/-- A write that leaves the active key as it is. -/
theorem passive (h : Undisturbed m) (hop : ¬ op.Activates)
    (hw : w.activeAfter m.store.active = m.store.active) : Undisturbed (m.wrote op w) where
  last := by
    show (m.store.apply w).active = if op.Activates then _ else _
    rw [if_neg hop, apply_active, hw, h.last]
  ne_nil := by
    rw [Ledger.wrote_store, apply_active, hw]
    exact h.ne_nil
  kept := by
    intro ev hev
    rcases List.mem_cons.mp hev with rfl | hev
    · exact fun hev => hev.2 hw
    · exact h.kept ev hev

/-- A write of a validation that has read what is there. -/
theorem validated (h : Undisturbed m) {version triggeredBy notes : Text}
    (hallow : Allowed (.validate version triggeredBy notes) x (.write w))
    (hcurrent : w.isActivation = true → x.active = (lastActivated m.log).getD []) :
    Undisturbed (m.wrote (.validate version triggeredBy notes) w) := by
  refine h.passive id ?_
  rw [← h.last] at hcurrent
  cases w with
  | setActive active =>
    obtain ⟨rfl, hne⟩ := hallow
    rw [hcurrent rfl] at hne ⊢
    cases hactive : m.store.active with
    | none => exact absurd (by rw [hactive]; rfl) hne
    | some active => rfl
  | delActive =>
    have hnil : x.active = [] := hallow
    rw [hcurrent rfl] at hnil
    cases hactive : m.store.active with
    | none => rfl
    | some active =>
      rw [hactive] at hnil
      exact absurd (hactive.trans (congrArg some hnil)) h.ne_nil
  | hset record => rfl
  | lpush entry => rfl
  | ltrim stop => rfl

theorem write (h : Undisturbed m) (hallow : Allowed op x (.write w))
    (hcurrent : op.Rewrites (.write w) = true → x.active = (lastActivated m.log).getD []) :
    Undisturbed (m.wrote op w) := by
  cases op with
  | promote version canaryPercent triggeredBy notes => exact h.activated trivial hallow
  | validate version triggeredBy notes => exact h.validated hallow hcurrent
  | rollback triggeredBy notes => exact h.activated trivial hallow

/-- The command of a call, whatever becomes of it. -/
theorem exec (h : Undisturbed m) {c : Command} {answer : Answer} (hallow : Allowed op x c)
    (hcurrent : op.Rewrites c = true → answer.fate.takesEffect = true →
      x.active = (lastActivated m.log).getD []) : Undisturbed (exec op c answer m).2 := by
  obtain ⟨fate, time, verdict⟩ := answer
  cases c with
  | write w =>
    cases fate with
    | served => exact h.write hallow fun hw => hcurrent hw rfl
    | refused e => exact h.failed
    | lost e => exact (h.write hallow fun hw => hcurrent hw rfl).failed
  | hgetall => cases fate <;> first | exact h | exact h.failed
  | getActive => cases fate <;> first | exact h | exact h.failed
  | lrange stop => cases fate <;> first | exact h | exact h.failed
  | now => exact h
  | validateVersion version => exact h

end Undisturbed

/-! ## Runs -/

/-- **Whatever calls are under way, in whatever order their commands are executed: the
active version is the one the last promotion or rollback to write it has set, and no
validation has changed it**, as long as every validation writes back what is current. -/
theorem lastActivated_of_readsCurrent {cfg : Config} {p : Calls}
    (h : (concurrent cfg).Reaches ReadsCurrent noCalls p) :
    p.store.store.active = lastActivated p.store.log ∧ ∀ ev ∈ p.store.log, ¬ ev.Disturbs := by
  have hfollows : ∀ op, Prog.Follows (Allowed op) Progress.next (op.program cfg).run
      (fun _ _ => True) {} := fun op => (follows_program cfg op).mono fun _ _ _ => trivial
  have hinv : Undisturbed p.store := by
    refine Pool.invariant hfollows Undisturbed.empty ?_ h
    intro p i answer op x c hpending hcurrent hallow hm
    exact hm.exec hallow (hcurrent _ hpending)
  exact ⟨hinv.last, hinv.kept⟩

/-- So many commands of call `i`, each served at the same time of day. -/
def served (i n : Nat) : List (Move Operation Answer) := List.replicate n (.step i {})

/-- Two versions are validated and the first is promoted, one call after the other; then a
validation of it and a promotion of the second are started. -/
def opening : List (Move Operation Answer) :=
  [.start (.validate "v1".toList [] [])] ++ served 0 9 ++
  [.start (.validate "v2".toList [] [])] ++ served 1 10 ++
  [.start (.promote "v1".toList 100 [] [])] ++ served 2 9 ++
  [.start (.validate "v1".toList [] []), .start (.promote "v2".toList 100 [] [])]

/-- The promotion is executed before the validation reads the active key. -/
theorem lastActivated_of_readsCurrent_twoVersions :
    ∃ p : Calls, p.store.store.active = some "v2".toList ∧
      lastActivated p.store.log = some "v2".toList := by
  have hrun : ((concurrent ⟨false, true⟩).runIf ReadsCurrent noCalls
      (opening ++ served 3 1 ++ served 4 9 ++ served 3 9)).any
      (fun p => decide (p.store.store.active = some "v2".toList)) = true := by
    decide
  obtain ⟨p, hp, hactive⟩ := System.exists_reaches hrun
  have hactive := of_decide_eq_true hactive
  exact ⟨p, hactive, (lastActivated_of_readsCurrent hp).1.symm.trans hactive⟩

/-- The promotion is executed between what the validation reads and what it writes: the
first version is active again. -/
theorem promotion_undone :
    ¬ ∀ (cfg : Config) (p : Calls), (concurrent cfg).Reaches Always noCalls p →
      p.store.store.active = lastActivated p.store.log ∧
        ∀ ev ∈ p.store.log, ¬ ev.Disturbs := by
  intro h
  have hrun : ((concurrent ⟨false, true⟩).run noCalls
      (opening ++ served 3 2 ++ served 4 9 ++ served 3 8)).any
      (fun p => decide (p.store.store.active ≠ lastActivated p.store.log)) = true := by
    decide
  obtain ⟨p, hp, hbad⟩ := System.exists_reaches_always hrun
  exact of_decide_eq_true hbad (h _ p hp).1

end ValidEmailVerifier.Policy
