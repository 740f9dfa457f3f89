/-
# `Programs` — programs over the commands of a shared store

A program is a result, or a command and, for every reply to it, the rest of the
program.  A command is executed by `exec`: the reply and the next store depend on
the store and on an *answer* of the environment, which says whether the command
succeeds, what time it is, and whatever else the program cannot know beforehand.

Three ways to execute programs:

    run      one program to its end, one answer for each command;
    steady   one program to its end, every command answered the same way;
    Pool     several programs at once, one command at a time, in any order.

`wp p Q s` says that `p` ends in `Q` from the store `s`, whatever the answers are;
`run_of_wp` is its soundness.

`Follows` says that a program obeys a protocol: an automaton that sees the commands
and the replies and says what may be sent next.  It is proved once of a program and
serves both readings: `Follows.run` is the rule for a run to the end, and
`Pool.invariant` the one for interleaved programs.
-/
import Mathlib.Data.List.Basic
import Mathlib.Logic.Basic
import ValidEmailVerifier.Lib.Transition

namespace Programs

/-- A program over the commands `C`, whose replies are `R`. -/
inductive Prog (C : Type) (R : C → Type) (α : Type) where
  | ret (a : α)
  | call (c : C) (k : R c → Prog C R α)

namespace Prog

variable {C : Type} {R : C → Type} {α β γ ε A σ θ : Type}

protected def bind : Prog C R α → (α → Prog C R β) → Prog C R β
  | ret a, f => f a
  | call c k, f => call c fun r => (k r).bind f

instance : Monad (Prog C R) where
  pure := ret
  bind := Prog.bind

/-- One command. -/
def command (c : C) : Prog C R (R c) := call c ret

@[simp] theorem pure_eq (a : α) : (pure a : Prog C R α) = ret a := rfl

@[simp] theorem ret_bind (a : α) (f : α → Prog C R β) : (ret a >>= f) = f a := rfl

@[simp] theorem call_bind (c : C) (k : R c → Prog C R α) (f : α → Prog C R β) :
    (call c k >>= f) = call c fun r => k r >>= f := rfl

@[simp] theorem command_bind (c : C) (f : R c → Prog C R β) :
    (command c >>= f) = call c f := rfl

/-! ## Running one program to its end -/

section Run
variable (exec : (c : C) → A → σ → R c × σ)

/-- One answer for each command; when they run out, the default answer. -/
def run [Inhabited A] : Prog C R α → List A → σ → α × σ
  | ret a, _, s => (a, s)
  | call c k, answers, s =>
      let (reply, t) := exec c answers.headI s
      run (k reply) answers.tail t

/-- From the store `s` the program ends in `Q`, whatever the answers are. -/
def wp : Prog C R α → (α → σ → Prop) → σ → Prop
  | ret a, Q, s => Q a s
  | call c k, Q, s => ∀ answer, wp (k (exec c answer s).1) Q (exec c answer s).2

variable {exec}

theorem run_of_wp [Inhabited A] {p : Prog C R α} {Q : α → σ → Prop} {s : σ} (h : wp exec p Q s)
    (answers : List A) : Q (p.run exec answers s).1 (p.run exec answers s).2 := by
  induction p generalizing answers s with
  | ret a => exact h
  | call c k ih => exact ih _ (h _) _

end Run

section Steady
variable (exec : (c : C) → σ → R c × σ)

/-- One program to its end, in surroundings that answer every command the same way. -/
def steady : Prog C R α → σ → α × σ
  | ret a, s => (a, s)
  | call c k, s => steady (k (exec c s).1) (exec c s).2

variable {exec}

theorem steady_bind (p : Prog C R α) (f : α → Prog C R β) (s : σ) :
    (p >>= f).steady exec s = (f (p.steady exec s).1).steady exec (p.steady exec s).2 := by
  induction p generalizing s with
  | ret a => rfl
  | call c k ih =>
    show (k (exec c s).1 >>= f).steady exec (exec c s).2 = _
    rw [ih]
    rfl

end Steady

/-! ## Protocols -/

section Protocol
variable (allowed : θ → C → Prop) (next : θ → (c : C) → R c → θ)

/-- Every command of the program is one the protocol allows, whatever the replies
are; a result is given in a state of the protocol that satisfies `Q`. -/
def Follows : Prog C R α → (α → θ → Prop) → θ → Prop
  | ret a, Q, x => Q a x
  | call c k, Q, x => allowed x c ∧ ∀ reply, Follows (k reply) Q (next x c reply)

variable {allowed next}

@[simp] theorem follows_ret {a : α} {Q : α → θ → Prop} {x : θ} :
    Follows allowed next (ret a : Prog C R α) Q x ↔ Q a x := Iff.rfl

@[simp] theorem follows_call {c : C} {k : R c → Prog C R α} {Q : α → θ → Prop} {x : θ} :
    Follows allowed next (call c k) Q x ↔
      allowed x c ∧ ∀ reply, Follows allowed next (k reply) Q (next x c reply) := Iff.rfl

theorem follows_bind {p : Prog C R α} {f : α → Prog C R β} {Q : β → θ → Prop} {x : θ} :
    Follows allowed next (p >>= f) Q x ↔
      Follows allowed next p (fun a y => Follows allowed next (f a) Q y) x := by
  induction p generalizing x with
  | ret a => rfl
  | call c k ih =>
    rw [call_bind, follows_call, follows_call]
    exact and_congr_right fun _ => forall_congr' fun reply => ih _

theorem Follows.mono {p : Prog C R α} {Q Q' : α → θ → Prop} {x : θ}
    (h : Follows allowed next p Q x) (hQ : ∀ a y, Q a y → Q' a y) :
    Follows allowed next p Q' x := by
  induction p generalizing x with
  | ret a => exact hQ _ _ h
  | call c k ih => exact ⟨h.1, fun reply => ih reply (h.2 reply)⟩

/-- Programs that return an error: what follows an error is left out. -/
theorem Follows.exceptBind {p : ExceptT ε (Prog C R) α} {f : α → ExceptT ε (Prog C R) β}
    {P : Except ε α → θ → Prop} {Q : Except ε β → θ → Prop} {x : θ}
    (h : Follows allowed next p.run P x)
    (hok : ∀ a y, P (.ok a) y → Follows allowed next (f a).run Q y)
    (herror : ∀ e y, P (.error e) y → Q (.error e) y) :
    Follows allowed next (p >>= f).run Q x := by
  have hrun : (p >>= f).run = p.run >>= ExceptT.bindCont f := rfl
  rw [hrun, follows_bind]
  refine h.mono ?_
  rintro (e | a) y hy
  · exact herror e y hy
  · exact hok a y hy

/-- The runs of a program that follows a protocol keep what every allowed command
keeps, together with the state the protocol is in. -/
theorem Follows.run [Inhabited A] {exec : (c : C) → A → σ → R c × σ} {J : θ → σ → Prop}
    (hstep : ∀ {x c s}, allowed x c → J x s → ∀ answer,
      J (next x c (exec c answer s).1) (exec c answer s).2)
    {p : Prog C R α} {Q : α → θ → Prop} {x : θ} {s : σ} (h : Follows allowed next p Q x)
    (hs : J x s) (answers : List A) :
    ∃ y, Q (p.run exec answers s).1 y ∧ J y (p.run exec answers s).2 := by
  induction p generalizing x s answers with
  | ret a => exact ⟨x, h, hs⟩
  | call c k ih => exact ih _ (h.2 _) (hstep h.1 hs _) _

end Protocol

end Prog

/-! ## Interleaving -/

/-- A program under way: what it is, the state its protocol is in, and what is left. -/
structure Thread (κ θ C : Type) (R : C → Type) (α : Type) where
  kind : κ
  seen : θ
  rest : Prog C R α

/-- A store and the programs that share it. -/
structure Pool (σ κ θ C : Type) (R : C → Type) (α : Type) where
  store : σ
  threads : List (Thread κ θ C R α)

/-- A program is started, or the next command of a program under way is executed. -/
inductive Move (κ A : Type) where
  | start (k : κ)
  | step (i : Nat) (answer : A)

namespace Pool

open Prog Transition

variable {C : Type} {R : C → Type} {α A σ θ κ : Type}
variable (program : κ → Prog C R α) (init : θ) (exec : κ → (c : C) → A → σ → R c × σ)
  (next : θ → (c : C) → R c → θ)

def start (p : Pool σ κ θ C R α) (k : κ) : Pool σ κ θ C R α :=
  { p with threads := p.threads ++ [⟨k, init, program k⟩] }

/-- The threads after the reply to the next command of thread `i`. -/
def resume (p : Pool σ κ θ C R α) (i : Nat) (t : Thread κ θ C R α) (c : C)
    (rest : R c → Prog C R α) (reply : R c) (s : σ) : Pool σ κ θ C R α where
  store := s
  threads := p.threads.set i { t with seen := next t.seen c reply, rest := rest reply }

def step (p : Pool σ κ θ C R α) (i : Nat) (answer : A) : Option (Pool σ κ θ C R α) :=
  match p.threads[i]? with
  | some t =>
      match t.rest with
      | .call c rest =>
          let (reply, s) := exec t.kind c answer p.store
          some (p.resume next i t c rest reply s)
      | .ret _ => none
  | none => none

/-- Programs are started at any time, and their commands executed in any order. -/
def interleaved : System (Pool σ κ θ C R α) (Move κ A) where
  step p
    | .start k => some (p.start program init k)
    | .step i answer => p.step exec next i answer

/-- The thread that is to move, with its next command. -/
def pending (p : Pool σ κ θ C R α) (i : Nat) : Option (κ × θ × C) :=
  p.threads[i]?.bind fun t =>
    match t.rest with
    | .call c _ => some (t.kind, t.seen, c)
    | .ret _ => none

/-- What a program that has ended has returned. -/
def result (p : Pool σ κ θ C R α) (i : Nat) : Option (κ × α) :=
  p.threads[i]?.bind fun t =>
    match t.rest with
    | .ret a => some (t.kind, a)
    | .call .. => none

variable {program init exec next}

/-- A step executes the next command of its thread. -/
theorem step_cases {p q : Pool σ κ θ C R α} {i : Nat} {answer : A}
    (h : p.step exec next i answer = some q) :
    ∃ t c rest, p.threads[i]? = some t ∧ t.rest = .call c rest ∧
      q = p.resume next i t c rest (exec t.kind c answer p.store).1
        (exec t.kind c answer p.store).2 := by
  unfold step at h
  split at h
  · next t ht =>
    split at h
    · next c rest hrest => exact ⟨t, c, rest, ht, hrest, (Option.some.inj h).symm⟩
    · exact nomatch h
  · exact nomatch h

theorem pending_of_rest {p : Pool σ κ θ C R α} {i : Nat} {t : Thread κ θ C R α} {c : C}
    {rest : R c → Prog C R α} (ht : p.threads[i]? = some t) (hrest : t.rest = .call c rest) :
    p.pending i = some (t.kind, t.seen, c) := by
  simp [pending, ht, hrest]

theorem exists_of_result {p : Pool σ κ θ C R α} {i : Nat} {k : κ} {a : α}
    (h : p.result i = some (k, a)) :
    ∃ t, p.threads[i]? = some t ∧ t.rest = .ret a ∧ t.kind = k := by
  obtain ⟨t, ht, hend⟩ := Option.bind_eq_some_iff.mp h
  cases hrest : t.rest with
  | call c rest => rw [hrest] at hend; exact nomatch hend
  | ret b =>
    rw [hrest] at hend
    obtain ⟨rfl, rfl⟩ := hend
    exact ⟨t, ht, hrest, rfl⟩

/-! ### The threads after a move -/

theorem start_threads (p : Pool σ κ θ C R α) (k : κ) :
    (p.start program init k).threads = p.threads ++ [⟨k, init, program k⟩] := rfl

/-- The thread that was started. -/
theorem start_getElem?_length (p : Pool σ κ θ C R α) (k : κ) :
    (p.start program init k).threads[p.threads.length]? = some ⟨k, init, program k⟩ := by
  rw [start_threads, List.getElem?_append_right (Nat.le_refl _), Nat.sub_self]
  rfl

/-- The threads there were. -/
theorem start_getElem?_of_lt {p : Pool σ κ θ C R α} {k : κ} {j : Nat}
    (hj : j < p.threads.length) :
    (p.start program init k).threads[j]? = p.threads[j]? :=
  List.getElem?_append_left hj

section Resume
variable {p : Pool σ κ θ C R α} {i : Nat} {t : Thread κ θ C R α} {c : C}
  {rest : R c → Prog C R α} {reply : R c} {s : σ}

theorem resume_getElem?_self (ht : p.threads[i]? = some t) :
    (p.resume next i t c rest reply s).threads[i]? =
      some { t with seen := next t.seen c reply, rest := rest reply } :=
  List.getElem?_set_self (List.getElem?_eq_some_iff.mp ht).1

theorem resume_getElem?_of_ne {j : Nat} (h : i ≠ j) :
    (p.resume next i t c rest reply s).threads[j]? = p.threads[j]? :=
  List.getElem?_set_ne h

end Resume

/-- Every program under way follows the protocol of its kind, to a result that `Q`
allows. -/
def Bound (allowed : κ → θ → C → Prop) (next : θ → (c : C) → R c → θ)
    (Q : κ → α → θ → Prop) (p : Pool σ κ θ C R α) : Prop :=
  ∀ t ∈ p.threads, Follows (allowed t.kind) next t.rest (Q t.kind) t.seen

/-- Every program under way follows the protocol of its kind. -/
def Obedient (allowed : κ → θ → C → Prop) (next : θ → (c : C) → R c → θ)
    (p : Pool σ κ θ C R α) : Prop :=
  ∀ t ∈ p.threads, Follows (allowed t.kind) next t.rest (fun _ _ => True) t.seen

section Rule
variable {allowed : κ → θ → C → Prop}

variable {Q : κ → α → θ → Prop}

theorem Bound.start {p : Pool σ κ θ C R α} (h : p.Bound allowed next Q) {k : κ}
    (hk : Follows (allowed k) next (program k) (Q k) init) :
    (p.start program init k).Bound allowed next Q := by
  intro t ht
  rcases List.mem_append.mp ht with ht | ht
  · exact h t ht
  · obtain rfl := List.mem_singleton.mp ht
    exact hk

theorem Bound.resume {p : Pool σ κ θ C R α} (h : p.Bound allowed next Q) {i : Nat}
    {t : Thread κ θ C R α} {c : C} {rest : R c → Prog C R α} (ht : p.threads[i]? = some t)
    (hrest : t.rest = .call c rest) (reply : R c) (s : σ) :
    (p.resume next i t c rest reply s).Bound allowed next Q := by
  have hfollows := h t (List.mem_of_getElem? ht)
  rw [hrest, follows_call] at hfollows
  intro u hu
  rcases List.mem_or_eq_of_mem_set hu with hu | rfl
  · exact h u hu
  · exact hfollows.2 reply

/-- The command of the thread that is to move is one its protocol allows. -/
theorem Bound.head {p : Pool σ κ θ C R α} (h : p.Bound allowed next Q) {i : Nat}
    {t : Thread κ θ C R α} {c : C} {rest : R c → Prog C R α} (ht : p.threads[i]? = some t)
    (hrest : t.rest = .call c rest) : allowed t.kind t.seen c := by
  have hfollows := h t (List.mem_of_getElem? ht)
  rw [hrest, follows_call] at hfollows
  exact hfollows.1

/-- The result of a thread that has ended. -/
theorem Bound.result {p : Pool σ κ θ C R α} (h : p.Bound allowed next Q) {i : Nat}
    {t : Thread κ θ C R α} {a : α} (ht : p.threads[i]? = some t) (hrest : t.rest = .ret a) :
    Q t.kind a t.seen := by
  have hfollows := h t (List.mem_of_getElem? ht)
  rw [hrest, follows_ret] at hfollows
  exact hfollows

theorem Obedient.start {p : Pool σ κ θ C R α} (h : p.Obedient allowed next) {k : κ}
    (hk : Follows (allowed k) next (program k) (fun _ _ => True) init) :
    (p.start program init k).Obedient allowed next :=
  Bound.start (Q := fun _ _ _ => True) h hk

theorem Obedient.resume {p : Pool σ κ θ C R α} (h : p.Obedient allowed next) {i : Nat}
    {t : Thread κ θ C R α} {c : C} {rest : R c → Prog C R α} (ht : p.threads[i]? = some t)
    (hrest : t.rest = .call c rest) (reply : R c) (s : σ) :
    (p.resume next i t c rest reply s).Obedient allowed next :=
  Bound.resume (Q := fun _ _ _ => True) h ht hrest reply s

/-- The command of the thread that is to move is one its protocol allows. -/
theorem Obedient.head {p : Pool σ κ θ C R α} (h : p.Obedient allowed next) {i : Nat}
    {t : Thread κ θ C R α} {c : C} {rest : R c → Prog C R α} (ht : p.threads[i]? = some t)
    (hrest : t.rest = .call c rest) : allowed t.kind t.seen c :=
  Bound.head (Q := fun _ _ _ => True) h ht hrest

/-- The rule for interleaved programs: what every allowed command keeps of the store,
when it is executed as the condition of the run says, holds throughout. -/
theorem invariant {Cond : Pool σ κ θ C R α → Move κ A → Prop} {I : σ → Prop} {s : σ}
    {p : Pool σ κ θ C R α}
    (hprogram : ∀ k, Follows (allowed k) next (program k) (fun _ _ => True) init)
    (hinit : I s)
    (hstep : ∀ {p : Pool σ κ θ C R α} {i answer k x c}, p.pending i = some (k, x, c) →
      Cond p (.step i answer) → allowed k x c → I p.store → I (exec k c answer p.store).2)
    (h : (interleaved program init exec next).Reaches Cond ⟨s, []⟩ p) : I p.store := by
  have hall : p.Obedient allowed next ∧ I p.store := by
    refine h.invariant (P := fun p => p.Obedient allowed next ∧ I p.store) ⟨nofun, hinit⟩ ?_
    rintro p (k | ⟨i, answer⟩) q ⟨hobey, hI⟩ hcond hmove
    · rw [← Option.some.inj hmove]
      exact ⟨hobey.start (hprogram k), hI⟩
    · obtain ⟨t, c, rest, ht, hrest, rfl⟩ := step_cases hmove
      exact ⟨hobey.resume ht hrest _ _,
        hstep (pending_of_rest ht hrest) hcond (hobey.head ht hrest) hI⟩
  exact hall.2

/-- The rule for a law about the threads too: it survives the start of a program and every
command that is allowed and executed as the condition of the run says. -/
theorem Bound.induction {Cond : Pool σ κ θ C R α → Move κ A → Prop}
    {J : Pool σ κ θ C R α → Prop} {p q : Pool σ κ θ C R α}
    (hprogram : ∀ k, Follows (allowed k) next (program k) (Q k) init)
    (hbound : p.Bound allowed next Q) (hinit : J p)
    (hstart : ∀ p k, J p → J (p.start program init k))
    (hstep : ∀ p i answer t c rest, p.Bound allowed next Q → p.threads[i]? = some t →
      t.rest = .call c rest → Cond p (.step i answer) → J p →
      J (p.resume next i t c rest (exec t.kind c answer p.store).1
        (exec t.kind c answer p.store).2))
    (h : (interleaved program init exec next).Reaches Cond p q) :
    q.Bound allowed next Q ∧ J q := by
  refine h.invariant (P := fun p => p.Bound allowed next Q ∧ J p) ⟨hbound, hinit⟩ ?_
  rintro p (k | ⟨i, answer⟩) q ⟨hb, hJ⟩ hcond hmove
  · rw [← Option.some.inj hmove]
    exact ⟨hb.start (hprogram k), hstart p k hJ⟩
  · obtain ⟨t, c, rest, ht, hrest, rfl⟩ := step_cases hmove
    exact ⟨hb.resume ht hrest _ _, hstep p i answer t c rest hb ht hrest hcond hJ⟩

theorem Bound.of_reaches {Cond : Pool σ κ θ C R α → Move κ A → Prop} {p q : Pool σ κ θ C R α}
    (hprogram : ∀ k, Follows (allowed k) next (program k) (Q k) init)
    (hbound : p.Bound allowed next Q)
    (h : (interleaved program init exec next).Reaches Cond p q) : q.Bound allowed next Q :=
  (Bound.induction hprogram hbound (J := fun _ => True) trivial (fun _ _ _ => trivial)
    (fun _ _ _ _ _ _ _ _ _ _ _ => trivial) h).1

/-- The rule for the programs that are started from `p` on, when `S` holds of the store
throughout: what every command keeps of a thread, holds of each of them. -/
theorem Bound.later {Cond : Pool σ κ θ C R α → Move κ A → Prop}
    {T : Thread κ θ C R α → Prop} {S : σ → Prop} {p q : Pool σ κ θ C R α}
    (hprogram : ∀ k, Follows (allowed k) next (program k) (Q k) init)
    (hbound : p.Bound allowed next Q) (hinit : ∀ k, T ⟨k, init, program k⟩)
    (hstep : ∀ {p i answer t c} {rest : R c → Prog C R α}, p.pending i = some (t.kind, t.seen, c) →
      Cond p (.step i answer) → allowed t.kind t.seen c → S p.store → T t →
      T { t with
        seen := next t.seen c (exec t.kind c answer p.store).1
        rest := rest (exec t.kind c answer p.store).1 })
    (hstore : ∀ r, (interleaved program init exec next).Reaches Cond p r → S r.store)
    (h : (interleaved program init exec next).Reaches Cond p q) {i : Nat}
    {t : Thread κ θ C R α} (hi : p.threads.length ≤ i) (ht : q.threads[i]? = some t) : T t := by
  have hall : (interleaved program init exec next).Reaches Cond p q ∧
      ∀ i t, p.threads.length ≤ i → q.threads[i]? = some t → T t := by
    refine h.invariant (P := fun r => (interleaved program init exec next).Reaches Cond p r ∧
      ∀ i t, p.threads.length ≤ i → r.threads[i]? = some t → T t)
      ⟨.refl, fun i t hi ht => ?_⟩ ?_
    · exact absurd (List.getElem?_eq_some_iff.mp ht).1 (Nat.not_lt.mpr hi)
    · rintro r (k | ⟨j, answer⟩) r' ⟨hr, hall⟩ hcond hmove
      · refine ⟨hr.tail hcond hmove, fun i t hi ht => ?_⟩
        rw [← Option.some.inj hmove] at ht
        by_cases hlt : i < r.threads.length
        · exact hall i t hi ((start_getElem?_of_lt hlt).symm.trans ht)
        · have hmem : t ∈ [(⟨k, init, program k⟩ : Thread κ θ C R α)] := by
            rw [start_threads, List.getElem?_append_right (Nat.le_of_not_lt hlt)] at ht
            exact List.mem_of_getElem? ht
          obtain rfl := List.mem_singleton.mp hmem
          exact hinit k
      · refine ⟨hr.tail hcond hmove, fun i t hi ht => ?_⟩
        obtain ⟨u, c, rest, hu, hrest, rfl⟩ := step_cases hmove
        by_cases hij : j = i
        · subst hij
          rw [resume_getElem?_self hu] at ht
          obtain rfl := Option.some.inj ht
          exact hstep (pending_of_rest hu hrest) hcond
            ((Bound.of_reaches hprogram hbound hr).head hu hrest) (hstore r hr) (hall j u hi hu)
        · exact hall i t hi ((resume_getElem?_of_ne hij).symm.trans ht)
  exact hall.2 i t hi ht

/-- A program that has ended stays as it is. -/
theorem getElem?_of_ended {Cond : Pool σ κ θ C R α → Move κ A → Prop}
    {p q : Pool σ κ θ C R α} (h : (interleaved program init exec next).Reaches Cond p q)
    {i : Nat} {t : Thread κ θ C R α} {a : α} (ht : p.threads[i]? = some t)
    (hrest : t.rest = .ret a) : q.threads[i]? = some t := by
  refine h.invariant (P := fun q => q.threads[i]? = some t) ht ?_
  rintro q (k | ⟨j, answer⟩) r hq - hmove
  · rw [← Option.some.inj hmove, start_getElem?_of_lt (List.getElem?_eq_some_iff.mp hq).1]
    exact hq
  · obtain ⟨u, c, rest, hu, hcall, rfl⟩ := step_cases hmove
    rw [resume_getElem?_of_ne, hq]
    rintro rfl
    obtain rfl := Option.some.inj (hu.symm.trans hq)
    exact nomatch hcall.symm.trans hrest

end Rule

end Pool

end Programs
