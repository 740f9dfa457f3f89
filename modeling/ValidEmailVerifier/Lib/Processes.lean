/-
# `Processes` — straight-line programs interleaved over one store

A process is the list of instructions it has still to execute.  Executing an
instruction changes the store and says how the process goes on:

    go code      run `code`, then the rest of the process
    raise        an exception: run the handler of the process instead

so a branch or a loop of the source is an instruction that expands into the
code of the branch taken.  An instruction may be blocked (`none`), which is how
a row lock shows.  A finished process stays in the table with no code, so a
process keeps its number.

`Outline` is the proof method: an invariant of the store, and for every process
an assertion about the store that its remaining code makes true.  An execution
step has to re-establish the assertion of the process that moved and must not
interfere with those of the others; `Outline.exec` and `Outline.spawn` are the
two rules.

`Conf.total` sums what the processes have in hand, for laws about what the store
and the processes hold together; `total_setCode` and `total_spawn` say how a
step changes the sum.
-/
import Mathlib.Algebra.Order.BigOperators.Group.List
import Mathlib.Algebra.Order.Group.Nat
import Mathlib.Data.List.Basic

namespace Processes

/-- How a process goes on after an instruction. -/
inductive Next (ι : Type) where
  | go (code : List ι)
  | raise
  deriving DecidableEq, Repr

/-- The remaining code of a process whose instruction returned. -/
def Next.resume {ι : Type} (handler : List ι) : Next ι → List ι → List ι
  | .go code, rest => code ++ rest
  | .raise, _ => handler

@[simp] theorem Next.resume_go {ι : Type} (handler code rest : List ι) :
    (Next.go code).resume handler rest = code ++ rest := rfl

@[simp] theorem Next.resume_raise {ι : Type} (handler rest : List ι) :
    Next.raise.resume handler rest = handler := rfl

/-- A process: what it is, and the instructions it has still to execute. -/
structure Proc (κ ι : Type) where
  kind : κ
  code : List ι
  deriving DecidableEq, Repr

/-- A store and the processes that share it. -/
structure Conf (σ κ ι : Type) where
  store : σ
  procs : List (Proc κ ι)
  deriving DecidableEq, Repr

namespace Conf

variable {σ κ ι : Type}

/-- Start a process. -/
def spawn (c : Conf σ κ ι) (k : κ) (code : List ι) : Conf σ κ ι :=
  { c with procs := c.procs ++ [⟨k, code⟩] }

/-- Replace the remaining code of process `p`. -/
def setCode (c : Conf σ κ ι) (p : Nat) (code : List ι) : Conf σ κ ι :=
  { c with procs := c.procs.modify p (fun q => { q with code := code }) }

/-- Execute the next instruction of process `p`.  `handler k code` is what a
process of kind `k` runs after an exception in `code`. -/
def execAt (exec : Nat → ι → σ → Option (σ × Next ι)) (handler : κ → List ι → List ι)
    (c : Conf σ κ ι) (p : Nat) : Option (Conf σ κ ι) :=
  match c.procs[p]? with
  | some ⟨k, i :: rest⟩ =>
      match exec p i c.store with
      | some (s', n) =>
          some ({ c with store := s' }.setCode p (n.resume (handler k (i :: rest)) rest))
      | none => none
  | _ => none

/-- Process `p` is of kind `k` and has `code` left. -/
def At (c : Conf σ κ ι) (p : Nat) (k : κ) (code : List ι) : Prop :=
  c.procs[p]? = some ⟨k, code⟩

theorem execAt_cases {exec : Nat → ι → σ → Option (σ × Next ι)}
    {handler : κ → List ι → List ι} {c c' : Conf σ κ ι} {p : Nat}
    (h : c.execAt exec handler p = some c') :
    ∃ k i rest s' n, c.At p k (i :: rest) ∧ exec p i c.store = some (s', n) ∧
      c' = { c with store := s' }.setCode p (n.resume (handler k (i :: rest)) rest) := by
  unfold execAt at h
  split at h
  next k i rest hp =>
    split at h
    next s' n he =>
      simp only [Option.some.injEq] at h
      exact ⟨k, i, rest, s', n, hp, he, h.symm⟩
    next => exact nomatch h
  next => exact nomatch h

@[simp] theorem spawn_store (c : Conf σ κ ι) (k : κ) (code : List ι) :
    (c.spawn k code).store = c.store := rfl

@[simp] theorem setCode_store (c : Conf σ κ ι) (p : Nat) (code : List ι) :
    (c.setCode p code).store = c.store := rfl

/-- A process after `setCode` is the changed one, or one that was there. -/
theorem at_setCode {c : Conf σ κ ι} {p q : Nat} {code code' : List ι} {k : κ} :
    (c.setCode p code).At q k code' ↔
      (q = p ∧ code' = code ∧ ∃ old, c.At p k old) ∨ (q ≠ p ∧ c.At q k code') := by
  unfold At setCode
  simp only [List.getElem?_modify]
  by_cases hqp : q = p
  · subst hqp
    cases hq : c.procs[q]? with
    | none => simp
    | some pr =>
        obtain ⟨k', old⟩ := pr
        simp only [if_true, Option.map_eq_map, Option.map_some, Option.some.injEq,
          Proc.mk.injEq, true_and, ne_eq, not_true_eq_false, false_and, or_false]
        exact ⟨fun h => ⟨h.2.symm, old, h.1, rfl⟩, fun h => ⟨h.2.choose_spec.1, h.1.symm⟩⟩
  · have hpq : p ≠ q := fun h => hqp h.symm
    simp [hqp, hpq]

theorem at_spawn {c : Conf σ κ ι} {q : Nat} {k k' : κ} {code code' : List ι} :
    (c.spawn k code).At q k' code' ↔
      c.At q k' code' ∨ (q = c.procs.length ∧ k' = k ∧ code' = code) := by
  unfold At spawn
  simp only
  rcases Nat.lt_trichotomy q c.procs.length with hlt | heq | hgt
  · rw [List.getElem?_append_left hlt]
    exact ⟨Or.inl, fun h => h.resolve_right (fun h => by omega)⟩
  · subst heq
    simp only [List.getElem?_concat_length, Option.some.injEq, Proc.mk.injEq,
      List.getElem?_eq_none (Nat.le_refl _), reduceCtorEq, true_and, false_or]
    exact ⟨fun h => ⟨h.1.symm, h.2.symm⟩, fun h => ⟨h.1.symm, h.2.symm⟩⟩
  · have h1 : (c.procs ++ [⟨k, code⟩])[q]? = none :=
      List.getElem?_eq_none (by simp; omega)
    have h2 : c.procs[q]? = none := List.getElem?_eq_none (by omega)
    rw [h1, h2]
    simp only [reduceCtorEq, false_or, false_iff]
    rintro ⟨h, _⟩
    omega

/-- A number names one process. -/
theorem At.unique {c : Conf σ κ ι} {p : Nat} {k k' : κ} {code code' : List ι}
    (h : c.At p k code) (h' : c.At p k' code') : k = k' ∧ code = code' := by
  unfold At at h h'
  rw [h] at h'
  simpa using h'

/-! ## Processes with one instruction left

A process whose instructions expand into at most one instruction never has more than one left:
what it has still to do is an argument of that instruction. -/

/-- No process has more than one instruction left. -/
def OneLeft (c : Conf σ κ ι) : Prop :=
  ∀ p k code, c.At p k code → code.length ≤ 1

/-- No process is under way. -/
theorem not_at_of_idle {c : Conf σ κ ι} (hidle : c.procs = []) {p : Nat} {k : κ}
    {code : List ι} : ¬ c.At p k code := by
  intro h
  rw [At, hidle] at h
  exact nomatch h

theorem oneLeft_of_idle {c : Conf σ κ ι} (hidle : c.procs = []) : c.OneLeft :=
  fun _ _ _ h => absurd h (not_at_of_idle hidle)

theorem OneLeft.spawn {c : Conf σ κ ι} (h : c.OneLeft) (k : κ) {code : List ι}
    (hcode : code.length ≤ 1) : (c.spawn k code).OneLeft := by
  intro q k' code' hq
  rcases at_spawn.mp hq with hq | ⟨-, -, rfl⟩
  · exact h _ _ _ hq
  · exact hcode

theorem OneLeft.setCode {c : Conf σ κ ι} (h : c.OneLeft) (p : Nat) {code : List ι}
    (hcode : code.length ≤ 1) : (c.setCode p code).OneLeft := by
  intro q k code' hq
  rcases at_setCode.mp hq with ⟨-, rfl, -⟩ | ⟨-, hq⟩
  · exact hcode
  · exact h _ _ _ hq

/-- A step of such a process executes the one instruction it has left. -/
theorem OneLeft.execAt_cases {c c' : Conf σ κ ι} {p : Nat}
    {exec : Nat → ι → σ → Option (σ × Next ι)} (hone : c.OneLeft)
    (h : c.execAt exec (fun _ _ => []) p = some c') :
    ∃ k i s' n, c.At p k [i] ∧ exec p i c.store = some (s', n) ∧
      c' = { c with store := s' }.setCode p (n.resume [] []) := by
  obtain ⟨k, i, rest, s', n, hat, hexec, rfl⟩ := Conf.execAt_cases h
  have hrest : rest = [] := List.eq_nil_of_length_eq_zero (by
    have := hone _ _ _ hat
    rw [List.length_cons] at this
    omega)
  subst hrest
  exact ⟨k, i, s', n, hat, hexec, rfl⟩

/-- The next instruction of process `p`. -/
def nextAt (c : Conf σ κ ι) (p : Nat) : Option ι := c.procs[p]?.bind fun q => q.code.head?

theorem nextAt_eq {c : Conf σ κ ι} {p : Nat} {k : κ} {i : ι} {rest : List ι}
    (h : c.At p k (i :: rest)) : c.nextAt p = some i := by
  rw [nextAt, show c.procs[p]? = some ⟨k, i :: rest⟩ from h]
  rfl

/-! ## What the processes hold together -/

section Total
variable {M : Type} [AddCommMonoid M] (w : κ → List ι → M)

/-- The sum of what each process holds. -/
def total (c : Conf σ κ ι) : M := (c.procs.map fun q => w q.kind q.code).sum

variable {w}

@[simp] theorem total_store (c : Conf σ κ ι) (s : σ) :
    total w { c with store := s } = total w c := rfl

theorem total_spawn (c : Conf σ κ ι) (k : κ) (code : List ι) :
    total w (c.spawn k code) = total w c + w k code := by
  simp [total, spawn]

theorem sum_modify (f : Proc κ ι → Proc κ ι) (v : Proc κ ι → M) :
    ∀ {procs : List (Proc κ ι)} {p : Nat} {old : Proc κ ι}, procs[p]? = some old →
      ((procs.modify p f).map v).sum + v old = (procs.map v).sum + v (f old)
  | [], _, _, h => nomatch h
  | q :: procs, 0, old, h => by
      have hq : q = old := by simpa using h
      subst hq
      simp only [List.modify_zero_cons, List.map_cons, List.sum_cons]
      ac_rfl
  | q :: procs, p + 1, old, h => by
      have h' : procs[p]? = some old := by simpa using h
      have ih := sum_modify f v h'
      simp only [List.modify_succ_cons, List.map_cons, List.sum_cons, add_assoc, ih]

/-- Only the process that moves holds something else afterwards. -/
theorem total_setCode {c : Conf σ κ ι} {p : Nat} {k : κ} {old : List ι}
    (h : c.At p k old) (code : List ι) :
    total w (c.setCode p code) + w k old = total w c + w k code :=
  sum_modify _ (fun q => w q.kind q.code) h

end Total

end Conf

/-! ## Proof outlines -/

/-- The store satisfies `I`, and every process's assertion `J` holds of it. -/
structure Outline {σ κ ι : Type} (I : σ → Prop)
    (J : Nat → κ → List ι → σ → Prop) (c : Conf σ κ ι) : Prop where
  store : I c.store
  procs : ∀ {p : Nat} {k : κ} {code : List ι}, c.At p k code → J p k code c.store

namespace Outline

variable {σ κ ι : Type} {I : σ → Prop} {J : Nat → κ → List ι → σ → Prop}
  {c : Conf σ κ ι}

/-- An execution step keeps the outline when it keeps the store's invariant,
establishes the mover's next assertion and leaves the others' alone. -/
theorem exec (h : Outline I J c) {p : Nat} {k : κ} {old code : List ι} {s' : σ}
    (hp : c.At p k old) (hI : I s') (hJ : J p k code s')
    (hfree : ∀ {q : Nat} {k' : κ} {code' : List ι}, q ≠ p → c.At q k' code' →
      J q k' code' c.store → J q k' code' s') :
    Outline I J ({ c with store := s' }.setCode p code) := by
  refine ⟨hI, ?_⟩
  intro q k' code' hq
  rcases Conf.at_setCode.mp hq with ⟨rfl, rfl, old', hold⟩ | ⟨hne, hq'⟩
  · obtain ⟨rfl, -⟩ := Conf.At.unique hp hold
    exact hJ
  · exact hfree hne hq' (h.procs hq')

/-- Starting a process keeps the outline when its assertion holds at once. -/
theorem spawn (h : Outline I J c) {k : κ} {code : List ι}
    (hJ : J c.procs.length k code c.store) : Outline I J (c.spawn k code) := by
  refine ⟨h.store, ?_⟩
  intro q k' code' hq
  rcases Conf.at_spawn.mp hq with hq' | ⟨rfl, rfl, rfl⟩
  · exact h.procs hq'
  · exact hJ

/-- A change of the store alone keeps the outline when no assertion reads it. -/
theorem env (h : Outline I J c) {s' : σ} (hI : I s')
    (hfree : ∀ {q : Nat} {k : κ} {code : List ι}, c.At q k code →
      J q k code c.store → J q k code s') :
    Outline I J { c with store := s' } :=
  ⟨hI, fun hq => hfree hq (h.procs hq)⟩

end Outline

end Processes
