/-
# `SeedSend.Accounts` — what the credit ledger is for

A campaign reserves the price of all its recipients.  A recipient is paid for once it has been
handed to the provider, however often it is tried.  When the campaign is settled, what has been
used is consumed and the rest is released.

`Move` lists what may happen to the accounts.  An entry of a campaign is made only when each of
its recipients that has been tried has been handed over, and from then on no other is tried.
Then every entry is what is due (`Books.move`), and what has been entered stays
(`Books.ledger_eq`).
-/
import ValidEmailVerifier.SeedSend.Rows
import Mathlib.Data.List.Forall2
import Mathlib.Logic.Relation

namespace ValidEmailVerifier.SeedSend

/-- What a recipient counts for. -/
structure Item where
  campaign : Nat
  attempts : Nat
  sent : Bool
  deriving DecidableEq

/-- A recipient that has not been tried. -/
def Item.fresh (i : Nat) : Item := { campaign := i, attempts := 0, sent := false }

structure Accounts where
  price : Nat
  terms : List Terms
  items : List Item
  ledger : Nat → EntryType → Option Nat

namespace Accounts

variable (a : Accounts)

/-- The recipients of a campaign. -/
def total (i : Nat) : Nat := a.items.countP (·.campaign = i)

/-- Those that have been handed over. -/
def used (i : Nat) : Nat := a.items.countP fun x => x.campaign = i && x.sent

/-- What has been tried has been handed over. -/
def Done (i : Nat) : Prop :=
  ∀ x ∈ a.items, x.campaign = i → 0 < x.attempts → x.sent = true

def AllSent (i : Nat) : Prop := ∀ x ∈ a.items, x.campaign = i → x.sent = true

/-- The settlement of a campaign has an entry. -/
def Entered (i : Nat) : Prop :=
  ∃ type credits, type ≠ .reserve ∧ a.ledger i type = some credits

/-- What is due for an entry. -/
def Due (i : Nat) : EntryType → Nat → Prop
  | .reserve, _ => True
  | .consume, credits => credits = a.price * a.used i
  | .release, credits => credits + a.price * a.used i = a.price * a.total i

def enter (i : Nat) (type : EntryType) (credits : Nat) : Accounts :=
  { a with ledger := fun i' type' =>
      if i' = i ∧ type' = type then some credits else a.ledger i' type' }

/-- A recipient that is tried, or not. -/
def Tries (x x' : Item) : Prop :=
  x' = x ∨ x' = { x with attempts := x.attempts + 1 } ∧ (a.Entered x.campaign → x.sent = true)

/-- What may happen. -/
inductive Move : Accounts → Prop
  | create {k n : Nat} {ledger : Nat → EntryType → Option Nat}
      (hledger : ∀ i type, type ≠ .reserve → ledger i type = a.ledger i type) :
      Move { a with
        terms := a.terms ++ [⟨k, a.price * n, 0⟩]
        items := a.items ++ List.replicate n (Item.fresh a.terms.length)
        ledger := ledger }
  | claim {items : List Item} (h : List.Forall₂ a.Tries a.items items) :
      Move { a with items := items }
  | handOver {r : Nat} {x : Item} (hx : a.items[r]? = some x) (htried : 0 < x.attempts) :
      Move { a with items := a.items.modify r fun x => { x with sent := true } }
  | complete {i : Nat} :
      Move { a with terms := a.terms.modify i fun x => { x with used := a.price * a.total i } }
  | enter {i : Nat} {type : EntryType} {credits : Nat} (hi : i < a.terms.length)
      (hdone : a.Done i) (hdue : a.Due i type credits) : Move (a.enter i type credits)

end Accounts

/-- What holds of the accounts all the time. -/
structure Books (a : Accounts) : Prop where
  known : ∀ x ∈ a.items, x.campaign < a.terms.length
  tried : ∀ x ∈ a.items, x.sent = true → 0 < x.attempts
  terms : ∀ (i : Nat) (x : Terms), a.terms[i]? = some x →
    x.reserved = a.price * a.total i ∧ (x.used = 0 ∨ x.used = a.price * a.total i)
  entries : ∀ (i : Nat) (type : EntryType) (credits : Nat), type ≠ .reserve →
    a.ledger i type = some credits → i < a.terms.length ∧ a.Done i ∧ a.Due i type credits

/-! ## Lists -/

theorem countP_forall₂ {α : Type} {R : α → α → Prop} {p : α → Bool} {l l' : List α}
    (h : List.Forall₂ R l l') (hp : ∀ x x', R x x' → p x' = p x) : l'.countP p = l.countP p := by
  induction h with
  | nil => rfl
  | cons hx _ ih => rw [List.countP_cons, List.countP_cons, ih, hp _ _ hx]

theorem mem_of_forall₂ {α : Type} {R : α → α → Prop} {l l' : List α} (h : List.Forall₂ R l l')
    {x' : α} (hx' : x' ∈ l') : ∃ x ∈ l, R x x' := by
  induction h with
  | nil => exact nomatch hx'
  | @cons y y' l l' hy _ ih =>
    rcases List.mem_cons.mp hx' with rfl | hx'
    · exact ⟨y, List.mem_cons_self, hy⟩
    · obtain ⟨x, hx, hR⟩ := ih hx'
      exact ⟨x, List.mem_cons_of_mem _ hx, hR⟩

theorem forall₂_of_getElem? {α : Type} {R : α → α → Prop} :
    ∀ {l l' : List α}, l'.length = l.length →
      (∀ (r : Nat) (x : α), l[r]? = some x → ∃ x', l'[r]? = some x' ∧ R x x') →
      List.Forall₂ R l l'
  | [], [], _, _ => .nil
  | x :: l, x' :: l', hlength, h => by
      obtain ⟨y, hy, hR⟩ := h 0 x rfl
      cases hy
      exact .cons hR (forall₂_of_getElem? (Nat.succ.inj hlength) fun r z hz => h (r + 1) z hz)

theorem modify_congr {α : Type} {f g : α → α} {l : List α} {i : Nat}
    (h : ∀ x, l[i]? = some x → f x = g x) : l.modify i f = l.modify i g := by
  apply List.ext_getElem?
  intro k
  rw [List.getElem?_modify, List.getElem?_modify]
  cases hk : l[k]? with
  | none => rfl
  | some x =>
    by_cases hik : i = k
    · subst hik
      simp only [if_true, Option.map_eq_map, Option.map_some, h x hk]
    · simp only [hik, if_false]

theorem mem_modify {α : Type} {l : List α} {r : Nat} {f : α → α} {x' : α}
    (h : x' ∈ l.modify r f) : x' ∈ l ∨ ∃ x, l[r]? = some x ∧ x' = f x := by
  obtain ⟨q, hq⟩ := List.getElem?_of_mem h
  rw [List.getElem?_modify] at hq
  obtain ⟨x, hx, rfl⟩ := Option.map_eq_some_iff.mp hq
  split
  next hrq =>
    subst hrq
    exact .inr ⟨x, hx, rfl⟩
  next => exact .inl (List.mem_of_getElem? hx)

theorem getElem?_of_forall₂ {α : Type} {R : α → α → Prop} {l l' : List α}
    (h : List.Forall₂ R l l') : ∀ {r : Nat} {x : α}, l[r]? = some x →
      ∃ x', l'[r]? = some x' ∧ R x x' := by
  induction h with
  | nil => exact fun hx => nomatch hx
  | @cons y y' l l' hy _ ih =>
    intro r x hx
    cases r with
    | zero =>
      cases hx
      exact ⟨y', rfl, hy⟩
    | succ r => exact ih hx

/-! ## What every move keeps -/

/-- Campaigns and recipients are never removed; what is reserved stays, and what has been
completed stays completed. -/
structure Later (a a' : Accounts) : Prop where
  price : a'.price = a.price
  total : ∀ i, i < a.terms.length → a'.total i = a.total i
  allSent : ∀ i, i < a.terms.length → a.AllSent i → a'.AllSent i
  items : ∀ (r : Nat) (x : Item), a.items[r]? = some x → ∃ x', a'.items[r]? = some x' ∧
    x'.campaign = x.campaign ∧ x.attempts ≤ x'.attempts
  terms : ∀ (i : Nat) (x : Terms), a.terms[i]? = some x → ∃ x', a'.terms[i]? = some x' ∧
    x'.reserved = x.reserved ∧ (x.used = a.price * a.total i → x'.used = a.price * a.total i)

theorem Accounts.Tries.same {a : Accounts} {x x' : Item} (h : a.Tries x x') :
    x'.campaign = x.campaign ∧ x'.sent = x.sent ∧ x.attempts ≤ x'.attempts := by
  rcases h with rfl | ⟨rfl, -⟩
  · exact ⟨rfl, rfl, Nat.le_refl _⟩
  · exact ⟨rfl, rfl, Nat.le_succ _⟩

theorem Accounts.Move.later {a a' : Accounts} (h : a.Move a') : Later a a' := by
  have hterms : ∀ (i : Nat) (x : Terms), a.terms[i]? = some x → ∃ x', a.terms[i]? = some x' ∧
      x'.reserved = x.reserved ∧ (x.used = a.price * a.total i → x'.used = a.price * a.total i) :=
    fun i x hx => ⟨x, hx, rfl, id⟩
  have hitems : ∀ (r : Nat) (x : Item), a.items[r]? = some x → ∃ x', a.items[r]? = some x' ∧
      x'.campaign = x.campaign ∧ x.attempts ≤ x'.attempts :=
    fun r x hx => ⟨x, hx, rfl, Nat.le_refl _⟩
  cases h with
  | @create k n =>
    refine ⟨rfl, fun i hi => ?_, fun i hi hall x hx hcamp => ?_, fun r x hx => ?_, fun i x hx => ?_⟩
    · show List.countP _ _ = _
      rw [List.countP_append, List.countP_replicate, if_neg]
      · rfl
      · exact fun h => Nat.ne_of_gt hi (of_decide_eq_true h)
    · rcases List.mem_append.mp hx with hx | hx
      · exact hall x hx hcamp
      · rw [(List.mem_replicate.mp hx).2] at hcamp
        exact absurd hcamp (Nat.ne_of_gt hi)
    · rw [List.getElem?_append_left (List.getElem?_eq_some_iff.mp hx).1]
      exact hitems r x hx
    · rw [List.getElem?_append_left (List.getElem?_eq_some_iff.mp hx).1]
      exact hterms i x hx
  | claim hforall =>
    refine ⟨rfl, fun i _ => ?_, fun i _ hall x' hx' hcamp => ?_, fun r x hx => ?_, hterms⟩
    · refine countP_forall₂ hforall fun x x' hx => ?_
      rw [hx.same.1]
    · obtain ⟨x, hx, htries⟩ := mem_of_forall₂ hforall hx'
      rw [htries.same.2.1]
      exact hall x hx (htries.same.1.symm.trans hcamp)
    · obtain ⟨x', hx', htries⟩ := getElem?_of_forall₂ hforall hx
      exact ⟨x', hx', htries.same.1, htries.same.2.2⟩
  | @handOver r x hx htried =>
    refine ⟨rfl, fun i _ => ?_, fun i _ hall y hy hcamp => ?_, fun q y hy => ?_, hterms⟩
    · exact Nat.add_right_cancel (countP_modify (fun x : Item => x.campaign = i)
        (fun x => { x with sent := true }) hx)
    · rcases mem_modify hy with hy | ⟨y, -, rfl⟩
      · exact hall y hy hcamp
      · rfl
    · rw [List.getElem?_modify, hy]
      refine ⟨_, rfl, ?_⟩
      show (if r = q then _ else y).campaign = _ ∧ _ ≤ (if r = q then _ else y).attempts
      split
      · exact ⟨rfl, Nat.le_refl _⟩
      · exact ⟨rfl, Nat.le_refl _⟩
  | @complete i =>
    refine ⟨rfl, fun _ _ => rfl, fun _ _ hall => hall, hitems, fun j x hx => ?_⟩
    rw [List.getElem?_modify, hx]
    refine ⟨_, rfl, ?_⟩
    show (if i = j then _ else x).reserved = _ ∧ (_ → (if i = j then _ else x).used = _)
    split
    next hij =>
      subst hij
      exact ⟨rfl, fun _ => rfl⟩
    next => exact ⟨rfl, id⟩
  | enter => exact ⟨rfl, fun _ _ => rfl, fun _ _ hall => hall, hitems, hterms⟩

namespace Books

variable {a : Accounts}

/-! ## Every move keeps the books -/

theorem done_of_entered (h : Books a) {i : Nat} (hi : a.Entered i) : a.Done i := by
  obtain ⟨type, credits, htype, hentry⟩ := hi
  exact (h.entries i type credits htype hentry).2.1

/-- Entries stay due if neither the recipients of a campaign nor those handed over change. -/
theorem due_congr {a' : Accounts} {i : Nat} {type : EntryType} {credits : Nat}
    (h : a.Due i type credits) (htotal : a'.total i = a.total i) (hused : a'.used i = a.used i)
    (hprice : a'.price = a.price) : a'.Due i type credits := by
  cases type with
  | reserve => trivial
  | consume =>
    rw [Accounts.Due, hprice, hused]
    exact h
  | release =>
    rw [Accounts.Due, hprice, hused, htotal]
    exact h

theorem claim (h : Books a) {items : List Item} (hitems : List.Forall₂ a.Tries a.items items) :
    Books { a with items := items } := by
  have htotal := (Accounts.Move.claim hitems).later.total
  have hused : ∀ i, Accounts.used { a with items := items } i = a.used i := by
    intro i
    refine countP_forall₂ hitems fun x x' hx => ?_
    rw [hx.same.1, hx.same.2.1]
  refine ⟨fun x' hx' => ?_, fun x' hx' hx'sent => ?_, fun i x hx => ?_,
    fun i type credits htype hentry => ?_⟩
  · obtain ⟨x, hx, htries⟩ := mem_of_forall₂ hitems hx'
    rw [htries.same.1]
    exact h.known x hx
  · obtain ⟨x, hx, htries⟩ := mem_of_forall₂ hitems hx'
    exact Nat.lt_of_lt_of_le (h.tried x hx (htries.same.2.1.symm.trans hx'sent)) htries.same.2.2
  · rw [htotal i (List.getElem?_eq_some_iff.mp hx).1]
    exact h.terms i x hx
  · obtain ⟨hi, hdone, hdue⟩ := h.entries i type credits htype hentry
    refine ⟨hi, fun x' hx' hcamp hattempts => ?_, due_congr hdue (htotal i hi) (hused i) rfl⟩
    obtain ⟨x, hx, rfl | ⟨rfl, hsent⟩⟩ := mem_of_forall₂ hitems hx'
    · exact hdone _ hx hcamp hattempts
    · exact hsent ⟨type, credits, htype, hcamp ▸ hentry⟩

/-- The items after a hand-over: a campaign with an entry is not touched. -/
theorem used_handOver (h : Books a) {r : Nat} {x : Item} (hx : a.items[r]? = some x)
    (htried : 0 < x.attempts) {i : Nat} (hi : a.Entered i) :
    (a.items.modify r fun x => { x with sent := true }).countP
      (fun x => x.campaign = i && x.sent) = a.used i := by
  have hcount := countP_modify (fun x : Item => x.campaign = i && x.sent)
    (fun x => { x with sent := true }) hx
  have hsame : (decide (x.campaign = i) && true) = (decide (x.campaign = i) && x.sent) := by
    by_cases hcamp : x.campaign = i
    · rw [h.done_of_entered hi x (List.mem_of_getElem? hx) hcamp htried]
    · rw [decide_eq_false hcamp, Bool.false_and, Bool.false_and]
  rw [hsame] at hcount
  exact Nat.add_right_cancel hcount

theorem handOver (h : Books a) {r : Nat} {x : Item} (hx : a.items[r]? = some x)
    (htried : 0 < x.attempts) :
    Books { a with items := a.items.modify r fun x => { x with sent := true } } := by
  have htotal := (Accounts.Move.handOver hx htried).later.total
  refine ⟨fun y hy => ?_, fun y hy hsent => ?_, fun i y hy => ?_,
    fun i type credits htype hentry => ?_⟩
  · rcases mem_modify hy with hy | ⟨y, hold, rfl⟩
    · exact h.known y hy
    · exact h.known y (List.mem_of_getElem? hold)
  · rcases mem_modify hy with hy | ⟨y, hold, rfl⟩
    · exact h.tried y hy hsent
    · rw [hx] at hold
      cases hold
      exact htried
  · rw [htotal i (List.getElem?_eq_some_iff.mp hy).1]
    exact h.terms i y hy
  · obtain ⟨hi, hdone, hdue⟩ := h.entries i type credits htype hentry
    have hused := h.used_handOver hx htried ⟨type, credits, htype, hentry⟩
    refine ⟨hi, fun y hy hcamp hattempts => ?_, due_congr hdue (htotal i hi) hused rfl⟩
    rcases mem_modify hy with hy | ⟨y, -, rfl⟩
    · exact hdone y hy hcamp hattempts
    · rfl

theorem create (h : Books a) {k n : Nat} {ledger : Nat → EntryType → Option Nat}
    (hledger : ∀ i type, type ≠ .reserve → ledger i type = a.ledger i type) :
    Books { a with
      terms := a.terms ++ [⟨k, a.price * n, 0⟩]
      items := a.items ++ List.replicate n (Item.fresh a.terms.length)
      ledger := ledger } := by
  have htotal := (Accounts.Move.create (k := k) (n := n) hledger).later.total
  have hnew : (a.items ++ List.replicate n (Item.fresh a.terms.length)).countP
      (·.campaign = a.terms.length) = n := by
    have hnone : a.items.countP (·.campaign = a.terms.length) = 0 := by
      rw [List.countP_eq_zero]
      intro x hx hcamp
      exact absurd (of_decide_eq_true hcamp) (Nat.ne_of_lt (h.known x hx))
    rw [List.countP_append, hnone, List.countP_replicate, Nat.zero_add]
    exact if_pos (decide_eq_true rfl)
  refine ⟨?_, ?_, ?_, ?_⟩
  · intro x hx
    rw [List.length_append]
    rcases List.mem_append.mp hx with hx | hx
    · exact Nat.lt_add_right 1 (h.known x hx)
    · rw [(List.mem_replicate.mp hx).2]
      exact Nat.lt_succ_self _
  · intro x hx hsent
    rcases List.mem_append.mp hx with hx | hx
    · exact h.tried x hx hsent
    · rw [(List.mem_replicate.mp hx).2] at hsent
      exact nomatch hsent
  · intro i x hx
    rcases Nat.lt_or_ge i a.terms.length with hi | hi
    · rw [htotal i hi]
      rw [List.getElem?_append_left hi] at hx
      exact h.terms i x hx
    · rw [List.getElem?_append_right hi] at hx
      have hlast := (List.getElem?_eq_some_iff.mp hx).1
      have hix : i = a.terms.length := by
        rw [List.length_singleton] at hlast
        omega
      subst hix
      rw [Nat.sub_self] at hx
      cases hx
      exact ⟨congrArg (a.price * ·) hnew.symm, .inl rfl⟩
  · intro i type credits htype hentry
    obtain ⟨hi, hdone, hdue⟩ :=
      h.entries i type credits htype ((hledger i type htype).symm.trans hentry)
    have hused : (a.items ++ List.replicate n (Item.fresh a.terms.length)).countP
        (fun x => x.campaign = i && x.sent) = a.used i := by
      rw [List.countP_append, List.countP_replicate, if_neg]
      · rfl
      · exact fun h => Bool.false_ne_true ((Bool.and_false _).symm.trans h)
    refine ⟨?_, fun x hx hcamp hattempts => ?_, due_congr hdue (htotal i hi) hused rfl⟩
    · rw [List.length_append]
      exact Nat.lt_add_right 1 hi
    · rcases List.mem_append.mp hx with hx | hx
      · exact hdone x hx hcamp hattempts
      · rw [(List.mem_replicate.mp hx).2] at hattempts
        exact nomatch hattempts

theorem complete (h : Books a) (i : Nat) :
    Books { a with
      terms := a.terms.modify i fun x => { x with used := a.price * a.total i } } := by
  refine ⟨?_, h.tried, ?_, ?_⟩
  · intro x hx
    rw [List.length_modify]
    exact h.known x hx
  · intro j x hx
    rw [List.getElem?_modify] at hx
    obtain ⟨y, hy, rfl⟩ := Option.map_eq_some_iff.mp hx
    split
    next hij =>
      subst hij
      exact ⟨(h.terms i y hy).1, .inr rfl⟩
    next => exact h.terms j y hy
  · intro j type credits htype hentry
    rw [List.length_modify]
    exact h.entries j type credits htype hentry

theorem enter (h : Books a) {i : Nat} {type : EntryType} {credits : Nat}
    (hi : i < a.terms.length) (hdone : a.Done i) (hdue : a.Due i type credits) :
    Books (a.enter i type credits) := by
  refine ⟨h.known, h.tried, h.terms, ?_⟩
  intro j type' credits' htype hentry
  rw [Accounts.enter] at hentry
  dsimp only at hentry
  split at hentry
  next hsame =>
    obtain ⟨rfl, rfl⟩ := hsame
    cases hentry
    exact ⟨hi, hdone, due_congr hdue rfl rfl rfl⟩
  next =>
    obtain ⟨hj, hdone', hdue'⟩ := h.entries j type' credits' htype hentry
    exact ⟨hj, hdone', due_congr hdue' rfl rfl rfl⟩

theorem move {a' : Accounts} (h : Books a) (hmove : a.Move a') : Books a' := by
  cases hmove with
  | create hledger => exact h.create hledger
  | claim hitems => exact h.claim hitems
  | handOver hx htried => exact h.handOver hx htried
  | complete => exact h.complete _
  | enter hi hdone hdue => exact h.enter hi hdone hdue

/-- What has been entered stays. -/
theorem ledger_eq {a' : Accounts} (h : Books a) (hmove : a.Move a') {i : Nat} {type : EntryType}
    {credits : Nat} (htype : type ≠ .reserve) (hentry : a.ledger i type = some credits) :
    a'.ledger i type = some credits := by
  cases hmove with
  | create hledger => exact (hledger i type htype).trans hentry
  | claim | handOver | complete => exact hentry
  | @enter j type' credits' hi hdone hdue =>
    rw [Accounts.enter]
    dsimp only
    split
    next hsame =>
      obtain ⟨rfl, rfl⟩ := hsame
      have hbefore := (h.entries i type credits htype hentry).2.2
      cases type with
      | reserve => exact absurd rfl htype
      | consume =>
        rw [Accounts.Due] at hdue hbefore
        rw [hdue, hbefore]
      | release =>
        rw [Accounts.Due] at hdue hbefore
        exact congrArg some (Nat.add_right_cancel (hdue.trans hbefore.symm))
    next => exact hentry

end Books

end ValidEmailVerifier.SeedSend
