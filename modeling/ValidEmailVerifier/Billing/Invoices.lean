/-
# `Billing.Invoices` — an invoice, its payments and the balance of its user

An invoice is paid by transactions: payments that are recorded, payments that are processed,
and credit that is taken from the balance of the user.  Each of these brings the status up to
date; the items of type Credit are added to the balance by `recordPayment` only, and whenever
it leaves the invoice Paid.

So a balance has grown by the Credit items exactly once exactly if they sum up to nothing, or
one recorded payment has covered the invoice and no second one has, or nothing has
(`creditedOnce_iff`).

Amounts are whole cents.  Every call loads the invoice and its user; what others do to the
balance in between is a step of its own.
-/
import Mathlib.Algebra.BigOperators.Group.List.Basic
import Mathlib.Algebra.Order.Group.Unbundled.Int
import Mathlib.Algebra.Ring.Int.Defs
import Mathlib.Algebra.Ring.Nat

namespace ValidEmailVerifier.Billing

abbrev Text := List Char

inductive InvoiceStatus where
  | draft | unpaid | partiallyPaid | paid | cancelled | refunded | partiallyRefunded | collections
  /-- Any other text. -/
  | other
  deriving DecidableEq

inductive ItemType where
  | order | credit | adjustment
  /-- Any other text. -/
  | other
  deriving DecidableEq

structure InvoiceItem where
  amount : Int
  type : ItemType := .order

structure Transaction where
  amount : Int
  paymentMethod : Text
  transactionId : Option Text
  date : Nat

structure Invoice where
  status : InvoiceStatus := .unpaid
  paidAt : Option Nat := none
  subtotal : Int := 0
  tax : Int := 0
  discount : Int := 0
  total : Int := 0
  creditApplied : Int := 0
  balanceDue : Int := 0
  paymentMethod : Option Text := none

/-- An invoice with its items and transactions, and the balance of its user. -/
structure Account where
  balance : Int
  invoice : Invoice
  items : List InvoiceItem
  transactions : List Transaction := []

/-! ## The model `Invoice` -/

namespace Account

variable (a : Account)

def calculateTotal : Int :=
  if a.items = [] then
    if 0 < a.invoice.total then a.invoice.total
    else max 0 (a.invoice.subtotal + a.invoice.tax - a.invoice.discount)
  else max 0 ((a.items.map (·.amount)).sum + a.invoice.tax - a.invoice.discount)

def totalPaid : Int := (a.transactions.map (·.amount)).sum

def calculateBalanceDue : Int := max 0 (a.calculateTotal - a.totalPaid)

/-- A status that is not brought up to date. -/
def isProtected : Bool := a.invoice.status ∈ [.cancelled, .refunded, .draft, .collections]

def syncStatus (now : Nat) : Account :=
  if a.isProtected then a
  else if a.calculateBalanceDue ≤ 0 then
    { a with invoice.status := .paid, invoice.paidAt := some (a.invoice.paidAt.getD now) }
  else if 0 < a.totalPaid ∨ 0 < a.invoice.creditApplied then
    { a with invoice.status := .partiallyPaid }
  else { a with invoice.status := .unpaid, invoice.paidAt := none }

/-- `Transaction::create`. -/
def createTransaction (t : Transaction) : Account :=
  { a with transactions := a.transactions ++ [t] }

def applyCredit (now : Nat) (amount : Int) : Bool × Account :=
  let amount := min amount a.calculateBalanceDue
  if a.balance < amount then (false, a)
  else if amount ≤ 0 then (false, a)
  else
    let a := { a with balance := a.balance - amount }
    let a := { a with invoice.creditApplied := a.invoice.creditApplied + amount }
    let a := a.createTransaction ⟨amount, "Credit Balance".toList, none, now⟩
    let a := { a with invoice.balanceDue := a.calculateBalanceDue }
    (true, a.syncStatus now)

def processPayment (now : Nat) (amount : Int) (paymentMethod : Text)
    (transactionId : Option Text) : Bool × Account :=
  let amount := min amount a.calculateBalanceDue
  if amount ≤ 0 then (false, a)
  else
    let a := a.createTransaction ⟨amount, paymentMethod, transactionId, now⟩
    let a := { a with
      invoice.balanceDue := a.calculateBalanceDue
      invoice.paymentMethod := some paymentMethod }
    (true, a.syncStatus now)

/-! ## `BillingService` -/

def processInvoiceItems : Account :=
  a.items.foldl (fun a item =>
    if item.type = .credit then { a with balance := a.balance + item.amount } else a) a

def recordPayment (now : Nat) (amount : Int) (method : Text) (transactionId : Option Text) :
    Account :=
  let a := a.createTransaction ⟨amount, method, transactionId, now⟩
  let a := a.syncStatus now
  if a.invoice.status = .paid then a.processInvoiceItems else a

/-- The error of an amount that is turned away, or what `applyCredit` does. -/
def applyCreditToInvoice (now : Nat) (amount : Int) : Except Text (Bool × Account) :=
  if amount ≤ 0 then .error "Amount must be greater than zero.".toList
  else if a.balance < amount then .error "Insufficient credit balance.".toList
  else if a.calculateBalanceDue < amount then
    .error "Amount exceeds remaining invoice balance.".toList
  else .ok (a.applyCredit now amount)

end Account

/-- `createInvoice`, for a user with a balance. -/
def createInvoice (balance : Int) (items : List InvoiceItem) (status : Option InvoiceStatus) :
    Account :=
  let subtotal := (items.map (·.amount)).sum
  { balance := balance
    items := items
    invoice := { status := status.getD .unpaid, subtotal := subtotal, total := subtotal } }

/-! ## Calls -/

inductive Call where
  | recordPayment (amount : Int) (method : Text) (transactionId : Option Text)
  | applyCredit (amount : Int)
  | applyCreditToInvoice (amount : Int)
  | processPayment (amount : Int) (paymentMethod : Text) (transactionId : Option Text)
  /-- Something else changes the balance of the user. -/
  | elsewhere (change : Int)

/-- What a call leaves, at a moment; an exception leaves everything as it was. -/
def Account.call (a : Account) (now : Nat) : Call → Account
  | .recordPayment amount method transactionId => a.recordPayment now amount method transactionId
  | .applyCredit amount => (a.applyCredit now amount).2
  | .applyCreditToInvoice amount =>
      match a.applyCreditToInvoice now amount with
      | .error _ => a
      | .ok (_, a') => a'
  | .processPayment amount paymentMethod transactionId =>
      (a.processPayment now amount paymentMethod transactionId).2
  | .elsewhere change => { a with balance := a.balance + change }

def Account.run (a : Account) : List (Nat × Call) → Account
  | [] => a
  | (now, c) :: rest => (a.call now c).run rest

/-- Paid now, or at some moment of the run. -/
def Account.everPaid (a : Account) : List (Nat × Call) → Bool
  | [] => a.invoice.status = .paid
  | (now, c) :: rest => a.invoice.status = .paid || (a.call now c).everPaid rest

/-- The steps of a run that are taken in a state and with a call of a kind. -/
def Account.countSteps (p : Account → Call → Bool) (a : Account) : List (Nat × Call) → Nat
  | [] => 0
  | (now, c) :: rest => (if p a c then 1 else 0) + (a.call now c).countSteps p rest

/-- The call covers what is left to pay of an invoice whose status may change. -/
def covers (a : Account) : Call → Bool
  | .recordPayment amount _ _ => !a.isProtected && a.calculateTotal ≤ a.totalPaid + amount
  | .applyCredit amount =>
      !a.isProtected && 0 < a.calculateBalanceDue && a.calculateBalanceDue ≤ amount &&
        a.calculateBalanceDue ≤ a.balance
  | .applyCreditToInvoice amount =>
      !a.isProtected && 0 < amount && amount = a.calculateBalanceDue && amount ≤ a.balance
  | .processPayment amount _ _ =>
      !a.isProtected && 0 < a.calculateBalanceDue && a.calculateBalanceDue ≤ amount
  | .elsewhere _ => false

/-- The call is one of `recordPayment`, and covers the invoice. -/
def coversRecorded (a : Account) (c : Call) : Bool :=
  match c with
  | .recordPayment .. => covers a c
  | _ => false

/-- The change of the balance that is not the invoice's. -/
def changeElsewhere : Call → Int
  | .elsewhere change => change
  | _ => 0

def creditTotal (items : List InvoiceItem) : Int :=
  ((items.filter (·.type = .credit)).map (·.amount)).sum

/-! ## What a call does -/

namespace Account

variable (a : Account)

@[simp] theorem balance_syncStatus (now : Nat) : (a.syncStatus now).balance = a.balance := by
  rw [syncStatus]
  split_ifs <;> rfl

@[simp] theorem items_syncStatus (now : Nat) : (a.syncStatus now).items = a.items := by
  rw [syncStatus]
  split_ifs <;> rfl

@[simp] theorem creditApplied_syncStatus (now : Nat) :
    (a.syncStatus now).invoice.creditApplied = a.invoice.creditApplied := by
  rw [syncStatus]
  split_ifs <;> rfl

/-- An invoice is Paid exactly if it may change and nothing is left to pay. -/
theorem status_syncStatus (now : Nat) : (a.syncStatus now).invoice.status = .paid ↔
    a.isProtected = false ∧ a.calculateBalanceDue ≤ 0 := by
  rw [syncStatus]
  by_cases hprotected : a.isProtected = true
  · rw [if_pos hprotected, hprotected]
    refine ⟨fun hpaid => ?_, nofun⟩
    rw [isProtected, hpaid] at hprotected
    exact nomatch hprotected
  rw [if_neg hprotected]
  have hfree : a.isProtected = false := Bool.eq_false_iff.mpr hprotected
  by_cases hdue : a.calculateBalanceDue ≤ 0
  · rw [if_pos hdue]
    exact ⟨fun _ => ⟨hfree, hdue⟩, fun _ => rfl⟩
  · rw [if_neg hdue]
    refine ⟨fun hpaid => ?_, fun h => absurd h.2 hdue⟩
    split_ifs at hpaid

/-- A transaction counts against what is left to pay. -/
theorem calculateBalanceDue_createTransaction (t : Transaction) :
    (a.createTransaction t).calculateBalanceDue =
      max 0 (a.calculateTotal - (a.totalPaid + t.amount)) := by
  have hpaid : (a.createTransaction t).totalPaid = a.totalPaid + t.amount := by
    rw [totalPaid, createTransaction, List.map_append, List.sum_append]
    rw [List.map_singleton, List.sum_singleton, totalPaid]
  rw [calculateBalanceDue, hpaid]
  rfl

/-- The Credit items are added to the balance, and nothing else changes. -/
theorem processInvoiceItems_eq :
    a.processInvoiceItems = { a with balance := a.balance + creditTotal a.items } := by
  have hfold : ∀ (items : List InvoiceItem) (b : Account),
      items.foldl (fun b item =>
        if item.type = .credit then { b with balance := b.balance + item.amount } else b) b =
      { b with balance := b.balance + creditTotal items } := by
    intro items
    induction items with
    | nil =>
      intro b
      show b = { b with balance := b.balance + 0 }
      rw [Int.add_zero]
    | cons item rest ih =>
      intro b
      rw [List.foldl_cons, ih]
      by_cases hcredit : item.type = .credit
      · have hsum : creditTotal (item :: rest) = item.amount + creditTotal rest := by
          rw [creditTotal, List.filter_cons_of_pos (by simpa using hcredit), List.map_cons,
            List.sum_cons, creditTotal]
        rw [if_pos hcredit, hsum, ← Int.add_assoc]
      · have hsum : creditTotal (item :: rest) = creditTotal rest := by
          rw [creditTotal, List.filter_cons_of_neg (by simpa using hcredit), creditTotal]
        rw [if_neg hcredit, hsum]
  exact hfold a.items a

end Account

/-- What a call does to the balance and the status. -/
structure Effect (a : Account) (c : Call) (a' : Account) : Prop where
  items : a'.items = a.items
  balance : a'.balance + a'.invoice.creditApplied = a.balance + a.invoice.creditApplied +
    changeElsewhere c + if coversRecorded a c then creditTotal a.items else 0
  paid_of_covers : covers a c = true → a'.invoice.status = .paid
  covers_of_paid : a'.invoice.status = .paid → covers a c = true ∨ a.invoice.status = .paid

/-- A call that does nothing. -/
theorem Effect.same {a : Account} {c : Call} (hchange : changeElsewhere c = 0)
    (hcovers : covers a c = false) : Effect a c a := by
  have hrecorded : coversRecorded a c = false := by
    cases c <;> first | exact hcovers | rfl
  refine ⟨rfl, ?_, fun h => ?_, .inr⟩
  · rw [hchange, hrecorded, if_neg Bool.false_ne_true, Int.add_zero, Int.add_zero]
  · rw [hcovers] at h
    exact nomatch h

namespace Account

variable (a : Account) (now : Nat)

/-- The status behind a transaction is Paid exactly if it covers an invoice that may change. -/
theorem status_of_transaction {b : Account} (t : Transaction)
    (hprotected : b.isProtected = a.isProtected)
    (hdue : b.calculateBalanceDue = (a.createTransaction t).calculateBalanceDue) :
    (b.syncStatus now).invoice.status = .paid ↔
      a.isProtected = false ∧ a.calculateTotal ≤ a.totalPaid + t.amount := by
  rw [status_syncStatus, hprotected, hdue, calculateBalanceDue_createTransaction]
  refine and_congr Iff.rfl ?_
  omega

theorem recordPayment_effect (amount : Int) (method : Text) (transactionId : Option Text) :
    Effect a (.recordPayment amount method transactionId)
      (a.recordPayment now amount method transactionId) := by
  have hpaid : ((a.createTransaction ⟨amount, method, transactionId, now⟩).syncStatus
      now).invoice.status = .paid ↔
      covers a (.recordPayment amount method transactionId) = true := by
    refine (a.status_of_transaction now (b := a.createTransaction
      ⟨amount, method, transactionId, now⟩) ⟨amount, method, transactionId, now⟩ rfl rfl).trans ?_
    rw [covers, Bool.and_eq_true, Bool.not_eq_true', decide_eq_true_eq]
  rw [recordPayment]
  by_cases hcovers : covers a (.recordPayment amount method transactionId) = true
  · rw [if_pos (hpaid.mpr hcovers), processInvoiceItems_eq]
    refine ⟨items_syncStatus _ now, ?_, fun _ => hpaid.mpr hcovers, fun _ => .inl hcovers⟩
    rw [coversRecorded, if_pos hcovers, items_syncStatus]
    show ((a.createTransaction _).syncStatus now).balance + _ +
      ((a.createTransaction _).syncStatus now).invoice.creditApplied = _
    rw [balance_syncStatus, creditApplied_syncStatus]
    show a.balance + creditTotal a.items + a.invoice.creditApplied = _ + 0 + _
    omega
  · rw [if_neg (mt hpaid.mp hcovers)]
    refine ⟨items_syncStatus _ now, ?_, fun h => absurd h hcovers, fun h => .inl (hpaid.mp h)⟩
    rw [coversRecorded, if_neg hcovers, balance_syncStatus, creditApplied_syncStatus]
    show a.balance + a.invoice.creditApplied = _ + 0 + 0
    omega

theorem processPayment_effect (amount : Int) (paymentMethod : Text)
    (transactionId : Option Text) :
    Effect a (.processPayment amount paymentMethod transactionId)
      (a.processPayment now amount paymentMethod transactionId).2 := by
  have hcovers : covers a (.processPayment amount paymentMethod transactionId) = true ↔
      a.isProtected = false ∧ 0 < a.calculateBalanceDue ∧ a.calculateBalanceDue ≤ amount := by
    rw [covers, Bool.and_eq_true, Bool.and_eq_true, Bool.not_eq_true', decide_eq_true_eq,
      decide_eq_true_eq, and_assoc]
  rw [processPayment]
  by_cases hnothing : min amount a.calculateBalanceDue ≤ 0
  · rw [if_pos hnothing]
    refine .same rfl (Bool.eq_false_iff.mpr fun h => ?_)
    have := hcovers.mp h
    omega
  rw [if_neg hnothing]
  have hdue : a.calculateBalanceDue = max 0 (a.calculateTotal - a.totalPaid) := rfl
  let t : Transaction :=
    ⟨min amount a.calculateBalanceDue, paymentMethod, transactionId, now⟩
  have hamount : t.amount = min amount a.calculateBalanceDue := rfl
  have hpaid := a.status_of_transaction now (b := { a.createTransaction t with
    invoice.balanceDue := (a.createTransaction t).calculateBalanceDue
    invoice.paymentMethod := some paymentMethod }) t rfl rfl
  refine ⟨items_syncStatus _ now, ?_, fun h => hpaid.mpr ?_, fun h => .inl (hcovers.mpr ?_)⟩
  · rw [balance_syncStatus, creditApplied_syncStatus]
    show a.balance + a.invoice.creditApplied = _ + 0 + 0
    omega
  · have := hcovers.mp h
    exact ⟨this.1, by omega⟩
  · have := hpaid.mp h
    exact ⟨this.1, by omega⟩

theorem applyCredit_effect {c : Call} {amount : Int} (hchange : changeElsewhere c = 0)
    (hrecorded : coversRecorded a c = false)
    (hcovers : covers a c = true ↔ a.isProtected = false ∧ 0 < a.calculateBalanceDue ∧
      a.calculateBalanceDue ≤ amount ∧ a.calculateBalanceDue ≤ a.balance) :
    Effect a c (a.applyCredit now amount).2 := by
  rw [applyCredit]
  by_cases hpoor : a.balance < min amount a.calculateBalanceDue
  · rw [if_pos hpoor]
    refine .same hchange (Bool.eq_false_iff.mpr fun h => ?_)
    have := hcovers.mp h
    omega
  rw [if_neg hpoor]
  by_cases hnothing : min amount a.calculateBalanceDue ≤ 0
  · rw [if_pos hnothing]
    refine .same hchange (Bool.eq_false_iff.mpr fun h => ?_)
    have := hcovers.mp h
    omega
  rw [if_neg hnothing]
  have hdue : a.calculateBalanceDue = max 0 (a.calculateTotal - a.totalPaid) := rfl
  let t : Transaction := ⟨min amount a.calculateBalanceDue, "Credit Balance".toList, none, now⟩
  have hamount : t.amount = min amount a.calculateBalanceDue := rfl
  let taken : Account := { a with
    balance := a.balance - t.amount
    invoice.creditApplied := a.invoice.creditApplied + t.amount }
  have hpaid := a.status_of_transaction now (b := { taken.createTransaction t with
    invoice.balanceDue := (taken.createTransaction t).calculateBalanceDue }) t rfl rfl
  refine ⟨items_syncStatus _ now, ?_, fun h => hpaid.mpr ?_, fun h => .inl (hcovers.mpr ?_)⟩
  · rw [balance_syncStatus, creditApplied_syncStatus, hchange, hrecorded]
    show a.balance - t.amount + (a.invoice.creditApplied + t.amount) = _ + 0 + 0
    omega
  · have := hcovers.mp h
    exact ⟨this.1, by omega⟩
  · have := hpaid.mp h
    exact ⟨this.1, by omega⟩

theorem call_effect (c : Call) : Effect a c (a.call now c) := by
  cases c with
  | recordPayment amount method transactionId => exact a.recordPayment_effect now _ _ _
  | processPayment amount paymentMethod transactionId => exact a.processPayment_effect now _ _ _
  | applyCredit amount =>
    refine a.applyCredit_effect now rfl rfl ?_
    simp only [covers, Bool.and_eq_true, Bool.not_eq_true', decide_eq_true_eq, and_assoc]
  | elsewhere change =>
    refine ⟨rfl, ?_, nofun, .inr⟩
    show a.balance + change + a.invoice.creditApplied = _ + change + 0
    omega
  | applyCreditToInvoice amount =>
    have hcovers : covers a (.applyCreditToInvoice amount) = true ↔ a.isProtected = false ∧
        0 < amount ∧ amount = a.calculateBalanceDue ∧ amount ≤ a.balance := by
      simp only [covers, Bool.and_eq_true, Bool.not_eq_true', decide_eq_true_eq, and_assoc]
    rw [call, applyCreditToInvoice]
    by_cases hnothing : amount ≤ 0
    · rw [if_pos hnothing]
      refine .same rfl (Bool.eq_false_iff.mpr fun h => ?_)
      have := hcovers.mp h
      omega
    rw [if_neg hnothing]
    by_cases hpoor : a.balance < amount
    · rw [if_pos hpoor]
      refine .same rfl (Bool.eq_false_iff.mpr fun h => ?_)
      have := hcovers.mp h
      omega
    rw [if_neg hpoor]
    by_cases hmore : a.calculateBalanceDue < amount
    · rw [if_pos hmore]
      refine .same rfl (Bool.eq_false_iff.mpr fun h => ?_)
      have := hcovers.mp h
      omega
    rw [if_neg hmore]
    refine a.applyCredit_effect now rfl rfl (hcovers.trans (and_congr Iff.rfl ?_))
    omega

end Account

/-! ## A run -/

namespace Account

theorem balance_run (a : Account) (calls : List (Nat × Call)) :
    (a.run calls).balance + (a.run calls).invoice.creditApplied =
      a.balance + a.invoice.creditApplied + (calls.map fun c => changeElsewhere c.2).sum +
        a.countSteps coversRecorded calls * creditTotal a.items := by
  induction calls generalizing a with
  | nil =>
    show a.balance + a.invoice.creditApplied = _ + 0 + ((0 : Nat) : Int) * _
    omega
  | cons step rest ih =>
    obtain ⟨now, c⟩ := step
    have heffect := a.call_effect now c
    have hbalance := heffect.balance
    rw [run, ih, hbalance, heffect.items, countSteps, List.map_cons, List.sum_cons]
    dsimp only
    by_cases hrecorded : coversRecorded a c = true
    · rw [if_pos hrecorded, if_pos hrecorded, Int.natCast_add, Int.natCast_one, Int.add_mul,
        Int.one_mul]
      omega
    · rw [if_neg hrecorded, if_neg hrecorded, Nat.zero_add]
      omega

/-- An invoice has been Paid if it was from the start, or a call has covered it. -/
theorem everPaid_iff (a : Account) (calls : List (Nat × Call)) :
    a.everPaid calls = true ↔ a.invoice.status = .paid ∨ 0 < a.countSteps covers calls := by
  induction calls generalizing a with
  | nil => simp [everPaid, countSteps]
  | cons step rest ih =>
    obtain ⟨now, c⟩ := step
    have heffect := a.call_effect now c
    rw [everPaid, Bool.or_eq_true, decide_eq_true_eq, ih, countSteps]
    by_cases hcovers : covers a c = true
    · have hpaid := heffect.paid_of_covers hcovers
      rw [if_pos hcovers]
      exact ⟨fun _ => .inr (by omega), fun _ => .inr (.inl hpaid)⟩
    · rw [if_neg hcovers, Nat.zero_add]
      constructor
      · rintro (hpaid | hpaid | hlater)
        · exact .inl hpaid
        · exact .inl ((heffect.covers_of_paid hpaid).resolve_left hcovers)
        · exact .inr hlater
      · rintro (hpaid | hlater)
        · exact .inl hpaid
        · exact .inr (.inr hlater)

theorem countSteps_coversRecorded_le (a : Account) (calls : List (Nat × Call)) :
    a.countSteps coversRecorded calls ≤ a.countSteps covers calls := by
  induction calls generalizing a with
  | nil => exact Nat.le_refl _
  | cons step rest ih =>
    obtain ⟨now, c⟩ := step
    rw [countSteps, countSteps]
    refine Nat.add_le_add ?_ (ih _)
    cases c with
    | recordPayment => exact Nat.le_refl _
    | applyCredit | applyCreditToInvoice | processPayment | elsewhere => exact Nat.zero_le _

end Account

/-- The Credit items have been added to the balance once if the invoice has ever been Paid, and
else not: the balance is what it was at first, with the changes made elsewhere, without the
credit that was applied, and with the items that many times. -/
def CreditedOnce (a : Account) (calls : List (Nat × Call)) : Prop :=
  (a.run calls).balance = a.balance + (calls.map fun c => changeElsewhere c.2).sum -
    (a.run calls).invoice.creditApplied + if a.everPaid calls then creditTotal a.items else 0

instance (a : Account) (calls : List (Nat × Call)) : Decidable (CreditedOnce a calls) :=
  inferInstanceAs (Decidable (_ = _))

/-- As many times as the invoice has been Paid, once or never. -/
theorem creditedOnce_iff_count (a : Account) (calls : List (Nat × Call))
    (hnone : a.invoice.creditApplied = 0) : CreditedOnce a calls ↔
      a.countSteps coversRecorded calls * creditTotal a.items =
        if a.everPaid calls then creditTotal a.items else 0 := by
  have hbalance := a.balance_run calls
  rw [hnone, Int.add_zero] at hbalance
  rw [CreditedOnce]
  omega

theorem mul_eq_self_iff (n : Nat) (total : Int) : n * total = total ↔ total = 0 ∨ n = 1 := by
  have hdifference : n * total = total ↔ ((n : Int) - 1) * total = 0 := by
    rw [Int.sub_mul, Int.one_mul]
    omega
  rw [hdifference, Int.mul_eq_zero]
  omega

/-- **The Credit items have been added exactly as often as the invoice has been Paid, once or
never, exactly if they sum up to nothing, or one call of `recordPayment` has covered the invoice
and no other one, or it was not created as Paid and no call has covered it.** -/
theorem creditedOnce_iff (balance : Int) (items : List InvoiceItem)
    (status : Option InvoiceStatus) (calls : List (Nat × Call)) :
    CreditedOnce (createInvoice balance items status) calls ↔
      creditTotal items = 0 ∨
      (createInvoice balance items status).countSteps coversRecorded calls = 1 ∨
      status ≠ some .paid ∧ (createInvoice balance items status).countSteps covers calls = 0 := by
  have hcreated : (createInvoice balance items status).invoice.status = .paid ↔
      status = some .paid := by
    cases status with
    | none => exact ⟨nofun, nofun⟩
    | some status => exact ⟨congrArg some, Option.some.inj⟩
  have hpaid := (createInvoice balance items status).everPaid_iff calls
  have hle := (createInvoice balance items status).countSteps_coversRecorded_le calls
  rw [hcreated] at hpaid
  rw [creditedOnce_iff_count _ _ rfl]
  show _ * creditTotal items = (if _ then creditTotal items else 0) ↔ _
  by_cases hever : (createInvoice balance items status).everPaid calls = true
  · rw [if_pos hever, mul_eq_self_iff]
    have hcases := hpaid.mp hever
    refine or_congr Iff.rfl ⟨.inl, fun h => h.resolve_right fun hnever => ?_⟩
    exact hcases.elim hnever.1 (by omega)
  · have hnever := not_or.mp (mt hpaid.mpr hever)
    have hzero : (createInvoice balance items status).countSteps coversRecorded calls = 0 := by
      omega
    rw [if_neg hever, hzero]
    exact ⟨fun _ => .inr (.inr ⟨hnever.1, by omega⟩), fun _ => Int.zero_mul _⟩

/-- A deposit: created as Paid, and its payment recorded right after. -/
example : CreditedOnce (createInvoice 0 [⟨1000, .credit⟩] (some .paid))
    [(0, .recordPayment 1000 "Stripe".toList none)] := by decide

/-- A deposit whose payment is recorded, and one cent more, is added twice; one that is paid by
`processPayment` is not added at all. -/
theorem creditedOnce_fails :
    ¬ CreditedOnce (createInvoice 0 [⟨1000, .credit⟩] none)
      [(0, .recordPayment 1000 "Stripe".toList none), (1, .recordPayment 1 "Stripe".toList none)] ∧
    ¬ CreditedOnce (createInvoice 0 [⟨1000, .credit⟩] none)
      [(0, .processPayment 1000 "Cash".toList none)] := by
  constructor
  · decide
  · decide

end ValidEmailVerifier.Billing
