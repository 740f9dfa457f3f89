/-
# `Billing.Refunds` — refunds, and what the status of an invoice says

A refund is a transaction with a negative amount.  `processRefund` takes any amount, and sets
the status by the total of the invoice, not by what was paid; the payments bring the status up
to date by what is left to pay, except where it is protected, and Refunded is.

So the status agrees with the transactions after every operation exactly if no refund takes
more than what is left of the payments, a refund has reached the total of the invoice exactly
when it has taken everything paid, and nothing is paid on an invoice that is Refunded
(`alwaysAgrees_iff`).
-/
import Mathlib.Algebra.Order.BigOperators.Group.List
import ValidEmailVerifier.Billing.Invoices

namespace ValidEmailVerifier.Billing

/-! ## Refunds -/

namespace Account

variable (a : Account)

/-- The payments: the amounts above zero. -/
def payments : Int := (a.transactions.map fun t => max 0 t.amount).sum

/-- The refunds: the amounts below zero, without their sign. -/
def refunds : Int := (a.transactions.map fun t => max 0 (-t.amount)).sum

def processRefund (now : Nat) (amount : Int) : Bool × Account :=
  if amount ≤ 0 then (false, a)
  else
    let a := a.createTransaction ⟨-amount, "Refund".toList, none, now⟩
    let a := { a with invoice.balanceDue := a.calculateBalanceDue }
    (true, { a with invoice.status :=
      if a.invoice.total ≤ a.refunds then .refunded else .partiallyRefunded })

end Account

inductive Operation where
  | call (c : Call)
  | refund (amount : Int)

def Account.operate (a : Account) (now : Nat) : Operation → Account
  | .call c => a.call now c
  | .refund amount => (a.processRefund now amount).2

/-! ## The law -/

/-- The refunds are covered by the payments, and the status says what they are. -/
structure Agrees (a : Account) : Prop where
  covered : a.refunds ≤ a.payments
  paid : a.invoice.status = .paid → a.calculateTotal ≤ a.payments - a.refunds
  refunded : a.invoice.status = .refunded → a.refunds = a.payments
  part : a.invoice.status = .partiallyRefunded → 0 < a.refunds ∧ a.refunds < a.payments

/-- After every operation of a run. -/
def AlwaysAgrees (a : Account) : List (Nat × Operation) → Prop
  | [] => True
  | (now, o) :: rest => Agrees (a.operate now o) ∧ AlwaysAgrees (a.operate now o) rest

/-! ## The condition -/

/-- The amount of the transaction that a call makes, if it makes one. -/
def recorded (a : Account) : Call → Option Int
  | .recordPayment amount _ _ => some amount
  | .applyCredit amount =>
      let amount := min amount a.calculateBalanceDue
      if amount ≤ a.balance ∧ 0 < amount then some amount else none
  | .applyCreditToInvoice amount =>
      if 0 < amount ∧ amount ≤ a.balance ∧ amount ≤ a.calculateBalanceDue then some amount
      else none
  | .processPayment amount _ _ =>
      let amount := min amount a.calculateBalanceDue
      if 0 < amount then some amount else none
  | .elsewhere _ => none

/-- An invoice that is Paid has nothing left to pay, and one that is Partially Refunded has been
refunded in part. -/
def settled (a : Account) : Bool :=
  (a.invoice.status != .paid || a.calculateBalanceDue ≤ 0) &&
    (a.invoice.status != .partiallyRefunded || (0 < a.refunds && a.refunds < a.payments))

/-- A refund is covered, and reaches the total of the invoice exactly when it takes everything
paid; nothing is recorded on an invoice that is Refunded, and what is taken back is covered; and
where an operation does nothing, the invoice is settled. -/
def inOrder (a : Account) : Operation → Bool
  | .refund amount =>
      if amount ≤ 0 then settled a
      else a.refunds + amount ≤ a.payments &&
        (decide (a.invoice.total ≤ a.refunds + amount) == decide (a.refunds + amount = a.payments))
  | .call c =>
      match recorded a c with
      | none => settled a
      | some amount => a.refunds ≤ a.payments + amount &&
          (a.invoice.status != .refunded || amount = 0)

/-- Every operation of a run is in order. -/
def AllInOrder (a : Account) : List (Nat × Operation) → Prop
  | [] => True
  | (now, o) :: rest => inOrder a o = true ∧ AllInOrder (a.operate now o) rest

/-! ## What a transaction does to the sums -/

namespace Account

variable (a : Account)

theorem refunds_nonneg : 0 ≤ a.refunds := by
  refine List.sum_nonneg fun x hx => ?_
  obtain ⟨t, -, rfl⟩ := List.mem_map.mp hx
  exact Int.le_max_left _ _

/-- What was paid is what the payments leave over the refunds. -/
theorem totalPaid_eq : a.totalPaid = a.payments - a.refunds := by
  have hsum : ∀ l : List Transaction, (l.map (·.amount)).sum =
      (l.map fun t => max 0 t.amount).sum - (l.map fun t => max 0 (-t.amount)).sum := by
    intro l
    induction l with
    | nil => rfl
    | cons t rest ih =>
      rw [List.map_cons, List.sum_cons, List.map_cons, List.sum_cons, List.map_cons,
        List.sum_cons, ih]
      omega
  exact hsum a.transactions

theorem payments_of_transaction {b : Account} {t : Transaction}
    (h : b.transactions = a.transactions ++ [t]) : b.payments = a.payments + max 0 t.amount := by
  rw [payments, h, List.map_append, List.sum_append, List.map_singleton, List.sum_singleton,
    payments]

theorem refunds_of_transaction {b : Account} {t : Transaction}
    (h : b.transactions = a.transactions ++ [t]) : b.refunds = a.refunds + max 0 (-t.amount) := by
  rw [refunds, h, List.map_append, List.sum_append, List.map_singleton, List.sum_singleton,
    refunds]

@[simp] theorem transactions_syncStatus (now : Nat) :
    (a.syncStatus now).transactions = a.transactions := by
  rw [syncStatus]
  split_ifs <;> rfl

@[simp] theorem calculateTotal_syncStatus (now : Nat) :
    (a.syncStatus now).calculateTotal = a.calculateTotal := by
  rw [syncStatus]
  split_ifs <;> rfl

/-- Refunded is neither set by `syncStatus` nor changed by it. -/
theorem refunded_syncStatus (now : Nat) :
    (a.syncStatus now).invoice.status = .refunded ↔ a.invoice.status = .refunded := by
  rw [syncStatus]
  by_cases hprotected : a.isProtected = true
  · rw [if_pos hprotected]
  · rw [if_neg hprotected]
    have hother : a.invoice.status ≠ .refunded := by
      intro hrefunded
      rw [isProtected, hrefunded] at hprotected
      exact hprotected rfl
    refine ⟨fun h => ?_, fun h => absurd h hother⟩
    split_ifs at h

/-- Partially Refunded is not protected. -/
theorem status_syncStatus_ne (now : Nat) :
    (a.syncStatus now).invoice.status ≠ .partiallyRefunded := by
  rw [syncStatus]
  by_cases hprotected : a.isProtected = true
  · rw [if_pos hprotected]
    intro hpart
    rw [isProtected, hpart] at hprotected
    cases hprotected
  · rw [if_neg hprotected]
    split_ifs <;> simp

end Account

/-! ## What a call does -/

/-- The call leaves the invoice alone. -/
structure Idle (a a' : Account) : Prop where
  invoice : a'.invoice = a.invoice
  items : a'.items = a.items
  transactions : a'.transactions = a.transactions

/-- The call makes a transaction and brings the status up to date. -/
structure Records (a : Account) (amount : Int) (a' : Account) : Prop where
  payments : a'.payments = a.payments + max 0 amount
  refunds : a'.refunds = a.refunds + max 0 (-amount)
  total : a'.calculateTotal = a.calculateTotal
  paid : a'.invoice.status = .paid ↔
    a.isProtected = false ∧ a.calculateTotal ≤ a.totalPaid + amount
  refunded : a'.invoice.status = .refunded ↔ a.invoice.status = .refunded
  part : a'.invoice.status ≠ .partiallyRefunded

namespace Account

variable (a : Account) (now : Nat)

/-- A transaction with the update of the status behind it. -/
theorem records_of_transaction {b : Account} (t : Transaction)
    (htransactions : b.transactions = a.transactions ++ [t])
    (htotal : b.calculateTotal = a.calculateTotal) (hstatus : b.invoice.status = a.invoice.status) :
    Records a t.amount (b.syncStatus now) := by
  have hprotected : b.isProtected = a.isProtected := by rw [isProtected, isProtected, hstatus]
  have hpaid : b.totalPaid = (a.createTransaction t).totalPaid := by
    rw [totalPaid, totalPaid, htransactions]
    rfl
  have hdue : b.calculateBalanceDue = (a.createTransaction t).calculateBalanceDue := by
    rw [calculateBalanceDue, calculateBalanceDue, htotal, hpaid]
    rfl
  refine ⟨?_, ?_, ?_, a.status_of_transaction now t hprotected hdue, ?_, status_syncStatus_ne b now⟩
  · exact a.payments_of_transaction (by rw [transactions_syncStatus, htransactions])
  · exact a.refunds_of_transaction (by rw [transactions_syncStatus, htransactions])
  · rw [calculateTotal_syncStatus, htotal]
  · rw [refunded_syncStatus, hstatus]

theorem recordPayment_records (amount : Int) (method : Text) (transactionId : Option Text) :
    Records a amount (a.recordPayment now amount method transactionId) := by
  have hrecords := a.records_of_transaction now (b := a.createTransaction
    ⟨amount, method, transactionId, now⟩) ⟨amount, method, transactionId, now⟩ rfl rfl rfl
  rw [recordPayment]
  split
  · -- the Credit items change the balance only
    rw [processInvoiceItems_eq]
    exact ⟨hrecords.payments, hrecords.refunds, hrecords.total, hrecords.paid, hrecords.refunded,
      hrecords.part⟩
  · exact hrecords

theorem processPayment_records (amount : Int) (paymentMethod : Text)
    (transactionId : Option Text) (h : 0 < min amount a.calculateBalanceDue) :
    Records a (min amount a.calculateBalanceDue)
      (a.processPayment now amount paymentMethod transactionId).2 := by
  rw [processPayment]
  dsimp only
  rw [if_neg (by omega)]
  exact a.records_of_transaction now
    ⟨min amount a.calculateBalanceDue, paymentMethod, transactionId, now⟩ rfl rfl rfl

theorem applyCredit_records (amount : Int) (h : 0 < min amount a.calculateBalanceDue)
    (hbalance : min amount a.calculateBalanceDue ≤ a.balance) :
    Records a (min amount a.calculateBalanceDue) (a.applyCredit now amount).2 := by
  rw [applyCredit]
  dsimp only
  rw [if_neg (by omega), if_neg (by omega)]
  exact a.records_of_transaction now
    ⟨min amount a.calculateBalanceDue, "Credit Balance".toList, none, now⟩ rfl rfl rfl

/-- **A call leaves the invoice alone, or makes the transaction that `recorded` tells.** -/
theorem call_records (c : Call) :
    (recorded a c = none ∧ Idle a (a.call now c)) ∨
      ∃ amount, recorded a c = some amount ∧ Records a amount (a.call now c) := by
  cases c with
  | recordPayment amount method transactionId =>
    exact .inr ⟨amount, rfl, a.recordPayment_records now _ _ _⟩
  | elsewhere change => exact .inl ⟨rfl, rfl, rfl, rfl⟩
  | processPayment amount paymentMethod transactionId =>
    by_cases hsome : 0 < min amount a.calculateBalanceDue
    · exact .inr ⟨_, if_pos hsome, a.processPayment_records now _ _ _ hsome⟩
    · refine .inl ⟨if_neg hsome, ?_⟩
      rw [call, processPayment]
      dsimp only
      rw [if_pos (by omega)]
      exact ⟨rfl, rfl, rfl⟩
  | applyCredit amount =>
    by_cases hsome : min amount a.calculateBalanceDue ≤ a.balance ∧
        0 < min amount a.calculateBalanceDue
    · exact .inr ⟨_, if_pos hsome, a.applyCredit_records now _ hsome.2 hsome.1⟩
    · refine .inl ⟨if_neg hsome, ?_⟩
      rw [call, applyCredit]
      dsimp only
      by_cases hpoor : a.balance < min amount a.calculateBalanceDue
      · rw [if_pos hpoor]
        exact ⟨rfl, rfl, rfl⟩
      · rw [if_neg hpoor, if_pos (by omega)]
        exact ⟨rfl, rfl, rfl⟩
  | applyCreditToInvoice amount =>
    rw [call, applyCreditToInvoice]
    by_cases hsome : 0 < amount ∧ amount ≤ a.balance ∧ amount ≤ a.calculateBalanceDue
    · have hmin : min amount a.calculateBalanceDue = amount := min_eq_left hsome.2.2
      rw [if_neg (by omega), if_neg (by omega), if_neg (by omega)]
      have hrecords := a.applyCredit_records now amount (by omega) (by omega)
      rw [hmin] at hrecords
      exact .inr ⟨amount, if_pos hsome, hrecords⟩
    · refine .inl ⟨if_neg hsome, ?_⟩
      by_cases hnothing : amount ≤ 0
      · rw [if_pos hnothing]
        exact ⟨rfl, rfl, rfl⟩
      · by_cases hpoor : a.balance < amount
        · rw [if_neg hnothing, if_pos hpoor]
          exact ⟨rfl, rfl, rfl⟩
        · rw [if_neg hnothing, if_neg hpoor, if_pos (by omega)]
          exact ⟨rfl, rfl, rfl⟩

end Account

/-! ## One operation -/

/-- What every operation finds: the refunds are covered, and where the invoice is Refunded
everything paid has been. -/
structure Found (a : Account) : Prop where
  covered : a.refunds ≤ a.payments
  refunded : a.invoice.status = .refunded → a.refunds = a.payments

theorem Agrees.found {a : Account} (h : Agrees a) : Found a := ⟨h.covered, h.refunded⟩

theorem settled_iff (a : Account) : settled a = true ↔
    (a.invoice.status = .paid → a.calculateTotal ≤ a.payments - a.refunds) ∧
      (a.invoice.status = .partiallyRefunded → 0 < a.refunds ∧ a.refunds < a.payments) := by
  have hdue : a.calculateBalanceDue ≤ 0 ↔ a.calculateTotal ≤ a.payments - a.refunds := by
    rw [Account.calculateBalanceDue, a.totalPaid_eq]
    omega
  rw [settled, Bool.and_eq_true, Bool.or_eq_true, Bool.or_eq_true, bne_iff_ne, bne_iff_ne,
    decide_eq_true_eq, hdue, Bool.and_eq_true, decide_eq_true_eq, decide_eq_true_eq]
  exact and_congr imp_iff_not_or.symm imp_iff_not_or.symm

/-- Where nothing has been done, the status agrees if it did. -/
theorem agrees_idle {a a' : Account} (hfound : Found a) (h : Idle a a') :
    Agrees a' ↔ settled a = true := by
  have hpayments : a'.payments = a.payments := by
    rw [Account.payments, h.transactions, Account.payments]
  have hrefunds : a'.refunds = a.refunds := by
    rw [Account.refunds, h.transactions, Account.refunds]
  have htotal : a'.calculateTotal = a.calculateTotal := by
    rw [Account.calculateTotal, h.items, h.invoice, Account.calculateTotal]
  rw [settled_iff]
  constructor
  · intro hagrees
    have hpaid := hagrees.paid
    have hpart := hagrees.part
    rw [h.invoice, hpayments, hrefunds] at hpaid hpart
    rw [htotal] at hpaid
    exact ⟨hpaid, hpart⟩
  · intro hsettled
    refine ⟨?_, ?_, ?_, ?_⟩
    · rw [hpayments, hrefunds]
      exact hfound.covered
    · rw [h.invoice, htotal, hpayments, hrefunds]
      exact hsettled.1
    · rw [h.invoice, hpayments, hrefunds]
      exact hfound.refunded
    · rw [h.invoice, hpayments, hrefunds]
      exact hsettled.2

/-- A transaction has to be covered, and to be nothing on an invoice that is Refunded. -/
theorem agrees_records {a a' : Account} {amount : Int} (hfound : Found a)
    (h : Records a amount a') : Agrees a' ↔ a.refunds ≤ a.payments + amount ∧
      (a.invoice.status ≠ .refunded ∨ amount = 0) := by
  have hpayments := h.payments
  have hrefunds := h.refunds
  constructor
  · intro hagrees
    have hcovered := hagrees.covered
    refine ⟨by omega, ?_⟩
    by_cases hstatus : a.invoice.status = .refunded
    · have heverything := hagrees.refunded (h.refunded.mpr hstatus)
      have hbefore := hfound.refunded hstatus
      exact .inr (by omega)
    · exact .inl hstatus
  · rintro ⟨hcovered, hstatus⟩
    refine ⟨by have := hfound.covered; omega, ?_, ?_, fun hpart => absurd hpart h.part⟩
    · intro hpaid
      have hdue := (h.paid.mp hpaid).2
      rw [a.totalPaid_eq] at hdue
      have htotal := h.total
      omega
    · intro hrefunded
      have hbefore := h.refunded.mp hrefunded
      have hzero := hstatus.resolve_left fun hne => hne hbefore
      have heverything := hfound.refunded hbefore
      omega

/-- A refund has to be covered, and to reach the total exactly when it takes everything. -/
theorem agrees_refund {a : Account} (now : Nat) {amount : Int} (hsome : 0 < amount) :
    Agrees (a.processRefund now amount).2 ↔ a.refunds + amount ≤ a.payments ∧
      (a.invoice.total ≤ a.refunds + amount ↔ a.refunds + amount = a.payments) := by
  have hnonneg := a.refunds_nonneg
  let t : Transaction := ⟨-amount, "Refund".toList, none, now⟩
  have hpayments : (a.processRefund now amount).2.payments = a.payments := by
    rw [Account.processRefund, if_neg (by omega)]
    refine (a.payments_of_transaction (t := t) rfl).trans ?_
    have hamount : t.amount = -amount := rfl
    omega
  have hrefunds : (a.processRefund now amount).2.refunds = a.refunds + amount := by
    rw [Account.processRefund, if_neg (by omega)]
    refine (a.refunds_of_transaction (t := t) rfl).trans ?_
    have hamount : t.amount = -amount := rfl
    omega
  have hstatus : (a.processRefund now amount).2.invoice.status =
      if a.invoice.total ≤ a.refunds + amount then .refunded else .partiallyRefunded := by
    have hsum : (a.createTransaction t).refunds = a.refunds + amount := by
      rw [a.refunds_of_transaction (t := t) rfl]
      have hamount : t.amount = -amount := rfl
      omega
    rw [← hsum, Account.processRefund, if_neg (by omega)]
    rfl
  constructor
  · intro hagrees
    have hcovered := hagrees.covered
    have hrefunded := hagrees.refunded
    have hpart := hagrees.part
    rw [hpayments, hrefunds] at hcovered hrefunded hpart
    rw [hstatus] at hrefunded hpart
    refine ⟨hcovered, ?_⟩
    by_cases htotal : a.invoice.total ≤ a.refunds + amount
    · rw [if_pos htotal] at hrefunded
      exact ⟨fun _ => hrefunded rfl, fun _ => htotal⟩
    · rw [if_neg htotal] at hpart
      have := hpart rfl
      exact ⟨fun h => absurd h htotal, fun h => by omega⟩
  · rintro ⟨hcovered, htotal⟩
    refine ⟨?_, ?_, ?_, ?_⟩
    · rw [hpayments, hrefunds]
      exact hcovered
    · rw [hstatus]
      intro hpaid
      split_ifs at hpaid
    · rw [hstatus, hpayments, hrefunds]
      intro hrefunded
      split_ifs at hrefunded with hreached
      exact htotal.mp hreached
    · rw [hstatus, hpayments, hrefunds]
      intro hpart
      split_ifs at hpart with hreached
      have := mt htotal.mpr hreached
      omega

/-- **An operation leaves a status that agrees exactly if it is in order.** -/
theorem agrees_operate {a : Account} (hfound : Found a) (now : Nat) (o : Operation) :
    Agrees (a.operate now o) ↔ inOrder a o = true := by
  cases o with
  | refund amount =>
    show Agrees (a.processRefund now amount).2 ↔ _
    rw [inOrder]
    by_cases hnothing : amount ≤ 0
    · have hidle : (a.processRefund now amount).2 = a := by
        rw [Account.processRefund, if_pos hnothing]
      rw [if_pos hnothing, hidle]
      exact agrees_idle hfound ⟨rfl, rfl, rfl⟩
    · rw [if_neg hnothing, agrees_refund now (by omega), Bool.and_eq_true, decide_eq_true_eq,
        beq_iff_eq, decide_eq_decide]
  | call c =>
    show Agrees (a.call now c) ↔ _
    rw [inOrder]
    rcases a.call_records now c with ⟨hnone, hidle⟩ | ⟨amount, hsome, hrecords⟩
    · rw [hnone]
      exact agrees_idle hfound hidle
    · rw [hsome, agrees_records hfound hrecords]
      dsimp only
      rw [Bool.and_eq_true, decide_eq_true_eq, Bool.or_eq_true, bne_iff_ne, decide_eq_true_eq]

/-! ## A run -/

theorem alwaysAgrees_of_found {a : Account} (hfound : Found a) (ops : List (Nat × Operation)) :
    AlwaysAgrees a ops ↔ AllInOrder a ops := by
  induction ops generalizing a with
  | nil => exact Iff.rfl
  | cons step rest ih =>
    obtain ⟨now, o⟩ := step
    have hone := agrees_operate hfound now o
    constructor
    · rintro ⟨hagrees, hrest⟩
      exact ⟨hone.mp hagrees, (ih hagrees.found).mp hrest⟩
    · rintro ⟨horder, hrest⟩
      have hagrees := hone.mpr horder
      exact ⟨hagrees, (ih hagrees.found).mpr hrest⟩

/-- **After every operation the refunds are covered and the status agrees with the transactions,
exactly if every operation is in order.** -/
theorem alwaysAgrees_iff (balance : Int) (items : List InvoiceItem)
    (status : Option InvoiceStatus) (ops : List (Nat × Operation)) :
    AlwaysAgrees (createInvoice balance items status) ops ↔
      AllInOrder (createInvoice balance items status) ops :=
  alwaysAgrees_of_found ⟨Int.le_refl _, fun _ => rfl⟩ ops

/-- More is refunded than was paid; a partial payment that is refunded whole is called a part;
and what is paid on a Refunded invoice leaves it Refunded. -/
theorem alwaysAgrees_fails :
    ¬ AlwaysAgrees (createInvoice 0 [⟨1000, .order⟩] none)
      [(0, .call (.recordPayment 1000 "Stripe".toList none)), (1, .refund 1500)] ∧
    ¬ AlwaysAgrees (createInvoice 0 [⟨1000, .order⟩] none)
      [(0, .call (.recordPayment 400 "Stripe".toList none)), (1, .refund 400)] ∧
    ¬ AlwaysAgrees (createInvoice 0 [⟨1000, .order⟩] none)
      [(0, .call (.recordPayment 1000 "Stripe".toList none)), (1, .refund 1000),
        (2, .call (.recordPayment 1000 "Stripe".toList none))] := by
  refine ⟨fun h => ?_, fun h => ?_, fun h => ?_⟩
  · exact absurd h.2.1.covered (by decide)
  · exact absurd (h.2.1.part rfl).2 (by decide)
  · exact absurd (h.2.2.1.refunded rfl) (by decide)

end ValidEmailVerifier.Billing
