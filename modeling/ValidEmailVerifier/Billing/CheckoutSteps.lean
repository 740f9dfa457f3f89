/-
# `Billing.CheckoutSteps` — what one step of the billing machine can do

An instruction looks, saves columns of one intent, completes an intent, or moves money;
`exec_cases` gives the store and the code it leaves.  A request never has more than one
instruction left, so an action changes the store, starts a request, or executes the one
instruction of a request (`act_cases`).
-/
import ValidEmailVerifier.Billing.CheckoutIntents

namespace ValidEmailVerifier.Checkout

open Processes Billing

/-! ## What an instruction does -/

/-- The instructions that look before they do something, and may end the request. -/
def checks : Instr → Bool
  | .loadIntent _ _ | .loadWebhook _ _ | .checkIntent _ _ _ | .loadPay _ _ _ | .loadExpired _
  | .startPayment _ _ _ | .expireIntent _ _ | .loadInvoice _ _ _ | .loadPayment _ _ _ => true
  | _ => false

/-- An instruction that only looks, and what the request does next. -/
inductive Looks (s : Store) : Instr → List Instr → Prop
  | rest {instr : Instr} (h : checks instr = true) : Looks s instr []
  | loadIntent {i : Nat} {intent : CheckoutIntent} {isPaid : Bool}
      (h : s.intents[i]? = some intent) :
      Looks s (.loadIntent i isPaid) [.checkIntent i intent isPaid]
  | loadWebhook {i : Nat} {intent : CheckoutIntent} {paymentIntent : Option Text}
      (h : s.intents[i]? = some intent) :
      Looks s (.loadWebhook i paymentIntent) [.saveWebhook i intent paymentIntent]
  | checkIntent {i : Nat} {intent : CheckoutIntent} {isPaid : Bool}
      (h : intent.status = .pending) :
      Looks s (.checkIntent i intent isPaid) [.beginCompletion i intent isPaid]
  | beginCompletion {i : Nat} {intent : CheckoutIntent} {isPaid : Bool} :
      Looks s (.beginCompletion i intent isPaid) [.commitCompletion i intent isPaid s.balance]
  | loadPay {i : Nat} {intent : CheckoutIntent} {useCredit : Bool} {paymentIntent : Option Text}
      (h : s.intents[i]? = some intent) :
      Looks s (.loadPay i useCredit paymentIntent)
        [.planCredit i intent s.balance useCredit paymentIntent]
  | loadExpired {i : Nat} {intent : CheckoutIntent} (h : s.intents[i]? = some intent) :
      Looks s (.loadExpired i) [.expireIntent i intent]
  | loadInvoice {j : Nat} {amount : Int} :
      Looks s (.loadInvoice j amount false) [.applyCredit j amount s.balance]
  | loadInvoicePortal {j : Nat} {amount : Int} :
      Looks s (.loadInvoice j amount true) [.applyCreditToInvoice j amount s.balance]
  | loadPayment {j : Nat} {amount : Int} {transactionId : Text} :
      Looks s (.loadPayment j amount transactionId)
        [.recordPayment j amount "Stripe".toList (some transactionId)]

/-- An instruction that saves columns of intent `i`, by a change of its row. -/
inductive Saves (now : Nat) :
    Instr → Nat → (CheckoutIntent → CheckoutIntent) → List Instr → Prop
  | expire {instr : Instr} {i : Nat} (h : checks instr = true) :
      Saves now instr i (fun row => { row with status := .expired }) []
  | saveWebhook {i : Nat} {intent : CheckoutIntent} {paymentIntent : Option Text} :
      Saves now (.saveWebhook i intent paymentIntent) i
        (fun row => { row with
          stripePaymentIntentId := dirty intent.stripePaymentIntentId
            (paymentIntent <|> intent.stripePaymentIntentId) row.stripePaymentIntentId
          paidAt := dirty intent.paidAt (some (intent.paidAt.getD now)) row.paidAt })
        [.checkIntent i { intent with
          stripePaymentIntentId := paymentIntent <|> intent.stripePaymentIntentId
          paidAt := some (intent.paidAt.getD now) } true]
  | planCredit {i : Nat} {intent : CheckoutIntent} {balance : Int} {useCredit : Bool}
      {paymentIntent : Option Text} {next : Instr}
      (h : next = .checkIntent i { intent with
            creditApplied := creditPlanned intent.amountCents balance useCredit } true ∨
        next = .startPayment i { intent with
            creditApplied := creditPlanned intent.amountCents balance useCredit } paymentIntent) :
      Saves now (.planCredit i intent balance useCredit paymentIntent) i
        (fun row => { row with
          creditApplied := dirty intent.creditApplied
            (creditPlanned intent.amountCents balance useCredit) row.creditApplied })
        [next]
  | startPayment {i : Nat} {intent : CheckoutIntent} {paymentIntent : Option Text} :
      Saves now (.startPayment i intent paymentIntent) i
        (fun row => { row with
          stripePaymentIntentId := dirty intent.stripePaymentIntentId
            (paymentIntent <|> intent.stripePaymentIntentId) row.stripePaymentIntentId })
        []

/-- What an instruction does to the store, and the code it leaves. -/
inductive Does (s : Store) : Instr → Store → List Instr → Prop
  | look {instr : Instr} {code : List Instr} (h : Looks s instr code) : Does s instr s code
  | save {instr : Instr} {i : Nat} {f : CheckoutIntent → CheckoutIntent} {code : List Instr}
      (h : Saves s.now instr i f code) : Does s instr (s.updateIntent i f) code
  | complete {i : Nat} {intent : CheckoutIntent} {isPaid : Bool} {balance : Int} :
      Does s (.commitCompletion i intent isPaid balance) (completion s i intent isPaid balance) []
  | take {j : Nat} {amount balance : Int} {a : Account} (ha : s.account j = some a)
      (hsome : 0 < min amount a.calculateBalanceDue)
      (henough : min amount a.calculateBalanceDue ≤ balance) :
      Does s (.applyCredit j amount balance)
        { s with balance := balance - min amount a.calculateBalanceDue }
        [.recordCredit j (min amount a.calculateBalanceDue)]
  | keep {j : Nat} {amount balance : Int}
      (h : ∀ a, s.account j = some a → 0 < min amount a.calculateBalanceDue →
        balance < min amount a.calculateBalanceDue) :
      Does s (.applyCredit j amount balance) s []
  | record {j : Nat} {amount : Int} {invoice : Invoice} (hj : j < s.invoices.length) :
      Does s (.recordCredit j amount)
        (s.saveInvoice j invoice ⟨amount, "Credit Balance".toList, none, s.now⟩) []
  | miss {j : Nat} {amount : Int} (h : s.account j = none) : Does s (.recordCredit j amount) s []
  | transfer {j : Nat} {amount balance : Int} {a : Account} {invoice : Invoice}
      (ha : s.account j = some a) (hsome : 0 < amount) (hlocked : amount ≤ s.balance)
      (hdue : amount ≤ a.calculateBalanceDue) (henough : amount ≤ balance) :
      Does s (.applyCreditToInvoice j amount balance)
        { s.saveInvoice j invoice ⟨amount, "Credit Balance".toList, none, s.now⟩ with
          balance := balance - amount } []
  | refuse {j : Nat} {amount balance : Int}
      (h : ∀ a, s.account j = some a → 0 < amount → amount ≤ s.balance →
        amount ≤ a.calculateBalanceDue → balance < amount) :
      Does s (.applyCreditToInvoice j amount balance) s []
  | pay {j : Nat} {amount : Int} {gateway : Text} {transactionId : Option Text} :
      Does s (.recordPayment j amount gateway transactionId)
        (s.recordPayment j amount gateway transactionId) []
  | deposit {amount : Int} :
      Does s (.createDeposit amount) (s.createInvoice [⟨amount, .credit⟩] .paid none)
        [.recordPayment s.invoices.length amount "Manual".toList
          (some "Admin Adjustment".toList)]

section Instructions
variable {s s' : Store} {n : Next Instr} {i j : Nat} {intent : CheckoutIntent}

theorem isSome_account (s : Store) (j : Nat) :
    (s.account j).isSome = true ↔ j < s.invoices.length := by
  rw [Store.account, Option.isSome_map]
  simp

theorem lt_of_account {a : Account} (h : s.account j = some a) : j < s.invoices.length :=
  (isSome_account s j).mp (by rw [h]; rfl)

theorem loadIntent_cases {isPaid : Bool} (h : loadIntent s i isPaid = some (s', n)) :
    Does s (.loadIntent i isPaid) s' (n.resume [] []) := by
  rw [loadIntent] at h
  split at h
  next =>
    cases h
    exact .look (.rest rfl)
  next intent hrow =>
    cases h
    exact .look (.loadIntent hrow)

theorem loadWebhook_cases {paymentIntent : Option Text}
    (h : loadWebhook s i paymentIntent = some (s', n)) :
    Does s (.loadWebhook i paymentIntent) s' (n.resume [] []) := by
  rw [loadWebhook] at h
  split at h
  next =>
    cases h
    exact .look (.rest rfl)
  next intent hrow =>
    split_ifs at h
    · cases h
      exact .look (.rest rfl)
    · cases h
      exact .save (.expire rfl)
    · cases h
      exact .look (.loadWebhook hrow)

theorem checkIntent_cases {isPaid : Bool} (h : checkIntent s i intent isPaid = some (s', n)) :
    Does s (.checkIntent i intent isPaid) s' (n.resume [] []) := by
  rw [checkIntent] at h
  split_ifs at h with hstatus
  · cases h
    exact .look (.rest rfl)
  · cases h
    exact .look (.rest rfl)
  · cases h
    exact .save (.expire rfl)
  · cases h
    exact .look (.checkIntent (not_not.mp hstatus))

theorem loadPay_cases {useCredit : Bool} {paymentIntent : Option Text}
    (h : loadPay s i useCredit paymentIntent = some (s', n)) :
    Does s (.loadPay i useCredit paymentIntent) s' (n.resume [] []) := by
  rw [loadPay] at h
  split at h
  next =>
    cases h
    exact .look (.rest rfl)
  next intent hrow =>
    cases h
    exact .look (.loadPay hrow)

theorem planCredit_cases {balance : Int} {useCredit : Bool} {paymentIntent : Option Text}
    (h : planCredit s i intent balance useCredit paymentIntent = some (s', n)) :
    Does s (.planCredit i intent balance useCredit paymentIntent) s' (n.resume [] []) := by
  rw [planCredit] at h
  cases h
  refine .save (.planCredit ?_)
  split
  · exact .inl rfl
  · exact .inr rfl

theorem startPayment_cases {paymentIntent : Option Text}
    (h : startPayment s i intent paymentIntent = some (s', n)) :
    Does s (.startPayment i intent paymentIntent) s' (n.resume [] []) := by
  rw [startPayment] at h
  split_ifs at h
  · cases h
    exact .look (.rest rfl)
  · cases h
    exact .save (.expire rfl)
  · cases h
    exact .save .startPayment

theorem loadExpired_cases (h : loadExpired s i = some (s', n)) :
    Does s (.loadExpired i) s' (n.resume [] []) := by
  rw [loadExpired] at h
  split at h
  next =>
    cases h
    exact .look (.rest rfl)
  next intent hrow =>
    cases h
    rw [Next.resume_go, List.append_nil]
    split
    · exact .look (.loadExpired hrow)
    · exact .look (.rest rfl)

theorem loadInvoice_cases {amount : Int} {portal : Bool}
    (h : loadInvoice s j amount portal = some (s', n)) :
    Does s (.loadInvoice j amount portal) s' (n.resume [] []) := by
  rw [loadInvoice] at h
  split at h
  next =>
    cases h
    exact .look (.rest rfl)
  next =>
    cases h
    cases portal with
    | false => exact .look .loadInvoice
    | true => exact .look .loadInvoicePortal

theorem applyCredit_cases {amount balance : Int}
    (h : applyCredit s j amount balance = some (s', n)) :
    Does s (.applyCredit j amount balance) s' (n.resume [] []) := by
  rw [applyCredit] at h
  cases ha : s.account j with
  | none =>
    rw [ha] at h
    cases h
    exact .keep (fun a h => nomatch ha.symm.trans h)
  | some a =>
    rw [ha] at h
    have hthis : ∀ b, s.account j = some b → b = a := by
      intro b hb
      exact Option.some.inj (hb.symm.trans ha)
    dsimp only at h
    split_ifs at h with hpoor hnothing
    · cases h
      exact .keep (fun b hb _ => hthis b hb ▸ hpoor)
    · cases h
      exact .keep (fun b hb hsome => absurd (hthis b hb ▸ hsome) (Int.not_lt.mpr hnothing))
    · cases h
      exact .take ha (Int.not_le.mp hnothing) (Int.not_lt.mp hpoor)

theorem recordCredit_cases {amount : Int} (h : recordCredit s j amount = some (s', n)) :
    Does s (.recordCredit j amount) s' (n.resume [] []) := by
  rw [recordCredit] at h
  split at h
  next ha =>
    cases h
    exact .miss ha
  next a ha =>
    cases h
    exact .record (lt_of_account ha)

/-- Credit within what is left to pay is taken whole, or not at all. -/
theorem applyCredit_within (a : Account) (now : Nat) {amount : Int} (hsome : 0 < amount)
    (hdue : amount ≤ a.calculateBalanceDue) :
    (a.balance < amount → a.applyCredit now amount = (false, a)) ∧
      (amount ≤ a.balance → ∃ a', a.applyCredit now amount = (true, a') ∧
        a'.balance = a.balance - amount) := by
  rw [Account.applyCredit, min_eq_left hdue]
  dsimp only
  constructor
  · intro hless
    rw [if_pos hless]
  · intro henough
    rw [if_neg (by omega), if_neg (by omega)]
    refine ⟨_, rfl, ?_⟩
    rw [Account.balance_syncStatus]
    rfl

theorem applyCreditToInvoice_cases {amount balance : Int}
    (h : applyCreditToInvoice s j amount balance = some (s', n)) :
    Does s (.applyCreditToInvoice j amount balance) s' (n.resume [] []) := by
  rw [applyCreditToInvoice] at h
  cases ha : s.account j with
  | none =>
    rw [ha] at h
    cases h
    exact .refuse (fun a h => nomatch ha.symm.trans h)
  | some a =>
    rw [ha] at h
    have hthis : ∀ b, s.account j = some b → b = a := by
      intro b hb
      exact Option.some.inj (hb.symm.trans ha)
    dsimp only at h
    by_cases hrefused : amount ≤ 0 ∨ s.balance < amount ∨ a.calculateBalanceDue < amount
    · rw [if_pos hrefused] at h
      cases h
      refine .refuse ?_
      intro b hb hsome hlocked hdue
      rw [hthis b hb] at hdue
      omega
    · rw [if_neg hrefused] at h
      have hsome : 0 < amount := by omega
      have hlocked : amount ≤ s.balance := by omega
      have hdue : amount ≤ a.calculateBalanceDue := by omega
      have hwithin := applyCredit_within { a with balance := balance } s.now hsome hdue
      by_cases hless : balance < amount
      · rw [hwithin.1 hless] at h
        cases h
        exact .refuse (fun _ _ _ _ _ => hless)
      · have henough : amount ≤ balance := Int.not_lt.mp hless
        obtain ⟨a', hcredit, hbalance⟩ := hwithin.2 henough
        rw [hcredit] at h
        dsimp only at h
        rw [if_pos rfl, hbalance] at h
        cases h
        exact .transfer ha hsome hlocked hdue henough

theorem loadPayment_cases {amount : Int} {transactionId : Text}
    (h : loadPayment s j amount transactionId = some (s', n)) :
    Does s (.loadPayment j amount transactionId) s' (n.resume [] []) := by
  rw [loadPayment] at h
  split at h
  next =>
    cases h
    exact .look (.rest rfl)
  next a ha =>
    cases h
    rw [Next.resume_go, List.append_nil]
    split
    · exact .look (.rest rfl)
    · exact .look .loadPayment

end Instructions

theorem exec_cases {p : Nat} {instr : Instr} {s s' : Store} {n : Next Instr}
    (h : exec p instr s = some (s', n)) : Does s instr s' (n.resume [] []) := by
  cases instr with
  | loadIntent i isPaid => exact loadIntent_cases h
  | loadWebhook i paymentIntent => exact loadWebhook_cases h
  | saveWebhook i intent paymentIntent =>
    cases h
    exact .save .saveWebhook
  | checkIntent i intent isPaid => exact checkIntent_cases h
  | beginCompletion i intent isPaid =>
    cases h
    exact .look .beginCompletion
  | commitCompletion i intent isPaid balance =>
    cases h
    exact .complete
  | loadPay i useCredit paymentIntent => exact loadPay_cases h
  | planCredit i intent balance useCredit paymentIntent => exact planCredit_cases h
  | startPayment i intent paymentIntent => exact startPayment_cases h
  | loadExpired i => exact loadExpired_cases h
  | expireIntent i intent =>
    cases h
    exact .save (.expire rfl)
  | loadInvoice j amount portal => exact loadInvoice_cases h
  | applyCredit j amount balance => exact applyCredit_cases h
  | recordCredit j amount => exact recordCredit_cases h
  | applyCreditToInvoice j amount balance => exact applyCreditToInvoice_cases h
  | loadPayment j amount transactionId => exact loadPayment_cases h
  | recordPayment j amount gateway transactionId =>
    cases h
    exact .pay
  | createDeposit amount =>
    cases h
    exact .deposit

theorem Does.length_le {s s' : Store} {instr : Instr} {code : List Instr}
    (h : Does s instr s' code) : code.length ≤ 1 := by
  cases h with
  | look h =>
    cases h with
    | rest => exact Nat.zero_le _
    | _ => exact Nat.le_refl _
  | save h =>
    cases h with
    | expire | startPayment => exact Nat.zero_le _
    | _ => exact Nat.le_refl _
  | complete | keep | record | miss | transfer | refuse | pay => exact Nat.zero_le _
  | take | deposit => exact Nat.le_refl _

/-! ## The records of a completion -/

/-- The completion takes credit. -/
def takesCredit (s : Store) (intent : CheckoutIntent) (isPaid : Bool) : Bool :=
  isPaid && 0 < intent.creditApplied &&
    match intent.type with
    | .credit => false
    | .invoice => intent.invoiceId.any fun j => (s.account j).isSome
    | .order => true

/-- The invoices by their items and the intents that they are of. -/
def Store.rows (s : Store) : List (List InvoiceItem × Option Nat) :=
  s.invoices.map fun row => (row.items, row.intent)

theorem Store.length_rows (s : Store) : s.rows.length = s.invoices.length := List.length_map _

/-- Nothing but amounts, statuses and payments of invoices has changed. -/
structure SameRecords (s s' : Store) : Prop where
  rows : s'.rows = s.rows
  intents : s'.intents = s.intents
  orders : s'.orders = s.orders
  debits : s'.debits = s.debits

theorem SameRecords.refl (s : Store) : SameRecords s s := ⟨rfl, rfl, rfl, rfl⟩

theorem SameRecords.trans {s t u : Store} (h : SameRecords s t) (h' : SameRecords t u) :
    SameRecords s u :=
  ⟨h'.rows.trans h.rows, h'.intents.trans h.intents, h'.orders.trans h.orders,
    h'.debits.trans h.debits⟩

theorem SameRecords.length {s s' : Store} (h : SameRecords s s') :
    s'.invoices.length = s.invoices.length := by
  rw [← Store.length_rows, h.rows, Store.length_rows]

section Records
variable (s : Store) (i j : Nat) (intent : CheckoutIntent)

theorem rows_saveInvoice (invoice : Invoice) (t : Transaction) :
    (s.saveInvoice j invoice t).rows = s.rows := by
  apply List.ext_getElem?
  intro k
  show ((s.invoices.modify j _).map _)[k]? = (s.invoices.map _)[k]?
  rw [List.getElem?_map, List.getElem?_map, List.getElem?_modify]
  cases s.invoices[k]? with
  | none => rfl
  | some row =>
    rw [Option.map_eq_map, Option.map_some, Option.map_some, Option.map_some]
    split
    · rfl
    · rfl

theorem sameRecords_recordPayment (amount : Int) (method : Text) (transactionId : Option Text) :
    SameRecords s (s.recordPayment j amount method transactionId) := by
  rw [Store.recordPayment]
  split
  · exact .refl s
  · exact ⟨rows_saveInvoice s j _ ⟨amount, method, transactionId, s.now⟩, rfl, rfl, rfl⟩

theorem sameRecords_pay (credit : Nat) : SameRecords s (pay s j intent credit) := by
  have hrest : ∀ (s : Store) (rest : Int), SameRecords s (if 0 < rest then
      s.recordPayment j rest (gateway intent) intent.stripePaymentIntentId else s) := by
    intro s rest
    by_cases hpos : 0 < rest
    · rw [if_pos hpos]
      exact sameRecords_recordPayment _ _ _ _ _
    · rw [if_neg hpos]
      exact .refl s
  rw [pay]
  by_cases hcredit : 0 < credit
  · rw [if_pos hcredit]
    exact (sameRecords_recordPayment _ _ _ _ _).trans (hrest _ _)
  · rw [if_neg hcredit]
    exact hrest _ _

theorem rows_createInvoice (items : List InvoiceItem) (status : InvoiceStatus)
    (source : Option Nat) :
    (s.createInvoice items status source).rows = s.rows ++ [(items, source)] :=
  List.map_append

theorem debits_debit (loaded : Int) (credit : Nat) :
    (s.debit i loaded credit).debits =
      s.debits ++ if 0 < credit then [⟨i, credit, s.balance⟩] else [] := by
  rw [Store.debit]
  by_cases hzero : credit = 0
  · rw [if_pos hzero, if_neg (by omega), List.append_nil]
  · rw [if_neg hzero, if_pos (by omega)]

theorem sameRows_debit (loaded : Int) (credit : Nat) :
    (s.debit i loaded credit).rows = s.rows ∧ (s.debit i loaded credit).orders = s.orders ∧
      (s.debit i loaded credit).intents = s.intents ∧ (s.debit i loaded credit).now = s.now := by
  rw [Store.debit]
  split
  · exact ⟨rfl, rfl, rfl, rfl⟩
  · exact ⟨rfl, rfl, rfl, rfl⟩

/-- What the completion of an intent leaves. -/
structure Completed (s : Store) (i : Nat) (intent : CheckoutIntent) (isPaid : Bool)
    (s' : Store) : Prop where
  rows : ∃ new, s'.rows = s.rows ++ new ∧ new.length ≤ 1 ∧
    ∀ r ∈ new, r.2 = some i ∧ ∀ item ∈ r.1, 0 ≤ item.amount
  orders : ∃ new, s'.orders = s.orders ++ new ∧ new.length ≤ 1 ∧
    ∀ o ∈ new, o.checkoutIntentId = i
  debits : s'.debits = s.debits ++
    if takesCredit s intent isPaid then [⟨i, intent.creditApplied, s.balance⟩] else []
  intents : s'.intents = (saveCompleted s i intent isPaid).intents

theorem takesCredit_credit (isPaid : Bool) (htype : intent.type = .credit) :
    takesCredit s intent isPaid = false := by
  rw [takesCredit, htype]
  exact Bool.and_false _

/-- The rows of a new invoice for an intent. -/
theorem rowsOf_newInvoice {i amountCents : Nat} {type : ItemType} :
    ∀ r ∈ [([(⟨amountCents, type⟩ : InvoiceItem)], some i)], r.2 = some i ∧
      ∀ item ∈ r.1, 0 ≤ item.amount := by
  intro r hr
  rw [List.mem_singleton.mp hr]
  refine ⟨rfl, ?_⟩
  intro item hitem
  rw [List.mem_singleton.mp hitem]
  exact Int.natCast_nonneg _

theorem completed_credit (isPaid : Bool) (htype : intent.type = .credit) :
    Completed s i intent isPaid (completeCredit s i intent isPaid) := by
  let s₁ := (saveCompleted s i intent isPaid).createInvoice
    [⟨intent.amountCents, .credit⟩] (createdStatus isPaid) (some i)
  have hsame : SameRecords s₁ (completeCredit s i intent isPaid) := by
    rw [completeCredit]
    split
    · exact sameRecords_recordPayment _ _ _ _ _
    · exact .refl _
  refine ⟨⟨[([⟨intent.amountCents, .credit⟩], some i)], ?_, Nat.le_refl _, ?_⟩,
    ⟨[], ?_, Nat.zero_le _, fun _ h => nomatch h⟩, ?_, hsame.intents⟩
  · exact hsame.rows.trans (rows_createInvoice _ _ _ _)
  · exact rowsOf_newInvoice
  · exact hsame.orders.trans (List.append_nil _).symm
  · rw [takesCredit_credit s intent isPaid htype, if_neg Bool.false_ne_true, List.append_nil]
    exact hsame.debits

/-- A completion that creates nothing but a debit. -/
theorem Completed.without {s s' : Store} {i : Nat} {intent : CheckoutIntent} {isPaid : Bool}
    (hrows : s'.rows = s.rows) (horders : s'.orders = s.orders)
    (hdebits : s'.debits = s.debits ++
      if takesCredit s intent isPaid then [⟨i, intent.creditApplied, s.balance⟩] else [])
    (hintents : s'.intents = (saveCompleted s i intent isPaid).intents) :
    Completed s i intent isPaid s' :=
  ⟨⟨[], hrows.trans (List.append_nil _).symm, Nat.zero_le _, fun _ h => nomatch h⟩,
    ⟨[], horders.trans (List.append_nil _).symm, Nat.zero_le _, fun _ h => nomatch h⟩,
    hdebits, hintents⟩

/-- The completion of an invoice payment pays an invoice that is there, or does nothing more. -/
theorem completeInvoice_cases (isPaid : Bool) (balance : Int) (htype : intent.type = .invoice) :
    (completeInvoice s i intent isPaid balance = saveCompleted s i intent isPaid ∧
      takesCredit s intent isPaid = false) ∨
    ∃ j, j < s.invoices.length ∧
      completeInvoice s i intent isPaid balance =
        pay ((saveCompleted s i intent isPaid).debit i balance intent.creditApplied) j intent
          intent.creditApplied ∧
      takesCredit s intent isPaid = decide (0 < intent.creditApplied) := by
  have htakes : takesCredit s intent isPaid = (isPaid && 0 < intent.creditApplied &&
      intent.invoiceId.any fun j => (s.account j).isSome) := by
    rw [takesCredit, htype]
  rw [completeInvoice]
  cases hinvoice : intent.invoiceId with
  | none =>
    rw [hinvoice, Option.any_none, Bool.and_false] at htakes
    exact .inl ⟨rfl, htakes⟩
  | some j =>
    rw [hinvoice, Option.any_some] at htakes
    have haccount : (saveCompleted s i intent isPaid).account j = s.account j := rfl
    dsimp only
    rw [haccount]
    by_cases hfound : (s.account j).isSome = true ∧ isPaid = true
    · rw [if_pos hfound]
      rw [hfound.1, Bool.and_true] at htakes
      exact .inr ⟨j, (isSome_account s j).mp hfound.1, rfl,
        htakes.trans (by rw [hfound.2, Bool.true_and])⟩
    · rw [if_neg hfound]
      refine .inl ⟨rfl, Bool.eq_false_iff.mpr ?_⟩
      intro h
      rw [htakes, Bool.and_eq_true, Bool.and_eq_true] at h
      exact hfound ⟨h.2, h.1.1⟩

theorem completed_invoice (isPaid : Bool) (balance : Int) (htype : intent.type = .invoice) :
    Completed s i intent isPaid (completeInvoice s i intent isPaid balance) := by
  rcases completeInvoice_cases s i intent isPaid balance htype with
    ⟨heq, htakes⟩ | ⟨j, -, heq, htakes⟩
  · rw [heq]
    refine .without rfl rfl ?_ rfl
    rw [htakes, if_neg Bool.false_ne_true, List.append_nil]
    rfl
  · let s₁ := saveCompleted s i intent isPaid
    have hsame := sameRecords_pay (s₁.debit i balance intent.creditApplied) j intent
      intent.creditApplied
    obtain ⟨hrows, horders, hintents, -⟩ := sameRows_debit s₁ i balance intent.creditApplied
    rw [heq]
    refine .without (hsame.rows.trans hrows) (hsame.orders.trans horders) ?_
      (hsame.intents.trans hintents)
    rw [hsame.debits, debits_debit, htakes]
    simp only [decide_eq_true_eq]
    rfl

/-- The credit that the completion of an order takes. -/
def orderCredit (intent : CheckoutIntent) (isPaid : Bool) : Nat :=
  if isPaid then intent.creditApplied else 0

/-- The store when an order has been created and its intent completed, without an invoice. -/
def ordered (isPaid : Bool) (balance : Int) : Store :=
  saveCompleted { s.debit i balance (orderCredit intent isPaid) with
    orders := (s.debit i balance (orderCredit intent isPaid)).orders ++
      [⟨i, intent.amountCents⟩] } i intent isPaid

/-- The store with the invoice. -/
def invoiced (isPaid : Bool) (balance : Int) : Store :=
  (ordered s i intent isPaid balance).createInvoice [⟨intent.amountCents, .order⟩]
    (createdStatus isPaid) (some i)

theorem completeOrder_eq (isPaid : Bool) (balance : Int) :
    completeOrder s i intent isPaid balance =
      if isPaid then
        pay (invoiced s i intent isPaid balance)
          (ordered s i intent isPaid balance).invoices.length intent (orderCredit intent isPaid)
      else invoiced s i intent isPaid balance := rfl

theorem takesCredit_order (isPaid : Bool) (htype : intent.type = .order) :
    takesCredit s intent isPaid = (isPaid && 0 < intent.creditApplied) := by
  rw [takesCredit, htype]
  exact Bool.and_true _

theorem completed_order (isPaid : Bool) (balance : Int) (htype : intent.type = .order) :
    Completed s i intent isPaid (completeOrder s i intent isPaid balance) := by
  have hsame : SameRecords (invoiced s i intent isPaid balance)
      (completeOrder s i intent isPaid balance) := by
    rw [completeOrder_eq]
    cases isPaid with
    | false => exact .refl _
    | true => exact sameRecords_pay _ _ _ _
  obtain ⟨hrows, horders, hintents, hnow⟩ :=
    sameRows_debit s i balance (orderCredit intent isPaid)
  refine ⟨⟨[([⟨intent.amountCents, .order⟩], some i)], ?_, Nat.le_refl _, ?_⟩,
    ⟨[⟨i, intent.amountCents⟩], ?_, Nat.le_refl _, ?_⟩, ?_, ?_⟩
  · rw [hsame.rows, invoiced, rows_createInvoice]
    exact congrArg (· ++ _) hrows
  · exact rowsOf_newInvoice
  · rw [hsame.orders]
    exact congrArg (· ++ _) horders
  · intro o ho
    rw [List.mem_singleton.mp ho]
  · rw [hsame.debits, takesCredit_order s intent isPaid htype]
    have hdebits := debits_debit s i balance (orderCredit intent isPaid)
    cases isPaid with
    | false => exact hdebits
    | true =>
      refine hdebits.trans ?_
      rw [Bool.true_and]
      simp only [decide_eq_true_eq]
      rfl
  · rw [hsame.intents]
    show (s.debit i balance (orderCredit intent isPaid)).intents.modify i (fun row => { row with
      status := .completed
      paidAt := dirty intent.paidAt (if isPaid then some (intent.paidAt.getD
        (s.debit i balance (orderCredit intent isPaid)).now) else none) row.paidAt }) = _
    rw [hintents, hnow]
    rfl

theorem completion_cases (isPaid : Bool) (balance : Int) :
    Completed s i intent isPaid (completion s i intent isPaid balance) := by
  rw [completion]
  cases htype : intent.type with
  | credit => exact completed_credit s i intent isPaid htype
  | invoice => exact completed_invoice s i intent isPaid balance htype
  | order => exact completed_order s i intent isPaid balance htype

/-- The invoices only grow. -/
theorem length_completion (isPaid : Bool) (balance : Int) :
    s.invoices.length ≤ (completion s i intent isPaid balance).invoices.length := by
  obtain ⟨new, hrows, -⟩ := (completion_cases s i intent isPaid balance).rows
  rw [← Store.length_rows, ← Store.length_rows, hrows, List.length_append]
  exact Nat.le_add_right _ _

end Records

/-! ## What an action does -/

/-- What the environment does to the store. -/
inductive Environ (s : Store) : Action → Store → Prop
  | tick (seconds : Nat) : Environ s (.tick seconds) { s with now := s.now + seconds }
  | intent {a : Action} (type : IntentType) (amountCents : Nat) :
      Environ s a (s.newIntent type amountCents)
  | invoiceIntent (j : Nat) (a : Account) :
      Environ s (.createInvoiceIntent j) (s.newInvoiceIntent j a)
  | invoice (items : List InvoiceItem) (status : InvoiceStatus) :
      Environ s (.createInvoice items status) (s.createInvoice items status none)

/-- The instructions that a request starts with. -/
def starts : Instr → Bool
  | .loadIntent _ _ | .loadWebhook _ _ | .loadExpired _ | .loadPay _ _ _ | .loadInvoice _ _ _
  | .loadPayment _ _ _ | .createDeposit _ => true
  | _ => false

/-- The instruction that a step executes. -/
def nextInstr (c : State) : Action → Option Instr
  | .exec p => c.nextAt p
  | _ => none

theorem nextInstr_exec {c : State} {p : Nat} {k : Kind} {i : Instr} {rest : List Instr}
    (h : c.At p k (i :: rest)) : nextInstr c (.exec p) = some i := Conf.nextAt_eq h

/-- A step, by shape. -/
inductive Shape (c : State) : Action → State → Prop
  | environ {a : Action} {s' : Store} (ha : nextInstr c a = none) (h : Environ c.store a s') :
      Shape c a (withStore c s')
  | start {a : Action} {k : Kind} {i : Instr} (ha : nextInstr c a = none)
      (h : starts i = true) : Shape c a (c.spawn k [i])
  | exec {p : Nat} {k : Kind} {i : Instr} {s' : Store} {code : List Instr}
      (hat : c.At p k [i]) (hdoes : Does c.store i s' code) :
      Shape c (.exec p) ((withStore c s').setCode p code)

theorem act_cases {c c' : State} {a : Action} (hone : c.OneLeft) (h : act c a = some c') :
    Shape c a c' := by
  cases a with
  | tick seconds =>
    cases h
    exact .environ rfl (.tick seconds)
  | createIntent amountCents =>
    cases h
    exact .environ rfl (.intent .order amountCents)
  | createCreditIntent amountCents =>
    cases h
    exact .environ rfl (.intent .credit amountCents)
  | createInvoiceIntent j =>
    obtain ⟨a, -, rfl⟩ := Option.map_eq_some_iff.mp h
    exact .environ rfl (.invoiceIntent j a)
  | createInvoice items status =>
    cases h
    exact .environ rfl (.invoice items status)
  | complete | webhook | sessionExpired | pay | applyCredit | payInvoice | addCredit =>
    cases h
    exact .start rfl rfl
  | exec p =>
    obtain ⟨k, i, s', n, hat, hexec, rfl⟩ := hone.execAt_cases h
    exact .exec hat (exec_cases hexec)

theorem oneLeft_act {c c' : State} {a : Action} (hone : c.OneLeft) (h : act c a = some c') :
    c'.OneLeft := by
  cases act_cases hone h with
  | environ => exact hone
  | start => exact hone.spawn _ (Nat.le_refl _)
  | @exec p k i s' code hat hdoes =>
    have hone' : (withStore c s').OneLeft := hone
    exact hone'.setCode p hdoes.length_le

end ValidEmailVerifier.Checkout
