/-
# `Billing.CheckoutIntents` — the balance of one user under every interleaving

The store of one user: the balance, the checkout intents, the orders, the invoices with their
transactions.  Requests work on it one database statement at a time, and any request may take
the next step.

* A model is loaded once and used later: what was loaded is an argument of the instruction that
  uses it.
* What a transaction writes, it writes at its commit; until then others see none of it, and who
  writes the same rows waits.
* `increment` is one statement.  A balance that was loaded is written back as a value.

The fields that only the model has, what became of the balance and for which intent a row was
created, are never read by the code.
-/
import ValidEmailVerifier.Billing.Invoices
import ValidEmailVerifier.Lib.Processes
import ValidEmailVerifier.Lib.Transition
import ValidEmailVerifier.Pipeline.Schema

namespace ValidEmailVerifier.Checkout

open Processes Billing

/-! ## The store -/

inductive CheckoutIntentStatus where
  | pending | completed | expired | canceled
  deriving DecidableEq

inductive IntentType where
  | order | credit | invoice
  deriving DecidableEq

/-- A row of `checkout_intents`. -/
structure CheckoutIntent where
  status : CheckoutIntentStatus := .pending
  type : IntentType := .order
  amountCents : Nat
  creditApplied : Nat := 0
  invoiceId : Option Nat := none
  stripePaymentIntentId : Option Text := none
  paidAt : Option Nat := none
  expiresAt : Option Nat := none
  deriving DecidableEq

structure VerificationOrder where
  checkoutIntentId : Nat
  amountCents : Nat

/-- An invoice with its items, and the intent whose completion has created it. -/
structure InvoiceRow where
  invoice : Invoice
  items : List InvoiceItem
  intent : Option Nat := none

/-- What the completion of an intent takes from the balance, and the balance before. -/
structure Debit where
  intent : Nat
  credit : Nat
  before : Int

structure Store where
  now : Nat := 0
  /-- `checkout_intent_ttl_minutes`, in seconds. -/
  intentTtl : Nat := 3600
  balance : Int := 0
  intents : List CheckoutIntent := []
  orders : List VerificationOrder := []
  invoices : List InvoiceRow := []
  /-- The transactions with their invoices. -/
  transactions : List (Nat × Transaction) := []
  /-- What has been added to the balance for Credit items. -/
  deposits : List Int := []
  /-- What completions have taken from it. -/
  debits : List Debit := []

namespace Store

variable (s : Store)

/-- An invoice with its items and transactions, and the balance as it is. -/
def account (j : Nat) : Option Account :=
  s.invoices[j]?.map fun row =>
    { balance := s.balance
      invoice := row.invoice
      items := row.items
      transactions := (s.transactions.filter (·.1 = j)).map (·.2) }

def updateIntent (i : Nat) (f : CheckoutIntent → CheckoutIntent) : Store :=
  { s with intents := s.intents.modify i f }

/-- Invoice `j` is saved, with a new transaction. -/
def saveInvoice (j : Nat) (invoice : Invoice) (t : Transaction) : Store :=
  { s with
    invoices := s.invoices.modify j fun row => { row with invoice := invoice }
    transactions := s.transactions ++ [(j, t)] }

/-- The amounts of the Credit items. -/
def creditAmounts (items : List InvoiceItem) : List Int :=
  (items.filter (·.type = .credit)).map (·.amount)

/-- `recordPayment`: the Credit items of an invoice that is left Paid are added by `increment`. -/
def recordPayment (j : Nat) (amount : Int) (method : Text) (transactionId : Option Text) :
    Store :=
  match s.account j with
  | none => s
  | some a =>
      let a' := a.recordPayment s.now amount method transactionId
      { s.saveInvoice j a'.invoice ⟨amount, method, transactionId, s.now⟩ with
        balance := a'.balance
        deposits := s.deposits ++
          if a'.invoice.status = .paid then creditAmounts a.items else [] }

/-- `createInvoice`, with the status it is given. -/
def createInvoice (items : List InvoiceItem) (status : InvoiceStatus) (intent : Option Nat) :
    Store :=
  { s with invoices := s.invoices ++
      [⟨(Billing.createInvoice s.balance items (some status)).invoice, items, intent⟩] }

/-- The balance that was loaded is written back without the credit. -/
def debit (i : Nat) (loaded : Int) (credit : Nat) : Store :=
  if credit = 0 then s
  else
    { s with
      balance := loaded - credit
      debits := s.debits ++ [⟨i, credit, s.balance⟩] }

end Store

/-! ## The requests -/

inductive Instr where
  /-- The intent of the route is loaded for `completeIntent`. -/
  | loadIntent (i : Nat) (isPaid : Bool)
  | loadWebhook (i : Nat) (paymentIntent : Option Text)
  | saveWebhook (i : Nat) (intent : CheckoutIntent) (paymentIntent : Option Text)
  | checkIntent (i : Nat) (intent : CheckoutIntent) (isPaid : Bool)
  | beginCompletion (i : Nat) (intent : CheckoutIntent) (isPaid : Bool)
  | commitCompletion (i : Nat) (intent : CheckoutIntent) (isPaid : Bool) (balance : Int)
  /-- The intent and the user are loaded for `processPayment`. -/
  | loadPay (i : Nat) (useCredit : Bool) (paymentIntent : Option Text)
  | planCredit (i : Nat) (intent : CheckoutIntent) (balance : Int) (useCredit : Bool)
      (paymentIntent : Option Text)
  | startPayment (i : Nat) (intent : CheckoutIntent) (paymentIntent : Option Text)
  /-- The session of a payment has expired. -/
  | loadExpired (i : Nat)
  | expireIntent (i : Nat) (intent : CheckoutIntent)
  /-- The invoice is loaded with its user. -/
  | loadInvoice (j : Nat) (amount : Int) (portal : Bool)
  | applyCredit (j : Nat) (amount : Int) (balance : Int)
  | recordCredit (j : Nat) (amount : Int)
  | applyCreditToInvoice (j : Nat) (amount : Int) (balance : Int)
  /-- The webhook of an invoice payment. -/
  | loadPayment (j : Nat) (amount : Int) (transactionId : Text)
  | recordPayment (j : Nat) (amount : Int) (gateway : Text) (transactionId : Option Text)
  | createDeposit (amount : Int)
  deriving DecidableEq

inductive Kind where
  | checkout (i : Nat)
  | billing
  deriving DecidableEq

abbrev Effect := Option (Store × Next Instr)

section Requests
variable (s : Store) (i j : Nat) (intent : CheckoutIntent)

/-- `$intent->expires_at && $intent->expires_at->isPast()`. -/
def isPast (now : Nat) (intent : CheckoutIntent) : Bool := intent.expiresAt.any (· < now)

def expire : Store := s.updateIntent i fun row => { row with status := .expired }

/-! ### `completeIntent` -/

def loadIntent (isPaid : Bool) : Effect :=
  match s.intents[i]? with
  | none => some (s, .raise)
  | some intent => some (s, .go [.checkIntent i intent isPaid])

/-- `handleCheckoutSessionCompleted`, for the intent of the session. -/
def loadWebhook (paymentIntent : Option Text) : Effect :=
  match s.intents[i]? with
  | none => some (s, .go [])
  | some intent =>
      if intent.status ≠ .pending ∧ s.orders.any (·.checkoutIntentId = i) then some (s, .go [])
      else if isPast s.now intent then some (expire s i, .go [])
      else some (s, .go [.saveWebhook i intent paymentIntent])

def saveWebhook (paymentIntent : Option Text) : Effect :=
  let filled := { intent with
    stripePaymentIntentId := paymentIntent <|> intent.stripePaymentIntentId
    paidAt := some (intent.paidAt.getD s.now) }
  some (s.updateIntent i fun row =>
      { row with
        stripePaymentIntentId :=
          dirty intent.stripePaymentIntentId filled.stripePaymentIntentId row.stripePaymentIntentId
        paidAt := dirty intent.paidAt filled.paidAt row.paidAt },
    .go [.checkIntent i filled true])

/-- The two checks in front of the transaction. -/
def checkIntent (isPaid : Bool) : Effect :=
  if intent.status ≠ .pending then
    if intent.type = .credit ∨ s.orders.any (·.checkoutIntentId = i) then some (s, .go [])
    else some (s, .raise)
  else if isPast s.now intent then some (expire s i, .raise)
  else some (s, .go [.beginCompletion i intent isPaid])

/-- `$user->refresh()`. -/
def beginCompletion (isPaid : Bool) : Effect :=
  some (s, .go [.commitCompletion i intent isPaid s.balance])

def gateway : Text :=
  if intent.stripePaymentIntentId.isSome then "Stripe".toList else "Manual".toList

/-- The credit and the rest of the amount are recorded as payments. -/
def pay (credit : Nat) : Store :=
  let s := if 0 < credit then s.recordPayment j credit "Credit Balance".toList none else s
  let rest : Int := intent.amountCents - credit
  if 0 < rest then s.recordPayment j rest (gateway intent) intent.stripePaymentIntentId else s

/-- The status and the date that a completion saves. -/
def saveCompleted (isPaid : Bool) : Store :=
  let paidAt := if isPaid then some (intent.paidAt.getD s.now) else none
  s.updateIntent i fun row =>
    { row with status := .completed, paidAt := dirty intent.paidAt paidAt row.paidAt }

/-- The status of the invoice of a completion. -/
def createdStatus (isPaid : Bool) : InvoiceStatus := if isPaid then .paid else .unpaid

def completeCredit (isPaid : Bool) : Store :=
  let s := saveCompleted s i intent isPaid
  let j := s.invoices.length
  let s := s.createInvoice [⟨intent.amountCents, .credit⟩] (createdStatus isPaid) (some i)
  if isPaid then
    s.recordPayment j intent.amountCents (gateway intent) intent.stripePaymentIntentId
  else s

def completeInvoice (isPaid : Bool) (balance : Int) : Store :=
  let s := saveCompleted s i intent isPaid
  match intent.invoiceId with
  | none => s
  | some j =>
      if (s.account j).isSome ∧ isPaid then
        pay (s.debit i balance intent.creditApplied) j intent intent.creditApplied
      else s

def completeOrder (isPaid : Bool) (balance : Int) : Store :=
  let credit := if isPaid then intent.creditApplied else 0
  let s := s.debit i balance credit
  let s := { s with orders := s.orders ++ [⟨i, intent.amountCents⟩] }
  let s := saveCompleted s i intent isPaid
  let j := s.invoices.length
  let s := s.createInvoice [⟨intent.amountCents, .order⟩] (createdStatus isPaid) (some i)
  if isPaid then pay s j intent credit else s

/-- The transaction of `completeIntent`. -/
def completion (isPaid : Bool) (balance : Int) : Store :=
  match intent.type with
  | .credit => completeCredit s i intent isPaid
  | .invoice => completeInvoice s i intent isPaid balance
  | .order => completeOrder s i intent isPaid balance

def commitCompletion (isPaid : Bool) (balance : Int) : Effect :=
  some (completion s i intent isPaid balance, .go [])

/-! ### `processPayment` -/

def loadPay (useCredit : Bool) (paymentIntent : Option Text) : Effect :=
  match s.intents[i]? with
  | none => some (s, .raise)
  | some intent => some (s, .go [.planCredit i intent s.balance useCredit paymentIntent])

/-- `credit_applied` of `calculateTotals`. -/
def creditPlanned (total : Nat) (balance : Int) (useCredit : Bool) : Nat :=
  if useCredit ∧ 0 < balance then min total balance.toNat else 0

/-- The planned credit is saved; what it covers needs no payment. -/
def planCredit (balance : Int) (useCredit : Bool) (paymentIntent : Option Text) : Effect :=
  let credit := creditPlanned intent.amountCents balance useCredit
  let filled := { intent with creditApplied := credit }
  some (s.updateIntent i fun row =>
      { row with creditApplied := dirty intent.creditApplied credit row.creditApplied },
    .go [if intent.amountCents - credit = 0 then .checkIntent i filled true
      else .startPayment i filled paymentIntent])

/-- `startPayment`, up to the identifiers of the session. -/
def startPayment (paymentIntent : Option Text) : Effect :=
  if intent.status ≠ .pending then some (s, .raise)
  else if isPast s.now intent then some (expire s i, .raise)
  else
    let filled := paymentIntent <|> intent.stripePaymentIntentId
    some (s.updateIntent i fun row =>
        { row with
          stripePaymentIntentId :=
            dirty intent.stripePaymentIntentId filled row.stripePaymentIntentId },
      .go [])

/-- `handleCheckoutSessionExpired`. -/
def loadExpired : Effect :=
  match s.intents[i]? with
  | none => some (s, .go [])
  | some intent =>
      some (s, .go (if intent.status = .pending then [.expireIntent i intent] else []))

/-! ### Invoices -/

def loadInvoice (amount : Int) (portal : Bool) : Effect :=
  match s.account j with
  | none => some (s, .raise)
  | some _ => some (s, .go [if portal then .applyCreditToInvoice j amount s.balance
      else .applyCredit j amount s.balance])

/-- `applyCredit`, up to the user's row. -/
def applyCredit (amount balance : Int) : Effect :=
  match s.account j with
  | none => some (s, .raise)
  | some a =>
      let amount := min amount a.calculateBalanceDue
      if balance < amount then some (s, .go [])
      else if amount ≤ 0 then some (s, .go [])
      else some ({ s with balance := balance - amount }, .go [.recordCredit j amount])

/-- The rest of `applyCredit`. -/
def recordCredit (amount : Int) : Effect :=
  match s.account j with
  | none => some (s, .raise)
  | some a =>
      let t : Transaction := ⟨amount, "Credit Balance".toList, none, s.now⟩
      let a := { a with invoice.creditApplied := a.invoice.creditApplied + amount }
      let a := a.createTransaction t
      let a := { a with invoice.balanceDue := a.calculateBalanceDue }
      some (s.saveInvoice j (a.syncStatus s.now).invoice t, .go [])

/-- The transaction of `applyCreditToInvoice`: the locked row is checked, and `applyCredit` uses
the user that was loaded with the invoice. -/
def applyCreditToInvoice (amount balance : Int) : Effect :=
  match s.account j with
  | none => some (s, .raise)
  | some a =>
      if amount ≤ 0 ∨ s.balance < amount ∨ a.calculateBalanceDue < amount then some (s, .raise)
      else
        let (applied, a') := { a with balance := balance }.applyCredit s.now amount
        if applied then
          let t : Transaction := ⟨amount, "Credit Balance".toList, none, s.now⟩
          some ({ s.saveInvoice j a'.invoice t with balance := a'.balance }, .go [])
        else some (s, .go [])

def loadPayment (amount : Int) (transactionId : Text) : Effect :=
  match s.account j with
  | none => some (s, .go [])
  | some a =>
      some (s, .go (if a.invoice.status = .paid then []
        else [.recordPayment j amount "Stripe".toList (some transactionId)]))

/-- The invoice of "Add Credit". -/
def createDeposit (amount : Int) : Effect :=
  some (s.createInvoice [⟨amount, .credit⟩] .paid none,
    .go [.recordPayment s.invoices.length amount "Manual".toList
      (some "Admin Adjustment".toList)])

end Requests

/-- Execute an instruction. -/
def exec (_ : Nat) (i : Instr) (s : Store) : Effect :=
  match i with
  | .loadIntent i isPaid => loadIntent s i isPaid
  | .loadWebhook i paymentIntent => loadWebhook s i paymentIntent
  | .saveWebhook i intent paymentIntent => saveWebhook s i intent paymentIntent
  | .checkIntent i intent isPaid => checkIntent s i intent isPaid
  | .beginCompletion i intent isPaid => beginCompletion s i intent isPaid
  | .commitCompletion i intent isPaid balance => commitCompletion s i intent isPaid balance
  | .loadPay i useCredit paymentIntent => loadPay s i useCredit paymentIntent
  | .planCredit i intent balance useCredit paymentIntent =>
      planCredit s i intent balance useCredit paymentIntent
  | .startPayment i intent paymentIntent => startPayment s i intent paymentIntent
  | .loadExpired i => loadExpired s i
  | .expireIntent i _ => some (expire s i, .go [])
  | .loadInvoice j amount portal => loadInvoice s j amount portal
  | .applyCredit j amount balance => applyCredit s j amount balance
  | .recordCredit j amount => recordCredit s j amount
  | .applyCreditToInvoice j amount balance => applyCreditToInvoice s j amount balance
  | .loadPayment j amount transactionId => loadPayment s j amount transactionId
  | .recordPayment j amount gateway transactionId =>
      some (s.recordPayment j amount gateway transactionId, .go [])
  | .createDeposit amount => createDeposit s amount

/-- An exception ends the request. -/
def handler : Kind → List Instr → List Instr := fun _ _ => []

/-! ## The system -/

abbrev State := Conf Store Kind Instr

inductive Action where
  | tick (seconds : Nat)
  | createIntent (amountCents : Nat)
  | createCreditIntent (amountCents : Nat)
  | createInvoiceIntent (j : Nat)
  | createInvoice (items : List InvoiceItem) (status : InvoiceStatus)
  /-- The return page, or an administrator. -/
  | complete (i : Nat) (isPaid : Bool)
  | webhook (i : Nat) (paymentIntent : Option Text)
  | sessionExpired (i : Nat)
  | pay (i : Nat) (useCredit : Bool) (paymentIntent : Option Text)
  | applyCredit (j : Nat) (amount : Int) (portal : Bool)
  | payInvoice (j : Nat) (amount : Int) (transactionId : Text)
  | addCredit (amount : Int)
  | exec (p : Nat)

/-- Change the store alone. -/
def withStore (c : State) (s : Store) : State := { c with store := s }

/-- A pending intent, that expires in time. -/
def Store.newIntent (s : Store) (type : IntentType) (amountCents : Nat) : Store :=
  { s with intents := s.intents ++
      [{ type := type, amountCents := amountCents, expiresAt := some (s.now + s.intentTtl) }] }

/-- `createInvoiceIntent`: the pending intents of the invoice expire.  `invoice_id` is not
fillable, so the new intent has none. -/
def Store.newInvoiceIntent (s : Store) (j : Nat) (a : Account) : Store :=
  let intents := s.intents.map fun row =>
    if row.invoiceId = some j ∧ row.status = .pending then { row with status := .expired }
    else row
  { s with intents := intents }.newIntent .invoice a.calculateBalanceDue.toNat

def act (c : State) : Action → Option State
  | .tick seconds => some (withStore c { c.store with now := c.store.now + seconds })
  | .createIntent amountCents => some (withStore c (c.store.newIntent .order amountCents))
  | .createCreditIntent amountCents => some (withStore c (c.store.newIntent .credit amountCents))
  | .createInvoiceIntent j =>
      (c.store.account j).map fun a => withStore c (c.store.newInvoiceIntent j a)
  | .createInvoice items status =>
      some (withStore c (c.store.createInvoice items status none))
  | .complete i isPaid => some (c.spawn (.checkout i) [.loadIntent i isPaid])
  | .webhook i paymentIntent => some (c.spawn (.checkout i) [.loadWebhook i paymentIntent])
  | .sessionExpired i => some (c.spawn (.checkout i) [.loadExpired i])
  | .pay i useCredit paymentIntent =>
      some (c.spawn (.checkout i) [.loadPay i useCredit paymentIntent])
  | .applyCredit j amount portal => some (c.spawn .billing [.loadInvoice j amount portal])
  | .payInvoice j amount transactionId =>
      some (c.spawn .billing [.loadPayment j amount transactionId])
  | .addCredit amount => some (c.spawn .billing [.createDeposit amount])
  | .exec p => c.execAt exec handler p

/-- The billing of one user. -/
def billing : Transition.System State Action := ⟨act⟩

end ValidEmailVerifier.Checkout
