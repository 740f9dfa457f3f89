/-
# `Billing.BalanceLedger` — the balance against the deposits and the credit payments

Three ways lead to the balance of a user: the Credit items of a paid invoice are added by one
statement; `applyCredit` and the completion of an intent write back a balance that they have
loaded before, without what they take.  The balance is what the deposits leave over the recorded
credit payments, in every state of a run, exactly if every balance that is written back is still
the current one (`faithful_iff`).

`applyCredit` takes the credit first and records the payment in a later statement; what a
request has taken and not recorded yet counts as recorded.
-/
import ValidEmailVerifier.Billing.CheckoutSteps

namespace ValidEmailVerifier.Checkout

open Processes Billing

/-! ## The law -/

/-- The recorded credit payments. -/
def creditPayments (s : Store) : Int :=
  (s.transactions.map fun t =>
    if t.2.paymentMethod = "Credit Balance".toList then t.2.amount else 0).sum

/-- The credit that is taken and not recorded yet. -/
def unrecorded : Instr → Int
  | .recordCredit _ amount => amount
  | _ => 0

def inHand (_ : Kind) (code : List Instr) : Int := (code.map unrecorded).sum

/-- The balance is what the deposits leave over the credit payments. -/
def Faithful (c : State) : Prop :=
  c.store.balance = c.store.deposits.sum - (creditPayments c.store + c.total inHand)

instance (c : State) : Decidable (Faithful c) := inferInstanceAs (Decidable (_ = _))

/-! ## The condition -/

/-- The loaded balance that an instruction writes back, if it writes one. -/
def writesBack (s : Store) : Instr → Option Int
  | .commitCompletion _ intent isPaid balance =>
      if takesCredit s intent isPaid then some balance else none
  | .applyCredit j amount balance =>
      match s.account j with
      | none => none
      | some a =>
          let amount := min amount a.calculateBalanceDue
          if amount ≤ balance ∧ 0 < amount then some balance else none
  | .applyCreditToInvoice j amount balance =>
      match s.account j with
      | none => none
      | some a =>
          if 0 < amount ∧ amount ≤ s.balance ∧ amount ≤ a.calculateBalanceDue ∧ amount ≤ balance
          then some balance
          else none
  | _ => none

/-- A balance that is written back is the current one. -/
def current (c : State) (a : Action) : Bool :=
  ((nextInstr c a).bind (writesBack c.store)).all (· = c.store.balance)

/-! ## What an instruction does to the balance -/

/-- What the balance has over the deposits and the payments. -/
def surplus (s : Store) : Int := s.balance - s.deposits.sum + creditPayments s

/-- What is lost when an old balance is written back. -/
def lost (s : Store) (i : Instr) : Int :=
  match writesBack s i with
  | some balance => balance - s.balance
  | none => 0

section Surplus
variable (s : Store) (i j : Nat) (intent : CheckoutIntent)

theorem creditPayments_saveInvoice (invoice : Invoice) (t : Transaction) :
    creditPayments (s.saveInvoice j invoice t) = creditPayments s +
      if t.paymentMethod = "Credit Balance".toList then t.amount else 0 := by
  rw [creditPayments, Store.saveInvoice, List.map_append, List.sum_append, List.map_singleton,
    List.sum_singleton, creditPayments]

theorem surplus_saveInvoice (invoice : Invoice) (t : Transaction) :
    surplus (s.saveInvoice j invoice t) = surplus s +
      if t.paymentMethod = "Credit Balance".toList then t.amount else 0 := by
  rw [surplus, creditPayments_saveInvoice, surplus, Int.add_assoc]
  rfl

theorem sum_creditAmounts (items : List InvoiceItem) :
    (Store.creditAmounts items).sum = creditTotal items := rfl

/-- A payment adds the Credit items if it leaves the invoice Paid. -/
theorem balance_recordPayment (a : Account) (now : Nat) (amount : Int) (method : Text)
    (transactionId : Option Text) :
    (a.recordPayment now amount method transactionId).balance = a.balance +
      if (a.recordPayment now amount method transactionId).invoice.status = .paid then
        creditTotal a.items else 0 := by
  rw [Account.recordPayment]
  split
  next hpaid =>
    rw [Account.processInvoiceItems_eq]
    show _ + creditTotal _ = a.balance + if _ = _ then _ else _
    rw [if_pos hpaid, Account.balance_syncStatus, Account.items_syncStatus]
    rfl
  next hpaid =>
    rw [Account.balance_syncStatus, Int.add_zero]
    rfl

theorem balance_of_account {a : Account} (h : s.account j = some a) : a.balance = s.balance := by
  obtain ⟨row, -, rfl⟩ := Option.map_eq_some_iff.mp h
  rfl

/-- A payment of the invoice, that counts if it is one of credit. -/
theorem surplus_recordPayment (amount : Int) (method : Text) (transactionId : Option Text)
    (hj : j < s.invoices.length) :
    surplus (s.recordPayment j amount method transactionId) = surplus s +
      if method = "Credit Balance".toList then amount else 0 := by
  obtain ⟨a, ha⟩ := Option.isSome_iff_exists.mp ((isSome_account s j).mpr hj)
  have hbalance := balance_recordPayment a s.now amount method transactionId
  rw [balance_of_account s j ha] at hbalance
  rw [Store.recordPayment, ha]
  let a' := a.recordPayment s.now amount method transactionId
  show a'.balance - (s.deposits ++
      if a'.invoice.status = .paid then Store.creditAmounts a.items else []).sum +
    creditPayments (s.saveInvoice j a'.invoice ⟨amount, method, transactionId, s.now⟩) = _
  rw [creditPayments_saveInvoice, List.sum_append, hbalance, surplus]
  show s.balance + (if a'.invoice.status = .paid then _ else _) - _ +
    (_ + if method = "Credit Balance".toList then amount else 0) = _
  split
  next =>
    rw [sum_creditAmounts]
    omega
  next =>
    rw [List.sum_nil]
    omega

theorem surplus_debit (loaded : Int) (credit : Nat) :
    surplus (s.debit i loaded credit) =
      surplus s - credit + if 0 < credit then loaded - s.balance else 0 := by
  rw [Store.debit]
  by_cases hzero : credit = 0
  · rw [if_pos hzero, if_neg (by omega)]
    omega
  · rw [if_neg hzero, if_pos (by omega)]
    show loaded - credit - s.deposits.sum + creditPayments s = _
    rw [surplus]
    omega

theorem gateway_ne : gateway intent ≠ "Credit Balance".toList := by
  rw [gateway]
  split
  · decide
  · decide

/-- A payment in two parts records the credit. -/
theorem surplus_pay (credit : Nat) (hj : j < s.invoices.length) :
    surplus (pay s j intent credit) = surplus s + credit := by
  have hrest : ∀ (s : Store) (rest : Int), j < s.invoices.length →
      surplus (if 0 < rest then
        s.recordPayment j rest (gateway intent) intent.stripePaymentIntentId else s) =
      surplus s := by
    intro s rest hj
    split
    · rw [surplus_recordPayment _ _ _ _ _ hj, if_neg (gateway_ne intent), Int.add_zero]
    · rfl
  rw [pay]
  by_cases hcredit : 0 < credit
  · rw [if_pos hcredit, hrest _ _ (by rw [(sameRecords_recordPayment _ _ _ _ _).length]; exact hj),
      surplus_recordPayment _ _ _ _ _ hj, if_pos rfl]
  · rw [if_neg hcredit, hrest _ _ hj]
    omega

theorem length_debit (loaded : Int) (credit : Nat) :
    (s.debit i loaded credit).invoices.length = s.invoices.length := by
  rw [Store.debit]
  split <;> rfl

theorem length_createInvoice (items : List InvoiceItem) (status : InvoiceStatus)
    (source : Option Nat) :
    (s.createInvoice items status source).invoices.length = s.invoices.length + 1 :=
  List.length_append

/-! ### The completion of an intent -/

theorem surplus_completeCredit (isPaid : Bool) :
    surplus (completeCredit s i intent isPaid) = surplus s := by
  rw [completeCredit]
  split
  · rw [surplus_recordPayment _ _ _ _ _ (by rw [length_createInvoice]; exact Nat.lt_succ_self _),
      if_neg (gateway_ne intent), Int.add_zero]
    rfl
  · rfl

theorem lost_commitCompletion (isPaid : Bool) (balance : Int) :
    lost s (.commitCompletion i intent isPaid balance) =
      if takesCredit s intent isPaid then balance - s.balance else 0 := by
  rw [lost, writesBack]
  cases takesCredit s intent isPaid with
  | false => rfl
  | true => rfl

theorem surplus_completeInvoice (isPaid : Bool) (balance : Int)
    (htype : intent.type = .invoice) :
    surplus (completeInvoice s i intent isPaid balance) =
      surplus s + lost s (.commitCompletion i intent isPaid balance) := by
  rw [lost_commitCompletion]
  rcases completeInvoice_cases s i intent isPaid balance htype with
    ⟨heq, htakes⟩ | ⟨j, hj, heq, htakes⟩
  · rw [heq, htakes, if_neg Bool.false_ne_true]
    exact (Int.add_zero _).symm
  · let s₁ := saveCompleted s i intent isPaid
    have hsaved : surplus s₁ = surplus s ∧ s₁.balance = s.balance := ⟨rfl, rfl⟩
    rw [heq, surplus_pay _ _ _ _ (by rw [length_debit]; exact hj), surplus_debit, htakes]
    simp only [decide_eq_true_eq]
    rw [hsaved.1, hsaved.2]
    omega

theorem surplus_completeOrder (isPaid : Bool) (balance : Int) (htype : intent.type = .order) :
    surplus (completeOrder s i intent isPaid balance) =
      surplus s + lost s (.commitCompletion i intent isPaid balance) := by
  have hdebit : surplus (ordered s i intent isPaid balance) = surplus s -
      orderCredit intent isPaid +
        if 0 < orderCredit intent isPaid then balance - s.balance else 0 :=
    surplus_debit s i balance (orderCredit intent isPaid)
  have hcreated : surplus (invoiced s i intent isPaid balance) =
      surplus (ordered s i intent isPaid balance) := rfl
  rw [lost_commitCompletion, takesCredit_order s intent isPaid htype, completeOrder_eq]
  cases isPaid with
  | false =>
    have hcredit : orderCredit intent false = 0 := rfl
    rw [hcredit, if_neg (Nat.lt_irrefl 0)] at hdebit
    rw [if_neg Bool.false_ne_true, Bool.false_and, if_neg Bool.false_ne_true, hcreated, hdebit]
    omega
  | true =>
    have hcredit : orderCredit intent true = intent.creditApplied := rfl
    have hlast : (ordered s i intent true balance).invoices.length <
        (invoiced s i intent true balance).invoices.length := by
      rw [invoiced, length_createInvoice]
      exact Nat.lt_succ_self _
    rw [hcredit] at hdebit
    rw [if_pos rfl, surplus_pay _ _ _ _ hlast, hcreated, hdebit, hcredit, Bool.true_and]
    simp only [decide_eq_true_eq]
    omega

theorem surplus_completion (isPaid : Bool) (balance : Int) :
    surplus (completion s i intent isPaid balance) =
      surplus s + lost s (.commitCompletion i intent isPaid balance) := by
  rw [completion]
  cases htype : intent.type with
  | credit =>
    rw [lost_commitCompletion, takesCredit_credit s intent isPaid htype, if_neg Bool.false_ne_true]
    exact (surplus_completeCredit s i intent isPaid).trans (Int.add_zero _).symm
  | invoice => exact surplus_completeInvoice s i intent isPaid balance htype
  | order => exact surplus_completeOrder s i intent isPaid balance htype

/-- Credit that is recorded. -/
theorem surplus_credit (invoice : Invoice) (amount : Int) :
    surplus (s.saveInvoice j invoice ⟨amount, "Credit Balance".toList, none, s.now⟩) =
      surplus s + amount :=
  (surplus_saveInvoice s j invoice _).trans (congrArg _ (if_pos rfl))

/-- Credit that is recorded while a loaded balance is written back. -/
theorem surplus_transfer (invoice : Invoice) (amount balance : Int) :
    surplus { s.saveInvoice j invoice ⟨amount, "Credit Balance".toList, none, s.now⟩ with
      balance := balance - amount } = surplus s + (balance - s.balance) := by
  have hpaid := surplus_credit s j invoice amount
  rw [surplus] at hpaid
  show balance - amount - s.deposits.sum + creditPayments
    (s.saveInvoice j invoice ⟨amount, "Credit Balance".toList, none, s.now⟩) = _
  change s.balance - s.deposits.sum + creditPayments
    (s.saveInvoice j invoice ⟨amount, "Credit Balance".toList, none, s.now⟩) = _ at hpaid
  omega

end Surplus

/-! ## One step -/

/-- What a request may rely on: its invoice is there, and only credit is paid as credit. -/
def Ready (s : Store) : Instr → Prop
  | .recordCredit j _ => j < s.invoices.length
  | .recordPayment _ _ gateway _ => gateway ≠ "Credit Balance".toList
  | _ => True

theorem Ready.mono {s s' : Store} (hlength : s.invoices.length ≤ s'.invoices.length) {i : Instr}
    (h : Ready s i) : Ready s' i := by
  cases i with
  | recordCredit j amount => exact Nat.lt_of_lt_of_le h hlength
  | recordPayment j amount gateway transactionId => exact h
  | _ => trivial

theorem Does.length_invoices {s s' : Store} {instr : Instr} {code : List Instr}
    (h : Does s instr s' code) : s.invoices.length ≤ s'.invoices.length := by
  cases h with
  | look | save | take | keep | miss | refuse => exact Nat.le_refl _
  | complete => exact length_completion _ _ _ _ _
  | record | transfer =>
    rw [Store.saveInvoice]
    exact Nat.le_of_eq (List.length_modify _ _ _).symm
  | pay => exact Nat.le_of_eq (sameRecords_recordPayment _ _ _ _ _).length.symm
  | deposit =>
    rw [length_createInvoice]
    exact Nat.le_succ _

theorem nothing_of_checks {instr : Instr} (h : checks instr = true) (s : Store) :
    unrecorded instr = 0 ∧ lost s instr = 0 := by
  cases instr <;> first | exact ⟨rfl, rfl⟩ | exact nomatch h

/-- A law for one instruction: what it takes from the surplus is in hand, recorded, or lost. -/
def Balanced (s : Store) (instr : Instr) (s' : Store) (code : List Instr) : Prop :=
  surplus s' + (code.map unrecorded).sum = surplus s + unrecorded instr + lost s instr

theorem balanced_still {s s' : Store} {instr : Instr} {code : List Instr}
    (hs : surplus s' = surplus s) (hcode : (code.map unrecorded).sum = 0)
    (hinstr : unrecorded instr = 0) (hlost : lost s instr = 0) : Balanced s instr s' code := by
  rw [Balanced, hs, hcode, hinstr, hlost]
  exact (Int.add_zero _).symm

theorem Looks.balanced {s : Store} {instr : Instr} {code : List Instr} (h : Looks s instr code) :
    Balanced s instr s code := by
  cases h with
  | rest h =>
    obtain ⟨hinstr, hlost⟩ := nothing_of_checks h s
    exact balanced_still rfl rfl hinstr hlost
  | _ => exact balanced_still rfl rfl rfl rfl

theorem Saves.balanced {s : Store} {instr : Instr} {i : Nat}
    {f : CheckoutIntent → CheckoutIntent} {code : List Instr} (h : Saves s.now instr i f code) :
    Balanced s instr (s.updateIntent i f) code := by
  cases h with
  | expire h =>
    obtain ⟨hinstr, hlost⟩ := nothing_of_checks h s
    exact balanced_still rfl rfl hinstr hlost
  | planCredit h =>
    rcases h with rfl | rfl
    · exact balanced_still rfl rfl rfl rfl
    · exact balanced_still rfl rfl rfl rfl
  | _ => exact balanced_still rfl rfl rfl rfl

theorem writesBack_applyCredit {s : Store} {j : Nat} {a : Account} (ha : s.account j = some a)
    (amount balance : Int) :
    writesBack s (.applyCredit j amount balance) =
      if min amount a.calculateBalanceDue ≤ balance ∧ 0 < min amount a.calculateBalanceDue
      then some balance else none := by
  rw [writesBack, ha]

theorem writesBack_portal {s : Store} {j : Nat} {a : Account} (ha : s.account j = some a)
    (amount balance : Int) :
    writesBack s (.applyCreditToInvoice j amount balance) =
      if 0 < amount ∧ amount ≤ s.balance ∧ amount ≤ a.calculateBalanceDue ∧ amount ≤ balance
      then some balance else none := by
  rw [writesBack, ha]

theorem Does.balanced {s s' : Store} {instr : Instr} {code : List Instr} (h : Does s instr s' code)
    (hready : Ready s instr) : Balanced s instr s' code := by
  cases h with
  | look h => exact h.balanced
  | save h => exact h.balanced
  | @complete i intent isPaid balance =>
    have hs := surplus_completion s i intent isPaid balance
    show surplus (completion s i intent isPaid balance) + 0 = surplus s + 0 + _
    omega
  | @take j amount balance a ha hsome henough =>
    have hback := writesBack_applyCredit ha amount balance
    rw [if_pos ⟨henough, hsome⟩] at hback
    rw [Balanced, lost, hback, surplus, surplus]
    show balance - min amount a.calculateBalanceDue - s.deposits.sum + creditPayments s +
      (min amount a.calculateBalanceDue + 0) = _ + 0 + (balance - s.balance)
    omega
  | @keep j amount balance h =>
    refine balanced_still rfl rfl rfl ?_
    cases ha : s.account j with
    | none => rw [lost, writesBack, ha]
    | some a =>
      have hback := writesBack_applyCredit ha amount balance
      rw [if_neg (fun hboth => Int.not_lt.mpr hboth.1 (h a ha hboth.2))] at hback
      rw [lost, hback]
  | @record j amount invoice hj =>
    have hs := surplus_credit s j invoice amount
    show surplus (s.saveInvoice j invoice _) + 0 = surplus s + amount + 0
    omega
  | @miss j amount ha =>
    have hj : (s.account j).isSome = true := (isSome_account s j).mpr hready
    rw [ha] at hj
    exact nomatch hj
  | @transfer j amount balance a invoice ha hsome hlocked hdue henough =>
    have hback := writesBack_portal ha amount balance
    rw [if_pos ⟨hsome, hlocked, hdue, henough⟩] at hback
    rw [Balanced, lost, hback, surplus_transfer]
    show _ + 0 = surplus s + 0 + (balance - s.balance)
    omega
  | @refuse j amount balance h =>
    refine balanced_still rfl rfl rfl ?_
    cases ha : s.account j with
    | none => rw [lost, writesBack, ha]
    | some a =>
      have hback := writesBack_portal ha amount balance
      rw [if_neg (fun hall =>
        Int.not_lt.mpr hall.2.2.2 (h a ha hall.1 hall.2.1 hall.2.2.1))] at hback
      rw [lost, hback]
  | @pay j amount gateway transactionId =>
    refine balanced_still ?_ rfl rfl rfl
    by_cases hj : j < s.invoices.length
    · rw [surplus_recordPayment _ _ _ _ _ hj, if_neg hready, Int.add_zero]
    · have ha : s.account j = none := by
        cases ha : s.account j with
        | none => rfl
        | some a => exact absurd (lt_of_account ha) hj
      rw [Store.recordPayment, ha]
  | deposit => exact balanced_still rfl rfl rfl rfl

/-- What an instruction leaves to be done can be relied on. -/
theorem Does.ready {s s' : Store} {instr : Instr} {code : List Instr} (h : Does s instr s' code) :
    ∀ i ∈ code, Ready s' i := by
  intro i hi
  cases h with
  | look h =>
    cases h with
    | rest => exact nomatch hi
    | loadPayment =>
      rw [List.mem_singleton.mp hi]
      show "Stripe".toList ≠ "Credit Balance".toList
      decide
    | _ =>
      rw [List.mem_singleton.mp hi]
      trivial
  | save h =>
    cases h with
    | expire | startPayment => exact nomatch hi
    | saveWebhook =>
      rw [List.mem_singleton.mp hi]
      trivial
    | planCredit h =>
      rw [List.mem_singleton.mp hi]
      rcases h with rfl | rfl
      · trivial
      · trivial
  | complete | keep | record | miss | transfer | refuse | pay => exact nomatch hi
  | take ha =>
    rw [List.mem_singleton.mp hi]
    have hj := lt_of_account ha
    exact hj
  | deposit =>
    rw [List.mem_singleton.mp hi]
    show "Manual".toList ≠ "Credit Balance".toList
    decide

/-! ## The law over a schedule -/

/-- What holds anyway. -/
structure Orderly (c : State) : Prop where
  one : c.OneLeft
  ready : ∀ {p : Nat} {k : Kind} {code : List Instr}, c.At p k code →
    ∀ i ∈ code, Ready c.store i

theorem ready_of_starts {i : Instr} (h : starts i = true) (s : Store) : Ready s i := by
  cases i with
  | recordCredit | recordPayment => exact nomatch h
  | _ => trivial

theorem Environ.length_invoices {s s' : Store} {a : Action} (h : Environ s a s') :
    s.invoices.length ≤ s'.invoices.length := by
  cases h with
  | invoice items status =>
    rw [length_createInvoice]
    exact Nat.le_succ _
  | _ => exact Nat.le_refl _

theorem Environ.surplus {s s' : Store} {a : Action} (h : Environ s a s') :
    Checkout.surplus s' = Checkout.surplus s := by
  cases h <;> rfl

theorem orderly_act {c c' : State} {a : Action} (h : Orderly c) (hact : act c a = some c') :
    Orderly c' := by
  refine ⟨oneLeft_act h.one hact, ?_⟩
  intro q k code hq i hi
  cases act_cases h.one hact with
  | environ _ henv => exact (h.ready hq i hi).mono henv.length_invoices
  | start _ hstarts =>
    rcases Conf.at_spawn.mp hq with hq | ⟨-, -, rfl⟩
    · exact h.ready hq i hi
    · rw [List.mem_singleton.mp hi]
      exact ready_of_starts hstarts _
  | exec hat hdoes =>
    rcases Conf.at_setCode.mp hq with ⟨-, rfl, -⟩ | ⟨-, hq⟩
    · exact hdoes.ready i hi
    · exact (h.ready hq i hi).mono hdoes.length_invoices

theorem unrecorded_of_starts {i : Instr} (h : starts i = true) : unrecorded i = 0 := by
  cases i with
  | recordCredit => exact nomatch h
  | _ => rfl

/-- Nothing is lost exactly if what is written back is the current balance. -/
theorem lost_eq_zero (s : Store) (i : Instr) :
    lost s i = 0 ↔ (writesBack s i).all (· = s.balance) = true := by
  rw [lost]
  cases writesBack s i with
  | none => exact ⟨fun _ => rfl, fun _ => rfl⟩
  | some balance =>
    show balance - s.balance = 0 ↔ decide (balance = s.balance) = true
    rw [decide_eq_true_eq]
    omega

/-- The law, by the surplus of the store. -/
theorem faithful_iff_surplus (c : State) :
    Faithful c ↔ surplus c.store + c.total inHand = 0 := by
  rw [Faithful, surplus]
  omega

/-- One step keeps the law exactly if the balance that it writes back is the current one. -/
theorem faithful_act {c c' : State} {a : Action} (h : Orderly c) (hlaw : Faithful c)
    (hact : act c a = some c') : Faithful c' ↔ current c a = true := by
  rw [faithful_iff_surplus] at hlaw ⊢
  cases act_cases h.one hact with
  | @environ _ s' ha henv =>
    rw [current, ha]
    refine ⟨fun _ => rfl, fun _ => ?_⟩
    show surplus s' + c.total inHand = 0
    rw [henv.surplus]
    exact hlaw
  | @start _ k i ha hstarts =>
    rw [current, ha]
    refine ⟨fun _ => rfl, fun _ => ?_⟩
    have hnone : inHand k [i] = 0 := by
      rw [inHand, List.map_singleton, List.sum_singleton]
      exact unrecorded_of_starts hstarts
    rw [Conf.total_spawn, hnone, Int.add_zero]
    exact hlaw
  | @exec p k i s' code hat hdoes =>
    rw [current, nextInstr_exec hat]
    show _ ↔ (writesBack c.store i).all (· = c.store.balance) = true
    rw [← lost_eq_zero]
    have hbalanced := hdoes.balanced (h.ready hat i (List.mem_singleton.mpr rfl))
    rw [Balanced] at hbalanced
    have htotal := Conf.total_setCode (w := inHand) (c := withStore c s') hat code
    have hold : inHand k [i] = unrecorded i := by
      rw [inHand, List.map_singleton, List.sum_singleton]
    have hnew : inHand k code = (code.map unrecorded).sum := rfl
    have hsame : (withStore c s').total inHand = c.total inHand := rfl
    rw [hold, hnew, hsame] at htotal
    show surplus s' + ((withStore c s').setCode p code).total inHand = 0 ↔ _
    omega

theorem orderly_of_idle {c : State} (hidle : c.procs = []) : Orderly c :=
  ⟨Conf.oneLeft_of_idle hidle, fun h => absurd h (Conf.not_at_of_idle hidle)⟩

/-- From a state with no request under way in which the balance is what the deposits leave, it
stays so along a schedule exactly if every balance that a request writes back is the current
one. -/
theorem faithful_iff (c : State) (as : List Action) (hidle : c.procs = []) (hlaw : Faithful c) :
    billing.Throughout Faithful c as ↔ billing.Meets (fun c a => current c a = true) c as :=
  Transition.System.throughout_iff_meets (I := Orderly)
    (fun _ _ _ h hact => orderly_act h hact)
    (fun _ _ _ h hlaw hact => faithful_act h hlaw hact)
    (orderly_of_idle hidle) hlaw

/-- A deposit, and credit for an invoice that is loaded after it. -/
theorem faithful_iff_one_by_one :
    billing.Throughout Faithful ⟨{}, []⟩
      [.addCredit 1000, .exec 0, .exec 0, .createInvoice [⟨400, .order⟩] .unpaid,
        .applyCredit 1 400 false, .exec 1, .exec 1, .exec 1] :=
  (faithful_iff ⟨{}, []⟩ _ rfl (by decide)).mpr (by decide)

/-- A deposit between the load and the write of `applyCredit` is lost. -/
theorem faithful_fails :
    ¬ ∀ t, billing.Reaches Transition.Always ⟨{}, []⟩ t → Faithful t := by
  intro h
  have hrun : (billing.run ⟨{}, []⟩
      [.addCredit 1000, .exec 0, .exec 0, .createInvoice [⟨400, .order⟩] .unpaid,
        .applyCredit 1 400 false, .exec 1, .addCredit 700, .exec 2, .exec 2, .exec 1, .exec 1]).any
      (fun t => decide (¬ Faithful t)) = true := by decide
  obtain ⟨t, hreaches, hlost⟩ := Transition.System.exists_reaches_always hrun
  exact of_decide_eq_true hlost (h t hreaches)

end ValidEmailVerifier.Checkout
