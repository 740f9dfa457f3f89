/-
# `Billing.Reservations` — a balance that covers the credit planned on pending intents

The credit of an intent is planned when its payment starts, from the balance at that moment, and
taken at its completion, which does not compare it with the balance again.  Two intents planned
from the same balance are both completed, and the balance is negative (`solvent_fails`).

What keeps the balance from that is a reservation: the credit planned on all pending intents
together stays within the balance.  In every run whose steps leave it so, the balance is never
negative and no completion takes more than is there (`solvent_of_covers`).
-/
import ValidEmailVerifier.Billing.BalanceLedger

namespace ValidEmailVerifier.Checkout

open Processes Billing

/-! ## The law and the reservation -/

/-- The balance is not negative, and no completion has taken more than there was. -/
structure Solvent (s : Store) : Prop where
  balance : 0 ≤ s.balance
  debits : ∀ d ∈ s.debits, (d.credit : Int) ≤ d.before

/-- The credit planned on an intent as long as it is pending. -/
def planned (row : CheckoutIntent) : Nat :=
  if row.status = .pending then row.creditApplied else 0

/-- The credit planned on the pending intents. -/
def reserved (s : Store) : Nat := (s.intents.map planned).sum

/-- The credit planned on the pending intents other than `i`. -/
def reservedBeside (s : Store) (i : Nat) : Nat := ((s.intents.eraseIdx i).map planned).sum

/-- No Credit item is negative. -/
def NonnegativeItems (items : List InvoiceItem) : Prop :=
  ∀ item ∈ items, item.type = .credit → 0 ≤ item.amount

instance (items : List InvoiceItem) : Decidable (NonnegativeItems items) :=
  inferInstanceAs (Decidable (∀ item ∈ items, item.type = .credit → 0 ≤ item.amount))

/-- The reservation is within the balance, and payments only add to it. -/
structure Covered (s : Store) : Prop where
  within : (reserved s : Int) ≤ s.balance
  debits : ∀ d ∈ s.debits, (d.credit : Int) ≤ d.before
  items : ∀ r ∈ s.rows, NonnegativeItems r.1

theorem Covered.solvent {s : Store} (h : Covered s) : Solvent s :=
  ⟨Int.le_trans (Int.natCast_nonneg _) h.within, h.debits⟩

/-! ## The condition -/

/-- What an instruction takes beside the reservation. -/
def taken (s : Store) : Instr → Int
  | .applyCredit j amount _ =>
      (s.account j).elim 0 fun a => min amount a.calculateBalanceDue
  | .applyCreditToInvoice _ amount _ => amount
  | _ => 0

/-- The intent is as it was loaded: pending, with the same credit planned. -/
def asPlanned (s : Store) (i : Nat) (intent : CheckoutIntent) : Bool :=
  s.intents[i]?.any fun row => row.status = .pending ∧ row.creditApplied = intent.creditApplied

/-- A loaded balance that is written back covers the reservation and what is taken beside it. -/
def backed (s : Store) (instr : Instr) : Bool :=
  (writesBack s instr).all fun balance => reserved s + taken s instr ≤ balance

/-- The credit that is planned fits beside the credit planned on the other pending intents; a
completion that takes credit takes what is reserved for it; a deposit is not negative. -/
def fits (s : Store) : Instr → Bool
  | .planCredit i intent balance useCredit _ =>
      let credit := creditPlanned intent.amountCents balance useCredit
      s.intents[i]?.all fun row => row.status = .pending →
        (reservedBeside s i + dirty intent.creditApplied credit row.creditApplied : Nat) ≤
          s.balance
  | .commitCompletion i intent isPaid _ => takesCredit s intent isPaid → asPlanned s i intent
  | .createDeposit amount => 0 ≤ amount
  | _ => true

/-- A step that leaves the reservation within the balance. -/
def covers (c : State) (a : Action) : Bool :=
  match a with
  | .createInvoice items _ => NonnegativeItems items
  | a => (nextInstr c a).all fun instr => backed c.store instr && fits c.store instr

/-! ## The reservation under a change of the intents -/

/-- A sum over a list with one element changed. -/
theorem sum_modify_eraseIdx {α : Type} (w : α → Nat) (f : α → α) :
    ∀ {l : List α} {i : Nat} {a : α}, l[i]? = some a →
      ((l.modify i f).map w).sum = ((l.eraseIdx i).map w).sum + w (f a)
  | [], _, _, h => nomatch h
  | b :: l, 0, a, h => by
      have hb : b = a := by simpa using h
      rw [List.modify_zero_cons, List.eraseIdx_cons_zero, List.map_cons, List.sum_cons, hb,
        Nat.add_comm]
  | b :: l, i + 1, a, h => by
      have ih := sum_modify_eraseIdx w f (l := l) (i := i) (a := a) (by simpa using h)
      rw [List.modify_succ_cons, List.eraseIdx_cons_succ, List.map_cons, List.sum_cons,
        List.map_cons, List.sum_cons, ih, Nat.add_assoc]

section Reserved
variable {s : Store} {i : Nat} {row : CheckoutIntent} (hrow : s.intents[i]? = some row)
include hrow

theorem reserved_eq : reserved s = reservedBeside s i + planned row := by
  have h := sum_modify_eraseIdx planned id hrow
  rw [List.modify_id] at h
  exact h

theorem reserved_updateIntent (f : CheckoutIntent → CheckoutIntent) :
    reserved (s.updateIntent i f) = reservedBeside s i + planned (f row) :=
  sum_modify_eraseIdx planned f hrow

end Reserved

theorem updateIntent_of_none {s : Store} {i : Nat} (hrow : s.intents[i]? = none)
    (f : CheckoutIntent → CheckoutIntent) : s.updateIntent i f = s := by
  rw [Store.updateIntent, List.modify_eq_self (List.getElem?_eq_none_iff.mp hrow)]

/-- A change of an intent that plans no more for it. -/
theorem reserved_updateIntent_le {s : Store} {i : Nat} {f : CheckoutIntent → CheckoutIntent}
    (hf : ∀ row, planned (f row) ≤ planned row) :
    reserved (s.updateIntent i f) ≤ reserved s := by
  cases hrow : s.intents[i]? with
  | none => rw [updateIntent_of_none hrow]
  | some row =>
    rw [reserved_updateIntent hrow, reserved_eq hrow]
    exact Nat.add_le_add_left (hf row) _

theorem planned_of_notPending {row : CheckoutIntent} (h : row.status ≠ .pending) :
    planned row = 0 := if_neg h

theorem reserved_newIntent (s : Store) (type : IntentType) (amountCents : Nat) :
    reserved (s.newIntent type amountCents) = reserved s := by
  rw [reserved, Store.newIntent, List.map_append, List.sum_append]
  rfl

theorem sum_map_le {α : Type} {v w : α → Nat} (h : ∀ a, v a ≤ w a) (l : List α) :
    (l.map v).sum ≤ (l.map w).sum :=
  List.sum_le_sum (fun a _ => h a)

/-- The intents of an invoice that expire free what is planned on them. -/
theorem reserved_newInvoiceIntent (s : Store) (j : Nat) (a : Account) :
    reserved (s.newInvoiceIntent j a) ≤ reserved s := by
  rw [Store.newInvoiceIntent, reserved_newIntent]
  show ((s.intents.map _).map planned).sum ≤ _
  rw [List.map_map]
  apply sum_map_le
  intro row
  show planned (if row.invoiceId = some j ∧ row.status = .pending then
    { row with status := .expired } else row) ≤ planned row
  split
  · exact Nat.zero_le _
  · exact Nat.le_refl _

/-! ## Payments add to the balance -/

theorem creditTotal_nonneg {items : List InvoiceItem} (h : NonnegativeItems items) :
    0 ≤ creditTotal items := by
  apply List.sum_nonneg
  intro x hx
  obtain ⟨item, hitem, rfl⟩ := List.mem_map.mp hx
  obtain ⟨hmem, htype⟩ := List.mem_filter.mp hitem
  exact h item hmem (of_decide_eq_true htype)

section Payments
variable {s : Store} (hitems : ∀ r ∈ s.rows, NonnegativeItems r.1)
include hitems

theorem items_account {j : Nat} {a : Account} (ha : s.account j = some a) :
    NonnegativeItems a.items := by
  obtain ⟨row, hrow, rfl⟩ := Option.map_eq_some_iff.mp ha
  have hmem : (row.items, row.intent) ∈ s.rows :=
    List.mem_map.mpr ⟨row, List.mem_of_getElem? hrow, rfl⟩
  exact hitems _ hmem

theorem balance_le_recordPayment (j : Nat) (amount : Int) (method : Text)
    (transactionId : Option Text) :
    s.balance ≤ (s.recordPayment j amount method transactionId).balance := by
  rw [Store.recordPayment]
  cases ha : s.account j with
  | none => exact Int.le_refl _
  | some a =>
    show s.balance ≤ (a.recordPayment s.now amount method transactionId).balance
    rw [balance_recordPayment, balance_of_account s j ha]
    have hcredit := creditTotal_nonneg (items_account hitems ha)
    split
    · omega
    · omega

theorem balance_le_pay (j : Nat) (intent : CheckoutIntent) (credit : Nat) :
    s.balance ≤ (pay s j intent credit).balance := by
  have hrest : ∀ (s : Store) (rest : Int), (∀ r ∈ s.rows, NonnegativeItems r.1) →
      s.balance ≤ (if 0 < rest then
        s.recordPayment j rest (gateway intent) intent.stripePaymentIntentId else s).balance := by
    intro s rest hitems
    split
    · exact balance_le_recordPayment hitems _ _ _ _
    · exact Int.le_refl _
  rw [pay]
  by_cases hcredit : 0 < credit
  · rw [if_pos hcredit]
    have hsame := sameRecords_recordPayment s j credit "Credit Balance".toList none
    refine Int.le_trans (balance_le_recordPayment hitems _ _ _ _) (hrest _ _ ?_)
    rw [hsame.rows]
    exact hitems
  · rw [if_neg hcredit]
    exact hrest _ _ hitems

omit hitems in
theorem balance_debit (s : Store) (i : Nat) (loaded : Int) (credit : Nat) :
    (s.debit i loaded credit).balance = if 0 < credit then loaded - credit else s.balance := by
  rw [Store.debit]
  by_cases hzero : credit = 0
  · rw [if_pos hzero, if_neg (by omega)]
  · rw [if_neg hzero, if_pos (by omega)]

/-- The balance that a completion leaves, apart from what payments add. -/
def leftBy (s : Store) (intent : CheckoutIntent) (isPaid : Bool) (balance : Int) : Int :=
  if takesCredit s intent isPaid then balance - intent.creditApplied else s.balance

theorem items_createInvoice (items : List InvoiceItem) (status : InvoiceStatus)
    (source : Option Nat) (h : NonnegativeItems items) :
    ∀ r ∈ (s.createInvoice items status source).rows, NonnegativeItems r.1 := by
  rw [rows_createInvoice]
  intro r hr
  rcases List.mem_append.mp hr with hr | hr
  · exact hitems r hr
  · rw [List.mem_singleton.mp hr]
    exact h

omit hitems in
theorem nonnegativeItems_one (amount : Nat) (type : ItemType) :
    NonnegativeItems [⟨amount, type⟩] := by
  intro item hitem _
  rw [List.mem_singleton.mp hitem]
  exact Int.natCast_nonneg _

theorem leftBy_le_completeCredit (i : Nat) (intent : CheckoutIntent) (isPaid : Bool) :
    s.balance ≤ (completeCredit s i intent isPaid).balance := by
  rw [completeCredit]
  split
  · refine balance_le_recordPayment (s := (saveCompleted s i intent isPaid).createInvoice _ _ _)
      ?_ _ _ _ _
    exact items_createInvoice hitems _ _ _ (nonnegativeItems_one _ _)
  · exact Int.le_refl _

theorem leftBy_le_completeInvoice (i : Nat) (intent : CheckoutIntent) (isPaid : Bool)
    (balance : Int) (htype : intent.type = .invoice) :
    leftBy s intent isPaid balance ≤ (completeInvoice s i intent isPaid balance).balance := by
  rw [leftBy]
  rcases completeInvoice_cases s i intent isPaid balance htype with
    ⟨heq, htakes⟩ | ⟨j, hj, heq, htakes⟩
  · rw [heq, htakes, if_neg Bool.false_ne_true]
    exact Int.le_refl _
  · let s₁ := saveCompleted s i intent isPaid
    obtain ⟨hrows, -⟩ := sameRows_debit s₁ i balance intent.creditApplied
    have hpay := balance_le_pay (s := s₁.debit i balance intent.creditApplied)
      (by rw [hrows]; exact hitems) j intent intent.creditApplied
    rw [balance_debit] at hpay
    rw [heq, htakes]
    simp only [decide_eq_true_eq]
    exact hpay

theorem leftBy_le_completeOrder (i : Nat) (intent : CheckoutIntent) (isPaid : Bool)
    (balance : Int) (htype : intent.type = .order) :
    leftBy s intent isPaid balance ≤ (completeOrder s i intent isPaid balance).balance := by
  let s₁ := ordered s i intent isPaid balance
  have hitems₁ : ∀ r ∈ s₁.rows, NonnegativeItems r.1 := by
    show ∀ r ∈ (s.debit i balance (orderCredit intent isPaid)).rows, NonnegativeItems r.1
    rw [(sameRows_debit s i balance _).1]
    exact hitems
  have hleft : leftBy s intent isPaid balance = s₁.balance := by
    show _ = (s.debit i balance (orderCredit intent isPaid)).balance
    rw [balance_debit, leftBy, takesCredit_order s intent isPaid htype]
    cases isPaid with
    | false => rfl
    | true =>
      rw [Bool.true_and]
      simp only [decide_eq_true_eq]
      rfl
  rw [hleft, completeOrder_eq]
  split
  · exact balance_le_pay (s := invoiced s i intent isPaid balance)
      (items_createInvoice hitems₁ _ _ _ (nonnegativeItems_one _ _)) _ _ _
  · exact Int.le_refl _

theorem leftBy_le_completion (i : Nat) (intent : CheckoutIntent) (isPaid : Bool)
    (balance : Int) :
    leftBy s intent isPaid balance ≤ (completion s i intent isPaid balance).balance := by
  rw [completion]
  cases htype : intent.type with
  | credit =>
    rw [leftBy, takesCredit_credit s intent isPaid htype, if_neg Bool.false_ne_true]
    exact leftBy_le_completeCredit hitems i intent isPaid
  | invoice => exact leftBy_le_completeInvoice hitems i intent isPaid balance htype
  | order => exact leftBy_le_completeOrder hitems i intent isPaid balance htype

end Payments

/-! ## One step -/

/-- The reservation falls by what a completion takes. -/
theorem reserved_saveCompleted (s : Store) (i : Nat) (intent : CheckoutIntent) (isPaid : Bool) :
    reserved (saveCompleted s i intent isPaid) ≤ reserved s :=
  reserved_updateIntent_le (fun _ => Nat.zero_le _)

theorem reserved_asPlanned {s : Store} {i : Nat} {intent : CheckoutIntent}
    (h : asPlanned s i intent = true) (isPaid : Bool) :
    reserved (saveCompleted s i intent isPaid) + intent.creditApplied = reserved s := by
  rw [asPlanned] at h
  cases hrow : s.intents[i]? with
  | none =>
    rw [hrow] at h
    exact nomatch h
  | some row =>
    rw [hrow, Option.any_some, decide_eq_true_eq] at h
    rw [saveCompleted, reserved_updateIntent hrow, reserved_eq hrow, planned, planned,
      if_pos h.1, h.2, if_neg (fun h => nomatch h)]
    rfl

/-- A completion that takes what is reserved for it. -/
theorem Covered.complete {s : Store} (h : Covered s) (i : Nat) (intent : CheckoutIntent)
    (isPaid : Bool) (balance : Int)
    (hback : takesCredit s intent isPaid = true → (reserved s : Int) ≤ balance)
    (hplanned : takesCredit s intent isPaid = true → asPlanned s i intent = true) :
    Covered (completion s i intent isPaid balance) := by
  have hdone := completion_cases s i intent isPaid balance
  have hleft := leftBy_le_completion h.items i intent isPaid balance
  have hreserved : reserved (completion s i intent isPaid balance) =
      reserved (saveCompleted s i intent isPaid) := by
    rw [reserved, reserved, hdone.intents]
  refine ⟨?_, ?_, ?_⟩
  · rw [hreserved]
    refine Int.le_trans ?_ hleft
    rw [leftBy]
    cases htakes : takesCredit s intent isPaid with
    | false =>
      have := reserved_saveCompleted s i intent isPaid
      have := h.within
      rw [if_neg Bool.false_ne_true]
      omega
    | true =>
      have := reserved_asPlanned (hplanned htakes) isPaid
      have := hback htakes
      rw [if_pos rfl]
      omega
  · rw [hdone.debits]
    intro d hd
    rcases List.mem_append.mp hd with hd | hd
    · exact h.debits d hd
    · cases htakes : takesCredit s intent isPaid with
      | false =>
        rw [htakes] at hd
        exact nomatch hd
      | true =>
        rw [htakes, if_pos rfl] at hd
        rw [List.mem_singleton.mp hd]
        have := reserved_asPlanned (hplanned htakes) isPaid
        have := h.within
        show (intent.creditApplied : Int) ≤ s.balance
        omega
  · obtain ⟨new, hrows, -, hnew⟩ := hdone.rows
    rw [hrows]
    intro r hr
    rcases List.mem_append.mp hr with hr | hr
    · exact h.items r hr
    · exact fun item hitem _ => (hnew r hr).2 item hitem

/-- What keeps the intents and the invoices, and leaves the reservation within the balance. -/
theorem Covered.of_same {s s' : Store} (h : Covered s) (hrows : s'.rows = s.rows)
    (hdebits : s'.debits = s.debits) (hreserved : (reserved s' : Int) ≤ s'.balance) :
    Covered s' :=
  ⟨hreserved, hdebits ▸ h.debits, hrows ▸ h.items⟩

theorem Covered.createInvoice {s : Store} (h : Covered s) {items : List InvoiceItem}
    (hitems : NonnegativeItems items) (status : InvoiceStatus) (source : Option Nat) :
    Covered (s.createInvoice items status source) :=
  ⟨h.within, h.debits, items_createInvoice h.items items status source hitems⟩

theorem Environ.covered {s s' : Store} {a : Action} (henv : Environ s a s') (h : Covered s)
    (hitems : ∀ items status, a = .createInvoice items status → NonnegativeItems items) :
    Covered s' := by
  have hreserved := h.within
  cases henv with
  | tick => exact h.of_same rfl rfl hreserved
  | intent type amountCents =>
    refine h.of_same rfl rfl ?_
    rw [reserved_newIntent]
    exact hreserved
  | invoiceIntent j a =>
    refine h.of_same rfl rfl ?_
    have := reserved_newInvoiceIntent s j a
    show (reserved (s.newInvoiceIntent j a) : Int) ≤ s.balance
    omega
  | invoice items status => exact h.createInvoice (hitems items status rfl) status none

theorem written_back {s : Store} {instr : Instr} {balance : Int} (h : backed s instr = true)
    (hback : writesBack s instr = some balance) : reserved s + taken s instr ≤ balance := by
  rw [backed, hback, Option.all_some, decide_eq_true_eq] at h
  exact h

theorem Covered.plan {s : Store} (h : Covered s) {i : Nat} {intent : CheckoutIntent}
    {balance : Int} {useCredit : Bool} {paymentIntent : Option Text}
    (hfits : fits s (.planCredit i intent balance useCredit paymentIntent) = true) :
    Covered (s.updateIntent i fun row => { row with
      creditApplied := dirty intent.creditApplied
        (creditPlanned intent.amountCents balance useCredit) row.creditApplied }) := by
  have hwithin := h.within
  refine h.of_same rfl rfl ?_
  cases hrow : s.intents[i]? with
  | none =>
    rw [updateIntent_of_none hrow]
    exact hwithin
  | some row =>
    rw [fits, hrow] at hfits
    have hfits := of_decide_eq_true hfits
    show (reserved (s.updateIntent i _) : Int) ≤ s.balance
    rw [reserved_updateIntent hrow]
    rw [reserved_eq hrow] at hwithin
    by_cases hpending : row.status = .pending
    · have := hfits hpending
      rw [planned, if_pos hpending]
      exact this
    · have hzero : ∀ credit, planned { row with creditApplied := credit } = 0 :=
        fun _ => planned_of_notPending hpending
      rw [hzero]
      omega

theorem Saves.covered {s : Store} {instr : Instr} {i : Nat}
    {f : CheckoutIntent → CheckoutIntent} {code : List Instr} (hsaves : Saves s.now instr i f code)
    (h : Covered s) (hfits : fits s instr = true) : Covered (s.updateIntent i f) := by
  have hless : (∀ row, planned (f row) ≤ planned row) → Covered (s.updateIntent i f) := by
    intro hf
    have hwithin := h.within
    have := reserved_updateIntent_le (s := s) (i := i) hf
    refine h.of_same rfl rfl ?_
    show (reserved (s.updateIntent i f) : Int) ≤ s.balance
    omega
  cases hsaves with
  | expire => exact hless (fun _ => Nat.zero_le _)
  | saveWebhook | startPayment => exact hless (fun _ => Nat.le_refl _)
  | planCredit => exact h.plan hfits

theorem Does.covered {s s' : Store} {instr : Instr} {code : List Instr}
    (hdoes : Does s instr s' code) (h : Covered s) (hbacked : backed s instr = true)
    (hfits : fits s instr = true) : Covered s' := by
  have hwithin := h.within
  cases hdoes with
  | look | keep | miss | refuse => exact h
  | save hsaves => exact hsaves.covered h hfits
  | @complete i intent isPaid balance =>
    refine h.complete i intent isPaid balance ?_ ?_
    · intro htakes
      have hback : writesBack s (.commitCompletion i intent isPaid balance) = some balance := by
        rw [writesBack, htakes, if_pos rfl]
      exact (Int.add_zero _).symm.trans_le (written_back hbacked hback)
    · exact of_decide_eq_true hfits
  | @take j amount balance a ha hsome henough =>
    have hback := writesBack_applyCredit ha amount balance
    rw [if_pos ⟨henough, hsome⟩] at hback
    have hcovered := written_back hbacked hback
    rw [taken, ha] at hcovered
    refine h.of_same rfl rfl ?_
    show (reserved s : Int) ≤ balance - min amount a.calculateBalanceDue
    exact Int.le_sub_right_of_add_le hcovered
  | @record j amount invoice hj =>
    exact h.of_same (rows_saveInvoice s j invoice _) rfl hwithin
  | @transfer j amount balance a invoice ha hsome hlocked hdue henough =>
    have hback := writesBack_portal ha amount balance
    rw [if_pos ⟨hsome, hlocked, hdue, henough⟩] at hback
    have hcovered := written_back hbacked hback
    rw [taken] at hcovered
    have hrows := rows_saveInvoice s j invoice ⟨amount, "Credit Balance".toList, none, s.now⟩
    refine h.of_same hrows rfl ?_
    show (reserved s : Int) ≤ balance - amount
    exact Int.le_sub_right_of_add_le hcovered
  | @pay j amount gateway transactionId =>
    have hsame := sameRecords_recordPayment s j amount gateway transactionId
    have hbalance := balance_le_recordPayment h.items j amount gateway transactionId
    refine h.of_same hsame.rows hsame.debits ?_
    rw [reserved, hsame.intents]
    exact Int.le_trans hwithin hbalance
  | @deposit amount =>
    refine h.createInvoice ?_ _ _
    intro item hitem _
    rw [List.mem_singleton.mp hitem]
    exact of_decide_eq_true hfits

/-! ## Every run -/

theorem covered_act {c c' : State} {a : Action} (hone : c.OneLeft) (h : Covered c.store)
    (hcovers : covers c a = true) (hact : act c a = some c') : Covered c'.store := by
  cases act_cases hone hact with
  | environ _ henv =>
    refine henv.covered h ?_
    rintro items status rfl
    exact of_decide_eq_true hcovers
  | start => exact h
  | exec hat hdoes =>
    change (nextInstr c (.exec _)).all _ = true at hcovers
    rw [nextInstr_exec hat, Option.all_some, Bool.and_eq_true] at hcovers
    exact hdoes.covered h hcovers.1 hcovers.2

/-- In every run whose steps leave the credit planned on the pending intents within the balance,
the balance is never negative, and no completion takes more than there is. -/
theorem solvent_of_covers (c t : State) (hidle : c.procs = []) (hcovered : Covered c.store)
    (hreaches : billing.Reaches (fun c a => covers c a = true) c t) : Solvent t.store := by
  have hinv : t.OneLeft ∧ Covered t.store := by
    refine hreaches.invariant (P := fun t => t.OneLeft ∧ Covered t.store)
      ⟨Conf.oneLeft_of_idle hidle, hcovered⟩ ?_
    rintro t a u ⟨hone, h⟩ hcovers hact
    exact ⟨oneLeft_act hone hact, covered_act hone h hcovers hact⟩
  exact hinv.2.solvent

/-- Two orders that are paid from a balance that covers both. -/
def bothCovered : List Action :=
  [.addCredit 1000, .exec 0, .exec 0, .createIntent 400, .createIntent 500,
    .pay 0 true none, .exec 1, .exec 1, .pay 1 true none, .exec 2, .exec 2,
    .exec 1, .exec 1, .exec 1, .exec 2, .exec 2, .exec 2]

theorem solvent_bothCovered :
    Solvent (billing.final (fun c a => covers c a = true) ⟨{}, []⟩ bothCovered).store :=
  solvent_of_covers ⟨{}, []⟩ _ rfl ⟨by decide, (fun _ h => nomatch h), (fun _ h => nomatch h)⟩
    (Transition.System.reaches_final (by decide))

/-- The payments of two orders start from the same balance, one after the other; when both
sessions are paid, the credit is taken twice. -/
theorem solvent_fails :
    ¬ ∀ t, billing.Reaches Transition.Always ⟨{}, []⟩ t → Solvent t.store := by
  intro h
  have hrun : (billing.run ⟨{}, []⟩
      [.addCredit 1000, .exec 0, .exec 0, .createIntent 1500, .createIntent 1500,
        .pay 0 true none, .exec 1, .exec 1, .exec 1, .pay 1 true none, .exec 2, .exec 2, .exec 2,
        .webhook 0 none, .exec 3, .exec 3, .exec 3, .exec 3, .exec 3,
        .webhook 1 none, .exec 4, .exec 4, .exec 4, .exec 4, .exec 4]).any
      (fun t => decide (t.store.balance < 0)) = true := by decide
  obtain ⟨t, hreaches, hnegative⟩ := Transition.System.exists_reaches_always hrun
  exact Int.not_lt.mpr (h t hreaches).balance (of_decide_eq_true hnegative)

end ValidEmailVerifier.Checkout
