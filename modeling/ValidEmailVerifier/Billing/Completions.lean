/-
# `Billing.Completions` — what results from one checkout intent

The return page, the webhook and an administrator may complete the same intent.  The status is
checked in front of the transaction, on the intent as it was loaded, and the transaction does
not look again: two requests that have both passed the check both create an order, an invoice
and a debit (`atMostOne_fails`).  As long as every transaction commits while its intent is still
pending in the store, an intent has at most one of each (`atMostOne_of_stillPending`).
-/
import ValidEmailVerifier.Billing.CheckoutSteps

namespace ValidEmailVerifier.Checkout

open Processes Billing

/-! ## The results of an intent -/

/-- At most `b` orders, invoices and debits result from intent `i`. -/
structure Within (b : Nat) (s : Store) (i : Nat) : Prop where
  orders : s.orders.countP (·.checkoutIntentId = i) ≤ b
  invoices : s.rows.countP (·.2 = some i) ≤ b
  debits : s.debits.countP (·.intent = i) ≤ b

/-- At most one of each results from every intent. -/
def AtMostOne (s : Store) : Prop := ∀ i, Within 1 s i

/-- No intent `i`, or one that is pending. -/
def isOpen (s : Store) (i : Nat) : Bool := s.intents[i]?.all (·.status = .pending)

/-- Nothing results from an intent that is pending. -/
def NothingYet (s : Store) : Prop := ∀ i, isOpen s i = true → Within 0 s i

/-- What the lists count. -/
theorem Within.of_eq {b : Nat} {s s' : Store} {i : Nat} (h : Within b s i)
    (hrows : s'.rows = s.rows) (horders : s'.orders = s.orders)
    (hdebits : s'.debits = s.debits) : Within b s' i := by
  obtain ⟨ho, hi, hd⟩ := h
  exact ⟨horders ▸ ho, hrows ▸ hi, hdebits ▸ hd⟩

/-- An invoice of no intent counts for none. -/
theorem Within.createInvoice {b : Nat} {s : Store} {i : Nat} (h : Within b s i)
    (items : List InvoiceItem) (status : InvoiceStatus) :
    Within b (s.createInvoice items status none) i := by
  refine ⟨h.orders, ?_, h.debits⟩
  rw [rows_createInvoice, List.countP_append]
  exact h.invoices

/-- At most one new entry, of key `x`. -/
theorem countP_append_le {α β : Type} [DecidableEq β] (key : α → β) (l : List α) {new : List α}
    {x : β} (hlength : new.length ≤ 1) (hof : ∀ a ∈ new, key a = x) (k : β) :
    (l ++ new).countP (key · = k) ≤ l.countP (key · = k) + if k = x then 1 else 0 := by
  rw [List.countP_append]
  apply Nat.add_le_add_left
  split
  next => exact Nat.le_trans List.countP_le_length hlength
  next hne =>
    apply Nat.le_of_eq
    rw [List.countP_eq_zero]
    intro a ha hkey
    exact hne ((of_decide_eq_true hkey).symm.trans (hof a ha))

/-- A completion adds at most one of each for its intent, and nothing for the others. -/
theorem Completed.within {s s' : Store} {i : Nat} {intent : CheckoutIntent} {isPaid : Bool}
    (h : Completed s i intent isPaid s') {k b : Nat} (hk : Within b s k) :
    Within (b + if k = i then 1 else 0) s' k := by
  obtain ⟨newRows, hrows, hrowsLength, hrowsOf⟩ := h.rows
  obtain ⟨newOrders, horders, hordersLength, hordersOf⟩ := h.orders
  refine ⟨?_, ?_, ?_⟩
  · rw [horders]
    have := countP_append_le (·.checkoutIntentId) s.orders hordersLength hordersOf k
    exact Nat.le_trans this (Nat.add_le_add_right hk.orders _)
  · rw [hrows]
    have := countP_append_le (·.2) s.rows hrowsLength (fun r hr => (hrowsOf r hr).1) (some k)
    simp only [Option.some.injEq] at this
    exact Nat.le_trans this (Nat.add_le_add_right hk.invoices _)
  · rw [h.debits]
    have hnew : ∀ {takes : Bool} {d : Debit}, d.intent = i →
        (if takes then [d] else []).length ≤ 1 ∧
          ∀ d' ∈ (if takes then [d] else []), d'.intent = i := by
      intro takes d hd
      cases takes with
      | false => exact ⟨Nat.zero_le _, fun _ h => nomatch h⟩
      | true => exact ⟨Nat.le_refl _, fun d' h => by rw [List.mem_singleton.mp h]; exact hd⟩
    obtain ⟨hlength, hof⟩ :=
      @hnew (takesCredit s intent isPaid) ⟨i, intent.creditApplied, s.balance⟩ rfl
    have := countP_append_le (·.intent) s.debits hlength hof k
    exact Nat.le_trans this (Nat.add_le_add_right hk.debits _)

/-! ## One step -/

/-- The law, and what it rests on. -/
structure Once (s : Store) : Prop where
  atMostOne : AtMostOne s
  nothingYet : NothingYet s

theorem Once.of_same {s s' : Store} (h : Once s) (hrows : s'.rows = s.rows)
    (horders : s'.orders = s.orders) (hdebits : s'.debits = s.debits)
    (hopen : ∀ i, isOpen s' i = true → isOpen s i = true) : Once s' :=
  ⟨fun i => (h.atMostOne i).of_eq hrows horders hdebits,
    fun i hi => (h.nothingYet i (hopen i hi)).of_eq hrows horders hdebits⟩

theorem Once.createInvoice {s : Store} (h : Once s) (items : List InvoiceItem)
    (status : InvoiceStatus) : Once (s.createInvoice items status none) :=
  ⟨fun i => (h.atMostOne i).createInvoice items status,
    fun i hi => (h.nothingYet i hi).createInvoice items status⟩

/-- A change of a row that makes no intent pending. -/
theorem isOpen_updateIntent {s : Store} {i : Nat} {f : CheckoutIntent → CheckoutIntent}
    (hf : ∀ row, (f row).status = .pending → row.status = .pending) {k : Nat}
    (h : isOpen (s.updateIntent i f) k = true) : isOpen s k = true := by
  rw [isOpen, Store.updateIntent, List.getElem?_modify] at h
  rw [isOpen]
  cases hrow : s.intents[k]? with
  | none => rfl
  | some row =>
    rw [hrow, Option.map_eq_map, Option.map_some, Option.all_some, decide_eq_true_eq] at h
    rw [Option.all_some, decide_eq_true_eq]
    split at h
    · exact hf row h
    · exact h

theorem isOpen_newIntent {s : Store} {type : IntentType} {amountCents k : Nat}
    (h : isOpen (s.newIntent type amountCents) k = true) : isOpen s k = true := by
  rw [isOpen] at h ⊢
  by_cases hk : k < s.intents.length
  · rw [Store.newIntent, List.getElem?_append_left hk] at h
    exact h
  · rw [List.getElem?_eq_none (Nat.le_of_not_lt hk)]
    rfl

theorem Environ.once {s s' : Store} {a : Action} (h : Environ s a s') (honce : Once s) :
    Once s' := by
  cases h with
  | tick seconds => exact honce.of_same rfl rfl rfl (fun _ h => h)
  | intent type amountCents => exact honce.of_same rfl rfl rfl (fun _ => isOpen_newIntent)
  | invoiceIntent j a =>
    refine honce.of_same rfl rfl rfl ?_
    intro k h
    have hk := isOpen_newIntent h
    rw [isOpen, List.getElem?_map] at hk
    rw [isOpen]
    cases hrow : s.intents[k]? with
    | none => rfl
    | some row =>
      rw [hrow, Option.map_some, Option.all_some, decide_eq_true_eq] at hk
      rw [Option.all_some, decide_eq_true_eq]
      split at hk
      · exact nomatch hk
      · exact hk
  | invoice items status => exact honce.createInvoice items status

theorem Saves.keepsClosed {now : Nat} {instr : Instr} {i : Nat}
    {f : CheckoutIntent → CheckoutIntent} {code : List Instr} (h : Saves now instr i f code) :
    ∀ row, (f row).status = .pending → row.status = .pending := by
  intro row hrow
  cases h with
  | expire => exact nomatch hrow
  | saveWebhook | planCredit | startPayment => exact hrow

/-- Intent `i` is there and pending. -/
def isPending (s : Store) (i : Nat) : Bool := s.intents[i]?.any (·.status = .pending)

theorem isOpen_of_isPending {s : Store} {i : Nat} (h : isPending s i = true) :
    isOpen s i = true := by
  rw [isPending] at h
  rw [isOpen]
  cases hrow : s.intents[i]? with
  | none => rfl
  | some row =>
    rw [hrow] at h
    exact h

/-- The completion of an intent that is pending closes it. -/
theorem isOpen_saveCompleted {s : Store} {i k : Nat} {intent : CheckoutIntent} {isPaid : Bool}
    (hi : isPending s i = true) (h : isOpen (saveCompleted s i intent isPaid) k = true) :
    k ≠ i ∧ isOpen s k = true := by
  rw [isOpen, saveCompleted, Store.updateIntent, List.getElem?_modify] at h
  rw [isPending] at hi
  rw [isOpen]
  cases hrow : s.intents[k]? with
  | none =>
    refine ⟨?_, rfl⟩
    rintro rfl
    rw [hrow] at hi
    exact nomatch hi
  | some row =>
    rw [hrow, Option.map_eq_map, Option.map_some, Option.all_some, decide_eq_true_eq] at h
    rw [Option.all_some, decide_eq_true_eq]
    split at h
    next => exact nomatch h
    next hne => exact ⟨fun hk => hne hk.symm, h⟩

theorem Completed.once {s s' : Store} {i : Nat} {intent : CheckoutIntent} {isPaid : Bool}
    (h : Completed s i intent isPaid s') (honce : Once s) (hi : isPending s i = true) :
    Once s' := by
  constructor
  · intro k
    by_cases hk : k = i
    · have hnone := h.within (honce.nothingYet k (hk ▸ isOpen_of_isPending hi))
      rw [if_pos hk] at hnone
      exact hnone
    · have hone := h.within (honce.atMostOne k)
      rw [if_neg hk] at hone
      exact hone
  · intro k hopen
    rw [isOpen, h.intents] at hopen
    obtain ⟨hk, hopen⟩ := isOpen_saveCompleted hi hopen
    have hnone := h.within (honce.nothingYet k hopen)
    rw [if_neg hk] at hnone
    exact hnone

theorem Does.once {s s' : Store} {instr : Instr} {code : List Instr} (h : Does s instr s' code)
    (honce : Once s)
    (hpending : ∀ {i intent isPaid balance},
      instr = .commitCompletion i intent isPaid balance → isPending s i = true) : Once s' := by
  cases h with
  | look | keep | miss | refuse => exact honce
  | save h => exact honce.of_same rfl rfl rfl (fun _ => isOpen_updateIntent h.keepsClosed)
  | complete => exact (completion_cases _ _ _ _ _).once honce (hpending rfl)
  | take => exact honce.of_same rfl rfl rfl (fun _ h => h)
  | record => exact honce.of_same (rows_saveInvoice _ _ _ _) rfl rfl (fun _ h => h)
  | @transfer j amount _ _ invoice =>
    have hrows := rows_saveInvoice s j invoice ⟨amount, "Credit Balance".toList, none, s.now⟩
    exact honce.of_same hrows rfl rfl (fun _ h => h)
  | @pay j amount gateway transactionId =>
    have hsame := sameRecords_recordPayment s j amount gateway transactionId
    refine honce.of_same hsame.rows hsame.orders hsame.debits ?_
    intro k hk
    rw [isOpen, hsame.intents] at hk
    exact hk
  | deposit => exact honce.createInvoice _ _

/-! ## Every run -/

/-- The intent that a transaction completes is still pending when it commits. -/
def stillPending (c : State) (a : Action) : Bool :=
  match nextInstr c a with
  | some (.commitCompletion i _ _ _) => isPending c.store i
  | _ => true

theorem once_act {c c' : State} {a : Action} (hone : c.OneLeft) (honce : Once c.store)
    (hpending : stillPending c a = true) (hact : act c a = some c') : Once c'.store := by
  cases act_cases hone hact with
  | environ _ henv => exact henv.once honce
  | start => exact honce
  | exec hat hdoes =>
    rw [stillPending, nextInstr_exec hat] at hpending
    refine hdoes.once honce ?_
    rintro i intent isPaid balance rfl
    exact hpending

/-- In every run whose transactions complete intents that are still pending, at most one order,
one invoice and one debit result from an intent.  At the start no request is under way, and the
law holds with nothing for the pending intents. -/
theorem atMostOne_of_stillPending (c t : State) (hidle : c.procs = [])
    (hlaw : AtMostOne c.store) (hnothing : NothingYet c.store)
    (hreaches : billing.Reaches (fun c a => stillPending c a = true) c t) :
    AtMostOne t.store := by
  have hinv : t.OneLeft ∧ Once t.store := by
    refine hreaches.invariant (P := fun t => t.OneLeft ∧ Once t.store)
      ⟨Conf.oneLeft_of_idle hidle, hlaw, hnothing⟩ ?_
    rintro t a u ⟨hone, honce⟩ hpending hact
    exact ⟨oneLeft_act hone hact, once_act hone honce hpending hact⟩
  exact hinv.2.atMostOne

/-- An order that one request completes, and another after it. -/
def oneAfterAnother : List Action :=
  [.createIntent 900, .complete 0 true, .complete 0 true, .exec 0, .exec 0, .exec 0, .exec 0,
    .exec 1, .exec 1]

theorem atMostOne_oneAfterAnother :
    AtMostOne (billing.final (fun c a => stillPending c a = true) ⟨{}, []⟩ oneAfterAnother).store :=
  atMostOne_of_stillPending ⟨{}, []⟩ _ rfl
    (fun _ => ⟨Nat.zero_le _, Nat.zero_le _, Nat.zero_le _⟩)
    (fun _ _ => ⟨Nat.le_refl _, Nat.le_refl _, Nat.le_refl _⟩)
    (Transition.System.reaches_final (by decide))

/-- Two requests load the same deposit while it is pending: two invoices result. -/
theorem atMostOne_fails :
    ¬ ∀ t, billing.Reaches Transition.Always ⟨{}, []⟩ t → AtMostOne t.store := by
  intro h
  have hrun : (billing.run ⟨{}, []⟩
      [.createCreditIntent 900, .complete 0 true, .complete 0 true, .exec 0, .exec 1,
        .exec 0, .exec 0, .exec 0, .exec 1, .exec 1, .exec 1]).any
      (fun t => decide (1 < t.store.rows.countP (·.2 = some 0))) = true := by decide
  obtain ⟨t, hreaches, htwo⟩ := Transition.System.exists_reaches_always hrun
  exact Nat.not_lt.mpr (h t hreaches 0).invoices (of_decide_eq_true htwo)

end ValidEmailVerifier.Checkout
