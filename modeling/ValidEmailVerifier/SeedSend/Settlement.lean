/-
# `SeedSend.Settlement` — the credits of a campaign, whichever path settles them

A cancellation consumes the credits of the recipients that have been claimed, or reported on;
reconciliation consumes those of all recipients that are final, after it has deferred the others.
Neither looks at what has been handed to the provider: a recipient that is claimed and not yet
sent is charged by a cancellation (`settled_fails`), and one that was never claimed is charged by
reconciliation.

Where a settlement counts only what has been sent, the accounts of the store make the moves of
`Accounts` (`Does.moves`), so the entries are what is due and stay (`settled_of_inOrder`).
-/
import ValidEmailVerifier.SeedSend.Accounts

namespace ValidEmailVerifier.SeedSend

open Processes

/-! ## The law -/

/-- The recipients of a campaign that have been handed to the provider. -/
def handedOver (s : Store) (i : Nat) : Nat := s.countRecipients i (·.sent)

/-- What is consumed and what is released of a settled campaign is what was reserved, and what is
consumed is the price of the recipients that have been handed over. -/
def Exact (s : Store) : Prop :=
  ∀ (i : Nat) (campaign : Campaign) (used released : Nat), s.campaigns[i]? = some campaign →
    s.ledger i .consume = some used → s.ledger i .release = some released →
    used + released = campaign.creditsReserved ∧ used = s.creditsPerRecipient * handedOver s i

/-! ## The condition -/

/-- What a cancellation counts. -/
def counted (row : Recipient) : Bool := attempted row || row.status = .dispatching

/-- What a cancellation of campaign `i` counts has been sent. -/
def chargesSent (s : Store) (i : Nat) : Bool :=
  s.recipients.all fun row => row.campaign ≠ i || !counted row || row.sent

/-- The recipients of campaign `i` are all final, and have all been sent. -/
def finalSent (s : Store) (i : Nat) : Bool :=
  s.recipients.all fun row => row.campaign ≠ i || !isOpen row && row.sent

/-- Campaign `i` has no entry of a settlement, or is not at work, or its next batch has been sent
before. -/
def claimsSent (s : Store) (i : Nat) : Bool :=
  (s.ledger i .consume).isNone && (s.ledger i .release).isNone ||
    s.campaigns[i]?.all (·.status ∉ [CampaignStatus.queued, .running]) ||
    (batch s i).all fun r => s.recipients[r]?.all (·.sent)

/-- What reconciliation counts, or a batch claims, is in order. -/
def countsSent (s : Store) : Instr → Bool
  | .countFinal i _ => finalSent s i
  | .claim i => claimsSent s i
  | _ => true

def chargesExactly (s : Store) (instr : Instr) : Bool :=
  ((cancels s instr).all fun i => chargesSent s i) && countsSent s instr

/-- A settlement counts only what has been sent, and nothing else is claimed afterwards. -/
def inOrder (c : State) (a : Action) : Bool := (nextInstr c a).all (chargesExactly c.store)

/-! ## The accounts of the store -/

def itemOf (row : Recipient) : Item :=
  { campaign := row.campaign, attempts := row.attemptCount, sent := row.sent }

def items (s : Store) : List Item := s.recipients.map itemOf

def accounts (s : Store) : Accounts :=
  { price := s.creditsPerRecipient, terms := terms s, items := items s, ledger := s.ledger }

theorem used_accounts (s : Store) (i : Nat) : (accounts s).used i = handedOver s i := by
  show (s.recipients.map itemOf).countP _ = _
  rw [List.countP_map]
  rfl

theorem total_accounts (s : Store) (i : Nat) :
    (accounts s).total i = s.countRecipients i fun _ => true := by
  show (s.recipients.map itemOf).countP _ = s.recipients.countP _
  rw [List.countP_map]
  refine List.countP_congr fun row _ => ?_
  rw [Function.comp_apply, Bool.and_true]
  exact Iff.rfl

/-- The books of the store are exact. -/
theorem Books.exact {s : Store} (h : Books (accounts s)) : Exact s := by
  intro i campaign used released hrow hused hreleased
  have hterms : (accounts s).terms[i]? = some (termsOf campaign) := by
    show (s.campaigns.map termsOf)[i]? = _
    rw [List.getElem?_map, hrow]
    rfl
  obtain ⟨-, -, hconsume⟩ := h.entries i .consume used (nomatch ·) hused
  obtain ⟨-, -, hrelease⟩ := h.entries i .release released (nomatch ·) hreleased
  have hreserved : campaign.creditsReserved = _ := (h.terms i _ hterms).1
  rw [Accounts.Due] at hconsume
  rw [Accounts.Due] at hrelease
  constructor
  · rw [hreserved, hconsume, Nat.add_comm]
    exact hrelease
  · rw [← used_accounts]
    exact hconsume

/-! ## What the processes rely on -/

/-- The recipients of a batch belong to its campaign, and have been claimed. -/
def Tried (a : Accounts) (i : Nat) (ids : List Nat) : Prop :=
  ∀ r ∈ ids, ∃ x, a.items[r]? = some x ∧ x.campaign = i ∧ 0 < x.attempts

/-- A model that says the campaign has used all its credits is right. -/
def Loaded (a : Accounts) (i : Nat) (campaign : Campaign) : Prop :=
  i < a.terms.length ∧ (campaign.creditsUsed = a.price * a.total i →
    ∀ x, a.terms[i]? = some x → x.used = a.price * a.total i)

def Promise (a : Accounts) : Instr → Prop
  | .afterClaim i ids _ => Tried a i ids
  | .loadClaimed i ids => Tried a i ids
  | .recheck i rs => Tried a i rs
  | .sendLoop i rs => Tried a i rs
  | .send i r rs => Tried a i (r :: rs)
  | .markDispatched i _ _ rs => Tried a i rs
  | .markDeferred i _ rs => Tried a i rs
  | .countOpen i campaign => Loaded a i campaign
  | .deferOpen i campaign => Loaded a i campaign
  | .countFinal i campaign => Loaded a i campaign
  | .completeCampaign i campaign t =>
      Loaded a i campaign ∧ a.AllSent i ∧ sentFinal t = a.total i
  | .refreshCompleted i =>
      a.AllSent i ∧ ∃ x, a.terms[i]? = some x ∧ x.used = a.price * a.total i
  | .consume i campaign | .release i campaign =>
      a.AllSent i ∧ i < a.terms.length ∧ campaign.creditsUsed = a.price * a.total i ∧
        campaign.creditsReserved = a.price * a.total i
  | _ => True

section Later
variable {a a' : Accounts} {i : Nat}

theorem Later.length (h : Later a a') (hi : i < a.terms.length) : i < a'.terms.length := by
  obtain ⟨x, hx, -⟩ := h.terms i _ (List.getElem?_eq_getElem hi)
  exact (List.getElem?_eq_some_iff.mp hx).1

theorem Later.tried (h : Later a a') {ids : List Nat} (hids : Tried a i ids) : Tried a' i ids := by
  intro r hr
  obtain ⟨x, hx, hcamp, hattempts⟩ := hids r hr
  obtain ⟨x', hx', hcamp', hle⟩ := h.items r x hx
  exact ⟨x', hx', hcamp'.trans hcamp, Nat.lt_of_lt_of_le hattempts hle⟩

theorem Later.priceTotal (h : Later a a') (hi : i < a.terms.length) :
    a'.price * a'.total i = a.price * a.total i := by
  rw [h.price, h.total i hi]

theorem Later.loaded (h : Later a a') {campaign : Campaign} (hload : Loaded a i campaign) :
    Loaded a' i campaign := by
  obtain ⟨hi, hused⟩ := hload
  refine ⟨h.length hi, fun hall x' hx' => ?_⟩
  rw [h.priceTotal hi] at hall ⊢
  have hx := List.getElem?_eq_getElem hi
  obtain ⟨y, hy, -, hkept⟩ := h.terms i _ hx
  rw [hx'] at hy
  cases hy
  exact hkept (hused hall _ hx)

/-- What a process relies on stays true. -/
theorem Promise.later {instr : Instr} (h : Promise a instr) (hl : Later a a') :
    Promise a' instr := by
  cases instr with
  | afterClaim | loadClaimed | recheck | sendLoop | send | markDispatched | markDeferred =>
    exact hl.tried h
  | countOpen | deferOpen | countFinal => exact hl.loaded h
  | completeCampaign i campaign t =>
    obtain ⟨hload, hall, ht⟩ := h
    exact ⟨hl.loaded hload, hl.allSent i hload.1 hall, ht.trans (hl.total i hload.1).symm⟩
  | refreshCompleted i =>
    obtain ⟨hall, x, hx, hused⟩ := h
    have hi := (List.getElem?_eq_some_iff.mp hx).1
    obtain ⟨x', hx', -, hkept⟩ := hl.terms i x hx
    refine ⟨hl.allSent i hi hall, x', hx', ?_⟩
    rw [hl.priceTotal hi]
    exact hkept hused
  | consume i campaign | release i campaign =>
    obtain ⟨hall, hi, hused, hreserved⟩ := h
    refine ⟨hl.allSent i hi hall, hl.length hi, ?_⟩
    rw [hl.priceTotal hi]
    exact ⟨hused, hreserved⟩
  | _ => trivial

end Later

/-- Some moves. -/
def Accounts.Moves : Accounts → Accounts → Prop := Relation.ReflTransGen Accounts.Move

theorem Books.moves {a a' : Accounts} (h : Books a) (hmoves : a.Moves a') : Books a' := by
  induction hmoves with
  | refl => exact h
  | tail _ hmove ih => exact ih.move hmove

theorem Promise.moves {a a' : Accounts} {instr : Instr} (h : Promise a instr)
    (hmoves : a.Moves a') : Promise a' instr := by
  induction hmoves with
  | refl => exact h
  | tail _ hmove ih => exact ih.later hmove.later

theorem Books.ledger_moves {a a' : Accounts} (h : Books a) (hmoves : a.Moves a') {i : Nat}
    {type : EntryType} {credits : Nat} (htype : type ≠ .reserve)
    (hentry : a.ledger i type = some credits) : a'.ledger i type = some credits := by
  induction hmoves with
  | refl => exact hentry
  | tail hmoves hmove ih => exact (h.moves hmoves).ledger_eq hmove htype ih

/-! ## What an instruction does to the accounts -/

theorem item_cancelledRow (now : Nat) (row : Recipient) :
    itemOf (cancelledRow now row) = itemOf row := by
  rw [cancelledRow, deferDispatched, failPending]
  split
  · split
    · rfl
    · rfl
  · split
    · rfl
    · rfl

theorem Changes.item {s : Store} {instr : Instr} {r : Nat} {row row' : Recipient}
    (h : Changes s instr r row row') :
    itemOf row' = itemOf row ∨ (∃ i, instr = .claim i ∧ row' = claimed row ∧
      r ∈ batch (s.updateCampaign i (startRunning s)) i) ∨
    ∃ i rs, instr = .send i r rs := by
  cases h with
  | claim hr => exact .inr (.inl ⟨_, rfl, rfl, hr⟩)
  | handOver => exact .inr (.inr ⟨_, _, rfl⟩)
  | cancel => exact .inl (item_cancelledRow s.now row)
  | _ => exact .inl rfl

theorem items_eq {s s' : Store} (hlength : s'.recipients.length = s.recipients.length)
    (h : ∀ (r : Nat) (row : Recipient), s.recipients[r]? = some row →
      ∃ row', s'.recipients[r]? = some row' ∧ itemOf row' = itemOf row) :
    items s' = items s := by
  apply List.ext_getElem?
  intro r
  rw [items, items, List.getElem?_map, List.getElem?_map]
  cases hrow : s.recipients[r]? with
  | none =>
    have hr := List.getElem?_eq_none_iff.mp hrow
    rw [List.getElem?_eq_none (hlength ▸ hr)]
  | some row =>
    obtain ⟨row', hrow', hsame⟩ := h r row hrow
    rw [hrow', Option.map_some, Option.map_some, hsame]

/-- Only a claim, a hand-over and a new campaign change the items. -/
theorem Does.items {s s' : Store} {instr : Instr} {code : List Instr} (h : Does s instr s' code)
    (hcreated : created instr = none) (hclaim : ∀ i, instr ≠ .claim i)
    (hsend : ∀ i r rs, instr ≠ .send i r rs) : SeedSend.items s' = SeedSend.items s := by
  have hlength : s'.recipients.length = s.recipients.length := by
    rcases h.recipients with hlength | ⟨job, k, emails, rfl, -⟩
    · exact hlength
    · exact nomatch hcreated
  refine items_eq hlength fun r row hrow => ?_
  obtain ⟨row', hrow', hchanges⟩ := h.changed hrow
  refine ⟨row', hrow', ?_⟩
  rcases hchanges.item with hsame | ⟨i, hinstr, -⟩ | ⟨i, rs, hinstr⟩
  · exact hsame
  · exact absurd hinstr (hclaim i)
  · exact absurd hinstr (hsend i r rs)

/-! ### Cancellations -/

/-- A cancellation counts a recipient by what it was before. -/
theorem attempted_cancelledRow (now : Nat) (row : Recipient) :
    attempted (cancelledRow now row) = counted row := by
  rw [attempted, counted, attempted]
  rcases hstatus : row.status with _ | _ | _ | _ | _ | _ | _ <;>
    simp [cancelledRow, deferDispatched, failPending, hstatus]

theorem counted_cancelledRow (now : Nat) (row : Recipient) :
    counted (cancelledRow now row) = counted row := by
  have hfinal := isOpen_cancelledRow now row
  have hstatus : (cancelledRow now row).status ≠ .dispatching := by
    intro hstatus
    rw [isOpen, hstatus] at hfinal
    cases hfinal
  rw [counted, attempted_cancelledRow, decide_eq_false hstatus, Bool.or_false]

theorem chargesSent_iff {s : Store} {i : Nat} :
    chargesSent s i = true ↔
      ∀ row ∈ s.recipients, row.campaign = i → counted row = true → row.sent = true := by
  rw [chargesSent, List.all_eq_true]
  refine forall₂_congr fun row _ => ?_
  rw [Bool.or_eq_true, Bool.or_eq_true, decide_eq_true_eq, Bool.not_eq_true']
  constructor
  · rintro ((hne | hnot) | hsent) hcamp hcounted
    · exact absurd hcamp hne
    · exact nomatch hcounted.symm.trans hnot
    · exact hsent
  · intro h
    by_cases hcamp : row.campaign = i
    · cases hcounted : counted row with
      | false => exact .inl (.inr rfl)
      | true => exact .inr (h hcamp hcounted)
    · exact .inl (.inl hcamp)

theorem chargesSent_transitionToCancelled {s : Store} {i j : Nat} (h : chargesSent s j = true) :
    chargesSent (transitionToCancelled s i) j = true := by
  rw [chargesSent_iff] at h ⊢
  rw [recipients_transitionToCancelled]
  intro row' hrow' hcamp hcounted
  obtain ⟨row, hrow, rfl⟩ := List.mem_map.mp hrow'
  by_cases hi : row.campaign = i
  · rw [if_pos hi] at hcamp hcounted ⊢
    rw [campaign_cancelledRow] at hcamp
    rw [counted_cancelledRow] at hcounted
    have hsent := h row hrow hcamp hcounted
    have hitem : itemOf (cancelledRow s.now row) = itemOf row := item_cancelledRow s.now row
    exact (congrArg Item.sent hitem).trans hsent
  · rw [if_neg hi] at hcamp hcounted ⊢
    exact h row hrow hcamp hcounted

theorem items_markCancelled (s : Store) (i : Nat) : items (markCancelled s i) = items s := by
  rw [items, recipients_markCancelled, List.map_map]
  refine List.map_congr_left fun row _ => ?_
  rw [Function.comp_apply]
  split
  · exact item_cancelledRow s.now row
  · rfl

theorem countRecipients_markCancelled (s : Store) (i : Nat) (p : Recipient → Bool) :
    (markCancelled s i).countRecipients i p =
      s.countRecipients i fun row => p (cancelledRow s.now row) := by
  rw [Store.countRecipients, recipients_markCancelled, List.countP_map]
  refine List.countP_congr fun row _ => ?_
  rw [Function.comp_apply]
  by_cases hrow : row.campaign = i
  · rw [if_pos hrow, campaign_cancelledRow]
  · rw [if_neg hrow, decide_eq_false hrow, Bool.false_and, Bool.false_and]

/-- A cancellation that charges what has been sent counts what has been handed over. -/
theorem attempted_markCancelled {s : Store} (h : Books (accounts s)) {i : Nat}
    (hsent : chargesSent s i = true) :
    (markCancelled s i).countRecipients i attempted = (accounts s).used i := by
  rw [countRecipients_markCancelled, used_accounts, handedOver, Store.countRecipients]
  refine List.countP_congr fun row hrow => ?_
  rw [attempted_cancelledRow, Bool.and_eq_true, Bool.and_eq_true, decide_eq_true_eq]
  refine and_congr_right fun hcamp => ?_
  constructor
  · exact chargesSent_iff.mp hsent row hrow hcamp
  · intro hrowsent
    have htried := h.tried (itemOf row) (List.mem_map.mpr ⟨row, hrow, rfl⟩) hrowsent
    rw [counted, attempted, decide_eq_true (show 0 < row.attemptCount from htried)]
    rfl

theorem used_le_total (a : Accounts) (i : Nat) : a.used i ≤ a.total i :=
  List.countP_mono_left fun _ _ h => ((Bool.and_eq_true _ _).mp h).1

/-- A campaign without recipients has sent none. -/
theorem sent_totals {s : Store} {i : Nat} (h : s.countRecipients i (fun _ => true) = 0) :
    (totals s i).sent = 0 := by
  have hnone : ∀ p : Recipient → Bool, s.countRecipients i p = 0 := by
    intro p
    refine Nat.eq_zero_of_le_zero (Nat.le_trans ?_ (Nat.le_of_eq h))
    refine List.countP_mono_left fun row _ hrow => ?_
    rw [Bool.and_true]
    exact ((Bool.and_eq_true _ _).mp hrow).1
  simp only [totals, Totals.sent, hnone]

theorem campaign_markCancelled {s : Store} {i : Nat} {campaign : Campaign}
    (hrow : s.campaigns[i]? = some campaign) :
    ∃ campaign', (markCancelled s i).campaigns[i]? = some campaign' ∧
      campaign'.creditsReserved = campaign.creditsReserved ∧
      campaign'.sentCount = (totals (markCancelled s i) i).sent := by
  refine ⟨{ campaign with
    status := .cancelled
    sentCount := (totals (markCancelled s i) i).sent
    deliveredCount := (totals (markCancelled s i) i).delivered
    bouncedCount := (totals (markCancelled s i) i).bounced
    deferredCount := (totals (markCancelled s i) i).deferred }, ?_, rfl, rfl⟩
  show (s.campaigns.modify i _)[i]? = _
  rw [List.getElem?_modify, hrow]
  exact congrArg some (if_pos rfl)

theorem terms_markCancelled (s : Store) (i : Nat) : terms (markCancelled s i) = terms s :=
  terms_same _ i fun _ => rfl

theorem accounts_markCancelled (s : Store) (i : Nat) :
    accounts (markCancelled s i) = accounts s := by
  rw [accounts, terms_markCancelled, items_markCancelled]
  rfl

/-- What `settleCancellation` charges. -/
theorem usedCredits_markCancelled {s : Store} (h : Books (accounts s)) {i : Nat}
    {campaign : Campaign} (hcount : campaign.sentCount = (totals (markCancelled s i) i).sent)
    (hsent : chargesSent s i = true) :
    (if 0 < (markCancelled s i).countRecipients i (fun _ => true) then
      (markCancelled s i).countRecipients i attempted * (markCancelled s i).creditsPerRecipient
    else campaign.sentCount * (markCancelled s i).creditsPerRecipient) =
      (accounts s).price * (accounts s).used i := by
  have htotal : (markCancelled s i).countRecipients i (fun _ => true) = (accounts s).total i := by
    rw [countRecipients_markCancelled, total_accounts]
  have hprice : (markCancelled s i).creditsPerRecipient = (accounts s).price := rfl
  rw [attempted_markCancelled h hsent, hprice]
  split
  next => exact Nat.mul_comm _ _
  next hnone =>
    have hzero := Nat.eq_zero_of_not_pos hnone
    rw [hcount, sent_totals hzero]
    rw [htotal] at hzero
    have hused : (accounts s).used i = 0 :=
      Nat.eq_zero_of_le_zero (hzero ▸ used_le_total (accounts s) i)
    rw [hused, Nat.zero_mul, Nat.mul_zero]

theorem accounts_upsertEntry (s : Store) (i : Nat) (type : EntryType) (credits : Nat) :
    accounts (s.upsertEntry i type credits) = (accounts s).enter i type credits := rfl

theorem done_of_chargesSent {s : Store} {i : Nat} (h : chargesSent s i = true) :
    (accounts s).Done i := by
  intro x hx hcamp hattempts
  obtain ⟨row, hrow, rfl⟩ := List.mem_map.mp hx
  refine chargesSent_iff.mp h row hrow hcamp ?_
  rw [counted, attempted, decide_eq_true (show 0 < row.attemptCount from hattempts)]
  rfl

theorem terms_accounts {s : Store} {i : Nat} {campaign : Campaign}
    (hrow : s.campaigns[i]? = some campaign) :
    (accounts s).terms[i]? = some (termsOf campaign) := by
  show (s.campaigns.map termsOf)[i]? = _
  rw [List.getElem?_map, hrow]
  rfl

/-- A cancellation that charges what has been sent makes two entries that are due. -/
theorem moves_transitionToCancelled {s : Store} (h : Books (accounts s)) {i : Nat}
    (hsent : chargesSent s i = true) :
    (accounts s).Moves (accounts (transitionToCancelled s i)) := by
  rw [transitionToCancelled]
  cases hrow : s.campaigns[i]? with
  | none =>
    have hnone : (markCancelled s i).campaigns[i]? = none := by
      show (s.campaigns.modify i _)[i]? = _
      rw [List.getElem?_modify, hrow]
      rfl
    rw [hnone]
    dsimp only
    rw [accounts_markCancelled]
    exact .refl
  | some campaign =>
    obtain ⟨campaign', hrow', hreserved, hcount⟩ := campaign_markCancelled hrow
    rw [hrow']
    dsimp only
    have hterms := terms_accounts hrow
    have hi := (List.getElem?_eq_some_iff.mp hterms).1
    have hreserve : campaign'.creditsReserved = (accounts s).price * (accounts s).total i :=
      hreserved.trans (h.terms i _ hterms).1
    have hle : (accounts s).price * (accounts s).used i ≤
        (accounts s).price * (accounts s).total i :=
      Nat.mul_le_mul_left _ (used_le_total (accounts s) i)
    rw [settleCancellation, usedCredits_markCancelled h hcount hsent, hreserve, Nat.min_eq_left hle,
      accounts_upsertEntry, accounts_upsertEntry, accounts_markCancelled]
    have hdone := done_of_chargesSent hsent
    have hconsume : (accounts s).Move
        ((accounts s).enter i .consume ((accounts s).price * (accounts s).used i)) :=
      .enter hi hdone rfl
    exact .tail (.tail .refl hconsume) (.enter hi hdone (Nat.sub_add_cancel hle))

theorem moves_foldl_cancel (is : List Nat) :
    ∀ {s : Store}, Books (accounts s) → (∀ i ∈ is, chargesSent s i = true) →
      (accounts s).Moves (accounts (is.foldl transitionToCancelled s)) := by
  induction is with
  | nil => exact fun _ _ => .refl
  | cons i is ih =>
    intro s h hsent
    have hmoves := moves_transitionToCancelled h (hsent i List.mem_cons_self)
    refine hmoves.trans (ih (h.moves hmoves) fun j hj => ?_)
    exact chargesSent_transitionToCancelled (hsent j (List.mem_cons_of_mem _ hj))

/-! ### Reconciliation -/

theorem used_of_allSent {a : Accounts} {i : Nat} (h : a.AllSent i) : a.used i = a.total i := by
  refine List.countP_congr fun x hx => ?_
  rw [Bool.and_eq_true]
  exact ⟨And.left, fun hcamp => ⟨hcamp, h x hx (of_decide_eq_true hcamp)⟩⟩

theorem done_of_allSent {a : Accounts} {i : Nat} (h : a.AllSent i) : a.Done i :=
  fun x hx hcamp _ => h x hx hcamp

theorem finalSent_iff {s : Store} {i : Nat} :
    finalSent s i = true ↔
      ∀ row ∈ s.recipients, row.campaign = i → isOpen row = false ∧ row.sent = true := by
  rw [finalSent, List.all_eq_true]
  refine forall₂_congr fun row _ => ?_
  rw [Bool.or_eq_true, Bool.and_eq_true, decide_eq_true_eq, Bool.not_eq_true', or_iff_not_imp_left,
    not_not]

theorem allSent_of_finalSent {s : Store} {i : Nat} (h : finalSent s i = true) :
    (accounts s).AllSent i := by
  intro x hx hcamp
  obtain ⟨row, hrow, rfl⟩ := List.mem_map.mp hx
  exact (finalSent_iff.mp h row hrow hcamp).2

theorem final_cases {row : Recipient} (h : isOpen row = false) :
    row.status = .delivered ∨ row.status = .bounced ∨ row.status = .deferred ∨
      row.status = .failed := by
  rw [isOpen] at h
  cases hstatus : row.status with
  | pending | dispatching | dispatched =>
    rw [hstatus] at h
    cases h
  | delivered | bounced | deferred | failed => simp

/-- Of final recipients, reconciliation counts each once. -/
theorem sentFinal_totals {s : Store} {i : Nat} (h : finalSent s i = true) :
    sentFinal (totals s i) = (accounts s).total i := by
  have hfinal := finalSent_iff.mp h
  rw [total_accounts, sentFinal, totals]
  simp only [Store.countRecipients]
  generalize s.recipients = rows at hfinal
  induction rows with
  | nil => rfl
  | cons row rows ih =>
    have ih := ih fun x hx => hfinal x (List.mem_cons_of_mem _ hx)
    simp only [List.countP_cons]
    rw [← ih]
    by_cases hcamp : row.campaign = i
    · rcases final_cases (hfinal row List.mem_cons_self hcamp).1 with hs | hs | hs | hs
      · simp [hcamp, hs]
        omega
      · simp [hcamp, hs]
        omega
      · simp [hcamp, hs]
        omega
      · simp [hcamp, hs]
        omega
    · simp [hcamp]

/-! ### Every instruction -/

theorem foldl_updateRecipient (f : Recipient → Recipient) (ids : List Nat) :
    ∀ s : Store, ids.foldl (fun s r => s.updateRecipient r f) s =
      { s with recipients := (ids.foldl (fun s r => s.updateRecipient r f) s).recipients } := by
  induction ids with
  | nil => exact fun _ => rfl
  | cons r ids ih =>
    intro s
    rw [List.foldl_cons, ih]
    rfl

theorem accounts_congr {s s' : Store} (hterms : terms s' = terms s) (hitems : items s' = items s)
    (hledger : s'.ledger = s.ledger) (hconfig : s'.config = s.config) :
    accounts s' = accounts s := by
  rw [accounts, accounts, hterms, hitems, hledger, Store.creditsPerRecipient, hconfig]
  rfl

theorem accounts_updateCampaign (s : Store) (i : Nat) {f : Campaign → Campaign}
    (hf : ∀ row, termsOf (f row) = termsOf row) : accounts (s.updateCampaign i f) = accounts s :=
  accounts_congr (terms_same s i hf) rfl rfl rfl

theorem moves_of_eq {s s' : Store} (h : accounts s' = accounts s) :
    (accounts s).Moves (accounts s') := by
  rw [h]
  exact .refl

theorem createdAccounts (s : Store) (job k : Nat) (emails : List Text) :
    (accounts s).Move (accounts (createCampaign s job k emails)) := by
  have hledger : ∀ i type, type ≠ .reserve →
      (createCampaign s job k emails).ledger i type = s.ledger i type := by
    intro i type htype
    rw [createCampaign, reserveForCampaign]
    split
    · rfl
    · exact if_neg fun h => htype h.2
  have hterms : terms (createCampaign s job k emails) =
      terms s ++ [⟨k, s.creditsPerRecipient * emails.length, 0⟩] := by
    rw [createCampaign, reserveForCampaign]
    split
    · exact List.map_append
    · exact List.map_append
  have hitems : items (createCampaign s job k emails) =
      items s ++ List.replicate emails.length (Item.fresh (terms s).length) := by
    have hfresh : (itemOf ∘ fun email => { campaign := s.campaigns.length, email := email }) =
        fun _ => Item.fresh s.campaigns.length := rfl
    rw [items, recipients_createCampaign, List.map_append, List.map_map, terms, List.length_map,
      hfresh, List.map_const']
    rfl
  have hprice : (createCampaign s job k emails).creditsPerRecipient = s.creditsPerRecipient := by
    rw [Store.creditsPerRecipient, (sameRest_createCampaign s job k emails).config]
    rfl
  have hsame : accounts (createCampaign s job k emails) = { accounts s with
      terms := terms s ++ [⟨k, s.creditsPerRecipient * emails.length, 0⟩]
      items := items s ++ List.replicate emails.length (Item.fresh (terms s).length)
      ledger := (createCampaign s job k emails).ledger } := by
    rw [accounts, hterms, hitems, hprice]
    rfl
  rw [hsame]
  exact .create hledger

theorem item_claimed {row : Recipient} (h : row.status = .pending) :
    itemOf (claimed row) = { itemOf row with attempts := (itemOf row).attempts + 1 } := by
  rw [claimed, if_pos h]
  rfl

theorem accounts_claimBatch (s : Store) (i : Nat) :
    accounts (claimBatch (s.updateCampaign i (startRunning s)) (batch s i)) = { accounts s with
      items := items (claimBatch (s.updateCampaign i (startRunning s)) (batch s i)) } := by
  have hterms : terms (s.updateCampaign i (startRunning s)) = terms s := by
    refine terms_same s i ?_
    intro row
    rw [startRunning]
    split
    · rfl
    · rfl
  have hledger : (claimBatch (s.updateCampaign i (startRunning s)) (batch s i)).ledger =
      s.ledger := by
    rw [claimBatch, foldl_updateRecipient]
    rfl
  have hprice : (claimBatch (s.updateCampaign i (startRunning s)) (batch s i)).creditsPerRecipient =
      s.creditsPerRecipient := by
    rw [claimBatch, foldl_updateRecipient]
    rfl
  rw [accounts, hledger, hprice, claimBatch, terms, campaigns_foldl_updateRecipient, ← terms,
    hterms]
  rfl

theorem items_claimBatch (s : Store) (i r : Nat) :
    (items (claimBatch (s.updateCampaign i (startRunning s)) (batch s i)))[r]? =
      (if r ∈ batch s i then s.recipients[r]?.map claimed else s.recipients[r]?).map itemOf := by
  rw [items, List.getElem?_map, claimBatch, recipients_foldl claimed_claimed]
  rfl

theorem tried_claimBatch (s : Store) (i : Nat) :
    Tried (accounts (claimBatch (s.updateCampaign i (startRunning s)) (batch s i))) i
      (batch s i) := by
  intro r hr
  obtain ⟨row, hrow, hcamp, hpending⟩ := mem_batch hr
  have hitem : (items (claimBatch (s.updateCampaign i (startRunning s)) (batch s i)))[r]? =
      some (itemOf (claimed row)) := by
    rw [items_claimBatch, if_pos hr, hrow]
    rfl
  refine ⟨_, hitem, ?_, ?_⟩
  · rw [item_claimed hpending]
    exact hcamp
  · rw [item_claimed hpending]
    exact Nat.succ_pos _

theorem not_entered {s : Store} {i : Nat}
    (h : (s.ledger i .consume).isNone = true ∧ (s.ledger i .release).isNone = true) :
    ¬ (accounts s).Entered i := by
  rintro ⟨type, credits, htype, hentry⟩
  have hledger : s.ledger i type = some credits := hentry
  cases type with
  | reserve => exact htype rfl
  | consume =>
    rw [hledger] at h
    exact nomatch h.1
  | release =>
    rw [hledger] at h
    exact nomatch h.2

/-- A claim tries the recipients of a batch. -/
theorem claimedAccounts {s : Store} {i : Nat} {campaign : Campaign}
    (hrow : s.campaigns[i]? = some campaign)
    (hstatus : campaign.status ∈ [CampaignStatus.queued, .running])
    (hcond : claimsSent s i = true) :
    (accounts s).Move
      (accounts (claimBatch (s.updateCampaign i (startRunning s)) (batch s i))) := by
  rw [accounts_claimBatch]
  refine .claim (forall₂_of_getElem? ?_ fun r x hx => ?_)
  · show ((claimBatch _ _).recipients.map itemOf).length = (s.recipients.map itemOf).length
    rw [List.length_map, List.length_map, claimBatch,
      length_foldl fun s r => length_updateRecipient s r claimed]
    rfl
  · have hitem : (s.recipients.map itemOf)[r]? = some x := hx
    rw [List.getElem?_map] at hitem
    obtain ⟨row, hold, rfl⟩ := Option.map_eq_some_iff.mp hitem
    rw [items_claimBatch, hold]
    split
    next hr =>
      obtain ⟨row', hrow', hcamp, hpending⟩ := mem_batch hr
      rw [hold] at hrow'
      cases hrow'
      subst hcamp
      refine ⟨_, rfl, .inr ⟨item_claimed hpending, fun hentered => ?_⟩⟩
      rw [claimsSent, Bool.or_eq_true, Bool.or_eq_true, Bool.and_eq_true, hrow,
        Option.all_some, decide_eq_true_eq] at hcond
      rcases hcond with (hnone | hidle) | hall
      · exact absurd hentered (not_entered hnone)
      · exact absurd hstatus hidle
      · have hsent := List.all_eq_true.mp hall r hr
        rw [hold] at hsent
        exact hsent
    next => exact ⟨_, rfl, .inl rfl⟩

/-- Reconciliation writes that the campaign has used the credits of all its recipients. -/
theorem accounts_completed {s : Store} {i : Nat} {campaign : Campaign} {t : Totals}
    (hload : Loaded (accounts s) i campaign) (ht : sentFinal t = (accounts s).total i) :
    accounts (s.updateCampaign i (completed s campaign t)) = { accounts s with
      terms := (accounts s).terms.modify i fun x =>
        { x with used := (accounts s).price * (accounts s).total i } } := by
  have hset : ((terms s).modify i fun x =>
      { x with used := dirty campaign.creditsUsed (sentFinal t * s.creditsPerRecipient) x.used }) =
      (terms s).modify i fun x =>
        { x with used := (accounts s).price * (accounts s).total i } := by
    refine modify_congr fun x hx => ?_
    rw [ht, Nat.mul_comm]
    show { x with used := dirty _ ((accounts s).price * (accounts s).total i) x.used } = _
    by_cases hsame : campaign.creditsUsed = (accounts s).price * (accounts s).total i
    · rw [hsame, dirty_clean, hload.2 hsame x hx]
    · rw [dirty, if_neg fun h => hsame h.symm]
  rw [accounts, terms_completed, hset]
  rfl

theorem Does.moves {s s' : Store} {instr : Instr} {code : List Instr} (h : Does s instr s' code)
    (hbooks : Books (accounts s)) (hpromise : Promise (accounts s) instr)
    (hcond : chargesExactly s instr = true) : (accounts s).Moves (accounts s') := by
  rw [chargesExactly, Bool.and_eq_true] at hcond
  obtain ⟨hcancels, hcond⟩ := hcond
  have hitems := h.items
  cases h with
  | look | approve | claimNothing | record => exact .refl
  | @revoke k =>
    exact moves_foldl_cancel (restingOn s k) (s := s.updateConsent k fun row =>
      { row with status := .revoked, revokedAt := some s.now }) hbooks
      (List.all_eq_true.mp hcancels)
  | @create job k emails => exact .single (createdAccounts s job k emails)
  | @status _ i status =>
    exact moves_of_eq (accounts_updateCampaign s i fun _ => rfl)
  | @cancel i campaign hstatus =>
    rw [(cancels_of_running hstatus).1, List.all_cons, Bool.and_eq_true] at hcancels
    exact moves_transitionToCancelled hbooks hcancels.1
  | @cancelForSafety i campaign hstatus =>
    rw [(cancels_of_running hstatus).2, List.all_cons, Bool.and_eq_true] at hcancels
    exact moves_transitionToCancelled hbooks hcancels.1
  | retry =>
    have hsame := hitems rfl (fun _ => (nomatch ·)) (fun _ _ _ => (nomatch ·))
    rw [foldl_updateRecipient] at hsame ⊢
    exact moves_of_eq (accounts_congr rfl hsame rfl rfl)
  | claim hrow hstatus => exact .single (claimedAccounts hrow hstatus hcond)
  | @handOver i r rs =>
    obtain ⟨x, hx, -, htried⟩ := hpromise r List.mem_cons_self
    have hset : SeedSend.items (SeedSend.handOver s i r) =
        (SeedSend.items s).modify r fun x => { x with sent := true } :=
      map_modify itemOf s.recipients r fun _ => rfl
    have hsame : accounts (SeedSend.handOver s i r) = { accounts s with
        items := (accounts s).items.modify r fun x => { x with sent := true } } := by
      rw [accounts, hset]
      rfl
    rw [hsame]
    exact .single (.handOver hx htried)
  | markDispatched | markDeferred | deferOpen | applyEvent =>
    have hsame := hitems rfl (fun _ => (nomatch ·)) (fun _ _ _ => (nomatch ·))
    exact moves_of_eq (accounts_congr rfl hsame rfl rfl)
  | @saveCounters i t => exact moves_of_eq (accounts_updateCampaign s i fun _ => rfl)
  | @complete i campaign t =>
    obtain ⟨hload, -, ht⟩ := hpromise
    rw [accounts_completed hload ht]
    exact .single .complete
  | @consume i campaign =>
    obtain ⟨hall, hi, hused, hreserved⟩ := hpromise
    refine .single (.enter hi (done_of_allSent hall) ?_)
    rw [Accounts.Due, used_of_allSent hall, usedCredits, hused, hreserved, Nat.min_self]
  | @release i campaign =>
    obtain ⟨hall, hi, hused, hreserved⟩ := hpromise
    refine .single (.enter hi (done_of_allSent hall) ?_)
    rw [Accounts.Due, used_of_allSent hall, usedCredits, hused, hreserved, Nat.min_self,
      Nat.sub_self, Nat.zero_add]

/-- What comes next relies only on what is so. -/
theorem Does.promises {s s' : Store} {instr : Instr} {code : List Instr} (h : Does s instr s' code)
    (hbooks : Books (accounts s)) (hpromise : Promise (accounts s) instr)
    (hcond : chargesExactly s instr = true) (hmoves : (accounts s).Moves (accounts s')) :
    ∀ next ∈ code, Promise (accounts s') next := by
  intro next hnext
  cases h with
  | look h =>
    cases h with
    | rest => exact nomatch hnext
    | load hrow h =>
      rw [List.mem_singleton.mp hnext]
      cases h with
      | reconcile =>
        have hterms := terms_accounts hrow
        refine ⟨(List.getElem?_eq_some_iff.mp hterms).1, fun hused x hx => ?_⟩
        rw [hterms] at hx
        cases hx
        exact hused
      | settle =>
        obtain ⟨hall, x, hx, hused⟩ := hpromise
        have hterms := terms_accounts hrow
        rw [hterms] at hx
        cases hx
        exact ⟨hall, (List.getElem?_eq_some_iff.mp hterms).1, hused, (hbooks.terms _ _ hterms).1⟩
      | _ => trivial
    | loadClaimed hids =>
      rw [List.mem_singleton.mp hnext]
      exact fun r hr => hpromise r (hids r hr)
    | countFinal =>
      rw [chargesExactly, Bool.and_eq_true] at hcond
      rw [List.mem_singleton.mp hnext]
      exact ⟨hpromise, allSent_of_finalSent hcond.2, sentFinal_totals hcond.2⟩
    | afterClaim | recheck | send | countOpen =>
      rw [List.mem_singleton.mp hnext]
      exact hpromise
    | _ =>
      rw [List.mem_singleton.mp hnext]
      trivial
  | approve | revoke | create | status | cancel | cancelForSafety | release =>
    exact nomatch hnext
  | @claim i campaign hrow hstatus =>
    rw [List.mem_singleton.mp hnext]
    exact tried_claimBatch s i
  | claimNothing =>
    rw [List.mem_singleton.mp hnext]
    exact fun r hr => nomatch hr
  | @handOver i r rs _ hnext' =>
    have hrest : Tried (accounts s) i rs := fun q hq => hpromise q (List.mem_cons_of_mem _ hq)
    rw [List.mem_singleton.mp hnext]
    rcases hnext' with ⟨messageId, rfl⟩ | rfl
    · have hnow : Promise (accounts s) (.markDispatched i r messageId rs) := hrest
      exact hnow.moves hmoves
    · have hnow : Promise (accounts s) (.markDeferred i r rs) := hrest
      exact hnow.moves hmoves
  | markDispatched | markDeferred | deferOpen | consume =>
    rw [List.mem_singleton.mp hnext]
    exact Promise.moves hpromise hmoves
  | @complete i campaign t =>
    obtain ⟨hload, hall, ht⟩ := hpromise
    obtain ⟨x, hx⟩ : ∃ x, (accounts s).terms[i]? = some x :=
      ⟨_, List.getElem?_eq_getElem hload.1⟩
    rw [List.mem_singleton.mp hnext, accounts_completed hload ht]
    refine ⟨hall, { x with used := (accounts s).price * (accounts s).total i }, ?_, rfl⟩
    show ((accounts s).terms.modify i _)[i]? = _
    rw [List.getElem?_modify, hx]
    exact congrArg some (if_pos rfl)
  | _ =>
    rw [List.mem_singleton.mp hnext]
    trivial

/-! ## Along a run -/

/-- The books are right, and so is what the processes rely on. -/
structure Ledger (c : State) : Prop where
  one : c.OneLeft
  books : Books (accounts c.store)
  promises : ∀ p k code, c.At p k code → ∀ instr ∈ code, Promise (accounts c.store) instr

theorem accounts_environ {s s' : Store} (h : Environ s s') : accounts s' = accounts s := by
  cases h with
  | tick | requestConsent => rfl

theorem promise_of_starts {a : Accounts} {instr : Instr} (h : starts instr = true) :
    Promise a instr := by
  cases instr with
  | loadApproval | revokeConsent | loadStart | loadPause | loadCancel | loadResume | loadRetry
  | guardDispatch | loadReconcile | findRecipient => trivial
  | _ => exact nomatch h

/-- A step makes moves, and what the processes rely on stays true. -/
theorem ledger_act {c c' : State} {a : Action} (h : Ledger c) (hcond : inOrder c a = true)
    (hact : act c a = some c') :
    Ledger c' ∧ (accounts c.store).Moves (accounts c'.store) := by
  have hone := oneLeft_act h.one hact
  cases act_cases h.one hact with
  | environ _ henv =>
    have hsame : accounts (withStore c _).store = accounts c.store := accounts_environ henv
    refine ⟨⟨hone, hsame ▸ h.books, fun p k code hat => ?_⟩, moves_of_eq hsame⟩
    rw [hsame]
    exact h.promises p k code hat
  | start _ hstarts =>
    refine ⟨⟨hone, h.books, fun p k code hat instr hinstr => ?_⟩, .refl⟩
    rcases Conf.at_spawn.mp hat with hat | ⟨-, -, rfl⟩
    · exact h.promises p k code hat instr hinstr
    · rw [List.mem_singleton.mp hinstr]
      exact promise_of_starts hstarts
  | crash =>
    refine ⟨⟨hone, h.books, fun q k code hat instr hinstr => ?_⟩, .refl⟩
    rcases Conf.at_setCode.mp hat with ⟨-, rfl, -⟩ | ⟨-, hat⟩
    · exact nomatch hinstr
    · exact h.promises q k code hat instr hinstr
  | @exec p k instr s' code hat hdoes =>
    rw [inOrder, nextInstr_exec hat, Option.all_some] at hcond
    have hpromise := h.promises p k _ hat instr (List.mem_singleton.mpr rfl)
    have hmoves := hdoes.moves h.books hpromise hcond
    refine ⟨⟨hone, h.books.moves hmoves, fun q k' code' hq instr' hinstr' => ?_⟩, hmoves⟩
    rcases Conf.at_setCode.mp hq with ⟨-, rfl, -⟩ | ⟨-, hq⟩
    · exact hdoes.promises h.books hpromise hcond hmoves instr' hinstr'
    · exact (h.promises q k' code' hq instr' hinstr').moves hmoves

/-- Along every run that starts with no process under way and the books right, and whose
settlements count only what has been sent: a settled campaign has consumed the price of the
recipients that have been handed over, and released the rest of what was reserved; and an entry
of a settlement stays as it is. -/
theorem settled_of_inOrder (c : State) (hidle : c.procs = []) (hbooks : Books (accounts c.store)) :
    ∀ t, seedSend.Reaches (fun c a => inOrder c a = true) c t → Exact t.store ∧
      ∀ u i type credits, seedSend.Reaches (fun c a => inOrder c a = true) t u →
        type ≠ EntryType.reserve → t.store.ledger i type = some credits →
        u.store.ledger i type = some credits := by
  have hstart : Ledger c :=
    ⟨Conf.oneLeft_of_idle hidle, hbooks, fun _ _ _ hat => absurd hat (Conf.not_at_of_idle hidle)⟩
  intro t ht
  have hledger : Ledger t :=
    ht.invariant hstart fun _ _ _ h hcond hact => (ledger_act h hcond hact).1
  refine ⟨hledger.books.exact, fun u i type credits hu htype hentry => ?_⟩
  have hboth : Ledger u ∧ u.store.ledger i type = some credits := by
    refine hu.invariant (P := fun u => Ledger u ∧ u.store.ledger i type = some credits)
      ⟨hledger, hentry⟩ ?_
    rintro v a w ⟨hv, hkept⟩ hcond hact
    obtain ⟨hw, hmoves⟩ := ledger_act hv hcond hact
    exact ⟨hw, hv.books.ledger_moves hmoves htype hkept⟩
  exact hboth.2

theorem books_of_new {s : Store} (hcampaigns : s.campaigns = []) (hrecipients : s.recipients = [])
    (hledger : ∀ i type, s.ledger i type = none) : Books (accounts s) := by
  have hitems : (accounts s).items = [] := by
    show s.recipients.map itemOf = []
    rw [hrecipients]
    rfl
  have hterms : (accounts s).terms = [] := by
    show s.campaigns.map termsOf = []
    rw [hcampaigns]
    rfl
  refine ⟨?_, ?_, ?_, ?_⟩
  · rw [hitems]
    exact fun _ hx => nomatch hx
  · rw [hitems]
    exact fun _ hx => nomatch hx
  · rw [hterms]
    exact fun _ _ hx => nomatch hx
  · intro i type credits _ hentry
    exact nomatch (hledger i type).symm.trans hentry

/-- An approved consent; two credits a recipient, and one recipient a batch. -/
def priced : State :=
  ⟨{ config := { perRecipient := 2, batchSize := 1, provider := fun _ _ => some "m".toList }
     consents := [{ status := .approved }] }, []⟩

/-- A campaign of two recipients is created. -/
def createdSchedule : List Action :=
  [.start 0 0 ["a@example.com".toList, "b@example.com".toList], .exec 0, .exec 0, .exec 0]

/-- One recipient is sent, and the campaign is cancelled. -/
def cancelledAfterOne : State :=
  seedSend.final (fun c a => inOrder c a = true) priced
    (createdSchedule ++ [.dispatch 0] ++ List.replicate 12 (.exec 1) ++
      [.cancel 0, .exec 2, .exec 2])

theorem settled_of_inOrder_cancelled :
    Exact cancelledAfterOne.store ∧ handedOver cancelledAfterOne.store 0 = 1 ∧
      cancelledAfterOne.store.ledger 0 .consume = some 2 ∧
      cancelledAfterOne.store.ledger 0 .release = some 2 := by
  have hreaches : seedSend.Reaches (fun c a => inOrder c a = true) priced cancelledAfterOne :=
    Transition.System.reaches_final (by decide)
  have hsettled := settled_of_inOrder priced rfl (books_of_new rfl rfl fun _ _ => rfl) _ hreaches
  exact ⟨hsettled.1, by decide, by decide, by decide⟩

/-- A cancellation charges a recipient that has been claimed and not been sent; reconciliation
charges both recipients of a campaign of which one has been sent. -/
theorem settled_fails :
    (¬ ∀ t, seedSend.Reaches Transition.Always priced t → Exact t.store) ∧
    ∃ t, seedSend.Reaches Transition.Always priced t ∧ handedOver t.store 0 = 1 ∧
      t.store.ledger 0 .consume = some 4 := by
  constructor
  · intro h
    have hrun : (seedSend.run priced (createdSchedule ++
        [.dispatch 0, .exec 1, .exec 1, .cancel 0, .exec 2, .exec 2])).any (fun t =>
        (t.store.campaigns[0]?).isSome && t.store.ledger 0 .consume = some 2 &&
          t.store.ledger 0 .release = some 2 && handedOver t.store 0 = 0) = true := by decide
    obtain ⟨t, hreaches, hall⟩ := Transition.System.exists_reaches_always hrun
    simp only [Bool.and_eq_true, decide_eq_true_eq] at hall
    obtain ⟨⟨⟨hthere, hconsume⟩, hrelease⟩, hnone⟩ := hall
    obtain ⟨campaign, hrow⟩ := Option.isSome_iff_exists.mp hthere
    have hprice := (h t hreaches 0 campaign 2 2 hrow hconsume hrelease).2
    rw [hnone] at hprice
    exact nomatch hprice
  · have hrun : (seedSend.run priced (createdSchedule ++ [.dispatch 0] ++
        List.replicate 12 (.exec 1) ++ [.tick 7200, .reconcile 0] ++
        List.replicate 8 (.exec 2))).any (fun t =>
        handedOver t.store 0 = 1 && t.store.ledger 0 .consume = some 4) = true := by decide
    obtain ⟨t, hreaches, hall⟩ := Transition.System.exists_reaches_always hrun
    rw [Bool.and_eq_true, decide_eq_true_eq, decide_eq_true_eq] at hall
    exact ⟨t, hreaches, hall⟩

end ValidEmailVerifier.SeedSend
