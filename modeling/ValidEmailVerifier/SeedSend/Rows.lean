/-
# `SeedSend.Rows` — what one instruction does to a campaign and to a recipient

What a campaign rests on and what is reserved for it never change, and what it has used is
written by reconciliation only (`Does.terms`).

Recipients are created with their campaign and never removed.  `Changes` lists what an
instruction can do to one of them; `Does.changes` says that it does nothing else, so a law about
every recipient is kept if each of these changes keeps it.
-/
import ValidEmailVerifier.SeedSend.Statuses

namespace ValidEmailVerifier.SeedSend

/-! ## Campaigns -/

/-- What a campaign rests on, and its credits. -/
structure Terms where
  consent : Nat
  reserved : Nat
  used : Nat
  deriving DecidableEq

def termsOf (row : Campaign) : Terms :=
  { consent := row.consent, reserved := row.creditsReserved, used := row.creditsUsed }

def terms (s : Store) : List Terms := s.campaigns.map termsOf

/-- What an instruction does to the terms. -/
inductive Stays (s : Store) : Instr → List Terms → Prop
  | same {instr : Instr} (hcreated : created instr = none) : Stays s instr (terms s)
  | create {job k : Nat} {emails : List Text} :
      Stays s (.createCampaign job k emails)
        (terms s ++ [⟨k, s.creditsPerRecipient * emails.length, 0⟩])
  | complete {i : Nat} {campaign : Campaign} {t : Totals} :
      Stays s (.completeCampaign i campaign t)
        ((terms s).modify i fun x =>
          { x with used :=
              dirty campaign.creditsUsed (sentFinal t * s.creditsPerRecipient) x.used })

theorem terms_same (s : Store) (i : Nat) {f : Campaign → Campaign}
    (hf : ∀ row, termsOf (f row) = termsOf row) : terms (s.updateCampaign i f) = terms s := by
  rw [terms, map_updateCampaign termsOf s i (g := id) hf, List.modify_id]
  rfl

theorem terms_transitionToCancelled (s : Store) (i : Nat) :
    terms (transitionToCancelled s i) = terms s := by
  obtain ⟨t, ht⟩ := campaigns_transitionToCancelled s i
  rw [terms, ht]
  exact terms_same s i fun _ => rfl

theorem terms_foldl_cancel (is : List Nat) :
    ∀ s : Store, terms (is.foldl transitionToCancelled s) = terms s := by
  induction is with
  | nil => exact fun _ => rfl
  | cons i is ih =>
    intro s
    rw [List.foldl_cons, ih, terms_transitionToCancelled]

theorem terms_completed (s : Store) (i : Nat) (campaign : Campaign) (t : Totals) :
    terms (s.updateCampaign i (completed s campaign t)) = (terms s).modify i fun x =>
      { x with used := dirty campaign.creditsUsed (sentFinal t * s.creditsPerRecipient) x.used } :=
  map_updateCampaign termsOf s i fun _ => rfl

theorem Does.terms {s s' : Store} {instr : Instr} {code : List Instr} (h : Does s instr s' code) :
    Stays s instr (terms s') := by
  cases h with
  | look _ hsilent => exact .same hsilent.created
  | approve | handOver | markDispatched | markDeferred | deferOpen | consume | release | record
  | applyEvent | claimNothing => exact .same rfl
  | revoke =>
    rw [SeedSend.revoke, terms_foldl_cancel]
    exact .same rfl
  | create =>
    rw [createCampaign, reserveForCampaign]
    split
    · rw [SeedSend.terms, List.map_append]
      exact .create
    · rw [Store.upsertEntry, SeedSend.terms, List.map_append]
      exact .create
  | @status instr i status hwritten =>
    have hsame : SeedSend.terms (updateStatus s i status) = SeedSend.terms s :=
      terms_same s i fun _ => rfl
    rw [hsame]
    exact .same (created_of_written hwritten)
  | cancel | cancelForSafety =>
    rw [terms_transitionToCancelled]
    exact .same rfl
  | retry =>
    rw [SeedSend.terms, campaigns_foldl_updateRecipient]
    exact .same rfl
  | @claim i =>
    rw [SeedSend.terms, claimBatch, campaigns_foldl_updateRecipient]
    have hsame : SeedSend.terms (s.updateCampaign i (startRunning s)) = SeedSend.terms s := by
      refine terms_same s i ?_
      intro row
      rw [startRunning]
      split
      · rfl
      · rfl
    rw [SeedSend.terms] at hsame
    rw [hsame]
    exact .same rfl
  | @saveCounters i t =>
    have hsame : SeedSend.terms (SeedSend.saveCounters s i t) = SeedSend.terms s :=
      terms_same s i fun _ => rfl
    rw [hsame]
    exact .same rfl
  | @complete i campaign t =>
    rw [terms_completed]
    exact .complete

/-! ## Recipients -/

/-- A recipient of a campaign that is cancelled. -/
def cancelledRow (now : Nat) (row : Recipient) : Recipient :=
  deferDispatched now (failPending now row)

/-- The update of a recipient by an event. -/
def eventRow (now : Nat) (payload : Payload) (model row : Recipient) : Recipient :=
  { row with
    status := dirty model.status
      (recipientStatusForEvent (normalizeEventType payload.eventType)) row.status
    lastEventAt := dirty model.lastEventAt (some (payload.eventTime.getD now)) row.lastEventAt
    providerMessageId := dirty model.providerMessageId
      (payload.providerMessageId <|> model.providerMessageId) row.providerMessageId }

/-- What an instruction can do to recipient `r`. -/
inductive Changes (s : Store) : Instr → Nat → Recipient → Recipient → Prop
  | same {instr : Instr} {r : Nat} {row : Recipient} (h : row.campaign ∉ cancels s instr) :
      Changes s instr r row row
  | cancel {instr : Instr} {r : Nat} {row : Recipient} (h : row.campaign ∈ cancels s instr) :
      Changes s instr r row (cancelledRow s.now row)
  | retry {i r : Nat} {campaign : Campaign} {ids : List Nat} {row : Recipient} (h : r ∈ ids) :
      Changes s (.retryRecipients i campaign ids) r row (retried row)
  | claim {i r : Nat} {row : Recipient}
      (h : r ∈ batch (s.updateCampaign i (startRunning s)) i) :
      Changes s (.claim i) r row (claimed row)
  | handOver {i r : Nat} {rs : List Nat} {row : Recipient} :
      Changes s (.send i r rs) r row { row with sent := true }
  | dispatched {i r : Nat} {messageId : Text} {rs : List Nat} {row : Recipient}
      (h : row.status = .dispatching) :
      Changes s (.markDispatched i r messageId rs) r row
        { row with status := .dispatched, providerMessageId := some messageId }
  | deferred {i r : Nat} {rs : List Nat} {row : Recipient} (h : row.status = .dispatching) :
      Changes s (.markDeferred i r rs) r row { row with status := .deferred }
  | deferOpen {i r : Nat} {campaign : Campaign} {row : Recipient} (hrow : row.campaign = i)
      (hopen : isOpen row = true) :
      Changes s (.deferOpen i campaign) r row
        { row with status := .deferred, lastEventAt := some s.now }
  | event {payload : Payload} {r : Nat} {model row : Recipient} :
      Changes s (.updateRecipient payload r model) r row (eventRow s.now payload model row)

/-! ### The shapes of an update -/

theorem recipients_updateRecipient (s : Store) (q : Nat) (f : Recipient → Recipient) (r : Nat) :
    (s.updateRecipient q f).recipients[r]? =
      if q = r then s.recipients[r]?.map f else s.recipients[r]? := by
  rw [Store.updateRecipient, List.getElem?_modify]
  cases s.recipients[r]? with
  | none =>
    split
    · rfl
    · rfl
  | some row =>
    simp only [Option.map_eq_map, Option.map_some]
    split
    · rfl
    · rfl

/-- A loop over recipients, with an update that does nothing the second time. -/
theorem recipients_foldl {f : Recipient → Recipient} (hf : ∀ row, f (f row) = f row) (r : Nat)
    (ids : List Nat) :
    ∀ s : Store, (ids.foldl (fun s q => s.updateRecipient q f) s).recipients[r]? =
      if r ∈ ids then s.recipients[r]?.map f else s.recipients[r]? := by
  induction ids with
  | nil => exact fun _ => rfl
  | cons q ids ih =>
    intro s
    rw [List.foldl_cons, ih, recipients_updateRecipient]
    by_cases hq : q = r
    · rw [if_pos hq, if_pos (List.mem_cons.mpr (.inl hq.symm)), Option.map_map]
      have hff : f ∘ f = f := funext hf
      rw [hff]
      split
      · rfl
      · rfl
    · rw [if_neg hq]
      by_cases hr : r ∈ ids
      · rw [if_pos hr, if_pos (List.mem_cons_of_mem _ hr)]
      · have hnot : r ∉ q :: ids := by
          intro h
          rcases List.mem_cons.mp h with h | h
          · exact hq h.symm
          · exact hr h
        rw [if_neg hr, if_neg hnot]

theorem retried_retried (row : Recipient) : retried (retried row) = retried row := rfl

theorem claimed_claimed (row : Recipient) : claimed (claimed row) = claimed row := by
  have hstatus : (claimed row).status ≠ .pending := by
    rw [claimed]
    split
    next => exact fun h => nomatch h
    next h => exact h
  rw [claimed, if_neg hstatus]

theorem campaign_cancelledRow (now : Nat) (row : Recipient) :
    (cancelledRow now row).campaign = row.campaign := by
  rw [cancelledRow, deferDispatched]
  split
  · rw [failPending]
    split
    · rfl
    · rfl
  · rw [failPending]
    split
    · rfl
    · rfl

theorem Changes.campaign_eq {s : Store} {instr : Instr} {r : Nat} {row row' : Recipient}
    (h : Changes s instr r row row') : row'.campaign = row.campaign := by
  cases h with
  | cancel => exact campaign_cancelledRow s.now row
  | claim =>
    rw [claimed]
    split
    · rfl
    · rfl
  | _ => rfl

/-- A recipient of a cancelled campaign is neither pending nor under way. -/
theorem isOpen_cancelledRow (now : Nat) (row : Recipient) :
    isOpen (cancelledRow now row) = false := by
  rw [isOpen, cancelledRow]
  rcases hstatus : row.status with _ | _ | _ | _ | _ | _ | _ <;>
    simp [deferDispatched, failPending, hstatus]

theorem failPending_of_final {now : Nat} {row : Recipient} (h : isOpen row = false) :
    failPending now row = row := by
  rw [failPending, if_neg]
  intro hstatus
  rw [isOpen, hstatus] at h
  exact nomatch h

theorem deferDispatched_of_final {now : Nat} {row : Recipient} (h : isOpen row = false) :
    deferDispatched now row = row := by
  rw [deferDispatched, if_neg]
  intro hstatus
  rw [isOpen, decide_eq_false_iff_not] at h
  exact h (List.mem_cons_of_mem _ hstatus)

theorem cancelledRow_cancelledRow (now : Nat) (row : Recipient) :
    cancelledRow now (cancelledRow now row) = cancelledRow now row := by
  have hfinal := isOpen_cancelledRow now row
  rw [cancelledRow, failPending_of_final hfinal, deferDispatched_of_final hfinal]

theorem recipients_markCancelled (s : Store) (i : Nat) :
    (markCancelled s i).recipients =
      s.recipients.map fun row => if row.campaign = i then cancelledRow s.now row else row := by
  have htwice : (markCancelled s i).recipients =
      (s.recipients.map fun row => if row.campaign = i then failPending s.now row else row).map
        fun row => if row.campaign = i then deferDispatched s.now row else row := by
    simp only [markCancelled, Store.updateRecipients, Store.updateCampaign, decide_eq_true_eq]
  rw [htwice, List.map_map]
  refine List.map_congr_left fun row _ => ?_
  rw [Function.comp_apply]
  by_cases hrow : row.campaign = i
  · have hfail : (failPending s.now row).campaign = i := by
      rw [failPending]
      split
      · exact hrow
      · exact hrow
    rw [if_pos hrow, if_pos hfail, if_pos hrow]
    rfl
  · rw [if_neg hrow, if_neg hrow, if_neg hrow]

theorem recipients_transitionToCancelled (s : Store) (i : Nat) :
    (transitionToCancelled s i).recipients =
      s.recipients.map fun row => if row.campaign = i then cancelledRow s.now row else row := by
  rw [transitionToCancelled, ← recipients_markCancelled]
  split
  · rfl
  · rfl

theorem now_transitionToCancelled (s : Store) (i : Nat) :
    (transitionToCancelled s i).now = s.now := by
  rw [transitionToCancelled]
  split
  · rfl
  · rfl

theorem recipients_foldl_cancel (r : Nat) (is : List Nat) :
    ∀ s : Store, (is.foldl transitionToCancelled s).recipients[r]? =
      s.recipients[r]?.map fun row =>
        if row.campaign ∈ is then cancelledRow s.now row else row := by
  induction is with
  | nil =>
    intro s
    simp
  | cons i is ih =>
    intro s
    rw [List.foldl_cons, ih, recipients_transitionToCancelled, now_transitionToCancelled,
      List.getElem?_map, Option.map_map]
    congr 1
    funext row
    rw [Function.comp_apply]
    by_cases hrow : row.campaign = i
    · rw [if_pos hrow, if_pos (List.mem_cons.mpr (.inl hrow)), cancelledRow_cancelledRow,
        ite_self]
    · rw [if_neg hrow]
      simp only [List.mem_cons, hrow, false_or]

theorem recipients_createCampaign (s : Store) (job k : Nat) (emails : List Text) :
    (createCampaign s job k emails).recipients = s.recipients ++
      emails.map fun email => { campaign := s.campaigns.length, email := email } := by
  rw [createCampaign, reserveForCampaign]
  split
  · rfl
  · rfl

/-! ### Every change -/

/-- Recipient `r` after a step that has changed it in one of the ways of `Changes`, or created
it. -/
def After (s : Store) (instr : Instr) (r : Nat) (row' : Recipient) : Prop :=
  (∃ row, s.recipients[r]? = some row ∧ Changes s instr r row row') ∨
    s.recipients[r]? = none ∧ ∃ job k emails email, instr = .createCampaign job k emails ∧
      row' = { campaign := s.campaigns.length, email := email }

theorem Changes.untouched {s : Store} {instr : Instr} (hnone : cancels s instr = []) {r : Nat}
    {row : Recipient} : Changes s instr r row row := by
  refine .same ?_
  rw [hnone]
  exact List.not_mem_nil

theorem after_same {s s' : Store} {instr : Instr} (hnone : cancels s instr = [])
    (h : s'.recipients = s.recipients) {r : Nat} {row' : Recipient}
    (hrow : s'.recipients[r]? = some row') : After s instr r row' :=
  .inl ⟨row', h ▸ hrow, .untouched hnone⟩

theorem after_update {s : Store} {instr : Instr} (hnone : cancels s instr = []) {q : Nat}
    {f : Recipient → Recipient}
    (hf : ∀ row, s.recipients[q]? = some row → Changes s instr q row (f row)) {r : Nat}
    {row' : Recipient} (hrow : (s.updateRecipient q f).recipients[r]? = some row') :
    After s instr r row' := by
  rw [recipients_updateRecipient] at hrow
  split at hrow
  next hq =>
    subst hq
    obtain ⟨row, hold, rfl⟩ := Option.map_eq_some_iff.mp hrow
    exact .inl ⟨row, hold, hf row hold⟩
  next => exact .inl ⟨row', hrow, .untouched hnone⟩

theorem after_cancel {s s' : Store} {instr : Instr}
    (h : ∀ r : Nat, s'.recipients[r]? = s.recipients[r]?.map fun row =>
      if row.campaign ∈ cancels s instr then cancelledRow s.now row else row) {r : Nat}
    {row' : Recipient} (hrow : s'.recipients[r]? = some row') : After s instr r row' := by
  rw [h] at hrow
  obtain ⟨row, hold, rfl⟩ := Option.map_eq_some_iff.mp hrow
  refine .inl ⟨row, hold, ?_⟩
  split
  next hmem => exact .cancel hmem
  next hmem => exact .same hmem

theorem cancels_of_running {s : Store} {i : Nat} {campaign : Campaign}
    (hstatus : terminal campaign.status = false) :
    cancels s (.cancelCampaign i campaign) = [i] ∧
      cancels s (.cancelForSafety i campaign) = [i] := by
  constructor
  · rw [cancels, hstatus, if_neg Bool.false_ne_true]
  · rw [cancels, hstatus, if_neg Bool.false_ne_true]

theorem cancels_of_written {s : Store} {instr : Instr} {w : Nat × CampaignStatus}
    (h : written s instr = some w) : cancels s instr = [] := by
  cases instr with
  | pauseCampaign | resumeCampaign | requeueCampaign | evaluateAndApply | completeCampaign => rfl
  | _ => exact nomatch h

theorem Does.changes {s s' : Store} {instr : Instr} {code : List Instr}
    (h : Does s instr s' code) {r : Nat} {row' : Recipient}
    (hrow : s'.recipients[r]? = some row') : After s instr r row' := by
  cases h with
  | look _ hsilent => exact after_same hsilent.cancels rfl hrow
  | status hwritten => exact after_same (cancels_of_written hwritten) rfl hrow
  | approve | claimNothing | saveCounters | complete | consume | release | record =>
    exact after_same rfl rfl hrow
  | @revoke k =>
    refine after_cancel (fun r => ?_) hrow
    rw [SeedSend.revoke, recipients_foldl_cancel]
    rfl
  | create =>
    rw [recipients_createCampaign] at hrow
    by_cases hr : r < s.recipients.length
    · rw [List.getElem?_append_left hr] at hrow
      exact after_same rfl rfl hrow
    · rw [List.getElem?_append_right (Nat.le_of_not_lt hr)] at hrow
      obtain ⟨email, -, rfl⟩ := List.mem_map.mp (List.mem_of_getElem? hrow)
      exact .inr ⟨List.getElem?_eq_none (Nat.le_of_not_lt hr), _, _, _, email, rfl, rfl⟩
  | @cancel i campaign hstatus =>
    refine after_cancel (fun r => ?_) hrow
    rw [recipients_transitionToCancelled, List.getElem?_map, (cancels_of_running hstatus).1]
    simp only [List.mem_singleton]
  | @cancelForSafety i campaign hstatus =>
    refine after_cancel (fun r => ?_) hrow
    rw [recipients_transitionToCancelled, List.getElem?_map, (cancels_of_running hstatus).2]
    simp only [List.mem_singleton]
  | retry =>
    rw [recipients_foldl retried_retried] at hrow
    split at hrow
    next hr =>
      obtain ⟨row, hold, rfl⟩ := Option.map_eq_some_iff.mp hrow
      exact .inl ⟨row, hold, .retry hr⟩
    next => exact after_same rfl rfl hrow
  | @claim i campaign =>
    rw [claimBatch, recipients_foldl claimed_claimed] at hrow
    split at hrow
    next hr =>
      obtain ⟨row, hold, rfl⟩ := Option.map_eq_some_iff.mp hrow
      exact .inl ⟨row, hold, .claim hr⟩
    next => exact .inl ⟨row', hrow, .untouched rfl⟩
  | handOver => exact after_update rfl (fun _ _ => .handOver) hrow
  | markDispatched =>
    refine after_update rfl (fun row _ => ?_) hrow
    split
    next hstatus => exact .dispatched hstatus
    next => exact .untouched rfl
  | markDeferred =>
    refine after_update rfl (fun row _ => ?_) hrow
    split
    next hstatus => exact .deferred hstatus
    next => exact .untouched rfl
  | @deferOpen i campaign =>
    rw [Store.updateRecipients, List.getElem?_map] at hrow
    obtain ⟨row, hold, rfl⟩ := Option.map_eq_some_iff.mp hrow
    refine .inl ⟨row, hold, ?_⟩
    split
    next hopen =>
      rw [Bool.and_eq_true, decide_eq_true_eq] at hopen
      exact .deferOpen hopen.1 hopen.2
    next => exact .untouched rfl
  | applyEvent => exact after_update rfl (fun _ _ => .event) hrow

/-! ### Recipients are never removed -/

theorem length_transitionToCancelled (s : Store) (i : Nat) :
    (transitionToCancelled s i).recipients.length = s.recipients.length := by
  rw [recipients_transitionToCancelled, List.length_map]

theorem length_foldl {α : Type} {f : Store → α → Store}
    (hf : ∀ s a, (f s a).recipients.length = s.recipients.length) (l : List α) :
    ∀ s : Store, (l.foldl f s).recipients.length = s.recipients.length := by
  induction l with
  | nil => exact fun _ => rfl
  | cons a l ih => exact fun s => (ih _).trans (hf s a)

theorem length_updateRecipient (s : Store) (r : Nat) (f : Recipient → Recipient) :
    (s.updateRecipient r f).recipients.length = s.recipients.length :=
  List.length_modify _ _ _

/-- The recipients stay the same in number, or a campaign is created with its own. -/
theorem Does.recipients {s s' : Store} {instr : Instr} {code : List Instr}
    (h : Does s instr s' code) :
    s'.recipients.length = s.recipients.length ∨ ∃ job k emails,
      instr = .createCampaign job k emails ∧ s' = SeedSend.createCampaign s job k emails := by
  cases h with
  | look | approve | status | claimNothing | saveCounters | complete | consume | release
  | record => exact .inl rfl
  | revoke =>
    rw [SeedSend.revoke, length_foldl length_transitionToCancelled]
    exact .inl rfl
  | create => exact .inr ⟨_, _, _, rfl, rfl⟩
  | cancel | cancelForSafety => exact .inl (length_transitionToCancelled s _)
  | retry => exact .inl (length_foldl (fun s r => length_updateRecipient s r retried) _ s)
  | claim => exact .inl (length_foldl (fun s r => length_updateRecipient s r claimed) _ _)
  | handOver | markDispatched | markDeferred | applyEvent =>
    exact .inl (List.length_modify _ _ _)
  | deferOpen => exact .inl (List.length_map _)

/-- What has become of a recipient. -/
theorem Does.changed {s s' : Store} {instr : Instr} {code : List Instr}
    (h : Does s instr s' code) {r : Nat} {row : Recipient} (hrow : s.recipients[r]? = some row) :
    ∃ row', s'.recipients[r]? = some row' ∧ Changes s instr r row row' := by
  have hr : r < s'.recipients.length := by
    have hlt := (List.getElem?_eq_some_iff.mp hrow).1
    rcases h.recipients with hsame | ⟨job, k, emails, -, rfl⟩
    · rw [hsame]
      exact hlt
    · rw [recipients_createCampaign, List.length_append]
      exact Nat.lt_add_right _ hlt
  have hrow' := List.getElem?_eq_getElem hr
  refine ⟨_, hrow', ?_⟩
  rcases h.changes hrow' with ⟨old, hold, hchanges⟩ | ⟨hnone, -⟩
  · rw [hrow] at hold
    cases hold
    exact hchanges
  · rw [hrow] at hnone
    exact nomatch hnone

end ValidEmailVerifier.SeedSend
