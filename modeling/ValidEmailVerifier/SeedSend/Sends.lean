/-
# `SeedSend.Sends` — what is sent after a pause or a cancellation

A dispatch job claims a batch and then works through it.  Before each recipient it loads the
campaign again with its consent, and looks at the consent only: a pause, or a cancellation by an
operator, that commits after the claim does not stop the batch (`stopped_fails`).

If a pause or a cancellation commits only while no batch of the campaign would go on to another
recipient, and nothing is written over a cancellation, then nothing is sent for a campaign that
is paused or cancelled until it is resumed or retried, and no recipient that a cancellation has
marked is dispatched (`stopped_of_betweenBatches`).
-/
import ValidEmailVerifier.SeedSend.Rows

namespace ValidEmailVerifier.SeedSend

open Processes

/-! ## The law -/

/-- The status of campaign `i`. -/
def statusAt (s : Store) (i : Nat) : Option CampaignStatus := (lines s)[i]?.map (·.2)

/-- Campaign `i` is paused or cancelled. -/
def Stopped (s : Store) (i : Nat) : Prop :=
  statusAt s i = some .paused ∨ statusAt s i = some .cancelled

/-- The recipients that have been handed to the provider for a campaign. -/
def sendsOf (s : Store) (i : Nat) : List (Nat × Nat) := s.sends.filter (·.1 = i)

/-- No recipient that a cancellation has marked is dispatched. -/
def NoneDispatched (s : Store) : Prop :=
  ∀ row ∈ s.recipients, row.marked = true → row.status ≠ .dispatched

/-! ## The condition -/

def isCancelled (s : Store) (i : Nat) : Bool := statusAt s i = some .cancelled

/-- A consent has been revoked or has expired. -/
def lapsed (now : Nat) (consent : Consent) : Bool :=
  consent.status = .revoked || consent.revokedAt.isSome || isConsentExpired now consent

/-- The consent of campaign `i` has been revoked or has expired. -/
def blocked (s : Store) (i : Nat) : Bool :=
  (terms s)[i]?.any fun x => s.consents[x.consent]?.any (lapsed s.now)

/-- An instruction of a batch of campaign `i` that leads to another recipient.  A look at the
consent comes first, unless it has been made; and recipients that are no longer dispatching are
not loaded. -/
def goesOn (blocked cancelled : Bool) (i : Nat) : Instr → Bool
  | .afterClaim j ids _ | .loadClaimed j ids => j = i && ids ≠ [] && !blocked && !cancelled
  | .recheck j rs | .sendLoop j rs | .markDispatched j _ _ rs | .markDeferred j _ rs =>
      j = i && rs ≠ [] && !blocked
  | .send j _ _ => j = i
  | _ => false

section
variable {b d : Bool} {i j r : Nat} {ids rs : List Nat}

@[simp] theorem goesOn_afterClaim {blocked : Bool} : goesOn b d i (.afterClaim j ids blocked) =
    (decide (j = i) && decide (ids ≠ []) && !b && !d) := rfl

@[simp] theorem goesOn_loadClaimed : goesOn b d i (.loadClaimed j ids) =
    (decide (j = i) && decide (ids ≠ []) && !b && !d) := rfl

@[simp] theorem goesOn_recheck : goesOn b d i (.recheck j rs) =
    (decide (j = i) && decide (rs ≠ []) && !b) := rfl

@[simp] theorem goesOn_sendLoop : goesOn b d i (.sendLoop j rs) =
    (decide (j = i) && decide (rs ≠ []) && !b) := rfl

@[simp] theorem goesOn_markDispatched {messageId : Text} :
    goesOn b d i (.markDispatched j r messageId rs) =
      (decide (j = i) && decide (rs ≠ []) && !b) := rfl

@[simp] theorem goesOn_markDeferred : goesOn b d i (.markDeferred j r rs) =
    (decide (j = i) && decide (rs ≠ []) && !b) := rfl

@[simp] theorem goesOn_send : goesOn b d i (.send j r rs) = decide (j = i) := rfl

end

/-- A batch of campaign `i` goes on. -/
def underWay (c : State) (blocked cancelled : Bool) (i : Nat) : Bool :=
  c.procs.any fun q => q.code.any (goesOn blocked cancelled i)

def revokes (s : Store) : Instr → Bool
  | .revokeConsent k => s.consents[k]?.isSome
  | _ => false

/-- The recipients that an instruction puts back. -/
def retries : Instr → List Nat
  | .retryRecipients _ _ ids => ids
  | _ => []

/-- No batch goes on of a campaign that is paused or cancelled, and nothing is written over a
cancellation. -/
def betweenBatches (c : State) (a : Action) : Bool :=
  upToDate c a && (nextInstr c a).all fun instr =>
    ((retries instr).all fun r => c.store.recipients[r]?.all fun row =>
      !isCancelled c.store row.campaign) &&
    ((cancels c.store instr).all fun i =>
      !underWay c (blocked c.store i || revokes c.store instr) true i) &&
    (written c.store instr).all fun w =>
      w.2 ≠ .paused || !underWay c (blocked c.store w.1) false w.1

/-- Campaign `i` is resumed, or queued again by a retry. -/
def requeues (i : Nat) (c : State) (a : Action) : Bool :=
  (nextInstr c a).any fun instr => written c.store instr = some (i, .queued)

/-! ## Batches that do not go on -/

/-- No batch of campaign `i` goes on. -/
def Quiet (blocked cancelled : Bool) (c : State) (i : Nat) : Prop :=
  ∀ p k code, c.At p k code → ∀ instr ∈ code, goesOn blocked cancelled i instr = false

theorem quiet_iff {blocked cancelled : Bool} {c : State} {i : Nat} :
    underWay c blocked cancelled i = false ↔ Quiet blocked cancelled c i := by
  rw [underWay, List.any_eq_false]
  constructor
  · intro h p k code hat instr hinstr
    have hcode := h _ (List.mem_of_getElem? hat)
    rw [Bool.not_eq_true, List.any_eq_false] at hcode
    exact Bool.eq_false_iff.mpr (hcode instr hinstr)
  · intro h q hq
    obtain ⟨p, hp⟩ := List.getElem?_of_mem hq
    rw [Bool.not_eq_true, List.any_eq_false]
    intro instr hinstr
    rw [h p q.kind q.code hp instr hinstr]
    exact Bool.false_ne_true

/-- What does not go on does not go on after a revocation or a cancellation. -/
theorem goesOn_mono {b b' d d' : Bool} {i : Nat} {instr : Instr}
    (h : goesOn b d i instr = false) (hb : b = true → b' = true) (hd : d = true → d' = true) :
    goesOn b' d' i instr = false := by
  have hnot : ∀ {x y : Bool}, (x = true → y = true) → ((!x) = false → (!y) = false) := by
    intro x y hxy hx
    rw [Bool.not_eq_false'] at hx ⊢
    exact hxy hx
  cases instr with
  | afterClaim | loadClaimed =>
    simp only [goesOn_afterClaim, goesOn_loadClaimed] at h ⊢
    rw [Bool.and_eq_false_iff, Bool.and_eq_false_iff] at h ⊢
    exact h.imp (Or.imp_right (hnot hb)) (hnot hd)
  | recheck | sendLoop | markDispatched | markDeferred =>
    simp only [goesOn_recheck, goesOn_sendLoop, goesOn_markDispatched, goesOn_markDeferred] at h ⊢
    rw [Bool.and_eq_false_iff] at h ⊢
    exact h.imp_right (hnot hb)
  | _ => exact h

/-! ## Consents that are over -/

theorem blocked_iff {s : Store} {i : Nat} :
    blocked s i = true ↔ ∃ x consent, (terms s)[i]? = some x ∧
      s.consents[x.consent]? = some consent ∧ lapsed s.now consent = true := by
  rw [blocked, Option.any_eq_true]
  constructor
  · rintro ⟨x, hx, hany⟩
    obtain ⟨consent, hconsent, hlapsed⟩ := (Option.any_eq_true _ _).mp hany
    exact ⟨x, consent, hx, hconsent, hlapsed⟩
  · rintro ⟨x, consent, hx, hconsent, hlapsed⟩
    exact ⟨x, hx, (Option.any_eq_true _ _).mpr ⟨consent, hconsent, hlapsed⟩⟩

/-- What an instruction does to the consents. -/
inductive Grants (s : Store) : Instr → List Consent → Prop
  | same {instr : Instr} : Grants s instr s.consents
  | approve {k : Nat} {consent : Consent} (h : approval s (.approveConsent k consent) = some k)
      (hnone : consent.revokedAt = none) :
      Grants s (.approveConsent k consent) (s.consents.modify k fun row =>
        { row with status := .approved, revokedAt := dirty consent.revokedAt none row.revokedAt })
  | revoke {k : Nat} :
      Grants s (.revokeConsent k) (s.consents.modify k fun row =>
        { row with status := .revoked, revokedAt := some s.now })

theorem consents_revoke (s : Store) (k : Nat) :
    (revoke s k).consents = s.consents.modify k (fun row =>
      { row with status := .revoked, revokedAt := some s.now }) ∧ (revoke s k).now = s.now := by
  have hrest := SameRest.foldl sameRest_transitionToCancelled (restingOn s k)
    (s.updateConsent k fun row => { row with status := .revoked, revokedAt := some s.now })
  exact ⟨hrest.consents, hrest.now⟩

theorem Does.grants {s s' : Store} {instr : Instr} {code : List Instr} (h : Does s instr s' code) :
    Grants s instr s'.consents ∧ s'.now = s.now := by
  cases h with
  | @approve k consent happroval =>
    refine ⟨.approve happroval ?_, rfl⟩
    rw [approval] at happroval
    split at happroval
    next hall => exact hall.2.2.2
    next => exact nomatch happroval
  | @revoke k =>
    rw [(consents_revoke s k).1, (consents_revoke s k).2]
    exact ⟨.revoke, rfl⟩
  | create =>
    have hrest := sameRest_createCampaign s
    rw [(hrest _ _ _).consents, (hrest _ _ _).now]
    exact ⟨.same, rfl⟩
  | cancel | cancelForSafety =>
    have hrest := sameRest_transitionToCancelled s
    rw [(hrest _).consents, (hrest _).now]
    exact ⟨.same, rfl⟩
  | retry =>
    have hrest := sameRest_foldl_updateRecipient retried
    rw [(hrest _ s).consents, (hrest _ s).now]
    exact ⟨.same, rfl⟩
  | claim =>
    have hrest := sameRest_foldl_updateRecipient claimed
    rw [claimBatch, (hrest _ _).consents, (hrest _ _).now]
    exact ⟨.same, rfl⟩
  | _ => exact ⟨.same, rfl⟩

/-- A consent that is over stays over, if it is not approved by a model that is out of date. -/
theorem Grants.lapsed {s : Store} {instr : Instr} {consents : List Consent}
    (h : Grants s instr consents)
    (hup : (approval s instr).all (fun k => s.consents[k]?.all (·.status ≠ .revoked)) = true)
    {k : Nat} {consent : Consent} (hrow : s.consents[k]? = some consent)
    (hlapsed : lapsed s.now consent = true) :
    ∃ consent', consents[k]? = some consent' ∧ SeedSend.lapsed s.now consent' = true := by
  cases h with
  | same => exact ⟨consent, hrow, hlapsed⟩
  | @approve j model happroval hnone =>
    rw [List.getElem?_modify, hrow]
    refine ⟨_, rfl, ?_⟩
    show SeedSend.lapsed s.now (if j = k then _ else consent) = true
    split
    next hjk =>
      subst hjk
      rw [happroval, Option.all_some, hrow, Option.all_some, decide_eq_true_eq] at hup
      rw [SeedSend.lapsed, Bool.or_eq_true, Bool.or_eq_true, decide_eq_true_eq] at hlapsed
      rw [SeedSend.lapsed, hnone, dirty_clean, Bool.or_eq_true, Bool.or_eq_true]
      rcases hlapsed with (hrevoked | hat) | hexpired
      · exact absurd hrevoked hup
      · exact .inl (.inr hat)
      · exact .inr hexpired
    next => exact hlapsed
  | @revoke j =>
    rw [List.getElem?_modify, hrow]
    refine ⟨_, rfl, ?_⟩
    show SeedSend.lapsed s.now (if j = k then _ else consent) = true
    split
    · rfl
    · exact hlapsed

theorem Stays.consent {s : Store} {instr : Instr} {l : List Terms} (h : Stays s instr l) {i : Nat}
    {x : Terms} (hx : (terms s)[i]? = some x) : ∃ x', l[i]? = some x' ∧ x'.consent = x.consent := by
  cases h with
  | same => exact ⟨x, hx, rfl⟩
  | create =>
    rw [List.getElem?_append_left (List.getElem?_eq_some_iff.mp hx).1]
    exact ⟨x, hx, rfl⟩
  | @complete j campaign t =>
    rw [List.getElem?_modify, hx]
    refine ⟨_, rfl, ?_⟩
    show (if j = i then _ else x).consent = _
    split
    · rfl
    · rfl

theorem Does.blocked {s s' : Store} {instr : Instr} {code : List Instr} (h : Does s instr s' code)
    (hup : (approval s instr).all (fun k => s.consents[k]?.all (·.status ≠ .revoked)) = true)
    {i : Nat} (hi : blocked s i = true) : SeedSend.blocked s' i = true := by
  obtain ⟨x, consent, hx, hconsent, hlapsed⟩ := blocked_iff.mp hi
  obtain ⟨x', hx', hsame⟩ := h.terms.consent hx
  obtain ⟨consent', hconsent', hlapsed'⟩ := h.grants.1.lapsed hup hconsent hlapsed
  rw [← h.grants.2] at hlapsed'
  exact blocked_iff.mpr ⟨x', consent', hx', hsame ▸ hconsent', hlapsed'⟩

/-- A revocation blocks what rests on the consent. -/
theorem blocked_revoke {s s' : Store} {instr : Instr} {code : List Instr} (h : Does s instr s' code)
    {i : Nat} (hi : i ∈ cancels s instr) (hrevokes : revokes s instr = true) :
    SeedSend.blocked s' i = true := by
  cases h with
  | look _ hsilent =>
    rw [hsilent.cancels] at hi
    cases hi
  | @revoke k =>
    obtain ⟨consent, hconsent⟩ := Option.isSome_iff_exists.mp hrevokes
    obtain ⟨row, hrow, hall⟩ := (Option.any_eq_true _ _).mp (List.mem_filter.mp hi).2
    rw [Bool.and_eq_true, decide_eq_true_eq] at hall
    have hterms : (terms (revoke s k))[i]? = some (termsOf row) := by
      rw [revoke, terms_foldl_cancel, terms, List.getElem?_map]
      exact congrArg (Option.map termsOf) hrow
    have hrevoked : (revoke s k).consents[(termsOf row).consent]? =
        some { consent with status := .revoked, revokedAt := some s.now } := by
      rw [termsOf, hall.1, (consents_revoke s k).1, List.getElem?_modify, hconsent]
      exact congrArg some (if_pos rfl)
    exact blocked_iff.mpr ⟨_, _, hterms, hrevoked, rfl⟩
  | status hwritten =>
    rw [cancels_of_written hwritten] at hi
    cases hi
  | _ => cases hrevokes

/-! ## Statuses -/

theorem statusAt_eq {s : Store} {i : Nat} {campaign : Campaign}
    (hrow : s.campaigns[i]? = some campaign) : statusAt s i = some campaign.status := by
  rw [statusAt, lines, List.getElem?_map, hrow]
  rfl

theorem getElem?_foldl_cancelled (is : List Nat) (k : Nat) :
    ∀ l : List (Nat × CampaignStatus),
      (is.foldl (fun l i => setLine l i .cancelled) l)[k]?.map (·.2) =
        if k ∈ is then l[k]?.map fun _ => .cancelled else l[k]?.map (·.2) := by
  induction is with
  | nil => exact fun _ => rfl
  | cons i is ih =>
    intro l
    have hlen : ∀ y : CampaignStatus, (setLine l i .cancelled)[k]?.map (fun _ => y) =
        l[k]?.map fun _ => y := by
      intro y
      rw [setLine, List.getElem?_modify]
      cases l[k]? with
      | none => rfl
      | some x => rfl
    rw [List.foldl_cons, ih, getElem?_setLine, hlen]
    by_cases hk : k ∈ is
    · rw [if_pos hk, if_pos (List.mem_cons_of_mem _ hk)]
    · rw [if_neg hk]
      by_cases hik : i = k
      · rw [if_pos hik, if_pos (List.mem_cons.mpr (.inl hik.symm))]
      · have hnot : k ∉ i :: is := by
          intro h
          rcases List.mem_cons.mp h with h | h
          · exact hik h.symm
          · exact hk h
        rw [if_neg hik, if_neg hnot]

/-- What an instruction does to the status of a campaign. -/
inductive Turns (s : Store) (i : Nat) : Instr → CampaignStatus → CampaignStatus → Prop
  | same {instr : Instr} {status : CampaignStatus} : Turns s i instr status status
  | write {instr : Instr} {status status' : CampaignStatus}
      (hwritten : written s instr = some (i, status')) : Turns s i instr status status'
  | cancel {instr : Instr} {status : CampaignStatus} (h : i ∈ cancels s instr) :
      Turns s i instr status .cancelled
  | run : Turns s i (.claim i) .queued .running

theorem Lines.turns {s : Store} {instr : Instr} {l : List (Nat × CampaignStatus)}
    (h : Lines s instr l) {i : Nat} {status : CampaignStatus}
    (hstatus : statusAt s i = some status) :
    ∃ status', l[i]?.map (·.2) = some status' ∧ Turns s i instr status status' := by
  obtain ⟨x, hx, rfl⟩ := Option.map_eq_some_iff.mp hstatus
  cases h with
  | same => exact ⟨x.2, hstatus, .same⟩
  | @write _ j status' hwritten =>
    rw [getElem?_setLine, hx]
    split
    next hji =>
      subst hji
      exact ⟨status', rfl, .write hwritten⟩
    next => exact ⟨x.2, rfl, .same⟩
  | create =>
    rw [List.getElem?_append_left (List.getElem?_eq_some_iff.mp hx).1, hx]
    exact ⟨x.2, rfl, .same⟩
  | cancel =>
    rw [getElem?_foldl_cancelled, hx]
    split
    next hi => exact ⟨.cancelled, rfl, .cancel hi⟩
    next => exact ⟨x.2, rfl, .same⟩
  | @claim j =>
    rw [List.getElem?_modify, hx]
    simp only [Option.map_eq_map, Option.map_some]
    split
    next hji =>
      subst hji
      refine ⟨_, rfl, ?_⟩
      show Turns s j (.claim j) x.2 (if x.2 = .queued then .running else x.2)
      split
      next hqueued =>
        rw [hqueued]
        exact .run
      next => exact .same
    next => exact ⟨x.2, rfl, .same⟩

/-- A campaign that is new is queued. -/
theorem Lines.new {s : Store} {instr : Instr} {l : List (Nat × CampaignStatus)}
    (h : Lines s instr l) {i : Nat} {status : CampaignStatus} (hnone : statusAt s i = none)
    (hstatus : l[i]?.map (·.2) = some status) : status = .queued := by
  have hx : (lines s)[i]? = none := Option.map_eq_none_iff.mp hnone
  cases h with
  | same => exact nomatch hnone.symm.trans hstatus
  | write =>
    rw [getElem?_setLine, hx, Option.map_none, Option.map_none, ite_self] at hstatus
    exact nomatch hstatus
  | create =>
    rw [List.getElem?_append_right (List.getElem?_eq_none_iff.mp hx)] at hstatus
    obtain ⟨y, hy, rfl⟩ := Option.map_eq_some_iff.mp hstatus
    rw [List.mem_singleton.mp (List.mem_of_getElem? hy)]
  | cancel =>
    rw [getElem?_foldl_cancelled, hx, Option.map_none, Option.map_none, ite_self] at hstatus
    exact nomatch hstatus
  | claim =>
    rw [List.getElem?_modify, hx] at hstatus
    exact nomatch hstatus

/-- A campaign with a status other than queued was there before. -/
theorem Does.turned {s s' : Store} {instr : Instr} {code : List Instr} (h : Does s instr s' code)
    {i : Nat} {status : CampaignStatus} (hstatus : statusAt s' i = some status)
    (hold : status ≠ .queued) :
    ∃ old, statusAt s i = some old ∧ Turns s i instr old status := by
  cases hi : statusAt s i with
  | none => exact absurd (h.lines.new hi hstatus) hold
  | some old =>
    obtain ⟨status', hstatus', hturns⟩ := h.lines.turns hi
    rw [show statusAt s' i = some status' from hstatus'] at hstatus
    cases hstatus
    exact ⟨old, rfl, hturns⟩

/-- A campaign is newly paused or cancelled only by what is written, or by a cancellation. -/
theorem Does.stops {s s' : Store} {instr : Instr} {code : List Instr} (h : Does s instr s' code)
    {i : Nat} (hstop : Stopped s' i) :
    Stopped s i ∨ written s instr = some (i, .paused) ∨ i ∈ cancels s instr := by
  rcases hstop with hstop | hstop
  · obtain ⟨old, hold, hturns⟩ := h.turned hstop (nomatch ·)
    cases hturns with
    | same => exact .inl (.inl hold)
    | write hwritten => exact .inr (.inl hwritten)
  · obtain ⟨old, hold, hturns⟩ := h.turned hstop (nomatch ·)
    cases hturns with
    | same => exact .inl (.inr hold)
    | write hwritten => exact absurd rfl (written_ne_cancelled hwritten)
    | cancel hi => exact .inr (.inr hi)

theorem Does.there {s s' : Store} {instr : Instr} {code : List Instr} (h : Does s instr s' code)
    {i : Nat} (hstop : Stopped s' i) : (statusAt s i).isSome = true := by
  rcases hstop with hstop | hstop
  · obtain ⟨old, hold, -⟩ := h.turned hstop (nomatch ·)
    exact Option.isSome_iff_exists.mpr ⟨old, hold⟩
  · obtain ⟨old, hold, -⟩ := h.turned hstop (nomatch ·)
    exact Option.isSome_iff_exists.mpr ⟨old, hold⟩

theorem Does.cancelled_cases {s s' : Store} {instr : Instr} {code : List Instr}
    (h : Does s instr s' code) {i : Nat} (hi : isCancelled s' i = true) :
    isCancelled s i = true ∨ i ∈ cancels s instr := by
  rw [isCancelled, decide_eq_true_eq] at hi ⊢
  obtain ⟨old, hold, hturns⟩ := h.turned hi (nomatch ·)
  cases hturns with
  | same => exact .inl hold
  | write hwritten => exact absurd rfl (written_ne_cancelled hwritten)
  | cancel hi => exact .inr hi

/-- What an instruction cancels is cancelled. -/
theorem Lines.cancelled {s : Store} {instr : Instr} {l : List (Nat × CampaignStatus)}
    (h : Lines s instr l) {i : Nat} (hi : i ∈ cancels s instr)
    (hthere : (statusAt s i).isSome = true) : l[i]?.map (·.2) = some .cancelled := by
  have hnot : cancels s instr ≠ [] := List.ne_nil_of_mem hi
  obtain ⟨status, hstatus⟩ := Option.isSome_iff_exists.mp hthere
  obtain ⟨x, hx, rfl⟩ := Option.map_eq_some_iff.mp hstatus
  cases h with
  | same _ _ hcancels => exact absurd hcancels hnot
  | write hwritten => exact absurd (cancels_of_written hwritten) hnot
  | create | claim => exact absurd rfl hnot
  | cancel =>
    rw [getElem?_foldl_cancelled, if_pos hi, hx]
    rfl

/-- A campaign whose recipients are not claimed. -/
def Resting (s : Store) (i : Nat) : Prop :=
  ∃ status, statusAt s i = some status ∧ status ≠ .queued ∧ status ≠ .running

theorem Stopped.resting {s : Store} {i : Nat} (h : Stopped s i) : Resting s i := by
  rcases h with h | h
  · exact ⟨_, h, (nomatch ·), (nomatch ·)⟩
  · exact ⟨_, h, (nomatch ·), (nomatch ·)⟩

/-- A campaign rests until it is queued again. -/
theorem Does.resting {s s' : Store} {instr : Instr} {code : List Instr} (h : Does s instr s' code)
    {i : Nat} (hi : Resting s i) (hnot : written s instr ≠ some (i, .queued)) : Resting s' i := by
  obtain ⟨status, hstatus, hqueued, hrunning⟩ := hi
  obtain ⟨status', hstatus', hturns⟩ := h.lines.turns hstatus
  refine ⟨status', hstatus', ?_⟩
  cases hturns with
  | same => exact ⟨hqueued, hrunning⟩
  | write hwritten =>
    constructor
    · rintro rfl
      exact hnot hwritten
    · rintro rfl
      rcases written_cases hwritten with h | h | h
      · exact nomatch h
      · exact nomatch h
      · exact nomatch h
  | cancel => exact ⟨(nomatch ·), (nomatch ·)⟩
  | run => exact absurd rfl hqueued

/-! ## What comes next of a batch -/

theorem goesOn_of_uses {b d : Bool} {i j : Nat} {campaign : Campaign} {instr next : Instr}
    (h : Uses j campaign instr next) : goesOn b d i next = false := by
  cases h <;> rfl

theorem not_blocked {s : Store} {i : Nat} {campaign : Campaign}
    (hrow : s.campaigns[i]? = some campaign)
    (hconsent : isConsentRevokedOrExpired s campaign = false) : blocked s i = false := by
  rw [Bool.eq_false_iff]
  intro h
  obtain ⟨x, consent, hx, hk, hlapsed⟩ := blocked_iff.mp h
  rw [terms, List.getElem?_map, hrow] at hx
  cases hx
  have hload : s.consents[campaign.consent]? = some consent := hk
  rw [isConsentRevokedOrExpired, hload] at hconsent
  exact Bool.eq_false_iff.mp hconsent hlapsed

theorem Does.goesOn {s s' : Store} {instr : Instr} {code : List Instr} (h : Does s instr s' code)
    {i : Nat} (hrest : Resting s i)
    (hclosed : isCancelled s i = true → ∀ row ∈ s.recipients, row.campaign = i →
      isOpen row = false)
    (hnot : goesOn (SeedSend.blocked s i) (isCancelled s i) i instr = false) :
    ∀ next ∈ code, SeedSend.goesOn (SeedSend.blocked s i) (isCancelled s i) i next = false := by
  intro next hnext
  cases h with
  | look h =>
    cases h with
    | rest => cases hnext
    | load hrow h =>
      rw [List.mem_singleton.mp hnext]
      exact goesOn_of_uses h
    | @loadClaimed j ids rs hids hrows =>
      rw [List.mem_singleton.mp hnext, goesOn_recheck]
      rw [goesOn_loadClaimed] at hnot
      by_cases hj : j = i
      · subst hj
        rw [decide_eq_true rfl, Bool.true_and] at hnot ⊢
        by_cases hrs : rs = []
        · rw [decide_eq_false (not_not.mpr hrs), Bool.false_and]
        · obtain ⟨r, hr⟩ := List.exists_mem_of_ne_nil rs hrs
          have hids : ids ≠ [] := List.ne_nil_of_mem (hids r hr)
          have hcancelled : isCancelled s j = false := by
            rw [Bool.eq_false_iff]
            intro hcancelled
            obtain ⟨row, hrow, hcampaign, hstatus⟩ := hrows r hr
            have hfinal := hclosed hcancelled row (List.mem_of_getElem? hrow) hcampaign
            rw [isOpen, hstatus] at hfinal
            cases hfinal
          rw [decide_eq_true hids, hcancelled, Bool.true_and, Bool.not_false, Bool.and_true] at hnot
          rw [hnot, Bool.and_false]
      · rw [decide_eq_false hj, Bool.false_and, Bool.false_and]
    | afterClaim | recheck =>
      rw [List.mem_singleton.mp hnext]
      exact hnot
    | @send j r rs campaign hrow hconsent =>
      rw [List.mem_singleton.mp hnext, goesOn_send, decide_eq_false_iff_not]
      rw [goesOn_sendLoop] at hnot
      rintro rfl
      rw [not_blocked hrow hconsent, decide_eq_true rfl] at hnot
      cases hnot
    | _ =>
      rw [List.mem_singleton.mp hnext]
      rfl
  | approve | revoke | create | status | cancel | cancelForSafety | release =>
    cases hnext
  | @claim j campaign hrow hstatus =>
    rw [List.mem_singleton.mp hnext]
    obtain ⟨status, hi, hqueued, hrunning⟩ := hrest
    have hj : j ≠ i := by
      rintro rfl
      rw [statusAt_eq hrow] at hi
      cases hi
      rcases List.mem_pair.mp hstatus with h | h
      · exact hqueued h
      · exact hrunning h
    rw [goesOn_afterClaim, decide_eq_false hj, Bool.false_and, Bool.false_and, Bool.false_and]
  | claimNothing =>
    rw [List.mem_singleton.mp hnext, goesOn_afterClaim, decide_eq_false (not_not.mpr rfl),
      Bool.and_false, Bool.false_and, Bool.false_and]
  | @handOver j r rs next' hnext' =>
    rw [List.mem_singleton.mp hnext]
    rw [goesOn_send] at hnot
    rcases hnext' with ⟨messageId, rfl⟩ | rfl
    · rw [goesOn_markDispatched, hnot, Bool.false_and, Bool.false_and]
    · rw [goesOn_markDeferred, hnot, Bool.false_and, Bool.false_and]
  | markDispatched | markDeferred =>
    rw [List.mem_singleton.mp hnext]
    exact hnot
  | _ =>
    rw [List.mem_singleton.mp hnext]
    rfl

/-- A pause or a cancellation is the last step of its process. -/
theorem Does.nil_of_stops {s s' : Store} {instr : Instr} {code : List Instr}
    (h : Does s instr s' code) {i : Nat}
    (hstop : written s instr = some (i, .paused) ∨ i ∈ cancels s instr) : code = [] := by
  cases h with
  | look _ hsilent =>
    rw [hsilent.written, hsilent.cancels] at hstop
    rcases hstop with hstop | hstop
    · cases hstop
    · cases hstop
  | approve | revoke | create | status | cancel | cancelForSafety | release => rfl
  | @complete j campaign t =>
    rcases hstop with hstop | hstop
    · rw [written] at hstop
      split at hstop
      · cases hstop
      · cases hstop
    · cases hstop
  | _ =>
    rcases hstop with hstop | hstop
    · cases hstop
    · cases hstop

/-- What has been sent changes by a hand-over only. -/
theorem Does.sends {s s' : Store} {instr : Instr} {code : List Instr} (h : Does s instr s' code) :
    s'.sends = s.sends ∨ ∃ j r rs, instr = .send j r rs ∧ s'.sends = s.sends ++ [(j, r)] := by
  cases h with
  | handOver => exact .inr ⟨_, _, _, rfl, rfl⟩
  | revoke => exact .inl (SameRest.foldl sameRest_transitionToCancelled _ _).sends
  | create => exact .inl (sameRest_createCampaign s _ _ _).sends
  | cancel | cancelForSafety => exact .inl (sameRest_transitionToCancelled s _).sends
  | retry => exact .inl (sameRest_foldl_updateRecipient retried _ s).sends
  | claim => exact .inl (sameRest_foldl_updateRecipient claimed _ _).sends
  | _ => exact .inl rfl

/-! ## Recipients of cancelled campaigns -/

/-- The recipients of a cancelled campaign are final, and those that a cancellation has marked
belong to one. -/
structure Sound (s : Store) : Prop where
  known : ∀ row ∈ s.recipients, (statusAt s row.campaign).isSome = true
  closed : ∀ row ∈ s.recipients, isCancelled s row.campaign = true → isOpen row = false
  marked : ∀ row ∈ s.recipients, row.marked = true → isCancelled s row.campaign = true

theorem Sound.noneDispatched {s : Store} (h : Sound s) : NoneDispatched s := by
  intro row hrow hmarked hstatus
  have hfinal := h.closed row hrow (h.marked row hrow hmarked)
  rw [isOpen, hstatus] at hfinal
  cases hfinal

theorem Sound.congr {s s' : Store} (h : Sound s) (hrecipients : s'.recipients = s.recipients)
    (hlines : lines s' = lines s) : Sound s' := by
  have hstatus : ∀ i, statusAt s' i = statusAt s i := by
    intro i
    rw [statusAt, hlines, statusAt]
  have hcancelled : ∀ i, isCancelled s' i = isCancelled s i := by
    intro i
    rw [isCancelled, hstatus, isCancelled]
  obtain ⟨hknown, hclosed, hmarked⟩ := h
  refine ⟨?_, ?_, ?_⟩
  · intro row hrow
    rw [hstatus]
    exact hknown row (hrecipients ▸ hrow)
  · intro row hrow hi
    rw [hcancelled] at hi
    exact hclosed row (hrecipients ▸ hrow) hi
  · intro row hrow hmark
    rw [hcancelled]
    exact hmarked row (hrecipients ▸ hrow) hmark

theorem isOpen_eventRow {now : Nat} {payload : Payload} {model row : Recipient}
    (h : isOpen row = false) : isOpen (eventRow now payload model row) = false := by
  show isOpen { row with status := dirty model.status _ row.status } = false
  rw [dirty]
  split
  · exact h
  · cases normalizeEventType payload.eventType with
    | delivered | bounced | deferred | failed => rfl

/-- A final recipient stays final, unless it is retried. -/
theorem Changes.isOpen {s : Store} {instr : Instr} {r : Nat} {row row' : Recipient}
    (h : Changes s instr r row row') (hrow : isOpen row = false) (hnot : r ∉ retries instr) :
    SeedSend.isOpen row' = false := by
  have hstatus : row.status ≠ .pending ∧ row.status ≠ .dispatching := by
    constructor
    · intro hstatus
      rw [SeedSend.isOpen, hstatus] at hrow
      cases hrow
    · intro hstatus
      rw [SeedSend.isOpen, hstatus] at hrow
      cases hrow
  cases h with
  | same | handOver => exact hrow
  | cancel => exact isOpen_cancelledRow s.now row
  | retry hr => exact absurd hr hnot
  | claim =>
    rw [claimed, if_neg hstatus.1]
    exact hrow
  | dispatched hrow' => exact absurd hrow' hstatus.2
  | deferred | deferOpen => rfl
  | event => exact isOpen_eventRow hrow

/-- A cancellation is what marks a recipient. -/
theorem Changes.marked {s : Store} {instr : Instr} {r : Nat} {row row' : Recipient}
    (h : Changes s instr r row row') (hmarked : row'.marked = true) :
    row.marked = true ∨ row.campaign ∈ cancels s instr := by
  cases h with
  | cancel hi => exact .inr hi
  | claim =>
    rw [claimed] at hmarked
    split at hmarked
    · exact .inl hmarked
    · exact .inl hmarked
  | _ => exact .inl hmarked

theorem Lines.created {s : Store} {job k : Nat} {emails : List Text}
    {l : List (Nat × CampaignStatus)} (h : Lines s (.createCampaign job k emails) l) :
    l = lines s ++ [(job, .queued)] := by
  cases h with
  | create => rfl
  | same _ hcreated => exact nomatch hcreated
  | write hwritten => exact nomatch hwritten
  | cancel _ hcreated => exact nomatch hcreated

/-- A recipient after a step is one that was there, changed, or belongs to a new campaign. -/
theorem Does.recipient_cases {s s' : Store} {instr : Instr} {code : List Instr}
    (h : Does s instr s' code) {row' : Recipient} (hrow : row' ∈ s'.recipients) :
    (∃ r row, s.recipients[r]? = some row ∧ Changes s instr r row row') ∨
      statusAt s' row'.campaign = some .queued ∧ row'.marked = false := by
  obtain ⟨r, hr⟩ := List.getElem?_of_mem hrow
  rcases h.changes hr with ⟨row, hold, hchanges⟩ | ⟨-, job, k, emails, email, rfl, rfl⟩
  · exact .inl ⟨r, row, hold, hchanges⟩
  · refine .inr ⟨?_, rfl⟩
    have hlength : s.campaigns.length = (SeedSend.lines s).length := (List.length_map _).symm
    show (SeedSend.lines s')[s.campaigns.length]?.map (·.2) = _
    rw [h.lines.created, hlength, List.getElem?_concat_length]
    rfl

theorem Does.sound {s s' : Store} {instr : Instr} {code : List Instr} (h : Does s instr s' code)
    (hs : Sound s) (hkeeps : ∀ i, isCancelled s i = true → isCancelled s' i = true)
    (hretries : ((retries instr).all fun r => s.recipients[r]?.all fun row =>
      !isCancelled s row.campaign) = true) : Sound s' := by
  have hnew : ∀ {row' : Recipient}, statusAt s' row'.campaign = some .queued →
      isCancelled s' row'.campaign = false := by
    intro row' hqueued
    rw [isCancelled, hqueued]
    rfl
  refine ⟨fun row' hrow' => ?_, fun row' hrow' hcancelled => ?_, fun row' hrow' hmarked => ?_⟩
  · rcases h.recipient_cases hrow' with ⟨r, row, hrow, hchanges⟩ | ⟨hqueued, -⟩
    · obtain ⟨status, hstatus⟩ :=
        Option.isSome_iff_exists.mp (hs.known row (List.mem_of_getElem? hrow))
      obtain ⟨status', hstatus', -⟩ := h.lines.turns hstatus
      rw [hchanges.campaign_eq]
      exact Option.isSome_iff_exists.mpr ⟨status', hstatus'⟩
    · rw [hqueued]
      rfl
  · rcases h.recipient_cases hrow' with ⟨r, row, hrow, hchanges⟩ | ⟨hqueued, -⟩
    · have hmem := List.mem_of_getElem? hrow
      rw [hchanges.campaign_eq] at hcancelled
      rcases h.cancelled_cases hcancelled with hbefore | hnow
      · refine hchanges.isOpen (hs.closed row hmem hbefore) ?_
        intro hr
        have hall := List.all_eq_true.mp hretries r hr
        rw [hrow, Option.all_some, hbefore] at hall
        exact nomatch hall
      · cases hchanges with
        | same hnot => exact absurd hnow hnot
        | cancel => exact isOpen_cancelledRow s.now row
        | _ => exact nomatch hnow
    · exact nomatch hcancelled.symm.trans (hnew hqueued)
  · rcases h.recipient_cases hrow' with ⟨r, row, hrow, hchanges⟩ | ⟨-, hnot⟩
    · have hmem := List.mem_of_getElem? hrow
      rw [hchanges.campaign_eq]
      rcases hchanges.marked hmarked with hmarked | hnow
      · exact hkeeps _ (hs.marked row hmem hmarked)
      · rw [isCancelled, decide_eq_true_eq]
        exact h.lines.cancelled hnow (hs.known row hmem)
    · exact nomatch hmarked.symm.trans hnot

/-! ## Along a run -/

/-- What holds along a run in which nothing goes on. -/
structure Law (c : State) : Prop where
  one : c.OneLeft
  sound : Sound c.store
  quiet : ∀ i, Stopped c.store i →
    Quiet (blocked c.store i) (isCancelled c.store i) c i

theorem Environ.blocked {s s' : Store} (h : Environ s s') {i : Nat} (hi : blocked s i = true) :
    SeedSend.blocked s' i = true := by
  obtain ⟨x, consent, hx, hconsent, hlapsed⟩ := blocked_iff.mp hi
  cases h with
  | tick seconds =>
    refine blocked_iff.mpr ⟨x, consent, hx, hconsent, ?_⟩
    rw [lapsed, Bool.or_eq_true] at hlapsed ⊢
    refine hlapsed.imp id fun hexpired => ?_
    rw [isConsentExpired, Option.any_eq_true] at hexpired ⊢
    obtain ⟨at', hat, hle⟩ := hexpired
    rw [decide_eq_true_eq] at hle
    exact ⟨at', hat, decide_eq_true (Nat.le_trans hle (Nat.le_add_right _ _))⟩
  | requestConsent =>
    refine blocked_iff.mpr ⟨x, consent, hx, ?_, hlapsed⟩
    rw [← hconsent]
    exact List.getElem?_append_left (List.getElem?_eq_some_iff.mp hconsent).1

theorem Environ.same {s s' : Store} (h : Environ s s') :
    s'.recipients = s.recipients ∧ lines s' = lines s ∧ s'.sends = s.sends := by
  cases h with
  | tick | requestConsent => exact ⟨rfl, rfl, rfl⟩

/-- What is cancelled or blocked stays so. -/
theorem kept_act {c c' : State} {a : Action} (hone : c.OneLeft) (hup : upToDate c a = true)
    (hact : act c a = some c') :
    (∀ i, isCancelled c.store i = true → isCancelled c'.store i = true) ∧
      ∀ i, blocked c.store i = true → blocked c'.store i = true := by
  constructor
  · intro i hi
    rw [isCancelled, decide_eq_true_eq] at hi ⊢
    exact (final_act hone hact).mpr hup (.cancelled i) hi
  · intro i hi
    cases act_cases hone hact with
    | environ _ henv => exact henv.blocked hi
    | start | crash => exact hi
    | exec hat hdoes =>
      rw [upToDate, nextInstr_exec hat, Option.all_some, Bool.and_eq_true] at hup
      exact hdoes.blocked hup.2 hi

theorem goesOn_of_starts {b d : Bool} {i : Nat} {instr : Instr} (h : starts instr = true) :
    goesOn b d i instr = false := by
  cases instr with
  | afterClaim | loadClaimed | recheck | sendLoop | send | markDispatched | markDeferred =>
    exact nomatch h
  | _ => rfl

/-- Where nothing goes on, nothing goes on after a step, as long as the campaign rests. -/
theorem quiet_act {c c' : State} {a : Action} (hone : c.OneLeft) (hsound : Sound c.store)
    (hup : upToDate c a = true) (hact : act c a = some c') {i : Nat} (hrest : Resting c.store i)
    (hquiet : Quiet (blocked c.store i) (isCancelled c.store i) c i) :
    Quiet (blocked c'.store i) (isCancelled c'.store i) c' i := by
  obtain ⟨hcancelled, hblocked⟩ := kept_act hone hup hact
  have hlater : ∀ {instr : Instr},
      goesOn (blocked c.store i) (isCancelled c.store i) i instr = false →
      goesOn (blocked c'.store i) (isCancelled c'.store i) i instr = false :=
    fun h => goesOn_mono h (hblocked i) (hcancelled i)
  intro q k' code' hq instr' hinstr'
  cases act_cases hone hact with
  | environ => exact hlater (hquiet q k' code' hq instr' hinstr')
  | start _ hstarts =>
    rcases Conf.at_spawn.mp hq with hq | ⟨-, -, rfl⟩
    · exact hquiet q k' code' hq instr' hinstr'
    · rw [List.mem_singleton.mp hinstr']
      exact goesOn_of_starts hstarts
  | crash =>
    rcases Conf.at_setCode.mp hq with ⟨-, rfl, -⟩ | ⟨-, hq⟩
    · exact nomatch hinstr'
    · exact hquiet q k' code' hq instr' hinstr'
  | exec hat hdoes =>
    rcases Conf.at_setCode.mp hq with ⟨-, rfl, -⟩ | ⟨-, hq⟩
    · refine hlater (hdoes.goesOn hrest ?_ ?_ instr' hinstr')
      · rintro hi row hrow rfl
        exact hsound.closed row hrow hi
      · exact hquiet _ _ _ hat _ (List.mem_singleton.mpr rfl)
    · exact hlater (hquiet q k' code' hq instr' hinstr')

/-- When a campaign is paused or cancelled, nothing goes on. -/
theorem quiet_of_stops {c c' : State} {a : Action} (hone : c.OneLeft)
    (hcond : betweenBatches c a = true) (hact : act c a = some c') {i : Nat}
    (hnot : ¬ Stopped c.store i) (hstop : Stopped c'.store i) :
    Quiet (blocked c'.store i) (isCancelled c'.store i) c' i := by
  rw [betweenBatches, Bool.and_eq_true] at hcond
  obtain ⟨hup, hcond⟩ := hcond
  have hblocked := (kept_act hone hup hact).2 i
  cases act_cases hone hact with
  | environ _ henv =>
    rw [Stopped, statusAt, show lines (withStore c _).store = _ from henv.same.2.1] at hstop
    exact absurd hstop hnot
  | start | crash => exact absurd hstop hnot
  | exec hat hdoes =>
    rw [nextInstr_exec hat, Option.all_some, Bool.and_eq_true, Bool.and_eq_true] at hcond
    obtain ⟨⟨-, hcancels⟩, hpaused⟩ := hcond
    have hstops := (hdoes.stops hstop).resolve_left hnot
    have hnil := hdoes.nil_of_stops hstops
    obtain ⟨b, d, hquiet, hb, hd⟩ : ∃ b d, Quiet b d c i ∧
        (b = true → blocked _ i = true) ∧ (d = true → isCancelled _ i = true) := by
      rcases hstops with hwritten | hi
      · rw [hwritten, Option.all_some, Bool.or_eq_true, Bool.not_eq_true'] at hpaused
        have hquiet := quiet_iff.mp (hpaused.resolve_left fun h =>
          of_decide_eq_true h rfl)
        exact ⟨_, _, hquiet, hblocked, (nomatch ·)⟩
      · have hquiet := List.all_eq_true.mp hcancels i hi
        rw [Bool.not_eq_true'] at hquiet
        refine ⟨_, _, quiet_iff.mp hquiet, fun hb => ?_, fun _ => ?_⟩
        · rcases (Bool.or_eq_true _ _).mp hb with hb | hrevokes
          · exact hblocked hb
          · exact blocked_revoke hdoes hi hrevokes
        · rw [isCancelled, decide_eq_true_eq]
          exact hdoes.lines.cancelled hi (hdoes.there hstop)
    intro q k' code' hq instr' hinstr'
    rcases Conf.at_setCode.mp hq with ⟨-, rfl, -⟩ | ⟨-, hq⟩
    · rw [hnil] at hinstr'
      exact nomatch hinstr'
    · exact goesOn_mono (hquiet q k' code' hq instr' hinstr') hb hd

theorem law_act {c c' : State} {a : Action} (hlaw : Law c) (hcond : betweenBatches c a = true)
    (hact : act c a = some c') : Law c' := by
  obtain ⟨hup, hinstr⟩ := (Bool.and_eq_true _ _).mp hcond
  refine ⟨oneLeft_act hlaw.one hact, ?_, fun i hstop => ?_⟩
  · have hkept := (kept_act hlaw.one hup hact).1
    cases act_cases hlaw.one hact with
    | environ _ henv =>
      obtain ⟨hrecipients, hlines, -⟩ := henv.same
      exact hlaw.sound.congr hrecipients hlines
    | start | crash => exact hlaw.sound
    | exec hat hdoes =>
      rw [nextInstr_exec hat, Option.all_some, Bool.and_eq_true, Bool.and_eq_true] at hinstr
      exact hdoes.sound hlaw.sound hkept hinstr.1.1
  · by_cases hbefore : Stopped c.store i
    · exact quiet_act hlaw.one hlaw.sound hup hact hbefore.resting (hlaw.quiet i hbefore)
    · exact quiet_of_stops hlaw.one hcond hact hbefore hstop

theorem resting_act {c c' : State} {a : Action} (hone : c.OneLeft) (hact : act c a = some c')
    {i : Nat} (hrest : Resting c.store i) (hnot : requeues i c a = false) :
    Resting c'.store i := by
  cases act_cases hone hact with
  | environ _ henv =>
    rw [Resting, statusAt, show lines (withStore c _).store = _ from henv.same.2.1]
    exact hrest
  | start | crash => exact hrest
  | exec hat hdoes =>
    rw [requeues, nextInstr_exec hat, Option.any_some, decide_eq_false_iff_not] at hnot
    exact hdoes.resting hrest hnot

theorem sendsOf_act {c c' : State} {a : Action} (hone : c.OneLeft) (hact : act c a = some c')
    {i : Nat} {b d : Bool} (hquiet : Quiet b d c i) : sendsOf c'.store i = sendsOf c.store i := by
  cases act_cases hone hact with
  | environ _ henv =>
    rw [sendsOf, show (withStore c _).store.sends = _ from henv.same.2.2, sendsOf]
  | start | crash => rfl
  | @exec p k instr s' code hat hdoes =>
    show s'.sends.filter _ = _
    rcases hdoes.sends with hsame | ⟨j, r, rs, rfl, hsent⟩
    · rw [hsame, sendsOf]
    · have hji := hquiet p k _ hat _ (List.mem_singleton.mpr rfl)
      rw [goesOn_send] at hji
      rw [hsent, List.filter_append, List.filter_singleton, hji]
      exact List.append_nil _

/-- Along every run that starts with no process under way, and whose pauses and cancellations
all come between batches: nothing is sent for a campaign that is paused or cancelled until it is
queued again, and no recipient that a cancellation has marked is dispatched. -/
theorem stopped_of_betweenBatches (c : State) (hidle : c.procs = []) (hsound : Sound c.store) :
    (∀ t u i, seedSend.Reaches (fun c a => betweenBatches c a = true) c t →
      Stopped t.store i →
      seedSend.Reaches (fun c a => betweenBatches c a = true ∧ requeues i c a = false) t u →
      sendsOf u.store i = sendsOf t.store i) ∧
    ∀ t, seedSend.Reaches (fun c a => betweenBatches c a = true) c t →
      NoneDispatched t.store := by
  have hstart : Law c :=
    ⟨Conf.oneLeft_of_idle hidle, hsound,
      fun _ _ _ _ _ hat => absurd hat (Conf.not_at_of_idle hidle)⟩
  have hlaw : ∀ t, seedSend.Reaches (fun c a => betweenBatches c a = true) c t → Law t :=
    fun t h => h.invariant hstart fun _ _ _ hlaw hcond hact => law_act hlaw hcond hact
  constructor
  · intro t u i ht hstop hu
    have hall : Law u ∧ Resting u.store i ∧
        Quiet (blocked u.store i) (isCancelled u.store i) u i ∧
        sendsOf u.store i = sendsOf t.store i := by
      refine hu.invariant (P := fun u => Law u ∧ Resting u.store i ∧
        Quiet (blocked u.store i) (isCancelled u.store i) u i ∧
        sendsOf u.store i = sendsOf t.store i) ?_ ?_
      · exact ⟨hlaw t ht, hstop.resting, (hlaw t ht).quiet i hstop, rfl⟩
      · rintro v a w ⟨hv, hrest, hquiet, hsame⟩ ⟨hcond, hnot⟩ hact
        have hup := ((Bool.and_eq_true _ _).mp hcond).1
        exact ⟨law_act hv hcond hact, resting_act hv.one hact hrest hnot,
          quiet_act hv.one hv.sound hup hact hrest hquiet,
          (sendsOf_act hv.one hact hquiet).trans hsame⟩
    exact hall.2.2.2
  · intro t ht
    exact (hlaw t ht).sound.noneDispatched

/-- A campaign that runs on an approved consent, with two recipients; the provider accepts. -/
def twoRecipients : State :=
  ⟨{ config := { provider := fun _ _ => some "m".toList }
     consents := [{ status := .approved }]
     campaigns := [⟨0, 0, .running, 0, 0, 0, 0, 2, 0, some 0⟩]
     recipients := [{ campaign := 0, email := "a@example.com".toList },
       { campaign := 0, email := "b@example.com".toList }] }, []⟩

theorem sound_twoRecipients : Sound twoRecipients.store := by
  refine ⟨?_, ?_, ?_⟩
  · decide
  · decide
  · decide

/-- The pause comes when the batch is through. -/
def pausedAfterwards : State :=
  seedSend.final (fun c a => betweenBatches c a = true) twoRecipients
    ([.dispatch 0] ++ List.replicate 12 (.exec 0) ++ [.pause 0, .exec 1, .exec 1])

/-- Another dispatch then sends nothing. -/
def dispatchedAgain : State :=
  seedSend.final (fun c a => betweenBatches c a = true ∧ requeues 0 c a = false) pausedAfterwards
    [.dispatch 0, .exec 2, .exec 2, .exec 2]

theorem stopped_of_betweenBatches_afterwards :
    (sendsOf pausedAfterwards.store 0).length = 2 ∧
      sendsOf dispatchedAgain.store 0 = sendsOf pausedAfterwards.store 0 ∧
      NoneDispatched pausedAfterwards.store := by
  obtain ⟨hsends, hmarked⟩ := stopped_of_betweenBatches twoRecipients rfl sound_twoRecipients
  have ht : seedSend.Reaches (fun c a => betweenBatches c a = true) twoRecipients
      pausedAfterwards := Transition.System.reaches_final (by decide)
  have hu : seedSend.Reaches (fun c a => betweenBatches c a = true ∧ requeues 0 c a = false)
      pausedAfterwards dispatchedAgain := Transition.System.reaches_final (by decide)
  exact ⟨by decide, hsends _ _ 0 ht (.inl (by decide)) hu, hmarked _ ht⟩

/-- A pause commits when a batch has been claimed, and both recipients are sent; a cancellation
commits between the load of the campaign and the choice of the recipients by a retry, and the
recipient that it has marked is dispatched. -/
theorem stopped_fails :
    (¬ ∀ t u i, seedSend.Reaches Transition.Always twoRecipients t → Stopped t.store i →
      seedSend.Reaches (fun c a => requeues i c a = false) t u →
      sendsOf u.store i = sendsOf t.store i) ∧
    ¬ ∀ t, seedSend.Reaches Transition.Always twoRecipients t → NoneDispatched t.store := by
  constructor
  · intro h
    let t := seedSend.final Transition.Always twoRecipients
      [.dispatch 0, .exec 0, .exec 0, .pause 0, .exec 1, .exec 1]
    let u := seedSend.final (fun c a => requeues 0 c a = false) t (List.replicate 8 (.exec 0))
    have hsame := h t u 0 (Transition.System.reaches_final (by decide)) (.inl (by decide))
      (Transition.System.reaches_final (by decide))
    exact absurd hsame (by decide)
  · intro h
    have hrun : (seedSend.run twoRecipients
        ([.retry 0 25, .exec 0, .cancel 0, .exec 1, .exec 1, .exec 0, .exec 0, .exec 0,
          .dispatch 0] ++ List.replicate 8 (.exec 2))).any (fun t =>
        t.store.recipients.any fun row => row.marked && row.status = .dispatched) = true := by
      decide
    obtain ⟨t, hreaches, hany⟩ := Transition.System.exists_reaches_always hrun
    obtain ⟨row, hrow, hbad⟩ := List.any_eq_true.mp hany
    rw [Bool.and_eq_true, decide_eq_true_eq] at hbad
    exact h t hreaches row hrow hbad.1 hbad.2

end ValidEmailVerifier.SeedSend
