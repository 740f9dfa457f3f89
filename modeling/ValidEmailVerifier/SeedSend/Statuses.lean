/-
# `SeedSend.Statuses` — final statuses, and one active campaign for a job

An operator's request, the guardrails and reconciliation test the status of a campaign on a
model that they have loaded, and write the new status with no condition.  So do the approval of a
consent and, for the start of a campaign, the check that none is active.

* A cancelled campaign stays cancelled and a revoked consent revoked along a schedule exactly if
  no status is written over them by a model that is out of date (`final_iff`).
* A job has at most one active campaign along a schedule exactly if none is active when another
  is created or made active again (`atMostOneActive_iff`).
-/
import ValidEmailVerifier.SeedSend.Steps

namespace ValidEmailVerifier.SeedSend

open Processes

/-! ## What an instruction does to the statuses -/

/-- The campaigns by job and status. -/
def lines (s : Store) : List (Nat × CampaignStatus) :=
  s.campaigns.map fun row => (row.job, row.status)

/-- The status of line `i` is set. -/
def setLine (l : List (Nat × CampaignStatus)) (i : Nat) (status : CampaignStatus) :
    List (Nat × CampaignStatus) :=
  l.modify i fun x => (x.1, status)

/-- What an instruction does to the lines. -/
inductive Lines (s : Store) : Instr → List (Nat × CampaignStatus) → Prop
  | same {instr : Instr} (hwritten : written s instr = none) (hcreated : created instr = none)
      (hcancels : cancels s instr = []) : Lines s instr (lines s)
  | write {instr : Instr} {i : Nat} {status : CampaignStatus}
      (hwritten : written s instr = some (i, status)) :
      Lines s instr (setLine (lines s) i status)
  | create {job k : Nat} {emails : List Text} :
      Lines s (.createCampaign job k emails) (lines s ++ [(job, .queued)])
  | cancel {instr : Instr} (hwritten : written s instr = none)
      (hcreated : created instr = none) :
      Lines s instr ((cancels s instr).foldl (fun l i => setLine l i .cancelled) (lines s))
  | claim {i : Nat} :
      Lines s (.claim i)
        ((lines s).modify i fun x => (x.1, if x.2 = .queued then .running else x.2))

/-- A view of the elements of a list, after one of them has been modified. -/
theorem map_modify {α β : Type} (v : α → β) (l : List α) (i : Nat) {f : α → α} {g : β → β}
    (hfg : ∀ x, v (f x) = g (v x)) : (l.modify i f).map v = (l.map v).modify i g := by
  apply List.ext_getElem?
  intro k
  rw [List.getElem?_map, List.getElem?_modify, List.getElem?_modify, List.getElem?_map]
  cases l[k]? with
  | none => rfl
  | some x =>
    simp only [Option.map_eq_map, Option.map_some]
    split
    · rw [hfg]
    · rfl

theorem map_updateCampaign {β : Type} (v : Campaign → β) (s : Store) (i : Nat)
    {f : Campaign → Campaign} {g : β → β} (hfg : ∀ row, v (f row) = g (v row)) :
    (s.updateCampaign i f).campaigns.map v = (s.campaigns.map v).modify i g :=
  map_modify v s.campaigns i hfg

theorem lines_updateCampaign (s : Store) (i : Nat) {f : Campaign → Campaign}
    {g : Nat × CampaignStatus → Nat × CampaignStatus}
    (hfg : ∀ row, ((f row).job, (f row).status) = g (row.job, row.status)) :
    lines (s.updateCampaign i f) = (lines s).modify i g :=
  map_updateCampaign (fun row => (row.job, row.status)) s i hfg

theorem lines_updateStatus (s : Store) (i : Nat) (status : CampaignStatus) :
    lines (updateStatus s i status) = setLine (lines s) i status :=
  lines_updateCampaign s i fun _ => rfl

/-- An update that leaves jobs and statuses alone. -/
theorem lines_same (s : Store) (i : Nat) {f : Campaign → Campaign}
    (hf : ∀ row, ((f row).job, (f row).status) = (row.job, row.status)) :
    lines (s.updateCampaign i f) = lines s := by
  rw [lines_updateCampaign s i (g := id) hf, List.modify_id]

theorem campaigns_transitionToCancelled (s : Store) (i : Nat) :
    ∃ t : Totals, (transitionToCancelled s i).campaigns =
      (s.updateCampaign i fun row =>
        { row with
          status := .cancelled
          sentCount := t.sent
          deliveredCount := t.delivered
          bouncedCount := t.bounced
          deferredCount := t.deferred }).campaigns := by
  let s₁ := (s.updateRecipients (·.campaign = i) (failPending s.now)).updateRecipients
    (·.campaign = i) (deferDispatched s.now)
  refine ⟨totals s₁ i, ?_⟩
  rw [transitionToCancelled]
  split
  · rfl
  · rfl

theorem lines_transitionToCancelled (s : Store) (i : Nat) :
    lines (transitionToCancelled s i) = setLine (lines s) i .cancelled := by
  obtain ⟨t, ht⟩ := campaigns_transitionToCancelled s i
  rw [lines, ht]
  exact lines_updateCampaign s i fun _ => rfl

theorem lines_foldl_cancel (is : List Nat) :
    ∀ s : Store, lines (is.foldl transitionToCancelled s) =
      is.foldl (fun l i => setLine l i .cancelled) (lines s) := by
  induction is with
  | nil => exact fun _ => rfl
  | cons i is ih =>
    intro s
    rw [List.foldl_cons, List.foldl_cons, ih, lines_transitionToCancelled]

theorem campaigns_foldl_updateRecipient (f : Recipient → Recipient) (ids : List Nat) :
    ∀ s : Store, (ids.foldl (fun s r => s.updateRecipient r f) s).campaigns = s.campaigns := by
  induction ids with
  | nil => exact fun _ => rfl
  | cons r ids ih =>
    intro s
    rw [List.foldl_cons, ih]
    rfl

theorem lines_claim (s : Store) (i : Nat) (ids : List Nat) :
    lines (claimBatch (s.updateCampaign i (startRunning s)) ids) =
      (lines s).modify i fun x => (x.1, if x.2 = .queued then .running else x.2) := by
  rw [lines, claimBatch, campaigns_foldl_updateRecipient]
  refine lines_updateCampaign s i ?_
  intro row
  rw [startRunning]
  split
  next h => rfl
  next h => rfl

theorem written_completeCampaign {s : Store} {i : Nat} {campaign : Campaign} {t : Totals} :
    Lines s (.completeCampaign i campaign t)
      (lines (s.updateCampaign i (completed s campaign t))) := by
  by_cases hstatus : campaign.status = .completed
  · have hsame : lines (s.updateCampaign i (completed s campaign t)) = lines s := by
      refine lines_same s i ?_
      intro row
      show (row.job, dirty campaign.status .completed row.status) = _
      rw [hstatus, dirty_clean]
    rw [hsame]
    exact .same (if_neg (not_not.mpr hstatus)) rfl rfl
  · have hset : lines (s.updateCampaign i (completed s campaign t)) =
        setLine (lines s) i .completed := by
      refine lines_updateCampaign s i ?_
      intro row
      show (row.job, dirty campaign.status .completed row.status) = _
      rw [dirty, if_neg (fun h => hstatus h.symm)]
    rw [hset]
    exact .write (if_pos hstatus)

theorem Does.lines {s s' : Store} {instr : Instr} {code : List Instr} (h : Does s instr s' code) :
    Lines s instr (lines s') := by
  cases h with
  | look _ hsilent => exact .same hsilent.written hsilent.created hsilent.cancels
  | approve | handOver | markDispatched | markDeferred | deferOpen | consume | release | record
  | applyEvent | claimNothing => exact .same rfl rfl rfl
  | revoke =>
    rw [SeedSend.revoke, lines_foldl_cancel]
    exact .cancel rfl rfl
  | create =>
    rw [createCampaign, reserveForCampaign]
    split
    · rw [SeedSend.lines, List.map_append]
      exact .create
    · rw [Store.upsertEntry, SeedSend.lines, List.map_append]
      exact .create
  | status hwritten =>
    rw [lines_updateStatus]
    exact .write hwritten
  | @cancel i campaign hstatus =>
    have hcancels : cancels s (.cancelCampaign i campaign) = [i] := by
      rw [cancels, hstatus, if_neg Bool.false_ne_true]
    have hlines : Lines s (.cancelCampaign i campaign) _ := .cancel rfl rfl
    rw [hcancels] at hlines
    rw [lines_transitionToCancelled]
    exact hlines
  | @cancelForSafety i campaign hstatus =>
    have hcancels : cancels s (.cancelForSafety i campaign) = [i] := by
      rw [cancels, hstatus, if_neg Bool.false_ne_true]
    have hlines : Lines s (.cancelForSafety i campaign) _ := .cancel rfl rfl
    rw [hcancels] at hlines
    rw [lines_transitionToCancelled]
    exact hlines
  | retry =>
    rw [SeedSend.lines, campaigns_foldl_updateRecipient]
    exact .same rfl rfl rfl
  | claim =>
    rw [lines_claim]
    exact .claim
  | @saveCounters i t =>
    have hsame : SeedSend.lines (SeedSend.saveCounters s i t) = SeedSend.lines s :=
      lines_same s i fun _ => rfl
    rw [hsame]
    exact .same rfl rfl rfl
  | complete => exact written_completeCampaign

/-! ## Final statuses -/

/-- A status that is meant to be final. -/
inductive Final where
  | cancelled (i : Nat)
  | revoked (k : Nat)

def Holds : Final → State → Prop
  | .cancelled i, c => (lines c.store)[i]?.map (·.2) = some .cancelled
  | .revoked k, c => c.store.consents[k]?.map (·.status) = some .revoked

instance : ∀ (f : Final) (c : State), Decidable (Holds f c)
  | .cancelled _, _ => inferInstanceAs (Decidable (_ = _))
  | .revoked _, _ => inferInstanceAs (Decidable (_ = _))

/-- The model by which a status is written is not older than a cancellation of the campaign, nor
than a revocation of the consent. -/
def upToDate (c : State) (a : Action) : Bool :=
  (nextInstr c a).all fun instr =>
    ((written c.store instr).all fun w => (lines c.store)[w.1]?.all (·.2 ≠ .cancelled)) &&
      (approval c.store instr).all fun k => c.store.consents[k]?.all (·.status ≠ .revoked)

/-- The statuses that are written by a model. -/
theorem written_cases {s : Store} {instr : Instr} {i : Nat} {status : CampaignStatus}
    (h : written s instr = some (i, status)) :
    status = .paused ∨ status = .queued ∨ status = .completed := by
  cases instr with
  | pauseCampaign | resumeCampaign | requeueCampaign | evaluateAndApply | completeCampaign =>
    rw [written] at h
    split at h
    · cases h
      simp
    · exact nomatch h
  | _ => exact nomatch h

theorem written_ne_cancelled {s : Store} {instr : Instr} {i : Nat} {status : CampaignStatus}
    (h : written s instr = some (i, status)) : status ≠ .cancelled := by
  rintro rfl
  rcases written_cases h with h | h | h
  · exact nomatch h
  · exact nomatch h
  · exact nomatch h

theorem getElem?_setLine (l : List (Nat × CampaignStatus)) (i k : Nat)
    (status : CampaignStatus) :
    (setLine l i status)[k]?.map (·.2) =
      if i = k then l[k]?.map fun _ => status else l[k]?.map (·.2) := by
  rw [setLine, List.getElem?_modify]
  cases l[k]? with
  | none =>
    split
    · rfl
    · rfl
  | some x =>
    simp only [Option.map_eq_map, Option.map_some]
    split
    · rfl
    · rfl

theorem setLine_cancelled {l : List (Nat × CampaignStatus)} {k : Nat}
    (h : l[k]?.map (·.2) = some .cancelled) (i : Nat) :
    (setLine l i .cancelled)[k]?.map (·.2) = some .cancelled := by
  rw [getElem?_setLine]
  split
  · obtain ⟨x, hx, -⟩ := Option.map_eq_some_iff.mp h
    rw [hx]
    rfl
  · exact h

theorem foldl_cancelled (is : List Nat) {k : Nat} :
    ∀ {l : List (Nat × CampaignStatus)}, l[k]?.map (·.2) = some .cancelled →
      (is.foldl (fun l i => setLine l i .cancelled) l)[k]?.map (·.2) = some .cancelled := by
  induction is with
  | nil => exact fun h => h
  | cons i is ih =>
    intro l h
    rw [List.foldl_cons]
    exact ih (setLine_cancelled h i)

/-- A write over line `i` keeps every cancellation exactly if that line is not cancelled. -/
theorem keeps_setLine {l : List (Nat × CampaignStatus)} {i : Nat} {status : CampaignStatus}
    (hstatus : status ≠ .cancelled) :
    (∀ k : Nat, l[k]?.map (·.2) = some .cancelled →
      (setLine l i status)[k]?.map (·.2) = some .cancelled) ↔
      l[i]?.all (·.2 ≠ .cancelled) = true := by
  constructor
  · intro h
    cases hrow : l[i]? with
    | none => rfl
    | some x =>
      rw [Option.all_some, decide_eq_true_eq]
      intro hx
      have hkept := h i (by rw [hrow, Option.map_some, hx])
      rw [getElem?_setLine, if_pos rfl, hrow] at hkept
      exact hstatus (Option.some.inj hkept)
  · intro h k hk
    rw [getElem?_setLine]
    split
    next hik =>
      subst hik
      obtain ⟨x, hx, hcancelled⟩ := Option.map_eq_some_iff.mp hk
      rw [hx, Option.all_some, decide_eq_true_eq] at h
      exact absurd hcancelled h
    next => exact hk

/-- An instruction keeps every cancellation exactly if it writes over none. -/
theorem Lines.keeps_iff {s : Store} {instr : Instr} {l : List (Nat × CampaignStatus)}
    (h : Lines s instr l) :
    (∀ i : Nat, (lines s)[i]?.map (·.2) = some .cancelled →
      l[i]?.map (·.2) = some .cancelled) ↔
      (written s instr).all (fun w => (lines s)[w.1]?.all (·.2 ≠ .cancelled)) = true := by
  cases h with
  | same hwritten =>
    rw [hwritten]
    exact ⟨fun _ => rfl, fun _ _ h => h⟩
  | write hwritten =>
    rw [hwritten]
    exact keeps_setLine (written_ne_cancelled hwritten)
  | create =>
    refine ⟨fun _ => rfl, fun _ i hi => ?_⟩
    obtain ⟨x, hx, hcancelled⟩ := Option.map_eq_some_iff.mp hi
    rw [List.getElem?_append_left (List.getElem?_eq_some_iff.mp hx).1, hx, Option.map_some,
      hcancelled]
  | cancel hwritten =>
    rw [hwritten]
    exact ⟨fun _ => rfl, fun _ _ hi => foldl_cancelled _ hi⟩
  | claim =>
    refine ⟨fun _ => rfl, fun _ i hi => ?_⟩
    obtain ⟨x, hx, hcancelled⟩ := Option.map_eq_some_iff.mp hi
    rw [List.getElem?_modify, hx]
    simp only [Option.map_eq_map, Option.map_some]
    split
    · rw [hcancelled]
      rfl
    · rw [hcancelled]

/-! ### Consents -/

/-- What an instruction does to the statuses of the consents. -/
inductive Consents (s : Store) : Instr → List ConsentStatus → Prop
  | same {instr : Instr} (happroval : approval s instr = none) :
      Consents s instr (s.consents.map (·.status))
  | approve {instr : Instr} {k : Nat} (happroval : approval s instr = some k) :
      Consents s instr ((s.consents.map (·.status)).modify k fun _ => .approved)
  | revoke {k : Nat} :
      Consents s (.revokeConsent k) ((s.consents.map (·.status)).modify k fun _ => .revoked)

theorem statuses_updateConsent (s : Store) (k : Nat) {f : Consent → Consent}
    {status : ConsentStatus} (hf : ∀ row, (f row).status = status) :
    (s.updateConsent k f).consents.map (·.status) =
      (s.consents.map (·.status)).modify k fun _ => status :=
  map_modify (·.status) s.consents k hf

/-- Only campaigns, recipients and the ledger have changed. -/
structure SameRest (s s' : Store) : Prop where
  consents : s'.consents = s.consents
  events : s'.events = s.events
  sends : s'.sends = s.sends
  config : s'.config = s.config
  now : s'.now = s.now

theorem SameRest.refl (s : Store) : SameRest s s := ⟨rfl, rfl, rfl, rfl, rfl⟩

theorem SameRest.trans {s t u : Store} (h : SameRest s t) (h' : SameRest t u) : SameRest s u :=
  ⟨h'.consents.trans h.consents, h'.events.trans h.events, h'.sends.trans h.sends,
    h'.config.trans h.config, h'.now.trans h.now⟩

/-- What each step of a loop leaves alone, the loop does. -/
theorem SameRest.foldl {α : Type} {f : Store → α → Store} (hf : ∀ s a, SameRest s (f s a))
    (l : List α) : ∀ s : Store, SameRest s (l.foldl f s) := by
  induction l with
  | nil => exact SameRest.refl
  | cons a l ih => exact fun s => (hf s a).trans (ih _)

theorem sameRest_transitionToCancelled (s : Store) (i : Nat) :
    SameRest s (transitionToCancelled s i) := by
  rw [transitionToCancelled]
  split
  · exact ⟨rfl, rfl, rfl, rfl, rfl⟩
  · exact ⟨rfl, rfl, rfl, rfl, rfl⟩

theorem sameRest_foldl_updateRecipient (f : Recipient → Recipient) (ids : List Nat) (s : Store) :
    SameRest s (ids.foldl (fun s r => s.updateRecipient r f) s) :=
  .foldl (f := fun s r => s.updateRecipient r f) (fun _ _ => ⟨rfl, rfl, rfl, rfl, rfl⟩) ids s

theorem sameRest_createCampaign (s : Store) (job k : Nat) (emails : List Text) :
    SameRest s (createCampaign s job k emails) := by
  rw [createCampaign, reserveForCampaign]
  split
  · exact ⟨rfl, rfl, rfl, rfl, rfl⟩
  · exact ⟨rfl, rfl, rfl, rfl, rfl⟩

theorem Does.consents {s s' : Store} {instr : Instr} {code : List Instr}
    (h : Does s instr s' code) : Consents s instr (s'.consents.map (·.status)) := by
  cases h with
  | look _ hsilent => exact .same hsilent.approval
  | @approve k consent happroval =>
    have hset := statuses_updateConsent s k (f := fun row => { row with
      status := .approved, revokedAt := dirty consent.revokedAt none row.revokedAt }) fun _ => rfl
    rw [hset]
    exact .approve happroval
  | @revoke k =>
    have hset := statuses_updateConsent s k (f := fun row => { row with
      status := .revoked, revokedAt := some s.now }) fun _ => rfl
    rw [SeedSend.revoke, (SameRest.foldl sameRest_transitionToCancelled _ _).consents, hset]
    exact .revoke
  | status hwritten happroval => exact .same happroval
  | create =>
    rw [(sameRest_createCampaign s _ _ _).consents]
    exact .same rfl
  | cancel | cancelForSafety =>
    rw [(sameRest_transitionToCancelled s _).consents]
    exact .same rfl
  | retry =>
    rw [(sameRest_foldl_updateRecipient retried _ s).consents]
    exact .same rfl
  | claim =>
    rw [claimBatch, (sameRest_foldl_updateRecipient claimed _ _).consents]
    exact .same rfl
  | handOver | markDispatched | markDeferred | deferOpen | consume | release | record
  | applyEvent | claimNothing | saveCounters | complete => exact .same rfl

theorem Consents.keeps_iff {s : Store} {instr : Instr} {l : List ConsentStatus}
    (h : Consents s instr l) :
    (∀ k : Nat, s.consents[k]?.map (·.status) = some .revoked → l[k]? = some .revoked) ↔
      (approval s instr).all (fun k => s.consents[k]?.all (·.status ≠ .revoked)) = true := by
  cases h with
  | same happroval =>
    rw [happroval]
    refine ⟨fun _ => rfl, fun _ k hk => ?_⟩
    rw [List.getElem?_map]
    exact hk
  | @approve _ k happroval =>
    rw [happroval, Option.all_some]
    constructor
    · intro h
      cases hrow : s.consents[k]? with
      | none => rfl
      | some row =>
        rw [Option.all_some, decide_eq_true_eq]
        intro hrevoked
        have hkept := h k (by rw [hrow, Option.map_some, hrevoked])
        rw [List.getElem?_modify, List.getElem?_map, hrow] at hkept
        simp only [if_true, Option.map_eq_map, Option.map_some] at hkept
        exact nomatch hkept
    · intro h j hj
      rw [List.getElem?_modify, List.getElem?_map]
      by_cases hkj : k = j
      · subst hkj
        obtain ⟨row, hrow, hrevoked⟩ := Option.map_eq_some_iff.mp hj
        rw [hrow, Option.all_some, decide_eq_true_eq] at h
        exact absurd hrevoked h
      · rw [hj]
        show some (if k = j then _ else _) = _
        rw [if_neg hkj]
  | @revoke k =>
    refine ⟨fun _ => rfl, fun _ j hj => ?_⟩
    rw [List.getElem?_modify, List.getElem?_map, hj]
    simp only [Option.map_eq_map, Option.map_some]
    split
    · rfl
    · rfl

/-! ### Along a schedule -/

theorem Environ.keeps {c : State} {s' : Store} (h : Environ c.store s') (f : Final)
    (hf : Holds f c) : Holds f (withStore c s') := by
  cases h with
  | tick =>
    cases f with
    | cancelled | revoked => exact hf
  | requestConsent expiresAt =>
    cases f with
    | cancelled i => exact hf
    | revoked k =>
      obtain ⟨row, hrow, hrevoked⟩ := Option.map_eq_some_iff.mp hf
      show (c.store.consents ++ [_])[k]?.map _ = _
      rw [List.getElem?_append_left (List.getElem?_eq_some_iff.mp hrow).1, hrow,
        Option.map_some, hrevoked]

/-- One step keeps every final status exactly if its model is up to date. -/
theorem final_act {c c' : State} {a : Action} (hone : c.OneLeft) (hact : act c a = some c') :
    (∀ f, Holds f c → Holds f c') ↔ upToDate c a = true := by
  cases act_cases hone hact with
  | environ ha henv =>
    rw [upToDate, ha]
    exact ⟨fun _ => rfl, fun _ f hf => henv.keeps f hf⟩
  | start ha =>
    rw [upToDate, ha]
    refine ⟨fun _ => rfl, fun _ f hf => ?_⟩
    cases f with
    | cancelled | revoked => exact hf
  | crash =>
    refine ⟨fun _ => rfl, fun _ f hf => ?_⟩
    cases f with
    | cancelled | revoked => exact hf
  | @exec p k instr s' code hat hdoes =>
    rw [upToDate, nextInstr_exec hat, Option.all_some, Bool.and_eq_true,
      ← hdoes.lines.keeps_iff, ← hdoes.consents.keeps_iff]
    constructor
    · intro h
      refine ⟨fun i hi => h (.cancelled i) hi, fun k hk => ?_⟩
      rw [List.getElem?_map]
      exact h (.revoked k) hk
    · intro h f hf
      cases f with
      | cancelled i => exact h.1 i hf
      | revoked k =>
        have hkept := h.2 k hf
        rw [List.getElem?_map] at hkept
        exact hkept

/-- Along a schedule that starts with no process under way, a cancelled campaign stays
cancelled and a revoked consent stays revoked, exactly if every status is written by a model that
is up to date. -/
theorem final_iff (c : State) (as : List Action) (hidle : c.procs = []) :
    (∀ f, seedSend.Absorbs (Holds f) c as) ↔
      seedSend.Meets (fun c a => upToDate c a = true) c as :=
  Transition.System.absorbs_iff_meets (I := fun c => c.OneLeft)
    (fun _ _ _ hone hact => oneLeft_act hone hact)
    (fun _ _ _ hone hact => final_act hone hact)
    (Conf.oneLeft_of_idle hidle)

/-- A queued campaign on a consent that is approved. -/
def oneCampaign : State :=
  ⟨{ consents := [{ status := .approved }], campaigns := [⟨0, 0, .queued, 0, 0, 0, 0, 1, 0, none⟩]
     recipients := [{ campaign := 0, email := "a@example.com".toList }] }, []⟩

/-- The pause comes before the cancellation. -/
theorem final_iff_in_order :
    seedSend.Absorbs (Holds (.cancelled 0)) oneCampaign
      [.pause 0, .exec 0, .exec 0, .cancel 0, .exec 1, .exec 1, .resume 0, .exec 2, .exec 2] :=
  (final_iff oneCampaign _ rfl).mpr (by decide) (.cancelled 0)

/-- A campaign is loaded for a pause, cancelled and then paused; a consent is loaded for its
approval, approved and revoked by others, and then approved. -/
theorem final_fails :
    (¬ ∀ as, seedSend.Absorbs (Holds (.cancelled 0)) oneCampaign as) ∧
      ¬ ∀ as, seedSend.Absorbs (Holds (.revoked 0)) ⟨{ consents := [{}] }, []⟩ as := by
  constructor
  · intro h
    exact absurd (h [.pause 0, .cancel 0, .exec 0, .exec 1, .exec 1, .exec 0]) (by decide)
  · intro h
    exact absurd (h [.approve 0, .approve 0, .exec 0, .exec 1, .exec 1, .revoke 0, .exec 2,
      .exec 0]) (by decide)

/-! ## One active campaign for a job -/

/-- The active campaigns of a job. -/
def activeOf (s : Store) (job : Nat) : List Nat :=
  (List.range s.campaigns.length).filter fun i =>
    s.campaigns[i]?.any fun row => row.job = job && active row.status

/-- Those of them that credits are reserved for. -/
def reservedOf (s : Store) (job : Nat) : List Nat :=
  (activeOf s job).filter fun i => (s.ledger i .reserve).isSome

/-- A job has at most one active campaign, and credits reserved for at most one. -/
def AtMostOneActive (c : State) : Prop :=
  ∀ job, (activeOf c.store job).length ≤ 1 ∧ (reservedOf c.store job).length ≤ 1

/-- No campaign of the job is active when another is created, or made active that is not. -/
def leavesOne (s : Store) (instr : Instr) : Bool :=
  ((created instr).all fun job => !activeCampaignExists s job) &&
    (written s instr).all fun w => !active w.2 ||
      s.campaigns[w.1]?.all fun row => active row.status || !activeCampaignExists s row.job

def onlyActive (c : State) (a : Action) : Bool := (nextInstr c a).all (leavesOne c.store)

/-! ### Counting the active lines -/

/-- The line is of an active campaign of the job. -/
def activeLine (job : Nat) (x : Nat × CampaignStatus) : Bool := x.1 = job && active x.2

theorem length_filter_range {α : Type} (p : α → Bool) (l : List α) :
    ((List.range l.length).filter fun i => l[i]?.any p).length = l.countP p := by
  induction l using List.reverseRecOn with
  | nil => rfl
  | append_singleton l a ih =>
    have hold : ∀ i ∈ List.range l.length, (l ++ [a])[i]?.any p = l[i]?.any p := by
      intro i hi
      rw [List.getElem?_append_left (List.mem_range.mp hi)]
    rw [List.length_append, List.length_singleton, List.range_succ, List.filter_append,
      List.length_append, List.filter_congr hold, ih, List.countP_append, List.filter_singleton,
      List.getElem?_concat_length, Option.any_some, List.countP_singleton]
    cases p a with
    | false => rfl
    | true => rfl

theorem length_activeOf (s : Store) (job : Nat) :
    (activeOf s job).length = (lines s).countP (activeLine job) := by
  rw [activeOf, length_filter_range, lines, List.countP_map]
  rfl

theorem atMostOneActive_iff_lines (c : State) :
    AtMostOneActive c ↔ ∀ job, (lines c.store).countP (activeLine job) ≤ 1 := by
  constructor
  · intro h job
    rw [← length_activeOf]
    exact (h job).1
  · intro h job
    have hactive := h job
    rw [← length_activeOf] at hactive
    exact ⟨hactive, Nat.le_trans (List.length_filter_le _ _) hactive⟩

theorem activeCampaignExists_eq (s : Store) (job : Nat) :
    activeCampaignExists s job = decide (0 < (lines s).countP (activeLine job)) := by
  rw [Bool.eq_iff_iff, decide_eq_true_eq, List.countP_pos_iff, activeCampaignExists,
    List.any_eq_true]
  constructor
  · rintro ⟨row, hrow, hactive⟩
    exact ⟨(row.job, row.status), List.mem_map.mpr ⟨row, hrow, rfl⟩, hactive⟩
  · rintro ⟨x, hx, hactive⟩
    obtain ⟨row, hrow, rfl⟩ := List.mem_map.mp hx
    exact ⟨row, hrow, hactive⟩

/-- A count over a list with one element changed. -/
theorem countP_modify {α : Type} (p : α → Bool) (f : α → α) :
    ∀ {l : List α} {i : Nat} {a : α}, l[i]? = some a →
      (l.modify i f).countP p + (if p a then 1 else 0) =
        l.countP p + if p (f a) then 1 else 0
  | [], _, _, h => nomatch h
  | b :: l, 0, a, h => by
      have hb : b = a := by simpa using h
      rw [List.modify_zero_cons, List.countP_cons, List.countP_cons, hb]
      omega
  | b :: l, i + 1, a, h => by
      have ih := countP_modify p f (l := l) (i := i) (a := a) (by simpa using h)
      rw [List.modify_succ_cons, List.countP_cons, List.countP_cons]
      omega

/-- A cancellation makes no campaign active. -/
theorem countP_cancel_le (job : Nat) (is : List Nat) :
    ∀ l : List (Nat × CampaignStatus),
      (is.foldl (fun l i => setLine l i .cancelled) l).countP (activeLine job) ≤
        l.countP (activeLine job) := by
  induction is with
  | nil => exact fun _ => Nat.le_refl _
  | cons i is ih =>
    intro l
    rw [List.foldl_cons]
    refine Nat.le_trans (ih _) ?_
    cases hrow : l[i]? with
    | none =>
      rw [setLine, List.modify_eq_self (List.getElem?_eq_none_iff.mp hrow)]
    | some x =>
      have hcount := countP_modify (activeLine job) (fun x => (x.1, .cancelled)) hrow
      have hnone : activeLine job (x.1, .cancelled) = false := Bool.and_false _
      rw [hnone, if_neg Bool.false_ne_true] at hcount
      rw [setLine]
      omega

/-- The start of a batch changes no campaign from active to another status, or back. -/
theorem countP_claim (job : Nat) (l : List (Nat × CampaignStatus)) (i : Nat) :
    (l.modify i fun x => (x.1, if x.2 = .queued then .running else x.2)).countP
      (activeLine job) = l.countP (activeLine job) := by
  cases hrow : l[i]? with
  | none => rw [List.modify_eq_self (List.getElem?_eq_none_iff.mp hrow)]
  | some x =>
    have hcount := countP_modify (activeLine job)
      (fun x => (x.1, if x.2 = .queued then .running else x.2)) hrow
    have hsame : activeLine job (x.1, if x.2 = .queued then .running else x.2) =
        activeLine job x := by
      rw [activeLine, activeLine]
      split
      next h => rw [h]; rfl
      next => rfl
    rw [hsame] at hcount
    omega

/-- A status that is written leaves one active campaign exactly if it is not an active one, or
its campaign is active, or none of the job is. -/
theorem countP_setLine {l : List (Nat × CampaignStatus)} {i : Nat} {status : CampaignStatus}
    (hone : ∀ job, l.countP (activeLine job) ≤ 1) :
    (∀ job, (setLine l i status).countP (activeLine job) ≤ 1) ↔
      (active status = true → ∀ x, l[i]? = some x →
        active x.2 = true ∨ l.countP (activeLine x.1) = 0) := by
  cases hrow : l[i]? with
  | none =>
    rw [setLine, List.modify_eq_self (List.getElem?_eq_none_iff.mp hrow)]
    exact ⟨(fun _ _ _ hx => nomatch hx), fun _ => hone⟩
  | some x =>
    have hcount := fun job =>
      countP_modify (activeLine job) (fun x => (x.1, status)) hrow
    rw [setLine]
    constructor
    · rintro h hactive y hy
      obtain rfl := Option.some.inj hy
      have hjob := hcount x.1
      have hnew : activeLine x.1 (x.1, status) = true := by
        rw [activeLine, hactive, Bool.and_true, decide_eq_true_eq]
      rw [hnew, if_pos rfl] at hjob
      have hafter := h x.1
      by_cases hx : active x.2 = true
      · exact .inl hx
      · have hold : activeLine x.1 x = false := by
          rw [activeLine, Bool.eq_false_iff.mpr hx, Bool.and_false]
        rw [hold, if_neg Bool.false_ne_true] at hjob
        exact .inr (by omega)
    · intro h job
      have hjob := hcount job
      have hbefore := hone job
      by_cases hnew : activeLine job (x.1, status) = true
      · rw [if_pos hnew] at hjob
        rw [activeLine, Bool.and_eq_true, decide_eq_true_eq] at hnew
        obtain ⟨hx, hactive⟩ := hnew
        rcases h hactive x rfl with hbusy | hnone
        · have hold : activeLine job x = true := by
            rw [activeLine, hbusy, Bool.and_true, decide_eq_true_eq]
            exact hx
          rw [if_pos hold] at hjob
          omega
        · rw [show x.1 = job from hx] at hnone
          omega
      · rw [if_neg hnew] at hjob
        omega

theorem written_of_created {s : Store} {instr : Instr} {job : Nat}
    (h : created instr = some job) : written s instr = none := by
  cases instr with
  | createCampaign => rfl
  | _ => exact nomatch h

theorem created_of_written {s : Store} {instr : Instr} {w : Nat × CampaignStatus}
    (h : written s instr = some w) : created instr = none := by
  cases hcreated : created instr with
  | none => rfl
  | some job => exact nomatch (written_of_created hcreated).symm.trans h

/-- An instruction leaves one active campaign exactly if none of the job is active beside the one
that it makes active. -/
theorem Lines.leavesOne_iff {s : Store} {instr : Instr} {l : List (Nat × CampaignStatus)}
    (h : Lines s instr l) (hone : ∀ job, (lines s).countP (activeLine job) ≤ 1) :
    (∀ job, l.countP (activeLine job) ≤ 1) ↔ leavesOne s instr = true := by
  rw [leavesOne]
  cases h with
  | same hwritten hcreated =>
    rw [hwritten, hcreated]
    exact ⟨fun _ => rfl, fun _ => hone⟩
  | @write _ i status hwritten =>
    rw [created_of_written hwritten, hwritten, countP_setLine hone]
    show _ ↔ (!active status || s.campaigns[i]?.all _) = true
    rw [Bool.or_eq_true, Bool.not_eq_true']
    constructor
    · intro h
      cases hactive : active status with
      | false => exact .inl rfl
      | true =>
        refine .inr ?_
        cases hrow : s.campaigns[i]? with
        | none => rfl
        | some row =>
          have hline : (lines s)[i]? = some (row.job, row.status) := by
            rw [lines, List.getElem?_map, hrow]
            rfl
          rw [Option.all_some, activeCampaignExists_eq, Bool.or_eq_true]
          rcases h hactive _ hline with hbusy | hnone
          · exact .inl hbusy
          · refine .inr ?_
            rw [hnone]
            rfl
    · rintro h hactive x hx
      rw [lines, List.getElem?_map, Option.map_eq_some_iff] at hx
      obtain ⟨row, hrow, rfl⟩ := hx
      rcases h with h | h
      · rw [hactive] at h
        exact nomatch h
      · rw [hrow, Option.all_some, activeCampaignExists_eq, Bool.or_eq_true] at h
        refine h.imp id ?_
        intro hnone
        simpa using hnone
  | @create job k emails =>
    show _ ↔ (!activeCampaignExists s job && true) = true
    rw [Bool.and_true, activeCampaignExists_eq, Bool.not_eq_true', decide_eq_false_iff_not]
    have hnew : ∀ job', (lines s ++ [(job, CampaignStatus.queued)]).countP (activeLine job') =
        (lines s).countP (activeLine job') + if job = job' then 1 else 0 := by
      intro job'
      rw [List.countP_append, List.countP_singleton, activeLine]
      show _ + (if (decide (job = job') && true) = true then 1 else 0) = _
      rw [Bool.and_true]
      simp only [decide_eq_true_eq]
    constructor
    · intro h
      have := h job
      rw [hnew, if_pos rfl] at this
      omega
    · intro h job'
      have := hone job'
      rw [hnew]
      split
      next hjob =>
        subst hjob
        omega
      next => omega
  | cancel hwritten hcreated =>
    rw [hwritten, hcreated]
    exact ⟨fun _ => rfl, fun _ job => Nat.le_trans (countP_cancel_le job _ _) (hone job)⟩
  | claim =>
    refine ⟨fun _ => rfl, fun _ job => ?_⟩
    rw [countP_claim]
    exact hone job

/-- One step leaves one active campaign of a job exactly if none is active beside it. -/
theorem onlyActive_act {c c' : State} {a : Action} (hone : c.OneLeft) (hlaw : AtMostOneActive c)
    (hact : act c a = some c') : AtMostOneActive c' ↔ onlyActive c a = true := by
  rw [atMostOneActive_iff_lines] at hlaw ⊢
  cases act_cases hone hact with
  | environ ha henv =>
    rw [onlyActive, ha]
    refine ⟨fun _ => rfl, fun _ => ?_⟩
    cases henv with
    | tick | requestConsent => exact hlaw
  | start ha =>
    rw [onlyActive, ha]
    exact ⟨fun _ => rfl, fun _ => hlaw⟩
  | crash => exact ⟨fun _ => rfl, fun _ => hlaw⟩
  | exec hat hdoes =>
    rw [onlyActive, nextInstr_exec hat, Option.all_some]
    exact hdoes.lines.leavesOne_iff hlaw

/-- Along a schedule that starts with no process under way and at most one active campaign of
each job, there is never a second, nor credits reserved for a second, exactly if no campaign of
the job is active when another is created, or made active that is not. -/
theorem atMostOneActive_iff (c : State) (as : List Action) (hidle : c.procs = [])
    (hlaw : AtMostOneActive c) :
    seedSend.Throughout AtMostOneActive c as ↔
      seedSend.Meets (fun c a => onlyActive c a = true) c as :=
  Transition.System.throughout_iff_meets (I := fun c => c.OneLeft)
    (fun _ _ _ hone hact => oneLeft_act hone hact)
    (fun _ _ _ hone hlaw hact => onlyActive_act hone hlaw hact)
    (Conf.oneLeft_of_idle hidle) hlaw

/-- A consent that is approved. -/
def oneConsent : State := ⟨{ consents := [{ status := .approved }] }, []⟩

theorem atMostOneActive_oneConsent : AtMostOneActive oneConsent :=
  fun _ => ⟨Nat.zero_le _, Nat.zero_le _⟩

/-- A start, and another that comes after it. -/
theorem atMostOneActive_iff_refused :
    seedSend.Throughout AtMostOneActive oneConsent
      [.start 0 0 ["a@example.com".toList], .exec 0, .exec 0, .exec 0,
        .start 0 0 ["b@example.com".toList], .exec 1, .exec 1] :=
  (atMostOneActive_iff oneConsent _ rfl atMostOneActive_oneConsent).mpr (by decide)

/-- Two starts both find no active campaign, and both create one. -/
theorem atMostOneActive_fails :
    ¬ ∀ t, seedSend.Reaches Transition.Always oneConsent t → AtMostOneActive t := by
  intro h
  have hrun : (seedSend.run oneConsent
      [.start 0 0 ["a@example.com".toList], .start 0 0 ["a@example.com".toList],
        .exec 0, .exec 1, .exec 0, .exec 1, .exec 0, .exec 1]).any
      (fun t => decide (1 < (reservedOf t.store 0).length)) = true := by decide
  obtain ⟨t, hreaches, htwo⟩ := Transition.System.exists_reaches_always hrun
  exact Nat.not_lt.mpr (h t hreaches 0).2 (of_decide_eq_true htwo)

end ValidEmailVerifier.SeedSend
