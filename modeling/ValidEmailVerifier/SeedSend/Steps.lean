/-
# `SeedSend.Steps` — what one step of the seed-send machine can do

An instruction looks at the store and says what comes next, or it writes: the consent, the
status of a campaign, a cancellation, recipients, counters, the ledger, an event.  `exec_cases`
gives the store and the code it leaves; a process never has more than one instruction left, so
an action changes the store, starts or ends a process, or executes the one instruction of a
process (`act_cases`).
-/
import ValidEmailVerifier.SeedSend.Machine

namespace ValidEmailVerifier.SeedSend

open Processes

/-! ## What is written by a model that was loaded -/

/-- The status that an instruction writes to a campaign, by the model it has loaded. -/
def written (s : Store) : Instr → Option (Nat × CampaignStatus)
  | .pauseCampaign i campaign =>
      if campaign.status ∈ [CampaignStatus.queued, .running] then some (i, .paused) else none
  | .resumeCampaign i campaign => if campaign.status = .paused then some (i, .queued) else none
  | .requeueCampaign i campaign => if campaign.status ≠ .queued then some (i, .queued) else none
  | .evaluateAndApply i campaign => if evaluate s.config campaign then some (i, .paused) else none
  | .completeCampaign i campaign _ =>
      if campaign.status ≠ .completed then some (i, .completed) else none
  | _ => none

/-- The consent that an instruction approves. -/
def approval (s : Store) : Instr → Option Nat
  | .approveConsent k consent =>
      if consent.status ≠ .approved ∧ isConsentExpired s.now consent = false ∧
          consent.status ≠ .revoked ∧ consent.revokedAt = none then some k
      else none
  | _ => none

/-- The job that an instruction creates a campaign for. -/
def created : Instr → Option Nat
  | .createCampaign job _ _ => some job
  | _ => none

/-- The campaigns that an instruction cancels. -/
def cancels (s : Store) : Instr → List Nat
  | .cancelCampaign i campaign | .cancelForSafety i campaign =>
      if terminal campaign.status then [] else [i]
  | .revokeConsent k => restingOn s k
  | _ => []

/-- An instruction that writes none of these. -/
structure Silent (s : Store) (instr : Instr) : Prop where
  written : written s instr = none
  approval : approval s instr = none
  created : created instr = none
  cancels : cancels s instr = []

/-! ## Instructions that look -/

/-- An instruction that loads campaign `i`, and one that uses the model. -/
inductive Uses (i : Nat) (campaign : Campaign) : Instr → Instr → Prop
  | pause : Uses i campaign (.loadPause i) (.pauseCampaign i campaign)
  | cancel : Uses i campaign (.loadCancel i) (.cancelCampaign i campaign)
  | resume : Uses i campaign (.loadResume i) (.resumeCampaign i campaign)
  | retry {maxRecipients : Nat} :
      Uses i campaign (.loadRetry i maxRecipients) (.selectRetry i campaign maxRecipients)
  | guard : Uses i campaign (.guardDispatch i) (.cancelForSafety i campaign)
  | blocked {ids : List Nat} {blocked : Bool} :
      Uses i campaign (.afterClaim i ids blocked) (.cancelForSafety i campaign)
  | recheck {rs : List Nat} : Uses i campaign (.recheck i rs) (.cancelForSafety i campaign)
  | loop {rs : List Nat} : Uses i campaign (.sendLoop i rs) (.cancelForSafety i campaign)
  | guardrails : Uses i campaign (.loadGuardrails i) (.evaluateAndApply i campaign)
  | reconcile (hstatus : terminal campaign.status = false) :
      Uses i campaign (.loadReconcile i) (.countOpen i campaign)
  | settle : Uses i campaign (.refreshCompleted i) (.consume i campaign)

/-- An instruction that only looks, and what comes next. -/
inductive Looks (s : Store) : Instr → List Instr → Prop
  | rest {instr : Instr} : Looks s instr []
  | loadApproval {k : Nat} {consent : Consent} (h : s.consents[k]? = some consent) :
      Looks s (.loadApproval k) [.approveConsent k consent]
  | loadStart {job k : Nat} {emails : List Text} :
      Looks s (.loadStart job k emails) [.checkActive job k emails]
  | checkActive {job k : Nat} {emails : List Text} (h : activeCampaignExists s job = false) :
      Looks s (.checkActive job k emails) [.createCampaign job k emails]
  | load {instr next : Instr} {i : Nat} {campaign : Campaign}
      (hrow : s.campaigns[i]? = some campaign) (h : Uses i campaign instr next) :
      Looks s instr [next]
  | selectRetry {i maxRecipients : Nat} {campaign : Campaign} {ids : List Nat} :
      Looks s (.selectRetry i campaign maxRecipients) [.retryRecipients i campaign ids]
  | guard {i : Nat} : Looks s (.guardDispatch i) [.claim i]
  | afterClaim {i : Nat} {ids : List Nat} {blocked : Bool} :
      Looks s (.afterClaim i ids blocked) [.loadClaimed i ids]
  | loadClaimed {i : Nat} {ids rs : List Nat} (hids : ∀ r ∈ rs, r ∈ ids)
      (hrows : ∀ r ∈ rs, ∃ row, s.recipients[r]? = some row ∧ row.campaign = i ∧
        row.status = .dispatching) :
      Looks s (.loadClaimed i ids) [.recheck i rs]
  | recheck {i : Nat} {rs : List Nat} : Looks s (.recheck i rs) [.sendLoop i rs]
  | send {i r : Nat} {rs : List Nat} {campaign : Campaign}
      (hrow : s.campaigns[i]? = some campaign)
      (hconsent : isConsentRevokedOrExpired s campaign = false) :
      Looks s (.sendLoop i (r :: rs)) [.send i r rs]
  | sent {i : Nat} : Looks s (.sendLoop i []) [.tally i]
  | tally {i : Nat} : Looks s (.tally i) [.saveCounters i (totals s i)]
  | countOpen {i : Nat} {campaign : Campaign} :
      Looks s (.countOpen i campaign) [.deferOpen i campaign]
  | countFinal {i : Nat} {campaign : Campaign} :
      Looks s (.countFinal i campaign) [.completeCampaign i campaign (totals s i)]
  | findRecipient {payload : Payload} {r : Nat} {model : Recipient}
      (h : s.recipients[r]? = some model) :
      Looks s (.findRecipient payload) [.recordEvent payload r model]

/-! ## Instructions that write -/

/-- What an instruction does to the store, and the code it leaves. -/
inductive Does (s : Store) : Instr → Store → List Instr → Prop
  | look {instr : Instr} {code : List Instr} (h : Looks s instr code)
      (hsilent : Silent s instr) : Does s instr s code
  | approve {k : Nat} {consent : Consent}
      (happroval : approval s (.approveConsent k consent) = some k) :
      Does s (.approveConsent k consent)
        (s.updateConsent k fun row => { row with
          status := .approved, revokedAt := dirty consent.revokedAt none row.revokedAt }) []
  | revoke {k : Nat} : Does s (.revokeConsent k) (revoke s k) []
  | create {job k : Nat} {emails : List Text} :
      Does s (.createCampaign job k emails) (createCampaign s job k emails) []
  | status {instr : Instr} {i : Nat} {status : CampaignStatus}
      (hwritten : written s instr = some (i, status)) (happroval : approval s instr = none) :
      Does s instr (updateStatus s i status) []
  | cancel {i : Nat} {campaign : Campaign} (hstatus : terminal campaign.status = false) :
      Does s (.cancelCampaign i campaign) (transitionToCancelled s i) []
  | cancelForSafety {i : Nat} {campaign : Campaign} (hstatus : terminal campaign.status = false) :
      Does s (.cancelForSafety i campaign) (transitionToCancelled s i) []
  | retry {i : Nat} {campaign : Campaign} {ids : List Nat} :
      Does s (.retryRecipients i campaign ids)
        (ids.foldl (fun s r => s.updateRecipient r retried) s) [.requeueCampaign i campaign]
  | claim {i : Nat} {campaign : Campaign} (hrow : s.campaigns[i]? = some campaign)
      (hstatus : campaign.status ∈ [CampaignStatus.queued, .running]) :
      Does s (.claim i)
        (claimBatch (s.updateCampaign i (startRunning s))
          (batch (s.updateCampaign i (startRunning s)) i))
        [.afterClaim i (batch (s.updateCampaign i (startRunning s)) i) false]
  | claimNothing {i : Nat} {blocked : Bool} :
      Does s (.claim i) s [.afterClaim i [] blocked]
  | handOver {i r : Nat} {rs : List Nat} {next : Instr}
      (hnext : (∃ messageId, next = .markDispatched i r messageId rs) ∨
        next = .markDeferred i r rs) :
      Does s (.send i r rs) (handOver s i r) [next]
  | markDispatched {i r : Nat} {messageId : Text} {rs : List Nat} :
      Does s (.markDispatched i r messageId rs)
        (s.updateRecipient r fun row =>
          if row.status = .dispatching then
            { row with status := .dispatched, providerMessageId := some messageId }
          else row) [.sendLoop i rs]
  | markDeferred {i r : Nat} {rs : List Nat} :
      Does s (.markDeferred i r rs)
        (s.updateRecipient r fun row =>
          if row.status = .dispatching then { row with status := .deferred } else row)
        [.sendLoop i rs]
  | saveCounters {i : Nat} {t : Totals} :
      Does s (.saveCounters i t) (saveCounters s i t) [.loadGuardrails i]
  | deferOpen {i : Nat} {campaign : Campaign} :
      Does s (.deferOpen i campaign)
        (s.updateRecipients (fun row => row.campaign = i && isOpen row) fun row =>
          { row with status := .deferred, lastEventAt := some s.now })
        [.countFinal i campaign]
  | complete {i : Nat} {campaign : Campaign} {t : Totals} :
      Does s (.completeCampaign i campaign t) (s.updateCampaign i (completed s campaign t))
        [.refreshCompleted i]
  | consume {i : Nat} {campaign : Campaign} :
      Does s (.consume i campaign) (s.upsertEntry i .consume (usedCredits campaign))
        [.release i campaign]
  | release {i : Nat} {campaign : Campaign} :
      Does s (.release i campaign)
        (s.upsertEntry i .release (campaign.creditsReserved - usedCredits campaign)) []
  | record {payload : Payload} {r : Nat} {model : Recipient}
      (h : recorded s (buildDedupeKey payload model.campaign r) = false) :
      Does s (.recordEvent payload r model) (recordEvent s payload model.campaign r)
        [.updateRecipient payload r model]
  | applyEvent {payload : Payload} {r : Nat} {model : Recipient} :
      Does s (.updateRecipient payload r model) (applyEvent s payload r model)
        [.tally model.campaign]

section Instructions
variable {s s' : Store} {n : Next Instr} {i : Nat} {campaign : Campaign}

/-- A campaign that is loaded is used next. -/
theorem loadCampaign_cases {instr : Instr} {next : Campaign → Instr}
    (huses : ∀ campaign, Uses i campaign instr (next campaign))
    (hsilent : Silent s instr)
    (h : loadCampaign s i (fun campaign => [next campaign]) = some (s', n)) :
    Does s instr s' (n.resume [] []) := by
  rw [loadCampaign] at h
  split at h
  next =>
    cases h
    exact .look .rest hsilent
  next campaign hrow =>
    cases h
    exact .look (.load hrow (huses campaign)) hsilent

/-- A campaign is loaded with its consent before `code` goes on. -/
theorem withConsent_cases {instr : Instr} {code : List Instr}
    (huses : ∀ campaign, Uses i campaign instr (.cancelForSafety i campaign))
    (hcode : ∀ campaign, s.campaigns[i]? = some campaign →
      isConsentRevokedOrExpired s campaign = false → Looks s instr code)
    (hsilent : Silent s instr)
    (h : withConsent s i code = some (s', n)) : Does s instr s' (n.resume [] []) := by
  rw [withConsent, loadCampaign] at h
  split at h
  next =>
    cases h
    exact .look .rest hsilent
  next campaign hrow =>
    cases h
    rw [Next.resume_go, List.append_nil]
    split
    next => exact .look (.load hrow (huses campaign)) hsilent
    next hconsent =>
      exact .look (hcode campaign hrow (Bool.eq_false_iff.mpr hconsent)) hsilent

theorem loadApproval_cases {k : Nat} (h : loadApproval s k = some (s', n)) :
    Does s (.loadApproval k) s' (n.resume [] []) := by
  rw [loadApproval] at h
  split at h
  next =>
    cases h
    exact .look .rest ⟨rfl, rfl, rfl, rfl⟩
  next consent hrow =>
    cases h
    exact .look (.loadApproval hrow) ⟨rfl, rfl, rfl, rfl⟩

theorem approveConsent_cases {k : Nat} {consent : Consent}
    (h : approveConsent s k consent = some (s', n)) :
    Does s (.approveConsent k consent) s' (n.resume [] []) := by
  rw [approveConsent] at h
  split_ifs at h with hstatus hexpired hrevoked
  · cases h
    exact .look .rest ⟨rfl, if_neg fun hall => hall.1 hstatus, rfl, rfl⟩
  · cases h
    refine .look .rest ⟨rfl, if_neg fun hall => ?_, rfl, rfl⟩
    rw [hexpired] at hall
    exact nomatch hall.2.1
  · cases h
    refine .look .rest ⟨rfl, if_neg fun hall => ?_, rfl, rfl⟩
    rcases hrevoked with hrevoked | hrevoked
    · exact hall.2.2.1 hrevoked
    · rw [hall.2.2.2] at hrevoked
      exact nomatch hrevoked
  · cases h
    have hall := not_or.mp hrevoked
    have hnone : consent.revokedAt = none := Option.not_isSome_iff_eq_none.mp hall.2
    exact .approve (if_pos ⟨hstatus, Bool.eq_false_iff.mpr hexpired, hall.1, hnone⟩)

theorem loadStart_cases {job k : Nat} {emails : List Text}
    (h : loadStart s job k emails = some (s', n)) :
    Does s (.loadStart job k emails) s' (n.resume [] []) := by
  rw [loadStart] at h
  split at h
  next =>
    cases h
    exact .look .rest ⟨rfl, rfl, rfl, rfl⟩
  next consent hrow =>
    split_ifs at h
    · cases h
      exact .look .rest ⟨rfl, rfl, rfl, rfl⟩
    · cases h
      exact .look .rest ⟨rfl, rfl, rfl, rfl⟩
    · cases h
      exact .look .rest ⟨rfl, rfl, rfl, rfl⟩
    · cases h
      exact .look .loadStart ⟨rfl, rfl, rfl, rfl⟩

theorem checkActive_cases {job k : Nat} {emails : List Text}
    (h : checkActive s job k emails = some (s', n)) :
    Does s (.checkActive job k emails) s' (n.resume [] []) := by
  rw [checkActive] at h
  split_ifs at h with hactive
  · cases h
    exact .look .rest ⟨rfl, rfl, rfl, rfl⟩
  · cases h
    exact .look .rest ⟨rfl, rfl, rfl, rfl⟩
  · cases h
    exact .look (.checkActive (Bool.eq_false_iff.mpr hactive)) ⟨rfl, rfl, rfl, rfl⟩

theorem pauseCampaign_cases (h : pauseCampaign s i campaign = some (s', n)) :
    Does s (.pauseCampaign i campaign) s' (n.resume [] []) := by
  rw [pauseCampaign] at h
  split_ifs at h with hstatus
  · cases h
    exact .status (if_pos hstatus) rfl
  · cases h
    exact .look .rest ⟨if_neg hstatus, rfl, rfl, rfl⟩

theorem cancelCampaign_cases (h : cancelCampaign s i campaign = some (s', n)) :
    Does s (.cancelCampaign i campaign) s' (n.resume [] []) := by
  rw [cancelCampaign] at h
  split_ifs at h with hstatus
  · cases h
    exact .look .rest ⟨rfl, rfl, rfl, if_pos hstatus⟩
  · cases h
    exact .cancel (Bool.eq_false_iff.mpr hstatus)

theorem cancelForSafety_cases (h : cancelForSafety s i campaign = some (s', n)) :
    Does s (.cancelForSafety i campaign) s' (n.resume [] []) := by
  rw [cancelForSafety] at h
  split_ifs at h with hstatus
  · cases h
    exact .look .rest ⟨rfl, rfl, rfl, if_pos hstatus⟩
  · cases h
    exact .cancelForSafety (Bool.eq_false_iff.mpr hstatus)

theorem resumeCampaign_cases (h : resumeCampaign s i campaign = some (s', n)) :
    Does s (.resumeCampaign i campaign) s' (n.resume [] []) := by
  rw [resumeCampaign] at h
  split_ifs at h with hstatus
  · cases h
    exact .look .rest ⟨if_neg hstatus, rfl, rfl, rfl⟩
  · cases h
    exact .status (if_pos (not_not.mp hstatus)) rfl

theorem selectRetry_cases {maxRecipients : Nat}
    (h : selectRetry s i campaign maxRecipients = some (s', n)) :
    Does s (.selectRetry i campaign maxRecipients) s' (n.resume [] []) := by
  rw [selectRetry] at h
  split_ifs at h
  · cases h
    exact .look .rest ⟨rfl, rfl, rfl, rfl⟩
  · cases h
    rw [Next.resume_go, List.append_nil]
    split
    · exact .look .rest ⟨rfl, rfl, rfl, rfl⟩
    · exact .look .selectRetry ⟨rfl, rfl, rfl, rfl⟩

theorem requeueCampaign_cases (h : requeueCampaign s i campaign = some (s', n)) :
    Does s (.requeueCampaign i campaign) s' (n.resume [] []) := by
  rw [requeueCampaign] at h
  cases h
  by_cases hstatus : campaign.status = .queued
  · have hsame : (s.updateCampaign i fun row =>
        { row with status := dirty campaign.status .queued row.status }) = s := by
      rw [hstatus]
      show (s.updateCampaign i fun row => row) = s
      rw [Store.updateCampaign]
      exact congrArg (fun l => { s with campaigns := l }) (List.modify_id i s.campaigns)
    rw [hsame]
    exact .look .rest ⟨if_neg (not_not.mpr hstatus), rfl, rfl, rfl⟩
  · have hset : (s.updateCampaign i fun row =>
        { row with status := dirty campaign.status .queued row.status }) =
        updateStatus s i .queued := by
      rw [updateStatus]
      congr 1
      funext row
      rw [dirty, if_neg (fun h => hstatus h.symm)]
    rw [hset]
    exact .status (if_pos hstatus) rfl

theorem guardDispatch_cases (h : guardDispatch s i = some (s', n)) :
    Does s (.guardDispatch i) s' (n.resume [] []) := by
  rw [guardDispatch] at h
  split at h
  next =>
    cases h
    exact .look .guard ⟨rfl, rfl, rfl, rfl⟩
  next => exact withConsent_cases (fun _ => .guard) (fun _ _ _ => .guard) ⟨rfl, rfl, rfl, rfl⟩ h

theorem claim_cases (h : claim s i = some (s', n)) :
    Does s (.claim i) s' (n.resume [] []) := by
  rw [claim] at h
  split at h
  next =>
    cases h
    exact .claimNothing
  next campaign hrow =>
    split_ifs at h with hended hstatus
    · cases h
      exact .claimNothing
    · cases h
      exact .claim hrow hstatus
    · cases h
      exact .claimNothing

theorem afterClaim_cases {ids : List Nat} {blocked : Bool}
    (h : afterClaim s i ids blocked = some (s', n)) :
    Does s (.afterClaim i ids blocked) s' (n.resume [] []) := by
  rw [afterClaim, loadCampaign] at h
  split at h
  next =>
    cases h
    exact .look .rest ⟨rfl, rfl, rfl, rfl⟩
  next campaign hrow =>
    cases h
    rw [Next.resume_go, List.append_nil]
    split_ifs
    · exact .look (.load hrow .blocked) ⟨rfl, rfl, rfl, rfl⟩
    · exact .look .rest ⟨rfl, rfl, rfl, rfl⟩
    · exact .look .afterClaim ⟨rfl, rfl, rfl, rfl⟩

theorem loadClaimed_cases {ids : List Nat} (h : loadClaimed s i ids = some (s', n)) :
    Does s (.loadClaimed i ids) s' (n.resume [] []) := by
  rw [loadClaimed] at h
  cases h
  rw [Next.resume_go, List.append_nil]
  split
  · exact .look .rest ⟨rfl, rfl, rfl, rfl⟩
  · refine .look (.loadClaimed (fun r hr => ?_) fun r hr => ?_) ⟨rfl, rfl, rfl, rfl⟩
    · exact of_decide_eq_true (List.mem_filter.mp hr).2
    · obtain ⟨row, hrow, hall⟩ := mem_recipientIds.mp (List.mem_filter.mp hr).1
      rw [Bool.and_eq_true, decide_eq_true_eq, decide_eq_true_eq] at hall
      exact ⟨row, hrow, hall⟩

theorem sendLoop_cases {rs : List Nat} (h : sendLoop s i rs = some (s', n)) :
    Does s (.sendLoop i rs) s' (n.resume [] []) := by
  rw [sendLoop.eq_def] at h
  cases rs with
  | nil =>
    cases h
    exact .look .sent ⟨rfl, rfl, rfl, rfl⟩
  | cons r rs => 
    exact withConsent_cases (fun _ => .loop) (fun _ => .send) ⟨rfl, rfl, rfl, rfl⟩ h

theorem send_cases {r : Nat} {rs : List Nat} (h : send s i r rs = some (s', n)) :
    Does s (.send i r rs) s' (n.resume [] []) := by
  rw [send] at h
  cases h
  refine .handOver ?_
  cases s.config.provider r s.sends.length with
  | some messageId => exact .inl ⟨messageId, rfl⟩
  | none => exact .inr rfl

theorem evaluateAndApply_cases (h : evaluateAndApply s i campaign = some (s', n)) :
    Does s (.evaluateAndApply i campaign) s' (n.resume [] []) := by
  rw [evaluateAndApply] at h
  cases h
  by_cases hpause : evaluate s.config campaign = true
  · rw [if_pos hpause]
    exact .status (if_pos hpause) rfl
  · rw [if_neg hpause]
    exact .look .rest ⟨if_neg hpause, rfl, rfl, rfl⟩

theorem loadReconcile_cases (h : loadReconcile s i = some (s', n)) :
    Does s (.loadReconcile i) s' (n.resume [] []) := by
  rw [loadReconcile, loadCampaign] at h
  split at h
  next =>
    cases h
    exact .look .rest ⟨rfl, rfl, rfl, rfl⟩
  next campaign hrow =>
    cases h
    rw [Next.resume_go, List.append_nil]
    split_ifs with hterminal
    · exact .look .rest ⟨rfl, rfl, rfl, rfl⟩
    · exact .look .rest ⟨rfl, rfl, rfl, rfl⟩
    · exact .look (.load hrow (.reconcile (Bool.eq_false_iff.mpr hterminal))) ⟨rfl, rfl, rfl, rfl⟩

theorem countOpen_cases (h : countOpen s i campaign = some (s', n)) :
    Does s (.countOpen i campaign) s' (n.resume [] []) := by
  rw [countOpen] at h
  split_ifs at h
  · cases h
    exact .look .rest ⟨rfl, rfl, rfl, rfl⟩
  · cases h
    exact .look .countOpen ⟨rfl, rfl, rfl, rfl⟩

theorem findRecipient_cases {payload : Payload} (h : findRecipient s payload = some (s', n)) :
    Does s (.findRecipient payload) s' (n.resume [] []) := by
  rw [findRecipient] at h
  split at h
  next =>
    cases h
    exact .look .rest ⟨rfl, rfl, rfl, rfl⟩
  next r hlocate =>
    split at h
    next =>
      cases h
      exact .look .rest ⟨rfl, rfl, rfl, rfl⟩
    next model hrow =>
      split_ifs at h
      · cases h
        exact .look .rest ⟨rfl, rfl, rfl, rfl⟩
      · cases h
        exact .look .rest ⟨rfl, rfl, rfl, rfl⟩
      · cases h
        exact .look (.findRecipient hrow) ⟨rfl, rfl, rfl, rfl⟩

theorem recordEventOnce_cases {payload : Payload} {r : Nat} {model : Recipient}
    (h : recordEventOnce s payload r model = some (s', n)) :
    Does s (.recordEvent payload r model) s' (n.resume [] []) := by
  rw [recordEventOnce] at h
  split_ifs at h with hrecorded
  · cases h
    exact .look .rest ⟨rfl, rfl, rfl, rfl⟩
  · cases h
    exact .record (Bool.eq_false_iff.mpr hrecorded)

end Instructions

theorem exec_cases {p : Nat} {instr : Instr} {s s' : Store} {n : Next Instr}
    (h : exec p instr s = some (s', n)) : Does s instr s' (n.resume [] []) := by
  cases instr with
  | loadApproval k => exact loadApproval_cases h
  | approveConsent k consent => exact approveConsent_cases h
  | revokeConsent k =>
    cases h
    exact .revoke
  | loadStart job k emails => exact loadStart_cases h
  | checkActive job k emails => exact checkActive_cases h
  | createCampaign job k emails =>
    cases h
    exact .create
  | loadPause i => exact loadCampaign_cases (fun _ => .pause) ⟨rfl, rfl, rfl, rfl⟩ h
  | pauseCampaign i campaign => exact pauseCampaign_cases h
  | loadCancel i => exact loadCampaign_cases (fun _ => .cancel) ⟨rfl, rfl, rfl, rfl⟩ h
  | cancelCampaign i campaign => exact cancelCampaign_cases h
  | loadResume i => exact loadCampaign_cases (fun _ => .resume) ⟨rfl, rfl, rfl, rfl⟩ h
  | resumeCampaign i campaign => exact resumeCampaign_cases h
  | loadRetry i maxRecipients => exact loadCampaign_cases (fun _ => .retry) ⟨rfl, rfl, rfl, rfl⟩ h
  | selectRetry i campaign maxRecipients => exact selectRetry_cases h
  | retryRecipients i campaign ids =>
    cases h
    exact .retry
  | requeueCampaign i campaign => exact requeueCampaign_cases h
  | guardDispatch i => exact guardDispatch_cases h
  | cancelForSafety i campaign => exact cancelForSafety_cases h
  | claim i => exact claim_cases h
  | afterClaim i ids blocked => exact afterClaim_cases h
  | loadClaimed i ids => exact loadClaimed_cases h
  | recheck i rs => exact 
      withConsent_cases (fun _ => .recheck) (fun _ _ _ => .recheck) ⟨rfl, rfl, rfl, rfl⟩ h
  | sendLoop i rs => exact sendLoop_cases h
  | send i r rs => exact send_cases h
  | markDispatched i r messageId rs =>
    cases h
    exact .markDispatched
  | markDeferred i r rs =>
    cases h
    exact .markDeferred
  | tally i =>
    cases h
    exact .look .tally ⟨rfl, rfl, rfl, rfl⟩
  | saveCounters i t =>
    cases h
    exact .saveCounters
  | loadGuardrails i => exact loadCampaign_cases (fun _ => .guardrails) ⟨rfl, rfl, rfl, rfl⟩ h
  | evaluateAndApply i campaign => exact evaluateAndApply_cases h
  | loadReconcile i => exact loadReconcile_cases h
  | countOpen i campaign => exact countOpen_cases h
  | deferOpen i campaign =>
    cases h
    exact .deferOpen
  | countFinal i campaign =>
    cases h
    exact .look .countFinal ⟨rfl, rfl, rfl, rfl⟩
  | completeCampaign i campaign t =>
    cases h
    exact .complete
  | refreshCompleted i => exact loadCampaign_cases (fun _ => .settle) ⟨rfl, rfl, rfl, rfl⟩ h
  | consume i campaign =>
    cases h
    exact .consume
  | release i campaign =>
    cases h
    exact .release
  | findRecipient payload => exact findRecipient_cases h
  | recordEvent payload r model => exact recordEventOnce_cases h
  | updateRecipient payload r model =>
    cases h
    exact .applyEvent

theorem Does.length_le {s s' : Store} {instr : Instr} {code : List Instr}
    (h : Does s instr s' code) : code.length ≤ 1 := by
  cases h with
  | look h =>
    cases h with
    | rest => exact Nat.zero_le _
    | _ => exact Nat.le_refl _
  | approve | revoke | create | status | cancel | cancelForSafety | release =>
    exact Nat.zero_le _
  | _ => exact Nat.le_refl _

/-! ## What an action does -/

/-- The instructions that a process starts with. -/
def starts : Instr → Bool
  | .loadApproval _ | .revokeConsent _ | .loadStart _ _ _ | .loadPause _ | .loadCancel _
  | .loadResume _ | .loadRetry _ _ | .guardDispatch _ | .loadReconcile _
  | .findRecipient _ => true
  | _ => false

/-- What the environment does to the store. -/
inductive Environ (s : Store) : Store → Prop
  | tick (seconds : Nat) : Environ s { s with now := s.now + seconds }
  | requestConsent (expiresAt : Option Nat) :
      Environ s { s with consents := s.consents ++ [{ expiresAt := expiresAt }] }

/-- The instruction that a step executes. -/
def nextInstr (c : State) : Action → Option Instr
  | .exec p => c.nextAt p
  | _ => none

theorem nextInstr_exec {c : State} {p : Nat} {k : Kind} {i : Instr} {rest : List Instr}
    (h : c.At p k (i :: rest)) : nextInstr c (.exec p) = some i := Conf.nextAt_eq h

/-- A step, by shape. -/
inductive Shape (c : State) : Action → State → Prop
  | environ {a : Action} {s' : Store} (ha : nextInstr c a = none) (h : Environ c.store s') :
      Shape c a (withStore c s')
  | start {a : Action} {k : Kind} {i : Instr} (ha : nextInstr c a = none)
      (h : starts i = true) : Shape c a (c.spawn k [i])
  | crash {p : Nat} : Shape c (.crash p) (c.setCode p [])
  | exec {p : Nat} {k : Kind} {i : Instr} {s' : Store} {code : List Instr}
      (hat : c.At p k [i]) (hdoes : Does c.store i s' code) :
      Shape c (.exec p) ((withStore c s').setCode p code)

theorem act_cases {c c' : State} {a : Action} (hone : c.OneLeft) (h : act c a = some c') :
    Shape c a c' := by
  cases a with
  | tick seconds =>
    cases h
    exact .environ rfl (.tick seconds)
  | requestConsent expiresAt =>
    cases h
    exact .environ rfl (.requestConsent expiresAt)
  | approve | revoke | start | pause | cancel | resume | retry | dispatch | reconcile | event =>
    cases h
    exact .start rfl rfl
  | exec p =>
    obtain ⟨k, i, s', n, hat, hexec, rfl⟩ := hone.execAt_cases h
    exact .exec hat (exec_cases hexec)
  | crash p =>
    cases h
    exact .crash

theorem oneLeft_act {c c' : State} {a : Action} (hone : c.OneLeft) (h : act c a = some c') :
    c'.OneLeft := by
  cases act_cases hone h with
  | environ => exact hone
  | start => exact hone.spawn _ (Nat.le_refl _)
  | crash => exact hone.setCode _ (Nat.zero_le _)
  | @exec p k i s' code hat hdoes =>
    have hone' : (withStore c s').OneLeft := hone
    exact hone'.setCode p hdoes.length_le

end ValidEmailVerifier.SeedSend
