/-
# `SeedSend.Machine` — operators, dispatch batches, reconciliation and provider events

Every request and every job works on the store one statement or one transaction at a time, and
any of them may take the next step.  A model that was loaded is an argument of the instruction
that uses it; so is what is left of a loop, and a process never has more than one instruction
left.

A job that was queued may be delivered at any moment, also twice, so the queue itself is not
modelled.  A process may stop for good before any of its steps.
-/
import ValidEmailVerifier.Lib.Processes
import ValidEmailVerifier.Lib.Transition
import ValidEmailVerifier.SeedSend.Campaigns

namespace ValidEmailVerifier.SeedSend

open Processes

/-! ## Instructions -/

inductive Instr where
  | loadApproval (k : Nat)
  | approveConsent (k : Nat) (consent : Consent)
  | revokeConsent (k : Nat)
  /-- The consent and the job are loaded for `startCampaign`. -/
  | loadStart (job k : Nat) (emails : List Text)
  | checkActive (job k : Nat) (emails : List Text)
  | createCampaign (job k : Nat) (emails : List Text)
  | loadPause (i : Nat)
  | pauseCampaign (i : Nat) (campaign : Campaign)
  | loadCancel (i : Nat)
  | cancelCampaign (i : Nat) (campaign : Campaign)
  | loadResume (i : Nat)
  | resumeCampaign (i : Nat) (campaign : Campaign)
  /-- `retryDeferredOrFailedRecipients`. -/
  | loadRetry (i : Nat) (maxRecipients : Nat)
  | selectRetry (i : Nat) (campaign : Campaign) (maxRecipients : Nat)
  | retryRecipients (i : Nat) (campaign : Campaign) (ids : List Nat)
  | requeueCampaign (i : Nat) (campaign : Campaign)
  /-- `DispatchSeedSendCampaignJob`. -/
  | guardDispatch (i : Nat)
  | cancelForSafety (i : Nat) (campaign : Campaign)
  | claim (i : Nat)
  | afterClaim (i : Nat) (ids : List Nat) (blocked : Bool)
  | loadClaimed (i : Nat) (ids : List Nat)
  | recheck (i : Nat) (rs : List Nat)
  | sendLoop (i : Nat) (rs : List Nat)
  | send (i r : Nat) (rs : List Nat)
  | markDispatched (i r : Nat) (messageId : Text) (rs : List Nat)
  | markDeferred (i r : Nat) (rs : List Nat)
  /-- `refreshCampaignCounters` and the guardrails. -/
  | tally (i : Nat)
  | saveCounters (i : Nat) (t : Totals)
  | loadGuardrails (i : Nat)
  | evaluateAndApply (i : Nat) (campaign : Campaign)
  /-- `ReconcileSeedSendCampaignJob`. -/
  | loadReconcile (i : Nat)
  | countOpen (i : Nat) (campaign : Campaign)
  | deferOpen (i : Nat) (campaign : Campaign)
  | countFinal (i : Nat) (campaign : Campaign)
  | completeCampaign (i : Nat) (campaign : Campaign) (t : Totals)
  | refreshCompleted (i : Nat)
  | consume (i : Nat) (campaign : Campaign)
  | release (i : Nat) (campaign : Campaign)
  /-- `ingest`. -/
  | findRecipient (payload : Payload)
  | recordEvent (payload : Payload) (r : Nat) (model : Recipient)
  | updateRecipient (payload : Payload) (r : Nat) (model : Recipient)
  deriving DecidableEq

inductive Kind where
  | operator
  | dispatch (i : Nat)
  | reconcile (i : Nat)
  | ingest
  deriving DecidableEq

abbrev Effect := Option (Store × Next Instr)

section Requests
variable (s : Store) (i : Nat) (campaign : Campaign)

/-- A model that is there is loaded, and used next. -/
def loadCampaign (next : Campaign → List Instr) : Effect :=
  match s.campaigns[i]? with
  | none => some (s, .go [])
  | some campaign => some (s, .go (next campaign))

def updateStatus (status : CampaignStatus) : Store :=
  s.updateCampaign i fun row => { row with status := status }

/-! ### Operators -/

def loadApproval (k : Nat) : Effect :=
  match s.consents[k]? with
  | none => some (s, .go [])
  | some consent => some (s, .go [.approveConsent k consent])

def approveConsent (k : Nat) (consent : Consent) : Effect :=
  if consent.status = .approved then some (s, .go [])
  else if isConsentExpired s.now consent then some (s, .raise)
  else if consent.status = .revoked ∨ consent.revokedAt.isSome then some (s, .raise)
  else
    some (s.updateConsent k fun row =>
        { row with
          status := .approved
          revokedAt := dirty consent.revokedAt none row.revokedAt },
      .go [])

def loadStart (job k : Nat) (emails : List Text) : Effect :=
  match s.consents[k]? with
  | none => some (s, .go [])
  | some consent =>
      if consent.status ≠ .approved then some (s, .raise)
      else if isConsentExpired s.now consent then some (s, .raise)
      else if consent.revokedAt.isSome then some (s, .raise)
      else some (s, .go [.checkActive job k emails])

def checkActive (job k : Nat) (emails : List Text) : Effect :=
  if activeCampaignExists s job then some (s, .raise)
  else if emails = [] then some (s, .raise)
  else some (s, .go [.createCampaign job k emails])

def pauseCampaign : Effect :=
  if campaign.status ∉ [CampaignStatus.queued, .running] then some (s, .raise)
  else some (updateStatus s i .paused, .go [])

/-- A campaign in a terminal state is not cancelled. -/
def terminal (status : CampaignStatus) : Bool :=
  status ∈ [CampaignStatus.completed, .failed, .cancelled]

def cancelCampaign : Effect :=
  if terminal campaign.status then some (s, .raise)
  else some (transitionToCancelled s i, .go [])

def resumeCampaign : Effect :=
  if campaign.status ≠ .paused then some (s, .raise)
  else some (updateStatus s i .queued, .go [])

def selectRetry (maxRecipients : Nat) : Effect :=
  if campaign.status ∈ [CampaignStatus.cancelled, .failed] then some (s, .raise)
  else
    let ids := (recipientIds s fun row =>
      row.campaign = i && row.status ∈ [RecipientStatus.deferred, .failed]).take
        (max 1 maxRecipients)
    some (s, .go (if ids = [] then [] else [.retryRecipients i campaign ids]))

def retried (row : Recipient) : Recipient :=
  { row with status := .pending, providerMessageId := none }

def retryRecipients (ids : List Nat) : Effect :=
  some (ids.foldl (fun s r => s.updateRecipient r retried) s, .go [.requeueCampaign i campaign])

def requeueCampaign : Effect :=
  some (s.updateCampaign i fun row =>
    { row with status := dirty campaign.status .queued row.status }, .go [])

/-! ### The dispatch of a batch -/

/-- The campaign is loaded with its consent; without consent the batch is over. -/
def withConsent (next : List Instr) : Effect :=
  loadCampaign s i fun campaign =>
    if isConsentRevokedOrExpired s campaign then [.cancelForSafety i campaign] else next

def guardDispatch : Effect :=
  match s.campaigns[i]? with
  | none => some (s, .go [.claim i])
  | some _ => withConsent s i [.claim i]

def cancelForSafety : Effect :=
  if terminal campaign.status then some (s, .go [])
  else some (transitionToCancelled s i, .go [])

/-- A queued campaign runs from its first batch. -/
def startRunning (row : Campaign) : Campaign :=
  if row.status = .queued then
    { row with status := .running, startedAt := some (row.startedAt.getD s.now) }
  else row

/-- The transaction of `handle`. -/
def claim : Effect :=
  match s.campaigns[i]? with
  | none => some (s, .go [.afterClaim i [] false])
  | some campaign =>
      if isConsentRevokedOrExpired s campaign then some (s, .go [.afterClaim i [] true])
      else if campaign.status ∉ [CampaignStatus.queued, .running] then
        some (s, .go [.afterClaim i [] false])
      else
        let s := s.updateCampaign i (startRunning s)
        let ids := batch s i
        some (claimBatch s ids, .go [.afterClaim i ids false])

def afterClaim (ids : List Nat) (blocked : Bool) : Effect :=
  loadCampaign s i fun campaign =>
    if blocked || isConsentRevokedOrExpired s campaign then [.cancelForSafety i campaign]
    else if ids = [] then []
    else [.loadClaimed i ids]

def loadClaimed (ids : List Nat) : Effect :=
  let rs := (recipientIds s fun row => row.campaign = i && row.status = .dispatching).filter
    (· ∈ ids)
  some (s, .go (if rs = [] then [] else [.recheck i rs]))

def sendLoop (rs : List Nat) : Effect :=
  match rs with
  | [] => some (s, .go [.tally i])
  | r :: rs => withConsent s i [.send i r rs]

/-- The recipient is handed to the provider. -/
def handOver (r : Nat) : Store :=
  { s.updateRecipient r fun row => { row with sent := true } with sends := s.sends ++ [(i, r)] }

def send (r : Nat) (rs : List Nat) : Effect :=
  some (handOver s i r,
    .go [match s.config.provider r s.sends.length with
      | some messageId => .markDispatched i r messageId rs
      | none => .markDeferred i r rs])

def markDispatched (r : Nat) (messageId : Text) (rs : List Nat) : Effect :=
  some (s.updateRecipient r fun row =>
      if row.status = .dispatching then
        { row with status := .dispatched, providerMessageId := some messageId }
      else row,
    .go [.sendLoop i rs])

def markDeferred (r : Nat) (rs : List Nat) : Effect :=
  some (s.updateRecipient r fun row =>
      if row.status = .dispatching then { row with status := .deferred } else row,
    .go [.sendLoop i rs])

def evaluateAndApply : Effect :=
  some (if evaluate s.config campaign then updateStatus s i .paused else s, .go [])

/-! ### Reconciliation -/

/-- The statuses of a recipient that is open. -/
def isOpen (row : Recipient) : Bool :=
  row.status ∈ [RecipientStatus.pending, .dispatching, .dispatched]

def loadReconcile : Effect :=
  loadCampaign s i fun campaign =>
    if terminal campaign.status then []
    else if campaign.status = .paused then []
    else [.countOpen i campaign]

/-- The campaign has open recipients and has been started not long ago: later again. -/
def countOpen : Effect :=
  if 0 < s.countRecipients i isOpen ∧
      campaign.startedAt.any (s.now < · + max 60 s.config.maxPendingAge) then
    some (s, .go [])
  else some (s, .go [.deferOpen i campaign])

def deferOpen : Effect :=
  some (s.updateRecipients (fun row => row.campaign = i && isOpen row) fun row =>
      { row with status := .deferred, lastEventAt := some s.now },
    .go [.countFinal i campaign])

/-- What reconciliation counts as sent. -/
def sentFinal (t : Totals) : Nat := t.delivered + t.bounced + t.deferred + t.failed

/-- The update of the campaign, by the model that was loaded. -/
def completed (t : Totals) (row : Campaign) : Campaign :=
  { row with
    status := dirty campaign.status .completed row.status
    sentCount := dirty campaign.sentCount (sentFinal t) row.sentCount
    deliveredCount := dirty campaign.deliveredCount t.delivered row.deliveredCount
    bouncedCount := dirty campaign.bouncedCount t.bounced row.bouncedCount
    deferredCount := dirty campaign.deferredCount t.deferred row.deferredCount
    creditsUsed :=
      dirty campaign.creditsUsed (sentFinal t * s.creditsPerRecipient) row.creditsUsed }

def completeCampaign (t : Totals) : Effect :=
  some (s.updateCampaign i (completed s campaign t), .go [.refreshCompleted i])

/-- The credits that `settleCampaign` takes. -/
def usedCredits : Nat := min campaign.creditsUsed campaign.creditsReserved

def consume : Effect :=
  some (s.upsertEntry i .consume (usedCredits campaign), .go [.release i campaign])

def release : Effect :=
  some (s.upsertEntry i .release (campaign.creditsReserved - usedCredits campaign), .go [])

/-! ### Provider events -/

def findRecipient (payload : Payload) : Effect :=
  match locate s payload with
  | none => some (s, .raise)
  | some r =>
      match s.recipients[r]? with
      | none => some (s, .raise)
      | some model =>
          if s.campaigns[model.campaign]? = none then some (s, .raise)
          else if payload.campaign.any (· ≠ model.campaign) then some (s, .raise)
          else some (s, .go [.recordEvent payload r model])

def recordEventOnce (payload : Payload) (r : Nat) (model : Recipient) : Effect :=
  if recorded s (buildDedupeKey payload model.campaign r) then some (s, .go [])
  else some (recordEvent s payload model.campaign r, .go [.updateRecipient payload r model])

end Requests

/-- Execute an instruction. -/
def exec (_ : Nat) (instr : Instr) (s : Store) : Effect :=
  match instr with
  | .loadApproval k => loadApproval s k
  | .approveConsent k consent => approveConsent s k consent
  | .revokeConsent k => some (revoke s k, .go [])
  | .loadStart job k emails => loadStart s job k emails
  | .checkActive job k emails => checkActive s job k emails
  | .createCampaign job k emails => some (createCampaign s job k emails, .go [])
  | .loadPause i => loadCampaign s i fun campaign => [.pauseCampaign i campaign]
  | .pauseCampaign i campaign => pauseCampaign s i campaign
  | .loadCancel i => loadCampaign s i fun campaign => [.cancelCampaign i campaign]
  | .cancelCampaign i campaign => cancelCampaign s i campaign
  | .loadResume i => loadCampaign s i fun campaign => [.resumeCampaign i campaign]
  | .resumeCampaign i campaign => resumeCampaign s i campaign
  | .loadRetry i maxRecipients =>
      loadCampaign s i fun campaign => [.selectRetry i campaign maxRecipients]
  | .selectRetry i campaign maxRecipients => selectRetry s i campaign maxRecipients
  | .retryRecipients i campaign ids => retryRecipients s i campaign ids
  | .requeueCampaign i campaign => requeueCampaign s i campaign
  | .guardDispatch i => guardDispatch s i
  | .cancelForSafety i campaign => cancelForSafety s i campaign
  | .claim i => claim s i
  | .afterClaim i ids blocked => afterClaim s i ids blocked
  | .loadClaimed i ids => loadClaimed s i ids
  | .recheck i rs => withConsent s i [.sendLoop i rs]
  | .sendLoop i rs => sendLoop s i rs
  | .send i r rs => send s i r rs
  | .markDispatched i r messageId rs => markDispatched s i r messageId rs
  | .markDeferred i r rs => markDeferred s i r rs
  | .tally i => some (s, .go [.saveCounters i (totals s i)])
  | .saveCounters i t => some (saveCounters s i t, .go [.loadGuardrails i])
  | .loadGuardrails i => loadCampaign s i fun campaign => [.evaluateAndApply i campaign]
  | .evaluateAndApply i campaign => evaluateAndApply s i campaign
  | .loadReconcile i => loadReconcile s i
  | .countOpen i campaign => countOpen s i campaign
  | .deferOpen i campaign => deferOpen s i campaign
  | .countFinal i campaign => some (s, .go [.completeCampaign i campaign (totals s i)])
  | .completeCampaign i campaign t => completeCampaign s i campaign t
  | .refreshCompleted i => loadCampaign s i fun campaign => [.consume i campaign]
  | .consume i campaign => consume s i campaign
  | .release i campaign => release s i campaign
  | .findRecipient payload => findRecipient s payload
  | .recordEvent payload r model => recordEventOnce s payload r model
  | .updateRecipient payload r model =>
      some (applyEvent s payload r model, .go [.tally model.campaign])

/-- An exception ends the request. -/
def handler : Kind → List Instr → List Instr := fun _ _ => []

/-! ## The system -/

abbrev State := Conf Store Kind Instr

inductive Action where
  | tick (seconds : Nat)
  | requestConsent (expiresAt : Option Nat)
  | approve (k : Nat)
  | revoke (k : Nat)
  | start (job k : Nat) (emails : List Text)
  | pause (i : Nat)
  | cancel (i : Nat)
  | resume (i : Nat)
  | retry (i : Nat) (maxRecipients : Nat)
  | dispatch (i : Nat)
  | reconcile (i : Nat)
  | event (payload : Payload)
  | exec (p : Nat)
  | crash (p : Nat)

def withStore (c : State) (s : Store) : State := { c with store := s }

def act (c : State) : Action → Option State
  | .tick seconds => some (withStore c { c.store with now := c.store.now + seconds })
  | .requestConsent expiresAt =>
      some (withStore c { c.store with
        consents := c.store.consents ++ [{ expiresAt := expiresAt }] })
  | .approve k => some (c.spawn .operator [.loadApproval k])
  | .revoke k => some (c.spawn .operator [.revokeConsent k])
  | .start job k emails => some (c.spawn .operator [.loadStart job k emails])
  | .pause i => some (c.spawn .operator [.loadPause i])
  | .cancel i => some (c.spawn .operator [.loadCancel i])
  | .resume i => some (c.spawn .operator [.loadResume i])
  | .retry i maxRecipients => some (c.spawn .operator [.loadRetry i maxRecipients])
  | .dispatch i => some (c.spawn (.dispatch i) [.guardDispatch i])
  | .reconcile i => some (c.spawn (.reconcile i) [.loadReconcile i])
  | .event payload => some (c.spawn .ingest [.findRecipient payload])
  | .exec p => c.execAt exec handler p
  | .crash p => some (c.setCode p [])

/-- The seed-send subsystem. -/
def seedSend : Transition.System State Action := ⟨act⟩

end ValidEmailVerifier.SeedSend
