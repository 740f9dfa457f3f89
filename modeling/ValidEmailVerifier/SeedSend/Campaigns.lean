/-
# `SeedSend.Campaigns` — consents, campaigns, recipients and the credit ledger

The rows that the seed-send services share, and what one statement or one transaction does to
them: the cancellation with its settlement, the claim of a batch, the counters of a campaign,
the guardrails, and the record of a provider event.

* The config is fixed.  What a provider answers is a function of the config, so any answers.
* Campaigns, consents and recipients are numbered in the order of their creation.
* The hash of a dedupe key is taken by what it is made of.
* The fields `sent`, `marked` and `sends` are the model's own; the code never reads them.
-/
import ValidEmailVerifier.Lib.Text
import ValidEmailVerifier.Pipeline.Schema
import Mathlib.Data.Rat.Defs
import Mathlib.Algebra.Order.Ring.Rat

namespace ValidEmailVerifier.SeedSend

/-! ## The rows -/

inductive ConsentStatus where
  | requested | approved | rejected | revoked
  deriving DecidableEq

inductive CampaignStatus where
  | pending | queued | running | paused | completed | failed | cancelled
  deriving DecidableEq

inductive RecipientStatus where
  | pending | dispatching | dispatched | delivered | bounced | deferred | failed
  deriving DecidableEq

structure Consent where
  status : ConsentStatus := .requested
  expiresAt : Option Nat := none
  revokedAt : Option Nat := none
  deriving DecidableEq

structure Campaign where
  job : Nat
  consent : Nat
  status : CampaignStatus := .queued
  sentCount : Nat := 0
  deliveredCount : Nat := 0
  bouncedCount : Nat := 0
  deferredCount : Nat := 0
  creditsReserved : Nat
  creditsUsed : Nat := 0
  startedAt : Option Nat := none
  deriving DecidableEq

structure Recipient where
  campaign : Nat
  email : Text
  status : RecipientStatus := .pending
  attemptCount : Nat := 0
  providerMessageId : Option Text := none
  lastEventAt : Option Nat := none
  /-- It has been handed to the provider. -/
  sent : Bool := false
  /-- A cancellation has set its status. -/
  marked : Bool := false
  deriving DecidableEq

inductive EntryType where
  | reserve | consume | release
  deriving DecidableEq

inductive EventType where
  | delivered | bounced | deferred | failed
  deriving DecidableEq

/-- What the hash of a dedupe key is made of. -/
inductive DedupeKey where
  | external (provider : Text) (campaign : Nat) (eventId : Text)
  | fields (provider : Text) (campaign recipient : Nat) (providerMessageId : Option Text)
      (eventType : EventType) (eventTime : Option Nat) (smtpCode enhancedCode : Option Text)
  deriving DecidableEq

/-- A row of `seed_send_events`. -/
structure Event where
  dedupeKey : DedupeKey
  recipient : Nat
  eventType : EventType
  eventTime : Option Nat
  deriving DecidableEq

structure Config where
  /-- `seed_send.credits.per_recipient`. -/
  perRecipient : Nat := 1
  batchSize : Nat := 25
  /-- `seed_send.reconcile.max_pending_age_minutes`, in seconds. -/
  maxPendingAge : Nat := 7200
  autoPauseEnabled : Bool := true
  minSampleSize : Nat := 25
  bounceRatePausePercent : Rat := 20
  deferRatePausePercent : Rat := 40
  /-- The message id that the provider gives for a recipient, after that many sends, if it
  raises no exception. -/
  provider : Nat → Nat → Option Text := fun _ _ => none

structure Store where
  now : Nat := 0
  config : Config := {}
  consents : List Consent := []
  campaigns : List Campaign := []
  recipients : List Recipient := []
  /-- `seed_send_credit_ledger`: the credits of an entry of a campaign. -/
  ledger : Nat → EntryType → Option Nat := fun _ _ => none
  events : List Event := []
  /-- The recipients that have been handed to the provider, each with the campaign. -/
  sends : List (Nat × Nat) := []

namespace Store

variable (s : Store)

def updateConsent (k : Nat) (f : Consent → Consent) : Store :=
  { s with consents := s.consents.modify k f }

def updateCampaign (i : Nat) (f : Campaign → Campaign) : Store :=
  { s with campaigns := s.campaigns.modify i f }

def updateRecipient (r : Nat) (f : Recipient → Recipient) : Store :=
  { s with recipients := s.recipients.modify r f }

/-- An update with a condition. -/
def updateRecipients (p : Recipient → Bool) (f : Recipient → Recipient) : Store :=
  { s with recipients := s.recipients.map fun row => if p row then f row else row }

/-- `updateOrCreate` by the reference key. -/
def upsertEntry (i : Nat) (type : EntryType) (credits : Nat) : Store :=
  { s with ledger := fun i' type' =>
      if i' = i ∧ type' = type then some credits else s.ledger i' type' }

def creditsPerRecipient : Nat := max 1 s.config.perRecipient

/-- The recipients of a campaign that meet a condition, counted. -/
def countRecipients (i : Nat) (p : Recipient → Bool) : Nat :=
  s.recipients.countP fun row => row.campaign = i && p row

end Store

/-! ## Counters -/

/-- The recipients of a campaign by status. -/
structure Totals where
  dispatched : Nat
  delivered : Nat
  bounced : Nat
  deferred : Nat
  failed : Nat
  deriving DecidableEq

def Totals.sent (t : Totals) : Nat :=
  t.dispatched + t.delivered + t.bounced + t.deferred + t.failed

def totals (s : Store) (i : Nat) : Totals :=
  { dispatched := s.countRecipients i (·.status = .dispatched)
    delivered := s.countRecipients i (·.status = .delivered)
    bounced := s.countRecipients i (·.status = .bounced)
    deferred := s.countRecipients i (·.status = .deferred)
    failed := s.countRecipients i (·.status = .failed) }

/-- The update of `refreshCampaignCounters`. -/
def saveCounters (s : Store) (i : Nat) (t : Totals) : Store :=
  s.updateCampaign i fun row =>
    { row with
      sentCount := t.sent
      deliveredCount := t.delivered
      bouncedCount := t.bounced
      deferredCount := t.deferred }

/-! ## Consent -/

/-- `$consent->expires_at->lte(now())`. -/
def isConsentExpired (now : Nat) (consent : Consent) : Bool := consent.expiresAt.any (· ≤ now)

def isConsentRevokedOrExpired (s : Store) (campaign : Campaign) : Bool :=
  match s.consents[campaign.consent]? with
  | none => true
  | some consent =>
      consent.status = .revoked || consent.revokedAt.isSome || isConsentExpired s.now consent

/-! ## The credit ledger -/

/-- `reserveForCampaign`. -/
def reserveForCampaign (s : Store) (i : Nat) (credits : Nat) : Store :=
  if credits = 0 then s else s.upsertEntry i .reserve credits

/-- What `settleCancellation` takes for an attempt. -/
def attempted (row : Recipient) : Bool :=
  0 < row.attemptCount ||
    row.status ∈ [RecipientStatus.dispatched, .delivered, .bounced, .deferred]

/-- `settleCancellation`, for the campaign as it is. -/
def settleCancellation (s : Store) (i : Nat) (campaign : Campaign) : Store :=
  let used :=
    if 0 < s.countRecipients i (fun _ => true) then
      s.countRecipients i attempted * s.creditsPerRecipient
    else campaign.sentCount * s.creditsPerRecipient
  let used := min used campaign.creditsReserved
  (s.upsertEntry i .consume used).upsertEntry i .release (campaign.creditsReserved - used)

/-! ## Cancellation -/

/-- A pending recipient fails. -/
def failPending (now : Nat) (row : Recipient) : Recipient :=
  if row.status = .pending then
    { row with status := .failed, lastEventAt := some now, marked := true }
  else row

/-- A recipient under way is deferred. -/
def deferDispatched (now : Nat) (row : Recipient) : Recipient :=
  if row.status ∈ [RecipientStatus.dispatching, .dispatched] then
    { row with status := .deferred, lastEventAt := some now, marked := true }
  else row

/-- The recipients and the campaign get their statuses. -/
def markCancelled (s : Store) (i : Nat) : Store :=
  let s := s.updateRecipients (·.campaign = i) (failPending s.now)
  let s := s.updateRecipients (·.campaign = i) (deferDispatched s.now)
  let t := totals s i
  s.updateCampaign i fun row =>
    { row with
      status := .cancelled
      sentCount := t.sent
      deliveredCount := t.delivered
      bouncedCount := t.bounced
      deferredCount := t.deferred }

/-- The transaction of `transitionCampaignToCancelledState`. -/
def transitionToCancelled (s : Store) (i : Nat) : Store :=
  let s := markCancelled s i
  match s.campaigns[i]? with
  | none => s
  | some campaign => settleCancellation s i campaign

/-- The campaigns that `revokeConsent` stops. -/
def restingOn (s : Store) (k : Nat) : List Nat :=
  (List.range s.campaigns.length).filter fun i =>
    s.campaigns[i]?.any fun row =>
      row.consent = k && row.status ∈ [CampaignStatus.queued, .running, .paused]

/-- The transaction of `revokeConsent`: the consent, and the campaigns that rest on it. -/
def revoke (s : Store) (k : Nat) : Store :=
  (restingOn s k).foldl transitionToCancelled
    (s.updateConsent k fun row => { row with status := .revoked, revokedAt := some s.now })

/-! ## The start of a campaign -/

/-- The statuses that `activeCampaignExists` asks for. -/
def active (status : CampaignStatus) : Bool :=
  status ∈ [CampaignStatus.pending, .queued, .running, .paused]

def activeCampaignExists (s : Store) (job : Nat) : Bool :=
  s.campaigns.any fun row => row.job = job && active row.status

/-- The transaction of `startCampaign`. -/
def createCampaign (s : Store) (job k : Nat) (emails : List Text) : Store :=
  let i := s.campaigns.length
  let credits := s.creditsPerRecipient * emails.length
  let s := { s with
    campaigns := s.campaigns ++ [{ job := job, consent := k, creditsReserved := credits }]
    recipients := s.recipients ++ emails.map fun email => { campaign := i, email := email } }
  reserveForCampaign s i credits

/-! ## The claim of a batch -/

/-- The recipients of a campaign with a status, by number. -/
def recipientIds (s : Store) (p : Recipient → Bool) : List Nat :=
  (List.range s.recipients.length).filter fun r => s.recipients[r]?.any p

theorem mem_recipientIds {s : Store} {p : Recipient → Bool} {r : Nat} :
    r ∈ recipientIds s p ↔ ∃ row, s.recipients[r]? = some row ∧ p row = true := by
  rw [recipientIds, List.mem_filter, List.mem_range, Option.any_eq_true]
  constructor
  · rintro ⟨-, h⟩
    exact h
  · rintro ⟨row, hrow, h⟩
    exact ⟨(List.getElem?_eq_some_iff.mp hrow).1, row, hrow, h⟩

def claimed (row : Recipient) : Recipient :=
  if row.status = .pending then
    { row with status := .dispatching, attemptCount := row.attemptCount + 1 }
  else row

/-- The recipients of a batch. -/
def batch (s : Store) (i : Nat) : List Nat :=
  (recipientIds s fun row => row.campaign = i && row.status = .pending).take
    (max 1 s.config.batchSize)

theorem mem_batch {s : Store} {i r : Nat} (h : r ∈ batch s i) :
    ∃ row, s.recipients[r]? = some row ∧ row.campaign = i ∧ row.status = .pending := by
  obtain ⟨row, hrow, hall⟩ := mem_recipientIds.mp (List.mem_of_mem_take h)
  rw [Bool.and_eq_true, decide_eq_true_eq, decide_eq_true_eq] at hall
  exact ⟨row, hrow, hall⟩

/-- The batch is claimed. -/
def claimBatch (s : Store) (ids : List Nat) : Store :=
  ids.foldl (fun s r => s.updateRecipient r claimed) s

/-! ## The guardrails -/

/-- A rate has reached the threshold of its kind. -/
def reaches (count sent : Nat) (threshold : Rat) : Bool :=
  max 1 threshold ≤ (count : Rat) / sent * 100

/-- `evaluateAndApply` pauses the campaign. -/
def evaluate (config : Config) (campaign : Campaign) : Bool :=
  config.autoPauseEnabled && campaign.status ∈ [CampaignStatus.running, .queued] &&
    max 1 config.minSampleSize ≤ campaign.sentCount &&
    (reaches campaign.bouncedCount campaign.sentCount config.bounceRatePausePercent ||
      reaches campaign.deferredCount campaign.sentCount config.deferRatePausePercent)

/-! ## Provider events -/

/-- The payload of an event, trimmed, with the email in lower case if it is valid. -/
structure Payload where
  provider : Text
  providerMessageId : Option Text
  email : Option Text
  campaign : Option Nat
  eventType : Text
  eventTime : Option Nat
  smtpCode : Option Text
  enhancedCode : Option Text
  eventId : Option Text
  deriving DecidableEq

def normalizeEventType (eventType : Text) : EventType :=
  if eventType ∈ ["delivered".toList, "delivery".toList] then .delivered
  else if eventType ∈ ["bounce".toList, "bounced".toList] then .bounced
  else if eventType ∈ ["deferred".toList, "tempfail".toList] then .deferred
  else if eventType ∈ ["failed".toList, "dropped".toList, "reject".toList] then .failed
  else .deferred

def recipientStatusForEvent : EventType → RecipientStatus
  | .delivered => .delivered
  | .bounced => .bounced
  | .failed => .failed
  | .deferred => .deferred

/-- `latest('id')->first()`. -/
def latest (s : Store) (p : Recipient → Bool) : Option Nat := (recipientIds s p).getLast?

/-- The recipient of an event: by the message id, else by the campaign and the email. -/
def locate (s : Store) (payload : Payload) : Option Nat :=
  (payload.providerMessageId.bind fun id => latest s (·.providerMessageId = some id)) <|>
    match payload.campaign, payload.email with
    | some i, some email => latest s fun row => row.campaign = i && row.email = email
    | _, _ => none

/-- `buildDedupeKey`. -/
def buildDedupeKey (payload : Payload) (campaign recipient : Nat) : DedupeKey :=
  match payload.eventId with
  | some eventId => .external payload.provider campaign eventId
  | none => .fields payload.provider campaign recipient payload.providerMessageId
      (normalizeEventType payload.eventType) payload.eventTime payload.smtpCode
      payload.enhancedCode

def recorded (s : Store) (key : DedupeKey) : Bool := s.events.any (·.dedupeKey = key)

/-- `firstOrCreate`, where no row has the key. -/
def recordEvent (s : Store) (payload : Payload) (campaign recipient : Nat) : Store :=
  { s with events := s.events ++
      [{ dedupeKey := buildDedupeKey payload campaign recipient
         recipient := recipient
         eventType := normalizeEventType payload.eventType
         eventTime := payload.eventTime }] }

/-- The update of the recipient, by the model that was loaded. -/
def applyEvent (s : Store) (payload : Payload) (r : Nat) (model : Recipient) : Store :=
  let status := recipientStatusForEvent (normalizeEventType payload.eventType)
  s.updateRecipient r fun row =>
    { row with
      status := dirty model.status status row.status
      lastEventAt :=
        dirty model.lastEventAt (some (payload.eventTime.getD s.now)) row.lastEventAt
      providerMessageId :=
        dirty model.providerMessageId (payload.providerMessageId <|> model.providerMessageId)
          row.providerMessageId }

end ValidEmailVerifier.SeedSend
