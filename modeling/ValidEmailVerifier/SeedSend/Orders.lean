/-
# `SeedSend.Orders` — the order in which events arrive

Events are ingested one after another (`ingestAll`).  The time of an event is stored and never
compared: every event that is recorded sets the status of its recipient, so a recipient ends with
the status of the event that was recorded for it last (`arrival_decides`), and an earlier event
that arrives late overwrites a later outcome (`arrival_fails`).  The counters of a campaign are a
tally of the statuses, so they depend on the order only through these.
-/
import ValidEmailVerifier.Lib.Registers
import ValidEmailVerifier.SeedSend.Deliveries

namespace ValidEmailVerifier.SeedSend

/-! ## What a campaign counts -/

structure Counters where
  sent : Nat
  delivered : Nat
  bounced : Nat
  deferred : Nat
  deriving DecidableEq

def Campaign.counters (row : Campaign) : Counters :=
  { sent := row.sentCount
    delivered := row.deliveredCount
    bounced := row.bouncedCount
    deferred := row.deferredCount }

def counters (s : Store) (i : Nat) : Option Counters := s.campaigns[i]?.map Campaign.counters

/-- What the counters are refreshed to. -/
def tally (s : Store) (i : Nat) : Counters :=
  { sent := (totals s i).sent
    delivered := (totals s i).delivered
    bounced := (totals s i).bounced
    deferred := (totals s i).deferred }

def campaignOf (s : Store) (r : Nat) : Option Nat := s.recipients[r]?.map (·.campaign)

/-- The status of a recipient, as a campaign counts it. -/
def lineOf (i : Nat) (row : Recipient) : Option RecipientStatus :=
  if row.campaign = i then some row.status else none

theorem countRecipients_lineOf (s : Store) (i : Nat) (status : RecipientStatus) :
    s.countRecipients i (·.status = status) =
      (s.recipients.map (lineOf i)).countP (· = some status) := by
  rw [Store.countRecipients, List.countP_map]
  refine List.countP_congr fun row _ => ?_
  by_cases hcampaign : row.campaign = i
  · simp [lineOf, hcampaign]
  · simp [lineOf, hcampaign]

theorem lineOf_eq {s t : Store} {i : Nat} (hcampaigns : campaignOf t = campaignOf s)
    (hstatus : ∀ r, campaignOf s r = some i → statusOf t r = statusOf s r) :
    t.recipients.map (lineOf i) = s.recipients.map (lineOf i) := by
  apply List.ext_getElem?
  intro r
  rw [List.getElem?_map, List.getElem?_map]
  have hcampaign := congrFun hcampaigns r
  have hstatus := hstatus r
  rw [campaignOf, campaignOf] at hcampaign
  rw [campaignOf, statusOf, statusOf] at hstatus
  cases hs : s.recipients[r]? with
  | none =>
    rw [hs] at hcampaign
    rw [Option.map_eq_none_iff.mp hcampaign]
  | some row =>
    rw [hs] at hcampaign hstatus
    obtain ⟨row', ht, hsame⟩ := Option.map_eq_some_iff.mp hcampaign
    rw [ht] at hstatus ⊢
    show some (lineOf i row') = some (lineOf i row)
    rw [lineOf, lineOf, hsame]
    split
    next hi => exact congrArg some (hstatus (congrArg some hi))
    next => rfl

/-- A campaign whose recipients have the same statuses has the same tally. -/
theorem tally_congr {s t : Store} {i : Nat} (hcampaigns : campaignOf t = campaignOf s)
    (hstatus : ∀ r, campaignOf s r = some i → statusOf t r = statusOf s r) :
    tally t i = tally s i := by
  have hlines := lineOf_eq hcampaigns hstatus
  have hcount : ∀ status : RecipientStatus,
      t.countRecipients i (·.status = status) = s.countRecipients i (·.status = status) := by
    intro status
    rw [countRecipients_lineOf, countRecipients_lineOf, hlines]
  simp only [tally, totals, Totals.sent, hcount]

theorem tally_of_recipients {s t : Store} (h : t.recipients = s.recipients) (i : Nat) :
    tally t i = tally s i := by
  refine tally_congr ?_ fun r _ => ?_
  · funext r
    rw [campaignOf, campaignOf, h]
  · rw [statusOf, statusOf, h]

/-! ## One event -/

/-- A delivery that comes to its end. -/
def ingest (s : Store) (payload : Payload) : Store := (deliver payload 7 s).2

/-- The status that the record of an event stands for. -/
def Event.write (e : Event) : Nat × Option RecipientStatus :=
  (e.recipient, some (recipientStatusForEvent e.eventType))

theorem counters_updateCampaign (s : Store) (i j : Nat) {f : Campaign → Campaign}
    {g : Counters → Counters} (hfg : ∀ row, (f row).counters = g row.counters) :
    counters (s.updateCampaign i f) j =
      if i = j then (counters s j).map g else counters s j := by
  rw [counters, counters, Store.updateCampaign, List.getElem?_modify]
  cases s.campaigns[j]? with
  | none =>
    split
    · rfl
    · rfl
  | some row =>
    simp only [Option.map_eq_map, Option.map_some]
    split
    · rw [hfg]
    · rfl

theorem counters_saveCounters (s : Store) (i j : Nat) :
    counters (saveCounters s i (totals s i)) j =
      if i = j then (counters s j).map fun _ => tally s i else counters s j :=
  counters_updateCampaign (g := fun _ => tally s i) s i j fun _ => rfl

theorem counters_updateStatus (s : Store) (i : Nat) (status : CampaignStatus) :
    counters (updateStatus s i status) = counters s := by
  funext j
  have hkeep : ∀ row : Campaign,
      ({ row with status := status } : Campaign).counters = id row.counters := fun _ => rfl
  rw [updateStatus, counters_updateCampaign s i j hkeep, Option.map_id]
  exact ite_self _

/-- The guardrails leave the counters as they are. -/
theorem counters_guardrails (n i : Nat) (s : Store) :
    counters (alone n [.loadGuardrails i] s).2 = counters s := by
  rcases (alone_guardrails n i s).2 with hsame | hpaused
  · rw [hsame]
  · rw [hpaused, counters_updateStatus]

/-- What a new event does. -/
structure Takes (s : Store) (e : Event) (s' : Store) : Prop where
  events : s'.events = s.events ++ [e]
  statuses : statusOf s' = Registers.write (statusOf s) e.write
  campaigns : campaignOf s' = campaignOf s
  counters : ∀ i, counters s' i =
    if campaignOf s e.recipient = some i then (counters s i).map fun _ => tally s' i
    else counters s i

/-- The record of an event. -/
def eventOf (payload : Payload) (r : Nat) (model : Recipient) : Event :=
  { dedupeKey := keyOf payload r model
    recipient := r
    eventType := normalizeEventType payload.eventType
    eventTime := payload.eventTime }

theorem takes_new {s : Store} {payload : Payload} {r : Nat} {model : Recipient}
    (h : accepts s payload = some (r, model))
    (hnew : recorded s (keyOf payload r model) = false) :
    Takes s (eventOf payload r model) (ingest s payload) := by
  have hmodel := (accepts_eq_some.mp h).2.1
  have hend : ingest s payload =
      (alone 4 [.tally model.campaign] (updated s payload r model)).2 := by
    have hdeliver := deliver_updated h hnew 4
    show (deliver payload (4 + 3) s).2 = _
    rw [hdeliver]
  have hrows (q : Nat) : (updated s payload r model).recipients[q]? = _ :=
    recipients_updated hmodel q
  have htally : ∀ instr ∈ [Instr.tally model.campaign], counts instr = true := by simp [counts]
  obtain ⟨hsame, -⟩ := alone_counts 4 htally (s := updated s payload r model)
  rw [← hend] at hsame
  constructor
  · exact hsame.events
  · funext q
    rw [statusOf, hsame.recipients, hrows, Registers.write, Event.write]
    rcases Decidable.eq_or_ne r q with rfl | hq
    · rw [if_pos rfl, eventOf, Function.update_self]
      exact congrArg some (dirty_fresh model.status _)
    · rw [if_neg hq, eventOf, Function.update_of_ne (Ne.symm hq)]
      rfl
  · funext q
    rw [campaignOf, campaignOf, hsame.recipients, hrows]
    split
    next hq =>
      subst hq
      rw [hmodel]
      rfl
    next => rfl
  · intro i
    have hcampaign : campaignOf s r = some model.campaign := by
      rw [campaignOf, hmodel]
      rfl
    have htally : tally (ingest s payload) i = tally (updated s payload r model) i :=
      tally_of_recipients hsame.recipients i
    rw [htally, hend, alone_tally 2]
    dsimp only
    rw [counters_guardrails, counters_saveCounters, eventOf, hcampaign]
    rcases Decidable.eq_or_ne model.campaign i with rfl | hi
    · rw [if_pos rfl, if_pos rfl]
      rfl
    · rw [if_neg hi, if_neg fun h => hi (Option.some.inj h)]
      rfl

theorem ingest_cases (s : Store) (payload : Payload) :
    ingest s payload = s ∨ ∃ e, Takes s e (ingest s payload) := by
  cases haccepts : accepts s payload with
  | none =>
    have hover : Over payload s := fun r model h => nomatch haccepts.symm.trans h
    exact .inl (deliver_over hover 7).1
  | some found =>
    obtain ⟨r, model⟩ := found
    cases hnew : recorded s (keyOf payload r model) with
    | false => exact .inr ⟨_, takes_new haccepts hnew⟩
    | true =>
      have hover : Over payload s := by
        intro r' model' h
        cases haccepts.symm.trans h
        exact hnew
      exact .inl (deliver_over hover 7).1

/-! ## Events one after another -/

def ingestAll (s : Store) (ps : List Payload) : Store := ps.foldl ingest s

/-- The events that have been recorded, in the order of their arrival. -/
def reported (s : Store) (ps : List Payload) : List Event :=
  (ingestAll s ps).events.drop s.events.length

/-- The status of the event that was recorded last for recipient `r`, or the one it had. -/
def outcome (s : Store) (ps : List Payload) (r : Nat) : Option RecipientStatus :=
  (Registers.lastTo r ((reported s ps).map Event.write)).getD (statusOf s r)

/-- An event for a recipient of campaign `i`. -/
def touches (s : Store) (i : Nat) (e : Event) : Bool := campaignOf s e.recipient = some i

/-- An event has been recorded for a recipient of campaign `i`. -/
def touched (s : Store) (ps : List Payload) (i : Nat) : Bool := (reported s ps).any (touches s i)

/-- The store `t` is what the events `new` have made of `s`. -/
structure Follows (s : Store) (new : List Event) (t : Store) : Prop where
  events : t.events = s.events ++ new
  statuses : statusOf t = (new.map Event.write).foldl Registers.write (statusOf s)
  campaigns : campaignOf t = campaignOf s
  counters : ∀ i, counters t i =
    if new.any (touches s i) = true then (counters s i).map fun _ => tally t i
    else counters s i

theorem Follows.step {s t t' : Store} {new : List Event} {e : Event} (h : Follows s new t)
    (htakes : Takes t e t') : Follows s (new ++ [e]) t' where
  events := by rw [htakes.events, h.events, List.append_assoc]
  statuses := by
    rw [htakes.statuses, h.statuses, List.map_append, List.foldl_append]
    rfl
  campaigns := htakes.campaigns.trans h.campaigns
  counters := by
    intro i
    have htouches : touches s i e = decide (campaignOf t e.recipient = some i) := by
      rw [h.campaigns]
      rfl
    rw [htakes.counters i, h.counters i, List.any_append, List.any_cons, List.any_nil,
      Bool.or_false, htouches]
    by_cases he : campaignOf t e.recipient = some i
    · -- The campaign is counted again.
      rw [if_pos he, decide_eq_true he, Bool.or_true, if_pos rfl]
      split
      · rw [Option.map_map]
        rfl
      · rfl
    · -- The recipients of the campaign are as they were, so an earlier count is still right.
      rw [if_neg he, decide_eq_false he, Bool.or_false]
      have htally : tally t' i = tally t i := by
        refine tally_congr htakes.campaigns fun r hr => ?_
        rw [htakes.statuses, Registers.write, Event.write]
        refine Function.update_of_ne ?_ _ _
        rintro rfl
        exact he hr
      rw [htally]

theorem follows_ingestAll (s : Store) (ps : List Payload) :
    ∃ new, Follows s new (ingestAll s ps) := by
  induction ps using List.reverseRecOn with
  | nil => exact ⟨[], (List.append_nil _).symm, rfl, rfl, fun _ => rfl⟩
  | append_singleton ps payload ih =>
    obtain ⟨new, hnew⟩ := ih
    have hstep : ingestAll s (ps ++ [payload]) = ingest (ingestAll s ps) payload :=
      List.foldl_concat ingest s payload ps
    rw [hstep]
    rcases ingest_cases (ingestAll s ps) payload with hsame | ⟨e, htakes⟩
    · rw [hsame]
      exact ⟨new, hnew⟩
    · exact ⟨new ++ [e], hnew.step htakes⟩

theorem follows_reported (s : Store) (ps : List Payload) :
    Follows s (reported s ps) (ingestAll s ps) := by
  obtain ⟨new, hnew⟩ := follows_ingestAll s ps
  have hreported : reported s ps = new := by
    rw [reported, hnew.events, List.drop_left]
  rw [hreported]
  exact hnew

theorem statusOf_ingestAll (s : Store) (ps : List Payload) (r : Nat) :
    statusOf (ingestAll s ps) r = outcome s ps r := by
  rw [(follows_reported s ps).statuses, Registers.foldl_write]
  rfl

/-- The counters of a campaign depend on the last events only. -/
theorem counters_congr {s : Store} {ps qs : List Payload} {i : Nat}
    (houtcome : ∀ r, campaignOf s r = some i → outcome s ps r = outcome s qs r)
    (htouched : touched s ps i = touched s qs i) :
    counters (ingestAll s ps) i = counters (ingestAll s qs) i := by
  have hps := follows_reported s ps
  have hqs := follows_reported s qs
  have htally : tally (ingestAll s ps) i = tally (ingestAll s qs) i := by
    refine tally_congr (hps.campaigns.trans hqs.campaigns.symm) fun r hr => ?_
    rw [hqs.campaigns] at hr
    rw [statusOf_ingestAll, statusOf_ingestAll, houtcome r hr]
  rw [touched, touched] at htouched
  rw [hps.counters, hqs.counters, htally, htouched]

/-- A new event sets the status of its recipient, whatever its time. -/
theorem statusOf_concat {s : Store} {ps : List Payload} {payload : Payload} {r : Nat}
    {model : Recipient} (h : accepts (ingestAll s ps) payload = some (r, model))
    (hnew : recorded (ingestAll s ps) (keyOf payload r model) = false) :
    statusOf (ingestAll s (ps ++ [payload])) r =
      some (recipientStatusForEvent (normalizeEventType payload.eventType)) := by
  have hstep : ingestAll s (ps ++ [payload]) = ingest (ingestAll s ps) payload :=
    List.foldl_concat ingest s payload ps
  rw [hstep, (takes_new h hnew).statuses, Registers.write]
  exact Function.update_self _ _ _

/-- Every recipient ends with the status of the event that was recorded for it last, and the
counters of a campaign with the tally of the statuses; two orders of arrival end the same
exactly if they agree on the last events. -/
theorem arrival_decides (s : Store) :
    (∀ ps r, statusOf (ingestAll s ps) r = outcome s ps r) ∧
    (∀ ps payload r model, accepts (ingestAll s ps) payload = some (r, model) →
      recorded (ingestAll s ps) (keyOf payload r model) = false →
      statusOf (ingestAll s (ps ++ [payload])) r =
        some (recipientStatusForEvent (normalizeEventType payload.eventType))) ∧
    (∀ ps i, touched s ps i = true →
      counters (ingestAll s ps) i =
        (counters s i).map fun _ => tally (ingestAll s ps) i) ∧
    (∀ ps qs, statusOf (ingestAll s ps) = statusOf (ingestAll s qs) ↔
      ∀ r, outcome s ps r = outcome s qs r) ∧
    ∀ ps qs i, (∀ r, campaignOf s r = some i → outcome s ps r = outcome s qs r) →
      touched s ps i = touched s qs i →
      counters (ingestAll s ps) i = counters (ingestAll s qs) i := by
  refine ⟨statusOf_ingestAll s, fun _ _ _ _ h hnew => statusOf_concat h hnew, ?_, ?_,
    fun _ _ _ houtcome htouched => counters_congr houtcome htouched⟩
  · intro ps i htouched
    rw [touched] at htouched
    rw [(follows_reported s ps).counters, if_pos htouched]
  · intro ps qs
    rw [(follows_reported s ps).statuses, (follows_reported s qs).statuses]
    exact Registers.foldl_write_eq_iff

/-- An earlier event that says the message is deferred. -/
def deferredOne : Payload :=
  { deliveredOne with
    eventType := "deferred".toList
    eventTime := some 10
    eventId := some "e2".toList }

/-- The earlier event arrives late and overwrites the later outcome. -/
theorem arrival_fails :
    [deferredOne, deliveredOne].Perm [deliveredOne, deferredOne] ∧
    statusOf (ingestAll dispatchedOne [deferredOne, deliveredOne]) 0 = some .delivered ∧
    statusOf (ingestAll dispatchedOne [deliveredOne, deferredOne]) 0 = some .deferred ∧
    counters (ingestAll dispatchedOne [deferredOne, deliveredOne]) 0 = some ⟨1, 1, 0, 0⟩ ∧
    counters (ingestAll dispatchedOne [deliveredOne, deferredOne]) 0 = some ⟨1, 0, 0, 1⟩ :=
  ⟨.swap _ _ _, by decide, by decide, by decide, by decide⟩

end ValidEmailVerifier.SeedSend
