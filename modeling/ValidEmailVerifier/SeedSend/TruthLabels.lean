/-
# `SeedSend.TruthLabels` — the labels that a campaign teaches

`ops:smtp-truth-labels-sync` makes a label of every recipient of whom the provider has said how
the mail fared.  It keeps no cursor: each time it takes the recipients that were written within
the last hours.  So a label can lag behind its recipient, and does if a sync reaches back less far
than to the sync before it.  If each reaches that far, then right behind it every recipient
with evidence has the label of the status it has (`labels_current`).

* Recipients are numbered in the order of their creation, and keep their campaign's provider.
* The hash of an address is taken by the address.
* Every write of a recipient sets `updated_at`.
-/
import ValidEmailVerifier.Lib.Transition
import ValidEmailVerifier.Lib.Upserts
import ValidEmailVerifier.SeedSend.Campaigns

namespace ValidEmailVerifier.SeedSend

open Text

/-! ## Labels -/

structure Truth where
  label : Text
  confidence : Text
  decisionClass : Text
  reasonTag : Text
  deriving DecidableEq

def truthFromRecipientStatus : RecipientStatus → Option Truth
  | .delivered => some ⟨"deliverable".toList, "high".toList, "deliverable".toList,
      "mailbox_exists".toList⟩
  | .bounced => some ⟨"undeliverable".toList, "high".toList, "undeliverable".toList,
      "mailbox_not_found".toList⟩
  | .deferred => some ⟨"unknown".toList, "medium".toList, "unknown".toList,
      "unknown_transient".toList⟩
  | .failed => some ⟨"unknown".toList, "low".toList, "unknown".toList,
      "unknown_transient".toList⟩
  | .pending | .dispatching | .dispatched => none

/-- `normalizeProvider` of the provider of the campaign. -/
def labelProvider (provider : Option Text) : Text :=
  let provider := strtolower (trim (provider.getD "generic".toList))
  if provider ∈ ["gmail".toList, "microsoft".toList, "yahoo".toList, "generic".toList] then provider
  else "generic".toList

/-- A recipient, with `updated_at`. -/
structure Stamped where
  row : Recipient
  updatedAt : Nat

/-- A row of `smtp_truth_labels`. -/
structure TruthLabel where
  sourceRecipient : Nat
  sourceCampaign : Nat
  email : Text
  provider : Text
  truth : Truth
  observedAt : Nat
  recipientStatus : RecipientStatus
  attemptCount : Nat
  providerMessageId : Option Text
  deriving DecidableEq

/-- The label of a recipient, if there is evidence. -/
def labelOf (providerOf : Nat → Option Text) (r : Nat) (recipient : Stamped) : Option TruthLabel :=
  (truthFromRecipientStatus recipient.row.status).map fun truth =>
    { sourceRecipient := r
      sourceCampaign := recipient.row.campaign
      email := recipient.row.email
      provider := labelProvider (providerOf recipient.row.campaign)
      truth := truth
      observedAt := recipient.row.lastEventAt.getD recipient.updatedAt
      recipientStatus := recipient.row.status
      attemptCount := recipient.row.attemptCount
      providerMessageId := recipient.row.providerMessageId }

/-! ## The command -/

structure SyncOptions where
  /-- `--campaign`, if it is not blank. -/
  campaign : Option Nat := none
  sinceHours : Int := 168
  dryRun : Bool := false

structure TruthTable where
  now : Nat := 0
  recipients : List Stamped := []
  labels : List TruthLabel := []
  /-- When all campaigns were synced last: the model's own. -/
  syncedAt : Nat := 0

/-- The first moment from which on a sync takes what was written. -/
def SyncOptions.since (o : SyncOptions) (now : Nat) : Nat :=
  now - 3600 * (max 1 o.sinceHours).toNat

/-- The recipient is one that a sync takes. -/
def SyncOptions.takes (o : SyncOptions) (now : Nat) (recipient : Stamped) : Bool :=
  decide (o.since now ≤ recipient.updatedAt) &&
    o.campaign.all fun i => decide (recipient.row.campaign = i)

/-- The labels that a sync writes, in the order of the recipients. -/
def synced (providerOf : Nat → Option Text) (o : SyncOptions) (s : TruthTable) : List TruthLabel :=
  s.recipients.zipIdx.filterMap fun x =>
    if o.takes s.now x.1 then labelOf providerOf x.2 x.1 else none

/-- All campaigns are synced. -/
def SyncOptions.isFull (o : SyncOptions) : Bool := o.campaign.isNone && !o.dryRun

inductive TruthAct where
  | elapse (seconds : Nat)
  /-- A recipient is written, or a new one. -/
  | save (r : Nat) (row : Recipient)
  | sync (o : SyncOptions)

def TruthTable.act (providerOf : Nat → Option Text) (s : TruthTable) : TruthAct → TruthTable
  | .elapse seconds => { s with now := s.now + seconds }
  | .save r row =>
      { s with recipients :=
          if r < s.recipients.length then s.recipients.set r ⟨row, s.now⟩
          else s.recipients ++ [⟨row, s.now⟩] }
  | .sync o =>
      if o.dryRun then s
      else
        { s with
          labels := Upserts.putAll TruthLabel.sourceRecipient s.labels (synced providerOf o s)
          syncedAt := if o.isFull then s.now else s.syncedAt }

def truthTables (providerOf : Nat → Option Text) : Transition.System TruthTable TruthAct where
  step s a := some (s.act providerOf a)

/-- A sync of all campaigns reaches back to the last one. -/
def Overlaps (s : TruthTable) : TruthAct → Prop
  | .sync o => o.isFull = true → o.since s.now ≤ s.syncedAt
  | _ => True

/-! ## What is labelled -/

section Labels
variable {providerOf : Nat → Option Text} {s : TruthTable} {o : SyncOptions} {r : Nat}
  {recipient : Stamped} {label : TruthLabel}

def TruthTable.labelFor (s : TruthTable) (r : Nat) : Option TruthLabel :=
  s.labels.find? fun label => label.sourceRecipient = r

theorem sourceRecipient_of_labelOf (h : labelOf providerOf r recipient = some label) :
    label.sourceRecipient = r := by
  obtain ⟨truth, -, rfl⟩ := Option.map_eq_some_iff.mp h
  rfl

/-- What a sync writes for a recipient. -/
theorem mem_synced : label ∈ synced providerOf o s ↔
    ∃ recipient, s.recipients[label.sourceRecipient]? = some recipient ∧
      o.takes s.now recipient = true ∧
      labelOf providerOf label.sourceRecipient recipient = some label := by
  rw [synced, List.mem_filterMap]
  constructor
  · rintro ⟨⟨recipient, r⟩, hmem, hlabel⟩
    obtain ⟨htakes, hlabel⟩ := Option.ite_none_right_eq_some.mp hlabel
    obtain rfl := sourceRecipient_of_labelOf hlabel
    exact ⟨recipient, List.mem_zipIdx_iff_getElem?.mp hmem, htakes, hlabel⟩
  · rintro ⟨recipient, hrecipient, htakes, hlabel⟩
    exact ⟨(recipient, label.sourceRecipient), List.mem_zipIdx_iff_getElem?.mpr hrecipient,
      Option.ite_none_right_eq_some.mpr ⟨htakes, hlabel⟩⟩

/-- A recipient that a sync takes gets its label, the others keep theirs. -/
theorem labelFor_sync (hdry : o.dryRun = false) (hrecipient : s.recipients[r]? = some recipient) :
    (s.act providerOf (.sync o)).labelFor r =
      if o.takes s.now recipient ∧ (labelOf providerOf r recipient).isSome then
        labelOf providerOf r recipient
      else s.labelFor r := by
  have hlabels : (s.act providerOf (.sync o)).labels =
      Upserts.putAll TruthLabel.sourceRecipient s.labels (synced providerOf o s) := by
    rw [TruthTable.act, hdry]
    rfl
  rw [TruthTable.labelFor, hlabels, Upserts.find?_putAll]
  split
  next h =>
    obtain ⟨htakes, hsome⟩ := h
    obtain ⟨label, hlabel⟩ := Option.isSome_iff_exists.mp hsome
    obtain rfl := sourceRecipient_of_labelOf hlabel
    have hmem : label ∈ synced providerOf o s :=
      mem_synced.mpr ⟨recipient, hrecipient, htakes, hlabel⟩
    cases hfind : (synced providerOf o s).reverse.find?
        fun old => old.sourceRecipient = label.sourceRecipient with
    | none =>
      have hnot := List.find?_eq_none.mp hfind label (List.mem_reverse.mpr hmem)
      exact absurd (decide_eq_true rfl) hnot
    | some other =>
      -- the sync writes one label for a recipient
      have hkey : other.sourceRecipient = label.sourceRecipient := by
        simpa using List.find?_some hfind
      obtain ⟨recipient', hrecipient', -, hother⟩ :=
        mem_synced.mp (List.mem_reverse.mp (List.mem_of_find?_eq_some hfind))
      rw [hkey] at hrecipient' hother
      obtain rfl := Option.some.inj (hrecipient'.symm.trans hrecipient)
      exact hother.symm ▸ rfl
  next h =>
    have hnone : (synced providerOf o s).reverse.find?
        (fun old => old.sourceRecipient = r) = none := by
      refine List.find?_eq_none.mpr fun label hmem heq => h ?_
      obtain ⟨recipient', hrecipient', htakes, hlabel⟩ := mem_synced.mp (List.mem_reverse.mp hmem)
      rw [of_decide_eq_true heq] at hrecipient' hlabel
      obtain rfl := Option.some.inj (hrecipient'.symm.trans hrecipient)
      exact ⟨htakes, by rw [hlabel]; rfl⟩
    rw [hnone, Option.none_or]
    rfl

/-! ## Every run -/

/-- A recipient with evidence has its label, or was written since the last sync. -/
structure LabelsFollow (providerOf : Nat → Option Text) (s : TruthTable) : Prop where
  synced_le : s.syncedAt ≤ s.now
  updated_le : ∀ recipient ∈ s.recipients, recipient.updatedAt ≤ s.now
  labelled : ∀ r recipient, s.recipients[r]? = some recipient →
    (labelOf providerOf r recipient).isSome →
    s.syncedAt ≤ recipient.updatedAt ∨ s.labelFor r = labelOf providerOf r recipient

/-- What a full sync that reaches back far enough leaves without a label. -/
theorem LabelsFollow.labelFor_sync (h : LabelsFollow providerOf s) (hfull : o.isFull = true)
    (hover : Overlaps s (.sync o)) (hrecipient : s.recipients[r]? = some recipient)
    (hevidence : (labelOf providerOf r recipient).isSome) :
    (s.act providerOf (.sync o)).labelFor r = labelOf providerOf r recipient := by
  rw [SyncOptions.isFull, Bool.and_eq_true, Option.isNone_iff_eq_none, Bool.not_eq_true'] at hfull
  rw [SeedSend.labelFor_sync hfull.2 hrecipient]
  split
  · rfl
  next hnot =>
    rcases h.labelled r recipient hrecipient hevidence with hlate | hlabel
    · -- it was written since the last sync, so this one takes it
      have htakes : o.takes s.now recipient = true := by
        rw [SyncOptions.takes, hfull.1, Option.all_none, Bool.and_true, decide_eq_true_eq]
        refine Nat.le_trans (hover ?_) hlate
        rw [SyncOptions.isFull, hfull.1, hfull.2]
        rfl
      exact absurd (And.intro htakes hevidence) hnot
    · exact hlabel

theorem LabelsFollow.save (h : LabelsFollow providerOf s) (r : Nat) (row : Recipient) :
    LabelsFollow providerOf (s.act providerOf (.save r row)) := by
  -- the row that is written has the time of now, and the others stay
  have hrows : ∀ (q : Nat) (recipient : Stamped),
      (s.act providerOf (.save r row)).recipients[q]? = some recipient →
        recipient = ⟨row, s.now⟩ ∨ s.recipients[q]? = some recipient := by
    intro q recipient hq
    rw [TruthTable.act] at hq
    dsimp only at hq
    split at hq
    · rw [List.getElem?_set] at hq
      split at hq
      · exact .inl (Option.some.inj hq).symm
      · exact .inr hq
    · rw [List.getElem?_append] at hq
      split at hq
      · exact .inr hq
      · exact .inl (List.mem_singleton.mp (List.mem_of_getElem? hq))
  refine ⟨h.synced_le, fun recipient hmem => ?_, fun q recipient hq hevidence => ?_⟩
  · obtain ⟨q, hq⟩ := List.mem_iff_getElem?.mp hmem
    rcases hrows q recipient hq with rfl | hold
    · exact Nat.le_refl _
    · exact h.updated_le recipient (List.mem_of_getElem? hold)
  · rcases hrows q recipient hq with rfl | hold
    · exact .inl h.synced_le
    · exact h.labelled q recipient hold hevidence

theorem LabelsFollow.sync (h : LabelsFollow providerOf s) {o : SyncOptions}
    (ha : Overlaps s (.sync o)) (hdry : o.dryRun = false) :
    LabelsFollow providerOf (s.act providerOf (.sync o)) := by
  have hrecipients : (s.act providerOf (.sync o)).recipients = s.recipients := by
    rw [TruthTable.act, hdry]
    rfl
  have hnow : (s.act providerOf (.sync o)).now = s.now := by
    rw [TruthTable.act, hdry]
    rfl
  have hsynced : (s.act providerOf (.sync o)).syncedAt =
      if o.isFull then s.now else s.syncedAt := by
    rw [TruthTable.act, hdry]
    rfl
  refine ⟨?_, fun recipient hmem => ?_, fun r recipient hrecipient hevidence => ?_⟩
  · rw [hsynced, hnow]
    split
    · exact Nat.le_refl _
    · exact h.synced_le
  · rw [hnow]
    exact h.updated_le recipient (hrecipients ▸ hmem)
  · rw [hrecipients] at hrecipient
    rw [hsynced]
    cases hfull : o.isFull with
    | true => exact .inr (h.labelFor_sync hfull ha hrecipient hevidence)
    | false =>
      rw [if_neg Bool.false_ne_true, SeedSend.labelFor_sync hdry hrecipient]
      rcases h.labelled r recipient hrecipient hevidence with hlate | hlabel
      · exact .inl hlate
      · right
        split
        · rfl
        · exact hlabel

theorem LabelsFollow.act (h : LabelsFollow providerOf s) {a : TruthAct} (ha : Overlaps s a) :
    LabelsFollow providerOf (s.act providerOf a) := by
  cases a with
  | elapse seconds =>
    refine ⟨Nat.le_add_right_of_le h.synced_le, fun recipient hmem => ?_, h.labelled⟩
    exact Nat.le_add_right_of_le (h.updated_le recipient hmem)
  | save r row => exact h.save r row
  | sync o =>
    cases hdry : o.dryRun with
    | true =>
      rw [TruthTable.act, hdry, if_pos rfl]
      exact h
    | false => exact h.sync ha hdry

/-- **In every run in which each sync of all campaigns reaches back to the one before it, and the
first to the beginning, every recipient with evidence has the label of its status behind such a
sync**, whatever was written and synced in between. -/
theorem labels_current {start : Nat}
    (hreach : (truthTables providerOf).Reaches Overlaps { now := start, syncedAt := start } s)
    (hfull : o.isFull = true) (hover : Overlaps s (.sync o))
    (hrecipient : (s.act providerOf (.sync o)).recipients[r]? = some recipient)
    (hevidence : (truthFromRecipientStatus recipient.row.status).isSome) :
    (s.act providerOf (.sync o)).labelFor r = labelOf providerOf r recipient := by
  have hfollows : LabelsFollow providerOf s := by
    refine hreach.invariant ⟨Nat.le_refl _, fun _ hmem => absurd hmem List.not_mem_nil,
      fun _ _ hr => absurd hr (by simp)⟩ ?_
    intro t a u ht ha hstep
    obtain rfl := Option.some.inj hstep
    exact ht.act ha
  have hrows : (s.act providerOf (.sync o)).recipients = s.recipients := by
    rw [TruthTable.act]
    split <;> rfl
  rw [hrows] at hrecipient
  exact hfollows.labelFor_sync hfull hover hrecipient (by rwa [labelOf, Option.isSome_map])

end Labels

/-- A recipient to whom the mail was delivered. -/
def ada : Recipient :=
  { campaign := 0, email := "ada@example.org".toList, status := .delivered, attemptCount := 1 }

/-- It was written an hour and a half ago. -/
def lateTable : TruthTable := { now := 5400, recipients := [⟨ada, 0⟩] }

theorem labels_current_lateTable :
    (lateTable.act (fun _ => none) (.sync { sinceHours := 2 })).labelFor 0 =
      labelOf (fun _ => none) 0 ⟨ada, 0⟩ := by
  have hwritten : (truthTables fun _ => none).Reaches Overlaps { now := 0, syncedAt := 0 }
      { recipients := [⟨ada, 0⟩] } :=
    .tail (a := .save 0 ada) .refl trivial rfl
  have hreach : (truthTables fun _ => none).Reaches Overlaps { now := 0, syncedAt := 0 }
      lateTable :=
    .tail (a := .elapse 5400) hwritten trivial rfl
  exact labels_current hreach (by decide) (fun _ => by decide) rfl (by decide)

end ValidEmailVerifier.SeedSend
