/-
# `SeedSend.Deliveries` — one event, delivered again and again

A delivery of an event is one process.  `alone` runs a process with no other under way, up to a
number of steps: what is left of it is lost, as after an exception.  The record of the event is
committed before the recipient is updated, and a later delivery that finds the record does
nothing, so a delivery that stops between the two loses the event for good
(`takesEffectOnce_fails`).  However often an event is delivered and wherever the deliveries stop,
its recipient is updated exactly once exactly if the delivery that records the event is not
stopped there (`takesEffectOnce_iff`).
-/
import ValidEmailVerifier.SeedSend.Rows

namespace ValidEmailVerifier.SeedSend

open Processes

/-! ## A process alone -/

/-- What a process executes alone in at most `n` steps, and the store it leaves. -/
def alone : Nat → List Instr → Store → List Instr × Store
  | 0, _, s => ([], s)
  | _ + 1, [], s => ([], s)
  | n + 1, instr :: rest, s =>
      match exec 0 instr s with
      | none => ([], s)
      | some (s', next) =>
          (instr :: (alone n (next.resume [] rest) s').1, (alone n (next.resume [] rest) s').2)

theorem alone_nil (n : Nat) (s : Store) : alone n [] s = ([], s) := by
  cases n with
  | zero | succ => rfl

theorem alone_go {n : Nat} {instr : Instr} {code : List Instr} {s s' : Store}
    (h : exec 0 instr s = some (s', .go code)) :
    alone (n + 1) [instr] s = (instr :: (alone n code s').1, (alone n code s').2) := by
  rw [alone, h]
  dsimp only
  rw [Next.resume_go, List.append_nil]

theorem alone_raise {n : Nat} {instr : Instr} {s s' : Store}
    (h : exec 0 instr s = some (s', .raise)) : alone (n + 1) [instr] s = ([instr], s') := by
  rw [alone, h]
  dsimp only
  rw [Next.resume_raise, alone_nil]

/-- What a process does alone, the system can do. -/
theorem alone_reaches {p : Nat} {k : Kind} (n : Nat) :
    ∀ {code : List Instr} {c : State}, c.At p k code →
      ∃ c', seedSend.Reaches Transition.Always c c' ∧ c'.store = (alone n code c.store).2 := by
  induction n with
  | zero => exact fun {_ c} _ => ⟨c, .refl, rfl⟩
  | succ n ih =>
    intro code c hat
    cases code with
    | nil => exact ⟨c, .refl, rfl⟩
    | cons instr rest =>
      rw [alone]
      cases hexec : exec 0 instr c.store with
      | none => exact ⟨c, .refl, rfl⟩
      | some result =>
        obtain ⟨s', next⟩ := result
        have hexec' : exec p instr c.store = some (s', next) := hexec
        have hact : act c (.exec p) =
            some ((withStore c s').setCode p (next.resume [] rest)) := by
          show c.execAt exec handler p = _
          rw [Conf.execAt, show c.procs[p]? = some ⟨k, instr :: rest⟩ from hat]
          dsimp only
          rw [hexec']
          rfl
        have hnext : ((withStore c s').setCode p (next.resume [] rest)).At p k
            (next.resume [] rest) :=
          Conf.at_setCode.mpr (.inl ⟨rfl, rfl, _, hat⟩)
        obtain ⟨c', hreaches, hstore⟩ := ih hnext
        have hstep : seedSend.step c (.exec p) = some _ := hact
        exact ⟨c', .head trivial hstep hreaches, hstore⟩

/-! ## The recipient of an event -/

/-- The recipient that an event is for, if it can be mapped. -/
def accepts (s : Store) (payload : Payload) : Option (Nat × Recipient) :=
  match locate s payload with
  | none => none
  | some r =>
      match s.recipients[r]? with
      | none => none
      | some model =>
          if s.campaigns[model.campaign]? = none then none
          else if payload.campaign.any (· ≠ model.campaign) then none
          else some (r, model)

theorem findRecipient_eq (s : Store) (payload : Payload) :
    findRecipient s payload =
      match accepts s payload with
      | none => some (s, .raise)
      | some (r, model) => some (s, .go [.recordEvent payload r model]) := by
  rw [findRecipient, accepts]
  cases locate s payload with
  | none => rfl
  | some r =>
    dsimp only
    cases s.recipients[r]? with
    | none => rfl
    | some model =>
      dsimp only
      split
      · rfl
      · split
        · rfl
        · rfl

theorem accepts_eq_some {s : Store} {payload : Payload} {r : Nat} {model : Recipient} :
    accepts s payload = some (r, model) ↔
      locate s payload = some r ∧ s.recipients[r]? = some model ∧
        s.campaigns[model.campaign]? ≠ none ∧
        payload.campaign.any (· ≠ model.campaign) = false := by
  rw [accepts]
  cases locate s payload with
  | none => exact ⟨(nomatch ·), fun h => nomatch h.1⟩
  | some q =>
    dsimp only
    cases hrow : s.recipients[q]? with
    | none =>
      refine ⟨(nomatch ·), ?_⟩
      rintro ⟨hq, hmodel, -⟩
      cases hq
      exact nomatch hrow.symm.trans hmodel
    | some row =>
      dsimp only
      split_ifs with hcampaign hother
      · refine ⟨(nomatch ·), ?_⟩
        rintro ⟨hq, hmodel, hthere, -⟩
        cases hq
        rw [hrow] at hmodel
        cases hmodel
        exact absurd hcampaign hthere
      · refine ⟨(nomatch ·), ?_⟩
        rintro ⟨hq, hmodel, -, hsame⟩
        cases hq
        rw [hrow] at hmodel
        cases hmodel
        exact nomatch hother.symm.trans hsame
      · constructor
        · intro h
          cases h
          exact ⟨rfl, hrow, hcampaign, Bool.eq_false_iff.mpr hother⟩
        · rintro ⟨hq, hmodel, -⟩
          cases hq
          rw [hrow] at hmodel
          cases hmodel
          rfl

/-! ## The last recipient -/

theorem getLast?_filter_range (p : Nat → Bool) (r n : Nat) :
    ((List.range n).filter p).getLast? = some r ↔
      (r < n ∧ p r = true) ∧ ∀ q, r < q → q < n → p q = false := by
  induction n with
  | zero => exact ⟨(nomatch ·), fun h => absurd h.1.1 (Nat.not_lt_zero r)⟩
  | succ n ih =>
    rw [List.range_succ, List.filter_append, List.filter_singleton]
    cases hn : p n with
    | true =>
      show ((List.range n).filter p ++ [n]).getLast? = some r ↔ _
      rw [List.getLast?_concat]
      constructor
      · intro h
        have hnr := Option.some.inj h
        subst hnr
        exact ⟨⟨Nat.lt_succ_self n, hn⟩, fun q hlt hle => absurd hlt (by omega)⟩
      · rintro ⟨⟨hle, -⟩, hlast⟩
        rcases Nat.lt_or_ge r n with hlt | hge
        · exact nomatch hn.symm.trans (hlast n hlt (Nat.lt_succ_self n))
        · exact congrArg some (by omega)
    | false =>
      show ((List.range n).filter p ++ []).getLast? = some r ↔ _
      rw [List.append_nil, ih]
      constructor
      · rintro ⟨⟨hlt, hr⟩, hlast⟩
        refine ⟨⟨Nat.lt_succ_of_lt hlt, hr⟩, fun q hq hle => ?_⟩
        rcases Nat.lt_or_ge q n with hqn | hqn
        · exact hlast q hq hqn
        · have hqn : q = n := by omega
          rw [hqn, hn]
      · rintro ⟨⟨hle, hr⟩, hlast⟩
        have hne : r ≠ n := by
          rintro rfl
          exact nomatch hn.symm.trans hr
        exact ⟨⟨by omega, hr⟩, fun q hq hqn => hlast q hq (Nat.lt_succ_of_lt hqn)⟩

theorem latest_eq_some {s : Store} {p : Recipient → Bool} {r : Nat} :
    latest s p = some r ↔ (∃ row, s.recipients[r]? = some row ∧ p row = true) ∧
      ∀ q row, r < q → s.recipients[q]? = some row → p row = false := by
  rw [latest, recipientIds, getLast?_filter_range]
  refine and_congr ?_ ?_
  · rw [Option.any_eq_true]
    constructor
    · exact And.right
    · rintro ⟨row, hrow, hp⟩
      exact ⟨(List.getElem?_eq_some_iff.mp hrow).1, row, hrow, hp⟩
  · constructor
    · intro h q row hq hrow
      have hany := h q hq (List.getElem?_eq_some_iff.mp hrow).1
      rw [hrow] at hany
      exact hany
    · intro h q hq hlt
      have hrow := List.getElem?_eq_getElem hlt
      rw [hrow]
      exact h q _ hq hrow

theorem latest_eq_none {s : Store} {p : Recipient → Bool} :
    latest s p = none ↔ ∀ (q : Nat) (row : Recipient), s.recipients[q]? = some row →
      p row = false := by
  rw [latest, List.getLast?_eq_none_iff, List.eq_nil_iff_forall_not_mem]
  constructor
  · intro h q row hrow
    rw [Bool.eq_false_iff]
    intro hp
    exact h q (mem_recipientIds.mpr ⟨row, hrow, hp⟩)
  · intro h q hq
    obtain ⟨row, hrow, hp⟩ := mem_recipientIds.mp hq
    exact nomatch (h q row hrow).symm.trans hp

/-! ## The record and the update -/

/-- The store when the recipient has been updated. -/
def updated (s : Store) (payload : Payload) (r : Nat) (model : Recipient) : Store :=
  applyEvent (recordEvent s payload model.campaign r) payload r model

section
variable {s s' : Store} {payload : Payload} {r : Nat} {model : Recipient}

/-- Two stores that an event finds the same in. -/
structure SameMap (s s' : Store) : Prop where
  recipients : s'.recipients = s.recipients
  campaigns : s'.campaigns.length = s.campaigns.length
  events : s'.events = s.events

theorem SameMap.accepts (h : SameMap s s') : accepts s' payload = SeedSend.accepts s payload := by
  have hlatest : ∀ p, latest s' p = latest s p := by
    intro p
    simp only [latest, recipientIds, h.recipients]
  have hcampaigns : ∀ i : Nat, s'.campaigns[i]? = none ↔ s.campaigns[i]? = none := by
    intro i
    rw [List.getElem?_eq_none_iff, List.getElem?_eq_none_iff, h.campaigns]
  simp only [SeedSend.accepts, locate, hlatest, h.recipients, hcampaigns]

theorem recipients_updated (hmodel : s.recipients[r]? = some model) (q : Nat) :
    (updated s payload r model).recipients[q]? =
      if r = q then some (eventRow s.now payload model model) else s.recipients[q]? := by
  have hset : (updated s payload r model).recipients[q]? =
      if r = q then s.recipients[q]?.map (eventRow s.now payload model) else s.recipients[q]? :=
    recipients_updateRecipient s r (eventRow s.now payload model) q
  rw [hset]
  split
  next hrq =>
    subst hrq
    rw [hmodel]
    rfl
  next => rfl

/-- The last recipient with a property that the update gives to recipient `r`, or keeps. -/
theorem latest_updated (hmodel : s.recipients[r]? = some model) {p : Recipient → Bool}
    (hp : p (eventRow s.now payload model model) = true)
    (hlast : ∀ q row, r < q → s.recipients[q]? = some row → p row = false) :
    latest (updated s payload r model) p = some r := by
  refine latest_eq_some.mpr ⟨⟨_, ?_, hp⟩, fun q row hq hrow => ?_⟩
  · rw [recipients_updated hmodel, if_pos rfl]
  · rw [recipients_updated hmodel, if_neg (Nat.ne_of_lt hq)] at hrow
    exact hlast q row hq hrow

theorem locate_updated (hmodel : s.recipients[r]? = some model)
    (hlocate : locate s payload = some r) :
    locate (updated s payload r model) payload = some r := by
  rw [locate] at hlocate ⊢
  cases hid : payload.providerMessageId with
  | some id =>
    rw [hid] at hlocate
    have hpmid : (eventRow s.now payload model model).providerMessageId = some id := by
      rw [eventRow, hid]
      exact dirty_fresh _ _
    have hlast : ∀ q row, r < q → s.recipients[q]? = some row →
        decide (row.providerMessageId = some id) = false := by
      intro q row hq hrow
      rw [Option.bind_some] at hlocate
      cases hfirst : latest s (fun row => row.providerMessageId = some id) with
      | none => exact latest_eq_none.mp hfirst q row hrow
      | some r' =>
        rw [hfirst] at hlocate
        cases hlocate
        exact (latest_eq_some.mp hfirst).2 q row hq hrow
    rw [Option.bind_some, latest_updated hmodel (decide_eq_true hpmid) hlast]
    rfl
  | none =>
    rw [hid] at hlocate
    rw [Option.bind_none] at hlocate ⊢
    cases hcampaign : payload.campaign with
    | none =>
      rw [hcampaign] at hlocate
      exact nomatch hlocate
    | some i =>
      cases hemail : payload.email with
      | none =>
        rw [hcampaign, hemail] at hlocate
        exact nomatch hlocate
      | some email =>
        rw [hcampaign, hemail] at hlocate
        obtain ⟨⟨row, hrow, hp⟩, hlast⟩ := latest_eq_some.mp hlocate
        rw [hmodel] at hrow
        cases hrow
        exact latest_updated hmodel hp hlast

/-- The recipient that an event has updated is found again. -/
theorem accepts_updated (h : SeedSend.accepts s payload = some (r, model)) :
    SeedSend.accepts (updated s payload r model) payload =
      some (r, eventRow s.now payload model model) := by
  obtain ⟨hlocate, hmodel, hthere, hsame⟩ := accepts_eq_some.mp h
  refine accepts_eq_some.mpr ⟨locate_updated hmodel hlocate, ?_, hthere, hsame⟩
  rw [recipients_updated hmodel, if_pos rfl]

end

/-! ## What follows the update -/

/-- The counters and the guardrails. -/
def counts : Instr → Bool
  | .tally _ | .saveCounters _ _ | .loadGuardrails _ | .evaluateAndApply _ _ => true
  | _ => false

theorem SameMap.trans {s t u : Store} (h : SameMap s t) (h' : SameMap t u) : SameMap s u :=
  ⟨h'.recipients.trans h.recipients, h'.campaigns.trans h.campaigns, h'.events.trans h.events⟩

theorem exec_counts {instr : Instr} {s s' : Store} {next : Next Instr}
    (hcounts : counts instr = true) (h : exec 0 instr s = some (s', next)) :
    SameMap s s' ∧ ∀ instr' ∈ next.resume [] [], counts instr' = true := by
  cases instr with
  | tally i =>
    cases h
    exact ⟨⟨rfl, rfl, rfl⟩, by simp [counts]⟩
  | saveCounters i t =>
    cases h
    exact ⟨⟨rfl, List.length_modify _ _ _, rfl⟩, by simp [counts]⟩
  | loadGuardrails i =>
    have hload : loadCampaign s i (fun campaign => [.evaluateAndApply i campaign]) =
        some (s', next) := h
    rw [loadCampaign] at hload
    split at hload
    · cases hload
      exact ⟨⟨rfl, rfl, rfl⟩, by simp⟩
    · cases hload
      exact ⟨⟨rfl, rfl, rfl⟩, by simp [counts]⟩
  | evaluateAndApply i campaign =>
    cases h
    refine ⟨?_, by simp⟩
    split
    · exact ⟨rfl, List.length_modify _ _ _, rfl⟩
    · exact ⟨rfl, rfl, rfl⟩
  | _ => cases hcounts

theorem mem_resume {next : Next Instr} {rest : List Instr} {instr : Instr}
    (h : instr ∈ next.resume [] rest) : instr ∈ next.resume [] [] ∨ instr ∈ rest := by
  cases next with
  | go code =>
    rw [Next.resume_go] at h ⊢
    rw [List.append_nil]
    exact List.mem_append.mp h
  | raise => exact nomatch h

theorem alone_counts (n : Nat) :
    ∀ {code : List Instr} {s : Store}, (∀ instr ∈ code, counts instr = true) →
      SameMap s (alone n code s).2 ∧ ∀ instr ∈ (alone n code s).1, counts instr = true := by
  induction n with
  | zero => exact fun _ => ⟨⟨rfl, rfl, rfl⟩, fun _ h => nomatch h⟩
  | succ n ih =>
    intro code s hcode
    cases code with
    | nil => exact ⟨⟨rfl, rfl, rfl⟩, fun _ h => nomatch h⟩
    | cons instr rest =>
      have hinstr := hcode instr List.mem_cons_self
      rw [alone]
      cases hexec : exec 0 instr s with
      | none => exact ⟨⟨rfl, rfl, rfl⟩, fun _ h => nomatch h⟩
      | some result =>
        obtain ⟨s', next⟩ := result
        obtain ⟨hsame, hnext⟩ := exec_counts hinstr hexec
        have hrest : ∀ instr' ∈ next.resume [] rest, counts instr' = true := by
          intro instr' hmem
          rcases mem_resume hmem with hmem | hmem
          · exact hnext instr' hmem
          · exact hcode instr' (List.mem_cons_of_mem _ hmem)
        obtain ⟨hsame', hdone⟩ := ih (s := s') hrest
        refine ⟨hsame.trans hsame', fun instr' hmem => ?_⟩
        rcases List.mem_cons.mp hmem with rfl | hmem
        · exact hinstr
        · exact hdone instr' hmem

/-! ## A delivery -/

/-- A delivery that stops after `n` steps, if it has not come to its end. -/
def deliver (payload : Payload) (n : Nat) (s : Store) : List Instr × Store :=
  alone n [.findRecipient payload] s

/-- The updates of the recipient that have been executed. -/
def updates (done : List Instr) : Nat :=
  done.countP fun
    | .updateRecipient _ _ _ => true
    | _ => false

/-- The updates of the counters that have been executed. -/
def refreshes (done : List Instr) : Nat :=
  done.countP fun
    | .saveCounters _ _ => true
    | _ => false

theorem updates_append (xs ys : List Instr) : updates (xs ++ ys) = updates xs + updates ys :=
  List.countP_append

theorem refreshes_append (xs ys : List Instr) :
    refreshes (xs ++ ys) = refreshes xs + refreshes ys :=
  List.countP_append

def keyOf (payload : Payload) (r : Nat) (model : Recipient) : DedupeKey :=
  buildDedupeKey payload model.campaign r

/-- The event cannot be mapped, or has been recorded. -/
def Over (payload : Payload) (s : Store) : Prop :=
  ∀ r model, accepts s payload = some (r, model) → recorded s (keyOf payload r model) = true

section
variable {s : Store} {payload : Payload} {r : Nat} {model : Recipient}

theorem exec_findRecipient (h : accepts s payload = some (r, model)) :
    exec 0 (.findRecipient payload) s = some (s, .go [.recordEvent payload r model]) := by
  show findRecipient s payload = _
  rw [findRecipient_eq, h]

/-- A delivery of an event that is over changes nothing. -/
theorem deliver_over (h : Over payload s) (n : Nat) :
    (deliver payload n s).2 = s ∧ updates (deliver payload n s).1 = 0 ∧
      refreshes (deliver payload n s).1 = 0 := by
  rw [deliver]
  cases n with
  | zero => exact ⟨rfl, rfl, rfl⟩
  | succ n =>
    cases haccepts : accepts s payload with
    | none =>
      have hexec : exec 0 (.findRecipient payload) s = some (s, .raise) := by
        show findRecipient s payload = _
        rw [findRecipient_eq, haccepts]
      rw [alone_raise hexec]
      exact ⟨rfl, rfl, rfl⟩
    | some found =>
      obtain ⟨r, model⟩ := found
      rw [alone_go (exec_findRecipient haccepts)]
      cases n with
      | zero => exact ⟨rfl, rfl, rfl⟩
      | succ n =>
        have hexec : exec 0 (.recordEvent payload r model) s = some (s, .go []) :=
          if_pos (h r model haccepts)
        rw [alone_go hexec, alone_nil]
        exact ⟨rfl, rfl, rfl⟩

theorem over_recordEvent (h : accepts s payload = some (r, model)) :
    Over payload (recordEvent s payload model.campaign r) := by
  intro r' model' haccepts
  have hsame : accepts (recordEvent s payload model.campaign r) payload = some (r, model) := h
  rw [hsame] at haccepts
  cases haccepts
  exact List.any_eq_true.mpr ⟨_, List.mem_append_right _ (List.mem_singleton.mpr rfl),
    decide_eq_true rfl⟩

theorem over_updated (h : accepts s payload = some (r, model)) {t : Store}
    (hsame : SameMap (updated s payload r model) t) : Over payload t := by
  intro r' model' haccepts
  rw [hsame.accepts, accepts_updated h] at haccepts
  cases haccepts
  rw [recorded, hsame.events]
  exact List.any_eq_true.mpr ⟨_, List.mem_append_right _ (List.mem_singleton.mpr rfl),
    decide_eq_true rfl⟩

/-- A delivery that gets as far as the record. -/
theorem deliver_new (h : accepts s payload = some (r, model))
    (hnew : recorded s (keyOf payload r model) = false) (n : Nat) :
    deliver payload (n + 2) s = (.findRecipient payload :: .recordEvent payload r model ::
      (alone n [.updateRecipient payload r model]
        (recordEvent s payload model.campaign r)).1,
      (alone n [.updateRecipient payload r model] (recordEvent s payload model.campaign r)).2) := by
  have hexec : exec 0 (.recordEvent payload r model) s =
      some (recordEvent s payload model.campaign r, .go [.updateRecipient payload r model]) :=
    if_neg (Bool.eq_false_iff.mp hnew)
  rw [deliver, alone_go (exec_findRecipient h), alone_go hexec]

/-- A delivery that gets as far as the update. -/
theorem deliver_updated (h : accepts s payload = some (r, model))
    (hnew : recorded s (keyOf payload r model) = false) (n : Nat) :
    deliver payload (n + 3) s = (.findRecipient payload :: .recordEvent payload r model ::
      .updateRecipient payload r model ::
        (alone n [.tally model.campaign] (updated s payload r model)).1,
      (alone n [.tally model.campaign] (updated s payload r model)).2) := by
  have hexec : exec 0 (.updateRecipient payload r model)
      (recordEvent s payload model.campaign r) =
        some (updated s payload r model, .go [.tally model.campaign]) := rfl
  rw [deliver_new h hnew (n + 1), alone_go hexec]

theorem updates_counts {done : List Instr} (h : ∀ instr ∈ done, counts instr = true) :
    updates done = 0 := by
  rw [updates, List.countP_eq_zero]
  intro instr hinstr
  have hcounts := h instr hinstr
  cases instr with
  | updateRecipient => exact nomatch hcounts
  | _ => exact Bool.false_ne_true

/-- The guardrails pause the campaign, or do nothing. -/
theorem alone_guardrails (n i : Nat) (s : Store) :
    refreshes (alone n [.loadGuardrails i] s).1 = 0 ∧
      ((alone n [.loadGuardrails i] s).2 = s ∨
        (alone n [.loadGuardrails i] s).2 = updateStatus s i .paused) := by
  cases n with
  | zero => exact ⟨rfl, .inl rfl⟩
  | succ n =>
    have hload : exec 0 (.loadGuardrails i) s =
        loadCampaign s i fun campaign => [.evaluateAndApply i campaign] := rfl
    rw [loadCampaign] at hload
    split at hload
    · rw [alone_go hload, alone_nil]
      exact ⟨rfl, .inl rfl⟩
    next campaign _ =>
      rw [alone_go hload]
      cases n with
      | zero => exact ⟨rfl, .inl rfl⟩
      | succ n =>
        have hexec : exec 0 (.evaluateAndApply i campaign) s = some
          (if evaluate s.config campaign then updateStatus s i .paused else s, .go []) := rfl
        rw [alone_go hexec, alone_nil]
        refine ⟨rfl, ?_⟩
        dsimp only
        split
        · exact .inr rfl
        · exact .inl rfl

/-- The counters are saved in the second step after the update. -/
theorem alone_tally (n i : Nat) (s : Store) :
    alone (n + 2) [.tally i] s = (.tally i :: .saveCounters i (totals s i) ::
      (alone n [.loadGuardrails i] (saveCounters s i (totals s i))).1,
      (alone n [.loadGuardrails i] (saveCounters s i (totals s i))).2) := by
  have htally : exec 0 (.tally i) s = some (s, .go [.saveCounters i (totals s i)]) := rfl
  have hsave : exec 0 (.saveCounters i (totals s i)) s =
      some (saveCounters s i (totals s i), .go [.loadGuardrails i]) := rfl
  rw [alone_go htally, alone_go hsave]

theorem refreshes_tally (n i : Nat) (s : Store) :
    refreshes (alone n [.tally i] s).1 = if 2 ≤ n then 1 else 0 := by
  match n with
  | 0 => rfl
  | 1 => rfl
  | n + 2 =>
    have hrest := (alone_guardrails n i (saveCounters s i (totals s i))).1
    rw [refreshes] at hrest
    rw [alone_tally, if_pos (Nat.le_add_left 2 n), refreshes, List.countP_cons,
      List.countP_cons, hrest]
    rfl

end

/-! ## Deliveries one after another -/

/-- Deliveries of one event, each with the number of steps it gets. -/
def deliveries (payload : Payload) : List Nat → Store → List Instr × Store
  | [], s => ([], s)
  | n :: ns, s =>
      ((deliver payload n s).1 ++ (deliveries payload ns (deliver payload n s).2).1,
        (deliveries payload ns (deliver payload n s).2).2)

/-- The number of steps of the first delivery that records the event. -/
def recording (ns : List Nat) : Option Nat := ns.find? (2 ≤ ·)

def statusOf (s : Store) (r : Nat) : Option RecipientStatus :=
  s.recipients[r]?.map (·.status)

theorem deliveries_over {payload : Payload} (ns : List Nat) :
    ∀ {s : Store}, Over payload s → (deliveries payload ns s).2 = s ∧
      updates (deliveries payload ns s).1 = 0 ∧ refreshes (deliveries payload ns s).1 = 0 := by
  induction ns with
  | nil => exact fun _ => ⟨rfl, rfl, rfl⟩
  | cons n ns ih =>
    intro s hover
    obtain ⟨hsame, hupdates, hrefreshes⟩ := deliver_over hover n
    rw [deliveries, hsame]
    obtain ⟨hsame', hupdates', hrefreshes'⟩ := ih hover
    refine ⟨hsame', ?_, ?_⟩
    · rw [updates_append, hupdates, hupdates']
    · rw [refreshes_append, hrefreshes, hrefreshes']

/-- A delivery that stops in front of the record. -/
theorem deliver_early {s : Store} {payload : Payload} {r : Nat} {model : Recipient}
    (h : accepts s payload = some (r, model)) {n : Nat} (hn : n < 2) :
    (deliver payload n s).2 = s ∧ updates (deliver payload n s).1 = 0 ∧
      refreshes (deliver payload n s).1 = 0 := by
  match n with
  | 0 => exact ⟨rfl, rfl, rfl⟩
  | 1 =>
    rw [deliver, alone_go (exec_findRecipient h)]
    exact ⟨rfl, rfl, rfl⟩
  | n + 2 => exact absurd hn (by omega)

/-- A delivery that gets as far as the update. -/
theorem deliver_late {s : Store} {payload : Payload} {r : Nat} {model : Recipient}
    (h : accepts s payload = some (r, model))
    (hnew : recorded s (keyOf payload r model) = false) {n : Nat} (hn : 3 ≤ n) :
    Over payload (deliver payload n s).2 ∧ updates (deliver payload n s).1 = 1 ∧
      refreshes (deliver payload n s).1 = (if 5 ≤ n then 1 else 0) ∧
      statusOf (deliver payload n s).2 r =
        some (recipientStatusForEvent (normalizeEventType payload.eventType)) := by
  obtain ⟨n, rfl⟩ := Nat.exists_eq_add_of_le' hn
  have htally : ∀ instr ∈ [Instr.tally model.campaign], counts instr = true := by simp [counts]
  obtain ⟨hsame, hcounts⟩ := alone_counts n htally (s := updated s payload r model)
  have hupdates := updates_counts hcounts
  have hrefreshes := refreshes_tally n model.campaign (updated s payload r model)
  rw [updates] at hupdates
  rw [refreshes] at hrefreshes
  rw [deliver_updated h hnew]
  refine ⟨over_updated h hsame, ?_, ?_, ?_⟩
  · rw [updates, List.countP_cons, List.countP_cons, List.countP_cons, hupdates]
    rfl
  · rw [refreshes, List.countP_cons, List.countP_cons, List.countP_cons, hrefreshes]
    have hiff : 2 ≤ n ↔ 5 ≤ n + 3 := by omega
    simp only [hiff]
    rfl
  · have hmodel := (accepts_eq_some.mp h).2.1
    rw [statusOf, hsame.recipients, recipients_updated hmodel, if_pos rfl]
    exact congrArg some (dirty_fresh model.status _)

/-- What comes of an event, by the delivery that records it. -/
theorem deliveries_cases {s : Store} {payload : Payload} {r : Nat} {model : Recipient}
    (h : accepts s payload = some (r, model))
    (hnew : recorded s (keyOf payload r model) = false) {n : Nat} {ns : List Nat}
    (hn : recording ns = some n) :
    (n = 2 → updates (deliveries payload ns s).1 = 0 ∧
      refreshes (deliveries payload ns s).1 = 0) ∧
    (3 ≤ n → updates (deliveries payload ns s).1 = 1 ∧
      refreshes (deliveries payload ns s).1 = (if 5 ≤ n then 1 else 0) ∧
      statusOf (deliveries payload ns s).2 r =
        some (recipientStatusForEvent (normalizeEventType payload.eventType))) := by
  induction ns with
  | nil => exact nomatch hn
  | cons m ns ih =>
    rw [deliveries, updates_append, refreshes_append]
    dsimp only
    rcases Nat.lt_or_ge m 2 with hm | hm
    · -- Nothing has been recorded: the next deliveries decide.
      obtain ⟨hsame, hupdates, hrefreshes⟩ := deliver_early h hm
      have hskip : recording (m :: ns) = recording ns :=
        List.find?_cons_of_neg (by simp only [decide_eq_true_eq]; omega)
      rw [hskip] at hn
      rw [hsame, hupdates, hrefreshes, Nat.zero_add, Nat.zero_add]
      exact ih hn
    · -- The event is recorded, so what follows does nothing.
      have hfirst : recording (m :: ns) = some m := List.find?_cons_of_pos (decide_eq_true hm)
      rw [hfirst] at hn
      cases hn
      constructor
      · rintro rfl
        have hstop := deliver_new h hnew 0
        have hover : Over payload (deliver payload 2 s).2 := by
          rw [hstop]
          exact over_recordEvent h
        obtain ⟨-, hupdates, hrefreshes⟩ := deliveries_over ns hover
        rw [hupdates, hrefreshes, hstop]
        exact ⟨rfl, rfl⟩
      · intro hlate
        obtain ⟨hover, hupdates, hrefreshes, hstatus⟩ := deliver_late h hnew hlate
        obtain ⟨hsame, hupdates', hrefreshes'⟩ := deliveries_over ns hover
        rw [hsame, hupdates, hrefreshes, hupdates', hrefreshes']
        exact ⟨rfl, rfl, hstatus⟩

theorem two_le_of_recording {ns : List Nat} {n : Nat} (h : recording ns = some n) : 2 ≤ n := by
  have hp : decide (2 ≤ n) = true := List.find?_some (p := fun n => decide (2 ≤ n)) h
  exact of_decide_eq_true hp

/-- A delivery that came to its end is preceded by one that records the event, or is one. -/
theorem recording_of_end {ns : List Nat} (h : ∃ n ∈ ns, 7 ≤ n) : ∃ n, recording ns = some n := by
  obtain ⟨n, hn, hend⟩ := h
  refine Option.isSome_iff_exists.mp (List.find?_isSome.mpr ⟨n, hn, ?_⟩)
  exact decide_eq_true (by omega)

/-- However often a new event is delivered and wherever the deliveries stop, once a delivery has
come to its end the event has taken effect exactly once exactly if the delivery that recorded it
was not stopped there; the counters have been refreshed exactly if it got that far. -/
theorem takesEffectOnce_iff (s : Store) (payload : Payload) (r : Nat) (model : Recipient)
    (ns : List Nat) (haccepts : accepts s payload = some (r, model))
    (hnew : recorded s (keyOf payload r model) = false) (hend : ∃ n ∈ ns, 7 ≤ n) :
    (updates (deliveries payload ns s).1 = 1 ∧
      statusOf (deliveries payload ns s).2 r =
        some (recipientStatusForEvent (normalizeEventType payload.eventType)) ↔
      recording ns ≠ some 2) ∧
    (refreshes (deliveries payload ns s).1 = 1 ↔ ∃ n, recording ns = some n ∧ 5 ≤ n) := by
  obtain ⟨n, hn⟩ := recording_of_end hend
  have hle := two_le_of_recording hn
  obtain ⟨hlost, heffect⟩ := deliveries_cases haccepts hnew hn
  rcases Nat.eq_or_lt_of_le hle with htwo | hlate
  · obtain ⟨hupdates, hrefreshes⟩ := hlost htwo.symm
    rw [hupdates, hrefreshes, hn, ← htwo]
    refine ⟨⟨fun h => (nomatch h.1), fun h => absurd rfl h⟩, ⟨(nomatch ·), ?_⟩⟩
    rintro ⟨m, hm, hfive⟩
    cases hm
    exact absurd hfive (by omega)
  · obtain ⟨hupdates, hrefreshes, hstatus⟩ := heffect hlate
    rw [hupdates, hrefreshes, hstatus, hn]
    refine ⟨⟨fun _ h => ?_, fun _ => ⟨rfl, rfl⟩⟩, ⟨fun h => ⟨n, rfl, ?_⟩, ?_⟩⟩
    · cases h
      exact absurd hlate (Nat.lt_irrefl 2)
    · by_contra hfive
      rw [if_neg hfive] at h
      exact nomatch h
    · rintro ⟨m, hm, hfive⟩
      cases hm
      exact if_pos hfive

/-- One recipient that has been dispatched. -/
def dispatchedOne : Store :=
  { consents := [{ status := .approved }]
    campaigns := [{ job := 0, consent := 0, status := .running, creditsReserved := 1 }]
    recipients := [{ campaign := 0, email := "a@example.com".toList, status := .dispatched
                     attemptCount := 1, providerMessageId := some "m1".toList, sent := true }] }

def deliveredOne : Payload :=
  { provider := "generic".toList, providerMessageId := some "m1".toList, email := none
    campaign := some 0, eventType := "delivered".toList, eventTime := some 20
    smtpCode := none, enhancedCode := none, eventId := some "e1".toList }

/-- A delivery that stops after the update, and two that come to their end. -/
theorem takesEffectOnce_iff_afterUpdate :
    updates (deliveries deliveredOne [3, 7, 7] dispatchedOne).1 = 1 ∧
      statusOf (deliveries deliveredOne [3, 7, 7] dispatchedOne).2 0 =
        some (recipientStatusForEvent (normalizeEventType deliveredOne.eventType)) :=
  (takesEffectOnce_iff dispatchedOne deliveredOne 0 _ [3, 7, 7] rfl (by decide)
    ⟨7, by decide, Nat.le_refl 7⟩).1.mpr (by decide)

/-- A delivery that stops after the record, and two that come to their end: the event is
recorded, and its recipient has not been updated. -/
theorem takesEffectOnce_fails :
    (∃ model, accepts dispatchedOne deliveredOne = some (0, model) ∧
      recorded dispatchedOne (keyOf deliveredOne 0 model) = false ∧
      recorded (deliveries deliveredOne [2, 7, 7] dispatchedOne).2
        (keyOf deliveredOne 0 model) = true) ∧
    updates (deliveries deliveredOne [2, 7, 7] dispatchedOne).1 = 0 ∧
    statusOf (deliveries deliveredOne [2, 7, 7] dispatchedOne).2 0 = some .dispatched :=
  ⟨⟨_, rfl, by decide, by decide⟩, by decide, by decide⟩

end ValidEmailVerifier.SeedSend
