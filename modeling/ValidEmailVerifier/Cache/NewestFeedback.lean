/-
# `Cache.NewestFeedback` — which feedback the lookup answers with

Feedback about an address may come in any order and in any cut into calls of `ingest`.  Its time
goes to the database as its own clock shows it, in whole seconds: the offset of the clock and the
fraction of the second are lost.  A lookup compares what was stored.

So two times that differ may be stored as one, and then the item that comes later overwrites the
other; or they may be stored in the wrong order.  The lookup answers with the newest item
in every order and cut exactly if the stored times name it (`newestWins_iff`).
-/
import Mathlib
import ValidEmailVerifier.Cache.IngestedRows

namespace ValidEmailVerifier.FeedbackHistory

open Text OutcomeIngestor DatabaseEmailVerificationCacheStore Upserts
open CacheLookup (normalizeEmail normalizeEmails isFalsy)

/-! ## What an item says -/

/-- A time that `Carbon::parse` reads: the microseconds of UTC, and the seconds by which the
clock of the text is ahead. -/
structure Stamp where
  micros : Int
  offset : Int := 0
  deriving DecidableEq

def Stamp.second (t : Stamp) : Int := t.micros / 1000000

/-- What is bound for the database: `Y-m-d H:i:s` of the clock of the text. -/
def Stamp.stored (t : Stamp) : Int := t.second + t.offset

structure Observation where
  email : Text
  outcome : OutputType
  reason : Option Text
  time : Stamp
  deriving DecidableEq

/-- What a valid item says. -/
def observe (php : Php) (stamp : Text → Option Stamp) (item : Item) : Option Observation :=
  if trim item.email = [] ∨ php.filterVarEmail (trim item.email) = false then none
  else
    match OutputType.ofName? (strtolower (trim item.outcome)), stamp item.observedAt with
    | some outcome, some time =>
        some
          { email := normalizeEmail (trim item.email)
            outcome := outcome
            reason := if trim item.reasonCode ≠ [] then some (trim item.reasonCode) else none
            time := time }
    | _, _ => none

/-- The newest observation of an address. -/
def newest (observations : List Observation) (email : Text) : Option Observation :=
  (observations.filter (·.email = email)).foldl (fun found o =>
    match found with
    | none => some o
    | some old => if old.time.micros < o.time.micros then some o else some old) none

/-- The outcome and the reason of an observation, as a lookup gives them. -/
def Observation.hit (o : Observation) : ParseAndChunkJob.Hit :=
  .entry (some o.outcome.name) (some o.outcome.name) o.reason none

/-- The answer for some addresses: each has its newest observation, if that is fresh. -/
def newestAnswers (observations : List Observation) (freshnessDays now : Int)
    (emails : List Text) : List (Text × ParseAndChunkJob.Hit) :=
  (normalizeEmails emails).filterMap fun email =>
    ((newest observations email).filter fun o =>
      now - freshnessDays * 86400 ≤ o.time.second).map fun o => (email, o.hit)

/-! ## Orders and cuts -/

/-- Calls that ingest the items, each once. -/
structure Cut (stamp : Text → Option Stamp) (items : List Item) (calls : List Import) :
    Prop where
  items : (calls.flatMap Import.items).Perm items
  parse : ∀ call ∈ calls, call.parse = fun s => (stamp s).map Stamp.stored

/-- No two of these addresses have one hash. -/
def Apart (hash : Text → Text) (observations : List Observation) (emails : List Text) : Prop :=
  ∀ email ∈ normalizeEmails emails, ∀ o ∈ observations, hash o.email = hash email →
    o.email = email

/-- However the items are ordered and cut, and in whatever order the database has its rows, a
lookup answers with the newest observations. -/
def NewestWins (php : Php) (hash : Text → Text) (stamp : Text → Option Stamp)
    (items : List Item) : Prop :=
  ∀ calls, Cut stamp items calls → ∀ table, table.Perm (tableAfter php hash calls) →
    ∀ freshnessDays now emails, 0 < freshnessDays →
      Apart hash (items.filterMap (observe php stamp)) emails →
        lookupMany hash freshnessDays now table emails =
          newestAnswers (items.filterMap (observe php stamp)) freshnessDays now emails

/-- The stored times name the newest observation of each address: none is stored as later than
its second, one is stored as its second, and those that are say the same. -/
def StoredTimesTell (observations : List Observation) : Prop :=
  ∀ email, ∀ n ∈ newest observations email,
    (∀ o ∈ observations, o.email = email → o.time.stored ≤ n.time.second) ∧
    (∃ o ∈ observations, o.email = email ∧ o.time.stored = n.time.second) ∧
    ∀ o ∈ observations, o.email = email → o.time.stored = n.time.second →
      o.outcome = n.outcome ∧ o.reason = n.reason

/-- Every item has a time of its own. -/
def Explicit (items : List Item) : Prop := ∀ item ∈ items, isFalsy item.observedAt = false

/-- Items of one address have different times. -/
def DistinctTimes (stamp : Text → Option Stamp) (items : List Item) : Prop :=
  items.Pairwise fun a b => normalizeEmail a.email = normalizeEmail b.email →
    ∀ t ∈ stamp a.observedAt, ∀ t' ∈ stamp b.observedAt, t.micros ≠ t'.micros

/-! ## Rows and observations -/

section Rows
variable {php : Php} {hash : Text → Text} {stamp : Text → Option Stamp} {call : Import}
  {item : Item} {row : Outcome} {o : Observation}

/-- The row says what the observation says. -/
structure Says (hash : Text → Text) (row : Outcome) (o : Observation) : Prop where
  emailHash : row.emailHash = hash o.email
  outcome : row.outcome = o.outcome
  reason : row.reasonCode = o.reason
  observedAt : row.observedAt = o.time.stored

theorem Says.rowKey (h : Says hash row o) :
    OutcomeIngestor.rowKey row = (hash o.email, o.outcome, o.time.stored) := by
  rw [OutcomeIngestor.rowKey, h.emailHash, h.outcome, h.observedAt]

theorem Says.hit (h : Says hash row o) : hitOf row = o.hit := by
  rw [hitOf, Observation.hit, h.outcome, h.reason]

/-- An item with a time of its own is read as `observe` says. -/
theorem readRow_spec (php : Php) (hash : Text → Text)
    (hparse : call.parse = fun s => (stamp s).map Stamp.stored)
    (htime : isFalsy item.observedAt = false) :
    (observe php stamp item = none ∧ readRow php hash call item = none) ∨
      ∃ o row, observe php stamp item = some o ∧ readRow php hash call item = some row ∧
        Says hash row o := by
  rw [observe, readRow, readItem]
  by_cases hemail : trim item.email = [] ∨ php.filterVarEmail (trim item.email) = false
  · rw [if_pos hemail]
    simp only [if_pos hemail]
    exact .inl ⟨trivial, rfl⟩
  · rw [if_neg hemail]
    simp only [if_neg hemail, htime, hparse, Bool.false_eq_true, if_false]
    cases OutputType.ofName? (strtolower (trim item.outcome)) with
    | none => exact .inl ⟨rfl, rfl⟩
    | some outcome =>
      cases stamp item.observedAt with
      | none => exact .inl ⟨rfl, rfl⟩
      | some time => exact .inr ⟨_, _, rfl, rfl, rfl, rfl, rfl, rfl⟩

theorem observe_of_readRow (hparse : call.parse = fun s => (stamp s).map Stamp.stored)
    (htime : isFalsy item.observedAt = false) (h : readRow php hash call item = some row) :
    ∃ o, observe php stamp item = some o ∧ Says hash row o := by
  rcases readRow_spec php hash hparse htime with ⟨-, hnone⟩ | ⟨o, row', ho, hrow, hstates⟩
  · rw [hnone] at h
    cases h
  · rw [h] at hrow
    obtain rfl := Option.some.inj hrow
    exact ⟨o, ho, hstates⟩

theorem readRow_of_observe (hash : Text → Text)
    (hparse : call.parse = fun s => (stamp s).map Stamp.stored)
    (htime : isFalsy item.observedAt = false) (h : observe php stamp item = some o) :
    ∃ row, readRow php hash call item = some row ∧ Says hash row o := by
  rcases readRow_spec php hash hparse htime with ⟨hnone, -⟩ | ⟨o', row, ho, hrow, hstates⟩
  · rw [hnone] at h
    cases h
  · rw [h] at ho
    obtain rfl := Option.some.inj ho
    exact ⟨row, hrow, hstates⟩

/-- The address of an observation is that of its item. -/
theorem email_of_observe (h : observe php stamp item = some o) :
    normalizeEmails [trim item.email] = [o.email] := by
  rw [observe] at h
  split at h
  · cases h
  · next hemail =>
    split at h
    · obtain rfl := Option.some.inj h
      have hne : normalizeEmail (trim item.email) ≠ [] := by
        rw [normalizeEmail, trim_trim]
        exact fun hnil => hemail (.inl (List.map_eq_nil_iff.mp hnil))
      rw [normalizeEmails, List.map_cons, List.map_nil, List.filter_cons,
        if_pos (decide_eq_true hne), List.filter_nil]
      rfl
    · cases h

end Rows

section Table
variable {php : Php} {hash : Text → Text} {stamp : Text → Option Stamp} {items : List Item}
  {calls : List Import} {row : Outcome} {o : Observation}

theorem tableAfter_eq (calls : List Import) :
    tableAfter php hash calls = putAll rowKey [] (calls.flatMap (rowsOf php hash)) :=
  ingestAll_eq [] calls

/-- A row of the table is of an item. -/
theorem Cut.observation (hcut : Cut stamp items calls) (hexplicit : Explicit items)
    (hrow : row ∈ tableAfter php hash calls) :
    ∃ o ∈ items.filterMap (observe php stamp), Says hash row o := by
  rw [tableAfter_eq] at hrow
  obtain ⟨before, after, hrows, -⟩ := mem_putAll_nil.mp hrow
  have hmem : row ∈ calls.flatMap (rowsOf php hash) := hrows ▸ by simp
  obtain ⟨call, hcall, hread⟩ := List.mem_flatMap.mp hmem
  obtain ⟨item, hitem, hitemrow⟩ := List.mem_filterMap.mp hread
  have hin : item ∈ items := hcut.items.subset (List.mem_flatMap.mpr ⟨call, hcall, hitem⟩)
  obtain ⟨o, ho, hstates⟩ :=
    observe_of_readRow (hcut.parse call hcall) (hexplicit item hin) hitemrow
  exact ⟨o, List.mem_filterMap.mpr ⟨item, hin, ho⟩, hstates⟩

/-- An item that is valid has left a row with its key. -/
theorem Cut.exists_row (hcut : Cut stamp items calls) (hexplicit : Explicit items)
    (ho : o ∈ items.filterMap (observe php stamp)) :
    ∃ row ∈ tableAfter php hash calls,
      rowKey row = (hash o.email, o.outcome, o.time.stored) := by
  obtain ⟨item, hitem, hobserve⟩ := List.mem_filterMap.mp ho
  obtain ⟨call, hcall, hcallitem⟩ := List.mem_flatMap.mp (hcut.items.mem_iff.mpr hitem)
  obtain ⟨row, hread, hstates⟩ :=
    readRow_of_observe hash (hcut.parse call hcall) (hexplicit item hitem) hobserve
  have hmem : row ∈ calls.flatMap (rowsOf php hash) :=
    List.mem_flatMap.mpr ⟨call, hcall, List.mem_filterMap.mpr ⟨item, hcallitem, hread⟩⟩
  obtain ⟨row', hrow', hkey⟩ := @exists_of_mem Outcome _ _ rowKey [] _ _ hmem
  exact ⟨row', by rw [tableAfter_eq]; exact hrow', hkey.trans hstates.rowKey⟩

/-- There is an order in which the row of a given item is the last. -/
theorem exists_cut (hexplicit : Explicit items)
    (ho : o ∈ items.filterMap (observe php stamp)) :
    ∃ calls, Cut stamp items calls ∧ ∃ row ∈ tableAfter php hash calls, Says hash row o := by
  obtain ⟨item, hitem, hobserve⟩ := List.mem_filterMap.mp ho
  obtain ⟨before, after, rfl⟩ := List.append_of_mem hitem
  let call : Import :=
    { items := before ++ after ++ [item]
      defaultObservedAt := 0
      parse := fun s => (stamp s).map Stamp.stored }
  have hcut : Cut stamp (before ++ item :: after) [call] := by
    refine ⟨?_, fun c hc => by rw [List.mem_singleton.mp hc]⟩
    rw [List.flatMap_singleton]
    exact (List.perm_append_singleton item _).trans List.perm_middle.symm
  obtain ⟨row, hread, hstates⟩ :=
    @readRow_of_observe php stamp call item o hash rfl (hexplicit item hitem) hobserve
  refine ⟨[call], hcut, row, ?_, hstates⟩
  have hrows : [call].flatMap (rowsOf php hash) =
      (before ++ after).filterMap (readRow php hash call) ++ [row] := by
    rw [List.flatMap_singleton, rowsOf, List.filterMap_append]
    congr 1
    rw [List.filterMap_cons, hread]
    rfl
  rw [tableAfter_eq, hrows, mem_putAll_nil]
  exact ⟨_, [], rfl, fun _ hmem => absurd hmem List.not_mem_nil⟩

end Table

/-! ## The newest observation and the latest row -/

theorem name_inj {t t' : OutputType} (h : t.name = t'.name) : t = t' := by
  have hname := ParseAndChunkJob.ofName?_name t
  rw [h, ParseAndChunkJob.ofName?_name t'] at hname
  exact (Option.some.inj hname).symm

theorem latest_eq_argmax (rows : List Outcome) :
    latest rows = rows.argmax fun row => row.observedAt := by
  rw [latest, List.argmax]
  congr 1
  funext found row
  cases found with
  | none => rfl
  | some old => rfl

theorem newest_eq_argmax (observations : List Observation) (email : Text) :
    newest observations email =
      (observations.filter (·.email = email)).argmax fun o => o.time.micros := by
  rw [newest, List.argmax]
  congr 1
  funext found o
  cases found with
  | none => rfl
  | some old => rfl

section Newest
variable {observations : List Observation} {email : Text} {n : Observation}

theorem mem_of_newest (h : n ∈ newest observations email) :
    n ∈ observations ∧ n.email = email := by
  rw [newest_eq_argmax] at h
  have hmem := List.mem_filter.mp (List.argmax_mem h)
  exact ⟨hmem.1, of_decide_eq_true hmem.2⟩

theorem newest_eq_none_iff :
    newest observations email = none ↔ ∀ o ∈ observations, o.email ≠ email := by
  rw [newest_eq_argmax, List.argmax_eq_none, List.filter_eq_nil_iff]
  simp only [decide_eq_true_eq, ne_eq]

end Newest

/-! ## When the newest wins -/

section Lookup
variable {php : Php} {hash : Text → Text} {stamp : Text → Option Stamp} {items : List Item}
  {calls : List Import} {table : List Outcome} {email : Text} {cutoff : Int}

/-- The rows that a lookup reads for an address. -/
def freshRows (hash : Text → Text) (table : List Outcome) (cutoff : Int) (email : Text) :
    List Outcome :=
  table.filter fun row => row.emailHash = hash email ∧ cutoff ≤ row.observedAt

theorem mem_freshRows {row : Outcome} : row ∈ freshRows hash table cutoff email ↔
    row ∈ table ∧ row.emailHash = hash email ∧ cutoff ≤ row.observedAt := by
  rw [freshRows, List.mem_filter, decide_eq_true_eq]

/-- Every row that is read is of an observation of the address. -/
theorem Cut.observation_of_fresh (hcut : Cut stamp items calls) (hexplicit : Explicit items)
    (htable : table.Perm (tableAfter php hash calls))
    (hapart : ∀ o ∈ items.filterMap (observe php stamp), hash o.email = hash email →
      o.email = email) {row : Outcome} (hrow : row ∈ freshRows hash table cutoff email) :
    ∃ o ∈ items.filterMap (observe php stamp), o.email = email ∧ Says hash row o := by
  obtain ⟨hmem, hhash, -⟩ := mem_freshRows.mp hrow
  obtain ⟨o, ho, hstates⟩ := hcut.observation hexplicit (htable.subset hmem)
  exact ⟨o, ho, hapart o ho (hstates.emailHash.symm.trans hhash), hstates⟩

/-- If the stored times tell, the row that is found states the outcome and reason of the newest
observation that is fresh. -/
theorem latest_freshRows_some (hexplicit : Explicit items) (hcut : Cut stamp items calls)
    (htable : table.Perm (tableAfter php hash calls))
    (htell : StoredTimesTell (items.filterMap (observe php stamp)))
    (hapart : ∀ o ∈ items.filterMap (observe php stamp), hash o.email = hash email →
      o.email = email)
    {n : Observation} (hnewest : n ∈ newest (items.filterMap (observe php stamp)) email)
    (hfresh : cutoff ≤ n.time.second) :
    (latest (freshRows hash table cutoff email)).map hitOf = some n.hit := by
  obtain ⟨hle, ⟨m, hm, hmemail, hmstored⟩, hsame⟩ := htell email n hnewest
  -- a row of the second of the newest is read
  obtain ⟨first, hfirst, hkey⟩ := @Cut.exists_row php hash stamp items calls m hcut hexplicit hm
  rw [hmemail, hmstored] at hkey
  obtain ⟨hhash, houtcome, hstored⟩ : first.emailHash = hash email ∧
      first.outcome = m.outcome ∧ first.observedAt = n.time.second :=
    ⟨congrArg (·.1) hkey, congrArg (·.2.1) hkey, congrArg (·.2.2) hkey⟩
  have hread : first ∈ freshRows hash table cutoff email :=
    mem_freshRows.mpr ⟨htable.mem_iff.mpr hfirst, hhash, hstored ▸ hfresh⟩
  rw [latest_eq_argmax]
  cases hlatest : (freshRows hash table cutoff email).argmax fun row => row.observedAt with
  | none =>
    rw [List.argmax_eq_none.mp hlatest] at hread
    exact absurd hread List.not_mem_nil
  | some row =>
    obtain ⟨o, ho, hemail, hstates⟩ :=
      hcut.observation_of_fresh hexplicit htable hapart (List.argmax_mem hlatest)
    have hlast : o.time.stored = n.time.second := by
      have hmax := List.le_of_mem_argmax hread hlatest
      rw [hstored, hstates.observedAt] at hmax
      exact le_antisymm (hle o ho hemail) hmax
    obtain ⟨hout, hreason⟩ := hsame o ho hemail hlast
    rw [Option.map_some, hstates.hit, Observation.hit, Observation.hit, hout, hreason]

/-- **Stored times that tell give the newest observation**, for every address. -/
theorem latest_freshRows (hexplicit : Explicit items) (hcut : Cut stamp items calls)
    (htable : table.Perm (tableAfter php hash calls))
    (htell : StoredTimesTell (items.filterMap (observe php stamp)))
    (hapart : ∀ o ∈ items.filterMap (observe php stamp), hash o.email = hash email →
      o.email = email) :
    (latest (freshRows hash table cutoff email)).map hitOf =
      ((newest (items.filterMap (observe php stamp)) email).filter fun o =>
        cutoff ≤ o.time.second).map Observation.hit := by
  cases hnewest : newest (items.filterMap (observe php stamp)) email with
  | none =>
    have hnil : freshRows hash table cutoff email = [] := by
      rw [List.eq_nil_iff_forall_not_mem]
      intro row hrow
      obtain ⟨o, ho, hemail, -⟩ := hcut.observation_of_fresh hexplicit htable hapart hrow
      exact newest_eq_none_iff.mp hnewest o ho hemail
    rw [hnil]
    rfl
  | some n =>
    by_cases hfresh : cutoff ≤ n.time.second
    · rw [Option.filter_some, if_pos (decide_eq_true hfresh),
        latest_freshRows_some hexplicit hcut htable htell hapart hnewest hfresh]
      rfl
    · have hnil : freshRows hash table cutoff email = [] := by
        rw [List.eq_nil_iff_forall_not_mem]
        intro row hrow
        obtain ⟨o, ho, hemail, hstates⟩ :=
          hcut.observation_of_fresh hexplicit htable hapart hrow
        have hbound : row.observedAt ≤ n.time.second :=
          hstates.observedAt ▸ (htell email n hnewest).1 o ho hemail
        exact hfresh ((mem_freshRows.mp hrow).2.2.trans hbound)
      rw [hnil, Option.filter_some, if_neg (fun h => hfresh (of_decide_eq_true h))]
      rfl

theorem lookupMany_eq {freshnessDays now : Int} (hdays : 0 < freshnessDays)
    (table : List Outcome) (emails : List Text) :
    lookupMany hash freshnessDays now table emails =
      (normalizeEmails emails).filterMap fun email =>
        ((latest (freshRows hash table (now - freshnessDays * 86400) email)).map hitOf).map
          fun hit => (email, hit) := by
  rw [lookupMany, if_neg (not_le.mpr hdays)]
  refine List.filterMap_congr fun email _ => ?_
  rw [Option.map_map]
  rfl

theorem newestAnswers_eq {freshnessDays now : Int} (observations : List Observation)
    (emails : List Text) :
    newestAnswers observations freshnessDays now emails =
      (normalizeEmails emails).filterMap fun email =>
        (((newest observations email).filter fun o =>
          now - freshnessDays * 86400 ≤ o.time.second).map Observation.hit).map
            fun hit => (email, hit) := by
  rw [newestAnswers]
  refine List.filterMap_congr fun email _ => ?_
  rw [Option.map_map]
  rfl

theorem newestWins_of_tell (hexplicit : Explicit items)
    (htell : StoredTimesTell (items.filterMap (observe php stamp))) :
    NewestWins php hash stamp items := by
  intro calls hcut table htable freshnessDays now emails hdays hapart
  rw [lookupMany_eq hdays, newestAnswers_eq]
  refine List.filterMap_congr fun email hemail => ?_
  rw [latest_freshRows hexplicit hcut htable htell (hapart email hemail)]

theorem eq_of_filterMap_singleton {f g : Text → Option ParseAndChunkJob.Hit}
    (h : [email].filterMap (fun e => (f e).map fun hit => (e, hit)) =
      [email].filterMap (fun e => (g e).map fun hit => (e, hit))) : f email = g email := by
  cases hf : f email with
  | none =>
    cases hg : g email with
    | none => rfl
    | some b => simp [hf, hg] at h
  | some a =>
    cases hg : g email with
    | none => simp [hf, hg] at h
    | some b =>
      simp only [List.filterMap_cons, hf, hg, Option.map_some, List.filterMap_nil] at h
      rw [(Prod.mk.inj (List.cons.inj h).1).2]

/-- If the newest wins, it wins at every cutoff. -/
theorem NewestWins.latest_eq (h : NewestWins php hash stamp items)
    (hhash : ∀ a ∈ items.filterMap (observe php stamp),
      ∀ b ∈ items.filterMap (observe php stamp), hash a.email = hash b.email → a.email = b.email)
    {n : Observation} (hn : n ∈ newest (items.filterMap (observe php stamp)) email)
    (hcut : Cut stamp items calls) (htable : table.Perm (tableAfter php hash calls))
    (cutoff : Int) :
    (latest (freshRows hash table cutoff email)).map hitOf =
      ((some n).filter fun o => cutoff ≤ o.time.second).map Observation.hit := by
  obtain ⟨hmem, rfl⟩ := mem_of_newest hn
  obtain ⟨item, -, hobserve⟩ := List.mem_filterMap.mp hmem
  have hemails := email_of_observe hobserve
  have hapart : Apart hash (items.filterMap (observe php stamp)) [trim item.email] := by
    intro email hemail o ho heq
    rw [hemails, List.mem_singleton] at hemail
    rw [hemail] at heq ⊢
    exact hhash o ho n hmem heq
  have hanswer := h calls hcut table htable 1 (cutoff + 86400) _ Int.one_pos hapart
  have hcutoff : cutoff + 86400 - 1 * 86400 = cutoff := by omega
  rw [lookupMany_eq Int.one_pos, newestAnswers_eq, hemails, hcutoff] at hanswer
  rw [← hn]
  exact eq_of_filterMap_singleton hanswer

/-- No observation of an address is stored after its newest, for then a lookup would find it where
the newest is stale. -/
theorem NewestWins.stored_le (h : NewestWins php hash stamp items) (hexplicit : Explicit items)
    (hhash : ∀ a ∈ items.filterMap (observe php stamp),
      ∀ b ∈ items.filterMap (observe php stamp), hash a.email = hash b.email → a.email = b.email)
    {n o : Observation} (hn : n ∈ newest (items.filterMap (observe php stamp)) email)
    (ho : o ∈ items.filterMap (observe php stamp)) (hoemail : o.email = email) :
    o.time.stored ≤ n.time.second := by
  by_contra hlater
  have hafter : n.time.second + 1 ≤ o.time.stored := Int.add_one_le_iff.mpr (not_le.mp hlater)
  obtain ⟨calls, hcut, row, hrow, hstates⟩ := @exists_cut php hash stamp items o hexplicit ho
  have hread : row ∈ freshRows hash (tableAfter php hash calls) (n.time.second + 1) email :=
    mem_freshRows.mpr ⟨hrow, hoemail ▸ hstates.emailHash, hstates.observedAt ▸ hafter⟩
  have hanswer := h.latest_eq hhash hn hcut (.refl _) (n.time.second + 1)
  have hstale : ¬ n.time.second + 1 ≤ n.time.second := by omega
  rw [Option.filter_some, if_neg (fun hd => hstale (of_decide_eq_true hd)), Option.map_none,
    Option.map_eq_none_iff, latest_eq_argmax, List.argmax_eq_none] at hanswer
  rw [hanswer] at hread
  exact List.not_mem_nil hread

/-- The rows that are read when the newest is only just fresh are stored as its second. -/
theorem NewestWins.observation_of_just (h : NewestWins php hash stamp items)
    (hexplicit : Explicit items)
    (hhash : ∀ a ∈ items.filterMap (observe php stamp),
      ∀ b ∈ items.filterMap (observe php stamp), hash a.email = hash b.email → a.email = b.email)
    {n : Observation} (hn : n ∈ newest (items.filterMap (observe php stamp)) email)
    (hcut : Cut stamp items calls) (htable : table.Perm (tableAfter php hash calls))
    {row : Outcome} (hrow : row ∈ freshRows hash table n.time.second email) :
    row.observedAt = n.time.second ∧
      ∃ o ∈ items.filterMap (observe php stamp), o.email = email ∧ Says hash row o := by
  obtain ⟨hmem, rfl⟩ := mem_of_newest hn
  obtain ⟨o, ho, hoemail, hstates⟩ := hcut.observation_of_fresh hexplicit htable
    (fun o ho heq => hhash o ho n hmem heq) hrow
  have hle := h.stored_le hexplicit hhash hn ho hoemail
  have hfresh := (mem_freshRows.mp hrow).2.2
  exact ⟨le_antisymm (hstates.observedAt ▸ hle) hfresh, o, ho, hoemail, hstates⟩

/-- Of rows with one time, the first of the table is found. -/
theorem latest_freshRows_cons {row : Outcome}
    (hfirst : row ∈ freshRows hash (row :: table) cutoff email)
    (htimes : ∀ other ∈ freshRows hash (row :: table) cutoff email,
      other.observedAt = row.observedAt) :
    latest (freshRows hash (row :: table) cutoff email) = some row := by
  have hhead : freshRows hash (row :: table) cutoff email =
      row :: freshRows hash table cutoff email := by
    rw [freshRows, List.filter_cons, if_pos (List.mem_filter.mp hfirst).2]
    rfl
  rw [latest_eq_argmax, hhead, List.argmax_cons]
  cases hrest : (freshRows hash table cutoff email).argmax fun row => row.observedAt with
  | none => rfl
  | some other =>
    have hother : other ∈ freshRows hash (row :: table) cutoff email :=
      hhead ▸ List.mem_cons_of_mem _ (List.argmax_mem hrest)
    exact if_neg (not_lt.mpr (le_of_eq (htimes other hother)))

theorem tell_of_newestWins (hexplicit : Explicit items)
    (hhash : ∀ a ∈ items.filterMap (observe php stamp),
      ∀ b ∈ items.filterMap (observe php stamp), hash a.email = hash b.email → a.email = b.email)
    (h : NewestWins php hash stamp items) :
    StoredTimesTell (items.filterMap (observe php stamp)) := by
  intro email n hn
  have hfilter : (some n).filter (fun o => n.time.second ≤ o.time.second) = some n := by
    rw [Option.filter_some, if_pos (decide_eq_true (le_refl _))]
  refine ⟨fun o ho hoemail => h.stored_le hexplicit hhash hn ho hoemail, ?_, ?_⟩
  · obtain ⟨calls, hcut, -⟩ :=
      @exists_cut php hash stamp items n hexplicit (mem_of_newest hn).1
    have hanswer := h.latest_eq hhash hn hcut (.refl _) n.time.second
    rw [hfilter, Option.map_some] at hanswer
    obtain ⟨row, hlatest, -⟩ := Option.map_eq_some_iff.mp hanswer
    obtain ⟨htime, o, ho, hoemail, hstates⟩ :=
      h.observation_of_just hexplicit hhash hn hcut (.refl _) (mem_of_latest hlatest)
    exact ⟨o, ho, hoemail, hstates.observedAt.symm.trans htime⟩
  · intro o ho hoemail hstored
    obtain ⟨calls, hcut, row, hrow, hstates⟩ := @exists_cut php hash stamp items o hexplicit ho
    have htime : row.observedAt = n.time.second := hstates.observedAt.trans hstored
    -- the database may have the row before all others
    obtain ⟨before, after, htable⟩ := List.append_of_mem hrow
    have hperm : (row :: (before ++ after)).Perm (tableAfter php hash calls) := by
      rw [htable]
      exact List.perm_middle.symm
    have hfirst : row ∈ freshRows hash (row :: (before ++ after)) n.time.second email :=
      mem_freshRows.mpr ⟨.head _, hoemail ▸ hstates.emailHash, le_of_eq htime.symm⟩
    have hlatest := latest_freshRows_cons hfirst fun other hother =>
      (h.observation_of_just hexplicit hhash hn hcut hperm hother).1.trans htime.symm
    have hanswer := h.latest_eq hhash hn hcut hperm n.time.second
    rw [hlatest, hfilter, Option.map_some, Option.map_some, hstates.hit] at hanswer
    have hhit := Option.some.inj hanswer
    rw [Observation.hit, Observation.hit] at hhit
    obtain ⟨houtcome, -, hreason, -⟩ := ParseAndChunkJob.Hit.entry.inj hhit
    exact ⟨name_inj (Option.some.inj houtcome), hreason⟩

/-- **The newest feedback wins, in every order and cut, exactly if the stored times name it**:
for items with times of their own, and addresses with different hashes. -/
theorem newestWins_iff (hexplicit : Explicit items)
    (hhash : ∀ a ∈ items.filterMap (observe php stamp),
      ∀ b ∈ items.filterMap (observe php stamp), hash a.email = hash b.email →
        a.email = b.email) :
    NewestWins php hash stamp items ↔
      StoredTimesTell (items.filterMap (observe php stamp)) :=
  ⟨tell_of_newestWins hexplicit hhash, newestWins_of_tell hexplicit⟩

end Lookup

/-! ## Two clocks -/

/-- Noon, an hour before it, and that hour as a clock two hours ahead shows it. -/
def dayStamps (s : Text) : Option Stamp :=
  if s = "12:00:00Z".toList then some ⟨43200000000, 0⟩
  else if s = "11:00:00Z".toList then some ⟨39600000000, 0⟩
  else if s = "13:00:00+02:00".toList then some ⟨39600000000, 7200⟩
  else none

/-- Ada's address was found invalid at first, and valid at noon. -/
def adaFeedback (first : Text) : List Item :=
  [{ email := "ada@example.org".toList, outcome := "valid".toList
     observedAt := "12:00:00Z".toList },
    { email := "ada@example.org".toList, outcome := "invalid".toList, observedAt := first }]

/-- With one clock the lookup says that it is valid. -/
theorem newestWins_iff_oneClock :
    NewestWins ParseAndChunkJob.onlyAda id dayStamps (adaFeedback "11:00:00Z".toList) ↔
      StoredTimesTell ((adaFeedback "11:00:00Z".toList).filterMap
        (observe ParseAndChunkJob.onlyAda dayStamps)) :=
  newestWins_iff (by unfold Explicit; decide) fun _ _ _ _ h => h

/-- With two clocks it says that the address is invalid. -/
theorem newestWins_fails : ¬ ∀ (php : Php) (hash : Text → Text) (stamp : Text → Option Stamp)
    (items : List Item), Explicit items → DistinctTimes stamp items →
      Function.Injective hash → NewestWins php hash stamp items := by
  intro hall
  have hwins := hall ParseAndChunkJob.onlyAda id dayStamps (adaFeedback "13:00:00+02:00".toList)
    (by unfold Explicit; decide)
    (by
      rw [DistinctTimes, adaFeedback, List.pairwise_pair]
      intro _ t ht t' ht'
      obtain rfl : (⟨43200000000, 0⟩ : Stamp) = t := Option.some.inj ht
      obtain rfl : (⟨39600000000, 7200⟩ : Stamp) = t' := Option.some.inj ht'
      decide)
    Function.injective_id
  have hanswer := hwins
    [{ items := adaFeedback "13:00:00+02:00".toList
       defaultObservedAt := 0
       parse := fun s => (dayStamps s).map Stamp.stored }]
    ⟨.refl _, fun call hcall => by rw [List.mem_singleton.mp hcall]⟩ _ (.refl _) 1 43200
    ["ada@example.org".toList] Int.one_pos fun _ _ _ _ h => h
  exact absurd hanswer (by decide +kernel)

end ValidEmailVerifier.FeedbackHistory
