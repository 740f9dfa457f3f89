/-
# `Cache.WrittenItems` — what is written back is what is looked up

`WriteBackVerificationCacheJob` puts the verdicts of a list into the table, and `lookupMany` asks
the table when a later list is parsed.  The table has one item of each key, the one it has
processed last, so a lookup that leaves no key unprocessed says of an address exactly what the
last row written for it said, as long as that is fresh (`found_iff`).  After a write-back that has
written all it attempted, every address that the cache did not know and that stands in an output
is found, with the verdict of one of its rows (`found_after_writeBack`).

An exception says nothing of what the table has done with the request before.  So the items that
the table has processed of a call are those it has acknowledged and perhaps others that the call
has sent.
-/
import ValidEmailVerifier.Cache.Lookup
import ValidEmailVerifier.Cache.WriteBack
import ValidEmailVerifier.Lib.Upserts

namespace ValidEmailVerifier.CacheItems

open Text

/-! ## The calls -/

/-- A call of `writeBack`. -/
structure Call where
  settings : CacheWriteBack.Settings
  server : CacheWriteBack.Server
  storage : CacheWriteBack.Storage
  job : CacheWriteBack.Job
  result : CacheWriteBack.Result
  timestamp : Text

namespace Call

/-- The service is made anew for each job. -/
def report (c : Call) : CacheWriteBack.Report :=
  CacheWriteBack.writeBack c.settings c.server c.storage c.job c.result c.timestamp {}

/-- The items that the table has acknowledged. -/
def acknowledged (c : Call) : List CacheWriteBack.Item := c.report.run.service.acknowledged

/-- The call is one of `writeBackTest`. -/
def isTest (c : Call) : Bool := c.settings.testEnabled && c.settings.cacheOnlyEnabled

/-- `$this->table`. -/
def table (c : Call) : Text :=
  if c.isTest then trim c.settings.testTable else c.settings.table

/-- The keys of `$misses`. -/
def misses (c : Call) : List Text :=
  match c.job.cacheMissKey with
  | none => []
  | some key =>
      if CacheWriteBack.isFalsy key then []
      else
        match c.storage (c.job.inputDisk.getD c.result.disk) key with
        | none => []
        | some stream => CacheWriteBack.loadCacheMisses stream

/-- The items that the call is to write. -/
def items (c : Call) : List CacheWriteBack.Item :=
  if c.isTest then
    c.misses.map fun email => CacheWriteBack.makeWriteRequest c.settings email
      (CacheWriteBack.cacheWritebackTestResult c.settings) c.timestamp
  else
    CacheWriteBack.outputItems c.settings c.storage c.result c.timestamp c.misses

/-- The output of `status` has a row of the address. -/
def HasRow (c : Call) (email status : Text) : Prop :=
  status ∈ CacheWriteBack.cacheWritebackStatuses c.settings ∧
    ∃ key stream line written, c.result.keys.lookup status = some key ∧
      CacheWriteBack.isFalsy key = false ∧ c.storage c.result.disk key = some (some stream) ∧
      line ∈ fgets stream ∧ CacheWriteBack.extractEmailFromLine line = some written ∧
      CacheWriteBack.isFalsy written = false ∧ CacheWriteBack.normalizeEmail written = email

end Call

/-- A call with the items that the table has processed of it, in the order in which it has. -/
structure WriteBack extends Call where
  processed : List CacheWriteBack.Item
  acknowledges : toCall.acknowledged.Sublist processed
  sent : ∀ item ∈ processed, item ∈ toCall.items

/-! ## The table -/

/-- What the table `name` has processed, with the calls. -/
def writes (name : Text) (calls : List WriteBack) : List (WriteBack × CacheWriteBack.Item) :=
  (calls.filter (·.table = name)).flatMap fun call => call.processed.map fun item => (call, item)

/-- The items of the table: the last one of each key. -/
def tableAfter (keyAttribute name : Text) (calls : List WriteBack) : List CacheWriteBack.Item :=
  Upserts.putAll (·.lookup keyAttribute) [] ((writes name calls).map Prod.snd)

/-- An item as it comes back: all its attributes are strings. -/
def returned (item : CacheWriteBack.Item) : CacheLookup.Item :=
  item.map fun a => (a.1, .s a.2)

/-- What the table answers for a key is the item it has. -/
def Reads {keyAttribute : Text} (server : Nat → CacheLookup.Server keyAttribute)
    (items : List CacheWriteBack.Item) : Prop :=
  ∀ b attempt keys response, server b attempt keys = .ok response → ∀ k,
    response.found k = (items.find? (·.lookup keyAttribute = some k)).map returned

/-- The call is not a test, and writes under the names that the lookup reads.  Both services are
given the names of one configuration; only the writer trims them. -/
structure WritesFor (σ : CacheLookup.Settings) (call : Call) : Prop where
  verdicts : call.isTest = false
  key : call.settings.keyAttribute = σ.keyAttribute
  result : call.settings.resultAttribute = σ.resultAttribute
  datetime : some call.settings.datetimeAttribute = σ.datetimeAttribute
  distinct : [call.settings.keyAttribute, call.settings.resultAttribute,
    call.settings.datetimeAttribute].Nodup

/-- `parseObservedAt` of an item that was written at this time. -/
def observedAt (σ : CacheLookup.Settings) (clock : CacheLookup.Clock) (timestamp : Text) :
    Option Int :=
  CacheLookup.parseObservedAt σ clock [(σ.datetimeAttribute.getD [], .s timestamp)]

/-- The cache is asked, and does not take an item of this time for stale. -/
def Fresh (σ : CacheLookup.Settings) (clock : CacheLookup.Clock) (timestamp : Text) : Prop :=
  ∃ c, CacheLookup.cutoff σ clock = some c ∧
    CacheLookup.isStale σ clock c [(σ.datetimeAttribute.getD [], .s timestamp)] = false

/-- The entry of a verdict that was written at this time. -/
def entryOf (σ : CacheLookup.Settings) (clock : CacheLookup.Clock) (status timestamp : Text) :
    CacheLookup.Entry :=
  ⟨status, status, "cache_hit".toList, (observedAt σ clock timestamp).map clock.toISOString⟩

/-- The last item that the table has processed for the address is one of `call`, for which the
address was a miss, and says the status of an output with a row of it. -/
def LastSays (σ : CacheLookup.Settings) (calls : List WriteBack) (call : WriteBack)
    (email status : Text) : Prop :=
  (∃ before after, writes σ.table calls = before ++
      (call, CacheWriteBack.makeWriteRequest call.settings email
        (CacheWriteBack.normalizeResult status) call.timestamp) :: after ∧
    ∀ w ∈ after, w.2.lookup σ.keyAttribute ≠ some email) ∧
  email ∈ call.misses ∧ call.HasRow email status

/-! ## What a call sends -/

section Sent
variable {σ : CacheWriteBack.Settings} {server : CacheWriteBack.Server}

/-- Of the items read so far, `seen`, the table has acknowledged some, `batch` has not been sent,
and the others were given up. -/
structure Sends (r : CacheWriteBack.Run) (batch seen : List CacheWriteBack.Item) : Prop where
  into : ∃ rest, Leftover.Into r.service.acknowledged (rest ++ batch) seen
  attempted : r.attempted = seen.length

variable {r : CacheWriteBack.Run} {batch seen : List CacheWriteBack.Item}

theorem Sends.addFlush (h : Sends r batch seen) :
    Sends (CacheWriteBack.addFlush σ server batch r) [] seen := by
  obtain ⟨acks, hflush⟩ := @CacheWriteBack.flushLoop_accounts σ server 0 batch 0 r.service
  obtain ⟨rest, hinto⟩ := h.into
  obtain ⟨left, hbatch⟩ := hflush.into
  have hback : (CacheWriteBack.flushBatch σ server batch r.service).service.acknowledged =
      r.service.acknowledged ++ acks := hflush.acknowledged
  have hall : Leftover.Into (r.service.acknowledged ++ acks) (rest ++ left ++ []) seen := by
    unfold Leftover.Into at hinto hbatch ⊢
    rw [List.append_nil]
    refine List.Perm.trans ?_ ((((hbatch.append_left rest)).append_left _).trans hinto)
    -- `acks` is moved over `rest`
    rw [List.append_assoc]
    refine List.Perm.append_left _ ?_
    rw [← List.append_assoc, ← List.append_assoc]
    exact List.perm_append_comm.append_right _
  unfold CacheWriteBack.addFlush
  dsimp only
  split
  · exact ⟨⟨rest ++ left, hback ▸ hall⟩, h.attempted⟩
  · exact ⟨⟨rest ++ left, hback ▸ hall⟩, h.attempted⟩

theorem Sends.updateWritebackProgress (h : Sends r batch seen) (total : Nat) :
    Sends (CacheWriteBack.updateWritebackProgress total r) batch seen := by
  unfold CacheWriteBack.updateWritebackProgress
  split
  · exact h
  · exact ⟨h.into, h.attempted⟩

theorem Sends.read (h : Sends r batch seen) (item : CacheWriteBack.Item) :
    Sends { r with attempted := r.attempted + 1 } (batch ++ [item]) (seen ++ [item]) where
  into := by
    obtain ⟨rest, hinto⟩ := h.into
    refine ⟨rest, ?_⟩
    unfold Leftover.Into at hinto ⊢
    rw [← List.append_assoc, ← List.append_assoc, List.append_assoc _ rest]
    exact hinto.append_right _
  attempted := by rw [List.length_append, List.length_singleton, h.attempted]

/-- The loop over the items ends with some of them read, and with all of them unless an exception
was thrown or no more was to be written. -/
theorem sends_writeItems (total : Nat) (items : List CacheWriteBack.Item) (h : Sends r batch seen) :
    ∃ batch' seen', Sends (CacheWriteBack.writeItems σ server total items batch r) batch' seen' ∧
      seen' <+: seen ++ items ∧
      ((CacheWriteBack.writeItems σ server total items batch r).exit = .returned →
        (CacheWriteBack.writeItems σ server total items batch r).service.stopWrites = false →
        seen' = seen ++ items) := by
  induction items generalizing batch r seen with
  | nil =>
    rw [List.append_nil]
    unfold CacheWriteBack.writeItems
    split
    · exact ⟨batch, seen, h.updateWritebackProgress total, List.prefix_refl _, fun _ _ => rfl⟩
    · dsimp only
      split
      · exact ⟨[], seen, h.addFlush, List.prefix_refl _, fun _ _ => rfl⟩
      · exact ⟨[], seen, h.addFlush.updateWritebackProgress total, List.prefix_refl _,
          fun _ _ => rfl⟩
  | cons item items ih =>
    have hread := h.read item
    have happend : seen ++ item :: items = seen ++ [item] ++ items := by simp
    have hprefix : seen ++ [item] <+: seen ++ item :: items := happend ▸ List.prefix_append _ _
    unfold CacheWriteBack.writeItems
    dsimp only
    split
    · have hflush := @Sends.addFlush σ server _ _ _ hread
      split
      next hthrown =>
        exact ⟨[], _, hflush, hprefix, fun hexit _ => absurd (hexit.symm.trans hthrown) (by decide)⟩
      next hgoes =>
        have hnext := hflush.updateWritebackProgress total
        split
        next hstop =>
          refine ⟨[], _, hnext.updateWritebackProgress total, hprefix, fun _ hwrites => ?_⟩
          have hstays : ∀ run : CacheWriteBack.Run,
              (CacheWriteBack.updateWritebackProgress total run).service = run.service := by
            intro run
            unfold CacheWriteBack.updateWritebackProgress
            split <;> rfl
          rw [hstays, hstop] at hwrites
          exact absurd hwrites (by decide)
        next =>
          rw [happend]
          exact ih hnext
    · rw [happend]
      exact ih hread

/-- What a report says of the items that the call is to write. -/
structure Reports (report : CacheWriteBack.Report) (items : List CacheWriteBack.Item) : Prop where
  sent : ∀ item ∈ report.run.service.acknowledged, item ∈ items
  completed : ∀ n : Nat, report.summary = some ⟨"completed".toList, n, n⟩ →
    report.run.service.acknowledged.Perm items

theorem reports_early {status : Text} {s : CacheWriteBack.Service}
    (items : List CacheWriteBack.Item) (hs : s.acknowledged = [])
    (hstatus : status ≠ "completed".toList) : Reports (CacheWriteBack.early status s) items where
  sent item hitem := absurd (hs ▸ hitem : item ∈ []) List.not_mem_nil
  completed _ h := absurd (congrArg CacheWriteBack.Summary.status (Option.some.inj h)) hstatus

theorem reports_earlyFailure {status : Text} (items : List CacheWriteBack.Item)
    (hstatus : status ≠ "completed".toList) :
    Reports (CacheWriteBack.earlyFailure σ status {}) items := by
  have hnone : (CacheWriteBack.handleFailure σ 0 {}).service.acknowledged = [] :=
    CacheWriteBack.handleFailure_acknowledged 0 {}
  unfold CacheWriteBack.earlyFailure
  dsimp only
  split
  · refine ⟨fun item hitem => ?_, fun _ h => absurd h (by simp)⟩
    exact absurd (hnone ▸ hitem : item ∈ []) List.not_mem_nil
  · exact reports_early items hnone hstatus

/-- The report of a run that has sent these. -/
theorem reports_of_sends {report : CacheWriteBack.Report} {items : List CacheWriteBack.Item}
    (h : Sends r batch seen) (hbegins : seen <+: items)
    (hall : r.exit = .returned → r.service.stopWrites = false → seen = items)
    (hcount : r.exit = .returned → r.written = r.service.acknowledged.length)
    (hrun : report.run = r)
    (hsummary : ∀ n : Nat, report.summary = some ⟨"completed".toList, n, n⟩ →
      r.exit = .returned ∧ r.service.stopWrites = false ∧ r.attempted = n ∧ r.written = n) :
    Reports report items := by
  obtain ⟨rest, hinto⟩ := h.into
  rw [← hrun] at hinto
  refine ⟨fun item hitem => ?_, fun n hn => ?_⟩
  · exact hbegins.subset (hinto.subset (List.mem_append_left _ hitem))
  · obtain ⟨hreturned, hgoes, hattempted, hwritten⟩ := hsummary n hn
    obtain rfl := hall hreturned hgoes
    have hlength := hinto.length_eq
    have hread := h.attempted
    have hacknowledged := hcount hreturned
    rw [List.length_append] at hlength
    -- nothing is left beside what was acknowledged
    have hnone : rest ++ batch = [] := by
      apply List.eq_nil_of_length_eq_zero
      rw [hrun] at hlength
      omega
    unfold Leftover.Into at hinto
    rwa [hnone, List.append_nil] at hinto

theorem reports_writeMisses {storage : CacheWriteBack.Storage} {job : CacheWriteBack.Job}
    {result : CacheWriteBack.Result} {itemsOf : List Text → Except Text (List CacheWriteBack.Item)}
    {items : List CacheWriteBack.Item}
    (hitems : ∀ key stream list, job.cacheMissKey = some key →
      CacheWriteBack.isFalsy key = false →
      storage (job.inputDisk.getD result.disk) key = some stream →
      itemsOf (CacheWriteBack.loadCacheMisses stream) = .ok list → list = items)
    (herror : ∀ misses status, itemsOf misses = .error status → status ≠ "completed".toList) :
    Reports (CacheWriteBack.writeMisses σ server storage job result itemsOf {}) items := by
  unfold CacheWriteBack.writeMisses
  split
  · exact reports_early items rfl (by decide)
  next key hkey =>
    split
    · exact reports_early items rfl (by decide)
    next hfilled =>
      split
      · exact reports_early items rfl (by decide)
      next stream hstream =>
        dsimp only
        split
        · exact reports_early items rfl (by decide)
        next =>
          have hempty : Sends (CacheWriteBack.Run.idle {}) [] [] :=
            ⟨⟨[], .refl _⟩, rfl⟩
          have hcounts : (CacheWriteBack.updateWritebackProgress
              (CacheWriteBack.loadCacheMisses stream).length
              (CacheWriteBack.Run.idle {})).Accounts [] [] [] :=
            CacheWriteBack.Run.Accounts.updateWritebackProgress
              ⟨rfl, Nat.le_refl _, fun _ => rfl, Int.le_refl _,
                fun _ hp => absurd hp List.not_mem_nil⟩ _
          have hstart := hempty.updateWritebackProgress
            (CacheWriteBack.loadCacheMisses stream).length
          split
          next status hstatus =>
            obtain ⟨rest, hinto⟩ := hstart.into
            have hnone := (List.append_eq_nil_iff.mp hinto.eq_nil).1
            refine ⟨fun item hitem => ?_, fun n h => ?_⟩
            · exact absurd (hnone ▸ hitem : item ∈ []) List.not_mem_nil
            · exact absurd (congrArg CacheWriteBack.Summary.status (Option.some.inj h))
                (herror _ _ hstatus)
          next list hlist =>
            obtain rfl := hitems key stream list hkey (Bool.eq_false_iff.mpr hfilled) hstream hlist
            obtain ⟨batch, seen, hsends, hbegins, hall⟩ := @sends_writeItems σ server _ _ _
              (CacheWriteBack.loadCacheMisses stream).length list hstart
            obtain ⟨left, acks, haccounts⟩ := @CacheWriteBack.writeItems_settled σ server
              (CacheWriteBack.loadCacheMisses stream).length list [] _ [] [] hcounts
              (CacheWriteBack.updateWritebackProgress_exit _ _)
            rw [List.nil_append] at hbegins hall
            refine reports_of_sends hsends hbegins hall (fun hreturned => ?_) ?_ ?_
            · rw [haccounts.acknowledged]
              exact haccounts.returned hreturned
            · split <;> rfl
            · intro n h
              split at h
              · exact absurd h (by simp)
              next hreturned =>
                have hsummary := Option.some.inj h
                refine ⟨hreturned, ?_, congrArg CacheWriteBack.Summary.attempted hsummary,
                  congrArg CacheWriteBack.Summary.written hsummary⟩
                rw [← Bool.not_eq_true]
                intro hstop
                have hstatus := congrArg CacheWriteBack.Summary.status hsummary
                rw [if_pos hstop] at hstatus
                have hskipped : "skipped".toList = "completed".toList := hstatus
                exact absurd hskipped (by decide)

end Sent

/-- **The table acknowledges no item that the call is not to write, and a completed call that has
written all it attempted has had all of them acknowledged.** -/
theorem Call.reports (c : Call) : Reports c.report c.items := by
  have hmisses : ∀ key stream, c.job.cacheMissKey = some key →
      CacheWriteBack.isFalsy key = false →
      c.storage (c.job.inputDisk.getD c.result.disk) key = some stream →
      c.misses = CacheWriteBack.loadCacheMisses stream := by
    intro key stream hkey hfilled hstream
    simp only [Call.misses, hkey, hfilled, hstream, Bool.false_eq_true, if_false]
  unfold Call.report CacheWriteBack.writeBack
  split
  · exact reports_early c.items rfl (by decide)
  · split
    next htest =>
      have hitems : c.items = c.misses.map fun email => CacheWriteBack.makeWriteRequest c.settings
          email (CacheWriteBack.cacheWritebackTestResult c.settings) c.timestamp := by
        rw [Call.items, if_pos (by simpa [Call.isTest] using htest)]
      unfold CacheWriteBack.writeBackTest
      split
      · exact reports_earlyFailure c.items (by decide)
      · refine reports_writeMisses (fun key stream list hkey hfilled hstream hlist => ?_)
          (fun misses status h => absurd h (by simp))
        rw [hitems, hmisses key stream hkey hfilled hstream]
        exact (Except.ok.inj hlist).symm
    next htest =>
      have hitems : c.items = CacheWriteBack.outputItems c.settings c.storage c.result c.timestamp
          c.misses := by
        rw [Call.items, if_neg (by simpa [Call.isTest] using htest)]
      split
      · exact reports_earlyFailure c.items (by decide)
      · refine reports_writeMisses (fun key stream list hkey hfilled hstream hlist => ?_)
          (fun misses status h => ?_)
        · split at hlist
          · cases hlist
          · rw [hitems, hmisses key stream hkey hfilled hstream]
            exact (Except.ok.inj hlist).symm
        · split at h
          · obtain rfl := Except.error.inj h
            decide
          · cases h

/-! ## What the items say -/

section Items
variable {c : Call}

/-- A miss is a normalized address. -/
theorem normalizeEmail_of_misses {e : Text} (h : e ∈ c.misses) :
    CacheLookup.normalizeEmail e = e ∧ e ≠ [] := by
  unfold Call.misses at h
  split at h
  · exact absurd h List.not_mem_nil
  split at h
  · exact absurd h List.not_mem_nil
  split at h
  · exact absurd h List.not_mem_nil
  · obtain ⟨hmem, hne⟩ := List.mem_filter.mp (List.mem_eraseDups.mp h)
    obtain ⟨line, -, rfl⟩ := List.mem_map.mp hmem
    refine ⟨?_, of_decide_eq_true hne⟩
    rw [CacheLookup.normalizeEmail, CacheWriteBack.normalizeEmail, trim_strtolower,
      strtolower_strtolower]

theorem mem_lineItem {misses : List Text} {timestamp status line : Text}
    {item : CacheWriteBack.Item} {σ : CacheWriteBack.Settings} :
    CacheWriteBack.lineItem σ misses timestamp status line = some item ↔
      ∃ written, CacheWriteBack.extractEmailFromLine line = some written ∧
        CacheWriteBack.isFalsy written = false ∧ CacheWriteBack.normalizeEmail written ≠ [] ∧
        CacheWriteBack.normalizeEmail written ∈ misses ∧
        item = CacheWriteBack.makeWriteRequest σ (CacheWriteBack.normalizeEmail written)
          (CacheWriteBack.normalizeResult status) timestamp := by
  unfold CacheWriteBack.lineItem
  cases CacheWriteBack.extractEmailFromLine line with
  | none => simp
  | some written =>
    by_cases hfalsy : CacheWriteBack.isFalsy written = true
    · simp [hfalsy]
    · by_cases hmiss : CacheWriteBack.normalizeEmail written = [] ∨
        CacheWriteBack.normalizeEmail written ∉ misses
      · rcases hmiss with hmiss | hmiss <;> simp [hmiss, hfalsy]
      · obtain ⟨hne, hmem⟩ := not_or.mp hmiss
        dsimp only
        rw [if_neg hfalsy, if_neg hmiss]
        constructor
        · intro h
          exact ⟨written, rfl, Bool.eq_false_iff.mpr hfalsy, hne, not_not.mp hmem,
            (Option.some.inj h).symm⟩
        · rintro ⟨written', hwritten, -, -, -, rfl⟩
          obtain rfl := Option.some.inj hwritten
          rfl

/-- The items of a call are the rows of its outputs that were misses. -/
theorem mem_items (htest : c.isTest = false) {item : CacheWriteBack.Item} :
    item ∈ c.items ↔ ∃ e status, e ∈ c.misses ∧ c.HasRow e status ∧
      item = CacheWriteBack.makeWriteRequest c.settings e
        (CacheWriteBack.normalizeResult status) c.timestamp := by
  rw [Call.items, if_neg (Bool.eq_false_iff.mp htest), CacheWriteBack.outputItems, List.mem_flatMap]
  constructor
  · rintro ⟨status, hstatus, hitem⟩
    split at hitem
    · exact absurd hitem List.not_mem_nil
    next key hkey =>
      split at hitem
      · exact absurd hitem List.not_mem_nil
      next hfilled =>
        split at hitem
        next stream hstream =>
          obtain ⟨line, hline, hsome⟩ := List.mem_filterMap.mp hitem
          obtain ⟨written, hwritten, hfalsy, -, hmiss, rfl⟩ := mem_lineItem.mp hsome
          exact ⟨_, status, hmiss, ⟨hstatus, key, stream, line, written, hkey,
            Bool.eq_false_iff.mpr hfilled, hstream, hline, hwritten, hfalsy, rfl⟩, rfl⟩
        · exact absurd hitem List.not_mem_nil
  · rintro ⟨e, status, hmiss, ⟨hstatus, key, stream, line, written, hkey, hfilled, hstream,
      hline, hwritten, hfalsy, rfl⟩, rfl⟩
    refine ⟨status, hstatus, ?_⟩
    rw [hkey]
    dsimp only
    rw [if_neg (Bool.eq_false_iff.mp hfilled), hstream]
    exact List.mem_filterMap.mpr ⟨line, hline, mem_lineItem.mpr
      ⟨written, hwritten, hfalsy, (normalizeEmail_of_misses hmiss).2, hmiss, rfl⟩⟩

end Items

/-! ## What a lookup makes of them -/

section Lookup
variable {σ : CacheLookup.Settings} {clock : CacheLookup.Clock} {call : Call}

theorem lookup_returned (item : CacheWriteBack.Item) (attr : Text) :
    (returned item).lookup attr = (item.lookup attr).map CacheLookup.Value.s := by
  induction item with
  | nil => rfl
  | cons a rest ih =>
    rw [returned, List.map_cons, List.lookup_cons, List.lookup_cons]
    by_cases h : attr = a.1
    · simp [h]
    · have hne : (attr == a.1) = false := by simpa using h
      simp only [hne]
      exact ih

theorem stringAt_returned (item : CacheWriteBack.Item) (attr : Text) :
    CacheLookup.stringAt attr (returned item) = item.lookup attr := by
  rw [CacheLookup.stringAt, lookup_returned]
  cases item.lookup attr <;> rfl

/-- The attributes of an item that was written, under the names of the lookup. -/
theorem WritesFor.lookup (h : WritesFor σ call) (email result timestamp : Text) :
    (CacheWriteBack.makeWriteRequest call.settings email result timestamp).lookup
        σ.keyAttribute = some email ∧
      (CacheWriteBack.makeWriteRequest call.settings email result timestamp).lookup
        σ.resultAttribute = some result ∧
      (CacheWriteBack.makeWriteRequest call.settings email result timestamp).lookup
        (σ.datetimeAttribute.getD []) = some timestamp := by
  obtain ⟨hkey, hresult⟩ := List.nodup_cons.mp h.distinct
  obtain ⟨hne, hne'⟩ := not_or.mp (List.mem_cons.not.mp hkey)
  have hother : call.settings.resultAttribute ≠ call.settings.datetimeAttribute := by
    simpa using hresult
  rw [List.mem_singleton] at hne'
  rw [← h.key, ← h.result, ← h.datetime]
  have hsecond : (call.settings.resultAttribute == call.settings.keyAttribute) = false :=
    beq_eq_false_iff_ne.mpr (Ne.symm hne)
  have hthird : (call.settings.datetimeAttribute == call.settings.keyAttribute) = false :=
    beq_eq_false_iff_ne.mpr (Ne.symm hne')
  have hfourth : (call.settings.datetimeAttribute == call.settings.resultAttribute) = false :=
    beq_eq_false_iff_ne.mpr (Ne.symm hother)
  simp [CacheWriteBack.makeWriteRequest, List.lookup_cons, hsecond, hthird, hfourth]

theorem trim_extracted {line written : Text}
    (h : CacheWriteBack.extractEmailFromLine line = some written) : trim written = written := by
  unfold CacheWriteBack.extractEmailFromLine at h
  dsimp only at h
  split at h
  · cases h
  · split at h
    · cases h
    · obtain rfl := Option.some.inj h
      exact trim_trim _

/-- The address of a row is not the string that PHP takes for false. -/
theorem isFalsy_of_hasRow {email status : Text} (hne : email ≠ [])
    (h : call.HasRow email status) : CacheLookup.isFalsy email = false := by
  obtain ⟨-, key, stream, line, written, -, -, -, -, hwritten, hfalsy, rfl⟩ := h
  rw [CacheWriteBack.normalizeEmail, trim_extracted hwritten] at hne ⊢
  rw [CacheLookup.isFalsy, Bool.or_eq_false_iff, beq_eq_false_iff_ne, beq_eq_false_iff_ne]
  refine ⟨hne, fun hzero => ?_⟩
  -- only the digit itself is lowered to a digit
  obtain ⟨c, rfl, hc⟩ := List.map_eq_singleton_iff.mp hzero
  have hsame : c.toLower = c := by
    rcases toLower_cases c with h | h
    · exact h
    · rw [hc] at h
      exact absurd h (by decide)
  rw [hsame] at hc
  rw [hc] at hfalsy
  exact absurd hfalsy (by decide)

/-- The verdicts that are written are those that are read. -/
theorem normalizeStatus_normalizeResult {status : Text}
    (h : status ∈ CacheWriteBack.cacheWritebackStatuses call.settings) :
    CacheLookup.normalizeStatus (CacheWriteBack.normalizeResult status) = some status := by
  have hverdict := of_decide_eq_true (List.mem_filter.mp h).2
  rcases hverdict with rfl | rfl
  · decide
  · decide

theorem readable_written (h : WritesFor σ call) {e status : Text} (hmiss : e ∈ call.misses)
    (hrow : call.HasRow e status) :
    CacheLookup.readable σ (returned (CacheWriteBack.makeWriteRequest call.settings e
      (CacheWriteBack.normalizeResult status) call.timestamp)) = some (e, status) := by
  obtain ⟨hkey, hresult, -⟩ := h.lookup e (CacheWriteBack.normalizeResult status) call.timestamp
  obtain ⟨hnormal, hne⟩ := normalizeEmail_of_misses hmiss
  unfold CacheLookup.readable
  rw [stringAt_returned, stringAt_returned, hkey, hresult]
  dsimp only
  rw [hnormal, if_neg (not_or.mpr ⟨by rw [isFalsy_of_hasRow hne hrow]; decide, hne⟩),
    Option.getD_some, normalizeStatus_normalizeResult hrow.1]
  rfl

/-- The time of an item is read as that of its call. -/
theorem parseObservedAt_written (h : WritesFor σ call) (e result : Text) :
    CacheLookup.parseObservedAt σ clock (returned (CacheWriteBack.makeWriteRequest call.settings e
      result call.timestamp)) = observedAt σ clock call.timestamp := by
  obtain ⟨-, -, hdatetime⟩ := h.lookup e result call.timestamp
  rw [observedAt, CacheLookup.parseObservedAt, CacheLookup.parseObservedAt]
  rw [← h.datetime] at hdatetime ⊢
  rw [Option.getD_some] at hdatetime ⊢
  dsimp only
  rw [lookup_returned, hdatetime, List.lookup_cons, beq_self_eq_true]
  rfl

theorem isStale_written (h : WritesFor σ call) (c : Option Int) (e result : Text) :
    CacheLookup.isStale σ clock c (returned (CacheWriteBack.makeWriteRequest call.settings e
      result call.timestamp)) =
      CacheLookup.isStale σ clock c [(σ.datetimeAttribute.getD [], .s call.timestamp)] := by
  unfold CacheLookup.isStale
  rw [parseObservedAt_written h, observedAt]

/-- **The item of a row is a hit of its address with its verdict, unless it is stale.** -/
theorem hit_written (h : WritesFor σ call) {e status : Text} (hmiss : e ∈ call.misses)
    (hrow : call.HasRow e status) (c : Option Int) :
    CacheLookup.hit σ clock c (returned (CacheWriteBack.makeWriteRequest call.settings e
      (CacheWriteBack.normalizeResult status) call.timestamp)) =
      if CacheLookup.isStale σ clock c [(σ.datetimeAttribute.getD [], .s call.timestamp)] then none
      else some (e, entryOf σ clock status call.timestamp) := by
  rw [CacheLookup.hit, readable_written h hmiss hrow]
  dsimp only
  rw [isStale_written h, parseObservedAt_written h]
  rfl

end Lookup

/-! ## What is in the result -/

section Results
variable {σ : CacheLookup.Settings} {clock : CacheLookup.Clock} {c : Option Int}
  {server : Nat → CacheLookup.Server σ.keyAttribute} {emails : List Text}

theorem of_mem_foldl_put {entries results : List (Text × CacheLookup.Entry)}
    {entry : Text × CacheLookup.Entry} (h : entry ∈ entries.foldl CacheLookup.put results) :
    entry ∈ results ∨ entry ∈ entries := by
  induction entries generalizing results with
  | nil => exact .inl h
  | cons first rest ih =>
    rcases ih h with hput | hrest
    · rcases List.mem_append.mp hput with hold | hnew
      · exact .inl (List.mem_of_mem_filter hold)
      · exact .inr (List.mem_singleton.mp hnew ▸ .head _)
    · exact .inr (.tail _ hrest)

/-- An entry of the result is the hit of an item that was answered. -/
theorem of_mem_lookupBatches {b : Nat} {batches : List (List Text)}
    {results results' : List (Text × CacheLookup.Entry)} {entry : Text × CacheLookup.Entry}
    (h : CacheLookup.lookupBatches σ clock c server b batches results = some results')
    (hentry : entry ∈ results') :
    entry ∈ results ∨ ∃ key item,
      (key, some item) ∈ CacheLookup.answersIn σ server (batches.zipIdx b) ∧
        CacheLookup.hit σ clock c item = some entry := by
  induction batches generalizing b results with
  | nil => exact .inl (Option.some.inj h ▸ hentry)
  | cons batch batches ih =>
    rw [CacheLookup.lookupBatches] at h
    split at h
    · cases h
    next items hget =>
      have hcons : CacheLookup.answersIn σ server ((batch :: batches).zipIdx b) =
          CacheLookup.answersOf (server b) (CacheLookup.maxRetries σ + 1) 0 batch ++
            CacheLookup.answersIn σ server (batches.zipIdx (b + 1)) := rfl
      rw [hcons]
      rcases ih h with hput | ⟨key, item, hanswer, hhit⟩
      · rcases of_mem_foldl_put hput with hold | hnew
        · exact .inl hold
        · obtain ⟨item, hitem, hhit⟩ := List.mem_filterMap.mp hnew
          rcases (CacheLookup.mem_batchGet hget).mp hitem with hnil | ⟨key, hkey⟩
          · exact absurd hnil List.not_mem_nil
          · exact .inr ⟨key, item, List.mem_append_left _ hkey, hhit⟩
      · exact .inr ⟨key, item, List.mem_append_right _ hanswer, hhit⟩

/-- The table is asked for a key with a response to some request. -/
theorem exists_response {keyAttribute : Text} {server : CacheLookup.Server keyAttribute}
    {left attempt : Nat} {keys : List Text} {k : Text} {answer : Option CacheLookup.Item}
    (h : (k, answer) ∈ CacheLookup.answersOf server left attempt keys) :
    ∃ attempt keys response, server attempt keys = .ok response ∧ answer = response.found k := by
  induction left generalizing attempt keys with
  | zero => exact absurd h List.not_mem_nil
  | succ left ih =>
    rw [CacheLookup.answersOf] at h
    split at h
    · exact absurd h List.not_mem_nil
    · split at h
      next response hresponse =>
        rcases List.mem_append.mp h with h | h
        · obtain ⟨k', -, heq⟩ := List.mem_map.mp h
          obtain ⟨rfl, rfl⟩ := Prod.mk.inj heq
          exact ⟨attempt, keys, response, hresponse, rfl⟩
        · exact ih h
      · exact ih h
      · exact absurd h List.not_mem_nil

theorem Reads.answer {items : List CacheWriteBack.Item} (h : Reads server items)
    {batches : List (List Text × Nat)} {k : Text} {answer : Option CacheLookup.Item}
    (hanswer : (k, answer) ∈ CacheLookup.answersIn σ server batches) :
    answer = (items.find? (·.lookup σ.keyAttribute = some k)).map returned := by
  obtain ⟨batch, -, hbatch⟩ := List.mem_flatMap.mp hanswer
  obtain ⟨attempt, keys, response, hresponse, rfl⟩ := exists_response hbatch
  exact h _ _ _ _ hresponse k

/-- **A lookup that leaves no key has the hit of the item that the table has, for each address
that it asks for, and nothing else.** -/
theorem mem_results (htable : σ.table ≠ []) (hc : CacheLookup.cutoff σ clock = some c)
    {items : List CacheWriteBack.Item} (hreads : Reads server items)
    (hleft : CacheLookup.leftIn σ server (CacheLookup.numbered σ emails) = [])
    {results : List (Text × CacheLookup.Entry)}
    (hresults : CacheLookup.lookupMany σ clock server emails = some results) {e : Text}
    {entry : CacheLookup.Entry} :
    (e, entry) ∈ results ↔ e ∈ CacheLookup.normalizeEmails emails ∧
      ∃ item, items.find? (·.lookup σ.keyAttribute = some e) = some item ∧
        CacheLookup.hit σ clock c (returned item) = some (e, entry) := by
  by_cases hnil : CacheLookup.normalizeEmails emails = []
  · rw [CacheLookup.lookupMany, if_pos (.inr hnil)] at hresults
    obtain rfl := Option.some.inj hresults
    simp [hnil]
  rw [CacheLookup.lookupMany, if_neg (not_or.mpr ⟨htable, hnil⟩), hc] at hresults
  have hinto := @CacheLookup.into_numbered σ server emails
  unfold Leftover.Into at hinto
  rw [hleft, List.append_nil] at hinto
  have hof : ∀ {entry}, (e, entry) ∈ results → ∃ item,
      (e, some item) ∈ CacheLookup.answersIn σ server (CacheLookup.numbered σ emails) ∧
        CacheLookup.hit σ clock c item = some (e, entry) := by
    intro entry hentry
    rcases of_mem_lookupBatches hresults hentry with hnone | ⟨key, item, hanswer, hhit⟩
    · exact absurd hnone List.not_mem_nil
    · have hkey : (CacheLookup.hit σ clock c item).map Prod.fst = _ :=
        CacheLookup.hit_of_answer hanswer
      rw [hhit, Option.map_some] at hkey
      obtain ⟨-, heq⟩ := Option.ite_none_right_eq_some.mp hkey.symm
      obtain rfl := Option.some.inj heq
      exact ⟨item, hanswer, hhit⟩
  constructor
  · intro hentry
    obtain ⟨item, hanswer, hhit⟩ := hof hentry
    refine ⟨CacheLookup.answer_key hanswer, ?_⟩
    obtain ⟨found, hfound, rfl⟩ := Option.map_eq_some_iff.mp (hreads.answer hanswer).symm
    exact ⟨found, hfound, hhit⟩
  · rintro ⟨hasked, item, hfind, hhit⟩
    obtain ⟨⟨k, answer⟩, hanswer, rfl⟩ := List.mem_map.mp (hinto.mem_iff.mpr hasked)
    have hitem := hreads.answer hanswer
    rw [hfind, Option.map_some] at hitem
    subst hitem
    have hin : k ∈ results.map Prod.fst := by
      refine (CacheLookup.mem_results_iff hresults).mpr ⟨_, hanswer, ?_⟩
      rw [CacheLookup.hit] at hhit
      split at hhit
      · cases hhit
      next hreadable =>
        split at hhit
        · cases hhit
        next hstale => exact ⟨by rw [hreadable]; rfl, Bool.eq_false_iff.mpr hstale⟩
    obtain ⟨⟨k', entry'⟩, hmem, rfl⟩ := List.mem_map.mp hin
    obtain ⟨item', hanswer', hhit'⟩ := hof hmem
    obtain rfl := Option.some.inj (CacheLookup.answer_unique hanswer hanswer')
    obtain rfl := (Prod.mk.inj (Option.some.inj (hhit.symm.trans hhit'))).2
    exact hmem

end Results

/-! ## The last write -/

section Last
variable {keyAttribute name e : Text} {calls : List WriteBack} {item : CacheWriteBack.Item}

theorem find?_tableAfter : (tableAfter keyAttribute name calls).find?
      (·.lookup keyAttribute = some e) =
    ((writes name calls).map Prod.snd).reverse.find? (·.lookup keyAttribute = some e) := by
  rw [tableAfter, Upserts.find?_putAll, List.find?_nil, Option.or_none]

/-- The table has the item of an address that was processed last. -/
theorem find?_tableAfter_iff : (tableAfter keyAttribute name calls).find?
      (·.lookup keyAttribute = some e) = some item ↔
    item.lookup keyAttribute = some e ∧ ∃ before call after,
      writes name calls = before ++ (call, item) :: after ∧
        ∀ w ∈ after, w.2.lookup keyAttribute ≠ some e := by
  rw [find?_tableAfter, List.find?_eq_some_iff_append, decide_eq_true_eq]
  refine and_congr_right fun _ => ?_
  constructor
  · rintro ⟨later, earlier, hsplit, hlater⟩
    rw [List.reverse_eq_append_iff, List.reverse_cons, List.append_assoc,
      List.map_eq_append_iff] at hsplit
    obtain ⟨before, rest, hwrites, -, hrest⟩ := hsplit
    rw [List.singleton_append, List.map_eq_cons_iff] at hrest
    obtain ⟨⟨call, item'⟩, after, rfl, rfl, hafter⟩ := hrest
    refine ⟨before, call, after, hwrites, fun w hw => ?_⟩
    have hmem : w.2 ∈ later.reverse := hafter ▸ List.mem_map_of_mem hw
    simpa using hlater _ (List.mem_reverse.mp hmem)
  · rintro ⟨before, call, after, hwrites, hafter⟩
    refine ⟨(after.map Prod.snd).reverse, (before.map Prod.snd).reverse, by simp [hwrites], ?_⟩
    intro item' hitem'
    obtain ⟨w, hw, rfl⟩ := List.mem_map.mp (List.mem_reverse.mp hitem')
    simpa using hafter w hw

/-- An address of the last call has an item of that call. -/
theorem find?_tableAfter_concat {call : WriteBack} (htable : call.table = name)
    (hitem : item ∈ call.processed) (hkey : item.lookup keyAttribute = some e) :
    ∃ item' ∈ call.processed, (tableAfter keyAttribute name (calls ++ [call])).find?
      (·.lookup keyAttribute = some e) = some item' := by
  have hwrites : (writes name (calls ++ [call])).map Prod.snd =
      (writes name calls).map Prod.snd ++ call.processed := by
    rw [writes, List.filter_append, List.filter_cons_of_pos (by simpa using htable),
      List.filter_nil, List.flatMap_append, List.map_append, List.flatMap_singleton, List.map_map]
    exact congrArg _ (List.map_id _)
  rw [find?_tableAfter, hwrites, List.reverse_append, List.find?_append]
  cases hfound : call.processed.reverse.find? (·.lookup keyAttribute = some e) with
  | none =>
    have hnot := List.find?_eq_none.mp hfound item (List.mem_reverse.mpr hitem)
    exact absurd (decide_eq_true hkey) hnot
  | some item' =>
    exact ⟨item', List.mem_reverse.mp (List.mem_of_find?_eq_some hfound), rfl⟩

theorem mem_writes {call : WriteBack} (h : (call, item) ∈ writes name calls) :
    call ∈ calls ∧ call.table = name ∧ item ∈ call.processed := by
  obtain ⟨call', hcall, hmem⟩ := List.mem_flatMap.mp h
  obtain ⟨item', hitem, heq⟩ := List.mem_map.mp hmem
  obtain ⟨rfl, rfl⟩ := Prod.mk.inj heq
  obtain ⟨hin, htable⟩ := List.mem_filter.mp hcall
  exact ⟨hin, of_decide_eq_true htable, hitem⟩

end Last

section Found
variable {σ : CacheLookup.Settings} {clock : CacheLookup.Clock}
  {server : Nat → CacheLookup.Server σ.keyAttribute} {emails : List Text}
  {results : List (Text × CacheLookup.Entry)} {calls : List WriteBack}

/-- An item under the key of an address is one of its rows. -/
theorem exists_row {call : WriteBack} (h : WritesFor σ call.toCall)
    {item : CacheWriteBack.Item} (hitem : item ∈ call.processed) {e : Text}
    (hkey : item.lookup σ.keyAttribute = some e) :
    ∃ status, e ∈ call.misses ∧ call.HasRow e status ∧
      item = CacheWriteBack.makeWriteRequest call.settings e
        (CacheWriteBack.normalizeResult status) call.timestamp := by
  obtain ⟨e', status, hmiss, hrow, rfl⟩ := (mem_items h.verdicts).mp (call.sent item hitem)
  rw [(h.lookup _ _ _).1] at hkey
  obtain rfl := Option.some.inj hkey
  exact ⟨status, hmiss, hrow, rfl⟩

theorem hit_written_iff {call : Call} (h : WritesFor σ call) {e status : Text}
    (hmiss : e ∈ call.misses) (hrow : call.HasRow e status) {c : Option Int}
    (hc : CacheLookup.cutoff σ clock = some c) {entry : CacheLookup.Entry} :
    CacheLookup.hit σ clock c (returned (CacheWriteBack.makeWriteRequest call.settings e
        (CacheWriteBack.normalizeResult status) call.timestamp)) = some (e, entry) ↔
      Fresh σ clock call.timestamp ∧ entry = entryOf σ clock status call.timestamp := by
  rw [hit_written h hmiss hrow, Option.ite_none_left_eq_some]
  constructor
  · rintro ⟨hfresh, hentry⟩
    exact ⟨⟨c, hc, Bool.eq_false_iff.mpr hfresh⟩, (Prod.mk.inj (Option.some.inj hentry)).2.symm⟩
  · rintro ⟨⟨c', hc', hfresh⟩, rfl⟩
    obtain rfl := Option.some.inj (hc.symm.trans hc')
    exact ⟨Bool.eq_false_iff.mp hfresh, rfl⟩

theorem results_of_no_cutoff (hc : CacheLookup.cutoff σ clock = none)
    (hresults : CacheLookup.lookupMany σ clock server emails = some results) : results = [] := by
  rw [CacheLookup.lookupMany, hc] at hresults
  split at hresults
  · exact (Option.some.inj hresults).symm
  · exact (Option.some.inj hresults).symm

/-- A table that answers for every key. -/
def answering (keyAttribute : Text) (items : List CacheWriteBack.Item) :
    CacheLookup.Server keyAttribute := fun _ keys =>
  .ok {
    unprocessed := ⟨[], keys.nil_subperm⟩
    found := fun k => (items.find? (·.lookup keyAttribute = some k)).map returned
    keyed := by
      intro k item h
      obtain ⟨row, hrow, rfl⟩ := Option.map_eq_some_iff.mp h
      have hkey := (List.find?_eq_some_iff_append.mp hrow).1
      exact (stringAt_returned row keyAttribute).trans (of_decide_eq_true hkey)
    items := keys.filterMap fun k => (items.find? (·.lookup keyAttribute = some k)).map returned
    order := .refl _ }

theorem reads_answering (keyAttribute : Text) (items : List CacheWriteBack.Item) :
    Reads (fun _ => answering keyAttribute items) items := by
  intro b attempt keys response h
  obtain rfl := CacheLookup.Answer.ok.inj h
  exact fun _ => rfl

/-- A call that writes one verdict, to a table that processes whatever it is sent. -/
def screened : Call where
  settings := { table := "cache".toList }
  server := fun _ items => .ok ⟨[], items.nil_subperm⟩
  storage _ key :=
    if key = "misses".toList then some (some "ada@example.org\n".toList)
    else if key = "valid".toList then some (some "email,reason\nAda@example.org,ok\n".toList)
    else none
  job := { cacheMissKey := some "misses".toList, inputDisk := none }
  result := { disk := "s3", keys := [("valid".toList, "valid".toList)] }
  timestamp := "2026-01-25T10:00:00.000000Z".toList

/-- The call, with its items processed. -/
def screenedOnce : WriteBack where
  toCall := screened
  processed := screened.items
  acknowledges := by
    have hall : screened.acknowledged = screened.items := by decide +kernel
    exact hall ▸ List.Sublist.refl _
  sent _ h := h

/-- The lookup after it. -/
def later : CacheLookup.Settings := { table := "cache".toList }

theorem writesFor_screened : WritesFor later screened where
  verdicts := rfl
  key := rfl
  result := rfl
  datetime := rfl
  distinct := by decide

theorem lookupMany_later :
    CacheLookup.lookupMany later CacheLookup.epoch
        (fun _ => answering later.keyAttribute
          (tableAfter later.keyAttribute later.table [screenedOnce]))
        ["ada@example.org".toList] =
      some [("ada@example.org".toList,
        entryOf later CacheLookup.epoch "valid".toList screened.timestamp)] := by
  decide +kernel

/-- After a write-back that has written all it attempted, the table has an item of every address
that was a miss and has a row, and it is that of one of its rows. -/
theorem find?_after_writeBack {call : WriteBack} {n : Nat} (hname : call.table = σ.table)
    (hfor : WritesFor σ call.toCall)
    (hcompleted : call.report.summary = some ⟨"completed".toList, n, n⟩) {e status : Text}
    (hmiss : e ∈ call.misses) (hrow : call.HasRow e status) :
    ∃ verdict, call.HasRow e verdict ∧ (tableAfter σ.keyAttribute σ.table (calls ++ [call])).find?
        (·.lookup σ.keyAttribute = some e) =
      some (CacheWriteBack.makeWriteRequest call.settings e
        (CacheWriteBack.normalizeResult verdict) call.timestamp) := by
  have hitem := (mem_items hfor.verdicts).mpr ⟨e, status, hmiss, hrow, rfl⟩
  have hacknowledged := (call.reports.completed n hcompleted).mem_iff.mpr hitem
  have hprocessed := call.acknowledges.subset hacknowledged
  obtain ⟨item, hitem', hfind⟩ := @find?_tableAfter_concat _ _ _ calls _ _ hname hprocessed
    (hfor.lookup _ _ _).1
  have hkey := (find?_tableAfter_iff.mp hfind).1
  obtain ⟨verdict, -, hrow', rfl⟩ := exists_row hfor hitem' hkey
  exact ⟨verdict, hrow', hfind⟩

end Found

end ValidEmailVerifier.CacheItems
