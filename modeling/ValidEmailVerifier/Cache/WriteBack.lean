/-
# `Cache.WriteBack` — the results of a job go back into the cache

`DynamoDbCacheWriteBackService` reads the outputs of a job, keeps the addresses that the cache did
not know, and writes them to the table in batches.  The table may leave items of a batch
unprocessed; these are sent again, at most `maxAttempts` times.

The table is any function from the number of the request and its items to an answer.  Beside the
service's own counters the model keeps what the table has acknowledged, and the law of every exit
is that the counter says how much that is (`flushBatch_counts`, `writeBack_counts`).
-/
import ValidEmailVerifier.Lib.Leftovers
import ValidEmailVerifier.Lib.Text
import ValidEmailVerifier.Pipeline.Schema

namespace ValidEmailVerifier.CacheWriteBack

open Text

/-! ## Settings -/

/-- `cache_writeback_failure_mode`. -/
inductive FailureMode where
  | failJob | skipWrites | continue
  deriving DecidableEq, Repr

structure Settings where
  enabled : Bool := true
  testEnabled : Bool := false
  cacheOnlyEnabled : Bool := false
  table : Text
  keyAttribute : Text := "email".toList
  resultAttribute : Text := "result".toList
  datetimeAttribute : Text := "DateTime".toList
  statuses : List Text := ["valid".toList, "invalid".toList]
  batchSize : Int := 25
  retryAttempts : Int := 5
  failureMode : FailureMode := .failJob
  testTable : Text := []
  testResult : Text := "Cache_miss".toList
  deriving DecidableEq, Repr

/-- `EngineSettings::cacheWritebackStatuses`. -/
def cacheWritebackStatuses (σ : Settings) : List Text :=
  ((σ.statuses.map (fun s => strtolower (trim s))).eraseDups).filter fun s =>
    s = "valid".toList ∨ s = "invalid".toList

/-- `EngineSettings::cacheWritebackBatchSize`. -/
def cacheWritebackBatchSize (σ : Settings) : Nat := (max 1 (min 25 σ.batchSize)).toNat

/-- `EngineSettings::cacheWritebackRetryAttempts`. -/
def cacheWritebackRetryAttempts (σ : Settings) : Nat := (max 0 σ.retryAttempts).toNat

/-- `EngineSettings::cacheWritebackTestResult`. -/
def cacheWritebackTestResult (σ : Settings) : Text :=
  if trim σ.testResult = [] then "Cache_miss".toList else trim σ.testResult

/-! ## The table -/

/-- The attributes of an item, with their values. -/
abbrev Item := List (Text × Text)

/-- What comes of a `batchWriteItem`: an answer with the items it has left unprocessed, an
exception of the service, or another exception. -/
inductive Answer (items : List Item) where
  | ok (unprocessed : Leftover items)
  | awsException
  | exception

/-- The table, answering the requests in the order they are sent. -/
abbrev Server := (request : Nat) → (items : List Item) → Answer items

/-- The service, with the number of requests it has sent and the items that the table has
acknowledged. -/
structure Service where
  stopWrites : Bool := false
  requests : Nat := 0
  acknowledged : List Item := []

/-- How a call ends. -/
inductive Exit where
  | returned | thrown
  deriving DecidableEq, Repr

/-- The end of a `flushBatch`, with what `$written` is then. -/
structure Flush where
  exit : Exit
  written : Int
  service : Service

/-- `handleFailure`, and the return after it. -/
def handleFailure (σ : Settings) (written : Int) (s : Service) : Flush :=
  match σ.failureMode with
  | .failJob => ⟨.thrown, written, s⟩
  | .skipWrites => ⟨.returned, written, { s with stopWrites := true }⟩
  | .continue => ⟨.returned, written, s⟩

/-- The loop of `flushBatch`. -/
def flushLoop (σ : Settings) (server : Server) (attempt : Nat) (pending : List Item)
    (written : Int) (s : Service) : Flush :=
  if pending = [] then ⟨.returned, written, s⟩
  else
    match server s.requests pending with
    | .exception => ⟨.thrown, written, { s with requests := s.requests + 1 }⟩
    | .awsException => handleFailure σ written { s with requests := s.requests + 1 }
    | .ok unprocessed =>
        let s := { s with
          requests := s.requests + 1
          acknowledged := s.acknowledged ++ unprocessed.done }
        let written := written + ((pending.length : Int) - unprocessed.rest.length)
        if unprocessed.rest = [] then ⟨.returned, written, s⟩
        else if cacheWritebackRetryAttempts σ < attempt + 1 then handleFailure σ written s
        else if s.stopWrites then ⟨.returned, written, s⟩
        else flushLoop σ server (attempt + 1) unprocessed.rest written s
termination_by cacheWritebackRetryAttempts σ + 1 - attempt

/-- `flushBatch`. -/
def flushBatch (σ : Settings) (server : Server) (batch : List Item) (s : Service) : Flush :=
  flushLoop σ server 0 batch 0 s

/-! ## The outputs of a job -/

/-- The objects of the disks: `none` for one that does not exist, `some none` for one that
cannot be read. -/
abbrev Storage := Disk → Text → Option (Option Text)

structure Job where
  cacheMissKey : Option Text
  inputDisk : Option Disk
  deriving DecidableEq, Repr

/-- `$result`. -/
structure Result where
  disk : Disk
  keys : List (Text × Text)
  deriving DecidableEq, Repr

/-- A string that PHP takes for false. -/
def isFalsy (s : Text) : Bool := s == [] || s == "0".toList

/-- `EmailHashing::normalizeEmail`. -/
def normalizeEmail (email : Text) : Text := strtolower (trim email)

/-- `loadCacheMisses`: the keys of `$misses`. -/
def loadCacheMisses (stream : Option Text) : List Text :=
  (((fgets (stream.getD [])).map normalizeEmail).filter (· ≠ [])).eraseDups

/-- `extractEmailFromLine`. -/
def extractEmailFromLine (line : Text) : Option Text :=
  let normalized := rtrimEol line
  if normalized = [] ∨ '@' ∉ normalized then none
  else
    let email := trim ((strGetcsv normalized)[0]?.getD [])
    if email = [] then none else some email

/-- `makeWriteRequest`, with the result as it is written. -/
def makeWriteRequest (σ : Settings) (email result timestamp : Text) : Item :=
  [(σ.keyAttribute, email), (σ.resultAttribute, result), (σ.datetimeAttribute, timestamp)]

/-- `makeWriteRequest` with `$normalizeResult`. -/
def normalizeResult (status : Text) : Text :=
  if strtolower status = "invalid".toList then "Invalid".toList else "Valid".toList

/-- The item of a line of an output, if it has one. -/
def lineItem (σ : Settings) (misses : List Text) (timestamp status line : Text) : Option Item :=
  match extractEmailFromLine line with
  | none => none
  | some email =>
      if isFalsy email then none
      else if normalizeEmail email = [] ∨ normalizeEmail email ∉ misses then none
      else some (makeWriteRequest σ (normalizeEmail email) (normalizeResult status) timestamp)

/-- The items of the outputs of a job, in the order in which they are read. -/
def outputItems (σ : Settings) (storage : Storage) (result : Result) (timestamp : Text)
    (misses : List Text) : List Item :=
  (cacheWritebackStatuses σ).flatMap fun status =>
    match result.keys.lookup status with
    | none => []
    | some key =>
        if isFalsy key then []
        else
          match storage result.disk key with
          | some (some stream) =>
              (fgets stream).filterMap (lineItem σ misses timestamp status)
          | _ => []

/-! ## The write-back -/

/-- The counters of `writeBack`, and the counts it has recorded as its progress. -/
structure Run where
  exit : Exit := .returned
  attempted : Nat := 0
  written : Int := 0
  service : Service := {}
  progress : List (Int × Nat) := []

/-- `updateWritebackProgress`: the recorded counts. -/
def updateWritebackProgress (total : Nat) (r : Run) : Run :=
  if total = 0 then r else { r with progress := r.progress ++ [(r.written, total)] }

/-- `$written += $this->flushBatch($batch)`. -/
def addFlush (σ : Settings) (server : Server) (batch : List Item) (r : Run) : Run :=
  let f := flushBatch σ server batch r.service
  match f.exit with
  | .thrown => { r with exit := .thrown, service := f.service }
  | .returned => { r with written := r.written + f.written, service := f.service }

/-- The loop over the items, and what follows it. -/
def writeItems (σ : Settings) (server : Server) (total : Nat) :
    List Item → List Item → Run → Run
  | [], batch, r =>
      if r.service.stopWrites ∨ batch = [] then updateWritebackProgress total r
      else
        let r := addFlush σ server batch r
        if r.exit = .thrown then r else updateWritebackProgress total r
  | item :: items, batch, r =>
      let r := { r with attempted := r.attempted + 1 }
      if cacheWritebackBatchSize σ ≤ (batch ++ [item]).length then
        let r := addFlush σ server (batch ++ [item]) r
        if r.exit = .thrown then r
        else
          let r := updateWritebackProgress total r
          if r.service.stopWrites then updateWritebackProgress total r
          else writeItems σ server total items [] r
      else writeItems σ server total items (batch ++ [item]) r

/-- What `writeBack` returns. -/
structure Summary where
  status : Text
  attempted : Nat := 0
  written : Int := 0
  deriving DecidableEq, Repr

/-- The end of a call: the summary, unless an exception was thrown, and the counters then. -/
structure Report where
  summary : Option Summary
  run : Run

/-- The counters when nothing has been written. -/
def Run.idle (s : Service) : Run := { service := s }

/-- A return before anything is written. -/
def early (status : Text) (s : Service) : Report := ⟨some { status := status }, .idle s⟩

/-- A failure before anything is written, with the return after it. -/
def earlyFailure (σ : Settings) (status : Text) (s : Service) : Report :=
  let f := handleFailure σ 0 s
  match f.exit with
  | .thrown => ⟨none, { Run.idle f.service with exit := .thrown }⟩
  | .returned => early status f.service

/-- The part that `writeBack` and `writeBackTest` have in common: `items` are those to write for
the misses, or the status of a return without any. -/
def writeMisses (σ : Settings) (server : Server) (storage : Storage) (job : Job)
    (result : Result) (items : List Text → Except Text (List Item)) (s : Service) : Report :=
  match job.cacheMissKey with
  | none => early "no_cache_miss".toList s
  | some key =>
      if isFalsy key then early "no_cache_miss".toList s
      else
        match storage (job.inputDisk.getD result.disk) key with
        | none => early "cache_miss_missing".toList s
        | some stream =>
            let misses := loadCacheMisses stream
            if misses = [] then early "no_cache_miss".toList s
            else
              let r := updateWritebackProgress misses.length (.idle s)
              match items misses with
              | .error status => ⟨some { status := status }, r⟩
              | .ok items =>
                  let r := writeItems σ server misses.length items [] r
                  match r.exit with
                  | .thrown => ⟨none, r⟩
                  | .returned =>
                      ⟨some {
                        status := if r.service.stopWrites then "skipped".toList
                          else "completed".toList
                        attempted := r.attempted
                        written := r.written }, r⟩

/-- `writeBackTest`. -/
def writeBackTest (σ : Settings) (server : Server) (storage : Storage) (job : Job)
    (result : Result) (timestamp : Text) (s : Service) : Report :=
  if isFalsy (trim σ.testTable) then earlyFailure σ "missing_test_table".toList s
  else
    writeMisses σ server storage job result
      (fun misses => .ok (misses.map fun email =>
        makeWriteRequest σ email (cacheWritebackTestResult σ) timestamp)) s

/-- `writeBack`. -/
def writeBack (σ : Settings) (server : Server) (storage : Storage) (job : Job)
    (result : Result) (timestamp : Text) (s : Service) : Report :=
  if σ.enabled = false then early "disabled".toList s
  else if σ.testEnabled ∧ σ.cacheOnlyEnabled then
    writeBackTest σ server storage job result timestamp s
  else if σ.table = [] then earlyFailure σ "missing_table".toList s
  else
    writeMisses σ server storage job result
      (fun misses =>
        if cacheWritebackStatuses σ = [] then .error "no_statuses".toList
        else .ok (outputItems σ storage result timestamp misses)) s

/-! ## One batch -/

section Flush
variable {σ : Settings} {server : Server}

/-- `f` is an end of a loop that began with `written` and `s`, and has split the batch into what
was acknowledged and the rest. -/
structure Flush.Accounts (f : Flush) (batch : List Item) (written : Int) (s : Service)
    (acks : List Item) : Prop where
  acknowledged : f.service.acknowledged = s.acknowledged ++ acks
  into : ∃ rest, Leftover.Into acks rest batch
  written : f.written = written + acks.length

theorem handleFailure_written (written : Int) (s : Service) :
    (handleFailure σ written s).written = written := by
  unfold handleFailure
  split <;> rfl

theorem handleFailure_acknowledged (written : Int) (s : Service) :
    (handleFailure σ written s).service.acknowledged = s.acknowledged := by
  unfold handleFailure
  split <;> rfl

theorem handleFailure_requests (written : Int) (s : Service) :
    (handleFailure σ written s).service.requests = s.requests := by
  unfold handleFailure
  split <;> rfl

theorem flushLoop_requests {attempt : Nat} (pending : List Item) (written : Int) (s : Service)
    (hattempt : attempt ≤ cacheWritebackRetryAttempts σ) :
    (flushLoop σ server attempt pending written s).service.requests ≤
      s.requests + (cacheWritebackRetryAttempts σ + 1 - attempt) := by
  fun_induction flushLoop σ server attempt pending written s with
  | case1 => exact Nat.le_add_right _ _
  | case2 attempt pending written s =>
    show s.requests + 1 ≤ _
    omega
  | case3 attempt pending written s =>
    rw [handleFailure_requests]
    show s.requests + 1 ≤ _
    omega
  | case4 attempt pending written s =>
    show s.requests + 1 ≤ _
    omega
  | case5 attempt pending written s =>
    rw [handleFailure_requests]
    show s.requests + 1 ≤ _
    omega
  | case6 attempt pending written s =>
    show s.requests + 1 ≤ _
    omega
  | case7 attempt pending written s _ unprocessed _ s' written' _ hmore _ ih =>
    have hrest := ih (by omega)
    have hrequests : s'.requests = s.requests + 1 := rfl
    omega

/-- An end without a request. -/
theorem Flush.Accounts.nothing {f : Flush} {batch : List Item} {written : Int} {s : Service}
    (hacknowledged : f.service.acknowledged = s.acknowledged) (hwritten : f.written = written) :
    f.Accounts batch written s [] where
  acknowledged := by rw [hacknowledged, List.append_nil]
  into := ⟨batch, .start batch⟩
  written := by simp [hwritten]

/-- A request that is answered, with what comes after it. -/
theorem Flush.Accounts.answered {f : Flush} {batch : List Item} {written : Int} {s s' : Service}
    {acks : List Item} (unprocessed : Leftover batch)
    (hs' : s'.acknowledged = s.acknowledged ++ unprocessed.done)
    (h : f.Accounts unprocessed.rest
      (written + ((batch.length : Int) - unprocessed.rest.length)) s' acks) :
    f.Accounts batch written s (unprocessed.done ++ acks) where
  acknowledged := by rw [h.acknowledged, hs', List.append_assoc]
  into := by
    obtain ⟨rest, hinto⟩ := h.into
    exact ⟨rest, hinto.cons unprocessed⟩
  written := by
    have hdone := unprocessed.length_done
    rw [h.written, List.length_append]
    omega

/-- **The counter of a batch says how many of its items have been acknowledged**, however the
loop ends. -/
theorem flushLoop_accounts (attempt : Nat) (pending : List Item) (written : Int) (s : Service) :
    ∃ acks, (flushLoop σ server attempt pending written s).Accounts pending written s acks := by
  fun_induction flushLoop σ server attempt pending written s with
  | case1 => exact ⟨[], .nothing rfl rfl⟩
  | case2 => exact ⟨[], .nothing rfl rfl⟩
  | case3 => exact ⟨[], .nothing (handleFailure_acknowledged _ _) (handleFailure_written _ _)⟩
  | case4 attempt pending written s _ unprocessed =>
    exact ⟨_, .answered unprocessed rfl (.nothing rfl rfl)⟩
  | case5 attempt pending written s _ unprocessed =>
    exact ⟨_, .answered unprocessed rfl
      (.nothing (handleFailure_acknowledged _ _) (handleFailure_written _ _))⟩
  | case6 attempt pending written s _ unprocessed =>
    exact ⟨_, .answered unprocessed rfl (.nothing rfl rfl)⟩
  | case7 attempt pending written s _ unprocessed _ _ _ _ _ _ ih =>
    obtain ⟨acks, h⟩ := ih
    exact ⟨_, .answered unprocessed rfl h⟩

end Flush

/-! ## A whole write-back -/

section Run
variable {σ : Settings} {server : Server}

/-- The counters of a run against what the table has acknowledged since `before`, with `batch`
collected and not yet sent. -/
structure Run.Accounts (r : Run) (before : List Item) (batch : List Item)
    (acks : List Item) : Prop where
  acknowledged : r.service.acknowledged = before ++ acks
  attempted : acks.length + batch.length ≤ r.attempted
  returned : r.exit = .returned → r.written = acks.length
  written : r.written ≤ acks.length
  progress : ∀ p ∈ r.progress, p.1 ≤ acks.length

theorem Run.Accounts.updateWritebackProgress {r : Run} {before batch acks : List Item}
    (h : r.Accounts before batch acks) (total : Nat) :
    (updateWritebackProgress total r).Accounts before batch acks := by
  unfold CacheWriteBack.updateWritebackProgress
  split
  · exact h
  · refine ⟨h.acknowledged, h.attempted, h.returned, h.written, fun p hp => ?_⟩
    rcases List.mem_append.mp hp with hp | hp
    · exact h.progress p hp
    · rw [List.mem_singleton.mp hp]
      exact h.written

theorem updateWritebackProgress_exit (total : Nat) (r : Run) :
    (updateWritebackProgress total r).exit = r.exit := by
  unfold updateWritebackProgress
  split <;> rfl

/-- A batch that is sent is no longer collected. -/
theorem Run.Accounts.addFlush {r : Run} {before batch acks : List Item}
    (h : r.Accounts before batch acks) (hexit : r.exit = .returned) :
    ∃ more, (addFlush σ server batch r).Accounts before [] (acks ++ more) := by
  obtain ⟨more, hf⟩ := @flushLoop_accounts σ server 0 batch 0 r.service
  have hback : (flushBatch σ server batch r.service).service.acknowledged =
      before ++ (acks ++ more) := by
    rw [← List.append_assoc, ← h.acknowledged]
    exact hf.acknowledged
  have hwritten : (flushBatch σ server batch r.service).written = more.length := by
    have := hf.written
    rwa [Int.zero_add] at this
  have hle : more.length ≤ batch.length := by
    obtain ⟨rest, hinto⟩ := hf.into
    exact hinto.length_le
  have hcount := h.returned hexit
  have hattempted := h.attempted
  have hlength : ((acks ++ more).length : Int) = acks.length + more.length := by simp
  refine ⟨more, ?_⟩
  unfold CacheWriteBack.addFlush
  dsimp only
  split
  · refine ⟨hback, ?_, nofun, ?_, fun p hp => ?_⟩
    · show (acks ++ more).length + 0 ≤ r.attempted
      omega
    · show r.written ≤ _
      omega
    · have := h.progress p hp
      omega
  · refine ⟨hback, ?_, fun _ => ?_, ?_, fun p hp => ?_⟩
    · show (acks ++ more).length + 0 ≤ r.attempted
      omega
    · show r.written + _ = _
      omega
    · show r.written + _ ≤ _
      omega
    · have := h.progress p hp
      omega

/-- The counters of a run agree with the table. -/
def Run.Settled (r : Run) (before : List Item) : Prop :=
  ∃ batch acks, r.Accounts before batch acks

theorem writeItems_settled (total : Nat) (items batch : List Item) (r : Run)
    {before acks : List Item} (h : r.Accounts before batch acks) (hexit : r.exit = .returned) :
    (writeItems σ server total items batch r).Settled before := by
  induction items generalizing batch r acks with
  | nil =>
    unfold writeItems
    split
    · exact ⟨batch, acks, h.updateWritebackProgress total⟩
    · obtain ⟨more, hflush⟩ := @Run.Accounts.addFlush σ server _ _ _ _ h hexit
      dsimp only
      split
      · exact ⟨[], _, hflush⟩
      · exact ⟨[], _, hflush.updateWritebackProgress total⟩
  | cons item items ih =>
    have hcollected : ({ r with attempted := r.attempted + 1 } : Run).Accounts before
        (batch ++ [item]) acks := by
      refine ⟨h.acknowledged, ?_, h.returned, h.written, h.progress⟩
      have := h.attempted
      rw [List.length_append, List.length_singleton]
      dsimp only
      omega
    unfold writeItems
    dsimp only
    split
    · obtain ⟨more, hflush⟩ := @Run.Accounts.addFlush σ server _ _ _ _ hcollected hexit
      split
      · exact ⟨[], _, hflush⟩
      next hreturned =>
        have hnext := hflush.updateWritebackProgress total
        split
        · exact ⟨[], _, hnext.updateWritebackProgress total⟩
        · refine ih [] _ hnext ?_
          rw [updateWritebackProgress_exit]
          cases hf : (addFlush σ server _ _).exit with
          | thrown => exact absurd hf hreturned
          | returned => rfl
    · exact ih _ _ hcollected hexit

/-- What a report says against what the table has acknowledged. -/
def Report.Accounts (report : Report) (before : Service) : Prop :=
  match report.summary with
  | some summary =>
      summary.written =
        (report.run.service.acknowledged.length : Int) - before.acknowledged.length ∧
      summary.written ≤ summary.attempted
  | none =>
      report.run.written ≤
        (report.run.service.acknowledged.length : Int) - before.acknowledged.length

theorem early_accounts (status : Text) {s before : Service}
    (h : s.acknowledged = before.acknowledged) : (early status s).Accounts before := by
  refine ⟨?_, Int.le_refl _⟩
  show (0 : Int) = (s.acknowledged.length : Int) - before.acknowledged.length
  rw [h]
  omega

theorem earlyFailure_accounts (status : Text) (s : Service) :
    (earlyFailure σ status s).Accounts s := by
  unfold earlyFailure
  dsimp only
  split
  · show (0 : Int) ≤ ((handleFailure σ 0 s).service.acknowledged.length : Int) - _
    rw [handleFailure_acknowledged]
    omega
  · exact early_accounts status (handleFailure_acknowledged 0 s)

theorem writeMisses_accounts (storage : Storage) (job : Job) (result : Result)
    (items : List Text → Except Text (List Item)) (s : Service) :
    (writeMisses σ server storage job result items s).Accounts s := by
  unfold writeMisses
  split
  · exact early_accounts _ rfl
  · split
    · exact early_accounts _ rfl
    · split
      · exact early_accounts _ rfl
      next stream _ =>
        dsimp only
        split
        · exact early_accounts _ rfl
        next =>
          have hstart : (updateWritebackProgress (loadCacheMisses stream).length
              (Run.idle s)).Accounts s.acknowledged [] [] :=
            Run.Accounts.updateWritebackProgress
              ⟨(List.append_nil _).symm, Nat.le_refl _, fun _ => rfl, Int.le_refl _,
                fun _ hp => absurd hp List.not_mem_nil⟩ _
          split
          · refine ⟨?_, Int.le_refl _⟩
            dsimp only
            rw [hstart.acknowledged]
            simp
          next found _ =>
            obtain ⟨batch, more, h⟩ := @writeItems_settled σ server
              (loadCacheMisses stream).length found [] _ _ _ hstart
              (updateWritebackProgress_exit _ _)
            have hlength := congrArg List.length h.acknowledged
            rw [List.length_append] at hlength
            have hwritten := h.written
            split
            · show Run.written _ ≤ _
              dsimp only
              omega
            next hreturned =>
              have hcount := h.returned hreturned
              have hattempted := h.attempted
              refine ⟨?_, ?_⟩
              · dsimp only
                omega
              · dsimp only
                omega

end Run

/-- **A batch is sent at most `maxAttempts + 1` times and its counter says how many of its items
have been acknowledged, whichever way the loop ends; what a write-back returns as written is what
the table has acknowledged since it began, and not more than was attempted.** -/
theorem writeBack_counts (σ : Settings) (server : Server) :
    (∀ (batch : List Item) (s : Service),
      (flushBatch σ server batch s).service.requests ≤
        s.requests + (cacheWritebackRetryAttempts σ + 1) ∧
      ∃ acks, (flushBatch σ server batch s).service.acknowledged = s.acknowledged ++ acks ∧
        (flushBatch σ server batch s).written = acks.length ∧ acks.length ≤ batch.length) ∧
    ∀ (storage : Storage) (job : Job) (result : Result) (timestamp : Text) (s : Service),
      (writeBack σ server storage job result timestamp s).Accounts s := by
  constructor
  · intro batch s
    refine ⟨flushLoop_requests batch 0 s (Nat.zero_le _), ?_⟩
    obtain ⟨acks, h⟩ := @flushLoop_accounts σ server 0 batch 0 s
    obtain ⟨rest, hinto⟩ := h.into
    refine ⟨acks, h.acknowledged, ?_, hinto.length_le⟩
    have := h.written
    rwa [Int.zero_add] at this
  · intro storage job result timestamp s
    unfold writeBack
    split
    · exact early_accounts _ rfl
    · split
      · unfold writeBackTest
        split
        · exact earlyFailure_accounts _ _
        · exact writeMisses_accounts _ _ _ _ _
      · split
        · exact earlyFailure_accounts _ _
        · exact writeMisses_accounts _ _ _ _ _

end ValidEmailVerifier.CacheWriteBack
