/-
# `Queues.Recovery` — failed jobs go back to their queues

`ops:queue-recover` reads some of `failed_jobs`, pushes each job to the queue it failed on and
deletes its row.  The push comes first, so a job is never lost, whatever fails on the way and
whichever commands run at the same time (`kept_or_pushed`).  What a command records of a run is
what has become of the jobs it has chosen (`tried_all_chosen`).  The price is that a job may be
pushed twice: by two commands that have both read its row, or again when its row was not deleted.
Where neither happens each job is pushed once (`pushed_once`).

A worker that gives up a job inserts a row at any time.
-/
import Mathlib.Data.List.Infix
import Mathlib.Data.List.Sort
import ValidEmailVerifier.Lib.JsonText
import ValidEmailVerifier.Lib.Programs
import ValidEmailVerifier.Lib.Text
import ValidEmailVerifier.Pipeline.Schema

namespace ValidEmailVerifier.QueueRecovery

open Programs Prog Text Transition

/-! ## The tables -/

/-- A job on a queue. -/
structure Job where
  connection : Text
  queue : Text
  payload : Text
  deriving DecidableEq, Repr

/-- A row of `failed_jobs`. -/
structure FailedJob extends Job where
  id : Nat
  failedAt : Int
  deriving DecidableEq, Repr

/-- A row of `queue_recovery_actions`. -/
structure QueueRecoveryAction where
  strategy : Text
  status : Text
  lane : Option Text
  jobClass : Option Text
  targetCount : Nat
  processedCount : Nat
  failedCount : Nat
  dryRun : Bool
  reason : Option Text
  hours : Int
  max : Nat
  laneQueue : Option Text
  candidateIds : List Nat
  errors : List (Nat × Text)
  deriving DecidableEq, Repr

/-- What the command reads and writes of `queue_incidents`. -/
structure QueueIncident where
  lane : Option Text
  status : Text
  resolvedAt : Option Int := none
  mitigatedAt : Option Int := none
  deriving DecidableEq, Repr

/-- The tables; beside them all that has ever failed, and each job that was pushed with the id of
the row it was pushed for. -/
structure Store where
  failedJobs : List FailedJob := []
  nextId : Nat := 1
  actions : List QueueRecoveryAction := []
  incidents : List QueueIncident := []
  everFailed : List FailedJob := []
  pushed : List (Nat × Job) := []

/-! ## The command line -/

structure Config where
  enabled : Bool := true
  allowStrategies : List Text := ["requeue_failed".toList]
  allowLanes : List Text := []
  /-- `queue_health.lanes.….queue` -/
  laneQueue : Text → Text := fun _ => []
  defaultWindowHours : Int := 24
  maxReplayPerRun : Int := 100

/-- The options; numbers as they are cast, `none` where nothing or `0` is given. -/
structure Options where
  lane : Text := []
  strategy : Text := "requeue_failed".toList
  job : Text := []
  hours : Option Int := none
  max : Option Int := none
  reason : Text := []
  dryRun : Bool := false
  deriving DecidableEq, Repr

def requeueFailed : Text := "requeue_failed".toList

def cleanNullableString (value : Text) : Option Text :=
  if trim value = [] then none else some (trim value)

def resolveLaneQueue (cfg : Config) (lane : Text) : Option Text :=
  cleanNullableString (cfg.laneQueue lane)

def disabled : Text := "Queue recovery is disabled by configuration.".toList

def unsupported (cfg : Config) (strategy : Text) : Text :=
  "Unsupported strategy \"".toList ++ strategy ++ "\". Allowed: ".toList ++
    (", ".toList).intercalate cfg.allowStrategies

def notImplemented : Text := "Only \"requeue_failed\" is implemented in this phase.".toList

def laneNotAllowed (cfg : Config) (lane : Text) : Text :=
  "Lane \"".toList ++ lane ++ "\" is not allowed. Allowed lanes: ".toList ++
    (", ".toList).intercalate cfg.allowLanes

def laneNotMapped (lane : Text) : Text :=
  "Lane \"".toList ++ lane ++
    "\" has no queue mapping. Configure queue_health.lanes.".toList ++ lane ++ ".queue.".toList

/-- The lane with its queue, if one is given, or the error of the command line. -/
def checked (cfg : Config) (o : Options) : Except Text (Option (Text × Text)) :=
  if cfg.enabled = false then .error disabled
  else if trim o.strategy ∉ cfg.allowStrategies then .error (unsupported cfg (trim o.strategy))
  else if trim o.strategy ≠ requeueFailed then .error notImplemented
  else
    match cleanNullableString o.lane with
    | none => .ok none
    | some lane =>
        if lane ∉ cfg.allowLanes then .error (laneNotAllowed cfg lane)
        else
          match resolveLaneQueue cfg lane with
          | none => .error (laneNotMapped lane)
          | some queue => .ok (some (lane, queue))

def hours (cfg : Config) (o : Options) : Int := max 1 (o.hours.getD cfg.defaultWindowHours)

/-- `$max`. -/
def maxReplay (cfg : Config) (o : Options) : Nat :=
  (max 1 (min (o.max.getD cfg.maxReplayPerRun) cfg.maxReplayPerRun)).toNat

/-! ## The rows -/

/-- The condition of the query and its limit. -/
structure Query where
  since : Int
  queue : Option Text
  limit : Nat
  deriving DecidableEq, Repr

def Query.selects (q : Query) (row : FailedJob) : Bool :=
  decide (q.since ≤ row.failedAt) && q.queue.all (· == row.queue)

/-- The oldest rows that the query selects. -/
def Query.get (q : Query) (rows : List FailedJob) : List FailedJob :=
  ((rows.filter q.selects).mergeSort fun a b => decide (a.failedAt ≤ b.failedAt)).take q.limit

def field (key : Text) : Option Json → Option Json
  | some (.obj fields) => Json.last key fields
  | _ => none

/-- A name as it stands in a payload, trimmed and in lower case. -/
def nameOf : Option Json → Text
  | some (.str s) => strtolower (trim s)
  | _ => []

def displayName (payload : Text) : Text :=
  nameOf (field "displayName".toList (Json.parse payload))

def commandName (payload : Text) : Text :=
  nameOf (field "commandName".toList (field "data".toList (Json.parse payload)))

/-- The job is one of the class, or none is asked for. -/
def ofClass (jobClass : Option Text) (row : FailedJob) : Bool :=
  jobClass.all fun name =>
    decide (strtolower name <:+: displayName row.payload) ||
      decide (strtolower name <:+: commandName row.payload)

/-- The rows to be replayed, of those the query has returned. -/
def chosen (cfg : Config) (o : Options) (rows : List FailedJob) : List FailedJob :=
  (rows.filter (ofClass (cleanNullableString o.job))).take (maxReplay cfg o)

/-! ## The command -/

inductive Command where
  | get (q : Query)
  | pushRaw (row : FailedJob)
  | delete (row : FailedJob)
  | createAction (action : QueueRecoveryAction)
  | mitigate (lane : Option Text)
  /-- A worker gives a job up. -/
  | insert (job : Job) (failedAt : Int)

/-- The rows of a query, or that it was carried out; no rows, or `false`, for an exception. -/
abbrev Command.Reply : Command → Type
  | .get _ => Option (List FailedJob)
  | _ => Bool

inductive Outcome where
  | refused (error : Text)
  | thrown
  | recorded (action : QueueRecoveryAction)
  | failed
  deriving DecidableEq, Repr

abbrev Program := Prog Command Command.Reply

/-- The loop over the rows: how many were processed, and the errors. -/
def replay : List FailedJob → Nat → List FailedJob → Program (Nat × List FailedJob)
  | [], processed, errors => .ret (processed, errors)
  | row :: rows, processed, errors =>
      .call (.pushRaw row) fun pushed =>
        if pushed = true then
          .call (.delete row) fun deleted =>
            if deleted = true then replay rows (processed + 1) errors
            else replay rows processed (errors ++ [row])
        else replay rows processed (errors ++ [row])

def statusOf (dryRun : Bool) (processed failed : Nat) : Text :=
  if dryRun then "dry_run".toList
  else if 0 < failed then
    if 0 < processed then "partial".toList else "failed".toList
  else "success".toList

def actionOf (cfg : Config) (o : Options) (lane : Option (Text × Text)) (rows : List FailedJob)
    (processed : Nat) (errors : List FailedJob) : QueueRecoveryAction where
  strategy := trim o.strategy
  status := statusOf o.dryRun processed errors.length
  lane := lane.map Prod.fst
  jobClass := cleanNullableString o.job
  targetCount := rows.length
  processedCount := if o.dryRun then 0 else processed
  failedCount := if o.dryRun then 0 else errors.length
  dryRun := o.dryRun
  reason := cleanNullableString o.reason
  hours := hours cfg o
  max := maxReplay cfg o
  laneQueue := lane.map Prod.snd
  candidateIds := (rows.map (·.id)).take 20
  errors := (errors.map fun row => (row.id, row.queue)).take 10

/-- The end of `handle`. -/
def record (dryRun : Bool) (lane : Option Text) (processed : Nat)
    (action : QueueRecoveryAction) : Program Outcome :=
  .call (.createAction action) fun created =>
    if created = false then .ret .thrown
    else if dryRun = false ∧ 0 < processed then
      .call (.mitigate lane) fun mitigated =>
        if mitigated = true then .ret (.recorded action) else .ret .thrown
    else .ret (.recorded action)

def queryOf (cfg : Config) (o : Options) (now : Int) (lane : Option (Text × Text)) : Query where
  since := now - hours cfg o * 3600
  queue := lane.map Prod.snd
  limit := maxReplay cfg o * 2

/-- `handle`, at a time in seconds. -/
def handle (cfg : Config) (o : Options) (now : Int) : Program Outcome :=
  match checked cfg o with
  | .error error => .ret (.refused error)
  | .ok lane =>
      .call (.get (queryOf cfg o now lane)) fun rows =>
        match rows with
        | none => .ret .thrown
        | some rows =>
            let rows := chosen cfg o rows
            if o.dryRun then
              record true (lane.map Prod.fst) 0 (actionOf cfg o lane rows 0 [])
            else
              replay rows 0 [] >>= fun (processed, errors) =>
                record false (lane.map Prod.fst) processed
                  (actionOf cfg o lane rows processed errors)

/-- The exit code. -/
def Outcome.exitCode : Outcome → Nat
  | .recorded action => if 0 < action.failedCount ∧ action.dryRun = false then 1 else 0
  | _ => 1

/-! ## Running together -/

/-- A command is carried out, or throws without effect, or throws although it had its effect. -/
inductive Answer where
  | fine | fails | lost
  deriving DecidableEq, Repr, Inhabited

def Answer.isFine : Answer → Bool
  | .fine => true
  | _ => false

/-- The store after a command that may have failed. -/
def Answer.after (answer : Answer) (t s : Store) : Store :=
  match answer with
  | .fails => s
  | _ => t

def Store.push (s : Store) (row : FailedJob) : Store :=
  { s with pushed := s.pushed ++ [(row.id, row.toJob)] }

def Store.delete (s : Store) (row : FailedJob) : Store :=
  { s with failedJobs := s.failedJobs.filter (·.id ≠ row.id) }

def Store.create (s : Store) (action : QueueRecoveryAction) : Store :=
  { s with actions := s.actions ++ [action] }

def Store.mitigate (s : Store) (lane : Option Text) (now : Int) : Store :=
  { s with
    incidents := s.incidents.map fun row =>
      if row.resolvedAt = none ∧ lane.all (row.lane = some ·) then
        { row with status := "mitigated".toList, mitigatedAt := some now }
      else row }

def Store.insert (s : Store) (job : Job) (failedAt : Int) : Store :=
  let row : FailedJob := { toJob := job, id := s.nextId, failedAt := failedAt }
  { s with
    failedJobs := s.failedJobs ++ [row]
    nextId := s.nextId + 1
    everFailed := s.everFailed ++ [row] }

/-- A command of the operator, or a worker that gives a job up. -/
inductive Kind where
  | recover (o : Options) (now : Int)
  | giveUp (job : Job) (failedAt : Int)
  deriving DecidableEq, Repr

def Kind.now : Kind → Int
  | .recover _ now => now
  | .giveUp _ failedAt => failedAt

/-- What a command does, when it has its effect. -/
def Command.effect (kind : Kind) : Command → Store → Store
  | .get _, s => s
  | .pushRaw row, s => s.push row
  | .delete row, s => s.delete row
  | .createAction action, s => s.create action
  | .mitigate lane, s => s.mitigate lane kind.now
  | .insert job failedAt, s => s.insert job failedAt

def Command.reply (answer : Answer) (s : Store) : (c : Command) → c.Reply
  | .get q => if answer.isFine then some (q.get s.failedJobs) else none
  | .pushRaw _ | .delete _ | .createAction _ | .mitigate _ | .insert _ _ => answer.isFine

def exec (kind : Kind) (c : Command) (answer : Answer) (s : Store) : c.Reply × Store :=
  (c.reply answer s, answer.after (c.effect kind s) s)

def program (cfg : Config) : Kind → Program Outcome
  | .recover o now => handle cfg o now
  | .giveUp job failedAt => .call (.insert job failedAt) fun _ => .ret .failed

/-! ## What a command may send -/

/-- What a command has seen: the rows it has read, those it has tried to replay, those that were
pushed and deleted, those with an error, and the one that was pushed last. -/
structure Seen where
  read : List FailedJob := []
  tried : List FailedJob := []
  done : List FailedJob := []
  errors : List FailedJob := []
  deleting : Option FailedJob := none

def allowed (cfg : Config) : Kind → Seen → Command → Prop
  | .recover o now, x, .get q =>
      x = {} ∧ ∃ lane, checked cfg o = .ok lane ∧ q = queryOf cfg o now lane
  | .recover o _, x, .pushRaw row =>
      o.dryRun = false ∧ x.deleting = none ∧ x.tried ++ [row] <+: chosen cfg o x.read
  | .recover _ _, x, .delete row => x.deleting = some row
  | .recover _ _, x, .createAction _ => x.deleting = none
  | .recover o _, x, .mitigate _ => o.dryRun = false ∧ x.deleting = none ∧ x.done ≠ []
  | .giveUp job failedAt, _, .insert job' failedAt' => job' = job ∧ failedAt' = failedAt
  | _, _, _ => False

def next (x : Seen) : (c : Command) → c.Reply → Seen
  | .get _, rows => { x with read := rows.getD [] }
  | .pushRaw row, pushed =>
      if pushed = true then { x with tried := x.tried ++ [row], deleting := some row }
      else { x with tried := x.tried ++ [row], errors := x.errors ++ [row] }
  | .delete row, deleted =>
      if deleted = true then { x with done := x.done ++ [row], deleting := none }
      else { x with errors := x.errors ++ [row], deleting := none }
  | _, _ => x

/-- The rows that were tried are those that were processed and those with an error. -/
def Seen.Sorted (x : Seen) : Prop := x.deleting = none ∧ (x.done ++ x.errors).Perm x.tried

/-- What is recorded is what has been seen. -/
def Ended (cfg : Config) : Kind → Outcome → Seen → Prop
  | .recover o _, .recorded action, x =>
      x.Sorted ∧ (∃ lane, checked cfg o = .ok lane ∧
        action = actionOf cfg o lane (chosen cfg o x.read) x.done.length x.errors) ∧
      x.tried = if o.dryRun = true then [] else chosen cfg o x.read
  | .recover _ _, _, x => x.deleting = none
  | .giveUp _ _, _, _ => True

section Program
variable {cfg : Config} {o : Options} {now : Int}

theorem follows_replay : ∀ {rows : List FailedJob} {x : Seen}, x.Sorted → o.dryRun = false →
    x.tried ++ rows = chosen cfg o x.read →
    Follows (allowed cfg (.recover o now)) next (replay rows x.done.length x.errors)
      (fun r y => y.Sorted ∧ y.read = x.read ∧ y.tried = chosen cfg o x.read ∧
        r = (y.done.length, y.errors)) x := by
  intro rows
  induction rows with
  | nil =>
    intro x hsorted _ htried
    rw [List.append_nil] at htried
    exact ⟨hsorted, rfl, htried, rfl⟩
  | cons row rows ih =>
    intro x hsorted hwet htried
    obtain ⟨hdeleting, hperm⟩ := hsorted
    have hsplit : x.tried ++ [row] ++ rows = chosen cfg o x.read := by
      rw [List.append_assoc]
      exact htried
    have herror : (x.done ++ (x.errors ++ [row])).Perm (x.tried ++ [row]) := by
      rw [← List.append_assoc]
      exact hperm.append_right _
    have hdone : (x.done ++ [row] ++ x.errors).Perm (x.tried ++ [row]) := by
      refine List.Perm.trans ?_ herror
      rw [List.append_assoc]
      exact List.perm_append_comm.append_left _
    refine ⟨⟨hwet, hdeleting, ⟨rows, hsplit⟩⟩, fun pushed => ?_⟩
    cases pushed with
    | false =>
      exact @ih { x with tried := x.tried ++ [row], errors := x.errors ++ [row] }
        ⟨hdeleting, herror⟩ hwet hsplit
    | true =>
      refine ⟨rfl, fun deleted => ?_⟩
      cases deleted with
      | false =>
        exact @ih
          { x with tried := x.tried ++ [row], errors := x.errors ++ [row], deleting := none }
          ⟨rfl, herror⟩ hwet hsplit
      | true =>
        have hrest := @ih
          { x with tried := x.tried ++ [row], done := x.done ++ [row], deleting := none }
          ⟨rfl, hdone⟩ hwet hsplit
        rw [List.length_append, List.length_singleton] at hrest
        exact hrest

theorem follows_record {lane : Option (Text × Text)} {x : Seen}
    (hchecked : checked cfg o = .ok lane) (hsorted : x.Sorted)
    (htried : x.tried = if o.dryRun = true then [] else chosen cfg o x.read) :
    Follows (allowed cfg (.recover o now)) next
      (record o.dryRun (lane.map Prod.fst) x.done.length
        (actionOf cfg o lane (chosen cfg o x.read) x.done.length x.errors))
      (Ended cfg (.recover o now)) x := by
  refine ⟨hsorted.1, fun created => ?_⟩
  cases created with
  | false => exact hsorted.1
  | true =>
    have hended : Ended cfg (.recover o now)
        (.recorded (actionOf cfg o lane (chosen cfg o x.read) x.done.length x.errors)) x :=
      ⟨hsorted, ⟨lane, hchecked, rfl⟩, htried⟩
    show Follows _ _ (if o.dryRun = false ∧ 0 < x.done.length then _ else _) _ _
    by_cases hsome : o.dryRun = false ∧ 0 < x.done.length
    · rw [if_pos hsome]
      refine ⟨⟨hsome.1, hsorted.1, List.ne_nil_of_length_pos hsome.2⟩, fun mitigated => ?_⟩
      cases mitigated with
      | false => exact hsorted.1
      | true => exact hended
    · rw [if_neg hsome]
      exact hended

/-- **A recovery pushes the rows it has chosen one after another, deletes each behind its push,
and records what it has seen.** -/
theorem follows_handle :
    Follows (allowed cfg (.recover o now)) next (handle cfg o now)
      (Ended cfg (.recover o now)) {} := by
  unfold handle
  split
  · exact rfl
  next lane hchecked =>
    refine ⟨⟨rfl, lane, hchecked, rfl⟩, fun rows => ?_⟩
    cases rows with
    | none => exact rfl
    | some rows =>
      have hstart : Seen.Sorted { read := rows } := ⟨rfl, .refl _⟩
      dsimp only
      split
      next hdry =>
        have hrecord := @follows_record cfg o now lane { read := rows } hchecked hstart
          (by rw [if_pos hdry])
        rw [hdry] at hrecord
        exact hrecord
      next hwet =>
        rw [Bool.not_eq_true] at hwet
        rw [follows_bind]
        refine (follows_replay hstart hwet rfl).mono ?_
        rintro r y ⟨hsorted, hread, htried, rfl⟩
        have hrecord := @follows_record cfg o now lane y hchecked hsorted
          (by rw [hwet, hread]; exact htried)
        rw [hwet, hread] at hrecord
        exact hrecord

end Program

theorem follows_program (cfg : Config) (k : Kind) :
    Follows (allowed cfg k) next (program cfg k) (Ended cfg k) {} := by
  cases k with
  | recover o now => exact follows_handle
  | giveUp job failedAt => exact ⟨⟨rfl, rfl⟩, fun _ => trivial⟩

/-! ## What the tables keep -/

/-- The message of a row, with the id it is pushed for. -/
def FailedJob.message (row : FailedJob) : Nat × Job := (row.id, row.toJob)

/-- Ids are given once, what is pushed has failed, and what has failed is kept or was pushed. -/
structure Kept (s : Store) : Prop where
  bounded : ∀ row ∈ s.everFailed, row.id < s.nextId
  distinct : (s.everFailed.map (·.id)).Nodup
  rows : s.failedJobs.Sublist s.everFailed
  pushed : ∀ m ∈ s.pushed, ∃ row ∈ s.everFailed, m = row.message
  kept : ∀ row ∈ s.everFailed, row ∈ s.failedJobs ∨ row.message ∈ s.pushed

/-- What has failed stays so, what was pushed too, and a row that is gone does not come back. -/
structure Later (s t : Store) : Prop where
  everFailed : s.everFailed ⊆ t.everFailed
  pushed : s.pushed ⊆ t.pushed
  gone : ∀ row ∈ s.everFailed, row ∉ s.failedJobs → row ∉ t.failedJobs

/-- What a command that has read its rows knows of the tables. -/
structure Sound (cfg : Config) (s : Store) (k : Kind) (x : Seen) : Prop where
  read : ∀ row ∈ x.read, row ∈ s.everFailed
  distinct : (x.read.map (·.id)).Nodup
  selected : ∀ o now, k = .recover o now → ∀ lane, checked cfg o = .ok lane → ∀ row ∈ x.read,
    (queryOf cfg o now lane).selects row = true
  deleting : ∀ row ∈ x.deleting, row ∈ x.read ∧ row.message ∈ s.pushed
  done : ∀ row ∈ x.done, row ∈ x.read ∧ row ∉ s.failedJobs ∧ row.message ∈ s.pushed

section Tables
variable {cfg : Config} {s t : Store} {row : FailedJob}

theorem Later.refl (s : Store) : Later s s where
  everFailed := List.Subset.refl _
  pushed := List.Subset.refl _
  gone _ _ h := h

theorem Kept.eq_of_id (h : Kept s) {a b : FailedJob} (ha : a ∈ s.everFailed)
    (hb : b ∈ s.everFailed) (hid : a.id = b.id) : a = b :=
  List.inj_on_of_nodup_map h.distinct ha hb hid

theorem kept_push (h : Kept s) (hrow : row ∈ s.everFailed) : Kept (s.push row) where
  bounded := h.bounded
  distinct := h.distinct
  rows := h.rows
  pushed := by
    intro m hm
    rcases List.mem_append.mp hm with hm | hm
    · exact h.pushed m hm
    · exact ⟨row, hrow, List.mem_singleton.mp hm⟩
  kept := by
    intro other hother
    rcases h.kept other hother with hin | hin
    · exact .inl hin
    · exact .inr (List.mem_append_left _ hin)

theorem kept_delete (h : Kept s) (hrow : row ∈ s.everFailed) (hpushed : row.message ∈ s.pushed) :
    Kept (s.delete row) where
  bounded := h.bounded
  distinct := h.distinct
  rows := List.filter_sublist.trans h.rows
  pushed := h.pushed
  kept := by
    intro other hother
    by_cases hid : other.id = row.id
    · obtain rfl := h.eq_of_id hother hrow hid
      exact .inr hpushed
    · rcases h.kept other hother with hin | hin
      · exact .inl (List.mem_filter.mpr ⟨hin, decide_eq_true hid⟩)
      · exact .inr hin

theorem kept_insert (h : Kept s) (job : Job) (failedAt : Int) : Kept (s.insert job failedAt) where
  bounded := by
    intro row hrow
    rcases List.mem_append.mp hrow with hrow | hrow
    · exact Nat.lt_succ_of_lt (h.bounded row hrow)
    · rw [List.mem_singleton.mp hrow]
      exact Nat.lt_succ_self _
  distinct := by
    show (List.map FailedJob.id (s.everFailed ++ [_])).Nodup
    rw [List.map_append, List.nodup_append]
    refine ⟨h.distinct, List.nodup_singleton _, fun id hid id' hid' => ?_⟩
    obtain ⟨row, hrow, rfl⟩ := List.mem_map.mp hid
    rw [List.mem_singleton.mp hid']
    exact Nat.ne_of_lt (h.bounded row hrow)
  rows := h.rows.append (.refl _)
  pushed := by
    intro m hm
    obtain ⟨row, hrow, heq⟩ := h.pushed m hm
    exact ⟨row, List.mem_append_left _ hrow, heq⟩
  kept := by
    intro row hrow
    rcases List.mem_append.mp hrow with hrow | hrow
    · exact (h.kept row hrow).imp_left (List.mem_append_left _)
    · exact .inl (List.mem_append_right _ hrow)

theorem later_insert (h : Kept s) (job : Job) (failedAt : Int) :
    Later s (s.insert job failedAt) where
  everFailed := List.subset_append_left _ _
  pushed := List.Subset.refl _
  gone := by
    intro row hrow hgone hin
    rcases List.mem_append.mp hin with hin | hin
    · exact hgone hin
    · have hid := h.bounded row hrow
      rw [List.mem_singleton.mp hin] at hid
      exact absurd hid (Nat.lt_irrefl _)

/-- The tables after a command that was sent for rows that have failed. -/
theorem effect_spec {kind : Kind} {c : Command} (h : Kept s)
    (hpush : ∀ row, c = .pushRaw row → row ∈ s.everFailed)
    (hdelete : ∀ row, c = .delete row → row ∈ s.everFailed ∧ row.message ∈ s.pushed) :
    Kept (c.effect kind s) ∧ Later s (c.effect kind s) := by
  cases c with
  | get q => exact ⟨h, .refl s⟩
  | pushRaw row =>
    exact ⟨kept_push h (hpush row rfl), ⟨List.Subset.refl _, List.subset_append_left _ _,
      fun _ _ hgone => hgone⟩⟩
  | delete row =>
    obtain ⟨hrow, hpushed⟩ := hdelete row rfl
    exact ⟨kept_delete h hrow hpushed, ⟨List.Subset.refl _, List.Subset.refl _,
      fun _ _ hgone hin => hgone (List.mem_of_mem_filter hin)⟩⟩
  | createAction action => exact ⟨⟨h.bounded, h.distinct, h.rows, h.pushed, h.kept⟩,
      ⟨List.Subset.refl _, List.Subset.refl _, fun _ _ hgone => hgone⟩⟩
  | mitigate lane => exact ⟨⟨h.bounded, h.distinct, h.rows, h.pushed, h.kept⟩,
      ⟨List.Subset.refl _, List.Subset.refl _, fun _ _ hgone => hgone⟩⟩
  | insert job failedAt => exact ⟨kept_insert h job failedAt, later_insert h job failedAt⟩

theorem Sound.later {k : Kind} {x : Seen} (h : Sound cfg s k x) (hlater : Later s t) :
    Sound cfg t k x where
  read row hrow := hlater.everFailed (h.read row hrow)
  distinct := h.distinct
  selected := h.selected
  deleting row hrow := (h.deleting row hrow).imp_right (hlater.pushed ·)
  done := by
    intro row hrow
    obtain ⟨hread, hgone, hpushed⟩ := h.done row hrow
    exact ⟨hread, hlater.gone row (h.read row hread) hgone, hlater.pushed hpushed⟩

theorem sound_init (k : Kind) : Sound cfg s k {} where
  read _ h := absurd h List.not_mem_nil
  distinct := List.nodup_nil
  selected _ _ _ _ _ _ h := absurd h List.not_mem_nil
  deleting row h := absurd h (Option.not_mem_none row)
  done _ h := absurd h List.not_mem_nil

theorem mem_get {q : Query} {rows : List FailedJob} (h : row ∈ q.get rows) :
    row ∈ rows ∧ q.selects row = true := by
  have hsorted := List.mem_of_mem_take h
  rw [List.mem_mergeSort] at hsorted
  exact List.mem_filter.mp hsorted

theorem nodup_get {q : Query} {rows : List FailedJob} (h : (rows.map (·.id)).Nodup) :
    ((q.get rows).map (·.id)).Nodup := by
  have hselected : ((rows.filter q.selects).map (·.id)).Nodup :=
    h.sublist (List.filter_sublist.map _)
  have hsorted := ((List.mergeSort_perm (rows.filter q.selects)
    fun a b => decide (a.failedAt ≤ b.failedAt)).map (·.id)).nodup_iff.mpr hselected
  exact hsorted.sublist ((List.take_sublist _ _).map _)

theorem mem_chosen {o : Options} {rows : List FailedJob} (h : row ∈ chosen cfg o rows) :
    row ∈ rows ∧ ofClass (cleanNullableString o.job) row = true :=
  List.mem_filter.mp (List.mem_of_mem_take h)

theorem kept_exec {k : Kind} {x : Seen} {c : Command} (answer : Answer)
    (hallowed : allowed cfg k x c) (h : Kept s) (hx : Sound cfg s k x) :
    Kept (exec k c answer s).2 ∧ Later s (exec k c answer s).2 := by
  have hstore : Kept (c.effect k s) ∧ Later s (c.effect k s) := by
    refine effect_spec h (fun row hc => ?_) (fun row hc => ?_)
    · subst hc
      cases k with
      | giveUp job failedAt => exact hallowed.elim
      | recover o now =>
        exact hx.read row (mem_chosen (hallowed.2.2.subset (by simp))).1
    · subst hc
      cases k with
      | giveUp job failedAt => exact hallowed.elim
      | recover o now =>
        obtain ⟨hread, hpushed⟩ := hx.deleting row (by rw [hallowed]; rfl)
        exact ⟨hx.read row hread, hpushed⟩
  cases answer with
  | fine => exact hstore
  | lost => exact hstore
  | fails => exact ⟨h, .refl s⟩

section Replies
variable {o : Options} {now : Int} {x : Seen}

theorem sound_get {q : Query} (answer : Answer) (h : Kept s)
    (hallowed : allowed cfg (.recover o now) x (.get q)) :
    Sound cfg (exec (.recover o now) (.get q) answer s).2 (.recover o now)
      (next x (.get q) (exec (.recover o now) (.get q) answer s).1) := by
  obtain ⟨rfl, lane, hchecked, rfl⟩ := hallowed
  cases answer with
  | fine =>
    refine ⟨fun row hrow => h.rows.subset (mem_get hrow).1,
      nodup_get (h.distinct.sublist (h.rows.map _)), ?_,
      fun row hrow => absurd hrow (Option.not_mem_none row),
      fun row hrow => absurd hrow List.not_mem_nil⟩
    intro o' now' hk lane' hchecked' row hrow
    obtain ⟨rfl, rfl⟩ := Kind.recover.inj hk
    obtain rfl := Except.ok.inj (hchecked.symm.trans hchecked')
    exact (mem_get hrow).2
  | fails => exact sound_init _
  | lost => exact sound_init _

theorem Sound.push {row : FailedJob} (answer : Answer)
    (h : Sound cfg (exec (.recover o now) (.pushRaw row) answer s).2 (.recover o now) x)
    (hallowed : allowed cfg (.recover o now) x (.pushRaw row)) :
    Sound cfg (exec (.recover o now) (.pushRaw row) answer s).2 (.recover o now)
      (next x (.pushRaw row) (exec (.recover o now) (.pushRaw row) answer s).1) := by
  have hread := (mem_chosen (hallowed.2.2.subset (by simp : row ∈ x.tried ++ [row]))).1
  cases answer with
  | fine =>
    refine ⟨h.read, h.distinct, h.selected, ?_, h.done⟩
    intro row' hrow'
    obtain rfl := Option.some.inj hrow'
    exact ⟨hread, List.mem_append_right _ (.head _)⟩
  | fails => exact ⟨h.read, h.distinct, h.selected, h.deleting, h.done⟩
  | lost => exact ⟨h.read, h.distinct, h.selected, h.deleting, h.done⟩

theorem Sound.delete {row : FailedJob} (answer : Answer)
    (h : Sound cfg (exec (.recover o now) (.delete row) answer s).2 (.recover o now) x)
    (hallowed : allowed cfg (.recover o now) x (.delete row)) :
    Sound cfg (exec (.recover o now) (.delete row) answer s).2 (.recover o now)
      (next x (.delete row) (exec (.recover o now) (.delete row) answer s).1) := by
  have hnone : ∀ row' ∈ (none : Option FailedJob),
      row' ∈ x.read ∧ row'.message ∈ (exec (.recover o now) (.delete row) answer s).2.pushed :=
    fun row' hrow' => absurd hrow' (Option.not_mem_none row')
  cases answer with
  | fine =>
    refine ⟨h.read, h.distinct, h.selected, hnone, fun row' hrow' => ?_⟩
    rcases List.mem_append.mp hrow' with hrow' | hrow'
    · exact h.done row' hrow'
    · obtain rfl := List.mem_singleton.mp hrow'
      obtain ⟨hread, hpushed⟩ := h.deleting row' (by rw [hallowed]; rfl)
      refine ⟨hread, fun hin => ?_, hpushed⟩
      exact absurd rfl (of_decide_eq_true (List.mem_filter.mp hin).2)
  | fails => exact ⟨h.read, h.distinct, h.selected, hnone, h.done⟩
  | lost => exact ⟨h.read, h.distinct, h.selected, hnone, h.done⟩

end Replies

/-- **A command that may be sent keeps the tables, and what its sender knows of them.** -/
theorem spec_exec {k : Kind} {x : Seen} {c : Command} (answer : Answer)
    (hallowed : allowed cfg k x c) (h : Kept s) (hx : Sound cfg s k x) :
    Kept (exec k c answer s).2 ∧ Later s (exec k c answer s).2 ∧
      Sound cfg (exec k c answer s).2 k (next x c (exec k c answer s).1) := by
  obtain ⟨hkept, hlater⟩ := kept_exec answer hallowed h hx
  refine ⟨hkept, hlater, ?_⟩
  have hsound := hx.later hlater
  cases k with
  | giveUp job failedAt =>
    cases c with
    | insert job' failedAt' => exact hsound
    | get | pushRaw | delete | createAction | mitigate => exact hallowed.elim
  | recover o now =>
    cases c with
    | get q => exact sound_get answer h hallowed
    | pushRaw row => exact hsound.push answer hallowed
    | delete row => exact hsound.delete answer hallowed
    | createAction action => exact hsound
    | mitigate lane => exact hsound
    | insert job failedAt => exact hallowed.elim

end Tables

/-! ## Commands at the same time -/

abbrev State := Pool Store Kind Seen Command Command.Reply Outcome

/-- Commands of the operator and failures, one database command at a time. -/
def recoveries (cfg : Config) : System State (Move Kind Answer) :=
  Pool.interleaved (program cfg) {} exec next

/-- The tables before the first failure. -/
def migrated (incidents : List QueueIncident) : State := ⟨{ incidents := incidents }, []⟩

section Runs
variable {cfg : Config} {incidents : List QueueIncident} {p : State}

/-- The tables are kept, and the commands know them. -/
def Held (cfg : Config) (p : State) : Prop :=
  Kept p.store ∧ ∀ t ∈ p.threads, Sound cfg p.store t.kind t.seen

theorem kept_migrated : Kept (migrated incidents).store where
  bounded _ h := absurd h List.not_mem_nil
  distinct := List.nodup_nil
  rows := .refl _
  pushed _ h := absurd h List.not_mem_nil
  kept _ h := absurd h List.not_mem_nil

theorem held_migrated : Held cfg (migrated incidents) :=
  ⟨kept_migrated, fun _ ht => absurd ht List.not_mem_nil⟩

theorem held_start (k : Kind) (h : Held cfg p) : Held cfg (p.start (program cfg) {} k) := by
  refine ⟨h.1, fun t ht => ?_⟩
  rcases List.mem_append.mp ht with ht | ht
  · exact h.2 t ht
  · rw [List.mem_singleton.mp ht]
    exact sound_init k

theorem held_step {i : Nat} {answer : Answer} {t : Thread Kind Seen Command Command.Reply Outcome}
    {c : Command} {rest : c.Reply → Program Outcome} (ht : p.threads[i]? = some t)
    (hallowed : allowed cfg t.kind t.seen c) (h : Held cfg p) :
    Held cfg (p.resume next i t c rest (exec t.kind c answer p.store).1
      (exec t.kind c answer p.store).2) := by
  obtain ⟨hkept, hlater, hsound⟩ := spec_exec answer hallowed h.1
    (h.2 t (List.mem_of_getElem? ht))
  refine ⟨hkept, fun u hu => ?_⟩
  rcases List.mem_or_eq_of_mem_set hu with hu | rfl
  · exact (h.2 u hu).later hlater
  · exact hsound

theorem bound_migrated : (migrated incidents).Bound (allowed cfg) next (Ended cfg) :=
  fun _ h => absurd h List.not_mem_nil

theorem held_of_reaches {C : State → Move Kind Answer → Prop}
    (h : (recoveries cfg).Reaches C (migrated incidents) p) :
    p.Bound (allowed cfg) next (Ended cfg) ∧ Held cfg p := by
  refine Pool.Bound.induction (follows_program cfg) bound_migrated held_migrated
    (fun p k => held_start k) ?_ h
  intro p i answer t c rest hbound ht hrest _ hheld
  exact held_step ht (hbound.head ht hrest) hheld

/-- **However recoveries and failures interleave and whatever fails on the way, a job that has
failed still has its row or has been pushed to the queue it failed on, as it was, and nothing
else is pushed.** -/
theorem kept_or_pushed (h : (recoveries cfg).Reaches Always (migrated incidents) p) :
    (∀ row ∈ p.store.everFailed, row ∈ p.store.failedJobs ∨ row.message ∈ p.store.pushed) ∧
      ∀ m ∈ p.store.pushed, ∃ row ∈ p.store.everFailed, m = row.message := by
  obtain ⟨-, hkept, -⟩ := held_of_reaches h
  exact ⟨hkept.kept, hkept.pushed⟩

/-- A job of the parser. -/
def parseJob : Job where
  connection := "redis".toList
  queue := "parse".toList
  payload := "\x7b\"displayName\":\"ParseAndChunkJob\"\x7d".toList

/-- The job fails, and is pushed by a recovery that loses the reply to its push. -/
def lostPush : List (Move Kind Answer) :=
  [.start (.giveUp parseJob 1000), .step 0 .fine,
    .start (.recover { job := "parse".toList } 2000), .step 1 .fine, .step 1 .lost, .step 1 .fine]

theorem kept_or_pushed_lostPush :
    (∀ row ∈ ((recoveries {}).final Always (migrated []) lostPush).store.everFailed,
        row ∈ ((recoveries {}).final Always (migrated []) lostPush).store.failedJobs ∨
          row.message ∈ ((recoveries {}).final Always (migrated []) lostPush).store.pushed) ∧
      ∀ m ∈ ((recoveries {}).final Always (migrated []) lostPush).store.pushed,
        ∃ row ∈ ((recoveries {}).final Always (migrated []) lostPush).store.everFailed,
          m = row.message :=
  kept_or_pushed (System.reaches_final (by decide +kernel))

theorem exitCode_actionOf {o : Options} {lane : Option (Text × Text)} {rows : List FailedJob}
    {processed : Nat} {errors : List FailedJob} (hdry : o.dryRun = true → errors = []) :
    (Outcome.recorded (actionOf cfg o lane rows processed errors)).exitCode = 0 ↔ errors = [] := by
  cases hrun : o.dryRun with
  | true => simp [Outcome.exitCode, actionOf, hrun, hdry hrun]
  | false => simp [Outcome.exitCode, actionOf, hrun]

/-- **A recovery that records its run has tried, unless it was a dry run, each of the rows it has
chosen, at most `max` rows of the lane, the time and the class that were asked for; as many as it
counts as processed were pushed and are gone from the table for good, and the others are its
errors, of which the exit code tells.** -/
theorem tried_all_chosen {o : Options} {now : Int} {action : QueueRecoveryAction} {i : Nat}
    (h : (recoveries cfg).Reaches Always (migrated incidents) p)
    (hend : p.result i = some (.recover o now, .recorded action)) :
    ∃ lane rows done errors, checked cfg o = .ok lane ∧
      action = actionOf cfg o lane rows done.length errors ∧
      ((Outcome.recorded action).exitCode = 0 ↔ errors = []) ∧
      rows.length ≤ maxReplay cfg o ∧ (rows.map FailedJob.id).Nodup ∧
      (∀ row ∈ rows, row ∈ p.store.everFailed ∧
        (queryOf cfg o now lane).selects row = true ∧
        ofClass (cleanNullableString o.job) row = true) ∧
      (done ++ errors).Perm (if o.dryRun = true then [] else rows) ∧
      ∀ row ∈ done, row.message ∈ p.store.pushed ∧ row ∉ p.store.failedJobs := by
  obtain ⟨hbound, -, hsound⟩ := held_of_reaches h
  obtain ⟨t, ht, hrest, hkind⟩ := Pool.exists_of_result hend
  have hended := hbound.result ht hrest
  have hknows := hsound t (List.mem_of_getElem? ht)
  rw [hkind] at hended hknows
  obtain ⟨⟨-, hperm⟩, ⟨lane, hchecked, haction⟩, htried⟩ := hended
  refine ⟨lane, chosen cfg o t.seen.read, t.seen.done, t.seen.errors, hchecked, haction,
    haction ▸ exitCode_actionOf (fun hdry => ?_), List.length_take_le _ _, ?_,
    fun row hrow => ?_, htried ▸ hperm, fun row hrow => ?_⟩
  · rw [htried, if_pos hdry] at hperm
    exact (List.append_eq_nil_iff.mp hperm.eq_nil).2
  · exact hknows.distinct.sublist
      (((List.take_sublist _ _).trans List.filter_sublist).map FailedJob.id)
  · obtain ⟨hread, hclass⟩ := mem_chosen hrow
    exact ⟨hknows.read row hread, hknows.selected o now rfl lane hchecked row hread, hclass⟩
  · obtain ⟨-, hgone, hpushed⟩ := hknows.done row hrow
    exact ⟨hpushed, hgone⟩

/-- The recovery that comes after it. -/
def secondPush : List (Move Kind Answer) :=
  lostPush ++ [.start (.recover { job := "parse".toList } 3000), .step 2 .fine, .step 2 .fine,
    .step 2 .fine, .step 2 .fine, .step 2 .fine]

theorem tried_all_chosen_secondPush :
    ∃ done : List FailedJob, done.length = 1 ∧ ∀ row ∈ done,
      row.message ∈ ((recoveries {}).final Always (migrated []) secondPush).store.pushed ∧
        row ∉ ((recoveries {}).final Always (migrated []) secondPush).store.failedJobs := by
  have hend : ((recoveries {}).final Always (migrated []) secondPush).result 2 =
      some (.recover { job := "parse".toList } 3000,
        .recorded (actionOf {} { job := "parse".toList } none
          [{ toJob := parseJob, id := 1, failedAt := 1000 }] 1 [])) := by
    decide +kernel
  obtain ⟨lane, rows, done, errors, -, haction, -, -, -, -, -, hdone⟩ :=
    tried_all_chosen (System.reaches_final (by decide +kernel)) hend
  have hcount := congrArg QueueRecoveryAction.processedCount haction
  exact ⟨done, hcount.symm, hdone⟩

end Runs

/-! ## Once -/

def Kind.recovers : Kind → Bool
  | .recover _ _ => true
  | .giveUp _ _ => false

/-- A recovery that has not ended. -/
def underway (t : Thread Kind Seen Command Command.Reply Outcome) : Bool :=
  match t.kind, t.rest with
  | .recover _ _, .call _ _ => true
  | _, _ => false

/-- The command throws only without its effect when it pushes, and only with it when it deletes. -/
def Answer.fits : Answer → Command → Bool
  | .lost, .pushRaw _ => false
  | .fails, .delete _ => false
  | _, _ => true

/-- A recovery is started when no other is under way, no push throws that had its effect, and
every row that was pushed is deleted. -/
def Orderly (p : State) : Move Kind Answer → Prop
  | .start k => k.recovers = true → ∀ t ∈ p.threads, underway t = false
  | .step i answer => (p.pending i).all (fun q => answer.fits q.2.2) = true

instance (p : State) (move : Move Kind Answer) : Decidable (Orderly p move) := by
  cases move with
  | start k => exact inferInstanceAs (Decidable (_ → _))
  | step i answer => exact inferInstanceAs (Decidable (_ = _))

/-- The ids that were pushed. -/
def Store.pushedIds (s : Store) : List Nat := s.pushed.map Prod.fst

/-- Nothing was pushed twice, and of the rows that are left the command that has seen `x` has
pushed the one that it is about to delete, and none that it has not tried. -/
structure Apart (s : Store) (x : Seen) : Prop where
  nodup : s.pushedIds.Nodup
  rows : ∀ row ∈ s.failedJobs, row.id ∈ s.pushedIds → x.deleting = some row
  fresh : ∀ row ∈ x.read, row ∉ x.tried → row.id ∉ s.pushedIds

section Once
variable {cfg : Config} {o : Options} {now : Int} {s : Store} {x : Seen}

theorem apart_push {row : FailedJob} (h : Kept s) (hx : Sound cfg s (.recover o now) x)
    (hapart : Apart s x) (hallowed : allowed cfg (.recover o now) x (.pushRaw row)) :
    Apart (s.push row) (next x (.pushRaw row) true) := by
  obtain ⟨-, hnone, hstart⟩ := hallowed
  have hin : ∀ row' ∈ x.tried ++ [row], row' ∈ x.read :=
    fun row' hrow' => (mem_chosen (hstart.subset hrow')).1
  have hread := hin row (by simp)
  have hnew : row.id ∉ s.pushedIds := by
    refine hapart.fresh row hread fun htried => ?_
    -- a row that was tried stands before this one among the chosen
    have hnodup : ((x.tried ++ [row]).map FailedJob.id).Nodup := by
      refine hx.distinct.sublist (List.Sublist.map _ (hstart.sublist.trans ?_))
      exact (List.take_sublist _ _).trans List.filter_sublist
    rw [List.map_append, List.nodup_append] at hnodup
    exact hnodup.2.2 _ (List.mem_map_of_mem htried) _ (.head _) rfl
  have hids : (s.push row).pushedIds = s.pushedIds ++ [row.id] := List.map_append
  refine ⟨?_, fun row' hrow' hid => ?_, fun row' hrow' htried hid => ?_⟩
  · rw [hids, List.nodup_append]
    refine ⟨hapart.nodup, List.nodup_singleton _, fun id hid id' hid' heq => hnew ?_⟩
    rw [← List.mem_singleton.mp hid', ← heq]
    exact hid
  · rw [hids, List.mem_append, List.mem_singleton] at hid
    rcases hid with hid | hid
    · have hdeleting := hapart.rows row' hrow' hid
      rw [hnone] at hdeleting
      cases hdeleting
    · exact congrArg some (h.eq_of_id (hx.read row hread) (h.rows.subset hrow') hid.symm)
  · have hne : row' ∉ x.tried ++ [row] := htried
    rw [hids, List.mem_append, List.mem_singleton] at hid
    rcases hid with hid | hid
    · exact hapart.fresh row' hrow' (fun hold => hne (List.mem_append_left _ hold)) hid
    · obtain rfl := h.eq_of_id (hx.read row' hrow') (hx.read row hread) hid
      exact hne (by simp)

theorem apart_insert (h : Kept s) (hapart : Apart s x) (job : Job) (failedAt : Int) :
    Apart (s.insert job failedAt) x := by
  refine ⟨hapart.nodup, fun row hrow hid => ?_, hapart.fresh⟩
  rcases List.mem_append.mp hrow with hrow | hrow
  · exact hapart.rows row hrow hid
  · -- the id is new
    obtain ⟨m, hm, hmid⟩ := List.mem_map.mp hid
    obtain ⟨old, hold, rfl⟩ := h.pushed m hm
    have hlt := h.bounded old hold
    rw [List.mem_singleton.mp hrow] at hmid
    exact absurd hmid (Nat.ne_of_lt hlt)

/-- **One command of a recovery keeps the rows apart.** -/
theorem apart_exec {c : Command} {answer : Answer} (h : Kept s)
    (hx : Sound cfg s (.recover o now) x) (hapart : Apart s x)
    (hallowed : allowed cfg (.recover o now) x c) (hfits : answer.fits c = true) :
    Apart (exec (.recover o now) c answer s).2
      (next x c (exec (.recover o now) c answer s).1) := by
  cases c with
  | get q =>
    obtain ⟨rfl, lane, -, rfl⟩ := hallowed
    have hclear : ∀ row ∈ s.failedJobs, row.id ∉ s.pushedIds := by
      intro row hrow hid
      cases hapart.rows row hrow hid
    cases answer with
    | fine => exact ⟨hapart.nodup, hapart.rows, fun row hrow _ => hclear row (mem_get hrow).1⟩
    | fails => exact ⟨hapart.nodup, hapart.rows, fun row hrow => absurd hrow List.not_mem_nil⟩
    | lost => exact ⟨hapart.nodup, hapart.rows, fun row hrow => absurd hrow List.not_mem_nil⟩
  | pushRaw row =>
    cases answer with
    | fine => exact apart_push h hx hapart hallowed
    | fails =>
      exact ⟨hapart.nodup, hapart.rows, fun row' hrow' htried =>
        hapart.fresh row' hrow' fun hold => htried (List.mem_append_left _ hold)⟩
    | lost => cases hfits
  | delete row =>
    have hclear : ∀ row' ∈ (s.delete row).failedJobs, row'.id ∉ s.pushedIds := by
      intro row' hrow' hid
      obtain ⟨hin, hne⟩ := List.mem_filter.mp hrow'
      have hsame := hapart.rows row' hin hid
      rw [hallowed] at hsame
      rw [Option.some.inj hsame] at hne
      exact absurd rfl (of_decide_eq_true hne)
    have hrows : ∀ row' ∈ (s.delete row).failedJobs, row'.id ∈ s.pushedIds →
        (none : Option FailedJob) = some row' :=
      fun row' hrow' hid => absurd hid (hclear row' hrow')
    cases answer with
    | fine => exact ⟨hapart.nodup, hrows, hapart.fresh⟩
    | fails => cases hfits
    | lost => exact ⟨hapart.nodup, hrows, hapart.fresh⟩
  | createAction action =>
    cases answer with
    | fine => exact ⟨hapart.nodup, hapart.rows, hapart.fresh⟩
    | fails => exact ⟨hapart.nodup, hapart.rows, hapart.fresh⟩
    | lost => exact ⟨hapart.nodup, hapart.rows, hapart.fresh⟩
  | mitigate lane =>
    cases answer with
    | fine => exact ⟨hapart.nodup, hapart.rows, hapart.fresh⟩
    | fails => exact ⟨hapart.nodup, hapart.rows, hapart.fresh⟩
    | lost => exact ⟨hapart.nodup, hapart.rows, hapart.fresh⟩
  | insert job failedAt => exact hallowed.elim

/-! ### The threads -/

variable {p : State} {i : Nat} {t : Thread Kind Seen Command Command.Reply Outcome} {c : Command}
  {rest : c.Reply → Program Outcome} {answer : Answer}

/-- At most one recovery is under way; it keeps the rows apart, and without one no row is left
that was pushed. -/
structure Single (p : State) : Prop where
  nodup : p.store.pushedIds.Nodup
  one : ∀ (i j : Nat) (t u : Thread Kind Seen Command Command.Reply Outcome),
    p.threads[i]? = some t → p.threads[j]? = some u → underway t = true →
      underway u = true → i = j
  apart : ∀ t ∈ p.threads, underway t = true → Apart p.store t.seen
  idle : (∀ t ∈ p.threads, underway t = false) →
    ∀ row ∈ p.store.failedJobs, row.id ∉ p.store.pushedIds

theorem single_migrated {incidents : List QueueIncident} : Single (migrated incidents) where
  nodup := List.nodup_nil
  one _ _ _ _ h := by cases h
  apart _ h := absurd h List.not_mem_nil
  idle _ _ h := absurd h List.not_mem_nil

theorem getElem?_start {k : Kind} {j : Nat}
    {u : Thread Kind Seen Command Command.Reply Outcome}
    (h : (p.start (program cfg) {} k).threads[j]? = some u) :
    p.threads[j]? = some u ∨ j = p.threads.length ∧ u = ⟨k, {}, program cfg k⟩ := by
  by_cases hlt : j < p.threads.length
  · exact .inl ((Pool.start_getElem?_of_lt hlt).symm.trans h)
  · right
    have hlast : j < p.threads.length + 1 := by
      have := (List.getElem?_eq_some_iff.mp h).1
      rwa [Pool.start_threads, List.length_append] at this
    obtain rfl : j = p.threads.length := by omega
    exact ⟨rfl, Option.some.inj (h.symm.trans (Pool.start_getElem?_length p k))⟩

theorem single_start {k : Kind} (h : Single p) (horderly : Orderly p (.start k)) :
    Single (p.start (program cfg) {} k) := by
  -- the new thread is under way only when no other is
  have halone : underway ⟨k, {}, program cfg k⟩ = true → ∀ t ∈ p.threads, underway t = false := by
    intro hnew
    refine horderly ?_
    cases k with
    | recover o now => rfl
    | giveUp job failedAt => cases hnew
  refine ⟨h.nodup, fun i j t u ht hu htway huway => ?_, fun t ht htway => ?_, fun hidle => ?_⟩
  · rcases getElem?_start ht with ht | ⟨rfl, rfl⟩
    · rcases getElem?_start hu with hu | ⟨rfl, rfl⟩
      · exact h.one i j t u ht hu htway huway
      · rw [halone huway t (List.mem_of_getElem? ht)] at htway
        cases htway
    · rcases getElem?_start hu with hu | ⟨rfl, rfl⟩
      · rw [halone htway u (List.mem_of_getElem? hu)] at huway
        cases huway
      · rfl
  · rcases List.mem_append.mp ht with ht | ht
    · exact h.apart t ht htway
    · obtain rfl := List.mem_singleton.mp ht
      refine ⟨h.nodup, fun row hrow hid => ?_, fun row hrow => absurd hrow List.not_mem_nil⟩
      exact absurd hid (h.idle (halone htway) row hrow)
  · exact h.idle fun t ht => hidle t (List.mem_append_left _ ht)

/-- After a step a thread is an old one, or the one that moved. -/
theorem getElem?_resume (ht : p.threads[i]? = some t) {reply : c.Reply} {s : Store} {j : Nat}
    {u : Thread Kind Seen Command Command.Reply Outcome}
    (h : (p.resume next i t c rest reply s).threads[j]? = some u) :
    (j ≠ i ∧ p.threads[j]? = some u) ∨
      (j = i ∧ u = { t with seen := next t.seen c reply, rest := rest reply }) := by
  by_cases hij : i = j
  · subst hij
    exact .inr ⟨rfl, Option.some.inj (h.symm.trans (Pool.resume_getElem?_self ht))⟩
  · exact .inl ⟨Ne.symm hij, (Pool.resume_getElem?_of_ne hij).symm.trans h⟩

theorem underway_giveUp {job : Job} {failedAt : Int} (hkind : t.kind = .giveUp job failedAt) :
    underway t = false := by
  unfold underway
  rw [hkind]

theorem underway_recover {o : Options} {now : Int} (hkind : t.kind = .recover o now)
    (hrest : t.rest = .call c rest) : underway t = true := by
  unfold underway
  rw [hkind, hrest]

/-- A failure leaves the recovery that is under way as it is. -/
theorem single_giveUp {job : Job} {failedAt : Int} (hheld : Held cfg p) (h : Single p)
    (ht : p.threads[i]? = some t) (hkind : t.kind = .giveUp job failedAt)
    (hallowed : allowed cfg t.kind t.seen c) :
    Single (p.resume next i t c rest (exec t.kind c answer p.store).1
      (exec t.kind c answer p.store).2) := by
  rw [hkind] at hallowed
  cases c with
  | get q => exact hallowed.elim
  | pushRaw row => exact hallowed.elim
  | delete row => exact hallowed.elim
  | createAction action => exact hallowed.elim
  | mitigate lane => exact hallowed.elim
  | insert job' failedAt' =>
    have hapart : ∀ x, Apart p.store x →
        Apart (exec t.kind (.insert job' failedAt') answer p.store).2 x := by
      intro x hx
      cases answer with
      | fine => exact apart_insert hheld.1 hx job' failedAt'
      | fails => exact hx
      | lost => exact apart_insert hheld.1 hx job' failedAt'
    have hnodup : (exec t.kind (.insert job' failedAt') answer p.store).2.pushedIds.Nodup := by
      cases answer with
      | fine => exact h.nodup
      | fails => exact h.nodup
      | lost => exact h.nodup
    have hstill := underway_giveUp hkind
    have hmoved : ∀ reply : Bool, underway { t with
        seen := next t.seen (.insert job' failedAt') reply, rest := rest reply } = false :=
      fun reply => underway_giveUp hkind
    refine ⟨hnodup, fun i' j' u v hu hv huway hvway => ?_, fun u hu huway => ?_, fun hidle => ?_⟩
    · rcases getElem?_resume ht hu with ⟨-, hu⟩ | ⟨rfl, rfl⟩
      · rcases getElem?_resume ht hv with ⟨-, hv⟩ | ⟨rfl, rfl⟩
        · exact h.one i' j' u v hu hv huway hvway
        · rw [hmoved] at hvway
          cases hvway
      · rw [hmoved] at huway
        cases huway
    · obtain ⟨j', hj'⟩ := List.mem_iff_getElem?.mp hu
      rcases getElem?_resume ht hj' with ⟨-, hj'⟩ | ⟨rfl, rfl⟩
      · exact hapart _ (h.apart u (List.mem_of_getElem? hj') huway)
      · rw [hmoved] at huway
        cases huway
    · have hclear := h.idle fun u hu => ?_
      · have hx := hapart {} ⟨h.nodup, fun row hrow hid => absurd hid (hclear row hrow),
          fun row hrow => absurd hrow List.not_mem_nil⟩
        intro row hrow hid
        cases hx.rows row hrow hid
      · obtain ⟨j', hj'⟩ := List.mem_iff_getElem?.mp hu
        by_cases hij : i = j'
        · subst hij
          rw [← Option.some.inj (ht.symm.trans hj')]
          exact hstill
        · exact hidle u (List.mem_of_getElem? ((Pool.resume_getElem?_of_ne hij).trans hj'))

theorem deleting_of_ended {o : Options} {now : Int} {outcome : Outcome} {x : Seen}
    (h : Ended cfg (.recover o now) outcome x) : x.deleting = none := by
  cases outcome with
  | refused error => exact h
  | thrown => exact h
  | recorded action => exact h.1.1
  | failed => exact h

/-- A command of the recovery that is under way. -/
theorem single_recover {o : Options} {now : Int} (hheld : Held cfg p) (h : Single p)
    (hbound : (p.resume next i t c rest (exec t.kind c answer p.store).1
      (exec t.kind c answer p.store).2).Bound (allowed cfg) next (Ended cfg))
    (ht : p.threads[i]? = some t) (hkind : t.kind = .recover o now)
    (hrest : t.rest = .call c rest) (hallowed : allowed cfg t.kind t.seen c)
    (hfits : answer.fits c = true) :
    Single (p.resume next i t c rest (exec t.kind c answer p.store).1
      (exec t.kind c answer p.store).2) := by
  have hway := underway_recover hkind hrest
  have hsound := hheld.2 t (List.mem_of_getElem? ht)
  have hnow := h.apart t (List.mem_of_getElem? ht) hway
  rw [hkind] at hallowed hsound
  have hapart := apart_exec hheld.1 hsound hnow hallowed hfits
  rw [← hkind] at hapart
  -- no other thread is under way
  have honly : ∀ (j : Nat) (u : Thread Kind Seen Command Command.Reply Outcome),
      (p.resume next i t c rest (exec t.kind c answer p.store).1
        (exec t.kind c answer p.store).2).threads[j]? = some u → underway u = true →
      j = i ∧ u.seen = next t.seen c (exec t.kind c answer p.store).1 := by
    intro j u hu huway
    rcases getElem?_resume ht hu with ⟨hne, hu⟩ | ⟨hij, rfl⟩
    · exact absurd (h.one j i u t hu ht huway hway) hne
    · exact ⟨hij, rfl⟩
  refine ⟨hapart.nodup, fun i' j' u v hu hv huway hvway => ?_, fun u hu huway => ?_,
    fun hidle row hrow hid => ?_⟩
  · exact (honly i' u hu huway).1.trans (honly j' v hv hvway).1.symm
  · obtain ⟨j', hj'⟩ := List.mem_iff_getElem?.mp hu
    rw [(honly j' u hj' huway).2]
    exact hapart
  · -- the thread has ended, so that it is not about to delete a row
    have hself : (p.resume next i t c rest (exec t.kind c answer p.store).1
        (exec t.kind c answer p.store).2).threads[i]? = _ := Pool.resume_getElem?_self ht
    have hended := hidle _ (List.mem_of_getElem? hself)
    cases hmore : rest (exec t.kind c answer p.store).1 with
    | call c' rest' =>
      unfold underway at hended
      dsimp only at hended
      rw [hkind] at hended hmore
      rw [hmore] at hended
      cases hended
    | ret outcome =>
      have hresult := hbound.result hself hmore
      dsimp only at hresult
      rw [hkind] at hresult
      have hsome := hapart.rows row hrow hid
      rw [hkind, deleting_of_ended hresult] at hsome
      cases hsome

/-- **When one recovery runs after the other, no push throws that had its effect and every row
that was pushed is deleted, each job is pushed once at most; and when no recovery is under way, a
job that has failed either has its row or has been pushed.** -/
theorem pushed_once {incidents : List QueueIncident}
    (h : (recoveries cfg).Reaches Orderly (migrated incidents) p) :
    (p.store.pushed.map Prod.fst).Nodup ∧
      ((∀ t ∈ p.threads, underway t = false) → ∀ row ∈ p.store.everFailed,
        (row ∈ p.store.failedJobs ↔ row.message ∉ p.store.pushed)) := by
  have hall : p.Bound (allowed cfg) next (Ended cfg) ∧ Held cfg p ∧ Single p := by
    refine h.invariant (P := fun p => p.Bound (allowed cfg) next (Ended cfg) ∧ Held cfg p ∧
      Single p) ⟨bound_migrated, held_migrated, single_migrated⟩ ?_
    rintro p (k | ⟨i, answer⟩) q ⟨hbound, hheld, hsingle⟩ horderly hmove
    · rw [← Option.some.inj hmove]
      exact ⟨hbound.start (follows_program cfg k), held_start k hheld,
        single_start hsingle horderly⟩
    · have hstep : p.step exec next i answer = some q := hmove
      obtain ⟨t, c, rest, ht, hrest, rfl⟩ := Pool.step_cases hstep
      have hallowed := hbound.head ht hrest
      have hfits : answer.fits c = true := by
        have hall : (p.pending i).all (fun q => answer.fits q.2.2) = true := horderly
        rwa [Pool.pending_of_rest ht hrest] at hall
      have hafter := hbound.resume ht hrest (exec t.kind c answer p.store).1
        (exec t.kind c answer p.store).2
      refine ⟨hafter, held_step ht hallowed hheld, ?_⟩
      cases hkind : t.kind with
      | recover o now =>
        rw [← hkind]
        exact single_recover hheld hsingle hafter ht hkind hrest hallowed hfits
      | giveUp job failedAt =>
        rw [← hkind]
        exact single_giveUp hheld hsingle ht hkind hallowed
  obtain ⟨-, hheld, hsingle⟩ := hall
  refine ⟨hsingle.nodup, fun hidle row hrow => ⟨fun hin hpushed => ?_, fun hnot => ?_⟩⟩
  · exact hsingle.idle hidle row hin (List.mem_map_of_mem hpushed)
  · exact (hheld.1.kept row hrow).resolve_right hnot

/-- A recovery that pushes the job and deletes its row. -/
def cleanPush : List (Move Kind Answer) :=
  [.start (.giveUp parseJob 1000), .step 0 .fine,
    .start (.recover { job := "parse".toList } 2000), .step 1 .fine, .step 1 .fine, .step 1 .fine]

theorem pushed_once_cleanPush :
    (((recoveries {}).final Orderly (migrated []) cleanPush).store.pushed.map Prod.fst).Nodup :=
  (pushed_once (System.reaches_final (by decide +kernel))).1

end Once

end ValidEmailVerifier.QueueRecovery
