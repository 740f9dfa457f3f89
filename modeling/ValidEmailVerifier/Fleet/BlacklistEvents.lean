/-
# `Fleet.BlacklistEvents` — the monitor, and what is kept of its checks

The monitor looks the servers up on the blacklists, and reports what it finds.  A report is kept
twice: every result as a row of `engine_server_reputation_checks`, and for each server and list one
row of `engine_server_blacklist_events`, that is changed as the results come.

Over every run of reports the second table is the first one summed up (`events_eq_summary`): the
event is active exactly when the last result that is not an error says listed, and it counts the
results that do.  So a report of the monitor opens the event of a list that names the server,
closes that of one that does not, and leaves that of one that gave no answer (`monitored`).

The reports of a server are taken one after another, as the one monitor sends them.
-/
import ValidEmailVerifier.Lib.Table
import ValidEmailVerifier.Lib.Transition
import ValidEmailVerifier.Pipeline.Worker

namespace ValidEmailVerifier.BlacklistEvents

open Text Transition
open Worker (trimSpace)

/-! ## The tables -/

inductive CheckStatus where
  | listed | clear | error
  deriving DecidableEq, Repr

inductive EventStatus where
  | active | resolved
  deriving DecidableEq, Repr

structure EngineServer where
  id : Nat
  ipAddress : Text
  isActive : Bool := true
  deriving DecidableEq, Repr

/-- A row of `engine_server_reputation_checks`. -/
structure ReputationCheck where
  engineServerId : Nat
  ipAddress : Text
  rbl : Text
  status : CheckStatus
  response : Option Text
  errorMessage : Option Text
  checkedAt : Nat
  deriving DecidableEq, Repr

/-- A row of `engine_server_blacklist_events`. -/
structure BlacklistEvent where
  engineServerId : Nat
  rbl : Text
  status : EventStatus
  severity : Text
  firstSeen : Nat
  lastSeen : Nat
  lastResponse : Option Text
  listedCount : Nat
  deriving DecidableEq, Repr

/-- What the events are unique in. -/
abbrev BlacklistEvent.key (event : BlacklistEvent) : Nat × Text := (event.engineServerId, event.rbl)

abbrev ReputationCheck.key (check : ReputationCheck) : Nat × Text :=
  (check.engineServerId, check.rbl)

structure Tables where
  servers : List EngineServer
  checks : List ReputationCheck := []
  events : List BlacklistEvent := []
  nextId : Nat
  deriving DecidableEq, Repr

/-! ## `MonitorChecksController` -/

/-- A result as it is submitted. -/
structure CheckResult where
  rbl : Text
  listed : Bool
  response : Option Text := none
  errorMessage : Option Text := none
  status : Option CheckStatus := none
  deriving DecidableEq, Repr

structure Payload where
  serverId : Option Nat
  serverIp : Option Text
  checkedAt : Nat
  results : List CheckResult
  deriving DecidableEq, Repr

inductive Refusal where
  | unprocessable | notFound | queryException
  deriving DecidableEq, Repr

structure Answer where
  checks : Nat
  listed : Nat
  deriving DecidableEq, Repr

/-- A text is trimmed before anything reads it, and one that is empty is not there. -/
def trimmed (value : Option Text) : Option Text :=
  (value.map trimSpace).filter (· ≠ [])

def CheckResult.trimmed (result : CheckResult) : CheckResult :=
  { result with
    rbl := trimSpace result.rbl
    response := BlacklistEvents.trimmed result.response
    errorMessage := BlacklistEvents.trimmed result.errorMessage }

/-- `(bool) $errorMessage`. -/
def failed (errorMessage : Option Text) : Bool :=
  errorMessage.any fun message => message ≠ [] && message ≠ ['0']

/-- The status a result has of itself. -/
def CheckResult.outcome (result : CheckResult) : CheckStatus :=
  if failed result.errorMessage then .error else if result.listed then .listed else .clear

/-- The row that is inserted for a result. -/
def CheckResult.row (server : EngineServer) (checkedAt : Nat) (result : CheckResult) :
    ReputationCheck where
  engineServerId := server.id
  ipAddress := server.ipAddress
  rbl := result.rbl
  status := result.status.getD result.outcome
  response := result.response
  errorMessage := result.errorMessage
  checkedAt := checkedAt

/-- The columns of a result that have a width. -/
def CheckResult.fits (result : CheckResult) : Bool :=
  ([some result.rbl, result.response, result.errorMessage].all fun column =>
    column.all fun value => value.length ≤ 255)

/-- `firstOrNew`, and what is saved of a server that is listed. -/
def saveListed (events : List BlacklistEvent) (server : Nat) (rbl : Text) (checkedAt : Nat)
    (response : Option Text) : List BlacklistEvent :=
  match Table.find BlacklistEvent.key events (server, rbl) with
  | some _ => Table.update BlacklistEvent.key events (server, rbl) fun event =>
      { event with
        status := .active
        lastSeen := checkedAt
        lastResponse := response
        listedCount := event.listedCount + 1 }
  | none => events ++
      [{ engineServerId := server
         rbl := rbl
         status := .active
         severity := "warning".toList
         firstSeen := checkedAt
         lastSeen := checkedAt
         lastResponse := response
         listedCount := 1 }]

/-- The active event of a server that is not listed, if there is one, is resolved. -/
def saveCleared (events : List BlacklistEvent) (server : Nat) (rbl : Text) :
    List BlacklistEvent :=
  match events.find? fun event => event.key = (server, rbl) ∧ event.status = .active with
  | some _ => Table.update BlacklistEvent.key events (server, rbl) fun event =>
      { event with status := .resolved }
  | none => events

/-- What the loop over the results carries. -/
structure Progress where
  events : List BlacklistEvent
  insertRows : List ReputationCheck := []
  listedCount : Nat := 0
  deriving DecidableEq, Repr

/-- One turn of the loop. -/
def Progress.turn (server : EngineServer) (checkedAt : Nat) (p : Progress)
    (result : CheckResult) : Progress :=
  let p := { p with insertRows := p.insertRows ++ [result.row server checkedAt] }
  if failed result.errorMessage then p
  else if result.listed then
    { p with
      listedCount := p.listedCount + 1
      events := saveListed p.events server.id result.rbl checkedAt result.response }
  else { p with events := saveCleared p.events server.id result.rbl }

namespace Tables

def server (s : Tables) (id : Nat) : Option EngineServer := Table.find (·.id) s.servers id

/-- `resolveServer`. -/
def resolveServer (s : Tables) (payload : Payload) : Option EngineServer :=
  match payload.serverId, payload.serverIp with
  | some id, _ => s.server id
  | none, some ip => s.servers.find? (·.ipAddress = ip)
  | none, none => none

/-- The rules of `MonitorCheckRequest`; `isIp` is the rule `ip`. -/
def valid (isIp : Text → Bool) (s : Tables) (payload : Payload) : Bool :=
  (payload.serverId.isSome || payload.serverIp.isSome) &&
    payload.serverId.all (fun id => (s.server id).isSome) && payload.serverIp.all isIp &&
    !payload.results.isEmpty && payload.results.all fun result => result.rbl ≠ []

/-- The transaction: all of a report, or nothing of it. -/
def store (s : Tables) (server : EngineServer) (payload : Payload) :
    Except Refusal (Tables × Answer) :=
  let p := payload.results.foldl (Progress.turn server payload.checkedAt) { events := s.events }
  if payload.results.all (·.fits) then
    .ok ({ s with events := p.events, checks := s.checks ++ p.insertRows },
      ⟨p.insertRows.length, p.listedCount⟩)
  else .error .queryException

/-- A report, from the middleware to the answer. -/
def monitorChecks (isIp : Text → Bool) (s : Tables) (payload : Payload) :
    Except Refusal (Tables × Answer) :=
  let payload := { payload with
    serverIp := trimmed payload.serverIp
    results := payload.results.map (·.trimmed) }
  if s.valid isIp payload then
    match s.resolveServer payload with
    | some server => s.store server payload
    | none => .error .notFound
  else .error .unprocessable

end Tables

/-! ## The monitor -/

/-- What `LookupHost` says. -/
inductive Lookup where
  | hosts (addresses : List Text)
  | notFound
  | failed (message : Text)
  deriving DecidableEq, Repr

/-- A name server: its addresses, and the texts it has, or an error. -/
structure Resolver where
  lookupHost : Text → Lookup
  lookupTXT : Text → Option (List Text)

/-- `api.CheckResult`. -/
structure GoResult where
  rbl : Text
  listed : Bool
  response : Text := []
  errorMessage : Text := []
  deriving DecidableEq, Repr

/-- A result as it is sent: an empty text is omitted. -/
def GoResult.marshal (result : GoResult) : CheckResult where
  rbl := result.rbl
  listed := result.listed
  response := if result.response = [] then none else some result.response
  errorMessage := if result.errorMessage = [] then none else some result.errorMessage

structure IPv4 where
  a : Nat
  b : Nat
  c : Nat
  d : Nat
  deriving DecidableEq, Repr

/-- A number up to 255, without zeros in front. -/
def parseOctet (field : Text) : Option Nat :=
  let value := field.foldl (fun value c => 10 * value + (c.toNat - '0'.toNat)) 0
  if field ≠ [] ∧ field.all Char.isDigit ∧ (field.head? ≠ some '0' ∨ field.length = 1) ∧
    field.length ≤ 3 ∧ value ≤ 255 then some value else none

/-- `net.ParseIP(ip).To4()`, of an address with dots. -/
def parseIPv4 (ip : Text) : Option IPv4 :=
  match (ip.splitOn '.').mapM parseOctet with
  | some [a, b, c, d] => some ⟨a, b, c, d⟩
  | _ => none

def decimal (n : Nat) : Text := Nat.toDigits 10 n

/-- `reverseIPv4`. -/
def reverseIPv4 (ip : IPv4) : Text :=
  decimal ip.d ++ '.' :: decimal ip.c ++ '.' :: decimal ip.b ++ '.' :: decimal ip.a

/-- The name that is looked up. -/
def query (ip : IPv4) (rbl : Text) : Text := reverseIPv4 ip ++ '.' :: rbl

/-- The addresses, and the texts behind them. -/
def responseText (resolver : Resolver) (query : Text) (addresses : List Text) : Text :=
  let response := [','].intercalate addresses
  match resolver.lookupTXT query with
  | some (text :: texts) =>
      trimSpace (response ++ " | ".toList ++ [';'].intercalate (text :: texts))
  | _ => response

/-- `checkRBL`. -/
def checkRBL (resolver : Resolver) (ip : IPv4) (rbl : Text) : GoResult :=
  match resolver.lookupHost (query ip rbl) with
  | .hosts addresses =>
      { rbl := rbl, listed := true, response := responseText resolver (query ip rbl) addresses }
  | .notFound => { rbl := rbl, listed := false }
  | .failed message => { rbl := rbl, listed := false, errorMessage := message }

/-- `checkServer`. -/
def checkServer (resolver : Resolver) (ip : Text) (rbls : List Text) : List GoResult :=
  if trimSpace ip = [] then []
  else
    match parseIPv4 (trimSpace ip) with
    | some parsed => ((rbls.map trimSpace).filter (· ≠ [])).map (checkRBL resolver parsed)
    | none => rbls.head?.toList.map fun rbl =>
        { rbl := rbl, listed := false, errorMessage := "invalid or unsupported IP".toList }

/-- What the monitor submits for a server as it was fetched, if there is anything to submit. -/
def report (resolver : Resolver) (rbls : List Text) (checkedAt : Nat) (server : EngineServer) :
    Option Payload :=
  let results := checkServer resolver server.ipAddress rbls
  if results = [] then none
  else some
    { serverId := some server.id
      serverIp := some server.ipAddress
      checkedAt := checkedAt
      results := results.map (·.marshal) }

/-! ## Runs -/

/-- A report arrives; servers are registered, given another address, and removed with all that is
kept of them. -/
inductive Event where
  | report (payload : Payload)
  | register (ip : Text)
  | readdress (id : Nat) (ip : Text)
  | destroy (id : Nat)
  deriving DecidableEq, Repr

def monitoring (isIp : Text → Bool) : System Tables Event where
  step s
    | .report payload =>
        match s.monitorChecks isIp payload with
        | .ok (t, _) => some t
        | .error _ => none
    | .register ip =>
        some { s with servers := s.servers ++ [⟨s.nextId, ip, true⟩], nextId := s.nextId + 1 }
    | .readdress id ip =>
        some { s with
          servers := Table.update (·.id) s.servers id fun server =>
            { server with ipAddress := ip } }
    | .destroy id =>
        some { s with
          servers := s.servers.filter (·.id ≠ id)
          checks := s.checks.filter (·.engineServerId ≠ id)
          events := s.events.filter (·.engineServerId ≠ id) }

/-- The tables before anything is registered. -/
def empty : Tables where
  servers := []
  nextId := 1

/-- A report claims no status but the one each result has of itself. -/
def Plain : Tables → Event → Prop
  | _, .report payload => ∀ result ∈ payload.results, ∀ status ∈ result.status,
      status = result.trimmed.outcome
  | _, _ => True

instance (s : Tables) : ∀ e, Decidable (Plain s e)
  | .report payload => inferInstanceAs (Decidable (∀ result ∈ payload.results,
      ∀ status ∈ result.status, status = result.trimmed.outcome))
  | .register _ => isTrue trivial
  | .readdress _ _ => isTrue trivial
  | .destroy _ => isTrue trivial

/-! ## Checks summed up -/

def Tables.event (s : Tables) (id : Nat) (rbl : Text) : Option BlacklistEvent :=
  Table.find BlacklistEvent.key s.events (id, rbl)

def Tables.checksOf (s : Tables) (id : Nat) (rbl : Text) : List ReputationCheck :=
  s.checks.filter fun check => check.key = (id, rbl)

/-- Whether the last check that is not an error says listed. -/
def isListed (checks : List ReputationCheck) : Bool :=
  (checks.filter (·.status ≠ .error)).getLast?.any (·.status = .listed)

/-- What the checks of one server and list come to. -/
def summary (checks : List ReputationCheck) : Option BlacklistEvent := do
  let listed := checks.filter (·.status = .listed)
  let first ← listed.head?
  let last ← listed.getLast?
  pure
    { engineServerId := first.engineServerId
      rbl := first.rbl
      status := if isListed checks then .active else .resolved
      severity := "warning".toList
      firstSeen := first.checkedAt
      lastSeen := last.checkedAt
      lastResponse := last.response
      listedCount := listed.length }

/-- The event after one more check. -/
def summed (event : Option BlacklistEvent) (check : ReputationCheck) : Option BlacklistEvent :=
  match check.status with
  | .error => event
  | .clear => event.map fun event => { event with status := .resolved }
  | .listed =>
      match event with
      | some event => some
          { event with
            status := .active
            lastSeen := check.checkedAt
            lastResponse := check.response
            listedCount := event.listedCount + 1 }
      | none => some
          { engineServerId := check.engineServerId
            rbl := check.rbl
            status := .active
            severity := "warning".toList
            firstSeen := check.checkedAt
            lastSeen := check.checkedAt
            lastResponse := check.response
            listedCount := 1 }

section Concat
variable {α : Type} {p : α → Bool} {l : List α} {a : α}

theorem filter_concat_of_pos (h : p a = true) : (l ++ [a]).filter p = l.filter p ++ [a] := by
  rw [List.filter_append, List.filter_cons_of_pos h, List.filter_nil]

theorem filter_concat_of_neg (h : p a = false) : (l ++ [a]).filter p = l.filter p := by
  rw [List.filter_append, List.filter_cons_of_neg (Bool.not_eq_true _ ▸ h), List.filter_nil,
    List.append_nil]

end Concat

section Summary
variable {checks : List ReputationCheck} {check : ReputationCheck}

theorem isListed_concat : isListed (checks ++ [check]) =
    match check.status with
    | .error => isListed checks
    | .clear => false
    | .listed => true := by
  rw [isListed]
  cases hstatus : check.status with
  | error =>
    rw [filter_concat_of_neg (by simp [hstatus])]
    rfl
  | clear =>
    rw [filter_concat_of_pos (by simp [hstatus]), List.getLast?_concat, Option.any_some, hstatus]
    rfl
  | listed =>
    rw [filter_concat_of_pos (by simp [hstatus]), List.getLast?_concat, Option.any_some, hstatus]
    rfl

theorem summary_of_nil (h : checks.filter (·.status = .listed) = []) : summary checks = none := by
  rw [summary, h]
  rfl

theorem summary_of_cons {first last : ReputationCheck}
    (hfirst : (checks.filter (·.status = .listed)).head? = some first)
    (hlast : (checks.filter (·.status = .listed)).getLast? = some last) :
    summary checks = some
      { engineServerId := first.engineServerId
        rbl := first.rbl
        status := if isListed checks then .active else .resolved
        severity := "warning".toList
        firstSeen := first.checkedAt
        lastSeen := last.checkedAt
        lastResponse := last.response
        listedCount := (checks.filter (·.status = .listed)).length } := by
  rw [summary, hfirst, hlast]
  rfl

/-- One more check sums up to one more step of the event. -/
theorem summary_concat : summary (checks ++ [check]) = summed (summary checks) check := by
  have hlisted := @isListed_concat checks check
  have hkept : check.status ≠ .listed →
      (checks ++ [check]).filter (·.status = .listed) = checks.filter (·.status = .listed) :=
    fun hne => filter_concat_of_neg (decide_eq_false hne)
  have hmore : check.status = .listed →
      (checks ++ [check]).filter (·.status = .listed) =
        checks.filter (·.status = .listed) ++ [check] :=
    fun heq => filter_concat_of_pos (decide_eq_true heq)
  cases hchecks : checks.filter (·.status = .listed) with
  | nil =>
    rw [hchecks] at hkept hmore
    rw [summary_of_nil hchecks, summed]
    cases hstatus : check.status with
    | error => exact summary_of_nil (hkept (by rw [hstatus]; decide))
    | clear => exact summary_of_nil (hkept (by rw [hstatus]; decide))
    | listed =>
      have hone := hmore hstatus
      rw [hstatus] at hlisted
      have hhead : ((checks ++ [check]).filter (·.status = .listed)).head? = some check := by
        rw [hone]
        rfl
      have hlast : ((checks ++ [check]).filter (·.status = .listed)).getLast? = some check := by
        rw [hone]
        rfl
      rw [summary_of_cons hhead hlast, hlisted, hone]
      rfl
  | cons first rest =>
    have hfirst : (checks.filter (·.status = .listed)).head? = some first := by
      rw [hchecks, List.head?_cons]
    obtain ⟨last, hlast⟩ : ∃ last, (checks.filter (·.status = .listed)).getLast? = some last := by
      rw [hchecks]
      exact ⟨_, List.getLast?_cons⟩
    rw [summary_of_cons hfirst hlast, summed]
    cases hstatus : check.status with
    | error =>
      have hsame := hkept (by rw [hstatus]; decide)
      rw [hstatus] at hlisted
      rw [summary_of_cons (hsame ▸ hfirst) (hsame ▸ hlast), hsame, hlisted]
    | clear =>
      have hsame := hkept (by rw [hstatus]; decide)
      rw [hstatus] at hlisted
      rw [summary_of_cons (hsame ▸ hfirst) (hsame ▸ hlast), hsame, hlisted]
      rfl
    | listed =>
      have hlonger := hmore hstatus
      rw [hstatus] at hlisted
      have hhead : ((checks ++ [check]).filter (·.status = .listed)).head? = some first := by
        rw [hlonger, hchecks, List.cons_append, List.head?_cons]
      have hend : ((checks ++ [check]).filter (·.status = .listed)).getLast? = some check := by
        rw [hlonger, List.getLast?_concat]
      rw [summary_of_cons hhead hend, hlisted, hlonger, List.length_append]
      rfl

end Summary

/-! ## The loop over the results -/

/-- The events are what the checks come to. -/
def Views (events : List BlacklistEvent) (checks : List ReputationCheck) : Prop :=
  ∀ k, Table.find BlacklistEvent.key events k = summary (checks.filter fun check => check.key = k)

section Loop
variable {events : List BlacklistEvent} {checks : List ReputationCheck} {server : EngineServer}
  {id checkedAt : Nat} {rbl : Text} {response : Option Text} {k : Nat × Text}
  {result : CheckResult} {p : Progress}

theorem find_saveListed_self :
    Table.find BlacklistEvent.key (saveListed events id rbl checkedAt response) (id, rbl) =
      match Table.find BlacklistEvent.key events (id, rbl) with
      | some event => some
          { event with
            status := .active
            lastSeen := checkedAt
            lastResponse := response
            listedCount := event.listedCount + 1 }
      | none => some
          { engineServerId := id
            rbl := rbl
            status := .active
            severity := "warning".toList
            firstSeen := checkedAt
            lastSeen := checkedAt
            lastResponse := response
            listedCount := 1 } := by
  rw [saveListed]
  cases hfind : Table.find BlacklistEvent.key events (id, rbl) with
  | none =>
    rw [Table.find_append, hfind, Option.none_or]
    exact List.find?_cons_of_pos (by simp)
  | some event =>
    show Table.find BlacklistEvent.key (Table.update BlacklistEvent.key events (id, rbl) _)
      (id, rbl) = _
    rw [Table.find_update_self, hfind]
    · rfl
    · exact fun _ => rfl

theorem find_saveListed_of_ne (hne : k ≠ (id, rbl)) :
    Table.find BlacklistEvent.key (saveListed events id rbl checkedAt response) k =
      Table.find BlacklistEvent.key events k := by
  rw [saveListed]
  split
  · exact Table.find_update_of_ne (fun _ => rfl) hne
  · rw [Table.find_append]
    have hnone : ∀ event : BlacklistEvent, event.key = (id, rbl) →
        Table.find BlacklistEvent.key [event] k = none := by
      intro event hkey
      refine List.find?_cons_of_neg ?_
      rw [hkey]
      simpa using Ne.symm hne
    rw [hnone _ rfl, Option.or_none]

theorem find_saveCleared_self :
    Table.find BlacklistEvent.key (saveCleared events id rbl) (id, rbl) =
      (Table.find BlacklistEvent.key events (id, rbl)).map
        fun event => { event with status := .resolved } := by
  rw [saveCleared]
  split
  · exact Table.find_update_self fun _ => rfl
  · next hnone =>
    -- No event of the key is active, so the one that is found is resolved already.
    cases hfind : Table.find BlacklistEvent.key events (id, rbl) with
    | none => rfl
    | some event =>
      have hnot := List.find?_eq_none.mp hnone event (Table.mem_of_find hfind)
      rw [decide_eq_true_eq, not_and] at hnot
      have hstatus : event.status = .resolved := by
        cases hcase : event.status with
        | active => exact absurd hcase (hnot (Table.key_of_find hfind))
        | resolved => rfl
      rw [Option.map_some, ← hstatus]

theorem find_saveCleared_of_ne (hne : k ≠ (id, rbl)) :
    Table.find BlacklistEvent.key (saveCleared events id rbl) k =
      Table.find BlacklistEvent.key events k := by
  rw [saveCleared]
  split
  · exact Table.find_update_of_ne (fun _ => rfl) hne
  · rfl

/-- One turn of the loop takes the step that its row stands for. -/
theorem find_turn (hplain : result.status.getD result.outcome = result.outcome) :
    Table.find BlacklistEvent.key (p.turn server checkedAt result).events k =
      if k = (server.id, result.rbl) then
        summed (Table.find BlacklistEvent.key p.events k) (result.row server checkedAt)
      else Table.find BlacklistEvent.key p.events k := by
  have hrow : (result.row server checkedAt).status = result.outcome := hplain
  rw [CheckResult.outcome] at hrow
  rw [Progress.turn]
  by_cases hk : k = (server.id, result.rbl)
  · rw [if_pos hk, hk]
    by_cases hfailed : failed result.errorMessage = true
    · rw [if_pos hfailed] at hrow ⊢
      simp only [summed, hrow]
    · rw [if_neg hfailed] at hrow ⊢
      by_cases hlisted : result.listed = true
      · rw [if_pos hlisted] at hrow ⊢
        simp only [summed, hrow]
        exact find_saveListed_self
      · rw [if_neg hlisted] at hrow ⊢
        simp only [summed, hrow]
        exact find_saveCleared_self
  · rw [if_neg hk]
    by_cases hfailed : failed result.errorMessage = true
    · rw [if_pos hfailed]
    · rw [if_neg hfailed]
      by_cases hlisted : result.listed = true
      · rw [if_pos hlisted]
        exact find_saveListed_of_ne hk
      · rw [if_neg hlisted]
        exact find_saveCleared_of_ne hk

theorem insertRows_turn : (p.turn server checkedAt result).insertRows =
    p.insertRows ++ [result.row server checkedAt] := by
  rw [Progress.turn]
  split
  · rfl
  · split <;> rfl

theorem insertRows_foldl {results : List CheckResult} :
    (results.foldl (Progress.turn server checkedAt) p).insertRows =
      p.insertRows ++ results.map (·.row server checkedAt) := by
  induction results generalizing p with
  | nil => exact (List.append_nil _).symm
  | cons result results ih =>
    rw [List.foldl_cons, ih, insertRows_turn, List.append_assoc]
    rfl

theorem views_turn (hplain : result.status.getD result.outcome = result.outcome)
    (h : Views p.events (checks ++ p.insertRows)) :
    Views (p.turn server checkedAt result).events
      (checks ++ (p.turn server checkedAt result).insertRows) := by
  intro k
  rw [find_turn hplain, insertRows_turn, ← List.append_assoc]
  by_cases hk : k = (server.id, result.rbl)
  · have hkey : (result.row server checkedAt).key = k := hk.symm
    have hpick := @filter_concat_of_pos _ (fun check : ReputationCheck => decide (check.key = k))
      (checks ++ p.insertRows) _ (decide_eq_true hkey)
    rw [if_pos hk, hpick, summary_concat, h k]
  · have hkey : (result.row server checkedAt).key ≠ k := fun heq => hk heq.symm
    have hdrop := @filter_concat_of_neg _ (fun check : ReputationCheck => decide (check.key = k))
      (checks ++ p.insertRows) _ (decide_eq_false hkey)
    rw [if_neg hk, hdrop, h k]

theorem views_foldl {results : List CheckResult}
    (hplain : ∀ result ∈ results, result.status.getD result.outcome = result.outcome)
    (h : Views p.events (checks ++ p.insertRows)) :
    Views (results.foldl (Progress.turn server checkedAt) p).events
      (checks ++ (results.foldl (Progress.turn server checkedAt) p).insertRows) := by
  induction results generalizing p with
  | nil => exact h
  | cons result results ih =>
    rw [List.foldl_cons]
    refine ih (fun other hother => hplain other (.tail _ hother)) ?_
    exact views_turn (hplain result (.head _)) h

end Loop

/-! ## Every run of reports -/

section Run
variable {isIp : Text → Bool} {s t : Tables} {payload : Payload} {answer : Answer} {e : Event}
  {id : Nat} {k : Nat × Text}

/-- A report that is taken is taken for one server, as a whole. -/
theorem monitorChecks_ok (h : s.monitorChecks isIp payload = .ok (t, answer)) :
    ∃ server, s.resolveServer { payload with serverIp := trimmed payload.serverIp } =
        some server ∧
      t = { s with
        events := ((payload.results.map (·.trimmed)).foldl
          (Progress.turn server payload.checkedAt) { events := s.events }).events
        checks := s.checks ++
          (payload.results.map (·.trimmed)).map (·.row server payload.checkedAt) } := by
  rw [Tables.monitorChecks] at h
  split at h
  · split at h
    · next server hserver =>
      refine ⟨server, hserver, ?_⟩
      rw [Tables.store] at h
      split at h
      · have hrows := @insertRows_foldl server payload.checkedAt { events := s.events }
          (payload.results.map (·.trimmed))
        rw [List.nil_append] at hrows
        rw [← hrows]
        exact (Prod.mk.inj (Except.ok.inj h)).1.symm
      · cases h
    · cases h
  · cases h

theorem find_destroy : Table.find BlacklistEvent.key
    (s.events.filter (·.engineServerId ≠ id)) k =
      if k.1 = id then none else Table.find BlacklistEvent.key s.events k := by
  rw [Table.find, List.find?_filter]
  by_cases hid : k.1 = id
  · rw [if_pos hid, List.find?_eq_none]
    intro event _ hboth
    simp only [decide_eq_true_eq] at hboth
    exact hboth.1 ((congrArg Prod.fst hboth.2).trans hid)
  · rw [if_neg hid, Table.find]
    refine congrArg (fun p => s.events.find? p) (funext fun event => ?_)
    simp only [decide_eq_true_eq]
    refine decide_eq_decide.mpr ⟨fun hboth => hboth.2, fun hkey => ⟨fun heq => ?_, hkey⟩⟩
    exact hid (hkey ▸ heq)

theorem checks_destroy : (s.checks.filter (·.engineServerId ≠ id)).filter
    (fun check => check.key = k) =
      if k.1 = id then [] else s.checks.filter fun check => check.key = k := by
  rw [List.filter_filter]
  by_cases hid : k.1 = id
  · rw [if_pos hid, List.filter_eq_nil_iff]
    intro check _ hboth
    rw [Bool.and_eq_true, decide_eq_true_eq, decide_eq_true_eq] at hboth
    exact hboth.2 ((congrArg Prod.fst hboth.1).trans hid)
  · rw [if_neg hid]
    refine List.filter_congr fun check _ => ?_
    by_cases hkey : check.key = k
    · have hother : check.engineServerId ≠ id := fun heq => hid (hkey ▸ heq)
      rw [decide_eq_true hkey, decide_eq_true hother]
      rfl
    · rw [decide_eq_false hkey, Bool.false_and]

/-- **Every step keeps the events what the checks come to.** -/
theorem views_step (hplain : Plain s e) (h : Views s.events s.checks)
    (hstep : (monitoring isIp).step s e = some t) : Views t.events t.checks := by
  cases e with
  | report payload =>
    cases hok : s.monitorChecks isIp payload with
    | error refusal =>
      simp only [monitoring, hok] at hstep
      cases hstep
    | ok taken =>
      simp only [monitoring, hok] at hstep
      obtain rfl := Option.some.inj hstep
      obtain ⟨server, -, htables⟩ := monitorChecks_ok hok
      have hresults : ∀ result ∈ payload.results.map (·.trimmed),
          result.status.getD result.outcome = result.outcome := by
        intro result hresult
        obtain ⟨sent, hsent, rfl⟩ := List.mem_map.mp hresult
        show sent.status.getD sent.trimmed.outcome = sent.trimmed.outcome
        cases hstatus : sent.status with
        | none => rfl
        | some status => exact hplain sent hsent status hstatus
      have hnone : Views s.events (s.checks ++ []) := by
        rw [List.append_nil]
        exact h
      have hviews := @views_foldl s.checks server payload.checkedAt { events := s.events }
        (payload.results.map (·.trimmed)) hresults hnone
      rw [insertRows_foldl, List.nil_append] at hviews
      rw [htables]
      exact hviews
  | register ip =>
    obtain rfl := Option.some.inj hstep
    exact h
  | readdress id ip =>
    obtain rfl := Option.some.inj hstep
    exact h
  | destroy id =>
    obtain rfl := Option.some.inj hstep
    intro k
    rw [find_destroy, checks_destroy]
    by_cases hid : k.1 = id
    · rw [if_pos hid, if_pos hid]
      rfl
    · rw [if_neg hid, if_neg hid]
      exact h k

theorem views_of_reaches (hreach : (monitoring isIp).Reaches Plain empty s) :
    Views s.events s.checks :=
  hreach.invariant (fun _ => rfl) fun _ _ _ h hplain hstep => views_step hplain h hstep

end Run

/-- **After any run of reports the event of a server and a list is what the checks of them come
to.** -/
theorem events_eq_summary {isIp : Text → Bool} {s : Tables}
    (hreach : (monitoring isIp).Reaches Plain empty s) (id : Nat) (rbl : Text) :
    s.event id rbl = summary (s.checksOf id rbl) :=
  views_of_reaches hreach (id, rbl)

/-- A server is listed twice, no longer listed, and then the list does not answer. -/
def visits : List Event :=
  let rbl := "zen.example".toList
  let visit := fun (checkedAt : Nat) (result : CheckResult) =>
    Event.report ⟨some 1, none, checkedAt, [result]⟩
  [.register "192.0.2.7".toList, visit 10 { rbl := rbl, listed := true },
    visit 20 { rbl := rbl, listed := true }, visit 30 { rbl := rbl, listed := false },
    visit 40 { rbl := rbl, listed := false, errorMessage := some "timeout".toList }]

theorem events_eq_summary_visits :
    ((monitoring fun _ => true).final Plain empty visits).event 1 "zen.example".toList =
      summary (((monitoring fun _ => true).final Plain empty visits).checksOf 1
        "zen.example".toList) :=
  events_eq_summary (System.reaches_final (by decide)) 1 "zen.example".toList

/-! ## The report of the monitor -/

section Report
variable {isIp : Text → Bool} {s t : Tables} {payload : Payload} {answer : Answer}
  {resolver : Resolver} {rbls : List Text} {checkedAt : Nat} {server : EngineServer} {ip : IPv4}
  {rbl : Text} {old new : List ReputationCheck} {row : ReputationCheck}

theorem summary_append_error (h : ∀ check ∈ new, check.status = .error) :
    summary (old ++ new) = summary old := by
  induction new using List.reverseRecOn with
  | nil => rw [List.append_nil]
  | append_singleton new check ih =>
    have hcheck := h check (List.mem_append_right _ (List.mem_singleton_self _))
    rw [← List.append_assoc, summary_concat]
    simp only [summed, hcheck]
    exact ih fun other hother => h other (List.mem_append_left _ hother)

/-- What counts of some checks that say the same is the last one. -/
theorem summary_append_same (hne : new ≠ []) (hsame : ∀ check ∈ new, check = row) :
    ∃ before, summary (old ++ new) = summed before row := by
  obtain ⟨front, last, rfl⟩ := (List.eq_nil_or_concat' new).resolve_left hne
  have hlast := hsame last (List.mem_append_right _ (List.mem_singleton_self _))
  refine ⟨summary (old ++ front), ?_⟩
  rw [← List.append_assoc, summary_concat, hlast]

/-- The results of a report, for a server whose address is one. -/
theorem report_eq (hip : parseIPv4 (trimSpace server.ipAddress) = some ip)
    (hreport : report resolver rbls checkedAt server = some payload) :
    payload.serverId = some server.id ∧ payload.checkedAt = checkedAt ∧
      payload.results =
        ((rbls.map trimSpace).filter (· ≠ [])).map
          fun rbl => (checkRBL resolver ip rbl).marshal := by
  have hblank : trimSpace server.ipAddress ≠ [] := by
    intro hnil
    rw [hnil] at hip
    cases hip
  have hresults : checkServer resolver server.ipAddress rbls =
      ((rbls.map trimSpace).filter (· ≠ [])).map (checkRBL resolver ip) := by
    rw [checkServer, if_neg hblank, hip]
  rw [report, hresults] at hreport
  split at hreport
  · cases hreport
  · obtain rfl := Option.some.inj hreport
    exact ⟨rfl, rfl, List.map_map⟩

/-- The row a list gets. -/
def rowOf (resolver : Resolver) (ip : IPv4) (current : EngineServer) (checkedAt : Nat)
    (rbl : Text) : ReputationCheck :=
  (checkRBL resolver ip rbl).marshal.trimmed.row current checkedAt

theorem rowOf_rbl (h : trimSpace rbl = rbl) {current : EngineServer} :
    (rowOf resolver ip current checkedAt rbl).rbl = rbl := by
  have hsame : (checkRBL resolver ip rbl).rbl = rbl := by
    rw [checkRBL]
    split <;> rfl
  show trimSpace (checkRBL resolver ip rbl).rbl = rbl
  rw [hsame, h]

/-- A report of the monitor adds, to the checks of a list, rows that all say the same. -/
theorem checksOf_report (hip : parseIPv4 (trimSpace server.ipAddress) = some ip)
    (hreport : report resolver rbls checkedAt server = some payload)
    (hok : s.monitorChecks isIp payload = .ok (t, answer)) :
    ∃ current : EngineServer, current.id = server.id ∧ ∀ rbl, ∃ new,
      t.checksOf server.id rbl = s.checksOf server.id rbl ++ new ∧
      (∀ check ∈ new, check = rowOf resolver ip current checkedAt rbl) ∧
      (new ≠ [] ↔ rbl ∈ rbls.map trimSpace ∧ rbl ≠ []) := by
  obtain ⟨hid, hchecked, hresults⟩ := report_eq hip hreport
  obtain ⟨current, hcurrent, rfl⟩ := monitorChecks_ok hok
  have hcurrentId : current.id = server.id := by
    rw [Tables.resolveServer, hid] at hcurrent
    exact Table.key_of_find hcurrent
  let names := (rbls.map trimSpace).filter (· ≠ [])
  have hnames : ∀ name ∈ names, trimSpace name = name := by
    intro name hname
    obtain ⟨given, -, rfl⟩ := List.mem_map.mp (List.mem_filter.mp hname).1
    exact trimBy_trimBy (fun _ h => h) given
  have hrows : (payload.results.map (·.trimmed)).map (·.row current payload.checkedAt) =
      names.map (rowOf resolver ip current checkedAt) := by
    rw [hresults, hchecked, List.map_map, List.map_map]
    rfl
  have hrbl : ∀ {rbl : Text}, ∀ name ∈ names,
      decide ((rowOf resolver ip current checkedAt name).key = (server.id, rbl)) = true →
        name = rbl := by
    intro rbl name hname hkey
    have hsnd : (rowOf resolver ip current checkedAt name).rbl = rbl :=
      congrArg Prod.snd (of_decide_eq_true hkey)
    exact (rowOf_rbl (hnames name hname)).symm.trans hsnd
  refine ⟨current, hcurrentId, fun rbl =>
    ⟨(names.map (rowOf resolver ip current checkedAt)).filter
      fun check => check.key = (server.id, rbl), ?_, ?_, ?_⟩⟩
  · show (s.checks ++ _).filter _ = s.checks.filter _ ++ _
    rw [hrows, List.filter_append]
  · intro check hcheck
    obtain ⟨hmem, hkey⟩ := List.mem_filter.mp hcheck
    obtain ⟨name, hname, rfl⟩ := List.mem_map.mp hmem
    rw [hrbl name hname hkey]
  · constructor
    · intro hne
      obtain ⟨check, hcheck⟩ := List.exists_mem_of_ne_nil _ hne
      obtain ⟨hmem, hkey⟩ := List.mem_filter.mp hcheck
      obtain ⟨name, hname, rfl⟩ := List.mem_map.mp hmem
      rw [← hrbl name hname hkey]
      exact ⟨(List.mem_filter.mp hname).1, of_decide_eq_true (List.mem_filter.mp hname).2⟩
    · rintro ⟨hmem, hne⟩ hnil
      have hname : rbl ∈ names := List.mem_filter.mpr ⟨hmem, decide_eq_true hne⟩
      have hnot := List.filter_eq_nil_iff.mp hnil _ (List.mem_map_of_mem hname)
      have hsnd : (rowOf resolver ip current checkedAt rbl).rbl = rbl :=
        rowOf_rbl (hnames rbl hname)
      exact hnot (decide_eq_true (Prod.ext hcurrentId hsnd))

/-- A text that is omitted if it is empty is read as it would be if it were not. -/
theorem trimmed_omitted (text : Text) :
    trimmed (if text = [] then none else some text) = trimmed (some text) := by
  by_cases hnil : text = []
  · rw [hnil]
    rfl
  · rw [if_neg hnil]

theorem rowOf_hosts {current : EngineServer} {addresses : List Text}
    (h : resolver.lookupHost (query ip rbl) = .hosts addresses) :
    (rowOf resolver ip current checkedAt rbl).status = .listed ∧
      (rowOf resolver ip current checkedAt rbl).response =
        trimmed (some (responseText resolver (query ip rbl) addresses)) := by
  rw [rowOf, checkRBL, h]
  exact ⟨rfl, trimmed_omitted _⟩

theorem rowOf_notFound {current : EngineServer}
    (h : resolver.lookupHost (query ip rbl) = .notFound) :
    (rowOf resolver ip current checkedAt rbl).status = .clear := by
  rw [rowOf, checkRBL, h]
  rfl

theorem rowOf_failed {current : EngineServer} {message : Text}
    (h : resolver.lookupHost (query ip rbl) = .failed message)
    (hfailed : failed (trimmed (some message)) = true) :
    (rowOf resolver ip current checkedAt rbl).status = .error := by
  rw [← trimmed_omitted] at hfailed
  rw [rowOf, checkRBL, h]
  exact if_pos hfailed

theorem plain_report (hip : parseIPv4 (trimSpace server.ipAddress) = some ip)
    (hreport : report resolver rbls checkedAt server = some payload) :
    Plain s (.report payload) := by
  obtain ⟨-, -, hresults⟩ := report_eq hip hreport
  intro result hresult status hstatus
  rw [hresults] at hresult
  obtain ⟨name, -, rfl⟩ := List.mem_map.mp hresult
  cases hstatus

end Report

/-- **A report of the monitor that is taken opens the event of every list that names the server,
closes that of every list that does not, and leaves that of every list that gives no answer, or is
not asked.** -/
theorem monitored {isIp : Text → Bool} {s t : Tables} {resolver : Resolver} {rbls : List Text}
    {checkedAt : Nat} {server : EngineServer} {ip : IPv4} {payload : Payload} {answer : Answer}
    (hreach : (monitoring isIp).Reaches Plain empty s)
    (hip : parseIPv4 (trimSpace server.ipAddress) = some ip)
    (hreport : report resolver rbls checkedAt server = some payload)
    (hok : s.monitorChecks isIp payload = .ok (t, answer)) (rbl : Text) :
    if rbl ∈ rbls.map trimSpace ∧ rbl ≠ [] then
      match resolver.lookupHost (query ip rbl) with
      | .hosts addresses => ∃ event, t.event server.id rbl = some event ∧
          event.status = .active ∧ event.lastSeen = checkedAt ∧
          event.lastResponse = trimmed (some (responseText resolver (query ip rbl) addresses))
      | .notFound => ∀ event ∈ t.event server.id rbl, event.status = .resolved
      | .failed message => failed (trimmed (some message)) = true →
          t.event server.id rbl = s.event server.id rbl
    else t.event server.id rbl = s.event server.id rbl := by
  have hstep : (monitoring isIp).step s (.report payload) = some t := by
    simp only [monitoring, hok]
  have hbefore := views_of_reaches hreach (server.id, rbl)
  have hafter := views_of_reaches (hreach.tail (plain_report hip hreport) hstep) (server.id, rbl)
  obtain ⟨current, hid, hchecks⟩ := checksOf_report hip hreport hok
  obtain ⟨new, happend, hsame, hsome⟩ := hchecks rbl
  rw [Tables.checksOf] at happend
  rw [happend] at hafter
  have hevent : t.event server.id rbl = summary
    (s.checks.filter (fun check => check.key = (server.id, rbl)) ++ new) := hafter
  by_cases hasked : rbl ∈ rbls.map trimSpace ∧ rbl ≠ []
  · obtain ⟨before, hlast⟩ := summary_append_same (hsome.mpr hasked) hsame
    rw [if_pos hasked]
    cases hlookup : resolver.lookupHost (query ip rbl) with
    | hosts addresses =>
      obtain ⟨hstatus, hresponse⟩ := @rowOf_hosts resolver checkedAt ip rbl current _ hlookup
      rw [hlast] at hevent
      simp only [summed, hstatus] at hevent
      cases before with
      | none => exact ⟨_, hevent, rfl, rfl, hresponse⟩
      | some event => exact ⟨_, hevent, rfl, rfl, hresponse⟩
    | notFound =>
      have hstatus := @rowOf_notFound resolver checkedAt ip rbl current hlookup
      intro event hmem
      rw [hlast] at hevent
      simp only [summed, hstatus] at hevent
      rw [hevent] at hmem
      obtain ⟨old, -, rfl⟩ := Option.map_eq_some_iff.mp hmem
      rfl
    | failed message =>
      intro hfailed
      have herrors : ∀ check ∈ new, check.status = .error := by
        intro check hcheck
        rw [hsame check hcheck]
        exact rowOf_failed hlookup hfailed
      rw [hevent, summary_append_error herrors]
      exact hbefore.symm
  · have hnil : new = [] := not_not.mp fun hne => hasked (hsome.mp hne)
    rw [if_neg hasked, hevent, hnil, List.append_nil]
    exact hbefore.symm

/-- A name server with one list that names one address, and one that does not answer. -/
def nameServer : Resolver where
  lookupHost name :=
    if name = "7.2.0.192.zen.example".toList then .hosts ["127.0.0.2".toList]
    else .failed "server misbehaving".toList
  lookupTXT _ := none

/-- What the monitor submits for the server, with that name server. -/
def submitted : Payload where
  serverId := some 1
  serverIp := some "192.0.2.7".toList
  checkedAt := 50
  results :=
    [{ rbl := "zen.example".toList, listed := true, response := some "127.0.0.2".toList },
      { rbl := "b.example".toList
        listed := false
        errorMessage := some "server misbehaving".toList }]

theorem monitored_nameServer : ∃ t answer,
    ((monitoring fun _ => true).final Plain empty visits).monitorChecks (fun _ => true)
      submitted = .ok (t, answer) ∧
      ∃ event, t.event 1 "zen.example".toList = some event ∧ event.status = .active ∧
        event.lastSeen = 50 ∧ event.lastResponse = some "127.0.0.2".toList := by
  have htaken : (((monitoring fun _ => true).final Plain empty visits).monitorChecks
      (fun _ => true) submitted).isOk = true := by decide
  cases hok : ((monitoring fun _ => true).final Plain empty visits).monitorChecks
      (fun _ => true) submitted with
  | error refusal =>
    rw [hok] at htaken
    cases htaken
  | ok taken =>
    have hreport : report nameServer ["zen.example".toList, "b.example".toList] 50
        ⟨1, "192.0.2.7".toList, true⟩ = some submitted := by decide
    have hip : parseIPv4 (trimSpace "192.0.2.7".toList) = some ⟨192, 0, 2, 7⟩ := by decide
    have hlookup : nameServer.lookupHost (query ⟨192, 0, 2, 7⟩ "zen.example".toList) =
        .hosts ["127.0.0.2".toList] := by decide
    have h := monitored (System.reaches_final (by decide)) hip hreport hok "zen.example".toList
    rw [if_pos (by decide), hlookup] at h
    exact ⟨taken.1, taken.2, rfl, h⟩

end ValidEmailVerifier.BlacklistEvents
