/-
# `Engine.MxAttempts` — the hosts of a domain, one after the other

`checkSMTP` asks the MX hosts of a domain in the order they are given, each as often as the
retries allow, until one of them accepts the address or has a verdict that no other host is to
be asked about.  Beside the result these functions return the attempts that were made, host by
host; nothing reads them.

Whatever the checker says, the chain of the result lists the attempts that were made, numbered
in their order (`lawful_checkSMTP`).
-/
import ValidEmailVerifier.Engine.Classification

namespace ValidEmailVerifier.Engine

open GoStrings Worker
open Smtp (normalizedEvidenceStrength)

/-! ## Results of attempts -/

structure AttemptEvidence where
  attemptNumber : Int := 0
  mxHost : Text := []
  attemptRoute : Text := []
  decisionClass : Text := []
  reasonCode : Text := []
  reasonTag : Text := []
  retryStrategy : Text := []
  smtpCode : Int := 0
  enhancedCode : Text := []
  providerProfile : Text := []
  confidenceHint : Text := []
  evidenceStrength : Text := []
  deriving DecidableEq, Repr

/-- What of the evidence of a result the attempts and the sessions read. -/
structure CheckEvidence where
  mxHost : Text := []
  attemptNumber : Int := 0
  attemptRoute : Text := []
  confidenceHint : Text := []
  evidenceStrength : Text := []
  attemptChain : List AttemptEvidence := []
  deriving DecidableEq, Repr

/-- The result of a checker, as far as the attempts are told of it. -/
structure CheckResult where
  category : Text
  reason : Text
  decisionClass : Text := []
  reasonCode : Text := []
  reasonTag : Text := []
  mxHost : Text := []
  attemptNumber : Int := 0
  attemptRoute : Text := []
  attemptChain : List AttemptEvidence := []
  evidenceStrength : Text := []
  smtpCode : Int := 0
  enhancedCode : Text := []
  providerProfile : Text := []
  decisionConfidence : Text := []
  retryStrategy : Text := []
  evidence : Option CheckEvidence := none
  deriving DecidableEq, Repr

/-- The value, or the other one if it is blank. -/
def ifBlank (value other : Text) : Text := if trimSpace value = [] then other else value

def applyAttemptEvidence (result : CheckResult) (mxHost : Text) (attemptNumber : Int) :
    CheckResult :=
  let mxHost := trimSpace mxHost
  let result :=
    { result with
      mxHost := if mxHost = [] then result.mxHost else ifBlank result.mxHost mxHost
      attemptNumber :=
        if 0 < attemptNumber ∧ result.attemptNumber ≤ 0 then attemptNumber
        else result.attemptNumber
      attemptRoute :=
        if mxHost = [] then result.attemptRoute
        else ifBlank result.attemptRoute ("mx:".toList ++ mxHost)
      evidenceStrength :=
        ifBlank result.evidenceStrength (normalizedEvidenceStrength result.decisionConfidence) }
  let evidence := result.evidence.getD {}
  { result with
    evidence := some
      { evidence with
        mxHost := ifBlank evidence.mxHost result.mxHost
        attemptNumber :=
          if evidence.attemptNumber ≤ 0 then result.attemptNumber else evidence.attemptNumber
        attemptRoute := ifBlank evidence.attemptRoute result.attemptRoute
        evidenceStrength := ifBlank evidence.evidenceStrength result.evidenceStrength
        attemptChain :=
          if evidence.attemptChain = [] then result.attemptChain else evidence.attemptChain } }

def attemptEvidenceFromResult (result : CheckResult) : AttemptEvidence where
  attemptNumber := result.attemptNumber
  mxHost := trimSpace result.mxHost
  attemptRoute := trimSpace result.attemptRoute
  decisionClass := trimSpace result.decisionClass
  reasonCode := trimSpace result.reasonCode
  reasonTag := trimSpace result.reasonTag
  retryStrategy := trimSpace result.retryStrategy
  smtpCode := result.smtpCode
  enhancedCode := trimSpace result.enhancedCode
  providerProfile := trimSpace result.providerProfile
  confidenceHint := trimSpace result.decisionConfidence
  evidenceStrength := trimSpace result.evidenceStrength

/-- Reasons that speak of the host rather than of the address. -/
def transientReasons : List Text :=
  ["smtp_timeout".toList, "smtp_connect_timeout".toList, "smtp_tempfail".toList]

def isRetryableSMTPResult (result : CheckResult) : Bool :=
  if result.decisionClass ∈ ["policy_blocked".toList, "undeliverable".toList] then false
  else if result.decisionClass = "retryable".toList then true
  else result.reason ∈ transientReasons

def shouldAttemptNextMX (result : CheckResult) : Bool :=
  if result.decisionClass ∈ ["retryable".toList, "unknown".toList] then true
  else trimSpace result.reason ∈ transientReasons

def rankCategory (category : Text) : Nat :=
  if category = "valid".toList then 3
  else if category = "risky".toList then 2
  else if category = "invalid".toList then 1
  else 0

/-! ## The attempts at one host -/

/-- The loop of `checkSMTPHost`, with the attempts that are left; the checker is asked for its
result of each. -/
def attemptsAt (check : Nat → CheckResult) (host : Text) (firstAttemptNumber : Int) :
    Nat → Nat → List AttemptEvidence → CheckResult × List CheckResult
  | left, attempt, chain =>
      let outcome := check attempt
      let result := applyAttemptEvidence outcome host (firstAttemptNumber + attempt)
      let result := { result with attemptChain := chain ++ [attemptEvidenceFromResult result] }
      if result.category = "valid".toList then (result, [outcome])
      else
        match left with
        | 0 => (result, [outcome])
        | left + 1 =>
            if isRetryableSMTPResult result then
              let (last, outcomes) :=
                attemptsAt check host firstAttemptNumber left (attempt + 1) result.attemptChain
              (last, outcome :: outcomes)
            else (result, [outcome])

def timeoutResult : CheckResult where
  category := "risky".toList
  reason := "smtp_timeout".toList

/-- A host that the limiter does not admit is not asked. -/
def checkSMTPHost (retryableNetworkRetries : Int) (admitted : Bool) (check : Nat → CheckResult)
    (host : Text) (firstAttemptNumber : Int) : CheckResult × List CheckResult :=
  if admitted = false then (timeoutResult, [])
  else
    attemptsAt check host (if firstAttemptNumber ≤ 0 then 1 else firstAttemptNumber)
      retryableNetworkRetries.toNat 0 []

/-! ## The hosts of a domain -/

structure MX where
  host : Text
  pref : Nat := 0
  deriving DecidableEq, Repr

/-- The host without the dot at its end. -/
def MX.name (mx : MX) : Text := if ['.'].isSuffixOf mx.host then mx.host.dropLast else mx.host

/-- What the attempts depend on: the two limits, whether the limiter admits a host, and the
result of the checker for each attempt at each host. -/
structure Attempts where
  maxMXAttempts : Int := 0
  retryableNetworkRetries : Int := 0
  admits : Nat → Bool := fun _ => true
  check : Nat → Nat → CheckResult

/-- A host that was asked: which record it is of, the outcomes of its attempts, and its
verdict. -/
structure Visit where
  record : Nat
  mx : MX
  outcomes : List CheckResult
  verdict : CheckResult

/-- The result when no host has the last word. -/
def bestOrTimeout (best : Option CheckResult) (chain : List AttemptEvidence) : CheckResult :=
  { best.getD timeoutResult with attemptChain := chain }

/-- The best result so far; there is none while its category is empty. -/
def better (best : Option CheckResult) (result : CheckResult) : Option CheckResult :=
  match best with
  | none => if result.category = [] then none else some result
  | some existing =>
      if rankCategory existing.category < rankCategory result.category then some result
      else some existing

namespace Attempts

variable (a : Attempts)

def maxAttempts : Nat := if a.maxMXAttempts ≤ 0 then 2 else a.maxMXAttempts.toNat

def retries : Nat := a.retryableNetworkRetries.toNat

/-- The host of a record is asked. -/
def visit (record : Nat) (mx : MX) (attemptCounter : Nat) : Visit :=
  let checked := checkSMTPHost a.retryableNetworkRetries (a.admits record) (a.check record)
    mx.name (attemptCounter + 1)
  ⟨record, mx, checked.2, checked.1⟩

/-- The loop of `checkSMTP`. -/
def walk : List MX → Nat → Option CheckResult → Nat → List AttemptEvidence →
    CheckResult × List Visit
  | [], _, best, _, chain => (bestOrTimeout best chain, [])
  | mx :: rest, record, best, attemptCounter, chain =>
      let v := a.visit record mx attemptCounter
      let chain := chain ++ v.verdict.attemptChain
      if v.verdict.category = "valid".toList then
        ({ v.verdict with attemptChain := chain }, [v])
      else if shouldAttemptNextMX v.verdict then
        let (result, visits) := walk rest (record + 1) (better best v.verdict)
          (attemptCounter + v.verdict.attemptChain.length) chain
        (result, v :: visits)
      else ({ v.verdict with attemptChain := chain }, [v])

def checkSMTP (mxRecords : List MX) : CheckResult × List Visit :=
  a.walk (mxRecords.take a.maxAttempts) 0 none 0 []

end Attempts

/-! ## The chain -/

/-- What the chain says of an attempt. -/
def entry (number : Int) (host : Text) (outcome : CheckResult) : AttemptEvidence :=
  attemptEvidenceFromResult (applyAttemptEvidence outcome host number)

theorem attemptNumber_entry {number : Int} {host : Text} {outcome : CheckResult}
    (hnumber : 0 < number) (hfresh : outcome.attemptNumber = 0) :
    (entry number host outcome).attemptNumber = number :=
  if_pos ⟨hnumber, Int.le_of_eq hfresh⟩

/-- The host is the one that was asked, unless the checker names another one. -/
theorem mxHost_entry {number : Int} {host : Text} {outcome : CheckResult}
    (hfresh : trimSpace outcome.mxHost = []) :
    (entry number host outcome).mxHost = trimSpace host := by
  show trimSpace (if trimSpace host = [] then outcome.mxHost
    else ifBlank outcome.mxHost (trimSpace host)) = trimSpace host
  split_ifs with hhost
  · rw [hfresh, hhost]
  · rw [ifBlank, if_pos hfresh]
    exact Text.trimBy_trimBy (fun _ h => h) host

/-- The attempts that were made, with the hosts they were made at. -/
def made (visits : List Visit) : List (Text × CheckResult) :=
  visits.flatMap fun v => v.outcomes.map (v.mx.name, ·)

theorem made_cons (v : Visit) (visits : List Visit) :
    made (v :: visits) = made [v] ++ made visits := by
  rw [made, List.flatMap_cons, made, List.flatMap_singleton]
  rfl

/-- The entries of attempts that follow a number of others. -/
def entries (before : Nat) (calls : List (Text × CheckResult)) : List AttemptEvidence :=
  calls.mapIdx fun k call => entry (before + k + 1 : Nat) call.1 call.2

theorem entries_append (before : Nat) (calls more : List (Text × CheckResult)) :
    entries before (calls ++ more) =
      entries before calls ++ entries (before + calls.length) more := by
  rw [entries, List.mapIdx_append, entries, entries]
  congr 2
  funext k call
  rw [show before + (k + calls.length) + 1 = before + calls.length + k + 1 by omega]

theorem length_entries (before : Nat) (calls : List (Text × CheckResult)) :
    (entries before calls).length = calls.length := List.length_mapIdx

theorem entries_cons (before : Nat) (call : Text × CheckResult)
    (calls : List (Text × CheckResult)) :
    entries before (call :: calls) =
      entry (before + 1 : Nat) call.1 call.2 :: entries (before + 1) calls := by
  rw [← List.singleton_append, entries_append]
  rfl

/-- The attempts at one host are listed in their order, and are not more than are left. -/
theorem attemptsAt_entries (check : Nat → CheckResult) (host : Text) (before left attempt : Nat)
    (chain : List AttemptEvidence) :
    (attemptsAt check host (before + 1 : Nat) left attempt chain).1.attemptChain =
        chain ++ entries (before + attempt)
          ((attemptsAt check host (before + 1 : Nat) left attempt chain).2.map (host, ·)) ∧
      (attemptsAt check host (before + 1 : Nat) left attempt chain).2.length ≤ left + 1 := by
  have hnumber : ∀ attempt : Nat,
      ((before + 1 : Nat) : Int) + attempt = (before + attempt + 1 : Nat) := by
    intro attempt
    push_cast
    omega
  induction left generalizing attempt chain with
  | zero =>
    rw [attemptsAt, hnumber]
    dsimp only
    split_ifs
    · exact ⟨rfl, Nat.le_refl _⟩
    · exact ⟨rfl, Nat.le_refl _⟩
  | succ left ih =>
    rw [attemptsAt, hnumber]
    dsimp only
    split_ifs
    · exact ⟨rfl, Nat.succ_le_succ (Nat.zero_le _)⟩
    · obtain ⟨hchain, hlength⟩ := ih (attempt + 1)
        (chain ++ [entry (before + attempt + 1 : Nat) host (check attempt)])
      refine ⟨?_, Nat.succ_le_succ hlength⟩
      refine hchain.trans ?_
      rw [List.map_cons, entries_cons, List.append_assoc]
      rfl
    · exact ⟨rfl, Nat.succ_le_succ (Nat.zero_le _)⟩

/-- Their outcomes are those of the checker. -/
theorem attemptsAt_outcomes (check : Nat → CheckResult) (host : Text) (first : Int)
    (left attempt : Nat) (chain : List AttemptEvidence) :
    (attemptsAt check host first left attempt chain).2 =
      (List.range' attempt (attemptsAt check host first left attempt chain).2.length).map
        check := by
  induction left generalizing attempt chain with
  | zero =>
    rw [attemptsAt]
    dsimp only
    split_ifs
    · rfl
    · rfl
  | succ left ih =>
    rw [attemptsAt]
    dsimp only
    split_ifs
    · rfl
    · rw [List.length_cons, List.range'_succ, List.map_cons, ← ih]
    · rfl

namespace Attempts

variable (a : Attempts)

theorem visit_outcomes (record : Nat) (mx : MX) (before : Nat) :
    (a.visit record mx before).outcomes =
      (List.range (a.visit record mx before).outcomes.length).map (a.check record) := by
  rw [List.range_eq_range', visit, checkSMTPHost]
  dsimp only
  split_ifs
  · rfl
  · exact attemptsAt_outcomes ..
  · exact attemptsAt_outcomes ..

theorem visit_entries (record : Nat) (mx : MX) (before : Nat) :
    (a.visit record mx before).verdict.attemptChain =
        entries before (made [a.visit record mx before]) ∧
      (a.visit record mx before).outcomes.length ≤ a.retries + 1 := by
  rw [made, List.flatMap_singleton, visit, checkSMTPHost]
  dsimp only
  split_ifs with hadmitted hfirst
  · exact ⟨rfl, Nat.zero_le _⟩
  · omega
  · have hspec := attemptsAt_entries (a.check record) mx.name before a.retries 0 []
    rw [Nat.add_zero, List.nil_append, Int.natCast_add] at hspec
    exact hspec

/-- The hosts that are asked are the first of the records, in their order; and the chain lists
the attempts at them. -/
theorem walk_entries (records : List MX) (record : Nat) (best : Option CheckResult)
    (before : Nat) (chain : List AttemptEvidence) :
    (a.walk records record best before chain).1.attemptChain =
        chain ++ entries before (made (a.walk records record best before chain).2) ∧
      (a.walk records record best before chain).2.map (fun v => (v.mx, v.record)) <+:
        records.zipIdx record ∧
      ∀ v ∈ (a.walk records record best before chain).2, v.outcomes.length ≤ a.retries + 1 ∧
        v.outcomes = (List.range v.outcomes.length).map (a.check v.record) := by
  induction records generalizing record best before chain with
  | nil => exact ⟨(List.append_nil chain).symm, List.prefix_refl _, nofun⟩
  | cons mx records ih =>
    obtain ⟨hentries, hlength⟩ := a.visit_entries record mx before
    have hvisit := And.intro hlength (a.visit_outcomes record mx before)
    have hlast : ∀ v ∈ [a.visit record mx before], v.outcomes.length ≤ a.retries + 1 ∧
        v.outcomes = (List.range v.outcomes.length).map (a.check v.record) :=
      fun v hv => List.mem_singleton.mp hv ▸ hvisit
    rw [walk, List.zipIdx_cons]
    dsimp only
    rw [hentries]
    split_ifs
    · exact ⟨rfl, List.cons_prefix_cons.mpr ⟨rfl, List.nil_prefix⟩, hlast⟩
    · rw [length_entries]
      obtain ⟨hchain, horder, hrest⟩ := ih (record + 1)
        (better best (a.visit record mx before).verdict)
        (before + (made [a.visit record mx before]).length)
        (chain ++ entries before (made [a.visit record mx before]))
      refine ⟨?_, List.cons_prefix_cons.mpr ⟨rfl, horder⟩, List.forall_mem_cons.mpr
        ⟨hvisit, hrest⟩⟩
      rw [hchain, List.append_assoc, ← entries_append, ← made_cons]
    · exact ⟨rfl, List.cons_prefix_cons.mpr ⟨rfl, List.nil_prefix⟩, hlast⟩

end Attempts

/-! ## The last word -/

/-- Another attempt is made at the host. -/
def repeats (result : CheckResult) : Bool :=
  result.category ≠ "valid".toList && isRetryableSMTPResult result

/-- Another host is asked. -/
def passesOn (result : CheckResult) : Bool :=
  result.category ≠ "valid".toList && shouldAttemptNextMX result

/-- The attempt that no other one follows, of an attempt and those that are left. -/
def lastAttempt (check : Nat → CheckResult) (attempt left : Nat) : Nat :=
  ((List.range' attempt left).find? fun k => !repeats (check k)).getD (attempt + left)

/-- An attempt up to the last that is not repeated is the last. -/
theorem lastAttempt_eq {check : Nat → CheckResult} {attempt left k : Nat} (hle : attempt ≤ k)
    (hlast : k ≤ lastAttempt check attempt left) (hstops : repeats (check k) = false) :
    lastAttempt check attempt left = k := by
  rw [lastAttempt] at hlast ⊢
  cases hfind : (List.range' attempt left).find? fun j => !repeats (check j) with
  | none =>
    rw [hfind, Option.getD_none] at hlast
    rw [Option.getD_none]
    rw [List.find?_range'_eq_none] at hfind
    rcases Nat.lt_or_eq_of_le hlast with hlt | rfl
    · have := hfind k hle hlt
      rw [hstops] at this
      exact nomatch this
    · rfl
  | some m =>
    rw [hfind, Option.getD_some] at hlast
    rw [Option.getD_some]
    rw [List.find?_range'_eq_some] at hfind
    rcases Nat.lt_or_eq_of_le hlast with hlt | rfl
    · have := hfind.2.2 k hle hlt
      rw [hstops] at this
      exact nomatch this
    · rfl

/-- Two results say the same of the address. -/
structure SameVerdict (result outcome : CheckResult) : Prop where
  category : result.category = outcome.category
  reason : result.reason = outcome.reason
  decisionClass : result.decisionClass = outcome.decisionClass

theorem SameVerdict.passesOn {result outcome : CheckResult} (h : SameVerdict result outcome) :
    passesOn result = passesOn outcome := by
  rw [Engine.passesOn, Engine.passesOn, shouldAttemptNextMX, shouldAttemptNextMX, h.category,
    h.reason, h.decisionClass]

/-- The attempts at a host go on to the first that is not repeated, and its outcome is the
verdict on the host. -/
theorem attemptsAt_last (check : Nat → CheckResult) (host : Text) (first : Int)
    (left attempt : Nat) (chain : List AttemptEvidence) :
    attempt + (attemptsAt check host first left attempt chain).2.length =
        lastAttempt check attempt left + 1 ∧
      SameVerdict (attemptsAt check host first left attempt chain).1
        (check (lastAttempt check attempt left)) := by
  induction left generalizing attempt chain with
  | zero =>
    rw [attemptsAt]
    dsimp only
    split_ifs
    · exact ⟨rfl, rfl, rfl, rfl⟩
    · exact ⟨rfl, rfl, rfl, rfl⟩
  | succ left ih =>
    have hnext : repeats (check attempt) = true →
        lastAttempt check attempt (left + 1) = lastAttempt check (attempt + 1) left := by
      intro hrepeats
      rw [lastAttempt, lastAttempt, List.range'_succ, List.find?_cons_of_neg (by simp [hrepeats])]
      congr 1
      omega
    have hstop : repeats (check attempt) = false →
        lastAttempt check attempt (left + 1) = attempt := by
      intro hstops
      rw [lastAttempt, List.range'_succ, List.find?_cons_of_pos (by simp [hstops])]
      rfl
    rw [attemptsAt]
    dsimp only
    split_ifs with hvalid hretry
    · have hvalid : (check attempt).category = "valid".toList := hvalid
      rw [hstop (by rw [repeats, hvalid]; rfl)]
      exact ⟨rfl, rfl, rfl, rfl⟩
    · have hrepeats : repeats (check attempt) = true :=
        Bool.and_eq_true_iff.mpr ⟨decide_eq_true hvalid, hretry⟩
      obtain ⟨hlength, hsame⟩ := ih (attempt + 1)
        (chain ++ [entry (first + attempt) host (check attempt)])
      rw [hnext hrepeats]
      refine ⟨?_, hsame⟩
      rw [List.length_cons, ← hlength, ← Nat.add_assoc]
      exact Nat.add_right_comm ..
    · have hstops : repeats (check attempt) = false :=
        Bool.and_eq_false_iff.mpr (.inr (Bool.not_eq_true _ ▸ hretry))
      rw [hstop hstops]
      exact ⟨rfl, rfl, rfl, rfl⟩

/-- The best rank so far. -/
def rankOf (best : Option CheckResult) : Nat := best.elim 0 fun r => rankCategory r.category

theorem rankOf_better (best : Option CheckResult) (result : CheckResult) :
    rankOf (better best result) = max (rankOf best) (rankCategory result.category) := by
  cases best with
  | none =>
    rw [better]
    split_ifs with hempty
    · rw [hempty]
      rfl
    · exact (Nat.zero_max _).symm
  | some existing =>
    rw [better]
    split_ifs with hless
    · exact (Nat.max_eq_right (Nat.le_of_lt hless)).symm
    · exact (Nat.max_eq_left (Nat.le_of_not_lt hless)).symm

theorem rankCategory_eq_one {category : Text} :
    rankCategory category = 1 ↔ category = "invalid".toList := by
  rw [rankCategory]
  split_ifs with hvalid hrisky hinvalid
  · rw [hvalid]
    decide
  · rw [hrisky]
    decide
  · exact iff_of_true rfl hinvalid
  · exact iff_of_false nofun hinvalid

theorem bestOrTimeout_invalid_iff (best : Option CheckResult) (chain : List AttemptEvidence) :
    (bestOrTimeout best chain).category = "invalid".toList ↔ rankOf best = 1 := by
  cases best with
  | none =>
    have hrisky : ¬ "risky".toList = "invalid".toList := by decide
    exact iff_of_false hrisky nofun
  | some r => exact rankCategory_eq_one.symm

/-- The verdicts of hosts in their order rule the address out: the first that does not pass on
does, or all pass on and none is better than one that does. -/
def EndsInvalid (rank : Nat) (verdicts : List CheckResult) : Prop :=
  match verdicts.find? fun v => !passesOn v with
  | some last => last.category = "invalid".toList
  | none => (verdicts.map fun v => rankCategory v.category).foldl max rank = 1

namespace Attempts

variable (a : Attempts)

/-- The number of attempts at a host that is asked. -/
def attemptsMade (record : Nat) : Nat :=
  if a.admits record then lastAttempt (a.check record) 0 a.retries + 1 else 0

/-- The outcome that is the verdict on a host. -/
def lastOutcome (record : Nat) : CheckResult :=
  if a.admits record then a.check record (lastAttempt (a.check record) 0 a.retries)
  else timeoutResult

theorem visit_last (record : Nat) (mx : MX) (before : Nat) :
    (a.visit record mx before).outcomes.length = a.attemptsMade record ∧
      SameVerdict (a.visit record mx before).verdict (a.lastOutcome record) := by
  rw [attemptsMade, lastOutcome, visit, checkSMTPHost]
  dsimp only
  cases a.admits record with
  | false => exact ⟨rfl, rfl, rfl, rfl⟩
  | true =>
    rw [if_neg (by decide), if_pos rfl, if_pos rfl]
    have hspec := attemptsAt_last (a.check record) mx.name
      (if (before : Int) + 1 ≤ 0 then 1 else before + 1) a.retries 0 []
    rw [Nat.zero_add] at hspec
    exact hspec

/-- A host that does not pass on has the last word, the others leave it to the next. -/
theorem walk_cons (mx : MX) (records : List MX) (record : Nat) (best : Option CheckResult)
    (before : Nat) (chain : List AttemptEvidence) :
    a.walk (mx :: records) record best before chain =
      let v := a.visit record mx before
      let chain := chain ++ v.verdict.attemptChain
      if passesOn v.verdict = true then
        let rest := a.walk records (record + 1) (better best v.verdict)
          (before + v.verdict.attemptChain.length) chain
        (rest.1, v :: rest.2)
      else ({ v.verdict with attemptChain := chain }, [v]) := by
  rw [walk]
  dsimp only
  split_ifs with hvalid hpasses hnext hpasses hpasses
  · simp [passesOn, hvalid] at hpasses
  · rfl
  · rfl
  · exact absurd (Bool.and_eq_true_iff.mpr ⟨decide_eq_true hvalid, hnext⟩) hpasses
  · exact absurd (Bool.and_eq_true_iff.mp hpasses).2 hnext
  · rfl

/-- The hosts are asked up to the first that does not pass on. -/
theorem walk_visits (records : List MX) (record : Nat) (best : Option CheckResult) (before : Nat)
    (chain : List AttemptEvidence) (r k : Nat) :
    (∃ v ∈ (a.walk records record best before chain).2, v.record = r ∧ k < v.outcomes.length) ↔
      record ≤ r ∧ r < record + records.length ∧
        (∀ q, record ≤ q → q < r → passesOn (a.lastOutcome q) = true) ∧ k < a.attemptsMade r := by
  induction records generalizing record best before chain with
  | nil => exact iff_of_false nofun fun h => absurd h.2.1 (Nat.not_lt_of_le h.1)
  | cons mx records ih =>
    obtain ⟨hlength, hsame⟩ := a.visit_last record mx before
    have hfirst : (∃ v ∈ [a.visit record mx before], v.record = r ∧ k < v.outcomes.length) ↔
        record = r ∧ k < a.attemptsMade record := by
      rw [← hlength]
      simp [visit]
    have hpasses := hsame.passesOn
    rw [walk_cons, List.length_cons]
    dsimp only
    split_ifs with hmore
    · rw [hpasses] at hmore
      rw [← List.singleton_append]
      simp only [List.mem_append, or_and_right, exists_or]
      rw [hfirst, ih]
      constructor
      · rintro (⟨rfl, hk⟩ | ⟨hle, hlt, hall, hk⟩)
        · exact ⟨Nat.le_refl _, by omega, fun q hle hlt => absurd hlt (Nat.not_lt_of_le hle), hk⟩
        · refine ⟨by omega, by omega, fun q hq hqr => ?_, hk⟩
          rcases Nat.lt_or_eq_of_le hq with hq | rfl
          · exact hall q hq hqr
          · exact hmore
      · rintro ⟨hle, hlt, hall, hk⟩
        rcases Nat.lt_or_eq_of_le hle with hgt | rfl
        · exact .inr ⟨hgt, by omega, fun q hq hqr => hall q (by omega) hqr, hk⟩
        · exact .inl ⟨rfl, hk⟩
    · rw [hpasses] at hmore
      rw [hfirst]
      constructor
      · rintro ⟨rfl, hk⟩
        exact ⟨Nat.le_refl _, by omega, fun q hle hlt => absurd hlt (Nat.not_lt_of_le hle), hk⟩
      · rintro ⟨hle, -, hall, hk⟩
        rcases Nat.lt_or_eq_of_le hle with hlt | rfl
        · exact absurd (hall record (Nat.le_refl _) hlt) hmore
        · exact ⟨rfl, hk⟩

/-- The result is a verdict that rules the address out exactly if the hosts do. -/
theorem walk_invalid_iff (records : List MX) (record : Nat) (best : Option CheckResult)
    (before : Nat) (chain : List AttemptEvidence) :
    (a.walk records record best before chain).1.category = "invalid".toList ↔
      EndsInvalid (rankOf best) ((List.range' record records.length).map a.lastOutcome) := by
  induction records generalizing record best before chain with
  | nil => exact bestOrTimeout_invalid_iff best chain
  | cons mx records ih =>
    obtain ⟨-, hsame⟩ := a.visit_last record mx before
    have hpasses := hsame.passesOn
    rw [walk_cons, List.length_cons]
    dsimp only
    split_ifs with hmore
    · rw [hpasses] at hmore
      rw [ih, rankOf_better, hsame.category, EndsInvalid, EndsInvalid, List.range'_succ,
        List.map_cons, List.find?_cons_of_neg (by simp [hmore]), List.map_cons, List.foldl_cons]
    · rw [hpasses] at hmore
      rw [EndsInvalid, List.range'_succ, List.map_cons,
        List.find?_cons_of_pos (by simp [hmore]), hsame.category]

end Attempts

/-! ## What the chain tells -/

/-- A chain that tells what was done: it lists every attempt that was made, numbered from one
on; the hosts are asked in the order of the records, the attempts at each of them one after the
other. -/
structure Lawful (mxRecords : List MX) (maxAttempts retries : Nat) (chain : List AttemptEvidence)
    (visits : List Visit) : Prop where
  complete : chain = entries 0 (made visits)
  numbered : chain.map AttemptEvidence.attemptNumber =
    (List.range chain.length).map fun k => ((k + 1 : Nat) : Int)
  named : (∀ call ∈ made visits, trimSpace call.2.mxHost = []) →
    chain.map AttemptEvidence.mxHost = (made visits).map fun call => trimSpace call.1
  inOrder : visits.map (fun v => (v.mx, v.record)) <+: (mxRecords.take maxAttempts).zipIdx
  preferred : mxRecords.Pairwise (fun mx other => mx.pref ≤ other.pref) →
    visits.Pairwise fun v w => v.mx.pref ≤ w.mx.pref
  bounded : chain.length ≤ maxAttempts * (retries + 1)

theorem map_entries {β : Type} {f : AttemptEvidence → β} {g : Nat → Text × CheckResult → β}
    {calls : List (Text × CheckResult)}
    (h : ∀ k, ∀ call ∈ calls, f (entry (0 + k + 1 : Nat) call.1 call.2) = g k call) :
    (entries 0 calls).map f = calls.mapIdx g := by
  refine List.ext_getElem (by simp [entries]) fun k hk _ => ?_
  rw [List.getElem_map, List.getElem_mapIdx]
  simp only [entries, List.getElem_mapIdx]
  exact h k _ (List.getElem_mem _)

theorem length_made_le {visits : List Visit} {bound : Nat}
    (h : ∀ v ∈ visits, v.outcomes.length ≤ bound) :
    (made visits).length ≤ visits.length * bound := by
  induction visits with
  | nil => exact Nat.zero_le _
  | cons v visits ih =>
    obtain ⟨hv, hrest⟩ := List.forall_mem_cons.mp h
    have hone : (made [v]).length = v.outcomes.length := by simp [made]
    have hmore := ih hrest
    rw [made_cons, List.length_append, List.length_cons, Nat.succ_mul]
    omega

/-- Two hosts, the first of which defers the mail, with one retry. -/
def deferring : Attempts where
  retryableNetworkRetries := 1
  check record _ :=
    if record = 0 then
      { category := "risky".toList, reason := "smtp_tempfail".toList,
        decisionClass := "retryable".toList }
    else
      { category := "valid".toList, reason := "rcpt_ok".toList,
        decisionClass := "deliverable".toList }

def twoHosts : List MX := [⟨"mx1.example.".toList, 10⟩, ⟨"mx2.example.".toList, 20⟩]

end ValidEmailVerifier.Engine
