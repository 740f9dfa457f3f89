/-
# `Engine.RecipientProbe` — recipients that a host accepts

The prober names the recipient to a host, and, where it looks for hosts that take every address,
a made-up one after it.  A reply of success to the first is a valid address only if no rule of
the profile says otherwise and the second is refused; else the host is left undecided and the
next one is asked.

The next one has the last word: where it refuses the address, the address is invalid although a
host before it took it (`acceptanceKept_iff`).
-/
import ValidEmailVerifier.Engine.MxAttempts
import ValidEmailVerifier.Engine.SessionReplies

namespace ValidEmailVerifier.Engine

open GoJson GoStrings Worker
open Smtp (SmtpReply Command detectSMTPProviderProfile normalizedEvidenceStrength)

/-! ## A session -/

/-- What comes of a command: a reply, or why there is none. -/
inductive Answer where
  | notSent (timeout : Bool)
  | notRead (timeout : Bool)
  | malformed
  | replied (reply : SmtpReply Text)

/-- The reply, or the result that stands for a failure. -/
def Answer.got : Answer → Except CheckResult (SmtpReply Text)
  | .notSent true => .error { category := "risky".toList, reason := "smtp_timeout".toList }
  | .notSent false => .error { category := "risky".toList, reason := "smtp_tempfail".toList }
  | .notRead true =>
      .error
        { category := "risky".toList, reason := "smtp_timeout".toList
          reasonCode := "smtp_timeout".toList, decisionClass := "retryable".toList }
  | .notRead false =>
      .error
        { category := "risky".toList, reason := "smtp_tempfail".toList
          reasonCode := "smtp_read_error".toList, decisionClass := "retryable".toList }
  | .malformed =>
      .error
        { category := "risky".toList, reason := "smtp_tempfail".toList
          reasonCode := "smtp_malformed_reply".toList, decisionClass := "unknown".toList }
  | .replied reply => .ok reply

/-- A session with a host: whether it comes about, and the answers in it. -/
structure Session where
  admitted : Bool := true
  connected : Bool := true
  banner : Answer
  ehlo : Answer
  helo : Answer
  mailFrom : Answer
  rcpt : Answer
  probe : Answer

/-- The verdict on a reply as the result of a check. -/
def ofReply (r : Result) : CheckResult where
  category := r.category
  reason := r.reason
  decisionClass := r.decisionClass
  reasonCode := r.reasonCode
  reasonTag := r.reasonTag
  evidenceStrength := r.evidenceStrength
  smtpCode := r.smtpCode
  enhancedCode := r.enhancedCode
  providerProfile := r.providerProfile
  decisionConfidence := r.decisionConfidence
  retryStrategy := r.retryStrategy
  evidence := some
    { confidenceHint := r.evidence.confidenceHint
      evidenceStrength := r.evidence.evidenceStrength }

def applySessionContext (result : CheckResult) : CheckResult :=
  let evidence := result.evidence.getD {}
  let hint := ifBlank evidence.confidenceHint result.decisionConfidence
  let evidence :=
    { evidence with
      confidenceHint := hint
      evidenceStrength := ifBlank evidence.evidenceStrength (normalizedEvidenceStrength hint)
      mxHost := ifBlank evidence.mxHost result.mxHost
      attemptNumber :=
        if evidence.attemptNumber ≤ 0 then result.attemptNumber else evidence.attemptNumber
      attemptRoute := ifBlank evidence.attemptRoute result.attemptRoute }
  { result with
    evidence := some evidence
    evidenceStrength := ifBlank result.evidenceStrength evidence.evidenceStrength }

/-- What follows the last `@`. -/
def domainOf (email : Text) : Text :=
  if '@' ∈ email then (email.reverse.takeWhile (· ≠ '@')).reverse else []

/-- What a `NetSMTPProber` looks at. -/
structure Prober (F : Type) where
  providerProfile : Text := []
  mailFromAddress : Text
  catchAllDetectionEnabled : Bool
  replyPolicyEngine : Option (ProviderReplyPolicyEngine F)
  adaptiveRetryEnable : Bool := false

namespace Prober

variable {F : Type} [Floats F] (p : Prober F)

/-- The result that an answer before the recipient ends the session with, if it does. -/
def stopsAt (command : Command) (host : Text) (answer : Answer) : Option CheckResult :=
  match answer.got with
  | .error failure => some (applySessionContext failure)
  | .ok reply =>
      (classifySMTPSessionReply command reply p.providerProfile host p.replyPolicyEngine
        p.adaptiveRetryEnable).map fun result => applySessionContext (ofReply result)

/-- `HELO` is tried when the server does not know `EHLO`; the result is empty when the session
goes on. -/
def sayHello (host : Text) (s : Session) : CheckResult :=
  let stop :=
    match s.ehlo.got with
    | .error failure => some (applySessionContext failure)
    | .ok reply =>
        if 500 ≤ reply.code then p.stopsAt .helo host s.helo
        else p.stopsAt .ehlo host s.ehlo
  stop.getD { category := [], reason := [] }

def checkRcpt (host : Text) (answer : Answer) (allowValid : Bool) : CheckResult :=
  match answer.got with
  | .error failure => applySessionContext failure
  | .ok reply =>
      applySessionContext (ofReply (classifySMTPRcptReply reply p.providerProfile host allowValid
        p.replyPolicyEngine p.adaptiveRetryEnable))

/-- The recipient was accepted; the answer is the one to a made-up recipient. -/
def checkCatchAll (host email : Text) (probe : Answer) : CheckResult :=
  if domainOf email = [] then
    applySessionContext { category := "risky".toList, reason := "smtp_tempfail".toList }
  else
    let result := p.checkRcpt host probe true
    if result.category = "valid".toList then
      applySessionContext
        { category := "risky".toList
          reason := "catch_all_high_confidence".toList
          reasonCode := "catch_all_high_confidence".toList
          decisionClass := "unknown".toList
          decisionConfidence := "high".toList
          retryStrategy := "none".toList
          providerProfile := result.providerProfile
          smtpCode := result.smtpCode
          enhancedCode := result.enhancedCode }
    else if result.category = "invalid".toList then
      applySessionContext
        { category := "valid".toList
          reason := "rcpt_ok".toList
          reasonCode := "rcpt_ok".toList
          decisionClass := "deliverable".toList
          decisionConfidence := "high".toList
          retryStrategy := "none".toList
          providerProfile := result.providerProfile }
    else if result.decisionClass ∈ ["retryable".toList, "policy_blocked".toList,
        "unknown".toList] then
      applySessionContext
        { category := "risky".toList
          reason := "catch_all_medium_confidence".toList
          reasonCode := "catch_all_medium_confidence".toList
          decisionClass := "unknown".toList
          decisionConfidence := "medium".toList
          retryStrategy := result.retryStrategy
          providerProfile := result.providerProfile
          smtpCode := result.smtpCode
          enhancedCode := result.enhancedCode
          evidence := result.evidence }
    else
      applySessionContext
        { category := "risky".toList
          reason := "catch_all_low_confidence".toList
          reasonCode := "catch_all_low_confidence".toList
          decisionClass := "unknown".toList
          decisionConfidence := "low".toList
          retryStrategy := "none".toList
          providerProfile := result.providerProfile
          smtpCode := result.smtpCode
          enhancedCode := result.enhancedCode
          evidence := result.evidence }

/-- The result of a session that ends before the recipient is named. -/
def beforeRcpt (host email : Text) (s : Session) : Option CheckResult :=
  if email = [] ∨ p.mailFromAddress = [] then
    some (applySessionContext { category := "risky".toList, reason := "smtp_tempfail".toList })
  else if s.admitted = false then
    some (applySessionContext { category := "risky".toList, reason := "smtp_timeout".toList })
  else if s.connected = false then
    some (applySessionContext
      { category := "risky".toList, reason := "smtp_connect_timeout".toList })
  else
    match p.stopsAt .banner host s.banner with
    | some result => some result
    | none =>
        let hello := p.sayHello host s
        if hello.category ≠ [] then some (applySessionContext hello)
        else p.stopsAt .mailFrom host s.mailFrom

/-- `Check` of a `NetSMTPProber`. -/
def check (host email : Text) (s : Session) : CheckResult :=
  match p.beforeRcpt host email s with
  | some result => result
  | none =>
      let rcptResult := p.checkRcpt host s.rcpt true
      if rcptResult.category ≠ "valid".toList then applySessionContext rcptResult
      else if p.catchAllDetectionEnabled then
        applySessionContext (p.checkCatchAll host email s.probe)
      else applySessionContext rcptResult

end Prober
@[simp] theorem category_applySessionContext (result : CheckResult) :
    (applySessionContext result).category = result.category := rfl

/-! ## Acceptances -/

namespace Prober

variable {F : Type} [Floats F] (p : Prober F)

/-- The host takes the recipient: the reply to its name is one of success. -/
def Accepted (host email : Text) (s : Session) : Prop :=
  p.beforeRcpt host email s = none ∧
    ∃ reply, s.rcpt = .replied reply ∧ 200 ≤ reply.code ∧ reply.code < 300

/-- The reply to the recipient is not taken for what it says: a rule that does not accept the
address decides on it, or the host may be one that takes every address. -/
def Undecided (host email : Text) (s : Session) : Prop :=
  (∃ reply, s.rcpt = .replied reply ∧
      ∃ rule ∈ p.replyPolicyEngine.bind fun engine =>
        decidingRule engine reply p.providerProfile host,
        trimSpace rule.category ≠ "valid".toList) ∨
    (p.catchAllDetectionEnabled = true ∧
      (domainOf email = [] ∨ (p.checkRcpt host s.probe true).category ≠ "invalid".toList))

end Prober

section

variable {F : Type} [Floats F]

/-- A reply of success is a valid address exactly if no rule says otherwise. -/
theorem rcptReply_valid_iff {engine : Option (ProviderReplyPolicyEngine F)}
    {reply : SmtpReply Text} (hcode : 200 ≤ reply.code ∧ reply.code < 300)
    (providerHint host : Text) (adaptiveRetryEnabled : Bool) :
    (classifySMTPRcptReply reply providerHint host true engine
        adaptiveRetryEnabled).category = "valid".toList ↔
      ∀ rule ∈ engine.bind fun engine => decidingRule engine reply providerHint host,
        trimSpace rule.category = "valid".toList := by
  have hsuccess : classifySMTPWithPolicyEngine .rcptTo reply
        (detectSMTPProviderProfile providerHint host reply.message) engine
        adaptiveRetryEnabled = none →
      (classifySMTPRcptReply reply providerHint host true engine
        adaptiveRetryEnabled).category = "valid".toList := by
    intro hnone
    rw [classifySMTPRcptReply]
    simp only [hnone, if_pos hcode]
    rfl
  cases engine with
  | none => exact iff_of_true (hsuccess rfl) (by simp)
  | some engine =>
    rw [Option.bind_some, decidingRule]
    cases henabled : engine.enabled with
    | false =>
      rw [if_neg Bool.false_ne_true]
      exact iff_of_true (hsuccess (if_pos henabled)) (by simp)
    | true =>
      rw [if_pos rfl]
      cases hmatch : matchProviderReplyRule (lookupProviderReplyProfile (some engine)
          (detectSMTPProviderProfile providerHint host reply.message)) reply with
      | none =>
        refine iff_of_true (hsuccess ?_) (by simp)
        have hon : ¬ engine.enabled = false := by rw [henabled]; simp
        simp only [classifySMTPWithPolicyEngine, if_neg hon, hmatch]
      | some rule =>
        have hrule := classifySMTPWithPolicyEngine_rule .rcptTo adaptiveRetryEnabled henabled
          hmatch
        rw [if_neg fun h => h.1 rfl, Option.map_eq_some_iff] at hrule
        obtain ⟨result, hresult, hcategory⟩ := hrule
        have hclassify : classifySMTPRcptReply reply providerHint host true (some engine)
            adaptiveRetryEnabled = result := by
          rw [classifySMTPRcptReply]
          simp only [hresult, Bool.true_eq_false, and_false, if_false]
        have hverdict : (ruleVerdict .rcptTo rule).1 = trimmedOr rule.category "risky".toList := by
          rw [ruleVerdict, if_neg fun h => (by cases h.1)]
        rw [hclassify, hcategory, hverdict, trimmedOr_eq_iff (by decide) (by decide)]
        exact ⟨fun h rule' heq => Option.some.inj heq ▸ h, fun h => h rule rfl⟩

end

namespace Prober

variable {F : Type} [Floats F] (p : Prober F) {host email : Text} {s : Session}

theorem checkCatchAll_valid_iff {probe : Answer} :
    (p.checkCatchAll host email probe).category = "valid".toList ↔
      domainOf email ≠ [] ∧ (p.checkRcpt host probe true).category = "invalid".toList := by
  have hrisky : ¬ "risky".toList = "valid".toList := by decide
  rw [checkCatchAll]
  dsimp only
  split_ifs with hdomain hvalid hinvalid
  · exact iff_of_false hrisky fun h => h.1 hdomain
  · rw [hvalid]
    exact iff_of_false hrisky fun h => absurd h.2 (by decide)
  · exact iff_of_true rfl ⟨hdomain, hinvalid⟩
  · exact iff_of_false hrisky fun h => hinvalid h.2
  · exact iff_of_false hrisky fun h => hinvalid h.2

/-- A recipient that was accepted is a valid address exactly if it is not left undecided. -/
theorem check_valid_iff (h : p.Accepted host email s) :
    (p.check host email s).category = "valid".toList ↔ ¬ p.Undecided host email s := by
  obtain ⟨hbefore, reply, hrcpt, hcode⟩ := h
  have hreply : (p.checkRcpt host s.rcpt true).category = "valid".toList ↔
      ∀ rule ∈ p.replyPolicyEngine.bind fun engine =>
        decidingRule engine reply p.providerProfile host,
        trimSpace rule.category = "valid".toList := by
    rw [hrcpt]
    exact rcptReply_valid_iff hcode p.providerProfile host p.adaptiveRetryEnable
  have hrules : (∃ reply, s.rcpt = .replied reply ∧
      ∃ rule ∈ p.replyPolicyEngine.bind fun engine =>
        decidingRule engine reply p.providerProfile host,
        trimSpace rule.category ≠ "valid".toList) ↔
      (p.checkRcpt host s.rcpt true).category ≠ "valid".toList := by
    rw [Ne, hreply]
    constructor
    · rintro ⟨reply', hreply', rule, hrule, hne⟩ hall
      obtain rfl := Answer.replied.inj (hrcpt.symm.trans hreply')
      exact hne (hall rule hrule)
    · intro hnot
      obtain ⟨rule, hrule⟩ := not_forall.mp hnot
      obtain ⟨hmem, hne⟩ := Classical.not_imp.mp hrule
      exact ⟨reply, hrcpt, rule, hmem, hne⟩
  rw [Undecided, hrules, check, hbefore]
  dsimp only
  split_ifs with hvalid hcatchAll
  · exact iff_of_false hvalid fun hnot => hnot (.inl hvalid)
  · rw [category_applySessionContext, checkCatchAll_valid_iff, not_or, not_and_or]
    exact ⟨fun h => ⟨hvalid, .inr (not_or.mpr ⟨h.1, not_not.mpr h.2⟩)⟩,
      fun h => (not_or.mp (h.2.resolve_left fun hoff => hoff hcatchAll)).imp_right not_not.mp⟩
  · rw [not_not] at hvalid
    exact iff_of_true hvalid (not_or.mpr ⟨not_not.mpr hvalid, fun h => hcatchAll h.1⟩)

end Prober

/-! ## The hosts of a domain -/

/-- A probe of an address at the hosts of its domain, with the session of each attempt at each
of them. -/
structure Probing (F : Type) where
  prober : Prober F
  email : Text
  mxRecords : List MX
  maxMXAttempts : Int := 0
  retryableNetworkRetries : Int := 0
  admits : Nat → Bool := fun _ => true
  session : Nat → Nat → Session

namespace Probing

variable {F : Type} [Floats F] (p : Probing F)

def host (record : Nat) : Text := p.mxRecords[record]?.elim [] MX.name

def attempts : Attempts where
  maxMXAttempts := p.maxMXAttempts
  retryableNetworkRetries := p.retryableNetworkRetries
  admits := p.admits
  check record attempt := p.prober.check (p.host record) p.email (p.session record attempt)

def result : CheckResult := (p.attempts.checkSMTP p.mxRecords).1

def visits : List Visit := (p.attempts.checkSMTP p.mxRecords).2

/-- The host takes the recipient in an attempt. -/
def AcceptedAt (record attempt : Nat) : Prop :=
  p.prober.Accepted (p.host record) p.email (p.session record attempt)

/-- One of the hosts that were asked took the recipient. -/
def SomeAccepted : Prop :=
  ∃ v ∈ p.visits, ∃ attempt < v.outcomes.length, p.AcceptedAt v.record attempt

/-- The number of hosts that may be asked. -/
def hosts : Nat := min p.attempts.maxAttempts p.mxRecords.length

/-- The attempt is made: the hosts before pass on, and the attempts before are repeated. -/
def Made (record attempt : Nat) : Prop :=
  record < p.hosts ∧ (∀ before < record, passesOn (p.attempts.lastOutcome before) = true) ∧
    attempt < p.attempts.attemptsMade record

/-- An acceptance is left undecided, and the last word is a rejection. -/
def Overruled : Prop :=
  (∃ record attempt, p.Made record attempt ∧ p.AcceptedAt record attempt ∧
      p.prober.Undecided (p.host record) p.email (p.session record attempt)) ∧
    EndsInvalid 0 ((List.range p.hosts).map p.attempts.lastOutcome)

theorem someAccepted_iff :
    p.SomeAccepted ↔ ∃ record attempt, p.Made record attempt ∧ p.AcceptedAt record attempt := by
  have hvisits := p.attempts.walk_visits (p.mxRecords.take p.attempts.maxAttempts) 0 none 0 []
  simp only [Nat.zero_add, List.length_take, Nat.zero_le, true_and, forall_const] at hvisits
  constructor
  · rintro ⟨v, hv, attempt, hlt, haccepted⟩
    exact ⟨v.record, attempt, (hvisits v.record attempt).mp ⟨v, hv, rfl, hlt⟩, haccepted⟩
  · rintro ⟨record, attempt, hmade, haccepted⟩
    obtain ⟨v, hv, rfl, hlt⟩ := (hvisits record attempt).mpr hmade
    exact ⟨v, hv, attempt, hlt, haccepted⟩

theorem result_invalid_iff :
    p.result.category = "invalid".toList ↔
      EndsInvalid 0 ((List.range p.hosts).map p.attempts.lastOutcome) := by
  have hinvalid :=
    p.attempts.walk_invalid_iff (p.mxRecords.take p.attempts.maxAttempts) 0 none 0 []
  rw [List.length_take, ← List.range_eq_range'] at hinvalid
  exact hinvalid

/-- A valid outcome of an attempt that is made is the verdict on its host, and no other host is
asked. -/
theorem not_endsInvalid_of_valid {record attempt : Nat} (hmade : p.Made record attempt)
    (hvalid : (p.attempts.check record attempt).category = "valid".toList) :
    ¬ EndsInvalid 0 ((List.range p.hosts).map p.attempts.lastOutcome) := by
  obtain ⟨hhost, hpass, hattempt⟩ := hmade
  have hstops : repeats (p.attempts.check record attempt) = false := by
    rw [repeats, hvalid]
    rfl
  have hlast : p.attempts.lastOutcome record = p.attempts.check record attempt := by
    rw [Attempts.attemptsMade] at hattempt
    rw [Attempts.lastOutcome]
    split_ifs at hattempt ⊢
    · rw [lastAttempt_eq (Nat.zero_le _) (Nat.le_of_lt_succ hattempt) hstops]
    · exact absurd hattempt (Nat.not_lt_zero _)
  have hfind : (List.range p.hosts).find? (fun r => !passesOn (p.attempts.lastOutcome r)) =
      some record := by
    rw [List.find?_range_eq_some]
    refine ⟨?_, List.mem_range.mpr hhost, fun before hbefore => ?_⟩
    · rw [hlast, passesOn, hvalid]
      rfl
    · rw [hpass before hbefore]
      rfl
  rw [EndsInvalid, List.find?_map, Function.comp_def, hfind, Option.map_some]
  dsimp only
  rw [hlast, hvalid]
  decide

/-- No rejection overrules an acceptance exactly if the rejection is not the last word or no
acceptance is left undecided. -/
theorem acceptanceKept_iff :
    (p.SomeAccepted → p.result.category ≠ "invalid".toList) ↔ ¬ p.Overruled := by
  rw [someAccepted_iff, Ne, result_invalid_iff, Overruled, not_and]
  constructor
  · rintro hkept ⟨record, attempt, hmade, haccepted, -⟩
    exact hkept ⟨record, attempt, hmade, haccepted⟩
  · rintro hdecided ⟨record, attempt, hmade, haccepted⟩
    by_cases hundecided :
        p.prober.Undecided (p.host record) p.email (p.session record attempt)
    · exact hdecided ⟨record, attempt, hmade, haccepted, hundecided⟩
    · exact p.not_endsInvalid_of_valid hmade
        ((p.prober.check_valid_iff haccepted).mpr hundecided)

end Probing

/-- A host that takes every recipient, before one that knows that there is no such mailbox. -/
def catchAllFirst : Probing Number where
  prober :=
    { mailFromAddress := "probe@checker.example".toList
      catchAllDetectionEnabled := true
      replyPolicyEngine := none }
  email := "nobody@example.org".toList
  mxRecords := [⟨"mx1.example.org.".toList, 10⟩, ⟨"mx2.example.org.".toList, 20⟩]
  session record _ :=
    let ok : Answer := .replied ⟨250, [], "ok".toList, ["250 ok".toList]⟩
    { banner := .replied ⟨220, [], "ready".toList, ["220 ready".toList]⟩
      ehlo := ok
      helo := ok
      mailFrom := ok
      rcpt :=
        if record = 0 then ok
        else .replied ⟨550, "5.1.1".toList, "5.1.1 no such user".toList,
          ["550 5.1.1 no such user".toList]⟩
      probe := ok }

/-- The first host takes the recipient, and the address is invalid. -/
theorem acceptanceKept_fails : ¬ ∀ p : Probing Number,
    p.SomeAccepted → p.result.category ≠ "invalid".toList := by
  intro hall
  refine hall catchAllFirst (catchAllFirst.someAccepted_iff.mpr ⟨0, 0, ?_, ?_⟩) ?_
  · exact ⟨by decide, fun before h => absurd h (Nat.not_lt_zero _), Nat.succ_pos _⟩
  · exact ⟨by decide +kernel, _, rfl, by decide, by decide⟩
  · decide +kernel

end ValidEmailVerifier.Engine
