/-
# `Smtp.Reply` — what an SMTP server answers and what the prober makes of it

The reply of a server, the categories and decision classes of a verdict, and the
verdict itself with the evidence the worker writes into the reason column.
-/
import ValidEmailVerifier.Lib.GoStrings
import ValidEmailVerifier.Pipeline.Worker

namespace ValidEmailVerifier.Smtp

/-- `smtpReply`, over the strings of one representation. -/
structure SmtpReply (S : Type) where
  code : Int := 0
  enhancedCode : S
  message : S
  lines : List S
  deriving DecidableEq, Repr

/-- The category of a verdict. -/
inductive Category where
  | valid | invalid | risky
  deriving DecidableEq, Repr

/-- `decision_class`. -/
inductive DecisionClass where
  | deliverable | undeliverable | retryable | policyBlocked | unknown
  deriving DecidableEq, Repr

/-- `ReplyEvidence`, as far as a reply fills it. -/
structure ReplyEvidence where
  reasonCode : Text
  reasonTag : Text
  evidenceStrength : Text
  smtpCode : Int
  enhancedCode : Text
  providerProfile : Text
  decisionClass : DecisionClass
  confidenceHint : Text
  deriving DecidableEq, Repr

/-- `Result`, as far as a reply fills it. -/
structure Result where
  category : Category
  reason : Text
  reasonCode : Text
  reasonTag : Text
  decisionClass : DecisionClass
  smtpCode : Int
  enhancedCode : Text
  providerProfile : Text
  retryAfterSecond : Int
  decisionConfidence : Text
  evidenceStrength : Text
  retryStrategy : Text
  policyVersion : Text := []
  matchedRuleId : Text := []
  evidence : ReplyEvidence
  deriving DecidableEq, Repr

/-- A verdict that rules the address out. -/
def Result.Rejects (r : Result) : Prop :=
  r.category = .invalid ∨ r.decisionClass = .undeliverable

/-- A verdict that accepts the address. -/
def Result.Accepts (r : Result) : Prop :=
  r.category = .valid ∨ r.decisionClass = .deliverable

end ValidEmailVerifier.Smtp
