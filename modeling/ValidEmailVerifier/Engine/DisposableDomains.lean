/-
# `Engine.DisposableDomains` — the domains that are given away

`isDisposableDomain` looks for a domain, and then for what follows its first dot, and so on,
in the set of disposable domains.  Each turn of the loop leaves a shorter domain, so it ends
on every string; and the turns meet each suffix that begins at a label, except for the empty
one behind a last dot, which no set of domains has.
-/
import Mathlib.Data.Finset.Card

namespace ValidEmailVerifier.Engine

/-- A string of Go is its bytes. -/
abbrev GoBytes := List UInt8

/-- `"."`. -/
def dotByte : UInt8 := 46

/-- One turn of the loop: an answer, or the domain of the next turn. -/
def disposableTurn (disposableDomains : Finset GoBytes) (domain : GoBytes) : Bool ⊕ GoBytes :=
  match domain.idxOf? dotByte with
  | none => .inl false
  | some dot =>
      if dot + 1 ≥ domain.length then .inl false
      else if domain.drop (dot + 1) ∈ disposableDomains then .inl true
      else .inr (domain.drop (dot + 1))

/-- So many turns of the loop at most: there is no answer while it goes on. -/
def disposableLoop (disposableDomains : Finset GoBytes) : Nat → GoBytes → Option Bool
  | 0, _ => none
  | turns + 1, domain =>
      match disposableTurn disposableDomains domain with
      | .inl answer => some answer
      | .inr rest => disposableLoop disposableDomains turns rest

def isDisposableDomain (disposableDomains : Finset GoBytes) (turns : Nat) (domain : GoBytes) :
    Option Bool :=
  if disposableDomains.card = 0 ∨ domain = [] then some false
  else if domain ∈ disposableDomains then some true
  else disposableLoop disposableDomains turns domain

/-- A suffix that begins at a label is in the set. -/
def SuffixListed (disposableDomains : Finset GoBytes) (domain : GoBytes) : Prop :=
  ∃ front suffix, domain = front ++ dotByte :: suffix ∧ suffix ∈ disposableDomains

/-! ## The suffixes of a domain -/

/-- The domain is cut at its first dot. -/
theorem split_of_idxOf? {domain : GoBytes} {dot : Nat} (h : domain.idxOf? dotByte = some dot) :
    domain = domain.take dot ++ dotByte :: domain.drop (dot + 1) ∧ dotByte ∉ domain.take dot := by
  obtain ⟨hlt, hget, hbefore⟩ := List.idxOf?_eq_some_iff.mp h
  constructor
  · conv_lhs => rw [← List.take_append_drop dot domain, List.drop_eq_getElem_cons hlt, hget]
  · intro hmem
    obtain ⟨i, hi, hat⟩ := List.getElem_of_mem hmem
    rw [List.getElem_take] at hat
    rw [List.length_take] at hi
    exact hbefore i (by omega) hat

/-- A suffix that begins at a label begins behind the first dot, or is one of what is there. -/
theorem suffixListed_append {disposableDomains : Finset GoBytes} {label rest : GoBytes}
    (hlabel : dotByte ∉ label) : SuffixListed disposableDomains (label ++ dotByte :: rest) ↔
      rest ∈ disposableDomains ∨ SuffixListed disposableDomains rest := by
  constructor
  · rintro ⟨front, suffix, heq, hmem⟩
    obtain ⟨more, hfront, hrest⟩ | ⟨more, hshort, hrest⟩ := List.append_eq_append_iff.mp heq
    · cases more with
      | nil =>
        obtain ⟨-, rfl⟩ := List.cons.inj hrest
        exact .inl hmem
      | cons b more =>
        obtain ⟨-, rfl⟩ := List.cons.inj hrest
        exact .inr ⟨more, suffix, rfl, hmem⟩
    · cases more with
      | nil =>
        obtain ⟨-, rfl⟩ := List.cons.inj hrest
        exact .inl hmem
      | cons b more =>
        obtain ⟨rfl, -⟩ := List.cons.inj hrest
        exact absurd (hshort ▸ List.mem_append_right _ (.head _)) hlabel
  · rintro (hmem | ⟨front, suffix, rfl, hmem⟩)
    · exact ⟨label, rest, rfl, hmem⟩
    · exact ⟨label ++ dotByte :: front, suffix, by simp, hmem⟩

theorem not_suffixListed_of_notMem {disposableDomains : Finset GoBytes} {domain : GoBytes}
    (h : dotByte ∉ domain) : ¬ SuffixListed disposableDomains domain := by
  rintro ⟨front, suffix, rfl, -⟩
  exact h (List.mem_append_right _ (.head _))

/-! ## The loop -/

/-- A turn ends the search with what holds of the suffixes, or leaves a shorter domain of which
the same holds. -/
theorem disposableTurn_spec {disposableDomains : Finset GoBytes} (hne : [] ∉ disposableDomains)
    (domain : GoBytes) :
    (∃ answer, disposableTurn disposableDomains domain = .inl answer ∧
      (answer = true ↔ SuffixListed disposableDomains domain)) ∨
    ∃ rest, disposableTurn disposableDomains domain = .inr rest ∧ rest.length < domain.length ∧
      (SuffixListed disposableDomains rest ↔ SuffixListed disposableDomains domain) := by
  rw [disposableTurn]
  cases hdot : domain.idxOf? dotByte with
  | none =>
    have hnot : ¬ SuffixListed disposableDomains domain :=
      not_suffixListed_of_notMem (List.idxOf?_eq_none_iff.mp hdot)
    exact .inl ⟨false, rfl, iff_of_false Bool.false_ne_true hnot⟩
  | some dot =>
    obtain ⟨hsplit, hlabel⟩ := split_of_idxOf? hdot
    have hlisted : SuffixListed disposableDomains domain ↔
        domain.drop (dot + 1) ∈ disposableDomains ∨
          SuffixListed disposableDomains (domain.drop (dot + 1)) := by
      conv_lhs => rw [hsplit]
      exact suffixListed_append hlabel
    by_cases hend : dot + 1 ≥ domain.length
    · left
      refine ⟨false, if_pos hend, iff_of_false Bool.false_ne_true ?_⟩
      rw [hlisted, List.drop_eq_nil_of_le hend]
      rintro (hmem | hsuffix)
      · exact hne hmem
      · exact not_suffixListed_of_notMem List.not_mem_nil hsuffix
    · by_cases hmem : domain.drop (dot + 1) ∈ disposableDomains
      · left
        refine ⟨true, ?_, iff_of_true rfl (hlisted.mpr (.inl hmem))⟩
        simp only [if_neg hend, if_pos hmem]
      · right
        refine ⟨domain.drop (dot + 1), ?_, ?_, ?_⟩
        · simp only [if_neg hend, if_neg hmem]
        · rw [List.length_drop]
          omega
        · rw [hlisted]
          exact ⟨.inr, fun h => h.resolve_left hmem⟩

/-- As many turns as the domain is long, and one, are enough. -/
theorem disposableLoop_spec {disposableDomains : Finset GoBytes} (hne : [] ∉ disposableDomains)
    {turns : Nat} {domain : GoBytes} (hturns : domain.length < turns) :
    ∃ answer, disposableLoop disposableDomains turns domain = some answer ∧
      (answer = true ↔ SuffixListed disposableDomains domain) := by
  induction turns generalizing domain with
  | zero => exact absurd hturns (Nat.not_lt_zero _)
  | succ turns ih =>
    rw [disposableLoop]
    rcases disposableTurn_spec hne domain with ⟨answer, hturn, hiff⟩ | ⟨rest, hturn, hlt, hiff⟩
    · rw [hturn]
      exact ⟨answer, rfl, hiff⟩
    · rw [hturn]
      obtain ⟨answer, hloop, hrest⟩ := ih (Nat.lt_of_lt_of_le hlt (Nat.le_of_lt_succ hturns))
      exact ⟨answer, hloop, hrest.trans hiff⟩

/-- **The loop ends on every string**, and finds the domain exactly if it is in the set, or a
suffix that begins at a label is. -/
theorem isDisposableDomain_spec {disposableDomains : Finset GoBytes}
    (hne : [] ∉ disposableDomains) (domain : GoBytes) :
    ∃ answer, (∀ turns, domain.length < turns →
        isDisposableDomain disposableDomains turns domain = some answer) ∧
      (answer = true ↔ domain ∈ disposableDomains ∨ SuffixListed disposableDomains domain) := by
  by_cases hnone : disposableDomains.card = 0 ∨ domain = []
  · refine ⟨false, fun turns _ => if_pos hnone, iff_of_false Bool.false_ne_true ?_⟩
    rcases hnone with hempty | rfl
    · rw [Finset.card_eq_zero] at hempty
      subst hempty
      rintro (hmem | ⟨_, _, -, hmem⟩)
      · exact Finset.notMem_empty _ hmem
      · exact Finset.notMem_empty _ hmem
    · rintro (hmem | hsuffix)
      · exact hne hmem
      · exact not_suffixListed_of_notMem List.not_mem_nil hsuffix
  · by_cases hmem : domain ∈ disposableDomains
    · refine ⟨true, fun turns _ => ?_, iff_of_true rfl (.inl hmem)⟩
      rw [isDisposableDomain, if_neg hnone, if_pos hmem]
    · obtain ⟨answer, hloop, hiff⟩ := disposableLoop_spec hne (Nat.lt_succ_self domain.length)
      refine ⟨answer, fun turns hturns => ?_, ?_⟩
      · obtain ⟨other, hother, hsame⟩ := disposableLoop_spec hne hturns
        rw [isDisposableDomain, if_neg hnone, if_neg hmem, hother]
        exact congrArg some (Bool.eq_iff_iff.mpr (hsame.trans hiff.symm))
      · rw [hiff]
        exact ⟨.inr, fun h => h.resolve_left hmem⟩

/-- The bytes of an ASCII text. -/
def asciiBytes (s : String) : GoBytes := s.toList.map fun c => c.toNat.toUInt8

def trashDomains : Finset GoBytes := {asciiBytes "trash.example"}

theorem isDisposableDomain_spec_trash :
    ∃ answer, (∀ turns, (asciiBytes "mail..trash.example").length < turns →
        isDisposableDomain trashDomains turns (asciiBytes "mail..trash.example") =
          some answer) ∧
      (answer = true ↔ asciiBytes "mail..trash.example" ∈ trashDomains ∨
        SuffixListed trashDomains (asciiBytes "mail..trash.example")) :=
  isDisposableDomain_spec (Finset.notMem_singleton.mpr (by decide)) _

end ValidEmailVerifier.Engine
