/-
# `RegExp` — regular expressions with look-ahead

An expression relates a text to what it leaves of it: `Run r s rest` says that `r`
matches at the beginning of `s` and that `rest` is what comes after the match.
Read so a look-ahead is an expression like the others, one that takes nothing
away.  `rests` computes what is left by backtracking, and `language` is the
language of the words that are taken away, from above: it takes every look-ahead
for the empty word.  Facts about what an expression can match are inequalities
between languages, in the Kleene algebra of Mathlib.
-/
import Mathlib.Computability.Language
import Mathlib.Logic.Relation
import Mathlib.Order.CompletePartialOrder

open Computability

/-- A regular expression over the characters `α`. -/
inductive RegExp (α : Type*) where
  | eps
  | one (p : α → Bool)
  | seq (r q : RegExp α)
  | alt (r q : RegExp α)
  | star (r : RegExp α)
  /-- What follows does not begin with a match. -/
  | notAhead (r : RegExp α)

namespace RegExp

variable {α : Type*}

/-! ## Abbreviations of the usual syntax -/

/-- `r?` -/
def opt (r : RegExp α) : RegExp α := alt r eps

/-- `r+` -/
def plus (r : RegExp α) : RegExp α := seq r (star r)

/-- `r{n}` -/
def times (r : RegExp α) : Nat → RegExp α
  | 0 => eps
  | n + 1 => seq r (times r n)

/-- `r{0,n}` -/
def upTo (r : RegExp α) : Nat → RegExp α
  | 0 => eps
  | n + 1 => opt (seq r (upTo r n))

/-- `r{n,}` -/
def atLeast (r : RegExp α) (n : Nat) : RegExp α := seq (times r n) (star r)

/-- `r{m,m+n}` -/
def between (r : RegExp α) (m n : Nat) : RegExp α := seq (times r m) (upTo r n)

/-- The expressions one after the other. -/
def seqs : List (RegExp α) → RegExp α
  | [] => eps
  | r :: rs => seq r (seqs rs)

/-! ## What an expression leaves -/

/-- `r` matches at the beginning of the text and leaves the rest. -/
def Run : RegExp α → List α → List α → Prop
  | eps => Eq
  | one p => fun s rest => ∃ c, p c = true ∧ s = c :: rest
  | seq r q => Relation.Comp r.Run q.Run
  | alt r q => fun s rest => r.Run s rest ∨ q.Run s rest
  | star r => Relation.ReflTransGen r.Run
  | notAhead r => fun s rest => s = rest ∧ ∀ t, ¬ r.Run s t

/-- One repetition after another, as long as each takes something away. -/
def iter (step : List α → List (List α)) : Nat → List α → List (List α)
  | 0, s => [s]
  | n + 1, s => s :: ((step s).filter (fun t => t.length < s.length)).flatMap (iter step n)

/-- Everything `r` can leave of the text. -/
def rests : RegExp α → List α → List (List α)
  | eps, s => [s]
  | one p, s =>
      match s with
      | [] => []
      | c :: s => if p c = true then [s] else []
  | seq r q, s => (r.rests s).flatMap q.rests
  | alt r q, s => r.rests s ++ q.rests s
  | star r, s => iter r.rests s.length s
  | notAhead r, s => if (r.rests s).isEmpty then [s] else []

/-- Some match takes the whole text. -/
def test (r : RegExp α) (s : List α) : Bool := (r.rests s).any List.isEmpty

/-! ## The language of the words taken away -/

/-- The words that `r` can take away, when no look-ahead forbids it. -/
def language : RegExp α → Language α
  | eps => 1
  | one p => {w : List α | ∃ c, p c = true ∧ w = [c]}
  | seq r q => r.language * q.language
  | alt r q => r.language + q.language
  | star r => r.language∗
  | notAhead _ => 1

theorem exists_mem_language {r : RegExp α} : ∀ {s rest : List α}, r.Run s rest →
    ∃ w ∈ r.language, s = w ++ rest := by
  induction r with
  | eps =>
      intro s rest h
      exact ⟨[], rfl, h⟩
  | one p =>
      intro s rest h
      obtain ⟨c, hc, rfl⟩ := h
      exact ⟨[c], ⟨c, hc, rfl⟩, rfl⟩
  | seq r q ihr ihq =>
      intro s rest h
      obtain ⟨t, hr, hq⟩ := h
      obtain ⟨a, ha, rfl⟩ := ihr hr
      obtain ⟨b, hb, rfl⟩ := ihq hq
      exact ⟨a ++ b, Language.append_mem_mul ha hb, (List.append_assoc ..).symm⟩
  | alt r q ihr ihq =>
      intro s rest h
      rcases h with h | h
      · obtain ⟨w, hw, hs⟩ := ihr h
        exact ⟨w, Or.inl hw, hs⟩
      · obtain ⟨w, hw, hs⟩ := ihq h
        exact ⟨w, Or.inr hw, hs⟩
  | star r ih =>
      intro s rest h
      -- along the repetitions, from the last to the first
      induction h using Relation.ReflTransGen.head_induction_on with
      | refl => exact ⟨[], Language.nil_mem_kstar _, rfl⟩
      | head hstep _ ihrest =>
          obtain ⟨a, ha, rfl⟩ := ih hstep
          obtain ⟨b, hb, rfl⟩ := ihrest
          refine ⟨a ++ b, ?_, (List.append_assoc ..).symm⟩
          exact (mul_kstar_le_kstar (a := r.language)) (Language.append_mem_mul ha hb)
  | notAhead r _ =>
      intro s rest h
      exact ⟨[], rfl, h.1⟩

theorem Run.suffix {r : RegExp α} {s rest : List α} (h : r.Run s rest) : rest <:+ s := by
  obtain ⟨w, -, hs⟩ := exists_mem_language h
  exact ⟨w, hs.symm⟩

/-! ## Backtracking finds every match -/

/-- What `iter` finds is what repetitions leave. -/
theorem mem_iter_iff {r : RegExp α} (hr : ∀ s rest, rest ∈ r.rests s ↔ r.Run s rest)
    {rest : List α} : ∀ (n : Nat) {s : List α}, s.length ≤ n →
    (rest ∈ iter r.rests n s ↔ Relation.ReflTransGen r.Run s rest) := by
  intro n
  induction n with
  | zero =>
      intro s hs
      have hnil : s = [] := List.eq_nil_of_length_eq_zero (Nat.le_zero.mp hs)
      subst hnil
      simp only [iter, List.mem_singleton]
      constructor
      · rintro rfl
        exact .refl
      · intro h
        obtain ⟨w, -, hw⟩ := exists_mem_language (r := star r) h
        exact (List.append_eq_nil_iff.mp hw.symm).2
  | succ n ih =>
      intro s hs
      simp only [iter, List.mem_cons, List.mem_flatMap, List.mem_filter, decide_eq_true_iff]
      constructor
      · rintro (rfl | ⟨t, ⟨ht, hlt⟩, hrest⟩)
        · exact .refl
        · exact ((ih (by omega)).mp hrest).head ((hr s t).mp ht)
      · intro h
        -- a repetition that takes nothing away is left out
        induction h using Relation.ReflTransGen.head_induction_on with
        | refl => exact Or.inl rfl
        | head hstep htail ihrest =>
            rename_i s t
            rcases Nat.lt_or_ge t.length s.length with hlt | hge
            · exact Or.inr ⟨t, ⟨(hr s t).mpr hstep, hlt⟩, (ih (by omega)).mpr htail⟩
            · have hst : t = s := Run.suffix hstep |>.eq_of_length_le hge
              subst hst
              exact ihrest hs

theorem mem_rests_iff {r : RegExp α} : ∀ {s rest : List α},
    rest ∈ r.rests s ↔ r.Run s rest := by
  induction r with
  | eps =>
      intro s rest
      simp [rests, Run, eq_comm]
  | one p =>
      intro s rest
      cases s with
      | nil => simp [rests, Run]
      | cons c s =>
          by_cases hc : p c = true
          · simp only [rests, Run, if_pos hc, List.mem_singleton, List.cons.injEq]
            constructor
            · rintro rfl
              exact ⟨c, hc, rfl, rfl⟩
            · rintro ⟨d, -, -, rfl⟩
              rfl
          · simp only [rests, Run, if_neg hc, List.not_mem_nil, List.cons.injEq, false_iff]
            rintro ⟨d, hd, rfl, -⟩
            exact hc hd
  | seq r q ihr ihq =>
      intro s rest
      simp only [rests, Run, List.mem_flatMap, ihr, ihq, Relation.Comp]
  | alt r q ihr ihq =>
      intro s rest
      simp only [rests, Run, List.mem_append, ihr, ihq]
  | star r ih =>
      intro s rest
      exact mem_iter_iff (fun s rest => ih) s.length le_rfl
  | notAhead r ih =>
      intro s rest
      have hnone : (r.rests s).isEmpty = true ↔ ∀ t, ¬ r.Run s t := by
        rw [List.isEmpty_iff, List.eq_nil_iff_forall_not_mem]
        exact forall_congr' fun t => not_congr ih
      by_cases h : (r.rests s).isEmpty = true
      · simp only [rests, Run, if_pos h, List.mem_singleton]
        constructor
        · rintro rfl
          exact ⟨rfl, hnone.mp h⟩
        · rintro ⟨rfl, -⟩
          rfl
      · simp only [rests, Run, if_neg h, List.not_mem_nil, false_iff]
        exact fun hrun => h (hnone.mpr hrun.2)

theorem test_iff {r : RegExp α} {s : List α} : r.test s = true ↔ r.Run s [] := by
  rw [test, List.any_eq_true]
  constructor
  · rintro ⟨t, ht, hnil⟩
    rw [List.isEmpty_iff] at hnil
    subst hnil
    exact mem_rests_iff.mp ht
  · intro h
    exact ⟨[], mem_rests_iff.mpr h, rfl⟩

/-! ## Languages of the abbreviations -/

@[simp] theorem language_opt (r : RegExp α) : (opt r).language = r.language + 1 := rfl

@[simp] theorem language_plus (r : RegExp α) :
    (plus r).language = r.language * r.language∗ := rfl

@[simp] theorem language_seqs_nil : (seqs ([] : List (RegExp α))).language = 1 := rfl

@[simp] theorem language_seqs_cons (r : RegExp α) (rs : List (RegExp α)) :
    (seqs (r :: rs)).language = r.language * (seqs rs).language := rfl

theorem language_times_le (r : RegExp α) (n : Nat) : (times r n).language ≤ r.language∗ := by
  induction n with
  | zero => exact one_le_kstar
  | succ n ih =>
      calc (times r (n + 1)).language
          = r.language * (times r n).language := rfl
        _ ≤ r.language * r.language∗ := mul_le_mul_right ih _
        _ ≤ r.language∗ := mul_kstar_le_kstar

theorem language_upTo_le (r : RegExp α) (n : Nat) : (upTo r n).language ≤ r.language∗ := by
  induction n with
  | zero => exact one_le_kstar
  | succ n ih =>
      have hmul : r.language * (upTo r n).language ≤ r.language∗ :=
        (mul_le_mul_right ih _).trans mul_kstar_le_kstar
      exact add_le hmul one_le_kstar

theorem language_between_le (r : RegExp α) (m n : Nat) :
    (between r m n).language ≤ r.language∗ := by
  calc (between r m n).language
      = (times r m).language * (upTo r n).language := rfl
    _ ≤ r.language∗ * r.language∗ := mul_le_mul' (language_times_le r m) (language_upTo_le r n)
    _ = r.language∗ := kstar_mul_kstar _

/-! ## Words over a class of characters -/

/-- The words over a class of characters. -/
def wordsOver (p : α → Prop) : Language α := {w : List α | ∀ c ∈ w, p c}

theorem one_le_wordsOver (p : α → Prop) : 1 ≤ wordsOver p := by
  rintro w rfl c hc
  exact absurd hc List.not_mem_nil

theorem wordsOver_mul_wordsOver (p : α → Prop) : wordsOver p * wordsOver p ≤ wordsOver p := by
  rintro w ⟨a, ha, b, hb, rfl⟩ c hc
  rcases List.mem_append.mp hc with hc | hc
  · exact ha c hc
  · exact hb c hc

/-- Every character class of the expression lies in the class, look-aheads apart. -/
def Uses (p : α → Prop) : RegExp α → Prop
  | eps => True
  | one q => ∀ c, q c = true → p c
  | seq r q => r.Uses p ∧ q.Uses p
  | alt r q => r.Uses p ∧ q.Uses p
  | star r => r.Uses p
  | notAhead _ => True

theorem Uses.times {p : α → Prop} {r : RegExp α} (h : r.Uses p) : ∀ n, (r.times n).Uses p
  | 0 => trivial
  | n + 1 => ⟨h, Uses.times h n⟩

theorem Uses.upTo {p : α → Prop} {r : RegExp α} (h : r.Uses p) : ∀ n, (r.upTo n).Uses p
  | 0 => trivial
  | n + 1 => ⟨⟨h, Uses.upTo h n⟩, trivial⟩

theorem language_le_wordsOver {p : α → Prop} {r : RegExp α} (h : r.Uses p) :
    r.language ≤ wordsOver p := by
  induction r with
  | eps => exact one_le_wordsOver p
  | one q =>
      rintro w ⟨c, hc, rfl⟩ d hd
      rw [List.mem_singleton] at hd
      exact hd ▸ h c hc
  | seq r q ihr ihq => exact (mul_le_mul' (ihr h.1) (ihq h.2)).trans (wordsOver_mul_wordsOver p)
  | alt r q ihr ihq => exact add_le (ihr h.1) (ihq h.2)
  | star r ih =>
      exact kstar_le_of_mul_le_left (one_le_wordsOver p)
        ((mul_le_mul_right (ih h) _).trans (wordsOver_mul_wordsOver p))
  | notAhead r _ => exact one_le_wordsOver p

/-! ## First and last characters -/

/-- The words whose first character is in the class. -/
def starts (p : α → Prop) : Language α := {w : List α | ∃ c ∈ w.head?, p c}

/-- The words whose last character is in the class. -/
def ends (p : α → Prop) : Language α := {w : List α | ∃ c ∈ w.getLast?, p c}

theorem starts_mul (p : α → Prop) (l : Language α) : starts p * l ≤ starts p := by
  rintro w ⟨a, ⟨c, hc, hp⟩, b, -, rfl⟩
  exact ⟨c, by simp only [List.head?_append, Option.mem_def.mp hc, Option.some_or,
    Option.mem_def], hp⟩

theorem mul_ends (p : α → Prop) (l : Language α) : l * ends p ≤ ends p := by
  rintro w ⟨a, -, b, ⟨c, hc, hp⟩, rfl⟩
  exact ⟨c, by simp only [List.getLast?_append, Option.mem_def.mp hc, Option.some_or,
    Option.mem_def], hp⟩

theorem language_one_le_starts {p : α → Prop} {q : α → Bool} (h : ∀ c, q c = true → p c) :
    (one q).language ≤ starts p := by
  rintro w ⟨c, hc, rfl⟩
  exact ⟨c, rfl, h c hc⟩

theorem language_one_le_ends {p : α → Prop} {q : α → Bool} (h : ∀ c, q c = true → p c) :
    (one q).language ≤ ends p := by
  rintro w ⟨c, hc, rfl⟩
  exact ⟨c, rfl, h c hc⟩

/-- A repetition ends as its body does. -/
theorem mul_kstar_le_ends {p : α → Prop} {l : Language α} (h : l ≤ ends p) :
    l * l∗ ≤ ends p :=
  mul_kstar_le h ((mul_le_mul_right h _).trans (mul_ends p _))

end RegExp
