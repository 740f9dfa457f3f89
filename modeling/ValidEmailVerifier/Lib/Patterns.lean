/-
# `Patterns` — a pattern of character classes, matched greedily

A pattern is a list of pieces, one character of a class or a run of them.  The matcher
takes the longest run first and gives characters back when the rest does not match; what
it finds is a prefix that belongs to the pattern (`Matches`), and it finds one whenever
there is one.

A search goes through a text from the left and continues behind each match.  For a
pattern that begins with a run and a character outside it (`lead`), the match around that
character begins with the longest run before it, whatever stands further left
(`matchAll_lead`).
-/
import Mathlib.Data.List.DropRight
import Mathlib.Data.List.Infix
import Mathlib.Data.List.Basic

namespace Patterns

variable {α : Type}

/-- A piece of a pattern: one element of a class, or a run of at least one. -/
inductive Piece (α : Type) where
  | one (p : α → Bool)
  | many (p : α → Bool)

/-- The class of a piece. -/
def Piece.accepts : Piece α → α → Bool
  | .one p => p
  | .many p => p

/-- The lists a pattern stands for. -/
inductive Matches : List (Piece α) → List α → Prop
  | nil : Matches [] []
  | one {p : α → Bool} {a : α} {ps : List (Piece α)} {s : List α} :
      p a = true → Matches ps s → Matches (.one p :: ps) (a :: s)
  | last {p : α → Bool} {a : α} {ps : List (Piece α)} {s : List α} :
      p a = true → Matches ps s → Matches (.many p :: ps) (a :: s)
  | more {p : α → Bool} {a : α} {ps : List (Piece α)} {s : List α} :
      p a = true → Matches (.many p :: ps) s → Matches (.many p :: ps) (a :: s)

/-! ## A match -/

/-- The match at the beginning of a list. -/
def matchAt : List (Piece α) → List α → Option (List α)
  | [], _ => some []
  | _ :: _, [] => none
  | .one p :: ps, a :: s => if p a then (matchAt ps s).map (a :: ·) else none
  -- a longer run first, the rest of the pattern after that
  | .many p :: ps, a :: s =>
      if p a then ((matchAt (.many p :: ps) s).or (matchAt ps s)).map (a :: ·) else none

section Match

variable {ps : List (Piece α)} {s m : List α}

@[simp] theorem matchAt_nil : matchAt ([] : List (Piece α)) s = some [] := by
  cases s <;> rfl

/-- What is found is a prefix, and belongs to the pattern. -/
theorem matchAt_sound (h : matchAt ps s = some m) : m <+: s ∧ Matches ps m := by
  induction s generalizing ps m with
  | nil =>
    cases ps with
    | nil => exact Option.some.inj h ▸ ⟨List.prefix_refl [], .nil⟩
    | cons piece ps => cases piece <;> exact nomatch h
  | cons a s ih =>
    cases ps with
    | nil => exact Option.some.inj h ▸ ⟨List.nil_prefix, .nil⟩
    | cons piece ps =>
      cases piece with
      | one p =>
        rw [matchAt] at h
        split at h
        · next ha =>
          obtain ⟨m, hm, rfl⟩ := Option.map_eq_some_iff.mp h
          obtain ⟨hpre, hmatch⟩ := ih hm
          exact ⟨List.cons_prefix_cons.mpr ⟨rfl, hpre⟩, .one ha hmatch⟩
        · exact nomatch h
      | many p =>
        rw [matchAt] at h
        split at h
        · next ha =>
          obtain ⟨m, hm, rfl⟩ := Option.map_eq_some_iff.mp h
          rcases Option.or_eq_some_iff.mp hm with hmore | ⟨-, hlast⟩
          · obtain ⟨hpre, hmatch⟩ := ih hmore
            exact ⟨List.cons_prefix_cons.mpr ⟨rfl, hpre⟩, .more ha hmatch⟩
          · obtain ⟨hpre, hmatch⟩ := ih hlast
            exact ⟨List.cons_prefix_cons.mpr ⟨rfl, hpre⟩, .last ha hmatch⟩
        · exact nomatch h

/-- A prefix that belongs to the pattern is enough for a match. -/
theorem matchAt_isSome (h : Matches ps m) (hpre : m <+: s) : (matchAt ps s).isSome := by
  induction h generalizing s with
  | nil => simp
  | one ha _ ih =>
    obtain ⟨s, rfl, hs⟩ := List.cons_prefix_iff.mp hpre
    simp [matchAt, ha, ih hs]
  | last ha _ ih =>
    obtain ⟨s, rfl, hs⟩ := List.cons_prefix_iff.mp hpre
    simp [matchAt, ha, ih hs]
  | more ha _ ih =>
    obtain ⟨s, rfl, hs⟩ := List.cons_prefix_iff.mp hpre
    simp [matchAt, ha, ih hs]

/-- A pattern is not matched across an element none of its pieces accepts. -/
theorem matchAt_append {d : α} {t : List α} (hd : ∀ piece ∈ ps, piece.accepts d = false) :
    matchAt ps (s ++ d :: t) = matchAt ps s := by
  induction s generalizing ps with
  | nil =>
    cases ps with
    | nil => simp
    | cons piece ps =>
      have hreject := hd piece (.head _)
      cases piece <;> simp_all [matchAt, Piece.accepts]
  | cons a s ih =>
    cases ps with
    | nil => simp
    | cons piece ps =>
      have hrest := ih fun piece h => hd piece (.tail _ h)
      cases piece with
      | one p => simp [matchAt, hrest]
      | many p => simp [matchAt, hrest, ih hd]

end Match

/-- A run, and what follows it. -/
theorem matches_many {p : α → Bool} {ps : List (Piece α)} {s : List α} :
    Matches (.many p :: ps) s ↔
      ∃ run rest, s = run ++ rest ∧ run ≠ [] ∧ (∀ a ∈ run, p a = true) ∧ Matches ps rest := by
  constructor
  · intro h
    induction s with
    | nil => exact nomatch h
    | cons a s ih =>
      cases h with
      | last ha hrest =>
        exact ⟨[a], s, rfl, List.cons_ne_nil _ _, by simpa using ha, hrest⟩
      | more ha hrest =>
        obtain ⟨run, rest, rfl, -, hrun, hmatch⟩ := ih hrest
        exact ⟨a :: run, rest, rfl, List.cons_ne_nil _ _, by simpa [ha] using hrun, hmatch⟩
  · rintro ⟨run, rest, rfl, hne, hrun, hmatch⟩
    induction run with
    | nil => exact absurd rfl hne
    | cons a run ih =>
      obtain ⟨ha, hrun⟩ := List.forall_mem_cons.mp hrun
      cases run with
      | nil => exact .last ha hmatch
      | cons b run => exact .more ha (ih (List.cons_ne_nil _ _) hrun)

theorem matches_one {p : α → Bool} {ps : List (Piece α)} {s : List α} :
    Matches (.one p :: ps) s ↔ ∃ a rest, s = a :: rest ∧ p a = true ∧ Matches ps rest := by
  constructor
  · intro h
    cases h with
    | one ha hrest => exact ⟨_, _, rfl, ha, hrest⟩
  · rintro ⟨a, rest, rfl, ha, hrest⟩
    exact .one ha hrest

/-- Every element of a list of the pattern is of the class of a piece. -/
theorem Matches.accepts {ps : List (Piece α)} {m : List α} (h : Matches ps m) :
    ∀ a ∈ m, ∃ piece ∈ ps, piece.accepts a = true := by
  induction h with
  | nil => exact nofun
  | one ha _ ih =>
    intro b hb
    rcases List.mem_cons.mp hb with rfl | hb
    · exact ⟨_, .head _, ha⟩
    · obtain ⟨piece, hpiece, haccepts⟩ := ih b hb
      exact ⟨piece, .tail _ hpiece, haccepts⟩
  | last ha _ ih =>
    intro b hb
    rcases List.mem_cons.mp hb with rfl | hb
    · exact ⟨_, .head _, ha⟩
    · obtain ⟨piece, hpiece, haccepts⟩ := ih b hb
      exact ⟨piece, .tail _ hpiece, haccepts⟩
  | more ha _ ih =>
    intro b hb
    rcases List.mem_cons.mp hb with rfl | hb
    · exact ⟨_, .head _, ha⟩
    · exact ih b hb

/-! ## Longest matches -/

/-- The longest prefix that passes a test. -/
def longestPrefix (q : List α → Bool) : List α → Option (List α)
  | [] => if q [] then some [] else none
  | a :: s =>
      match longestPrefix (fun t => q (a :: t)) s with
      | some t => some (a :: t)
      | none => if q [] then some [] else none

theorem longestPrefix_eq_none {q : List α → Bool} {s : List α}
    (h : longestPrefix q s = none) : ∀ {t : List α}, t <+: s → q t = false := by
  induction s generalizing q with
  | nil =>
    intro t ht
    rw [List.prefix_nil.mp ht]
    simpa [longestPrefix] using h
  | cons a s ih =>
    intro t ht
    rw [longestPrefix] at h
    split at h
    · exact nomatch h
    · next hnone =>
      rcases List.prefix_cons_iff.mp ht with rfl | ⟨t, rfl, htail⟩
      · simpa using h
      · exact ih hnone htail

theorem longestPrefix_eq_some {q : List α → Bool} {s m : List α}
    (h : longestPrefix q s = some m) :
    m <+: s ∧ q m = true ∧ ∀ {t : List α}, t <+: s → q t = true → t.length ≤ m.length := by
  induction s generalizing q m with
  | nil =>
    rw [longestPrefix] at h
    split at h
    · next hq =>
      obtain rfl := Option.some.inj h
      exact ⟨List.prefix_refl [], hq, fun ht _ => ht.length_le⟩
    · exact nomatch h
  | cons a s ih =>
    rw [longestPrefix] at h
    split at h
    · next m' hm' =>
      obtain rfl := Option.some.inj h
      obtain ⟨hpre, hq, hlong⟩ := ih hm'
      refine ⟨List.cons_prefix_cons.mpr ⟨rfl, hpre⟩, hq, fun ht hqt => ?_⟩
      rcases List.prefix_cons_iff.mp ht with rfl | ⟨t, rfl, htail⟩
      · exact Nat.zero_le _
      · exact Nat.succ_le_succ (hlong htail hqt)
    · next hnone =>
      split at h
      · next hq =>
        obtain rfl := Option.some.inj h
        refine ⟨List.nil_prefix, hq, fun ht hqt => ?_⟩
        rcases List.prefix_cons_iff.mp ht with rfl | ⟨t, rfl, htail⟩
        · exact Nat.le_refl 0
        · exact nomatch (longestPrefix_eq_none hnone htail).symm.trans hqt
      · exact nomatch h

/-- The greedy match is the longest: no prefix of the pattern is longer. -/
def Longest (ps : List (Piece α)) : Prop :=
  ∀ s m : List α, matchAt ps s = some m → ∀ t, t <+: s → Matches ps t →
    t.length ≤ m.length

section Longest

variable {ps : List (Piece α)} {p : α → Bool}

theorem Longest.nil : Longest ([] : List (Piece α)) := by
  intro s m h t ht hmatch
  cases hmatch
  simp

theorem Longest.one (h : Longest ps) : Longest (.one p :: ps) := by
  intro s m hm t ht hmatch
  cases hmatch with
  | one ha hrest =>
    obtain ⟨s, rfl, hs⟩ := List.cons_prefix_iff.mp ht
    rw [matchAt, if_pos ha] at hm
    obtain ⟨m', hm', rfl⟩ := Option.map_eq_some_iff.mp hm
    exact Nat.succ_le_succ (h _ _ hm' _ hs hrest)

/-- A run before a pattern whose lists never extend one of the run and the pattern. -/
theorem Longest.many (h : Longest ps)
    (hextend : ∀ {m t : List α}, Matches (.many p :: ps) m → Matches ps t → ¬ m <+: t) :
    Longest (.many p :: ps) := by
  intro s
  induction s with
  | nil =>
    intro m hm
    exact nomatch hm
  | cons a s ih =>
    intro m hm t ht hmatch
    rw [matchAt] at hm
    split at hm
    · obtain ⟨m', hm', rfl⟩ := Option.map_eq_some_iff.mp hm
      cases hmatch with
      | more _ hrest =>
        have hrest' := (List.cons_prefix_cons.mp ht).2
        rcases Option.or_eq_some_iff.mp hm' with hmore | ⟨hnone, -⟩
        · exact Nat.succ_le_succ (ih _ hmore _ hrest' hrest)
        · exact nomatch hnone ▸ matchAt_isSome hrest hrest'
      | last _ hrest =>
        have hrest' := (List.cons_prefix_cons.mp ht).2
        rcases Option.or_eq_some_iff.mp hm' with hmore | ⟨-, hlast⟩
        · obtain ⟨hpre, hmany⟩ := matchAt_sound hmore
          rcases List.prefix_or_prefix_of_prefix hrest' hpre with hle | hle
          · exact Nat.succ_le_succ hle.length_le
          · exact absurd hle (hextend hmany hrest)
        · exact Nat.succ_le_succ (h _ _ hlast _ hrest' hrest)
    · exact nomatch hm

/-- A longest match is the longest prefix that passes a test for the pattern. -/
theorem Longest.matchAt_eq (h : Longest ps) {q : List α → Bool} {s : List α}
    (hq : ∀ t, q t = true ↔ Matches ps t) : matchAt ps s = longestPrefix q s := by
  cases hm : matchAt ps s with
  | none =>
    cases hlong : longestPrefix q s with
    | none => rfl
    | some t =>
      obtain ⟨hpre, hqt, -⟩ := longestPrefix_eq_some hlong
      have hsome := matchAt_isSome ((hq t).mp hqt) hpre
      rw [hm] at hsome
      exact nomatch hsome
  | some m =>
    obtain ⟨hpre, hmatch⟩ := matchAt_sound hm
    have hqm := (hq m).mpr hmatch
    cases hlong : longestPrefix q s with
    | none => exact nomatch (longestPrefix_eq_none hlong hpre).symm.trans hqm
    | some t =>
      obtain ⟨hpre', hqt, hle⟩ := longestPrefix_eq_some hlong
      have hlength : m.length = t.length :=
        Nat.le_antisymm (hle hpre hqm) (h _ _ hm _ hpre' ((hq t).mp hqt))
      have hshorter := List.prefix_of_prefix_length_le hpre hpre' hlength.le
      rw [hshorter.eq_of_length hlength]

/-- The greedy match of a list of the pattern is the list. -/
theorem Longest.matchAt_self (h : Longest ps) {m : List α} (hm : Matches ps m) :
    matchAt ps m = some m := by
  obtain ⟨found, hfound⟩ := Option.isSome_iff_exists.mp (matchAt_isSome hm (List.prefix_refl m))
  have hpre := (matchAt_sound hfound).1
  have hle := h m found hfound m (List.prefix_refl m) hm
  rw [hfound, hpre.eq_of_length_le hle]

end Longest

/-! ## A search -/

/-- The matches in a list from the left, each behind the one before it, after `skip`
elements. -/
def matchAllFrom (ps : List (Piece α)) : (skip : Nat) → List α → List (List α)
  | _, [] => []
  | skip + 1, _ :: s => matchAllFrom ps skip s
  | 0, a :: s =>
      match matchAt ps (a :: s) with
      | some m => m :: matchAllFrom ps (m.length - 1) s
      | none => matchAllFrom ps 0 s

/-- The matches of a pattern that matches no empty list. -/
def matchAll (ps : List (Piece α)) (s : List α) : List (List α) := matchAllFrom ps 0 s

section Search

variable {ps : List (Piece α)} {s m : List α}

theorem matchAllFrom_eq_drop (skip : Nat) : matchAllFrom ps skip s = matchAll ps (s.drop skip) := by
  induction s generalizing skip with
  | nil => cases skip <;> rfl
  | cons a s ih =>
    cases skip with
    | zero => rfl
    | succ skip => simpa [matchAllFrom] using ih skip

theorem matchAll_of_none {a : α} (h : matchAt ps (a :: s) = none) :
    matchAll ps (a :: s) = matchAll ps s := by
  rw [matchAll, matchAllFrom, h]
  rfl

theorem matchAll_of_some (h : matchAt ps s = some m) (hne : m ≠ []) :
    matchAll ps s = m :: matchAll ps (s.drop m.length) := by
  obtain ⟨a, m, rfl⟩ := List.exists_cons_of_ne_nil hne
  obtain ⟨s, rfl, -⟩ := List.cons_prefix_iff.mp (matchAt_sound h).1
  rw [matchAll, matchAllFrom, h]
  simp [matchAllFrom_eq_drop]

/-- A search goes on anew behind an element none of the pieces accepts. -/
theorem matchAll_append {d : α} {t : List α} (hps : ps ≠ [])
    (hd : ∀ piece ∈ ps, piece.accepts d = false) :
    matchAll ps (s ++ d :: t) = matchAll ps s ++ matchAll ps t := by
  have hempty : matchAt ps ([] : List α) = none := by
    obtain ⟨piece, ps, rfl⟩ := List.exists_cons_of_ne_nil hps
    cases piece with
    | one p => rfl
    | many p => rfl
  induction hn : s.length using Nat.strong_induction_on generalizing s with
  | _ n ih =>
    cases s with
    | nil =>
      have hnone : matchAt ps (d :: t) = none :=
        (@matchAt_append α ps [] d t hd).trans hempty
      rw [List.nil_append, matchAll_of_none hnone]
      rfl
    | cons a s =>
      have hsame : matchAt ps (a :: s ++ d :: t) = matchAt ps (a :: s) := matchAt_append hd
      cases hm : matchAt ps (a :: s) with
      | none =>
        rw [hm, List.cons_append] at hsame
        rw [List.cons_append, matchAll_of_none hsame, matchAll_of_none hm]
        exact ih s.length (hn ▸ Nat.lt_succ_self _) rfl
      | some m =>
        rw [hm] at hsame
        obtain ⟨hpre, hmatch⟩ := matchAt_sound hm
        have hne : m ≠ [] := by
          rintro rfl
          exact hps (by cases hmatch; rfl)
        rw [matchAll_of_some hsame hne, matchAll_of_some hm hne,
          List.drop_append_of_le_length hpre.length_le, List.cons_append]
        refine congrArg _ (ih _ ?_ rfl)
        have hpos := List.length_pos_iff.mpr hne
        have hle := hpre.length_le
        rw [List.length_drop]
        omega

theorem matches_of_mem_matchAll (h : m ∈ matchAll ps s) : Matches ps m := by
  have hfrom : ∀ skip, m ∈ matchAllFrom ps skip s → Matches ps m := by
    clear h
    induction s with
    | nil =>
      intro skip h
      cases skip <;> exact nomatch h
    | cons a s ih =>
      intro skip h
      cases skip with
      | succ skip => exact ih skip h
      | zero =>
        rw [matchAllFrom] at h
        split at h
        · next found hfound =>
          rcases List.mem_cons.mp h with rfl | h
          · exact (matchAt_sound hfound).2
          · exact ih _ h
        · exact ih 0 h
  exact hfrom 0 h

/-- A list of the pattern is found where nothing beside it can belong to a match. -/
theorem mem_matchAll {u v : List α} (h : Longest ps) (hm : Matches ps m) (hne : m ≠ [])
    (hu : ∀ c ∈ u.getLast?, ∀ piece ∈ ps, piece.accepts c = false)
    (hv : ∀ c ∈ v.head?, ∀ piece ∈ ps, piece.accepts c = false) :
    m ∈ matchAll ps (u ++ m ++ v) := by
  have hps : ps ≠ [] := by
    rintro rfl
    cases hm
    exact hne rfl
  have hat : matchAt ps (m ++ v) = some m := by
    cases v with
    | nil =>
      rw [List.append_nil]
      exact h.matchAt_self hm
    | cons d v =>
      rw [matchAt_append (hv d rfl)]
      exact h.matchAt_self hm
  have hfront : m ∈ matchAll ps (m ++ v) := by
    rw [matchAll_of_some hat hne]
    exact .head _
  cases u using List.reverseRecOn with
  | nil => exact hfront
  | append_singleton u d =>
    have hd := hu d (by simp)
    rw [List.append_assoc, List.append_assoc, List.singleton_append, matchAll_append hps hd]
    exact List.mem_append_right _ hfront

end Search

/-! ## A run before a mark -/

section Lead

variable {p : α → Bool} [DecidableEq α] {d : α} {ps : List (Piece α)} {u v m : List α}

omit [DecidableEq α] in
theorem rtakeWhile_cons {a : α} :
    (a :: u).rtakeWhile p = if (a :: u).all p then a :: u else u.rtakeWhile p := by
  rw [List.rtakeWhile, List.reverse_cons]
  by_cases hu : ∀ b ∈ u, p b = true
  · have hself : u.rtakeWhile p = u := List.rtakeWhile_eq_self_iff.mpr hu
    rw [List.takeWhile_append_of_pos fun b hb => hu b (List.mem_reverse.mp hb), hself]
    cases ha : p a with
    | false => simp [ha]
    | true => simpa [ha] using hu
  · have hlength : (u.reverse.takeWhile p).length ≠ u.reverse.length := by
      intro h
      have hself := (List.takeWhile_prefix p).eq_of_length h
      exact hu fun b hb => List.takeWhile_eq_self_iff.mp hself b (List.mem_reverse.mpr hb)
    rw [List.takeWhile_append, if_neg hlength, if_neg, List.rtakeWhile]
    intro hall
    exact hu fun b hb => List.all_eq_true.mp hall b (.tail _ hb)

/-- A run, then the mark, then the rest. -/
abbrev lead (p : α → Bool) (d : α) (ps : List (Piece α)) : List (Piece α) :=
  .many p :: .one (· == d) :: ps

/-- Up to the first mark the run has to take everything. -/
theorem matchAt_lead (hp : p d = false) (hu : d ∉ u) :
    matchAt (lead p d ps) (u ++ d :: v) =
      if u ≠ [] ∧ u.all p then (matchAt ps v).map fun m => u ++ d :: m else none := by
  induction u with
  | nil => simp [matchAt, hp]
  | cons a u ih =>
    obtain ⟨-, htail⟩ := not_or.mp (mt List.mem_cons.mpr hu)
    rw [List.cons_append, lead, matchAt]
    cases ha : p a with
    | false => simp [ha]
    | true =>
      rw [if_pos rfl, ← lead, ih htail]
      cases u with
      | nil => simp [matchAt, ha, Function.comp_def]
      | cons b u =>
        have hb : (b == d) = false := beq_false_of_ne fun h => htail (h ▸ .head _)
        simp only [matchAt, List.cons_append, hb, ha, List.all_cons, Bool.true_and]
        by_cases hall : (p b && u.all p) = true
        · simp [hall, Function.comp_def]
        · simp [hall]

/-- Without a mark there is no match. -/
theorem matchAll_lead_of_notMem (hu : d ∉ u) : matchAll (lead p d ps) u = [] := by
  induction u with
  | nil => rfl
  | cons a u ih =>
    have hnone : matchAt (lead p d ps) (a :: u) = none := by
      refine Option.eq_none_iff_forall_ne_some.mpr fun m hm => ?_
      obtain ⟨hpre, hmatch⟩ := matchAt_sound hm
      obtain ⟨run, rest, rfl, -, -, hrest⟩ := matches_many.mp hmatch
      cases hrest with
      | one hmark => exact hu (hpre.subset (by simp [beq_iff_eq.mp hmark]))
    rw [matchAll_of_none hnone]
    exact ih fun h => hu (.tail _ h)

/-- Around the first mark the match begins with the longest run before it. -/
theorem matchAll_lead (hp : p d = false) (hu : d ∉ u) :
    matchAll (lead p d ps) (u ++ d :: v) =
      match matchAt ps v with
      | some m =>
          if u.rtakeWhile p = [] then matchAll (lead p d ps) v
          else (u.rtakeWhile p ++ d :: m) :: matchAll (lead p d ps) (v.drop m.length)
      | none => matchAll (lead p d ps) v := by
  induction u with
  | nil =>
    have hnone : matchAt (lead p d ps) (d :: v) = none := by simp [matchAt, hp]
    rw [List.nil_append, matchAll_of_none hnone]
    cases matchAt ps v <;> rfl
  | cons a u ih =>
    have hat := @matchAt_lead _ p _ d ps (a :: u) v hp hu
    have hrest := ih fun h => hu (.tail _ h)
    rw [rtakeWhile_cons]
    by_cases hall : (a :: u).all p = true
    · rw [if_pos ⟨List.cons_ne_nil _ _, hall⟩] at hat
      cases hm : matchAt ps v with
      | none =>
        rw [hm] at hat hrest
        exact (matchAll_of_none hat).trans hrest
      | some m =>
        rw [hm, Option.map_some] at hat
        rw [matchAll_of_some hat (by simp), if_pos hall]
        simp
    · rw [if_neg fun h => hall h.2] at hat
      rw [if_neg hall]
      exact (matchAll_of_none hat).trans hrest

/-- The pieces between the marks, and the list put together from them. -/
theorem splitOn_eq_cons (d : α) (s : List α) :
    ∃ piece rest, s.splitOn d = piece :: rest ∧ s = piece ++ rest.flatMap (d :: ·) ∧
      d ∉ piece ∧ ∀ other ∈ rest, d ∉ other := by
  induction hlength : s.length using Nat.strong_induction_on generalizing s with
  | _ n ih =>
    by_cases hd : d ∈ s
    · obtain ⟨first, last, rfl, hfirst⟩ := List.eq_append_cons_of_mem hd
      have hshort : last.length < n := by
        rw [← hlength, List.length_append, List.length_cons]
        omega
      obtain ⟨piece, rest, hsplit, hlast, hpiece, hrest⟩ := ih _ hshort last rfl
      refine ⟨first, piece :: rest, ?_, ?_, hfirst, List.forall_mem_cons.mpr ⟨hpiece, hrest⟩⟩
      · rw [List.splitOn_append_cons_self_of_not_mem hfirst, hsplit]
      · rw [List.flatMap_cons, List.cons_append, ← hlast]
    · exact ⟨s, [], List.splitOn_eq_singleton hd, by simp, hd, nofun⟩

end Lead

end Patterns
