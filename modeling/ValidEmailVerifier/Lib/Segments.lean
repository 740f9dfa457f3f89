/-
# `Segments` — records of a stream that arrives in pieces

A stream arrives as a list of nonempty segments, each what one read of the
connection returns.  A buffered reader keeps what it has read beyond the record it
was asked for; over its life it gives the records of the flat stream, however that
was cut (`readUntil_flat`).

What a reader has kept is lost with it.  It has kept nothing exactly when what is
left of the stream is a whole number of segments (`Kept.suffix_iff`).
-/
import Mathlib.Data.List.Infix
import Mathlib.Data.List.Basic

namespace Segments

variable {α : Type} [DecidableEq α]

/-! ## Segments -/

/-- What one read returns: at least one element. -/
structure Segment (α : Type) where
  bytes : List α
  nonempty : bytes ≠ []

/-- The stream that arrives in these segments. -/
def flat (segments : List (Segment α)) : List α := (segments.map Segment.bytes).flatten

omit [DecidableEq α] in
@[simp] theorem flat_nil : flat ([] : List (Segment α)) = [] := rfl

omit [DecidableEq α] in
@[simp] theorem flat_cons {segment : Segment α} {segments : List (Segment α)} :
    flat (segment :: segments) = segment.bytes ++ flat segments := rfl

omit [DecidableEq α] in
@[simp] theorem flat_append {first second : List (Segment α)} :
    flat (first ++ second) = flat first ++ flat second := by
  simp [flat]

/-! ## Records of a flat stream -/

/-- The first record of a stream, its delimiter included, and what follows it. -/
def splitRecord (delim : α) : List α → Option (List α × List α)
  | [] => none
  | a :: s =>
      if a = delim then some ([a], s)
      else (splitRecord delim s).map fun (record, rest) => (a :: record, rest)

theorem splitRecord_eq_some {delim : α} :
    ∀ {s record rest : List α}, splitRecord delim s = some (record, rest) →
      s = record ++ rest ∧ record ≠ []
  | a :: s, record, rest, h => by
      rw [splitRecord] at h
      split at h
      · obtain ⟨rfl, rfl⟩ := Prod.mk.inj (Option.some.inj h)
        exact ⟨rfl, nofun⟩
      · obtain ⟨⟨record', rest'⟩, hs, heq⟩ := Option.map_eq_some_iff.mp h
        obtain ⟨rfl, rfl⟩ := Prod.mk.inj heq
        rw [(splitRecord_eq_some hs).1]
        exact ⟨rfl, nofun⟩

/-- A stream that has no record yet gets its first one from what follows. -/
theorem splitRecord_append_of_none {delim : α} {t : List α} :
    ∀ {s : List α}, splitRecord delim s = none →
      splitRecord delim (s ++ t) =
        (splitRecord delim t).map fun (record, rest) => (s ++ record, rest)
  | [], _ => by simp
  | a :: s, h => by
      rw [splitRecord] at h
      split at h
      · exact nomatch h
      · next ha =>
        rw [Option.map_eq_none_iff] at h
        rw [List.cons_append, splitRecord, if_neg ha, splitRecord_append_of_none h,
          Option.map_map]
        rfl

/-- A record that is there stays the first one. -/
theorem splitRecord_append_of_some {delim : α} {t : List α} :
    ∀ {s record rest : List α}, splitRecord delim s = some (record, rest) →
      splitRecord delim (s ++ t) = some (record, rest ++ t)
  | a :: s, record, rest, h => by
      rw [splitRecord] at h
      rw [List.cons_append, splitRecord]
      split at h
      · next ha =>
        obtain ⟨rfl, rfl⟩ := Prod.mk.inj (Option.some.inj h)
        rw [if_pos ha]
      · next ha =>
        obtain ⟨⟨record', rest'⟩, hs, heq⟩ := Option.map_eq_some_iff.mp h
        obtain ⟨rfl, rfl⟩ := Prod.mk.inj heq
        rw [if_neg ha, splitRecord_append_of_some hs]
        rfl

/-! ## Buffered readers -/

/-- A buffered reader: what it has read and not given out, and what is still to be read. -/
structure Reader (α : Type) where
  buffer : List α
  segments : List (Segment α)

/-- Everything the reader has still to give. -/
def Reader.flat (r : Reader α) : List α := r.buffer ++ Segments.flat r.segments

/-- The next record, read up to its delimiter; `none` when the stream ends before. -/
def readUntil (delim : α) (buffer : List α) :
    List (Segment α) → Option (List α × Reader α)
  | [] => (splitRecord delim buffer).map fun (record, rest) => (record, ⟨rest, []⟩)
  | segment :: segments =>
      match splitRecord delim buffer with
      | some (record, rest) => some (record, ⟨rest, segment :: segments⟩)
      | none => readUntil delim (buffer ++ segment.bytes) segments

/-- A reader gives the records of the flat stream. -/
theorem readUntil_flat {delim : α} {buffer : List α} {segments : List (Segment α)} :
    (readUntil delim buffer segments).map (fun (record, r) => (record, r.flat)) =
      splitRecord delim (buffer ++ flat segments) := by
  induction segments generalizing buffer with
  | nil =>
    rw [readUntil, Option.map_map, flat_nil, List.append_nil]
    simp [Function.comp_def, Reader.flat]
  | cons segment segments ih =>
    rw [readUntil, flat_cons]
    cases hs : splitRecord delim buffer with
    | some found =>
      rw [splitRecord_append_of_some (show splitRecord delim buffer = some (found.1, found.2)
        from hs)]
      rfl
    | none =>
      dsimp only
      rw [ih, List.append_assoc]

/-! ## What a reader keeps -/

/-- The buffer of a reader over these segments: nothing, or a part, not the whole, of
the last segment it has read. -/
def Kept (segments : List (Segment α)) (r : Reader α) : Prop :=
  ∃ read, segments = read ++ r.segments ∧
    (r.buffer = [] ∨ ∃ before last, read = before ++ [last] ∧
      r.buffer.length < last.bytes.length)

omit [DecidableEq α] in
theorem Kept.fresh {segments : List (Segment α)} : Kept segments ⟨[], segments⟩ :=
  ⟨[], rfl, .inl rfl⟩

/-- A record that is in the buffer is given without reading. -/
theorem readUntil_of_some {delim : α} {buffer record rest : List α}
    {segments : List (Segment α)} (h : splitRecord delim buffer = some (record, rest)) :
    readUntil delim buffer segments = some (record, ⟨rest, segments⟩) := by
  cases segments with
  | nil =>
    rw [readUntil, h]
    rfl
  | cons segment segments => rw [readUntil, h]

/-- A record that is not in the buffer ends in the last segment read for it. -/
theorem readUntil_of_none {delim : α} {buffer record : List α} {segments : List (Segment α)}
    {r : Reader α} (hn : splitRecord delim buffer = none)
    (h : readUntil delim buffer segments = some (record, r)) :
    ∃ before last, segments = before ++ last :: r.segments ∧
      r.buffer.length < last.bytes.length := by
  induction segments generalizing buffer with
  | nil =>
    rw [readUntil, hn] at h
    exact nomatch h
  | cons segment segments ih =>
    rw [readUntil, hn] at h
    cases hs : splitRecord delim (buffer ++ segment.bytes) with
    | none =>
      obtain ⟨before, last, hseg, hlen⟩ := ih hs h
      exact ⟨segment :: before, last, by rw [hseg, List.cons_append], hlen⟩
    | some found =>
      obtain ⟨record', rest⟩ := found
      dsimp only at h
      rw [readUntil_of_some hs] at h
      obtain ⟨rfl, rfl⟩ := Prod.mk.inj (Option.some.inj h)
      rw [splitRecord_append_of_none hn] at hs
      obtain ⟨⟨record', rest'⟩, hsplit, heq⟩ := Option.map_eq_some_iff.mp hs
      obtain ⟨rfl, rfl⟩ := Prod.mk.inj heq
      obtain ⟨hbytes, hne⟩ := splitRecord_eq_some hsplit
      have hlen : segment.bytes.length = record'.length + rest'.length := by
        rw [hbytes, List.length_append]
      have hpos : 0 < record'.length := List.length_pos_iff.mpr hne
      exact ⟨[], segment, rfl, by show rest'.length < _; omega⟩

/-- Reading on keeps it so. -/
theorem Kept.readUntil {delim : α} {all segments : List (Segment α)} {buffer record : List α}
    {r : Reader α} (hk : Kept all ⟨buffer, segments⟩)
    (h : readUntil delim buffer segments = some (record, r)) : Kept all r := by
  obtain ⟨read, hall, hbuffer⟩ := hk
  change all = read ++ segments at hall
  cases hs : splitRecord delim buffer with
  | some found =>
    obtain ⟨record', rest⟩ := found
    rw [readUntil_of_some hs] at h
    obtain ⟨rfl, rfl⟩ := Prod.mk.inj (Option.some.inj h)
    refine ⟨read, hall, ?_⟩
    rcases hbuffer with rfl | ⟨before, last, hread, hlen⟩
    · exact nomatch hs
    · obtain ⟨hbytes, -⟩ := splitRecord_eq_some hs
      have hle : rest.length ≤ buffer.length := by
        rw [hbytes, List.length_append]
        omega
      exact .inr ⟨before, last, hread, Nat.lt_of_le_of_lt hle hlen⟩
  | none =>
    obtain ⟨before, last, hseg, hlen⟩ := readUntil_of_none hs h
    refine ⟨read ++ before ++ [last], ?_, .inr ⟨read ++ before, last, rfl, hlen⟩⟩
    rw [hall, hseg]
    simp

omit [DecidableEq α] in
theorem flat_length_le {tail segments : List (Segment α)} (h : tail <:+ segments) :
    (flat tail).length ≤ (flat segments).length := by
  obtain ⟨front, rfl⟩ := h
  rw [flat_append, List.length_append]
  omega

omit [DecidableEq α] in
/-- The buffer is empty exactly when what is left is a whole number of segments. -/
theorem Kept.suffix_iff {all : List (Segment α)} {r : Reader α} (hk : Kept all r) :
    r.buffer = [] ↔ ∃ tail, tail <:+ all ∧ r.flat = flat tail := by
  obtain ⟨read, hall, hbuffer⟩ := hk
  constructor
  · intro hempty
    refine ⟨r.segments, ⟨read, hall.symm⟩, ?_⟩
    rw [Reader.flat, hempty, List.nil_append]
  · rintro ⟨tail, htail, hflat⟩
    rcases hbuffer with hempty | ⟨before, last, rfl, hlen⟩
    · exact hempty
    have hlength : r.buffer.length + (flat r.segments).length = (flat tail).length := by
      rw [← hflat, Reader.flat, List.length_append]
    rw [List.append_assoc, List.singleton_append] at hall
    have hlast : (last :: r.segments) <:+ all := ⟨before, hall.symm⟩
    -- the tail begins after the last segment read, or not later than it
    have hcases : tail <:+ r.segments ∨ (last :: r.segments) <:+ tail := by
      rcases List.suffix_or_suffix_of_suffix htail hlast with h | h
      · rcases List.suffix_cons_iff.mp h with rfl | h
        · exact .inr (List.suffix_refl _)
        · exact .inl h
      · exact .inr h
    rcases hcases with h | h
    · have := flat_length_le h
      exact List.length_eq_zero_iff.mp (by omega)
    · have := flat_length_le h
      rw [flat_cons, List.length_append] at this
      omega

end Segments
