/-
# `Smtp.Framing` — when a session does not depend on how its bytes arrive

A buffered reader gives the lines of the flat stream, so one call of
`readSMTPReply` returns the next reply (`nextReply_eq`); what the reader has read
beyond it is lost when the next call makes a reader of its own.
`framed_iff_aligned`: a session returns the replies of the stream and loses nothing
exactly when what follows each reply is a whole number of reads.
-/
import ValidEmailVerifier.Smtp.Session

namespace ValidEmailVerifier.Smtp

open Segments

variable {σ τ : Type}

/-! ## Two sources of the same lines -/

/-- The first source gives the lines that the second gives of its image. -/
structure LineSource.Simulates (src : LineSource σ) (tgt : LineSource τ) (f : σ → τ) : Prop where
  readLine (s : σ) : (src.readLine s).map (fun (line, rest) => (line, f rest)) =
    tgt.readLine (f s)
  ended : f src.ended = tgt.ended

theorem LineSource.Simulates.continuation {src : LineSource σ} {tgt : LineSource τ} {f : σ → τ}
    (h : src.Simulates tgt f) (code : Int) (s : σ) :
    tgt.continuation code (f s) =
      ((src.continuation code s).1, f (src.continuation code s).2) := by
  fun_induction LineSource.continuation src code s with
  | case1 s hs =>
    have ht := h.readLine s
    rw [hs, Option.map_none] at ht
    rw [LineSource.continuation.eq_def, ← ht, h.ended]
  | case2 s line rest hs hterm =>
    have ht := h.readLine s
    rw [hs, Option.map_some] at ht
    rw [LineSource.continuation.eq_def, ← ht]
    dsimp only
    rw [if_pos hterm]
  | case3 s line rest hs hterm lines last hrest ih =>
    have ht := h.readLine s
    rw [hs, Option.map_some] at ht
    rw [LineSource.continuation.eq_def, ← ht]
    dsimp only
    rw [if_neg hterm, ih, hrest]

theorem LineSource.Simulates.readReply {src : LineSource σ} {tgt : LineSource τ} {f : σ → τ}
    (h : src.Simulates tgt f) (ending : Ending) (s : σ) :
    tgt.readReply ending (f s) =
      ((src.readReply ending s).1, f (src.readReply ending s).2) := by
  have ht := h.readLine s
  rw [LineSource.readReply, LineSource.readReply]
  cases hs : src.readLine s with
  | none =>
    rw [hs, Option.map_none] at ht
    rw [← ht, h.ended]
  | some found =>
    rw [hs, Option.map_some] at ht
    rw [← ht]
    dsimp only
    by_cases hmore : hasContinuation (trimBytes found.1) = true
    · rw [if_pos hmore, if_pos hmore, h.continuation]
      split <;> rfl
    · rw [if_neg hmore, if_neg hmore]
      split <;> rfl

theorem LineSource.readReply_keeps {src : LineSource σ} {P : σ → Prop} (hended : P src.ended)
    (hline : ∀ s s' line, src.readLine s = some (line, s') → P s → P s') (ending : Ending)
    {s : σ} (hs : P s) : P (src.readReply ending s).2 := by
  have hcont : ∀ (code : Int) (s : σ), P s → P (src.continuation code s).2 := by
    intro code s
    fun_induction LineSource.continuation src code s with
    | case1 => exact fun _ => hended
    | case2 s line rest hread _ => exact hline s rest line hread
    | case3 s line rest hread _ lines last hrest ih =>
      intro hs
      rw [hrest] at ih
      exact ih (hline s rest line hread hs)
  rw [LineSource.readReply]
  cases hread : src.readLine s with
  | none => exact hended
  | some found =>
    have hfirst : P found.2 := hline s found.2 found.1 hread hs
    dsimp only
    by_cases hmore : hasContinuation (trimBytes found.1) = true
    · rw [if_pos hmore]
      split
      · exact hcont _ _ hfirst
      · exact hcont _ _ hfirst
    · rw [if_neg hmore]
      split <;> exact hfirst

theorem bufio_simulates : bufioSource.Simulates flatSource Reader.flat where
  readLine _ := readUntil_flat
  ended := rfl

/-! ## Framing of a session -/

/-- A session frames the stream: successive calls return the successive replies of the
stream, and leave to be read what follows them. -/
def Framed (ending : Ending) (conn : List (Segment UInt8)) : Prop :=
  ∀ n, Prod.map id flat (replies (readSMTPReply ending) [] n conn) =
    replies (nextReply ending) [] n (flat conn)

/-- What follows the first replies of the stream is always a whole number of reads. -/
def Aligned (ending : Ending) (conn : List (Segment UInt8)) : Prop :=
  ∀ n, ∃ tail, tail <:+ conn ∧ (replies (nextReply ending) [] n (flat conn)).2 = flat tail

/-- The reader of one call, when the call is over. -/
def readerAfter (ending : Ending) (conn : List (Segment UInt8)) : Reader UInt8 :=
  (bufioSource.readReply ending ⟨[], conn⟩).2

theorem readSMTPReply_snd {ending : Ending} {conn : List (Segment UInt8)} :
    (readSMTPReply ending conn).2 = (readerAfter ending conn).segments := rfl

/-- One call returns the next reply of the stream. -/
theorem nextReply_eq {ending : Ending} {conn : List (Segment UInt8)} :
    nextReply ending (flat conn) =
      ((readSMTPReply ending conn).1, (readerAfter ending conn).flat) :=
  bufio_simulates.readReply ending ⟨[], conn⟩

/-- It reads no segment further than it needs. -/
theorem kept_readerAfter {ending : Ending} {conn : List (Segment UInt8)} :
    Kept conn (readerAfter ending conn) :=
  LineSource.readReply_keeps ⟨conn, (List.append_nil conn).symm, .inl rfl⟩
    (fun _ _ _ hread hk => hk.readUntil hread) ending Kept.fresh

theorem readSMTPReply_suffix {ending : Ending} {conn : List (Segment UInt8)} :
    (readSMTPReply ending conn).2 <:+ conn := by
  obtain ⟨read, hconn, -⟩ := @kept_readerAfter ending conn
  exact ⟨read, hconn.symm⟩

/-- What a session leaves are the last of its reads. -/
theorem replies_suffix {ending : Ending} {n : Nat} {conn : List (Segment UInt8)} :
    (replies (readSMTPReply ending) [] n conn).2 <:+ conn := by
  induction n generalizing conn with
  | zero => exact List.suffix_refl conn
  | succ n ih =>
    have hrest := @readSMTPReply_suffix ending conn
    rw [replies]
    split
    · exact List.nil_suffix
    · next heq =>
      rw [heq] at hrest
      exact ih.trans hrest

theorem nextReply_length {ending : Ending} {stream : Bytes} :
    (nextReply ending stream).2.length ≤ stream.length :=
  @LineSource.readReply_keeps _ flatSource (fun s => s.length ≤ stream.length)
    (Nat.zero_le _) (fun _ _ _ hread hle => by
      have := flatSource.size_readLine hread
      exact Nat.le_trans (Nat.le_of_lt this) hle) ending stream (Nat.le_refl _)

theorem replies_length {ending : Ending} {n : Nat} {stream : Bytes} :
    (replies (nextReply ending) [] n stream).2.length ≤ stream.length := by
  induction n generalizing stream with
  | zero => exact Nat.le_refl _
  | succ n ih =>
    have hrest := @nextReply_length ending stream
    rw [replies]
    split
    · exact Nat.zero_le _
    · next heq =>
      rw [heq] at hrest
      exact Nat.le_trans ih hrest

/-- When the replies are aligned, a call that succeeds leaves the rest of the stream,
and the rest is aligned. -/
theorem Aligned.step {ending : Ending} {conn conn' : List (Segment UInt8)}
    {reply : SmtpReply Bytes} (ha : Aligned ending conn)
    (h : readSMTPReply ending conn = (.ok reply, conn')) :
    nextReply ending (flat conn) = (.ok reply, flat conn') ∧ Aligned ending conn' := by
  have hnext := @nextReply_eq ending conn
  have hsuffix := @readSMTPReply_suffix ending conn
  have hsnd : conn' = (readerAfter ending conn).segments := by
    rw [← readSMTPReply_snd, h]
  rw [h] at hnext hsuffix
  change conn' <:+ conn at hsuffix
  have hbuffer : (readerAfter ending conn).buffer = [] := by
    obtain ⟨tail, htail, hflat⟩ := ha 1
    rw [replies, hnext] at hflat
    exact kept_readerAfter.suffix_iff.mpr ⟨tail, htail, hflat⟩
  rw [Reader.flat, hbuffer, List.nil_append, ← hsnd] at hnext
  refine ⟨hnext, fun n => ?_⟩
  obtain ⟨tail, htail, hflat⟩ := ha (n + 1)
  rw [replies, hnext] at hflat
  change (replies (nextReply ending) [] n (flat conn')).2 = flat tail at hflat
  rcases List.suffix_or_suffix_of_suffix htail hsuffix with hle | hle
  · exact ⟨tail, hle, hflat⟩
  · -- nothing has been read since
    obtain ⟨front, hfront⟩ := hle
    have hlen := @replies_length ending n (flat conn')
    rw [hflat, ← hfront, flat_append, List.length_append] at hlen
    have hnil : flat front = [] := List.length_eq_zero_iff.mp (by omega)
    rw [← hfront, flat_append, hnil, List.nil_append] at hflat
    exact ⟨conn', List.suffix_refl conn', hflat⟩

/-- A session frames the stream exactly when every reply ends where a read ends. -/
theorem framed_iff_aligned {ending : Ending} {conn : List (Segment UInt8)} :
    Framed ending conn ↔ Aligned ending conn := by
  constructor
  · intro h n
    exact ⟨_, replies_suffix, by rw [← h n]; rfl⟩
  · intro ha n
    induction n generalizing conn with
    | zero => rfl
    | succ n ih =>
      rw [replies, replies]
      cases hres : readSMTPReply ending conn with
      | mk outcome conn' =>
        cases outcome with
        | error failure =>
          rw [nextReply_eq, hres]
          rfl
        | ok reply =>
          obtain ⟨hnext, ha'⟩ := ha.step hres
          rw [hnext]
          dsimp only
          rw [← ih ha']
          rfl

/-! A server that gives up right after its greeting, in one read and in two. -/

def greeting : Segment UInt8 :=
  ⟨"220 mx ready\r\n".toList.flatMap String.utf8EncodeChar, by decide +kernel⟩

def farewell : Segment UInt8 :=
  ⟨"421 4.3.2 closing\r\n".toList.flatMap String.utf8EncodeChar, by decide +kernel⟩

def oneRead : List (Segment UInt8) :=
  [⟨greeting.bytes ++ farewell.bytes, by decide +kernel⟩]

theorem earlyReply_lost :
    flat oneRead = flat [greeting, farewell] ∧
      (replies (readSMTPReply .timeout) [] 2 oneRead).1 ≠
        (replies (readSMTPReply .timeout) [] 2 [greeting, farewell]).1 ∧
      ¬ Framed .timeout oneRead := by
  refine ⟨by decide +kernel, ?_, ?_⟩
  · intro h
    have hok : (replies (readSMTPReply .timeout) [] 2 oneRead).1.map Except.isOk ≠
        (replies (readSMTPReply .timeout) [] 2 [greeting, farewell]).1.map Except.isOk := by
      decide +kernel
    exact hok (congrArg (List.map Except.isOk) h)
  · intro h
    have hrest : flat (replies (readSMTPReply .timeout) [] 1 oneRead).2 ≠
        (replies (nextReply .timeout) [] 1 (flat oneRead)).2 := by decide +kernel
    rw [← h 1, Prod.map_snd] at hrest
    exact hrest rfl

end ValidEmailVerifier.Smtp
