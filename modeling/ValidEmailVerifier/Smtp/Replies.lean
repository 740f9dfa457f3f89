/-
# `Smtp.Replies` — which streams are read as a reply

A reply is complete when its lines carry one code, all but the last of them followed by a
hyphen and the last one by a blank or by nothing.  `WireReply` is such a reply, and
`ReadsExactly` says that `readSMTPReply` takes the complete replies for replies, no other
beginning of a stream, and stops at their last line.

It does so on the streams that are `Sure` (`readsExactly_iff`).  On the others it takes the end
of the stream for the end of the reply, overlooks a last line without text, does not look at the
lines in between, or reads a code where there is none.
-/
import ValidEmailVerifier.Smtp.Framing

namespace ValidEmailVerifier.Smtp

open Segments

/-! ## Complete replies -/

/-- What stands between the code and the end of the last line: a text after a blank, or
nothing. -/
def Closes (tail : Bytes) : Prop := tail = [] ∨ tail = [0x0D] ∨ ∃ text, tail = 0x20 :: text

/-- A complete reply: the texts of the lines before the last, and what follows the code on
the last. -/
structure WireReply where
  code : Bytes
  texts : List Bytes := []
  tail : Bytes := []
  code_length : code.length = 3
  code_digits : code.all isDigit = true
  texts_oneLine : ∀ text ∈ texts, 0x0A ∉ text
  tail_oneLine : 0x0A ∉ tail
  tail_closes : Closes tail

namespace WireReply

/-- A line that another one follows. -/
def continued (code text : Bytes) : Bytes := code ++ 0x2D :: text ++ [0x0A]

def bytes (r : WireReply) : Bytes :=
  (r.texts.map (continued r.code)).flatten ++ (r.code ++ r.tail ++ [0x0A])

/-- The number that the code is. -/
def value (r : WireReply) : Int := (digits r.code).getD 0

end WireReply

/-- The stream begins with a complete reply. -/
def StartsWithReply (stream : Bytes) : Prop := ∃ (r : WireReply) (rest : Bytes),
  stream = r.bytes ++ rest

/-! ## Reading that is watched -/

/-- The lines of a flat stream, and whether a read has failed. -/
def watchedSource : LineSource (Bytes × Bool) where
  readLine s := (splitRecord 0x0A s.1).map fun (line, rest) => (line, rest, s.2)
  ended := ([], true)
  size s := s.1.length
  size_readLine {s s' line} h := by
    obtain ⟨⟨line', rest⟩, hread, heq⟩ := Option.map_eq_some_iff.mp h
    obtain ⟨rfl, rfl⟩ := Prod.mk.inj heq
    exact flatSource.size_readLine hread

theorem watched_simulates : watchedSource.Simulates flatSource Prod.fst where
  readLine s := by
    show ((splitRecord 0x0A s.1).map _).map _ = splitRecord 0x0A s.1
    rw [Option.map_map]
    exact congrFun Option.map_id _
  ended := rfl

/-- `readSMTPReply` takes exactly the complete replies: it returns one if and only if the stream
begins with one, and then with its code, after the last line of it and before any other. -/
def ReadsExactly (ending : Ending) (conn : List (Segment UInt8)) : Prop :=
  ((∃ reply, (readSMTPReply ending conn).1 = .ok reply) ↔ StartsWithReply (flat conn)) ∧
    ∀ (r : WireReply) (rest : Bytes), flat conn = r.bytes ++ rest →
      ∃ reply, (readSMTPReply ending conn).1 = .ok reply ∧ reply.code = r.value ∧
        (watchedSource.readReply ending (flat conn, false)).2 = (rest, false)

/-! ## Trimming -/

/-- `strings.TrimRightFunc`, of spaces. -/
def trimRight (s : Bytes) : Bytes := (trimLeft (spaces.map List.reverse) s.reverse).reverse

/-- A byte that is part of no space ends the trimming. -/
theorem trimLeft_append {marks : List Bytes} {a : UInt8} (ha : ∀ mark ∈ marks, a ∉ mark)
    (s t : Bytes) : trimLeft marks (s ++ a :: t) = trimLeft marks s ++ a :: t := by
  have hsolid : ∀ {mark : Bytes}, a ∈ mark → mark ∉ marks := fun h hm => ha _ hm h
  fun_induction trimLeft marks s with
  | case1 =>
    cases t with
    | nil => simp [trimLeft, hsolid]
    | cons b t =>
      cases t with
      | nil => simp [trimLeft, hsolid]
      | cons c t => simp [trimLeft, hsolid]
  | case2 b s hb ih =>
    rw [List.cons_append, trimLeft.eq_def]
    dsimp only
    rw [if_pos hb, ih]
  | case3 b hb =>
    cases t with
    | nil => simp [trimLeft, hsolid, hb]
    | cons c t => simp [trimLeft, hsolid, hb]
  | case4 b hb c s hc ih =>
    rw [List.cons_append, List.cons_append, trimLeft.eq_def]
    dsimp only
    rw [if_neg hb, if_pos hc, ih]
  | case5 b hb c hc => simp [trimLeft, hsolid, hb, hc]
  | case6 b hb c hc d s hd ih =>
    simp only [List.cons_append, trimLeft, if_neg hb, if_neg hc, if_pos hd, ih]
  | case7 b hb c hc d s hd =>
    simp only [List.cons_append, trimLeft, if_neg hb, if_neg hc, if_neg hd]

/-- What trimming leaves is the end of the string. -/
theorem trimLeft_suffix {marks : List Bytes} (s : Bytes) : trimLeft marks s <:+ s := by
  fun_induction trimLeft marks s with
  | case1 => exact List.suffix_refl _
  | case2 b s _ ih => exact ih.trans (List.suffix_cons b s)
  | case3 b => exact List.suffix_refl _
  | case4 b _ c s _ ih => exact ih.trans ⟨[b, c], rfl⟩
  | case5 b _ c => exact List.suffix_refl _
  | case6 b _ c _ d s _ ih => exact ih.trans ⟨[b, c, d], rfl⟩
  | case7 b _ c _ d s => exact List.suffix_refl _

theorem trimRight_prefix (s : Bytes) : trimRight s <+: s := by
  rw [← List.reverse_reverse s, trimRight, List.reverse_reverse, List.reverse_prefix]
  exact trimLeft_suffix _

/-- A line feed at the end is trimmed. -/
theorem trimRight_lineFeed (s : Bytes) : trimRight (s ++ [0x0A]) = trimRight s := by
  have hmem : [0x0A] ∈ spaces.map List.reverse := by decide +kernel
  rw [trimRight, List.reverse_append, List.reverse_singleton, List.singleton_append,
    trimLeft.eq_def]
  dsimp only
  rw [if_pos hmem]
  rfl

theorem solid_of_spaces {b : UInt8} (h : isDigit b = true ∨ b = 0x2D) :
    (∀ mark ∈ spaces, b ∉ mark) ∧ ∀ mark ∈ spaces.map List.reverse, b ∉ mark := by
  have hall : ∀ mark ∈ spaces, ∀ c ∈ mark, isDigit c = false ∧ c ≠ 0x2D := by decide +kernel
  have hsolid : ∀ mark ∈ spaces, b ∉ mark := by
    intro mark hmark hb
    obtain ⟨hdigit, hhyphen⟩ := hall mark hmark b hb
    rcases h with h | h
    · exact Bool.false_ne_true (hdigit.symm.trans h)
    · exact hhyphen h
  refine ⟨hsolid, fun mark hmark => ?_⟩
  obtain ⟨mark', hmark', rfl⟩ := List.mem_map.mp hmark
  rw [List.mem_reverse]
  exact hsolid mark' hmark'

theorem trimRight_hyphen (s : Bytes) : trimRight (0x2D :: s) = 0x2D :: trimRight s := by
  rw [trimRight, List.reverse_cons, trimLeft_append (solid_of_spaces (.inr rfl)).2,
    List.reverse_append]
  rfl

namespace WireReply

variable (r : WireReply)

theorem exists_digits : ∃ a b c, r.code = [a, b, c] ∧ isDigit a = true ∧ isDigit b = true ∧
    isDigit c = true := by
  obtain ⟨a, b, c, hcode⟩ := List.length_eq_three.mp r.code_length
  have hdigits := r.code_digits
  rw [hcode] at hdigits
  simp only [List.all_cons, List.all_nil, Bool.and_true, Bool.and_eq_true] at hdigits
  exact ⟨a, b, c, hcode, hdigits.1, hdigits.2.1, hdigits.2.2⟩

/-- A line that begins with a code is trimmed behind it only. -/
theorem trimBytes_line (s : Bytes) : trimBytes (r.code ++ s) = r.code ++ trimRight s := by
  obtain ⟨a, b, c, hcode, ha, -, hc⟩ := r.exists_digits
  have hleft : trimLeft spaces ([] ++ a :: b :: c :: s) = [] ++ a :: b :: c :: s :=
    trimLeft_append (solid_of_spaces (.inl ha)).1 [] (b :: c :: s)
  have hright : trimLeft (spaces.map List.reverse) (s.reverse ++ c :: [b, a]) =
      trimLeft (spaces.map List.reverse) s.reverse ++ c :: [b, a] :=
    trimLeft_append (solid_of_spaces (.inl hc)).2 s.reverse [b, a]
  rw [hcode]
  show (trimLeft _ (trimLeft spaces (a :: b :: c :: s)).reverse).reverse = _
  rw [show trimLeft spaces (a :: b :: c :: s) = a :: b :: c :: s from hleft]
  rw [show (a :: b :: c :: s).reverse = s.reverse ++ c :: [b, a] by simp, hright]
  simp [trimRight]

theorem trimBytes_continued (text : Bytes) :
    trimBytes (continued r.code text) = r.code ++ 0x2D :: trimRight text := by
  rw [continued, List.append_assoc, r.trimBytes_line, List.cons_append, trimRight_hyphen,
    trimRight_lineFeed]

theorem trimBytes_closing :
    trimBytes (r.code ++ r.tail ++ [0x0A]) = r.code ++ trimRight r.tail := by
  rw [List.append_assoc, r.trimBytes_line, trimRight_lineFeed]

/-! ## What the lines of a reply say -/

theorem parseSMTPCode_line (s : Bytes) : parseSMTPCode (r.code ++ s) = r.value := by
  obtain ⟨a, b, c, hcode, ha, -, -⟩ := r.exists_digits
  rw [parseSMTPCode, if_neg (by rw [List.length_append, r.code_length]; omega),
    List.take_left' r.code_length, value, hcode, atoi]
  · intro s heq
    rw [(List.cons.inj heq).1] at ha
    exact nomatch ha
  · intro s heq
    rw [(List.cons.inj heq).1] at ha
    exact nomatch ha

theorem getD_line (s : Bytes) : (r.code ++ s).getD 3 0 = s.getD 0 0 := by
  obtain ⟨a, b, c, hcode, -⟩ := r.exists_digits
  rw [hcode]
  rfl

/-- The text behind a blank keeps the blank, unless all of it is trimmed. -/
theorem getD_trimRight_tail :
    (trimRight r.tail).getD 0 0 = if trimRight r.tail = [] then 0 else 0x20 := by
  obtain ⟨rest, hrest⟩ := trimRight_prefix r.tail
  cases htrim : trimRight r.tail with
  | nil => rfl
  | cons b s =>
    rw [htrim] at hrest
    rw [if_neg (List.cons_ne_nil b s), List.getD_cons_zero]
    rcases r.tail_closes with htail | htail | ⟨text, htail⟩
    · rw [htail] at hrest
      exact nomatch hrest
    · have hcr : trimRight [0x0D] = [] := by decide +kernel
      rw [htail, hcr] at htrim
      exact nomatch htrim
    · rw [htail] at hrest
      exact (List.cons.inj hrest).1

theorem isTerminalLine_continued (text : Bytes) :
    isTerminalLine r.value (trimBytes (continued r.code text)) = false := by
  rw [r.trimBytes_continued, isTerminalLine]
  split_ifs
  · rfl
  · rfl
  · rw [r.getD_line]
    rfl

theorem isTerminalLine_closing :
    isTerminalLine r.value (trimBytes (r.code ++ r.tail ++ [0x0A])) =
      decide (trimRight r.tail ≠ []) := by
  rw [r.trimBytes_closing, isTerminalLine, r.parseSMTPCode_line, r.getD_line,
    r.getD_trimRight_tail, List.length_append, r.code_length]
  cases htrim : trimRight r.tail with
  | nil => rfl
  | cons b s =>
    rw [if_neg (by rw [List.length_cons]; omega), if_neg (not_not_intro rfl),
      if_neg (List.cons_ne_nil b s)]
    rfl

theorem hasContinuation_continued (text : Bytes) :
    hasContinuation (trimBytes (continued r.code text)) = true := by
  rw [r.trimBytes_continued, hasContinuation, r.getD_line]
  rfl

theorem hasContinuation_closing :
    hasContinuation (trimBytes (r.code ++ r.tail ++ [0x0A])) = false := by
  rw [r.trimBytes_closing, hasContinuation, r.getD_line, r.getD_trimRight_tail]
  split_ifs
  · rfl
  · rfl

end WireReply

/-! ## Reading lines -/

theorem splitRecord_oneLine {s : Bytes} (hs : 0x0A ∉ s) (rest : Bytes) :
    splitRecord 0x0A (s ++ [0x0A] ++ rest) = some (s ++ [0x0A], rest) := by
  induction s with
  | nil => rfl
  | cons b s ih =>
    obtain ⟨hb, hs⟩ := List.ne_and_not_mem_of_not_mem_cons hs
    rw [List.cons_append, List.cons_append, splitRecord, if_neg (Ne.symm hb), ih hs]
    rfl

theorem readLine_oneLine {line : Bytes} (hline : 0x0A ∉ line) (rest : Bytes) (failed : Bool) :
    watchedSource.readLine (line ++ [0x0A] ++ rest, failed) =
      some (line ++ [0x0A], rest, failed) := by
  show (splitRecord 0x0A _).map _ = _
  rw [splitRecord_oneLine hline]
  rfl

namespace LineSource

variable {src : LineSource σ} {ending : Ending} {s s' : σ} {line : Bytes}

/-- The lines that are read are gone. -/
theorem size_continuation (code : Int) (s : σ) :
    (src.continuation code s).2 = src.ended ∨
      src.size (src.continuation code s).2 < src.size s := by
  fun_induction continuation src code s with
  | case1 s hread => exact .inl rfl
  | case2 s line rest hread _ => exact .inr (src.size_readLine hread)
  | case3 s line rest hread _ lines last hrest ih =>
    rw [hrest] at ih
    exact ih.imp_right fun h => Nat.lt_trans h (src.size_readLine hread)

theorem continuation_of_terminal {code : Int} (hread : src.readLine s = some (line, s'))
    (hterm : isTerminalLine code (trimBytes line) = true) : (src.continuation code s).2 = s' := by
  rw [continuation.eq_def, hread]
  dsimp only
  rw [if_pos hterm]

theorem continuation_of_other {code : Int} (hread : src.readLine s = some (line, s'))
    (hterm : isTerminalLine code (trimBytes line) = false) :
    (src.continuation code s).2 = (src.continuation code s').2 := by
  rw [continuation.eq_def, hread]
  dsimp only
  rw [if_neg (by rw [hterm]; exact Bool.false_ne_true)]

/-- After its first line a reply is read to its end if another line is announced. -/
theorem readReply_snd (hread : src.readLine s = some (line, s')) :
    (src.readReply ending s).2 = if hasContinuation (trimBytes line) then
      (src.continuation (parseSMTPCode (trimBytes line)) s').2 else s' := by
  rw [readReply, hread]
  dsimp only
  split_ifs
  · rfl
  · rfl
  · rfl
  · rfl

/-- It is a reply exactly if its first line begins with a number other than zero. -/
theorem readReply_ok (hread : src.readLine s = some (line, s')) :
    (∃ reply, (src.readReply ending s).1 = .ok reply ∧
      reply.code = parseSMTPCode (trimBytes line)) ↔ parseSMTPCode (trimBytes line) ≠ 0 := by
  rw [readReply, hread]
  dsimp only
  constructor
  · rintro ⟨reply, hreply, -⟩ hzero
    split at hreply
    · cases hreply
    · next hne => exact hne hzero
  · intro hne
    rw [if_neg hne]
    exact ⟨_, rfl, rfl⟩

end LineSource

namespace WireReply

variable (r : WireReply) (ending : Ending) (rest : Bytes)

theorem code_oneLine : (0x0A : UInt8) ∉ r.code := by
  intro hmem
  exact nomatch List.all_eq_true.mp r.code_digits _ hmem

theorem readLine_closing (failed : Bool) :
    watchedSource.readLine (r.code ++ r.tail ++ [0x0A] ++ rest, failed) =
      some (r.code ++ r.tail ++ [0x0A], rest, failed) :=
  readLine_oneLine (fun hmem => (List.mem_append.mp hmem).elim r.code_oneLine r.tail_oneLine)
    rest failed

theorem readLine_continued {text : Bytes} (htext : 0x0A ∉ text) (failed : Bool) :
    watchedSource.readLine (continued r.code text ++ rest, failed) =
      some (continued r.code text, rest, failed) := by
  have hline : 0x0A ∉ r.code ++ 0x2D :: text := by
    intro hmem
    rcases List.mem_append.mp hmem with hcode | htail
    · exact r.code_oneLine hcode
    · rcases List.mem_cons.mp htail with heq | hmem
      · exact nomatch heq
      · exact htext hmem
  exact readLine_oneLine hline rest failed

/-- The lines that others follow are passed over. -/
theorem continuation_texts {texts : List Bytes} (htexts : ∀ text ∈ texts, 0x0A ∉ text)
    (s : Bytes) :
    (watchedSource.continuation r.value ((texts.map (continued r.code)).flatten ++ s, false)).2 =
      (watchedSource.continuation r.value (s, false)).2 := by
  induction texts with
  | nil => rfl
  | cons text texts ih =>
    obtain ⟨htext, htexts⟩ := List.forall_mem_cons.mp htexts
    rw [List.map_cons, List.flatten_cons, List.append_assoc,
      LineSource.continuation_of_other (r.readLine_continued _ htext false)
        (r.isTerminalLine_continued text), ih htexts]

/-- The last line ends the reading if its text is not blank; if it is, reading goes on. -/
theorem continuation_closing :
    (watchedSource.continuation r.value (r.code ++ r.tail ++ [0x0A] ++ rest, false)).2 =
      (rest, false) ↔ trimRight r.tail ≠ [] := by
  have hread := r.readLine_closing rest false
  have hterm := r.isTerminalLine_closing
  constructor
  · intro hstop htrim
    rw [htrim] at hterm
    rw [LineSource.continuation_of_other hread hterm] at hstop
    rcases watchedSource.size_continuation r.value (rest, false) with hended | hsize
    · rw [hstop] at hended
      exact nomatch congrArg Prod.snd hended
    · rw [hstop] at hsize
      exact Nat.lt_irrefl _ hsize
  · intro htrim
    exact LineSource.continuation_of_terminal hread (hterm.trans (decide_eq_true htrim))

theorem bytes_single (htexts : r.texts = []) : r.bytes = r.code ++ r.tail ++ [0x0A] := by
  rw [bytes, htexts]
  rfl

theorem bytes_more {text : Bytes} {texts : List Bytes} (htexts : r.texts = text :: texts) :
    r.bytes ++ rest = continued r.code text ++
      ((texts.map (continued r.code)).flatten ++ (r.code ++ r.tail ++ [0x0A] ++ rest)) := by
  simp only [bytes, htexts, List.map_cons, List.flatten_cons, List.append_assoc]

/-- Reading stops at the last line of a reply of one line, and at one with a text. -/
theorem readReply_stops :
    (watchedSource.readReply ending (r.bytes ++ rest, false)).2 = (rest, false) ↔
      r.texts = [] ∨ trimRight r.tail ≠ [] := by
  cases htexts : r.texts with
  | nil =>
    rw [r.bytes_single htexts, LineSource.readReply_snd (r.readLine_closing rest false),
      r.hasContinuation_closing, if_neg Bool.false_ne_true]
    exact iff_of_true rfl (.inl rfl)
  | cons text texts =>
    have honeLine := r.texts_oneLine
    rw [htexts] at honeLine
    obtain ⟨htext, honeLine⟩ := List.forall_mem_cons.mp honeLine
    rw [r.bytes_more rest htexts,
      LineSource.readReply_snd (r.readLine_continued _ htext false),
      r.hasContinuation_continued, if_pos rfl, r.trimBytes_continued, r.parseSMTPCode_line,
      r.continuation_texts honeLine, r.continuation_closing]
    exact ⟨.inr, fun h => h.resolve_left (List.cons_ne_nil _ _)⟩

/-- The first line of a reply begins with its code. -/
theorem exists_readLine : ∃ (line : Bytes) (after : Bytes × Bool),
    watchedSource.readLine (r.bytes ++ rest, false) = some (line, after) ∧
      parseSMTPCode (trimBytes line) = r.value := by
  cases htexts : r.texts with
  | nil =>
    rw [r.bytes_single htexts]
    refine ⟨_, _, r.readLine_closing rest false, ?_⟩
    rw [r.trimBytes_closing, r.parseSMTPCode_line]
  | cons text texts =>
    have htext := r.texts_oneLine text (by rw [htexts]; exact .head _)
    rw [r.bytes_more rest htexts]
    refine ⟨_, _, r.readLine_continued _ htext false, ?_⟩
    rw [r.trimBytes_continued, r.parseSMTPCode_line]

theorem readReply_ok :
    (∃ reply, (watchedSource.readReply ending (r.bytes ++ rest, false)).1 = .ok reply ∧
      reply.code = r.value) ↔ r.value ≠ 0 := by
  obtain ⟨line, after, hread, hcode⟩ := r.exists_readLine rest
  rw [← hcode]
  exact LineSource.readReply_ok hread

end WireReply

/-! ## Sure streams -/

/-- What the worker takes for the code of the first line. -/
def openingCode (stream : Bytes) : Int :=
  match splitRecord 0x0A stream with
  | none => 0
  | some (line, _) => parseSMTPCode (trimBytes line)

/-- A stream that begins with a complete reply whose code is not zero, and whose last line, if
it is not the only one, has a text; or one that begins with no complete reply, and with no line
that seems to have a code. -/
def Sure (stream : Bytes) : Prop :=
  (∀ (r : WireReply) (rest : Bytes), stream = r.bytes ++ rest →
      r.value ≠ 0 ∧ (r.texts = [] ∨ trimRight r.tail ≠ [])) ∧
    (¬ StartsWithReply stream → openingCode stream = 0)

/-- The worker reads what the watched source reads. -/
theorem readSMTPReply_watched (ending : Ending) (conn : List (Segment UInt8)) :
    (readSMTPReply ending conn).1 = (watchedSource.readReply ending (flat conn, false)).1 := by
  have hflat : (nextReply ending (flat conn)).1 = (readSMTPReply ending conn).1 := by
    rw [nextReply_eq]
  have hwatched := watched_simulates.readReply ending (flat conn, false)
  rw [← hflat, nextReply, hwatched]

theorem ok_iff_openingCode (ending : Ending) (stream : Bytes) :
    (∃ reply, (watchedSource.readReply ending (stream, false)).1 = .ok reply) ↔
      openingCode stream ≠ 0 := by
  cases hread : splitRecord 0x0A stream with
  | none =>
    have hnone : watchedSource.readLine (stream, false) = none := by
      show (splitRecord 0x0A stream).map _ = none
      rw [hread]
      rfl
    rw [openingCode, hread, LineSource.readReply, hnone]
    exact iff_of_false (by simp) (not_not_intro rfl)
  | some found =>
    have hsome : watchedSource.readLine (stream, false) = some (found.1, found.2, false) := by
      show (splitRecord 0x0A stream).map _ = _
      rw [hread]
      rfl
    rw [openingCode, hread]
    constructor
    · rintro ⟨reply, hreply⟩ hzero
      rw [LineSource.readReply, hsome] at hreply
      dsimp only at hreply hzero
      rw [if_pos hzero] at hreply
      cases hreply
    · intro hne
      obtain ⟨reply, hreply, -⟩ := (LineSource.readReply_ok hsome).mpr hne
      exact ⟨reply, hreply⟩

/-- The worker reads exactly the complete replies of the streams that are sure. -/
theorem readsExactly_iff (ending : Ending) (conn : List (Segment UInt8)) :
    ReadsExactly ending conn ↔ Sure (flat conn) := by
  rw [ReadsExactly, readSMTPReply_watched, ok_iff_openingCode]
  constructor
  · rintro ⟨hok, hreplies⟩
    refine ⟨fun r rest hstream => ?_, fun hnone => ?_⟩
    · obtain ⟨reply, hreply, hcode, hstop⟩ := hreplies r rest hstream
      rw [hstream] at hreply hstop
      exact ⟨(r.readReply_ok ending rest).mp ⟨reply, hreply, hcode⟩,
        (r.readReply_stops ending rest).mp hstop⟩
    · by_contra hne
      exact hnone (hok.mp hne)
  · rintro ⟨hcomplete, hother⟩
    have hreads : ∀ (r : WireReply) (rest : Bytes), flat conn = r.bytes ++ rest →
        ∃ reply, (watchedSource.readReply ending (flat conn, false)).1 = .ok reply ∧
          reply.code = r.value ∧
          (watchedSource.readReply ending (flat conn, false)).2 = (rest, false) := by
      intro r rest hstream
      obtain ⟨hvalue, hlast⟩ := hcomplete r rest hstream
      rw [hstream]
      obtain ⟨reply, hreply, hcode⟩ := (r.readReply_ok ending rest).mpr hvalue
      exact ⟨reply, hreply, hcode, (r.readReply_stops ending rest).mpr hlast⟩
    refine ⟨⟨fun hne => ?_, ?_⟩, hreads⟩
    · by_contra hnone
      exact hne (hother hnone)
    · rintro ⟨r, rest, hstream⟩
      obtain ⟨reply, hreply, -⟩ := hreads r rest hstream
      exact (ok_iff_openingCode ending _).mp ⟨reply, hreply⟩

/-- A stream that ends with a line that another one should follow begins with no complete
reply. -/
theorem not_startsWithReply {stream line : Bytes}
    (hread : splitRecord 0x0A stream = some (line, []))
    (hmore : hasContinuation (trimBytes line) = true) : ¬ StartsWithReply stream := by
  rintro ⟨r, rest, rfl⟩
  have hsome : watchedSource.readLine (r.bytes ++ rest, false) = some (line, [], false) := by
    show (splitRecord 0x0A (r.bytes ++ rest)).map _ = _
    rw [hread]
    rfl
  cases htexts : r.texts with
  | nil =>
    rw [r.bytes_single htexts, r.readLine_closing] at hsome
    rw [← (Prod.mk.inj (Option.some.inj hsome)).1, r.hasContinuation_closing] at hmore
    exact Bool.false_ne_true hmore
  | cons text texts =>
    have htext := r.texts_oneLine text (by rw [htexts]; exact .head _)
    rw [r.bytes_more rest htexts, r.readLine_continued _ htext] at hsome
    have hafter := congrArg Prod.fst (Prod.mk.inj (Option.some.inj hsome)).2
    simp at hafter

/-- The first of several lines, after which the connection is closed. -/
def cutGreeting : Segment UInt8 :=
  ⟨"250-mx.example\r\n".toList.flatMap String.utf8EncodeChar, by decide +kernel⟩

/-- It is a reply. -/
theorem readsExactly_cutGreeting : ¬ ReadsExactly .closed [cutGreeting] := by
  rintro ⟨hok, -⟩
  have hread : splitRecord 0x0A (flat [cutGreeting]) = some (flat [cutGreeting], []) := by
    decide +kernel
  have hmore : hasContinuation (trimBytes (flat [cutGreeting])) = true := by decide +kernel
  have hcode : openingCode (flat [cutGreeting]) ≠ 0 := by decide +kernel
  rw [readSMTPReply_watched, ok_iff_openingCode] at hok
  exact not_startsWithReply hread hmore (hok.mp hcode)

end ValidEmailVerifier.Smtp
