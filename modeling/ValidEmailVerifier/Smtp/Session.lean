/-
# `Smtp.Session` — the replies of one SMTP session

`readSMTPReply` and what it needs to take a reply apart, on the bytes of the
connection.  A reply is read line by line from a `LineSource`; the source of the
code is a buffered reader over the connection, and `readSMTPReply` makes a new one
on every call.

The reference is the same reading on the flat stream, `nextReply`.
-/
import ValidEmailVerifier.Lib.Segments
import ValidEmailVerifier.Smtp.Reply

namespace ValidEmailVerifier.Smtp

open Segments

/-- A Go string that comes from the connection. -/
abbrev Bytes := List UInt8

/-! ## Taking a line apart -/

/-- The characters of `unicode.IsSpace`, encoded. -/
def spaces : List Bytes :=
  (([0x09, 0x0A, 0x0B, 0x0C, 0x0D, 0x20, 0x85, 0xA0, 0x1680, 0x2000, 0x2001, 0x2002, 0x2003,
    0x2004, 0x2005, 0x2006, 0x2007, 0x2008, 0x2009, 0x200A, 0x2028, 0x2029, 0x202F, 0x205F,
    0x3000] : List Nat).map Char.ofNat).map String.utf8EncodeChar

/-- Leading spaces dropped; no space takes more than three bytes. -/
def trimLeft (spaces : List Bytes) : Bytes → Bytes
  | [] => []
  | a :: s =>
      if [a] ∈ spaces then trimLeft spaces s
      else
        match s with
        | [] => [a]
        | b :: s =>
            if [a, b] ∈ spaces then trimLeft spaces s
            else
              match s with
              | [] => [a, b]
              | c :: s => if [a, b, c] ∈ spaces then trimLeft spaces s else a :: b :: c :: s

/-- `strings.TrimSpace`. -/
def trimBytes (s : Bytes) : Bytes :=
  (trimLeft (spaces.map List.reverse) (trimLeft spaces s).reverse).reverse

def isDigit (b : UInt8) : Bool := 0x30 ≤ b && b ≤ 0x39

/-- A character of `\w`. -/
def isWord (b : UInt8) : Bool :=
  isDigit b || (0x41 ≤ b && b ≤ 0x5A) || (0x61 ≤ b && b ≤ 0x7A) || b == 0x5F

/-- The value of a string of digits. -/
def digits (s : Bytes) : Option Int :=
  if s ≠ [] ∧ s.all isDigit then
    some (s.foldl (fun n b => 10 * n + (b.toNat - 0x30 : Nat)) (0 : Int))
  else none

/-- `strconv.Atoi`, on strings too short to overflow. -/
def atoi : Bytes → Option Int
  | 0x2D :: s => (digits s).map Neg.neg
  | 0x2B :: s => digits s
  | s => digits s

def parseSMTPCode (line : Bytes) : Int :=
  if line.length < 3 then 0 else (atoi (line.take 3)).getD 0

def hasContinuation (line : Bytes) : Bool := line.getD 3 0 == 0x2D

def isTerminalLine (code : Int) (line : Bytes) : Bool :=
  if line.length < 4 then false
  else if parseSMTPCode line ≠ code then false
  else line.getD 3 0 == 0x20

/-- `pickReplyMessage`: the text of the last line that has any. -/
def pickReplyMessage (lines : List Bytes) : Bytes :=
  match lines.reverse.find? (fun line => trimBytes line ≠ []) with
  | none => []
  | some line =>
      let line := trimBytes line
      if 4 ≤ line.length then trimBytes (line.drop 4) else line

/-- The match of `[245]\.\d\.\d+\b` at the beginning of a text. -/
def statusAt : Bytes → Option Bytes
  | a :: 0x2E :: b :: 0x2E :: s =>
      let sub := s.takeWhile isDigit
      let next := s.dropWhile isDigit
      if ([0x32, 0x34, 0x35] : Bytes).contains a ∧ isDigit b ∧ sub ≠ [] ∧
          (next.head?.map isWord).getD false = false then
        some (a :: 0x2E :: b :: 0x2E :: sub)
      else none
  | _ => none

/-- The first match that no word character precedes. -/
def findStatus (afterWord : Bool) : Bytes → Option Bytes
  | [] => none
  | b :: s =>
      match if afterWord then none else statusAt (b :: s) with
      | some status => some status
      | none => findStatus (isWord b) s

/-- `extractEnhancedStatus`: the status code in the first line that has one. -/
def extractEnhancedStatus (lines : List Bytes) : Bytes :=
  (lines.findSome? (findStatus false)).getD []

/-! ## Reading a reply -/

/-- Something that lines can be read from, one after the other, to an end; `ended` is
what is left of it after a read has failed. -/
structure LineSource (σ : Type) where
  readLine : σ → Option (Bytes × σ)
  ended : σ
  size : σ → Nat
  size_readLine {s s' : σ} {line : Bytes} : readLine s = some (line, s') → size s' < size s

/-- How the connection ends: nothing more arrives in time, or it is closed. -/
inductive Ending where
  | timeout | closed
  deriving DecidableEq, Repr

/-- The result that stands for a reply that could not be read. -/
structure ReadFailure where
  category : Category := .risky
  reason : Text
  reasonCode : Text
  decisionClass : DecisionClass
  deriving DecidableEq, Repr

/-- The failure of the first read of a reply. -/
def Ending.failure : Ending → ReadFailure
  | .timeout => ⟨.risky, "smtp_timeout".toList, "smtp_timeout".toList, .retryable⟩
  | .closed => ⟨.risky, "smtp_tempfail".toList, "smtp_read_error".toList, .retryable⟩

def malformedReply : ReadFailure :=
  ⟨.risky, "smtp_tempfail".toList, "smtp_malformed_reply".toList, .unknown⟩

abbrev Outcome := Except ReadFailure (SmtpReply Bytes)

variable {σ τ : Type}

/-- The lines after the first, to the terminal one or to the end of the source. -/
def LineSource.continuation (src : LineSource σ) (code : Int) (s : σ) : List Bytes × σ :=
  match _h : src.readLine s with
  | none => ([], src.ended)
  | some (line, s') =>
      if isTerminalLine code (trimBytes line) then ([trimBytes line], s')
      else
        let (lines, s'') := src.continuation code s'
        (trimBytes line :: lines, s'')
termination_by src.size s
decreasing_by exact src.size_readLine (by assumption)

/-- A reply, and what is left of the source. -/
def LineSource.readReply (src : LineSource σ) (ending : Ending) (s : σ) : Outcome × σ :=
  match src.readLine s with
  | none => (.error ending.failure, src.ended)
  | some (line, s) =>
      let trimmed := trimBytes line
      let code := parseSMTPCode trimmed
      let (more, s) :=
        if hasContinuation trimmed then src.continuation code s else ([], s)
      let lines := trimmed :: more
      if code = 0 then (.error malformedReply, s)
      else (.ok ⟨code, extractEnhancedStatus lines, pickReplyMessage lines, lines⟩, s)

/-- The lines of a stream that is there as a whole. -/
def flatSource : LineSource Bytes where
  readLine := splitRecord 0x0A
  ended := []
  size := List.length
  size_readLine h := by
    obtain ⟨rfl, hne⟩ := splitRecord_eq_some h
    have := List.length_pos_iff.mpr hne
    rw [List.length_append]
    omega

/-- The lines of a `bufio.Reader` over the connection, `ReadString('\n')`. -/
def bufioSource : LineSource (Reader UInt8) where
  readLine r := readUntil 0x0A r.buffer r.segments
  ended := ⟨[], []⟩
  size r := r.flat.length
  size_readLine {s s' line} h := by
    have hflat := @readUntil_flat _ _ 0x0A s.buffer s.segments
    rw [h, Option.map_some] at hflat
    exact flatSource.size_readLine hflat.symm

/-- `readSMTPReply`: what the reader has read beyond the reply goes with the reader. -/
def readSMTPReply (ending : Ending) (conn : List (Segment UInt8)) :
    Outcome × List (Segment UInt8) :=
  let (outcome, reader) := bufioSource.readReply ending ⟨[], conn⟩
  (outcome, reader.segments)

/-- The next reply of the stream. -/
def nextReply (ending : Ending) (stream : Bytes) : Outcome × Bytes :=
  flatSource.readReply ending stream

/-- Successive calls on one session; the first that fails closes it. -/
def replies (call : σ → Outcome × σ) (closed : σ) : Nat → σ → List Outcome × σ
  | 0, s => ([], s)
  | n + 1, s =>
      match call s with
      | (.error failure, _) => ([.error failure], closed)
      | (.ok reply, s) =>
          let (rest, s) := replies call closed n s
          (.ok reply :: rest, s)

end ValidEmailVerifier.Smtp
