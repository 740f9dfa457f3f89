/-
# `Pipeline.Worker` — what an engine worker makes of a chunk input

`buildOutputs` of the Go worker: it reads the input line by line, asks the
verifier about every line that is an address, and writes one row for it to one
of three files.  The verifier itself is the table of verdicts it gives.
-/
import ValidEmailVerifier.Lib.GoStrings
import ValidEmailVerifier.Lib.Text
import ValidEmailVerifier.Pipeline.Schema

namespace ValidEmailVerifier.Worker

open Text

/-- `unicode.IsSpace`. -/
def isSpace (c : Char) : Bool :=
  c.val ∈ [0x09, 0x0A, 0x0B, 0x0C, 0x0D, 0x20, 0x85, 0xA0, 0x1680, 0x2028, 0x2029, 0x202F,
    0x205F, 0x3000] || (0x2000 ≤ c.val && c.val ≤ 0x200A)

/-- `strings.TrimSpace`. -/
def trimSpace (s : Text) : Text := trimBy isSpace s

/-- `isHeaderLine`. -/
def isHeaderLine (line : Text) : Bool :=
  let lower := GoStrings.toLower (trimSpace line)
  lower == "email".toList || "email,".toList.isPrefixOf lower ||
    "email;".toList.isPrefixOf lower || !line.contains '@'

/-- What the verifier says of an address: its category and the reason column. -/
abbrev Verdict := OutputType × Text

/-- The verifier as a table; what it does not know is risky. -/
def verify (verdicts : List (Text × Verdict)) (line : Text) : Verdict :=
  (verdicts.lookup line).getD (.risky, "unknown".toList)

/-- A line of an input: the inputs the pipeline writes have one column. -/
def inputLine (record : Record) : Text := record[0]?.getD []

/-- The lines `buildOutputs` asks the verifier about. -/
def lines (input : File) : List Text :=
  (input.map (fun r => trimSpace (inputLine r))).filter
    (fun line => line != [] && !isHeaderLine line)

/-- `[]string{"email", "reason"}`. -/
def header : Record := ["email".toList, "reason".toList]

/-- The rows written to one of the three files. -/
def outputRows (verdicts : List (Text × Verdict)) (input : File) (t : OutputType) :
    List Text :=
  (lines input).filter (fun line => (verify verdicts line).1 == t)

/-- `chunkOutputs`. -/
structure Outputs where
  files : PerType File
  emailCount : Nat
  counts : PerType Nat
  deriving DecidableEq, Repr

/-- One of the three files. -/
def outputFile (verdicts : List (Text × Verdict)) (input : File) (t : OutputType) : File :=
  header :: (outputRows verdicts input t).map (fun line => [line, (verify verdicts line).2])

/-- `buildOutputs`. -/
def buildOutputs (verdicts : List (Text × Verdict)) (input : File) : Outputs where
  files := ⟨outputFile verdicts input .valid, outputFile verdicts input .invalid,
    outputFile verdicts input .risky⟩
  emailCount := (lines input).length
  counts := ⟨(outputRows verdicts input .valid).length,
    (outputRows verdicts input .invalid).length, (outputRows verdicts input .risky).length⟩

/-- What is no letter is the lower case of itself only. -/
theorem eq_of_lowerChar_eq {c d : Char} (hc : c ∉ ['k', 'i'] ∧ ¬ 'Z'.val < c.val)
    (h : GoStrings.lowerChar d = c) : d = c := by
  obtain ⟨hnot, hlow⟩ := hc
  rw [GoStrings.lowerChar] at h
  split_ifs at h
  · exact absurd (h ▸ .head _) hnot
  · exact absurd (h ▸ .tail _ (.head _)) hnot
  · rcases toLower_cases d with hsame | hgt
    · exact hsame.symm.trans h
    · exact absurd (h ▸ hgt) hlow

/-- A sign that a line in lower case has near its beginning stands there in the line, before the
first quotation mark. -/
theorem mem_before_of_prefix_toLower {word e : Text} {c : Char}
    (hpre : word <+: GoStrings.toLower e) (hquote : '"' ∉ word) (hc : c ∈ word)
    (hself : ∀ d, GoStrings.lowerChar d = c → d = c) : c ∈ before '"' e := by
  obtain ⟨rest, hrest⟩ := hpre
  obtain ⟨front, back, rfl, hfront, -⟩ := List.map_eq_append_iff.mp hrest.symm
  have hunquoted : ∀ d ∈ front, (d != '"') = true := by
    intro d hd
    rw [bne_iff_ne]
    rintro rfl
    exact hquote (hfront ▸ List.mem_map.mpr ⟨'"', hd, by decide⟩)
  obtain ⟨d, hd, hlower⟩ := List.mem_map.mp (hfront ▸ hc)
  rw [before, List.takeWhile_append_of_pos hunquoted]
  exact List.mem_append_left _ (hself d hlower ▸ hd)

/-- Every line the verifier is asked about goes to one of the three files. -/
theorem outputRows_perm (verdicts : List (Text × Verdict)) (input : File) :
    (OutputType.all.flatMap (outputRows verdicts input)).Perm (lines input) :=
  OutputType.partition_perm (fun line => (verify verdicts line).1) (lines input)

end ValidEmailVerifier.Worker
