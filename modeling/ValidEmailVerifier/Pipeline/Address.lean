/-
# `Pipeline.Address` — the readers of an output file agree

Four programs read the same files: the worker its input, the probe planner and
the retry planner a chunk's outputs, and the merge all of them, each with its
own idea of a header and of an address.  On addresses the parser accepted
(`Clean`) and files of header and address rows (`OutputFile`) they see the same
addresses, `VerificationResultsMerger.emails`.
-/
import ValidEmailVerifier.Pipeline.ParseAndChunkJob
import ValidEmailVerifier.Pipeline.ScreeningToProbeChunkPlanner
import ValidEmailVerifier.Pipeline.TempfailRetryPlanner
import ValidEmailVerifier.Pipeline.Worker

namespace ValidEmailVerifier

open Text

/-- What `FILTER_VALIDATE_EMAIL` promises of an address it passes: there is an
`@`, there is no white space around it, and no comma or semicolon stands outside
a quoted part. -/
structure Php.Lawful (php : Php) : Prop where
  at_mem : ∀ e, php.filterVarEmail e = true → '@' ∈ e
  trimSpace : ∀ e, php.filterVarEmail e = true → Worker.trimSpace e = e
  no_separator : ∀ e, php.filterVarEmail e = true → ∀ c ∈ before '"' e, c ≠ ',' ∧ c ≠ ';'

/-- An address as the parser accepts it. -/
structure Clean (php : Php) (e : Text) : Prop where
  trim : trim e = e
  lower : strtolower e = e
  valid : php.filterVarEmail e = true

/-- What `normalizeEmail` of the parser returns is clean. -/
theorem clean_of_normalizeEmail {php : Php} {raw e : Text}
    (h : ParseAndChunkJob.normalizeEmail php raw = some e) : Clean php e := by
  unfold ParseAndChunkJob.normalizeEmail at h
  split at h
  · exact nomatch h
  · simp only at h
    split at h
    next hv =>
      simp only [Option.some.injEq] at h
      subst h
      refine ⟨?_, ?_, hv⟩
      · refine trimBy_trimBy (fun c hc => ?_) _
        simp [ParseAndChunkJob.isDelimiter, hc]
      · exact strtolower_of_sublist (trimBy_sublist _ _)
    next => exact nomatch h

namespace Clean

variable {php : Php} {e : Text}

theorem ne_nil (hphp : php.Lawful) (h : Clean php e) : e ≠ [] :=
  List.ne_nil_of_mem (hphp.at_mem e h.valid)

/-- An address is not the word of the header. -/
theorem ne_email (hphp : php.Lawful) (h : Clean php e) : e ≠ "email".toList := by
  rintro rfl
  exact absurd (hphp.at_mem _ h.valid) (by decide)

/-- The planner's `normalizeEmail` keeps it. -/
theorem normalizeEmail (hphp : php.Lawful) (h : Clean php e) :
    ScreeningToProbeChunkPlanner.normalizeEmail php e = some e := by
  simp [ScreeningToProbeChunkPlanner.normalizeEmail, h.trim, h.lower, h.valid, h.ne_nil hphp]

/-- The worker does not take it for a header. -/
theorem not_header (hphp : php.Lawful) (h : Clean php e) :
    Worker.isHeaderLine e = false := by
  have hsep : ∀ c : Char, c = ',' ∨ c = ';' →
      ("email".toList ++ [c]).isPrefixOf (GoStrings.toLower e) = false := by
    intro c hc
    rw [Bool.eq_false_iff, ne_eq, List.isPrefixOf_iff_prefix]
    intro hprefix
    have hmem : c ∈ before '"' e := by
      refine Worker.mem_before_of_prefix_toLower hprefix ?_ (by simp) ?_
      · rcases hc with rfl | rfl
        · decide
        · decide
      · rcases hc with rfl | rfl
        · exact fun d hd => Worker.eq_of_lowerChar_eq (by decide) hd
        · exact fun d hd => Worker.eq_of_lowerChar_eq (by decide) hd
    have hno := hphp.no_separator _ h.valid c hmem
    rcases hc with rfl | rfl
    · exact hno.1 rfl
    · exact hno.2 rfl
  have hat : e.contains '@' = true := by simpa using hphp.at_mem e h.valid
  have h1 : (GoStrings.toLower e == "email".toList) = false := by
    rw [beq_eq_false_iff_ne]
    intro heq
    have hlower : '@' ∈ GoStrings.toLower e :=
      List.mem_map.mpr ⟨'@', hphp.at_mem e h.valid, by decide⟩
    rw [heq] at hlower
    exact absurd hlower (by decide)
  have h2 : "email,".toList.isPrefixOf (GoStrings.toLower e) = false := hsep ',' (.inl rfl)
  have h3 : "email;".toList.isPrefixOf (GoStrings.toLower e) = false := hsep ';' (.inr rfl)
  simp only [Worker.isHeaderLine, hphp.trimSpace e h.valid, h1, h2, h3, hat]
  rfl

/-- The merge reads the row `e, reason` as a row of `e`. -/
theorem readLine (hphp : php.Lawful) (h : Clean php e) (reason : Text) :
    VerificationResultsMerger.readLine [e, reason] = some (e, Text.trim reason) := by
  have hat : e.contains '@' = true := by simpa using hphp.at_mem e h.valid
  simp [VerificationResultsMerger.readLine, VerificationResultsMerger.isHeaderLine,
    VerificationResultsMerger.parseRow, hphp.at_mem e h.valid, h.trim, h.ne_nil hphp]

/-- The probe planner reads it so too. -/
theorem readRow (hphp : php.Lawful) (h : Clean php e) (reason : Text) (t : OutputType) :
    ScreeningToProbeChunkPlanner.readRow t [e, reason] =
      some ⟨e, Text.trim reason, t⟩ := by
  have hhead : ScreeningToProbeChunkPlanner.isHeaderRow [e, reason] = false := by
    simpa [ScreeningToProbeChunkPlanner.isHeaderRow, h.trim, h.lower] using h.ne_email hphp
  unfold ScreeningToProbeChunkPlanner.readRow
  simp only [List.getElem?_cons_zero, Option.getD_some, h.trim, reduceCtorEq, hhead,
    Bool.false_eq_true, h.ne_nil hphp, or_self, if_false]
  split
  · simp
  · simp

/-- And the retry planner. -/
theorem parseLine (h : Clean php e) (reason : Text) :
    TempfailRetryPlanner.parseLine [e, reason] = (e, Text.trim reason) := by
  simp [TempfailRetryPlanner.parseLine, h.trim]

theorem hasEmail (hphp : php.Lawful) (h : Clean php e) (reason : Text) :
    TempfailRetryPlanner.hasEmail [e, reason] = true := by
  simp [TempfailRetryPlanner.hasEmail, h.parseLine, h.ne_nil hphp, hphp.at_mem e h.valid]

end Clean

/-! ## Output files -/

/-- A header or the row of an address. -/
def OutputRecord (php : Php) (record : Record) : Prop :=
  record = Worker.header ∨ ∃ e reason, Clean php e ∧ record = [e, reason]

/-- A file of header and address rows, as the workers and the planners write it. -/
def OutputFile (php : Php) (file : File) : Prop := ∀ record ∈ file, OutputRecord php record

/-- A chunk input: a line for each address. -/
def inputFile (emails : List Text) : File := emails.map fun e => [e]

theorem readLine_header : VerificationResultsMerger.readLine Worker.header = none := by
  decide

namespace OutputFile

variable {php : Php} {file : File}

/-- The probe planner finds the addresses the merge finds. -/
theorem planner_emails (hphp : php.Lawful) (h : OutputFile php file) (t : OutputType) :
    (ScreeningToProbeChunkPlanner.readResultRows (some file) t).filterMap
        (fun r => ScreeningToProbeChunkPlanner.normalizeEmail php r.email) =
      VerificationResultsMerger.emails file := by
  induction file with
  | nil => rfl
  | cons record rest ih =>
      have hrest := ih fun r hr => h r (.tail _ hr)
      simp only [ScreeningToProbeChunkPlanner.readResultRows,
        VerificationResultsMerger.emails, VerificationResultsMerger.sourceRows,
        Option.getD_some] at hrest ⊢
      rcases h record (.head _) with rfl | ⟨e, reason, hc, rfl⟩
      · have h1 : ScreeningToProbeChunkPlanner.readRow t Worker.header = none := by
          cases t <;> decide
        simpa [h1, readLine_header] using hrest
      · simpa [hc.readRow hphp, hc.readLine hphp, hc.normalizeEmail hphp] using hrest

end OutputFile

/-! ## The files the worker and the planner write -/

section Written
variable {php : Php}

theorem outputFile_rows {rows : List (Text × Text)} (h : ∀ r ∈ rows, Clean php r.1) :
    OutputFile php (Worker.header :: rows.map fun r => [r.1, r.2]) := by
  intro record hrec
  rcases List.mem_cons.mp hrec with rfl | hrec
  · exact .inl rfl
  · obtain ⟨r, hr, rfl⟩ := List.mem_map.mp hrec
    exact .inr ⟨r.1, r.2, h r hr, rfl⟩

theorem emails_rows (hphp : php.Lawful) {rows : List (Text × Text)}
    (h : ∀ r ∈ rows, Clean php r.1) :
    VerificationResultsMerger.emails (Worker.header :: rows.map fun r => [r.1, r.2]) =
      rows.map Prod.fst := by
  have hrows : (rows.map fun r => [r.1, r.2]).filterMap VerificationResultsMerger.readLine =
      rows.map fun r => (r.1, trim r.2) := by
    induction rows with
    | nil => rfl
    | cons r rest ih =>
        have hr := (h r (.head _)).readLine hphp r.2
        simp [hr, ih fun r hr => h r (.tail _ hr)]
  simp [VerificationResultsMerger.emails, VerificationResultsMerger.sourceRows,
    readLine_header, hrows, Function.comp_def]

/-- The worker asks its verifier about every line of a chunk input. -/
theorem lines_inputFile (hphp : php.Lawful) {emails : List Text}
    (h : ∀ e ∈ emails, Clean php e) : Worker.lines (inputFile emails) = emails := by
  have hmap : (inputFile emails).map (fun r => Worker.trimSpace (Worker.inputLine r)) =
      emails := by
    rw [inputFile, List.map_map]
    conv_rhs => rw [← List.map_id emails]
    exact List.map_congr_left fun e he => hphp.trimSpace e (h e he).valid
  rw [Worker.lines, hmap, List.filter_eq_self]
  intro e he
  simp [(h e he).ne_nil hphp, (h e he).not_header hphp]

/-- A file of the worker: its header, and a row for each line. -/
theorem outputFile_eq (verdicts : List (Text × Worker.Verdict)) (input : File) (t : OutputType) :
    Worker.outputFile verdicts input t = Worker.header ::
      ((Worker.outputRows verdicts input t).map
        (fun line => (line, (Worker.verify verdicts line).2))).map fun r => [r.1, r.2] := by
  rw [Worker.outputFile, List.map_map]
  rfl

/-- The lines the worker writes are clean if those of its input are. -/
theorem clean_outputRows (hphp : php.Lawful) {emails : List Text}
    (h : ∀ e ∈ emails, Clean php e) {verdicts : List (Text × Worker.Verdict)} {t : OutputType} :
    ∀ r ∈ (Worker.outputRows verdicts (inputFile emails) t).map
      (fun line => (line, (Worker.verify verdicts line).2)), Clean php r.1 := by
  intro r hr
  obtain ⟨line, hline, rfl⟩ := List.mem_map.mp hr
  have hmem := List.mem_of_mem_filter hline
  rw [lines_inputFile hphp h] at hmem
  exact h line hmem

theorem outputFile_worker (hphp : php.Lawful) {emails : List Text}
    (h : ∀ e ∈ emails, Clean php e) (verdicts : List (Text × Worker.Verdict))
    (t : OutputType) : OutputFile php (Worker.outputFile verdicts (inputFile emails) t) := by
  rw [outputFile_eq]
  exact outputFile_rows (clean_outputRows hphp h)

theorem emails_worker (hphp : php.Lawful) {emails : List Text}
    (h : ∀ e ∈ emails, Clean php e) (verdicts : List (Text × Worker.Verdict))
    (t : OutputType) :
    VerificationResultsMerger.emails (Worker.outputFile verdicts (inputFile emails) t) =
      Worker.outputRows verdicts (inputFile emails) t := by
  rw [outputFile_eq, emails_rows hphp (clean_outputRows hphp h)]
  simp [Function.comp_def]

/-- **The worker conserves the addresses of its input.** -/
theorem buildOutputs_emails (hphp : php.Lawful) {emails : List Text}
    (h : ∀ e ∈ emails, Clean php e) (verdicts : List (Text × Worker.Verdict)) :
    (OutputType.all.flatMap fun t => VerificationResultsMerger.emails
      (Worker.outputFile verdicts (inputFile emails) t)).Perm emails := by
  simp only [emails_worker hphp h]
  have hperm := Worker.outputRows_perm verdicts (inputFile emails)
  rwa [lines_inputFile hphp h] at hperm

/-- The addresses the probe planner classifies are those of the three files. -/
theorem normalized_emails (hphp : php.Lawful) {files : PerType File}
    (h : ∀ t, OutputFile php (files.get t)) :
    ScreeningToProbeChunkPlanner.normalized php (files.map some) =
      OutputType.all.flatMap fun t => VerificationResultsMerger.emails (files.get t) := by
  have hone : ∀ t, ((ScreeningToProbeChunkPlanner.readResultRows
      ((files.map some).get t) t).map (fun r => (t, r))).filterMap
        (fun r => ScreeningToProbeChunkPlanner.normalizeEmail php r.2.email) =
      VerificationResultsMerger.emails (files.get t) := by
    intro t
    rw [PerType.get_map, List.filterMap_map]
    exact (h t).planner_emails hphp t
  simp only [ScreeningToProbeChunkPlanner.normalized,
    ScreeningToProbeChunkPlanner.allRows, List.filterMap_flatMap, hone]

end Written

end ValidEmailVerifier
