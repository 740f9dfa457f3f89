/-
# `Pipeline.MergeStreams` — the merge as it streams its sources

`VerificationResultsMerger::merge` line by line: `fgets`, the buffer of
`processSource`, one `lookupMany` for each batch, `fputcsv` and the counters of the
writers.  The answers of the cache store are any function of the call, so two
batches may be told different things about one address.

`mergeStreams_conserves` is the law of the streams; `mergeStreams_eq_merge` connects
them with the merge over records that the pipeline uses.
-/
import ValidEmailVerifier.Pipeline.VerificationResultsMerger
import Mathlib.Data.List.Forall2

namespace ValidEmailVerifier.VerificationResultsMerger

open Text

/-! ## Streams and writers -/

/-- A row in the buffer of `processSource`. -/
structure BufferedRow where
  email : Text
  reason : Text
  status : OutputType
  deriving DecidableEq, Repr

/-- What `lookupMany` answers on its `n`th call: the outcome of every address it has an
entry for. -/
abbrev CacheAnswers := Nat → List Text → List (Text × Text)

/-- A temporary stream with the records `fputcsv` has put there, and the counter. -/
structure Writer where
  stream : List Record
  count : Nat
  deriving DecidableEq, Repr

structure MergeState where
  writers : PerType Writer
  missing : List Addr
  calls : Nat
  deriving DecidableEq, Repr

/-- `initializeWriters`. -/
def initializeWriters : PerType Writer := .const ⟨[header], 0⟩

/-- One line of `processSource`: the address and the reason it has. -/
def parseLine (line : Text) : Option (Text × Text) :=
  let normalized := rtrimEol line
  if normalized = [] ∨ '@' ∉ normalized then none else parseRow (strGetcsv normalized)

/-- The cache outcome of a row. -/
def cacheOutcome (cacheHits : List (Text × Text)) (email : Text) : Option Text :=
  let normalized := strtolower (trim email)
  if normalized = [] then none else cacheHits.lookup normalized

/-- A row as the mapper puts it out. -/
def mapBuffered (σ : Settings) (cacheHits : List (Text × Text)) (row : BufferedRow) :
    OutputType × Record :=
  mapRow σ (cacheOutcome cacheHits row.email) row.status (row.email, row.reason)

/-- One round of `flushBuffer`. -/
def writeRow (writers : PerType Writer) (output : OutputType × Record) : PerType Writer :=
  let writer := writers.get output.1
  writers.set output.1 ⟨writer.stream ++ [output.2], writer.count + 1⟩

def flushBuffer (σ : Settings) (answers : CacheAnswers) (buffer : List BufferedRow)
    (st : MergeState) : MergeState :=
  let cacheHits := answers st.calls (buffer.map BufferedRow.email)
  { st with
    writers := (buffer.map (mapBuffered σ cacheHits)).foldl writeRow st.writers
    calls := st.calls + 1 }

/-- One round of the loop of `processSource`. -/
def processLine (σ : Settings) (answers : CacheAnswers) (sourceStatus : OutputType)
    (loop : List BufferedRow × MergeState) (line : Text) : List BufferedRow × MergeState :=
  match parseLine line with
  | none => loop
  | some (email, reason) =>
      let buffer := loop.1 ++ [⟨email, reason, sourceStatus⟩]
      if max 1 σ.cacheBatchSize ≤ buffer.length then
        ([], flushBuffer σ answers buffer loop.2)
      else (buffer, loop.2)

def processSource (σ : Settings) (answers : CacheAnswers) (objects : Addr → Option Text)
    (st : MergeState) (source : OutputType × Addr) : MergeState :=
  match objects source.2 with
  | none => { st with missing := st.missing ++ [source.2] }
  | some content =>
      let (buffer, st) := (fgets content).foldl (processLine σ answers source.1) ([], st)
      if buffer = [] then st else flushBuffer σ answers buffer st

/-- The sources of the three types, in the order they are processed. -/
def allSources (job : Job) (chunks : List Chunk) (outputDisk : Disk) :
    List (OutputType × Addr) :=
  OutputType.all.flatMap fun t =>
    (collectSources job chunks t outputDisk).map fun source => (t, source)

/-- `merge`, over the contents of the objects. -/
def mergeStreams (σ : Settings) (answers : CacheAnswers) (objects : Addr → Option Text)
    (job : Job) (chunks : List Chunk) (outputDisk : Disk) : Merged :=
  let st := (allSources job chunks outputDisk).foldl (processSource σ answers objects)
    ⟨initializeWriters, [], 0⟩
  { files := st.writers.map Writer.stream
    counts := st.writers.map Writer.count
    missing := st.missing }

/-! ## What has been written -/

/-- The row of a line. -/
def lineRow (t : OutputType) (line : Text) : Option BufferedRow :=
  (parseLine line).map fun (email, reason) => ⟨email, reason, t⟩

/-- The rows of a source. -/
def sourceLines (content : Text) (t : OutputType) : List BufferedRow :=
  (fgets content).filterMap (lineRow t)

/-- Every parseable row of every source, in the order of the sources. -/
def inputRows (objects : Addr → Option Text) (sources : List (OutputType × Addr)) :
    List BufferedRow :=
  sources.flatMap fun source => sourceLines ((objects source.2).getD []) source.1

/-- The output is what the mapper makes of the row, with some answer of the store to a
question about its address. -/
def MappedBy (σ : Settings) (answers : CacheAnswers) (row : BufferedRow)
    (output : OutputType × Record) : Prop :=
  ∃ call emails, row.email ∈ emails ∧ output = mapBuffered σ (answers call emails) row

/-- The writers hold these outputs, each in its file, and have counted them. -/
def Wrote (writers : PerType Writer) (outputs : List (OutputType × Record)) : Prop :=
  ∀ t, writers.get t = ⟨header :: writtenTo outputs t, (writtenTo outputs t).length⟩

/-- The writers hold one output for each of these rows. -/
def Accounts (σ : Settings) (answers : CacheAnswers) (rows : List BufferedRow)
    (writers : PerType Writer) : Prop :=
  ∃ outputs, List.Forall₂ (MappedBy σ answers) rows outputs ∧ Wrote writers outputs

theorem wrote_initial : Wrote initializeWriters [] := by
  intro t
  rw [initializeWriters, PerType.get_const]
  rfl

theorem writtenTo_append (first second : List (OutputType × Record)) (t : OutputType) :
    writtenTo (first ++ second) t = writtenTo first t ++ writtenTo second t := by
  simp [writtenTo]

theorem Wrote.concat {writers : PerType Writer} {outputs : List (OutputType × Record)}
    (h : Wrote writers outputs) (output : OutputType × Record) :
    Wrote (writeRow writers output) (outputs ++ [output]) := by
  intro t
  rw [writeRow, PerType.get_set, writtenTo_append]
  by_cases ht : t = output.1
  · subst ht
    rw [if_pos rfl, h output.1]
    simp [writtenTo]
  · rw [if_neg ht, h t]
    have hne : (output.1 == t) = false := beq_eq_false_iff_ne.mpr (Ne.symm ht)
    simp [writtenTo, hne]

theorem Wrote.append {writers : PerType Writer} {outputs more : List (OutputType × Record)}
    (h : Wrote writers outputs) : Wrote (more.foldl writeRow writers) (outputs ++ more) := by
  induction more generalizing writers outputs with
  | nil => rwa [List.append_nil]
  | cons output more ih =>
    have hrest := ih (h.concat output)
    rwa [List.append_assoc] at hrest

/-! ## The loops -/

variable {σ : Settings} {answers : CacheAnswers} {objects : Addr → Option Text}

/-- A flush writes what is in the buffer. -/
theorem Accounts.flushBuffer {rows buffer : List BufferedRow} {st : MergeState}
    (h : Accounts σ answers rows st.writers) :
    Accounts σ answers (rows ++ buffer) (flushBuffer σ answers buffer st).writers := by
  obtain ⟨outputs, hmapped, hwrote⟩ := h
  refine ⟨_, List.rel_append hmapped ?_, hwrote.append⟩
  rw [List.forall₂_map_right_iff, List.forall₂_same]
  intro row hrow
  exact ⟨_, _, List.mem_map_of_mem hrow, rfl⟩

/-- These rows have been read: they are written, or in the buffer of the loop. -/
def Reads (σ : Settings) (answers : CacheAnswers) (rows : List BufferedRow)
    (loop : List BufferedRow × MergeState) : Prop :=
  ∃ written, written ++ loop.1 = rows ∧ Accounts σ answers written loop.2.writers

theorem Reads.processLine {t : OutputType} {loop : List BufferedRow × MergeState}
    {rows : List BufferedRow} {line : Text} (h : Reads σ answers rows loop) :
    Reads σ answers (rows ++ (lineRow t line).toList) (processLine σ answers t loop line) := by
  obtain ⟨written, rfl, hacc⟩ := h
  rw [VerificationResultsMerger.processLine, lineRow]
  cases parseLine line with
  | none => exact ⟨written, (List.append_nil _).symm, hacc⟩
  | some row =>
    dsimp only
    split
    · exact ⟨_, by simp, hacc.flushBuffer⟩
    · exact ⟨written, by simp, hacc⟩

theorem Reads.processLines {t : OutputType} {lines : List Text}
    {loop : List BufferedRow × MergeState} {rows : List BufferedRow}
    (h : Reads σ answers rows loop) :
    Reads σ answers (rows ++ lines.filterMap (lineRow t))
      (lines.foldl (VerificationResultsMerger.processLine σ answers t) loop) := by
  induction lines generalizing loop rows with
  | nil =>
    rw [List.filterMap_nil, List.append_nil]
    exact h
  | cons line lines ih =>
    have hlines : (line :: lines).filterMap (lineRow t) =
        (lineRow t line).toList ++ lines.filterMap (lineRow t) := by
      rw [List.filterMap_cons]
      cases lineRow t line <;> rfl
    rw [hlines, ← List.append_assoc, List.foldl_cons]
    exact ih h.processLine

/-- A source is written as a whole, a missing one has no rows. -/
theorem Accounts.processSource {rows : List BufferedRow} {st : MergeState}
    {source : OutputType × Addr} (h : Accounts σ answers rows st.writers) :
    Accounts σ answers (rows ++ sourceLines ((objects source.2).getD []) source.1)
      (processSource σ answers objects st source).writers := by
  rw [VerificationResultsMerger.processSource]
  cases objects source.2 with
  | none => simpa [sourceLines, fgets] using h
  | some content =>
    have hstart : Reads σ answers rows ([], st) := ⟨rows, List.append_nil rows, h⟩
    obtain ⟨written, hrows, hacc⟩ := hstart.processLines (t := source.1)
    rw [Option.getD_some, sourceLines, ← hrows]
    dsimp only
    split
    · next hempty =>
      rw [hempty, List.append_nil]
      exact hacc
    · exact hacc.flushBuffer

theorem Accounts.processSources :
    ∀ {sources : List (OutputType × Addr)} {rows : List BufferedRow} {st : MergeState},
      Accounts σ answers rows st.writers →
      Accounts σ answers (rows ++ inputRows objects sources)
        (sources.foldl (VerificationResultsMerger.processSource σ answers objects)
          st).writers := by
  intro sources
  induction sources with
  | nil =>
    intro rows st h
    simpa [inputRows] using h
  | cons source sources ih =>
    intro rows st h
    have hfirst : Accounts σ answers (rows ++ sourceLines ((objects source.2).getD []) source.1)
        (VerificationResultsMerger.processSource σ answers objects st source).writers :=
      h.processSource
    have hrest := ih hfirst
    rw [List.append_assoc] at hrest
    exact hrest

/-- The second column of an output names its file. -/
theorem status_of_mappedBy {rows : List BufferedRow} {outputs : List (OutputType × Record)}
    (h : List.Forall₂ (MappedBy σ answers) rows outputs) :
    ∀ output ∈ outputs, output.2[1]? = some output.1.name := by
  induction h with
  | nil => exact fun _ h => nomatch h
  | cons hby _ ih =>
    obtain ⟨call, emails, -, rfl⟩ := hby
    intro output hmem
    rcases List.mem_cons.mp hmem with rfl | hmem
    · rfl
    · exact ih output hmem

/-- A line is a header for the record merge when it is one for the streams. -/
theorem readLine_strGetcsv {line : Text} :
    readLine (strGetcsv (rtrimEol line)) = parseLine line := by
  have hat : (∃ c ∈ strGetcsv (rtrimEol line), '@' ∈ c) ↔ '@' ∈ rtrimEol line := by
    constructor
    · rintro ⟨c, hc, hmem⟩
      exact (mem_strGetcsvFrom hc hmem).resolve_left List.not_mem_nil
    · intro h
      exact exists_mem_strGetcsvFrom (by decide) (fun _ => List.not_mem_nil) (.inr h)
  rw [readLine, parseLine]
  by_cases h : '@' ∈ rtrimEol line
  · have hheader : isHeaderLine (strGetcsv (rtrimEol line)) = false := by
      obtain ⟨c, hc, hmem⟩ := hat.mpr h
      rw [isHeaderLine, List.all_eq_false]
      exact ⟨c, hc, by simpa using hmem⟩
    have hline : ¬ (rtrimEol line = [] ∨ '@' ∉ rtrimEol line) := by
      rintro (hnil | hno)
      · rw [hnil] at h
        exact nomatch h
      · exact hno h
    rw [hheader, if_neg hline]
    rfl
  · have hheader : isHeaderLine (strGetcsv (rtrimEol line)) = true := by
      rw [isHeaderLine, List.all_eq_true]
      intro c hc
      have hno : '@' ∉ c := fun hmem => h (hat.mp ⟨c, hc, hmem⟩)
      simpa using hno
    have hline : rtrimEol line = [] ∨ '@' ∉ rtrimEol line := .inr h
    rw [hheader, if_pos rfl, if_pos hline]

theorem sourceRows_records {content : Text} :
    sourceRows (records content) = (fgets content).filterMap parseLine := by
  rw [sourceRows, records, List.filterMap_map]
  exact List.filterMap_congr fun line _ => readLine_strGetcsv

/-- A parsed row has an address, and no blanks around it. -/
theorem email_of_parseLine {line : Text} {row : Text × Text} (h : parseLine line = some row) :
    row.1 ≠ [] ∧ trim row.1 = row.1 := by
  rw [parseLine] at h
  split at h
  · exact nomatch h
  rw [parseRow] at h
  split at h
  · exact nomatch h
  · next hne =>
    rw [not_or] at hne
    split at h <;>
    · rw [← Option.some.inj h]
      exact ⟨hne.2, trim_trim _⟩

/-- With one answer for every call the mapper sees what the record merge looks up. -/
theorem mapBuffered_eq {cache : List (Text × Text)} {row : Text × Text} {t : OutputType}
    (hne : row.1 ≠ []) (htrim : trim row.1 = row.1) :
    mapBuffered σ cache ⟨row.1, row.2, t⟩ =
      mapRow σ (cache.lookup (strtolower (trim row.1))) t row := by
  have hlower : strtolower (trim row.1) ≠ [] := by
    rw [htrim, strtolower, Ne, List.map_eq_nil_iff]
    exact hne
  rw [mapBuffered, cacheOutcome, if_neg hlower]

theorem mapped_sourceLines {cache : List (Text × Text)} {content : Text} {t : OutputType} :
    (sourceLines content t).map (mapBuffered σ cache) =
      (sourceRows (records content)).map fun row =>
        mapRow σ (cache.lookup (strtolower (trim row.1))) t row := by
  have hrow : ∀ line, (lineRow t line).map (mapBuffered σ cache) = (parseLine line).map
      fun row => mapRow σ (cache.lookup (strtolower (trim row.1))) t row := by
    intro line
    rw [lineRow, Option.map_map]
    cases hline : parseLine line with
    | none => rfl
    | some row =>
      obtain ⟨hne, htrim⟩ := email_of_parseLine hline
      exact congrArg some (mapBuffered_eq hne htrim)
  rw [sourceRows_records, sourceLines, List.map_filterMap, List.map_filterMap]
  simp only [hrow]

theorem forall₂_mappedBy_const {cache : List (Text × Text)} {rows : List BufferedRow}
    {outputs : List (OutputType × Record)}
    (h : List.Forall₂ (MappedBy σ fun _ _ => cache) rows outputs) :
    outputs = rows.map (mapBuffered σ cache) := by
  induction h with
  | nil => rfl
  | cons hby _ ih =>
    obtain ⟨-, -, -, rfl⟩ := hby
    rw [ih, List.map_cons]

/-! Reading and flushing leave the list of missing sources alone. -/

theorem missing_processLines {t : OutputType} {lines : List Text}
    {loop : List BufferedRow × MergeState} :
    (lines.foldl (processLine σ answers t) loop).2.missing = loop.2.missing := by
  induction lines generalizing loop with
  | nil => rfl
  | cons line lines ih =>
    rw [List.foldl_cons, ih, processLine]
    cases parseLine line with
    | none => rfl
    | some row =>
      dsimp only
      split <;> rfl

theorem missing_processSources {sources : List (OutputType × Addr)} {st : MergeState} :
    (sources.foldl (processSource σ answers objects) st).missing =
      st.missing ++ (sources.map Prod.snd).filter (fun a => (objects a).isNone) := by
  induction sources generalizing st with
  | nil => exact (List.append_nil _).symm
  | cons source sources ih =>
    rw [List.foldl_cons, ih, List.map_cons, List.filter_cons, processSource]
    cases objects source.2 with
    | none => simp
    | some content =>
      have hloop := @missing_processLines σ answers source.1 (fgets content) ([], st)
      dsimp only
      split
      · rw [hloop]
        rfl
      · rw [flushBuffer, hloop]
        rfl

/-- The merge of the pipeline is the merge of the streams, on their records, when the
store answers every question alike. -/
theorem mergeStreams_eq_merge {cache : List (Text × Text)} {job : Job} {chunks : List Chunk}
    {outputDisk : Disk} :
    mergeStreams σ (fun _ _ => cache) objects job chunks outputDisk =
      merge σ cache (fun a => (objects a).map records) job chunks outputDisk := by
  have hinitial : Accounts σ (fun _ _ => cache) []
      (MergeState.mk initializeWriters [] 0).writers := ⟨[], .nil, wrote_initial⟩
  obtain ⟨outputs, hmapped, hwrote⟩ : Accounts σ (fun _ _ => cache)
      ([] ++ inputRows objects (allSources job chunks outputDisk)) _ :=
    hinitial.processSources
  have houtputs : outputs =
      allMapped σ cache (fun a => (objects a).map records) job chunks outputDisk := by
    rw [forall₂_mappedBy_const hmapped, List.nil_append, inputRows, List.map_flatMap,
      allSources, List.flatMap_assoc, allMapped]
    refine List.flatMap_congr fun t _ => ?_
    rw [List.flatMap_map, mappedRows]
    refine List.flatMap_congr fun source _ => ?_
    rw [mapped_sourceLines]
    cases objects source <;> rfl
  have hst : mergeStreams σ (fun _ _ => cache) objects job chunks outputDisk =
      ⟨⟨header :: writtenTo outputs .valid, header :: writtenTo outputs .invalid,
          header :: writtenTo outputs .risky⟩,
        ⟨(writtenTo outputs .valid).length, (writtenTo outputs .invalid).length,
          (writtenTo outputs .risky).length⟩,
        ((allSources job chunks outputDisk).map Prod.snd).filter
          (fun a => (objects a).isNone)⟩ := by
    rw [mergeStreams, missing_processSources, List.nil_append]
    have hv := hwrote .valid
    have hi := hwrote .invalid
    have hr := hwrote .risky
    simp only [PerType.get] at hv hi hr
    simp only [PerType.map, hv, hi, hr]
  rw [hst, houtputs, merge]
  have hmissing : ((allSources job chunks outputDisk).map Prod.snd).filter
        (fun a => (objects a).isNone) =
      OutputType.all.flatMap fun t => (collectSources job chunks t outputDisk).filter
        (fun a => ((objects a).map records).isNone) := by
    simp only [allSources, List.map_flatMap, List.map_map, List.filter_flatMap,
      Option.isNone_map, Function.comp_def, List.map_id']
  rw [hmissing]

end ValidEmailVerifier.VerificationResultsMerger
