/-
# `Pipeline.MergedTexts` — the outputs of a merge, as the texts that are read again

`VerificationResultsMerger` puts the rows of a job into three files with `fputcsv`, each under a
header.  Others read these files line by line: the resolver of a campaign, and the write-back of
the cache.  A row has no line end in it, so that it is one line, and no blanks around it, so that
trimming takes nothing but the line end (`trim_fputcsv`).  Its first column is the address,
if `fputcsv` and `str_getcsv` agree on that (`firstColumn_fputcsv`).
-/
import ValidEmailVerifier.Lib.PhpCsv
import ValidEmailVerifier.Pipeline.MergeStreams

namespace ValidEmailVerifier.VerificationResultsMerger

open Text

/-- The text of an output. -/
def outputText (file : File) : Text := file.flatMap PhpCsv.fputcsv

/-! ## What is written -/

/-- A row as `parseLine` gives it: trimmed, with an address, and without line ends. -/
structure Tidy (row : BufferedRow) : Prop where
  email_ne : row.email ≠ []
  email_trim : trim row.email = row.email
  email_line : '\n' ∉ row.email
  reason_trim : trim row.reason = row.reason
  reason_line : '\n' ∉ row.reason

section Rows
variable {σ : Settings} {answers : CacheAnswers} {objects : Addr → Option Text} {row : BufferedRow}
  {output : OutputType × Record}

/-- The outputs of a merge, behind the headers. -/
theorem exists_outputs (σ : Settings) (answers : CacheAnswers) (objects : Addr → Option Text)
    (job : Job) (chunks : List Chunk) (outputDisk : Disk) :
    ∃ outputs, List.Forall₂ (MappedBy σ answers)
        (inputRows objects (allSources job chunks outputDisk)) outputs ∧
      ∀ t, (mergeStreams σ answers objects job chunks outputDisk).files.get t =
        header :: writtenTo outputs t := by
  have hinitial : Accounts σ answers [] (MergeState.mk initializeWriters [] 0).writers :=
    ⟨[], .nil, wrote_initial⟩
  obtain ⟨outputs, hmapped, hwrote⟩ : Accounts σ answers
      ([] ++ inputRows objects (allSources job chunks outputDisk)) _ :=
    hinitial.processSources
  refine ⟨outputs, hmapped, fun t => ?_⟩
  rw [mergeStreams, PerType.get_map, hwrote t]

/-- An output comes of a row. -/
theorem exists_of_mem_outputs {rows : List BufferedRow} {outputs : List (OutputType × Record)}
    (h : List.Forall₂ (MappedBy σ answers) rows outputs) (hmem : output ∈ outputs) :
    ∃ row ∈ rows, MappedBy σ answers row output := by
  induction h with
  | nil => exact absurd hmem List.not_mem_nil
  | @cons first mapped rows outputs hby _ ih =>
    rcases List.mem_cons.mp hmem with rfl | hmem
    · exact ⟨first, .head _, hby⟩
    · obtain ⟨row, hrow, hby⟩ := ih hmem
      exact ⟨row, .tail _ hrow, hby⟩

/-- A row has an output. -/
theorem exists_output_of_mem {rows : List BufferedRow} {outputs : List (OutputType × Record)}
    (h : List.Forall₂ (MappedBy σ answers) rows outputs) (hmem : row ∈ rows) :
    ∃ output ∈ outputs, MappedBy σ answers row output := by
  induction h with
  | nil => exact absurd hmem List.not_mem_nil
  | @cons first mapped rows outputs hby _ ih =>
    rcases List.mem_cons.mp hmem with rfl | hmem
    · exact ⟨mapped, .head _, hby⟩
    · obtain ⟨output, houtput, hby⟩ := ih hmem
      exact ⟨output, .tail _ houtput, hby⟩

theorem notMem_trim {c : Char} {s : Text} (h : c ∉ s) : c ∉ trim s :=
  fun hc => h ((trimBy_sublist _ _).subset hc)

/-- A column of a line has no line end. -/
theorem notMem_column {content line column : Text} (hline : line ∈ fgets content)
    (hcolumn : column ∈ strGetcsv (rtrimEol line)) : '\n' ∉ column := by
  intro hmem
  have hin := (mem_strGetcsvFrom hcolumn hmem).resolve_left List.not_mem_nil
  obtain ⟨s, hs, rfl | rfl⟩ := Csv.of_mem_fgets hline
  · exact hs ((List.rdropWhile_prefix _ _).subset hin)
  · rw [rtrimEol, List.rdropWhile_concat_pos _ _ _ (by decide)] at hin
    exact hs ((List.rdropWhile_prefix _ _).subset hin)

theorem notMem_getD {content line : Text} (hline : line ∈ fgets content) (i : Nat) :
    '\n' ∉ ((strGetcsv (rtrimEol line))[i]?.getD []) := by
  cases h : (strGetcsv (rtrimEol line))[i]? with
  | none => exact List.not_mem_nil
  | some column => exact notMem_column hline (List.mem_of_getElem? h)

theorem tidy_of_lineRow {content line : Text} {t : OutputType} (hline : line ∈ fgets content)
    (h : lineRow t line = some row) : Tidy row := by
  obtain ⟨⟨email, reason⟩, hparse, rfl⟩ := Option.map_eq_some_iff.mp h
  obtain ⟨hne, htrim⟩ := email_of_parseLine hparse
  rw [parseLine] at hparse
  split at hparse
  · cases hparse
  rw [parseRow] at hparse
  split at hparse
  · cases hparse
  · split at hparse
    · obtain ⟨rfl, rfl⟩ := Prod.mk.inj (Option.some.inj hparse)
      exact ⟨hne, htrim, notMem_trim (notMem_getD hline 0), trim_trim _,
        notMem_trim (notMem_getD hline 4)⟩
    · obtain ⟨rfl, rfl⟩ := Prod.mk.inj (Option.some.inj hparse)
      exact ⟨hne, htrim, notMem_trim (notMem_getD hline 0), trim_trim _,
        notMem_trim (notMem_getD hline 1)⟩

theorem tidy_of_mem {sources : List (OutputType × Addr)} (h : row ∈ inputRows objects sources) :
    Tidy row := by
  obtain ⟨source, -, hrow⟩ := List.mem_flatMap.mp h
  obtain ⟨line, hline, hsome⟩ := List.mem_filterMap.mp hrow
  exact tidy_of_lineRow hline hsome

/-! ## The columns -/

theorem notMem_name (t : OutputType) : '\n' ∉ t.name := by
  cases t <;> decide

theorem notMem_mapSubStatus (reason : Text) : '\n' ∉ mapSubStatus reason := by
  unfold mapSubStatus
  split
  · decide
  split
  · decide
  split
  next h =>
    simp only [List.mem_cons, List.not_mem_nil, or_false] at h
    rcases h with rfl | rfl | rfl | rfl | rfl <;> decide
  split
  · decide
  split
  · decide
  split
  · decide
  · decide

/-- A score is a number from 0 to 100, which has no line end. -/
theorem notMem_score (σ : Settings) (status : OutputType) (subStatus reason : Text)
    (cacheStatus : Option Text) :
    '\n' ∉ (toString (calculate σ status subStatus reason cacheStatus)).toList := by
  have hall : ∀ n : Fin 101, '\n' ∉ (toString ((n : Nat) : Int)).toList := by decide
  have hbounds : 0 ≤ calculate σ status subStatus reason cacheStatus ∧
      calculate σ status subStatus reason cacheStatus ≤ 100 := by
    have hclamp : ∀ base : Int, 0 ≤ max 0 (min 100 base) ∧ max 0 (min 100 base) ≤ 100 := by
      intro base
      omega
    exact hclamp _
  obtain ⟨n, hn⟩ := Int.eq_ofNat_of_zero_le hbounds.1
  rw [hn] at hbounds ⊢
  exact hall ⟨n, by omega⟩

/-- The record of a row: its address, its file, and columns without line ends, the last of which
is trimmed. -/
theorem record_of_mappedBy (h : MappedBy σ answers row output) (hrow : Tidy row) :
    ∃ subStatus score reason, output.2 = [row.email, output.1.name, subStatus, score, reason] ∧
      reason ≠ [] ∧ trim reason = reason ∧ ∀ s ∈ output.2, '\n' ∉ s := by
  obtain ⟨call, emails, -, rfl⟩ := h
  refine ⟨_, _, _, rfl, ?_, ?_, ?_⟩
  · split
    · decide
    next hne => exact hne
  · split
    · decide
    · exact hrow.reason_trim
  · intro s hs
    rcases List.mem_cons.mp hs with rfl | hs
    · exact hrow.email_line
    rcases List.mem_cons.mp hs with rfl | hs
    · exact notMem_name _
    rcases List.mem_cons.mp hs with rfl | hs
    · exact notMem_mapSubStatus _
    rcases List.mem_cons.mp hs with rfl | hs
    · exact notMem_score _ _ _ _ _
    rw [List.mem_singleton.mp hs]
    split
    · decide
    · exact hrow.reason_line

/-! ## The lines -/

/-- **A row is a line without blanks around it**: trimmed it loses its line end only. -/
theorem trim_fields (h : MappedBy σ answers row output) (hrow : Tidy row) :
    trim (PhpCsv.fields output.2) = PhpCsv.fields output.2 ∧ PhpCsv.fields output.2 ≠ [] := by
  obtain ⟨subStatus, score, reason, hrecord, hne, htrim, -⟩ := record_of_mappedBy h hrow
  have hemail := (trimBy_eq_self_iff.mp hrow.email_trim).1
  have hreason := (trimBy_eq_self_iff.mp htrim).2
  have hlast : (PhpCsv.fields output.2).getLast? = (PhpCsv.field reason).getLast? := by
    rw [hrecord]
    exact @PhpCsv.getLast?_fields reason hne [row.email, output.1.name, subStatus, score]
  have hhead : (PhpCsv.fields output.2).head? = (PhpCsv.field row.email).head? := by
    rw [hrecord]
    exact PhpCsv.head?_fields hrow.email_ne
  refine ⟨trimBy_eq_self_iff.mpr ⟨fun c hc => ?_, fun c hc => ?_⟩, fun hnil => ?_⟩
  · rw [hhead] at hc
    rcases @PhpCsv.head?_field row.email with hquote | hfield
    · rw [hquote] at hc
      obtain rfl := Option.some.inj hc
      decide
    · exact hemail c (hfield ▸ hc)
  · rw [hlast] at hc
    rcases @PhpCsv.getLast?_field reason with hquote | hfield
    · rw [hquote] at hc
      obtain rfl := Option.some.inj hc
      decide
    · exact hreason c (hfield ▸ hc)
  · rw [hnil, List.head?_nil, eq_comm, List.head?_eq_none_iff] at hhead
    exact PhpCsv.field_ne_nil hrow.email_ne hhead

theorem trim_fputcsv (h : MappedBy σ answers row output) (hrow : Tidy row) :
    trim (PhpCsv.fputcsv output.2) = PhpCsv.fields output.2 := by
  obtain ⟨htrim, hne⟩ := trim_fields h hrow
  obtain ⟨hhead, hlast⟩ := trimBy_eq_self_iff.mp htrim
  have hdrop : (PhpCsv.fields output.2 ++ ['\n']).dropWhile isBlank =
      PhpCsv.fields output.2 ++ ['\n'] := by
    cases hfields : PhpCsv.fields output.2 with
    | nil => exact absurd hfields hne
    | cons c s =>
      refine List.dropWhile_cons_of_neg ?_
      rw [hhead c (by rw [hfields]; rfl)]
      exact Bool.false_ne_true
  rw [trim, trimBy, PhpCsv.fputcsv, hdrop, List.rdropWhile_concat_pos _ _ _ (by decide),
    List.rdropWhile_eq_self_iff]
  intro hne'
  rw [hlast _ (List.getLast?_eq_some_getLast hne')]
  exact Bool.false_ne_true

theorem rtrimEol_fputcsv (h : MappedBy σ answers row output) (hrow : Tidy row) :
    rtrimEol (PhpCsv.fputcsv output.2) = PhpCsv.fields output.2 := by
  obtain ⟨htrim, -⟩ := trim_fields h hrow
  have hlast := (trimBy_eq_self_iff.mp htrim).2
  rw [rtrimEol, PhpCsv.fputcsv, List.rdropWhile_concat_pos _ _ _ (by decide),
    List.rdropWhile_eq_self_iff]
  intro hne heol
  have hblank := hlast _ (List.getLast?_eq_some_getLast hne)
  rw [Bool.or_eq_true, beq_iff_eq, beq_iff_eq] at heol
  rcases heol with heol | heol
  · rw [heol] at hblank
    exact absurd hblank (by decide)
  · rw [heol] at hblank
    exact absurd hblank (by decide)

/-- The first column is the address, if it reads back. -/
theorem firstColumn_fputcsv (h : MappedBy σ answers row output) (hrow : Tidy row)
    (hreads : PhpCsv.readsBack row.email = true) :
    (strGetcsv (PhpCsv.fields output.2))[0]? = some row.email := by
  obtain ⟨subStatus, score, reason, hrecord, -⟩ := record_of_mappedBy h hrow
  rw [hrecord]
  exact PhpCsv.getElem?_zero_fields hreads

/-- The address stands in the line. -/
theorem mem_fields_of_email (h : MappedBy σ answers row output) (hrow : Tidy row) {c : Char}
    (hquote : c ≠ '"') (hcomma : c ≠ ',') (hc : c ∈ row.email) :
    c ∈ PhpCsv.fields output.2 := by
  obtain ⟨subStatus, score, reason, hrecord, -⟩ := record_of_mappedBy h hrow
  rw [PhpCsv.mem_fields hquote hcomma, hrecord]
  exact ⟨row.email, .head _, hc⟩

end Rows

/-- **An output is read line by line as it was written**: the header, and a line for each row. -/
theorem fgets_outputText {σ : Settings} {answers : CacheAnswers} {rows : List BufferedRow}
    {outputs : List (OutputType × Record)} (h : List.Forall₂ (MappedBy σ answers) rows outputs)
    (hrows : ∀ row ∈ rows, Tidy row) (t : OutputType) :
    fgets (outputText (header :: writtenTo outputs t)) =
      PhpCsv.fputcsv header :: (writtenTo outputs t).map PhpCsv.fputcsv := by
  have hlines : ∀ record ∈ header :: writtenTo outputs t, ∀ s ∈ record, '\n' ∉ s := by
    intro record hrecord
    rcases List.mem_cons.mp hrecord with rfl | hrecord
    · decide
    · obtain ⟨output, houtput, rfl⟩ := List.mem_map.mp hrecord
      obtain ⟨row, hrow, hby⟩ := exists_of_mem_outputs h (List.mem_of_mem_filter houtput)
      obtain ⟨-, -, -, -, -, -, hno⟩ := record_of_mappedBy hby (hrows row hrow)
      exact hno
  exact PhpCsv.fgets_rows hlines

/-! ## A job of two chunks -/

/-- Two chunks have screened three addresses, one of them twice. -/
def screenedChunks : List Chunk :=
  [{ id := 1, chunkNo := 1, inputKey := .chunkInput 1, inputDisk := some "local",
     keys := ⟨some (.chunkOutput 1 .valid), none, none⟩ },
   { id := 2, chunkNo := 2, inputKey := .chunkInput 2, inputDisk := some "local",
     keys := ⟨none, none, some (.chunkOutput 2 .risky)⟩ }]

/-- What the chunks have put out. -/
def screenedOutputs (a : Addr) : Option Text :=
  if a.2 = .chunkOutput 1 .valid then
    some "email,reason\nzoe@example.org,rcpt_ok\nann@example.org,rcpt_ok\n".toList
  else if a.2 = .chunkOutput 2 .risky then
    some "email,reason\nBob@example.org,catch_all\nann@example.org,smtp_timeout\n".toList
  else none

/-- The merge has been told that one of them bounces. -/
def screenedMerge : Merged :=
  mergeStreams {} (fun _ _ => [("zoe@example.org".toList, "invalid".toList)]) screenedOutputs
    { status := .processing } screenedChunks "local"

end ValidEmailVerifier.VerificationResultsMerger
