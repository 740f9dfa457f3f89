/-
# `Pipeline.CsvRows` — the rows of a worker, read by the control app

`buildOutputs` writes its rows with Go's `encoding/csv`; the merge, the probe planner
and the retry planner take the files line by line and each line to `str_getcsv`.  A row
comes back as it was written, wherever it stands in the file, exactly when it is one
line, its reason has no NUL at its ends and both fields read back (`RowSafe`).
-/
import ValidEmailVerifier.Lib.Csv
import ValidEmailVerifier.Pipeline.Address
import ValidEmailVerifier.Pipeline.MergeStreams
import ValidEmailVerifier.Pipeline.ReasonEvidence

namespace ValidEmailVerifier

open Text

/-! ## Writing -/

namespace Worker

/-- The fields of a row, as they stand in its line. -/
def rowLine (row : Text × Text) : Text := Csv.writeFields isSpace [row.1, row.2]

/-- The contents of an output of `buildOutputs` with these rows. -/
def outputText (rows : List (Text × Text)) : Text :=
  Csv.write isSpace header ++ rows.flatMap fun row => Csv.write isSpace [row.1, row.2]

end Worker

/-! ## Reading -/

/-- One round of the loop of `readResultRows`, on the line. -/
def ScreeningToProbeChunkPlanner.readResultLine (fallbackStatus : OutputType) (line : Text) :
    Option ResultRow :=
  let line := trim line
  if line = [] then none else readRow fallbackStatus (strGetcsv line)

/-- One round of the loop over the risky file, on the line. -/
def TempfailRetryPlanner.riskyLine (line : Text) : Option (Text × Text) :=
  let line := rtrimEol line
  if line = [] then none
  else
    let row := parseLine (strGetcsv line)
    if row.1 = [] ∨ '@' ∉ row.1 then none else some row

/-- Who reads the outputs of a worker. -/
inductive RowReader where
  | merger
  | screening (fallbackStatus : OutputType)
  | retry
  deriving DecidableEq, Repr

namespace RowReader

/-- The address and the reason on a line. -/
def line : RowReader → Text → Option (Text × Text)
  | .merger, line => VerificationResultsMerger.parseLine line
  | .screening t, line =>
      (ScreeningToProbeChunkPlanner.readResultLine t line).map fun row => (row.email, row.reason)
  | .retry, line => TempfailRetryPlanner.riskyLine line

/-- The rows of a file. -/
def rows (reader : RowReader) (content : Text) : List (Text × Text) :=
  (fgets content).filterMap reader.line

/-- What is taken off the line. -/
def cut : RowReader → Text → Text
  | .merger => rtrimEol
  | .screening _ => trim
  | .retry => rtrimEol

/-- What is made of its columns. -/
def columns : RowReader → Record → Option (Text × Text)
  | .merger, record => VerificationResultsMerger.readLine record
  | .screening t, record =>
      (ScreeningToProbeChunkPlanner.readRow t record).map fun row => (row.email, row.reason)
  | .retry, record =>
      if TempfailRetryPlanner.hasEmail record then some (TempfailRetryPlanner.parseLine record)
      else none

/-- Every reader goes from the line to its columns. -/
theorem line_eq {reader : RowReader} {line : Text} :
    reader.line line = reader.columns (strGetcsv (reader.cut line)) := by
  cases reader with
  | merger => exact VerificationResultsMerger.readLine_strGetcsv.symm
  | screening t =>
    rw [RowReader.line, columns, cut, ScreeningToProbeChunkPlanner.readResultLine]
    by_cases h : trim line = []
    · rw [if_pos h, h]
      cases t <;> rfl
    · rw [if_neg h]
  | retry =>
    rw [RowReader.line, columns, cut, TempfailRetryPlanner.riskyLine]
    by_cases h : rtrimEol line = []
    · rw [if_pos h, h]
      rfl
    · rw [if_neg h]
      have hemail : TempfailRetryPlanner.hasEmail (strGetcsv (rtrimEol line)) = true ↔
          ¬ ((TempfailRetryPlanner.parseLine (strGetcsv (rtrimEol line))).1 = [] ∨
            '@' ∉ (TempfailRetryPlanner.parseLine (strGetcsv (rtrimEol line))).1) := by
        simp [TempfailRetryPlanner.hasEmail]
      split
      · next hyes => exact if_neg (hemail.mp hyes)
      · next hno => exact if_pos (not_not.mp (mt hemail.mpr hno))

/-! ## What the columns say -/

/-- A row of two columns, both trimmed, is read as it stands. -/
theorem columns_row {php : Php} (hphp : php.Lawful) {reader : RowReader} {email reason : Text}
    (hemail : Clean php email) (hreason : trim reason = reason) :
    reader.columns [email, reason] = some (email, reason) := by
  cases reader with
  | merger => rw [columns, hemail.readLine hphp, hreason]
  | screening t => rw [columns, hemail.readRow hphp, hreason, Option.map_some]
  | retry => rw [columns, if_pos (hemail.hasEmail hphp reason), hemail.parseLine, hreason]

/-- The address is the first column. -/
theorem email_of_columns {reader : RowReader} {record : Record} {row : Text × Text}
    (h : reader.columns record = some row) : row.1 = trim (record[0]?.getD []) := by
  cases reader with
  | merger =>
    rw [columns, VerificationResultsMerger.readLine] at h
    split at h
    · cases h
    rw [VerificationResultsMerger.parseRow] at h
    split at h
    · cases h
    split at h <;> exact Option.some.inj h ▸ rfl
  | screening t =>
    rw [columns, Option.map_eq_some_iff] at h
    obtain ⟨row', h, rfl⟩ := h
    rw [ScreeningToProbeChunkPlanner.readRow] at h
    split at h
    · cases h
    split at h
    · split at h <;> exact Option.some.inj h ▸ rfl
    · exact Option.some.inj h ▸ rfl
  | retry =>
    rw [columns] at h
    split at h
    · exact Option.some.inj h ▸ rfl
    · cases h

/-- A text with a backslash names no type. -/
theorem ofName?_of_slash {s : Text} (h : '\\' ∈ s) :
    (OutputType.ofName? (strtolower s)).isSome = false := by
  have hlower : '\\' ∈ strtolower s := List.mem_map_of_mem (f := Char.toLower) h
  rw [Bool.eq_false_iff]
  intro hsome
  rw [OutputType.ofName?, List.find?_isSome] at hsome
  obtain ⟨t, -, ht⟩ := hsome
  rw [← beq_iff_eq.mp ht] at hlower
  cases t <;> exact absurd hlower (by decide)

/-- Trimming keeps what is not blank. -/
theorem mem_trim {c : Char} {s : Text} (hc : isBlank c = false) (h : c ∈ s) : c ∈ trim s := by
  have hdrop : c ∈ s.dropWhile isBlank := by
    rw [← List.takeWhile_append_dropWhile (p := isBlank) (l := s)] at h
    refine (List.mem_append.mp h).resolve_left fun htake => ?_
    exact nomatch (List.mem_takeWhile_imp htake).symm.trans hc
  rw [← List.rdropWhile_append_rtakeWhile (p := isBlank) (l := s.dropWhile isBlank)] at hdrop
  refine (List.mem_append.mp hdrop).resolve_right fun htake => ?_
  exact nomatch (List.mem_rtakeWhile_imp htake).symm.trans hc

/-- The reason is the second column, unless that names a type. -/
theorem reason_of_columns {reader : RowReader} {record : Record} {row : Text × Text}
    (h : reader.columns record = some row) :
    row.2 = trim (record[1]?.getD []) ∨
      '\\' ∉ record[1]?.getD [] ∧ row.2 = trim (record[4]?.getD []) := by
  have hfive : ∀ {p : Prop}, p ∧ (OutputType.ofName? (strtolower (record[1]?.getD []))).isSome →
      '\\' ∉ record[1]?.getD [] := by
    intro p hp hmem
    cases (ofName?_of_slash hmem).symm.trans hp.2
  cases reader with
  | merger =>
    rw [columns, VerificationResultsMerger.readLine] at h
    split at h
    · cases h
    rw [VerificationResultsMerger.parseRow] at h
    split at h
    · cases h
    split at h
    · next hname => exact .inr ⟨hfive hname, Option.some.inj h ▸ rfl⟩
    · exact .inl (Option.some.inj h ▸ rfl)
  | screening t =>
    rw [columns, Option.map_eq_some_iff] at h
    obtain ⟨row', h, rfl⟩ := h
    rw [ScreeningToProbeChunkPlanner.readRow] at h
    split at h
    · cases h
    split at h
    · next status hname =>
      split at h
      · next hlength =>
        refine .inr ⟨fun hmem => ?_, Option.some.inj h ▸ rfl⟩
        have hcol : record[1]?.getD t.name = record[1]?.getD [] := by
          rw [List.getElem?_eq_getElem (by omega), Option.getD_some, Option.getD_some]
        have hslash := ofName?_of_slash (mem_trim (by decide) (hcol ▸ hmem))
        rw [hname] at hslash
        cases hslash
      · exact .inl (Option.some.inj h ▸ rfl)
    · exact .inl (Option.some.inj h ▸ rfl)
  | retry =>
    rw [columns] at h
    split at h
    · rw [← Option.some.inj h, TempfailRetryPlanner.parseLine]
      dsimp only
      split
      · next hname => exact .inr ⟨hfive hname, rfl⟩
      · exact .inl rfl
    · cases h

/-! ## What is taken off a line -/

theorem cut_sublist {reader : RowReader} {line : Text} : (reader.cut line).Sublist line := by
  cases reader with
  | screening t => exact trimBy_sublist isBlank line
  | merger | retry => exact (List.rdropWhile_prefix _ line).sublist

theorem cut_concat {reader : RowReader} {line : Text} :
    reader.cut (line ++ ['\n']) = reader.cut line := by
  cases reader with
  | screening t =>
    show trimBy isBlank (line ++ ['\n']) = trimBy isBlank line
    rw [trimBy, trimBy, List.dropWhile_append]
    split
    · next hnil =>
      rw [List.isEmpty_iff.mp hnil]
      rfl
    · exact List.rdropWhile_concat_pos _ _ _ (by decide)
  | merger | retry => exact List.rdropWhile_concat_pos _ _ _ (by decide)

/-- Nothing is taken off a trimmed line. -/
theorem cut_of_trim {reader : RowReader} {line : Text} (h : trim line = line) :
    reader.cut line = line := by
  obtain ⟨-, hlast⟩ := trimBy_eq_self_iff.mp h
  have hr : rtrimEol line = line := by
    rw [rtrimEol, List.rdropWhile_eq_self_iff]
    intro hne heol
    have hblank := hlast _ (List.getLast?_eq_some_getLast hne)
    rw [Bool.or_eq_true, beq_iff_eq, beq_iff_eq] at heol
    rcases heol with heol | heol <;>
    · rw [heol] at hblank
      exact nomatch hblank
  cases reader with
  | screening t => exact h
  | merger | retry => exact hr

/-- What is read from a file has no line ends, and its reason is trimmed. -/
theorem of_mem_rows {reader : RowReader} {content : Text} {row : Text × Text}
    (h : row ∈ reader.rows content) :
    '\n' ∉ row.1 ∧ '\n' ∉ row.2 ∧ trim row.2 = row.2 := by
  obtain ⟨line, hline, hrow⟩ := List.mem_filterMap.mp h
  rw [line_eq] at hrow
  have hcut : '\n' ∉ reader.cut line := by
    obtain ⟨s, hs, rfl | rfl⟩ := Csv.of_mem_fgets hline
    · exact fun hmem => hs (cut_sublist.subset hmem)
    · rw [cut_concat]
      exact fun hmem => hs (cut_sublist.subset hmem)
  have hcolumn : ∀ i : Nat, '\n' ∉ trim ((strGetcsv (reader.cut line))[i]?.getD []) := by
    intro i hmem
    have hmem := (trimBy_sublist isBlank _).subset hmem
    cases hi : (strGetcsv (reader.cut line))[i]? with
    | none =>
      rw [hi] at hmem
      exact nomatch hmem
    | some d =>
      rw [hi] at hmem
      rcases mem_strGetcsvFrom (List.mem_of_getElem? hi) hmem with h | h
      · exact nomatch h
      · exact hcut h
  refine ⟨?_, ?_⟩
  · rw [email_of_columns hrow]
    exact hcolumn 0
  · rcases reason_of_columns hrow with h | ⟨-, h⟩ <;>
    · rw [h]
      exact ⟨hcolumn _, trim_trim _⟩

/-- The row is read from wherever it stands: nothing else is read for it, and the rows
around it are read as if it were not there. -/
def ReadsBack (reader : RowReader) (row : Text × Text) : Prop :=
  ∀ before after : List (Text × Text),
    reader.rows (Worker.outputText (before ++ row :: after)) =
      reader.rows (Worker.outputText before) ++ row ::
        reader.rows (after.flatMap fun row => Csv.write Worker.isSpace [row.1, row.2])

end RowReader

/-! ## Rows that are read back -/

/-- The row is one line, its reason has no NUL at its ends, and no backslash of a quoted
field comes before a quote. -/
structure RowSafe (email reason : Text) : Prop where
  email_line : '\n' ∉ email
  reason_line : '\n' ∉ reason
  first : reason.head? ≠ some (Char.ofNat 0)
  last : reason.getLast? ≠ some (Char.ofNat 0)
  email_reads : Csv.readsBack Worker.isSpace email = true
  reason_reads : Csv.readsBack Worker.isSpace reason = true

/-- Every blank of PHP but NUL is white space for Go. -/
theorem isSpace_of_isBlank {c : Char} (h : isBlank c = true) (hnul : c ≠ Char.ofNat 0) :
    Worker.isSpace c = true := by
  simp only [isBlank, Bool.or_eq_true, beq_iff_eq] at h
  rcases h with ((((rfl | rfl) | rfl) | rfl) | h) | rfl
  · decide
  · decide
  · decide
  · decide
  · exact absurd h hnul
  · decide

theorem isSpace_of_isCsvSpace {c : Char} (h : isCsvSpace c = true) :
    Worker.isSpace c = true := by
  simp only [isCsvSpace, Bool.or_eq_true, beq_iff_eq] at h
  rcases h with ((((rfl | rfl) | rfl) | rfl) | rfl) | rfl <;> decide

/-- What Go has trimmed, PHP leaves alone but for a NUL. -/
theorem trim_eq_self_iff {s : Text} (h : Worker.trimSpace s = s) :
    trim s = s ↔ s.head? ≠ some (Char.ofNat 0) ∧ s.getLast? ≠ some (Char.ofNat 0) := by
  obtain ⟨hfirst, hlast⟩ := trimBy_eq_self_iff.mp h
  have hblank : ∀ {c : Char}, Worker.isSpace c = false →
      (isBlank c = false ↔ c ≠ Char.ofNat 0) := by
    intro c hc
    constructor
    · rintro hno rfl
      exact nomatch hno
    · intro hnul
      rw [Bool.eq_false_iff]
      intro hyes
      exact nomatch hc.symm.trans (isSpace_of_isBlank hyes hnul)
  have hend : ∀ {o : Option Char}, (∀ c ∈ o, Worker.isSpace c = false) →
      ((∀ c ∈ o, isBlank c = false) ↔ o ≠ some (Char.ofNat 0)) := by
    intro o ho
    cases o with
    | none => exact ⟨fun _ => nofun, fun _ c hc => nomatch hc⟩
    | some c =>
      have hc := hblank (ho c rfl)
      constructor
      · intro hall heq
        exact hc.mp (hall c rfl) (Option.some.inj heq)
      · intro hne d hd
        obtain rfl := Option.some.inj hd
        exact hc.mpr fun heq => hne (congrArg some heq)
  rw [trim, trimBy_eq_self_iff, hend hfirst, hend hlast]

section Rows

variable {reader : RowReader} {email reason : Text}

theorem rowLine_eq : Worker.rowLine (email, reason) =
    Csv.writeField Worker.isSpace email ++ ',' :: Csv.writeField Worker.isSpace reason := rfl

/-- The line of two trimmed fields is trimmed. -/
theorem trim_rowLine (hemail : trim email = email) (hne : email ≠ [])
    (hreason : trim reason = reason) (hne' : reason ≠ []) :
    trim (Worker.rowLine (email, reason)) = Worker.rowLine (email, reason) := by
  have hquote : isBlank '"' = false := by decide
  rw [rowLine_eq]
  refine trimBy_eq_self_iff.mpr ⟨?_, ?_⟩
  · rw [List.head?_append_of_ne_nil _ (Csv.writeField_ne_nil hne)]
    intro c hc
    rcases @Csv.head?_writeField Worker.isSpace email with h | h
    · rw [h] at hc
      exact Option.some.inj hc ▸ hquote
    · rw [h] at hc
      exact (trimBy_eq_self_iff.mp hemail).1 c hc
  · have hfield := @Csv.writeField_ne_nil Worker.isSpace reason hne'
    rw [List.getLast?_append_of_ne_nil _ (List.cons_ne_nil _ _),
      ← List.singleton_append, List.getLast?_append_of_ne_nil _ hfield]
    intro c hc
    rcases @Csv.getLast?_writeField Worker.isSpace reason with h | h
    · rw [h] at hc
      exact Option.some.inj hc ▸ hquote
    · rw [h] at hc
      exact (trimBy_eq_self_iff.mp hreason).2 c hc

/-- A row that is one line is read for itself. -/
theorem rows_of_line (hemail : '\n' ∉ email) (hreason : '\n' ∉ reason)
    (before after : List (Text × Text)) :
    reader.rows (Worker.outputText (before ++ (email, reason) :: after)) =
      reader.rows (Worker.outputText before) ++
        (reader.line (Worker.rowLine (email, reason) ++ ['\n'])).toList ++
        reader.rows (after.flatMap fun row => Csv.write Worker.isSpace [row.1, row.2]) := by
  have hline : '\n' ∉ Worker.rowLine (email, reason) := by
    rw [rowLine_eq, List.mem_append, List.mem_cons, Csv.mem_writeField (by decide),
      Csv.mem_writeField (by decide), not_or, not_or]
    exact ⟨hemail, by decide, hreason⟩
  have hwhole : ∀ rows : List (Text × Text), Worker.outputText rows = [] ∨
      (Worker.outputText rows).getLast? = some '\n' := by
    intro rows
    refine .inr ?_
    rw [Worker.outputText]
    induction rows using List.reverseRecOn with
    | nil => rfl
    | append_singleton rows row ih =>
      have hrow : Csv.write Worker.isSpace [row.1, row.2] = Worker.rowLine row ++ ['\n'] := rfl
      rw [List.flatMap_append, List.flatMap_singleton, hrow, ← List.append_assoc,
        ← List.append_assoc, List.getLast?_concat]
  have htext : Worker.outputText (before ++ (email, reason) :: after) =
      Worker.outputText before ++ (Worker.rowLine (email, reason) ++
        '\n' :: after.flatMap fun row => Csv.write Worker.isSpace [row.1, row.2]) := by
    simp only [Worker.outputText, List.flatMap_append, List.flatMap_cons, List.append_assoc,
      Csv.write, Worker.rowLine, List.cons_append, List.nil_append]
  rw [htext, RowReader.rows, Csv.fgets_append (hwhole before), Csv.fgets_line hline,
    List.filterMap_append, List.filterMap_cons]
  cases reader.line (Worker.rowLine (email, reason) ++ ['\n']) with
  | none => simp [RowReader.rows]
  | some row => simp [RowReader.rows]

/-- The columns of a line: the address, when it reads back, and what follows. -/
theorem strGetcsv_rowLine (hne : email ≠ [])
    (h : Csv.readsBack Worker.isSpace email = true) :
    strGetcsv (Worker.rowLine (email, reason)) =
      email :: strGetcsv (Csv.writeField Worker.isSpace reason) := by
  rw [rowLine_eq, strGetcsv,
    Csv.from_start_of_readsBack (fun _ => isSpace_of_isCsvSpace) hne h (.inr ⟨_, rfl⟩)]
  rfl

/-- A safe row is read from its line. -/
theorem line_of_rowSafe {php : Php} (hphp : php.Lawful) (hclean : Clean php email)
    (hreason : trim reason = reason) (hne : reason ≠ []) (hsafe : RowSafe email reason) :
    reader.line (Worker.rowLine (email, reason) ++ ['\n']) = some (email, reason) := by
  have hne' := hclean.ne_nil hphp
  have hlast : strGetcsv (Csv.writeField Worker.isSpace reason) = [reason] := by
    have h := @Csv.from_start_of_readsBack Worker.isSpace (fun _ => isSpace_of_isCsvSpace)
      reason [] hne hsafe.reason_reads (.inl rfl)
    rwa [List.append_nil] at h
  rw [RowReader.line_eq, RowReader.cut_concat,
    RowReader.cut_of_trim (trim_rowLine hclean.trim hne' hreason hne),
    strGetcsv_rowLine hne' hsafe.email_reads, hlast, RowReader.columns_row hphp hclean hreason]

/-- A row that is read from its line had fields that read back. -/
theorem readsBack_of_line {php : Php} (hphp : php.Lawful) (hclean : Clean php email)
    (hreason : trim reason = reason) (hne : reason ≠ [])
    (h : reader.line (Worker.rowLine (email, reason) ++ ['\n']) = some (email, reason)) :
    Csv.readsBack Worker.isSpace email = true ∧
      Csv.readsBack Worker.isSpace reason = true := by
  have hne' := hclean.ne_nil hphp
  rw [RowReader.line_eq, RowReader.cut_concat,
    RowReader.cut_of_trim (trim_rowLine hclean.trim hne' hreason hne)] at h
  have hemail : Csv.readsBack Worker.isSpace email = true := by
    rw [← Bool.not_eq_false]
    intro hno
    obtain ⟨d, ds, hcolumns, hmis⟩ := Csv.from_start_of_not_readsBack hno
      (.inr ⟨Csv.writeField Worker.isSpace reason, rfl⟩)
    have heq := RowReader.email_of_columns h
    rw [rowLine_eq, strGetcsv, hcolumns] at heq
    exact hmis.trim_ne hclean.trim heq.symm
  refine ⟨hemail, ?_⟩
  rw [← Bool.not_eq_false]
  intro hno
  obtain ⟨d, ds, hcolumns, hmis⟩ := Csv.from_start_of_not_readsBack hno (.inl rfl)
  rw [List.append_nil] at hcolumns
  rw [strGetcsv_rowLine hne' hemail, strGetcsv, hcolumns] at h
  rcases RowReader.reason_of_columns h with heq | ⟨hslash, -⟩
  · exact hmis.trim_ne hreason heq.symm
  · -- what is misread has a backslash, and is no name of a type
    obtain ⟨start, hmem, hstart, -⟩ := hmis
    exact hslash (hstart.subset hmem)

/-- **A row is read back as it was written, by every reader and wherever it stands,
exactly when it is safe.** -/
theorem readsBack_iff_rowSafe {php : Php} (hphp : php.Lawful) (hclean : Clean php email)
    {result : Worker.VerifierResult} {chain taxonomy : Bool} :
    reader.ReadsBack (email, Worker.reasonWithEvidence result chain taxonomy) ↔
      RowSafe email (Worker.reasonWithEvidence result chain taxonomy) := by
  have hspace := @Worker.trimSpace_reasonWithEvidence result chain taxonomy
  have hne := @Worker.reasonWithEvidence_ne_nil result chain taxonomy
  generalize Worker.reasonWithEvidence result chain taxonomy = reason at hspace hne ⊢
  constructor
  · intro h
    have hself := h [] []
    have hmem : (email, reason) ∈ reader.rows (Worker.outputText [(email, reason)]) := by
      rw [← List.nil_append [(email, reason)], hself]
      exact List.mem_append_right _ (.head _)
    obtain ⟨hn, hn', htrim⟩ := RowReader.of_mem_rows hmem
    rw [rows_of_line hn hn' [] [], List.append_assoc, List.append_right_inj] at hself
    have hline : reader.line (Worker.rowLine (email, reason) ++ ['\n']) =
        some (email, reason) := by
      cases hl : reader.line (Worker.rowLine (email, reason) ++ ['\n']) with
      | none =>
        rw [hl] at hself
        exact nomatch hself
      | some row =>
        rw [hl] at hself
        exact congrArg some (List.cons.inj hself).1
    obtain ⟨hemail, hreason⟩ := readsBack_of_line hphp hclean htrim hne hline
    obtain ⟨hfirst, hlast⟩ := (trim_eq_self_iff hspace).mp htrim
    exact ⟨hn, hn', hfirst, hlast, hemail, hreason⟩
  · intro hsafe before after
    have htrim := (trim_eq_self_iff hspace).mpr ⟨hsafe.first, hsafe.last⟩
    rw [rows_of_line hsafe.email_line hsafe.reason_line,
      line_of_rowSafe hphp hclean htrim hne hsafe, List.append_assoc]
    rfl

end Rows

/-- A filter that passes these addresses and no others. -/
def Php.table (addresses : List Text) : Php := ⟨addresses.contains, id⟩

/-- What the filter promises of an address. -/
def lawfulAddress (e : Text) : Bool :=
  e.contains '@' && Worker.trimSpace e == e &&
    (before '"' e).all fun c => c != ',' && c != ';'

theorem Php.table_lawful {addresses : List Text} (h : addresses.all lawfulAddress = true) :
    (Php.table addresses).Lawful := by
  have hall : ∀ {e : Text}, (Php.table addresses).filterVarEmail e = true →
      ('@' ∈ e ∧ Worker.trimSpace e = e) ∧ ∀ c ∈ before '"' e, c ≠ ',' ∧ c ≠ ';' := by
    intro e he
    have hlaw := List.all_eq_true.mp h e (List.contains_iff_mem.mp he)
    simpa [lawfulAddress] using hlaw
  exact ⟨fun e he => (hall he).1.1, fun e he => (hall he).1.2, fun e he => (hall he).2⟩

/-- An ordinary row is read back by the retry planner. -/
theorem readsBack_iff_rowSafe_plain :
    RowReader.retry.ReadsBack ("user@example.com".toList, Worker.reasonWithEvidence
        { reason := "smtp_tempfail".toList, decisionClass := "retryable".toList }
        false false) ↔
      RowSafe "user@example.com".toList (Worker.reasonWithEvidence
        { reason := "smtp_tempfail".toList, decisionClass := "retryable".toList }
        false false) :=
  @readsBack_iff_rowSafe .retry _ (Php.table ["user@example.com".toList])
    (Php.table_lawful (by decide)) ⟨by decide, by decide, by decide⟩ _ _ _

/-- A quoted local part with a quote in it: `a."\""@example.com`. -/
def quotedAddress : Text := "a.\"\\\"\"@example.com".toList

/-- It is an address, and no reader finds its row again. -/
theorem quotedAddress_misread :
    (Php.table [quotedAddress]).Lawful ∧ Clean (Php.table [quotedAddress]) quotedAddress ∧
      ∀ reader : RowReader, ¬ reader.ReadsBack (quotedAddress,
        Worker.reasonWithEvidence { reason := "rcpt_ok".toList } false false) := by
  refine ⟨Php.table_lawful (by decide), ⟨by decide, by decide, by decide⟩, ?_⟩
  intro reader h
  have hrows := h [] []
  cases reader with
  | merger => exact absurd hrows (by decide)
  | screening t => cases t <;> exact absurd hrows (by decide)
  | retry => exact absurd hrows (by decide)

/-! ## The files of the pipeline -/

/-- The lines of rows that are lines. -/
theorem fgets_rows {rows : List (Text × Text)}
    (h : ∀ row ∈ rows, '\n' ∉ row.1 ∧ '\n' ∉ row.2) :
    fgets (rows.flatMap fun row => Csv.write Worker.isSpace [row.1, row.2]) =
      rows.map fun row => Worker.rowLine row ++ ['\n'] := by
  induction rows with
  | nil => rfl
  | cons row rows ih =>
    obtain ⟨hemail, hreason⟩ := h row (.head _)
    have hline : '\n' ∉ Worker.rowLine (row.1, row.2) := by
      rw [rowLine_eq, List.mem_append, List.mem_cons, Csv.mem_writeField (by decide),
        Csv.mem_writeField (by decide), not_or, not_or]
      exact ⟨hemail, by decide, hreason⟩
    rw [List.flatMap_cons, Csv.write, List.append_assoc]
    exact (Csv.fgets_line hline).trans
      (congrArg (_ :: ·) (ih fun r hr => h r (.tail _ hr)))

/-- Safe rows are the records the pipeline sees in the file. -/
theorem records_outputText {php : Php} (hphp : php.Lawful) {rows : List (Text × Text)}
    (h : ∀ row ∈ rows, Clean php row.1 ∧ RowSafe row.1 row.2 ∧ row.2 ≠ [] ∧
      Worker.trimSpace row.2 = row.2) :
    VerificationResultsMerger.records (Worker.outputText rows) =
      Worker.header :: rows.map fun row => [row.1, row.2] := by
  have hlines := @fgets_rows (("email".toList, "reason".toList) :: rows) (by
    intro row hrow
    rcases List.mem_cons.mp hrow with rfl | hrow
    · decide
    · exact ⟨(h row hrow).2.1.email_line, (h row hrow).2.1.reason_line⟩)
  have htext : Worker.outputText rows = (("email".toList, "reason".toList) :: rows).flatMap
      fun row => Csv.write Worker.isSpace [row.1, row.2] := rfl
  rw [VerificationResultsMerger.records, htext, hlines, List.map_map, List.map_cons]
  refine congrArg₂ List.cons (by decide) (List.map_congr_left fun row hrow => ?_)
  obtain ⟨hclean, hsafe, hne, hspace⟩ := h row hrow
  have htrim := (trim_eq_self_iff hspace).mpr ⟨hsafe.first, hsafe.last⟩
  have hcut := (@RowReader.cut_concat .merger (Worker.rowLine row)).trans
    (RowReader.cut_of_trim (trim_rowLine hclean.trim (hclean.ne_nil hphp) htrim hne))
  have hlast := @Csv.from_start_of_readsBack Worker.isSpace (fun _ => isSpace_of_isCsvSpace)
    row.2 [] hne hsafe.reason_reads (.inl rfl)
  rw [List.append_nil] at hlast
  have hcolumns := @strGetcsv_rowLine row.1 row.2 (hclean.ne_nil hphp) hsafe.email_reads
  rw [strGetcsv, strGetcsv, hlast] at hcolumns
  exact (congrArg strGetcsv hcut).trans hcolumns

end ValidEmailVerifier
