/-
# `Cache.OutcomeImport` — an import that is killed and run again

`ImportEmailVerificationOutcomesFromCsv` reads a file row by row and hands the items to `ingest`
five hundred at a time; `ingest` commits its rows in batches of its own.  A run that is killed
has committed the rows of some first part of the file.  The run after it puts the rows of the
whole file into the table, theirs among them, so it leaves what one run leaves (`import_again`).

This needs the two runs to read a row the same: the times in the file are absolute, and a row
without a time gets that of the import's creation.
-/
import ValidEmailVerifier.Cache.IngestedRows

namespace ValidEmailVerifier.ImportEmailVerificationOutcomesFromCsv

open Text OutcomeIngestor Upserts
open ParseAndChunkJob (onlyAda)

/-! ## The job -/

def chunkSize : Nat := 500

/-- What the job reads of its import. -/
structure EmailVerificationOutcomeImport where
  source : Text
  userId : Option Nat
  createdAt : Option Int

/-- What a run finds beside the file: the time, and what `Carbon::parse` makes of a text. -/
structure Run where
  now : Int
  parse : Text → Option Int

/-- The columns of the header: of several with one name, the last. -/
abbrev Columns := Text → Option Nat

def columnKey (value : Text) : Text :=
  let key := (strtolower (trim value)).map fun c => if c = ' ' then '_' else c
  if key = "reason".toList then "reason_code".toList else key

def mapColumns (header : List Text) : Columns :=
  header.zipIdx.foldl (fun columns cell =>
    if columnKey cell.1 = [] then columns
    else Function.update columns (columnKey cell.1) (some cell.2)) fun _ => none

def getValue (row : List Text) (columns : Columns) (key : Text) : Option Text :=
  (columns key).bind fun i =>
    if trim (row.getD i []) ≠ [] then some (trim (row.getD i [])) else none

def rowToItem (columns : Columns) (row : List Text) : Option Item :=
  match columns "email".toList, columns "outcome".toList with
  | some emailIndex, some outcomeIndex =>
      if trim (row.getD emailIndex []) = [] then none
      else
        some
          { email := trim (row.getD emailIndex [])
            outcome := row.getD outcomeIndex []
            reasonCode := (getValue row columns "reason_code".toList).getD []
            observedAt := (getValue row columns "observed_at".toList).getD []
            source := (getValue row columns "source".toList).getD [] }
  | _, _ => none

/-- `mergeErrors`. -/
def mergeErrors (existing incoming : List Text) : List Text :=
  incoming.foldl (fun merged error => if 10 ≤ merged.length then merged else merged ++ [error])
    existing

/-- The call of `ingest` for some items. -/
def callOf (record : EmailVerificationOutcomeImport) (run : Run) (items : List Item) : Import where
  items := items
  defaultSource := record.source
  defaultObservedAt := record.createdAt.getD run.now
  userId := record.userId
  parse := run.parse

/-- The items that wait, and the calls that were made. -/
structure Progress where
  items : List Item := []
  calls : List Import := []
  itemCount : Nat := 0

/-- One row of the file. -/
def readRecord (record : EmailVerificationOutcomeImport) (run : Run) (columns : Columns)
    (p : Progress) (row : List Text) : Progress :=
  match rowToItem columns row with
  | none => p
  | some item =>
      if chunkSize ≤ (p.items ++ [item]).length then
        { items := []
          calls := p.calls ++ [callOf record run (p.items ++ [item])]
          itemCount := p.itemCount + 1 }
      else { p with items := p.items ++ [item], itemCount := p.itemCount + 1 }

/-- The rest of the items. -/
def Progress.finish (record : EmailVerificationOutcomeImport) (run : Run) (p : Progress) :
    Progress :=
  if p.items ≠ [] then { p with items := [], calls := p.calls ++ [callOf record run p.items] }
  else p

/-- The calls of a run over a file, which is there or not, or the error it ends with. -/
def readFile (record : EmailVerificationOutcomeImport) (run : Run)
    (stream : Option (List (List Text))) : Except Text Progress :=
  match stream with
  | none => .error "Unable to read import file stream.".toList
  | some rows =>
      let columns := mapColumns (rows.headD [])
      if (columns "email".toList).isNone ∨ (columns "outcome".toList).isNone then
        .error "CSV must include email and outcome columns.".toList
      else
        .ok ((rows.tail.foldl (readRecord record run columns) {}).finish record run)

inductive Status where
  | completed | failed
  deriving DecidableEq, Repr

/-- What the job writes to its import, and to the log of ingestions. -/
structure Finished where
  status : Status
  itemCount : Nat := 0
  importedCount : Nat := 0
  skippedCount : Nat := 0
  errorSample : List Text := []
  errorMessage : Option Text := none

/-- One call of `ingest`, with its counts added. -/
def ingestChunk (php : Php) (hash : Text → Text) (state : List Outcome × Finished)
    (call : Import) : List Outcome × Finished :=
  let result := ingest php hash state.1 call
  (result.table,
    { state.2 with
      importedCount := state.2.importedCount + result.imported
      skippedCount := state.2.skippedCount + result.skipped
      errorSample := mergeErrors state.2.errorSample result.errors })

def handle (php : Php) (hash : Text → Text) (record : EmailVerificationOutcomeImport)
    (run : Run) (stream : Option (List (List Text))) (table : List Outcome) :
    List Outcome × Finished :=
  match readFile record run stream with
  | .error message => (table, { status := .failed, errorMessage := some message })
  | .ok p =>
      p.calls.foldl (ingestChunk php hash)
        (table, { status := .completed, itemCount := p.itemCount })

/-- The table that a run leaves which is killed: some calls were made, and some items of the
next were read; or all calls were made. -/
def Killed (php : Php) (hash : Text → Text) (record : EmailVerificationOutcomeImport)
    (run : Run) (stream : Option (List (List Text))) (table left : List Outcome) : Prop :=
  match readFile record run stream with
  | .error _ => left = table
  | .ok p =>
      left = ingestAll php hash table p.calls ∨
      ∃ done next rest part, p.calls = done ++ next :: rest ∧ part <+: next.items ∧
        left = (part.foldl (ingestItem php hash next)
          { table := ingestAll php hash table done }).table

/-! ## The rows of a file -/

variable {php : Php} {hash : Text → Text} {record : EmailVerificationOutcomeImport} {run : Run}

/-- The items of a file. -/
def itemsOf (rows : List (List Text)) : List Item :=
  rows.tail.filterMap (rowToItem (mapColumns (rows.headD [])))

/-- The rows that a run makes of a file. -/
def fileRows (php : Php) (hash : Text → Text) (record : EmailVerificationOutcomeImport)
    (run : Run) (rows : List (List Text)) : List Outcome :=
  (itemsOf rows).filterMap (readRow php hash (callOf record run []))

/-- The items are handed over in the order of the file, each once. -/
theorem items_foldl {columns : Columns} (rows : List (List Text)) :
    ∃ chunks : List (List Item),
      (rows.foldl (readRecord record run columns) {}).calls = chunks.map (callOf record run) ∧
      chunks.flatten ++ (rows.foldl (readRecord record run columns) {}).items =
        rows.filterMap (rowToItem columns) := by
  induction rows using List.reverseRecOn with
  | nil => exact ⟨[], rfl, rfl⟩
  | append_singleton rows row ih =>
    obtain ⟨chunks, hcalls, hitems⟩ := ih
    rw [List.foldl_concat, List.filterMap_append, ← hitems, readRecord]
    cases hrow : rowToItem columns row with
    | none => exact ⟨chunks, hcalls, by simp [hrow]⟩
    | some item =>
      dsimp only
      split
      · refine ⟨chunks ++ [_], by rw [hcalls, List.map_append]; rfl, ?_⟩
        simp [hrow]
      · exact ⟨chunks, hcalls, by simp [hrow]⟩

theorem calls_finish (p : Progress) : ∃ last : List (List Item), (p.finish record run).calls =
    p.calls ++ last.map (callOf record run) ∧ last.flatten = p.items := by
  rw [Progress.finish]
  split
  · exact ⟨[p.items], rfl, by simp⟩
  · next hnone => exact ⟨[], (List.append_nil _).symm, (not_not.mp hnone).symm⟩

/-- However the items are cut into calls, their rows are those of the file. -/
theorem rows_readFile {rows : List (List Text)} {p : Progress}
    (h : readFile record run (some rows) = .ok p) :
    p.calls.flatMap (rowsOf php hash) = fileRows php hash record run rows := by
  rw [readFile] at h
  split at h
  · cases h
  · obtain rfl := Except.ok.inj h
    obtain ⟨chunks, hcalls, hitems⟩ :=
      @items_foldl record run (mapColumns (rows.headD [])) rows.tail
    obtain ⟨last, hlast, hflatten⟩ := @calls_finish record run
      (rows.tail.foldl (readRecord record run (mapColumns (rows.headD []))) {})
    have hrows : ∀ chunks : List (List Item),
        (chunks.map (callOf record run)).flatMap (rowsOf php hash) =
          chunks.flatten.filterMap (readRow php hash (callOf record run [])) := by
      intro chunks
      induction chunks with
      | nil => rfl
      | cons chunk chunks ih =>
        rw [List.map_cons, List.flatMap_cons, ih, List.flatten_cons, List.filterMap_append]
        rfl
    rw [hlast, hcalls, ← List.map_append, hrows, List.flatten_append, hflatten, hitems]
    rfl

theorem table_handle {rows : List (List Text)} {p : Progress} (table : List Outcome)
    (h : readFile record run (some rows) = .ok p) :
    (handle php hash record run (some rows) table).1 =
      putAll rowKey table (fileRows php hash record run rows) := by
  have hfold : ∀ (calls : List Import) (state : List Outcome × Finished),
      (calls.foldl (ingestChunk php hash) state).1 = ingestAll php hash state.1 calls := by
    intro calls
    induction calls with
    | nil => exact fun _ => rfl
    | cons call calls ih => exact fun state => ih _
  rw [handle, h]
  dsimp only
  rw [hfold, ingestAll_eq, rows_readFile h]

/-- A run that is killed has put the rows of a first part of the file into the table. -/
theorem Killed.exists_part {rows : List (List Text)} {p : Progress} {table left : List Outcome}
    (h : readFile record run (some rows) = .ok p)
    (hkilled : Killed php hash record run (some rows) table left) :
    ∃ part, part <+: fileRows php hash record run rows ∧ left = putAll rowKey table part := by
  rw [Killed, h] at hkilled
  rcases hkilled with rfl | ⟨done, next, rest, part, hcalls, hpart, rfl⟩
  · exact ⟨_, List.prefix_refl _, by rw [ingestAll_eq, rows_readFile h]⟩
  · obtain ⟨flushed, hread, htable⟩ :=
      @reads_foldl php hash next (ingestAll php hash table done) part
    refine ⟨done.flatMap (rowsOf php hash) ++ flushed, ?_, ?_⟩
    · rw [← rows_readFile h, hcalls, List.flatMap_append, List.flatMap_cons]
      refine (List.prefix_append_right_inj _).mpr (List.IsPrefix.trans ?_ (List.prefix_append _ _))
      have hrows : part.filterMap (readRow php hash next) <+: rowsOf php hash next :=
        hpart.filterMap _
      exact (hread ▸ List.prefix_append flushed _).trans hrows
    · rw [htable, ingestAll_eq, ← putAll_append]

/-! ## The same rows again -/

/-- The times in the file are absolute: two runs make the same of them. -/
def SameTimes (run run' : Run) (rows : List (List Text)) : Prop :=
  ∀ item ∈ itemsOf rows, run.parse item.observedAt = run'.parse item.observedAt

theorem fileRows_eq {run' : Run} {rows : List (List Text)} {created : Int}
    (hcreated : record.createdAt = some created) (htimes : SameTimes run run' rows) :
    fileRows php hash record run rows = fileRows php hash record run' rows := by
  refine List.filterMap_congr fun item hitem => ?_
  simp only [readRow, readItem, callOf, hcreated, Option.getD_some, htimes item hitem]

/-- Whether a file can be read does not depend on the run. -/
theorem readFile_ok (run' : Run) {stream : Option (List (List Text))} {p : Progress}
    (h : readFile record run stream = .ok p) : ∃ p', readFile record run' stream = .ok p' := by
  cases stream with
  | none => cases h
  | some rows =>
    rw [readFile] at h ⊢
    split at h
    · cases h
    · next hcolumns => exact ⟨_, if_neg hcolumns⟩

/-- **An import that was killed, and one that was completed, may be run again**: the table is
the one that a single run leaves. -/
theorem import_again {stream : Option (List (List Text))} {created : Int}
    (hcreated : record.createdAt = some created) {first again once : Run}
    (htimes : ∀ rows ∈ stream, SameTimes first once rows ∧ SameTimes again once rows)
    (table : List Outcome) :
    (∀ left, Killed php hash record first stream table left →
      (handle php hash record again stream left).1 =
        (handle php hash record once stream table).1) ∧
    (handle php hash record again stream (handle php hash record once stream table).1).1 =
      (handle php hash record once stream table).1 := by
  cases honce : readFile record once stream with
  | error message =>
    have hagain : ∀ run : Run, ∃ m, readFile record run stream = .error m := by
      intro run
      cases hrun : readFile record run stream with
      | error m => exact ⟨m, rfl⟩
      | ok p =>
        obtain ⟨p', hp'⟩ := readFile_ok once hrun
        rw [honce] at hp'
        cases hp'
    obtain ⟨m, hm⟩ := hagain again
    obtain ⟨m', hm'⟩ := hagain first
    refine ⟨fun left hkilled => ?_, ?_⟩
    · rw [Killed, hm'] at hkilled
      rw [handle, hm, handle, honce]
      exact hkilled
    · rw [handle, hm, handle, honce]
  | ok p =>
    cases stream with
    | none => cases honce
    | some rows =>
      obtain ⟨hfirst, hagain⟩ := htimes rows rfl
      obtain ⟨p', hp'⟩ := readFile_ok again honce
      obtain ⟨p'', hp''⟩ := readFile_ok first honce
      rw [table_handle table honce]
      refine ⟨fun left hkilled => ?_, ?_⟩
      · obtain ⟨part, hpart, rfl⟩ := hkilled.exists_part hp''
        rw [table_handle _ hp', fileRows_eq hcreated hagain]
        rw [fileRows_eq hcreated hfirst] at hpart
        exact putAll_again fun row hrow => List.mem_map_of_mem (hpart.subset hrow)
      · rw [table_handle _ hp', fileRows_eq hcreated hagain]
        exact putAll_again fun row hrow => List.mem_map_of_mem hrow

/-! ## A file -/

/-- Two rows for one address and time, and one without a time. -/
def feedbackFile : List (List Text) :=
  [["email".toList, "Outcome".toList, "reason".toList, "observed at".toList],
    ["ada@example.org".toList, "valid".toList, "first".toList, "noon".toList],
    ["ADA@example.org".toList, "valid".toList, "second".toList, "noon".toList],
    ["ada@example.org".toList, "risky".toList]]

def noonRun : Run := ⟨50, fun s => if s = "noon".toList then some 12 else none⟩

def feedbackImport : EmailVerificationOutcomeImport := ⟨"admin_import".toList, some 1, some 7⟩

theorem import_again_feedback :
    (∀ left, Killed onlyAda id feedbackImport noonRun (some feedbackFile) [] left →
      (handle onlyAda id feedbackImport { noonRun with now := 60 } (some feedbackFile) left).1 =
        (handle onlyAda id feedbackImport noonRun (some feedbackFile) []).1) ∧
    (handle onlyAda id feedbackImport { noonRun with now := 60 } (some feedbackFile)
        (handle onlyAda id feedbackImport noonRun (some feedbackFile) []).1).1 =
      (handle onlyAda id feedbackImport noonRun (some feedbackFile) []).1 :=
  import_again rfl (fun _ _ => ⟨fun _ _ => rfl, fun _ _ => rfl⟩) []

end ValidEmailVerifier.ImportEmailVerificationOutcomesFromCsv
