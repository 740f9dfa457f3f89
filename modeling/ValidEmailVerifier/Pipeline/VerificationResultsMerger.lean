/-
# `Pipeline.VerificationResultsMerger` — from chunk outputs to job outputs

`VerificationResultsMerger::merge` with the `VerificationOutputMapper` and the
`DeliverabilityScoreCalculator` it uses.  The mapper may move a catch-all row to
another output file, so a row's file is not the file it was read from; the law
of the merge, `merge_emails`, is that the three files together still hold every
row that was read, once.
-/
import ValidEmailVerifier.Lib.Text
import ValidEmailVerifier.Pipeline.Settings

namespace ValidEmailVerifier.VerificationResultsMerger

open Text

/-! ## Reading a source -/

/-- The records of a stream: the columns `str_getcsv` finds in each line. -/
def records (content : Text) : File := (fgets content).map fun line => strGetcsv (rtrimEol line)

/-- `isHeaderLine`. -/
def isHeaderLine (columns : Record) : Bool := columns.all (fun c => !c.contains '@')

/-- `parseRow`: the address and the reason. -/
def parseRow (columns : Record) : Option (Text × Text) :=
  let email := trim (columns[0]?.getD [])
  if columns = [] ∨ email = [] then none
  else if 5 ≤ columns.length ∧
      (OutputType.ofName? (strtolower (columns[1]?.getD []))).isSome then
    some (email, trim (columns[4]?.getD []))
  else some (email, trim (columns[1]?.getD []))

/-- One line of `processSource`. -/
def readLine (columns : Record) : Option (Text × Text) :=
  if isHeaderLine columns then none else parseRow columns

/-- The rows `processSource` reads from a file. -/
def sourceRows (file : File) : List (Text × Text) := file.filterMap readLine

/-- The addresses of a file, as the merge reads it. -/
def emails (file : File) : List Text := (sourceRows file).map Prod.fst

/-! ## `VerificationOutputMapper` -/

/-- `normalizeReason`. -/
def normalizeReason (reason : Text) : Text :=
  let base := before ':' (strtolower (trim reason))
  if base = [] then "unknown".toList else base

/-- `mapSubStatus`. -/
def mapSubStatus (reason : Text) : Text :=
  if reason ∈ ["catch_all".toList, "catch_all_high_confidence".toList,
      "catch_all_medium_confidence".toList, "catch_all_low_confidence".toList] then
    "catch_all".toList
  else if reason ∈ ["smtp_connect_ok".toList, "rcpt_ok".toList] then "smtp_connect_ok".toList
  else if reason ∈ ["mx_missing".toList, "syntax".toList, "disposable_domain".toList,
      "role_account".toList, "domain_typo_suspected".toList] then reason
  else if reason ∈ ["smtp_timeout".toList, "smtp_connect_timeout".toList,
      "dns_timeout".toList] then "timeout".toList
  else if reason ∈ ["smtp_tempfail".toList, "dns_servfail".toList] then "tempfail".toList
  else if reason ∈ ["rcpt_rejected".toList, "smtp_unavailable".toList] then
    "mailbox_not_found".toList
  else "unknown".toList

/-- `DeliverabilityScoreCalculator::calculate`; `cacheStatus` is the outcome of
the cache entry, when the row has one. -/
def calculate (σ : Settings) (status : OutputType) (subStatus reason : Text)
    (cacheStatus : Option Text) : Int :=
  let base := (σ.scoreReasonOverrides.lookup reason).getD (σ.scoreBase.get status)
  let base :=
    match cacheStatus with
    | some s =>
        let s := strtolower s
        if s = [] then base else base + (σ.scoreCacheAdjustments.lookup s).getD 0
    | none => base
  let base :=
    match σ.scoreSubStatusCaps.lookup subStatus with
    | some cap => if 0 < cap then min base cap else base
    | none => base
  max 0 (min 100 base)

/-- `applyCatchAllPolicy`. -/
def applyCatchAllPolicy (σ : Settings) (score : Int) : OutputType :=
  match σ.catchAllPromoteThreshold with
  | some threshold => if σ.catchAllPromote ∧ threshold ≤ score then .valid else .risky
  | none => .risky

/-- `VerificationOutputMapper::map`, as the file the row goes to and its five
columns. -/
def mapRow (σ : Settings) (cacheStatus : Option Text) (sourceStatus : OutputType)
    (row : Text × Text) : OutputType × Record :=
  let reason := normalizeReason row.2
  let subStatus := mapSubStatus reason
  let score := calculate σ sourceStatus subStatus reason cacheStatus
  let status :=
    if "catch_all".toList.isPrefixOf reason then applyCatchAllPolicy σ score
    else sourceStatus
  let reasonOutput := if row.2 = [] then "unknown".toList else row.2
  (status, [row.1, status.name, subStatus, (toString score).toList, reasonOutput])

/-! ## The merge -/

/-- `collectSources`. -/
def collectSources (job : Job) (chunks : List Chunk) (t : OutputType)
    (fallbackDisk : Disk) : List Addr :=
  let cached :=
    match job.cachedKeys.get t with
    | some key => [(job.inputDisk.getD fallbackDisk, key)]
    | none => []
  cached ++ chunks.filterMap fun chunk =>
    (chunk.keys.get t).map fun key =>
      ((chunk.outputDisk <|> chunk.inputDisk).getD fallbackDisk, key)

/-- The rows of the sources of one type, mapped; `cache` is the answer of
`lookupMany` for a normalised address. -/
def mappedRows (σ : Settings) (cache : List (Text × Text)) (objects : Objects)
    (sources : List Addr) (t : OutputType) : List (OutputType × Record) :=
  sources.flatMap fun source =>
    (sourceRows ((objects source).getD [])).map fun row =>
      mapRow σ (cache.lookup (strtolower (trim row.1))) t row

/-- The result of `merge`. -/
structure Merged where
  files : PerType File
  counts : PerType Nat
  missing : List Addr
  deriving DecidableEq, Repr

/-- Every mapped row, in the order it is written. -/
def allMapped (σ : Settings) (cache : List (Text × Text)) (objects : Objects) (job : Job)
    (chunks : List Chunk) (outputDisk : Disk) : List (OutputType × Record) :=
  OutputType.all.flatMap fun t =>
    mappedRows σ cache objects (collectSources job chunks t outputDisk) t

/-- The rows written to one file. -/
def writtenTo (rows : List (OutputType × Record)) (t : OutputType) : File :=
  (rows.filter (fun r => r.1 == t)).map Prod.snd

/-- `['email', 'status', 'sub_status', 'score', 'reason']`. -/
def header : Record :=
  ["email".toList, "status".toList, "sub_status".toList, "score".toList, "reason".toList]

/-- `merge`. -/
def merge (σ : Settings) (cache : List (Text × Text)) (objects : Objects) (job : Job)
    (chunks : List Chunk) (outputDisk : Disk) : Merged :=
  let rows := allMapped σ cache objects job chunks outputDisk
  { files :=
      ⟨header :: writtenTo rows .valid, header :: writtenTo rows .invalid,
        header :: writtenTo rows .risky⟩
    counts :=
      ⟨(writtenTo rows .valid).length, (writtenTo rows .invalid).length,
        (writtenTo rows .risky).length⟩
    missing := OutputType.all.flatMap fun t =>
      (collectSources job chunks t outputDisk).filter (fun a => (objects a).isNone) }

/-! ## The merge loses and repeats nothing -/

/-- The address of a written record. -/
def recordEmail (record : Record) : Text := record[0]?.getD []

/-- The addresses of the rows below the header of a written file. -/
def writtenEmails (file : File) : List Text := (file.drop 1).map recordEmail

@[simp] theorem recordEmail_mapRow (σ : Settings) (cacheStatus : Option Text)
    (t : OutputType) (row : Text × Text) :
    recordEmail (mapRow σ cacheStatus t row).2 = row.1 := rfl

/-- The three files are a partition of the written rows. -/
theorem writtenTo_perm (rows : List (OutputType × Record)) :
    (OutputType.all.flatMap (writtenTo rows)).Perm (rows.map Prod.snd) := by
  have h := (OutputType.partition_perm Prod.fst rows).map Prod.snd
  rwa [List.map_flatMap] at h

theorem mappedRows_emails (σ : Settings) (cache : List (Text × Text)) (objects : Objects)
    (sources : List Addr) (t : OutputType) :
    (mappedRows σ cache objects sources t).map (fun r => recordEmail r.2) =
      sources.flatMap (fun a => emails ((objects a).getD [])) := by
  simp [mappedRows, List.map_flatMap, emails, Function.comp_def]

/-- The addresses in the sources of a merge. -/
def sourceEmails (objects : Objects) (job : Job) (chunks : List Chunk)
    (outputDisk : Disk) : List Text :=
  OutputType.all.flatMap fun t =>
    (collectSources job chunks t outputDisk).flatMap
      (fun a => emails ((objects a).getD []))

/-- **The merge conserves addresses**: the rows of the three output files name
the addresses of the sources, each as often as the sources do. -/
theorem merge_emails (σ : Settings) (cache : List (Text × Text)) (objects : Objects)
    (job : Job) (chunks : List Chunk) (outputDisk : Disk) :
    (OutputType.all.flatMap fun t => writtenEmails
        ((merge σ cache objects job chunks outputDisk).files.get t)).Perm
      (sourceEmails objects job chunks outputDisk) := by
  have hfiles := (writtenTo_perm
    (allMapped σ cache objects job chunks outputDisk)).map recordEmail
  have hsources : (allMapped σ cache objects job chunks outputDisk).map
      (fun r => recordEmail r.2) = sourceEmails objects job chunks outputDisk := by
    simp only [allMapped, List.map_flatMap, mappedRows_emails, sourceEmails]
  rw [List.map_map] at hfiles
  rw [← hsources]
  refine List.Perm.trans (List.Perm.of_eq ?_) hfiles
  simp [OutputType.all, merge, writtenEmails, PerType.get]

end ValidEmailVerifier.VerificationResultsMerger
