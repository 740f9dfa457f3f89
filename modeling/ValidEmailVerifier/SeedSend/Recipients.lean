/-
# `SeedSend.Recipients` — the recipients of a campaign, out of the outputs of its job

`SeedSendRecipientResolver` reads the three outputs of a completed job again: the first column of
each line, in lower case, if it is an address.  The addresses are sorted, and cut off at the
limit for a campaign.

The outputs are what the merge has written, so the recipients are the addresses of the rows
that were merged (`resolve_merged`): it does not matter into which files the scores and the
answers of the cache have put the rows.
-/
import ValidEmailVerifier.Cache.WriteBack
import ValidEmailVerifier.Pipeline.AddressGrammar
import ValidEmailVerifier.Pipeline.MergedTexts
import Mathlib.Data.Char
import Mathlib.Data.Finset.Sort
import Mathlib.Data.List.Lex

namespace ValidEmailVerifier.SeedSend

open Text VerificationResultsMerger

/-! ## The resolver -/

/-- The columns of a job that the resolver reads. -/
structure CompletedJob where
  outputDisk : Option Text
  inputDisk : Option Text
  /-- `valid_key`, `invalid_key` and `risky_key`. -/
  keys : PerType (Option Text)

structure ResolverConfig where
  /-- `filesystems.default`. -/
  defaultDisk : Text
  /-- `seed_send.recipient_limits.max_per_campaign`. -/
  maxPerCampaign : Int

/-- The value, if it is not falsy. -/
def truthy (value : Option Text) : Option Text :=
  value.filter fun s => !CacheWriteBack.isFalsy s

def diskOf (config : ResolverConfig) (job : CompletedJob) : Text :=
  trim ((truthy job.outputDisk <|> truthy job.inputDisk).getD config.defaultDisk)

/-- The keys that are set, in the order they are read. -/
def outputKeys (job : CompletedJob) : List Text :=
  OutputType.all.filterMap fun t => truthy (job.keys.get t)

/-- The address of a line. -/
def lineEmail (php : Php) (line : Text) : Option Text :=
  let line := trim line
  if line = [] then none
  else
    let email := strtolower (trim ((strGetcsv line)[0]?.getD []))
    if email = "email".toList then none
    else if email = [] ∨ php.filterVarEmail email = false then none
    else some email

/-- `$emails[$email] = true`. -/
def remember (emails : List Text) (email : Text) : List Text :=
  if email ∈ emails then emails else emails ++ [email]

/-- The addresses that the outputs hold. -/
def found (php : Php) (read : Text → Text → Option Text) (disk : Text) (keys : List Text) :
    List Text :=
  keys.flatMap fun key => (fgets ((read disk key).getD [])).filterMap (lineEmail php)

def resolve (php : Php) (config : ResolverConfig) (read : Text → Text → Option Text)
    (job : CompletedJob) : List Text :=
  let disk := diskOf config job
  if disk = [] then []
  else
    let emails := (found php read disk (outputKeys job)).foldl remember []
    let resolved := emails.insertionSort (· ≤ ·)
    resolved.take (max 1 config.maxPerCampaign).toNat

/-! ## The addresses that are found -/

section Found
variable {php : Php} {emails more : List Text} {email : Text}

theorem mem_foldl_remember :
    email ∈ more.foldl remember emails ↔ email ∈ emails ∨ email ∈ more := by
  induction more generalizing emails with
  | nil => simp
  | cons first more ih =>
    rw [List.foldl_cons, ih, remember, List.mem_cons]
    split
    next hmem =>
      constructor
      · rintro (h | h)
        · exact .inl h
        · exact .inr (.inr h)
      · rintro (h | rfl | h)
        · exact .inl h
        · exact .inl hmem
        · exact .inr h
    · simp [or_assoc]

theorem nodup_foldl_remember (h : emails.Nodup) : (more.foldl remember emails).Nodup := by
  induction more generalizing emails with
  | nil => exact h
  | cons first more ih =>
    refine ih ?_
    rw [remember]
    split
    · exact h
    next hnew => exact List.nodup_append.mpr ⟨h, List.nodup_singleton _, by
        intro a ha b hb heq
        exact hnew (List.mem_singleton.mp hb ▸ heq ▸ ha)⟩

/-- The header has no address. -/
theorem lineEmail_header : lineEmail php (PhpCsv.fputcsv header) = none := by
  have hcolumn : strtolower (trim ((strGetcsv (trim (PhpCsv.fputcsv header)))[0]?.getD [])) =
      "email".toList := by decide
  have hne : trim (PhpCsv.fputcsv header) ≠ [] := by decide
  rw [lineEmail, if_neg hne, hcolumn, if_pos rfl]

/-- **A row of an output gives the address of the row it was made of**, if that is one. -/
theorem lineEmail_row {σ : Settings} {answers : CacheAnswers} {row : BufferedRow}
    {output : OutputType × Record} (hphp : php.Lawful) (h : MappedBy σ answers row output)
    (hrow : Tidy row) (hreads : PhpCsv.readsBack row.email = true) :
    lineEmail php (PhpCsv.fputcsv output.2) =
      if php.filterVarEmail (strtolower row.email) then some (strtolower row.email) else none := by
  obtain ⟨-, hne⟩ := trim_fields h hrow
  have hcolumn : strtolower (trim ((strGetcsv (PhpCsv.fields output.2))[0]?.getD [])) =
      strtolower row.email := by
    rw [firstColumn_fputcsv h hrow hreads, Option.getD_some, hrow.email_trim]
  rw [lineEmail, trim_fputcsv h hrow, if_neg hne, hcolumn]
  cases hvalid : php.filterVarEmail (strtolower row.email) with
  | false =>
    rw [if_neg Bool.false_ne_true]
    dsimp only
    split
    · rfl
    · exact if_pos (.inr hvalid)
  | true =>
    have hat := hphp.at_mem _ hvalid
    have hemail : strtolower row.email ≠ "email".toList := by
      intro heq
      rw [heq] at hat
      exact absurd hat (by decide)
    have hnil : strtolower row.email ≠ [] := List.ne_nil_of_mem hat
    rw [if_neg hemail, if_neg (by simp [hnil, hvalid]), if_pos rfl]

end Found

/-! ## The recipients of a merge -/

/-- The addresses of rows. -/
def addresses (php : Php) (rows : List BufferedRow) : Finset Text :=
  ((rows.map fun row => strtolower row.email).filter php.filterVarEmail).toFinset

/-- The outputs of a job are the files of a merge. -/
def HoldsOutputs (config : ResolverConfig) (read : Text → Text → Option Text) (job : CompletedJob)
    (files : PerType File) : Prop :=
  diskOf config job ≠ [] ∧ ∀ t, ∃ key, truthy (job.keys.get t) = some key ∧
    read (diskOf config job) key = some (outputText (files.get t))

section Merged
variable {php : Php} {config : ResolverConfig} {read : Text → Text → Option Text}
  {completed : CompletedJob} {σ : Settings} {answers : CacheAnswers} {rows : List BufferedRow}
  {outputs : List (OutputType × Record)} {files : PerType File} {email : Text}

theorem mem_outputKeys {job : CompletedJob} {key : Text} :
    key ∈ outputKeys job ↔ ∃ t, truthy (job.keys.get t) = some key := by
  rw [outputKeys, List.mem_filterMap]
  constructor
  · rintro ⟨t, -, h⟩
    exact ⟨t, h⟩
  · rintro ⟨t, h⟩
    exact ⟨t, by cases t <;> decide, h⟩

/-- The addresses in the lines of an output. -/
theorem mem_lines (hphp : php.Lawful) (h : List.Forall₂ (MappedBy σ answers) rows outputs)
    (htidy : ∀ row ∈ rows, Tidy row) (hreads : ∀ row ∈ rows, PhpCsv.readsBack row.email = true)
    (t : OutputType) :
    email ∈ (fgets (outputText (header :: writtenTo outputs t))).filterMap (lineEmail php) ↔
      ∃ row ∈ rows, (∃ output ∈ outputs, output.1 = t ∧ MappedBy σ answers row output) ∧
        strtolower row.email = email ∧ php.filterVarEmail email = true := by
  rw [fgets_outputText h htidy, List.filterMap_cons, lineEmail_header, List.mem_filterMap]
  constructor
  · rintro ⟨line, hline, hemail⟩
    obtain ⟨record, hrecord, rfl⟩ := List.mem_map.mp hline
    obtain ⟨output, houtput, rfl⟩ := List.mem_map.mp hrecord
    obtain ⟨hmem, ht⟩ := List.mem_filter.mp houtput
    obtain ⟨row, hrow, hby⟩ := exists_of_mem_outputs h hmem
    rw [lineEmail_row hphp hby (htidy row hrow) (hreads row hrow)] at hemail
    split at hemail
    next hvalid =>
      obtain rfl := Option.some.inj hemail
      exact ⟨row, hrow, ⟨output, hmem, beq_iff_eq.mp ht, hby⟩, rfl, hvalid⟩
    · cases hemail
  · rintro ⟨row, hrow, ⟨output, hmem, rfl, hby⟩, rfl, hvalid⟩
    refine ⟨PhpCsv.fputcsv output.2, List.mem_map_of_mem (List.mem_map_of_mem
      (List.mem_filter.mpr ⟨hmem, beq_self_eq_true _⟩)), ?_⟩
    rw [lineEmail_row hphp hby (htidy row hrow) (hreads row hrow), if_pos hvalid]

/-- Every address of a row is found, in one of the outputs. -/
theorem mem_found (hphp : php.Lawful) (h : List.Forall₂ (MappedBy σ answers) rows outputs)
    (htidy : ∀ row ∈ rows, Tidy row) (hreads : ∀ row ∈ rows, PhpCsv.readsBack row.email = true)
    (hholds : HoldsOutputs config read completed files)
    (hfiles : ∀ t, files.get t = header :: writtenTo outputs t) :
    email ∈ found php read (diskOf config completed) (outputKeys completed) ↔
      email ∈ addresses php rows := by
  have hmem : email ∈ addresses php rows ↔
      ∃ row ∈ rows, strtolower row.email = email ∧ php.filterVarEmail email = true := by
    rw [addresses, List.mem_toFinset, List.mem_filter, List.mem_map]
    constructor
    · rintro ⟨⟨row, hrow, heq⟩, hvalid⟩
      exact ⟨row, hrow, heq, hvalid⟩
    · rintro ⟨row, hrow, heq, hvalid⟩
      exact ⟨⟨row, hrow, heq⟩, hvalid⟩
  rw [hmem, found, List.mem_flatMap]
  constructor
  · rintro ⟨key, hkey, hline⟩
    obtain ⟨t, ht⟩ := mem_outputKeys.mp hkey
    obtain ⟨stored, hstored, hread⟩ := hholds.2 t
    obtain rfl : stored = key := Option.some.inj (hstored.symm.trans ht)
    rw [hread, Option.getD_some, hfiles t, mem_lines hphp h htidy hreads] at hline
    obtain ⟨row, hrow, -, hrest⟩ := hline
    exact ⟨row, hrow, hrest⟩
  · rintro ⟨row, hrow, hrest⟩
    obtain ⟨output, houtput, hby⟩ := exists_output_of_mem h hrow
    obtain ⟨key, hkey, hread⟩ := hholds.2 output.1
    refine ⟨key, mem_outputKeys.mpr ⟨output.1, hkey⟩, ?_⟩
    rw [hread, Option.getD_some, hfiles, mem_lines hphp h htidy hreads]
    exact ⟨row, hrow, ⟨output, houtput, rfl, hby⟩, hrest⟩

/-- Sorting what has been remembered is sorting the set. -/
theorem sort_remembered {emails : List Text} {s : Finset Text} (h : ∀ e, e ∈ emails ↔ e ∈ s) :
    (emails.foldl remember []).insertionSort (· ≤ ·) = s.sort := by
  refine List.Perm.eq_of_pairwise' (List.pairwise_insertionSort (· ≤ ·) _)
    (s.pairwise_sort (· ≤ ·)) ?_
  refine (List.perm_insertionSort _ _).trans ?_
  rw [List.perm_ext_iff_of_nodup (nodup_foldl_remember List.nodup_nil) (s.sort_nodup _)]
  intro e
  rw [mem_foldl_remember, Finset.mem_sort, or_iff_right List.not_mem_nil, h]

/-- **The recipients are the addresses of the rows that were merged**, sorted and cut off at the
limit: whichever files the scores and the answers of the cache have put the rows into, and in
whatever order. -/
theorem resolve_merged {objects : Addr → Option Text} {job : Job} {chunks : List Chunk}
    {outputDisk : Disk} (hphp : php.Lawful)
    (hholds : HoldsOutputs config read completed
      (mergeStreams σ answers objects job chunks outputDisk).files)
    (hreads : ∀ row ∈ inputRows objects (allSources job chunks outputDisk),
      PhpCsv.readsBack row.email = true) :
    resolve php config read completed =
      (addresses php (inputRows objects (allSources job chunks outputDisk))).sort.take
        (max 1 config.maxPerCampaign).toNat := by
  obtain ⟨outputs, hmapped, hfiles⟩ := exists_outputs σ answers objects job chunks outputDisk
  have htidy : ∀ row ∈ inputRows objects (allSources job chunks outputDisk), Tidy row :=
    fun row hrow => tidy_of_mem hrow
  have hfound := sort_remembered fun _ =>
    mem_found hphp hmapped htidy hreads hholds hfiles
  rw [resolve, if_neg hholds.1, ← hfound]

end Merged

/-! ## A job of two chunks -/

def screenedJob : CompletedJob where
  outputDisk := some "results".toList
  inputDisk := some "uploads".toList
  keys := ⟨some "valid.csv".toList, some "invalid.csv".toList, some "risky.csv".toList⟩

/-- The disk of the results. -/
def screenedDisk (disk key : Text) : Option Text :=
  if disk = "results".toList then
    if key = "valid.csv".toList then some (outputText (screenedMerge.files.get .valid))
    else if key = "invalid.csv".toList then some (outputText (screenedMerge.files.get .invalid))
    else if key = "risky.csv".toList then some (outputText (screenedMerge.files.get .risky))
    else none
  else none

theorem resolve_merged_screened :
    resolve (FilterVar.php id) ⟨"local".toList, 2⟩ screenedDisk screenedJob =
      ["ann@example.org".toList, "bob@example.org".toList] := by
  have h := @resolve_merged (FilterVar.php id) ⟨"local".toList, 2⟩ screenedDisk screenedJob {}
    (fun _ _ => [("zoe@example.org".toList, "invalid".toList)]) screenedOutputs
    { status := .processing } screenedChunks "local" (FilterVar.lawful id)
    ⟨by decide, fun t => by
      cases t with
      | valid => exact ⟨"valid.csv".toList, by decide, rfl⟩
      | invalid => exact ⟨"invalid.csv".toList, by decide, rfl⟩
      | risky => exact ⟨"risky.csv".toList, by decide, rfl⟩⟩
    (by decide +kernel)
  rw [h, addresses, ← sort_remembered fun e => List.mem_toFinset.symm]
  decide +kernel

end ValidEmailVerifier.SeedSend
