/-
# `Cache.MergedVerdicts` — what a merge has put out is what the next list is told

The files of a merge are the outputs that the write-back reads.  It takes the first column of
a line for the address and the name of the file for the verdict, and leaves the risky file out.
So once it has written all it attempted, an address that was not in the cache is found by the
next lookup under the name of a file that the merge has put it into (`found_after_merge`).
-/
import ValidEmailVerifier.Cache.WrittenItems
import ValidEmailVerifier.Pipeline.MergedTexts

namespace ValidEmailVerifier.CacheItems

open Text VerificationResultsMerger

/-- The outputs of the call are the files of a merge. -/
def Stores (c : Call) (files : PerType File) : Prop :=
  ∀ t : OutputType, ∃ key, c.result.keys.lookup t.name = some key ∧
    CacheWriteBack.isFalsy key = false ∧
    c.storage c.result.disk key = some (some (outputText (files.get t)))

/-- A row of the address is in the file. -/
def Filed (files : PerType File) (email : Text) (t : OutputType) : Prop :=
  ∃ written ∈ writtenEmails (files.get t), CacheWriteBack.normalizeEmail written = email

instance {files : PerType File} {email : Text} {t : OutputType} : Decidable (Filed files email t) :=
  inferInstanceAs (Decidable (∃ written ∈ _, _))

section Rows
variable {σ : ValidEmailVerifier.Settings} {answers : CacheAnswers}
  {rows : List BufferedRow} {outputs : List (OutputType × Record)} {files : PerType File}
  {row : BufferedRow} {output : OutputType × Record} {email : Text}

theorem extractEmailFromLine_header :
    CacheWriteBack.extractEmailFromLine (PhpCsv.fputcsv header) = none := by
  decide

/-- A line of an output has the address of the row it was made of, if the row has an `@`. -/
theorem extractEmailFromLine_row (h : MappedBy σ answers row output) (hrow : Tidy row)
    (hreads : PhpCsv.readsBack row.email = true) {written : Text} :
    CacheWriteBack.extractEmailFromLine (PhpCsv.fputcsv output.2) = some written ↔
      '@' ∈ PhpCsv.fields output.2 ∧ written = row.email := by
  obtain ⟨-, hne⟩ := trim_fields h hrow
  have hcolumn : trim ((strGetcsv (PhpCsv.fields output.2))[0]?.getD []) = row.email := by
    rw [firstColumn_fputcsv h hrow hreads, Option.getD_some, hrow.email_trim]
  unfold CacheWriteBack.extractEmailFromLine
  simp only [rtrimEol_fputcsv h hrow, hcolumn]
  by_cases hat : '@' ∈ PhpCsv.fields output.2
  · rw [if_neg (by simp [hne, hat]), if_neg hrow.email_ne, Option.some.injEq]
    simp [hat, eq_comm]
  · rw [if_pos (.inr hat)]
    simp [hat]

/-- The file has a row of the address if the merge has mapped one of its rows to it. -/
theorem filed_iff (h : List.Forall₂ (MappedBy σ answers) rows outputs)
    (htidy : ∀ row ∈ rows, Tidy row) {t : OutputType}
    (hfile : files.get t = header :: writtenTo outputs t) :
    Filed files email t ↔ ∃ row ∈ rows, ∃ output ∈ outputs, output.1 = t ∧
      MappedBy σ answers row output ∧ CacheWriteBack.normalizeEmail row.email = email := by
  have hwritten : writtenEmails (files.get t) = (writtenTo outputs t).map recordEmail := by
    rw [writtenEmails, hfile, List.drop_one, List.tail_cons]
  have hemail : ∀ row ∈ rows, ∀ output, MappedBy σ answers row output →
      recordEmail output.2 = row.email := by
    intro row hrow output hby
    obtain ⟨subStatus, score, reason, hrecord, -⟩ := record_of_mappedBy hby (htidy row hrow)
    rw [recordEmail, hrecord]
    rfl
  rw [Filed, hwritten]
  constructor
  · rintro ⟨written, hwritten, hnormal⟩
    obtain ⟨record, hrecord, rfl⟩ := List.mem_map.mp hwritten
    obtain ⟨output, houtput, rfl⟩ := List.mem_map.mp hrecord
    obtain ⟨hmem, ht⟩ := List.mem_filter.mp houtput
    obtain ⟨row, hrow, hby⟩ := exists_of_mem_outputs h hmem
    rw [hemail row hrow output hby] at hnormal
    exact ⟨row, hrow, output, hmem, beq_iff_eq.mp ht, hby, hnormal⟩
  · rintro ⟨row, hrow, output, hmem, rfl, hby, hnormal⟩
    refine ⟨recordEmail output.2, List.mem_map_of_mem (List.mem_map_of_mem
      (List.mem_filter.mpr ⟨hmem, beq_self_eq_true _⟩)), ?_⟩
    rw [hemail row hrow output hby]
    exact hnormal

/-- Lowering makes no `@`. -/
theorem at_mem_of_normalizeEmail (h : '@' ∈ CacheWriteBack.normalizeEmail email) :
    '@' ∈ email := by
  obtain ⟨c, hc, hlower⟩ := List.mem_map.mp h
  have hmem : c ∈ email := (trimBy_sublist _ _).subset hc
  rcases toLower_cases c with hsame | hletter
  · rw [hsame] at hlower
    exact hlower ▸ hmem
  · rw [hlower] at hletter
    exact absurd hletter (by decide)

end Rows

section HasRow
variable {σ : ValidEmailVerifier.Settings} {answers : CacheAnswers}
  {rows : List BufferedRow} {outputs : List (OutputType × Record)} {files : PerType File}
  {c : Call} {email : Text}

/-- **The rows that the write-back reads are those that the merge has written**, in the files it
does not leave out. -/
theorem hasRow_iff (h : List.Forall₂ (MappedBy σ answers) rows outputs)
    (htidy : ∀ row ∈ rows, Tidy row) (hreads : ∀ row ∈ rows, PhpCsv.readsBack row.email = true)
    (hstores : Stores c files) (hfiles : ∀ t, files.get t = header :: writtenTo outputs t)
    (hat : '@' ∈ email) {t : OutputType} :
    c.HasRow email t.name ↔
      t.name ∈ CacheWriteBack.cacheWritebackStatuses c.settings ∧ Filed files email t := by
  obtain ⟨key, hkey, hfilled, hstored⟩ := hstores t
  rw [filed_iff h htidy (hfiles t)]
  refine and_congr_right fun _ => ?_
  constructor
  · rintro ⟨key', stream, line, written, hkey', -, hstream, hline, hextracted, -, hnormal⟩
    obtain rfl := Option.some.inj (hkey'.symm.trans hkey)
    obtain rfl := Option.some.inj (Option.some.inj (hstream.symm.trans hstored))
    rw [hfiles t, fgets_outputText h htidy] at hline
    rcases List.mem_cons.mp hline with rfl | hline
    · rw [extractEmailFromLine_header] at hextracted
      cases hextracted
    · obtain ⟨record, hrecord, rfl⟩ := List.mem_map.mp hline
      obtain ⟨output, houtput, rfl⟩ := List.mem_map.mp hrecord
      obtain ⟨hmem, ht⟩ := List.mem_filter.mp houtput
      obtain ⟨row, hrow, hby⟩ := exists_of_mem_outputs h hmem
      obtain ⟨-, rfl⟩ := (extractEmailFromLine_row hby (htidy row hrow) (hreads row hrow)).mp
        hextracted
      exact ⟨row, hrow, output, hmem, beq_iff_eq.mp ht, hby, hnormal⟩
  · rintro ⟨row, hrow, output, hmem, rfl, hby, rfl⟩
    have hin : '@' ∈ row.email := at_mem_of_normalizeEmail hat
    refine ⟨key, _, PhpCsv.fputcsv output.2, row.email, hkey, hfilled, hstored, ?_, ?_, ?_, rfl⟩
    · rw [hfiles output.1, fgets_outputText h htidy]
      exact .tail _ (List.mem_map_of_mem (List.mem_map_of_mem
        (List.mem_filter.mpr ⟨hmem, beq_self_eq_true _⟩)))
    · exact (extractEmailFromLine_row hby (htidy row hrow) (hreads row hrow)).mpr
        ⟨mem_fields_of_email hby (htidy row hrow) (by decide) (by decide) hin, rfl⟩
    · rw [CacheWriteBack.isFalsy, Bool.or_eq_false_iff, beq_eq_false_iff_ne, beq_eq_false_iff_ne]
      refine ⟨List.ne_nil_of_mem hin, fun hzero => ?_⟩
      rw [hzero] at hin
      exact absurd hin (by decide)

/-- A status that is written back is the name of a file. -/
theorem exists_type_of_hasRow {status : Text} (h : c.HasRow email status) :
    ∃ t : OutputType, t.name = status := by
  rcases of_decide_eq_true (List.mem_filter.mp h.1).2 with rfl | rfl
  · exact ⟨.valid, rfl⟩
  · exact ⟨.invalid, rfl⟩

end HasRow

/-- The files of the merge of two chunks, with the misses of the list. -/
def mergedOutputs : Call where
  settings := { table := "cache".toList }
  server := fun _ items => .ok ⟨[], items.nil_subperm⟩
  storage _ key :=
    if key = "misses".toList then some (some "zoe@example.org\nann@example.org\n".toList)
    else if key = "valid.csv".toList then some (some (outputText (screenedMerge.files.get .valid)))
    else if key = "invalid.csv".toList then
      some (some (outputText (screenedMerge.files.get .invalid)))
    else if key = "risky.csv".toList then some (some (outputText (screenedMerge.files.get .risky)))
    else none
  job := { cacheMissKey := some "misses".toList, inputDisk := none }
  result :=
    { disk := "s3"
      keys := [("valid".toList, "valid.csv".toList), ("invalid".toList, "invalid.csv".toList),
        ("risky".toList, "risky.csv".toList)] }
  timestamp := "2026-01-25T10:00:00.000000Z".toList

/-- The call, with its items processed. -/
def mergedOnce : WriteBack where
  toCall := mergedOutputs
  processed := mergedOutputs.items
  acknowledges := by
    have hall : mergedOutputs.acknowledged = mergedOutputs.items := by decide +kernel
    exact hall ▸ List.Sublist.refl _
  sent _ h := h

theorem writesFor_mergedOutputs : WritesFor later mergedOutputs where
  verdicts := rfl
  key := rfl
  result := rfl
  datetime := rfl
  distinct := by decide

/-- The next list has the address in other letters. -/
theorem lookupMany_merged :
    CacheLookup.lookupMany later CacheLookup.epoch
        (fun _ => answering later.keyAttribute
          (tableAfter later.keyAttribute later.table ([] ++ [mergedOnce])))
        ["Zoe@Example.org".toList] =
      some [("zoe@example.org".toList,
        entryOf later CacheLookup.epoch "valid".toList mergedOutputs.timestamp)] := by
  decide +kernel

end ValidEmailVerifier.CacheItems
