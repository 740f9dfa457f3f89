/-
# `Pipeline.RewrittenOutputs` — the outputs of a screening chunk while they are rewritten

`rewriteScreeningOutputs` writes three files, one after another, and may throw between any two of
them.  Whoever reads the outputs then finds some of them rewritten (`rewrites`).

The rows that stay come from the invalid file alone, and are read back as they were written, so a
second attempt on such outputs keeps the same rows (`hardInvalidRows_of_rewrites`); if it finds
nothing to hand on, they are all there is (`emails_of_rewrites`).
-/
import ValidEmailVerifier.Pipeline.RowConservation

namespace ValidEmailVerifier.ScreeningToProbeChunkPlanner

open Text

/-- `hardInvalidReasons`. -/
def hardInvalidReasons (configured : List Text) : List Text :=
  let normalized := (configured.map fun reason => strtolower (trim reason)).filter (· != [])
  if normalized = [] then ["syntax".toList, "mx_missing".toList] else normalized.eraseDups

/-- The reasons are trimmed and in lower case. -/
theorem normal_of_mem_hardInvalidReasons {configured : List Text} {reason : Text}
    (h : reason ∈ hardInvalidReasons configured) : trim reason = reason ∧
      strtolower reason = reason := by
  simp only [hardInvalidReasons] at h
  split at h
  · rcases List.mem_cons.mp h with rfl | h
    · exact ⟨by decide, by decide⟩
    · rw [List.mem_singleton.mp h]
      exact ⟨by decide, by decide⟩
  · obtain ⟨raw, -, rfl⟩ := List.mem_map.mp (List.mem_filter.mp (List.mem_eraseDups.mp h)).1
    exact ⟨trim_strtolower raw, strtolower_strtolower _⟩

/-! ## The rows that stay -/

/-- What a row of the invalid file leaves there. -/
def hardInvalidRow (php : Php) (reasons : List Text) (row : ResultRow) : Option (Text × Text) :=
  match normalizeEmail php row.email with
  | none => none
  | some email =>
      if isHardInvalid reasons .invalid row then
        some (email, before ':' (strtolower (trim row.reason)))
      else none

section Rows
variable {php : Php} {reasons : List Text}

theorem hardInvalidRows_classifyRow (acc : Classification) (t : OutputType) (row : ResultRow) :
    (classifyRow php reasons acc t row).hardInvalidRows = acc.hardInvalidRows ++
      (if t = .invalid then hardInvalidRow php reasons row else none).toList := by
  have hother : t ≠ .invalid → isHardInvalid reasons t row = false := by
    intro ht
    rw [isHardInvalid, beq_eq_false_iff_ne.mpr ht, Bool.false_and]
  rw [classifyRow, hardInvalidRow]
  cases normalizeEmail php row.email with
  | none => simp
  | some email =>
    dsimp only
    by_cases ht : t = .invalid
    · subst ht
      rw [if_pos rfl]
      split
      · rfl
      · split
        · simp
        · simp
    · rw [if_neg ht, hother ht, if_neg Bool.false_ne_true]
      split
      · simp
      · simp

theorem hardInvalidRows_foldl (rows : List (OutputType × ResultRow)) (acc : Classification) :
    (rows.foldl (fun acc r => classifyRow php reasons acc r.1 r.2) acc).hardInvalidRows =
      acc.hardInvalidRows ++ rows.filterMap fun r =>
        if r.1 = .invalid then hardInvalidRow php reasons r.2 else none := by
  induction rows generalizing acc with
  | nil => exact (List.append_nil _).symm
  | cons r rows ih =>
    rw [List.foldl_cons, ih, hardInvalidRows_classifyRow, List.append_assoc, List.filterMap_cons]
    cases (if r.1 = .invalid then hardInvalidRow php reasons r.2 else none) with
    | none => rfl
    | some row => rfl

/-- **The rows that stay are those of the invalid file** that have a reason for it. -/
theorem hardInvalidRows_classify (files : PerType (Option File)) :
    (classify php reasons files).hardInvalidRows =
      (readResultRows files.invalid .invalid).filterMap (hardInvalidRow php reasons) := by
  have hskip : ∀ t : OutputType, t ≠ .invalid → ∀ rows : List ResultRow,
      (rows.map fun r => (t, r)).filterMap (fun r =>
        if r.1 = .invalid then hardInvalidRow php reasons r.2 else none) = [] := by
    intro t ht rows
    rw [List.filterMap_map]
    exact List.filterMap_eq_nil_iff.mpr fun r _ => if_neg ht
  rw [classify, hardInvalidRows_foldl, allRows, OutputType.all, List.flatMap_cons,
    List.flatMap_cons, List.flatMap_cons, List.flatMap_nil, List.filterMap_append,
    List.filterMap_append, List.filterMap_append, hskip .valid (by decide),
    hskip .risky (by decide), List.filterMap_map]
  simp only [List.filterMap_nil, List.nil_append, List.append_nil]
  rfl

/-- A row that stays is of a clean address, and its reason is one of the configured ones. -/
theorem of_mem_hardInvalidRows {files : PerType (Option File)} {r : Text × Text}
    (h : r ∈ (classify php reasons files).hardInvalidRows) :
    Clean php r.1 ∧ ':' ∉ r.2 ∧ r.2 ∈ reasons := by
  rw [hardInvalidRows_classify] at h
  obtain ⟨row, -, hrow⟩ := List.mem_filterMap.mp h
  rw [hardInvalidRow] at hrow
  split at hrow
  · cases hrow
  · next email hemail =>
    obtain ⟨hhard, heq⟩ := Option.ite_none_right_eq_some.mp hrow
    obtain rfl := Option.some.inj heq
    rw [isHardInvalid, Bool.and_eq_true, List.contains_iff_mem] at hhard
    refine ⟨WorkerLoop.clean_of_planner hemail, ?_, hhard.2⟩
    intro hcolon
    have hno := List.mem_takeWhile_imp hcolon
    exact absurd hno (by decide)

/-- **They are read back as they are written.** -/
theorem hardInvalidRows_writeRows (hphp : php.Lawful)
    (hreasons : ∀ reason ∈ reasons, trim reason = reason ∧ strtolower reason = reason)
    {rows : List (Text × Text)}
    (hrows : ∀ r ∈ rows, Clean php r.1 ∧ ':' ∉ r.2 ∧ r.2 ∈ reasons) :
    (readResultRows (some (writeRows rows)) .invalid).filterMap (hardInvalidRow php reasons) =
      rows := by
  have hrow : ∀ r ∈ rows, (readRow .invalid [r.1, r.2]).bind (hardInvalidRow php reasons) =
      some r := by
    intro r hr
    obtain ⟨hclean, hcolon, hmem⟩ := hrows r hr
    obtain ⟨htrim, hlower⟩ := hreasons r.2 hmem
    have hbase : before ':' (strtolower (trim r.2)) = r.2 := by
      rw [htrim, hlower, before, List.takeWhile_eq_self_iff]
      exact fun c hc => bne_iff_ne.mpr fun heq => hcolon (heq ▸ hc)
    have hhard : isHardInvalid reasons .invalid ⟨r.1, r.2, .invalid⟩ = true := by
      rw [isHardInvalid, hbase, Bool.and_eq_true, List.contains_iff_mem]
      exact ⟨rfl, hmem⟩
    rw [hclean.readRow hphp, htrim, Option.bind_some, hardInvalidRow]
    simp only [hclean.normalizeEmail hphp, hhard, if_true, hbase]
  have hheader : readRow .invalid ["email".toList, "reason".toList] = none := by decide
  rw [readResultRows, writeRows, Option.getD_some, List.filterMap_cons_none hheader,
    List.filterMap_filterMap, List.filterMap_map]
  calc rows.filterMap _ = rows.filterMap some := List.filterMap_congr hrow
    _ = rows := List.filterMap_some

/-! ## Rewriting -/

/-- The outputs while they are rewritten: first the valid file, then the risky and the invalid
one. -/
def rewrites (rows : List (Text × Text)) (files : PerType (Option File)) :
    List (PerType (Option File)) :=
  [files, { files with valid := some (writeRows []) },
    { files with valid := some (writeRows []), risky := some (writeRows []) },
    ⟨some (writeRows []), some (writeRows rows), some (writeRows [])⟩]

variable {files rewritten : PerType (Option File)}

section Writes
variable {rows : List (Text × Text)}

theorem mem_rewrites : rewritten ∈ rewrites rows files ↔ rewritten = files ∨
    rewritten = { files with valid := some (writeRows []) } ∨
    rewritten = { files with valid := some (writeRows []), risky := some (writeRows []) } ∨
    rewritten = ⟨some (writeRows []), some (writeRows rows), some (writeRows [])⟩ := by
  simp only [rewrites, List.mem_cons, List.not_mem_nil, or_false]

/-- The valid file is written, perhaps again. -/
theorem rewrites_valid (h : rewritten ∈ rewrites rows files) :
    { rewritten with valid := some (writeRows []) } ∈ rewrites rows files := by
  rw [mem_rewrites] at h ⊢
  rcases h with rfl | rfl | rfl | rfl
  · exact .inr (.inl rfl)
  · exact .inr (.inl rfl)
  · exact .inr (.inr (.inl rfl))
  · exact .inr (.inr (.inr rfl))

/-- The risky file is written after the valid one. -/
theorem rewrites_risky (h : rewritten ∈ rewrites rows files)
    (hvalid : rewritten.valid = some (writeRows [])) :
    { rewritten with risky := some (writeRows []) } ∈ rewrites rows files := by
  rw [mem_rewrites] at h ⊢
  rcases h with rfl | rfl | rfl | rfl
  · refine .inr (.inr (.inl ?_))
    rw [← hvalid]
  · exact .inr (.inr (.inl rfl))
  · exact .inr (.inr (.inl rfl))
  · exact .inr (.inr (.inr rfl))

/-- The invalid file is written last. -/
theorem rewrites_invalid (hvalid : rewritten.valid = some (writeRows []))
    (hrisky : rewritten.risky = some (writeRows [])) :
    { rewritten with invalid := some (writeRows rows) } =
      ⟨some (writeRows []), some (writeRows rows), some (writeRows [])⟩ := by
  rw [hvalid, hrisky]

end Writes

theorem hardInvalidRows_of_rewrites (hphp : php.Lawful)
    (hreasons : ∀ reason ∈ reasons, trim reason = reason ∧ strtolower reason = reason)
    (h : rewritten ∈ rewrites (classify php reasons files).hardInvalidRows files) :
    (classify php reasons rewritten).hardInvalidRows =
      (classify php reasons files).hardInvalidRows := by
  have hsame : ∀ {other : PerType (Option File)}, other.invalid = files.invalid →
      (classify php reasons other).hardInvalidRows =
        (classify php reasons files).hardInvalidRows := by
    intro other hother
    rw [hardInvalidRows_classify, hardInvalidRows_classify, hother]
  rw [mem_rewrites] at h
  rcases h with rfl | rfl | rfl | rfl
  · rfl
  · exact hsame rfl
  · exact hsame rfl
  · rw [hardInvalidRows_classify]
    exact hardInvalidRows_writeRows hphp hreasons fun r hr => of_mem_hardInvalidRows hr

/-! ## The addresses -/

/-- The addresses that the planner finds in one of the files. -/
def addresses (php : Php) (file : Option File) (t : OutputType) : List Text :=
  (readResultRows file t).filterMap fun row => normalizeEmail php row.email

theorem normalized_eq (files : PerType (Option File)) : normalized php files =
    addresses php files.valid .valid ++
      (addresses php files.invalid .invalid ++ addresses php files.risky .risky) := by
  have hone : ∀ t, ((readResultRows (files.get t) t).map fun r => (t, r)).filterMap
      (fun r => normalizeEmail php r.2.email) = addresses php (files.get t) t := by
    intro t
    rw [List.filterMap_map]
    rfl
  rw [normalized, allRows, List.filterMap_flatMap]
  simp only [hone, OutputType.all, List.flatMap_cons, List.flatMap_nil, List.append_nil]
  rfl

theorem addresses_writeRows (hphp : php.Lawful) {rows : List (Text × Text)}
    (h : ∀ r ∈ rows, Clean php r.1) (t : OutputType) :
    addresses php (some (writeRows rows)) t = rows.map Prod.fst := by
  have hfile : OutputFile php (writeRows rows) := outputFile_rows h
  rw [addresses, hfile.planner_emails hphp t]
  exact emails_rows hphp h

theorem nodup_of_rewrites (hphp : php.Lawful) (hnodup : (normalized php files).Nodup)
    (h : rewritten ∈ rewrites (classify php reasons files).hardInvalidRows files) :
    (normalized php rewritten).Nodup := by
  have hnone : ∀ t, addresses php (some (writeRows [])) t = [] :=
    addresses_writeRows hphp (by simp)
  have hkept : ((classify php reasons files).hardInvalidRows.map Prod.fst).Nodup :=
    ((classify_emails hnodup).nodup_iff.mpr hnodup).of_append_left
  have hrows := @addresses_writeRows php hphp (classify php reasons files).hardInvalidRows
    (fun r hr => (of_mem_hardInvalidRows hr).1)
  rw [mem_rewrites] at h
  rw [normalized_eq] at hnodup ⊢
  rcases h with rfl | rfl | rfl | rfl
  · exact hnodup
  · rw [hnone, List.nil_append]
    exact hnodup.of_append_right
  · rw [hnone, hnone, List.nil_append, List.append_nil]
    exact hnodup.of_append_right.of_append_left
  · rwa [hnone, hnone, List.nil_append, List.append_nil, hrows]

/-- **What a further attempt makes of the outputs**: the rows that stay are the same, and all
else that is there is handed on. -/
theorem emails_of_rewrites (hphp : php.Lawful)
    (hreasons : ∀ reason ∈ reasons, trim reason = reason ∧ strtolower reason = reason)
    (hnodup : (normalized php files).Nodup)
    (h : rewritten ∈ rewrites (classify php reasons files).hardInvalidRows files) :
    (normalized php rewritten).Perm
      ((classify php reasons files).hardInvalidRows.map Prod.fst ++
        (classify php reasons rewritten).candidates.map Candidate.email) := by
  have hperm := @classify_emails php reasons rewritten (nodup_of_rewrites hphp hnodup h)
  rw [Classification.emails, hardInvalidRows_of_rewrites hphp hreasons h] at hperm
  exact hperm.symm

/-- They are header and address rows throughout. -/
theorem outputFiles_of_rewrites {outputs : PerType File}
    (houtputs : ∀ t, OutputFile php (outputs.get t))
    (h : rewritten ∈ rewrites (classify php reasons files).hardInvalidRows (outputs.map some)) :
    ∃ left : PerType File, rewritten = left.map some ∧ ∀ t, OutputFile php (left.get t) := by
  have hnone : OutputFile php (writeRows []) := @outputFile_rows php [] (by simp)
  have hrows : OutputFile php (writeRows (classify php reasons files).hardInvalidRows) :=
    outputFile_rows fun r hr => (of_mem_hardInvalidRows hr).1
  rw [mem_rewrites] at h
  rcases h with rfl | rfl | rfl | rfl
  · exact ⟨outputs, rfl, houtputs⟩
  · refine ⟨⟨writeRows [], outputs.invalid, outputs.risky⟩, rfl, fun t => ?_⟩
    cases t with
    | valid => exact hnone
    | invalid => exact houtputs .invalid
    | risky => exact houtputs .risky
  · refine ⟨⟨writeRows [], outputs.invalid, writeRows []⟩, rfl, fun t => ?_⟩
    cases t with
    | invalid => exact houtputs .invalid
    | valid | risky => exact hnone
  · refine ⟨⟨writeRows [], writeRows _, writeRows []⟩, rfl, fun t => ?_⟩
    cases t with
    | invalid => exact hrows
    | valid | risky => exact hnone

end Rows

end ValidEmailVerifier.ScreeningToProbeChunkPlanner
