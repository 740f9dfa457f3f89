/-
# `Cache.CachedRows` — the row of an outcome, through the cached output into the merge

An import stores outcomes, `lookupMany` answers with the latest of an address, `handleCacheHit`
makes a line of it and `writeCached` appends the line to a file that the merge reads.  The line is
the address, a comma and the reason, with no quotes; the merge takes it line by line to
`str_getcsv`.  So a row comes back exactly when there is no line end in it, no comma of its own,
and no quote at the start of its reason (`cachedRow_iff`).
-/
import ValidEmailVerifier.Cache.Lookup
import ValidEmailVerifier.Pipeline.CsvRows

namespace ValidEmailVerifier

open Text

/-! ## The outcomes -/

/-- A row of `email_verification_outcomes`. -/
structure Outcome where
  emailHash : Text
  emailNormalized : Text
  outcome : OutputType
  reasonCode : Option Text
  observedAt : Int
  source : Option Text
  userId : Option Nat := none
  deriving DecidableEq

namespace OutcomeIngestor

/-- An item of an import, cast to strings; what is absent is empty. -/
structure Item where
  email : Text
  outcome : Text
  reasonCode : Text := []
  source : Text := []
  observedAt : Text := []

/-- One call of `ingest`.  `parse` is `Carbon::parse`, `none` where it throws. -/
structure Import where
  items : List Item
  defaultSource : Text := []
  defaultObservedAt : Int
  userId : Option Nat := none
  parse : Text → Option Int := fun _ => none

def errorSampleLimit : Nat := 10

def batchSize : Nat := 500

def invalidEmail (email : Text) : Text := "Invalid email: ".toList ++ email

def invalidOutcome (email outcome : Text) : Text :=
  "Invalid outcome for ".toList ++ email ++ ": ".toList ++ outcome

def invalidObservedAt (email observedAt : Text) : Text :=
  "Invalid observed_at for ".toList ++ email ++ ": ".toList ++ observedAt

/-- The row of an item, or the error it is skipped with. -/
def readItem (php : Php) (hash : Text → Text) (call : Import) (item : Item) :
    Except Text Outcome :=
  let email := trim item.email
  let outcome := strtolower (trim item.outcome)
  let reason := trim item.reasonCode
  let source :=
    if CacheLookup.isFalsy (trim item.source) then call.defaultSource else trim item.source
  if email = [] ∨ php.filterVarEmail email = false then .error (invalidEmail email)
  else
    match OutputType.ofName? outcome with
    | none => .error (invalidOutcome email outcome)
    | some t =>
        match if CacheLookup.isFalsy item.observedAt then some call.defaultObservedAt
          else call.parse item.observedAt with
        | none => .error (invalidObservedAt email item.observedAt)
        | some observedAt =>
            .ok
              { emailHash := hash (CacheLookup.normalizeEmail email)
                emailNormalized := CacheLookup.normalizeEmail email
                outcome := t
                reasonCode := if reason ≠ [] then some reason else none
                observedAt := observedAt
                source := if source ≠ [] then some source else none
                userId := call.userId }

/-- `upsert` of one row: a row with the same hash, outcome and time is replaced. -/
def upsert (table : List Outcome) (row : Outcome) : List Outcome :=
  table.filter (fun old => ¬ (old.emailHash = row.emailHash ∧ old.outcome = row.outcome ∧
    old.observedAt = row.observedAt)) ++ [row]

/-- The table, the batch and what is reported, while the items are read. -/
structure Loop where
  table : List Outcome
  rows : List Outcome := []
  imported : Nat := 0
  skipped : Nat := 0
  errors : List Text := []

/-- `flushRows`. -/
def flushRows (l : Loop) : Loop :=
  { l with
    table := l.rows.foldl upsert l.table
    rows := []
    imported := l.imported + l.rows.length }

/-- `addError`. -/
def addError (errors : List Text) (message : Text) : List Text :=
  if errorSampleLimit ≤ errors.length then errors else errors ++ [message]

def ingestItem (php : Php) (hash : Text → Text) (call : Import) (l : Loop) (item : Item) : Loop :=
  match readItem php hash call item with
  | .error message => { l with skipped := l.skipped + 1, errors := addError l.errors message }
  | .ok row =>
      let l := { l with rows := l.rows ++ [row] }
      if batchSize ≤ l.rows.length then flushRows l else l

/-- `ingest`. -/
def ingest (php : Php) (hash : Text → Text) (table : List Outcome) (call : Import) : Loop :=
  let l := call.items.foldl (ingestItem php hash call) { table := table }
  if l.rows ≠ [] then flushRows l else l

/-- The table after some imports. -/
def tableAfter (php : Php) (hash : Text → Text) (calls : List Import) : List Outcome :=
  calls.foldl (fun table call => (ingest php hash table call).table) []

end OutcomeIngestor

/-! ## The database cache -/

namespace DatabaseEmailVerificationCacheStore

/-- The first of the rows that were observed last. -/
def latest (rows : List Outcome) : Option Outcome :=
  rows.foldl (fun found row =>
    match found with
    | none => some row
    | some old => if old.observedAt < row.observedAt then some row else some old) none

/-- What `handleCacheHit` reads of an entry of the answer. -/
def hitOf (row : Outcome) : ParseAndChunkJob.Hit :=
  .entry (some row.outcome.name) (some row.outcome.name) row.reasonCode none

/-- `lookupMany`; the times are in seconds. -/
def lookupMany (hash : Text → Text) (freshnessDays now : Int) (table : List Outcome)
    (emails : List Text) : List (Text × ParseAndChunkJob.Hit) :=
  if freshnessDays ≤ 0 then []
  else
    let cutoff := now - freshnessDays * 86400
    (CacheLookup.normalizeEmails emails).filterMap fun normalized =>
      (latest (table.filter fun row =>
        row.emailHash = hash normalized ∧ cutoff ≤ row.observedAt)).map fun row =>
          (normalized, hitOf row)

end DatabaseEmailVerificationCacheStore

/-! ## The cached output -/

namespace ParseAndChunkJob

/-- What `writeCached` writes for a line. -/
def cachedLine (line : Text) : Text := rtrimEol line ++ ['\n']

def cachedHeader : Text := "email,reason\n".toList

/-- The file behind these lines. -/
def cachedText (lines : List Text) : Text := cachedHeader ++ lines.flatMap cachedLine

/-- The line comes back as this row, and nothing else does for it: the lines around it are read
as if it were not there. -/
def LineReadsBack (line : Text) (row : Text × Text) : Prop :=
  ∀ before after : List Text,
    RowReader.merger.rows (cachedText (before ++ line :: after)) =
      RowReader.merger.rows (cachedText before) ++ row ::
        RowReader.merger.rows (after.flatMap cachedLine)

/-- No line end in the row, no comma in either field, no quote at the start of the reason. -/
structure CachedSafe (email reason : Text) : Prop where
  email_line : '\n' ∉ email
  email_comma : ',' ∉ email
  reason_line : '\n' ∉ reason
  reason_bare : Csv.isBare reason = true

end ParseAndChunkJob

/-! ## What is stored -/

namespace OutcomeIngestor

variable {php : Php} {hash : Text → Text}

/-- A stored reason is trimmed, and not empty. -/
def Tidy (rows : List Outcome) : Prop :=
  ∀ row ∈ rows, ∀ reason ∈ row.reasonCode, trim reason = reason ∧ reason ≠ []

theorem tidy_readItem {call : Import} {item : Item} {row : Outcome}
    (h : readItem php hash call item = .ok row) :
    ∀ reason ∈ row.reasonCode, trim reason = reason ∧ reason ≠ [] := by
  have hrow : row.reasonCode =
      if trim item.reasonCode ≠ [] then some (trim item.reasonCode) else none := by
    rw [readItem] at h
    split at h
    · cases h
    · split at h
      · cases h
      · split at h
        · cases h
        · cases h
          rfl
  intro reason hreason
  rw [hrow] at hreason
  split at hreason
  · next hne =>
    obtain rfl := Option.some.inj hreason
    exact ⟨trim_trim _, hne⟩
  · cases hreason

theorem Tidy.append {rows more : List Outcome} (h : Tidy rows) (hmore : Tidy more) :
    Tidy (rows ++ more) := by
  intro row hrow
  rcases List.mem_append.mp hrow with hrow | hrow
  · exact h row hrow
  · exact hmore row hrow

theorem Tidy.singleton {row : Outcome}
    (h : ∀ reason ∈ row.reasonCode, trim reason = reason ∧ reason ≠ []) : Tidy [row] := by
  intro row' hrow
  rw [List.mem_singleton.mp hrow]
  exact h

theorem Tidy.upserts {table rows : List Outcome} (h : Tidy table) (hrows : Tidy rows) :
    Tidy (rows.foldl upsert table) := by
  induction rows generalizing table with
  | nil => exact h
  | cons row rest ih =>
    rw [List.foldl_cons]
    apply ih
    · refine Tidy.append ?_ (Tidy.singleton (hrows row (.head _)))
      intro old hold
      exact h old (List.mem_of_mem_filter hold)
    · intro row' hrow'
      exact hrows row' (.tail _ hrow')

/-- Table and batch are tidy while the items are read. -/
def Loop.Tidy (l : Loop) : Prop := OutcomeIngestor.Tidy l.table ∧ OutcomeIngestor.Tidy l.rows

theorem Loop.Tidy.flushRows {l : Loop} (h : l.Tidy) : (OutcomeIngestor.flushRows l).Tidy := by
  refine ⟨h.1.upserts h.2, ?_⟩
  intro row hrow
  cases hrow

theorem Loop.Tidy.ingestItem {call : Import} {l : Loop} (h : l.Tidy) (item : Item) :
    (OutcomeIngestor.ingestItem php hash call l item).Tidy := by
  rw [OutcomeIngestor.ingestItem]
  cases hread : readItem php hash call item with
  | error message => exact h
  | ok row =>
    have hadded : Loop.Tidy { l with rows := l.rows ++ [row] } :=
      ⟨h.1, h.2.append (Tidy.singleton (tidy_readItem hread))⟩
    dsimp only
    split
    · exact hadded.flushRows
    · exact hadded

theorem tidy_ingest {table : List Outcome} (h : Tidy table) (call : Import) :
    Tidy (ingest php hash table call).table := by
  have hloop : ∀ (items : List Item) (l : Loop), l.Tidy →
      (items.foldl (ingestItem php hash call) l).Tidy := by
    intro items
    induction items with
    | nil => exact fun _ hl => hl
    | cons item rest ih => exact fun l hl => ih _ (hl.ingestItem item)
  have hread := hloop call.items { table := table } ⟨h, fun _ hrow => absurd hrow List.not_mem_nil⟩
  rw [ingest]
  split
  · exact hread.flushRows.1
  · exact hread.1

/-- **Every reason an import has stored is trimmed.** -/
theorem tidy_tableAfter (calls : List Import) : Tidy (tableAfter php hash calls) := by
  have hfold : ∀ (calls : List Import) (table : List Outcome), Tidy table →
      Tidy (calls.foldl (fun table call => (ingest php hash table call).table) table) := by
    intro calls
    induction calls with
    | nil => exact fun _ h => h
    | cons call rest ih => exact fun table h => ih _ (tidy_ingest h call)
  exact hfold calls [] fun _ hrow => absurd hrow List.not_mem_nil

end OutcomeIngestor

namespace DatabaseEmailVerificationCacheStore

/-- The latest row is one of the rows. -/
theorem mem_of_latest {rows : List Outcome} {row : Outcome} (h : latest rows = some row) :
    row ∈ rows := by
  have hfold : ∀ (rows : List Outcome) (found : Option Outcome),
      rows.foldl (fun found row =>
        match found with
        | none => some row
        | some old => if old.observedAt < row.observedAt then some row else some old) found =
          some row → row ∈ rows ∨ found = some row := by
    intro rows
    induction rows with
    | nil => exact fun _ h => .inr h
    | cons first rest ih =>
      intro found hrest
      rcases ih _ hrest with hmem | hfound
      · exact .inl (.tail _ hmem)
      · cases found with
        | none => exact .inl (Option.some.inj hfound ▸ .head _)
        | some old =>
          dsimp only at hfound
          split at hfound
          · exact .inl (Option.some.inj hfound ▸ .head _)
          · exact .inr hfound
  rcases hfold rows none h with hmem | hnone
  · exact hmem
  · cases hnone

/-- A hit is of a row of the table. -/
theorem exists_row_of_hit {hash : Text → Text} {freshnessDays now : Int} {table : List Outcome}
    {emails : List Text} {e : Text} {hit : ParseAndChunkJob.Hit}
    (h : (e, hit) ∈ lookupMany hash freshnessDays now table emails) :
    ∃ row ∈ table, hit = hitOf row := by
  rw [lookupMany] at h
  split at h
  · cases h
  · obtain ⟨normalized, -, hmap⟩ := List.mem_filterMap.mp h
    obtain ⟨row, hlatest, heq⟩ := Option.map_eq_some_iff.mp hmap
    refine ⟨row, List.mem_of_mem_filter (mem_of_latest hlatest), ?_⟩
    rw [← (Prod.mk.inj heq).2]

end DatabaseEmailVerificationCacheStore

/-! ## What is read back -/

namespace ParseAndChunkJob

theorem cachedLine_whole (line : Text) :
    cachedLine line = [] ∨ (cachedLine line).getLast? = some '\n' := by
  refine .inr ?_
  rw [cachedLine, List.getLast?_concat]

/-- The records of the file are those of the stream that `writeCached` keeps in the model. -/
theorem records_cachedText (lines : List Text) :
    VerificationResultsMerger.records (cachedText lines) =
      ["email".toList, "reason".toList] :: lines.flatMap cachedRecords := by
  have hlines : ∀ lines : List Text, VerificationResultsMerger.records (lines.flatMap cachedLine) =
      lines.flatMap cachedRecords := by
    intro lines
    induction lines with
    | nil => rfl
    | cons line rest ih =>
      rw [List.flatMap_cons, List.flatMap_cons, ← ih, VerificationResultsMerger.records,
        Csv.fgets_append (cachedLine_whole line), List.map_append]
      rfl
  have hheader : cachedHeader = [] ∨ cachedHeader.getLast? = some '\n' := by
    decide
  have hrecord : (fgets cachedHeader).map (fun line => strGetcsv (rtrimEol line)) =
      [["email".toList, "reason".toList]] := by
    decide
  rw [cachedText, VerificationResultsMerger.records, Csv.fgets_append hheader, List.map_append,
    hrecord, ← hlines lines]
  rfl

/-- The rows of whole lines. -/
theorem rows_append {reader : RowReader} {text rest : Text}
    (h : text = [] ∨ text.getLast? = some '\n') :
    reader.rows (text ++ rest) = reader.rows text ++ reader.rows rest := by
  rw [RowReader.rows, Csv.fgets_append h, List.filterMap_append]
  rfl

theorem cachedText_whole (lines : List Text) :
    cachedText lines = [] ∨ (cachedText lines).getLast? = some '\n' := by
  refine .inr ?_
  rw [cachedText]
  induction lines using List.reverseRecOn with
  | nil => rfl
  | append_singleton lines line ih =>
    rw [List.flatMap_append, List.flatMap_singleton, cachedLine, ← List.append_assoc,
      ← List.append_assoc, List.getLast?_concat]

/-- A line is read for itself. -/
theorem rows_cachedText (line : Text) (before after : List Text) :
    RowReader.merger.rows (cachedText (before ++ line :: after)) =
      RowReader.merger.rows (cachedText before) ++ RowReader.merger.rows (cachedLine line) ++
        RowReader.merger.rows (after.flatMap cachedLine) := by
  have htext : cachedText (before ++ line :: after) =
      cachedText before ++ (cachedLine line ++ after.flatMap cachedLine) := by
    simp only [cachedText, List.flatMap_append, List.flatMap_cons, List.append_assoc]
  rw [htext, rows_append (cachedText_whole before), rows_append (cachedLine_whole line),
    List.append_assoc]

theorem lineReadsBack_iff {line : Text} {row : Text × Text} :
    LineReadsBack line row ↔ RowReader.merger.rows (cachedLine line) = [row] := by
  constructor
  · intro h
    have hself := h [] []
    rw [rows_cachedText, List.append_assoc] at hself
    have hnil : RowReader.merger.rows (List.flatMap cachedLine []) = [] := rfl
    have hrest := List.append_cancel_left hself
    rwa [hnil, List.append_nil] at hrest
  · intro h before after
    rw [rows_cachedText, h, List.append_assoc]
    rfl

section Line
variable {php : Php} {e reason : Text}

/-- Nothing is cut off the line of a trimmed reason. -/
theorem rtrimEol_hitLine (hreason : trim reason = reason) :
    rtrimEol (e ++ ',' :: reason) = e ++ ',' :: reason := by
  rw [rtrimEol, List.rdropWhile_eq_self_iff]
  intro hne heol
  have hlast := List.getLast?_eq_some_getLast hne
  rw [List.getLast?_append_of_ne_nil _ (List.cons_ne_nil _ _)] at hlast
  generalize (e ++ ',' :: reason).getLast hne = c at hlast heol
  cases hr : reason with
  | nil =>
    rw [hr] at hlast
    obtain rfl := Option.some.inj hlast
    exact absurd heol (by decide)
  | cons d rest =>
    rw [hr, List.getLast?_cons_cons, ← hr] at hlast
    have hblank := (trimBy_eq_self_iff.mp hreason).2 c hlast
    rw [Bool.or_eq_true, beq_iff_eq, beq_iff_eq] at heol
    rcases heol with rfl | rfl
    · exact absurd hblank (by decide)
    · exact absurd hblank (by decide)

/-- An address begins with a character of its first column. -/
theorem exists_cons_of_clean (hphp : php.Lawful) (hclean : Clean php e)
    (hquote : e.head? ≠ some '"') (hcomma : e.head? ≠ some ',') :
    ∃ c s, e = c :: s ∧ c ≠ ',' ∧ c ≠ '"' ∧ isCsvSpace c = false := by
  cases he : e with
  | nil => exact absurd he (hclean.ne_nil hphp)
  | cons c s =>
    refine ⟨c, s, rfl, ?_, ?_, ?_⟩
    · rintro rfl
      exact hcomma (by rw [he]; rfl)
    · rintro rfl
      exact hquote (by rw [he]; rfl)
    · rw [← Bool.not_eq_true]
      intro hspace
      have htrim := hphp.trimSpace e hclean.valid
      have hfirst := (trimBy_eq_self_iff.mp htrim).1 c (by rw [he]; rfl)
      exact Bool.false_ne_true (hfirst.symm.trans (isSpace_of_isCsvSpace hspace))

/-- The columns of the line: the address up to a comma of its own, and what follows. -/
theorem strGetcsv_hitLine {c : Char} {s : Text} (he : e = c :: s) (hc : c ≠ ',') (hq : c ≠ '"')
    (hspace : isCsvSpace c = false) :
    (',' ∉ e → strGetcsv (e ++ ',' :: reason) =
      stripEol e :: strGetcsvFrom .start [] reason) ∧
    (',' ∈ e → ∃ d ds, strGetcsv (e ++ ',' :: reason) = d :: ds ∧ d.length < e.length) := by
  have hstep : strGetcsv (e ++ ',' :: reason) =
      strGetcsvFrom .bare [c] (s ++ ',' :: reason) := by
    rw [he, strGetcsv, List.cons_append, strGetcsvFrom, if_neg hc, if_neg hq, hspace,
      if_neg Bool.false_ne_true, List.nil_append]
  constructor
  · intro hcomma
    rw [he, List.mem_cons, not_or] at hcomma
    rw [hstep, Csv.from_bare (.inr ⟨reason, rfl⟩) hcomma.2, Csv.nextColumns, he]
    rfl
  · intro hcomma
    rw [he, List.mem_cons] at hcomma
    obtain ⟨front, more, rfl, hfront⟩ :=
      List.eq_append_cons_of_mem (hcomma.resolve_left (Ne.symm hc))
    refine ⟨stripEol ([c] ++ front), strGetcsvFrom .start [] (more ++ ',' :: reason), ?_, ?_⟩
    · rw [hstep, List.append_assoc, List.cons_append,
        Csv.from_bare (.inr ⟨more ++ ',' :: reason, rfl⟩) hfront, Csv.nextColumns]
    · have hstrip := Csv.length_stripEol_le ([c] ++ front)
      rw [he]
      simp only [List.length_append, List.length_cons, List.length_nil] at hstrip ⊢
      omega

theorem length_trim_le (s : Text) : (trim s).length ≤ s.length :=
  (trimBy_sublist isBlank s).length_le

/-- **A line is read back exactly when it is safe.** -/
theorem lineReadsBack_iff_cachedSafe (hphp : php.Lawful) (hclean : Clean php e)
    (hquote : e.head? ≠ some '"') (hcomma : e.head? ≠ some ',') (hreason : trim reason = reason) :
    LineReadsBack (e ++ ',' :: reason) (e, reason) ↔ CachedSafe e reason := by
  obtain ⟨c, s, he, hc, hq, hspace⟩ := exists_cons_of_clean hphp hclean hquote hcomma
  obtain ⟨hwhole, hsplit⟩ := @strGetcsv_hitLine e reason c s he hc hq hspace
  have hcut : RowReader.merger.cut (e ++ ',' :: reason ++ ['\n']) = e ++ ',' :: reason := by
    rw [RowReader.cut_concat]
    exact rtrimEol_hitLine hreason
  have hline : RowReader.merger.line (e ++ ',' :: reason ++ ['\n']) =
      RowReader.merger.columns (strGetcsv (e ++ ',' :: reason)) := by
    rw [RowReader.line_eq, hcut]
  have hrows : '\n' ∉ e → '\n' ∉ reason →
      RowReader.merger.rows (cachedLine (e ++ ',' :: reason)) =
        (RowReader.merger.columns (strGetcsv (e ++ ',' :: reason))).toList := by
    intro hn hn'
    have hno : '\n' ∉ e ++ ',' :: reason := by
      rw [List.mem_append, List.mem_cons, not_or, not_or]
      exact ⟨hn, by decide, hn'⟩
    rw [cachedLine, rtrimEol_hitLine hreason, RowReader.rows, Csv.fgets_line hno,
      List.filterMap_cons, ← hline]
    cases RowReader.merger.line (e ++ ',' :: reason ++ ['\n']) with
    | none => rfl
    | some row => rfl
  rw [lineReadsBack_iff]
  constructor
  · intro h
    obtain ⟨hn, hn', -⟩ := RowReader.of_mem_rows (by rw [h]; exact List.mem_singleton_self _)
    rw [hrows hn hn'] at h
    have hcolumns : RowReader.merger.columns (strGetcsv (e ++ ',' :: reason)) =
        some (e, reason) := by
      cases hcol : RowReader.merger.columns (strGetcsv (e ++ ',' :: reason)) with
      | none =>
        rw [hcol] at h
        cases h
      | some row =>
        rw [hcol] at h
        exact congrArg some (List.cons.inj h).1
    have hno : ',' ∉ e := by
      intro hmem
      obtain ⟨d, ds, hd, hlength⟩ := hsplit hmem
      have hemail := RowReader.email_of_columns hcolumns
      rw [hd] at hemail
      have hle := length_trim_le d
      have heq : e.length = (trim d).length := congrArg List.length hemail
      omega
    refine ⟨hn, hno, hn', ?_⟩
    rw [← Bool.not_eq_false]
    intro hbare
    have hshort : ∀ i : Nat,
        (trim ((strGetcsv (e ++ ',' :: reason))[i + 1]?.getD [])).length < reason.length := by
      intro i
      rw [hwhole hno, List.getElem?_cons_succ]
      cases hi : (strGetcsvFrom .start [] reason)[i]? with
      | none =>
        cases hr : reason with
        | nil =>
          rw [hr] at hbare
          exact absurd hbare (by decide)
        | cons => exact Nat.succ_pos _
      | some d =>
        have hd := Csv.length_lt_of_not_isBare hbare (List.mem_of_getElem? hi)
        have hle := length_trim_le d
        simp only [List.length_nil] at hd
        show (trim d).length < reason.length
        omega
    rcases RowReader.reason_of_columns hcolumns with heq | ⟨-, heq⟩
    · have hlt := hshort 0
      rw [← heq] at hlt
      exact Nat.lt_irrefl _ hlt
    · have hlt := hshort 3
      rw [← heq] at hlt
      exact Nat.lt_irrefl _ hlt
  · intro hsafe
    have hstrip : ∀ {t : Text}, trim t = t → stripEol t = t := by
      intro t ht
      have hlast := (trimBy_eq_self_iff.mp ht).2
      rw [stripEol]
      split
      · next rest hrev =>
        exact absurd (hlast '\n' (by rw [← List.head?_reverse, hrev]; rfl)) (by decide)
      · next rest _ hrev =>
        exact absurd (hlast '\n' (by rw [← List.head?_reverse, hrev]; rfl)) (by decide)
      · next rest hrev =>
        exact absurd (hlast '\r' (by rw [← List.head?_reverse, hrev]; rfl)) (by decide)
      · rfl
    have hlast : strGetcsvFrom .start [] reason = [stripEol reason] := by
      have hread := @Csv.from_start_of_isBare [] (.inl rfl) reason [] hsafe.reason_bare
      rw [List.append_nil, List.nil_append] at hread
      exact hread
    rw [hrows hsafe.email_line hsafe.reason_line, hwhole hsafe.email_comma, hstrip hclean.trim,
      hlast, hstrip hreason, RowReader.columns_row hphp hclean hreason]
    rfl

end Line

/-- Quotes and commas around an address are trimmed off. -/
theorem head_of_normalizeEmail {php : Php} {raw e : Text} (h : normalizeEmail php raw = some e) :
    e.head? ≠ some '"' ∧ e.head? ≠ some ',' := by
  have htrim : trimBy isDelimiter e = e := by
    rw [normalizeEmail] at h
    split at h
    · cases h
    · dsimp only at h
      split at h
      · obtain rfl := Option.some.inj h
        exact trimBy_trimBy (fun _ hc => hc) _
      · cases h
  have hfirst := (trimBy_eq_self_iff.mp htrim).1
  refine ⟨?_, ?_⟩
  · intro heq
    exact absurd (hfirst '"' heq) (by decide)
  · intro heq
    exact absurd (hfirst ',' heq) (by decide)

theorem ofName?_name (t : OutputType) : OutputType.ofName? (strtolower t.name) = some t := by
  cases t with
  | valid => decide
  | invalid => decide
  | risky => decide

/-- **The row of a hit is read back exactly when it is safe**: for whatever was imported, every
admitted address and every hit of the database cache for it. -/
theorem cachedRow_iff {php : Php} (hphp : php.Lawful) (hash : Text → Text)
    (imports : List OutcomeIngestor.Import) (freshnessDays now : Int) (emails : List Text)
    {raw e : Text} (hadmitted : normalizeEmail php raw = some e) {hit : Hit}
    (hhit : (e, hit) ∈ DatabaseEmailVerificationCacheStore.lookupMany hash freshnessDays now
      (OutcomeIngestor.tableAfter php hash imports) emails) :
    ∃ row ∈ OutcomeIngestor.tableAfter php hash imports,
      hit = DatabaseEmailVerificationCacheStore.hitOf row ∧
      ∃ line, hitLine e hit = some (row.outcome, line) ∧
        (LineReadsBack line (e, row.reasonCode.getD []) ↔
          CachedSafe e (row.reasonCode.getD [])) := by
  obtain ⟨row, hrow, rfl⟩ := DatabaseEmailVerificationCacheStore.exists_row_of_hit hhit
  have hreason : trim (row.reasonCode.getD []) = row.reasonCode.getD [] := by
    cases hcode : row.reasonCode with
    | none => rfl
    | some reason => exact (OutcomeIngestor.tidy_tableAfter imports row hrow reason hcode).1
  obtain ⟨hquote, hcomma⟩ := head_of_normalizeEmail hadmitted
  refine ⟨row, hrow, rfl, e ++ ',' :: row.reasonCode.getD [], ?_, ?_⟩
  · have hname : OutputType.ofName? (strtolower ((some row.outcome.name <|>
        some row.outcome.name).getD [])) = some row.outcome := ofName?_name row.outcome
    rw [DatabaseEmailVerificationCacheStore.hitOf, hitLine, hname]
    dsimp only
    rw [hreason]
    rfl
  · exact lineReadsBack_iff_cachedSafe hphp (clean_of_normalizeEmail hadmitted) hquote hcomma
      hreason

/-! ## A reason with a comma -/

/-- An address, and an outcome for it that was imported with this reason. -/
def importedWith (reason : Text) : List OutcomeIngestor.Import :=
  [{ items := [{ email := "ada@example.org".toList
                 outcome := "risky".toList
                 reasonCode := reason }]
     defaultObservedAt := 0 }]

def onlyAda : Php := .table ["ada@example.org".toList]

/-- The row of the import. -/
def importedRow (reason : Text) : Outcome where
  emailHash := "ada@example.org".toList
  emailNormalized := "ada@example.org".toList
  outcome := .risky
  reasonCode := some reason
  observedAt := 0
  source := none

/-- An ordinary reason. -/
theorem cachedRow_iff_plain :
    ∃ row ∈ OutcomeIngestor.tableAfter onlyAda id (importedWith "mailbox_full".toList),
      DatabaseEmailVerificationCacheStore.hitOf (importedRow "mailbox_full".toList) =
        DatabaseEmailVerificationCacheStore.hitOf row ∧
      ∃ line, hitLine "ada@example.org".toList
          (DatabaseEmailVerificationCacheStore.hitOf (importedRow "mailbox_full".toList)) =
          some (row.outcome, line) ∧
        (LineReadsBack line ("ada@example.org".toList, row.reasonCode.getD []) ↔
          CachedSafe "ada@example.org".toList (row.reasonCode.getD [])) := by
  have hadmitted : normalizeEmail onlyAda " Ada@Example.org ".toList =
      some "ada@example.org".toList := by decide
  have hhit : ("ada@example.org".toList,
      DatabaseEmailVerificationCacheStore.hitOf (importedRow "mailbox_full".toList)) ∈
        DatabaseEmailVerificationCacheStore.lookupMany id 30 0
          (OutcomeIngestor.tableAfter onlyAda id (importedWith "mailbox_full".toList))
          ["ada@example.org".toList] := by decide +kernel
  exact cachedRow_iff (Php.table_lawful (by decide)) id (importedWith "mailbox_full".toList) 30 0
    ["ada@example.org".toList] hadmitted hhit

/-- The merge keeps half of a reason with a comma. -/
theorem cachedRow_cut : ¬ ∀ (php : Php) (hash : Text → Text)
    (imports : List OutcomeIngestor.Import) (freshnessDays now : Int) (emails : List Text)
    (raw e : Text) (hit : Hit), php.Lawful → normalizeEmail php raw = some e →
    (e, hit) ∈ DatabaseEmailVerificationCacheStore.lookupMany hash freshnessDays now
      (OutcomeIngestor.tableAfter php hash imports) emails →
    ∀ row ∈ OutcomeIngestor.tableAfter php hash imports,
      hit = DatabaseEmailVerificationCacheStore.hitOf row →
      ∀ line, hitLine e hit = some (row.outcome, line) →
        LineReadsBack line (e, row.reasonCode.getD []) := by
  intro hall
  have hhit : ("ada@example.org".toList,
      DatabaseEmailVerificationCacheStore.hitOf (importedRow "full, try later".toList)) ∈
        DatabaseEmailVerificationCacheStore.lookupMany id 30 0
          (OutcomeIngestor.tableAfter onlyAda id (importedWith "full, try later".toList))
          ["ada@example.org".toList] := by decide +kernel
  have hrow : importedRow "full, try later".toList ∈
      OutcomeIngestor.tableAfter onlyAda id (importedWith "full, try later".toList) := by
    decide +kernel
  have hline : hitLine "ada@example.org".toList
      (DatabaseEmailVerificationCacheStore.hitOf (importedRow "full, try later".toList)) =
        some (.risky, "ada@example.org,full, try later".toList) := by decide +kernel
  have hback := hall onlyAda id (importedWith "full, try later".toList) 30 0
    ["ada@example.org".toList] "ada@example.org".toList "ada@example.org".toList _
    (Php.table_lawful (by decide)) (by decide) hhit _ hrow rfl _ hline
  have hrows := lineReadsBack_iff.mp hback
  exact absurd hrows (by decide +kernel)

end ParseAndChunkJob

end ValidEmailVerifier
