/-
# `Pipeline.RowConservation` — the rows of a chunk, from its input to its outputs

`buildOutputs` of the Go worker on the text of a chunk input: the lines that the scanner finds, the
verdict of each line that is an address, one row for it in one of three files, and the counts.
Whatever the verifier says, and if it says something else the next time, each address has its row
(`conserved_buildOutputs`).

What the application writes to a chunk is a line for each address.  An address without a line
break is one line with an address for the worker, so the worker counts as many addresses as the
application has recorded (`emailCount_of_written`).
-/
import ValidEmailVerifier.Pipeline.CsvRows
import ValidEmailVerifier.Pipeline.ProbeShards
import ValidEmailVerifier.Pipeline.ReasonTags

namespace ValidEmailVerifier.WorkerLoop

open Text Worker
open Policy (baseReasonOnly)

/-! ## The scanner -/

/-- What a reader returns until its end: whether that is an error, and whether it comes together
with the last bytes. -/
structure Reader where
  content : Text
  fails : Bool := false
  eager : Bool := false

/-- The limit of `scanner.Buffer`. -/
def maxTokenSize : Nat := 1024 * 1024

def byteLength (s : Text) : Nat := (s.map Char.utf8Size).sum

/-- The line is in the buffer before that is full and has to be read into once more. -/
def fits (reader : Reader) (line : Text) : Bool :=
  byteLength line < maxTokenSize + if '\n' ∈ line ∨ reader.eager then 1 else 0

/-- What `bufio.ScanLines` makes of a line. -/
def token (line : Text) : Text :=
  let line := if line.getLast? = some '\n' then line.dropLast else line
  if line.getLast? = some '\r' then line.dropLast else line

/-- The tokens until the end or a line that is too long, and whether there is an error. -/
def scan (reader : Reader) : List Text → List Text × Bool
  | [] => ([], reader.fails)
  | line :: rest =>
      if fits reader line then (token line :: (scan reader rest).1, (scan reader rest).2)
      else ([], true)

/-! ## The loop -/

/-- `counts[key]++` -/
def increment : List (Text × Nat) → Text → List (Text × Nat)
  | [], key => [(key, 1)]
  | entry :: rest, key =>
      if entry.1 = key then (key, entry.2 + 1) :: rest else entry :: increment rest key

/-- `chunkOutputs`, with the rows of the three files. -/
structure ChunkOutputs where
  emailCount : Nat := 0
  counts : PerType Nat := .const 0
  reasonCounts : List (Text × Nat) := []
  reasonTags : List (Text × Nat) := []
  rows : PerType File := .const [header]

/-- The file of a category; what is none of the three is risky. -/
def bucket (category : Text) : OutputType :=
  if category = "invalid".toList then .invalid
  else if category = "risky".toList then .risky
  else if category = "valid".toList then .valid
  else .risky

section Loop
variable (verify : Nat → Text → VerifierResult)
  (probeAttemptChainEnabled unknownReasonTaxonomyEnabled : Bool)

/-- One round of the loop; the verifier may have changed between its calls. -/
def handleLine (output : ChunkOutputs) (text : Text) : ChunkOutputs :=
  let line := trimSpace text
  if line = [] then output
  else if isHeaderLine line then output
  else
    let result := verify output.emailCount line
    let reason := reasonWithEvidence result probeAttemptChainEnabled unknownReasonTaxonomyEnabled
    let reasonTag := reasonTagFrom reason
    let t := bucket result.category
    { emailCount := output.emailCount + 1
      counts := output.counts.set t (output.counts.get t + 1)
      reasonCounts := increment output.reasonCounts (baseReasonOnly reason)
      reasonTags :=
        if reasonTag = [] then output.reasonTags else increment output.reasonTags reasonTag
      rows := output.rows.set t (output.rows.get t ++ [[line, reason]]) }

/-- `buildOutputs`; nothing when it ends in an error. -/
def buildOutputs (reader : Reader) : Option ChunkOutputs :=
  let scanned := scan reader (fgets reader.content)
  let output := scanned.1.foldl
    (handleLine verify probeAttemptChainEnabled unknownReasonTaxonomyEnabled) {}
  if scanned.2 then none else some output

end Loop

/-! ## The lines -/

/-- The line is neither blank nor a header. -/
def isAddressLine (line : Text) : Bool := line ≠ [] && !isHeaderLine line

/-- The lines of an input that are neither blank nor headers. -/
def addressLines (content : Text) : List Text :=
  ((fgets content).map trimSpace).filter isAddressLine

theorem trimSpace_concat {s : Text} {c : Char} (h : isSpace c = true) :
    trimSpace (s ++ [c]) = trimSpace s := by
  have hdrop : (s ++ [c]).rdropWhile isSpace = s.rdropWhile isSpace :=
    List.rdropWhile_concat_pos _ _ _ h
  rw [trimSpace, ← KeyValues.trimBy_rdropWhile, hdrop, KeyValues.trimBy_rdropWhile]
  rfl

theorem trimSpace_dropLast {s : Text} {c : Char} (hc : isSpace c = true)
    (h : s.getLast? = some c) : trimSpace s.dropLast = trimSpace s := by
  obtain ⟨front, rfl⟩ := List.getLast?_eq_some_iff.mp h
  rw [List.dropLast_concat, trimSpace_concat hc]

/-- The line end makes no difference. -/
theorem trimSpace_token (line : Text) : trimSpace (token line) = trimSpace line := by
  have hdrop : ∀ (s : Text) (c : Char), isSpace c = true →
      trimSpace (if s.getLast? = some c then s.dropLast else s) = trimSpace s := by
    intro s c hc
    split
    · next hlast => exact trimSpace_dropLast hc hlast
    · rfl
  exact (hdrop _ '\r' (by decide)).trans (hdrop line '\n' (by decide))

/-- All lines are found, unless one is too long or the reader fails. -/
theorem scan_eq {reader : Reader} {lines : List Text} (h : (scan reader lines).2 = false) :
    (scan reader lines).1 = lines.map token := by
  induction lines with
  | nil => rfl
  | cons line rest ih =>
    rw [scan] at h ⊢
    split at h
    · next hfits =>
      rw [if_pos hfits, List.map_cons, ih h]
    · exact nomatch h

theorem scan_error_iff {reader : Reader} {lines : List Text} :
    (scan reader lines).2 = false ↔
      reader.fails = false ∧ ∀ line ∈ lines, fits reader line = true := by
  induction lines with
  | nil => simp [scan]
  | cons line rest ih =>
    rw [scan]
    split
    · next hfits => simp [ih, hfits]
    · next hfits => simp [hfits]

/-! ## The counts of a map -/

theorem sum_increment (counts : List (Text × Nat)) (key : Text) :
    ((increment counts key).map Prod.snd).sum = (counts.map Prod.snd).sum + 1 := by
  induction counts with
  | nil => rfl
  | cons entry rest ih =>
    rw [increment]
    split
    · simp only [List.map_cons, List.sum_cons]
      omega
    · rw [List.map_cons, List.sum_cons, ih, List.map_cons, List.sum_cons]
      omega

/-- The value of a key that is there, or zero. -/
def countOf (counts : List (Text × Nat)) (key : Text) : Nat := (counts.lookup key).getD 0

theorem countOf_increment (counts : List (Text × Nat)) (key k : Text) :
    countOf (increment counts key) k = countOf counts k + if k = key then 1 else 0 := by
  induction counts with
  | nil =>
    rw [increment, countOf, List.lookup_cons]
    by_cases h : k = key
    · simp [countOf, h]
    · simp [countOf, h, beq_eq_false_iff_ne.mpr h]
  | cons entry rest ih =>
    rw [increment]
    by_cases hentry : entry.1 = key
    · rw [if_pos hentry, countOf, countOf, List.lookup_cons, List.lookup_cons, ← hentry]
      by_cases h : k = entry.1
      · simp [h]
      · simp [h, beq_eq_false_iff_ne.mpr h]
    · rw [if_neg hentry, countOf, countOf, List.lookup_cons, List.lookup_cons]
      by_cases h : k = entry.1
      · simp [h, hentry]
      · rw [beq_eq_false_iff_ne.mpr h]
        exact ih

/-! ## Rows are conserved -/

section Conserved
variable {verify : Nat → Text → VerifierResult} {chain taxonomy : Bool}

/-- The verdicts, in the order of the lines. -/
def verdicts (verify : Nat → Text → VerifierResult) (lines : List Text) :
    List (Text × VerifierResult) := lines.mapIdx fun k line => (line, verify k line)

/-- The row of a verdict. -/
def row (chain taxonomy : Bool) (v : Text × VerifierResult) : Record :=
  [v.1, reasonWithEvidence v.2 chain taxonomy]

/-- The verdicts that go to one of the three files. -/
def verdictsOf (verify : Nat → Text → VerifierResult) (lines : List Text) (t : OutputType) :
    List (Text × VerifierResult) :=
  (verdicts verify lines).filter fun v => bucket v.2.category == t

/-- The reason that a verdict is counted by. -/
def reasonOf (chain taxonomy : Bool) (v : Text × VerifierResult) : Text :=
  baseReasonOnly (reasonWithEvidence v.2 chain taxonomy)

/-- What the outputs say of the lines: each verdict has one row, in the file of its category, and
is counted once. -/
structure Conserved (verify : Nat → Text → VerifierResult) (chain taxonomy : Bool)
    (lines : List Text) (output : ChunkOutputs) : Prop where
  rows : ∀ t, output.rows.get t = header :: (verdictsOf verify lines t).map (row chain taxonomy)
  counts : ∀ t, output.counts.get t = (verdictsOf verify lines t).length
  emailCount : output.emailCount = lines.length
  reasons : (output.reasonCounts.map Prod.snd).sum = lines.length
  reasonCount : ∀ reason, countOf output.reasonCounts reason =
    (verdicts verify lines).countP fun v => reasonOf chain taxonomy v = reason

theorem verdicts_concat (lines : List Text) (line : Text) :
    verdicts verify (lines ++ [line]) =
      verdicts verify lines ++ [(line, verify lines.length line)] := by
  rw [verdicts, List.mapIdx_append]
  simp [verdicts]

theorem verdictsOf_concat (lines : List Text) (line : Text) (t : OutputType) :
    verdictsOf verify (lines ++ [line]) t =
      if t = bucket (verify lines.length line).category then
        verdictsOf verify lines t ++ [(line, verify lines.length line)]
      else verdictsOf verify lines t := by
  rw [verdictsOf, verdicts_concat, List.filter_append, verdictsOf]
  by_cases h : t = bucket (verify lines.length line).category
  · rw [if_pos h, List.filter_cons_of_pos (by simp [h])]
    rfl
  · rw [if_neg h, List.filter_cons_of_neg (by simpa using Ne.symm h)]
    exact List.append_nil _

theorem conserved_nil : Conserved verify chain taxonomy [] {} where
  rows t := PerType.get_const _ t
  counts t := PerType.get_const _ t
  emailCount := rfl
  reasons := rfl
  reasonCount _ := rfl

theorem handleLine_of_not {output : ChunkOutputs} {text : Text}
    (h : isAddressLine (trimSpace text) = false) :
    handleLine verify chain taxonomy output text = output := by
  rw [handleLine]
  dsimp only
  by_cases hblank : trimSpace text = []
  · rw [if_pos hblank]
  · have hheader : isHeaderLine (trimSpace text) = true := by simpa [isAddressLine, hblank] using h
    rw [if_neg hblank, if_pos hheader]

/-- A line that is an address adds its row. -/
theorem Conserved.concat {lines : List Text} {output : ChunkOutputs}
    (h : Conserved verify chain taxonomy lines output) {text : Text}
    (haddress : isAddressLine (trimSpace text) = true) :
    Conserved verify chain taxonomy (lines ++ [trimSpace text])
      (handleLine verify chain taxonomy output text) := by
  obtain ⟨hblank, hheader⟩ : trimSpace text ≠ [] ∧ isHeaderLine (trimSpace text) = false := by
    simpa [isAddressLine] using haddress
  have hstep : handleLine verify chain taxonomy output text =
      let v := (trimSpace text, verify lines.length (trimSpace text))
      let t := bucket v.2.category
      let reasonTag := reasonTagFrom (reasonWithEvidence v.2 chain taxonomy)
      { emailCount := lines.length + 1
        counts := output.counts.set t (output.counts.get t + 1)
        reasonCounts := increment output.reasonCounts (reasonOf chain taxonomy v)
        reasonTags :=
          if reasonTag = [] then output.reasonTags else increment output.reasonTags reasonTag
        rows := output.rows.set t (output.rows.get t ++ [row chain taxonomy v]) } := by
    rw [handleLine, h.emailCount]
    dsimp only
    rw [if_neg hblank, if_neg (by simp [hheader])]
    rfl
  rw [hstep]
  refine ⟨fun t => ?_, fun t => ?_, ?_, ?_, fun reason => ?_⟩
  · dsimp only
    rw [PerType.get_set, verdictsOf_concat]
    split
    · next heq =>
      subst heq
      rw [h.rows, List.map_append, List.cons_append]
      rfl
    · exact h.rows t
  · dsimp only
    rw [PerType.get_set, verdictsOf_concat]
    split
    · next heq =>
      subst heq
      rw [h.counts, List.length_append]
      rfl
    · exact h.counts t
  · rw [List.length_append]
    rfl
  · rw [sum_increment, h.reasons, List.length_append]
    rfl
  · rw [countOf_increment, h.reasonCount, verdicts_concat, List.countP_append,
      List.countP_singleton]
    simp only [decide_eq_true_eq, eq_comm (a := reason)]

theorem Conserved.foldl {lines : List Text} {output : ChunkOutputs}
    (h : Conserved verify chain taxonomy lines output) (texts : List Text) :
    Conserved verify chain taxonomy (lines ++ (texts.map trimSpace).filter isAddressLine)
      (texts.foldl (handleLine verify chain taxonomy) output) := by
  induction texts generalizing lines output with
  | nil =>
    rw [List.map_nil, List.filter_nil, List.append_nil]
    exact h
  | cons text texts ih =>
    rw [List.map_cons, List.foldl_cons]
    by_cases haddress : isAddressLine (trimSpace text) = true
    · rw [List.filter_cons_of_pos haddress, List.append_cons]
      exact ih (h.concat haddress)
    · rw [List.filter_cons_of_neg haddress, handleLine_of_not (Bool.not_eq_true _ ▸ haddress)]
      exact ih h

/-- **The outputs conserve the lines of the input**, whenever there are outputs. -/
theorem conserved_buildOutputs {reader : Reader} {output : ChunkOutputs}
    (h : buildOutputs verify chain taxonomy reader = some output) :
    Conserved verify chain taxonomy (addressLines reader.content) output := by
  rw [buildOutputs] at h
  obtain ⟨hok, hsome⟩ := Option.ite_none_left_eq_some.mp h
  have hscan := scan_eq (Bool.not_eq_true _ ▸ hok)
  have hlines : (fgets reader.content).map trimSpace =
      ((fgets reader.content).map token).map trimSpace := by
    rw [List.map_map]
    exact List.map_congr_left fun line _ => (trimSpace_token line).symm
  rw [← Option.some.inj hsome, hscan, addressLines, hlines]
  exact conserved_nil.foldl _

/-- There are, unless the reader fails or a line is too long. -/
theorem isSome_buildOutputs {reader : Reader} :
    (buildOutputs verify chain taxonomy reader).isSome = true ↔
      reader.fails = false ∧ ∀ line ∈ fgets reader.content, fits reader line = true := by
  rw [← scan_error_iff, buildOutputs]
  split
  · next herror => simp [herror]
  · next hok => simp [hok]

end Conserved

/-! ## Chunks of the application -/

/-- What the writers of the application put into a chunk input: a line for each address. -/
def chunkText (emails : List Text) : Text := emails.flatMap fun e => e ++ ['\n']

/-- The limit of the filter. -/
structure Short (php : Php) : Prop where
  length : ∀ e, php.filterVarEmail e = true → byteLength e ≤ 320

/-- No address has a line break in it. -/
def Unbroken (emails : List Text) : Prop := ∀ e ∈ emails, '\n' ∉ e

instance {emails : List Text} : Decidable (Unbroken emails) :=
  inferInstanceAs (Decidable (∀ e ∈ emails, '\n' ∉ e))

section Written
variable {php : Php} {verify : Nat → Text → VerifierResult} {chain taxonomy : Bool}
  {emails : List Text}

theorem fgets_chunkText (h : Unbroken emails) :
    fgets (chunkText emails) = emails.map fun e => e ++ ['\n'] := by
  induction emails with
  | nil => rfl
  | cons e rest ih =>
    rw [chunkText, List.flatMap_cons, List.append_assoc, List.singleton_append,
      Csv.fgets_line (h e (.head _)), ← chunkText, ih fun e he => h e (.tail _ he), List.map_cons]

theorem byteLength_concat (e : Text) : byteLength (e ++ ['\n']) = byteLength e + 1 := by
  rw [byteLength, List.map_append, List.sum_append]
  rfl

theorem isAddressLine_of_clean (hphp : php.Lawful) {e : Text} (h : Clean php e) :
    isAddressLine e = true := by
  simp [isAddressLine, h.ne_nil hphp, h.not_header hphp]

/-- The worker finds the addresses, line by line. -/
theorem addressLines_chunkText (hphp : php.Lawful) (hclean : ∀ e ∈ emails, Clean php e)
    (h : Unbroken emails) : addressLines (chunkText emails) = emails := by
  have hlines : (emails.map fun e => e ++ ['\n']).map trimSpace = emails := by
    rw [List.map_map]
    conv_rhs => rw [← List.map_id emails]
    refine List.map_congr_left fun e he => ?_
    exact (trimSpace_concat (by decide)).trans (hphp.trimSpace e (hclean e he).valid)
  rw [addressLines, fgets_chunkText h, hlines]
  exact List.filter_eq_self.mpr fun e he => isAddressLine_of_clean hphp (hclean e he)

/-- There are outputs of such a chunk. -/
theorem isSome_buildOutputs_chunkText (hshort : Short php) (hclean : ∀ e ∈ emails, Clean php e)
    (h : Unbroken emails) {reader : Reader} (hcontent : reader.content = chunkText emails)
    (hreads : reader.fails = false) :
    (buildOutputs verify chain taxonomy reader).isSome = true := by
  refine isSome_buildOutputs.mpr ⟨hreads, fun line hline => ?_⟩
  rw [hcontent, fgets_chunkText h] at hline
  obtain ⟨e, he, rfl⟩ := List.mem_map.mp hline
  have hlength := hshort.length e (hclean e he).valid
  rw [fits, byteLength_concat, maxTokenSize, decide_eq_true_eq]
  omega

end Written

end ValidEmailVerifier.WorkerLoop

namespace ValidEmailVerifier.ParseAndChunkJob

/-! ## The addresses of a parse -/

/-- Whatever a parse has taken up is clean. -/
structure Wholesome (php : Php) (m : Mem) : Prop where
  batch : ∀ e ∈ m.batch, Clean php e
  chunkStream : ∀ e ∈ m.chunkStream, Clean php e
  effects : ∀ e ∈ m.effects.flatMap Effect.emails, Clean php e

section Wholesome
variable {php : Php} {σ : Settings} {m m' : Mem}

theorem Wholesome.of_eq (h : Wholesome php m) (hbatch : m'.batch = m.batch)
    (hstream : m'.chunkStream = m.chunkStream) (heffects : m'.effects = m.effects) :
    Wholesome php m' :=
  ⟨hbatch ▸ h.batch, hstream ▸ h.chunkStream, heffects ▸ h.effects⟩

theorem Wholesome.finalizeChunk (h : Wholesome php m) : Wholesome php (finalizeChunk m) := by
  rw [ParseAndChunkJob.finalizeChunk]
  split
  · exact h
  · refine ⟨h.batch, (by simp), fun e he => ?_⟩
    rw [List.flatMap_append] at he
    rcases List.mem_append.mp he with he | he
    · exact h.effects e he
    · exact h.chunkStream e (by simpa [Effect.emails] using he)

theorem Wholesome.writeToChunk (h : Wholesome php m) {email : Text} (hemail : Clean php email) :
    Wholesome php (writeToChunk σ m email) := by
  have hwritten : Wholesome php { m with
      chunkStream := m.chunkStream ++ [email], unknownCount := m.unknownCount + 1 } := by
    refine ⟨h.batch, fun e he => ?_, h.effects⟩
    rcases List.mem_append.mp he with he | he
    · exact h.chunkStream e he
    · exact List.mem_singleton.mp he ▸ hemail
  rw [ParseAndChunkJob.writeToChunk]
  split
  · exact hwritten.finalizeChunk
  · exact hwritten

theorem Wholesome.flushEmail (h : Wholesome php m) (hits : List (Text × Hit)) {email : Text}
    (hemail : Clean php email) : Wholesome php (flushEmail σ hits m email) := by
  rw [ParseAndChunkJob.flushEmail]
  split
  · rw [handleCacheHit]
    split
    · exact h.of_eq rfl rfl rfl
    · exact h.of_eq rfl rfl rfl
  · split
    · rw [handleCacheMiss, writeCached]
      split
      · exact h.of_eq rfl rfl rfl
      · exact h.of_eq rfl rfl rfl
    · have hmiss : Wholesome php (recordCacheMiss m email) := h.of_eq rfl rfl rfl
      exact hmiss.writeToChunk hemail

theorem Wholesome.flushEmails (h : Wholesome php m) (hits : List (Text × Hit))
    {emails : List Text} (hemails : ∀ e ∈ emails, Clean php e) :
    Wholesome php (emails.foldl (ParseAndChunkJob.flushEmail σ hits) m) := by
  induction emails generalizing m with
  | nil => exact h
  | cons email rest ih =>
    exact ih (h.flushEmail hits (hemails email (.head _))) fun e he => hemails e (.tail _ he)

theorem Wholesome.flushBatch (h : Wholesome php m) :
    Wholesome php (memOf (flushBatch σ m)) := by
  rw [ParseAndChunkJob.flushBatch]
  split
  · exact h
  · split
    · next hlookup =>
      have hsame := lookupMany_error hlookup
      exact h.of_eq hsame.batch hsame.chunkStream hsame.effects
    · next m₁ hits hlookup =>
      have hsame := (lookupMany_ok hlookup).1
      have hanswered := h.of_eq hsame.batch hsame.chunkStream hsame.effects
      have hflushed := @Wholesome.flushEmails php σ m₁ hanswered hits m₁.batch hanswered.batch
      exact ⟨nofun, hflushed.chunkStream, hflushed.effects⟩

theorem Wholesome.handleFeed (h : Wholesome php m) (f : Feed) :
    Wholesome php (memOf (handleFeed php σ m f)) := by
  cases f with
  | rowsEnd => exact h.flushBatch
  | candidate email =>
    show Wholesome php (memOf (handleCandidate php σ m email))
    rw [handleCandidate]
    split
    · exact h
    · next e he =>
      have hclean : Clean php e := clean_of_normalizeEmail he
      split
      · exact h
      · dsimp only
        split
        · exact h.of_eq rfl rfl rfl
        · have htaken : Wholesome php { m with
              seen := m.seen ++ [e]
              totalUnique := m.totalUnique + 1
              batch := m.batch ++ [e] } := by
            refine ⟨fun e' he' => ?_, h.chunkStream, h.effects⟩
            rcases List.mem_append.mp he' with he' | he'
            · exact h.batch e' he'
            · exact List.mem_singleton.mp he' ▸ hclean
          split
          · exact htaken.flushBatch
          · exact htaken

theorem Wholesome.handleFeeds (h : Wholesome php m) (upload : List Feed) :
    Wholesome php (memOf (handleFeeds php σ m upload)) := by
  induction upload generalizing m with
  | nil => exact h
  | cons f rest ih =>
    have hfeed := @Wholesome.handleFeed php σ m h f
    rw [ParseAndChunkJob.handleFeeds]
    split
    · next m₁ hm => exact ih (by rwa [hm] at hfeed)
    · next m₁ hm => rwa [hm] at hfeed

/-- **The chunks of a parse have clean addresses**, however it ends. -/
theorem wholesome_parse (php : Php) (σ : Settings) (upload : List Feed) (lookups : List Lookup) :
    Wholesome php (memOf (parse php σ upload lookups)) := by
  have hstart : Wholesome php (configure σ lookups) := ⟨nofun, nofun, nofun⟩
  have hfeeds := @Wholesome.handleFeeds php σ _ hstart upload
  rw [parse]
  split
  · next m₁ hm => rwa [hm] at hfeeds
  · next m₁ hm =>
    rw [hm] at hfeeds
    have hflushed := @Wholesome.flushBatch php σ m₁ hfeeds
    split
    · next m₂ hm₂ => rwa [hm₂] at hflushed
    · next m₂ hm₂ =>
      rw [hm₂] at hflushed
      exact Wholesome.finalizeChunk hflushed

/-- The number that is recorded for a chunk is that of its addresses. -/
theorem emailCount_of_effects {chunkNo count : Nat} {emails : List Text} (h : Numbered m)
    (hput : Effect.putChunk chunkNo emails ∈ m.effects)
    (hcreate : Effect.createChunk chunkNo count ∈ m.effects) : count = emails.length := by
  have hfirst : ∀ (n : Nat) (files : List (List Text)) (effect : Effect),
      effect ∈ chunkEffects n files → ∃ k file, files[k]? = some file ∧
        (effect = .putChunk (n + k) file ∨ effect = .createChunk (n + k) file.length) := by
    intro n files
    induction files generalizing n with
    | nil => exact fun effect he => (by cases he)
    | cons file rest ih =>
      intro effect he
      rw [chunkEffects] at he
      rcases List.mem_cons.mp he with rfl | he
      · exact ⟨0, file, rfl, .inl rfl⟩
      · rcases List.mem_cons.mp he with rfl | he
        · exact ⟨0, file, rfl, .inr rfl⟩
        · obtain ⟨k, later, hk, heffect⟩ := ih (n + 1) effect he
          refine ⟨k + 1, later, hk, ?_⟩
          rwa [Nat.add_assoc, Nat.add_comm 1 k] at heffect
  obtain ⟨files, hwrote⟩ := h
  rw [hwrote.effects] at hput hcreate
  obtain ⟨k, file, hk, hput | hput⟩ := hfirst 1 files _ hput
  · obtain ⟨k', file', hk', hcreate | hcreate⟩ := hfirst 1 files _ hcreate
    · cases hcreate
    · obtain ⟨hno, rfl⟩ := Effect.putChunk.inj hput
      obtain ⟨hno', rfl⟩ := Effect.createChunk.inj hcreate
      obtain rfl : k = k' := by omega
      rw [Option.some.inj (hk.symm.trans hk')]
  · cases hput

end Wholesome

end ValidEmailVerifier.ParseAndChunkJob

namespace ValidEmailVerifier.WorkerLoop

open Text Worker
open ParseAndChunkJob (Feed Lookup Effect memOf parse)

/-! ## Chunks of the application -/

/-- The addresses of a chunk that the application writes, and the number that it records: a parse
of any upload, the handoff of any outputs, or the retries of a worker's outputs of such a chunk. -/
inductive Written (php : Php) : List Text → Nat → Prop
  | parsed {σ : Settings} {upload : List Feed} {lookups : List Lookup} {chunkNo count : Nat}
      {emails : List Text}
      (hput : Effect.putChunk chunkNo emails ∈ (memOf (parse php σ upload lookups)).effects)
      (hcreate : Effect.createChunk chunkNo count ∈ (memOf (parse php σ upload lookups)).effects) :
      Written php emails count
  | probed {σ : Settings} {reasons : List Text} {files : PerType (Option File)}
      {shard : ScreeningToProbeChunkPlanner.Shard}
      (parent id chunkNo rotationGroupId : Nat) (disk : Disk) (maxProbeAttempts now : Nat)
      (hshard : shard ∈ ScreeningToProbeChunkPlanner.buildProbeShards σ
        (ScreeningToProbeChunkPlanner.classify php reasons files).candidates) :
      Written php shard.emails (ScreeningToProbeChunkPlanner.probeChunk parent id chunkNo
        rotationGroupId disk maxProbeAttempts shard now).emailCount
  | retried {emails : List Text} {count : Nat} {verify : Nat → Text → VerifierResult}
      {chain taxonomy : Bool} {reader : Reader} {output : ChunkOutputs} {reasons retry : List Text}
      (parent : Chunk) (id chunkNo : Nat) (disk : Disk) (availableAt now : Nat)
      (hwritten : Written php emails count) (hunbroken : Unbroken emails)
      (hcontent : reader.content = chunkText emails)
      (houtput : buildOutputs verify chain taxonomy reader = some output)
      (hretry : (TempfailRetryPlanner.split reasons output.rows.risky).2 = retry) :
      Written php retry (TempfailRetryPlanner.retryChunk parent id chunkNo disk retry.length
        availableAt now).emailCount

section Written
variable {php : Php}

theorem clean_of_planner {raw e : Text}
    (h : ScreeningToProbeChunkPlanner.normalizeEmail php raw = some e) : Clean php e := by
  rw [ScreeningToProbeChunkPlanner.normalizeEmail] at h
  obtain ⟨hnot, hsome⟩ := Option.ite_none_left_eq_some.mp h
  obtain ⟨-, hvalid⟩ := not_or.mp hnot
  rw [← Option.some.inj hsome]
  exact ⟨trim_strtolower raw, strtolower_strtolower _, Bool.not_eq_false _ ▸ hvalid⟩

/-- The candidates of a classification have passed the filter. -/
theorem clean_candidates {reasons : List Text} {files : PerType (Option File)} :
    ∀ c ∈ (ScreeningToProbeChunkPlanner.classify php reasons files).candidates,
      Clean php c.email := by
  have hrow : ∀ (acc : ScreeningToProbeChunkPlanner.Classification) (t : OutputType)
      (r : ScreeningToProbeChunkPlanner.ResultRow), (∀ c ∈ acc.candidates, Clean php c.email) →
        ∀ c ∈ (ScreeningToProbeChunkPlanner.classifyRow php reasons acc t r).candidates,
          Clean php c.email := by
    intro acc t r hacc
    rw [ScreeningToProbeChunkPlanner.classifyRow]
    split
    · exact hacc
    · next email hemail =>
      split
      · exact hacc
      · split
        · exact hacc
        · intro c hc
          rcases List.mem_append.mp hc with hc | hc
          · exact hacc c hc
          · rw [List.mem_singleton.mp hc]
            exact clean_of_planner hemail
  have hfold : ∀ (rows : List (OutputType × ScreeningToProbeChunkPlanner.ResultRow))
      (acc : ScreeningToProbeChunkPlanner.Classification),
      (∀ c ∈ acc.candidates, Clean php c.email) →
        ∀ c ∈ (rows.foldl (fun acc r =>
          ScreeningToProbeChunkPlanner.classifyRow php reasons acc r.1 r.2) acc).candidates,
          Clean php c.email := by
    intro rows
    induction rows with
    | nil => exact fun acc hacc => hacc
    | cons r rows ih => exact fun acc hacc => ih _ (hrow acc r.1 r.2 hacc)
  exact hfold _ {} (by simp)

/-- The shards of a handoff have clean addresses. -/
theorem clean_shards {σ : Settings} {reasons : List Text} {files : PerType (Option File)}
    {shard : ScreeningToProbeChunkPlanner.Shard}
    (h : shard ∈ ScreeningToProbeChunkPlanner.buildProbeShards σ
      (ScreeningToProbeChunkPlanner.classify php reasons files).candidates) :
    ∀ e ∈ shard.emails, Clean php e := by
  intro e he
  have hperm := ScreeningToProbeChunkPlanner.buildProbeShards_emails σ
    (ScreeningToProbeChunkPlanner.nodup_candidates php reasons files)
  obtain ⟨c, hc, rfl⟩ := List.mem_map.mp
    (hperm.mem_iff.mp (List.mem_flatMap.mpr ⟨shard, h, he⟩))
  exact clean_candidates c hc

/-- The retries of a file of header and address rows are clean. -/
theorem clean_split {file : File} (h : OutputFile php file) (reasons : List Text) :
    ∀ e ∈ (TempfailRetryPlanner.split reasons file).2, Clean php e := by
  intro e he
  rw [TempfailRetryPlanner.split_retry] at he
  obtain ⟨record, hrecord, rfl⟩ := List.mem_map.mp he
  obtain ⟨hin, -⟩ := List.mem_filter.mp hrecord
  obtain ⟨hmem, hemail⟩ := List.mem_filter.mp hin
  rcases h record hmem with rfl | ⟨e, reason, hclean, rfl⟩
  · exact absurd hemail (by decide)
  · rw [hclean.parseLine]
    exact hclean

/-- The outputs of clean addresses are files of header and address rows. -/
theorem Conserved.outputFile {verify : Nat → Text → VerifierResult} {chain taxonomy : Bool}
    {lines : List Text} {output : ChunkOutputs}
    (h : Conserved verify chain taxonomy lines output) (hclean : ∀ e ∈ lines, Clean php e)
    (t : OutputType) : OutputFile php (output.rows.get t) := by
  intro record hrecord
  rw [h.rows] at hrecord
  rcases List.mem_cons.mp hrecord with rfl | hrow
  · exact .inl rfl
  · obtain ⟨v, hv, rfl⟩ := List.mem_map.mp hrow
    obtain ⟨k, hk, rfl⟩ := List.mem_mapIdx.mp (List.mem_filter.mp hv).1
    exact .inr ⟨_, _, hclean _ (List.getElem_mem hk), rfl⟩

/-- **Every chunk that is written has clean addresses**, as many as are recorded. -/
theorem Written.clean (hphp : php.Lawful) {emails : List Text} {count : Nat}
    (h : Written php emails count) : (∀ e ∈ emails, Clean php e) ∧ count = emails.length := by
  induction h with
  | parsed hput hcreate =>
    refine ⟨fun e he => ?_, ?_⟩
    · exact (ParseAndChunkJob.wholesome_parse php _ _ _).effects e
        (List.mem_flatMap.mpr ⟨_, hput, he⟩)
    · exact ParseAndChunkJob.emailCount_of_effects
        (ParseAndChunkJob.parse_numbered php _ _ _) hput hcreate
  | probed parent id chunkNo rotationGroupId disk maxProbeAttempts now hshard =>
    exact ⟨clean_shards hshard, rfl⟩
  | retried parent id chunkNo disk availableAt now hwritten hunbroken hcontent houtput hretry ih =>
    subst hretry
    refine ⟨?_, rfl⟩
    have hconserved := conserved_buildOutputs houtput
    rw [hcontent, addressLines_chunkText hphp ih.1 hunbroken] at hconserved
    exact clean_split (hconserved.outputFile ih.1 .risky) _

/-- **The worker counts what was recorded**, if no address has a line break. -/
theorem emailCount_of_written (hphp : php.Lawful) (hshort : Short php) {emails : List Text}
    {count : Nat} (h : Written php emails count) (hunbroken : Unbroken emails)
    {reader : Reader} (hcontent : reader.content = chunkText emails)
    (hreads : reader.fails = false) (verify : Nat → Text → VerifierResult)
    (chain taxonomy : Bool) :
    ∃ output, buildOutputs verify chain taxonomy reader = some output ∧
      output.emailCount = count := by
  obtain ⟨hclean, hcount⟩ := h.clean hphp
  have hsome := @isSome_buildOutputs_chunkText php verify chain taxonomy emails hshort hclean
    hunbroken reader hcontent hreads
  obtain ⟨output, houtput⟩ := Option.isSome_iff_exists.mp hsome
  have hconserved := conserved_buildOutputs houtput
  rw [hcontent, addressLines_chunkText hphp hclean hunbroken] at hconserved
  exact ⟨output, houtput, hconserved.emailCount.trans hcount.symm⟩

/-! ### Records -/

/-- A verifier that answers by a table. -/
def AnswersBy (table : List (Text × Verdict)) (verify : Nat → Text → VerifierResult)
    (chain taxonomy : Bool) : Prop :=
  ∀ k line, (bucket (verify k line).category,
    reasonWithEvidence (verify k line) chain taxonomy) = Worker.verify table line

/-- Its rows are those of the table. -/
theorem rows_of_answersBy {table : List (Text × Verdict)}
    {verify : Nat → Text → VerifierResult} {chain taxonomy : Bool}
    (h : AnswersBy table verify chain taxonomy) (lines : List Text) (t : OutputType) :
    (verdictsOf verify lines t).map (row chain taxonomy) =
      (lines.filter fun line => (Worker.verify table line).1 == t).map
        fun line => [line, (Worker.verify table line).2] := by
  induction lines using List.reverseRecOn with
  | nil => rfl
  | append_singleton lines line ih =>
    have hanswer := h lines.length line
    have htype : bucket (verify lines.length line).category = (Worker.verify table line).1 :=
      congrArg Prod.fst hanswer
    rw [verdictsOf_concat, List.filter_append, List.map_append, ← ih, htype]
    by_cases heq : t = (Worker.verify table line).1
    · rw [if_pos heq, List.filter_cons_of_pos (by simp [heq]), List.map_append]
      simp [row, ← hanswer]
    · rw [if_neg heq, List.filter_cons_of_neg (by simpa using Ne.symm heq)]
      exact (List.append_nil _).symm

/-- **On the text of a chunk the worker does what it does on its records.** -/
theorem refines_buildOutputs (hphp : php.Lawful) {emails : List Text}
    (hclean : ∀ e ∈ emails, Clean php e) (hunbroken : Unbroken emails)
    {table : List (Text × Verdict)} {verify : Nat → Text → VerifierResult} {chain taxonomy : Bool}
    (hverify : AnswersBy table verify chain taxonomy) {reader : Reader} {output : ChunkOutputs}
    (hcontent : reader.content = chunkText emails)
    (houtput : buildOutputs verify chain taxonomy reader = some output) :
    let outputs := Worker.buildOutputs table (inputFile emails)
    output.emailCount = outputs.emailCount ∧ ∀ t, output.rows.get t = outputs.files.get t ∧
      output.counts.get t = outputs.counts.get t := by
  have hlines := lines_inputFile hphp hclean
  have hconserved := conserved_buildOutputs houtput
  rw [hcontent, addressLines_chunkText hphp hclean hunbroken] at hconserved
  have hrows : ∀ t, (verdictsOf verify emails t).map (row chain taxonomy) =
      (outputRows table (inputFile emails) t).map
        fun line => [line, (Worker.verify table line).2] := by
    intro t
    rw [outputRows, hlines]
    exact rows_of_answersBy hverify emails t
  have hcount : ∀ t, output.counts.get t = (outputRows table (inputFile emails) t).length := by
    intro t
    have hlength := congrArg List.length (hrows t)
    rw [List.length_map, List.length_map] at hlength
    rw [hconserved.counts, hlength]
  refine ⟨?_, fun t => ⟨?_, ?_⟩⟩
  · rw [hconserved.emailCount, Worker.buildOutputs, hlines]
  · rw [hconserved.rows, hrows]
    cases t <;> rfl
  · rw [hcount]
    cases t <;> rfl

end Written

/-! ## Both programs -/

/-- There are outputs, and each line that is neither blank nor a header has one row in one of
them, which is counted once by its file and once by its reason. -/
def RowsConserved (verify : Nat → Text → VerifierResult) (chain taxonomy : Bool)
    (reader : Reader) : Prop :=
  ∃ output, buildOutputs verify chain taxonomy reader = some output ∧
    (∀ t, output.rows.get t =
      header :: (verdictsOf verify (addressLines reader.content) t).map (row chain taxonomy)) ∧
    (OutputType.all.flatMap fun t => (output.rows.get t).tail).Perm
      ((verdicts verify (addressLines reader.content)).map (row chain taxonomy)) ∧
    output.emailCount = (addressLines reader.content).length ∧
    output.emailCount = output.counts.valid + output.counts.invalid + output.counts.risky ∧
    output.emailCount = (output.reasonCounts.map Prod.snd).sum

/-- The worker counts what the application has recorded. -/
def CountsAgree (emails : List Text) (count : Nat) : Prop :=
  ∀ (reader : Reader) (verify : Nat → Text → VerifierResult) (chain taxonomy : Bool),
    reader.content = chunkText emails → reader.fails = false →
      ∃ output, buildOutputs verify chain taxonomy reader = some output ∧
        output.emailCount = count

/-- **Rows are conserved** for every input that can be read and every verifier. -/
theorem rowsConserved_iff {verify : Nat → Text → VerifierResult} {chain taxonomy : Bool}
    {reader : Reader} : RowsConserved verify chain taxonomy reader ↔
      reader.fails = false ∧ ∀ line ∈ fgets reader.content, fits reader line = true := by
  rw [← @isSome_buildOutputs verify chain taxonomy reader]
  constructor
  · rintro ⟨output, houtput, -⟩
    exact Option.isSome_iff_exists.mpr ⟨output, houtput⟩
  · intro hsome
    obtain ⟨output, houtput⟩ := Option.isSome_iff_exists.mp hsome
    have h := conserved_buildOutputs houtput
    have hpartition := OutputType.partition_perm
      (fun v : Text × VerifierResult => bucket v.2.category)
      (verdicts verify (addressLines reader.content))
    refine ⟨output, houtput, h.rows, ?_, h.emailCount, ?_, h.emailCount.trans h.reasons.symm⟩
    · simp only [h.rows, List.tail_cons]
      rw [← List.map_flatMap]
      exact hpartition.map (row chain taxonomy)
    · have hlength := hpartition.length_eq
      simp only [OutputType.all, List.flatMap_cons, List.flatMap_nil, List.append_nil,
        List.length_append] at hlength
      have hvalid : output.counts.valid = _ := h.counts .valid
      have hinvalid : output.counts.invalid = _ := h.counts .invalid
      have hrisky : output.counts.risky = _ := h.counts .risky
      rw [verdictsOf] at hvalid hinvalid hrisky
      have hlines : (verdicts verify (addressLines reader.content)).length =
          (addressLines reader.content).length := List.length_mapIdx
      rw [h.emailCount, hvalid, hinvalid, hrisky, ← hlines]
      omega

/-- **Rows are conserved and counts agree**: for every input that can be read, and every chunk of
the application without a line break in an address. -/
theorem rows_conserved (php : Php) (hphp : php.Lawful) (hshort : Short php) :
    (∀ (verify : Nat → Text → VerifierResult) (chain taxonomy : Bool) (reader : Reader),
      RowsConserved verify chain taxonomy reader ↔
        reader.fails = false ∧ ∀ line ∈ fgets reader.content, fits reader line = true) ∧
      ∀ (emails : List Text) (count : Nat), Written php emails count → Unbroken emails →
        CountsAgree emails count :=
  ⟨fun _ _ _ _ => rowsConserved_iff, fun _ _ hwritten hunbroken _ verify chain taxonomy hcontent
    hreads => emailCount_of_written hphp hshort hwritten hunbroken hcontent hreads verify chain
      taxonomy⟩

theorem short_table {addresses : List Text} (h : addresses.all fun e => byteLength e ≤ 320) :
    Short (Php.table addresses) :=
  ⟨fun e he => of_decide_eq_true (List.all_eq_true.mp h e (List.contains_iff_mem.mp he))⟩

def plainAddress : Text := "user@example.com".toList

/-- The chunk of one address, written by a parse. -/
theorem rows_conserved_plain : CountsAgree [plainAddress] 1 :=
  (rows_conserved (Php.table [plainAddress]) (Php.table_lawful (by decide))
    (short_table (by decide))).2 [plainAddress] 1
    (@Written.parsed _ {} [.candidate plainAddress] [] 1 1 [plainAddress] (by decide) (by decide))
    (by decide)

/-- A cell of a spreadsheet, with an escaped line break in the quoted part of an address. -/
def brokenAddress : Text := "x.\"@\\\n@\"@example.com".toList

/-- A line of so many letters behind a sign. -/
def longLine (n : Nat) : Reader where
  content := '@' :: List.replicate n 'a' ++ ['\n']

theorem fgets_longLine (n : Nat) : fgets (longLine n).content = [(longLine n).content] := by
  have hline : '\n' ∉ '@' :: List.replicate n 'a' := by
    intro h
    rcases List.mem_cons.mp h with h | h
    · exact absurd h (by decide)
    · exact absurd (List.eq_of_mem_replicate h) (by decide)
  exact Csv.fgets_line hline

theorem fits_longLine {n : Nat} (h : maxTokenSize ≤ n) :
    fits (longLine n) (longLine n).content = false := by
  have hlength : byteLength (longLine n).content = n + 2 := by
    have hletters : byteLength (List.replicate n 'a') = n := by
      rw [byteLength, List.map_replicate, List.sum_replicate]
      exact Nat.mul_one n
    show '@'.utf8Size + byteLength (List.replicate n 'a' ++ ['\n']) = n + 2
    rw [byteLength_concat, hletters]
    show 1 + (n + 1) = n + 2
    omega
  rw [fits, hlength, decide_eq_false_iff_not]
  split
  · omega
  · omega

/-- A line that is too long ends in an error, and an address with a line break is two lines. -/
theorem rows_fail :
    (¬ ∀ (verify : Nat → Text → VerifierResult) (chain taxonomy : Bool) (reader : Reader),
      RowsConserved verify chain taxonomy reader) ∧
      ¬ ∀ (php : Php) (emails : List Text) (count : Nat), php.Lawful → Short php →
        Written php emails count → CountsAgree emails count := by
  constructor
  · intro hall
    obtain ⟨-, hfits⟩ :=
      rowsConserved_iff.mp (hall (fun _ _ => {}) false false (longLine maxTokenSize))
    have hfalse := fits_longLine (Nat.le_refl maxTokenSize)
    rw [hfits _ (fgets_longLine maxTokenSize ▸ .head _)] at hfalse
    exact nomatch hfalse
  · intro hall
    have hagree := hall (Php.table [brokenAddress]) [brokenAddress] 1
      (Php.table_lawful (by decide)) (short_table (by decide))
      (@Written.parsed _ {} [.candidate brokenAddress] [] 1 1 [brokenAddress] (by decide)
        (by decide))
    obtain ⟨output, houtput, hcount⟩ := hagree ⟨chunkText [brokenAddress], false, false⟩
      (fun _ _ => {}) false false rfl rfl
    have htwo : (addressLines (chunkText [brokenAddress])).length = 2 := by decide
    have hemail := (conserved_buildOutputs houtput).emailCount
    rw [htwo, hcount] at hemail
    exact absurd hemail (by decide)

end ValidEmailVerifier.WorkerLoop
