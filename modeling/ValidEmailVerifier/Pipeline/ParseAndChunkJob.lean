/-
# `Pipeline.ParseAndChunkJob` — what one parse of an upload writes

`ParseAndChunkJob::handle` keeps its counters, its dedupe store and its open
streams in memory (`Mem`) and writes chunk objects and chunk rows on the way;
those writes are collected in order in `Mem.effects`, so that `Pipeline.Machine`
can run them one by one.  An exception leaves the memory as it was when it was
thrown, with the effects so far.

Whatever a parse has written, and however it ended, is a list of nonempty chunks
numbered from one (`parse_numbered`); where the addresses of the upload are is the
subject of `Pipeline.ParseLedger`.
-/
import Mathlib.Data.List.Nodup
import ValidEmailVerifier.Pipeline.VerificationResultsMerger

namespace ValidEmailVerifier.ParseAndChunkJob

open Text

/-! ## Input -/

/-- What the readers hand to the parser: a candidate address of a line or a row,
or the end of a batch of spreadsheet rows. -/
inductive Feed where
  | candidate (email : Text)
  | rowsEnd
  deriving DecidableEq, Repr

/-- A value of the array `lookupMany` returns. -/
inductive Hit where
  | entry (status outcome reasonCode row : Option Text)
  | other
  deriving DecidableEq, Repr

/-- An answer of the cache store to one `lookupMany`. -/
inductive Lookup where
  | hits (found : List (Text × Hit))
  | throws
  deriving DecidableEq, Repr

/-- The characters of `" \t\n\r\0\x0B,;'\""`. -/
def isDelimiter (c : Char) : Bool :=
  isBlank c || c == ',' || c == ';' || c == '\'' || c == '"'

/-- `normalizeEmail`. -/
def normalizeEmail (php : Php) (email : Text) : Option Text :=
  if trim email = [] then none
  else
    let email := trimBy isDelimiter (strtolower (trim email))
    if php.filterVarEmail email then some email else none

/-! ## Memory and effects -/

/-- What `finalizeChunk` writes. -/
inductive Effect where
  | putChunk (chunkNo : Nat) (emails : List Text)
  | createChunk (chunkNo emailCount : Nat)
  deriving DecidableEq, Repr

/-- The addresses an effect makes the input of a chunk. -/
def Effect.emails : Effect → List Text
  | .putChunk _ emails => emails
  | .createChunk _ _ => []

/-- The properties of the job object while it parses. -/
structure Mem where
  /-- `EmailDedupeStore`. -/
  seen : List Text := []
  totalUnique : Nat := 0
  cachedCount : Nat := 0
  unknownCount : Nat := 0
  chunksCreated : Nat := 0
  /-- `$cachedStreams`; a stream exists as soon as its header is written. -/
  cachedStreams : PerType (Option File) := .const none
  cacheMissStream : Option (List Text) := none
  batch : List Text := []
  cacheOnlyMode : Bool := false
  skipCache : Bool := false
  /-- The lines of `$chunkStream`. -/
  chunkStream : List Text := []
  chunkNo : Nat := 1
  /-- The answers the cache store has still to give. -/
  lookups : List Lookup := []
  effects : List Effect := []
  deriving DecidableEq, Repr

def chunkSize (σ : Settings) : Nat := (max 1 σ.chunkSizeDefault).toNat

def maxEmails (σ : Settings) : Nat := (max 0 σ.maxEmailsPerUpload).toNat

def cacheBatchSize (σ : Settings) : Nat := (max 1 (min 100 σ.cacheBatchSize)).toNat

/-- `finalizeChunk`. -/
def finalizeChunk (m : Mem) : Mem :=
  if m.chunkStream = [] then m
  else
    { m with
      effects := m.effects ++
        [.putChunk m.chunkNo m.chunkStream, .createChunk m.chunkNo m.chunkStream.length]
      chunksCreated := m.chunksCreated + 1
      chunkNo := m.chunkNo + 1
      chunkStream := [] }

/-- `writeToChunk`. -/
def writeToChunk (σ : Settings) (m : Mem) (email : Text) : Mem :=
  let m := { m with
    chunkStream := m.chunkStream ++ [email]
    unknownCount := m.unknownCount + 1 }
  if chunkSize σ ≤ m.chunkStream.length then finalizeChunk m else m

/-- `recordCacheMiss`. -/
def recordCacheMiss (m : Mem) (email : Text) : Mem :=
  { m with cacheMissStream := some (m.cacheMissStream.getD [] ++ [email]) }

/-- The records a row of a cached output is read back as: one, unless the row has line
breaks of its own. -/
def cachedRecords (line : Text) : File :=
  VerificationResultsMerger.records (rtrimEol line ++ ['\n'])

/-- `writeCached`. -/
def writeCached (m : Mem) (status : OutputType) (line : Text) : Mem :=
  let stream := (m.cachedStreams.get status).getD [["email".toList, "reason".toList]]
  { m with cachedStreams :=
      m.cachedStreams.set status (some (stream ++ cachedRecords line)) }

/-- The status and the line `handleCacheHit` writes for an entry of the cache. -/
def hitLine (email : Text) : Hit → Option (OutputType × Text)
  | .other => none
  | .entry status outcome reasonCode row =>
      match OutputType.ofName? (strtolower ((status <|> outcome).getD [])) with
      | none => none
      | some t => some (t, row.getD (email ++ ',' :: trim (reasonCode.getD [])))

/-- `handleCacheHit`. -/
def handleCacheHit (m : Mem) (email : Text) (hit : Hit) : Mem :=
  match hitLine email hit with
  | some (status, line) => writeCached m status line
  | none => m

/-- `EngineSettings::cacheOnlyMissStatus`. -/
def cacheOnlyMissStatus (σ : Settings) : OutputType :=
  (OutputType.ofName? (strtolower (trim σ.cacheOnlyMissStatus))).getD .risky

/-- `$email.',cache_miss'`. -/
def missLine (email : Text) : Text := email ++ ",cache_miss".toList

/-- `handleCacheMiss`. -/
def handleCacheMiss (σ : Settings) (m : Mem) (email : Text) : Mem :=
  let m := if σ.cacheWritebackTestEnabled then recordCacheMiss m email else m
  writeCached m (cacheOnlyMissStatus σ) (missLine email)

/-- One round of the loop of `flushBatch`. -/
def flushEmail (σ : Settings) (hits : List (Text × Hit)) (m : Mem) (email : Text) : Mem :=
  match hits.lookup email with
  | some hit => handleCacheHit { m with cachedCount := m.cachedCount + 1 } email hit
  | none =>
      if m.cacheOnlyMode then handleCacheMiss σ m email
      else writeToChunk σ (recordCacheMiss m email) email

/-- The lookup of `flushBatch`, with its three ways to take a failure. -/
def lookupMany (σ : Settings) (m : Mem) : Except Mem (Mem × List (Text × Hit)) :=
  if m.skipCache then .ok (m, [])
  else
    match m.lookups with
    | [] => .ok (m, [])
    | .hits found :: rest => .ok ({ m with lookups := rest }, found)
    | .throws :: rest =>
        let m := { m with lookups := rest }
        match σ.cacheFailureMode with
        | .treatMiss => .ok (m, [])
        | .skipCache => .ok ({ m with skipCache := true, cacheOnlyMode := false }, [])
        | .failJob => .error m

/-- `flushBatch`. -/
def flushBatch (σ : Settings) (m : Mem) : Except Mem Mem :=
  if m.batch = [] then .ok m
  else
    match lookupMany σ m with
    | .error m => .error m
    | .ok (m, hits) => .ok { m.batch.foldl (flushEmail σ hits) m with batch := [] }

/-- `handleCandidate`. -/
def handleCandidate (php : Php) (σ : Settings) (m : Mem) (email : Text) : Except Mem Mem :=
  match normalizeEmail php email with
  | none => .ok m
  | some email =>
      if email ∈ m.seen then .ok m
      else
        let m := { m with seen := m.seen ++ [email], totalUnique := m.totalUnique + 1 }
        if 0 < maxEmails σ ∧ maxEmails σ < m.totalUnique then .error m
        else
          let m := { m with batch := m.batch ++ [email] }
          if cacheBatchSize σ ≤ m.batch.length then flushBatch σ m else .ok m

/-- One item of the input. -/
def handleFeed (php : Php) (σ : Settings) (m : Mem) : Feed → Except Mem Mem
  | .candidate email => handleCandidate php σ m email
  | .rowsEnd => flushBatch σ m

/-- The loop over the input. -/
def handleFeeds (php : Php) (σ : Settings) : Mem → List Feed → Except Mem Mem
  | m, [] => .ok m
  | m, f :: rest =>
      match handleFeed php σ m f with
      | .ok m => handleFeeds php σ m rest
      | .error m => .error m

/-- `configure`. -/
def configure (σ : Settings) (lookups : List Lookup) : Mem :=
  { cacheOnlyMode := σ.cacheOnlyEnabled, lookups := lookups }

/-- `handle` up to its last chunk. -/
def parse (php : Php) (σ : Settings) (upload : List Feed) (lookups : List Lookup) :
    Except Mem Mem :=
  match handleFeeds php σ (configure σ lookups) upload with
  | .error m => .error m
  | .ok m =>
      match flushBatch σ m with
      | .error m => .error m
      | .ok m => .ok (finalizeChunk m)

/-! ## What a cache lookup does to the memory -/

/-- `m'` is `m` after a lookup: an answer of the cache store is used up, and a
failure may have switched the cache off. -/
structure SameWork (m m' : Mem) : Prop where
  seen : m'.seen = m.seen
  totalUnique : m'.totalUnique = m.totalUnique
  chunksCreated : m'.chunksCreated = m.chunksCreated
  cachedStreams : m'.cachedStreams = m.cachedStreams
  batch : m'.batch = m.batch
  chunkStream : m'.chunkStream = m.chunkStream
  chunkNo : m'.chunkNo = m.chunkNo
  effects : m'.effects = m.effects
  cacheOnlyMode : m'.cacheOnlyMode = true → m.cacheOnlyMode = true
  lookups : ∀ l ∈ m'.lookups, l ∈ m.lookups

theorem SameWork.refl (m : Mem) : SameWork m m where
  seen := rfl
  totalUnique := rfl
  chunksCreated := rfl
  cachedStreams := rfl
  batch := rfl
  chunkStream := rfl
  chunkNo := rfl
  effects := rfl
  cacheOnlyMode h := h
  lookups _ h := h

theorem SameWork.answered {m : Mem} {l : Lookup} {rest : List Lookup}
    (h : m.lookups = l :: rest) : SameWork m { m with lookups := rest } :=
  { SameWork.refl m with lookups := fun l' hl' => by rw [h]; exact .tail _ hl' }

theorem lookupMany_ok {σ : Settings} {m m' : Mem} {found : List (Text × Hit)}
    (h : lookupMany σ m = .ok (m', found)) :
    SameWork m m' ∧ (found = [] ∨ .hits found ∈ m.lookups) := by
  unfold lookupMany at h
  split at h
  · cases h
    exact ⟨.refl m, .inl rfl⟩
  · split at h
    next => cases h; exact ⟨.refl m, .inl rfl⟩
    next hl =>
      cases h
      exact ⟨.answered hl, .inr (hl ▸ .head _)⟩
    next hl =>
      have hs := SameWork.answered hl
      cases hmode : σ.cacheFailureMode with
      | treatMiss =>
          simp only [hmode, Except.ok.injEq, Prod.mk.injEq] at h
          obtain ⟨rfl, rfl⟩ := h
          exact ⟨hs, .inl rfl⟩
      | skipCache =>
          simp only [hmode, Except.ok.injEq, Prod.mk.injEq] at h
          obtain ⟨rfl, rfl⟩ := h
          exact ⟨{ hs with cacheOnlyMode := nofun }, .inl rfl⟩
      | failJob => simp [hmode] at h

theorem lookupMany_error {σ : Settings} {m m' : Mem} (h : lookupMany σ m = .error m') :
    SameWork m m' := by
  unfold lookupMany at h
  split at h
  · exact nomatch h
  · split at h
    next => exact nomatch h
    next => exact nomatch h
    next hl =>
      cases hmode : σ.cacheFailureMode with
      | treatMiss => simp [hmode] at h
      | skipCache => simp [hmode] at h
      | failJob =>
          simp only [hmode, Except.error.injEq] at h
          exact h ▸ .answered hl

/-! ## The effects are numbered chunks -/

/-- The effects of writing `files` as the chunks from `chunkNo` on. -/
def chunkEffects : Nat → List (List Text) → List Effect
  | _, [] => []
  | chunkNo, file :: rest =>
      .putChunk chunkNo file :: .createChunk chunkNo file.length ::
        chunkEffects (chunkNo + 1) rest

theorem chunkEffects_append (chunkNo : Nat) (files : List (List Text)) (file : List Text) :
    chunkEffects chunkNo (files ++ [file]) = chunkEffects chunkNo files ++
      [.putChunk (chunkNo + files.length) file,
        .createChunk (chunkNo + files.length) file.length] := by
  induction files generalizing chunkNo with
  | nil => rfl
  | cons f rest ih =>
      have hno : chunkNo + 1 + rest.length = chunkNo + (rest.length + 1) := by omega
      simp [chunkEffects, ih, hno]

/-- The chunks written so far are `files`, numbered from one. -/
structure Wrote (m : Mem) (files : List (List Text)) : Prop where
  effects : m.effects = chunkEffects 1 files
  chunkNo : m.chunkNo = files.length + 1
  chunksCreated : m.chunksCreated = files.length
  nonempty : ∀ f ∈ files, f ≠ []

/-- Some chunks have been written, numbered from one. -/
def Numbered (m : Mem) : Prop := ∃ files, Wrote m files

/-- The memory a parse ends with, normally or by an exception. -/
def memOf : Except Mem Mem → Mem
  | .ok m => m
  | .error m => m

@[simp] theorem memOf_ok (m : Mem) : memOf (.ok m) = m := rfl
@[simp] theorem memOf_error (m : Mem) : memOf (.error m) = m := rfl

section Numbered
variable {php : Php} {σ : Settings}

/-- What does not touch the chunk counters keeps the numbering. -/
theorem Numbered.of_eq {m m' : Mem} (h : Numbered m) (heff : m'.effects = m.effects)
    (hno : m'.chunkNo = m.chunkNo) (hcr : m'.chunksCreated = m.chunksCreated) :
    Numbered m' := by
  obtain ⟨files, hw⟩ := h
  exact ⟨files, heff ▸ hw.effects, hno ▸ hw.chunkNo, hcr ▸ hw.chunksCreated, hw.nonempty⟩

theorem Numbered.finalizeChunk {m : Mem} (h : Numbered m) : Numbered (finalizeChunk m) := by
  obtain ⟨files, hw⟩ := h
  by_cases hc : m.chunkStream = []
  · rw [ParseAndChunkJob.finalizeChunk, if_pos hc]
    exact ⟨files, hw⟩
  · rw [ParseAndChunkJob.finalizeChunk, if_neg hc]
    refine ⟨files ++ [m.chunkStream], ?_, ?_, ?_, ?_⟩
    · have hno : m.chunkNo = 1 + files.length := by rw [hw.chunkNo]; omega
      rw [chunkEffects_append, ← hw.effects, ← hno]
    · simp [hw.chunkNo]
    · simp [hw.chunksCreated]
    · intro f hf
      rcases List.mem_append.mp hf with hf | hf
      · exact hw.nonempty f hf
      · rw [List.mem_singleton.mp hf]
        exact hc

theorem Numbered.writeToChunk {m : Mem} (h : Numbered m) (email : Text) :
    Numbered (writeToChunk σ m email) := by
  unfold ParseAndChunkJob.writeToChunk
  have h' : Numbered { m with
      chunkStream := m.chunkStream ++ [email], unknownCount := m.unknownCount + 1 } :=
    h.of_eq rfl rfl rfl
  simp only
  split
  · exact h'.finalizeChunk
  · exact h'

theorem Numbered.flushEmail {m : Mem} (h : Numbered m) (hits : List (Text × Hit))
    (email : Text) : Numbered (flushEmail σ hits m email) := by
  unfold ParseAndChunkJob.flushEmail
  split
  next hit _ =>
    unfold handleCacheHit
    split
    · exact h.of_eq rfl rfl rfl
    · exact h.of_eq rfl rfl rfl
  next =>
    split
    · unfold handleCacheMiss writeCached
      split
      · exact h.of_eq rfl rfl rfl
      · exact h.of_eq rfl rfl rfl
    · have h' : Numbered (recordCacheMiss m email) := h.of_eq rfl rfl rfl
      exact h'.writeToChunk email

theorem Numbered.flushEmails {m : Mem} (h : Numbered m) (hits : List (Text × Hit))
    (batch : List Text) : Numbered (batch.foldl (ParseAndChunkJob.flushEmail σ hits) m) := by
  induction batch generalizing m with
  | nil => exact h
  | cons email rest ih => exact ih (h.flushEmail hits email)

theorem Numbered.flushBatch {m : Mem} (h : Numbered m) :
    Numbered (memOf (flushBatch σ m)) := by
  unfold ParseAndChunkJob.flushBatch
  split
  · exact h
  · split
    next m' hm =>
      have hs := lookupMany_error hm
      exact h.of_eq hs.effects hs.chunkNo hs.chunksCreated
    next m' hits hm =>
      have hs := (lookupMany_ok hm).1
      have h' : Numbered m' := h.of_eq hs.effects hs.chunkNo hs.chunksCreated
      exact (h'.flushEmails hits m'.batch).of_eq rfl rfl rfl

theorem Numbered.handleFeed {m : Mem} (h : Numbered m) (f : Feed) :
    Numbered (memOf (handleFeed php σ m f)) := by
  cases f with
  | rowsEnd => exact h.flushBatch
  | candidate email =>
      show Numbered (memOf (handleCandidate php σ m email))
      unfold handleCandidate
      split
      · exact h
      · split
        · exact h
        · simp only
          split
          · exact h.of_eq rfl rfl rfl
          · split
            · exact Numbered.flushBatch (h.of_eq rfl rfl rfl)
            · exact h.of_eq rfl rfl rfl

theorem Numbered.handleFeeds {m : Mem} (h : Numbered m) (upload : List Feed) :
    Numbered (memOf (handleFeeds php σ m upload)) := by
  induction upload generalizing m with
  | nil => exact h
  | cons f rest ih =>
      have hf : Numbered (memOf (ParseAndChunkJob.handleFeed php σ m f)) := h.handleFeed f
      unfold ParseAndChunkJob.handleFeeds
      split
      next m' hm => rw [hm] at hf; exact ih hf
      next m' hm => rw [hm] at hf; exact hf

theorem numbered_configure (lookups : List Lookup) : Numbered (configure σ lookups) :=
  ⟨[], rfl, rfl, rfl, by simp⟩

/-- **Whatever a parse has written, and however it ended, is a list of nonempty
chunks numbered from one, each object followed by its row.** -/
theorem parse_numbered (php : Php) (σ : Settings) (upload : List Feed)
    (lookups : List Lookup) : Numbered (memOf (parse php σ upload lookups)) := by
  have h : Numbered (memOf (handleFeeds php σ (configure σ lookups) upload)) :=
    (numbered_configure lookups).handleFeeds upload
  unfold parse
  split
  next m hm => rw [hm] at h; exact h
  next m hm =>
    rw [hm, memOf_ok] at h
    have h' : Numbered (memOf (flushBatch σ m)) := h.flushBatch
    split
    next m' hm' => rw [hm'] at h'; exact h'
    next m' hm' => rw [hm'] at h'; exact h'.finalizeChunk

end Numbered

/-! ## What an upload is about -/

/-- `EmailDedupeStore::isNew`, as a fold step. -/
def remember (seen : List Text) (email : Text) : List Text :=
  if email ∈ seen then seen else seen ++ [email]

theorem mem_foldl_remember {l seen : List Text} {e : Text} :
    e ∈ l.foldl remember seen ↔ e ∈ seen ∨ e ∈ l := by
  induction l generalizing seen with
  | nil => simp
  | cons b l ih =>
    have hstep : e ∈ remember seen b ↔ e ∈ seen ∨ e = b := by
      unfold remember
      split
      · next hb =>
        refine ⟨.inl, fun h => h.elim id fun heq => heq ▸ hb⟩
      · simp
    rw [List.foldl_cons, ih, hstep, List.mem_cons, or_assoc]

/-- The address of an item of the input, when it passes `normalizeEmail`. -/
def feedEmail (php : Php) : Feed → Option Text
  | .candidate email => normalizeEmail php email
  | .rowsEnd => none

/-- The addresses an upload is about: each address that passes `normalizeEmail`,
once. -/
def accepted (php : Php) (upload : List Feed) : List Text :=
  (upload.filterMap (feedEmail php)).foldl remember []

end ValidEmailVerifier.ParseAndChunkJob
