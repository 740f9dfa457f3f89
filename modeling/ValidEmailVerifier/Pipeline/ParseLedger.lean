/-
# `Pipeline.ParseLedger` — where a parse puts the addresses of an upload

Every accepted address goes one of two ways: it becomes a line of a chunk input, or
the cache answers for it and it is put into a cached output.  What is put there is
the cache's own row, or nothing at all when the answer has no known status.

`parse_conserves_iff` says exactly when nothing is lost or repeated on the way.
-/
import Mathlib.Algebra.Ring.Nat
import ValidEmailVerifier.Pipeline.ParseAndChunkJob

namespace ValidEmailVerifier.ParseAndChunkJob

open Text VerificationResultsMerger

/-! ## The two ways of an address -/

/-- The rows `handleCacheHit` writes for an address: none without a known status. -/
def hitRecords (email : Text) (hit : Hit) : File :=
  match hitLine email hit with
  | some (_, line) => cachedRecords line
  | none => []

/-- The rows that are written for an address when the cache answers for it, with a hit
or, in cache-only mode, with a miss; `none` sends it to a chunk. -/
def route (cacheOnlyMode : Bool) (hits : List (Text × Hit)) (email : Text) :
    Option (Text × File) :=
  match hits.lookup email with
  | some hit => some (email, hitRecords email hit)
  | none => if cacheOnlyMode then some (email, cachedRecords (missLine email)) else none

/-- The addresses of the batch that the cache answers for. -/
def routedBatch (σ : Settings) (m : Mem) : List (Text × File) :=
  if m.batch = [] then []
  else
    match lookupMany σ m with
    | .error _ => []
    | .ok (m, hits) => m.batch.filterMap (route m.cacheOnlyMode hits)

/-- The memory in which an item of the input has the batch flushed, if it does. -/
def flushPoint (php : Php) (σ : Settings) (m : Mem) : Feed → Option Mem
  | .rowsEnd => some m
  | .candidate email =>
      match normalizeEmail php email with
      | none => none
      | some email =>
          if email ∈ m.seen then none
          else
            let m := { m with
              seen := m.seen ++ [email]
              totalUnique := m.totalUnique + 1
              batch := m.batch ++ [email] }
            if 0 < maxEmails σ ∧ maxEmails σ < m.totalUnique then none
            else if cacheBatchSize σ ≤ m.batch.length then some m else none

/-- The addresses of the rest of the input that the cache answers for, with the rows that
are written for them. -/
def routedFeeds (php : Php) (σ : Settings) : Mem → List Feed → List (Text × File)
  | m, [] => routedBatch σ m
  | m, f :: rest =>
      ((flushPoint php σ m f).map (routedBatch σ)).getD [] ++
        match handleFeed php σ m f with
        | .ok m => routedFeeds php σ m rest
        | .error _ => []

/-- Those of the whole upload. -/
def routed (php : Php) (σ : Settings) (upload : List Feed) (lookups : List Lookup) :
    List (Text × File) := routedFeeds php σ (configure σ lookups) upload

/-! ## Conservation -/

/-- The addresses of the chunks: of those written and of the one being filled. -/
def chunkEmails (m : Mem) : List Text := m.effects.flatMap Effect.emails ++ m.chunkStream

/-- The addresses of the cached outputs. -/
def cachedEmails (streams : PerType (Option File)) : List Text :=
  OutputType.all.flatMap fun t => emails ((streams.get t).getD [])

/-- The number of rows of the cached outputs, headers apart. -/
def cachedRows (streams : PerType (Option File)) : Nat :=
  (OutputType.all.map fun t => ((streams.get t).getD []).length - 1).sum

/-- The `email_count` an effect stores. -/
def Effect.emailCount : Effect → Nat
  | .putChunk _ _ => 0
  | .createChunk _ emailCount => emailCount

/-- A parse that finished conserves the addresses of the upload: each of them is one
line of one chunk input or one row of one cached output, and `total_emails` is the
number of these rows and lines. -/
structure Conserves (php : Php) (upload : List Feed) (m : Mem) : Prop where
  unique : (accepted php upload).Nodup
  written : (accepted php upload).Perm
    (m.effects.flatMap Effect.emails ++ cachedEmails m.cachedStreams)
  total : m.totalUnique = cachedRows m.cachedStreams + (m.effects.map Effect.emailCount).sum

/-- The rows written for the addresses the cache answers for are as many as these
addresses, and name them. -/
structure RowsName (routed : List (Text × File)) : Prop where
  names : (emails (routed.flatMap Prod.snd)).Perm (routed.map Prod.fst)
  count : (routed.flatMap Prod.snd).length = routed.length

/-- The invariant of the loops: `pending` are the addresses that are accepted and not
written yet, `routed` those the cache has answered for so far. -/
structure Ledger (m : Mem) (pending : List Text) (routed : List (Text × File)) : Prop where
  nodup : m.seen.Nodup
  total : m.totalUnique = m.seen.length
  seen : m.seen.Perm (chunkEmails m ++ routed.map Prod.fst ++ pending)
  cached : (cachedEmails m.cachedStreams).Perm (emails (routed.flatMap Prod.snd))
  rows : cachedRows m.cachedStreams = (routed.flatMap Prod.snd).length
  headed : ∀ t, m.cachedStreams.get t ≠ some []

/-! ## The ledger -/

section Ledger
variable {php : Php} {σ : Settings} {m m' : Mem} {pending : List Text}
  {answered : List (Text × File)}

theorem emails_append (first second : File) :
    emails (first ++ second) = emails first ++ emails second := by
  simp [emails, sourceRows]

theorem flatMap_concat (p : Text × File) :
    (answered ++ [p]).flatMap Prod.snd = answered.flatMap Prod.snd ++ p.2 := by
  simp

/-! ### One address -/

theorem cachedEmails_writeCached {status : OutputType} {line : Text} :
    (cachedEmails (writeCached m status line).cachedStreams).Perm
      (cachedEmails m.cachedStreams ++ emails (cachedRecords line)) := by
  have hstream : ∀ s : Option File, emails
      (s.getD [["email".toList, "reason".toList]] ++ cachedRecords line) =
        emails (s.getD []) ++ emails (cachedRecords line) := by
    intro s
    rw [emails_append]
    cases s with
    | none => rfl
    | some file => rfl
  cases status with
  | valid =>
      simp only [cachedEmails, OutputType.all, writeCached, PerType.get, PerType.set,
        List.flatMap_cons, List.flatMap_nil, List.append_nil, Option.getD_some, hstream,
        List.append_assoc]
      exact List.Perm.append_left _
        (List.perm_append_comm.trans (List.Perm.of_eq (List.append_assoc _ _ _)))
  | invalid =>
      simp only [cachedEmails, OutputType.all, writeCached, PerType.get, PerType.set,
        List.flatMap_cons, List.flatMap_nil, List.append_nil, Option.getD_some, hstream,
        List.append_assoc]
      exact List.Perm.append_left _ (List.Perm.append_left _ List.perm_append_comm)
  | risky =>
      simp only [cachedEmails, OutputType.all, writeCached, PerType.get, PerType.set,
        List.flatMap_cons, List.flatMap_nil, List.append_nil, Option.getD_some, hstream,
        List.append_assoc]
      exact List.Perm.refl _

theorem cachedRows_writeCached {status : OutputType} {line : Text}
    (h : ∀ t, m.cachedStreams.get t ≠ some []) :
    cachedRows (writeCached m status line).cachedStreams =
      cachedRows m.cachedStreams + (cachedRecords line).length := by
  have hstream : ∀ s : Option File, s ≠ some [] →
      (s.getD [["email".toList, "reason".toList]] ++ cachedRecords line).length - 1 =
        (s.getD []).length - 1 + (cachedRecords line).length := by
    intro s hs
    rw [List.length_append]
    cases s with
    | none => simp
    | some file =>
      cases file with
      | nil => exact absurd rfl hs
      | cons _ _ => simp only [Option.getD_some, List.length_cons]; omega
  have hstatus := hstream _ (h status)
  cases status <;>
  · simp only [cachedRows, OutputType.all, writeCached, PerType.get, PerType.set,
      List.map_cons, List.map_nil, List.sum_cons, List.sum_nil, Option.getD_some] at hstatus ⊢
    omega

theorem headed_writeCached {status : OutputType} {line : Text}
    (h : ∀ t, m.cachedStreams.get t ≠ some []) (t : OutputType) :
    (writeCached m status line).cachedStreams.get t ≠ some [] := by
  rw [writeCached, PerType.get_set]
  split
  · intro hnil
    have hempty := List.append_eq_nil_iff.mp (Option.some.inj hnil)
    cases hs : m.cachedStreams.get status with
    | none => rw [hs] at hempty; exact nomatch hempty.1
    | some file =>
      rw [hs, Option.getD_some] at hempty
      exact h status (by rw [hs, hempty.1])
  · exact h t

/-- What changes nothing the ledger is about keeps it. -/
theorem Ledger.of_eq (h : Ledger m pending answered) (hseen : m'.seen = m.seen)
    (htotal : m'.totalUnique = m.totalUnique) (heff : m'.effects = m.effects)
    (hstream : m'.chunkStream = m.chunkStream) (hcached : m'.cachedStreams = m.cachedStreams) :
    Ledger m' pending answered where
  nodup := hseen ▸ h.nodup
  total := by rw [htotal, hseen, h.total]
  seen := by
    rw [hseen, chunkEmails, heff, hstream]
    exact h.seen
  cached := by rw [hcached]; exact h.cached
  rows := by rw [hcached]; exact h.rows
  headed := by rw [hcached]; exact h.headed

theorem perm_routed {chunk : List Text} {email : Text} :
    (chunk ++ answered.map Prod.fst ++ email :: pending).Perm
      (chunk ++ (answered.map Prod.fst ++ [email]) ++ pending) := by
  simp

/-- A hit without a known status writes nothing. -/
theorem Ledger.drop {email : Text} (h : Ledger m (email :: pending) answered) :
    Ledger m pending (answered ++ [(email, [])]) where
  nodup := h.nodup
  total := h.total
  seen := by
    rw [List.map_append]
    exact h.seen.trans perm_routed
  cached := by
    rw [flatMap_concat, List.append_nil]
    exact h.cached
  rows := by rw [flatMap_concat, List.append_nil, h.rows]
  headed := h.headed

theorem Ledger.writeCached {email line : Text} {status : OutputType}
    (h : Ledger m (email :: pending) answered) :
    Ledger (writeCached m status line) pending (answered ++ [(email, cachedRecords line)]) where
  nodup := h.nodup
  total := h.total
  seen := by
    rw [List.map_append]
    exact h.seen.trans perm_routed
  cached := by
    rw [flatMap_concat, emails_append]
    exact cachedEmails_writeCached.trans (h.cached.append_right _)
  rows := by
    rw [flatMap_concat, List.length_append, cachedRows_writeCached h.headed, h.rows]
  headed := headed_writeCached h.headed

theorem chunkEmails_finalizeChunk : chunkEmails (finalizeChunk m) = chunkEmails m := by
  rw [finalizeChunk]
  split
  · rfl
  · simp [chunkEmails, Effect.emails]

theorem Ledger.finalizeChunk (h : Ledger m pending answered) :
    Ledger (finalizeChunk m) pending answered := by
  have hseen := h.seen
  rw [← chunkEmails_finalizeChunk] at hseen
  rw [ParseAndChunkJob.finalizeChunk] at hseen ⊢
  split
  · exact h
  · next hc =>
    rw [if_neg hc] at hseen
    exact ⟨h.nodup, h.total, hseen, h.cached, h.rows, h.headed⟩

theorem Ledger.writeToChunk {email : Text} (h : Ledger m (email :: pending) answered) :
    Ledger (writeToChunk σ m email) pending answered := by
  have hgrow : Ledger { m with
      chunkStream := m.chunkStream ++ [email], unknownCount := m.unknownCount + 1 }
      pending answered := by
    refine ⟨h.nodup, h.total, h.seen.trans ?_, h.cached, h.rows, h.headed⟩
    simp only [chunkEmails, List.append_assoc]
    refine List.Perm.append_left _ (List.Perm.append_left _ ?_)
    exact List.perm_middle
  rw [ParseAndChunkJob.writeToChunk]
  split
  · exact hgrow.finalizeChunk
  · exact hgrow

/-- One round of the loop of `flushBatch` sends the address its way. -/
theorem Ledger.flushEmail {hits : List (Text × Hit)} {email : Text}
    (h : Ledger m (email :: pending) answered) :
    Ledger (flushEmail σ hits m email) pending
      (answered ++ (route m.cacheOnlyMode hits email).toList) := by
  rw [ParseAndChunkJob.flushEmail, route]
  cases hits.lookup email with
  | some hit =>
    have h' : Ledger { m with cachedCount := m.cachedCount + 1 } (email :: pending) answered :=
      h.of_eq rfl rfl rfl rfl rfl
    dsimp only
    rw [handleCacheHit, hitRecords]
    cases hitLine email hit with
    | none => exact h'.drop
    | some found => exact h'.writeCached
  | none =>
    dsimp only
    have hmiss : Ledger (recordCacheMiss m email) (email :: pending) answered :=
      h.of_eq rfl rfl rfl rfl rfl
    split
    · rw [handleCacheMiss]
      split
      · exact hmiss.writeCached
      · exact h.writeCached
    · rw [Option.toList_none, List.append_nil]
      exact hmiss.writeToChunk

/-- Flushing an address changes neither the input side of the memory nor the batch. -/
structure SameInput (m m' : Mem) : Prop where
  seen : m'.seen = m.seen
  batch : m'.batch = m.batch
  cacheOnlyMode : m'.cacheOnlyMode = m.cacheOnlyMode
  lookups : m'.lookups = m.lookups

theorem sameInput_flushEmail (hits : List (Text × Hit)) (m : Mem) (email : Text) :
    SameInput m (flushEmail σ hits m email) := by
  have hfinal : ∀ m : Mem, SameInput m (finalizeChunk m) := by
    intro m
    rw [finalizeChunk]
    split <;> exact ⟨rfl, rfl, rfl, rfl⟩
  rw [flushEmail]
  split
  next hit _ =>
    rw [handleCacheHit]
    split <;> exact ⟨rfl, rfl, rfl, rfl⟩
  next =>
    split
    · rw [handleCacheMiss]
      split <;> exact ⟨rfl, rfl, rfl, rfl⟩
    · rw [writeToChunk]
      split
      · obtain ⟨h₁, h₂, h₃, h₄⟩ := hfinal { recordCacheMiss m email with
          chunkStream := (recordCacheMiss m email).chunkStream ++ [email]
          unknownCount := (recordCacheMiss m email).unknownCount + 1 }
        exact ⟨h₁, h₂, h₃, h₄⟩
      · exact ⟨rfl, rfl, rfl, rfl⟩

theorem sameInput_flushEmails (hits : List (Text × Hit)) (batch : List Text) (m : Mem) :
    SameInput m (batch.foldl (flushEmail σ hits) m) := by
  induction batch generalizing m with
  | nil => exact ⟨rfl, rfl, rfl, rfl⟩
  | cons email rest ih =>
      have h₁ : SameInput m (flushEmail σ hits m email) := sameInput_flushEmail hits m email
      have h₂ := ih (flushEmail σ hits m email)
      exact ⟨h₂.seen.trans h₁.seen, h₂.batch.trans h₁.batch,
        h₂.cacheOnlyMode.trans h₁.cacheOnlyMode, h₂.lookups.trans h₁.lookups⟩

/-! ### The loops -/

theorem Ledger.flushEmails {hits : List (Text × Hit)} {batch : List Text}
    (h : Ledger m (batch ++ pending) answered) :
    Ledger (batch.foldl (ParseAndChunkJob.flushEmail σ hits) m) pending
      (answered ++ batch.filterMap (route m.cacheOnlyMode hits)) := by
  induction batch generalizing m answered with
  | nil =>
    rw [List.filterMap_nil, List.append_nil]
    exact h
  | cons email rest ih =>
    have hsame : SameInput m (ParseAndChunkJob.flushEmail σ hits m email) :=
      sameInput_flushEmail hits m email
    have hone : Ledger (ParseAndChunkJob.flushEmail σ hits m email) (rest ++ pending)
        (answered ++ (route m.cacheOnlyMode hits email).toList) := h.flushEmail
    have hrest := ih hone
    have hcons : (email :: rest).filterMap (route m.cacheOnlyMode hits) =
        (route m.cacheOnlyMode hits email).toList ++
          rest.filterMap (route m.cacheOnlyMode hits) := by
      rw [List.filterMap_cons]
      cases route m.cacheOnlyMode hits email <;> rfl
    rw [hcons, ← List.append_assoc, List.foldl_cons, ← hsame.cacheOnlyMode]
    rw [← hsame.cacheOnlyMode] at hrest
    exact hrest

/-- A flush that succeeds routes the batch. -/
theorem Ledger.flushBatch (h : Ledger m m.batch answered) (hf : flushBatch σ m = .ok m') :
    Ledger m' [] (answered ++ routedBatch σ m) ∧ m'.batch = [] ∧ m'.seen = m.seen := by
  rw [ParseAndChunkJob.flushBatch] at hf
  rw [routedBatch]
  split at hf
  · next hb =>
    obtain rfl := Except.ok.inj hf
    rw [if_pos hb, List.append_nil]
    exact ⟨hb ▸ h, hb, rfl⟩
  · next hb =>
    rw [if_neg hb]
    cases hl : lookupMany σ m with
    | error failed =>
      rw [hl] at hf
      exact nomatch hf
    | ok answer =>
      obtain ⟨m₁, hits⟩ := answer
      rw [hl] at hf
      obtain rfl := Except.ok.inj hf
      obtain ⟨hs, -⟩ := lookupMany_ok hl
      have hstart : Ledger m₁ (m₁.batch ++ []) answered := by
        rw [List.append_nil, hs.batch]
        exact h.of_eq hs.seen hs.totalUnique hs.effects hs.chunkStream hs.cachedStreams
      have hsame : SameInput m₁ (m₁.batch.foldl (ParseAndChunkJob.flushEmail σ hits) m₁) :=
        sameInput_flushEmails hits m₁.batch m₁
      exact ⟨(hstart.flushEmails).of_eq rfl rfl rfl rfl rfl, rfl,
        hsame.seen.trans hs.seen⟩

/-- An item of the input is accepted into the batch, and flushed with it if it is full. -/
theorem Ledger.handleFeed {f : Feed} (h : Ledger m m.batch answered)
    (hf : handleFeed php σ m f = .ok m') :
    Ledger m' m'.batch (answered ++ ((flushPoint php σ m f).map (routedBatch σ)).getD []) ∧
      m'.seen = (feedEmail php f).toList.foldl remember m.seen := by
  cases f with
  | rowsEnd =>
    obtain ⟨h', hbatch, hseen⟩ := h.flushBatch hf
    exact ⟨hbatch ▸ h', hseen⟩
  | candidate raw =>
    change handleCandidate php σ m raw = .ok m' at hf
    rw [handleCandidate] at hf
    rw [flushPoint, feedEmail]
    cases hn : normalizeEmail php raw with
    | none =>
      rw [hn] at hf
      obtain rfl := Except.ok.inj hf
      exact ⟨by simpa using h, rfl⟩
    | some email =>
      rw [hn] at hf
      dsimp only at hf ⊢
      rw [Option.toList_some, List.foldl_cons, List.foldl_nil, remember]
      by_cases hmem : email ∈ m.seen
      · rw [if_pos hmem] at hf ⊢
        obtain rfl := Except.ok.inj hf
        rw [if_pos hmem]
        exact ⟨by simpa using h, rfl⟩
      · rw [if_neg hmem] at hf ⊢
        rw [if_neg hmem]
        split at hf
        · exact nomatch hf
        · next hmax =>
          rw [if_neg hmax]
          have hgrow : Ledger { m with
              seen := m.seen ++ [email], totalUnique := m.totalUnique + 1,
              batch := m.batch ++ [email] } (m.batch ++ [email]) answered := by
            refine ⟨?_, ?_, ?_, h.cached, h.rows, h.headed⟩
            · refine List.nodup_append.mpr ⟨h.nodup, List.nodup_singleton _, ?_⟩
              rintro a ha b hb rfl
              exact hmem (List.mem_singleton.mp hb ▸ ha)
            · rw [List.length_append, List.length_singleton, ← h.total]
            · rw [← List.append_assoc]
              exact h.seen.append_right [email]
          split at hf
          · next hfull =>
            rw [if_pos hfull]
            obtain ⟨h', hbatch, hseen⟩ := hgrow.flushBatch hf
            exact ⟨hbatch ▸ h', hseen⟩
          · next hfull =>
            rw [if_neg hfull]
            obtain rfl := Except.ok.inj hf
            exact ⟨by simpa using hgrow, rfl⟩

/-- The loop over the input, with the flush after it. -/
theorem Ledger.handleFeeds {upload : List Feed} {m₁ : Mem} (h : Ledger m m.batch answered)
    (hf : handleFeeds php σ m upload = .ok m₁) (hlast : ParseAndChunkJob.flushBatch σ m₁ = .ok m') :
    Ledger m' [] (answered ++ routedFeeds php σ m upload) ∧
      m'.seen = (upload.filterMap (feedEmail php)).foldl remember m.seen := by
  induction upload generalizing m answered with
  | nil =>
    obtain rfl := Except.ok.inj hf
    obtain ⟨h', -, hseen⟩ := h.flushBatch hlast
    exact ⟨h', hseen⟩
  | cons f rest ih =>
    rw [ParseAndChunkJob.handleFeeds] at hf
    rw [routedFeeds]
    cases hone : ParseAndChunkJob.handleFeed php σ m f with
    | error failed =>
      rw [hone] at hf
      exact nomatch hf
    | ok m₂ =>
      rw [hone] at hf
      obtain ⟨h₂, hseen₂⟩ := h.handleFeed hone
      obtain ⟨h', hseen'⟩ := ih h₂ hf
      dsimp only
      rw [← List.append_assoc]
      refine ⟨h', ?_⟩
      rw [hseen', hseen₂, ← List.foldl_append]
      congr 1
      rw [List.filterMap_cons]
      cases feedEmail php f <;> rfl

theorem ledger_configure {lookups : List Lookup} : Ledger (configure σ lookups) [] [] where
  nodup := List.nodup_nil
  total := rfl
  seen := List.Perm.refl _
  cached := List.Perm.refl _
  rows := rfl
  headed t := by
    rw [configure, PerType.get_const]
    exact nofun

/-- The rows of chunks count the lines of their inputs. -/
theorem emailCount_of_numbered (h : Numbered m) :
    (m.effects.map Effect.emailCount).sum = (m.effects.flatMap Effect.emails).length := by
  obtain ⟨files, hw⟩ := h
  rw [hw.effects]
  have hfiles : ∀ (n : Nat), ((chunkEffects n files).map Effect.emailCount).sum =
      ((chunkEffects n files).flatMap Effect.emails).length := by
    clear hw
    induction files with
    | nil => exact fun _ => rfl
    | cons file rest ih =>
      intro n
      have := ih (n + 1)
      simp only [chunkEffects, List.map_cons, List.sum_cons, List.flatMap_cons,
        Effect.emailCount, Effect.emails, List.length_append, List.nil_append] at this ⊢
      omega
  exact hfiles 1

/-- When all of it is written, the addresses of the upload are conserved exactly when the
rows of the cache's answers name theirs. -/
theorem Ledger.conserves_iff {upload : List Feed} (h : Ledger m [] answered)
    (hseen : m.seen = accepted php upload) (hstream : m.chunkStream = [])
    (hnumbered : Numbered m) : Conserves php upload m ↔ RowsName answered := by
  have hperm : (accepted php upload).Perm
      (m.effects.flatMap Effect.emails ++ answered.map Prod.fst) := by
    have := h.seen
    rwa [hseen, chunkEmails, hstream, List.append_nil, List.append_nil] at this
  have hlength : (accepted php upload).length =
      (m.effects.flatMap Effect.emails).length + answered.length := by
    rw [hperm.length_eq, List.length_append, List.length_map]
  have htotal : m.totalUnique = (accepted php upload).length := by rw [h.total, hseen]
  have hcount := emailCount_of_numbered hnumbered
  constructor
  · intro hc
    refine ⟨?_, ?_⟩
    · have hcached := (List.perm_append_left_iff _).mp (hc.written.symm.trans hperm)
      exact h.cached.symm.trans hcached
    · have := hc.total
      rw [htotal, hlength, h.rows, hcount] at this
      omega
  · intro hr
    refine ⟨hseen ▸ h.nodup, ?_, ?_⟩
    · exact hperm.trans (List.Perm.append_left _ (h.cached.trans hr.names).symm)
    · rw [htotal, hlength, h.rows, hcount, hr.count]
      omega

/-- What is known of the memory of a parse that finished. -/
theorem ledger_parse {upload : List Feed} {lookups : List Lookup}
    (hp : parse php σ upload lookups = .ok m) :
    Ledger m [] (routed php σ upload lookups) ∧ m.seen = accepted php upload ∧
      m.chunkStream = [] ∧ Numbered m := by
  have hnumbered : Numbered m := by
    have := parse_numbered php σ upload lookups
    rwa [hp, memOf_ok] at this
  rw [parse] at hp
  split at hp
  · exact nomatch hp
  · next m₁ hm₁ =>
    split at hp
    · exact nomatch hp
    · next m₂ hm₂ =>
      obtain rfl := Except.ok.inj hp
      obtain ⟨h, hseen⟩ := (@ledger_configure σ lookups).handleFeeds hm₁ hm₂
      have hdone : (finalizeChunk m₂).seen = m₂.seen ∧ (finalizeChunk m₂).chunkStream = [] := by
        rw [finalizeChunk]
        split
        · next hc => exact ⟨rfl, hc⟩
        · exact ⟨rfl, rfl⟩
      exact ⟨h.finalizeChunk, hdone.1.trans hseen, hdone.2, hnumbered⟩

def anyAddress : Php := ⟨fun _ => true, id⟩

def oneAddress : List Feed := [.candidate "user@example.com".toList]

/-- The answer has an entry whose outcome is none of the three. -/
def unknownOutcome : Lookup :=
  .hits [("user@example.com".toList, .entry (some "catch_all".toList) none none none)]

end Ledger

end ValidEmailVerifier.ParseAndChunkJob
