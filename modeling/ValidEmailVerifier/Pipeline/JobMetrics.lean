/-
# `Pipeline.JobMetrics` — the counters of a job count every address once

The end of a parse sets the screening total to the number of addresses in chunks, and the
counters of the probe stage to zero; a completion adds to the value it has read.  So the
total counts an address twice when its chunk is completed after the parse, and the
candidates of a chunk that is completed before the end of the parse are forgotten.

`exact_of_accountable` is the law under the condition of `Pipeline.CounterAccounts`: once
parsing has ended, and no completion is between its first write and its last, the three
counters are what they should be.  `exact_fails` is a job of one address.
-/
import Mathlib
import ValidEmailVerifier.Pipeline.CounterAccounts

namespace ValidEmailVerifier.JobMetrics

open Processes ParseAndChunkJob

/-! ## What a parse counts -/

section Parse
variable {php : Php} {σ : Settings} {m m' : Mem}

/-- The addresses without a cached result are those of the chunks, written or still open. -/
def CountsChunks (m : Mem) : Prop :=
  m.unknownCount = (m.effects.map Effect.emailCount).sum + m.chunkStream.length

theorem CountsChunks.of_eq (h : CountsChunks m) (hunknown : m'.unknownCount = m.unknownCount)
    (heffects : m'.effects = m.effects) (hstream : m'.chunkStream = m.chunkStream) :
    CountsChunks m' := by
  unfold CountsChunks
  rw [hunknown, heffects, hstream]
  exact h

theorem CountsChunks.finalizeChunk (h : CountsChunks m) : CountsChunks (finalizeChunk m) := by
  unfold ParseAndChunkJob.finalizeChunk
  split
  · exact h
  · unfold CountsChunks at h ⊢
    simp [Effect.emailCount, h]

theorem CountsChunks.writeToChunk (h : CountsChunks m) (email : Text) :
    CountsChunks (writeToChunk σ m email) := by
  have h' : CountsChunks { m with
      chunkStream := m.chunkStream ++ [email], unknownCount := m.unknownCount + 1 } := by
    unfold CountsChunks at h ⊢
    simp only [List.length_append, List.length_singleton, h]
    omega
  unfold ParseAndChunkJob.writeToChunk
  simp only
  split
  · exact h'.finalizeChunk
  · exact h'

theorem CountsChunks.flushEmail (h : CountsChunks m) (hits : List (Text × Hit)) (email : Text) :
    CountsChunks (flushEmail σ hits m email) := by
  unfold ParseAndChunkJob.flushEmail
  split
  · unfold handleCacheHit
    split
    · exact h.of_eq rfl rfl rfl
    · exact h.of_eq rfl rfl rfl
  · split
    · unfold handleCacheMiss writeCached
      split
      · exact h.of_eq rfl rfl rfl
      · exact h.of_eq rfl rfl rfl
    · have h' : CountsChunks (recordCacheMiss m email) := h.of_eq rfl rfl rfl
      exact h'.writeToChunk email

theorem CountsChunks.flushEmails (hits : List (Text × Hit)) (batch : List Text) :
    ∀ {m : Mem}, CountsChunks m →
      CountsChunks (batch.foldl (ParseAndChunkJob.flushEmail σ hits) m) := by
  induction batch with
  | nil => exact fun {_} h => h
  | cons email batch ih => exact fun {_} h => ih (h.flushEmail hits email)

theorem CountsChunks.lookupMany {hits : List (Text × Hit)} (h : CountsChunks m)
    (hm : lookupMany σ m = .ok (m', hits)) : CountsChunks m' := by
  unfold ParseAndChunkJob.lookupMany at hm
  split at hm
  · cases hm
    exact h
  · split at hm
    · cases hm
      exact h
    · cases hm
      exact h.of_eq rfl rfl rfl
    · cases hmode : σ.cacheFailureMode with
      | treatMiss =>
          simp only [hmode, Except.ok.injEq, Prod.mk.injEq] at hm
          rw [← hm.1]
          exact h.of_eq rfl rfl rfl
      | skipCache =>
          simp only [hmode, Except.ok.injEq, Prod.mk.injEq] at hm
          rw [← hm.1]
          exact h.of_eq rfl rfl rfl
      | failJob => simp [hmode] at hm

theorem CountsChunks.flushBatch (h : CountsChunks m) (hm : flushBatch σ m = .ok m') :
    CountsChunks m' := by
  unfold ParseAndChunkJob.flushBatch at hm
  split at hm
  · cases hm
    exact h
  · split at hm
    · exact nomatch hm
    next m₁ hits hlookup =>
      cases hm
      have hflushed := CountsChunks.flushEmails (σ := σ) hits m₁.batch (h.lookupMany hlookup)
      exact hflushed.of_eq rfl rfl rfl

theorem CountsChunks.handleFeed {f : Feed} (h : CountsChunks m)
    (hm : handleFeed php σ m f = .ok m') : CountsChunks m' := by
  cases f with
  | rowsEnd => exact h.flushBatch hm
  | candidate email =>
      have hm : handleCandidate php σ m email = .ok m' := hm
      unfold handleCandidate at hm
      split at hm
      · cases hm
        exact h
      · split at hm
        · cases hm
          exact h
        · simp only at hm
          split at hm
          · exact nomatch hm
          · split at hm
            · refine CountsChunks.flushBatch ?_ hm
              exact h.of_eq rfl rfl rfl
            · cases hm
              exact h.of_eq rfl rfl rfl

theorem CountsChunks.handleFeeds (upload : List Feed) :
    ∀ {m m' : Mem}, CountsChunks m → handleFeeds php σ m upload = .ok m' → CountsChunks m' := by
  induction upload with
  | nil =>
      intro m m' h hm
      cases hm
      exact h
  | cons f upload ih =>
      intro m m' h hm
      unfold ParseAndChunkJob.handleFeeds at hm
      split at hm
      next m₁ hf => exact ih (h.handleFeed hf) hm
      next => exact nomatch hm

/-- **The unknown count of a finished parse** is the sum over the chunks it has written. -/
theorem unknownCount_parse {upload : List Feed} {lookups : List Lookup}
    (h : parse php σ upload lookups = .ok m) :
    m.unknownCount = (m.effects.map Effect.emailCount).sum := by
  unfold parse at h
  split at h
  · exact nomatch h
  next m₁ hfeeds =>
    split at h
    · exact nomatch h
    next m₂ hflush =>
      cases h
      have hstart : CountsChunks (configure σ lookups) := rfl
      have hend := ((hstart.handleFeeds upload hfeeds).flushBatch hflush).finalizeChunk
      have hclosed : (finalizeChunk m₂).chunkStream = [] := by
        unfold finalizeChunk
        split
        next hnil => exact hnil
        next => rfl
      rw [hend, hclosed]
      rfl

end Parse

/-! ## The code of a parse -/

/-- An instruction that creates a chunk or writes totals. -/
def books : Instr → Bool
  | .createChunk _ _ _ | .updateTotals _ _ | .resetMetrics _ => true
  | _ => false

/-- The addresses of the chunk an instruction creates. -/
def createdCount : Instr → Nat
  | .createChunk _ _ emailCount => emailCount
  | _ => 0

/-- The code of a parse, when `booked` addresses are in screening chunks: the total it will
write is that and what it will still put into chunks, it is written after all of them, and no
update of the job is left without it. -/
structure Parsing (code : List Instr) (booked : Nat) : Prop where
  total : ∀ total, .resetMetrics total ∈ code → booked + (code.map createdCount).sum = total
  order : code.Pairwise fun i j => isReset i = true → books j = false
  prepares : ∀ job totals, .updateTotals job totals ∈ code → code.any isReset = true

section Parsing
variable {php : Php} {p : Nat} {s s' : Store} {i j : Instr} {code rest : List Instr}
  {booked booked' : Nat}

/-- Code that no parse has written. -/
theorem Parsing.of_noBooks (h : ∀ i ∈ code, books i = false) : Parsing code booked where
  total := by
    intro total hmem
    exact nomatch h _ hmem
  order := List.pairwise_of_forall_mem_list fun _ _ j hj _ => h j hj
  prepares := by
    intro job totals hmem
    exact nomatch h _ hmem

/-- Code without a total to write does not depend on the chunks. -/
theorem Parsing.of_noReset (h : Parsing code booked) (hno : code.any isReset = false) :
    Parsing code booked' where
  total := by
    intro total hmem
    have hyes := List.any_eq_false.mp hno _ hmem
    exact absurd rfl hyes
  order := h.order
  prepares := h.prepares

theorem createdCount_of_noBooks (h : ∀ i ∈ code, books i = false) :
    (code.map createdCount).sum = 0 := by
  refine List.sum_eq_zero fun n hn => ?_
  obtain ⟨i, hi, rfl⟩ := List.mem_map.mp hn
  have hno := h i hi
  cases i with
  | createChunk => exact nomatch hno
  | _ => rfl

/-- Nothing but a parse books. -/
theorem books_leads (h : Leads s i j) : books j = false := by
  cases h <;> rfl

/-- After the totals nothing is booked. -/
theorem Parsing.last (h : Parsing (i :: rest) booked) (hi : isReset i = true) :
    ∀ j ∈ rest, books j = false := by
  intro j hj
  exact (List.pairwise_cons.mp h.order).1 j hj hi

/-- An update of the job has the totals behind it. -/
theorem Parsing.resets {job : Job} {totals : Totals}
    (h : Parsing (.updateTotals job totals :: rest) booked) : rest.any isReset = true :=
  h.prepares job totals (.head _)

/-- **An instruction of a parse** puts its chunk among the screening chunks. -/
theorem Parsing.go (h : Parsing (i :: rest) booked)
    (hexec : exec php p i s = some (s', .go code)) :
    Parsing (code ++ rest) (booked + createdCount i) := by
  have hcode : ∀ j ∈ code, books j = false := fun j hj => books_leads (exec_leads hexec j hj)
  refine ⟨?_, ?_, ?_⟩
  · intro total hmem
    rcases List.mem_append.mp hmem with hmem | hmem
    · exact nomatch hcode _ hmem
    · have htotal := h.total total (.tail _ hmem)
      rw [List.map_cons, List.sum_cons] at htotal
      rw [List.map_append, List.sum_append, createdCount_of_noBooks hcode]
      omega
  · refine List.pairwise_append.mpr
      ⟨List.pairwise_of_forall_mem_list fun _ _ j hj _ => hcode j hj,
        (List.pairwise_cons.mp h.order).2, ?_⟩
    intro a ha b _ hreset
    have hno := hcode a ha
    cases a with
    | resetMetrics => exact nomatch hno
    | _ => exact nomatch hreset
  · intro job totals hmem
    rcases List.mem_append.mp hmem with hmem | hmem
    · exact nomatch hcode _ hmem
    · have hany := h.prepares job totals (.tail _ hmem)
      rw [List.any_cons, Bool.or_eq_true] at hany
      rw [List.any_append, Bool.or_eq_true]
      rcases hany with hi | hrest
      · exact nomatch h.last hi _ hmem
      · exact .inr hrest

/-- An instruction that creates a chunk, or books nothing. -/
def creates (i : Instr) : Bool :=
  match i with
  | .createChunk _ _ _ => true
  | _ => !books i

theorem Parsing.prepend {front back : List Instr} (hfront : ∀ i ∈ front, creates i = true)
    (h : Parsing back (booked + (front.map createdCount).sum)) :
    Parsing (front ++ back) booked := by
  refine ⟨?_, ?_, ?_⟩
  · intro total hmem
    rcases List.mem_append.mp hmem with hmem | hmem
    · exact nomatch hfront _ hmem
    · rw [List.map_append, List.sum_append, ← Nat.add_assoc]
      exact h.total total hmem
  · refine List.pairwise_append.mpr ⟨?_, h.order, ?_⟩
    · refine List.pairwise_of_forall_mem_list fun a ha b _ hreset => ?_
      have hcreates := hfront a ha
      cases a with
      | resetMetrics => exact nomatch hcreates
      | _ => exact nomatch hreset
    · intro a ha b _ hreset
      have hcreates := hfront a ha
      cases a with
      | resetMetrics => exact nomatch hcreates
      | _ => exact nomatch hreset
  · intro job totals hmem
    rcases List.mem_append.mp hmem with hmem | hmem
    · exact nomatch hfront _ hmem
    · rw [List.any_append, h.prepares job totals hmem, Bool.or_true]

/-- The last instructions of a parse that ends. -/
theorem parsing_totals {job : Job} {totals : Totals} (h : ∀ i ∈ rest, books i = false) :
    Parsing (.updateTotals job totals :: .resetMetrics booked :: rest) booked where
  total := by
    intro total hmem
    have hsum := createdCount_of_noBooks h
    simp only [List.mem_cons, reduceCtorEq, false_or, Instr.resetMetrics.injEq] at hmem
    rcases hmem with rfl | hmem
    · simp [createdCount, hsum]
    · exact nomatch h _ hmem
  order := by
    refine List.pairwise_cons.mpr ⟨?_, List.pairwise_cons.mpr ⟨?_, ?_⟩⟩
    · intro j _ hreset
      exact nomatch hreset
    · intro j hj _
      exact h j hj
    · exact List.pairwise_of_forall_mem_list fun _ _ j hj _ => h j hj
  prepares := fun _ _ _ => rfl

theorem creates_effectCode (disk : Disk) (effects : List ParseAndChunkJob.Effect) :
    ∀ i ∈ effects.map (effectCode disk), creates i = true := by
  intro i hi
  obtain ⟨e, -, rfl⟩ := List.mem_map.mp hi
  cases e with
  | putChunk => rfl
  | createChunk => rfl

theorem createdCount_effectCode (disk : Disk) (effects : List ParseAndChunkJob.Effect) :
    ((effects.map (effectCode disk)).map createdCount).sum =
      (effects.map Effect.emailCount).sum := by
  rw [List.map_map]
  congr 1
  refine List.map_congr_left fun e _ => ?_
  cases e with
  | putChunk => rfl
  | createChunk => rfl

/-- The cached outputs and the list of misses create no chunk. -/
theorem noBooks_cached {disk : Disk} {m : Mem} :
    ∀ i ∈ cachedPuts disk m.cachedStreams ++ cacheMissPut disk m.cacheMissStream,
      books i = false := by
  intro i hi
  rcases List.mem_append.mp hi with hi | hi
  · obtain ⟨t, -, ht⟩ := List.mem_filterMap.mp hi
    obtain ⟨file, -, rfl⟩ := Option.map_eq_some_iff.mp ht
    rfl
  · obtain ⟨emails, -, rfl⟩ := List.mem_map.mp hi
    rfl

theorem creates_of_noBooks (h : books i = false) : creates i = true := by
  cases i with
  | createChunk => rfl
  | updateTotals => exact nomatch h
  | resetMetrics => exact nomatch h
  | _ => rfl

/-- **A parse books what it counts.** -/
theorem parsing_parseCode (php : Php) (σ : Settings) (job : Job) (upload : Option (List Feed))
    (lookups : List Lookup) : Parsing (parseCode php σ job upload lookups) 0 := by
  have hfail : ∀ {job : Job} {message : String} {booked : Nat},
      Parsing [.failJob job message] booked := by
    intro job message booked
    exact .of_noBooks (List.forall_mem_singleton.mpr rfl)
  unfold parseCode
  simp only
  split
  · exact hfail
  next feeds =>
    split
    next m hm =>
      refine .prepend (creates_effectCode _ _) ?_
      rw [createdCount_effectCode, Nat.zero_add, ← unknownCount_parse hm]
      unfold finishParse
      rw [List.append_assoc]
      refine .prepend (fun i hi => creates_of_noBooks (noBooks_cached i hi)) ?_
      rw [createdCount_of_noBooks noBooks_cached, Nat.add_zero]
      refine parsing_totals fun i hi => ?_
      split at hi
      · rw [List.mem_singleton.mp hi]
        rfl
      · exact nomatch hi
    next => exact .prepend (creates_effectCode _ _) hfail

end Parsing

/-! ## The email counts of the screening chunks -/

section Sums
variable {php : Php} {p : Nat} {s s' : Store} {i : Instr} {rest code : List Instr}

/-- Transactions insert probe chunks only. -/
theorem stage_of_commit (h : Course p s (.commit :: rest)) {t : Txn} (hopen : s.txn = some t) :
    ∀ row ∈ t.rows, row.stage = .smtpProbe := by
  have howned : ∀ {rows : List Chunk}, s.txn = some ⟨p, rows⟩ → t.rows = rows := by
    intro rows howns
    rw [hopen, Option.some.injEq] at howns
    rw [howns]
  cases h with
  | quiet hquiet => exact nomatch hquiet _ (.head _)
  | hand howns hrows hhands =>
      rw [howned howns]
      exact hrows
  | complete hcompletes => cases hcompletes
  | retry hretries =>
      cases hretries with
      | step hi => exact nomatch hi
  | reinsert howns hrows hin =>
      rw [howned howns]
      exact fun row hrow => (hrows row hrow).1

theorem screened_of_probe {row : Chunk} (h : row.stage = .smtpProbe) : screened row = 0 := by
  simp [screened, h]

theorem screeningSum_of_chunks (h : s'.chunks = s.chunks) : screeningSum s' = screeningSum s := by
  unfold screeningSum
  rw [h]

theorem screeningSum_append {rows : List Chunk} (h : s'.chunks = s.chunks ++ rows) :
    screeningSum s' = screeningSum s + (rows.map screened).sum := by
  unfold screeningSum
  rw [h, List.map_append, List.sum_append]

/-- A write that keeps the counts. -/
theorem screeningSum_update {id : Nat} {model filled : Chunk}
    (hkeeps : keepsCounts s id model filled = true)
    (h : s'.chunks = Table.update Chunk.id s.chunks id (Chunk.update model filled)) :
    screeningSum s' = screeningSum s := by
  unfold screeningSum
  rw [h, Table.map_update]
  intro row hrow hid
  have hrow' := List.all_eq_true.mp hkeeps row hrow
  simpa [hid] using hrow'

/-- A failure writes no email count. -/
theorem screened_failedAttempt (σ : Settings) (chunk row : Chunk) (retryable : Bool) :
    screened (Chunk.update chunk (chunk.failedAttempt σ retryable) row) = screened row := by
  have hcount : (Chunk.update chunk (chunk.failedAttempt σ retryable) row).emailCount =
      row.emailCount := dirty_clean _ _
  unfold screened Chunk.stage
  rw [hcount]
  rfl

/-- **The email counts of the screening chunks** grow by the chunks that are created. -/
theorem screeningSum_go {others : State} (hcourse : Course p s (i :: rest))
    (hkeeps : keepsAccounts s others i = true)
    (hexec : exec php p i s = some (s', .go code)) :
    screeningSum s' = screeningSum s + createdCount i := by
  by_cases hcreate : ∃ disk chunkNo emailCount, i = .createChunk disk chunkNo emailCount
  · obtain ⟨disk, chunkNo, emailCount, rfl⟩ := hcreate
    simp only [exec, createChunk] at hexec
    split at hexec
    · cases hexec
    · split at hexec
      · cases hexec
      · cases hexec
        rw [screeningSum_append rfl]
        simp [screened, Chunk.stage, createdCount]
  · have hnone : createdCount i = 0 := by
      cases i with
      | createChunk disk chunkNo emailCount => exact absurd ⟨_, _, _, rfl⟩ hcreate
      | _ => rfl
    rw [hnone, Nat.add_zero]
    cases exec_change hexec with
    | keep hchunks _ => exact screeningSum_of_chunks hchunks
    | create => exact absurd ⟨_, _, _, rfl⟩ hcreate
    | lock _ _ hchunks _ => exact screeningSum_of_chunks hchunks
    | stage _ _ hchunks _ => exact screeningSum_of_chunks hchunks
    | violation _ hs =>
        rw [hs]
        exact screeningSum_of_chunks (Store.rollback_chunks p)
    | @commit t _ hopen hchunks _ =>
        have hzero : (t.rows.map screened).sum = 0 := by
          refine List.sum_eq_zero fun n hn => ?_
          obtain ⟨row, hrow, rfl⟩ := List.mem_map.mp hn
          exact screened_of_probe (stage_of_commit hcourse hopen row hrow)
        rw [screeningSum_append hchunks, hzero, Nat.add_zero]
    | write hwrites hchunks _ =>
        cases hwrites with
        | completed r => exact screeningSum_update hkeeps hchunks
        | parent chunk key filteredCount => exact screeningSum_update hkeeps hchunks
        | failed chunk retryable =>
            refine screeningSum_update ?_ hchunks
            refine List.all_eq_true.mpr fun row _ => ?_
            simp [screened_failedAttempt]

theorem screeningSum_end (h : s' = s ∨ s' = s.rollback p) : screeningSum s' = screeningSum s := by
  rcases h with rfl | rfl
  · rfl
  · exact screeningSum_of_chunks (Store.rollback_chunks p)

/-- Only the end of a parse prepares the job. -/
theorem prepared_exec {n : Next Instr} (hi : ∀ job totals, i ≠ .updateTotals job totals)
    (hexec : exec php p i s = some (s', n)) : prepared s' = prepared s := by
  unfold prepared
  rcases (exec_frame hexec).job with hjob | ⟨model, filled, hwrites, hjob⟩
  · rw [hjob]
  · rw [hjob]
    cases hwrites with
    | totals job totals => exact absurd rfl (hi _ _)
    | failJob job message => simp [Job.update, prepareFailedJob]
    | completed job disk counts => simp [Job.update, FinalizeVerificationJob.completed]
    | failed job message => simp [Job.update, FinalizeVerificationJob.failed]

end Sums

/-! ## The screening total -/

/-- A screening total that is still to be written is the one that is there. -/
def CurrentTotal (m : Metrics) (i : Instr) : Prop :=
  ∀ id total candidates, i = .saveMetrics id (.screening total candidates) →
    total = m.screeningTotalCount

/-- Once the job is prepared and no total is to come, the total is the sum of the screening
chunks. -/
def Counted (c : State) : Prop :=
  prepared c.store = true → ahead c isReset = false →
    c.store.metrics.screeningTotalCount = screeningSum c.store ∧
      EachInstr (fun _ => CurrentTotal c.store.metrics) c

/-- At most one process has something to book. -/
def OneBooks (c : State) : Prop :=
  ∀ (p q : Nat) (k k' : Kind) (code code' : List Instr), c.At p k code → c.At q k' code' →
    code.any books = true → code'.any books = true → p = q

/-- What the runs keep. -/
structure Screening (c : State) : Prop where
  kinds : EachInstr (fun k i => books i = true → isParse k = true) c
  sole : OneBooks c
  parsing : Outline (fun _ => True) (fun _ _ code s => Parsing code (screeningSum s)) c
  counted : Counted c

section Screening
variable {php : Php} {c c' : State} {a : Action} {p : Nat} {k : Kind} {i : Instr}
  {rest code old : List Instr} {s' : Store} {f : Instr → Bool}

/-! ### What is still to come -/

theorem ahead_of_spawn (h : ahead c f = true) : ahead (c.spawn k code) f = true := by
  obtain ⟨q, k', code', hat, hany⟩ := ahead_iff.mp h
  exact ahead_iff.mpr ⟨q, k', code', Conf.at_spawn.mpr (.inl hat), hany⟩

variable (code) in
theorem ahead_of_setCode (hat : c.At p k old) (h : ahead c f = true) :
    ahead (c.setCode p code) f = true ∨ old.any f = true := by
  obtain ⟨q, k', code', hq, i, hi, hf⟩ := ahead_iff.mp h
  by_cases hqp : q = p
  · subst hqp
    obtain ⟨-, rfl⟩ := Conf.At.unique hq hat
    exact .inr (List.any_eq_true.mpr ⟨i, hi, hf⟩)
  · exact .inl (ahead_iff.mpr ⟨q, k', code', Conf.at_setCode.mpr (.inr ⟨hqp, hq⟩), i, hi, hf⟩)

theorem ahead_setCode_mono (hat : c.At p k old) (hsub : ∀ i ∈ rest, i ∈ code)
    (h : ahead (c.setCode p code) f = false) : ahead (c.setCode p rest) f = false := by
  by_contra hne
  obtain ⟨q, k', code', hq, i, hi, hf⟩ := ahead_iff.mp (Bool.not_eq_false _ ▸ hne)
  have hyes : ahead (c.setCode p code) f = true := by
    rcases Conf.at_setCode.mp hq with ⟨rfl, rfl, -⟩ | ⟨hqp, hq⟩
    · exact ahead_iff.mpr ⟨q, k, code, Conf.at_setCode.mpr (.inl ⟨rfl, rfl, _, hat⟩), i,
        hsub i hi, hf⟩
    · exact ahead_iff.mpr ⟨q, k', code', Conf.at_setCode.mpr (.inr ⟨hqp, hq⟩), i, hi, hf⟩
  rw [h] at hyes
  exact nomatch hyes

/-! ### One instruction -/

/-- A total is written by a parse, or by a completion that has read it. -/
theorem screeningTotal_exec {n : Next Instr} (hreset : isReset i = false)
    (hcurrent : CurrentTotal c.store.metrics i) (hexec : exec php p i c.store = some (s', n)) :
    s'.metrics.screeningTotalCount = c.store.metrics.screeningTotalCount := by
  by_cases hwrites : writesCounters i = false
  · rw [exec_metrics hwrites hexec]
  · cases i with
    | resetMetrics => exact nomatch hreset
    | saveMetrics id write =>
        cases hexec
        cases write with
        | screening total candidates => exact hcurrent id total candidates rfl
        | probe completed unknown => rfl
    | _ => exact absurd rfl hwrites

/-- What a completion has read after the parse it writes back as it was. -/
theorem currentTotal_code (hkeeps : keepsAccounts c.store (c.setCode p rest) i = true)
    (hprepared : prepared c.store = true) (hno : ahead (c.setCode p rest) isReset = false)
    (hexec : exec php p i c.store = some (s', .go code)) :
    ∀ j ∈ code, CurrentTotal c.store.metrics j := by
  intro j hj id total candidates hsave
  subst hsave
  cases exec_leads hexec _ hj with
  | saveMetrics id delta write =>
      cases hexec
      cases delta with
      | probe completed unknown => simp at hj
      | screening added candidates' =>
          have hzero : added = 0 := by simpa [keepsAccounts, hno, hprepared] using hkeeps
          simp only [List.mem_singleton, Instr.saveMetrics.injEq, MetricsWrite.screening.injEq,
            true_and] at hj
          rw [hj.1, hzero, Nat.add_zero]

theorem counted_go (h : Screening c) (hat : c.At p k (i :: rest))
    (hcourse : Course p c.store (i :: rest))
    (hkeeps : keepsAccounts c.store (c.setCode p rest) i = true)
    (hexec : exec php p i c.store = some (s', .go code)) :
    Counted ((withStore c s').setCode p (code ++ rest)) := by
  intro hprepared hno
  have hothers : ahead (c.setCode p rest) isReset = false :=
    ahead_setCode_mono hat (fun j hj => List.mem_append_right code hj) hno
  have hat' : (c.setCode p rest).At p k rest := Conf.at_setCode.mpr (.inl ⟨rfl, rfl, _, hat⟩)
  have hsum := screeningSum_go hcourse hkeeps hexec
  have hparsing := h.parsing.procs hat
  by_cases hreset : isReset i = true
  · -- the total of the parse is written
    cases i with
    | resetMetrics total =>
        have hrest := createdCount_of_noBooks (hparsing.last hreset)
        have htotal := hparsing.total total (.head _)
        rw [List.map_cons, List.sum_cons, hrest] at htotal
        simp only [keepsAccounts, Bool.and_eq_true, Bool.not_eq_true'] at hkeeps
        cases hexec
        refine ⟨?_, ?_⟩
        · exact htotal.symm
        · intro q k' code' hq j hj id total' candidates hsave
          subst hsave
          have hfree := ahead_eq_false hkeeps.2 (show (c.setCode p rest).At q k' code' from hq) _ hj
          cases hfree
    | _ => cases hreset
  · have hreset : isReset i = false := by simpa using hreset
    have hbefore : ahead c isReset = false := by
      by_contra hne
      rcases ahead_of_setCode rest hat (Bool.not_eq_false _ ▸ hne) with hyes | hyes
      · rw [hothers] at hyes
        cases hyes
      · rw [List.any_cons, hreset, Bool.false_or, List.any_eq_true] at hyes
        obtain ⟨j, hj, hf⟩ := hyes
        rw [ahead_eq_false hothers hat' j hj] at hf
        cases hf
    have htotals : ∀ job totals, i ≠ .updateTotals job totals := by
      rintro job totals rfl
      obtain ⟨j, hj, hf⟩ := List.any_eq_true.mp hparsing.resets
      rw [ahead_eq_false hothers hat' j hj] at hf
      cases hf
    have hprepared' : prepared c.store = true := (prepared_exec htotals hexec).symm.trans hprepared
    obtain ⟨htotal, hcurrent⟩ := h.counted hprepared' hbefore
    have hcreated : createdCount i = 0 := by
      cases i with
      | createChunk => simp [keepsAccounts, hothers, hprepared'] at hkeeps
      | _ => rfl
    have hsame := screeningTotal_exec hreset (hcurrent p k _ hat _ (.head _)) hexec
    refine ⟨?_, ?_⟩
    · show s'.metrics.screeningTotalCount = screeningSum s'
      rw [hsame, hsum, hcreated, Nat.add_zero]
      exact htotal
    · have hcode := currentTotal_code hkeeps hprepared' hothers hexec
      have hnext : EachInstr (fun _ => CurrentTotal c.store.metrics)
          ((withStore c s').setCode p (code ++ rest)) := by
        refine hcurrent.setCode hat fun j hj => ?_
        rcases List.mem_append.mp hj with hj | hj
        · exact hcode j hj
        · exact hcurrent p k _ hat j (.tail _ hj)
      intro q k' code' hq j hj id total candidates hsave
      exact (hnext q k' code' hq j hj id total candidates hsave).trans hsame.symm

/-! ### One step -/

theorem oneBooks_setCode (h : OneBooks c) (hat : c.At p k old)
    (hle : code.any books = true → old.any books = true) :
    OneBooks ((withStore c s').setCode p code) := by
  intro q q' k₁ k₂ code₁ code₂ hq hq' hbooks hbooks'
  rcases Conf.at_setCode.mp hq with ⟨rfl, rfl, -⟩ | ⟨-, hold⟩
  · rcases Conf.at_setCode.mp hq' with ⟨rfl, rfl, -⟩ | ⟨-, hold'⟩
    · rfl
    · exact h _ _ _ _ _ _ hat hold' (hle hbooks) hbooks'
  · rcases Conf.at_setCode.mp hq' with ⟨rfl, rfl, -⟩ | ⟨-, hold'⟩
    · exact h _ _ _ _ _ _ hold hat hbooks (hle hbooks')
    · exact h _ _ _ _ _ _ hold hold' hbooks hbooks'

theorem oneBooks_spawn (h : OneBooks c) (hone : code.any books = true →
    ∀ q k' code', c.At q k' code' → code'.any books = false) : OneBooks (c.spawn k code) := by
  intro q q' k₁ k₂ code₁ code₂ hq hq' hbooks hbooks'
  rcases Conf.at_spawn.mp hq with hold | ⟨rfl, rfl, rfl⟩
  · rcases Conf.at_spawn.mp hq' with hold' | ⟨rfl, rfl, rfl⟩
    · exact h _ _ _ _ _ _ hold hold' hbooks hbooks'
    · rw [hone hbooks' _ _ _ hold] at hbooks
      exact nomatch hbooks
  · rcases Conf.at_spawn.mp hq' with hold' | ⟨rfl, rfl, rfl⟩
    · rw [hone hbooks _ _ _ hold'] at hbooks'
      exact nomatch hbooks'
    · rfl

theorem screening_withStore (h : Screening c) (hsum : screeningSum s' = screeningSum c.store)
    (hmetrics : s'.metrics = c.store.metrics) (hprepared : prepared s' = prepared c.store) :
    Screening (withStore c s') where
  kinds := h.kinds
  sole := h.sole
  parsing := outline_withStore h.parsing trivial fun _ hJ => hsum.symm ▸ hJ
  counted := by
    intro hp hno
    show s'.metrics.screeningTotalCount = screeningSum s' ∧ _
    rw [hsum, hmetrics]
    obtain ⟨htotal, hcurrent⟩ := h.counted (hprepared.symm.trans hp) hno
    refine ⟨htotal, ?_⟩
    show EachInstr (fun _ => CurrentTotal s'.metrics) (withStore c s')
    rw [hmetrics]
    exact hcurrent

/-- A process is started that has no counters to write. -/
theorem screening_spawn (h : Screening c)
    (hkinds : ∀ i ∈ code, books i = true → isParse k = true)
    (hone : code.any books = true → ∀ q k' code', c.At q k' code' → code'.any books = false)
    (hparsing : Parsing code (screeningSum c.store)) (hcode : ∀ i ∈ code, quiet i = true) :
    Screening (c.spawn k code) where
  kinds := EachInstr.spawn (s := c.store) h.kinds hkinds
  sole := oneBooks_spawn h.sole hone
  parsing := h.parsing.spawn hparsing
  counted := by
    intro hp hno
    have hbefore : ahead c isReset = false := by
      by_contra hne
      rw [ahead_of_spawn (Bool.not_eq_false _ ▸ hne)] at hno
      exact nomatch hno
    obtain ⟨htotal, hcurrent⟩ := h.counted hp hbefore
    refine ⟨htotal, EachInstr.spawn (s := c.store) hcurrent fun i hi => ?_⟩
    rintro id total candidates rfl
    exact nomatch hcode _ hi

variable (s') in
/-- The same for the processes that are no parses. -/
theorem screening_launch (h : Screening c) (hsum : screeningSum s' = screeningSum c.store)
    (hmetrics : s'.metrics = c.store.metrics) (hprepared : prepared s' = prepared c.store)
    (hbooks : books i = false) (hquiet : quiet i = true) :
    Screening ((withStore c s').spawn k [i]) := by
  have hnone : ∀ j ∈ [i], books j = false := List.forall_mem_singleton.mpr hbooks
  refine screening_spawn (screening_withStore h hsum hmetrics hprepared) ?_ ?_ ?_ ?_
  · intro j hj hyes
    rw [hnone j hj] at hyes
    exact nomatch hyes
  · intro hyes
    obtain ⟨j, hj, hjb⟩ := List.any_eq_true.mp hyes
    rw [hnone j hj] at hjb
    exact nomatch hjb
  · exact .of_noBooks hnone
  · exact List.forall_mem_singleton.mpr hquiet

/-- A parse is started when there are no chunks, and no other is running. -/
theorem screening_startParse {lookups : List Lookup} (h : Screening c)
    (hempty : c.store.chunks = []) (hidle : running c isParse = false) :
    Screening (c.spawn (.parse c.store.job)
      (parseCode php c.store.settings c.store.job c.store.upload lookups)) := by
  have hsum : screeningSum c.store = 0 := by simp [screeningSum, hempty]
  refine screening_spawn h (fun _ _ _ => rfl) ?_ ?_ ?_
  · intro _ q k' code' hq
    by_contra hne
    obtain ⟨i, hi, hbooks⟩ := List.any_eq_true.mp (Bool.not_eq_false _ ▸ hne)
    have hkind := h.kinds q k' code' hq i hi hbooks
    have hrun : running c isParse = true := by
      refine List.any_eq_true.mpr ⟨⟨k', code'⟩, List.mem_of_getElem? hq, ?_⟩
      cases code' with
      | nil => exact nomatch hi
      | cons => simp [hkind]
    rw [hidle] at hrun
    exact nomatch hrun
  · rw [hsum]
    exact parsing_parseCode _ _ _ _ _
  · exact fun i hi => quiet_of_parse (isParse_parseCode hi)

/-- A process ends without a total that the job waits for. -/
theorem screening_end (h : Screening c) (hat : c.At p k (i :: rest))
    (hmay : mayEnd c.store k (i :: rest) = true)
    (hs : s' = c.store ∨ s' = c.store.rollback p) (hbooks : ∀ j ∈ code, books j = false)
    (hquiet : ∀ j ∈ code, quiet j = true) : Screening ((withStore c s').setCode p code) := by
  have hsum := screeningSum_end hs
  have hmetrics : s'.metrics = c.store.metrics := by
    rcases hs with rfl | rfl
    · rfl
    · exact metrics_rollback _ _
  have hprepared : prepared s' = prepared c.store := by
    rcases hs with rfl | rfl
    · rfl
    · exact congrArg (fun job : Job => job.preparedAt.isSome) (Store.rollback_job p)
  have h' := screening_withStore h hsum hmetrics hprepared
  refine ⟨?_, ?_, ?_, ?_⟩
  · refine h.kinds.setCode hat fun j hj hyes => ?_
    rw [hbooks j hj] at hyes
    exact nomatch hyes
  · refine oneBooks_setCode h.sole hat fun hyes => ?_
    obtain ⟨j, hj, hjb⟩ := List.any_eq_true.mp hyes
    rw [hbooks j hj] at hjb
    exact nomatch hjb
  · exact h.parsing.exec hat trivial (.of_noBooks hbooks) fun _ _ hJ => hsum.symm ▸ hJ
  · intro hp hno
    have hreset : (i :: rest).any isReset = false := by
      have hmay' := (Bool.and_eq_true_iff.mp hmay).2
      have hp' : prepared c.store = true := hprepared.symm.trans hp
      simpa [hp'] using hmay'
    have hbefore : ahead (withStore c s') isReset = false := by
      by_contra hne
      have hat' : (withStore c s').At p k (i :: rest) := hat
      rcases ahead_of_setCode code hat' (Bool.not_eq_false _ ▸ hne) with hyes | hyes
      · rw [hno] at hyes
        exact nomatch hyes
      · rw [hreset] at hyes
        exact nomatch hyes
    obtain ⟨htotal, hcurrent⟩ := h'.counted hp hbefore
    refine ⟨htotal, EachInstr.setCode (s := s') hcurrent hat fun j hj => ?_⟩
    rintro id total candidates rfl
    exact nomatch hquiet _ hj

theorem screening_go (h : Screening c) (hat : c.At p k (i :: rest))
    (hcourse : Course p c.store (i :: rest))
    (hkeeps : keepsAccounts c.store (c.setCode p rest) i = true)
    (hexec : exec php p i c.store = some (s', .go code)) :
    Screening ((withStore c s').setCode p (code ++ rest)) := by
  have hcode : ∀ j ∈ code, books j = false := fun j hj => books_leads (exec_leads hexec j hj)
  have hsum := screeningSum_go hcourse hkeeps hexec
  refine ⟨?_, ?_, ?_, counted_go h hat hcourse hkeeps hexec⟩
  · refine h.kinds.setCode hat fun j hj hyes => ?_
    rcases List.mem_append.mp hj with hj | hj
    · rw [hcode j hj] at hyes
      exact nomatch hyes
    · exact h.kinds p k _ hat j (.tail _ hj) hyes
  · refine oneBooks_setCode h.sole hat fun hyes => ?_
    obtain ⟨j, hj, hjb⟩ := List.any_eq_true.mp hyes
    rcases List.mem_append.mp hj with hj | hj
    · rw [hcode j hj] at hjb
      exact nomatch hjb
    · exact List.any_eq_true.mpr ⟨j, .tail _ hj, hjb⟩
  · refine h.parsing.exec hat trivial (hsum.symm ▸ (h.parsing.procs hat).go hexec) ?_
    intro q k' code' hne hq hJ
    by_cases hbooks : books i = true
    · -- the other one has no total to write
      refine hJ.of_noReset ?_
      by_contra hyes
      obtain ⟨j, hj, hjr⟩ := List.any_eq_true.mp (Bool.not_eq_false _ ▸ hyes)
      have hjb : books j = true := by
        cases j with
        | resetMetrics => rfl
        | _ => exact nomatch hjr
      exact hne (h.sole _ _ _ _ _ _ hq hat (List.any_eq_true.mpr ⟨j, hj, hjb⟩)
        (List.any_eq_true.mpr ⟨i, .head _, hbooks⟩))
    · have hcreated : createdCount i = 0 := by
        cases i with
        | createChunk => exact absurd rfl hbooks
        | _ => rfl
      rw [hcreated, Nat.add_zero] at hsum
      exact hsum.symm ▸ hJ

theorem screening_step (h : Screening c)
    (hcourse : Outline (fun _ => True) (fun p _ code s => Course p s code) c)
    (hcond : accountable php c a = true) (hs : act php c a = some c') : Screening c' := by
  cases act_cases hs with
  | tick seconds => exact screening_withStore h rfl rfl rfl
  | configure settings => exact screening_withStore h rfl rfl rfl
  | upload disk chunkNo type file => exact screening_withStore h rfl rfl rfl
  | claim hfind hpaused hcand =>
      refine screening_launch _ h ?_ rfl rfl rfl rfl
      unfold screeningSum Store.updateChunk
      rw [Table.map_update]
      exact fun _ _ _ => rfl
  | complete id payload => exact screening_launch c.store h rfl rfl rfl rfl rfl
  | fail id retryable => exact screening_launch c.store h rfl rfl rfl rfl rfl
  | startParse hstatus hidle =>
      have hempty : c.store.chunks = [] := by
        simpa [accountable, finishesLive, nextInstr] using hcond
      exact screening_startParse h hempty hidle
  | startFinalize hqueue hidle => exact screening_launch _ h rfl rfl rfl rfl rfl
  | @exec p k i rest s' n hat hexec =>
      cases n with
      | go code =>
          obtain ⟨-, hkeeps⟩ := accountable_go hcond hat hexec
          exact screening_go h hat (hcourse.procs hat) hkeeps hexec
      | raise =>
          exact screening_end h hat (accountable_raise hcond hat hexec) (exec_raise hexec)
            (forall_handler (fun _ => rfl) (fun _ => rfl) fun _ => rfl)
            (quiet_handler k (i :: rest))
  | @throw p k i rest hat =>
      exact screening_end h hat (accountable_throw hcond hat) (.inr rfl)
        (forall_handler (fun _ => rfl) (fun _ => rfl) fun _ => rfl) (quiet_handler k (i :: rest))
  | @kill p k i rest hat =>
      exact screening_end h hat (accountable_kill hcond hat) (.inr rfl) (List.forall_mem_nil _)
        (List.forall_mem_nil _)

end Screening

/-! ## The law -/

/-- A job whose counters have not been touched. -/
structure Unparsed (c : State) : Prop where
  untouched : Untouched c
  prepared : c.store.job.preparedAt = none
  metrics : c.store.metrics = {}

section Law
variable {php : Php} {c c₀ : State} {t : Tally} {x : State × Tally}

theorem accounts_unparsed (h : Unparsed c) : Accounts c fun _ => 0 where
  inTxn := inTxn_idle h.untouched.procs
  course := outline_idle h.untouched.procs trivial
  balance := by
    intro x
    have htotal : c.total (owed x (x.value c.store.metrics)) = 0 := by
      simp [Conf.total, h.untouched.procs]
    rw [htotal, h.metrics]
    cases x <;> rfl

theorem screening_unparsed (h : Unparsed c) : Screening c where
  kinds := eachInstr_idle h.untouched.procs
  sole := by
    intro p q k k' code code' hat
    exact absurd hat (Conf.not_at_of_idle h.untouched.procs)
  parsing := outline_idle h.untouched.procs trivial
  counted := by
    intro hprepared
    simp [prepared, h.prepared] at hprepared

/-- Nothing is owed while no completion has counters to write. -/
theorem total_owed_of_settled (h : ahead c isCounting = false) (x : Counter) (v : Nat) :
    c.total (owed x v) = 0 := by
  unfold Conf.total
  refine List.sum_eq_zero fun n hn => ?_
  obtain ⟨q, hq, rfl⟩ := List.mem_map.mp hn
  obtain ⟨p, hp⟩ := List.getElem?_of_mem hq
  refine owed_of_no_share fun i hi => ?_
  have hno := ahead_eq_false h (show c.At p q.kind q.code from hp) i hi
  cases i with
  | readMetrics => exact nomatch hno
  | saveMetrics => exact nomatch hno
  | _ => cases x <;> rfl

/-- What books is a parse, and none is running. -/
theorem noReset_of_parsed (h : Screening c) (hparsed : running c isParse = false) :
    ahead c isReset = false := by
  by_contra hne
  obtain ⟨p, k, code, hat, i, hi, hreset⟩ := ahead_iff.mp (Bool.not_eq_false _ ▸ hne)
  have hbooks : books i = true := by
    cases i with
    | resetMetrics => rfl
    | _ => exact nomatch hreset
  have hrun : running c isParse = true := by
    refine List.any_eq_true.mpr ⟨⟨k, code⟩, List.mem_of_getElem? hat, ?_⟩
    cases code with
    | nil => exact nomatch hi
    | cons => simp [h.kinds p k _ hat i hi hbooks]
  rw [hparsed] at hrun
  exact nomatch hrun

/-- **The counters count every address once** in every run whose steps neither lose nor repeat an
addition: once parsing has ended and no completion has its counters to write, the screening total
is the sum of the screening chunks, and the counters of the probe stage are what was handed over
and reported. -/
theorem exact_of_accountable (h₀ : Unparsed c₀)
    (h : (tallied php).Reaches (fun x a => accountable php x.1 a = true) (c₀, fun _ => 0) x)
    (hsettled : Settled x.1) : Exact x.1.store x.2 := by
  have hinv : Accounts x.1 x.2 ∧ Screening x.1 := by
    refine h.invariant (P := fun x => Accounts x.1 x.2 ∧ Screening x.1)
      ⟨accounts_unparsed h₀, screening_unparsed h₀⟩ ?_
    intro y a z hy hcond hs
    obtain ⟨c', hact, rfl⟩ := Option.map_eq_some_iff.mp hs
    exact ⟨accounts_step hy.1 hcond hact, screening_step hy.2 hy.1.course hcond hact⟩
  have hprepared : prepared x.1.store = true :=
    Option.isSome_iff_ne_none.mpr hsettled.prepared
  have hbalance : ∀ y : Counter, (y.value x.1.store.metrics : Int) = x.2 y := by
    intro y
    rw [← hinv.1.balance y, total_owed_of_settled hsettled.counted, add_zero]
  refine ⟨(hinv.2.counted hprepared (noReset_of_parsed hinv.2 hsettled.parsed)).1, ?_, ?_⟩
  · exact_mod_cast hbalance .candidates
  · exact_mod_cast hbalance .completed

end Law

/-- A completion request that leaves the email count to the chunk. -/
def uncounted (chunkNo : Nat) : Payload :=
  { outputDisk := none
    keys := ⟨.chunkOutput chunkNo .valid, .chunkOutput chunkNo .invalid,
      .chunkOutput chunkNo .risky⟩
    emailCount := none
    counts := .const none }

/-- One address is screened by a request that reports no count, handed to a probe chunk, found
to fail temporarily, and probed again. -/
def retriedSchedule : List Action :=
  .startParse [] :: turns 0 5 ++
    .upload (Settings.storageDisk {}) 1 .valid
      [["email".toList, "reason".toList], ["a@b.co".toList, "rcpt_ok".toList]] ::
    .complete 0 (uncounted 1) :: turns 1 13 ++
    claimBy 1 ["a@b.co"] .risky "smtp_tempfail" :: turns 2 17 ++
    .tick 3600 :: claimBy 3 ["a@b.co"] .valid "rcpt_ok" :: turns 3 11

/-- No process has anything left to do, and the job is prepared. -/
def atRest (c : State) : Bool :=
  prepared c.store && c.procs.all fun q => q.code.isEmpty

theorem settled_of_atRest {c : State} (h : atRest c = true) : Settled c := by
  rw [atRest, Bool.and_eq_true, List.all_eq_true] at h
  refine ⟨Option.isSome_iff_ne_none.mp h.1, ?_, ?_⟩
  · refine List.any_eq_false.mpr fun q hq => ?_
    simp [h.2 q hq]
  · refine List.any_eq_false.mpr fun q hq => ?_
    rw [List.isEmpty_iff.mp (h.2 q hq)]
    exact Bool.false_ne_true

theorem exact_of_accountable_retried :
    ∃ x, (tallied samplePhp).Reaches (fun x a => accountable samplePhp x.1 a = true)
        (sampleJob (retrySettings 3) ["a@b.co"], fun _ => 0) x ∧
      (x.1.store.chunks.length = 3 ∧ x.2 .candidates = 1 ∧ x.2 .completed = 2) ∧
        Exact x.1.store x.2 := by
  have hrun : ((tallied samplePhp).runIf (fun x a => accountable samplePhp x.1 a = true)
      (sampleJob (retrySettings 3) ["a@b.co"], fun _ => 0) retriedSchedule).any
        (fun x => atRest x.1 && (x.1.store.chunks.length == 3 && (x.2 .candidates == 1 &&
          x.2 .completed == 2))) = true := by
    decide
  obtain ⟨x, hreach, htest⟩ := Transition.System.exists_reaches hrun
  simp only [Bool.and_eq_true, beq_iff_eq] at htest
  exact ⟨x, hreach, htest.2, exact_of_accountable ⟨⟨rfl, rfl, rfl, rfl⟩, rfl, rfl⟩ hreach
    (settled_of_atRest htest.1)⟩

/-- A worker screens the one chunk of a job after the parse, and the total is two. -/
theorem exact_fails :
    ∃ x, (tallied samplePhp).Reaches Transition.Always
        (sampleJob {} ["a@b.co"], fun _ => 0) x ∧
      Settled x.1 ∧ (∀ chunk ∈ x.1.store.chunks, chunk.status = .completed) ∧
        ¬ Exact x.1.store x.2 := by
  have hrun : ((tallied samplePhp).run (sampleJob {} ["a@b.co"], fun _ => 0)
      (.startParse [] :: turns 0 5 ++ claimBy 0 ["a@b.co"] .valid "rcpt_ok" :: turns 1 9)).any
        (fun x => atRest x.1 && (x.1.store.chunks.all (fun chunk => chunk.status == .completed) &&
          x.1.store.metrics.screeningTotalCount != screeningSum x.1.store)) = true := by
    decide
  obtain ⟨x, hreach, htest⟩ := Transition.System.exists_reaches_always hrun
  simp only [Bool.and_eq_true, bne_iff_ne, ne_eq, List.all_eq_true, beq_iff_eq] at htest
  exact ⟨x, hreach, settled_of_atRest htest.1, htest.2.1, fun h => htest.2.2 h.screening⟩

end ValidEmailVerifier.JobMetrics
