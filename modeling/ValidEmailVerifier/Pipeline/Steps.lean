/-
# `Pipeline.Steps` — what a step of the pipeline can do

`act_cases` lists the shapes of a step: the environment changes the store, a
process is started, or a process moves.  `Change` lists what an instruction can
do to the chunk table and to the open transaction; everything else an
instruction does leaves both alone.  The invariants of the later modules are
proved by these two case distinctions.
-/
import ValidEmailVerifier.Pipeline.Machine

namespace ValidEmailVerifier

open Processes

/-! ## Reading the store back -/

namespace Store

variable {s : Store} {id id' : Nat} {f : Chunk → Chunk}

theorem findChunk_updateChunk_self (hkey : ∀ r, (f r).id = r.id) :
    (s.updateChunk id f).findChunk id = (s.findChunk id).map f :=
  Table.find_update_self hkey

theorem findChunk_updateChunk_of_ne (hkey : ∀ r, (f r).id = r.id) (hne : id ≠ id') :
    (s.updateChunk id' f).findChunk id = s.findChunk id :=
  Table.find_update_of_ne hkey hne

theorem findChunk_rollback (p : Nat) : (s.rollback p).findChunk id = s.findChunk id := by
  unfold rollback
  split <;> rfl

@[simp] theorem rollback_chunks (p : Nat) : (s.rollback p).chunks = s.chunks := by
  unfold rollback
  split <;> rfl

@[simp] theorem rollback_objects (p : Nat) : (s.rollback p).objects = s.objects := by
  unfold rollback
  split <;> rfl

@[simp] theorem rollback_job (p : Nat) : (s.rollback p).job = s.job := by
  unfold rollback
  split <;> rfl

end Store

/-! ## Rows, committed or not -/

/-- The rows of a transaction. -/
def stagedRows (s : Store) : List Chunk := (s.txn.map Txn.rows).getD []

/-- The rows of the table and those of the open transaction. -/
def allRows (s : Store) : List Chunk := s.chunks ++ stagedRows s

/-- The columns that no update of the pipeline fills. -/
structure SameOrigin (row row' : Chunk) : Prop where
  id : row'.id = row.id
  chunkNo : row'.chunkNo = row.chunkNo
  processingStage : row'.processingStage = row.processingStage
  sourceStage : row'.sourceStage = row.sourceStage
  parentChunkId : row'.parentChunkId = row.parentChunkId
  rotationGroupId : row'.rotationGroupId = row.rotationGroupId
  retryParentId : row'.retryParentId = row.retryParentId
  retryAttempt : row'.retryAttempt = row.retryAttempt
  maxProbeAttempts : row'.maxProbeAttempts = row.maxProbeAttempts
  inputDisk : row'.inputDisk = row.inputDisk
  inputKey : row'.inputKey = row.inputKey

theorem SameOrigin.refl (row : Chunk) : SameOrigin row row :=
  ⟨rfl, rfl, rfl, rfl, rfl, rfl, rfl, rfl, rfl, rfl, rfl⟩

theorem sameOrigin_update (model filled row : Chunk) :
    SameOrigin row (Chunk.update model filled row) :=
  ⟨rfl, rfl, rfl, rfl, rfl, rfl, rfl, rfl, rfl, rfl, rfl⟩

theorem sameOrigin_claimed (now server : Nat) (worker : Text) (lease : Int) (token : Nat)
    (row : Chunk) : SameOrigin row (ClaimNext.claimed now server worker lease token row) :=
  ⟨rfl, rfl, rfl, rfl, rfl, rfl, rfl, rfl, rfl, rfl, rfl⟩

/-! ## Shapes of a step -/

/-- A step of the pipeline, by shape. -/
inductive Shape (php : Php) (c : State) : Action → State → Prop
  | tick (seconds : Nat) :
      Shape php c (.tick seconds)
        (withStore c { c.store with now := c.store.now + seconds })
  | configure (settings : Settings) :
      Shape php c (.configure settings) (withStore c { c.store with settings := settings })
  | upload (disk : Disk) (chunkNo : Nat) (type : OutputType) (file : File) :
      Shape php c (.upload disk chunkNo type file)
        (withStore c (c.store.put (disk, .chunkOutput chunkNo type) file))
  | claim {id : Nat} {capability : ClaimNext.Capability} {engineServer : Nat} {worker : Text}
      {leaseSeconds : Int} {verdicts : List (Text × Worker.Verdict)} {chunk : Chunk}
      (hfind : c.store.findChunk id = some chunk)
      (hpaused : c.store.settings.enginePaused = false)
      (hcand : ClaimNext.isCandidate c.store.now capability chunk = true) :
      Shape php c (.claim id capability engineServer worker leaseSeconds verdicts)
        ((withStore c (c.store.updateChunk id (ClaimNext.claimed c.store.now engineServer
          worker leaseSeconds c.procs.length))).spawn (.worker id) [.download id verdicts])
  | complete (id : Nat) (payload : Payload) :
      Shape php c (.complete id payload) (c.spawn (.request id) [.loadCompletion id payload])
  | fail (id : Nat) (retryable : Bool) :
      Shape php c (.fail id retryable) (c.spawn (.request id) [.loadFailure id retryable])
  | startParse {lookups : List ParseAndChunkJob.Lookup}
      (hstatus : c.store.job.status = .processing) (hidle : running c isParse = false) :
      Shape php c (.startParse lookups) (c.spawn (.parse c.store.job)
        (parseCode php c.store.settings c.store.job c.store.upload lookups))
  | startFinalize {cache : List (Text × Text)} (hqueue : 0 < c.store.queue)
      (hidle : running c isFinalize = false) :
      Shape php c (.startFinalize cache)
        ((withStore c { c.store with queue := c.store.queue - 1 }).spawn
          (.finalize c.store.job) [.loadChunks c.store.job cache])
  | exec {p : Nat} {k : Kind} {i : Instr} {rest : List Instr} {s' : Store} {n : Next Instr}
      (hat : c.At p k (i :: rest)) (hexec : exec php p i c.store = some (s', n)) :
      Shape php c (.exec p)
        ((withStore c s').setCode p (n.resume (handler k (i :: rest)) rest))
  | throw {p : Nat} {k : Kind} {i : Instr} {rest : List Instr} (hat : c.At p k (i :: rest)) :
      Shape php c (.throw p)
        ((withStore c (c.store.rollback p)).setCode p (handler k (i :: rest)))
  | kill {p : Nat} {k : Kind} {i : Instr} {rest : List Instr} (hat : c.At p k (i :: rest)) :
      Shape php c (.kill p) ((withStore c (c.store.rollback p)).setCode p [])

/-- Every step has one of the shapes. -/
theorem act_cases {php : Php} {c c' : State} {a : Action} (h : act php c a = some c') :
    Shape php c a c' := by
  cases a with
  | tick seconds =>
      cases h
      exact .tick seconds
  | configure settings =>
      cases h
      exact .configure settings
  | claim id capability engineServer worker leaseSeconds verdicts =>
      simp only [act, claim] at h
      split at h
      next => exact nomatch h
      next chunk hfind =>
        split at h
        next hc =>
          cases h
          rw [Bool.and_eq_true, Bool.not_eq_true'] at hc
          exact .claim hfind hc.1 hc.2
        next => exact nomatch h
  | complete id payload =>
      cases h
      exact .complete id payload
  | fail id retryable =>
      cases h
      exact .fail id retryable
  | upload disk chunkNo type file =>
      cases h
      exact .upload disk chunkNo type file
  | startParse lookups =>
      simp only [act, startParse] at h
      split at h
      next hc =>
        cases h
        exact .startParse hc.1 hc.2
      next => exact nomatch h
  | startFinalize cache =>
      simp only [act, startFinalize] at h
      split at h
      next hc =>
        cases h
        exact .startFinalize hc.1 hc.2
      next => exact nomatch h
  | exec p =>
      obtain ⟨k, i, rest, s', n, hat, hexec, rfl⟩ := Conf.execAt_cases h
      exact .exec hat hexec
  | throw p =>
      simp only [act, throwAt] at h
      split at h
      next k i rest hat =>
        cases h
        exact .throw hat
      next => exact nomatch h
  | kill p =>
      simp only [act, killAt] at h
      split at h
      next k i rest hat =>
        cases h
        exact .kill hat
      next => exact nomatch h

/-! ## What an instruction has its process run -/

/-- A chunk that is neither completed nor failed. -/
def Live (chunk : Chunk) : Prop := chunk.status = .pending ∨ chunk.status = .processing

instance (chunk : Chunk) : Decidable (Live chunk) := instDecidableOr

theorem live_of_ne {chunk : Chunk} (h1 : chunk.status ≠ .completed)
    (h2 : chunk.status ≠ .failed) : Live chunk := by
  unfold Live
  cases hst : chunk.status with
  | pending => exact .inl rfl
  | processing => exact .inr rfl
  | completed => exact absurd hst h1
  | failed => exact absurd hst h2

theorem not_live {chunk : Chunk} (h : chunk.status = .completed ∨ chunk.status = .failed) :
    ¬ Live chunk := by
  rintro (hl | hl) <;> rcases h with h | h <;> rw [h] at hl <;> exact nomatch hl

theorem not_live_of_completed {chunk : Chunk} (h : chunk.status = .completed) : ¬ Live chunk :=
  not_live (.inl h)

section Emits
variable {php : Php} {p : Nat} {s s' : Store} {n : Next Instr}

theorem lockJob_cases {s' : Store} (h : s.lockJob p = some s') :
    s.txn = none ∧ s' = { s with txn := some ⟨p, []⟩ } := by
  unfold Store.lockJob at h
  split at h
  next => exact nomatch h
  next hopen =>
    cases h
    exact ⟨by simpa using hopen, rfl⟩

/-- An instruction that returns a store it has only read. -/
theorem store_eq {s' : Store} {n n' : Next Instr} (h : (some (s, n) : Effect) = some (s', n')) :
    s' = s ∧ n' = n := by
  cases h
  exact ⟨rfl, rfl⟩

theorem download_cases {id : Nat} {verdicts : List (Text × Worker.Verdict)}
    (h : download s id verdicts = some (s', n)) :
    s' = s ∧ (n = .raise ∨ ∃ chunk input, s.findChunk id = some chunk ∧
      s.objects (inputAddr s chunk) = some input ∧
      n = .go (putFiles (uploadDisk s chunk) (outputKeys chunk)
          (Worker.buildOutputs verdicts input).files ++
        [.loadCompletion id
          { outputDisk := some (uploadDisk s chunk)
            keys := outputKeys chunk
            emailCount := some (Worker.buildOutputs verdicts input).emailCount
            counts := (Worker.buildOutputs verdicts input).counts.map some }])) := by
  unfold download at h
  split at h
  next => exact ⟨(store_eq h).1, .inl (store_eq h).2⟩
  next chunk hfind =>
    split at h
    next => exact ⟨(store_eq h).1, .inl (store_eq h).2⟩
    next input hinput =>
      exact ⟨(store_eq h).1, .inr ⟨chunk, input, hfind, hinput, (store_eq h).2⟩⟩

theorem loadCompletion_cases {id : Nat} {payload : Payload}
    (h : loadCompletion s id payload = some (s', n)) :
    s' = s ∧ (n = .raise ∨ n = .go [] ∨
      ∃ chunk, s.findChunk id = some chunk ∧ Live chunk ∧
        ((chunk.stage = .screening ∧ s.settings.probeStageEnabled = true ∧
            n = .go [.planHandoff ⟨chunk, payload⟩]) ∨
          (chunk.stage = .screening ∧ s.settings.probeStageEnabled = false ∧
            n = .go (finishScreening ⟨chunk, payload⟩ none)) ∨
          (chunk.stage = .smtpProbe ∧ n = .go (finishProbe ⟨chunk, payload⟩)))) := by
  unfold loadCompletion at h
  split at h
  next => exact ⟨(store_eq h).1, .inl (store_eq h).2⟩
  next chunk hfind =>
    simp only at h
    split at h
    next =>
      split at h
      next => exact ⟨(store_eq h).1, .inr (.inl (store_eq h).2)⟩
      next => exact ⟨(store_eq h).1, .inl (store_eq h).2⟩
    next => exact ⟨(store_eq h).1, .inl (store_eq h).2⟩
    next h1 h2 =>
      have hl : Live chunk := live_of_ne h1 h2
      split at h
      next hstage =>
        split at h
        next hen =>
          exact ⟨(store_eq h).1, .inr (.inr ⟨chunk, hfind, hl, .inl ⟨hstage, hen,
            (store_eq h).2⟩⟩)⟩
        next hen =>
          exact ⟨(store_eq h).1, .inr (.inr ⟨chunk, hfind, hl, .inr (.inl ⟨hstage,
            by simpa using hen, (store_eq h).2⟩)⟩)⟩
      next hstage =>
        exact ⟨(store_eq h).1, .inr (.inr ⟨chunk, hfind, hl, .inr (.inr ⟨hstage,
          (store_eq h).2⟩)⟩)⟩

theorem planHandoff_cases {r : Request} (h : planHandoff php s r = some (s', n)) :
    s' = s ∧ (n = .raise ∨ ∃ disk, r.outputDisk = some disk ∧
      (((classification php s r disk).candidates = [] ∧
          n = .go (finishScreening r (some 0))) ∨
        ((classification php s r disk).candidates ≠ [] ∧
          n = .go (handoffCode s.settings r disk (classification php s r disk) ++
            finishScreening r (some (classification php s r disk).candidates.length))))) := by
  unfold planHandoff at h
  split at h
  next => exact ⟨(store_eq h).1, .inl (store_eq h).2⟩
  next disk hdisk =>
    simp only at h
    split at h
    next hnil => exact ⟨(store_eq h).1, .inr ⟨disk, hdisk, .inl ⟨hnil, (store_eq h).2⟩⟩⟩
    next hcons => exact ⟨(store_eq h).1, .inr ⟨disk, hdisk, .inr ⟨hcons, (store_eq h).2⟩⟩⟩

theorem beginProbe_cases {r : Request} {disk : Disk}
    {shards : List ScreeningToProbeChunkPlanner.Shard}
    (h : beginProbe s p r disk shards = some (s', n)) :
    s.txn = none ∧
      ((hasProbeChunks s r.chunk.id = true ∧ s' = s ∧ n = .go []) ∨
        (hasProbeChunks s r.chunk.id = false ∧
          s' = { s with txn := some ⟨p, []⟩, nextId := s.nextId + shards.length + 1 } ∧
          n = .go (insertShards r.chunk.id (s.nextId + shards.length) disk
            s.settings.probeAttempts s.now s.nextId (s.maxChunkNo + 1) shards ++
              [.commit]))) := by
  unfold beginProbe at h
  split at h
  next => exact nomatch h
  next s₁ hlock =>
    obtain ⟨hopen, rfl⟩ := lockJob_cases hlock
    refine ⟨hopen, ?_⟩
    split at h
    next hhas => exact .inl ⟨hhas, (store_eq h).1, (store_eq h).2⟩
    next hhas =>
      exact .inr ⟨by simpa using hhas, (store_eq h).1, (store_eq h).2⟩

theorem planRetry_cases {r : Request} (h : planRetry s r = some (s', n)) :
    s' = s ∧ (n = .raise ∨ ∃ fresh disk, s.findChunk r.chunk.id = some fresh ∧
      r.outputDisk = some disk ∧
      ((TempfailRetryPlanner.enabledFor s.settings fresh = true ∧
          n = .go [.splitRisky fresh disk]) ∨
        (TempfailRetryPlanner.enabledFor s.settings fresh = false ∧ n = .go []))) := by
  unfold planRetry at h
  split at h
  next fresh disk hfresh hdisk =>
    split at h
    next hen =>
      exact ⟨(store_eq h).1, .inr ⟨fresh, disk, hfresh, hdisk, .inl ⟨hen, (store_eq h).2⟩⟩⟩
    next hen =>
      exact ⟨(store_eq h).1, .inr ⟨fresh, disk, hfresh, hdisk,
        .inr ⟨by simpa using hen, (store_eq h).2⟩⟩⟩
  next => exact ⟨(store_eq h).1, .inl (store_eq h).2⟩

theorem splitRisky_cases {chunk : Chunk} {disk : Disk}
    (h : splitRisky s chunk disk = some (s', n)) :
    s' = s ∧ (n = .go [] ∨ ∃ key file, chunk.keys.risky = some key ∧
      s.objects (disk, key) = some file ∧
      (TempfailRetryPlanner.split s.settings.tempfailRetryReasons file).2 ≠ [] ∧
      n = .go
        [.putObject (disk, TempfailRetryPlanner.filteredRiskyKey key)
            (TempfailRetryPlanner.split s.settings.tempfailRetryReasons file).1,
          .beginRetry chunk disk
            (TempfailRetryPlanner.split s.settings.tempfailRetryReasons file).2,
          .updateParent chunk key
            (TempfailRetryPlanner.split s.settings.tempfailRetryReasons file).1.length]) := by
  unfold splitRisky at h
  split at h
  next => exact ⟨(store_eq h).1, .inl (store_eq h).2⟩
  next key hkey =>
    split at h
    next => exact ⟨(store_eq h).1, .inl (store_eq h).2⟩
    next file hfile =>
      simp only at h
      split at h
      next => exact ⟨(store_eq h).1, .inl (store_eq h).2⟩
      next hretry =>
        exact ⟨(store_eq h).1, .inr ⟨key, file, hkey, hfile, hretry, (store_eq h).2⟩⟩

/-- The row `createRetryChunk` inserts. -/
def retryRow (s : Store) (chunk : Chunk) (disk : Disk) (emails : List Text) : Chunk :=
  TempfailRetryPlanner.retryChunk chunk s.nextId (s.maxChunkNo + 1)
    (chunk.inputDisk.getD disk) emails.length
    (s.now + 60 * TempfailRetryPlanner.backoffForAttempt
      s.settings.tempfailRetryBackoffMinutes (chunk.retryAttempt + 1)) s.now

theorem beginRetry_cases {chunk : Chunk} {disk : Disk} {emails : List Text}
    (h : beginRetry s p chunk disk emails = some (s', n)) :
    s.txn = none ∧ s' = { s with txn := some ⟨p, []⟩, nextId := s.nextId + 1 } ∧
      n = .go
        [.putObject (chunk.inputDisk.getD disk, .chunkInput (s.maxChunkNo + 1))
            (inputFile emails),
          .insertChunk (retryRow s chunk disk emails), .commit] := by
  unfold beginRetry at h
  split at h
  next => exact nomatch h
  next s₁ hlock =>
    obtain ⟨hopen, rfl⟩ := lockJob_cases hlock
    exact ⟨hopen, (store_eq h).1, (store_eq h).2⟩

theorem loadFailure_cases {id : Nat} {retryable : Bool}
    (h : loadFailure s id retryable = some (s', n)) :
    s' = s ∧ (n = .raise ∨ n = .go [] ∨ ∃ chunk, s.findChunk id = some chunk ∧ Live chunk ∧
      n = .go [.updateFailed chunk retryable]) := by
  unfold loadFailure at h
  split at h
  next => exact ⟨(store_eq h).1, .inl (store_eq h).2⟩
  next chunk hfind =>
    split at h
    next => exact ⟨(store_eq h).1, .inl (store_eq h).2⟩
    next => exact ⟨(store_eq h).1, .inr (.inl (store_eq h).2)⟩
    next h1 h2 =>
      exact ⟨(store_eq h).1,
        .inr (.inr ⟨chunk, hfind, live_of_ne h1 h2, (store_eq h).2⟩)⟩

theorem loadChunks_cases {job : Job} {cache : List (Text × Text)}
    (h : loadChunks s job cache = some (s', n)) :
    s' = s ∧ ((FinalizeVerificationJob.decision job s.chunks = .stop ∧ n = .go []) ∨
      (FinalizeVerificationJob.decision job s.chunks = .failJob ∧
        n = .go [.markJobFailed job "One or more chunks failed."]) ∨
      (FinalizeVerificationJob.decision job s.chunks = .finalize ∧
        n = .go [.merge job s.chunks cache])) := by
  unfold loadChunks at h
  split at h
  next hd => exact ⟨(store_eq h).1, .inl ⟨hd, (store_eq h).2⟩⟩
  next hd => exact ⟨(store_eq h).1, .inr (.inl ⟨hd, (store_eq h).2⟩)⟩
  next hd => exact ⟨(store_eq h).1, .inr (.inr ⟨hd, (store_eq h).2⟩)⟩

theorem merge_cases {job : Job} {chunks : List Chunk} {cache : List (Text × Text)}
    (h : merge s job chunks cache = some (s', n)) :
    s' = s ∧ (((merged s job chunks cache).missing = [] ∧
        n = .go (putFiles (FinalizeVerificationJob.outputDisk s.settings job) finalKeys
            (merged s job chunks cache).files ++
          [.completeJob job (FinalizeVerificationJob.outputDisk s.settings job)
            (merged s job chunks cache).counts])) ∨
      ((merged s job chunks cache).missing ≠ [] ∧
        n = .go (putFiles (FinalizeVerificationJob.outputDisk s.settings job) finalKeys
            (merged s job chunks cache).files ++
          [.markJobFailed job "Chunk outputs missing during finalization."]))) := by
  unfold merge at h
  simp only at h
  refine ⟨(store_eq h).1, ?_⟩
  by_cases hm : (merged s job chunks cache).missing = []
  · rw [if_pos hm] at h
    exact .inl ⟨hm, (store_eq h).2⟩
  · rw [if_neg hm] at h
    exact .inr ⟨hm, (store_eq h).2⟩

/-- The instructions that expand into code. -/
def emits : Instr → Bool
  | .download _ _ | .loadCompletion _ _ | .planHandoff _ | .beginProbe _ _ _ | .planRetry _
  | .splitRisky _ _ | .beginRetry _ _ _ | .readMetrics _ _ | .loadFailure _ _
  | .loadChunks _ _ | .merge _ _ _ => true
  | _ => false

/-- The others just return. -/
theorem exec_quiet {i : Instr} {code : List Instr} (hq : emits i = false)
    (h : exec php p i s = some (s', .go code)) : code = [] := by
  cases i with
  | createChunk disk chunkNo emailCount =>
      simp only [exec, createChunk] at h
      split at h
      next => exact nomatch h
      next =>
        split at h
        next => exact nomatch h
        next => cases h; rfl
  | insertChunk row =>
      simp only [exec, insertChunk] at h
      split at h
      next => exact nomatch h
      next =>
        split at h
        next => cases h; rfl
        next => exact nomatch h
  | commit =>
      simp only [exec, commit] at h
      split at h
      next => cases h; rfl
      next => exact nomatch h
  | putObject addr file => cases h; rfl
  | dispatchFinalize => cases h; rfl
  | updateTotals job totals => cases h; rfl
  | resetMetrics screeningTotal => cases h; rfl
  | failJob job message => cases h; rfl
  | updateCompleted r => cases h; rfl
  | updateParent chunk key filteredCount => cases h; rfl
  | saveMetrics id write => cases h; rfl
  | updateFailed chunk retryable => cases h; rfl
  | completeJob job disk counts => cases h; rfl
  | markJobFailed job message => cases h; rfl
  | _ => exact nomatch hq

/-- The instructions that only read the store. -/
def reads : Instr → Bool
  | .download _ _ | .loadCompletion _ _ | .planHandoff _ | .planRetry _ | .splitRisky _ _
  | .readMetrics _ _ | .loadFailure _ _ | .loadChunks _ _ | .merge _ _ _ => true
  | _ => false

theorem exec_reads {i : Instr} (hr : reads i = true) (h : exec php p i s = some (s', n)) :
    s' = s := by
  cases i with
  | download id verdicts => exact (download_cases h).1
  | loadCompletion id payload => exact (loadCompletion_cases h).1
  | planHandoff r => exact (planHandoff_cases h).1
  | planRetry r => exact (planRetry_cases h).1
  | splitRisky chunk disk => exact (splitRisky_cases h).1
  | readMetrics id delta => exact (store_eq h).1
  | loadFailure id retryable => exact (loadFailure_cases h).1
  | loadChunks job cache => exact (loadChunks_cases h).1
  | merge job chunks cache => exact (merge_cases h).1
  | _ => exact nomatch hr

/-- An instruction that throws has changed nothing, but for the rollback. -/
theorem exec_raise {i : Instr} (h : exec php p i s = some (s', .raise)) :
    s' = s ∨ s' = s.rollback p := by
  cases i with
  | createChunk disk chunkNo emailCount =>
      simp only [exec, createChunk] at h
      split at h
      next => exact .inl (store_eq h).1
      next =>
        split at h
        next => exact nomatch h
        next => exact nomatch h
  | beginProbe r disk shards =>
      obtain ⟨-, ⟨-, -, hn⟩ | ⟨-, -, hn⟩⟩ := beginProbe_cases h
      · exact nomatch hn
      · exact nomatch hn
  | insertChunk row =>
      simp only [exec, insertChunk] at h
      split at h
      next => cases h; exact .inr rfl
      next =>
        split at h
        next => exact nomatch h
        next => exact .inl (store_eq h).1
  | commit =>
      simp only [exec, commit] at h
      split at h
      next => exact nomatch h
      next => exact .inl (store_eq h).1
  | beginRetry chunk disk emails =>
      obtain ⟨-, -, hn⟩ := beginRetry_cases h
      exact nomatch hn
  | putObject => exact nomatch h
  | dispatchFinalize => exact nomatch h
  | updateTotals => exact nomatch h
  | resetMetrics => exact nomatch h
  | failJob => exact nomatch h
  | updateCompleted => exact nomatch h
  | updateParent => exact nomatch h
  | saveMetrics => exact nomatch h
  | updateFailed => exact nomatch h
  | completeJob => exact nomatch h
  | markJobFailed => exact nomatch h
  | _ => exact .inl (exec_reads rfl h)

/-- The objects an instruction has its process write next. -/
inductive PutsAt : Instr → Key → Prop
  | output (id : Nat) (verdicts : List (Text × Worker.Verdict)) (chunkNo : Nat)
      (type : OutputType) : PutsAt (.download id verdicts) (.chunkOutput chunkNo type)
  | rewrite (r : Request) (type : OutputType) :
      PutsAt (.planHandoff r) (r.payload.keys.get type)
  | probeInput (r : Request) (disk : Disk)
      (shards : List ScreeningToProbeChunkPlanner.Shard) (chunkNo : Nat) :
      PutsAt (.beginProbe r disk shards) (.chunkInput chunkNo)
  | filtered (chunk : Chunk) (disk : Disk) (key : Key) :
      PutsAt (.splitRisky chunk disk) (.filteredRisky key)
  | retryInput (chunk : Chunk) (disk : Disk) (emails : List Text) (chunkNo : Nat) :
      PutsAt (.beginRetry chunk disk emails) (.chunkInput chunkNo)
  | final (job : Job) (chunks : List Chunk) (cache : List (Text × Text)) (type : OutputType) :
      PutsAt (.merge job chunks cache) (.finalResult type)

/-- What instruction `i`, executed in `s`, may have its process run next. -/
inductive Leads (s : Store) : Instr → Instr → Prop
  | put {i : Instr} {addr : Addr} (file : File) (hi : PutsAt i addr.2) :
      Leads s i (.putObject addr file)
  | complete {id : Nat} {verdicts : List (Text × Worker.Verdict)} {chunk : Chunk}
      {payload : Payload} (hfind : s.findChunk id = some chunk)
      (hkeys : payload.keys = outputKeys chunk) :
      Leads s (.download id verdicts) (.loadCompletion id payload)
  | handoff {id : Nat} {payload : Payload} {chunk : Chunk} (hfind : s.findChunk id = some chunk)
      (hlive : Live chunk) (hstage : chunk.stage = .screening) :
      Leads s (.loadCompletion id payload) (.planHandoff ⟨chunk, payload⟩)
  | update {id : Nat} {payload : Payload} {chunk : Chunk} (hfind : s.findChunk id = some chunk)
      (hlive : Live chunk) :
      Leads s (.loadCompletion id payload) (.updateCompleted ⟨chunk, payload⟩)
  | handoffUpdate (r : Request) : Leads s (.planHandoff r) (.updateCompleted r)
  | metrics {id : Nat} {payload : Payload} {chunk : Chunk} (hfind : s.findChunk id = some chunk)
      (delta : MetricsDelta) :
      Leads s (.loadCompletion id payload) (.readMetrics chunk.id delta)
  | handoffMetrics (r : Request) (delta : MetricsDelta) :
      Leads s (.planHandoff r) (.readMetrics r.chunk.id delta)
  | dispatch (id : Nat) (payload : Payload) :
      Leads s (.loadCompletion id payload) .dispatchFinalize
  | handoffDispatch (r : Request) : Leads s (.planHandoff r) .dispatchFinalize
  | retry {id : Nat} {payload : Payload} {chunk : Chunk} (hfind : s.findChunk id = some chunk)
      (hlive : Live chunk) (hstage : chunk.stage = .smtpProbe) :
      Leads s (.loadCompletion id payload) (.planRetry ⟨chunk, payload⟩)
  | beginProbe (r : Request) (disk : Disk)
      (shards : List ScreeningToProbeChunkPlanner.Shard) :
      Leads s (.planHandoff r) (.beginProbe r disk shards)
  | insertProbe {r : Request} {disk : Disk}
      {shards : List ScreeningToProbeChunkPlanner.Shard} (id chunkNo : Nat)
      {shard : ScreeningToProbeChunkPlanner.Shard} (hshard : shard ∈ shards) :
      Leads s (.beginProbe r disk shards)
        (.insertChunk (ScreeningToProbeChunkPlanner.probeChunk r.chunk.id id chunkNo
          (s.nextId + shards.length) disk s.settings.probeAttempts shard s.now))
  | insertRetry (chunk : Chunk) (disk : Disk) (emails : List Text) :
      Leads s (.beginRetry chunk disk emails) (.insertChunk (retryRow s chunk disk emails))
  | commitProbe (r : Request) (disk : Disk)
      (shards : List ScreeningToProbeChunkPlanner.Shard) :
      Leads s (.beginProbe r disk shards) .commit
  | commitRetry (chunk : Chunk) (disk : Disk) (emails : List Text) :
      Leads s (.beginRetry chunk disk emails) .commit
  | split {r : Request} {fresh : Chunk} (hfind : s.findChunk r.chunk.id = some fresh)
      (disk : Disk) : Leads s (.planRetry r) (.splitRisky fresh disk)
  | beginRetry (chunk : Chunk) (disk : Disk) (emails : List Text) :
      Leads s (.splitRisky chunk disk) (.beginRetry chunk disk emails)
  | updateParent (chunk : Chunk) (disk : Disk) (key : Key) (filteredCount : Nat) :
      Leads s (.splitRisky chunk disk) (.updateParent chunk key filteredCount)
  | saveMetrics (id : Nat) (delta : MetricsDelta) (write : MetricsWrite) :
      Leads s (.readMetrics id delta) (.saveMetrics id write)
  | updateFailed {id : Nat} {retryable : Bool} {chunk : Chunk}
      (hfind : s.findChunk id = some chunk) (hlive : Live chunk) :
      Leads s (.loadFailure id retryable) (.updateFailed chunk retryable)
  | merge {job : Job} {cache : List (Text × Text)}
      (hfinalize : FinalizeVerificationJob.decision job s.chunks = .finalize) :
      Leads s (.loadChunks job cache) (.merge job s.chunks cache)
  | failChunks (job : Job) (cache : List (Text × Text)) (message : String) :
      Leads s (.loadChunks job cache) (.markJobFailed job message)
  | completeJob (job : Job) (chunks : List Chunk) (cache : List (Text × Text)) (disk : Disk)
      (counts : PerType Nat) :
      Leads s (.merge job chunks cache) (.completeJob job disk counts)
  | failMissing (job : Job) (chunks : List Chunk) (cache : List (Text × Text))
      (message : String) :
      Leads s (.merge job chunks cache) (.markJobFailed job message)

theorem insertShards_cases {parent group attempts now : Nat} {disk : Disk}
    {shards : List ScreeningToProbeChunkPlanner.Shard} :
    ∀ {id chunkNo : Nat},
      ∀ i ∈ insertShards parent group disk attempts now id chunkNo shards,
        (∃ no file, i = .putObject (disk, .chunkInput no) file) ∨
          ∃ id' chunkNo' shard, shard ∈ shards ∧
            i = .insertChunk (ScreeningToProbeChunkPlanner.probeChunk parent id' chunkNo'
              group disk attempts shard now) := by
  induction shards with
  | nil => exact fun _ hi => nomatch hi
  | cons shard rest ih =>
      intro id chunkNo i hi
      have hrest : ∀ {id chunkNo : Nat},
          i ∈ insertShards parent group disk attempts now id chunkNo rest →
            (∃ no file, i = .putObject (disk, .chunkInput no) file) ∨
              ∃ id' chunkNo' shard', shard' ∈ shard :: rest ∧
                i = .insertChunk (ScreeningToProbeChunkPlanner.probeChunk parent id'
                  chunkNo' group disk attempts shard' now) := by
        intro id chunkNo hi
        rcases ih i hi with hput | ⟨id', chunkNo', shard', hmem, hins⟩
        · exact .inl hput
        · exact .inr ⟨id', chunkNo', shard', .tail _ hmem, hins⟩
      unfold insertShards at hi
      split at hi
      · exact hrest hi
      · rcases List.mem_cons.mp hi with rfl | hi
        · exact .inl ⟨_, _, rfl⟩
        · rcases List.mem_cons.mp hi with rfl | hi
          · exact .inr ⟨id, chunkNo, shard, .head _, rfl⟩
          · exact hrest hi

/-- One object is put for each type, before what follows. -/
theorem mem_putFiles {disk : Disk} {keys : PerType Key} {files : PerType File} {last j : Instr}
    (hj : j ∈ putFiles disk keys files ++ [last]) :
    (∃ t, j = .putObject (disk, keys.get t) (files.get t)) ∨ j = last := by
  simp only [putFiles, List.cons_append, List.nil_append, List.mem_cons, List.not_mem_nil,
    or_false] at hj
  rcases hj with rfl | rfl | rfl | rfl
  · exact .inl ⟨.valid, rfl⟩
  · exact .inl ⟨.invalid, rfl⟩
  · exact .inl ⟨.risky, rfl⟩
  · exact .inr rfl

theorem get_outputKeys (chunk : Chunk) (t : OutputType) :
    (outputKeys chunk).get t = .chunkOutput chunk.chunkNo t := by
  cases t <;> rfl

theorem get_finalKeys (t : OutputType) : finalKeys.get t = .finalResult t := by
  cases t <;> rfl

/-- **What an instruction has its process run next.** -/
theorem exec_leads {i : Instr} {code : List Instr} (h : exec php p i s = some (s', .go code)) :
    ∀ j ∈ code, Leads s i j := by
  cases i with
  | download id verdicts =>
      obtain ⟨-, hn | ⟨chunk, input, hfind, -, hn⟩⟩ := download_cases h
      · exact nomatch hn
      · cases hn
        intro j hj
        rcases mem_putFiles hj with ⟨t, rfl⟩ | rfl
        · rw [get_outputKeys]
          exact .put _ (.output _ _ _ t)
        · exact .complete hfind rfl
  | loadCompletion id payload =>
      obtain ⟨-, hn | hn | ⟨chunk, hfind, hlive, ⟨hstage, -, hn⟩ | ⟨hstage, -, hn⟩ |
        ⟨hstage, hn⟩⟩⟩ := loadCompletion_cases h
      · exact nomatch hn
      · cases hn
        exact fun j hj => nomatch hj
      · cases hn
        intro j hj
        rw [List.mem_singleton.mp hj]
        exact .handoff hfind hlive hstage
      · cases hn
        intro j hj
        simp only [finishScreening, List.mem_cons, List.not_mem_nil, or_false] at hj
        rcases hj with rfl | rfl | rfl
        · exact .update hfind hlive
        · exact .metrics hfind _
        · exact .dispatch id payload
      · cases hn
        intro j hj
        simp only [finishProbe, List.mem_cons, List.not_mem_nil, or_false] at hj
        rcases hj with rfl | rfl | rfl | rfl
        · exact .update hfind hlive
        · exact .retry hfind hlive hstage
        · exact .metrics hfind _
        · exact .dispatch id payload
  | planHandoff r =>
      have hfinish : ∀ {candidates : Option Nat}, ∀ j ∈ finishScreening r candidates,
          Leads s (.planHandoff r) j := by
        intro candidates j hj
        simp only [finishScreening, List.mem_cons, List.not_mem_nil, or_false] at hj
        rcases hj with rfl | rfl | rfl
        · exact .handoffUpdate r
        · exact .handoffMetrics r _
        · exact .handoffDispatch r
      obtain ⟨-, hn | ⟨disk, -, ⟨-, hn⟩ | ⟨-, hn⟩⟩⟩ := planHandoff_cases h
      · exact nomatch hn
      · cases hn
        exact hfinish
      · cases hn
        intro j hj
        rcases List.mem_append.mp hj with hj | hj
        · simp only [handoffCode, List.mem_cons, List.not_mem_nil, or_false] at hj
          rcases hj with rfl | rfl | rfl | rfl
          · exact .beginProbe r disk _
          · exact .put _ (.rewrite r .valid)
          · exact .put _ (.rewrite r .risky)
          · exact .put _ (.rewrite r .invalid)
        · exact hfinish j hj
  | beginProbe r disk shards =>
      obtain ⟨-, ⟨-, -, hn⟩ | ⟨-, -, hn⟩⟩ := beginProbe_cases h
      · cases hn
        exact fun j hj => nomatch hj
      · cases hn
        intro j hj
        rcases List.mem_append.mp hj with hj | hj
        · rcases insertShards_cases j hj with ⟨no, file, rfl⟩ |
            ⟨id, chunkNo, shard, hshard, rfl⟩
          · exact .put _ (.probeInput r disk shards no)
          · exact .insertProbe id chunkNo hshard
        · rw [List.mem_singleton.mp hj]
          exact .commitProbe r disk shards
  | planRetry r =>
      obtain ⟨-, hn | ⟨fresh, disk, hfind, -, ⟨-, hn⟩ | ⟨-, hn⟩⟩⟩ := planRetry_cases h
      · exact nomatch hn
      · cases hn
        intro j hj
        rw [List.mem_singleton.mp hj]
        exact .split hfind disk
      · cases hn
        exact fun j hj => nomatch hj
  | splitRisky chunk disk =>
      obtain ⟨-, hn | ⟨key, file, -, -, -, hn⟩⟩ := splitRisky_cases h
      · cases hn
        exact fun j hj => nomatch hj
      · cases hn
        intro j hj
        simp only [List.mem_cons, List.not_mem_nil, or_false] at hj
        rcases hj with rfl | rfl | rfl
        · exact .put _ (.filtered chunk disk key)
        · exact .beginRetry chunk disk _
        · exact .updateParent chunk disk key _
  | beginRetry chunk disk emails =>
      obtain ⟨-, -, hn⟩ := beginRetry_cases h
      cases hn
      intro j hj
      simp only [List.mem_cons, List.not_mem_nil, or_false] at hj
      rcases hj with rfl | rfl | rfl
      · exact .put _ (.retryInput chunk disk emails _)
      · exact .insertRetry chunk disk emails
      · exact .commitRetry chunk disk emails
  | readMetrics id delta =>
      cases h
      intro j hj
      rw [List.mem_singleton.mp hj]
      exact .saveMetrics id delta _
  | loadFailure id retryable =>
      obtain ⟨-, hn | hn | ⟨chunk, hfind, hlive, hn⟩⟩ := loadFailure_cases h
      · exact nomatch hn
      · cases hn
        exact fun j hj => nomatch hj
      · cases hn
        intro j hj
        rw [List.mem_singleton.mp hj]
        exact .updateFailed hfind hlive
  | loadChunks job cache =>
      obtain ⟨-, ⟨-, hn⟩ | ⟨-, hn⟩ | ⟨hfinalize, hn⟩⟩ := loadChunks_cases h
      · cases hn
        exact fun j hj => nomatch hj
      · cases hn
        intro j hj
        rw [List.mem_singleton.mp hj]
        exact .failChunks job cache _
      · cases hn
        intro j hj
        rw [List.mem_singleton.mp hj]
        exact .merge hfinalize
  | merge job chunks cache =>
      obtain ⟨-, ⟨-, hn⟩ | ⟨-, hn⟩⟩ := merge_cases h
      · cases hn
        intro j hj
        rcases mem_putFiles hj with ⟨t, rfl⟩ | rfl
        · rw [get_finalKeys]
          exact .put _ (.final job chunks cache t)
        · exact .completeJob job chunks cache _ _
      · cases hn
        intro j hj
        rcases mem_putFiles hj with ⟨t, rfl⟩ | rfl
        · rw [get_finalKeys]
          exact .put _ (.final job chunks cache t)
        · exact .failMissing job chunks cache _
  | _ =>
      obtain rfl := exec_quiet rfl h
      exact fun j hj => nomatch hj

end Emits

/-! ## What an instruction does to the chunk table -/

/-- The row an instruction of a request writes back: the chunk it is about, the
model it was loaded as, and the model with the new attributes. -/
inductive Writes (s : Store) : Instr → Nat → Chunk → Chunk → Prop
  | completed (r : Request) : Writes s (.updateCompleted r) r.chunk.id r.chunk r.completed
  | failed (chunk : Chunk) (retryable : Bool) :
      Writes s (.updateFailed chunk retryable) chunk.id chunk
        (chunk.failedAttempt s.settings retryable)
  | parent (chunk : Chunk) (key : Key) (filteredCount : Nat) :
      Writes s (.updateParent chunk key filteredCount) chunk.id chunk
        (chunk.withFilteredRisky key filteredCount)

/-- An instruction that opens a transaction. -/
inductive Begins : Instr → Prop
  | probe (r : Request) (disk : Disk) (shards : List ScreeningToProbeChunkPlanner.Shard) :
      Begins (.beginProbe r disk shards)
  | retry (chunk : Chunk) (disk : Disk) (emails : List Text) :
      Begins (.beginRetry chunk disk emails)

/-- What instruction `i` of process `p` does to the rows and the transaction of
`s`. -/
inductive Change (p : Nat) (s : Store) : Instr → Store → Prop
  | keep {i : Instr} {s' : Store} (hchunks : s'.chunks = s.chunks) (htxn : s'.txn = s.txn) :
      Change p s i s'
  | create {disk : Disk} {chunkNo emailCount : Nat} {s' : Store}
      (hfree : s.taken chunkNo = false) (hunstaged : s.staged chunkNo = false)
      (hchunks : s'.chunks = s.chunks ++
        [{ id := s.nextId, chunkNo := chunkNo, inputDisk := some disk,
           inputKey := .chunkInput chunkNo, emailCount := emailCount, createdAt := s.now }])
      (htxn : s'.txn = s.txn) :
      Change p s (.createChunk disk chunkNo emailCount) s'
  | lock {i : Instr} {s' : Store} (hbegins : Begins i) (hopen : s.txn = none)
      (hchunks : s'.chunks = s.chunks) (htxn : s'.txn = some ⟨p, []⟩) : Change p s i s'
  | stage {row : Chunk} {t : Txn} {s' : Store} (hfree : s.taken row.chunkNo = false)
      (hopen : s.txn = some t) (hchunks : s'.chunks = s.chunks)
      (htxn : s'.txn = some { t with rows := t.rows ++ [row] }) :
      Change p s (.insertChunk row) s'
  | violation {row : Chunk} {s' : Store} (htaken : s.taken row.chunkNo = true)
      (hs : s' = s.rollback p) : Change p s (.insertChunk row) s'
  | commit {t : Txn} {s' : Store} (hopen : s.txn = some t)
      (hchunks : s'.chunks = s.chunks ++ t.rows) (htxn : s'.txn = none) :
      Change p s .commit s'
  | write {i : Instr} {id : Nat} {model filled : Chunk} {s' : Store}
      (hwrites : Writes s i id model filled)
      (hchunks : s'.chunks = Table.update Chunk.id s.chunks id (Chunk.update model filled))
      (htxn : s'.txn = s.txn) : Change p s i s'

section Change
variable {php : Php} {p : Nat} {s s' : Store} {n : Next Instr}

/-- **What an instruction can do to the chunk table.** -/
theorem exec_change {i : Instr} (h : exec php p i s = some (s', n)) : Change p s i s' := by
  cases i with
  | createChunk disk chunkNo emailCount =>
      simp only [exec, ValidEmailVerifier.createChunk] at h
      split at h
      next => cases h; exact .keep rfl rfl
      next hfree =>
        split at h
        next => exact nomatch h
        next hunstaged =>
          cases h
          exact .create (by simpa using hfree) (by simpa using hunstaged) rfl rfl
  | beginProbe r disk shards =>
      obtain ⟨hopen, ⟨-, hs, -⟩ | ⟨-, hs, -⟩⟩ := beginProbe_cases h
      · exact .keep (hs ▸ rfl) (hs ▸ rfl)
      · exact .lock (.probe r disk shards) hopen (hs ▸ rfl) (hs ▸ rfl)
  | insertChunk row =>
      simp only [exec, ValidEmailVerifier.insertChunk] at h
      split at h
      next htaken => cases h; exact .violation htaken rfl
      next hfree =>
        split at h
        next t hopen => cases h; exact .stage (by simpa using hfree) hopen rfl rfl
        next => cases h; exact .keep rfl rfl
  | commit =>
      simp only [exec, ValidEmailVerifier.commit] at h
      split at h
      next t hopen => cases h; exact .commit hopen rfl rfl
      next => cases h; exact .keep rfl rfl
  | beginRetry chunk disk emails =>
      obtain ⟨hopen, hs, -⟩ := beginRetry_cases h
      exact .lock (.retry chunk disk emails) hopen (hs ▸ rfl) (hs ▸ rfl)
  | updateCompleted r => cases h; exact .write (.completed r) rfl rfl
  | updateParent chunk key filteredCount => cases h; exact .write (.parent _ _ _) rfl rfl
  | updateFailed chunk retryable => cases h; exact .write (.failed _ _) rfl rfl
  | putObject addr file => cases h; exact .keep rfl rfl
  | dispatchFinalize => cases h; exact .keep rfl rfl
  | updateTotals job totals => cases h; exact .keep rfl rfl
  | resetMetrics screeningTotal => cases h; exact .keep rfl rfl
  | failJob job message => cases h; exact .keep rfl rfl
  | saveMetrics id write => cases h; exact .keep rfl rfl
  | completeJob job disk counts => cases h; exact .keep rfl rfl
  | markJobFailed job message => cases h; exact .keep rfl rfl
  | _ =>
      obtain rfl := exec_reads rfl h
      exact .keep rfl rfl

/-- A row that is there stays there, and only a write about it changes it. -/
theorem Change.find {i : Instr} {id : Nat} {row : Chunk} (h : Change p s i s')
    (hfind : s.findChunk id = some row) :
    s'.findChunk id = some row ∨ ∃ model filled, Writes s i id model filled ∧
      s'.findChunk id = some (Chunk.update model filled row) := by
  have hgrow : ∀ {rows : List Chunk}, s'.chunks = s.chunks ++ rows →
      s'.findChunk id = some row := by
    intro rows hrows
    have hfind' : Table.find Chunk.id s.chunks id = some row := hfind
    rw [Store.findChunk, hrows, Table.find_append, hfind']
    rfl
  cases h with
  | keep hchunks _ => exact .inl (by rw [Store.findChunk, hchunks]; exact hfind)
  | create _ _ hchunks _ => exact .inl (hgrow hchunks)
  | lock _ _ hchunks _ => exact .inl (by rw [Store.findChunk, hchunks]; exact hfind)
  | stage _ _ hchunks _ => exact .inl (by rw [Store.findChunk, hchunks]; exact hfind)
  | violation _ hs => exact .inl (by rw [hs, Store.findChunk_rollback]; exact hfind)
  | commit _ hchunks _ => exact .inl (hgrow hchunks)
  | @write i id' model filled _ hwrites hchunks _ =>
      by_cases hid : id = id'
      · subst hid
        refine .inr ⟨model, filled, hwrites, ?_⟩
        rw [Store.findChunk, hchunks,
          Table.find_update_self (fun r => Chunk.update_id model filled r)]
        exact congrArg (Option.map _) hfind
      · left
        rw [Store.findChunk, hchunks,
          Table.find_update_of_ne (fun r => Chunk.update_id model filled r) hid]
        exact hfind

/-- A row after an instruction is an old row, the row it inserted, or one without
a parent. -/
theorem Change.mem_allRows {i : Instr} {row' : Chunk} (h : Change p s i s')
    (hmem : row' ∈ allRows s') :
    (∃ row ∈ allRows s, SameOrigin row row') ∨ i = .insertChunk row' ∨
      (row'.parentChunkId = none ∧ row'.inputKey = .chunkInput row'.chunkNo) := by
  have hold : row' ∈ allRows s → (∃ row ∈ allRows s, SameOrigin row row') ∨
      i = .insertChunk row' ∨
        (row'.parentChunkId = none ∧ row'.inputKey = .chunkInput row'.chunkNo) :=
    fun hmem => .inl ⟨row', hmem, .refl row'⟩
  unfold allRows stagedRows at hmem
  cases h with
  | keep hchunks htxn =>
      rw [hchunks, htxn] at hmem
      exact hold hmem
  | create hfree hunstaged hchunks htxn =>
      rw [hchunks, htxn, List.append_assoc] at hmem
      rcases List.mem_append.mp hmem with hmem | hmem
      · exact hold (List.mem_append_left _ hmem)
      · rcases List.mem_cons.mp hmem with rfl | hmem
        · exact .inr (.inr ⟨rfl, rfl⟩)
        · exact hold (List.mem_append_right _ hmem)
  | lock hbegins hopen hchunks htxn =>
      rw [hchunks, htxn] at hmem
      rcases List.mem_append.mp hmem with hmem | hmem
      · exact hold (List.mem_append_left _ hmem)
      · exact nomatch hmem
  | @stage row t _ hfree hopen hchunks htxn =>
      rw [hchunks, htxn] at hmem
      rcases List.mem_append.mp hmem with hmem | hmem
      · exact hold (List.mem_append_left _ hmem)
      · rcases List.mem_append.mp hmem with hmem | hmem
        · refine hold (List.mem_append_right _ ?_)
          simpa [stagedRows, hopen] using hmem
        · exact .inr (.inl (by rw [List.mem_singleton.mp hmem]))
  | violation htaken hs =>
      refine hold ?_
      rw [hs, Store.rollback] at hmem
      split at hmem
      · rcases List.mem_append.mp hmem with hmem | hmem
        · exact List.mem_append_left _ hmem
        · exact nomatch hmem
      · exact hmem
  | commit hopen hchunks htxn =>
      refine hold ?_
      rw [hchunks, htxn] at hmem
      simpa [allRows, stagedRows, hopen] using hmem
  | write hwrites hchunks htxn =>
      rw [hchunks, htxn] at hmem
      rcases List.mem_append.mp hmem with hmem | hmem
      · rcases Table.mem_update_cases hmem with ⟨hmem, -⟩ | ⟨row, hrow, -, rfl⟩
        · exact hold (List.mem_append_left _ hmem)
        · exact .inl ⟨row, List.mem_append_left _ hrow, sameOrigin_update _ _ _⟩
      · exact hold (List.mem_append_right _ hmem)

end Change

/-- The row an instruction inserts. -/
def created (s : Store) : Instr → List Chunk
  | .createChunk disk chunkNo emailCount =>
      [{ id := s.nextId, chunkNo := chunkNo, inputDisk := some disk,
         inputKey := .chunkInput chunkNo, emailCount := emailCount, createdAt := s.now }]
  | .insertChunk row => [row]
  | _ => []

theorem allRows_rollback_sublist (s : Store) (p : Nat) :
    (allRows (s.rollback p)).Sublist (allRows s) := by
  unfold Store.rollback
  split
  · exact (List.append_sublist_append_left _).mpr (List.nil_sublist _)
  · exact List.Sublist.refl _

/-- A column that updates keep has no new entries but those of the inserted row. -/
theorem Change.column {p : Nat} {s s' : Store} {i : Instr} {α : Type} (g : Chunk → α)
    (hg : ∀ model filled row, g (Chunk.update model filled row) = g row)
    (h : Change p s i s') :
    ((allRows s').map g).Subperm ((created s i ++ allRows s).map g) := by
  have hsame : (allRows s').map g = (allRows s).map g →
      ((allRows s').map g).Subperm ((created s i ++ allRows s).map g) := by
    intro heq
    rw [heq, List.map_append]
    exact (List.sublist_append_right _ _).subperm
  cases h with
  | keep hchunks htxn => exact hsame (by simp [allRows, stagedRows, hchunks, htxn])
  | create hfree hunstaged hchunks htxn =>
      refine List.Perm.subperm (List.Perm.map g ?_)
      simp only [allRows, stagedRows, hchunks, htxn, created]
      exact List.Perm.append_right _ List.perm_append_comm
  | lock hbegins hopen hchunks htxn =>
      exact hsame (by simp [allRows, stagedRows, hchunks, htxn, hopen])
  | stage hfree hopen hchunks htxn =>
      refine List.Perm.subperm (List.Perm.map g ?_)
      simp only [allRows, stagedRows, hchunks, htxn, hopen, created, Option.map_some,
        Option.getD_some]
      rw [← List.append_assoc]
      exact List.perm_append_comm
  | violation htaken hs =>
      rw [hs]
      exact (((allRows_rollback_sublist s p).trans
        (List.sublist_append_right _ _)).map g).subperm
  | commit hopen hchunks htxn =>
      exact hsame (by simp [allRows, stagedRows, hchunks, htxn, hopen])
  | @write _ id model filled _ hwrites hchunks htxn =>
      refine hsame ?_
      simp only [allRows, stagedRows, hchunks, htxn, List.map_append]
      rw [Table.map_update g fun row _ _ => hg model filled row]

theorem mem_allRows_rollback {s : Store} {p : Nat} {row : Chunk}
    (h : row ∈ allRows (s.rollback p)) : row ∈ allRows s :=
  (allRows_rollback_sublist s p).subset h

theorem column_updateChunk {s : Store} {id : Nat} {f : Chunk → Chunk} {α : Type}
    (g : Chunk → α) (hg : ∀ row, g (f row) = g row) :
    (allRows (s.updateChunk id f)).map g = (allRows s).map g := by
  simp only [allRows, List.map_append, Store.updateChunk]
  rw [Table.map_update g fun row _ _ => hg row]
  rfl

theorem mem_allRows_updateChunk {s : Store} {id : Nat} {f : Chunk → Chunk} {row' : Chunk}
    (hf : ∀ row, SameOrigin row (f row)) (h : row' ∈ allRows (s.updateChunk id f)) :
    ∃ row ∈ allRows s, SameOrigin row row' := by
  rcases List.mem_append.mp h with h | h
  · rcases Table.mem_update_cases h with ⟨hmem, -⟩ | ⟨row, hrow, -, rfl⟩
    · exact ⟨row', List.mem_append_left _ hmem, .refl row'⟩
    · exact ⟨row, List.mem_append_left _ hrow, hf row⟩
  · exact ⟨row', List.mem_append_right _ h, .refl row'⟩

/-! ## What an instruction does to the rest of the store -/

/-- The job row an instruction writes back. -/
inductive JobWrites (s : Store) : Instr → Job → Job → Prop
  | totals (job : Job) (totals : Totals) :
      JobWrites s (.updateTotals job totals) job (withTotals job totals s.now)
  | failJob (job : Job) (message : String) :
      JobWrites s (.failJob job message) job (prepareFailedJob job message s.now)
  | completed (job : Job) (disk : Disk) (counts : PerType Nat) :
      JobWrites s (.completeJob job disk counts) job
        (FinalizeVerificationJob.completed job disk counts s.now)
  | failed (job : Job) (message : String) :
      JobWrites s (.markJobFailed job message) job
        (FinalizeVerificationJob.failed job message s.now)

/-- What instruction `i` leaves alone. -/
structure Frame (i : Instr) (s s' : Store) : Prop where
  now : s'.now = s.now
  settings : s'.settings = s.settings
  upload : s'.upload = s.upload
  nextId : s.nextId ≤ s'.nextId
  job : s'.job = s.job ∨
    ∃ model filled, JobWrites s i model filled ∧ s'.job = Job.update model filled s.job
  objects : s'.objects = s.objects ∨
    ∃ addr file, i = .putObject addr file ∧ s' = s.put addr file
  queue : (i ≠ .dispatchFinalize ∧ s'.queue = s.queue) ∨
    (i = .dispatchFinalize ∧ s'.queue = s.queue + 1)
  recorded : s'.recorded = s.recorded ∨
    ∃ id write, i = .saveMetrics id write ∧ s'.recorded = s.recorded ++ [id]

section Frame
variable {php : Php} {p : Nat} {s s' : Store} {i : Instr} {n : Next Instr}

/-- An instruction that changes the chunk rows, the transaction or the metrics. -/
theorem Frame.rows (hi : i ≠ .dispatchFinalize) (chunks : List Chunk) (txn : Option Txn)
    (metrics : Metrics) {nextId : Nat} (hid : s.nextId ≤ nextId) :
    Frame i s { s with chunks := chunks, txn := txn, metrics := metrics, nextId := nextId } where
  now := rfl
  settings := rfl
  upload := rfl
  nextId := hid
  job := .inl rfl
  objects := .inl rfl
  queue := .inl ⟨hi, rfl⟩
  recorded := .inl rfl

theorem Frame.refl (hi : i ≠ .dispatchFinalize) : Frame i s s :=
  .rows hi s.chunks s.txn s.metrics (Nat.le_refl _)

theorem Frame.rollback (hi : i ≠ .dispatchFinalize) (p : Nat) : Frame i s (s.rollback p) := by
  unfold Store.rollback
  split
  · exact .rows hi s.chunks none s.metrics (Nat.le_refl _)
  · exact .refl hi

/-- An instruction that writes the job row. -/
theorem Frame.jobRow (hi : i ≠ .dispatchFinalize) {model filled : Job}
    (hw : JobWrites s i model filled) :
    Frame i s { s with job := Job.update model filled s.job } where
  now := rfl
  settings := rfl
  upload := rfl
  nextId := Nat.le_refl _
  job := .inr ⟨model, filled, hw, rfl⟩
  objects := .inl rfl
  queue := .inl ⟨hi, rfl⟩
  recorded := .inl rfl

/-- **What an instruction leaves alone.** -/
theorem exec_frame (h : exec php p i s = some (s', n)) : Frame i s s' := by
  by_cases hi : i = .dispatchFinalize
  · subst hi
    cases h
    exact ⟨rfl, rfl, rfl, Nat.le_refl _, .inl rfl, .inl rfl, .inr ⟨rfl, rfl⟩, .inl rfl⟩
  cases i with
  | putObject addr file =>
      cases h
      exact ⟨rfl, rfl, rfl, Nat.le_refl _, .inl rfl, .inr ⟨addr, file, rfl, rfl⟩,
        .inl ⟨hi, rfl⟩, .inl rfl⟩
  | dispatchFinalize => exact absurd rfl hi
  | createChunk disk chunkNo emailCount =>
      simp only [exec, ValidEmailVerifier.createChunk] at h
      split at h
      next => cases h; exact .refl hi
      next =>
        split at h
        next => exact nomatch h
        next => cases h; exact .rows hi _ _ _ (Nat.le_succ _)
  | beginProbe r disk shards =>
      obtain ⟨-, ⟨-, rfl, -⟩ | ⟨-, rfl, -⟩⟩ := beginProbe_cases h
      · exact .refl hi
      · refine .rows hi _ _ _ ?_
        show s.nextId ≤ s.nextId + shards.length + 1
        omega
  | insertChunk row =>
      simp only [exec, ValidEmailVerifier.insertChunk] at h
      split at h
      next => cases h; exact .rollback hi p
      next =>
        split at h
        next => cases h; exact .rows hi _ _ _ (Nat.le_refl _)
        next => cases h; exact .refl hi
  | commit =>
      simp only [exec, ValidEmailVerifier.commit] at h
      split at h
      next => cases h; exact .rows hi _ _ _ (Nat.le_refl _)
      next => cases h; exact .refl hi
  | beginRetry chunk disk emails =>
      obtain ⟨-, rfl, -⟩ := beginRetry_cases h
      exact .rows hi _ _ _ (Nat.le_succ _)
  | updateCompleted r => cases h; exact .rows hi _ _ _ (Nat.le_refl _)
  | updateParent chunk key filteredCount => cases h; exact .rows hi _ _ _ (Nat.le_refl _)
  | updateFailed chunk retryable => cases h; exact .rows hi _ _ _ (Nat.le_refl _)
  | resetMetrics screeningTotal => cases h; exact .rows hi _ _ _ (Nat.le_refl _)
  | updateTotals job totals => cases h; exact .jobRow hi (.totals job totals)
  | failJob job message => cases h; exact .jobRow hi (.failJob job message)
  | completeJob job disk counts => cases h; exact .jobRow hi (.completed job disk counts)
  | markJobFailed job message => cases h; exact .jobRow hi (.failed job message)
  | saveMetrics id write =>
      cases h
      exact ⟨rfl, rfl, rfl, Nat.le_refl _, .inl rfl, .inl rfl, .inl ⟨hi, rfl⟩,
        .inr ⟨id, write, rfl, rfl⟩⟩
  | _ =>
      obtain rfl := exec_reads rfl h
      exact .refl hi

end Frame

/-! ## The code of a parse -/

/-- The instructions of `ParseAndChunkJob`. -/
def isParseInstr : Instr → Bool
  | .putObject _ _ | .createChunk _ _ _ | .updateTotals _ _ | .resetMetrics _
  | .failJob _ _ | .dispatchFinalize => true
  | _ => false

theorem isParse_parseCode {php : Php} {σ : Settings} {job : Job}
    {upload : Option (List ParseAndChunkJob.Feed)}
    {lookups : List ParseAndChunkJob.Lookup} {i : Instr}
    (h : i ∈ parseCode php σ job upload lookups) : isParseInstr i = true := by
  have heff : ∀ {disk : Disk} {es : List ParseAndChunkJob.Effect},
      i ∈ es.map (effectCode disk) → isParseInstr i = true := by
    intro disk es hi
    obtain ⟨e, -, rfl⟩ := List.mem_map.mp hi
    cases e <;> rfl
  unfold parseCode at h
  simp only at h
  split at h
  next =>
    rw [List.mem_singleton.mp h]
    rfl
  next =>
    split at h
    next m _ =>
      rcases List.mem_append.mp h with h | h
      · exact heff h
      · simp only [finishParse, List.mem_append] at h
        rcases h with ((h | h) | h) | h
        · obtain ⟨t, -, ht⟩ := List.mem_filterMap.mp h
          obtain ⟨file, -, rfl⟩ := Option.map_eq_some_iff.mp ht
          rfl
        · obtain ⟨emails, -, rfl⟩ := List.mem_map.mp h
          rfl
        · rcases List.mem_cons.mp h with rfl | h
          · rfl
          · rw [List.mem_singleton.mp h]
            rfl
        · split at h
          · rw [List.mem_singleton.mp h]
            rfl
          · exact nomatch h
    next =>
      rcases List.mem_append.mp h with h | h
      · exact heff h
      · rw [List.mem_singleton.mp h]
        rfl

/-! ## Outlines of the pipeline -/

section Outlines
variable {I : Store → Prop} {J : Nat → Kind → List Instr → Store → Prop} {c : State}

theorem outline_withStore (h : Outline I J c) {s' : Store} (hI : I s')
    (hfree : ∀ {q : Nat} {k : Kind} {code : List Instr}, c.At q k code →
      J q k code c.store → J q k code s') : Outline I J (withStore c s') :=
  h.env hI hfree

/-- The store changes and a process is started on it. -/
theorem outline_launch (h : Outline I J c) {s' : Store} {k : Kind} {code : List Instr}
    (hI : I s')
    (hfree : ∀ {q : Nat} {k : Kind} {code : List Instr}, c.At q k code →
      J q k code c.store → J q k code s')
    (hJ : J c.procs.length k code s') : Outline I J ((withStore c s').spawn k code) :=
  (outline_withStore h hI hfree).spawn hJ

/-- A state without processes needs only the invariant of its store. -/
theorem outline_idle (hprocs : c.procs = []) (hI : I c.store) : Outline I J c where
  store := hI
  procs := by
    intro p k code hp
    have hp' : c.procs[p]? = some ⟨k, code⟩ := hp
    rw [hprocs] at hp'
    exact nomatch hp'

end Outlines

/-! ## The next instruction of a step -/

/-- The instruction a step executes. -/
def nextInstr (c : State) : Action → Option Instr
  | .exec p => c.procs[p]?.bind (fun q => q.code.head?)
  | _ => none

@[simp] theorem nextInstr_exec {c : State} {p : Nat} {k : Kind} {i : Instr}
    {rest : List Instr} (h : c.At p k (i :: rest)) : nextInstr c (.exec p) = some i := by
  have hp : c.procs[p]? = some ⟨k, i :: rest⟩ := h
  simp [nextInstr, hp]

/-! ## Properties of every instruction -/

/-- The instructions a process starts with, and those of its handlers. -/
inductive Enters : Kind → Instr → Prop
  | download (id : Nat) (verdicts : List (Text × Worker.Verdict)) :
      Enters (.worker id) (.download id verdicts)
  | report (id : Nat) : Enters (.worker id) (.loadFailure id true)
  | complete (id : Nat) (payload : Payload) : Enters (.request id) (.loadCompletion id payload)
  | fail (id : Nat) (retryable : Bool) : Enters (.request id) (.loadFailure id retryable)
  | parse (job : Job) {i : Instr} (hparse : isParseInstr i = true) : Enters (.parse job) i
  | finalize (job : Job) (cache : List (Text × Text)) :
      Enters (.finalize job) (.loadChunks job cache)
  | failed (job : Job) : Enters (.finalize job) (.markJobFailed job finalizationFailed)

/-- What runs after an exception reports it, or fails the job. -/
theorem mem_handler {k : Kind} {code : List Instr} {i : Instr} (h : i ∈ handler k code) :
    (∃ job, i = .failJob job prepareFailed) ∨ (∃ id, i = .loadFailure id true) ∨
      ∃ job, i = .markJobFailed job finalizationFailed := by
  unfold handler at h
  split at h
  · exact nomatch h
  · exact .inl ⟨_, List.mem_singleton.mp h⟩
  · exact nomatch h
  · exact nomatch h
  · exact .inr (.inl ⟨_, List.mem_singleton.mp h⟩)
  · exact nomatch h
  · exact nomatch h
  · exact nomatch h
  · exact .inr (.inr ⟨_, List.mem_singleton.mp h⟩)

theorem forall_handler {P : Instr → Prop} (hprepare : ∀ job, P (.failJob job prepareFailed))
    (hreport : ∀ id, P (.loadFailure id true))
    (hfinalize : ∀ job, P (.markJobFailed job finalizationFailed)) {k : Kind}
    {code : List Instr} : ∀ i ∈ handler k code, P i := by
  intro i hi
  rcases mem_handler hi with ⟨job, rfl⟩ | ⟨id, rfl⟩ | ⟨job, rfl⟩
  · exact hprepare job
  · exact hreport id
  · exact hfinalize job

theorem enters_handler {k : Kind} {code : List Instr} {i : Instr} (h : i ∈ handler k code) :
    Enters k i := by
  unfold handler at h
  split at h
  · exact nomatch h
  · rw [List.mem_singleton.mp h]
    exact .parse _ rfl
  · exact nomatch h
  · exact nomatch h
  · rw [List.mem_singleton.mp h]
    exact .report _
  · exact nomatch h
  · exact nomatch h
  · exact nomatch h
  · rw [List.mem_singleton.mp h]
    exact .failed _

theorem loadCompletion_not_mem_handler {k : Kind} {code : List Instr} (id : Nat)
    (payload : Payload) : .loadCompletion id payload ∉ handler k code :=
  fun h => forall_handler (P := (.loadCompletion id payload ≠ ·)) (fun _ => (nomatch ·))
    (fun _ => (nomatch ·)) (fun _ => (nomatch ·)) _ h rfl

/-- Every instruction of every process has the property. -/
def EachInstr (P : Kind → Instr → Prop) (c : State) : Prop :=
  ∀ (p : Nat) (k : Kind) (code : List Instr), c.At p k code → ∀ i ∈ code, P k i

section EachInstr
variable {P : Kind → Instr → Prop} {php : Php} {c c' : State}

theorem EachInstr.spawn (h : EachInstr P c) {s : Store} {k : Kind} {code : List Instr}
    (hcode : ∀ i ∈ code, P k i) : EachInstr P ((withStore c s).spawn k code) := by
  intro p k' code' hat
  rcases Conf.at_spawn.mp hat with hat | ⟨-, rfl, rfl⟩
  · exact h p k' code' hat
  · exact hcode

theorem EachInstr.setCode (h : EachInstr P c) {s : Store} {p : Nat} {k : Kind}
    {old code : List Instr} (hat : c.At p k old) (hcode : ∀ i ∈ code, P k i) :
    EachInstr P ((withStore c s).setCode p code) := by
  intro q k' code' hq
  rcases Conf.at_setCode.mp hq with ⟨rfl, rfl, old', hold⟩ | ⟨-, hq⟩
  · obtain ⟨rfl, -⟩ := Conf.At.unique hat hold
    exact hcode
  · exact h q k' code' hq

/-- **A property that processes enter with, and that the instruction of the step hands
on,** holds of every instruction. -/
theorem eachInstr_stepAt {a : Action} (h : EachInstr P c)
    (henters : ∀ k i, Enters k i →
      (∀ id payload, i = .loadCompletion id payload → a = .complete id payload) → P k i)
    (hleads : ∀ k i j, nextInstr c a = some i → P k i → Leads c.store i j → P k j)
    (hs : act php c a = some c') : EachInstr P c' := by
  have hone : ∀ {k : Kind} {i : Instr}, Enters k i →
      (∀ id payload, i = .loadCompletion id payload → a = .complete id payload) →
        ∀ j ∈ [i], P k j := by
    intro k i hi ha j hj
    rw [List.mem_singleton.mp hj]
    exact henters k i hi ha
  have hhandler : ∀ {k : Kind} {code : List Instr}, ∀ i ∈ handler k code, P k i := by
    intro k code i hi
    refine henters k i (enters_handler hi) ?_
    rintro id payload rfl
    exact absurd hi (loadCompletion_not_mem_handler _ _)
  cases act_cases hs with
  | tick seconds => exact h
  | configure settings => exact h
  | upload disk chunkNo type file => exact h
  | claim hfind hpaused hcand => exact h.spawn (hone (.download _ _) nofun)
  | complete id payload => 
      refine h.spawn (s := c.store) (hone (.complete _ _) ?_)
      rintro _ _ ⟨⟩
      rfl
  | fail id retryable => exact h.spawn (s := c.store) (hone (.fail _ _) nofun)
  | startParse hstatus hidle =>
      refine h.spawn (s := c.store) ?_
      intro i hi
      have hparse := isParse_parseCode hi
      refine henters _ i (.parse _ hparse) ?_
      rintro id payload rfl
      exact nomatch hparse
  | startFinalize hqueue hidle => exact h.spawn (hone (.finalize _ _) nofun)
  | @exec p k i rest s' n hat hexec =>
      refine h.setCode hat ?_
      intro j hj
      cases n with
      | raise => exact hhandler j hj
      | go code =>
          rcases List.mem_append.mp hj with hj | hj
          · exact hleads k i j (nextInstr_exec hat) (h p k _ hat i (.head _))
              (exec_leads hexec j hj)
          · exact h p k _ hat j (.tail _ hj)
  | throw hat => exact h.setCode hat hhandler
  | kill hat => exact h.setCode hat fun _ hi => nomatch hi

/-- The same, when every instruction hands the property on. -/
theorem eachInstr_step {a : Action} (h : EachInstr P c)
    (henters : ∀ k i, Enters k i →
      (∀ id payload, i = .loadCompletion id payload → a = .complete id payload) → P k i)
    (hleads : ∀ k i j, P k i → Leads c.store i j → P k j)
    (hs : act php c a = some c') : EachInstr P c' :=
  eachInstr_stepAt h henters (fun k i j _ => hleads k i j) hs

theorem eachInstr_idle (h : c.procs = []) : EachInstr P c := by
  intro p k code hat
  have hp : c.procs[p]? = some ⟨k, code⟩ := hat
  rw [h] at hp
  exact nomatch hp

end EachInstr

/-! ## What a process is about -/

/-- The chunk an instruction of a worker or a request is about. -/
def subject : Instr → Option Nat
  | .download id _ => some id
  | .loadCompletion id _ => some id
  | .planHandoff r => some r.chunk.id
  | .beginProbe r _ _ => some r.chunk.id
  | .insertChunk row => row.parentChunkId
  | .updateCompleted r => some r.chunk.id
  | .planRetry r => some r.chunk.id
  | .splitRisky chunk _ => some chunk.id
  | .beginRetry chunk _ _ => some chunk.id
  | .updateParent chunk _ _ => some chunk.id
  | .readMetrics id _ => some id
  | .saveMetrics id _ => some id
  | .loadFailure id _ => some id
  | .updateFailed chunk _ => some chunk.id
  | _ => none

/-- The chunk a process is about. -/
def Kind.subject : Kind → Option Nat
  | .worker id => some id
  | .request id => some id
  | _ => none

/-- The instruction is about the chunk of its process, or about none. -/
def FocusedOn (k : Kind) (i : Instr) : Prop := subject i = none ∨ subject i = k.subject

/-- Every process is about its own chunk. -/
def AllFocused (c : State) : Prop := EachInstr FocusedOn c

theorem Writes.subject {s : Store} {i : Instr} {id : Nat} {model filled : Chunk}
    (h : Writes s i id model filled) : subject i = some id := by
  cases h <;> rfl

/-- **An instruction goes on with instructions about its own chunk.** -/
theorem FocusedOn.leads {s : Store} {k : Kind} {i j : Instr} (hi : FocusedOn k i)
    (h : Leads s i j) : FocusedOn k j := by
  cases h with
  | put => exact .inl rfl
  | complete hfind => exact hi
  | handoff hfind =>
      obtain rfl := Table.key_of_find hfind
      exact hi
  | update hfind =>
      obtain rfl := Table.key_of_find hfind
      exact hi
  | handoffUpdate r => exact hi
  | metrics hfind delta =>
      obtain rfl := Table.key_of_find hfind
      exact hi
  | handoffMetrics r delta => exact hi
  | dispatch => exact .inl rfl
  | handoffDispatch r => exact .inl rfl
  | retry hfind =>
      obtain rfl := Table.key_of_find hfind
      exact hi
  | beginProbe r disk shards => exact hi
  | insertProbe => exact hi
  | insertRetry chunk disk emails => exact hi
  | commitProbe => exact .inl rfl
  | commitRetry => exact .inl rfl
  | split hfind disk =>
      obtain hid := Table.key_of_find hfind
      exact hi.imp nofun fun ho => (congrArg some hid).trans ho
  | beginRetry chunk disk emails => exact hi
  | updateParent chunk disk key filteredCount => exact hi
  | saveMetrics id delta write => exact hi
  | updateFailed hfind =>
      obtain rfl := Table.key_of_find hfind
      exact hi
  | merge => exact .inl rfl
  | failChunks => exact .inl rfl
  | completeJob => exact .inl rfl
  | failMissing => exact .inl rfl

theorem focusedOn_enters {k : Kind} {i : Instr} (h : Enters k i) : FocusedOn k i := by
  cases h with
  | parse job hparse =>
      left
      cases i with
      | putObject | createChunk | updateTotals | resetMetrics | failJob | dispatchFinalize =>
          rfl
      | _ => exact nomatch hparse
  | finalize => exact .inl rfl
  | failed => exact .inl rfl
  | _ => exact .inr rfl

theorem focused_step {php : Php} {c c' : State} {a : Action} (h : AllFocused c)
    (hs : act php c a = some c') : AllFocused c' :=
  eachInstr_step h (fun _ _ hi _ => focusedOn_enters hi) (fun _ _ _ => FocusedOn.leads) hs

/-! ## What a request has loaded -/

/-- A request that goes on has loaded a live chunk. -/
def LoadedLive (_ : Kind) : Instr → Prop
  | .planHandoff r => Live r.chunk
  | .updateCompleted r => Live r.chunk
  | .updateFailed chunk _ => Live chunk
  | _ => True

theorem loadedLive_step {php : Php} {c c' : State} {a : Action} (h : EachInstr LoadedLive c)
    (hs : act php c a = some c') : EachInstr LoadedLive c' := by
  refine eachInstr_step h ?_ ?_ hs
  · intro k i hi _
    cases hi with
    | parse job hparse =>
        cases i with
        | planHandoff | updateCompleted | updateFailed => exact nomatch hparse
        | _ => trivial
    | _ => trivial
  · intro k i j hi hj
    cases hj with
    | handoff hfind hlive => exact hlive
    | update hfind hlive => exact hlive
    | handoffUpdate r => exact hi
    | updateFailed hfind hlive => exact hlive
    | _ => trivial

/-! ## What is still to come -/

/-- Some process has such an instruction to come. -/
def ahead (c : State) (f : Instr → Bool) : Bool := c.procs.any (fun q => q.code.any f)

section Ahead
variable {c : State} {f : Instr → Bool} {p : Nat} {k : Kind} {code : List Instr}

theorem ahead_iff : ahead c f = true ↔
    ∃ p k code, c.At p k code ∧ ∃ i ∈ code, f i = true := by
  unfold ahead
  rw [List.any_eq_true]
  constructor
  · rintro ⟨⟨k, code⟩, hmem, hany⟩
    obtain ⟨p, hp⟩ := List.getElem?_of_mem hmem
    exact ⟨p, k, code, hp, List.any_eq_true.mp hany⟩
  · rintro ⟨p, k, code, hat, hany⟩
    exact ⟨⟨k, code⟩, List.mem_of_getElem? hat, List.any_eq_true.mpr hany⟩

theorem ahead_eq_false (h : ahead c f = false) (hat : c.At p k code) :
    ∀ i ∈ code, f i = false := by
  intro i hi
  by_contra hf
  have htrue : ahead c f = true := ahead_iff.mpr ⟨p, k, code, hat, i, hi, by simpa using hf⟩
  rw [h] at htrue
  exact nomatch htrue

theorem ahead_spawn (h : ahead (c.spawn k code) f = true) :
    ahead c f = true ∨ ∃ i ∈ code, f i = true := by
  obtain ⟨q, k', code', hat, hany⟩ := ahead_iff.mp h
  rcases Conf.at_spawn.mp hat with hat | ⟨-, -, rfl⟩
  · exact .inl (ahead_iff.mpr ⟨q, k', code', hat, hany⟩)
  · exact .inr hany

theorem ahead_setCode (h : ahead (c.setCode p code) f = true) :
    ahead c f = true ∨ ∃ i ∈ code, f i = true := by
  obtain ⟨q, k', code', hat, hany⟩ := ahead_iff.mp h
  rcases Conf.at_setCode.mp hat with ⟨-, rfl, -⟩ | ⟨-, hat⟩
  · exact .inr hany
  · exact .inl (ahead_iff.mpr ⟨q, k', code', hat, hany⟩)

end Ahead

/-! ## Schedules -/

/-- Let process `p` execute `n` instructions. -/
def turns (p n : Nat) : List Action := List.replicate n (.exec p)

/-- An address filter for small schedules: it passes what contains an `@`. -/
def samplePhp : Php := ⟨fun e => e.contains '@', fun d => d⟩

/-- A job that is about to be parsed, with the candidates of its upload. -/
def sampleJob (σ : Settings) (upload : List String) : State where
  store :=
    { settings := σ
      job := { status := .processing }
      upload := some (upload.map fun e => .candidate e.toList) }
  procs := []

/-- A worker takes a chunk and gives every address the same verdict. -/
def claimBy (id : Nat) (addresses : List String) (type : OutputType) (reason : String) :
    Action :=
  .claim id .all 1 "w1".toList 600 (addresses.map fun e => (e.toList, type, reason.toList))

/-- Settings under which tempfails are retried, with a limit on probe attempts. -/
def retrySettings (probeMaxAttempts : Int) : Settings :=
  { probeStageEnabled := true
    tempfailRetryEnabled := true
    probeMaxAttempts := probeMaxAttempts }

/-- One address is screened, probed, and found to fail temporarily. -/
def tempfailSchedule : List Action :=
  .startParse [] :: turns 0 5 ++
    claimBy 0 ["a@b.co"] .valid "rcpt_ok" :: turns 1 17 ++
    claimBy 1 ["a@b.co"] .risky "smtp_tempfail" :: turns 2 17

/-- A job that has not been worked on: there is no process and no chunk. -/
structure Untouched (c : State) : Prop where
  procs : c.procs = []
  chunks : c.store.chunks = []
  txn : c.store.txn = none
  recorded : c.store.recorded = []

end ValidEmailVerifier
