/-
# `Pipeline.Schema` — the rows and objects one verification job lives in

The columns of `verification_jobs` and `verification_job_chunks` that the
pipeline reads or writes, the storage keys of `JobStorage`, the engine settings
and the contents of the storage disk.

Three conventions.

* The `valid_* / invalid_* / risky_*` triples of the tables are one field of
  type `PerType`, since the source loops over the three names.
* A CSV object is the list of its records, the columns `str_getcsv` returns; a
  line without a delimiter, such as a line of a chunk input, is a record of one
  column.
* `Chunk.update model filled row` is Eloquent's `$model->update([...])`: only
  the attributes in which `filled` differs from the loaded `model` are written
  to `row`, which may have changed since `model` was loaded.
-/
import Mathlib.Data.List.Perm.Basic

namespace ValidEmailVerifier

/-- Addresses, reasons, worker ids: every string the pipeline looks into. -/
abbrev Text := List Char

/-- A CSV record. -/
abbrev Record := List Text

/-- The content of a storage object. -/
abbrev File := List Record

/-! ## Enumerations -/

inductive ChunkStatus where
  | pending | processing | completed | failed
  deriving DecidableEq, Repr

inductive JobStatus where
  | pending | processing | completed | failed
  deriving DecidableEq, Repr

/-- `processing_stage` and `source_stage`. -/
inductive Stage where
  | screening | smtpProbe
  deriving DecidableEq, Repr

/-- The three output files of a chunk and of a job. -/
inductive OutputType where
  | valid | invalid | risky
  deriving DecidableEq, Repr

/-- `['valid', 'invalid', 'risky']`, in the order the source loops over it. -/
def OutputType.all : List OutputType := [.valid, .invalid, .risky]

/-- The status column of a result row. -/
def OutputType.name : OutputType → Text
  | .valid => "valid".toList
  | .invalid => "invalid".toList
  | .risky => "risky".toList

def OutputType.ofName? (s : Text) : Option OutputType :=
  OutputType.all.find? (fun t => t.name == s)

/-- Sorting a list by output type keeps every element once. -/
theorem OutputType.partition_perm {α : Type} (f : α → OutputType) (l : List α) :
    (OutputType.all.flatMap (fun t => l.filter (fun a => f a == t))).Perm l := by
  simp only [OutputType.all, List.flatMap_cons, List.flatMap_nil, List.append_nil]
  induction l with
  | nil => exact .refl _
  | cons a rest ih =>
      simp only [List.filter_cons]
      cases h : f a with
      | valid => simpa using ih.cons a
      | invalid =>
          refine List.Perm.trans ?_ (ih.cons a)
          simp
      | risky =>
          refine List.Perm.trans ?_ (ih.cons a)
          simp [← List.append_assoc]

inductive Provider where
  | generic | gmail | microsoft | yahoo
  deriving DecidableEq, Repr

/-- One value for each output type. -/
structure PerType (α : Type) where
  valid : α
  invalid : α
  risky : α
  deriving DecidableEq, Repr

namespace PerType

variable {α β : Type}

def get (x : PerType α) : OutputType → α
  | .valid => x.valid
  | .invalid => x.invalid
  | .risky => x.risky

/-- The same value three times. -/
def const (a : α) : PerType α := ⟨a, a, a⟩

def set (x : PerType α) (t : OutputType) (a : α) : PerType α :=
  match t with
  | .valid => { x with valid := a }
  | .invalid => { x with invalid := a }
  | .risky => { x with risky := a }

def map (f : α → β) (x : PerType α) : PerType β := ⟨f x.valid, f x.invalid, f x.risky⟩

@[simp] theorem get_const (a : α) (t : OutputType) : (const a).get t = a := by
  cases t <;> rfl

@[simp] theorem get_map (f : α → β) (x : PerType α) (t : OutputType) :
    (x.map f).get t = f (x.get t) := by
  cases t <;> rfl

theorem get_set (x : PerType α) (t t' : OutputType) (a : α) :
    (x.set t a).get t' = if t' = t then a else x.get t' := by
  cases t <;> cases t' <;> rfl

end PerType

/-! ## Storage keys -/

/-- The keys `JobStorage` makes for one job, and the key `TempfailRetryPlanner`
derives from a risky output key. -/
inductive Key where
  | chunkInput (chunkNo : Nat)
  | chunkOutput (chunkNo : Nat) (type : OutputType)
  | filteredRisky (key : Key)
  | cachedResult (type : OutputType)
  | finalResult (type : OutputType)
  | cacheMiss
  deriving DecidableEq, Repr

abbrev Disk := String

/-- An object's address: its disk and its key. -/
abbrev Addr := Disk × Key

/-- What the storage disks hold. -/
abbrev Objects := Addr → Option File

/-! ## Eloquent updates -/

/-- One attribute of `$model->update([...])`: it is written only when it is
dirty, that is when the new value differs from the loaded one. -/
def dirty {α : Type} [DecidableEq α] (model filled row : α) : α :=
  if filled = model then row else filled

@[simp] theorem dirty_clean {α : Type} [DecidableEq α] (model row : α) :
    dirty model model row = row := if_pos rfl

@[simp] theorem dirty_fresh {α : Type} [DecidableEq α] (model filled : α) :
    dirty model filled model = filled := by
  unfold dirty
  split
  next h => exact h.symm
  next => rfl

/-! ## Chunks -/

/-- A row of `verification_job_chunks`; the defaults are the columns' defaults. -/
structure Chunk where
  id : Nat
  chunkNo : Nat
  status : ChunkStatus := .pending
  processingStage : Option Stage := some .screening
  sourceStage : Option Stage := none
  parentChunkId : Option Nat := none
  routingProvider : Option Provider := none
  routingDomain : Option Text := none
  preferredPool : Option Text := none
  rotationGroupId : Option Nat := none
  lastWorkerIds : List Text := []
  maxProbeAttempts : Nat := 3
  inputDisk : Option Disk := none
  inputKey : Key
  outputDisk : Option Disk := none
  keys : PerType (Option Key) := .const none
  emailCount : Nat := 0
  counts : PerType (Option Nat) := .const none
  attempts : Nat := 0
  engineServerId : Option Nat := none
  assignedWorkerId : Option Text := none
  claimedAt : Option Nat := none
  claimExpiresAt : Option Nat := none
  claimToken : Option Nat := none
  availableAt : Option Nat := none
  retryAttempt : Nat := 0
  retryParentId : Option Nat := none
  createdAt : Nat := 0
  deriving DecidableEq, Repr

/-- `$model->update([...])`, where `filled` is `model` with the new attributes
and `row` is the row as it is now.  The key and the columns that no update of
the pipeline fills are those of the row. -/
def Chunk.update (model filled row : Chunk) : Chunk :=
  { row with
    status := dirty model.status filled.status row.status
    lastWorkerIds := dirty model.lastWorkerIds filled.lastWorkerIds row.lastWorkerIds
    outputDisk := dirty model.outputDisk filled.outputDisk row.outputDisk
    keys :=
      { valid := dirty model.keys.valid filled.keys.valid row.keys.valid
        invalid := dirty model.keys.invalid filled.keys.invalid row.keys.invalid
        risky := dirty model.keys.risky filled.keys.risky row.keys.risky }
    emailCount := dirty model.emailCount filled.emailCount row.emailCount
    counts :=
      { valid := dirty model.counts.valid filled.counts.valid row.counts.valid
        invalid := dirty model.counts.invalid filled.counts.invalid row.counts.invalid
        risky := dirty model.counts.risky filled.counts.risky row.counts.risky }
    attempts := dirty model.attempts filled.attempts row.attempts
    engineServerId := dirty model.engineServerId filled.engineServerId row.engineServerId
    assignedWorkerId :=
      dirty model.assignedWorkerId filled.assignedWorkerId row.assignedWorkerId
    claimedAt := dirty model.claimedAt filled.claimedAt row.claimedAt
    claimExpiresAt := dirty model.claimExpiresAt filled.claimExpiresAt row.claimExpiresAt
    claimToken := dirty model.claimToken filled.claimToken row.claimToken }

/-- The chunk's stage, `normalizeProcessingStage`: anything but `smtp_probe` is
screening. -/
def Chunk.stage (c : Chunk) : Stage :=
  match c.processingStage with
  | some .smtpProbe => .smtpProbe
  | _ => .screening

section Update
variable (model filled row : Chunk)

@[simp] theorem Chunk.update_id : (Chunk.update model filled row).id = row.id := rfl
@[simp] theorem Chunk.update_chunkNo :
    (Chunk.update model filled row).chunkNo = row.chunkNo := rfl
@[simp] theorem Chunk.update_status : (Chunk.update model filled row).status =
    dirty model.status filled.status row.status := rfl
@[simp] theorem Chunk.update_processingStage :
    (Chunk.update model filled row).processingStage = row.processingStage := rfl
@[simp] theorem Chunk.update_sourceStage :
    (Chunk.update model filled row).sourceStage = row.sourceStage := rfl
@[simp] theorem Chunk.update_parentChunkId :
    (Chunk.update model filled row).parentChunkId = row.parentChunkId := rfl
@[simp] theorem Chunk.update_maxProbeAttempts :
    (Chunk.update model filled row).maxProbeAttempts = row.maxProbeAttempts := rfl
@[simp] theorem Chunk.update_retryAttempt :
    (Chunk.update model filled row).retryAttempt = row.retryAttempt := rfl
@[simp] theorem Chunk.update_inputKey :
    (Chunk.update model filled row).inputKey = row.inputKey := rfl
@[simp] theorem Chunk.update_inputDisk :
    (Chunk.update model filled row).inputDisk = row.inputDisk := rfl
@[simp] theorem Chunk.update_claimExpiresAt :
    (Chunk.update model filled row).claimExpiresAt =
      dirty model.claimExpiresAt filled.claimExpiresAt row.claimExpiresAt := rfl

end Update

/-! ## Jobs -/

/-- A row of `verification_jobs`. -/
structure Job where
  status : JobStatus := .pending
  inputDisk : Option Disk := none
  outputDisk : Option Disk := none
  outputKey : Option Key := none
  keys : PerType (Option Key) := .const none
  cachedKeys : PerType (Option Key) := .const none
  cacheMissKey : Option Key := none
  preparedAt : Option Nat := none
  finishedAt : Option Nat := none
  errorMessage : Option String := none
  failureSource : Option String := none
  failureCode : Option String := none
  totalEmails : Option Nat := none
  counts : PerType (Option Nat) := .const none
  unknownCount : Option Nat := none
  cachedCount : Option Nat := none
  deriving DecidableEq, Repr

/-- `$job->update([...])` of a loaded job. -/
def Job.update (model filled row : Job) : Job :=
  { status := dirty model.status filled.status row.status
    inputDisk := dirty model.inputDisk filled.inputDisk row.inputDisk
    outputDisk := dirty model.outputDisk filled.outputDisk row.outputDisk
    outputKey := dirty model.outputKey filled.outputKey row.outputKey
    keys :=
      { valid := dirty model.keys.valid filled.keys.valid row.keys.valid
        invalid := dirty model.keys.invalid filled.keys.invalid row.keys.invalid
        risky := dirty model.keys.risky filled.keys.risky row.keys.risky }
    cachedKeys :=
      { valid := dirty model.cachedKeys.valid filled.cachedKeys.valid row.cachedKeys.valid
        invalid :=
          dirty model.cachedKeys.invalid filled.cachedKeys.invalid row.cachedKeys.invalid
        risky := dirty model.cachedKeys.risky filled.cachedKeys.risky row.cachedKeys.risky }
    cacheMissKey := dirty model.cacheMissKey filled.cacheMissKey row.cacheMissKey
    preparedAt := dirty model.preparedAt filled.preparedAt row.preparedAt
    finishedAt := dirty model.finishedAt filled.finishedAt row.finishedAt
    errorMessage := dirty model.errorMessage filled.errorMessage row.errorMessage
    failureSource := dirty model.failureSource filled.failureSource row.failureSource
    failureCode := dirty model.failureCode filled.failureCode row.failureCode
    totalEmails := dirty model.totalEmails filled.totalEmails row.totalEmails
    counts :=
      { valid := dirty model.counts.valid filled.counts.valid row.counts.valid
        invalid := dirty model.counts.invalid filled.counts.invalid row.counts.invalid
        risky := dirty model.counts.risky filled.counts.risky row.counts.risky }
    unknownCount := dirty model.unknownCount filled.unknownCount row.unknownCount
    cachedCount := dirty model.cachedCount filled.cachedCount row.cachedCount }

/-- The counters of `verification_job_metrics` that the chunk handlers add to. -/
structure Metrics where
  screeningTotalCount : Nat := 0
  probeCandidateCount : Nat := 0
  probeCompletedCount : Nat := 0
  probeUnknownCount : Nat := 0
  deriving DecidableEq, Repr

end ValidEmailVerifier
