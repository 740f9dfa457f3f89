/-
# `Policy.Store` — the SMTP policy versions of the control plane

The control plane keeps the policy versions in Redis: a hash with one record for
each version, the name of the active version under a key of its own, and the list
of rollouts, newest first.  `promoteSMTPPolicyVersion`, `validateSMTPPolicyVersion`
and `rollbackSMTPPolicyVersion` are programs over the commands of that store, the
clock, and the payload validator, which is asked over HTTP.

A record is kept as the structure whose JSON the source stores.  An empty status of
a record that was not there before is `unset`.  A Go map is ranged over in the order
of its entries here; the source does so in an order of its own.
-/
import Mathlib.Data.Char
import Mathlib.Data.List.AList
import Mathlib.Data.List.Lex
import Mathlib.Data.List.Sort
import ValidEmailVerifier.Lib.GoStrings
import ValidEmailVerifier.Lib.Programs
import ValidEmailVerifier.Pipeline.Worker

namespace ValidEmailVerifier.Policy

open Programs Worker

/-! ## Records -/

/-- `status` of a version; `unset` is the empty string of a new record. -/
inductive PolicyVersionStatus where
  | unset | active | inactive | draft
  deriving DecidableEq, Repr

/-- `validation_status` of a version. -/
inductive PolicyValidationStatus where
  | unset | pending | valid | invalid
  deriving DecidableEq, Repr

/-- `action` of a rollout. -/
inductive PolicyAction where
  | promote | rollback | validate
  deriving DecidableEq, Repr

structure SMTPPolicyVersionRecord where
  version : Text := []
  status : PolicyVersionStatus := .unset
  active : Bool := false
  canaryPercent : Int := 0
  validationStatus : PolicyValidationStatus := .unset
  validationError : Text := []
  payloadChecksum : Text := []
  payloadValidatedAt : Text := []
  updatedAt : Text := []
  promotedAt : Text := []
  rolledBackAt : Text := []
  updatedBy : Text := []
  deriving DecidableEq, Repr

structure SMTPPolicyRolloutRecord where
  action : PolicyAction
  version : Text
  canaryPercent : Int
  triggeredBy : Text := []
  notes : Text := []
  validationStatus : PolicyValidationStatus := .unset
  payloadChecksum : Text := []
  payloadValidatedAt : Text := []
  createdAt : Text := []
  deriving DecidableEq, Repr

structure PolicyPayloadValidation where
  version : Text := []
  checksum : Text := []
  validatedAt : Text := []
  status : PolicyValidationStatus := .unset
  errorMessage : Text := []
  deriving DecidableEq, Repr

/-- The records by version: a hash in Redis, a map in Go. -/
abbrev VersionMap := AList fun _ : Text => SMTPPolicyVersionRecord

def normalizePolicyVersion (version : Text) : Text := trimSpace version

def normalizePolicyVersionStatus : PolicyVersionStatus → PolicyVersionStatus
  | .unset => .draft
  | status => status

def normalizePolicyValidationStatus : PolicyValidationStatus → PolicyValidationStatus
  | .unset => .pending
  | status => status

def normalizeCanaryPercent (value : Int) : Int :=
  if value ≤ 0 then 100 else if 100 < value then 100 else value

/-- The fields that are brought into their form whenever a record is read or
written; its version is set beside them. -/
def SMTPPolicyVersionRecord.normalized (record : SMTPPolicyVersionRecord) :
    SMTPPolicyVersionRecord :=
  { record with
    status := normalizePolicyVersionStatus record.status
    canaryPercent := normalizeCanaryPercent record.canaryPercent
    validationStatus := normalizePolicyValidationStatus record.validationStatus
    validationError := trimSpace record.validationError
    payloadChecksum := trimSpace record.payloadChecksum
    payloadValidatedAt := trimSpace record.payloadValidatedAt }

/-! ## The store and its commands -/

structure PolicyStore where
  /-- `control_plane:smtp_policy_versions` -/
  versions : VersionMap := ∅
  /-- `control_plane:smtp_policy_active` -/
  active : Option Text := none
  /-- `control_plane:smtp_policy_rollout_history` -/
  history : List SMTPPolicyRolloutRecord := []
  deriving DecidableEq

/-- The commands that change the store. -/
inductive Write where
  | hset (record : SMTPPolicyVersionRecord)
  | setActive (version : Text)
  | delActive
  | lpush (entry : SMTPPolicyRolloutRecord)
  | ltrim (stop : Nat)
  deriving DecidableEq, Repr

@[simp] def PolicyStore.apply (s : PolicyStore) : Write → PolicyStore
  | .hset record => { s with versions := s.versions.insert record.version record }
  | .setActive version => { s with active := some version }
  | .delActive => { s with active := none }
  | .lpush entry => { s with history := entry :: s.history }
  | .ltrim stop => { s with history := s.history.take (stop + 1) }

/-- What a program of the control plane asks of its surroundings. -/
inductive Command where
  | hgetall
  | getActive
  | lrange (stop : Nat)
  | write (w : Write)
  | now
  | validateVersion (version : Text)
  deriving DecidableEq, Repr

abbrev Reply : Command → Type
  | .hgetall => Except Text VersionMap
  | .getActive => Except Text (Option Text)
  | .lrange _ => Except Text (List SMTPPolicyRolloutRecord)
  | .write _ => Except Text Unit
  | .now => Text
  | .validateVersion _ => Except Text PolicyPayloadValidation

/-- A program that may return an error. -/
abbrev Program (α : Type) := ExceptT Text (Prog Command Reply) α

def send (c : Command) : Prog Command Reply (Reply c) := Prog.command c

def hgetall : Program VersionMap := .mk (send .hgetall)

def getActive : Program (Option Text) := .mk (send .getActive)

def lrange (stop : Nat) : Program (List SMTPPolicyRolloutRecord) := .mk (send (.lrange stop))

def write (w : Write) : Program Unit := .mk (send (.write w))

/-- `time.Now().UTC().Format(time.RFC3339)`. -/
def now : Program Text := .lift (send .now)

/-- The payload of the version is fetched from the application and validated. -/
def validateVersion (version : Text) : Program PolicyPayloadValidation :=
  .mk (send (.validateVersion version))

/-- `pipe.Exec`: every command of the pipeline is sent; the first error is returned. -/
def execPipe : List Write → Prog Command Reply (Except Text Unit)
  | [] => pure (.ok ())
  | w :: ws => do
      let first ← (write w).run
      let rest ← execPipe ws
      pure (match first with
        | .error e => .error e
        | .ok () => rest)

/-! ## The settings of the control plane -/

/-- What of the configuration the policy functions read. -/
structure Config where
  policyPayloadStrictValidation : Bool
  /-- A payload validator is configured. -/
  policyPayloadValidator : Bool
  deriving DecidableEq, Repr

/-! ## Reading and writing the versions -/

/-- The loop of `loadSMTPPolicyVersionMap`. -/
def loadedRecords (activeVersion : Text) :
    List (Sigma fun _ : Text => SMTPPolicyVersionRecord) → VersionMap
  | [] => ∅
  | ⟨version, payload⟩ :: values =>
      let normalizedVersion := normalizePolicyVersion version
      if normalizedVersion = [] then loadedRecords activeVersion values
      else
        (loadedRecords activeVersion values).insert normalizedVersion
          { payload.normalized with
            version := normalizedVersion
            active := decide (normalizedVersion = activeVersion) }

def loadSMTPPolicyVersionMap : Program (VersionMap × Text) := do
  let values ← hgetall
  let activeVersion ← getActive
  let activeVersion := normalizePolicyVersion (activeVersion.getD [])
  pure (loadedRecords activeVersion values.entries, activeVersion)

/-- The writes `saveSMTPPolicyVersionMap` puts into its pipeline for the records. -/
def savedRecords (activeVersion : Text) :
    List (Sigma fun _ : Text => SMTPPolicyVersionRecord) → List Write
  | [] => []
  | ⟨version, record⟩ :: records =>
      let normalizedVersion := normalizePolicyVersion version
      if normalizedVersion = [] then savedRecords activeVersion records
      else
        .hset
          { record.normalized with
            version := normalizedVersion
            active := decide (normalizedVersion = activeVersion) } ::
          savedRecords activeVersion records

def saveSMTPPolicyVersionMap (records : VersionMap) (activeVersion : Text) : Program Unit :=
  .mk (execPipe (savedRecords activeVersion records.entries ++
    [if activeVersion = [] then .delActive else .setActive activeVersion]))

def upsertSMTPPolicyVersionRecord (record : SMTPPolicyVersionRecord) : Program Unit :=
  let version := normalizePolicyVersion record.version
  if version = [] then throw "version is required".toList
  else write (.hset { record.normalized with version := version })

def buildSMTPPolicyRolloutRecord (action : PolicyAction) (version : Text)
    (canaryPercent : Int) (triggeredBy notes createdAt : Text) : SMTPPolicyRolloutRecord where
  action := action
  version := normalizePolicyVersion version
  canaryPercent := normalizeCanaryPercent canaryPercent
  triggeredBy := trimSpace triggeredBy
  notes := trimSpace notes
  createdAt := createdAt

def appendSMTPPolicyRolloutHistory (entry : SMTPPolicyRolloutRecord) : Program Unit :=
  .mk (execPipe [.lpush entry, .ltrim 199])

/-- The loop of `GetSMTPPolicyRolloutHistory`. -/
def loadedHistory (values : List SMTPPolicyRolloutRecord) : List SMTPPolicyRolloutRecord :=
  (values.map fun entry =>
    { entry with
      version := normalizePolicyVersion entry.version
      canaryPercent := normalizeCanaryPercent entry.canaryPercent
      validationStatus := normalizePolicyValidationStatus entry.validationStatus
      payloadChecksum := trimSpace entry.payloadChecksum
      payloadValidatedAt := trimSpace entry.payloadValidatedAt }).filter (·.version ≠ [])

def getSMTPPolicyRolloutHistory (limit : Nat) : Program (List SMTPPolicyRolloutRecord) := do
  let limit := if limit = 0 then 20 else limit
  let values ← lrange (limit - 1)
  pure (loadedHistory values)

/-! ## Promotion, validation and rollback -/

def preflightPolicyPayload (cfg : Config) (version : Text) (enforce : Bool) :
    Program PolicyPayloadValidation := do
  let now ← now
  if enforce = false then
    pure { version := normalizePolicyVersion version, validatedAt := now, status := .pending }
  else if cfg.policyPayloadValidator = false then
    throw "policy payload validator is not configured".toList
  else
    let validation ← validateVersion version
    let status := normalizePolicyValidationStatus validation.status
    pure { validation with
      status := if status = .pending then .valid else status
      validatedAt := if trimSpace validation.validatedAt = [] then now
        else validation.validatedAt }

/-- `triggeredBy`, or `manual`. -/
def orManual (triggeredBy : Text) : Text :=
  if triggeredBy = [] then "manual".toList else triggeredBy

def applySMTPPolicyPromoteState (records : VersionMap) (activeVersion version : Text)
    (canaryPercent : Int) (triggeredBy now : Text) :
    VersionMap × SMTPPolicyVersionRecord × Text :=
  let updated :=
    if activeVersion ≠ [] ∧ activeVersion ≠ version then
      records.insert activeVersion
        { (records.lookup activeVersion).getD {} with
          version := activeVersion
          active := false
          status := .inactive
          updatedAt := now
          updatedBy := triggeredBy }
    else records
  let target : SMTPPolicyVersionRecord :=
    { (updated.lookup version).getD {} with
      version := version
      active := true
      status := .active
      canaryPercent := canaryPercent
      updatedAt := now
      promotedAt := now
      rolledBackAt := []
      updatedBy := triggeredBy }
  (updated.insert version target, target, version)

/-- What `PromoteSMTPPolicyVersion` does once the version may be promoted. -/
def commitPromotion (records : VersionMap) (activeVersion version : Text)
    (canaryPercent : Int) (triggeredBy notes : Text) (validation : PolicyPayloadValidation) :
    Program SMTPPolicyVersionRecord := do
  let now ← now
  let (records, target, nextActiveVersion) :=
    applySMTPPolicyPromoteState records activeVersion version canaryPercent triggeredBy now
  let target :=
    { target with
      validationStatus := normalizePolicyValidationStatus validation.status
      validationError := trimSpace validation.errorMessage
      payloadChecksum := trimSpace validation.checksum
      payloadValidatedAt := trimSpace validation.validatedAt }
  let records := records.insert version target
  saveSMTPPolicyVersionMap records nextActiveVersion
  let entry :=
    { buildSMTPPolicyRolloutRecord .promote version canaryPercent triggeredBy notes now with
      validationStatus := target.validationStatus
      payloadChecksum := target.payloadChecksum
      payloadValidatedAt := target.payloadValidatedAt }
  appendSMTPPolicyRolloutHistory entry
  pure target

def promoteSMTPPolicyVersion (cfg : Config) (version : Text) (canaryPercent : Int)
    (triggeredBy notes : Text) : Program SMTPPolicyVersionRecord :=
  let version := normalizePolicyVersion version
  if version = [] then throw "version is required".toList
  else do
    let canaryPercent := normalizeCanaryPercent canaryPercent
    let triggeredBy := orManual triggeredBy
    let (records, activeVersion) ← loadSMTPPolicyVersionMap
    match records.lookup version with
    | none => throw "policy version is not validated".toList
    | some targetRecord =>
        if cfg.policyPayloadStrictValidation = true ∧
            normalizePolicyValidationStatus targetRecord.validationStatus ≠ .valid then
          throw "policy version must be validated before promote".toList
        else
          let validation ←
            preflightPolicyPayload cfg version cfg.policyPayloadStrictValidation
          commitPromotion records activeVersion version canaryPercent triggeredBy notes
            validation

/-- The record of a version that is about to be validated. -/
def openedRecord (records : VersionMap) (activeVersion version triggeredBy now : Text) :
    SMTPPolicyVersionRecord :=
  let record := (records.lookup version).getD {}
  { record with
    version := version
    status := if record.status = .unset then .draft else record.status
    active := decide (version = activeVersion)
    updatedAt := now
    updatedBy := triggeredBy }

/-- The record after the payload has been validated. -/
def closedRecord (record : SMTPPolicyVersionRecord) (now : Text) :
    Except Text PolicyPayloadValidation → SMTPPolicyVersionRecord
  | .error validationErr =>
      { record with
        validationStatus := .invalid
        validationError := validationErr
        payloadValidatedAt := now
        payloadChecksum := [] }
  | .ok validation =>
      { record with
        validationStatus := .valid
        validationError := []
        payloadValidatedAt := validation.validatedAt
        payloadChecksum := validation.checksum }

def validateSMTPPolicyVersion (cfg : Config) (version : Text) (triggeredBy notes : Text) :
    Program SMTPPolicyVersionRecord :=
  let version := normalizePolicyVersion version
  if version = [] then throw "version is required".toList
  else do
    let triggeredBy := orManual triggeredBy
    let (records, activeVersion) ← loadSMTPPolicyVersionMap
    let now ← now
    let record := openedRecord records activeVersion version triggeredBy now
    let outcome ← ExceptT.lift (preflightPolicyPayload cfg version true).run
    let record := closedRecord record now outcome
    saveSMTPPolicyVersionMap (records.insert version record) activeVersion
    let entry :=
      { buildSMTPPolicyRolloutRecord .validate version record.canaryPercent triggeredBy notes
          now with
        validationStatus := record.validationStatus
        payloadChecksum := record.payloadChecksum
        payloadValidatedAt := record.payloadValidatedAt }
    appendSMTPPolicyRolloutHistory entry
    match outcome with
    | .error validationErr => throw validationErr
    | .ok _ => pure record

def selectSMTPRollbackTarget (records : VersionMap) (activeVersion : Text) :
    List SMTPPolicyRolloutRecord → Except Text (Text × Int)
  | [] => .error "no rollback target available".toList
  | entry :: history =>
      let normalizedVersion := normalizePolicyVersion entry.version
      if entry.action ≠ .promote then selectSMTPRollbackTarget records activeVersion history
      else if normalizedVersion = [] ∨ normalizedVersion = activeVersion then
        selectSMTPRollbackTarget records activeVersion history
      else if (records.lookup normalizedVersion).isNone then
        selectSMTPRollbackTarget records activeVersion history
      else .ok (normalizedVersion, normalizeCanaryPercent entry.canaryPercent)

/-- What `RollbackSMTPPolicyVersion` does once its target has been promoted. -/
def recordRollback (targetVersion : Text) (targetCanary : Int) (triggeredBy notes : Text)
    (record : SMTPPolicyVersionRecord) : Program SMTPPolicyVersionRecord := do
  let rolledBackAt ← now
  let record :=
    { record with
      rolledBackAt := rolledBackAt
      active := true
      status := .active }
  upsertSMTPPolicyVersionRecord record
  let entry :=
    { buildSMTPPolicyRolloutRecord .rollback targetVersion targetCanary triggeredBy notes
        record.rolledBackAt with
      validationStatus := record.validationStatus
      payloadChecksum := record.payloadChecksum
      payloadValidatedAt := record.payloadValidatedAt }
  appendSMTPPolicyRolloutHistory entry
  pure record

def rollbackSMTPPolicyVersion (cfg : Config) (triggeredBy notes : Text) :
    Program SMTPPolicyVersionRecord := do
  let triggeredBy := orManual triggeredBy
  let (records, activeVersion) ← loadSMTPPolicyVersionMap
  if activeVersion = [] then throw "no active policy version".toList
  else
    let history ← getSMTPPolicyRolloutHistory 50
    let (targetVersion, targetCanary) ←
      ExceptT.mk (pure (selectSMTPRollbackTarget records activeVersion history))
    let targetRecord := (records.lookup targetVersion).getD {}
    if cfg.policyPayloadStrictValidation = true ∧
        normalizePolicyValidationStatus targetRecord.validationStatus ≠ .valid then
      throw "rollback target is not validated".toList
    else
      let _ ← preflightPolicyPayload cfg targetVersion cfg.policyPayloadStrictValidation
      let record ← promoteSMTPPolicyVersion cfg targetVersion targetCanary triggeredBy notes
      recordRollback targetVersion targetCanary triggeredBy notes record

/-! ## Listing -/

/-- `strings.EqualFold`; `foldRune` is the representative of a letter under simple
case folding. -/
def equalFold (foldRune : Char → Char) (s t : Text) : Bool :=
  s.map foldRune = t.map foldRune

/-- The loop of `buildSMTPPolicyVersionList`. -/
def listedRecords (foldRune : Char → Char) (activeVersion : Text) :
    List (Sigma fun _ : Text => SMTPPolicyVersionRecord) → List SMTPPolicyVersionRecord
  | [] => []
  | ⟨version, payload⟩ :: values =>
      let normalizedVersion := normalizePolicyVersion version
      if normalizedVersion = [] then listedRecords foldRune activeVersion values
      else
        let recordVersion := normalizePolicyVersion payload.version
        let recordVersion := if recordVersion = [] then normalizedVersion else recordVersion
        { payload.normalized with
          version := recordVersion
          active := equalFold foldRune recordVersion activeVersion } ::
          listedRecords foldRune activeVersion values

def buildSMTPPolicyVersionList (foldRune : Char → Char) (values : VersionMap)
    (activeVersion : Text) : List SMTPPolicyVersionRecord :=
  listedRecords foldRune (normalizePolicyVersion activeVersion) values.entries

/-- The order of the list: the latest update first, versions by name. -/
def ListedBefore (x y : SMTPPolicyVersionRecord) : Prop :=
  if x.updatedAt = y.updatedAt then x.version ≤ y.version else y.updatedAt < x.updatedAt

instance : DecidableRel ListedBefore := fun x y => by
  unfold ListedBefore
  infer_instance

def listSMTPPolicyVersions (foldRune : Char → Char) :
    Program (List SMTPPolicyVersionRecord × Text) := do
  let values ← hgetall
  let activeVersion ← getActive
  let activeVersion := activeVersion.getD []
  let items := buildSMTPPolicyVersionList foldRune values activeVersion
  pure (items.insertionSort ListedBefore, normalizePolicyVersion activeVersion)

end ValidEmailVerifier.Policy
