/-
# `Policy.Rollout` — calls of the policy functions, and the writes they send

A call is executed over a `Ledger`: the store, and the log of what took effect and
what failed.  Every command of a call may be served, refused, or take effect and
lose its reply.

`Progress` is what a call has learned so far, and `Allowed` says which commands it
may send next: the protocol of the three operations.  That their programs obey it is
proved once, by `follows_program`; every law about runs of calls, one after the other
or interleaved, is then an invariant of the protocol.
-/
import ValidEmailVerifier.Lib.Transition
import ValidEmailVerifier.Policy.Store

namespace ValidEmailVerifier.Policy

open Programs Worker Text

/-! ## Calls -/

/-- What befalls a command: it is served, it is refused, or it takes effect and its
reply is lost. -/
inductive Fate where
  | served
  | refused (error : Text)
  | lost (error : Text)
  deriving DecidableEq, Repr

/-- The part of the surroundings in a command. -/
structure Answer where
  fate : Fate := .served
  time : Text := []
  verdict : Except Text PolicyPayloadValidation := .ok {}

instance : Inhabited Answer := ⟨{}⟩

/-- The calls of the control plane. -/
inductive Operation where
  | promote (version : Text) (canaryPercent : Int) (triggeredBy notes : Text)
  | validate (version triggeredBy notes : Text)
  | rollback (triggeredBy notes : Text)
  deriving DecidableEq, Repr

def Operation.program (cfg : Config) : Operation → Program SMTPPolicyVersionRecord
  | .promote version canaryPercent triggeredBy notes =>
      promoteSMTPPolicyVersion cfg version canaryPercent triggeredBy notes
  | .validate version triggeredBy notes =>
      validateSMTPPolicyVersion cfg version triggeredBy notes
  | .rollback triggeredBy notes => rollbackSMTPPolicyVersion cfg triggeredBy notes

/-- A write that took effect, with the version that was active before it, or a command
that returned an error. -/
inductive Event where
  | wrote (op : Operation) (old : Option Text) (w : Write)
  | failed (op : Operation)
  deriving DecidableEq, Repr

/-- The store and its log, the newest event first. -/
structure Ledger where
  store : PolicyStore := {}
  log : List Event := []
  deriving DecidableEq

namespace Ledger

def wrote (l : Ledger) (op : Operation) (w : Write) : Ledger where
  store := l.store.apply w
  log := .wrote op l.store.active w :: l.log

def failed (l : Ledger) (op : Operation) : Ledger := { l with log := .failed op :: l.log }

@[simp] theorem wrote_store (l : Ledger) (op : Operation) (w : Write) :
    (l.wrote op w).store = l.store.apply w := rfl

@[simp] theorem wrote_log (l : Ledger) (op : Operation) (w : Write) :
    (l.wrote op w).log = .wrote op l.store.active w :: l.log := rfl

@[simp] theorem failed_store (l : Ledger) (op : Operation) :
    (l.failed op).store = l.store := rfl

@[simp] theorem failed_log (l : Ledger) (op : Operation) :
    (l.failed op).log = .failed op :: l.log := rfl

/-- A command that reads. -/
def read {α : Type} (l : Ledger) (op : Operation) (value : α) : Fate → Except Text α × Ledger
  | .served => (.ok value, l)
  | .refused error => (.error error, l.failed op)
  | .lost error => (.error error, l.failed op)

/-- A command that writes. -/
def write (l : Ledger) (op : Operation) (w : Write) : Fate → Except Text Unit × Ledger
  | .served => (.ok (), l.wrote op w)
  | .refused error => (.error error, l.failed op)
  | .lost error => (.error error, (l.wrote op w).failed op)

end Ledger

/-- A command of the operation, executed. -/
def exec (op : Operation) : (c : Command) → Answer → Ledger → Reply c × Ledger
  | .hgetall, a, l => l.read op l.store.versions a.fate
  | .getActive, a, l => l.read op l.store.active a.fate
  | .lrange stop, a, l => l.read op (l.store.history.take (stop + 1)) a.fate
  | .write w, a, l => l.write op w a.fate
  | .now, a, l => (a.time, l)
  | .validateVersion _, a, l => (a.verdict, l)

/-! ## The protocol of an operation -/

/-- What an operation has read so far. -/
structure View where
  /-- The last `HGETALL`. -/
  versions : VersionMap := ∅
  /-- The last `GET` of the active key. -/
  active : Text := []
  /-- What a rollback selects in the history it has read. -/
  target : Option (Text × Int) := none

/-- What an operation has read and sent so far. -/
structure Progress extends View where
  /-- A write was sent. -/
  sent : Bool := false
  /-- The write of the active key was sent. -/
  activated : Bool := false
  /-- An entry of the rollout history was sent. -/
  recorded : Bool := false
  /-- A command was answered by an error. -/
  failed : Bool := false

/-- The records as `loadSMTPPolicyVersionMap` returns them. -/
def View.records (x : View) : VersionMap := loadedRecords x.active x.versions.entries

/-- The write is one of the active key. -/
def Write.isActivation : Write → Bool
  | .setActive _ => true
  | .delActive => true
  | _ => false

/-- The write is one of the rollout history. -/
def Write.isRecording : Write → Bool
  | .lpush _ => true
  | _ => false

/-- A write is on its way. -/
def Progress.send (x : Progress) (w : Write) : Progress :=
  { x with
    sent := true
    activated := x.activated || w.isActivation
    recorded := x.recorded || w.isRecording }

def Progress.next (x : Progress) : (c : Command) → Reply c → Progress
  | .hgetall, .ok values => { x with versions := values }
  | .hgetall, .error _ => { x with failed := true }
  | .getActive, .ok active => { x with active := normalizePolicyVersion (active.getD []) }
  | .getActive, .error _ => { x with failed := true }
  | .lrange _, .ok values =>
      { x with
        target := (selectSMTPRollbackTarget x.records x.active (loadedHistory values)).toOption }
  | .lrange _, .error _ => { x with failed := true }
  | .write w, .ok () => x.send w
  | .write w, .error _ => { x.send w with failed := true }
  | .now, _ => x
  | .validateVersion _, _ => x

section NextWrite
variable (x : Progress) (w : Write) (reply : Reply (.write w))

@[simp] theorem next_write_view : (x.next (.write w) reply).toView = x.toView := by
  cases reply <;> rfl

@[simp] theorem next_write_sent : (x.next (.write w) reply).sent = true := by
  cases reply <;> rfl

@[simp] theorem next_write_activated :
    (x.next (.write w) reply).activated = (x.activated || w.isActivation) := by
  cases reply <;> rfl

@[simp] theorem next_write_recorded :
    (x.next (.write w) reply).recorded = (x.recorded || w.isRecording) := by
  cases reply <;> rfl

@[simp] theorem next_write_failed :
    (x.next (.write w) reply).failed = (x.failed || !reply.toBool) := by
  cases reply <;> simp [Progress.next, Progress.send, Except.toBool]

end NextWrite

/-- The record is one of those loaded, with its canary percentage, or one of the active
version, which was not among them. -/
def Kept (x : View) (record : SMTPPolicyVersionRecord) : Prop :=
  match x.records.lookup record.version with
  | some old => record.canaryPercent = old.canaryPercent
  | none => record.version = x.active

/-- The version an operation is to activate. -/
def Operation.goal (x : View) : Operation → Option Text
  | .promote version .. => some (normalizePolicyVersion version)
  | .validate .. => none
  | .rollback .. => x.target.map Prod.fst

/-- The writes of an operation that is to activate `goal`. -/
def AllowedFor (x : Progress) (goal : Text × Int) (isRollback : Bool) : Write → Prop
  | .hset record =>
      record.version ≠ [] ∧ normalizePolicyVersion record.version = record.version ∧
        if record.version = goal.1 then record.canaryPercent = goal.2 ∧ goal.1 ∈ x.records
        else Kept x.toView record
  | .setActive version => x.activated = false ∧ version = goal.1 ∧ goal.1 ∈ x.records
  | .delActive => False
  | .lpush entry =>
      x.failed = false ∧ x.activated = true ∧ goal.1 ∈ x.records ∧ entry.version = goal.1 ∧
        entry.canaryPercent = goal.2 ∧
        (entry.action = .promote ∨ isRollback = true ∧ entry.action = .rollback)
  | .ltrim stop => x.recorded = true ∧ stop = 199

/-- Those of a validation. -/
def AllowedForValidation (x : Progress) (version : Text) : Write → Prop
  | .hset record =>
      record.version ≠ [] ∧ normalizePolicyVersion record.version = record.version ∧
        (record.version = version ∨ Kept x.toView record)
  | .setActive active => active = x.active ∧ active ≠ []
  | .delActive => x.active = []
  | .lpush entry => entry.action = .validate
  | .ltrim stop => x.recorded = true ∧ stop = 199

/-- The commands an operation may send: it reads the store only as long as it has not
written to it, and the history only when a version is active. -/
def Allowed (op : Operation) (x : Progress) : Command → Prop
  | .write w =>
      match op with
      | .promote version canaryPercent _ _ =>
          AllowedFor x (normalizePolicyVersion version, normalizeCanaryPercent canaryPercent)
            false w
      | .rollback .. => ∃ goal, x.target = some goal ∧ AllowedFor x goal true w
      | .validate version _ _ => AllowedForValidation x (normalizePolicyVersion version) w
  | .hgetall => x.sent = false
  | .getActive => x.sent = false
  | .lrange _ => x.sent = false ∧ x.active ≠ []
  | .now => True
  | .validateVersion _ => True

/-! ## What is loaded and saved -/

theorem normalizePolicyVersion_idem (version : Text) :
    normalizePolicyVersion (normalizePolicyVersion version) = normalizePolicyVersion version :=
  trimBy_trimBy (fun _ h => h) version

theorem normalizeCanaryPercent_idem (value : Int) :
    normalizeCanaryPercent (normalizeCanaryPercent value) = normalizeCanaryPercent value := by
  unfold normalizeCanaryPercent
  split_ifs <;> omega

/-- A record in the form in which `loadSMTPPolicyVersionMap` returns it. -/
structure SMTPPolicyVersionRecord.Loaded (record : SMTPPolicyVersionRecord) (version : Text) :
    Prop where
  version_eq : record.version = version
  ne_nil : version ≠ []
  trimmed : normalizePolicyVersion version = version
  canary : normalizeCanaryPercent record.canaryPercent = record.canaryPercent

theorem loaded_of_lookup {activeVersion version : Text} {record : SMTPPolicyVersionRecord} :
    ∀ {values : List (Sigma fun _ : Text => SMTPPolicyVersionRecord)},
      (loadedRecords activeVersion values).lookup version = some record →
        record.Loaded version
  | [], h => nomatch h
  | ⟨key, payload⟩ :: values, h => by
      rw [loadedRecords] at h
      split at h
      · exact loaded_of_lookup h
      · next hne =>
        by_cases heq : version = normalizePolicyVersion key
        · subst heq
          rw [AList.lookup_insert] at h
          rw [← Option.some.inj h]
          exact ⟨rfl, hne, normalizePolicyVersion_idem key,
            normalizeCanaryPercent_idem payload.canaryPercent⟩
        · rw [AList.lookup_insert_ne heq] at h
          exact loaded_of_lookup h

theorem mem_loadedRecords {activeVersion version : Text} :
    ∀ {values : List (Sigma fun _ : Text => SMTPPolicyVersionRecord)},
      version ∈ loadedRecords activeVersion values ↔
        version ≠ [] ∧ ∃ value ∈ values, normalizePolicyVersion value.1 = version
  | [] => by simp [loadedRecords]
  | ⟨key, payload⟩ :: values => by
      rw [loadedRecords]
      split
      · next hnil =>
        rw [mem_loadedRecords]
        simp only [List.mem_cons, exists_eq_or_imp]
        constructor
        · rintro ⟨hne, h⟩
          exact ⟨hne, .inr h⟩
        · rintro ⟨hne, rfl | h⟩
          · exact absurd hnil hne
          · exact ⟨hne, h⟩
      · next hne =>
        rw [AList.mem_insert, mem_loadedRecords]
        simp only [List.mem_cons, exists_eq_or_imp]
        constructor
        · rintro (rfl | ⟨hne', h⟩)
          · exact ⟨hne, .inl rfl⟩
          · exact ⟨hne', .inr h⟩
        · rintro ⟨hne', rfl | h⟩
          · exact .inl rfl
          · exact .inr ⟨hne', h⟩

/-- What is saved are the records of the map, under their names. -/
theorem mem_savedRecords {activeVersion : Text} {w : Write} :
    ∀ {entries : List (Sigma fun _ : Text => SMTPPolicyVersionRecord)},
      w ∈ savedRecords activeVersion entries →
        ∃ version record, ⟨version, record⟩ ∈ entries ∧ normalizePolicyVersion version ≠ [] ∧
          w = .hset { record.normalized with
            version := normalizePolicyVersion version
            active := decide (normalizePolicyVersion version = activeVersion) }
  | [], h => nomatch h
  | ⟨key, payload⟩ :: entries, h => by
      rw [savedRecords] at h
      split at h
      · obtain ⟨version, record, hmem, hrest⟩ := mem_savedRecords h
        exact ⟨version, record, .tail _ hmem, hrest⟩
      · next hne =>
        cases h with
        | head => exact ⟨key, payload, .head _, hne, rfl⟩
        | tail _ h =>
          obtain ⟨version, record, hmem, hrest⟩ := mem_savedRecords h
          exact ⟨version, record, .tail _ hmem, hrest⟩

theorem mem_savedRecords_lookup {activeVersion : Text} {w : Write} {records : VersionMap}
    (h : w ∈ savedRecords activeVersion records.entries) :
    ∃ version record, records.lookup version = some record ∧
      normalizePolicyVersion version ≠ [] ∧
      w = .hset { record.normalized with
        version := normalizePolicyVersion version
        active := decide (normalizePolicyVersion version = activeVersion) } := by
  obtain ⟨version, record, hmem, hrest⟩ := mem_savedRecords h
  exact ⟨version, record, AList.mem_lookup_iff.mpr hmem, hrest⟩

/-! ## The programs obey the protocol -/

section Protocol

variable {allowed : Progress → Command → Prop} {x : Progress} {α : Type}

/-- A program that sends only what is allowed and returns in `Q`. -/
def Obeys (allowed : Progress → Command → Prop) (p : Program α)
    (Q : Except Text α → Progress → Prop) (x : Progress) : Prop :=
  Prog.Follows allowed Progress.next p.run Q x

theorem Obeys.bind {β : Type} {p : Program α} {f : α → Program β}
    {Q : Except Text β → Progress → Prop} {P : Except Text α → Progress → Prop}
    (h : Obeys allowed p P x) (hok : ∀ a y, P (.ok a) y → Obeys allowed (f a) Q y)
    (herror : ∀ e y, P (.error e) y → Q (.error e) y) : Obeys allowed (p >>= f) Q x :=
  Prog.Follows.exceptBind h hok herror

@[simp] theorem obeys_pure {a : α} {Q : Except Text α → Progress → Prop} :
    Obeys allowed (pure a) Q x ↔ Q (.ok a) x := Iff.rfl

@[simp] theorem obeys_throw {e : Text} {Q : Except Text α → Progress → Prop} :
    Obeys allowed (throw e : Program α) Q x ↔ Q (.error e) x := Iff.rfl

/-- The clock, the validator and the versions may be read. -/
structure FreeReads (allowed : Progress → Command → Prop) : Prop where
  versions : ∀ x, x.sent = false → allowed x .hgetall
  active : ∀ x, x.sent = false → allowed x .getActive
  now : ∀ x, allowed x .now
  validator : ∀ x version, allowed x (.validateVersion version)

theorem obeys_load (hread : FreeReads allowed) (hs : x.sent = false)
    {Q : Except Text (VersionMap × Text) → Progress → Prop}
    (hok : ∀ v : View, v.target = x.target → normalizePolicyVersion v.active = v.active →
      Q (.ok (v.records, v.active)) { x with toView := v })
    (herror : ∀ e y, y.failed = true → y.sent = false → Q (.error e) y) :
    Obeys allowed loadSMTPPolicyVersionMap Q x := by
  refine ⟨hread.versions _ hs, ?_⟩
  rintro (e | values)
  · exact herror e _ rfl hs
  · refine ⟨hread.active _ hs, ?_⟩
    rintro (e | active)
    · exact herror e _ rfl hs
    · exact hok ⟨values, normalizePolicyVersion (active.getD []), x.target⟩ rfl
        (normalizePolicyVersion_idem _)

theorem obeys_now (hread : FreeReads allowed) {Q : Except Text Text → Progress → Prop}
    (hok : ∀ time, Q (.ok time) x) : Obeys allowed now Q x :=
  ⟨hread.now _, hok⟩

/-- The clock tells some time and changes nothing. -/
theorem Obeys.now_bind {β : Type} {k : Text → Program β} {Q : Except Text β → Progress → Prop}
    (hread : FreeReads allowed) (h : ∀ time, Obeys allowed (k time) Q x) :
    Obeys allowed (now >>= k) Q x := by
  refine Obeys.bind (obeys_now (Q := fun outcome y => y = x ∧ ∃ time, outcome = .ok time) hread
    fun time => ⟨rfl, time, rfl⟩) ?_ fun e y hy => by simp at hy
  rintro time y ⟨rfl, -⟩
  exact h time

theorem obeys_preflight (hread : FreeReads allowed) {cfg : Config} {version : Text}
    {enforce : Bool} {Q : Except Text PolicyPayloadValidation → Progress → Prop}
    (h : ∀ outcome, Q outcome x) :
    Obeys allowed (preflightPolicyPayload cfg version enforce) Q x := by
  refine Obeys.now_bind hread fun time => ?_
  dsimp only
  split
  · exact h _
  · split
    · exact h _
    · refine ⟨hread.validator _ _, ?_⟩
      rintro (e | validation)
      · exact h _
      · exact h _

theorem obeys_execPipe {Q : Except Text Unit → Progress → Prop} :
    ∀ {ws : List Write} {x : Progress},
      (∀ earlier w later, ws = earlier ++ w :: later → ∀ y : Progress, y.toView = x.toView →
        y.activated = (x.activated || earlier.any Write.isActivation) → allowed y (.write w)) →
      (∀ outcome (y : Progress), y.toView = x.toView →
        y.activated = (x.activated || ws.any Write.isActivation) →
        y.failed = (x.failed || !outcome.toBool) → Q outcome y) →
      Obeys allowed (.mk (execPipe ws)) Q x
  | [], x, _, hQ => by
      apply hQ (.ok ()) x rfl <;> simp [Except.toBool]
  | w :: ws, x, hall, hQ => by
      refine ⟨hall [] w ws rfl x rfl (by simp), fun reply => ?_⟩
      show Prog.Follows _ _ (execPipe ws >>= fun rest => _) _ _
      rw [Prog.follows_bind]
      apply obeys_execPipe
      · intro earlier w' later hws y hy hact
        refine hall (w :: earlier) w' later (by rw [hws]; rfl) y
          (hy.trans (next_write_view x w reply)) ?_
        rw [hact, next_write_activated, List.any_cons, Bool.or_assoc]
      · intro outcome y hy hact hfail
        apply hQ _ y (hy.trans (next_write_view x w reply))
        · rw [hact, next_write_activated, List.any_cons, Bool.or_assoc]
        · rw [hfail, next_write_failed]
          cases reply <;> simp [Except.toBool]

/-! ### Promotion -/

/-- The protocol allows what a promotion to `goal` writes as long as the target selected
by a rollback stays. -/
def AllowsGoal (allowed : Progress → Command → Prop) (x : Progress) (goal : Text × Int)
    (isRollback : Bool) : Prop :=
  ∀ y : Progress, y.target = x.target → ∀ w, AllowedFor y goal isRollback w →
    allowed y (.write w)

theorem obeys_append {Q : Except Text Unit → Progress → Prop} {entry : SMTPPolicyRolloutRecord}
    (hpush : allowed x (.write (.lpush entry)))
    (htrim : ∀ y : Progress, y.toView = x.toView → y.recorded = true →
      allowed y (.write (.ltrim 199)))
    (hQ : ∀ outcome (y : Progress), y.toView = x.toView → y.activated = x.activated →
      y.recorded = true → y.failed = (x.failed || !outcome.toBool) → Q outcome y) :
    Obeys allowed (appendSMTPPolicyRolloutHistory entry) Q x := by
  refine ⟨hpush, fun first => ⟨htrim _ (next_write_view _ _ _) ?_, fun second => ?_⟩⟩
  · rw [next_write_recorded, Write.isRecording, Bool.or_true]
  apply hQ
  · rw [next_write_view, next_write_view]
  · simp [Write.isActivation]
  · simp [Write.isRecording]
  · rw [next_write_failed, next_write_failed]
    cases first <;> cases second <;> simp [Except.toBool]

/-- Whatever a save writes before some write are records. -/
theorem earlier_of_save {activeVersion : Text} {w last : Write} {earlier later : List Write}
    {entries : List (Sigma fun _ : Text => SMTPPolicyVersionRecord)}
    (h : savedRecords activeVersion entries ++ [last] = earlier ++ w :: later) :
    earlier.any Write.isActivation = false ∧
      (w ∈ savedRecords activeVersion entries ∨ w = last) := by
  have hlen : earlier.length ≤ (savedRecords activeVersion entries).length := by
    have := congrArg List.length h
    simp only [List.length_append, List.length_cons, List.length_nil] at this
    omega
  have hpre : earlier <+: savedRecords activeVersion entries := by
    refine List.prefix_of_prefix_length_le ⟨w :: later, h.symm⟩ (List.prefix_append _ [last]) hlen
  refine ⟨?_, ?_⟩
  · rw [List.any_eq_false]
    intro v hv
    obtain ⟨version, record, -, -, rfl⟩ := mem_savedRecords (hpre.subset hv)
    exact Bool.false_ne_true
  · have hmem : w ∈ savedRecords activeVersion entries ++ [last] := by
      rw [h]
      exact List.mem_append_right _ (.head _)
    simpa using hmem

/-- The record of a promoted version. -/
theorem lookup_applySMTPPolicyPromoteState {records : VersionMap}
    {activeVersion version key : Text} {canaryPercent : Int} {triggeredBy now : Text}
    {record : SMTPPolicyVersionRecord} (hne : key ≠ version)
    (h : (applySMTPPolicyPromoteState records activeVersion version canaryPercent triggeredBy
      now).1.lookup key = some record) :
    records.lookup key = some record ∨
      (key = activeVersion ∧ activeVersion ≠ [] ∧
        record.canaryPercent = ((records.lookup activeVersion).getD {}).canaryPercent) := by
  simp only [applySMTPPolicyPromoteState] at h
  rw [AList.lookup_insert_ne hne] at h
  split at h
  · next hact =>
    by_cases hkey : key = activeVersion
    · subst hkey
      rw [AList.lookup_insert] at h
      rw [← Option.some.inj h]
      exact .inr ⟨rfl, hact.1, rfl⟩
    · rw [AList.lookup_insert_ne hkey] at h
      exact .inl h
  · exact .inl h

/-- What a promotion saves is allowed. -/
theorem allowed_savedRecords {version : Text} {canaryPercent : Int} {isRollback : Bool}
    {triggeredBy now : Text} {target : SMTPPolicyVersionRecord} {w : Write} {y : Progress}
    {v : View} (hview : y.toView = v)
    (hactive : normalizePolicyVersion v.active = v.active)
    (hversion : normalizePolicyVersion version = version) (hmem : version ∈ v.records)
    (hcanary : normalizeCanaryPercent canaryPercent = canaryPercent)
    (htarget : target.canaryPercent = canaryPercent)
    (hw : w ∈ savedRecords version ((applySMTPPolicyPromoteState v.records v.active version
      canaryPercent triggeredBy now).1.insert version target).entries) :
    AllowedFor y (version, canaryPercent) isRollback w := by
  obtain ⟨key, record, hlookup, hne, rfl⟩ := mem_savedRecords_lookup hw
  refine ⟨hne, normalizePolicyVersion_idem key, ?_⟩
  subst hview
  by_cases hkey : key = version
  · subst hkey
    rw [AList.lookup_insert] at hlookup
    rw [← Option.some.inj hlookup, if_pos hversion]
    refine ⟨?_, hmem⟩
    show normalizeCanaryPercent target.canaryPercent = canaryPercent
    rw [htarget, hcanary]
  · rw [AList.lookup_insert_ne hkey] at hlookup
    rcases lookup_applySMTPPolicyPromoteState hkey hlookup with hold | ⟨rfl, hnil, hcan⟩
    · have hloaded := loaded_of_lookup hold
      have hnorm : normalizePolicyVersion key = key := hloaded.trimmed
      simp only [hnorm]
      rw [if_neg hkey]
      simp only [Kept, hold]
      exact hloaded.canary
    · simp only [hactive]
      rw [if_neg hkey]
      simp only [Kept]
      split
      · next old hold =>
        show normalizeCanaryPercent record.canaryPercent = old.canaryPercent
        rw [hcan, hold, Option.getD_some]
        exact (loaded_of_lookup hold).canary
      · trivial

theorem obeys_commitPromotion (hread : FreeReads allowed) {version : Text}
    {canaryPercent : Int} {isRollback : Bool} {triggeredBy notes : Text}
    {validation : PolicyPayloadValidation}
    {Q : Except Text SMTPPolicyVersionRecord → Progress → Prop}
    (hallow : AllowsGoal allowed x (version, canaryPercent) isRollback)
    (hfail : x.failed = false) (hidle : x.activated = false)
    (hactive : normalizePolicyVersion x.active = x.active) (hne : version ≠ [])
    (hversion : normalizePolicyVersion version = version)
    (hmem : version ∈ x.records)
    (hcanary : normalizeCanaryPercent canaryPercent = canaryPercent)
    (hok : ∀ record (y : Progress), y.toView = x.toView → y.failed = false →
      y.activated = true → y.recorded = true → record.version = version →
      record.canaryPercent = canaryPercent → Q (.ok record) y)
    (herror : ∀ e y, y.failed = true → Q (.error e) y) :
    Obeys allowed (commitPromotion x.records x.active version canaryPercent triggeredBy notes
      validation) Q x := by
  refine Obeys.now_bind hread fun time => ?_
  refine Obeys.bind (P := fun outcome z => z.toView = x.toView ∧ z.activated = true ∧
    z.failed = !outcome.toBool) ?_ ?_ ?_
  · apply obeys_execPipe
    · intro earlier w later hws z hz hact
      apply hallow z (congrArg View.target hz)
      obtain ⟨hearlier, hw | hw⟩ := earlier_of_save hws
      · exact allowed_savedRecords hz hactive hversion hmem hcanary rfl hw
      · rw [if_neg hne] at hw
        subst hw
        refine ⟨?_, rfl, by rw [hz]; exact hmem⟩
        rw [hact, hidle, hearlier, Bool.or_false]
    · intro outcome z hz hact hf
      refine ⟨hz, ?_, ?_⟩
      · rw [hact, List.any_append, if_neg hne]
        simp [Write.isActivation]
      · rw [hf, hfail, Bool.false_or]
  · rintro ⟨⟩ z ⟨hz, hact, hf⟩
    refine Obeys.bind (P := fun outcome u => u.toView = x.toView ∧ u.activated = true ∧
      u.recorded = true ∧ u.failed = !outcome.toBool) ?_ ?_ ?_
    · apply obeys_append
      · apply hallow z (congrArg View.target hz)
        exact ⟨hf, hact, by rw [hz]; exact hmem, hversion, hcanary, .inl rfl⟩
      · intro u hu hrec
        exact hallow u (congrArg View.target (hu.trans hz)) _ ⟨hrec, rfl⟩
      · intro outcome u hu hact' hrec hf'
        refine ⟨hu.trans hz, hact'.trans hact, hrec, ?_⟩
        rw [hf', hf]
        rfl
    · rintro ⟨⟩ u ⟨hu, hact', hrec, hf'⟩
      exact hok _ u hu hf' hact' hrec rfl rfl
    · rintro e u ⟨-, -, -, hf'⟩
      exact herror e u hf'
  · rintro e z ⟨-, -, hf⟩
    exact herror e z hf

theorem obeys_promote (hread : FreeReads allowed) {cfg : Config} {version : Text}
    {canaryPercent : Int} {isRollback : Bool} {triggeredBy notes : Text}
    {Q : Except Text SMTPPolicyVersionRecord → Progress → Prop}
    (hallow : AllowsGoal allowed x
      (normalizePolicyVersion version, normalizeCanaryPercent canaryPercent) isRollback)
    (hfail : x.failed = false) (hidle : x.activated = false) (hsent : x.sent = false)
    (hok : ∀ record (y : Progress), y.target = x.target →
      normalizePolicyVersion version ∈ y.records → y.failed = false → y.activated = true →
      y.recorded = true → record.version = normalizePolicyVersion version → record.version ≠ [] →
      record.canaryPercent = normalizeCanaryPercent canaryPercent → Q (.ok record) y)
    (herror : ∀ e y, y.failed = true ∨ y.sent = false → Q (.error e) y) :
    Obeys allowed (promoteSMTPPolicyVersion cfg version canaryPercent triggeredBy notes) Q
      x := by
  unfold promoteSMTPPolicyVersion
  dsimp only
  split
  · exact herror _ x (.inr hsent)
  · next hne =>
    refine Obeys.bind (P := fun outcome y =>
      match outcome with
      | .ok loaded => loaded = (y.records, y.active) ∧ y.target = x.target ∧
          normalizePolicyVersion y.active = y.active ∧ y.failed = false ∧
          y.activated = false ∧ y.sent = false
      | .error _ => y.failed = true) ?_ ?_ ?_
    · apply obeys_load hread hsent
      · intro v hv hactive
        exact ⟨rfl, hv, hactive, hfail, hidle, hsent⟩
      · intro e y hy _
        exact hy
    · rintro ⟨records, activeVersion⟩ y ⟨hloaded, htarget, hactive, hf, hi, hs⟩
      obtain ⟨rfl, rfl⟩ := Prod.mk.inj hloaded
      dsimp only
      split
      · exact herror _ y (.inr hs)
      · next record hlookup =>
        split
        · exact herror _ y (.inr hs)
        · refine Obeys.bind (obeys_preflight (Q := fun _ z => z = y) hread fun _ => rfl) ?_ ?_
          · rintro validation z rfl
            have hgoal : AllowsGoal allowed z
                (normalizePolicyVersion version, normalizeCanaryPercent canaryPercent)
                isRollback := by
              intro u hu
              exact hallow u (hu.trans htarget)
            refine obeys_commitPromotion hread hgoal hf hi hactive hne
              (normalizePolicyVersion_idem version) ?_
              (normalizeCanaryPercent_idem canaryPercent) ?_ ?_
            · exact AList.lookup_isSome.mp (by rw [hlookup]; rfl)
            · intro record u hu hf' hact hrec hversion hcanary
              refine hok record u ((congrArg View.target hu).trans htarget) ?_ hf' hact hrec
                hversion (hversion ▸ hne) hcanary
              rw [hu]
              exact AList.lookup_isSome.mp (by rw [hlookup]; rfl)
            · intro e u hu
              exact herror e u (.inl hu)
          · rintro e z rfl
            exact herror e z (.inr hs)
    · intro e y hy
      exact herror e y (.inl hy)

end Protocol

/-! ### The three operations -/

/-- The outcome of an operation: without an error every command was served and the
active key and the history were written; with one a command failed, or nothing was sent.
A validation also returns the error of the validator. -/
def Settled : Operation → Except Text SMTPPolicyVersionRecord → Progress → Prop
  | .validate .., _, _ => True
  | _, .ok _, x => x.failed = false ∧ x.activated = true ∧ x.recorded = true
  | _, .error _, x => x.failed = true ∨ x.sent = false

theorem freeReads_allowed (op : Operation) : FreeReads (Allowed op) where
  versions _ h := h
  active _ h := h
  now _ := trivial
  validator _ _ := trivial

theorem obeys_promotion {cfg : Config} {version : Text} {canaryPercent : Int}
    {triggeredBy notes : Text} :
    Obeys (Allowed (.promote version canaryPercent triggeredBy notes))
      (promoteSMTPPolicyVersion cfg version canaryPercent triggeredBy notes)
      (Settled (.promote version canaryPercent triggeredBy notes)) {} := by
  have hgoal : AllowsGoal (Allowed (.promote version canaryPercent triggeredBy notes)) {}
      (normalizePolicyVersion version, normalizeCanaryPercent canaryPercent) false := by
    intro y _ w hw
    exact hw
  apply obeys_promote (freeReads_allowed _) hgoal
  · rfl
  · rfl
  · rfl
  · intro record y _ _ hf hact hrec _ _ _
    exact ⟨hf, hact, hrec⟩
  · intro e y hy
    exact hy

/-- A target that a rollback selects. -/
theorem target_of_select {records : VersionMap} {activeVersion : Text} {goal : Text × Int} :
    ∀ {history : List SMTPPolicyRolloutRecord},
      selectSMTPRollbackTarget records activeVersion history = .ok goal →
        normalizePolicyVersion goal.1 = goal.1 ∧ normalizeCanaryPercent goal.2 = goal.2 ∧
          goal.1 ∈ records ∧ goal.1 ≠ activeVersion ∧
            ∃ entry ∈ history, entry.action = .promote ∧
              normalizePolicyVersion entry.version = goal.1
  | [], h => nomatch h
  | entry :: history, h => by
      have hskip : selectSMTPRollbackTarget records activeVersion history = .ok goal →
          normalizePolicyVersion goal.1 = goal.1 ∧ normalizeCanaryPercent goal.2 = goal.2 ∧
            goal.1 ∈ records ∧ goal.1 ≠ activeVersion ∧
              ∃ e ∈ entry :: history, e.action = .promote ∧
                normalizePolicyVersion e.version = goal.1 := by
        intro h
        obtain ⟨h1, h2, h3, h4, e, he, hrest⟩ := target_of_select h
        exact ⟨h1, h2, h3, h4, e, .tail _ he, hrest⟩
      rw [selectSMTPRollbackTarget] at h
      split at h
      · exact hskip h
      · next hpromote =>
        split at h
        · exact hskip h
        · next hother =>
          split at h
          · exact hskip h
          · next hsome =>
            cases h
            refine ⟨normalizePolicyVersion_idem _, normalizeCanaryPercent_idem _, ?_, ?_,
              entry, .head _, not_not.mp hpromote, rfl⟩
            · refine AList.lookup_isSome.mp (Option.isSome_iff_ne_none.mpr ?_)
              simpa using hsome
            · exact fun heq => hother (.inr heq)

theorem obeys_recordRollback {triggeredBy notes by_ why : Text} {version : Text}
    {canaryPercent : Int} {record : SMTPPolicyVersionRecord} {x : Progress}
    (hread : FreeReads (Allowed (.rollback triggeredBy notes)))
    (htarget : x.target = some (version, canaryPercent)) (hmem : version ∈ x.records)
    (hfail : x.failed = false) (hact : x.activated = true)
    (hversion : normalizePolicyVersion version = version)
    (hcanary : normalizeCanaryPercent canaryPercent = canaryPercent)
    (hrecord : record.version = version) (hne : record.version ≠ [])
    (hcan : record.canaryPercent = canaryPercent) :
    Obeys (Allowed (.rollback triggeredBy notes))
      (recordRollback version canaryPercent by_ why record)
      (Settled (.rollback triggeredBy notes)) x := by
  have hnorm : normalizePolicyVersion record.version = version := by rw [hrecord, hversion]
  refine Obeys.now_bind hread fun time => ?_
  refine Obeys.bind (P := fun outcome z => z.toView = x.toView ∧ z.activated = true ∧
    z.failed = !outcome.toBool) ?_ ?_ ?_
  · unfold upsertSMTPPolicyVersionRecord
    dsimp only
    rw [hnorm, if_neg (hrecord ▸ hne)]
    refine ⟨⟨_, htarget, ?_, hversion, ?_⟩, ?_⟩
    · exact hrecord ▸ hne
    · rw [if_pos rfl]
      refine ⟨?_, hmem⟩
      show normalizeCanaryPercent record.canaryPercent = canaryPercent
      rw [hcan, hcanary]
    · intro reply
      refine ⟨next_write_view _ _ _, ?_, ?_⟩
      · rw [next_write_activated, hact, Bool.true_or]
      · rw [next_write_failed, hfail, Bool.false_or]
  · rintro ⟨⟩ z ⟨hz, hact', hf⟩
    refine Obeys.bind (P := fun outcome u => u.activated = true ∧ u.recorded = true ∧
      u.failed = !outcome.toBool) ?_ ?_ ?_
    · apply obeys_append
      · exact ⟨_, (congrArg View.target hz).trans htarget, hf, hact', by rw [hz]; exact hmem,
          hversion, hcanary, .inr ⟨rfl, rfl⟩⟩
      · intro u hu hrec
        exact ⟨_, (congrArg View.target (hu.trans hz)).trans htarget, hrec, rfl⟩
      · intro outcome u _ hact'' hrec hf'
        refine ⟨hact''.trans hact', hrec, ?_⟩
        rw [hf', hf]
        rfl
    · rintro ⟨⟩ u ⟨hact'', hrec, hf'⟩
      exact ⟨hf', hact'', hrec⟩
    · rintro e u ⟨-, -, hf'⟩
      exact .inl hf'
  · rintro e z ⟨-, -, hf⟩
    exact .inl hf

theorem obeys_rollback {cfg : Config} {triggeredBy notes : Text} :
    Obeys (Allowed (.rollback triggeredBy notes))
      (rollbackSMTPPolicyVersion cfg triggeredBy notes)
      (Settled (.rollback triggeredBy notes)) {} := by
  have hread := freeReads_allowed (.rollback triggeredBy notes)
  unfold rollbackSMTPPolicyVersion
  dsimp only
  refine Obeys.bind (P := fun outcome y =>
    match outcome with
    | .ok loaded => loaded = (y.records, y.active) ∧ y.failed = false ∧
        y.activated = false ∧ y.sent = false
    | .error _ => y.failed = true) ?_ ?_ ?_
  · apply obeys_load hread rfl
    · intro v _ _
      exact ⟨rfl, rfl, rfl, rfl⟩
    · intro e y hy _
      exact hy
  · rintro ⟨records, activeVersion⟩ y ⟨hloaded, hf, hi, hs⟩
    obtain ⟨rfl, rfl⟩ := Prod.mk.inj hloaded
    dsimp only
    split
    · exact .inr hs
    · next hactive =>
      refine Obeys.bind (P := fun outcome z =>
        match outcome with
        | .ok history => z.failed = false ∧ z.activated = false ∧ z.sent = false ∧
            z.target = (selectSMTPRollbackTarget y.records y.active history).toOption
        | .error _ => z.failed = true) ?_ ?_ ?_
      · refine ⟨⟨hs, hactive⟩, ?_⟩
        rintro (e | values)
        · rfl
        · exact ⟨hf, hi, hs, rfl⟩
      · rintro history z ⟨hf', hi', hs', htarget⟩
        cases hselect : selectSMTPRollbackTarget y.records y.active history with
        | error e => exact .inr hs'
        | ok goal =>
          obtain ⟨version, canaryPercent⟩ := goal
          obtain ⟨hversion, hcanary, -⟩ := target_of_select hselect
          rw [hselect] at htarget
          show Obeys _ (if _ then _ else _) _ _
          split
          · exact .inr hs'
          · refine Obeys.bind (obeys_preflight (Q := fun _ u => u = z) hread fun _ => rfl) ?_ ?_
            · rintro - u rfl
              refine Obeys.bind (P := fun outcome v =>
                match outcome with
                | .ok record => v.target = some (version, canaryPercent) ∧
                    version ∈ v.records ∧ v.failed = false ∧ v.activated = true ∧
                    record.version = version ∧ record.version ≠ [] ∧
                    record.canaryPercent = canaryPercent
                | .error _ => v.failed = true ∨ v.sent = false) ?_ ?_ ?_
              · have hgoal : AllowsGoal (Allowed (.rollback triggeredBy notes)) u
                    (normalizePolicyVersion version, normalizeCanaryPercent canaryPercent)
                    true := by
                  intro v hv w hw
                  rw [hversion, hcanary] at hw
                  exact ⟨_, hv.trans htarget, hw⟩
                apply obeys_promote hread hgoal
                · exact hf'
                · exact hi'
                · exact hs'
                · intro record v hv hmem hf'' hact _ hrecord hne hcan
                  rw [hversion] at hmem hrecord
                  exact ⟨hv.trans htarget, hmem, hf'', hact, hrecord, hne, hcan.trans hcanary⟩
                · intro e v hv
                  exact hv
              · rintro record v ⟨htarget', hmem, hf'', hact, hrecord, hne, hcan⟩
                exact obeys_recordRollback hread htarget' hmem hf'' hact hversion hcanary hrecord
                  hne hcan
              · rintro e v hv
                exact hv
            · rintro e u rfl
              exact .inr hs'
      · intro e z hf'
        exact .inl hf'
  · intro e y hf
    exact .inl hf

theorem obeys_lift {allowed : Progress → Command → Prop} {α : Type} {p : Prog Command Reply α}
    {Q : Except Text α → Progress → Prop} {x : Progress}
    (h : Prog.Follows allowed Progress.next p (fun a y => Q (.ok a) y) x) :
    Obeys allowed (.lift p) Q x := by
  have hlift : (ExceptT.lift p : Program α).run = p >>= fun a => Prog.ret (Except.ok a) := rfl
  rw [Obeys, hlift, Prog.follows_bind]
  exact h

@[simp] theorem closedRecord_version {record : SMTPPolicyVersionRecord} {now : Text}
    {outcome : Except Text PolicyPayloadValidation} :
    (closedRecord record now outcome).version = record.version := by
  cases outcome <;> rfl

/-- What a validation saves is allowed. -/
theorem allowed_validationWrites {version : Text} {record : SMTPPolicyVersionRecord} {w : Write}
    {y : Progress} {v : View} (hview : y.toView = v)
    (hactive : normalizePolicyVersion v.active = v.active)
    (hversion : normalizePolicyVersion version = version)
    (hw : w ∈ savedRecords v.active (v.records.insert version record).entries ++
      [if v.active = [] then .delActive else .setActive v.active]) :
    AllowedForValidation y version w := by
  subst hview
  rcases List.mem_append.mp hw with hw | hw
  · obtain ⟨key, record', hlookup, hne, rfl⟩ := mem_savedRecords_lookup hw
    refine ⟨hne, normalizePolicyVersion_idem key, ?_⟩
    by_cases hkey : key = version
    · subst hkey
      exact .inl hversion
    · rw [AList.lookup_insert_ne hkey] at hlookup
      have hloaded := loaded_of_lookup hlookup
      have hnorm : normalizePolicyVersion key = key := hloaded.trimmed
      simp only [hnorm]
      refine .inr ?_
      simp only [Kept, hlookup]
      exact hloaded.canary
  · rw [List.mem_singleton] at hw
    subst hw
    split
    · next h => exact h
    · next h => exact ⟨rfl, h⟩

theorem obeys_validation {cfg : Config} {version triggeredBy notes : Text} :
    Obeys (Allowed (.validate version triggeredBy notes))
      (validateSMTPPolicyVersion cfg version triggeredBy notes)
      (Settled (.validate version triggeredBy notes)) {} := by
  have hread := freeReads_allowed (.validate version triggeredBy notes)
  unfold validateSMTPPolicyVersion
  dsimp only
  split
  · trivial
  · refine Obeys.bind (P := fun outcome y =>
      match outcome with
      | .ok loaded => loaded = (y.records, y.active) ∧
          normalizePolicyVersion y.active = y.active
      | .error _ => True) ?_ ?_ (fun _ _ _ => trivial)
    · apply obeys_load hread rfl
      · intro v _ hactive
        exact ⟨rfl, hactive⟩
      · intro e y _ _
        trivial
    · rintro ⟨records, activeVersion⟩ y ⟨hloaded, hactive⟩
      obtain ⟨rfl, rfl⟩ := Prod.mk.inj hloaded
      refine Obeys.now_bind hread fun time => ?_
      refine Obeys.bind (P := fun _ u => u = y) ?_ ?_ (fun _ _ _ => trivial)
      · exact obeys_lift (obeys_preflight (Q := fun _ u => u = y) hread fun _ => rfl)
      · rintro outcome u rfl
        refine Obeys.bind (P := fun _ v => v.toView = u.toView) ?_ ?_ (fun _ _ _ => trivial)
        · apply obeys_execPipe
          · intro earlier w later hws v hv _
            have hmem : w ∈ earlier ++ w :: later := List.mem_append_right _ (.head _)
            rw [← hws] at hmem
            exact allowed_validationWrites hv hactive (normalizePolicyVersion_idem version) hmem
          · intro _ v hv _ _
            exact hv
        · rintro ⟨⟩ v hv
          refine Obeys.bind (P := fun _ _ => True) ?_ ?_ (fun _ _ _ => trivial)
          · apply obeys_append
            · rfl
            · intro _ _ hrec
              exact ⟨hrec, rfl⟩
            · intros
              trivial
          · rintro ⟨⟩ _ _
            dsimp only
            split <;> trivial

/-- **The programs of the three operations obey their protocols.** -/
theorem follows_program (cfg : Config) (op : Operation) :
    Prog.Follows (Allowed op) Progress.next (op.program cfg).run (Settled op) {} := by
  cases op with
  | promote version canaryPercent triggeredBy notes => exact obeys_promotion
  | validate version triggeredBy notes => exact obeys_validation
  | rollback triggeredBy notes => exact obeys_rollback

/-! ## Calls one after the other -/

/-- A call: the operation and what its commands meet. -/
structure Call where
  op : Operation
  answers : List Answer := []

/-- The call is executed to its end. -/
def Ledger.call (cfg : Config) (l : Ledger) (c : Call) :
    Except Text SMTPPolicyVersionRecord × Ledger :=
  Prog.run (exec c.op) (c.op.program cfg).run c.answers l

/-- The control plane, one call after the other. -/
def rollouts (cfg : Config) : Transition.System Ledger Call where
  step l c := some (l.call cfg c).2

/-- What reading the store makes of a view. -/
inductive Reads (s : PolicyStore) (v : View) : View → Prop
  | versions : Reads s v { v with versions := s.versions }
  | active : Reads s v { v with active := normalizePolicyVersion (s.active.getD []) }
  | history (stop : Nat) (h : v.active ≠ []) : Reads s v { v with
      target := (selectSMTPRollbackTarget v.records v.active
        (loadedHistory (s.history.take (stop + 1)))).toOption }

/-- The rule for calls: what reading, a failure, a write that takes effect and one that
does not all keep, holds after the call. -/
theorem call_induction (cfg : Config) {l : Ledger} {c : Call} {J : Progress → Ledger → Prop}
    (hinit : J {} l)
    (hread : ∀ {x m v}, J x m → x.sent = false → Reads m.store x.toView v →
      J { x with toView := v } m)
    (hfail : ∀ {x m}, J x m → J { x with failed := true } (m.failed c.op))
    (hserved : ∀ {x m w}, J x m → Allowed c.op x (.write w) → J (x.send w) (m.wrote c.op w))
    (hrefused : ∀ {x m w}, J x m → Allowed c.op x (.write w) →
      J { x.send w with failed := true } (m.failed c.op)) :
    ∃ y, Settled c.op (l.call cfg c).1 y ∧ J y (l.call cfg c).2 := by
  refine (follows_program cfg c.op).run (J := J) ?_ hinit c.answers
  intro x command m hallow hJ answer
  obtain ⟨fate, time, verdict⟩ := answer
  cases command with
  | hgetall =>
    cases fate with
    | served => exact hread hJ hallow .versions
    | refused e => exact hfail hJ
    | lost e => exact hfail hJ
  | getActive =>
    cases fate with
    | served => exact hread hJ hallow .active
    | refused e => exact hfail hJ
    | lost e => exact hfail hJ
  | lrange stop =>
    cases fate with
    | served => exact hread hJ hallow.1 (.history stop hallow.2)
    | refused e => exact hfail hJ
    | lost e => exact hfail hJ
  | write w =>
    cases fate with
    | served => exact hserved hJ hallow
    | refused e => exact hrefused hJ hallow
    | lost e => exact hfail (hserved hJ hallow)
  | now => exact hJ
  | validateVersion version => exact hJ

end ValidEmailVerifier.Policy
