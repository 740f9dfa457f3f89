/-
# `Policy.Rollbacks` — where a rollback goes

A rollback takes the newest promotion in the history whose version is not active.  It
records itself as a promotion too, so the next rollback finds the version it has just
left: two rollbacks in a row end where they began (`twoRollbacks_return`).

`movedAway` are the versions a rollback has left and nobody has promoted since.  A run
never returns to one of them as long as a rollback is called only when some version
other than the active one has been promoted since the last rollback
(`neverReturns_of_freshPromotion`).
-/
import ValidEmailVerifier.Policy.History

namespace ValidEmailVerifier.Policy

open Transition Programs Worker

/-! ## The versions a rollback has left -/

/-- The versions a rollback moved away from that no promote call has activated since. -/
def movedAway : List Event → List Text
  | [] => []
  | .wrote (.rollback ..) old (.setActive _) :: log => old.toList ++ movedAway log
  | .wrote (.promote ..) _ (.setActive version) :: log => (movedAway log).filter (· ≠ version)
  | _ :: log => movedAway log

/-- No rollback has activated a version that an earlier one moved away from and that has
not been promoted since. -/
def NeverReturns : List Event → Prop
  | [] => True
  | .wrote (.rollback ..) _ (.setActive version) :: log =>
      version ∉ movedAway log ∧ NeverReturns log
  | _ :: log => NeverReturns log

instance decidableNeverReturns : DecidablePred NeverReturns
  | [] => isTrue trivial
  | .wrote (.rollback ..) _ (.setActive version) :: log =>
      have := decidableNeverReturns log
      inferInstanceAs (Decidable (version ∉ movedAway log ∧ NeverReturns log))
  | .wrote (.rollback ..) _ (.hset _) :: log => decidableNeverReturns log
  | .wrote (.rollback ..) _ .delActive :: log => decidableNeverReturns log
  | .wrote (.rollback ..) _ (.lpush _) :: log => decidableNeverReturns log
  | .wrote (.rollback ..) _ (.ltrim _) :: log => decidableNeverReturns log
  | .wrote (.promote ..) _ _ :: log => decidableNeverReturns log
  | .wrote (.validate ..) _ _ :: log => decidableNeverReturns log
  | .failed _ :: log => decidableNeverReturns log

/-- A rollback has activated a version. -/
def rolledBack : List Event → Bool
  | [] => false
  | .wrote (.rollback ..) _ (.setActive _) :: _ => true
  | _ :: log => rolledBack log

/-- The entries of the rollout history, untrimmed. -/
def recordedEntries : List Event → List SMTPPolicyRolloutRecord
  | [] => []
  | .wrote _ _ (.lpush entry) :: log => entry :: recordedEntries log
  | _ :: log => recordedEntries log

/-- Those since the last rollback activated a version. -/
def freshEntries : List Event → List SMTPPolicyRolloutRecord
  | [] => []
  | .wrote (.rollback ..) _ (.setActive _) :: _ => []
  | .wrote _ _ (.lpush entry) :: log => entry :: freshEntries log
  | _ :: log => freshEntries log

/-- The promotion of another version than the active one has been recorded since the
last rollback. -/
def FreshPromotion (l : Ledger) : Prop :=
  rolledBack l.log = true → ∃ entry ∈ freshEntries l.log,
    entry.action = .promote ∧ some entry.version ≠ l.store.active

/-- A rollback is called only behind such a promotion. -/
def RollsBackFresh (l : Ledger) (c : Call) : Prop :=
  match c.op with
  | .rollback .. => FreshPromotion l
  | _ => True

instance (l : Ledger) : Decidable (FreshPromotion l) := inferInstanceAs (Decidable (_ → _))

instance (l : Ledger) (c : Call) : Decidable (RollsBackFresh l c) := by
  unfold RollsBackFresh
  cases c.op <;> infer_instance

/-! ## The selected target -/

/-- The entry is one a rollback may go to. -/
def isTarget (records : VersionMap) (activeVersion : Text) (entry : SMTPPolicyRolloutRecord) :
    Bool :=
  let version := normalizePolicyVersion entry.version
  entry.action = .promote ∧ version ≠ [] ∧ version ≠ activeVersion ∧
    (records.lookup version).isSome

theorem isTarget_iff {records : VersionMap} {activeVersion : Text}
    {entry : SMTPPolicyRolloutRecord} :
    isTarget records activeVersion entry = true ↔
      entry.action = .promote ∧ normalizePolicyVersion entry.version ≠ [] ∧
        normalizePolicyVersion entry.version ≠ activeVersion ∧
          (records.lookup (normalizePolicyVersion entry.version)).isSome = true := by
  simp [isTarget]

/-- The target is the version of the first such entry. -/
theorem find?_of_select {records : VersionMap} {activeVersion : Text} {goal : Text × Int} :
    ∀ {history : List SMTPPolicyRolloutRecord},
      selectSMTPRollbackTarget records activeVersion (loadedHistory history) = .ok goal →
        ∃ entry, history.find? (isTarget records activeVersion) = some entry ∧
          normalizePolicyVersion entry.version = goal.1
  | [], h => nomatch h
  | entry :: history, h => by
      have hidem := normalizePolicyVersion_idem entry.version
      have hskip : isTarget records activeVersion entry = false →
          selectSMTPRollbackTarget records activeVersion (loadedHistory history) = .ok goal →
            ∃ e, (entry :: history).find? (isTarget records activeVersion) = some e ∧
              normalizePolicyVersion e.version = goal.1 := by
        intro hno h
        rw [List.find?_cons_of_neg (by rw [hno]; exact Bool.false_ne_true)]
        exact find?_of_select h
      by_cases hnil : normalizePolicyVersion entry.version = []
      · refine hskip (by simp [isTarget, hnil]) ?_
        simpa [loadedHistory, hnil] using h
      · rw [loadedHistory, List.map_cons, List.filter_cons_of_pos (by simpa using hnil),
          selectSMTPRollbackTarget] at h
        dsimp only at h
        rw [hidem] at h
        split at h
        · next hact => exact hskip (by simp [isTarget, hact]) h
        · next hact =>
          split at h
          · next hother =>
            refine hskip ?_ h
            rcases hother with h' | h' <;> simp [isTarget, h']
          · next hother =>
            split at h
            · next hnone =>
              refine hskip ?_ h
              simp only [isTarget, Option.isNone_iff_eq_none.mp hnone]
              simp
            · next hsome =>
              cases h
              refine ⟨entry, ?_, rfl⟩
              apply List.find?_cons_of_pos
              have hsome' : (records.lookup (normalizePolicyVersion entry.version)).isSome =
                  true := by
                rw [← Option.not_isNone, Bool.not_eq_true']
                exact Bool.eq_false_iff.mpr hsome
              simp only [isTarget, hsome', decide_eq_true_eq, and_true]
              exact ⟨not_not.mp hact, hnil, fun heq => hother (.inr heq)⟩

/-! ## What an event changes -/

/-- The events that say nothing of where rollbacks went. -/
inductive Quiet : Event → Prop
  | failed (op : Operation) : Quiet (.failed op)
  | hset (op : Operation) (old : Option Text) (record : SMTPPolicyVersionRecord) :
      Quiet (.wrote op old (.hset record))
  | delActive (op : Operation) (old : Option Text) : Quiet (.wrote op old .delActive)
  | ltrim (op : Operation) (old : Option Text) (stop : Nat) : Quiet (.wrote op old (.ltrim stop))
  | validated (version triggeredBy notes : Text) (old : Option Text) (active : Text) :
      Quiet (.wrote (.validate version triggeredBy notes) old (.setActive active))

namespace Quiet

variable {ev : Event} {log : List Event}

theorem movedAway (h : Quiet ev) : movedAway (ev :: log) = Policy.movedAway log := by
  cases h with
  | hset op => cases op <;> rfl
  | delActive op => cases op <;> rfl
  | ltrim op => cases op <;> rfl
  | _ => rfl

theorem neverReturns (h : Quiet ev) : NeverReturns (ev :: log) ↔ NeverReturns log := by
  cases h with
  | hset op => cases op <;> rfl
  | delActive op => cases op <;> rfl
  | ltrim op => cases op <;> rfl
  | _ => rfl

theorem rolledBack (h : Quiet ev) : rolledBack (ev :: log) = Policy.rolledBack log := by
  cases h with
  | hset op => cases op <;> rfl
  | delActive op => cases op <;> rfl
  | ltrim op => cases op <;> rfl
  | _ => rfl

theorem recordedEntries (h : Quiet ev) :
    recordedEntries (ev :: log) = Policy.recordedEntries log := by
  cases h <;> rfl

theorem freshEntries (h : Quiet ev) : freshEntries (ev :: log) = Policy.freshEntries log := by
  cases h with
  | hset op => cases op <;> rfl
  | delActive op => cases op <;> rfl
  | ltrim op => cases op <;> rfl
  | _ => rfl

end Quiet

section Recording
variable (op : Operation) (old : Option Text) (entry : SMTPPolicyRolloutRecord)
  (log : List Event)

@[simp] theorem movedAway_lpush :
    movedAway (.wrote op old (.lpush entry) :: log) = movedAway log := by
  cases op <;> rfl

@[simp] theorem neverReturns_lpush :
    NeverReturns (.wrote op old (.lpush entry) :: log) ↔ NeverReturns log := by
  cases op <;> rfl

@[simp] theorem rolledBack_lpush :
    rolledBack (.wrote op old (.lpush entry) :: log) = rolledBack log := by
  cases op <;> rfl

@[simp] theorem freshEntries_lpush :
    freshEntries (.wrote op old (.lpush entry) :: log) = entry :: freshEntries log := by
  cases op <;> rfl

end Recording

/-! ## The invariant -/

/-- The store knows the version. -/
def Known (s : PolicyStore) (version : Text) : Prop :=
  ∃ key ∈ s.versions, normalizePolicyVersion key = version

structure WalkInv (m : Ledger) : Prop where
  active : ∀ a, m.store.active = some a → normalizePolicyVersion a = a ∧ a ≠ []
  history : m.store.history <+: recordedEntries m.log
  fresh : freshEntries m.log <+: recordedEntries m.log
  known : ∀ entry ∈ recordedEntries m.log, entry.action = .promote →
    normalizePolicyVersion entry.version = entry.version ∧ entry.version ≠ [] ∧
      Known m.store entry.version
  apart : ∀ entry ∈ freshEntries m.log, entry.action = .promote →
    entry.version ∉ movedAway m.log
  still : rolledBack m.log = false → movedAway m.log = []
  never : NeverReturns m.log

theorem walkInv_empty : WalkInv {} where
  active _ h := nomatch h
  history := List.prefix_refl _
  fresh := List.prefix_refl _
  known _ h := nomatch h
  apart _ h := nomatch h
  still _ := rfl
  never := trivial

theorem Known.hset {s : PolicyStore} {version : Text} (h : Known s version)
    (record : SMTPPolicyVersionRecord) : Known (s.apply (.hset record)) version := by
  obtain ⟨key, hkey, hnorm⟩ := h
  exact ⟨key, (AList.mem_insert _).mpr (.inr hkey), hnorm⟩

namespace WalkInv

variable {m : Ledger} {op : Operation}

/-- A quiet event that leaves the active key and the history where they are. -/
theorem quiet (h : WalkInv m) {ev : Event} (hev : Quiet ev) {s : PolicyStore}
    (hactive : ∀ a, s.active = some a → normalizePolicyVersion a = a ∧ a ≠ [])
    (hhistory : s.history <+: m.store.history)
    (hknown : ∀ version, Known m.store version → Known s version) :
    WalkInv ⟨s, ev :: m.log⟩ where
  active := hactive
  history := by
    rw [hev.recordedEntries]
    exact hhistory.trans h.history
  fresh := by
    rw [hev.freshEntries, hev.recordedEntries]
    exact h.fresh
  known := by
    intro entry hentry haction
    rw [hev.recordedEntries] at hentry
    obtain ⟨h1, h2, h3⟩ := h.known entry hentry haction
    exact ⟨h1, h2, hknown _ h3⟩
  apart := by
    intro entry hentry haction
    rw [hev.freshEntries] at hentry
    rw [hev.movedAway]
    exact h.apart entry hentry haction
  still := by
    rw [hev.rolledBack, hev.movedAway]
    exact h.still
  never := hev.neverReturns.mpr h.never

theorem failed (h : WalkInv m) : WalkInv (m.failed op) :=
  h.quiet (.failed op) h.active (List.prefix_refl _) fun _ hk => hk

theorem hset (h : WalkInv m) (record : SMTPPolicyVersionRecord) :
    WalkInv (m.wrote op (.hset record)) :=
  h.quiet (.hset op _ record) h.active (List.prefix_refl _) fun _ hk => hk.hset record

theorem ltrim (h : WalkInv m) (stop : Nat) : WalkInv (m.wrote op (.ltrim stop)) :=
  h.quiet (.ltrim op _ stop) h.active (List.take_prefix _ _) fun _ hk => hk

/-- A promotion that is recorded has not been left by a rollback. -/
theorem lpush (h : WalkInv m) {entry : SMTPPolicyRolloutRecord}
    (hentry : entry.action = .promote → normalizePolicyVersion entry.version = entry.version ∧
      entry.version ≠ [] ∧ Known m.store entry.version ∧ entry.version ∉ movedAway m.log) :
    WalkInv (m.wrote op (.lpush entry)) where
  active := h.active
  history := (List.prefix_cons_inj _).mpr h.history
  fresh := by
    rw [Ledger.wrote_log, freshEntries_lpush]
    exact (List.prefix_cons_inj _).mpr h.fresh
  known := by
    intro e he haction
    cases he with
    | head =>
      obtain ⟨h1, h2, h3, -⟩ := hentry haction
      exact ⟨h1, h2, h3⟩
    | tail _ he => exact h.known e he haction
  apart := by
    intro e he haction
    rw [Ledger.wrote_log, freshEntries_lpush] at he
    rw [Ledger.wrote_log, movedAway_lpush]
    cases he with
    | head => exact (hentry haction).2.2.2
    | tail _ he => exact h.apart e he haction
  still := by
    rw [Ledger.wrote_log, rolledBack_lpush, movedAway_lpush]
    exact h.still
  never := (neverReturns_lpush ..).mpr h.never

/-- A promote call activates a version. -/
theorem promoted (h : WalkInv m) {version v triggeredBy notes : Text} {canaryPercent : Int}
    (hv : normalizePolicyVersion v = v ∧ v ≠ []) :
    WalkInv (m.wrote (.promote version canaryPercent triggeredBy notes) (.setActive v)) where
  active := by
    intro a ha
    exact Option.some.inj ha ▸ hv
  history := h.history
  fresh := h.fresh
  known := h.known
  apart := by
    intro entry hentry haction hmem
    exact h.apart entry hentry haction (List.mem_of_mem_filter hmem)
  still := by
    intro hstill
    show (movedAway m.log).filter _ = []
    rw [h.still hstill]
    rfl
  never := h.never

/-- A rollback activates a version that none has left. -/
theorem rolledBackTo (h : WalkInv m) {v triggeredBy notes : Text}
    (hv : normalizePolicyVersion v = v ∧ v ≠ []) (hmoved : v ∉ movedAway m.log) :
    WalkInv (m.wrote (.rollback triggeredBy notes) (.setActive v)) where
  active := by
    intro a ha
    exact Option.some.inj ha ▸ hv
  history := h.history
  fresh := List.nil_prefix
  known := h.known
  apart := nofun
  still := nofun
  never := ⟨hmoved, h.never⟩

end WalkInv

/-! ## A call -/

/-- What an operation that started at `l` knows of the versions rollbacks have left. -/
structure Walk (l : Ledger) (op : Operation) (x : Progress) (m : Ledger) : Prop where
  inv : WalkInv m
  active : x.active = [] ∨ x.active = normalizePolicyVersion (l.store.active.getD [])
  versions : ∀ key ∈ x.versions, key ∈ m.store.versions
  unread : x.versions = ∅ ∨ x.versions = l.store.versions
  unsent : x.sent = false → m.store = l.store ∧ x.activated = false ∧
    (FreshPromotion l → FreshPromotion m)
  idle : x.activated = false → m.store.active = l.store.active ∧
    movedAway m.log = movedAway l.log
  target : ∀ goal triggeredBy notes, op = .rollback triggeredBy notes →
    x.target = some goal → goal.1 ∉ movedAway l.log ∧ some goal.1 ≠ l.store.active ∧
      normalizePolicyVersion goal.1 = goal.1 ∧ goal.1 ≠ []
  chosen : x.failed = false → x.activated = true → ∀ version, op.goal x.toView = some version →
    version ∉ movedAway m.log

namespace Walk

variable {l m : Ledger} {op : Operation} {x : Progress}

theorem init (h : WalkInv l) : Walk l op {} l where
  inv := h
  active := .inl rfl
  versions _ h := nomatch h
  unread := .inl rfl
  unsent _ := ⟨rfl, rfl, id⟩
  idle _ := ⟨rfl, rfl⟩
  target _ _ _ _ h := nomatch h
  chosen _ h := nomatch h

theorem fail (h : Walk l op x m) : Walk l op { x with failed := true } (m.failed op) where
  inv := h.inv.failed
  active := h.active
  versions := h.versions
  unread := h.unread
  unsent hs := by
    obtain ⟨hstore, hact, hkeep⟩ := h.unsent hs
    exact ⟨hstore, hact, hkeep⟩
  idle := h.idle
  target := h.target
  chosen := nofun

/-- The versions a call has loaded are known. -/
theorem known_of_mem_records (h : Walk l op x m) {version : Text}
    (hv : version ∈ x.records) : version ≠ [] ∧ normalizePolicyVersion version = version ∧
      Known m.store version := by
  obtain ⟨hne, value, hvalue, hnorm⟩ := mem_loadedRecords.mp hv
  refine ⟨hne, ?_, value.1, h.versions value.1 ?_, hnorm⟩
  · rw [← hnorm]
    exact normalizePolicyVersion_idem value.1
  · exact List.mem_map_of_mem (f := Sigma.fst) hvalue

/-- A rollback behind a fresh promotion goes to a version that none has left. -/
theorem target_of_fresh (h : WalkInv m) (hfresh : FreshPromotion m) {v : View}
    (hactive : v.active = normalizePolicyVersion (m.store.active.getD []))
    (hversions : v.versions = ∅ ∨ v.versions = m.store.versions) {stop : Nat}
    {goal : Text × Int}
    (hselect : selectSMTPRollbackTarget v.records v.active
      (loadedHistory (m.store.history.take (stop + 1))) = .ok goal) :
    goal.1 ∉ movedAway m.log := by
  cases hrolled : rolledBack m.log with
  | false =>
    rw [h.still hrolled]
    exact List.not_mem_nil
  | true =>
    obtain ⟨e, he, haction, hother⟩ := hfresh hrolled
    obtain ⟨first, hfind, hversion⟩ := find?_of_select hselect
    -- the entries a rollback reads begin the history, and the fresh ones begin it too
    have hwhole : (recordedEntries m.log).find? (isTarget v.records v.active) = some first :=
      ((List.take_prefix _ _).trans h.history).find?_eq_some hfind
    obtain ⟨hpromote, -, -, hsome⟩ := isTarget_iff.mp (List.find?_some hfind)
    have hloaded : v.versions = m.store.versions := by
      rcases hversions with hempty | hloaded
      · have hnone : v.records = ∅ := by
          rw [View.records, hempty]
          rfl
        rw [hnone] at hsome
        exact nomatch hsome
      · exact hloaded
    have hetarget : isTarget v.records v.active e = true := by
      obtain ⟨hnorm, hne, key, hkey, hknown⟩ := h.known e (h.fresh.subset he) haction
      refine isTarget_iff.mpr ⟨haction, hnorm.symm ▸ hne, ?_, ?_⟩
      · rw [hnorm, hactive]
        cases hact : m.store.active with
        | none => exact hne
        | some a =>
          rw [Option.getD_some, (h.active a hact).1]
          intro heq
          exact hother (by rw [heq, hact])
      · obtain ⟨value, hvalue, rfl⟩ := List.mem_map.mp hkey
        rw [hnorm, AList.lookup_isSome, View.records, mem_loadedRecords, hloaded]
        exact ⟨hne, value, hvalue, hknown⟩
    obtain ⟨older, hsplit⟩ := h.fresh
    rw [← hsplit, List.find?_append] at hwhole
    obtain ⟨found, hfound⟩ : ∃ found,
        (freshEntries m.log).find? (isTarget v.records v.active) = some found :=
      Option.isSome_iff_exists.mp (List.find?_isSome.mpr ⟨e, he, hetarget⟩)
    rw [hfound, Option.some_or, Option.some.injEq] at hwhole
    subst hwhole
    have hmem := List.mem_of_find?_eq_some hfound
    rw [← hversion, (h.known found (h.fresh.subset hmem) hpromote).1]
    exact h.apart found hmem hpromote

/-- What a call has read keeps its target off the versions that rollbacks have left. -/
theorem read (h : Walk l op x m) (hs : x.sent = false) {v : View}
    (hv : Reads m.store x.toView v)
    (hfresh : ∀ triggeredBy notes, op = .rollback triggeredBy notes → FreshPromotion l) :
    Walk l op { x with toView := v } m := by
  obtain ⟨hstore, hact, hkeep⟩ := h.unsent hs
  have hmoved := (h.idle hact).2
  cases hv with
  | versions =>
    refine { h with
      versions := fun _ hkey => hkey
      unread := .inr (by rw [hstore])
      chosen := ?_ }
    intro _ hact'
    exact absurd (hact.symm.trans hact') Bool.false_ne_true
  | active =>
    refine { h with
      active := .inr (by rw [hstore])
      chosen := ?_ }
    intro _ hact'
    exact absurd (hact.symm.trans hact') Bool.false_ne_true
  | history stop hne =>
    refine { h with
      target := ?_
      chosen := ?_ }
    · intro goal triggeredBy notes hop htarget
      have hselect : selectSMTPRollbackTarget x.records x.active
          (loadedHistory (m.store.history.take (stop + 1))) = .ok goal := by
        cases hsel : selectSMTPRollbackTarget x.records x.active
            (loadedHistory (m.store.history.take (stop + 1))) with
        | error e =>
          rw [hsel] at htarget
          exact nomatch htarget
        | ok g =>
          rw [hsel] at htarget
          rw [Option.some.inj htarget]
      have hread : x.active = normalizePolicyVersion (m.store.active.getD []) := by
        rw [hstore]
        exact h.active.resolve_left hne
      have hunread : x.versions = ∅ ∨ x.versions = m.store.versions := by
        rw [hstore]
        exact h.unread
      obtain ⟨hnorm, -, hmem, hother, -⟩ := target_of_select hselect
      refine ⟨?_, ?_, hnorm, (h.known_of_mem_records hmem).1⟩
      · rw [← hmoved]
        exact target_of_fresh h.inv (hkeep (hfresh triggeredBy notes hop)) hread hunread hselect
      · intro heq
        rw [← hstore] at heq
        apply hother
        rw [hread, ← heq, Option.getD_some, hnorm]
    · intro _ hact'
      exact absurd (hact.symm.trans hact') Bool.false_ne_true

theorem refused (h : Walk l op x m) (w : Write) :
    Walk l op { x.send w with failed := true } (m.failed op) where
  inv := h.inv.failed
  active := h.active
  versions := h.versions
  unread := h.unread
  unsent := nofun
  idle hact := h.idle (Bool.or_eq_false_iff.mp hact).1
  target := h.target
  chosen := nofun

/-- A write that neither activates a version nor forgets one. -/
theorem passive (h : Walk l op x m) {w : Write} (hw : w.isActivation = false)
    (hinv : WalkInv (m.wrote op w))
    (hversions : ∀ key ∈ m.store.versions, key ∈ (m.store.apply w).versions)
    (hactive : (m.store.apply w).active = m.store.active)
    (hmoved : movedAway (m.wrote op w).log = movedAway m.log) :
    Walk l op (x.send w) (m.wrote op w) where
  inv := hinv
  active := h.active
  versions key hkey := hversions key (h.versions key hkey)
  unread := h.unread
  unsent := nofun
  idle hact := by
    obtain ⟨hsame, hmoved'⟩ := h.idle (Bool.or_eq_false_iff.mp hact).1
    exact ⟨hactive.trans hsame, hmoved.trans hmoved'⟩
  target := h.target
  chosen hf hact version hgoal := by
    rw [hmoved]
    simp only [Progress.send, hw, Bool.or_false] at hact
    exact h.chosen hf hact version hgoal

/-- The write that activates a version. -/
theorem activation (h : Walk l op x m) {w : Write} (hw : w.isActivation = true)
    (hinv : WalkInv (m.wrote op w)) (hversions : (m.store.apply w).versions = m.store.versions)
    (hchosen : ∀ version, op.goal x.toView = some version →
      version ∉ movedAway (m.wrote op w).log) :
    Walk l op (x.send w) (m.wrote op w) where
  inv := hinv
  active := h.active
  versions key hkey := by
    rw [Ledger.wrote_store, hversions]
    exact h.versions key hkey
  unread := h.unread
  unsent := nofun
  idle hact := by simp [Progress.send, hw] at hact
  target := h.target
  chosen _ _ := hchosen

theorem served (h : Walk l op x m) {w : Write} (hallow : Allowed op x (.write w)) :
    Walk l op (x.send w) (m.wrote op w) := by
  cases w with
  | hset record =>
    refine h.passive rfl (h.inv.hset record) (fun key hkey => ?_) rfl ?_
    · exact (AList.mem_insert _).mpr (.inr hkey)
    · exact (Quiet.hset ..).movedAway
  | ltrim stop =>
    exact h.passive rfl (h.inv.ltrim stop) (fun _ hkey => hkey) rfl (Quiet.ltrim ..).movedAway
  | delActive =>
    refine h.activation rfl ?_ rfl ?_
    · exact h.inv.quiet (.delActive ..) nofun (List.prefix_refl _) fun _ hk => hk
    · cases op with
      | promote => exact hallow.elim
      | validate => exact nofun
      | rollback =>
        obtain ⟨_, _, hallow⟩ := hallow
        exact hallow.elim
  | setActive v =>
    cases op with
    | promote version canaryPercent triggeredBy notes =>
      obtain ⟨-, rfl, hmem⟩ := hallow
      obtain ⟨hne, hnorm, -⟩ := h.known_of_mem_records hmem
      refine h.activation rfl (h.inv.promoted ⟨hnorm, hne⟩) rfl ?_
      intro version' hgoal
      rw [← Option.some.inj hgoal]
      simp [movedAway]
    | validate version triggeredBy notes =>
      obtain ⟨rfl, hne⟩ := hallow
      have hnorm : normalizePolicyVersion x.active = x.active := by
        rcases h.active with hnil | hread
        · exact absurd hnil hne
        · rw [hread]
          exact normalizePolicyVersion_idem _
      refine h.activation rfl ?_ rfl nofun
      refine h.inv.quiet (.validated ..) (fun a ha => ?_) (List.prefix_refl _) fun _ hk => hk
      exact Option.some.inj ha ▸ ⟨hnorm, hne⟩
    | rollback triggeredBy notes =>
      obtain ⟨goal, htarget, hidle, rfl, -⟩ := hallow
      obtain ⟨hmoved, hother, hnorm, hne⟩ := h.target goal _ _ rfl htarget
      obtain ⟨hactive, hlog⟩ := h.idle hidle
      refine h.activation rfl (h.inv.rolledBackTo ⟨hnorm, hne⟩ (hlog ▸ hmoved)) rfl ?_
      intro version hgoal
      simp only [Operation.goal, htarget, Option.map_some, Option.some.injEq] at hgoal
      subst hgoal
      rw [Ledger.wrote_log, movedAway, hactive, hlog, List.mem_append, not_or]
      refine ⟨?_, hmoved⟩
      intro hmem
      exact hother (Option.mem_toList.mp hmem).symm
  | lpush entry =>
    refine h.passive rfl ?_ (fun _ hkey => hkey) rfl (movedAway_lpush ..)
    apply h.inv.lpush
    intro haction
    have hgoal : ∃ goal isRollback, op.goal x.toView = some goal.1 ∧
        AllowedFor x goal isRollback (.lpush entry) := by
      apply Tracked.allowedFor _ hallow
      cases op with
      | validate =>
        rw [show entry.action = .validate from hallow] at haction
        exact nomatch haction
      | _ => trivial
    obtain ⟨goal, _, hgoal, hf, hact, hmem, hversion, -⟩ := hgoal
    obtain ⟨hne, hnorm, hknown⟩ := h.known_of_mem_records hmem
    rw [hversion]
    exact ⟨hnorm, hne, hknown, h.chosen hf hact _ hgoal⟩

end Walk

theorem walkInv_call {cfg : Config} {l : Ledger} {c : Call} (h : WalkInv l)
    (hfresh : RollsBackFresh l c) : WalkInv (l.call cfg c).2 := by
  obtain ⟨x, -, hx⟩ := call_induction cfg (c := c) (J := Walk l c.op) (Walk.init h)
    (fun h hs hv => h.read hs hv fun triggeredBy notes hop => by
      rwa [RollsBackFresh, hop] at hfresh)
    Walk.fail (fun h hallow => h.served hallow) fun h _ => h.refused _
  exact hx.inv

/-! ## Runs -/

/-- **In every run whose rollbacks are each called behind the promotion of another version,
no rollback activates a version that an earlier one moved away from and that has not been
promoted since.** -/
theorem neverReturns_of_freshPromotion {cfg : Config} {m : Ledger}
    (h : (rollouts cfg).Reaches RollsBackFresh {} m) : NeverReturns m.log := by
  refine (h.invariant walkInv_empty ?_).never
  intro t c u ht hc hstep
  rw [← Option.some.inj hstep]
  exact walkInv_call ht hc

def validation (version : Text) (answers : List Answer := []) : Call where
  op := .validate version [] []
  answers := answers

/-- Three versions, two of them promoted, a rollback, the third promoted, a rollback. -/
theorem neverReturns_of_freshPromotion_threeVersions :
    ∃ m : Ledger, movedAway m.log = ["v3".toList, "v2".toList] ∧ NeverReturns m.log := by
  have hrun : ((rollouts ⟨true, true⟩).runIf RollsBackFresh {}
      [validation "v1".toList, validation "v2".toList, validation "v3".toList,
        promotion "v1".toList, promotion "v2".toList, rollback, promotion "v3".toList,
        rollback]).any
      (fun m => decide (movedAway m.log = ["v3".toList, "v2".toList])) = true := by
    decide
  obtain ⟨m, hm, hp⟩ := System.exists_reaches hrun
  exact ⟨m, of_decide_eq_true hp, neverReturns_of_freshPromotion hm⟩

/-- Two rollbacks in a row: the second activates the version the first moved away from. -/
theorem twoRollbacks_return :
    ¬ ∀ (cfg : Config) (m : Ledger), (rollouts cfg).Reaches Always {} m →
      NeverReturns m.log := by
  intro h
  have hrun : ((rollouts ⟨true, true⟩).run {}
      [validation "v1".toList, validation "v2".toList, promotion "v1".toList,
        promotion "v2".toList, rollback, rollback]).any
      (fun m => decide (¬ NeverReturns m.log)) = true := by
    decide
  obtain ⟨m, hm, hp⟩ := System.exists_reaches_always hrun
  exact of_decide_eq_true hp (h _ m hm)

end ValidEmailVerifier.Policy
