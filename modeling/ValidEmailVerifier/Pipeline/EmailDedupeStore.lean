/-
# `Pipeline.EmailDedupeStore` — the set of addresses an upload has had

`EmailDedupeStore` keeps the addresses as the keys of an array and moves them to a table of
SQLite when the array grows past its limit.  The keys of an array are not the strings they were
written as (`"8"` becomes the integer 8), so what the migration binds is read back from the keys.

The store stands for the plain list `ParseAndChunkJob.Mem.seen` (`store_simulates`), whatever the
limit is and wherever in the run the migration falls.
-/
import Mathlib.Algebra.Group.Int.Defs
import ValidEmailVerifier.Lib.Mealy
import ValidEmailVerifier.Pipeline.ParseAndChunkJob

namespace ValidEmailVerifier

/-! ## The keys of an array -/

namespace ArrayKey

/-- An integer as PHP writes it. -/
def intText (i : Int) : Text :=
  if i < 0 then '-' :: Nat.toDigits 10 i.natAbs else Nat.toDigits 10 i.natAbs

/-- The number a string of digits with an optional sign stands for. -/
def readInt : Text → Int
  | '-' :: digits => -(digits.foldl (fun n c => 10 * n + (c.toNat - '0'.toNat)) 0 : Nat)
  | digits => (digits.foldl (fun n c => 10 * n + (c.toNat - '0'.toNat)) 0 : Nat)

end ArrayKey

/-- A key of a PHP array. -/
inductive ArrayKey where
  | int (i : Int)
  | text (s : Text)
  deriving DecidableEq, Repr

namespace ArrayKey

/-- The key a string becomes: an integer if it is one of 64 bits, written the way PHP
writes it. -/
def ofText (s : Text) : ArrayKey :=
  if intText (readInt s) = s ∧ -2 ^ 63 ≤ readInt s ∧ readInt s < 2 ^ 63 then .int (readInt s)
  else .text s

/-- The string a key is bound as. -/
def toText : ArrayKey → Text
  | .int i => intText i
  | .text s => s

@[simp] theorem toText_ofText (s : Text) : (ofText s).toText = s := by
  unfold ofText
  split
  next h => exact h.1
  next => rfl

theorem ofText_injective {s t : Text} : ofText s = ofText t ↔ s = t := by
  constructor
  · intro h
    rw [← toText_ofText s, h, toText_ofText]
  · rintro rfl
    rfl

example : ofText "8".toList = .int 8 ∧ ofText "08".toList = .text "08".toList ∧
    ofText "-0".toList = .text "-0".toList := by decide

end ArrayKey

/-! ## The store -/

/-- `INSERT OR IGNORE INTO emails`: the table after it and the number of changed rows. -/
def insertOrIgnore (emails : List Text) (email : Text) : List Text × Nat :=
  if email ∈ emails then (emails, 0) else (emails ++ [email], 1)

theorem mem_insertOrIgnore {emails : List Text} {email e : Text} :
    e ∈ (insertOrIgnore emails email).1 ↔ e ∈ emails ∨ e = email := by
  unfold insertOrIgnore
  split
  next hmem =>
    refine ⟨Or.inl, fun h => ?_⟩
    rcases h with h | rfl
    · exact h
    · exact hmem
  next => simp

structure EmailDedupeStore where
  memory : List ArrayKey := []
  memoryLimit : Nat
  /-- The table `emails`, once there is one. -/
  sqlite : Option (List Text) := none
  deriving DecidableEq, Repr

namespace EmailDedupeStore

/-- `__construct`. -/
def construct (memoryLimit : Int) : EmailDedupeStore := { memoryLimit := (max 0 memoryLimit).toNat }

/-- `migrateToSqlite`. -/
def migrateToSqlite (store : EmailDedupeStore) : EmailDedupeStore :=
  { store with
    sqlite := some (store.memory.foldl (fun emails key => (insertOrIgnore emails key.toText).1) [])
    memory := [] }

/-- `isNew`. -/
def isNew (store : EmailDedupeStore) (email : Text) : Bool × EmailDedupeStore :=
  match store.sqlite with
  | some emails =>
      let (emails, rowCount) := insertOrIgnore emails email
      (decide (rowCount > 0), { store with sqlite := some emails })
  | none =>
      if ArrayKey.ofText email ∈ store.memory then (false, store)
      else
        let store := { store with memory := store.memory ++ [.ofText email] }
        if 0 < store.memoryLimit ∧ store.memoryLimit < store.memory.length then
          (true, store.migrateToSqlite)
        else (true, store)

/-- The memory after an address that was not in it. -/
def remember (store : EmailDedupeStore) (email : Text) : EmailDedupeStore :=
  { store with memory := store.memory ++ [.ofText email] }

section IsNew
variable {store : EmailDedupeStore} {email : Text}

theorem isNew_of_table {emails : List Text} (h : store.sqlite = some emails) :
    store.isNew email = (decide (0 < (insertOrIgnore emails email).2),
      { store with sqlite := some (insertOrIgnore emails email).1 }) := by
  simp [isNew, h]

theorem isNew_of_mem (h : store.sqlite = none) (hmem : ArrayKey.ofText email ∈ store.memory) :
    store.isNew email = (false, store) := by
  simp [isNew, h, hmem]

theorem isNew_of_notMem (h : store.sqlite = none)
    (hmem : ArrayKey.ofText email ∉ store.memory) :
    store.isNew email = (true, store.remember email) ∨
      store.isNew email = (true, (store.remember email).migrateToSqlite) := by
  unfold isNew
  rw [h]
  dsimp only
  rw [if_neg hmem]
  split
  · exact .inr (by simp [remember, h])
  · exact .inl (by simp [remember, h])

end IsNew

/-- The store, asked about one address after another. -/
def machine : Mealy.Machine EmailDedupeStore Text Bool where
  ask := isNew

/-! ## What the store stands for -/

/-- The store has the addresses of `seen`, in one of its two places, and every key of its memory
is one that a string became. -/
structure Holds (store : EmailDedupeStore) (seen : List Text) : Prop where
  table : ∀ {emails}, store.sqlite = some emails → ∀ e, e ∈ emails ↔ e ∈ seen
  memory : store.sqlite = none → ∀ e, ArrayKey.ofText e ∈ store.memory ↔ e ∈ seen
  keys : ∀ k ∈ store.memory, k = .ofText k.toText

theorem Holds.construct (memoryLimit : Int) : Holds (construct memoryLimit) [] where
  table h := nomatch h
  memory _ e := by simp [EmailDedupeStore.construct]
  keys _ hk := nomatch hk

theorem Holds.remember {store : EmailDedupeStore} {seen : List Text} (h : store.Holds seen)
    (hnone : store.sqlite = none) (email : Text) :
    (store.remember email).Holds (seen ++ [email]) where
  table hsome := nomatch hnone.symm.trans hsome
  memory _ e := by
    simp [EmailDedupeStore.remember, h.memory hnone e, ArrayKey.ofText_injective]
  keys k hk := by
    rcases List.mem_append.mp hk with hk | hk
    · exact h.keys k hk
    · rw [List.mem_singleton.mp hk, ArrayKey.toText_ofText]

/-- The table that a migration fills has the strings of the keys. -/
theorem mem_migrated {keys : List ArrayKey} {emails : List Text} {e : Text} :
    e ∈ keys.foldl (fun emails key => (insertOrIgnore emails key.toText).1) emails ↔
      e ∈ emails ∨ ∃ k ∈ keys, k.toText = e := by
  induction keys generalizing emails with
  | nil => simp
  | cons k keys ih =>
    rw [List.foldl_cons, ih, mem_insertOrIgnore, or_assoc]
    simp [eq_comm]

/-- **A migration forgets nothing and adds nothing.** -/
theorem Holds.migrateToSqlite {store : EmailDedupeStore} {seen : List Text}
    (h : store.Holds seen) (hnone : store.sqlite = none) : store.migrateToSqlite.Holds seen where
  table hsome e := by
    rw [← Option.some.inj hsome, mem_migrated, ← h.memory hnone e]
    constructor
    · rintro (hnil | ⟨k, hk, rfl⟩)
      · exact absurd hnil List.not_mem_nil
      · exact h.keys k hk ▸ hk
    · intro hmem
      exact .inr ⟨_, hmem, ArrayKey.toText_ofText e⟩
  memory hnone := nomatch hnone
  keys _ hk := nomatch hk

/-- **The store stands for the list of the addresses it has been asked about.** -/
theorem store_simulates : machine.Simulation Mealy.novelty Holds where
  answer {store seen email} h := by
    rw [Bool.eq_iff_iff, Mealy.novelty_new]
    show (store.isNew email).1 = true ↔ _
    cases hsqlite : store.sqlite with
    | some emails =>
      rw [isNew_of_table hsqlite, ← h.table hsqlite email]
      by_cases hmem : email ∈ emails <;> simp [insertOrIgnore, hmem]
    | none =>
      rw [← h.memory hsqlite email]
      by_cases hmem : ArrayKey.ofText email ∈ store.memory
      · simp [isNew_of_mem hsqlite hmem, hmem]
      · rcases isNew_of_notMem hsqlite hmem with heq | heq <;> simp [heq, hmem]
  next {store seen email} h := by
    show (store.isNew email).2.Holds _
    cases hsqlite : store.sqlite with
    | some emails =>
      rw [isNew_of_table hsqlite]
      exact {
        table := fun hsome e => by
          rw [← Option.some.inj hsome, mem_insertOrIgnore, Mealy.mem_novelty, h.table hsqlite e]
        memory := fun hnone => nomatch hnone
        keys := h.keys }
    | none =>
      have hseen := h.memory hsqlite email
      by_cases hmem : ArrayKey.ofText email ∈ store.memory
      · rw [isNew_of_mem hsqlite hmem, Mealy.ask_of_mem (hseen.mp hmem)]
        exact h
      · have hadded := h.remember hsqlite email
        rw [Mealy.ask_of_notMem (mt hseen.mpr hmem)]
        rcases isNew_of_notMem hsqlite hmem with heq | heq
        · rw [heq]
          exact hadded
        · rw [heq]
          exact hadded.migrateToSqlite hsqlite

/-- **`isNew` is true exactly on the first occurrence of an address**, whatever the limit is and
whether the addresses are in memory or in the table. -/
theorem isNew_iff_notMem (memoryLimit : Int) (earlier : List Text) (email : Text) :
    ((machine.after (construct memoryLimit) earlier).isNew email).1 = true ↔ email ∉ earlier := by
  have hafter := store_simulates.after (Holds.construct memoryLimit) earlier
  have hanswer := store_simulates.answer (a := email) hafter
  have hnew : (machine.ask (machine.after (construct memoryLimit) earlier) email).1 = true ↔
      email ∉ Mealy.novelty.after [] earlier := by
    rw [hanswer, Mealy.novelty_new]
  rw [Mealy.novelty_after] at hnew
  simpa [machine] using hnew

/-- After an upload the store holds the addresses the upload is about. -/
theorem holds_accepted (memoryLimit : Int) (php : Php) (upload : List ParseAndChunkJob.Feed) :
    (machine.after (construct memoryLimit)
      (upload.filterMap (ParseAndChunkJob.feedEmail php))).Holds
        (ParseAndChunkJob.accepted php upload) := by
  have hremember : ParseAndChunkJob.remember =
      fun seen email => (Mealy.novelty.ask seen email).2 := by
    funext seen email
    unfold ParseAndChunkJob.remember
    split
    next h => rw [Mealy.ask_of_mem h]
    next h => rw [Mealy.ask_of_notMem h]
  rw [ParseAndChunkJob.accepted, hremember]
  exact store_simulates.after (Holds.construct memoryLimit) _

end EmailDedupeStore

end ValidEmailVerifier
