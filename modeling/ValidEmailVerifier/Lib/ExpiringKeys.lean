/-
# `ExpiringKeys` — a key-value store whose entries may expire

Every key has a type of its own.  An entry is a value and the moment from which it is no
longer there, if it has one; a read at `now` finds the entries that are still live.

    set     any key, with or without a moment of expiry
    setNX   only where a read finds nothing
    del     any number of keys at once
-/
import Mathlib.Logic.Function.Basic

namespace ExpiringKeys

/-- A value, and the moment from which it is gone. -/
structure Entry (α : Type) where
  value : α
  expires : Option Nat := none

def Entry.live {α : Type} (e : Entry α) (now : Nat) : Bool :=
  e.expires.all fun moment => decide (now < moment)

/-- What is there at a moment was there at every earlier one. -/
theorem Entry.live_of_le {α : Type} {e : Entry α} {now later : Nat} (h : e.live later = true)
    (hle : now ≤ later) : e.live now = true := by
  cases he : e.expires with
  | none => rw [Entry.live, he]; rfl
  | some moment =>
    rw [Entry.live, he] at h ⊢
    exact decide_eq_true (Nat.lt_of_le_of_lt hle (of_decide_eq_true h))

def Keys (κ : Type) (V : κ → Type) := (k : κ) → Option (Entry (V k))

namespace Keys

variable {κ : Type} {V : κ → Type}

def empty : Keys κ V := fun _ => none

def get (s : Keys κ V) (now : Nat) (k : κ) : Option (V k) :=
  (s k).bind fun e => if e.live now then some e.value else none

/-- What is read is the value of an entry. -/
theorem exists_of_get {s : Keys κ V} {now : Nat} {k : κ} {v : V k} (h : s.get now k = some v) :
    ∃ e, s k = some e ∧ e.value = v ∧ e.live now = true := by
  obtain ⟨e, he, hv⟩ := Option.bind_eq_some_iff.mp h
  cases hlive : e.live now with
  | false => rw [hlive] at hv; exact nomatch hv
  | true => rw [hlive] at hv; exact ⟨e, he, Option.some.inj hv, hlive⟩

/-- An entry without a moment of expiry is always read. -/
theorem get_of_persistent {s : Keys κ V} {k : κ} {v : V k} (h : s k = some ⟨v, none⟩)
    (now : Nat) : s.get now k = some v := by
  rw [get, h]
  rfl

/-- So a read of a key whose entry never expires finds what is stored. -/
theorem get_eq_map {s : Keys κ V} {k : κ} (h : ∀ e, s k = some e → e.expires = none)
    (now : Nat) : s.get now k = (s k).map Entry.value := by
  cases he : s k with
  | none => rw [get, he]; rfl
  | some e =>
    obtain ⟨value, expires⟩ := e
    obtain rfl : expires = none := h _ he
    exact get_of_persistent he now

theorem get_of_none {s : Keys κ V} {k : κ} (h : s k = none) (now : Nat) : s.get now k = none := by
  rw [get, h]
  rfl

section Writes
variable [DecidableEq κ]

def set (s : Keys κ V) (k : κ) (v : V k) (expires : Option Nat) : Keys κ V :=
  Function.update s k (some ⟨v, expires⟩)

def setNX (s : Keys κ V) (now : Nat) (k : κ) (v : V k) (expires : Option Nat) : Keys κ V :=
  if (s.get now k).isSome then s else s.set k v expires

def del (s : Keys κ V) (ks : List κ) : Keys κ V := fun k => if k ∈ ks then none else s k

@[simp] theorem set_self (s : Keys κ V) (k : κ) (v : V k) (expires : Option Nat) :
    s.set k v expires k = some ⟨v, expires⟩ := Function.update_self ..

theorem set_of_ne (s : Keys κ V) {k l : κ} (h : l ≠ k) (v : V k) (expires : Option Nat) :
    s.set k v expires l = s l := Function.update_of_ne h ..

theorem setNX_of_ne (s : Keys κ V) (now : Nat) {k l : κ} (h : l ≠ k) (v : V k)
    (expires : Option Nat) : s.setNX now k v expires l = s l := by
  rw [setNX]
  split
  · rfl
  · exact set_of_ne s h v expires

theorem del_of_mem (s : Keys κ V) {ks : List κ} {k : κ} (h : k ∈ ks) : s.del ks k = none :=
  if_pos h

theorem del_of_notMem (s : Keys κ V) {ks : List κ} {k : κ} (h : k ∉ ks) : s.del ks k = s k :=
  if_neg h

end Writes

end Keys

end ExpiringKeys
