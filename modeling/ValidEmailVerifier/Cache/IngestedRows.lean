/-
# `Cache.IngestedRows` — what an ingest leaves in the table

`ingest` reads the items one after another and writes their rows in batches.  At any moment the
table is what it was with the rows of the finished batches put into it (`Loop.Reads`); at the end
it has the rows of all items (`table_ingest`), wherever the batches were cut.
-/
import ValidEmailVerifier.Cache.CachedRows
import ValidEmailVerifier.Lib.Upserts

namespace ValidEmailVerifier.OutcomeIngestor

open Upserts

variable {php : Php} {hash : Text → Text} {call : Import}

/-- The columns of the unique index. -/
def rowKey (row : Outcome) : Text × OutputType × Int :=
  (row.emailHash, row.outcome, row.observedAt)

theorem upsert_eq_put (table : List Outcome) (row : Outcome) :
    upsert table row = put rowKey table row := by
  rw [upsert, put]
  congr 1
  refine List.filter_congr fun old _ => ?_
  simp [rowKey]

theorem foldl_upsert (table rows : List Outcome) :
    rows.foldl upsert table = putAll rowKey table rows := by
  rw [putAll]
  congr 1
  funext table row
  exact upsert_eq_put table row

/-- The row of an item, or nothing if it is skipped. -/
def readRow (php : Php) (hash : Text → Text) (call : Import) (item : Item) : Option Outcome :=
  (readItem php hash call item).toOption

/-- The rows of a call. -/
def rowsOf (php : Php) (hash : Text → Text) (call : Import) : List Outcome :=
  call.items.filterMap (readRow php hash call)

/-- These rows were read: the first of them are in the table, the others in the batch. -/
def Loop.Reads (table read : List Outcome) (l : Loop) : Prop :=
  ∃ flushed, read = flushed ++ l.rows ∧ l.table = putAll rowKey table flushed

variable {table read : List Outcome} {l : Loop}

theorem Loop.Reads.flushRows (h : l.Reads table read) :
    (OutcomeIngestor.flushRows l).table = putAll rowKey table read := by
  obtain ⟨flushed, rfl, htable⟩ := h
  rw [OutcomeIngestor.flushRows, foldl_upsert, htable, ← putAll_append]

theorem Loop.Reads.ingestItem (h : l.Reads table read) (item : Item) :
    (OutcomeIngestor.ingestItem php hash call l item).Reads table
      (read ++ (readRow php hash call item).toList) := by
  rw [OutcomeIngestor.ingestItem, readRow]
  cases readItem php hash call item with
  | error message =>
    obtain ⟨flushed, hread, htable⟩ := h
    exact ⟨flushed, by simpa [Except.toOption] using hread, htable⟩
  | ok row =>
    have hadded : Loop.Reads table (read ++ [row]) { l with rows := l.rows ++ [row] } := by
      obtain ⟨flushed, hread, htable⟩ := h
      exact ⟨flushed, by rw [hread, List.append_assoc], htable⟩
    show Loop.Reads table (read ++ [row]) _
    dsimp only
    split
    · exact ⟨read ++ [row], (List.append_nil _).symm, hadded.flushRows⟩
    · exact hadded

theorem reads_foldl (table : List Outcome) (items : List Item) :
    (items.foldl (ingestItem php hash call) { table := table }).Reads table
      (items.filterMap (readRow php hash call)) := by
  induction items using List.reverseRecOn with
  | nil => exact ⟨[], rfl, rfl⟩
  | append_singleton items item ih =>
    rw [List.foldl_concat, List.filterMap_append]
    have hread := @Loop.Reads.ingestItem php hash call _ _ _ ih item
    have hlast : [item].filterMap (readRow php hash call) =
        (readRow php hash call item).toList := by
      cases hrow : readRow php hash call item <;> simp [hrow]
    rw [hlast]
    exact hread

/-- **An ingest puts the rows of its items into the table.** -/
theorem table_ingest (table : List Outcome) (call : Import) :
    (ingest php hash table call).table = putAll rowKey table (rowsOf php hash call) := by
  have hread : Loop.Reads table (rowsOf php hash call) _ := reads_foldl table call.items
  rw [ingest]
  split
  · exact hread.flushRows
  · next hrows =>
    obtain ⟨flushed, hflushed, htable⟩ := hread
    rw [not_not.mp hrows, List.append_nil] at hflushed
    rw [htable, hflushed]

/-- The table after some calls. -/
def ingestAll (php : Php) (hash : Text → Text) (table : List Outcome) (calls : List Import) :
    List Outcome :=
  calls.foldl (fun table call => (ingest php hash table call).table) table

theorem ingestAll_eq (table : List Outcome) (calls : List Import) :
    ingestAll php hash table calls = putAll rowKey table (calls.flatMap (rowsOf php hash)) := by
  induction calls generalizing table with
  | nil => rfl
  | cons call calls ih =>
    rw [List.flatMap_cons, putAll_append, ← table_ingest]
    exact ih _

end ValidEmailVerifier.OutcomeIngestor
