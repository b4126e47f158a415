import PlatformClaw.Library.KeyedRows

/-! # Tables with a primary key

A table is a list of rows that carries the proof that no two of them share a
key. The statements of a database (insert, update, delete, insert or update)
keep the key by construction, and each has one lemma that says what a lookup
finds afterwards and one that says which rows there are.
-/

/-- Rows in insertion order, at most one for each key. -/
structure Table {ρ κ : Type} (key : ρ → κ) where
  rows : List ρ
  keyed : rows.Pairwise fun a b => key a ≠ key b

namespace Table

variable {ρ κ : Type} {key : ρ → κ}

instance : Membership ρ (Table key) where
  mem table row := row ∈ table.rows

def empty : Table key := ⟨[], List.Pairwise.nil⟩

@[simp] theorem mem_rows {table : Table key} {row : ρ} : row ∈ table.rows ↔ row ∈ table := Iff.rfl

@[simp] theorem not_mem_empty (row : ρ) : row ∉ (empty : Table key) := List.not_mem_nil

theorem ext_rows {left right : Table key} (same : left.rows = right.rows) : left = right := by
  cases left
  cases right
  cases same
  rfl

instance [DecidableEq ρ] : DecidableEq (Table key) := fun left right =>
  decidable_of_iff (left.rows = right.rows) ⟨ext_rows, congrArg rows⟩

theorem unique {table : Table key} {a b : ρ} (inA : a ∈ table) (inB : b ∈ table) (same : key a = key b) : a = b :=
  KeyedRows.unique table.keyed inA inB same

/-- `UPDATE … SET … WHERE`: `change` keeps the key of every row. -/
def update (table : Table key) (selects : ρ → Bool) (change : ρ → ρ)
    (keeps : ∀ row, key (change row) = key row) : Table key where
  rows := table.rows.map fun row => if selects row then change row else row
  keyed := by
    have same : ∀ row, key (if selects row then change row else row) = key row := by
      intro row
      split
      · exact keeps row
      · rfl
    refine List.pairwise_map.mpr (table.keyed.imp fun {a b} apart => ?_)
    rw [same a, same b]
    exact apart

/-- `DELETE … WHERE`. -/
def delete (table : Table key) (selects : ρ → Bool) : Table key where
  rows := table.rows.filter fun row => !selects row
  keyed := table.keyed.filter _

theorem mem_update {table : Table key} {selects : ρ → Bool} {change : ρ → ρ}
    {keeps : ∀ row, key (change row) = key row} {row : ρ} :
    row ∈ table.update selects change keeps ↔ ∃ old ∈ table, row = if selects old then change old else old := by
  constructor
  · intro inUpdated
    obtain ⟨old, inTable, same⟩ := List.mem_map.mp inUpdated
    exact ⟨old, inTable, same.symm⟩
  · intro ⟨old, inTable, same⟩
    exact List.mem_map.mpr ⟨old, inTable, same.symm⟩

@[simp] theorem mem_delete {table : Table key} {selects : ρ → Bool} {row : ρ} :
    row ∈ table.delete selects ↔ row ∈ table ∧ selects row = false := by
  have rows : row ∈ table.delete selects ↔ row ∈ table.rows.filter fun row => !selects row := Iff.rfl
  simp [rows]

section Lookup

variable [DecidableEq κ]

def lookup (table : Table key) (k : κ) : Option ρ :=
  table.rows.find? fun row => key row = k

theorem lookup_eq_some_iff {table : Table key} {k : κ} {row : ρ} :
    table.lookup k = some row ↔ row ∈ table ∧ key row = k := by
  constructor
  · intro found
    exact ⟨List.mem_of_find?_eq_some found, by simpa using List.find?_some found⟩
  · intro ⟨inTable, same⟩
    rw [← same]
    exact KeyedRows.find?_key table.keyed inTable

theorem lookup_key {table : Table key} {row : ρ} (inTable : row ∈ table) : table.lookup (key row) = some row :=
  lookup_eq_some_iff.mpr ⟨inTable, rfl⟩

theorem lookup_eq_none_iff {table : Table key} {k : κ} : table.lookup k = none ↔ ∀ row ∈ table, key row ≠ k := by
  simp [lookup, List.find?_eq_none]

/-- `INSERT`, rejected if the key is taken. -/
def insert? (table : Table key) (row : ρ) : Option (Table key) :=
  if absent : table.lookup (key row) = none then
    some
      { rows := table.rows ++ [row]
        keyed := by
          refine List.pairwise_append.mpr ⟨table.keyed, List.pairwise_singleton _ _, ?_⟩
          intro a inTable b same
          rw [List.mem_singleton.mp same]
          exact lookup_eq_none_iff.mp absent a inTable }
  else none

/-- One `INSERT` after the other; the first that is rejected rejects all. -/
def insertAll? (table : Table key) : List ρ → Option (Table key)
  | [] => some table
  | row :: rest => do
      let inserted ← table.insert? row
      inserted.insertAll? rest

/-- `INSERT … ON CONFLICT DO UPDATE`: `change` keeps the key of every row. -/
def upsert (table : Table key) (row : ρ) (change : ρ → ρ) (keeps : ∀ row, key (change row) = key row) : Table key :=
  (table.insert? row).getD (table.update (fun other => key other = key row) change keeps)

theorem insert?_rows {table inserted : Table key} {row : ρ}
    (done : table.insert? row = some inserted) : inserted.rows = table.rows ++ [row] := by
  unfold insert? at done
  split at done
  · cases done
    rfl
  · cases done

theorem mem_insert? {table inserted : Table key} {row : ρ} (done : table.insert? row = some inserted)
    {other : ρ} : other ∈ inserted ↔ other ∈ table ∨ other = row := by
  unfold insert? at done
  split at done
  · cases done
    exact List.mem_append.trans (or_congr_right List.mem_singleton)
  · cases done

theorem insert?_absent {table inserted : Table key} {row : ρ}
    (done : table.insert? row = some inserted) : table.lookup (key row) = none := by
  unfold insert? at done
  split at done
  · assumption
  · cases done

theorem insert?_isSome_iff {table : Table key} {row : ρ} :
    (table.insert? row).isSome = true ↔ table.lookup (key row) = none := by
  unfold insert?
  split <;> simp_all

theorem lookup_insert? {table inserted : Table key} {row : ρ} (done : table.insert? row = some inserted) (k : κ) :
    inserted.lookup k = if key row = k then some row else table.lookup k := by
  split
  · rename_i same
    exact lookup_eq_some_iff.mpr ⟨(mem_insert? done).mpr (.inr rfl), same⟩
  · rename_i apart
    cases found : table.lookup k with
    | some other =>
      obtain ⟨inTable, same⟩ := lookup_eq_some_iff.mp found
      exact lookup_eq_some_iff.mpr ⟨(mem_insert? done).mpr (.inl inTable), same⟩
    | none =>
      apply lookup_eq_none_iff.mpr
      intro other inInserted
      cases (mem_insert? done).mp inInserted with
      | inl inTable => exact lookup_eq_none_iff.mp found other inTable
      | inr same => rwa [same]

@[simp] theorem lookup_update (table : Table key) (selects : ρ → Bool) (change : ρ → ρ)
    (keeps : ∀ row, key (change row) = key row) (k : κ) :
    (table.update selects change keeps).lookup k =
      (table.lookup k).map fun old => if selects old then change old else old := by
  have sameKey : ∀ row, key (if selects row then change row else row) = key row := by
    intro row
    split
    · exact keeps row
    · rfl
  cases found : table.lookup k with
  | none =>
    rw [Option.map_none]
    apply lookup_eq_none_iff.mpr
    intro row inUpdated
    obtain ⟨old, inTable, rfl⟩ := mem_update.mp inUpdated
    rw [sameKey]
    exact lookup_eq_none_iff.mp found old inTable
  | some old =>
    obtain ⟨inTable, same⟩ := lookup_eq_some_iff.mp found
    rw [Option.map_some]
    exact lookup_eq_some_iff.mpr ⟨mem_update.mpr ⟨old, inTable, rfl⟩, (sameKey old).trans same⟩

@[simp] theorem lookup_delete (table : Table key) (selects : ρ → Bool) (k : κ) :
    (table.delete selects).lookup k = (table.lookup k).filter fun row => !selects row := by
  cases found : table.lookup k with
  | none =>
    apply lookup_eq_none_iff.mpr
    intro row inDeleted
    exact lookup_eq_none_iff.mp found row (mem_delete.mp inDeleted).1
  | some row =>
    obtain ⟨inTable, same⟩ := lookup_eq_some_iff.mp found
    cases selected : selects row with
    | false =>
      simp only [Option.filter_some, selected, Bool.not_false, if_true]
      exact lookup_eq_some_iff.mpr ⟨mem_delete.mpr ⟨inTable, selected⟩, same⟩
    | true =>
      simp only [Option.filter_some, selected, Bool.not_true, Bool.false_eq_true, if_false]
      apply lookup_eq_none_iff.mpr
      intro other inDeleted same'
      obtain ⟨inOther, kept⟩ := mem_delete.mp inDeleted
      rw [table.unique inOther inTable (same'.trans same.symm), selected] at kept
      cases kept

theorem lookup_upsert (table : Table key) (row : ρ) (change : ρ → ρ)
    (keeps : ∀ row, key (change row) = key row) (k : κ) :
    (table.upsert row change keeps).lookup k =
      if key row = k then some (((table.lookup k).map change).getD row) else table.lookup k := by
  unfold upsert
  cases done : table.insert? row with
  | some inserted =>
    rw [Option.getD_some, lookup_insert? done]
    split
    · rename_i same
      rw [← same, insert?_absent done]
      rfl
    · rfl
  | none =>
    rw [Option.getD_none, lookup_update]
    cases found : table.lookup k with
    | none =>
      split
      · rename_i same
        have taken := insert?_isSome_iff.mpr (same ▸ found)
        rw [done] at taken
        cases taken
      · rfl
    | some old =>
      have keyed := (lookup_eq_some_iff.mp found).2
      by_cases same : key row = k
      · simp [same, keyed]
      · simp [same, keyed, Ne.symm same]

theorem mem_insertAll? {table inserted : Table key} {rows : List ρ}
    (done : table.insertAll? rows = some inserted) {other : ρ} :
    other ∈ inserted ↔ other ∈ table ∨ other ∈ rows := by
  induction rows generalizing table with
  | nil =>
    obtain rfl := Option.some.inj done
    simp
  | cons row rest ih =>
    obtain ⟨first, new, later⟩ := Option.bind_eq_some_iff.mp done
    rw [ih later, mem_insert? new, List.mem_cons, or_assoc]

theorem insertAll?_isSome {table : Table key} {rows : List ρ} (distinct : rows.Pairwise fun a b => key a ≠ key b)
    (absent : ∀ row ∈ rows, table.lookup (key row) = none) :
    ∃ inserted, table.insertAll? rows = some inserted := by
  induction rows generalizing table with
  | nil => exact ⟨table, rfl⟩
  | cons row rest ih =>
    obtain ⟨own, others⟩ := List.pairwise_cons.mp distinct
    obtain ⟨free, later⟩ := List.forall_mem_cons.mp absent
    obtain ⟨first, new⟩ := Option.isSome_iff_exists.mp (insert?_isSome_iff.mpr free)
    have still : ∀ other ∈ rest, first.lookup (key other) = none := by
      intro other inRest
      rw [lookup_insert? new, if_neg (own other inRest)]
      exact later other inRest
    obtain ⟨inserted, done⟩ := ih others still
    exact ⟨inserted, Option.bind_eq_some_iff.mpr ⟨first, new, done⟩⟩

end Lookup

end Table
