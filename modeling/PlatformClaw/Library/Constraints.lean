import PlatformClaw.Library.Table

/-! # Declarative constraints on tables

Unique indexes, perhaps on some rows only, and foreign keys, perhaps from a
column that may be empty. A database checks them after every statement, so they
are decidable; what a proof needs of them is read off one row at a time.
-/

namespace Table

variable {ρ κ ρ' κ' ι : Type} {key : ρ → κ} {key' : ρ' → κ'}

/-- No two of the selected rows agree on the indexed columns. -/
def UniqueIndex (table : Table key) (selects : ρ → Bool) (index : ρ → ι) : Prop :=
  ∀ a ∈ table.rows, selects a = true → ∀ b ∈ table.rows, selects b = true → index a = index b → key a = key b

instance [DecidableEq κ] [DecidableEq ι] (table : Table key) (selects : ρ → Bool)
    (index : ρ → ι) : Decidable (table.UniqueIndex selects index) :=
  inferInstanceAs (Decidable (∀ a ∈ table.rows, selects a = true → ∀ b ∈ table.rows,
    selects b = true → index a = index b → key a = key b))

theorem UniqueIndex.eq {table : Table key} {selects : ρ → Bool} {index : ρ → ι}
    (unique : table.UniqueIndex selects index) {a b : ρ} (inA : a ∈ table) (inB : b ∈ table)
    (selectedA : selects a = true) (selectedB : selects b = true) (same : index a = index b) :
    a = b :=
  table.unique inA inB (unique a inA selectedA b inB selectedB same)

variable [DecidableEq κ']

def References (table : Table key) (column : ρ → Option κ') (target : Table key') : Prop :=
  ∀ row ∈ table.rows, ∀ k ∈ column row, (target.lookup k).isSome = true

instance (table : Table key) (column : ρ → Option κ') (target : Table key') :
    Decidable (table.References column target) :=
  inferInstanceAs (Decidable (∀ row ∈ table.rows, ∀ k ∈ column row, (target.lookup k).isSome = true))

theorem References.found {table : Table key} {column : ρ → Option κ'} {target : Table key'}
    (foreign : table.References column target) {row : ρ} (inTable : row ∈ table) {k : κ'}
    (held : column row = some k) : ∃ other ∈ target, key' other = k := by
  obtain ⟨other, found⟩ := Option.isSome_iff_exists.mp (foreign row inTable k held)
  exact ⟨other, lookup_eq_some_iff.mp found⟩

end Table
