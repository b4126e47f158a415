import PlatformClaw.Library.Table

/-! # Tables whose rows expire

A row may carry the time from which it no longer counts. A read sees the live
row under a key, a write first removes what has expired by then. The lemmas say
what a lookup finds after each statement.
-/

/-- A value under a key, up to the time at which it expires. -/
structure TimedRow (κ ν : Type) where
  key : κ
  value : ν
  expiresAt : Option Nat
deriving DecidableEq

/-- The row still counts. -/
def TimedRow.live {κ ν : Type} (row : TimedRow κ ν) (now : Nat) : Bool :=
  row.expiresAt.all fun expiresAt => now < expiresAt

abbrev TimedTable (κ ν : Type) : Type := Table (TimedRow.key : TimedRow κ ν → κ)

namespace TimedTable

variable {κ ν : Type} [DecidableEq κ]

/-- Delete the rows that have expired. -/
def expire (table : TimedTable κ ν) (now : Nat) : TimedTable κ ν :=
  table.delete fun row => !row.live now

/-- The value of the live row under a key. -/
def read (table : TimedTable κ ν) (key : κ) (now : Nat) : Option ν :=
  ((table.lookup key).filter fun row => row.live now).map TimedRow.value

/-- How many rows are live. -/
def count (table : TimedTable κ ν) (now : Nat) : Nat :=
  table.rows.countP fun row => row.live now

/-- Insert a row, or replace the one under its key. -/
def put (table : TimedTable κ ν) (row : TimedRow κ ν) : TimedTable κ ν :=
  table.upsert row (fun old => { row with key := old.key }) fun _ => rfl

/-- Delete the row under a key. -/
def remove (table : TimedTable κ ν) (key : κ) : TimedTable κ ν :=
  table.delete fun row => row.key = key

variable {table : TimedTable κ ν} {now : Nat} {key : κ} {row : TimedRow κ ν} {value : ν}

theorem read_eq_some_iff : table.read key now = some value ↔
      ∃ row, table.lookup key = some row ∧ row.live now = true ∧ row.value = value := by
  rw [read, Option.map_eq_some_iff]
  constructor
  · intro ⟨row, found, same⟩
    obtain ⟨located, live⟩ := Option.filter_eq_some_iff.mp found
    exact ⟨row, located, live, same⟩
  · intro ⟨row, located, live, same⟩
    exact ⟨row, Option.filter_eq_some_iff.mpr ⟨located, live⟩, same⟩

@[simp] theorem lookup_expire (table : TimedTable κ ν) (now : Nat) (key : κ) :
    (table.expire now).lookup key = (table.lookup key).filter fun row => row.live now := by
  simp [expire]

theorem lookup_of_lookup_expire (found : (table.expire now).lookup key = some row) : table.lookup key = some row := by
  rw [lookup_expire] at found
  exact (Option.filter_eq_some_iff.mp found).1

@[simp] theorem read_expire (table : TimedTable κ ν) (key : κ) (now : Nat) :
    (table.expire now).read key now = table.read key now := by
  rw [read, lookup_expire, read, Option.filter_filter]
  simp

@[simp] theorem lookup_put (table : TimedTable κ ν) (row : TimedRow κ ν) (key : κ) :
    (table.put row).lookup key = if row.key = key then some row else table.lookup key := by
  rw [put, Table.lookup_upsert]
  split
  · rename_i same
    cases found : table.lookup key with
    | none => rfl
    | some old =>
      have keyed : old.key = row.key := (Table.lookup_eq_some_iff.mp found).2.trans same.symm
      simp [keyed]
  · rfl

end TimedTable
