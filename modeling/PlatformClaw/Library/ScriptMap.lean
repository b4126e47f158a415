import PlatformClaw.Library.Table

/-! # Maps of a script

A `Map` from texts keeps its entries in the order in which their keys came
first. What is read afterwards is stated for each operation.
-/

/-- The entries of a `Map` with texts as keys. -/
abbrev ScriptMap (α : Type) : Type := Table (Prod.fst : String × α → String)

namespace ScriptMap

variable {α : Type} {map : ScriptMap α} {id : String} {value : α}

def get (map : ScriptMap α) (id : String) : Option α :=
  (map.lookup id).map Prod.snd

def has (map : ScriptMap α) (id : String) : Bool :=
  (map.get id).isSome

def set (map : ScriptMap α) (id : String) (value : α) : ScriptMap α :=
  map.upsert (id, value) (fun entry => (entry.1, value)) fun _ => rfl

/-- `delete`. -/
def remove (map : ScriptMap α) (id : String) : ScriptMap α :=
  map.delete fun entry => entry.1 = id

theorem get_eq_some_iff : map.get id = some value ↔ (id, value) ∈ map.rows := by
  constructor
  · intro found
    obtain ⟨⟨_, _⟩, located, rfl⟩ := Option.map_eq_some_iff.mp found
    obtain ⟨inMap, rfl⟩ := Table.lookup_eq_some_iff.mp located
    exact inMap
  · intro inMap
    rw [get, Table.lookup_key (Table.mem_rows.mp inMap)]
    rfl

theorem has_iff : map.has id = true ↔ ∃ value, (id, value) ∈ map.rows := by
  rw [has, Option.isSome_iff_exists]
  exact exists_congr fun _ => get_eq_some_iff

def empty : ScriptMap α := Table.empty

@[simp] theorem get_empty (id : String) : (empty : ScriptMap α).get id = none := rfl

@[simp] theorem get_set (map : ScriptMap α) (id : String) (value : α) (other : String) :
    (map.set id value).get other = if id = other then some value else map.get other := by
  rw [get, set, Table.lookup_upsert]
  dsimp only
  split
  · cases map.lookup other <;> rfl
  · rfl

@[simp] theorem get_remove (map : ScriptMap α) (id other : String) :
    (map.remove id).get other = if id = other then none else map.get other := by
  rw [get, remove, Table.lookup_delete, get]
  cases found : map.lookup other with
  | none => simp
  | some entry =>
    have same : entry.1 = other := (Table.lookup_eq_some_iff.mp found).2
    rw [Option.filter_some, same]
    by_cases removed : id = other
    · simp [removed]
    · simp [removed, Ne.symm removed]

@[simp] theorem has_set (map : ScriptMap α) (id : String) (value : α) (other : String) :
    (map.set id value).has other = (decide (id = other) || map.has other) := by
  rw [has, get_set]
  by_cases same : id = other
  · simp [same]
  · simp [same, has]

@[simp] theorem has_remove (map : ScriptMap α) (id other : String) :
    (map.remove id).has other = (!decide (id = other) && map.has other) := by
  rw [has, get_remove]
  by_cases same : id = other
  · simp [same]
  · simp [same, has]

theorem rows_perm_remove (found : map.get id = some value) : map.rows.Perm ((id, value) :: (map.remove id).rows) :=
  KeyedRows.perm_cons_filter map.keyed (get_eq_some_iff.mp found)

theorem countP_remove (found : map.get id = some value) (p : String × α → Bool) :
    (map.remove id).rows.countP p + (if p (id, value) then 1 else 0) = map.rows.countP p := by
  rw [(rows_perm_remove found).countP_eq, List.countP_cons]

theorem rows_set_new (absent : map.get id = none) (value : α) :
    (map.set id value).rows = map.rows ++ [(id, value)] := by
  have free : map.lookup id = none := Option.map_eq_none_iff.mp absent
  obtain ⟨inserted, done⟩ := Option.isSome_iff_exists.mp
    (Table.insert?_isSome_iff.mpr (show map.lookup (Prod.fst (id, value)) = none from free))
  rw [set, Table.upsert, done, Option.getD_some, Table.insert?_rows done]

theorem get_foldl_remove (ids : List String) (map : ScriptMap α) (id : String) :
    (ids.foldl remove map).get id = if id ∈ ids then none else map.get id := by
  induction ids generalizing map with
  | nil => rfl
  | cons first rest ih =>
    rw [List.foldl_cons, ih, get_remove]
    by_cases later : id ∈ rest
    · simp [later]
    · simp only [later, if_false, List.mem_cons, or_false, eq_comm]

theorem get_foldl_set (ids : List String) (map : ScriptMap α) (value : α) (id : String) :
    (ids.foldl (fun map id => map.set id value) map).get id =
      if id ∈ ids then some value else map.get id := by
  induction ids generalizing map with
  | nil => rfl
  | cons first rest ih =>
    rw [List.foldl_cons, ih, get_set]
    by_cases later : id ∈ rest
    · simp [later]
    · simp only [later, if_false, List.mem_cons, or_false, eq_comm]

end ScriptMap
