import PlatformClaw.Library.Table

/-! # Sets of a script

A `Set` of texts keeps the order in which they came first.
-/

abbrev ScriptSet : Type := Table (id : String → String)

namespace ScriptSet

variable {set : ScriptSet} {text other : String}

def add (set : ScriptSet) (text : String) : ScriptSet :=
  (set.insert? text).getD set

def addAll (set : ScriptSet) (texts : List String) : ScriptSet :=
  texts.foldl add set

def ofList (texts : List String) : ScriptSet :=
  addAll Table.empty texts

/-- `delete`. -/
def remove (set : ScriptSet) (text : String) : ScriptSet :=
  set.delete fun member => member = text

@[simp] theorem mem_add : other ∈ set.add text ↔ other = text ∨ other ∈ set := by
  unfold add
  cases done : set.insert? text with
  | some inserted => rw [Option.getD_some, Table.mem_insert? done, or_comm]
  | none =>
    have taken : ∃ row, set.lookup text = some row := by
      rw [← Option.isSome_iff_exists, ← Option.ne_none_iff_isSome]
      intro free
      have new := Table.insert?_isSome_iff.mpr (show set.lookup (id text) = none from free)
      rw [done] at new
      cases new
    obtain ⟨row, found⟩ := taken
    obtain ⟨inSet, rfl⟩ := Table.lookup_eq_some_iff.mp found
    rw [Option.getD_none]
    constructor
    · exact .inr
    · rintro (rfl | there)
      · exact inSet
      · exact there

@[simp] theorem mem_addAll {texts : List String} :
    other ∈ set.addAll texts ↔ other ∈ texts ∨ other ∈ set := by
  unfold addAll
  induction texts generalizing set with
  | nil => simp
  | cons first rest ih =>
    rw [List.foldl_cons, ih, mem_add, List.mem_cons]
    constructor
    · rintro (later | rfl | there)
      · exact .inl (.inr later)
      · exact .inl (.inl rfl)
      · exact .inr there
    · rintro ((rfl | later) | there)
      · exact .inr (.inl rfl)
      · exact .inl later
      · exact .inr (.inr there)

@[simp] theorem mem_ofList {texts : List String} : other ∈ ofList texts ↔ other ∈ texts := by
  rw [ofList, mem_addAll]
  exact or_iff_left (Table.not_mem_empty other)

/-- Delete several texts. -/
def without (set : ScriptSet) (texts : List String) : ScriptSet :=
  set.delete fun member => texts.contains member

@[simp] theorem mem_without {texts : List String} :
    other ∈ set.without texts ↔ other ∈ set ∧ other ∉ texts := by
  rw [without, Table.mem_delete]
  simp

@[simp] theorem rows_without (set : ScriptSet) (texts : List String) :
    (set.without texts).rows = set.rows.filter fun member => !texts.contains member := rfl

theorem without_nil (set : ScriptSet) : set.without [] = set :=
  Table.ext_rows (by simp)

theorem remove_without (set : ScriptSet) (text : String) (texts : List String) :
    (set.remove text).without texts = set.without (text :: texts) := by
  apply Table.ext_rows
  rw [rows_without, rows_without]
  show ((set.rows.filter _).filter _) = _
  rw [List.filter_filter]
  apply List.filter_congr
  intro member _
  by_cases same : member = text
  · simp [same]
  · simp [same]

theorem without_without (set : ScriptSet) (early late : List String) :
    (set.without early).without late = set.without (early ++ late) := by
  apply Table.ext_rows
  rw [rows_without, rows_without, rows_without, List.filter_filter]
  apply List.filter_congr
  intro member _
  simp only [List.contains_eq_mem, List.mem_append]
  by_cases inLate : member ∈ late
  · simp [inLate]
  · simp [inLate]

theorem without_congr {texts others : List String}
    (same : ∀ member ∈ set, member ∈ texts ↔ member ∈ others) : set.without texts = set.without others := by
  apply Table.ext_rows
  rw [rows_without, rows_without]
  apply List.filter_congr
  intro member inSet
  have agree := same member inSet
  simp only [List.contains_eq_mem, agree]

theorem nodup (set : ScriptSet) : set.rows.Nodup := set.keyed

end ScriptSet
