import PlatformClaw.Library.ScriptString

/-! # Values of unknown shape

What a script gets from outside and looks into: an object by its fields, an
array by its items, a text. Fields that are not there read as nothing.
-/

inductive ScriptValue where
  | text (value : String)
  | array (items : List ScriptValue)
  | object (fields : List (String × ScriptValue))
  /-- A number, a flag, or nothing. -/
  | plain

namespace ScriptValue

abbrev Record : Type := List (String × ScriptValue)

def field (record : Record) (name : String) : Option ScriptValue :=
  (record.find? fun entry => entry.1 = name).map Prod.snd

/-- `{ ...record, name: value }`. -/
def setField (record : Record) (name : String) (value : ScriptValue) : Record :=
  if record.any fun entry => entry.1 = name then
    record.map fun entry => if entry.1 = name then (name, value) else entry
  else record ++ [(name, value)]

def asRecord : Option ScriptValue → Option Record
  | some (.object fields) => some fields
  | _ => none

def asArray : Option ScriptValue → Option (List ScriptValue)
  | some (.array items) => some items
  | _ => none

def nonEmptyString : Option ScriptValue → Option String
  | some (.text value) =>
    let trimmed := ScriptString.trim value
    if trimmed = "" then none else some trimmed
  | _ => none

@[simp] theorem asRecord_object (fields : Record) : asRecord (some (.object fields)) = some fields :=
  rfl

theorem field_setField (record : Record) (name : String) (value : ScriptValue) (other : String) :
    field (setField record name value) other =
      if name = other then some value else field record other := by
  simp only [field, setField]
  split
  · rename_i present
    have keeps : ((fun entry : String × ScriptValue => decide (entry.1 = other)) ∘
        fun entry => if entry.1 = name then (name, value) else entry) =
          fun entry => decide (entry.1 = other) := by
      funext entry
      simp only [Function.comp_apply]
      split
      · rename_i own
        simp [own]
      · rfl
    rw [List.find?_map, keeps]
    cases found : record.find? fun entry => entry.1 = other with
    | none =>
      have different : name ≠ other := by
        rintro rfl
        obtain ⟨entry, inRecord, own⟩ := List.any_eq_true.mp present
        exact absurd own (by simpa using List.find?_eq_none.mp found entry inRecord)
      simp [different]
    | some entry =>
      have own : entry.1 = other := by simpa using List.find?_some found
      by_cases same : name = other
      · simp [own, same]
      · simp [own, same, Ne.symm same]
  · rename_i absent
    by_cases same : name = other
    · have none : record.find? (fun entry => decide (entry.1 = other)) = none := by
        refine List.find?_eq_none.mpr fun entry inRecord own => absent ?_
        exact List.any_eq_true.mpr ⟨entry, inRecord, by simpa [same] using own⟩
      simp [List.find?_append, none, same]
    · simp [List.find?_append, same]

end ScriptValue
