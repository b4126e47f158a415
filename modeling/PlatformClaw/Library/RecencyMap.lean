import Mathlib.Data.List.Induction
import PlatformClaw.Library.ScriptMap

/-! # Maps that forget their oldest entry

A `Map` of a script used as a cache: a key that is remembered moves to the end, and when there are
too many keys the first one goes. As many other keys as the limit, remembered one after the other,
push a key out.
-/

namespace ScriptMap

variable {α : Type} {map : ScriptMap α} {id : String} {value : α}

/-- The keys in their order. -/
def ids (map : ScriptMap α) : List String :=
  map.rows.map Prod.fst

def dropOldest (map : ScriptMap α) : ScriptMap α :=
  match map.rows with
  | [] => map
  | (oldest, _) :: _ => map.remove oldest

/-- Delete the key, set it again, and drop the oldest when there are more than `limit`. -/
def remember (map : ScriptMap α) (limit : Nat) (id : String) (value : α) : ScriptMap α :=
  if limit < ((map.remove id).set id value).rows.length then
    ((map.remove id).set id value).dropOldest
  else (map.remove id).set id value

theorem nodup_ids (map : ScriptMap α) : map.ids.Nodup :=
  List.pairwise_map.mpr map.keyed

theorem ids_set_removed (map : ScriptMap α) (id : String) (value : α) :
    ((map.remove id).set id value).ids = map.ids.filter (· ≠ id) ++ [id] := by
  have absent : (map.remove id).get id = none := by rw [get_remove, if_pos rfl]
  rw [ids, rows_set_new absent, List.map_append, List.map_singleton]
  congr 1
  rw [ids, List.filter_map]
  congr 1
  apply List.filter_congr
  intro entry _
  simp

theorem ids_dropOldest (map : ScriptMap α) : map.dropOldest.ids = map.ids.tail := by
  have distinct := map.nodup_ids
  unfold dropOldest
  cases rows : map.rows with
  | nil => simp [ids, rows]
  | cons first rest =>
    obtain ⟨oldest, value⟩ := first
    rw [ids, rows, List.map_cons, List.nodup_cons] at distinct
    have kept : rest.filter (fun entry : String × α => !decide (entry.1 = oldest)) = rest := by
      apply List.filter_eq_self.mpr
      intro entry inRest
      have apart : entry.1 ≠ oldest := by
        intro same
        exact distinct.1 (List.mem_map.mpr ⟨entry, inRest, same⟩)
      simp [apart]
    have left : (map.remove oldest).rows = map.rows.filter fun entry => !decide (entry.1 = oldest) := rfl
    rw [ids, ids, rows]
    change ((map.remove oldest).rows).map Prod.fst = _
    rw [left, rows, List.filter_cons]
    simp [kept]

theorem get_dropOldest (found : map.dropOldest.get id = some value) : map.get id = some value := by
  unfold dropOldest at found
  split at found
  · exact found
  · rw [get_remove] at found
    split at found
    · cases found
    · exact found

theorem get_remember {limit : Nat} {other : String} {found : α}
    (located : (map.remember limit id value).get other = some found) :
    (id = other ∧ value = found) ∨ (id ≠ other ∧ map.get other = some found) := by
  have set : ((map.remove id).set id value).get other = some found := by
    unfold remember at located
    split at located
    · exact get_dropOldest located
    · exact located
  rw [get_set] at set
  split at set
  · rename_i same
    exact .inl ⟨same, Option.some.inj set⟩
  · rename_i apart
    rw [get_remove, if_neg apart] at set
    exact .inr ⟨apart, set⟩

theorem get_remember_self {limit : Nat} (room : 0 < limit) : (map.remember limit id value).get id = some value := by
  have absent : (map.remove id).get id = none := by rw [get_remove, if_pos rfl]
  unfold remember
  split
  · rename_i full
    have grown := rows_set_new absent value
    unfold dropOldest
    cases rows : (map.remove id).rows with
    | nil =>
      rw [grown, rows] at full
      simp only [List.nil_append, List.length_singleton] at full
      omega
    | cons oldest rest =>
      obtain ⟨first, _⟩ := oldest
      have apart : first ≠ id := by
        rintro rfl
        have there := get_eq_some_iff.mpr (show (first, _) ∈ (map.remove first).rows from rows ▸ List.mem_cons_self)
        rw [absent] at there
        cases there
      rw [grown, rows]
      dsimp only [List.cons_append]
      rw [get_remove, if_neg apart, get_set, if_pos rfl]
  · rw [get_set, if_pos rfl]

theorem get_eq_none_iff : map.get id = none ↔ id ∉ map.ids := by
  rw [get, Option.map_eq_none_iff, Table.lookup_eq_none_iff, ids, List.mem_map]
  constructor
  · rintro absent ⟨entry, inMap, same⟩
    exact absent entry inMap same
  · intro absent entry inMap same
    exact absent ⟨entry, inMap, same⟩

/-- The keys after `id` was remembered. -/
def pushId (limit : Nat) (ids : List String) (id : String) : List String :=
  if limit < (ids.filter (· ≠ id)).length + 1 then (ids.filter (· ≠ id) ++ [id]).tail
  else ids.filter (· ≠ id) ++ [id]

theorem ids_remember (map : ScriptMap α) (limit : Nat) (id : String) (value : α) :
    (map.remember limit id value).ids = pushId limit map.ids id := by
  have grown := ids_set_removed map id value
  have size : ((map.remove id).set id value).rows.length = (map.ids.filter (· ≠ id)).length + 1 := by
    rw [← List.length_map (f := Prod.fst), ← ids, grown, List.length_append, List.length_singleton]
  unfold remember pushId
  rw [size]
  split
  · rw [ids_dropOldest, grown]
  · exact grown

section PushId

variable {limit : Nat} {ids : List String} {id : String}

theorem length_pushId (fits : ids.length ≤ limit) : (pushId limit ids id).length ≤ limit := by
  have shorter := List.length_filter_le (fun other => decide (other ≠ id)) ids
  unfold pushId
  split
  · rw [List.length_tail, List.length_append, List.length_singleton]
    omega
  · rw [List.length_append, List.length_singleton]
    omega

theorem filter_append_self (ids : List String) (id : String) :
    (ids.filter (· ≠ id) ++ [id]).filter (· ≠ id) = ids.filter (· ≠ id) := by
  simp [List.filter_append, List.filter_filter]

/-- To remember a key again changes nothing in the order. -/
theorem pushId_again (fits : ids.length ≤ limit) : pushId limit (pushId limit ids id) id = pushId limit ids id := by
  have shorter := List.length_filter_le (fun other => decide (other ≠ id)) ids
  by_cases full : limit < (ids.filter (· ≠ id)).length + 1
  · have once : pushId limit ids id = (ids.filter (· ≠ id) ++ [id]).tail := if_pos full
    rw [once]
    have same := filter_append_self ids id
    cases left : ids.filter (· ≠ id) with
    | nil =>
      rw [left] at full
      simp only [List.length_nil] at full
      simp [pushId, full]
    | cons oldest rest =>
      have without : rest.filter (· ≠ id) = rest := by
        have both : (oldest :: rest).filter (· ≠ id) = oldest :: rest := by
          rw [← left, List.filter_filter]
          simp
        apply List.filter_eq_self.mpr
        intro other inRest
        exact List.filter_eq_self.mp both other (List.mem_cons_of_mem _ inRest)
      rw [left, List.length_cons] at shorter
      have kept : (rest ++ [id]).filter (· ≠ id) = rest := by
        rw [List.filter_append, without]
        simp
      simp only [List.cons_append, List.tail_cons]
      unfold pushId
      rw [kept, if_neg (by omega)]
  · have once : pushId limit ids id = ids.filter (· ≠ id) ++ [id] := if_neg full
    rw [once]
    unfold pushId
    rw [filter_append_self, if_neg full]

/-- The keys that were remembered last are the last keys. -/
theorem foldl_pushId (pushed : List String) (distinct : pushed.Nodup)
    (few : pushed.length ≤ limit) (fits : ids.length ≤ limit) :
    ∃ earlier, pushed.foldl (pushId limit) ids = earlier ++ pushed ∧ earlier.length + pushed.length ≤ limit := by
  induction pushed using List.reverseRecOn with
  | nil => exact ⟨ids, by simp, by simpa using fits⟩
  | append_singleton pushed last ih =>
    rw [List.length_append, List.length_singleton] at few ⊢
    obtain ⟨before, apart⟩ := List.nodup_append.mp distinct |>.imp_right And.right
    obtain ⟨earlier, same, size⟩ := ih before (by omega)
    have kept : pushed.filter (· ≠ last) = pushed := by
      apply List.filter_eq_self.mpr
      intro other inPushed
      have differs := apart other inPushed last (List.mem_singleton_self _)
      simpa using differs
    rw [List.foldl_append, List.foldl_cons, List.foldl_nil, same]
    unfold pushId
    rw [List.filter_append, kept]
    split
    · rename_i full
      rw [List.length_append] at full
      cases left : earlier.filter (· ≠ last) with
      | nil =>
        rw [left] at full
        simp only [List.length_nil] at full
        omega
      | cons oldest rest =>
        refine ⟨rest, by simp, ?_⟩
        have shorter := List.length_filter_le (fun other => decide (other ≠ last)) earlier
        rw [left, List.length_cons] at shorter
        omega
    · rename_i fits
      rw [List.length_append] at fits
      exact ⟨earlier.filter (· ≠ last), by simp, by omega⟩

theorem pushed_out {pushed : List String} (distinct : pushed.Nodup) (many : pushed.length = limit)
    (fits : ids.length ≤ limit) (absent : id ∉ pushed) : id ∉ pushed.foldl (pushId limit) ids := by
  obtain ⟨earlier, same, size⟩ := foldl_pushId pushed distinct (Nat.le_of_eq many) fits
  have none : earlier = [] := List.eq_nil_of_length_eq_zero (by omega)
  rw [same, none, List.nil_append]
  exact absent

end PushId

end ScriptMap
