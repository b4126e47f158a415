/-! # Keyed rows

A table is a list of rows that no two rows of share a key. Lookups by key are
then independent of the order of the rows.
-/

namespace KeyedRows

variable {α κ : Type} {key : α → κ} {rows : List α}

theorem unique (keyed : rows.Pairwise fun a b => key a ≠ key b) {a b : α} (inA : a ∈ rows)
    (inB : b ∈ rows) (same : key a = key b) : a = b := by
  induction keyed with
  | nil => cases inA
  | cons apart _ ih =>
    cases List.mem_cons.mp inA with
    | inl headA =>
      cases List.mem_cons.mp inB with
      | inl headB => exact headA.trans headB.symm
      | inr tailB => exact absurd (headA ▸ same) (apart _ tailB)
    | inr tailA =>
      cases List.mem_cons.mp inB with
      | inl headB => exact absurd (headB ▸ same.symm) (apart _ tailA)
      | inr tailB => exact ih tailA tailB

theorem find?_key [DecidableEq κ] (keyed : rows.Pairwise fun a b => key a ≠ key b) {row : α}
    (inRows : row ∈ rows) : rows.find? (fun other => key other = key row) = some row := by
  cases found : rows.find? (fun other => key other = key row) with
  | none => simpa using List.find?_eq_none.mp found row inRows
  | some other =>
    have same : key other = key row := by simpa using List.find?_some found
    rw [unique keyed (List.mem_of_find?_eq_some found) inRows same]

theorem perm_cons_filter [DecidableEq κ] (keyed : rows.Pairwise fun a b => key a ≠ key b) {row : α}
    (inRows : row ∈ rows) :
    rows.Perm (row :: rows.filter fun other => !decide (key other = key row)) := by
  induction keyed with
  | nil => cases inRows
  | @cons first rest apart _ ih =>
    cases inRows with
    | head =>
      have kept : rest.filter (fun other => !decide (key other = key row)) = rest := by
        refine List.filter_eq_self.mpr fun other inRest => ?_
        simpa using Ne.symm (apart other inRest)
      simp [kept]
    | tail _ inRest =>
      have different : key first ≠ key row := apart row inRest
      simp only [List.filter_cons, different, decide_false, Bool.not_false, if_true]
      exact ((ih inRest).cons first).trans (.swap row first _)

theorem length_filter_eq_one (keyed : rows.Pairwise fun a b => key a ≠ key b)
    {selects : α → Bool} {row : α} (inTable : row ∈ rows) (selected : selects row = true)
    (only : ∀ other ∈ rows, selects other = true → key other = key row) :
    (rows.filter selects).length = 1 := by
  have distinct := keyed.filter selects
  have inFilter := List.mem_filter.mpr ⟨inTable, selected⟩
  have same : ∀ other ∈ rows.filter selects, key other = key row := fun other inRows =>
    only other (List.mem_filter.mp inRows).1 (List.mem_filter.mp inRows).2
  generalize rows.filter selects = picked at distinct inFilter same
  match picked, distinct with
  | [], _ => simp at inFilter
  | [_], _ => rfl
  | a :: b :: rest, .cons apart _ =>
    exact absurd ((same a (by simp)).trans (same b (by simp)).symm) (apart b (by simp))

theorem find?_map_of_keeps {selects : α → Bool} {change : α → α} (keeps : ∀ row, selects (change row) = selects row) :
    (rows.map change).find? selects = (rows.find? selects).map change := by
  rw [List.find?_map]
  congr 2
  funext row
  exact keeps row

theorem find?_filter_of_kept {selects keep : α → Bool} (kept : ∀ row, selects row = true → keep row = true) :
    (rows.filter keep).find? selects = rows.find? selects := by
  rw [List.find?_filter]
  congr 1
  funext row
  cases selected : selects row with
  | false => simp
  | true => simp [kept row selected]

theorem find?_filter_of_dropped {selects keep : α → Bool} (dropped : ∀ row, selects row = true → keep row = false) :
    (rows.filter keep).find? selects = none := by
  refine List.find?_eq_none.mpr ?_
  intro row inFilter selected
  have kept := (List.mem_filter.mp inFilter).2
  rw [dropped row selected] at kept
  cases kept

theorem find?_append_row {selects : α → Bool} {row : α} : (rows ++ [row]).find? selects =
      (rows.find? selects).or (if selects row then some row else none) := by
  simp

end KeyedRows
