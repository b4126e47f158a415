/-! # Items named by their position

A growing list gives every item the name of its place. Changing one item, or
several by their names, leaves the others alone; what is counted changes with
the items that are changed.
-/

namespace Positions

variable {α : Type u} {items : List α} {id : Nat} {change : α → α}

def modifyAll (change : α → α) (names : List Nat) (items : List α) : List α :=
  names.foldl (fun items id => items.modify id change) items

@[simp] theorem modifyAll_nil : modifyAll change [] items = items := rfl

@[simp] theorem modifyAll_cons (id : Nat) (names : List Nat) :
    modifyAll change (id :: names) items = modifyAll change names (items.modify id change) := rfl

theorem getElem?_modifyAll {names : List Nat} (distinct : names.Nodup) (place : Nat) :
    (modifyAll change names items)[place]? =
      items[place]?.map fun item => if place ∈ names then change item else item := by
  induction names generalizing items with
  | nil => simp
  | cons id rest ih =>
    obtain ⟨fresh, later⟩ := List.nodup_cons.mp distinct
    rw [modifyAll_cons, ih later, List.getElem?_modify]
    cases items[place]? with
    | none => rfl
    | some item => grind

theorem getElem?_concat {item added : α} {place : Nat} (found : (items ++ [added])[place]? = some item) :
    items[place]? = some item ∨ place = items.length ∧ item = added := by
  rcases Nat.lt_or_ge place items.length with old | new
  · exact .inl ((List.getElem?_append_left old).symm.trans found)
  · rw [List.getElem?_append_right new] at found
    have last : place - items.length = 0 := by
      have inList := (List.getElem?_eq_some_iff.mp found).1
      simp only [List.length_singleton] at inList
      omega
    rw [last] at found
    exact .inr ⟨by omega, (Option.some.inj found).symm⟩

theorem countP_modify {item : α} (p : α → Bool) (found : items[id]? = some item) :
    (items.modify id change).countP p + (if p item then 1 else 0) =
      items.countP p + if p (change item) then 1 else 0 := by
  induction items generalizing id with
  | nil => cases found
  | cons first rest ih =>
    cases id with
    | zero =>
      cases found
      simp only [List.modify_zero_cons, List.countP_cons]
      omega
    | succ id =>
      have later := ih found
      simp only [List.modify_succ_cons, List.countP_cons]
      omega

theorem countP_modify_same (p : α → Bool) (same : ∀ item, p (change item) = p item) (id : Nat) :
    (items.modify id change).countP p = items.countP p := by
  cases found : items[id]? with
  | none => rw [List.modify_eq_self (List.getElem?_eq_none_iff.mp found)]
  | some item =>
    have counted : (items.modify id change).countP p + _ = _ := countP_modify p found
    rw [same item] at counted
    omega

theorem countP_modifyAll (p : α → Bool) (same : ∀ item, p (change item) = p item)
    (names : List Nat) : (modifyAll change names items).countP p = items.countP p := by
  induction names generalizing items with
  | nil => rfl
  | cons id rest ih => rw [modifyAll_cons, ih, countP_modify_same p same]

end Positions
