import Mathlib.Data.List.Sort

/-! # Sorted lists of a script

`toSorted` puts a list in the order of a comparison and keeps the order of items that compare as
equal. In a list sorted by some measure, the first item past a bound is found by halving, and so is
the last one within it.
-/

namespace ScriptList

variable {α : Type}

/-- A comparison that orders all items. -/
structure Comparison (compare : α → α → Int) : Prop where
  total : ∀ a b, compare a b ≤ 0 ∨ compare b a ≤ 0
  trans : ∀ {a b c}, compare a b ≤ 0 → compare b c ≤ 0 → compare a c ≤ 0

def toSorted (compare : α → α → Int) (items : List α) : List α :=
  items.insertionSort fun a b => compare a b ≤ 0

variable {compare : α → α → Int} {items : List α}

theorem toSorted_perm (compare : α → α → Int) (items : List α) : (toSorted compare items).Perm items :=
  List.perm_insertionSort _ items

@[simp] theorem mem_toSorted {item : α} : item ∈ toSorted compare items ↔ item ∈ items :=
  (toSorted_perm compare items).mem_iff

theorem pairwise_toSorted (ordered : Comparison compare) :
    (toSorted compare items).Pairwise fun a b => compare a b ≤ 0 := by
  have total : Std.Total fun a b => compare a b ≤ 0 := ⟨ordered.total⟩
  have trans : IsTrans α fun a b => compare a b ≤ 0 := ⟨fun _ _ _ => ordered.trans⟩
  exact List.pairwise_insertionSort _ items

theorem toSorted_eq_of_perm (ordered : Comparison compare) {others : List α} (same : items.Perm others)
    (apart : ∀ a ∈ items, ∀ b ∈ items, compare a b ≤ 0 → compare b a ≤ 0 → a = b) :
    toSorted compare items = toSorted compare others := by
  apply List.Perm.eq_of_pairwise _ (pairwise_toSorted ordered) (pairwise_toSorted ordered)
  · exact (toSorted_perm compare items).trans (same.trans (toSorted_perm compare others).symm)
  · intro a b inItems inOthers
    exact apart a (mem_toSorted.mp inItems) b (same.mem_iff.mpr (mem_toSorted.mp inOthers))

def ascending (a b : Nat) : Int := (a : Int) - b

theorem comparison_ascending : Comparison ascending where
  total a b := by unfold ascending; omega
  trans := by unfold ascending; omega

theorem pairwise_toSorted_ascending {numbers : List Nat} (distinct : numbers.Nodup) :
    (toSorted ascending numbers).Pairwise (· < ·) := by
  have sorted := @pairwise_toSorted _ _ numbers comparison_ascending
  have apart := (toSorted_perm ascending numbers).nodup_iff.mpr distinct
  refine (sorted.and apart).imp ?_
  intro a b both
  have le := both.1
  have ne := both.2
  unfold ascending at le
  omega

/-- Between `low` and `high`, the place at which `before` ends. -/
def searchBetween (before : Nat → Bool) : Nat → Nat → Nat → Nat
  | 0, low, _ => low
  | fuel + 1, low, high =>
    if low < high then
      let middle := low + (high - low) / 2
      if before middle then searchBetween before fuel (middle + 1) high
      else searchBetween before fuel low middle
    else low

/-- The first index of a list of `count` items at which `before` does not hold. -/
def partitionPoint (before : Nat → Bool) (count : Nat) : Nat :=
  searchBetween before count 0 count

theorem searchBetween_splits {before : Nat → Bool} {count : Nat}
    (closed : ∀ {i j : Nat}, i ≤ j → j < count → before j = true → before i = true) :
    ∀ {fuel low high : Nat}, high - low ≤ fuel → low ≤ high → high ≤ count →
      (∀ i, i < low → before i = true) → (∀ i, high ≤ i → i < count → before i = false) →
      ∀ i, i < count → (before i = true ↔ i < searchBetween before fuel low high) := by
  intro fuel
  induction fuel with
  | zero =>
    intro low high enough ordered inside below above i inCount
    have same : low = high := by omega
    subst same
    rw [searchBetween]
    by_cases less : i < low
    · simp [less, below i less]
    · simp [less, above i (by omega) inCount]
  | succ fuel ih =>
    intro low high enough ordered inside below above
    rw [searchBetween]
    by_cases open' : low < high
    · rw [if_pos open']
      dsimp only
      have lower : low ≤ low + (high - low) / 2 := Nat.le_add_right _ _
      have upper : low + (high - low) / 2 < high := by omega
      cases holds : before (low + (high - low) / 2) with
      | true =>
        rw [if_pos rfl]
        apply ih (by omega) (by omega) inside _ above
        intro i less
        exact closed (by omega) (by omega) holds
      | false =>
        rw [if_neg Bool.false_ne_true]
        apply ih (by omega) lower (by omega) below
        intro i least inCount
        cases here : before i with
        | false => rfl
        | true => exact (holds.symm.trans (closed least inCount here)).symm
    · rw [if_neg open']
      have same : low = high := by omega
      subst same
      intro i inCount
      by_cases less : i < low
      · simp [less, below i less]
      · simp [less, above i (by omega) inCount]

/-- The search finds the place at which a property that holds of a first part of the list ends. -/
theorem lt_partitionPoint {before : Nat → Bool} {count : Nat}
    (closed : ∀ {i j : Nat}, i ≤ j → j < count → before j = true → before i = true) {i : Nat}
    (inCount : i < count) : before i = true ↔ i < partitionPoint before count := by
  unfold partitionPoint
  apply searchBetween_splits closed (by omega) (by omega) (by omega) _ _ i inCount
  · intro i less
    omega
  · intro i least inCount
    omega

/-- Between `low` and `high`, the last place at which `fits` holds, or the `best` so far. -/
def searchLast (fits : Nat → Bool) : Nat → Nat → Nat → Nat → Nat
  | 0, _, _, best => best
  | fuel + 1, low, high, best =>
    if low ≤ high then
      let candidate := (low + high) / 2
      if fits candidate then searchLast fits fuel (candidate + 1) high candidate
      else searchLast fits fuel low (candidate - 1) best
    else best

/-- Where `result` stands among the places after `first` up to `last`. -/
structure IsLast (fits : Nat → Bool) (first last result : Nat) : Prop where
  least : first ≤ result
  most : result ≤ last
  good : first < result → fits result = true
  beyond : ∀ i, result < i → i ≤ last → fits i = false

theorem le_searchLast {fits : Nat → Bool} :
    ∀ {fuel low high best : Nat}, best < low → best ≤ searchLast fits fuel low high best := by
  intro fuel
  induction fuel with
  | zero =>
    intro low high best less
    simp [searchLast]
  | succ fuel ih =>
    intro low high best less
    rw [searchLast]
    by_cases open' : low ≤ high
    · rw [if_pos open']
      dsimp only
      cases fits ((low + high) / 2) with
      | true =>
        have later := @ih ((low + high) / 2 + 1) high ((low + high) / 2) (Nat.lt_succ_self _)
        rw [if_pos rfl]
        omega
      | false =>
        rw [if_neg Bool.false_ne_true]
        exact ih less
    · rw [if_neg open']

theorem isLast_searchLast {fits : Nat → Bool} {first last : Nat}
    (closed : ∀ {i j : Nat}, first < i → i ≤ j → j ≤ last → fits j = true → fits i = true) :
    ∀ {fuel high best : Nat}, high - best ≤ fuel → first ≤ best → best ≤ high → high ≤ last →
      (first < best → fits best = true) → (∀ i, high < i → i ≤ last → fits i = false) →
      IsLast fits first last (searchLast fits fuel (best + 1) high best) := by
  intro fuel
  induction fuel with
  | zero =>
    intro high best enough least ordered inside good above
    have same : best = high := by omega
    subst same
    exact { least, most := inside, good, beyond := above }
  | succ fuel ih =>
    intro high best enough least ordered inside good above
    rw [searchLast]
    by_cases open' : best + 1 ≤ high
    · rw [if_pos open']
      dsimp only
      have lower : best + 1 ≤ (best + 1 + high) / 2 := by omega
      have upper : (best + 1 + high) / 2 ≤ high := by omega
      cases holds : fits ((best + 1 + high) / 2) with
      | true =>
        rw [if_pos rfl]
        exact ih (by omega) (by omega) upper inside (fun _ => holds) above
      | false =>
        rw [if_neg Bool.false_ne_true]
        apply ih (by omega) least (by omega) (by omega) good
        intro i more inLast
        cases here : fits i with
        | false => rfl
        | true => exact (holds.symm.trans (closed (by omega) (by omega) inLast here)).symm
    · rw [if_neg open']
      have same : best = high := by omega
      subst same
      exact { least, most := inside, good, beyond := above }

end ScriptList
