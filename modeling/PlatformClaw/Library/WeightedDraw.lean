import Mathlib.Algebra.BigOperators.Group.List.Basic
import Mathlib.Algebra.BigOperators.Ring.List
import Mathlib.Algebra.Order.BigOperators.Group.List
import Mathlib.Algebra.Order.Field.Rat
import Mathlib.Data.List.Permutation
import Mathlib.Tactic.FieldSimp
import Mathlib.Tactic.Linarith
import Mathlib.Tactic.Ring

/-! # Weighted draws without replacement

Items are drawn one after the other, each time with chances proportional to the
weights of the items that are left. The chance of a whole order is the product
of the chances of its draws, and an expectation is a finite sum over all orders.
The rules below take an expectation apart by its first draw, which is enough for
every quantity that depends on a few leading places only.
-/

namespace WeightedDraw

variable {α : Type} [DecidableEq α] (weight : α → ℚ)

def total (items : List α) : ℚ :=
  (items.map weight).sum

def orderChance : List α → ℚ
  | [] => 1
  | first :: rest => weight first / total weight (first :: rest) * orderChance rest

/-- The mean of `payoff` over all orders of the items. -/
def expected (items : List α) (payoff : List α → ℚ) : ℚ :=
  (items.permutations'.map fun order => orderChance weight order * payoff order).sum

/-- The sum of the chances of the orders in which the event happens. -/
def chance (items : List α) (event : List α → Bool) : ℚ :=
  ((items.permutations'.filter event).map (orderChance weight)).sum

omit [DecidableEq α] in
theorem chance_eq_expected (items : List α) (event : List α → Bool) :
    chance weight items event = expected weight items fun order => if event order then 1 else 0 := by
  unfold chance expected
  induction items.permutations' with
  | nil => rfl
  | cons order rest ih =>
    rw [List.filter_cons, List.map_cons, List.sum_cons, ← ih]
    cases happens : event order with
    | true => simp [happens]
    | false => simp [happens]

variable {weight}

omit [DecidableEq α] in
theorem total_perm {left right : List α} (same : left.Perm right) : total weight left = total weight right :=
  (same.map weight).sum_eq

theorem total_erase {items : List α} {item : α} (inItems : item ∈ items) :
    total weight (items.erase item) = total weight items - weight item := by
  have split := List.sum_map_erase weight inItems
  unfold total
  linarith

omit [DecidableEq α] in
theorem total_pos {items : List α} (positive : ∀ item ∈ items, 0 < weight item)
    (inhabited : items ≠ []) : 0 < total weight items := by
  apply List.sum_pos
  · intro w inWeights
    obtain ⟨item, inItems, rfl⟩ := List.mem_map.mp inWeights
    exact positive item inItems
  · simpa using inhabited

theorem permutations_by_first {items : List α} (distinct : items.Nodup) (inhabited : items ≠ []) :
    items.permutations'.Perm (items.flatMap fun first => (items.erase first).permutations'.map (first :: ·)) := by
  have nodup : ∀ {left : List α}, left.Nodup → left.permutations'.Nodup := fun {left} h =>
    (List.permutations_perm_permutations' left).nodup_iff.mp (List.nodup_permutations left h)
  apply (List.perm_ext_iff_of_nodup (nodup distinct) ?_).mpr
  · intro order
    simp only [List.mem_permutations', List.mem_flatMap, List.mem_map]
    constructor
    · intro isOrder
      cases order with
      | nil => exact absurd isOrder.symm.eq_nil inhabited
      | cons first rest =>
        have placed := List.cons_perm_iff_perm_erase.mp isOrder
        exact ⟨first, placed.1, rest, placed.2, rfl⟩
    · rintro ⟨first, inItems, rest, isRest, rfl⟩
      exact List.cons_perm_iff_perm_erase.mpr ⟨inItems, isRest⟩
  · apply List.nodup_flatMap.mpr
    constructor
    · intro first _
      exact (nodup (distinct.erase first)).map (List.cons_injective)
    · apply distinct.imp
      intro a b different order inA inB
      obtain ⟨_, _, rfl⟩ := List.mem_map.mp inA
      obtain ⟨_, _, same⟩ := List.mem_map.mp inB
      exact different (List.cons.inj same).1.symm

omit [DecidableEq α] in
theorem expected_perm {left right : List α} (same : left.Perm right) (payoff : List α → ℚ) :
    expected weight left payoff = expected weight right payoff :=
  (same.permutations'.map _).sum_eq

omit [DecidableEq α] in
theorem expected_congr {items : List α} {payoff payoff' : List α → ℚ}
    (equal : ∀ order, order.Perm items → payoff order = payoff' order) :
    expected weight items payoff = expected weight items payoff' := by
  unfold expected
  congr 1
  apply List.map_congr_left
  intro order isOrder
  rw [equal order (List.mem_permutations'.mp isOrder)]

omit [DecidableEq α] in
theorem chance_congr {items : List α} {event event' : List α → Bool}
    (equal : ∀ order, order.Perm items → event order = event' order) :
    chance weight items event = chance weight items event' := by
  rw [chance_eq_expected, chance_eq_expected]
  apply expected_congr
  intro order isOrder
  rw [equal order isOrder]

omit [DecidableEq α] in
theorem chance_perm {left right : List α} (same : left.Perm right) (event : List α → Bool) :
    chance weight left event = chance weight right event := by
  rw [chance_eq_expected, chance_eq_expected]
  exact expected_perm same _

omit [DecidableEq α] in
theorem expected_mul (items : List α) (factor : ℚ) (payoff : List α → ℚ) :
    expected weight items (fun order => factor * payoff order) =
      factor * expected weight items payoff := by
  unfold expected
  rw [← List.sum_map_mul_left]
  congr 1
  apply List.map_congr_left
  intro order _
  ring

omit [DecidableEq α] in
theorem expected_sum {ι : Type} (items : List α) (indices : List ι) (payoff : ι → List α → ℚ) :
    expected weight items (fun order => (indices.map fun i => payoff i order).sum) =
      (indices.map fun i => expected weight items (payoff i)).sum := by
  unfold expected
  induction indices with
  | nil => simp
  | cons i rest ih =>
    simp only [List.map_cons, List.sum_cons, mul_add, ← ih]
    exact List.sum_map_add

theorem expected_first {items : List α} (distinct : items.Nodup) (inhabited : items ≠ []) (payoff : List α → ℚ) :
    expected weight items payoff = (items.map fun first => weight first / total weight items *
        expected weight (items.erase first) fun rest => payoff (first :: rest)).sum := by
  have split := ((permutations_by_first distinct inhabited).map fun order =>
    orderChance weight order * payoff order).sum_eq
  unfold expected
  rw [split, List.map_flatMap, List.flatMap_def, List.sum_flatten, List.map_map]
  congr 1
  apply List.map_congr_left
  intro first inItems
  rw [Function.comp_apply, List.map_map, ← List.sum_map_mul_left]
  congr 1
  apply List.map_congr_left
  intro rest isRest
  have whole : total weight (first :: rest) = total weight items :=
    total_perm (List.cons_perm_iff_perm_erase.mpr ⟨inItems, List.mem_permutations'.mp isRest⟩)
  simp only [Function.comp_apply, orderChance, whole]
  ring

/-- The chances of all orders add up to one. -/
theorem expected_const {items : List α} (distinct : items.Nodup)
    (positive : ∀ item ∈ items, 0 < weight item) (value : ℚ) :
    expected weight items (fun _ => value) = value := by
  generalize size : items.length = n
  induction n generalizing items with
  | zero =>
    rw [List.length_eq_zero_iff.mp size]
    simp [expected, orderChance]
  | succ n ih =>
    have inhabited : items ≠ [] := List.ne_nil_of_length_eq_add_one size
    have rests : ∀ first ∈ items, expected weight (items.erase first) (fun _ => value) = value := by
      intro first inItems
      apply ih (distinct.erase first)
      · exact fun item inRest => positive item (List.mem_of_mem_erase inRest)
      · rw [List.length_erase_of_mem inItems, size, Nat.add_sub_cancel]
    have whole := total_pos positive inhabited
    calc expected weight items (fun _ => value)
        = (items.map fun first => weight first / total weight items * value).sum := by
          rw [expected_first distinct inhabited]
          congr 1
          apply List.map_congr_left
          intro first inItems
          rw [rests first inItems]
      _ = (items.map fun first => weight first * (value / total weight items)).sum := by
          congr 1
          apply List.map_congr_left
          intro first _
          ring
      _ = total weight items * (value / total weight items) := by
          rw [List.sum_map_mul_right]
          rfl
      _ = value := by field_simp

theorem expected_take_succ {items : List α} (distinct : items.Nodup) (inhabited : items ≠ [])
    (k : Nat) (payoff : List α → ℚ) :
    expected weight items (fun order => payoff (order.take (k + 1))) =
      (items.map fun first => weight first / total weight items *
        expected weight (items.erase first) fun rest => payoff (first :: rest.take k)).sum :=
  expected_first distinct inhabited fun order => payoff (order.take (k + 1))

theorem expected_take_zero {items : List α} (distinct : items.Nodup)
    (positive : ∀ item ∈ items, 0 < weight item) (payoff : List α → ℚ) :
    expected weight items (fun order => payoff (order.take 0)) = payoff [] :=
  expected_const distinct positive (payoff [])

theorem positive_erase {items : List α} (positive : ∀ item ∈ items, 0 < weight item) (first : α) :
    ∀ item ∈ items.erase first, 0 < weight item :=
  fun item inRest => positive item (List.mem_of_mem_erase inRest)

theorem expected_top_one {items : List α} (distinct : items.Nodup)
    (positive : ∀ item ∈ items, 0 < weight item) (enough : 0 < items.length)
    (payoff : List α → ℚ) :
    expected weight items (fun order => payoff (order.take 1)) =
      (items.map fun first => weight first / total weight items * payoff [first]).sum := by
  rw [expected_take_succ distinct (List.ne_nil_of_length_pos enough)]
  congr 1
  apply List.map_congr_left
  intro first _
  rw [expected_take_zero (distinct.erase first) (positive_erase positive first)
    fun rest => payoff (first :: rest)]

theorem expected_top_two {items : List α} (distinct : items.Nodup)
    (positive : ∀ item ∈ items, 0 < weight item) (enough : 1 < items.length)
    (payoff : List α → ℚ) :
    expected weight items (fun order => payoff (order.take 2)) =
      (items.map fun first => weight first / total weight items * ((items.erase first).map fun second =>
          weight second / (total weight items - weight first) * payoff [first, second]).sum).sum := by
  rw [expected_take_succ distinct (List.ne_nil_of_length_pos (by omega))]
  congr 1
  apply List.map_congr_left
  intro first inItems
  have left := List.length_erase_of_mem inItems
  rw [expected_top_one (distinct.erase first) (positive_erase positive first) (by omega)
    fun rest => payoff (first :: rest), total_erase inItems]

theorem expected_top_three {items : List α} (distinct : items.Nodup)
    (positive : ∀ item ∈ items, 0 < weight item) (enough : 2 < items.length)
    (payoff : List α → ℚ) :
    expected weight items (fun order => payoff (order.take 3)) =
      (items.map fun first => weight first / total weight items * ((items.erase first).map fun second =>
          weight second / (total weight items - weight first) * (((items.erase first).erase second).map fun third =>
              weight third / (total weight items - weight first - weight second) *
                payoff [first, second, third]).sum).sum).sum := by
  rw [expected_take_succ distinct (List.ne_nil_of_length_pos (by omega))]
  congr 1
  apply List.map_congr_left
  intro first inItems
  have left := List.length_erase_of_mem inItems
  rw [expected_top_two (distinct.erase first) (positive_erase positive first) (by omega)
    fun rest => payoff (first :: rest), total_erase inItems]

theorem sum_single {items : List α} (distinct : items.Nodup) {item : α} (inItems : item ∈ items)
    (f : α → ℚ) : (items.map fun other => if other = item then f other else 0).sum = f item := by
  have split := List.sum_map_erase (fun other => if other = item then f other else 0) inItems
  rw [if_pos rfl] at split
  rw [← split, add_eq_left]
  apply List.sum_eq_zero
  intro value inValues
  obtain ⟨other, inRest, rfl⟩ := List.mem_map.mp inValues
  exact if_neg (List.Nodup.mem_erase_iff distinct |>.mp inRest).1

theorem sum_erase {items : List α} (distinct : items.Nodup) (item : α) (f : α → ℚ) : ((items.erase item).map f).sum =
      (items.map fun other => if other = item then 0 else f other).sum := by
  rw [distinct.erase_eq_filter]
  induction items with
  | nil => rfl
  | cons other rest ih =>
    have later := ih (List.nodup_cons.mp distinct).2
    rw [List.filter_cons, List.map_cons, List.sum_cons, ← later]
    by_cases same : other = item
    · simp [same]
    · simp [same]

theorem chance_first {items : List α} (distinct : items.Nodup)
    (positive : ∀ item ∈ items, 0 < weight item) {item : α} (inItems : item ∈ items) :
    chance weight items (fun order => item ∈ order.take 1) =
      weight item / total weight items := by
  rw [chance_eq_expected]
  refine (expected_top_one distinct positive (List.length_pos_of_mem inItems)
    fun top => if decide (item ∈ top) then 1 else 0).trans ?_
  rw [← sum_single distinct inItems fun first => weight first / total weight items]
  congr 1
  apply List.map_congr_left
  intro first _
  by_cases same : first = item
  · simp [same]
  · simp [same, Ne.symm same]

theorem chance_first_two {items : List α} (distinct : items.Nodup)
    (positive : ∀ item ∈ items, 0 < weight item) {a b : α} (inA : a ∈ items) (inB : b ∈ items)
    (different : a ≠ b) :
    chance weight items (fun order => a ∈ order.take 2 ∧ b ∈ order.take 2) =
      weight a / total weight items * (weight b / (total weight items - weight a)) +
        weight b / total weight items * (weight a / (total weight items - weight b)) := by
  have enough : 1 < items.length := by
    have left := List.length_erase_of_mem inA
    have inRest := List.length_pos_of_mem ((List.mem_erase_of_ne (Ne.symm different)).mpr inB)
    omega
  rw [chance_eq_expected]
  refine (expected_top_two distinct positive enough
    fun top => if decide (a ∈ top ∧ b ∈ top) then 1 else 0).trans ?_
  -- Behind `a` only `b` completes the pair, behind `b` only `a`, behind others nothing does.
  have behind : ∀ first ∈ items, ∀ other ∈ items, first ≠ other → (((items.erase first).map fun second =>
        weight second / (total weight items - weight first) *
          if second = other then 1 else 0).sum) =
        weight other / (total weight items - weight first) := by
    intro first _ other inItems apart
    rw [← sum_single (distinct.erase first) ((List.mem_erase_of_ne (Ne.symm apart)).mpr inItems)
      fun second => weight second / (total weight items - weight first)]
    congr 1
    apply List.map_congr_left
    intro second _
    split <;> simp
  rw [← sum_single distinct inA fun first => weight first / total weight items *
      (weight b / (total weight items - weight first)),
    ← sum_single distinct inB fun first => weight first / total weight items *
      (weight a / (total weight items - weight first)), ← List.sum_map_add]
  congr 1
  apply List.map_congr_left
  intro first inItems
  by_cases isA : first = a
  · subst isA
    rw [if_pos rfl, if_neg different, add_zero, ← behind first inItems b inB different]
    congr 2
    apply List.map_congr_left
    intro second _
    simp [different.symm, eq_comm]
  · by_cases isB : first = b
    · subst isB
      rw [if_neg isA, if_pos rfl, zero_add, ← behind first inItems a inA isA]
      congr 2
      apply List.map_congr_left
      intro second _
      simp [different, eq_comm]
    · rw [if_neg isA, if_neg isB, add_zero, mul_eq_zero]
      right
      apply List.sum_eq_zero
      intro value inValues
      obtain ⟨second, _, rfl⟩ := List.mem_map.mp inValues
      have missing : ¬(a ∈ [first, second] ∧ b ∈ [first, second]) := by
        rintro ⟨placedA, placedB⟩
        simp only [List.mem_cons, List.not_mem_nil, or_false, Ne.symm isA, Ne.symm isB, false_or] at placedA placedB
        exact different (placedA.trans placedB.symm)
      rw [decide_eq_false missing, if_neg Bool.false_ne_true, mul_zero]

/-- The first index at which `draw`, less the weights so far, falls below zero. -/
def drawIndex (weight : α → ℚ) (draw : ℚ) : List α → Option Nat
  | [] => none
  | item :: rest =>
    if draw - weight item < 0 then some 0
    else (drawIndex weight (draw - weight item) rest).map (· + 1)

omit [DecidableEq α] in
theorem drawIndex_eq_some_iff {items : List α} (positive : ∀ item ∈ items, 0 < weight item)
    {draw : ℚ} (nonnegative : 0 ≤ draw) {index : Nat} (within : index < items.length) :
    drawIndex weight draw items = some index ↔ total weight (items.take index) ≤ draw ∧
        draw < total weight (items.take index) + weight items[index] := by
  induction items generalizing draw index with
  | nil => cases within
  | cons item rest ih =>
    have here := positive item List.mem_cons_self
    have later := fun other inRest => positive other (List.mem_cons_of_mem item inRest)
    unfold drawIndex
    cases index with
    | zero =>
      simp only [List.take_zero, total, List.map_nil, List.sum_nil, List.getElem_cons_zero, zero_add]
      split
      · simpa [nonnegative] using by linarith
      · simpa [nonnegative] using by linarith
    | succ index =>
      have inside : index < rest.length := by simpa using within
      have whole : total weight ((item :: rest).take (index + 1)) = weight item + total weight (rest.take index) := by
        simp [total]
      have sum_nonneg : 0 ≤ total weight (rest.take index) := by
        apply List.sum_nonneg
        intro w inWeights
        obtain ⟨other, inTake, rfl⟩ := List.mem_map.mp inWeights
        exact le_of_lt (later other (List.mem_of_mem_take inTake))
      rw [whole, List.getElem_cons_succ]
      split
      · simp
        intro
        linarith
      · rename_i reached
        have step := ih later (by linarith : 0 ≤ draw - weight item) inside
        simp only [Option.map_eq_some_iff, Nat.add_right_cancel_iff, exists_eq_right]
        rw [step]
        constructor
        · rintro ⟨low, high⟩
          exact ⟨by linarith, by linarith⟩
        · rintro ⟨low, high⟩
          exact ⟨by linarith, by linarith⟩

omit [DecidableEq α] in
theorem drawIndex_of_lt_total {items : List α} {draw : ℚ} (below : draw < total weight items)
    (nonnegative : 0 ≤ draw) :
    ∃ index, index < items.length ∧ drawIndex weight draw items = some index := by
  induction items generalizing draw with
  | nil =>
    simp only [total, List.map_nil, List.sum_nil] at below
    linarith
  | cons item rest ih =>
    unfold drawIndex
    split
    · exact ⟨0, Nat.succ_pos _, rfl⟩
    · rename_i reached
      simp only [total, List.map_cons, List.sum_cons] at below
      obtain ⟨index, within, drawn⟩ := ih
        (by unfold total; linarith : draw - weight item < total weight rest) (by linarith)
      exact ⟨index + 1, Nat.succ_lt_succ within, by rw [drawn, Option.map_some]⟩

end WeightedDraw
