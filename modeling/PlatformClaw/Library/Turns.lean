import Mathlib.Order.Defs.LinearOrder
import Mathlib.Order.Basic
import Mathlib.Tactic.Ring

/-! # Taking turns

Items in a fixed order are served in batches: each batch takes the items behind a cursor and goes on
from the start, and leaves the cursor at its last item. So the batches go around in a ring.
-/

namespace Turns

variable {α : Type}

section Order

variable [LinearOrder α]

/-- The items behind the cursor, then the ones up to it. -/
def ring (cursor : Option α) (ordered : List α) : List α :=
  match cursor with
  | none => ordered
  | some cursor =>
    (ordered.filter fun item => cursor < item) ++ ordered.filter fun item => item ≤ cursor

theorem filter_of_split {before after : List α} {item : α} (sorted : (before ++ item :: after).Pairwise (· < ·)) :
    ((before ++ item :: after).filter fun other => item < other) = after ∧
      ((before ++ item :: after).filter fun other => other ≤ item) = before ++ [item] := by
  obtain ⟨_, later, earlier⟩ := List.pairwise_append.mp sorted
  have above := (List.pairwise_cons.mp later).1
  have below : ∀ other ∈ before, other < item := fun other inBefore =>
    earlier other inBefore item List.mem_cons_self
  have noneAbove : before.filter (fun other => item < other) = [] :=
    List.filter_eq_nil_iff.mpr fun other inBefore => by simp [(below other inBefore).le]
  have allAbove : after.filter (fun other => item < other) = after :=
    List.filter_eq_self.mpr fun other inAfter => by simp [above other inAfter]
  have allBelow : before.filter (fun other => other ≤ item) = before :=
    List.filter_eq_self.mpr fun other inBefore => by simp [(below other inBefore).le]
  have noneBelow : after.filter (fun other => other ≤ item) = [] :=
    List.filter_eq_nil_iff.mpr fun other inAfter => by simp [above other inAfter]
  constructor
  · simp [noneAbove, allAbove]
  · simp [allBelow, noneBelow]

theorem ring_splits (cursor : Option α) {ordered : List α} (sorted : ordered.Pairwise (· < ·)) :
    ∃ low high, ordered = low ++ high ∧ ring cursor ordered = high ++ low := by
  cases cursor with
  | none => exact ⟨[], ordered, rfl, (List.append_nil _).symm⟩
  | some cursor =>
    refine ⟨ordered.filter fun item => item ≤ cursor, ordered.filter fun item => cursor < item, ?_, rfl⟩
    induction ordered with
    | nil => rfl
    | cons first rest ih =>
      obtain ⟨above, later⟩ := List.pairwise_cons.mp sorted
      rcases le_or_gt first cursor with upTo | behind
      · have split := ih later
        simp only [List.filter_cons, upTo, decide_true, if_true, not_lt.mpr upTo, decide_false,
          Bool.false_eq_true, if_false, List.cons_append, ← split]
      · have none : rest.filter (fun item => item ≤ cursor) = [] :=
          List.filter_eq_nil_iff.mpr fun item inRest => by
            simp [behind.trans (above item inRest)]
        have all : rest.filter (fun item => cursor < item) = rest :=
          List.filter_eq_self.mpr fun item inRest => by
            simp [behind.trans (above item inRest)]
        simp [behind, not_le.mpr behind, none, all]

theorem ring_of_split {before after : List α} {item : α} (sorted : (before ++ item :: after).Pairwise (· < ·)) :
    ring (some item) (before ++ item :: after) = after ++ (before ++ [item]) := by
  obtain ⟨behind, upTo⟩ := filter_of_split sorted
  unfold ring
  dsimp only
  rw [behind, upTo]

theorem ring_some {low high front rest : List α} {item : α}
    (sorted : (low ++ high).Pairwise (· < ·)) (placed : high ++ low = front ++ item :: rest) :
    ring (some item) (low ++ high) = rest ++ (front ++ [item]) := by
  rcases List.append_eq_append_iff.mp placed with ⟨between, rfl, inLow⟩ | ⟨between, rfl, inHigh⟩
  · have shape : low ++ high = between ++ item :: (rest ++ high) := by
      rw [inLow, List.append_assoc, List.cons_append]
    rw [shape] at sorted ⊢
    rw [ring_of_split sorted]
    simp only [List.append_assoc]
  · cases between with
    | nil =>
      have shape : low ++ (front ++ []) = [] ++ item :: (rest ++ front) := by
        rw [List.nil_append] at inHigh
        rw [← inHigh, List.append_nil, List.nil_append, List.cons_append]
      rw [shape] at sorted ⊢
      rw [ring_of_split sorted]
      simp only [List.nil_append, List.append_assoc]
    | cons first between =>
      obtain ⟨rfl, rfl⟩ := List.cons.inj inHigh
      have shape : low ++ (front ++ item :: between) = (low ++ front) ++ item :: between :=
        (List.append_assoc _ _ _).symm
      rw [shape] at sorted ⊢
      rw [ring_of_split sorted]
      simp only [List.append_eq, List.append_assoc]

theorem ring_after_batch {cursor : Option α} {ordered : List α} {limit : Nat}
    (sorted : ordered.Pairwise (· < ·)) (positive : 0 < limit) :
    ring ((ring cursor ordered).take limit).getLast? ordered =
      (ring cursor ordered).drop limit ++ (ring cursor ordered).take limit := by
  obtain ⟨low, high, rfl, turned⟩ := ring_splits cursor sorted
  rw [turned]
  rcases List.eq_nil_or_concat ((high ++ low).take limit) with none | ⟨front, item, batch⟩
  · have empty : high ++ low = [] := by
      cases items : high ++ low with
      | nil => rfl
      | cons first rest =>
        rw [items, List.take_cons positive] at none
        cases none
    obtain ⟨rfl, rfl⟩ := List.append_eq_nil_iff.mp empty
    simp [ring]
  · rw [List.concat_eq_append] at batch
    have placed : high ++ low = front ++ item :: (high ++ low).drop limit := by
      calc high ++ low = (high ++ low).take limit ++ (high ++ low).drop limit :=
            (List.take_append_drop limit _).symm
        _ = front ++ item :: (high ++ low).drop limit := by rw [batch, List.append_assoc]; rfl
    rw [batch, List.getLast?_append, List.getLast?_singleton]
    exact ring_some sorted placed

theorem ring_perm (cursor : Option α) {ordered : List α} (sorted : ordered.Pairwise (· < ·)) :
    (ring cursor ordered).Perm ordered := by
  obtain ⟨low, high, rfl, turned⟩ := ring_splits cursor sorted
  rw [turned]
  exact List.perm_append_comm

end Order

def turns (limit : Nat) : Nat → List α → List (List α)
  | 0, _ => []
  | count + 1, items => items.take limit :: turns limit count (items.drop limit ++ items.take limit)

theorem mem_batch {limit count : Nat} {items batch : List α} (inTurns : batch ∈ turns limit count items) :
    ∃ ring : List α, ring.Perm items ∧ batch = ring.take limit := by
  induction count generalizing items with
  | zero => cases inTurns
  | succ count ih =>
    rcases List.mem_cons.mp inTurns with rfl | later
    · exact ⟨items, List.Perm.refl _, rfl⟩
    · obtain ⟨ring, same, isBatch⟩ := ih later
      refine ⟨ring, same.trans ?_, isBatch⟩
      calc (items.drop limit ++ items.take limit).Perm (items.take limit ++ items.drop limit) :=
            List.perm_append_comm
        _ = items := List.take_append_drop limit items

theorem served {limit count : Nat} {items : List α} {item : α}
    (inItems : item ∈ items.take (count * limit)) : ∃ batch ∈ turns limit count items, item ∈ batch := by
  induction count generalizing items with
  | zero =>
    rw [Nat.zero_mul, List.take_zero] at inItems
    cases inItems
  | succ count ih =>
    have enough : (count + 1) * limit = limit + count * limit := by ring
    rw [enough, List.take_add, List.mem_append] at inItems
    rcases inItems with first | later
    · exact ⟨_, List.mem_cons_self, first⟩
    · have inNext : item ∈ (items.drop limit ++ items.take limit).take (count * limit) := by
        rw [List.take_append, List.mem_append]
        exact .inl later
      obtain ⟨batch, inTurns, inBatch⟩ := ih inNext
      exact ⟨batch, List.mem_cons_of_mem _ inTurns, inBatch⟩

theorem length_turns (limit count : Nat) (items : List α) : (turns limit count items).length = count := by
  induction count generalizing items with
  | zero => rfl
  | succ count ih => simp [turns, ih]

end Turns
