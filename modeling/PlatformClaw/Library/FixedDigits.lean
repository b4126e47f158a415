import Mathlib.Algebra.Order.Ring.Nat
import Mathlib.Data.List.Induction
import Mathlib.Tactic.Ring

/-! # Numbers of a fixed width

A number is written with a fixed count of digits, the highest first. Numbers of one width are in the
order of their digits.
-/

namespace FixedDigits

variable {base : Nat}

/-- The last `width` digits of a number. -/
def digits (base : Nat) : Nat → Nat → List Nat
  | 0, _ => []
  | width + 1, number => digits base width (number / base) ++ [number % base]

/-- The number that digits stand for. -/
def value (base : Nat) (digits : List Nat) : Nat :=
  digits.foldl (fun number digit => number * base + digit) 0

theorem value_concat (digits : List Nat) (digit : Nat) :
    value base (digits ++ [digit]) = value base digits * base + digit := by
  simp [value]

@[simp] theorem length_digits (width number : Nat) : (digits base width number).length = width := by
  induction width generalizing number with
  | zero => rfl
  | succ width ih => simp [digits, ih]

theorem lt_of_mem_digits (positive : 0 < base) {width number digit : Nat}
    (inDigits : digit ∈ digits base width number) : digit < base := by
  induction width generalizing number with
  | zero => cases inDigits
  | succ width ih =>
    rw [digits, List.mem_append, List.mem_singleton] at inDigits
    rcases inDigits with higher | rfl
    · exact ih higher
    · exact Nat.mod_lt number positive

theorem value_digits {width number : Nat} (small : number < base ^ width) :
    value base (digits base width number) = number := by
  induction width generalizing number with
  | zero =>
    rw [Nat.pow_zero] at small
    exact (Nat.lt_one_iff.mp small).symm
  | succ width ih =>
    have higher : number / base < base ^ width :=
      Nat.div_lt_of_lt_mul (by rwa [Nat.mul_comm, ← Nat.pow_succ])
    rw [digits, value_concat, ih higher, Nat.mul_comm]
    exact Nat.div_add_mod number base

theorem value_lt {digits : List Nat} (all : ∀ digit ∈ digits, digit < base) :
    value base digits < base ^ digits.length := by
  induction digits using List.reverseRecOn with
  | nil => exact Nat.one_pos
  | append_singleton digits digit ih =>
    have first := ih fun other inDigits => all other (List.mem_append_left _ inDigits)
    have last := all digit (by simp)
    rw [value_concat, List.length_append, List.length_singleton, Nat.pow_succ]
    calc value base digits * base + digit < value base digits * base + base := by omega
      _ = (value base digits + 1) * base := by ring
      _ ≤ base ^ digits.length * base := Nat.mul_le_mul_right base first

section Order

variable {α : Type} [LT α]

theorem append_lt_append {left right : List α} (same : left.length = right.length)
    (less : left < right) (after later : List α) : left ++ after < right ++ later := by
  induction less with
  | nil => cases same
  | cons _ ih => exact .cons (ih (Nat.succ.inj same))
  | rel smaller => exact .rel smaller

theorem map_digits_lt {symbol : Nat → α} (positive : 0 < base)
    (ordered : ∀ {low high}, low < high → high < base → symbol low < symbol high) {width : Nat} :
    ∀ {low high : Nat}, low < high → high < base ^ width →
      (digits base width low).map symbol < (digits base width high).map symbol := by
  induction width with
  | zero =>
    intro low high less small
    rw [Nat.pow_zero] at small
    omega
  | succ width ih =>
    intro low high less small
    rw [digits, digits, List.map_append, List.map_append]
    have higher : high / base < base ^ width :=
      Nat.div_lt_of_lt_mul (by rwa [Nat.mul_comm, ← Nat.pow_succ])
    rcases Nat.lt_or_ge (low / base) (high / base) with before | after
    · exact append_lt_append (by simp) (ih before higher) _ _
    · have same : low / base = high / base :=
        Nat.le_antisymm (Nat.div_le_div_right (Nat.le_of_lt less)) after
      have last : low % base < high % base := by
        have lowParts := Nat.div_add_mod low base
        have highParts := Nat.div_add_mod high base
        rw [same] at lowParts
        omega
      rw [same]
      exact List.append_left_lt (.rel (ordered last (Nat.mod_lt high positive)))

end Order

theorem digits_append (high : Nat) {width low : Nat} (more : Nat) (small : low < base ^ width) :
    digits base (more + width) (high * base ^ width + low) = digits base more high ++ digits base width low := by
  induction width generalizing low with
  | zero =>
    rw [Nat.pow_zero] at small
    simp [digits, Nat.lt_one_iff.mp small]
  | succ width ih =>
    have positive : 0 < base := by
      rcases Nat.eq_zero_or_pos base with rfl | positive
      · simp at small
      · exact positive
    have lower : low / base < base ^ width :=
      Nat.div_lt_of_lt_mul (by rwa [Nat.mul_comm, ← Nat.pow_succ])
    have split : high * base ^ (width + 1) + low = low + base * (high * base ^ width) := by ring
    have quotient : (high * base ^ (width + 1) + low) / base = high * base ^ width + low / base := by
      rw [split, Nat.add_mul_div_left _ _ positive]
      omega
    have rest : (high * base ^ (width + 1) + low) % base = low % base := by
      rw [split, Nat.add_mul_mod_self_left]
    rw [← Nat.add_assoc, digits, quotient, rest, ih lower, digits, List.append_assoc]

end FixedDigits
