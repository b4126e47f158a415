import Mathlib.Algebra.GroupWithZero.Nat

/-! # The first name that is not taken

A name that is taken gets a number behind it, and the next number while that is
taken too. The search ends: names whose numbers have equally many digits differ,
and among enough of them one is free.
-/

namespace NumberedText

section Search

variable {α : Type u} (name : Nat → α) (taken : List α)

/-- The search as it goes on: `current` is tried, then the names from `number` on. -/
inductive Searched : Nat → α → α → Prop where
  | free {number : Nat} {current : α} (free : current ∉ taken) : Searched number current current
  | next {number : Nat} {current found : α} (used : current ∈ taken)
      (rest : Searched (number + 1) (name number) found) : Searched number current found

def search [DecidableEq α] : Nat → Nat → α → α
  | 0, _, current => current
  | rounds + 1, number, current =>
    if current ∈ taken then search rounds (number + 1) (name number) else current

variable {name taken}

theorem Searched.not_taken {number : Nat} {current found : α}
    (searched : Searched name taken number current found) : found ∉ taken := by
  induction searched with
  | free free => exact free
  | next _ _ ih => exact ih

theorem searched_search [DecidableEq α] {rounds number : Nat} {current : α}
    (reached : current ∉ taken ∨ ∃ n, number ≤ n ∧ n < number + rounds ∧ name n ∉ taken) :
    Searched name taken number current (search name taken rounds number current) := by
  induction rounds generalizing number current with
  | zero =>
    rcases reached with free | ⟨n, later, earlier, -⟩
    · exact .free free
    · omega
  | succ rounds ih =>
    unfold search
    split
    · rename_i used
      refine .next used (ih ?_)
      rcases reached with free | ⟨n, later, earlier, free⟩
      · exact absurd used free
      · by_cases now : n = number
        · exact .inl (now ▸ free)
        · exact .inr ⟨n, by omega, by omega, free⟩
    · rename_i free
      exact .free free

theorem exists_free {low : Nat} (distinct : ∀ a b, low ≤ a → a ≤ low + taken.length → low ≤ b →
    b ≤ low + taken.length → name a = name b → a = b) :
    ∃ n, low ≤ n ∧ n ≤ low + taken.length ∧ name n ∉ taken := by
  apply Classical.byContradiction
  intro none
  have used (n : Nat) (above : low ≤ n) (below : n ≤ low + taken.length) : name n ∈ taken := by
    apply Classical.byContradiction
    exact fun free => none ⟨n, above, below, free⟩
  have nodup : ((List.range' low (taken.length + 1)).map name).Nodup := by
    refine List.pairwise_map.mpr ((List.nodup_range' _).imp_of_mem ?_)
    intro a b inA inB apart same
    rw [List.mem_range'_1] at inA inB
    exact apart (distinct a b inA.1 (by omega) inB.1 (by omega) same)
  have subset : (List.range' low (taken.length + 1)).map name ⊆ taken := by
    intro text inNames
    obtain ⟨n, inRange, rfl⟩ := List.mem_map.mp inNames
    rw [List.mem_range'_1] at inRange
    exact used n inRange.1 (by omega)
  have counted := nodup.length_le_of_subset subset
  rw [List.length_map, List.length_range'] at counted
  omega

end Search

section Digits

theorem repr_injective {a b : Nat} (same : a.repr = b.repr) : a = b := by
  have digits : Nat.toDigits 10 a = Nat.toDigits 10 b := by
    rw [← Nat.toList_repr, ← Nat.toList_repr, same]
  rw [← @Nat.ofDigitChars_ten_toDigits a, ← @Nat.ofDigitChars_ten_toDigits b, digits]

/-- The numbers from a power of ten up to the next have one digit more than its exponent. -/
theorem length_repr_eq {digits n : Nat} (positive : 0 < digits) (above : 10 ^ digits ≤ n)
    (below : n < 10 ^ (digits + 1)) : n.repr.length = digits + 1 := by
  have most := (Nat.length_repr_le_iff (Nat.succ_pos digits)).mpr below
  have least := mt (Nat.length_repr_le_iff positive).mp (Nat.not_lt.mpr above)
  omega

theorem exists_power (n : Nat) : ∃ digits, n < 10 ^ digits ∧ 10 ^ digits ≤ 10 * n + 10 := by
  induction n with
  | zero => exact ⟨0, by decide, by decide⟩
  | succ n ih =>
    obtain ⟨digits, above, close⟩ := ih
    by_cases enough : n + 1 < 10 ^ digits
    · exact ⟨digits, enough, by omega⟩
    · refine ⟨digits + 1, ?_, ?_⟩
      all_goals
        rw [Nat.pow_succ]
        omega

end Digits

variable {head : Nat → String} {taken : List String}

/-- A name with its number: what stands before depends on the number of digits only. -/
def numbered (head : Nat → String) (number : Nat) : String :=
  head number.repr.length ++ number.repr

theorem numbered_injective {a b : Nat} (digits : a.repr.length = b.repr.length)
    (same : numbered head a = numbered head b) : a = b := by
  have texts := congrArg String.toList same
  rw [numbered, numbered, digits, String.toList_append, String.toList_append] at texts
  exact repr_injective (String.toList_inj.mp (List.append_cancel_left texts))

/-- Rounds enough to find a free name: eleven for each one that is taken, and twenty. -/
def enoughRounds (taken : List String) : Nat :=
  11 * taken.length + 20

theorem exists_free_numbered (head : Nat → String) (taken : List String) :
    ∃ n, 2 ≤ n ∧ n < 2 + enoughRounds taken ∧ numbered head n ∉ taken := by
  obtain ⟨digits, above, close⟩ := exists_power (taken.length + 1)
  have positive : 0 < digits := by
    cases digits with
    | zero => simp at above
    | succ digits => exact Nat.succ_pos digits
  have next : 10 ^ (digits + 1) = 10 ^ digits * 10 := Nat.pow_succ 10 digits
  have distinct : ∀ a b, 10 ^ digits ≤ a → a ≤ 10 ^ digits + taken.length → 10 ^ digits ≤ b →
      b ≤ 10 ^ digits + taken.length → numbered head a = numbered head b → a = b := by
    intro a b aboveA belowA aboveB belowB same
    have lengthA := length_repr_eq positive aboveA (by omega)
    have lengthB := length_repr_eq positive aboveB (by omega)
    exact numbered_injective (lengthA.trans lengthB.symm) same
  obtain ⟨n, least, most, free⟩ := exists_free distinct
  exact ⟨n, by omega, by unfold enoughRounds; omega, free⟩

theorem searched_numbered (head : Nat → String) (taken : List String) (wanted : String) :
    Searched (numbered head) taken 2 wanted (search (numbered head) taken (enoughRounds taken) 2 wanted) :=
  searched_search (.inr (exists_free_numbered head taken))

end NumberedText
