import PlatformClaw.Library.BoundedText

/-! # Comparing and sorting in a script

Texts are compared by code unit, and a comparison that may meet nothing puts
nothing last. Sorting by a comparison that tells all the items apart forgets the
order they came in.
-/

open Std

namespace ScriptString

/-- A code unit tells whether it is the first of a pair. -/
theorem charUnits_head_inj {a b : Char} {left right : List Nat}
    (same : charUnits a ++ left = charUnits b ++ right) : a = b ∧ left = right := by
  have scalarA := a.valid
  have scalarB := b.valid
  simp only [UInt32.isValidChar, Nat.isValidChar] at scalarA scalarB
  have numA : a.val.toNat = a.toNat := rfl
  have numB : b.val.toNat = b.toNat := rfl
  have inj : a.toNat = b.toNat → a = b := Char.toNat_inj.mp
  unfold charUnits at same
  split at same <;> split at same <;> simp only [List.cons_append, List.nil_append, List.cons.injEq] at same
  · exact ⟨inj same.1, same.2⟩
  · omega
  · omega
  · exact ⟨inj (by omega), same.2.2⟩

theorem codeUnits_inj {a b : String} (same : codeUnits a = codeUnits b) : a = b := by
  have chars : ∀ left right : List Char, left.flatMap charUnits = right.flatMap charUnits →
      left = right := by
    intro left
    induction left with
    | nil =>
      intro right same
      cases right with
      | nil => rfl
      | cons b right =>
        have positive := BoundedText.charUnits_pos b
        have lengths := congrArg List.length same
        simp only [List.flatMap_nil, List.flatMap_cons, List.length_append, List.length_nil]
          at lengths
        omega
    | cons a left ih =>
      intro right same
      cases right with
      | nil =>
        have positive := BoundedText.charUnits_pos a
        have lengths := congrArg List.length same
        simp only [List.flatMap_nil, List.flatMap_cons, List.length_append, List.length_nil]
          at lengths
        omega
      | cons b right =>
        obtain ⟨rfl, rest⟩ := charUnits_head_inj same
        rw [ih right rest]
  exact String.toList_inj.mp (chars _ _ same)

end ScriptString

namespace ScriptCompare

/-- `<` and `>` of two texts. -/
def text (left right : String) : Ordering :=
  compare (ScriptString.codeUnits left) (ScriptString.codeUnits right)

variable {α : Type} {cmp : α → α → Ordering}

/-- A comparison of what `f` reads. -/
def reading {β : Type} (f : β → α) (cmp : α → α → Ordering) (left right : β) : Ordering :=
  cmp (f left) (f right)

/-- Nothing comes after everything else. -/
def nothingLast (cmp : α → α → Ordering) : Option α → Option α → Ordering
  | none, none => .eq
  | none, some _ => .gt
  | some _, none => .lt
  | some left, some right => cmp left right

instance {β : Type} {f : β → α} [OrientedCmp cmp] : OrientedCmp (reading f cmp) where
  eq_swap {left right} := @OrientedCmp.eq_swap _ cmp _ (f left) (f right)

instance {β : Type} {f : β → α} [TransCmp cmp] : TransCmp (reading f cmp) where
  isLE_trans {a b c} := @TransCmp.isLE_trans _ cmp _ (f a) (f b) (f c)

instance : TransCmp text :=
  inferInstanceAs (TransCmp (reading ScriptString.codeUnits compare))

instance : LawfulEqCmp text where
  compare_self := ReflOrd.compare_self
  eq_of_compare same := ScriptString.codeUnits_inj (LawfulEqOrd.eq_of_compare same)

instance [OrientedCmp cmp] : OrientedCmp (nothingLast cmp) where
  eq_swap := by
    intro left right
    cases left <;> cases right
    · rfl
    · rfl
    · rfl
    · exact @OrientedCmp.eq_swap _ cmp _ _ _

instance [TransCmp cmp] : TransCmp (nothingLast cmp) where
  isLE_trans := by
    intro a b c below above
    cases c with
    | none => cases a <;> rfl
    | some c =>
      cases b with
      | none => cases above
      | some b =>
        cases a with
        | none => cases below
        | some a => exact @TransCmp.isLE_trans _ cmp _ a b c below above

theorem nothingLast_eq [LawfulEqCmp cmp] {left right : Option α}
    (same : nothingLast cmp left right = .eq) : left = right := by
  cases left <;> cases right
  · rfl
  · cases same
  · cases same
  · exact congrArg some (LawfulEqCmp.eq_of_compare same)

/-- `sort` with a comparison. -/
def sorted (cmp : α → α → Ordering) (items : List α) : List α :=
  items.mergeSort fun left right => (cmp left right).isLE

theorem sorted_perm (cmp : α → α → Ordering) (items : List α) : (sorted cmp items).Perm items :=
  List.mergeSort_perm _ _

theorem sorted_pairwise (cmp : α → α → Ordering) [TransCmp cmp] (items : List α) :
    (sorted cmp items).Pairwise fun left right => (cmp left right).isLE = true := by
  apply List.pairwise_mergeSort
  · intro a b c
    exact @TransCmp.isLE_trans _ cmp _ a b c
  · intro a b
    rw [@OrientedCmp.eq_swap _ cmp _ b a]
    cases cmp a b <;> rfl

theorem sorted_eq_of_perm [TransCmp cmp] {left right : List α} (same : left.Perm right)
    (apart : ∀ a ∈ left, ∀ b ∈ left, cmp a b = .eq → a = b) : sorted cmp left = sorted cmp right := by
  apply List.Perm.eq_of_pairwise _ (sorted_pairwise cmp left) (sorted_pairwise cmp right)
  · exact (sorted_perm cmp left).trans (same.trans (sorted_perm cmp right).symm)
  · intro a b inLeft inRight le ge
    apply apart a ((sorted_perm cmp left).mem_iff.mp inLeft) b
    · exact same.mem_iff.mpr ((sorted_perm cmp right).mem_iff.mp inRight)
    · exact OrientedCmp.isLE_antisymm le ge

end ScriptCompare
