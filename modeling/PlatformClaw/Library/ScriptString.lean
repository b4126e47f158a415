/-! # Strings as a script sees them

A script string is a sequence of UTF-16 code units, and its own notion of white
space decides what trimming removes. Both are needed wherever validation looks
at the length of a text or asks whether it is blank. Scripts sort texts by code
unit, the database they write to by code point.
-/

namespace ScriptString

/-- A character outside the basic plane is a surrogate pair. -/
def charUnits (c : Char) : List Nat :=
  if c.toNat ≤ 0xFFFF then [c.toNat]
  else [0xD800 + (c.toNat - 0x10000) / 0x400, 0xDC00 + (c.toNat - 0x10000) % 0x400]

def codeUnits (text : String) : List Nat :=
  text.toList.flatMap charUnits

def codePoints (text : String) : List Nat :=
  text.toList.map Char.toNat

def length (text : String) : Nat :=
  (codeUnits text).length

theorem length_flatMap_ascii {text : List Char} (ascii : ∀ c ∈ text, c.toNat < 128) :
    (text.flatMap charUnits).length = text.length := by
  induction text with
  | nil => rfl
  | cons c rest ih =>
    have plain : charUnits c = [c.toNat] := by
      have := ascii c List.mem_cons_self
      exact if_pos (by omega)
    simpa [plain] using ih fun other inRest => ascii other (List.mem_cons_of_mem _ inRest)

/-- The code points a script treats as white space, line terminators included. -/
def isWhitespacePoint (point : Nat) : Bool :=
  (9 ≤ point && point ≤ 13) || point == 32 || point == 0xA0 || point == 0x1680 ||
    (0x2000 ≤ point && point ≤ 0x200A) || point == 0x2028 || point == 0x2029 ||
    point == 0x202F || point == 0x205F || point == 0x3000 || point == 0xFEFF

def isWhitespace (c : Char) : Bool :=
  isWhitespacePoint c.toNat

/-- Remove white space at both ends. -/
def trim (text : String) : String :=
  .ofList (((text.toList.dropWhile isWhitespace).reverse.dropWhile isWhitespace).reverse)

/-- Nothing but white space is left of the text. -/
def isBlank (text : String) : Bool :=
  text.toList.all isWhitespace

/-- Lexicographic order, a prefix before its extensions. -/
def upTo : List Nat → List Nat → Bool
  | [], _ => true
  | _ :: _, [] => false
  | a :: left, b :: right => decide (a < b) || decide (a = b) && upTo left right

theorem upTo_total (left right : List Nat) : upTo left right = true ∨ upTo right left = true := by
  induction left generalizing right with
  | nil => exact .inl (by cases right <;> rfl)
  | cons a left ih =>
    cases right with
    | nil => exact .inr rfl
    | cons b right =>
      simp only [upTo, Bool.or_eq_true, Bool.and_eq_true, decide_eq_true_eq]
      rcases Nat.lt_trichotomy a b with less | same | more
      · exact .inl (.inl less)
      · exact (ih right).imp (fun rest => .inr ⟨same, rest⟩) (fun rest => .inr ⟨same.symm, rest⟩)
      · exact .inr (.inl more)

theorem upTo_trans {left middle right : List Nat} (first : upTo left middle = true)
    (second : upTo middle right = true) : upTo left right = true := by
  induction left generalizing middle right with
  | nil => cases right <;> rfl
  | cons a left ih =>
    cases middle with
    | nil => cases first
    | cons b middle =>
      cases right with
      | nil => cases second
      | cons c right =>
        simp only [upTo, Bool.or_eq_true, Bool.and_eq_true, decide_eq_true_eq] at *
        rcases first with less | ⟨same, first⟩
        · exact .inl (by omega)
        · rcases second with less | ⟨same', second⟩
          · exact .inl (by omega)
          · exact .inr ⟨same.trans same', ih first second⟩

/-- `toSorted` without a comparison: by code unit. -/
def toSorted (texts : List String) : List String :=
  texts.mergeSort fun left right => upTo (codeUnits left) (codeUnits right)

theorem toSorted_pair (a b : String) :
    toSorted [a, b] = if upTo (codeUnits a) (codeUnits b) then [a, b] else [b, a] := by
  rw [toSorted, List.mergeSort]
  simp only [List.MergeSort.Internal.splitInTwo, List.length_cons, List.length_nil]
  simp [List.splitAt_eq, List.merge]

def joinChars (separator : Char) : List (List Char) → List Char
  | [] => []
  | [part] => part
  | part :: rest => part ++ separator :: joinChars separator rest

def splitChars (separator : Char) : List Char → List (List Char)
  | [] => [[]]
  | c :: rest =>
    if c = separator then [] :: splitChars separator rest
    else
      match splitChars separator rest with
      | [] => [[c]]
      | part :: others => (c :: part) :: others

def join (separator : Char) (parts : List String) : String :=
  .ofList (joinChars separator (parts.map String.toList))

def split (separator : Char) (text : String) : List String :=
  (splitChars separator text.toList).map String.ofList

variable {separator : Char}

theorem splitChars_ne_nil (text : List Char) : splitChars separator text ≠ [] := by
  cases text with
  | nil => exact List.cons_ne_nil _ _
  | cons c rest =>
    unfold splitChars
    split
    · exact List.cons_ne_nil _ _
    · split <;> exact List.cons_ne_nil _ _

theorem splitChars_append (left right : List Char) : splitChars separator (left ++ separator :: right) =
      splitChars separator left ++ splitChars separator right := by
  induction left with
  | nil => simp [splitChars]
  | cons c rest ih =>
    simp only [List.cons_append, splitChars, ih]
    split
    · rfl
    · cases parts : splitChars separator rest with
      | nil => exact absurd parts (splitChars_ne_nil rest)
      | cons part others => rfl

theorem splitChars_of_not_mem {text : List Char} (free : separator ∉ text) : splitChars separator text = [text] := by
  induction text with
  | nil => rfl
  | cons c rest ih =>
    simp only [List.mem_cons, not_or] at free
    rw [splitChars, if_neg (Ne.symm free.1), ih free.2]

theorem joinChars_splitChars (text : List Char) : joinChars separator (splitChars separator text) = text := by
  induction text with
  | nil => rfl
  | cons c rest ih =>
    rw [splitChars]
    cases parts : splitChars separator rest with
    | nil => exact absurd parts (splitChars_ne_nil rest)
    | cons part others =>
      rw [parts] at ih
      split
      · rename_i same
        rw [joinChars, ih, same]
        · rfl
        · exact List.cons_ne_nil _ _
      · cases others with
        | nil => rw [← ih]; rfl
        | cons next later => rw [← ih]; rfl

theorem split_join_pair {a b : String} (freeA : separator ∉ a.toList)
    (freeB : separator ∉ b.toList) : split separator (join separator [a, b]) = [a, b] := by
  simp [split, join, joinChars, splitChars_append, splitChars_of_not_mem freeA, splitChars_of_not_mem freeB]

theorem join_pair_inj {a b c d : String} (freeC : separator ∉ c.toList)
    (freeD : separator ∉ d.toList) (same : join separator [a, b] = join separator [c, d]) :
    a = c ∧ b = d := by
  have chars : a.toList ++ separator :: b.toList = c.toList ++ separator :: d.toList := by
    simpa [join, joinChars, String.toList_ofList] using congrArg String.toList same
  have parts := congrArg (splitChars separator) chars
  rw [splitChars_append, splitChars_append, splitChars_of_not_mem freeC, splitChars_of_not_mem freeD] at parts
  obtain ⟨first, leftParts⟩ : ∃ first, splitChars separator a.toList = [first] := by
    cases left : splitChars separator a.toList with
    | nil => exact absurd left (splitChars_ne_nil _)
    | cons first others =>
      cases others with
      | nil => exact ⟨first, rfl⟩
      | cons second later =>
        rw [left] at parts
        have rest := (List.cons.inj (List.cons.inj parts).2).2
        exact absurd (List.append_eq_nil_iff.mp rest).2 (splitChars_ne_nil _)
  rw [leftParts] at parts
  obtain ⟨rfl, rightParts⟩ := List.cons.inj parts
  have left := @joinChars_splitChars separator a.toList
  have right := @joinChars_splitChars separator b.toList
  rw [leftParts] at left
  rw [show splitChars separator b.toList = [d.toList] from rightParts] at right
  exact ⟨String.toList_inj.mp left.symm, String.toList_inj.mp right.symm⟩

end ScriptString
