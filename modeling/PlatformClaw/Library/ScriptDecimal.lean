import PlatformClaw.Library.ScriptJson

/-! # Numbers as texts

A script writes a finite number with the fewest digits that tell it from all others, so a number is
known by these digits and the place of its point. What is written tells both.
-/

/-- A finite number by its shortest digits: `significand` times a power of ten. Zero has one sign. -/
structure ScriptDecimal where
  negative : Bool
  significand : Nat
  exponent : Int
  shortest : significand % 10 ≠ 0 ∨ (significand = 0 ∧ exponent = 0 ∧ negative = false)
deriving DecidableEq

namespace ScriptDecimal

open ScriptJson (natural isDigit_natural natural_ne_nil head?_natural)

/-- The place of the point, counted from the first digit. -/
def point (number : ScriptDecimal) : Int :=
  (natural number.significand).length + number.exponent

def exponentText (exponent : Int) : List Char :=
  (if exponent < 0 then '-' else '+') :: natural exponent.natAbs

/-- `Number::toString` for digits and a point. -/
def writeDigits (digits : List Char) (point : Int) : List Char :=
  if digits.length ≤ point ∧ point ≤ 21 then
    digits ++ List.replicate (point.toNat - digits.length) '0'
  else if 0 < point ∧ point ≤ 21 then
    digits.take point.toNat ++ '.' :: digits.drop point.toNat
  else if -6 < point ∧ point ≤ 0 then
    '0' :: '.' :: (List.replicate (-point).toNat '0' ++ digits)
  else if digits.length = 1 then digits ++ 'e' :: exponentText (point - 1)
  else digits.take 1 ++ '.' :: (digits.drop 1 ++ 'e' :: exponentText (point - 1))

def unsigned (number : ScriptDecimal) : List Char :=
  if number.significand = 0 then ['0']
  else writeDigits (natural number.significand) number.point

/-- `String(number)`, and `JSON.stringify(number)`. -/
def text (number : ScriptDecimal) : List Char :=
  if number.negative then '-' :: number.unsigned else number.unsigned

/-- Digits that begin and end with one that counts. -/
structure Digits (digits : List Char) : Prop where
  all : ∀ c ∈ digits, c.isDigit = true
  nonempty : digits ≠ []
  first : digits.head? ≠ some '0'
  last : digits.getLast? ≠ some '0'

theorem natural_concat {number : Nat} (large : 10 ≤ number) :
    natural number = natural (number / 10) ++ [(number % 10).digitChar] :=
  Nat.toDigits_of_base_le (by decide) large

theorem digits_natural {number : Nat} (shortest : number % 10 ≠ 0) : Digits (natural number) where
  all _ inDigits := isDigit_natural inDigits
  nonempty := natural_ne_nil number
  first := head?_natural (by omega)
  last := by
    have notZero : ∀ digit < 10, digit ≠ 0 → Nat.digitChar digit ≠ '0' := by decide
    have different := notZero (number % 10) (Nat.mod_lt _ (by decide)) shortest
    rcases Nat.lt_or_ge number 10 with small | large
    · have one : natural number = [number.digitChar] := Nat.toDigits_of_lt_base small
      rw [Nat.mod_eq_of_lt small] at different
      simp [one, different]
    · simp [natural_concat large, different]

theorem natural_inj {a b : Nat} (same : natural a = natural b) : a = b := by
  have back := congrArg (Nat.ofDigitChars 10 · 0) same
  simpa [natural] using back

theorem exponentText_inj {a b : Int} (same : exponentText a = exponentText b) : a = b := by
  unfold exponentText at same
  obtain ⟨sign, digits⟩ := List.cons.inj same
  have absolute := natural_inj digits
  split at sign
  · split at sign
    · omega
    · cases sign
  · split at sign
    · cases sign
    · omega

def counted (text : List Char) : List Char :=
  (((text.filter Char.isDigit).dropWhile (· = '0')).reverse.dropWhile (· = '0')).reverse

theorem counted_of_filter {text digits : List Char} (isDigits : Digits digits) {before after : Nat}
    (same : text.filter Char.isDigit =
      List.replicate before '0' ++ (digits ++ List.replicate after '0')) : counted text = digits := by
  have skips : ∀ (count : Nat) (rest : List Char), rest.head? ≠ some '0' →
      (List.replicate count '0' ++ rest).dropWhile (· = '0') = rest := by
    intro count rest plain
    induction count with
    | zero =>
      cases rest with
      | nil => rfl
      | cons c later =>
        have other : c ≠ '0' := fun zero => plain (congrArg Option.some zero)
        simp [other]
    | succ count ih => simpa [List.replicate_succ] using ih
  have first : (digits ++ List.replicate after '0').head? ≠ some '0' := by
    cases shape : digits with
    | nil => exact absurd shape isDigits.nonempty
    | cons c later =>
      have plain := isDigits.first
      rw [shape] at plain
      exact plain
  have last : digits.reverse.head? ≠ some '0' := by
    rw [List.head?_reverse]
    exact isDigits.last
  rw [counted, same, skips _ _ first, List.reverse_append, List.reverse_replicate, skips _ _ last,
    List.reverse_reverse]

theorem filter_digits {digits : List Char} (all : ∀ c ∈ digits, c.isDigit = true) :
    digits.filter Char.isDigit = digits := List.filter_eq_self.mpr all

def mantissa (text : List Char) : List Char := text.takeWhile (· ≠ 'e')

theorem takeWhile_append_of_all {p : Char → Bool} {before after : List Char}
    (all : ∀ c ∈ before, p c = true) (stop : after = [] ∨ ∃ c rest, after = c :: rest ∧ p c = false) :
    (before ++ after).takeWhile p = before ∧ (before ++ after).dropWhile p = after := by
  induction before with
  | nil =>
    rcases stop with rfl | ⟨c, rest, rfl, plain⟩
    · exact ⟨rfl, rfl⟩
    · simp [plain]
  | cons c rest ih =>
    obtain ⟨first, later⟩ := List.forall_mem_cons.mp all
    simp [first, ih later]

theorem ne_of_isDigit {c other : Char} (digit : c.isDigit = true) (plain : other.isDigit = false) : c ≠ other := by
  rintro rfl
  cases digit.symm.trans plain

theorem isDigit_zeros (count : Nat) : ∀ c ∈ List.replicate count '0', c.isDigit = true := by
  intro c inZeros
  rw [(List.mem_replicate.mp inZeros).2]
  rfl

/-- What a number is written as: digits with at most one point, then the exponent if there is one. -/
structure Written (digits : List Char) (point : Int) (front back : List Char) : Prop where
  noExponent : ∀ c ∈ front, c ≠ 'e'
  digits : counted front = digits
  exponent : back = [] ∨ back = 'e' :: exponentText (point - 1)

def placeOfPoint (digits text : List Char) : Int :=
  if '.' ∈ text then
    if text.head? = some '0' then 2 + (digits.length : Int) - text.length
    else (text.takeWhile (· ≠ '.')).length
  else text.length

section Formats

variable {digits : List Char} (isDigits : Digits digits)
include isDigits

theorem Digits.length_pos : 0 < digits.length := List.length_pos_iff.mpr isDigits.nonempty

theorem Digits.noE {text : List Char} (digitsOrDot : ∀ c ∈ text, c ∈ digits ∨ c = '.' ∨ c = '0') :
    ∀ c ∈ text, c ≠ 'e' := by
  intro c inText
  rcases digitsOrDot c inText with digit | rfl | rfl
  · exact ne_of_isDigit (isDigits.all c digit) rfl
  · decide
  · decide

theorem Digits.filter_split (count : Nat) :
    (digits.take count ++ '.' :: digits.drop count).filter Char.isDigit = digits := by
  have dot : Char.isDigit '.' = false := rfl
  rw [List.filter_append, List.filter_cons, dot, if_neg Bool.false_ne_true, ← List.filter_append,
    List.take_append_drop]
  exact List.filter_eq_self.mpr isDigits.all

theorem Digits.counted_split (count : Nat) : counted (digits.take count ++ '.' :: digits.drop count) = digits := by
  apply @counted_of_filter _ _ isDigits 0 0
  rw [isDigits.filter_split count]
  simp

theorem Digits.noE_split (count : Nat) : ∀ c ∈ digits.take count ++ '.' :: digits.drop count, c ≠ 'e' := by
  apply isDigits.noE
  intro c inText
  rcases List.mem_append.mp inText with before | after
  · exact .inl (List.mem_of_mem_take before)
  · rcases List.mem_cons.mp after with rfl | later
    · exact .inr (.inl rfl)
    · exact .inl (List.mem_of_mem_drop later)

theorem Digits.written_whole (point : Int) (zeros : Nat) :
    Written digits point (digits ++ List.replicate zeros '0') [] where
  noExponent := by
    apply isDigits.noE
    intro c inText
    rcases List.mem_append.mp inText with digit | zero
    · exact .inl digit
    · exact .inr (.inr (List.mem_replicate.mp zero).2)
  digits := by
    apply @counted_of_filter _ _ isDigits 0 zeros
    rw [List.filter_append, filter_digits isDigits.all, filter_digits (isDigit_zeros zeros)]
    rfl
  exponent := .inl rfl

theorem Digits.written_small (point : Int) (zeros : Nat) :
    Written digits point ('0' :: '.' :: (List.replicate zeros '0' ++ digits)) [] where
  noExponent := by
    apply isDigits.noE
    intro c inText
    rcases List.mem_cons.mp inText with rfl | inText
    · exact .inr (.inr rfl)
    rcases List.mem_cons.mp inText with rfl | inText
    · exact .inr (.inl rfl)
    rcases List.mem_append.mp inText with zero | digit
    · exact .inr (.inr (List.mem_replicate.mp zero).2)
    · exact .inl digit
  digits := by
    apply @counted_of_filter _ _ isDigits (zeros + 1) 0
    have zero : Char.isDigit '0' = true := rfl
    have dot : Char.isDigit '.' = false := rfl
    rw [List.filter_cons, zero, if_pos rfl, List.filter_cons, dot, if_neg Bool.false_ne_true,
      List.filter_append, filter_digits isDigits.all, filter_digits (isDigit_zeros zeros)]
    simp [List.replicate_succ]
  exponent := .inl rfl

theorem Digits.place_whole (zeros : Nat) :
    placeOfPoint digits (digits ++ List.replicate zeros '0') = digits.length + zeros := by
  have noDot : '.' ∉ digits ++ List.replicate zeros '0' := by
    intro inText
    rcases List.mem_append.mp inText with digit | zero
    · exact ne_of_isDigit (isDigits.all _ digit) rfl rfl
    · exact absurd (List.mem_replicate.mp zero).2 (by decide)
  rw [placeOfPoint, if_neg noDot]
  simp

theorem Digits.place_split {count : Nat} (some : 0 < count) (less : count < digits.length) :
    placeOfPoint digits (digits.take count ++ '.' :: digits.drop count) = count := by
  have noDot : ∀ c ∈ digits.take count, decide (c ≠ '.') = true := fun c inTake =>
    decide_eq_true (ne_of_isDigit (isDigits.all c (List.mem_of_mem_take inTake)) rfl)
  have taken : (digits.take count ++ '.' :: digits.drop count).takeWhile (· ≠ '.') = digits.take count :=
    (takeWhile_append_of_all noDot (.inr ⟨'.', _, rfl, rfl⟩)).1
  have first : (digits.take count ++ '.' :: digits.drop count).head? ≠ .some '0' := by
    cases shape : digits with
    | nil => exact absurd shape isDigits.nonempty
    | cons c later =>
      have plain := isDigits.first
      rw [shape] at plain
      cases count with
      | zero => omega
      | succ count => exact plain
  rw [placeOfPoint, if_pos (by simp), if_neg first, taken, List.length_take]
  omega

omit isDigits in
theorem place_small (zeros : Nat) :
    placeOfPoint digits ('0' :: '.' :: (List.replicate zeros '0' ++ digits)) = -(zeros : Int) := by
  rw [placeOfPoint, if_pos (by simp), if_pos List.head?_cons]
  simp only [List.length_cons, List.length_append, List.length_replicate]
  omega

theorem Digits.written (point : Int) :
    ∃ front back, writeDigits digits point = front ++ back ∧ Written digits point front back ∧
      (back = [] → point = placeOfPoint digits front) := by
  have some := isDigits.length_pos
  unfold writeDigits
  split
  · refine ⟨_, [], (List.append_nil _).symm, isDigits.written_whole point _, fun _ => ?_⟩
    rw [isDigits.place_whole]
    omega
  split
  · refine ⟨_, [], (List.append_nil _).symm, ⟨isDigits.noE_split _, isDigits.counted_split _, .inl rfl⟩,
      fun _ => ?_⟩
    rw [isDigits.place_split (by omega) (by omega)]
    omega
  split
  · refine ⟨_, [], (List.append_nil _).symm, isDigits.written_small point _, fun _ => ?_⟩
    rw [place_small]
    omega
  split
  · have same := isDigits.written_whole point 0
    rw [List.replicate_zero, List.append_nil] at same
    exact ⟨digits, _, rfl, ⟨same.noExponent, same.digits, .inr rfl⟩, fun none => (by cases none)⟩
  · refine ⟨digits.take 1 ++ '.' :: digits.drop 1, 'e' :: exponentText (point - 1), by simp,
      ⟨isDigits.noE_split 1, isDigits.counted_split 1, .inr rfl⟩, fun none => (by cases none)⟩

end Formats

theorem writeDigits_inj {digits others : List Char} {point place : Int} (isDigits : Digits digits)
    (isOthers : Digits others) (same : writeDigits digits point = writeDigits others place) :
    digits = others ∧ point = place := by
  obtain ⟨front, back, text, written, placed⟩ := isDigits.written point
  obtain ⟨front', back', text', written', placed'⟩ := isOthers.written place
  have cut : ∀ {digits : List Char} {point : Int} {front back : List Char},
      Written digits point front back → (front ++ back).takeWhile (· ≠ 'e') = front ∧
        (front ++ back).dropWhile (· ≠ 'e') = back := by
    intro digits point front back written
    apply takeWhile_append_of_all fun c inFront => decide_eq_true (written.noExponent c inFront)
    rcases written.exponent with none | some
    · exact .inl none
    · exact .inr ⟨'e', _, some, rfl⟩
  have both : front ++ back = front' ++ back' := by rw [← text, ← text', same]
  have fronts : front = front' := by rw [← (cut written).1, both, (cut written').1]
  have backs : back = back' := by rw [← (cut written).2, both, (cut written').2]
  have sameDigits : digits = others := by rw [← written.digits, ← written'.digits, fronts]
  refine ⟨sameDigits, ?_⟩
  rcases written.exponent with none | some
  · rw [placed none, placed' (backs ▸ none), fronts, sameDigits]
  · rcases written'.exponent with none' | some'
    · rw [backs, none'] at some
      cases some
    · have exponents := exponentText_inj (List.cons.inj (some.symm.trans (backs.trans some'))).2
      omega

/-- Two numbers that are written alike are the same. -/
theorem unsigned_inj {a b : ScriptDecimal} (same : a.unsigned = b.unsigned) :
    a.significand = b.significand ∧ a.exponent = b.exponent := by
  have zero : ∀ {number : ScriptDecimal}, number.significand ≠ 0 → number.unsigned ≠ ['0'] := by
    intro number some isZero
    have isDigits := digits_natural (number.shortest.resolve_right fun none => some none.1)
    rw [unsigned, if_neg some] at isZero
    obtain ⟨front, back, text, written, placed⟩ := isDigits.written number.point
    rw [isZero] at text
    have long := isDigits.length_pos
    have counts : counted ['0'] = [] := by decide
    have fronts : front = ['0'] := by
      rcases List.append_eq_singleton_iff.mp text.symm with ⟨rfl, _⟩ | ⟨rfl, _⟩
      · have none := written.digits
        rw [← none] at long
        simp [counted] at long
      · rfl
    rw [← written.digits, fronts, counts] at long
    cases long
  by_cases none : a.significand = 0
  · by_cases none' : b.significand = 0
    · have first := a.shortest.resolve_left (by rw [none]; decide)
      have second := b.shortest.resolve_left (by rw [none']; decide)
      exact ⟨none.trans none'.symm, first.2.1.trans second.2.1.symm⟩
    · refine absurd ?_ (zero none')
      rw [← same, unsigned, if_pos none]
  · by_cases none' : b.significand = 0
    · refine absurd ?_ (zero none)
      rw [same, unsigned, if_pos none']
    · have first := digits_natural (a.shortest.resolve_right fun zero => none zero.1)
      have second := digits_natural (b.shortest.resolve_right fun zero => none' zero.1)
      rw [unsigned, unsigned, if_neg none, if_neg none'] at same
      obtain ⟨digits, points⟩ := writeDigits_inj first second same
      refine ⟨natural_inj digits, ?_⟩
      unfold point at points
      rw [digits] at points
      omega

def isNumberCharacter (c : Char) : Bool :=
  c.isDigit || c == '-' || c == '.' || c == 'e' || c == '+'

theorem isNumberCharacter_of_isDigit {c : Char} (digit : c.isDigit = true) : isNumberCharacter c = true := by
  simp [isNumberCharacter, digit]

theorem isNumberCharacter_exponentText (exponent : Int) :
    ∀ c ∈ exponentText exponent, isNumberCharacter c = true := by
  intro c inText
  rcases List.mem_cons.mp inText with rfl | digit
  · split <;> rfl
  · exact isNumberCharacter_of_isDigit (isDigit_natural digit)

theorem isNumberCharacter_writeDigits {digits : List Char} (all : ∀ c ∈ digits, c.isDigit = true) (point : Int) :
    ∀ c ∈ writeDigits digits point, isNumberCharacter c = true := by
  have digit : ∀ c ∈ digits, isNumberCharacter c = true := fun c inDigits =>
    isNumberCharacter_of_isDigit (all c inDigits)
  have zero : ∀ count, ∀ c ∈ List.replicate count '0', isNumberCharacter c = true := fun count c inZeros =>
    isNumberCharacter_of_isDigit (isDigit_zeros count c inZeros)
  intro c inText
  unfold writeDigits at inText
  split at inText
  · exact (List.mem_append.mp inText).elim (digit c) (zero _ c)
  split at inText
  · rcases List.mem_append.mp inText with before | after
    · exact digit c (List.mem_of_mem_take before)
    · rcases List.mem_cons.mp after with rfl | later
      · rfl
      · exact digit c (List.mem_of_mem_drop later)
  split at inText
  · rcases List.mem_cons.mp inText with rfl | inText
    · rfl
    rcases List.mem_cons.mp inText with rfl | inText
    · rfl
    exact (List.mem_append.mp inText).elim (zero _ c) (digit c)
  split at inText
  · rcases List.mem_append.mp inText with before | after
    · exact digit c before
    · rcases List.mem_cons.mp after with rfl | later
      · rfl
      · exact isNumberCharacter_exponentText _ c later
  · rcases List.mem_append.mp inText with before | after
    · exact digit c (List.mem_of_mem_take before)
    · rcases List.mem_cons.mp after with rfl | after
      · rfl
      rcases List.mem_append.mp after with later | after
      · exact digit c (List.mem_of_mem_drop later)
      rcases List.mem_cons.mp after with rfl | later
      · rfl
      · exact isNumberCharacter_exponentText _ c later

theorem head?_unsigned (number : ScriptDecimal) : ∃ c, number.unsigned.head? = some c ∧ c.isDigit = true := by
  unfold unsigned
  split
  · exact ⟨'0', rfl, rfl⟩
  rename_i some
  have isDigits := digits_natural (number.shortest.resolve_right fun zero => some zero.1)
  cases shape : natural number.significand with
  | nil => exact absurd shape isDigits.nonempty
  | cons first rest =>
    have digit : first.isDigit = true := isDigits.all first (by rw [shape]; exact List.mem_cons_self)
    have long : 0 < (first :: rest).length := Nat.succ_pos _
    unfold writeDigits
    split
    · exact ⟨first, rfl, digit⟩
    split
    · rename_i inside
      obtain ⟨count, isCount⟩ : ∃ count, number.point.toNat = count + 1 :=
        ⟨number.point.toNat - 1, by omega⟩
      rw [isCount]
      exact ⟨first, rfl, digit⟩
    split
    · exact ⟨'0', rfl, rfl⟩
    split
    · exact ⟨first, rfl, digit⟩
    · exact ⟨first, rfl, digit⟩

theorem isNumberCharacter_text (number : ScriptDecimal) : ∀ c ∈ number.text, isNumberCharacter c = true := by
  have plain : ∀ c ∈ number.unsigned, isNumberCharacter c = true := by
    unfold unsigned
    split
    · intro c inZero
      rw [List.mem_singleton.mp inZero]
      rfl
    · exact isNumberCharacter_writeDigits (fun _ digit => isDigit_natural digit) _
  intro c inText
  unfold text at inText
  split at inText
  · rcases List.mem_cons.mp inText with rfl | inText
    · rfl
    · exact plain c inText
  · exact plain c inText

theorem head?_text (number : ScriptDecimal) : ∃ c, number.text.head? = some c ∧ isNumberCharacter c = true := by
  cases shape : number.text with
  | nil =>
    obtain ⟨c, first, _⟩ := head?_unsigned number
    unfold text at shape
    split at shape
    · cases shape
    · rw [shape] at first
      cases first
  | cons c rest =>
    refine ⟨c, rfl, isNumberCharacter_text number c ?_⟩
    rw [shape]
    exact List.mem_cons_self

theorem text_inj {a b : ScriptDecimal} (same : a.text = b.text) : a = b := by
  have sign : ∀ (number : ScriptDecimal) (rest : List Char), number.unsigned ≠ '-' :: rest := by
    intro number rest signed
    obtain ⟨c, first, digit⟩ := head?_unsigned number
    rw [signed] at first
    cases first
    cases digit
  have both : a.negative = b.negative ∧ a.unsigned = b.unsigned := by
    unfold text at same
    cases first : a.negative <;> cases second : b.negative
    · simpa [first, second] using same
    · rw [first, second] at same
      exact absurd same (sign a _)
    · rw [first, second] at same
      exact absurd same.symm (sign b _)
    · simpa [first, second] using same
  obtain ⟨negative, digits⟩ := both
  obtain ⟨significand, exponent⟩ := unsigned_inj digits
  cases a
  cases b
  cases negative
  cases significand
  cases exponent
  rfl

theorem text_append_inj {a b : ScriptDecimal} {rest later : List Char}
    (ends : ∀ c, rest.head? = some c → isNumberCharacter c = false)
    (ends' : ∀ c, later.head? = some c → isNumberCharacter c = false)
    (same : a.text ++ rest = b.text ++ later) : a = b ∧ rest = later := by
  have cut : ∀ (number : ScriptDecimal) (rest : List Char), (∀ c, rest.head? = some c → isNumberCharacter c = false) →
      (number.text ++ rest).takeWhile isNumberCharacter = number.text := by
    intro number rest ends
    refine (takeWhile_append_of_all (isNumberCharacter_text number) ?_).1
    cases rest with
    | nil => exact .inl rfl
    | cons c later => exact .inr ⟨c, later, rfl, ends c rfl⟩
  have texts : a.text = b.text := by
    rw [← cut a rest ends, same, cut b later ends']
  refine ⟨text_inj texts, ?_⟩
  rw [texts] at same
  exact List.append_cancel_left same

end ScriptDecimal
