import PlatformClaw.Library.ScriptString

/-! # Script strings as code units

Code that takes texts apart by position sees their UTF-16 code units, halves of
surrogate pairs included. Texts are lists of code units here, and the operations
are those of the language.
-/

namespace ScriptText

abbrev Text : Type := List Nat

/-- A text written in the program. -/
def lit (text : String) : Text := ScriptString.codeUnits text

def isWhitespace (unit : Nat) : Bool := ScriptString.isWhitespacePoint unit

/-- What the dot of a pattern does not match. -/
def isLineTerminator (unit : Nat) : Bool :=
  unit == 10 || unit == 13 || unit == 0x2028 || unit == 0x2029

def trimStart (text : Text) : Text := text.dropWhile isWhitespace

def trimEnd (text : Text) : Text := (text.reverse.dropWhile isWhitespace).reverse

def trim (text : Text) : Text := trimEnd (trimStart text)

def startsWith (text first : Text) : Bool := first.isPrefixOf text

def endsWith (text last : Text) : Bool := last.isSuffixOf text

def includes : Text → Text → Bool
  | [], part => part.isEmpty
  | text@(_ :: rest), part => part.isPrefixOf text || includes rest part

/-- `text.slice(1, -1)`. -/
def inner (text : Text) : Text := (text.drop 1).dropLast

def join (separator : Text) (parts : List Text) : Text := separator.intercalate parts

def isHighSurrogate (unit : Nat) : Bool := 0xD800 ≤ unit && unit ≤ 0xDBFF

def isLowSurrogate (unit : Nat) : Bool := 0xDC00 ≤ unit && unit ≤ 0xDFFF

/-- Half of a pair is written as the replacement character. -/
def unitBytes (unit : Nat) : Nat :=
  if unit < 0x80 then 1 else if unit < 0x800 then 2 else 3

/-- `Buffer.byteLength(text, "utf8")`. -/
def byteLength : Text → Nat
  | [] => 0
  | [unit] => unitBytes unit
  | high :: low :: rest =>
    if isHighSurrogate high && isLowSurrogate low then 4 + byteLength rest
    else unitBytes high + byteLength (low :: rest)

/-- Cut to a number of code units without cutting a pair in half. -/
def truncateUtf16Safe (text : Text) (limit : Nat) : Text :=
  if text.length ≤ limit then text
  else
    match (text.take limit).getLast?, (text.drop limit).head? with
    | some last, some next =>
      if isHighSurrogate last && isLowSurrogate next then text.take (limit - 1)
      else text.take limit
    | _, _ => text.take limit

def hexUnit (digit : Nat) : Nat :=
  if digit < 10 then '0'.toNat + digit else 'a'.toNat + (digit - 10)

def isDigit (unit : Nat) : Bool := '0'.toNat ≤ unit && unit ≤ '9'.toNat

/-- `Number` of a text of digits. -/
def digitsValue (digits : Text) : Nat :=
  digits.foldl (fun value digit => 10 * value + (digit - '0'.toNat)) 0

/-- `String` of a whole number. -/
def natural (number : Nat) : Text := (Nat.toDigits 10 number).map Char.toNat

theorem trimStart_suffix (text : Text) : trimStart text <:+ text :=
  List.dropWhile_suffix isWhitespace

theorem prefix_trimEnd (text : Text) : trimEnd text <+: text := by
  have shorter := List.reverse_prefix.mpr (List.dropWhile_suffix isWhitespace (l := text.reverse))
  rwa [List.reverse_reverse] at shorter

theorem length_trim_le (text : Text) : (trim text).length ≤ (trimStart text).length :=
  (prefix_trimEnd (trimStart text)).length_le

/-- A text that trimming leaves as long as it was begins without white space. -/
theorem trimStart_eq_self {text : Text} (kept : text.length ≤ (trim text).length) : trimStart text = text := by
  have start := length_trim_le text
  exact (trimStart_suffix text).eq_of_length (Nat.le_antisymm (trimStart_suffix text).length_le (by omega))

theorem trim_eq_self {text : Text} (kept : text.length ≤ (trim text).length) : trim text = text := by
  have start := trimStart_eq_self kept
  unfold trim at kept ⊢
  rw [start] at kept ⊢
  exact (prefix_trimEnd text).eq_of_length (Nat.le_antisymm (prefix_trimEnd text).length_le kept)

theorem trimStart_cons {unit : Nat} (plain : isWhitespace unit = false) (rest : Text) :
    trimStart (unit :: rest) = unit :: rest :=
  List.dropWhile_cons_of_neg (by simp [plain])

theorem trim_between {first last : Nat} (plainFirst : isWhitespace first = false)
    (plainLast : isWhitespace last = false) (text : Text) :
    trim (first :: (text ++ [last])) = first :: (text ++ [last]) := by
  unfold trim trimEnd
  rw [trimStart_cons plainFirst, ← List.cons_append, List.reverse_append, List.reverse_singleton,
    List.singleton_append, List.dropWhile_cons_of_neg (by simp [plainLast]), List.reverse_cons,
    List.reverse_reverse]

@[simp] theorem inner_between (first last : Nat) (text : Text) :
    inner (first :: (text ++ [last])) = text := by
  simp [inner]

theorem length_inner (text : Text) : (inner text).length = text.length - 2 := by
  simp only [inner, List.length_dropLast, List.length_drop]
  omega

/-- A unit inside a JSON string, half of a surrogate pair taken for a lone one. -/
def escapeUnit (unit : Nat) : Text :=
  if unit = '"'.toNat then lit "\\\""
  else if unit = '\\'.toNat then lit "\\\\"
  else if unit = 8 then lit "\\b"
  else if unit = 9 then lit "\\t"
  else if unit = 10 then lit "\\n"
  else if unit = 12 then lit "\\f"
  else if unit = 13 then lit "\\r"
  else if unit < 0x20 ∨ (0xD800 ≤ unit ∧ unit ≤ 0xDFFF) then
    lit "\\u" ++ [hexUnit (unit / 0x1000), hexUnit (unit / 0x100 % 16), hexUnit (unit / 16 % 16),
      hexUnit (unit % 16)]
  else [unit]

def escape : Text → Text
  | [] => []
  | [unit] => escapeUnit unit
  | high :: low :: rest =>
    if isHighSurrogate high && isLowSurrogate low then high :: low :: escape rest
    else escapeUnit high ++ escape (low :: rest)

def stringify (text : Text) : Text := '"'.toNat :: (escape text ++ ['"'.toNat])

/-- What a JSON string cannot carry as it is: quotes, backslashes, control characters. -/
def isEscaped (unit : Nat) : Bool := unit == '"'.toNat || unit == '\\'.toNat || unit < 0x20

/-- Something of the text has to be escaped: such a character, or half of a surrogate pair. -/
def needsEscape : Text → Bool
  | [] => false
  | [unit] => isEscaped unit || isHighSurrogate unit || isLowSurrogate unit
  | high :: low :: rest =>
    if isHighSurrogate high && isLowSurrogate low then needsEscape rest
    else isEscaped high || isHighSurrogate high || isLowSurrogate high || needsEscape (low :: rest)

theorem escapeUnit_cases (unit : Nat) :
    (escapeUnit unit = [unit] ∧ (isEscaped unit || isHighSurrogate unit || isLowSurrogate unit) = false)
      ∨ (2 ≤ (escapeUnit unit).length ∧ (isEscaped unit || isHighSurrogate unit || isLowSurrogate unit) = true) := by
  have quote : '"'.toNat = 34 := rfl
  have backslash : '\\'.toNat = 92 := rfl
  simp only [escapeUnit, isEscaped, isHighSurrogate, isLowSurrogate, quote, backslash, Bool.or_eq_true,
    Bool.or_eq_false_iff, beq_iff_eq, decide_eq_true_eq, Bool.and_eq_true, beq_eq_false_iff_ne,
    decide_eq_false_iff_not, Bool.and_eq_false_iff]
  repeat' split
  all_goals first
    | exact .inr ⟨by decide, by omega⟩
    | exact .inl ⟨rfl, by omega⟩
    | exact .inr ⟨by simp, by omega⟩

theorem length_le_escape (text : Text) : text.length ≤ (escape text).length := by
  induction text using escape.induct with
  | case1 => exact Nat.le_refl _
  | case2 unit =>
    rcases escapeUnit_cases unit with ⟨kept, _⟩ | ⟨longer, _⟩
    · exact Nat.le_of_eq (congrArg List.length kept).symm
    · exact Nat.le_of_lt longer
  | case3 high low rest pair ih =>
    rw [escape, if_pos pair]
    exact Nat.succ_le_succ (Nat.succ_le_succ ih)
  | case4 high low rest single ih =>
    rw [escape, if_neg single, List.length_append, List.length_cons]
    rcases escapeUnit_cases high with ⟨kept, _⟩ | ⟨longer, _⟩
    · rw [kept]
      simp only [List.length_cons, List.length_nil] at ih ⊢
      omega
    · omega

theorem escape_eq_iff (text : Text) : escape text = text ↔ needsEscape text = false := by
  induction text using escape.induct with
  | case1 => simp [escape, needsEscape]
  | case2 unit =>
    rcases escapeUnit_cases unit with ⟨kept, plain⟩ | ⟨longer, special⟩
    · simp only [escape, needsEscape, kept, plain]
    · simp only [escape, needsEscape, special, Bool.true_eq_false, iff_false]
      intro same
      rw [same] at longer
      exact absurd longer (by simp)
  | case3 high low rest pair ih =>
    rw [escape, needsEscape, if_pos pair, if_pos pair, ← ih, List.cons.injEq, List.cons.injEq]
    simp
  | case4 high low rest single ih =>
    rw [escape, needsEscape, if_neg single, if_neg single]
    rcases escapeUnit_cases high with ⟨kept, plain⟩ | ⟨longer, special⟩
    · rw [kept, plain, Bool.false_or, ← ih, List.cons_append, List.cons.injEq, List.nil_append]
      simp
    · rw [special, Bool.true_or]
      refine iff_of_false (fun same => ?_) (by simp)
      have long := length_le_escape (low :: rest)
      have sum := congrArg List.length same
      rw [List.length_append, List.length_cons] at sum
      omega

theorem hexUnit_printable (digit : Nat) : 0x20 ≤ hexUnit digit := by
  have zero : '0'.toNat = 48 := rfl
  have a : 'a'.toNat = 97 := rfl
  unfold hexUnit
  split <;> omega

/-- No control character is left. -/
theorem escapeUnit_printable (unit : Nat) : ∀ written ∈ escapeUnit unit, 0x20 ≤ written := by
  rcases escapeUnit_cases unit with ⟨kept, plain⟩ | ⟨_, special⟩
  · rw [kept]
    intro written isUnit
    simp only [isEscaped, Bool.or_eq_false_iff, decide_eq_false_iff_not] at plain
    rw [List.mem_singleton.mp isUnit]
    exact Nat.le_of_not_lt plain.1.1.2
  · unfold escapeUnit
    repeat' split
    all_goals first
      | decide
      | skip
    · intro written inText
      rcases List.mem_append.mp inText with fixed | digit
      · exact (by decide : ∀ unit ∈ lit "\\u", 0x20 ≤ unit) written fixed
      · simp only [List.mem_cons, List.not_mem_nil, or_false] at digit
        rcases digit with rfl | rfl | rfl | rfl <;> exact hexUnit_printable _
    · intro written isUnit
      rw [List.mem_singleton.mp isUnit]
      omega

theorem escape_printable (text : Text) : ∀ written ∈ escape text, 0x20 ≤ written := by
  induction text using escape.induct with
  | case1 => simp [escape]
  | case2 unit => exact escapeUnit_printable unit
  | case3 high low rest pair ih =>
    rw [escape, if_pos pair]
    simp only [isHighSurrogate, isLowSurrogate, Bool.and_eq_true, decide_eq_true_eq] at pair
    intro written inText
    rcases List.mem_cons.mp inText with rfl | inText
    · omega
    · rcases List.mem_cons.mp inText with rfl | inText
      · omega
      · exact ih written inText
  | case4 high low rest single ih =>
    rw [escape, if_neg single]
    intro written inText
    rcases List.mem_append.mp inText with first | later
    · exact escapeUnit_printable high written first
    · exact ih written later

theorem stringify_printable (text : Text) : ∀ written ∈ stringify text, 0x20 ≤ written := by
  intro written inText
  rcases List.mem_cons.mp inText with rfl | inText
  · decide
  · rcases List.mem_append.mp inText with inside | last
    · exact escape_printable text written inside
    · rw [List.mem_singleton.mp last]
      decide

end ScriptText
