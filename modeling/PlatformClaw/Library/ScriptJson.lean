import Mathlib.Algebra.Ring.Int.Defs
import PlatformClaw.Library.BoundedText

/-! # Writing and reading JSON

`JSON.stringify` for the values that a program puts together field by field, and
`JSON.parse`. Texts that were read are code units, so that an escaped half of a
surrogate pair is kept; numbers are read exactly.
-/

namespace ScriptJson

open BoundedText (utf8Bytes quotedBytes jsonBytes)

def hexDigit (digit : Nat) : Char :=
  if digit < 10 then Char.ofNat ('0'.toNat + digit) else Char.ofNat ('a'.toNat + (digit - 10))

/-- A character inside a string. -/
def escape (c : Char) : List Char :=
  if c = '"' then ['\\', '"']
  else if c = '\\' then ['\\', '\\']
  else if c.toNat = 8 then ['\\', 'b']
  else if c.toNat = 9 then ['\\', 't']
  else if c.toNat = 10 then ['\\', 'n']
  else if c.toNat = 12 then ['\\', 'f']
  else if c.toNat = 13 then ['\\', 'r']
  else if c.toNat < 0x20 then
    ['\\', 'u', '0', '0', hexDigit (c.toNat / 16), hexDigit (c.toNat % 16)]
  else [c]

def string (text : String) : List Char :=
  '"' :: (text.toList.flatMap escape ++ ['"'])

def natural (number : Nat) : List Char :=
  Nat.toDigits 10 number

def integer (number : Int) : List Char :=
  if number < 0 then '-' :: natural number.natAbs else natural number.natAbs

def boolean (flag : Bool) : List Char :=
  if flag then ['t', 'r', 'u', 'e'] else ['f', 'a', 'l', 's', 'e']

def null : List Char := ['n', 'u', 'l', 'l']

def optional (write : α → List Char) (value : Option α) : List Char :=
  (value.map write).getD null

def array (items : List (List Char)) : List Char :=
  '[' :: (ScriptString.joinChars ',' items ++ [']'])

def object (members : List (String × List Char)) : List Char :=
  '{' :: (ScriptString.joinChars ',' (members.map fun member =>
    string member.1 ++ ':' :: member.2) ++ ['}'])

/-- `Buffer.byteLength` in UTF-8. -/
def byteLength (text : List Char) : Nat :=
  (text.map utf8Bytes).sum

/-- The value of a text. A number is a coefficient with a power of ten. -/
inductive Value where
  | null
  | boolean (flag : Bool)
  | number (coefficient exponent : Int)
  | string (units : List Nat)
  | array (items : List Value)
  | object (members : List (List Nat × Value))

def isBlank (c : Char) : Bool :=
  c == ' ' || c == '\t' || c == '\n' || c == '\r'

def skip (text : List Char) : List Char :=
  text.dropWhile isBlank

def hexValue? (c : Char) : Option Nat :=
  if c.isDigit then some (c.toNat - '0'.toNat)
  else if 'a' ≤ c ∧ c ≤ 'f' then some (c.toNat - 'a'.toNat + 10)
  else if 'A' ≤ c ∧ c ≤ 'F' then some (c.toNat - 'A'.toNat + 10)
  else none

/-- What a letter after a backslash stands for, the four digits of `u` apart. -/
def escaped? (c : Char) : Option Nat :=
  if c = '"' ∨ c = '\\' ∨ c = '/' then some c.toNat
  else if c = 'b' then some 8
  else if c = 't' then some 9
  else if c = 'n' then some 10
  else if c = 'f' then some 12
  else if c = 'r' then some 13
  else none

/-- The code units up to the closing quote, and the text behind it. -/
def readString : List Char → Option (List Nat × List Char)
  | [] => none
  | c :: rest =>
    if c = '"' then some ([], rest)
    else if c = '\\' then
      match rest with
      | [] => none
      | e :: rest =>
        if e = 'u' then
          match rest with
          | a :: b :: c :: d :: rest => do
              let unit := (← hexValue? a) * 4096 + (← hexValue? b) * 256 + (← hexValue? c) * 16 + (← hexValue? d)
              let (units, rest) ← readString rest
              return (unit :: units, rest)
          | _ => none
        else do
          let unit ← escaped? e
          let (units, rest) ← readString rest
          return (unit :: units, rest)
    else if c.toNat < 0x20 then none
    else do
      let (units, rest) ← readString rest
      return (ScriptString.charUnits c ++ units, rest)
termination_by structural text => text

/-- Digits after a point, with the power of ten they stand for. -/
def readFraction (text : List Char) : Option (List Char × List Char) :=
  if text.head? = some '.' then
    let digits := text.tail.takeWhile Char.isDigit
    if digits = [] then none else some (digits, text.tail.dropWhile Char.isDigit)
  else some ([], text)

def readExponent (text : List Char) : Option (Int × List Char) :=
  if text.head? = some 'e' ∨ text.head? = some 'E' then
    let signed := text.tail
    let unsigned := if signed.head? = some '+' ∨ signed.head? = some '-' then signed.tail else signed
    let digits := unsigned.takeWhile Char.isDigit
    if digits = [] then none
    else
      let exponent : Int := Nat.ofDigitChars 10 digits 0
      some (if signed.head? = some '-' then -exponent else exponent, unsigned.dropWhile Char.isDigit)
  else some (0, text)

def readNumber (text : List Char) : Option (Value × List Char) := do
  let negative : Bool := text.head? = some '-'
  let unsigned := if negative then text.tail else text
  let whole := unsigned.takeWhile Char.isDigit
  if whole = [] ∨ (whole.head? = some '0' ∧ whole.length ≠ 1) then none
  let (fraction, rest) ← readFraction (unsigned.dropWhile Char.isDigit)
  let (exponent, rest) ← readExponent rest
  let coefficient : Int := Nat.ofDigitChars 10 (whole ++ fraction) 0
  return (.number (if negative then -coefficient else coefficient) (exponent - fraction.length), rest)

mutual

/-- A value and the text behind it; every call reads on, so the length is fuel enough. -/
def readValue : Nat → List Char → Option (Value × List Char)
  | 0, _ => none
  | fuel + 1, text =>
    match skip text with
    | '"' :: rest => (readString rest).map fun read => (.string read.1, read.2)
    | '[' :: rest =>
      if (skip rest).head? = some ']' then some (.array [], (skip rest).tail)
      else (readItems fuel rest).map fun read => (.array read.1, read.2)
    | '{' :: rest =>
      if (skip rest).head? = some '}' then some (.object [], (skip rest).tail)
      else (readMembers fuel rest).map fun read => (.object read.1, read.2)
    | 't' :: 'r' :: 'u' :: 'e' :: rest => some (.boolean true, rest)
    | 'f' :: 'a' :: 'l' :: 's' :: 'e' :: rest => some (.boolean false, rest)
    | 'n' :: 'u' :: 'l' :: 'l' :: rest => some (.null, rest)
    | text => readNumber text

def readItems : Nat → List Char → Option (List Value × List Char)
  | 0, _ => none
  | fuel + 1, text => do
      let (item, rest) ← readValue fuel text
      match skip rest with
      | ',' :: rest =>
        let (items, rest) ← readItems fuel rest
        return (item :: items, rest)
      | ']' :: rest => return ([item], rest)
      | _ => none

def readMembers : Nat → List Char → Option (List (List Nat × Value) × List Char)
  | 0, _ => none
  | fuel + 1, text =>
    match skip text with
    | '"' :: rest => do
        let (key, rest) ← readString rest
        match skip rest with
        | ':' :: rest =>
          let (value, rest) ← readValue fuel rest
          match skip rest with
          | ',' :: rest =>
            let (members, rest) ← readMembers fuel rest
            return ((key, value) :: members, rest)
          | '}' :: rest => return ([(key, value)], rest)
          | _ => none
        | _ => none
    | _ => none

end

def parse (text : List Char) : Option Value := do
  let (value, rest) ← readValue (2 * text.length + 2) text
  if skip rest = [] then return value else none

def Value.integer? : Value → Option Int
  | .number coefficient exponent =>
    if 0 ≤ exponent then some (coefficient * 10 ^ exponent.toNat)
    else if coefficient % 10 ^ exponent.natAbs = 0 then some (coefficient / 10 ^ exponent.natAbs)
    else none
  | _ => none

theorem hexValue?_hexDigit : ∀ digit < 16, hexValue? (hexDigit digit) = some digit := by
  decide

theorem charUnits_of_lt {c : Char} (small : c.toNat < 0x20) : ScriptString.charUnits c = [c.toNat] := by
  rw [ScriptString.charUnits, if_pos (by omega)]

section ReadString

variable {units : List Nat} {later rest : List Char} (read : readString later = some (units, rest))

include read

theorem readString_named {letter : Char} {unit : Nat} (apart : letter ≠ 'u') (stands : escaped? letter = some unit) :
    readString ('\\' :: letter :: later) = some (unit :: units, rest) := by
  rw [readString.eq_def]
  simp [read, apart, stands]

theorem readString_digits {a b c d : Char} {first second third fourth : Nat}
    (readA : hexValue? a = some first) (readB : hexValue? b = some second)
    (readC : hexValue? c = some third) (readD : hexValue? d = some fourth) :
    readString ('\\' :: 'u' :: a :: b :: c :: d :: later) =
      some ((first * 4096 + second * 256 + third * 16 + fourth) :: units, rest) := by
  rw [readString.eq_def]
  simp [read, readA, readB, readC, readD]

theorem readString_plain {c : Char} (quote : c ≠ '"') (backslash : c ≠ '\\')
    (plain : ¬c.toNat < 0x20) :
    readString (c :: later) = some (ScriptString.charUnits c ++ units, rest) := by
  rw [readString.eq_def]
  simp [read, quote, backslash, plain]

theorem readString_escape (c : Char) :
    readString (escape c ++ later) = some (ScriptString.charUnits c ++ units, rest) := by
  unfold escape
  split
  · rename_i same
    rw [same]
    exact readString_named read (by decide) rfl
  split
  · rename_i same
    rw [same]
    exact readString_named read (by decide) rfl
  split
  · rename_i same
    rw [charUnits_of_lt (by omega), same]
    exact readString_named read (by decide) rfl
  split
  · rename_i same
    rw [charUnits_of_lt (by omega), same]
    exact readString_named read (by decide) rfl
  split
  · rename_i same
    rw [charUnits_of_lt (by omega), same]
    exact readString_named read (by decide) rfl
  split
  · rename_i same
    rw [charUnits_of_lt (by omega), same]
    exact readString_named read (by decide) rfl
  split
  · rename_i same
    rw [charUnits_of_lt (by omega), same]
    exact readString_named read (by decide) rfl
  split
  · rename_i control
    have zero : hexValue? '0' = some 0 := rfl
    have digits := readString_digits read zero zero
      (hexValue?_hexDigit (c.toNat / 16) (by omega)) (hexValue?_hexDigit (c.toNat % 16) (by omega))
    have unit : 0 * 4096 + 0 * 256 + c.toNat / 16 * 16 + c.toNat % 16 = c.toNat := by omega
    rw [unit] at digits
    rw [charUnits_of_lt control]
    exact digits
  · rename_i quote backslash _ _ _ _ _ plain
    exact readString_plain read quote backslash plain

end ReadString

theorem readString_quote (rest : List Char) : readString ('"' :: rest) = some ([], rest) := by
  rw [readString.eq_def]
  rfl

theorem readString_string (text : List Char) (rest : List Char) :
    readString (text.flatMap escape ++ '"' :: rest) =
      some (text.flatMap ScriptString.charUnits, rest) := by
  induction text with
  | nil => exact readString_quote rest
  | cons c others ih =>
    rw [List.flatMap_cons, List.flatMap_cons, List.append_assoc]
    exact readString_escape ih c

theorem isDigit_natural {number : Nat} {c : Char} (inText : c ∈ natural number) : c.isDigit = true :=
  Nat.isDigit_of_mem_toDigits (by decide) (by decide) inText

theorem natural_ne_nil (number : Nat) : natural number ≠ [] :=
  Nat.toDigits_ne_nil

theorem head?_natural_append (number : Nat) (rest : List Char) :
    (natural number ++ rest).head? = (natural number).head? := by
  rw [List.head?_append]
  cases digits : natural number with
  | nil => exact absurd digits (natural_ne_nil number)
  | cons digit others => rfl

theorem head?_natural {number : Nat} (positive : 0 < number) : (natural number).head? ≠ some '0' := by
  induction number using Nat.strongRecOn with
  | ind number ih =>
    rw [natural, Nat.toDigits_eq_if (by decide)]
    split
    · rename_i small
      have nonzero : ∀ digit < 10, 0 < digit → Nat.digitChar digit ≠ '0' := by decide
      simpa using nonzero number small positive
    · have shorter := head?_natural_append (number / 10) [(number % 10).digitChar]
      rw [natural] at shorter
      rw [shorter]
      exact ih (number / 10) (by omega) (by omega)

theorem natural_leading (number : Nat) : ¬((natural number).head? = some '0' ∧ (natural number).length ≠ 1) := by
  rintro ⟨zero, long⟩
  cases number with
  | zero => exact long rfl
  | succ number => exact head?_natural (Nat.succ_pos number) zero

/-- What may stand behind a number that is complete. -/
def EndsNumber (rest : List Char) : Prop :=
  ∀ c, rest.head? = some c → c.isDigit = false ∧ c ≠ '.' ∧ c ≠ 'e' ∧ c ≠ 'E'

theorem takeWhile_digits {digits rest : List Char} (all : ∀ c ∈ digits, c.isDigit = true)
    (ends : EndsNumber rest) : (digits ++ rest).takeWhile Char.isDigit = digits ∧
      (digits ++ rest).dropWhile Char.isDigit = rest := by
  induction digits with
  | nil =>
    cases rest with
    | nil => exact ⟨rfl, rfl⟩
    | cons c later => simp [(ends c rfl).1]
  | cons c others ih =>
    have first := all c List.mem_cons_self
    have later := ih fun other inOthers => all other (List.mem_cons_of_mem _ inOthers)
    simp [first, later]

theorem readFraction_none {rest : List Char} (ends : EndsNumber rest) : readFraction rest = some ([], rest) := by
  rw [readFraction, if_neg]
  exact fun point => (ends _ point).2.1 rfl

theorem readExponent_none {rest : List Char} (ends : EndsNumber rest) : readExponent rest = some (0, rest) := by
  rw [readExponent, if_neg]
  rintro (letter | letter)
  · exact (ends _ letter).2.2.1 rfl
  · exact (ends _ letter).2.2.2 rfl

theorem readNumber_natural (number : Nat) {rest : List Char} (ends : EndsNumber rest) :
    readNumber (natural number ++ rest) = some (.number number 0, rest) := by
  obtain ⟨taken, dropped⟩ := takeWhile_digits (fun c => @isDigit_natural number c) ends
  have unsigned : (natural number ++ rest).head? ≠ some '-' := by
    rw [head?_natural_append]
    intro sign
    cases isDigit_natural (List.mem_of_head? sign)
  simp only [readNumber, unsigned, decide_false, Bool.false_eq_true, if_false, taken, dropped,
    natural_ne_nil, natural_leading, or_self, readFraction_none ends]
  simp [natural, readExponent_none ends]

theorem skip_of_not_blank {text : List Char} (plain : ∀ c, text.head? = some c → isBlank c = false) :
    skip text = text := by
  cases text with
  | nil => rfl
  | cons c rest => simp [skip, plain c rfl]

theorem readValue_string (fuel : Nat) (text : String) (rest : List Char) :
    readValue (fuel + 1) (string text ++ rest) = some (.string (ScriptString.codeUnits text), rest) := by
  have read := readString_string text.toList rest
  have skipped : skip ('"' :: (text.toList.flatMap escape ++ '"' :: rest)) =
      '"' :: (text.toList.flatMap escape ++ '"' :: rest) := rfl
  simp only [string, List.cons_append, List.append_assoc, List.nil_append, readValue, skipped, read]
  rfl

theorem isBlank_of_isDigit {c : Char} (digit : c.isDigit = true) : isBlank c = false := by
  refine Bool.eq_false_iff.mpr fun blank => ?_
  simp only [isBlank, Bool.or_eq_true, beq_iff_eq] at blank
  rcases blank with ((rfl | rfl) | rfl) | rfl <;> cases digit

theorem readValue_natural (fuel : Nat) (number : Nat) {rest : List Char} (ends : EndsNumber rest) :
    readValue (fuel + 1) (natural number ++ rest) = some (.number number 0, rest) := by
  have read := readNumber_natural number ends
  cases digits : natural number with
  | nil => exact absurd digits (natural_ne_nil number)
  | cons digit others =>
    rw [digits, List.cons_append] at read
    have isDigit : digit.isDigit = true := isDigit_natural (by rw [digits]; simp)
    have skipped : skip (digit :: (others ++ rest)) = digit :: (others ++ rest) :=
      skip_of_not_blank fun c head => by cases head; exact isBlank_of_isDigit isDigit
    rw [List.cons_append, readValue, skipped]
    split
    case h_7 => exact read
    all_goals
      rename_i starts
      cases congrArg List.head? starts
      cases isDigit

theorem endsNumber_comma (rest : List Char) : EndsNumber (',' :: rest) := by
  intro c head
  cases head
  decide

theorem endsNumber_bracket (rest : List Char) : EndsNumber (']' :: rest) := by
  intro c head
  cases head
  decide

theorem readItems_more {fuel : Nat} {text rest later : List Char} {item : Value}
    {items : List Value} (first : readValue fuel text = some (item, ',' :: rest))
    (others : readItems fuel rest = some (items, later)) :
    readItems (fuel + 1) text = some (item :: items, later) := by
  have skipped : skip (',' :: rest) = ',' :: rest := rfl
  simp [readItems, first, skipped, others]

theorem readItems_last {fuel : Nat} {text rest : List Char} {item : Value}
    (last : readValue fuel text = some (item, ']' :: rest)) :
    readItems (fuel + 1) text = some ([item], rest) := by
  have skipped : skip (']' :: rest) = ']' :: rest := rfl
  simp [readItems, last, skipped]

theorem parse_array (text : String) (first second : Nat) :
    parse (array [string text, natural first, natural second]) =
      some (.array [.string (ScriptString.codeUnits text), .number first 0, .number second 0]) := by
  have items (fuel : Nat) : readItems (fuel + 4)
      (string text ++ ',' :: (natural first ++ ',' :: (natural second ++ [']']))) =
        some ([.string (ScriptString.codeUnits text), .number first 0, .number second 0], []) := by
    refine readItems_more (readValue_string _ text _) ?_
    refine readItems_more (readValue_natural _ first (endsNumber_comma _)) ?_
    exact readItems_last (readValue_natural _ second (endsNumber_bracket _))
  have text' : array [string text, natural first, natural second] =
      '[' :: (string text ++ ',' :: (natural first ++ ',' :: (natural second ++ [']']))) := by
    simp [array, ScriptString.joinChars]
  obtain ⟨fuel, enough⟩ : ∃ fuel,
      2 * (array [string text, natural first, natural second]).length + 2 = fuel + 4 + 1 := by
    have long : 2 ≤ (array [string text, natural first, natural second]).length := by
      simp [array]
    exact ⟨2 * (array [string text, natural first, natural second]).length - 3, by omega⟩
  have skipped (rest : List Char) : skip ('[' :: rest) = '[' :: rest := rfl
  have started (rest : List Char) : skip (string text ++ rest) = string text ++ rest := rfl
  have quoted (rest : List Char) : (string text ++ rest).head? ≠ some ']' := by
    simp [string]
  rw [parse, enough, text', readValue, skipped]
  simp only [started, quoted, if_false, items]
  rfl

@[simp] theorem byteLength_nil : byteLength [] = 0 := rfl

@[simp] theorem byteLength_cons (c : Char) (rest : List Char) :
    byteLength (c :: rest) = utf8Bytes c + byteLength rest := rfl

@[simp] theorem byteLength_append (left right : List Char) :
    byteLength (left ++ right) = byteLength left + byteLength right := by
  simp [byteLength]

theorem utf8Bytes_eq (c : Char) : utf8Bytes c = c.utf8Size := by
  simp only [utf8Bytes, Char.utf8Size, UInt32.le_iff_toNat_le, Char.toNat]
  grind

theorem size_toUTF8 (text : List Char) : (String.ofList text).toUTF8.size = byteLength text := by
  rw [String.toUTF8_eq_toByteArray, String.toByteArray_ofList]
  induction text with
  | nil => rfl
  | cons c rest ih =>
    rw [List.utf8Encode_cons, ByteArray.size_append, ih, byteLength_cons, utf8Bytes_eq]
    simp [List.utf8Encode_singleton]

theorem utf8Bytes_hexDigit : ∀ digit < 16, utf8Bytes (hexDigit digit) = 1 := by
  decide

theorem byteLength_escape (c : Char) : byteLength (escape c) = quotedBytes c := by
  by_cases special : c = '"' ∨ c = '\\'
  · rcases special with rfl | rfl <;> rfl
  obtain ⟨quote, backslash⟩ := not_or.mp special
  by_cases control : c.toNat < 0x20
  · by_cases named : c.toNat = 8 ∨ c.toNat = 9 ∨ c.toNat = 10 ∨ c.toNat = 12 ∨ c.toNat = 13
    · have two : quotedBytes c = 2 := by simp [quotedBytes, quote, backslash, control, named]
      rw [two]
      rcases named with same | same | same | same | same <;>
        simp [escape, quote, backslash, same] <;> rfl
    · have six : quotedBytes c = 6 := by simp [quotedBytes, quote, backslash, control, named]
      simp only [not_or] at named
      have high := utf8Bytes_hexDigit (c.toNat / 16) (by omega)
      have low := utf8Bytes_hexDigit (c.toNat % 16) (by omega)
      rw [six]
      simp [escape, quote, backslash, named, control, high, low]
      rfl
  · have plain : quotedBytes c = utf8Bytes c := by simp [quotedBytes, quote, backslash, control]
    have written : escape c = [c] := by
      unfold escape
      rw [if_neg quote, if_neg backslash, if_neg (by omega), if_neg (by omega), if_neg (by omega),
        if_neg (by omega), if_neg (by omega), if_neg control]
    rw [plain, written]
    rfl

theorem byteLength_flatMap (text : List Char) : byteLength (text.flatMap escape) = BoundedText.quotedChars text := by
  induction text with
  | nil => rfl
  | cons c rest ih =>
    rw [List.flatMap_cons, byteLength_append, ih, byteLength_escape]
    rfl

@[simp] theorem byteLength_string (text : String) : byteLength (string text) = jsonBytes text := by
  have quote : utf8Bytes '"' = 1 := rfl
  simp [string, byteLength_flatMap, jsonBytes, quote]
  omega

theorem byteLength_digits {digits : List Char} (all : ∀ c ∈ digits, c.isDigit = true) :
    byteLength digits = digits.length := by
  induction digits with
  | nil => rfl
  | cons c rest ih =>
    have first := all c List.mem_cons_self
    have one : utf8Bytes c = 1 := by
      have small : c.toNat ≤ 57 := by
        simp [Char.isDigit] at first
        exact first.2
      rw [utf8Bytes, if_pos (by omega)]
    rw [byteLength_cons, one, List.length_cons,
      ih fun other inRest => all other (List.mem_cons_of_mem _ inRest), Nat.add_comm]

theorem byteLength_natural {number digits : Nat} (some : 0 < digits) (small : number < 10 ^ digits) :
    byteLength (natural number) ≤ digits := by
  rw [byteLength_digits fun _ inText => isDigit_natural inText]
  exact (Nat.length_toDigits_le_iff (by decide) some).mpr small

theorem byteLength_integer {number : Int} {digits : Nat} (some : 0 < digits)
    (small : number.natAbs < 10 ^ digits) : byteLength (integer number) ≤ digits + 1 := by
  have digitsOnly := byteLength_natural some small
  have sign : utf8Bytes '-' = 1 := rfl
  unfold integer
  split
  · rw [byteLength_cons, sign]
    omega
  · omega

theorem byteLength_joined (parts : List (List Char)) : byteLength (ScriptString.joinChars ',' parts) =
      (parts.map byteLength).sum + (parts.length - 1) := by
  have comma : utf8Bytes ',' = 1 := rfl
  induction parts with
  | nil => rfl
  | cons part rest ih =>
    cases rest with
    | nil => simp [ScriptString.joinChars]
    | cons next others =>
      rw [ScriptString.joinChars, byteLength_append, byteLength_cons, ih, comma]
      · simp only [List.map_cons, List.sum_cons, List.length_cons]
        omega
      · exact List.cons_ne_nil _ _

@[simp] theorem byteLength_array (items : List (List Char)) :
    byteLength (array items) = (items.map byteLength).sum + (items.length - 1) + 2 := by
  have start : utf8Bytes '[' = 1 := rfl
  have finish : utf8Bytes ']' = 1 := rfl
  simp [array, byteLength_joined, start, finish]
  omega

@[simp] theorem byteLength_object (members : List (String × List Char)) :
    byteLength (object members) = (members.map fun member => jsonBytes member.1 + 1 + byteLength member.2).sum +
        (members.length - 1) + 2 := by
  have start : utf8Bytes '{' = 1 := rfl
  have finish : utf8Bytes '}' = 1 := rfl
  have colon : utf8Bytes ':' = 1 := rfl
  have parts : (members.map fun member => string member.1 ++ ':' :: member.2).map byteLength =
      members.map fun member => jsonBytes member.1 + 1 + byteLength member.2 := by
    rw [List.map_map]
    refine List.map_congr_left ?_
    intro member _
    simp [colon, Nat.add_assoc]
  rw [object, byteLength_cons, byteLength_append, byteLength_joined, parts, List.length_map, start,
    byteLength_cons, finish, byteLength_nil]
  omega

end ScriptJson
