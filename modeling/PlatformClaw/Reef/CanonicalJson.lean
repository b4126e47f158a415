import PlatformClaw.Library.ScriptDecimal
import PlatformClaw.Library.ScriptList
import PlatformClaw.Library.ScriptText

/-! # Canonical JSON

What is hashed and signed is written as JSON with sorted keys. Texts are code units, so that halves of
surrogate pairs are kept apart; what is written is a text of characters.
-/

namespace PlatformClaw.Reef

/-- A text of a script. -/
abbrev Units : Type := List UInt16

/-- A text written in the program. -/
def units (text : String) : Units := (ScriptString.codeUnits text).map UInt16.ofNat

inductive CanonicalValue where
  | undefined
  | null
  | boolean (flag : Bool)
  | number (value : ScriptDecimal)
  /-- A number that is infinite or no number. -/
  | notFinite
  | string (text : Units)
  | array (items : List CanonicalValue)
  | object (record : List (Units × CanonicalValue))
  /-- A function, a symbol or a big integer. -/
  | other

inductive CanonicalError
  | finiteNumbers
  | unsupportedValue
deriving DecidableEq, Repr

def CanonicalError.message : CanonicalError → String
  | .finiteNumbers => "canonical JSON requires finite numbers"
  | .unsupportedValue => "unsupported canonical JSON value"

/-- The character of a surrogate pair. -/
def pairChar (high low : UInt16) : Char :=
  Char.ofNat (0x10000 + (high.toNat - 0xD800) * 0x400 + (low.toNat - 0xDC00))

def isPair (high low : UInt16) : Bool :=
  ScriptText.isHighSurrogate high.toNat && ScriptText.isLowSurrogate low.toNat

def isSurrogate (unit : UInt16) : Bool := 0xD800 ≤ unit.toNat && unit.toNat ≤ 0xDFFF

/-- A unit that is no part of a pair. -/
def escapeUnit (unit : UInt16) : List Char :=
  if isSurrogate unit then
    ['\\', 'u', ScriptJson.hexDigit (unit.toNat / 0x1000), ScriptJson.hexDigit (unit.toNat / 0x100 % 16),
      ScriptJson.hexDigit (unit.toNat / 16 % 16), ScriptJson.hexDigit (unit.toNat % 16)]
  else ScriptJson.escape (Char.ofNat unit.toNat)

def escapeUnits : Units → List Char
  | [] => []
  | [unit] => escapeUnit unit
  | high :: low :: rest =>
    if isPair high low then pairChar high low :: escapeUnits rest
    else escapeUnit high ++ escapeUnits (low :: rest)

def stringify (text : Units) : List Char :=
  '"' :: (escapeUnits text ++ ['"'])

namespace CanonicalValue

def isUndefined : CanonicalValue → Bool
  | undefined => true
  | _ => false

/-- `record[key]`. -/
def field (record : List (Units × CanonicalValue)) (key : Units) : CanonicalValue :=
  ((record.find? fun entry => entry.1 = key).map Prod.snd).getD .undefined

end CanonicalValue

def compareKeys (left right : Units × List Char) : Int :=
  if ScriptString.upTo (left.1.map UInt16.toNat) (right.1.map UInt16.toNat) then 0 else 1

def writeArray (items : List (List Char)) : List Char :=
  '[' :: (ScriptString.joinChars ',' items ++ [']'])

def writeEntry (entry : Units × List Char) : List Char :=
  stringify entry.1 ++ ':' :: entry.2

def writeObject (entries : List (Units × List Char)) : List Char :=
  '{' :: (ScriptString.joinChars ',' ((ScriptList.toSorted compareKeys entries).map writeEntry) ++ ['}'])

mutual

def canonicalJson : CanonicalValue → Except CanonicalError (List Char)
  | .undefined => .error .unsupportedValue
  | .null => .ok ScriptJson.null
  | .boolean flag => .ok (ScriptJson.boolean flag)
  | .number value => .ok value.text
  | .notFinite => .error .finiteNumbers
  | .string text => .ok (stringify text)
  | .array items => (canonicalItems items).map writeArray
  | .object record => (canonicalEntries record).map writeObject
  | .other => .error .unsupportedValue

def canonicalItems : List CanonicalValue → Except CanonicalError (List (List Char))
  | [] => .ok []
  | item :: rest => do return (← canonicalJson item) :: (← canonicalItems rest)

def canonicalEntries : List (Units × CanonicalValue) → Except CanonicalError (List (Units × List Char))
  | [] => .ok []
  | (key, value) :: rest =>
    if value.isUndefined then canonicalEntries rest
    else do return (key, ← canonicalJson value) :: (← canonicalEntries rest)

end

/-- In UTF-8. -/
def canonicalBytes (value : CanonicalValue) : Except CanonicalError ByteArray :=
  (canonicalJson value).map fun text => (String.ofList text).toUTF8

theorem toNat_lt (unit : UInt16) : unit.toNat < 0x10000 := unit.toNat_lt

theorem isPair_bounds {high low : UInt16} (pair : isPair high low = true) :
    (0xD800 ≤ high.toNat ∧ high.toNat ≤ 0xDBFF) ∧ 0xDC00 ≤ low.toNat ∧ low.toNat ≤ 0xDFFF := by
  unfold isPair ScriptText.isHighSurrogate ScriptText.isLowSurrogate at pair
  simpa only [Bool.and_eq_true, decide_eq_true_eq] using pair

theorem toNat_ofNat {point : Nat} (valid : point.isValidChar) : (Char.ofNat point).toNat = point := by
  rw [Char.ofNat, dif_pos valid]
  rfl

theorem toNat_pairChar {high low : UInt16} (pair : isPair high low = true) : (pairChar high low).toNat =
      0x10000 + (high.toNat - 0xD800) * 0x400 + (low.toNat - 0xDC00) := by
  have bounds := isPair_bounds pair
  apply toNat_ofNat
  unfold Nat.isValidChar
  omega

theorem charUnits_pairChar {high low : UInt16} (pair : isPair high low = true) :
    ScriptString.charUnits (pairChar high low) = [high.toNat, low.toNat] := by
  have bounds := isPair_bounds pair
  unfold ScriptString.charUnits
  rw [toNat_pairChar pair, if_neg (by omega)]
  have first : 0xD800 + (0x10000 + (high.toNat - 0xD800) * 0x400 + (low.toNat - 0xDC00) - 0x10000) /
      0x400 = high.toNat := by omega
  have second : 0xDC00 + (0x10000 + (high.toNat - 0xD800) * 0x400 + (low.toNat - 0xDC00) - 0x10000) %
      0x400 = low.toNat := by omega
  rw [first, second]

theorem toNat_plainUnit {unit : UInt16} (plain : isSurrogate unit = false) :
    (Char.ofNat unit.toNat).toNat = unit.toNat := by
  have small := toNat_lt unit
  unfold isSurrogate at plain
  simp only [Bool.and_eq_false_iff, decide_eq_false_iff_not] at plain
  apply toNat_ofNat
  unfold Nat.isValidChar
  omega

open ScriptJson (readString hexValue?_hexDigit)

section Reading

variable {units : List Nat} {later rest : List Char} (read : readString later = some (units, rest))

include read

theorem readString_escapeUnit (unit : UInt16) :
    readString (escapeUnit unit ++ later) = some (unit.toNat :: units, rest) := by
  have small := toNat_lt unit
  cases surrogate : isSurrogate unit with
  | true =>
    have digits := ScriptJson.readString_digits read (hexValue?_hexDigit (unit.toNat / 0x1000) (by omega))
      (hexValue?_hexDigit (unit.toNat / 0x100 % 16) (by omega))
      (hexValue?_hexDigit (unit.toNat / 16 % 16) (by omega))
      (hexValue?_hexDigit (unit.toNat % 16) (by omega))
    have same : unit.toNat / 0x1000 * 4096 + unit.toNat / 0x100 % 16 * 256 +
        unit.toNat / 16 % 16 * 16 + unit.toNat % 16 = unit.toNat := by omega
    rw [same] at digits
    rw [escapeUnit, surrogate, if_pos rfl]
    exact digits
  | false =>
    have one : ScriptString.charUnits (Char.ofNat unit.toNat) = [unit.toNat] := by
      rw [ScriptString.charUnits, toNat_plainUnit surrogate, if_pos (by omega)]
    have escaped := ScriptJson.readString_escape read (Char.ofNat unit.toNat)
    rw [one] at escaped
    rw [escapeUnit, surrogate, if_neg Bool.false_ne_true]
    exact escaped

theorem readString_pairChar {high low : UInt16} (pair : isPair high low = true) :
    readString (pairChar high low :: later) = some (high.toNat :: low.toNat :: units, rest) := by
  have point := toNat_pairChar pair
  have apart : ∀ c : Char, c.toNat < 0x10000 → pairChar high low ≠ c := by
    rintro c small rfl
    omega
  have plain := ScriptJson.readString_plain read (apart '"' (by decide)) (apart '\\' (by decide))
    (by omega)
  rw [charUnits_pairChar pair] at plain
  exact plain

end Reading

theorem readString_escapeUnits (text : Units) (rest : List Char) :
    readString (escapeUnits text ++ '"' :: rest) = some (text.map UInt16.toNat, rest) := by
  induction text using escapeUnits.induct with
  | case1 => exact ScriptJson.readString_quote rest
  | case2 unit => exact readString_escapeUnit (ScriptJson.readString_quote rest) unit
  | case3 high low others pair ih =>
    rw [escapeUnits, if_pos pair]
    exact readString_pairChar ih pair
  | case4 high low others single ih =>
    rw [escapeUnits, if_neg single, List.append_assoc]
    exact readString_escapeUnit ih high

/-- A text ends at its closing quote. -/
theorem stringify_append_inj {a b : Units} {rest later : List Char}
    (same : stringify a ++ rest = stringify b ++ later) : a = b ∧ rest = later := by
  have shape : ∀ (text : Units) (rest : List Char),
      stringify text ++ rest = '"' :: (escapeUnits text ++ '"' :: rest) := by
    intro text rest
    simp [stringify]
  rw [shape, shape] at same
  have first := readString_escapeUnits a rest
  rw [(List.cons.inj same).2, readString_escapeUnits] at first
  obtain ⟨units, rests⟩ := Prod.mk.inj (Option.some.inj first)
  refine ⟨?_, rests.symm⟩
  exact (List.map_injective_iff.mpr fun _ _ => UInt16.toNat_inj.mp) units.symm

end PlatformClaw.Reef
