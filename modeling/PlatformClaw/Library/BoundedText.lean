import Mathlib.Algebra.GroupWithZero.Nat
import PlatformClaw.Library.ScriptString

/-! # Texts bounded by their JSON size

A response that must stay below a number of bytes carries texts cut to a number
of bytes of their JSON form. The cut keeps surrogate pairs whole and is found by
bisection; it never exceeds the bound, whatever the text.
-/

namespace BoundedText

def utf8Bytes (c : Char) : Nat :=
  if c.toNat < 0x80 then 1
  else if c.toNat < 0x800 then 2
  else if c.toNat < 0x10000 then 3
  else 4

/-- The bytes a character takes inside a JSON string: `JSON.stringify` escapes quotes,
    backslashes and control characters only. -/
def quotedBytes (c : Char) : Nat :=
  if c = '"' ∨ c = '\\' then 2
  else if c.toNat < 0x20 then
    if c.toNat = 8 ∨ c.toNat = 9 ∨ c.toNat = 10 ∨ c.toNat = 12 ∨ c.toNat = 13 then 2 else 6
  else utf8Bytes c

def quotedChars (chars : List Char) : Nat :=
  (chars.map quotedBytes).sum

/-- `jsonBytes` of a string. -/
def jsonBytes (text : String) : Nat :=
  2 + quotedChars text.toList

/-- The characters that fit whole into a number of code units. -/
def takeUnits : List Char → Nat → List Char
  | [], _ => []
  | c :: rest, limit =>
    if (ScriptString.charUnits c).length ≤ limit then
      c :: takeUnits rest (limit - (ScriptString.charUnits c).length)
    else []

def truncateUtf16Safe (text : String) (maxLen : Nat) : String :=
  .ofList (takeUnits text.toList maxLen)

/-- The bisection of `boundedText`. The distance halves, so the length is fuel enough. -/
def bisect (text : String) (bytes : Nat) : Nat → Nat → Nat → Nat
  | 0, low, _ => low
  | fuel + 1, low, high =>
    if low < high then
      let middle := (low + high + 1) / 2
      if jsonBytes (truncateUtf16Safe text middle) ≤ bytes then bisect text bytes fuel middle high
      else bisect text bytes fuel low (middle - 1)
    else low

def boundedText (text : String) (bytes : Nat) : String :=
  truncateUtf16Safe text (bisect text bytes (ScriptString.length text) 0 (ScriptString.length text))

variable {text : String} {bytes : Nat}

theorem charUnits_pos (c : Char) : 0 < (ScriptString.charUnits c).length := by
  unfold ScriptString.charUnits
  split <;> simp

theorem bisect_fits {fuel low high : Nat} (fits : jsonBytes (truncateUtf16Safe text low) ≤ bytes) :
    jsonBytes (truncateUtf16Safe text (bisect text bytes fuel low high)) ≤ bytes := by
  induction fuel generalizing low high with
  | zero => exact fits
  | succ fuel ih =>
    unfold bisect
    split
    · dsimp only
      split
      · rename_i fitsMiddle
        exact ih fitsMiddle
      · exact ih fits
    · exact fits

theorem jsonBytes_boundedText (text : String) (room : 2 ≤ bytes) : jsonBytes (boundedText text bytes) ≤ bytes := by
  refine bisect_fits ?_
  have empty : takeUnits text.toList 0 = [] := by
    cases text.toList with
    | nil => rfl
    | cons c rest =>
      have positive := charUnits_pos c
      simp [takeUnits, Nat.not_le.mpr positive]
  simpa [truncateUtf16Safe, empty, jsonBytes, quotedChars] using room

theorem charUnits_le_quotedBytes (c : Char) : (ScriptString.charUnits c).length ≤ quotedBytes c := by
  have units : (ScriptString.charUnits c).length ≤ utf8Bytes c := by
    unfold ScriptString.charUnits utf8Bytes
    grind
  unfold quotedBytes
  split
  · rename_i named
    rcases named with rfl | rfl <;> exact Nat.le_succ 1
  · split
    · have plain : ScriptString.charUnits c = [c.toNat] := if_pos (by omega)
      rw [plain]
      grind
    · exact units

theorem length_add_two_le_jsonBytes (text : String) : ScriptString.length text + 2 ≤ jsonBytes text := by
  have units (chars : List Char) : (chars.flatMap ScriptString.charUnits).length ≤ quotedChars chars := by
    induction chars with
    | nil => exact Nat.le_refl 0
    | cons c rest ih =>
      have first := charUnits_le_quotedBytes c
      simp only [quotedChars, List.map_cons, List.sum_cons, List.flatMap_cons, List.length_append] at ih ⊢
      omega
  rw [ScriptString.length, ScriptString.codeUnits, jsonBytes, Nat.add_comm]
  exact Nat.add_le_add_left (units text.toList) 2

end BoundedText
