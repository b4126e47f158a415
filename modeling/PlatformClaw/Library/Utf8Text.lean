/-! # Bytes read as UTF-8

A script reads any bytes as text: what is no part of a character is replaced, a
beginning of one that goes on wrongly as a whole.
-/

namespace Utf8Text

def replacement : Char := '\uFFFD'

/-- A character of which some bytes are still to come, with the bounds of the next one. -/
structure Begun where
  point : Nat
  missing : Nat
  lower : Nat
  upper : Nat
  deriving DecidableEq

def begin_ (byte : Nat) : List Char × Option Begun :=
  if byte < 0x80 then ([Char.ofNat byte], none)
  else if 0xC2 ≤ byte ∧ byte ≤ 0xDF then ([], some ⟨byte % 0x20, 1, 0x80, 0xBF⟩)
  else if 0xE0 ≤ byte ∧ byte ≤ 0xEF then
    ([], some ⟨byte % 0x10, 2, if byte = 0xE0 then 0xA0 else 0x80, if byte = 0xED then 0x9F else 0xBF⟩)
  else if 0xF0 ≤ byte ∧ byte ≤ 0xF4 then
    ([], some ⟨byte % 0x8, 3, if byte = 0xF0 then 0x90 else 0x80, if byte = 0xF4 then 0x8F else 0xBF⟩)
  else ([replacement], none)

def decodeFrom : Option Begun → List Nat → List Char
  | none, [] => []
  | some _, [] => [replacement]
  | none, byte :: rest => (begin_ byte).1 ++ decodeFrom (begin_ byte).2 rest
  | some begun, byte :: rest =>
    if begun.lower ≤ byte ∧ byte ≤ begun.upper then
      let point := begun.point * 0x40 + byte % 0x40
      if begun.missing = 1 then Char.ofNat point :: decodeFrom none rest
      else decodeFrom (some ⟨point, begun.missing - 1, 0x80, 0xBF⟩) rest
    else replacement :: ((begin_ byte).1 ++ decodeFrom (begin_ byte).2 rest)

/-- `toString("utf8")`. -/
def decode (bytes : List UInt8) : List Char :=
  decodeFrom none (bytes.map UInt8.toNat)

theorem decode_cons_ascii {byte : UInt8} (ascii : byte.toNat < 0x80) (rest : List UInt8) :
    decode (byte :: rest) = Char.ofNat byte.toNat :: decode rest := by
  simp [decode, decodeFrom, begin_, ascii]

example : decode [0xED, 0x95, 0x9C, 0xE2, 0x82, 0x41] = ['한', '\uFFFD', 'A'] := by decide

end Utf8Text
