/-! # Well-formed JSON texts

`JSON.parse` throws on anything but one JSON value with blanks around it. The
reader below runs over the code units of a text once, with the open containers
on a stack, and says whether it would throw.
-/

namespace JsonText

inductive Container where
  | object
  | array
  deriving Repr, DecidableEq

/-- What the reader is in the middle of. A flag tells a member's key from a value. -/
inductive Phase where
  | value
  | firstElement
  | firstKey
  | key
  | colon
  | after
  | literal (rest : List Nat)
  | string (isKey : Bool)
  | escape (isKey : Bool)
  | hex (isKey : Bool) (missing : Nat)
  | minus
  | zero
  | integer
  | point
  | fraction
  | exponent
  | exponentSign
  | exponentDigits
  deriving Repr, DecidableEq

structure Reader where
  stack : List Container
  phase : Phase
  deriving Repr, DecidableEq

def quote : Nat := 0x22

def backslash : Nat := 0x5C

def isBlank (unit : Nat) : Bool :=
  unit == 0x20 || unit == 0x09 || unit == 0x0A || unit == 0x0D

def isDigit (unit : Nat) : Bool :=
  '0'.toNat ≤ unit && unit ≤ '9'.toNat

def isHexDigit (unit : Nat) : Bool :=
  isDigit unit || ('A'.toNat ≤ unit && unit ≤ 'F'.toNat) || ('a'.toNat ≤ unit && unit ≤ 'f'.toNat)

/-- The single letters an escape may name; `u` stands for itself with its digits. -/
def isEscapeLetter (unit : Nat) : Bool :=
  unit == quote || unit == backslash || unit == '/'.toNat || unit == 'b'.toNat ||
    unit == 'f'.toNat || unit == 'n'.toNat || unit == 'r'.toNat || unit == 't'.toNat

def endString (stack : List Container) (isKey : Bool) : Reader :=
  ⟨stack, if isKey then .colon else .after⟩

def openValue (stack : List Container) (unit : Nat) : Option Reader :=
  if isBlank unit then some ⟨stack, .value⟩
  else if unit = '{'.toNat then some ⟨.object :: stack, .firstKey⟩
  else if unit = '['.toNat then some ⟨.array :: stack, .firstElement⟩
  else if unit = quote then some ⟨stack, .string false⟩
  else if unit = '-'.toNat then some ⟨stack, .minus⟩
  else if unit = '0'.toNat then some ⟨stack, .zero⟩
  else if isDigit unit then some ⟨stack, .integer⟩
  else if unit = 't'.toNat then some ⟨stack, .literal ['r'.toNat, 'u'.toNat, 'e'.toNat]⟩
  else if unit = 'f'.toNat then
    some ⟨stack, .literal ['a'.toNat, 'l'.toNat, 's'.toNat, 'e'.toNat]⟩
  else if unit = 'n'.toNat then some ⟨stack, .literal ['u'.toNat, 'l'.toNat, 'l'.toNat]⟩
  else none

/-- Between values: go on in the innermost container, or close it. -/
def afterValue (stack : List Container) (unit : Nat) : Option Reader :=
  if isBlank unit then some ⟨stack, .after⟩
  else
    match stack with
    | [] => none
    | .object :: outer =>
      if unit = ','.toNat then some ⟨stack, .key⟩
      else if unit = '}'.toNat then some ⟨outer, .after⟩
      else none
    | .array :: outer =>
      if unit = ','.toNat then some ⟨stack, .value⟩
      else if unit = ']'.toNat then some ⟨outer, .after⟩
      else none

def step (reader : Reader) (unit : Nat) : Option Reader :=
  let stack := reader.stack
  match reader.phase with
  | .value => openValue stack unit
  | .firstElement =>
    if isBlank unit then some reader
    else if unit = ']'.toNat then some ⟨stack.tail, .after⟩
    else openValue stack unit
  | .firstKey =>
    if isBlank unit then some reader
    else if unit = '}'.toNat then some ⟨stack.tail, .after⟩
    else if unit = quote then some ⟨stack, .string true⟩
    else none
  | .key =>
    if isBlank unit then some reader
    else if unit = quote then some ⟨stack, .string true⟩
    else none
  | .colon =>
    if isBlank unit then some reader
    else if unit = ':'.toNat then some ⟨stack, .value⟩
    else none
  | .after => afterValue stack unit
  | .literal rest =>
    match rest with
    | [] => afterValue stack unit
    | expected :: later => if unit = expected then some ⟨stack, .literal later⟩ else none
  | .string isKey =>
    if unit = quote then some (endString stack isKey)
    else if unit = backslash then some ⟨stack, .escape isKey⟩
    else if unit < 0x20 then none
    else some reader
  | .escape isKey =>
    if unit = 'u'.toNat then some ⟨stack, .hex isKey 4⟩
    else if isEscapeLetter unit then some ⟨stack, .string isKey⟩
    else none
  | .hex isKey missing =>
    if isHexDigit unit then
      some ⟨stack, if missing ≤ 1 then .string isKey else .hex isKey (missing - 1)⟩
    else none
  | .minus =>
    if unit = '0'.toNat then some ⟨stack, .zero⟩
    else if isDigit unit then some ⟨stack, .integer⟩
    else none
  | .zero =>
    if unit = '.'.toNat then some ⟨stack, .point⟩
    else if unit = 'e'.toNat ∨ unit = 'E'.toNat then some ⟨stack, .exponent⟩
    else afterValue stack unit
  | .integer =>
    if isDigit unit then some reader
    else if unit = '.'.toNat then some ⟨stack, .point⟩
    else if unit = 'e'.toNat ∨ unit = 'E'.toNat then some ⟨stack, .exponent⟩
    else afterValue stack unit
  | .point => if isDigit unit then some ⟨stack, .fraction⟩ else none
  | .fraction =>
    if isDigit unit then some reader
    else if unit = 'e'.toNat ∨ unit = 'E'.toNat then some ⟨stack, .exponent⟩
    else afterValue stack unit
  | .exponent =>
    if unit = '+'.toNat ∨ unit = '-'.toNat then some ⟨stack, .exponentSign⟩
    else if isDigit unit then some ⟨stack, .exponentDigits⟩
    else none
  | .exponentSign => if isDigit unit then some ⟨stack, .exponentDigits⟩ else none
  | .exponentDigits => if isDigit unit then some reader else afterValue stack unit

def isFinished (reader : Reader) : Bool :=
  reader.stack.isEmpty &&
    match reader.phase with
    | .after | .literal [] | .zero | .integer | .fraction | .exponentDigits => true
    | _ => false

/-- `JSON.parse` returns a value. -/
def parses (text : List Nat) : Bool :=
  (text.foldlM step ⟨[], .value⟩).any isFinished

/-- `JSON.parse` returns an object that is no array. -/
def parsesToObject (text : List Nat) : Bool :=
  parses text && (text.dropWhile isBlank).head? == some '{'.toNat

end JsonText
