import PlatformClaw.Library.LineReader
import PlatformClaw.Library.Utf8Text

/-! # The control protocol of tmux

`TmuxControlParser`: bytes are framed into lines, UTF-8 is decoded only after the
escapes of a pane are removed. The terminal stops at the first error, so nothing
is read after one.
-/

namespace PlatformClaw.Execution.Tmux

def maxLineBytes : Nat := 256 * 1024

def maxResponseBytes : Nat := 64 * 1024

inductive TmuxControlEvent where
  | response (id : String) (flags : Nat) (error : Bool) (lines : List String)
  | output (paneId : String) (data : List UInt8)
  | notification (line : String)
  deriving DecidableEq

inductive TmuxControlError where
  | invalidEscape
  | lineLimit
  | nestedResponse
  | mismatchedResponse
  | responseLimit
  | invalidNotification
  deriving DecidableEq

def TmuxControlError.message : TmuxControlError → String
  | .invalidEscape => "Invalid tmux control output escape."
  | .lineLimit => "Tmux control line exceeded the limit."
  | .nestedResponse => "Nested tmux control response."
  | .mismatchedResponse => "Mismatched tmux control response."
  | .responseLimit => "Tmux control response exceeded the limit."
  | .invalidNotification => "Invalid tmux control notification."

/-- A digit of the octal escape; reading as ASCII ignores the highest bit. -/
def octalDigit? (highest : Nat) (byte : UInt8) : Option Nat :=
  let c := byte.toNat % 128
  if 48 ≤ c ∧ c ≤ 48 + highest then some (c - 48) else none

/-- The bytes of a pane behind their escapes: bytes below space and the backslash are three octal
    digits. -/
def decodeTmuxOutput : List UInt8 → Option (List UInt8)
  | [] => some []
  | byte :: rest =>
    if byte ≠ 92 then (byte :: ·) <$> decodeTmuxOutput rest
    else
      match rest with
      | first :: second :: third :: rest => do
          let first ← octalDigit? 3 first
          let second ← octalDigit? 7 second
          let third ← octalDigit? 7 third
          (UInt8.ofNat (first * 64 + second * 8 + third) :: ·) <$> decodeTmuxOutput rest
      | _ => none

inductive GuardKind where
  | begin_
  | end_
  | error
  deriving DecidableEq

structure ResponseGuard where
  kind : GuardKind
  id : String
  flags : Nat
  deriving DecidableEq

/-- `\d{1,max}` and what follows it. -/
def digits? (max : Nat) (text : List Char) : Option (List Char × List Char) :=
  let digits := text.takeWhile Char.isDigit
  if 1 ≤ digits.length ∧ digits.length ≤ max then some (digits, text.dropWhile Char.isDigit)
  else none

def afterPrefix? (start text : List Char) : Option (List Char) :=
  if start.isPrefixOf text then some (text.drop start.length) else none

/-- `^%(begin|end|error) (\d{1,20}) (\d{1,20}) ([01])$`. -/
def guard? (line : List Char) : Option ResponseGuard := do
  let (kind, rest) ←
    ((afterPrefix? "%begin ".toList line).map (GuardKind.begin_, ·)).or
      (((afterPrefix? "%end ".toList line).map (GuardKind.end_, ·)).or
        ((afterPrefix? "%error ".toList line).map (GuardKind.error, ·)))
  let (time, rest) ← digits? 20 rest
  let rest ← afterPrefix? [' '] rest
  let (number, rest) ← digits? 20 rest
  let rest ← afterPrefix? [' '] rest
  let flags ← if rest = ['0'] then some 0 else if rest = ['1'] then some 1 else none
  return { kind, id := .ofList (time ++ ' ' :: number ++ ' ' :: rest), flags }

def isDigitByte (byte : UInt8) : Bool :=
  48 ≤ byte ∧ byte ≤ 57

/-- `%output %` in bytes. -/
def outputPrefix : List UInt8 := [37, 111, 117, 116, 112, 117, 116, 32, 37]

/-- `^%output (%\d{1,10}) `: the pane and the bytes behind. -/
def output? (bytes : List UInt8) : Option (String × List UInt8) :=
  if outputPrefix.isPrefixOf bytes then
    let rest := bytes.drop outputPrefix.length
    let digits := rest.takeWhile isDigitByte
    if 1 ≤ digits.length ∧ digits.length ≤ 10 then
      match rest.dropWhile isDigitByte with
      | 32 :: data =>
        some (.ofList ('%' :: digits.map fun byte => Char.ofNat byte.toNat), data)
      | _ => none
    else none
  else none

/-- A response whose end has not come yet. -/
structure Block where
  id : String
  flags : Nat
  lines : List String
  size : Nat
  deriving DecidableEq

abbrev Reading (α : Type) : Type := Emitted TmuxControlEvent TmuxControlError α

def readLine (block : Option Block) (bytes : List UInt8) : Reading (Option Block) :=
  let line := Utf8Text.decode bytes
  match guard? line with
  | some found =>
    match found.kind, block with
    | .begin_, some _ => .failed .nestedResponse
    | .begin_, none =>
      .done (some { id := found.id, flags := found.flags, lines := [], size := 0 })
    | _, none => .failed .mismatchedResponse
    | kind, some block =>
      if block.id ≠ found.id then .failed .mismatchedResponse
      else
        ⟨[.response found.id block.flags (kind = .error) block.lines], .ok none⟩
  | none =>
    match block with
    | some block =>
      let size := block.size + bytes.length + 1
      if maxResponseBytes < size then .failed .responseLimit
      else .done (some { block with lines := block.lines ++ [.ofList line], size })
    | none =>
      match output? bytes with
      | some (paneId, data) =>
        match decodeTmuxOutput data with
        | none => .failed .invalidEscape
        | some data => ⟨[.output paneId data], .ok none⟩
      | none =>
        if line.head? ≠ some '%' then .failed .invalidNotification
        else ⟨[.notification (.ofList line)], .ok none⟩

def controlReader : LineReader UInt8 (Option Block) TmuxControlEvent TmuxControlError where
  newline := 10
  maxLine := maxLineBytes
  tooLong := .lineLimit
  readLine := readLine

abbrev TmuxControlParser : Type := Assembly UInt8 (Option Block)

namespace TmuxControlParser

def fresh : TmuxControlParser := ⟨[], none⟩

def push (parser : TmuxControlParser) (chunk : List UInt8) : Reading TmuxControlParser :=
  controlReader.push parser chunk

/-- The chunks of a stream, up to the first error. -/
def read (parser : TmuxControlParser) (chunks : List (List UInt8)) : Reading TmuxControlParser :=
  controlReader.read parser chunks

end TmuxControlParser

end PlatformClaw.Execution.Tmux
