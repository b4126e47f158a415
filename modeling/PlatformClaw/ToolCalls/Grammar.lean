import PlatformClaw.Library.Scanning
import PlatformClaw.Library.ScriptString

/-! # The tag grammar of serialized tool calls

Models sometimes write a tool call into their text instead of making it. This
is the grammar of the forms with tags: a function tag or a bracketed name, then
parameters, then a closing tag that one of the forms may leave out. A text is
the sequence of its UTF-16 code units and all positions count them.
-/

namespace ToolCallRepair

open Scanning

abbrev Text := List Nat

def units (literal : String) : Text := ScriptString.codeUnits literal

def END_TOOL_REQUEST : Text := units "[END_TOOL_REQUEST]"
def HARMONY_CHANNEL_MARKER : Text := units "<|channel|>"
def HARMONY_MESSAGE_MARKER : Text := units "<|message|>"
def HARMONY_CALL_MARKER : Text := units "<|call|>"

def isAsciiAlphanumeric (unit : Nat) : Bool :=
  ('A'.toNat ≤ unit && unit ≤ 'Z'.toNat) || ('a'.toNat ≤ unit && unit ≤ 'z'.toNat) ||
    ('0'.toNat ≤ unit && unit ≤ '9'.toNat)

def isPlainTextToolNameChar (unit : Nat) : Bool :=
  isAsciiAlphanumeric unit || unit == '_'.toNat || unit == '-'.toNat

def isXmlishNameChar (unit : Nat) : Bool :=
  isAsciiAlphanumeric unit || unit == '_'.toNat || unit == '.'.toNat || unit == ':'.toNat || unit == '-'.toNat

def isHorizontalWhitespace (unit : Nat) : Bool :=
  unit == 0x20 || unit == 0x09

def isLineTerminator (unit : Nat) : Bool :=
  unit == 0x0D || unit == 0x0A

def isLineIndentation (unit : Nat) : Bool :=
  ScriptString.isWhitespacePoint unit && !isLineTerminator unit

def skipHorizontalWhitespace (text : Text) (start : Nat) : Nat :=
  skipWhile isHorizontalWhitespace text start

def skipLineIndentation (text : Text) (start : Nat) : Nat :=
  skipWhile isLineIndentation text start

def skipWhitespace (text : Text) (start : Nat) : Nat :=
  skipWhile ScriptString.isWhitespacePoint text start

/-- Unix and Windows line ends; the offset after them. -/
def consumeLineBreak (text : Text) (start : Nat) : Option Nat :=
  if text[start]? = some 0x0D then
    some (if text[start + 1]? = some 0x0A then start + 2 else start + 1)
  else if text[start]? = some 0x0A then some (start + 1)
  else none

def consumeStructuralLineBreakAfterHorizontalWhitespace (text : Text) (start : Nat)
    (lineBreakOffsets : List Nat) : Option Nat :=
  let right := skipHorizontalWhitespace text start
  match consumeLineBreak text right with
  | some actual => some actual
  | none => (List.range' start (right + 1 - start)).find? (lineBreakOffsets.contains ·)

/-- Encoded length; a surrogate without its partner is encoded as a replacement. -/
def utf8ByteLength : Text → Nat
  | [] => 0
  | high :: low :: rest =>
    if 0xD800 ≤ high ∧ high < 0xDC00 ∧ 0xDC00 ≤ low ∧ low < 0xE000 then 4 + utf8ByteLength rest
    else (if high ≤ 0x7F then 1 else if high ≤ 0x7FF then 2 else 3) + utf8ByteLength (low :: rest)
  | [unit] => if unit ≤ 0x7F then 1 else if unit ≤ 0x7FF then 2 else 3

def utf8ByteLengthWithinLimit (text : Text) (start stop maxBytes : Nat) : Option Nat :=
  if maxBytes < stop - start then none
  else
    let byteLength := utf8ByteLength (slice text start stop)
    if byteLength ≤ maxBytes then some byteLength else none

/-- `toLowerCase` where it matters: no other code unit lowers to a marker's letters. -/
def asciiLower (unit : Nat) : Nat :=
  if 'A'.toNat ≤ unit ∧ unit ≤ 'Z'.toNat then unit + 32 else unit

def startsWithAsciiMarkerIgnoreCase (text : Text) (cursor : Nat) (marker : Text) : Bool :=
  startsWithAt (text.map asciiLower) marker cursor

def isAsciiMarkerPrefixIgnoreCase (text : Text) (cursor : Nat) (marker : Text) : Bool :=
  isPrefixAt (text.map asciiLower) marker cursor

def indexOfAsciiMarkerIgnoreCase (text marker : Text) (start : Nat) : Option Nat :=
  indexOf? (text.map asciiLower) marker start

/-- A stretch of the text up to, and without, its `stop`. -/
structure Span where
  start : Nat
  stop : Nat
  deriving Repr, DecidableEq

def Span.of (span : Span) (text : Text) : Text := slice text span.start span.stop

structure XmlishToolCallParameterSpan where
  name : Span
  value : Span
  deriving Repr, DecidableEq

inductive XmlishSyntax where
  | function
  | namedBracket
  | toolBracket
  deriving Repr, DecidableEq

structure XmlishToolCallCandidate where
  form : XmlishSyntax
  name : Span
  nameComplete : Bool
  parameters : List XmlishToolCallParameterSpan := []
  payload : Option Span := none
  activeParameterOpenEnd : Option Nat := none
  deriving Repr, DecidableEq

/-- `completeEnd` of an unfinished call is where a static text may be cut. -/
inductive XmlishToolCallScan where
  | invalid (at_ : Nat) (candidate : Option XmlishToolCallCandidate)
  | unfinished (candidate : Option XmlishToolCallCandidate) (completeEnd : Option Nat)
  | complete (value : XmlishToolCallCandidate) (payload : Span) (stop : Nat)
  deriving Repr, DecidableEq

def FUNCTION_OPEN : Text := units "<function="
def FUNCTION_CLOSE : Text := units "</function>"
def PARAMETER_OPEN : Text := units "<parameter="
def PARAMETER_CLOSE : Text := units "</parameter>"

/-- The part of `scanXmlishToolCall` before its loop. -/
inductive XmlishOpening where
  | stopped (scan : XmlishToolCallScan)
  | opened (form : XmlishSyntax) (name : Span) (cursor : Nat)
  deriving Repr, DecidableEq

def scanFunctionName (text : Text) (nameStart : Nat) : XmlishOpening :=
  let cursor := skipWhileUpTo 121 isXmlishNameChar text nameStart
  let name : Span := ⟨nameStart, cursor⟩
  if 120 < cursor - nameStart then .stopped (.invalid cursor none)
  else if cursor = text.length then
    .stopped (.unfinished (some { form := .function, name, nameComplete := false }) none)
  else if cursor = nameStart ∨ text[cursor]? ≠ some '>'.toNat then
    .stopped (.invalid cursor none)
  else .opened .function name (cursor + 1)

def scanFunctionOpening (text : Text) (start : Nat) : XmlishOpening :=
  if ¬startsWithAsciiMarkerIgnoreCase text start FUNCTION_OPEN ∧
      ¬isAsciiMarkerPrefixIgnoreCase text start FUNCTION_OPEN then
    .stopped (.invalid start none)
  else if text.length - start < FUNCTION_OPEN.length then .stopped (.unfinished none none)
  else scanFunctionName text (start + FUNCTION_OPEN.length)

def scanXmlishBracketClose (text : Text) (form : XmlishSyntax) (name : Span)
    (lineBreakOffsets : List Nat) : XmlishOpening :=
  if name.stop = text.length then
    .stopped (.unfinished (some { form, name, nameComplete := false }) none)
  else if name.start = name.stop ∨ text[name.stop]? ≠ some ']'.toNat then
    .stopped (.invalid name.stop none)
  else
    let cursor := name.stop + 1
    if form = .namedBracket then
      if cursor = text.length then
        .stopped (.unfinished (some { form, name, nameComplete := true }) none)
      else
        match consumeStructuralLineBreakAfterHorizontalWhitespace text cursor lineBreakOffsets with
        | none => .stopped (.invalid cursor none)
        | some afterLineBreak => .opened form name afterLineBreak
    else .opened form name cursor

def scanXmlishToolName (text : Text) (nameStart : Nat) (lineBreakOffsets : List Nat) : XmlishOpening :=
  let cursor := skipWhileUpTo 121 isPlainTextToolNameChar text nameStart
  if 120 < cursor - nameStart then .stopped (.invalid cursor none)
  else scanXmlishBracketClose text .toolBracket ⟨nameStart, cursor⟩ lineBreakOffsets

def scanXmlishBracketOpening (text : Text) (start : Nat) (lineBreakOffsets : List Nat) : XmlishOpening :=
  let firstNameStart := start + 1
  let cursor := skipWhileUpTo 121 isPlainTextToolNameChar text firstNameStart
  if 120 < cursor - firstNameStart then .stopped (.invalid cursor none)
  else
    let firstName := slice text firstNameStart cursor
    if cursor = text.length ∧ firstName.isPrefixOf (units "tool") then
      .stopped (.unfinished none none)
    else if text[cursor]? = some ':'.toNat ∧ firstName = units "tool" then
      scanXmlishToolName text (cursor + 1) lineBreakOffsets
    else scanXmlishBracketClose text .namedBracket ⟨firstNameStart, cursor⟩ lineBreakOffsets

def scanXmlishOpening (text : Text) (start : Nat) (lineBreakOffsets : List Nat) : XmlishOpening :=
  if text[start]? = some '<'.toNat then scanFunctionOpening text start
  else if text[start]? = some '['.toNat then scanXmlishBracketOpening text start lineBreakOffsets
  else .stopped (.invalid start none)

/-- One call's tags after the opening, as far as they are known. -/
structure XmlishBody where
  form : XmlishSyntax
  name : Span
  bodyStart : Nat
  parameters : List XmlishToolCallParameterSpan := []
  lastParameterEnd : Option Nat := none
  deriving Repr, DecidableEq

namespace XmlishBody

def candidate (body : XmlishBody) (payloadEnd : Nat) (activeParameterOpenEnd : Option Nat := none) :
    XmlishToolCallCandidate :=
  { form := body.form, name := body.name, nameComplete := true, parameters := body.parameters,
    payload := some ⟨body.bodyStart, payloadEnd⟩, activeParameterOpenEnd }

/-- Only the bracketed `tool:` form may end with its last parameter. -/
def completeEnd (body : XmlishBody) : Option Nat :=
  if body.form = .toolBracket then body.lastParameterEnd else none

def invalid (body : XmlishBody) (at_ : Nat) : XmlishToolCallScan :=
  .invalid at_ (some (body.candidate at_))

def unfinished (body : XmlishBody) (payloadEnd : Nat) (activeParameterOpenEnd : Option Nat := none) :
    XmlishToolCallScan :=
  .unfinished (some (body.candidate payloadEnd activeParameterOpenEnd)) body.completeEnd

def complete (body : XmlishBody) (payloadEnd stop : Nat) : XmlishToolCallScan :=
  .complete (body.candidate payloadEnd) ⟨body.bodyStart, payloadEnd⟩ stop

def push (body : XmlishBody) (parameter : XmlishToolCallParameterSpan) (stop : Nat) : XmlishBody :=
  { body with parameters := body.parameters ++ [parameter], lastParameterEnd := some stop }

end XmlishBody

/-- A parameter tag: the loop goes on behind it, or the scan ends here. -/
def scanXmlishParameter (text : Text) (body : XmlishBody) (markerStart : Nat) :
    Except XmlishToolCallScan (XmlishBody × Nat) :=
  let nameStart := markerStart + PARAMETER_OPEN.length
  let nameEnd := skipWhileUpTo 121 isXmlishNameChar text nameStart
  if 120 < nameEnd - nameStart then .error (body.invalid markerStart)
  else if nameEnd = text.length then .error (body.unfinished markerStart)
  else if nameEnd = nameStart ∨ text[nameEnd]? ≠ some '>'.toNat then
    .error (body.invalid markerStart)
  else
    let valueStart := nameEnd + 1
    match indexOfAsciiMarkerIgnoreCase text PARAMETER_CLOSE valueStart with
    | none => .error (body.unfinished text.length (some valueStart))
    | some closeStart =>
      let stop := closeStart + PARAMETER_CLOSE.length
      .ok (body.push ⟨⟨nameStart, nameEnd⟩, ⟨valueStart, closeStart⟩⟩ stop, stop)

/-- One turn of the loop of `scanXmlishToolCall`: a result, or a parameter passed. -/
def scanXmlishTurn (text : Text) (body : XmlishBody) (cursor : Nat) : Except XmlishToolCallScan (XmlishBody × Nat) :=
  let markerStart := skipWhitespace text cursor
  if markerStart = text.length then
    .error (match body.completeEnd with
      | some last => body.complete last last
      | none => .unfinished (some (body.candidate text.length)) none)
  else if startsWithAsciiMarkerIgnoreCase text markerStart FUNCTION_CLOSE then
    .error (if body.form ≠ .function ∧ body.parameters = [] then body.invalid markerStart
      else body.complete markerStart (markerStart + FUNCTION_CLOSE.length))
  else if isAsciiMarkerPrefixIgnoreCase text markerStart FUNCTION_CLOSE then
    .error (body.unfinished markerStart)
  else if startsWithAsciiMarkerIgnoreCase text markerStart PARAMETER_OPEN then
    scanXmlishParameter text body markerStart
  else if isAsciiMarkerPrefixIgnoreCase text markerStart PARAMETER_OPEN then
    .error (body.unfinished markerStart)
  else
    .error (match body.completeEnd with
      | some last => body.complete last last
      | none => body.invalid markerStart)

/-- The loop of `scanXmlishToolCall`. Every turn passes a closing tag, so the
length of the text bounds the number of turns. -/
def scanXmlishBody (text : Text) : Nat → XmlishBody → Nat → XmlishToolCallScan
  | 0, body, cursor => body.invalid cursor
  | turns + 1, body, cursor =>
    match scanXmlishTurn text body cursor with
    | .error scan => scan
    | .ok (next, stop) => scanXmlishBody text turns next stop

def scanXmlishToolCall (text : Text) (start : Nat) (lineBreakOffsets : List Nat) : XmlishToolCallScan :=
  match scanXmlishOpening text start lineBreakOffsets with
  | .stopped scan => scan
  | .opened form name cursor =>
    scanXmlishBody text (text.length + 1) { form, name, bodyStart := cursor } cursor

end ToolCallRepair
