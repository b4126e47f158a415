import PlatformClaw.Library.JsonText
import PlatformClaw.ToolCalls.Grammar

/-! # Scanning one serialized tool call

Besides the tagged forms a call may be written as a header and a JSON object:
in brackets or in Harmony's channel notation. `scanPlainTextToolCall` runs both
grammars at one place and says whether a call stands there, has begun there, or
cannot stand there.
-/

namespace ToolCallRepair

open Scanning

def DEFAULT_MAX_PLAIN_TEXT_TOOL_PAYLOAD_BYTES : Nat := 256000
def MAX_PLAIN_TEXT_TOOL_NAME_CHARS : Nat := 120
def HARMONY_CHANNELS : List Text := [units "commentary", units "analysis", units "final"]

structure PlainTextToolCallNameMatcher where
  hasExactName : Text → Bool
  hasNamePrefix : Text → Bool

inductive PlainTextJsonToolCallSyntax where
  | harmony
  | namedBracket
  | toolBracket
  deriving Repr, DecidableEq

structure PlainTextJsonToolCallState where
  depth : Int
  escaped : Bool
  inString : Bool
  deriving Repr, DecidableEq

structure PlainTextJsonToolCallCandidate where
  form : PlainTextJsonToolCallSyntax
  name : Span
  nameComplete : Bool
  payload : Option Span := none
  json : Option PlainTextJsonToolCallState := none
  deriving Repr, DecidableEq

inductive PlainTextJsonToolCallScan where
  | invalid (at_ : Nat) (candidate : Option PlainTextJsonToolCallCandidate)
  | unfinished (candidate : Option PlainTextJsonToolCallCandidate)
  | complete (value : PlainTextJsonToolCallCandidate) (payload : Span) (stop : Nat)
  deriving Repr, DecidableEq

inductive PlainTextJsonToolCallOpeningScan where
  | stopped (scan : PlainTextJsonToolCallScan)
  | opened (cursor : Nat) (value : PlainTextJsonToolCallCandidate)
  deriving Repr, DecidableEq

def scanToolNameEnd (text : Text) (start : Nat) : Option Nat :=
  let stop := skipWhile isPlainTextToolNameChar text start
  if MAX_PLAIN_TEXT_TOOL_NAME_CHARS < stop - start then none else some stop

/-- A name runs into the end of the text; an empty one names no candidate yet. -/
def unfinishedName (form : PlainTextJsonToolCallSyntax) (name : Span) : PlainTextJsonToolCallScan :=
  .unfinished (if name.start = name.stop then none else some { form, name, nameComplete := false })

/-- A bare bracketed name has to stand on its line alone. -/
def scanBracketLine (text : Text) (cursor : Nat) (value : PlainTextJsonToolCallCandidate)
    (lineBreakOffsets : List Nat) : PlainTextJsonToolCallOpeningScan :=
  let horizontalEnd := skipHorizontalWhitespace text cursor
  if horizontalEnd = text.length then .stopped (.unfinished (some value))
  else
    match consumeStructuralLineBreakAfterHorizontalWhitespace text cursor lineBreakOffsets with
    | none => .stopped (.invalid horizontalEnd (some value))
    | some afterLineBreak => .opened afterLineBreak value

def scanBracketName (text : Text) (form : PlainTextJsonToolCallSyntax) (nameStart : Nat)
    (lineBreakOffsets : List Nat) : PlainTextJsonToolCallOpeningScan :=
  match scanToolNameEnd text nameStart with
  | none => .stopped (.invalid (nameStart + MAX_PLAIN_TEXT_TOOL_NAME_CHARS) none)
  | some nameEnd =>
    let name : Span := ⟨nameStart, nameEnd⟩
    if nameEnd = text.length then .stopped (unfinishedName form name)
    else if nameStart = nameEnd ∨ text[nameEnd]? ≠ some ']'.toNat then
      .stopped (.invalid nameEnd none)
    else
      let value : PlainTextJsonToolCallCandidate := { form, name, nameComplete := true }
      if form = .namedBracket then scanBracketLine text (nameEnd + 1) value lineBreakOffsets
      else .opened (nameEnd + 1) value

def scanBracketOpening (text : Text) (start : Nat) (lineBreakOffsets : List Nat) : PlainTextJsonToolCallOpeningScan :=
  let cursor := start + 1
  if startsWithAt text (units "tool:") cursor then
    scanBracketName text .toolBracket (cursor + (units "tool:").length) lineBreakOffsets
  else if isPrefixAt text (units "tool:") cursor then .stopped (.unfinished none)
  else scanBracketName text .namedBracket cursor lineBreakOffsets

/-- The Harmony header after `code`, with a message marker that may be missing. -/
def scanHarmonyMessage (text : Text) (cursor : Nat) (value : PlainTextJsonToolCallCandidate) :
    PlainTextJsonToolCallOpeningScan :=
  if startsWithAt text HARMONY_MESSAGE_MARKER cursor then
    .opened (skipWhitespace text (cursor + HARMONY_MESSAGE_MARKER.length)) value
  else if isPrefixAt text HARMONY_MESSAGE_MARKER cursor then .stopped (.unfinished (some value))
  else if text[cursor]? = some '<'.toNat then .stopped (.invalid cursor (some value))
  else .opened cursor value

def scanHarmonyCode (text : Text) (cursor : Nat) (value : PlainTextJsonToolCallCandidate) :
    PlainTextJsonToolCallOpeningScan :=
  if startsWithAt text (units "code") cursor then
    scanHarmonyMessage text (skipWhitespace text (cursor + (units "code").length)) value
  else if isPrefixAt text (units "code") cursor then .stopped (.unfinished (some value))
  else .stopped (.invalid cursor (some value))

def scanHarmonyRecipient (text : Text) (nameStart : Nat) : PlainTextJsonToolCallOpeningScan :=
  match scanToolNameEnd text nameStart with
  | none => .stopped (.invalid (nameStart + MAX_PLAIN_TEXT_TOOL_NAME_CHARS) none)
  | some nameEnd =>
    let name : Span := ⟨nameStart, nameEnd⟩
    if nameEnd = text.length then .stopped (unfinishedName .harmony name)
    else if nameStart = nameEnd ∨ ¬text[nameEnd]?.any isHorizontalWhitespace then
      .stopped (.invalid nameEnd none)
    else
      scanHarmonyCode text (skipHorizontalWhitespace text nameEnd)
        { form := .harmony, name, nameComplete := true }

def scanHarmonyChannel (text : Text) (cursor : Nat) : PlainTextJsonToolCallOpeningScan :=
  match HARMONY_CHANNELS.find? (startsWithAt text · cursor) with
  | none =>
    if HARMONY_CHANNELS.any (isPrefixAt text · cursor) then .stopped (.unfinished none)
    else .stopped (.invalid cursor none)
  | some channel =>
    let channelEnd := cursor + channel.length
    if channelEnd = text.length then .stopped (.unfinished none)
    else if ¬text[channelEnd]?.any isHorizontalWhitespace then
      .stopped (.invalid channelEnd none)
    else
      let recipient := skipHorizontalWhitespace text channelEnd
      if startsWithAt text (units "to=") recipient then
        scanHarmonyRecipient text (recipient + (units "to=").length)
      else if isPrefixAt text (units "to=") recipient then .stopped (.unfinished none)
      else .stopped (.invalid recipient none)

def scanHarmonyOpening (text : Text) (start : Nat) : PlainTextJsonToolCallOpeningScan :=
  if startsWithAt text HARMONY_CHANNEL_MARKER start then
    scanHarmonyChannel text (start + HARMONY_CHANNEL_MARKER.length)
  else if isPrefixAt text HARMONY_CHANNEL_MARKER start then .stopped (.unfinished none)
  else if text[start]? = some '<'.toNat then .stopped (.invalid start none)
  else scanHarmonyChannel text start

/-- One code unit of the object; the depth counts braces outside strings. -/
def PlainTextJsonToolCallState.read (state : PlainTextJsonToolCallState) (char : Nat) : PlainTextJsonToolCallState :=
  if state.inString then
    if state.escaped then { state with escaped := false }
    else if char = JsonText.backslash then { state with escaped := true }
    else if char = JsonText.quote then { state with inString := false }
    else state
  else if char = JsonText.quote then { state with inString := true }
  else if char = '{'.toNat then { state with depth := state.depth + 1 }
  else if char = '}'.toNat then { state with depth := state.depth - 1 }
  else state

structure JsonObjectScan where
  stop : Nat
  finished : Bool
  state : PlainTextJsonToolCallState
  deriving Repr, DecidableEq

def scanJsonUnits : Text → Nat → PlainTextJsonToolCallState → JsonObjectScan
  | [], index, state => ⟨index, false, state⟩
  | char :: rest, index, state =>
    let next := state.read char
    if ¬state.inString ∧ char = '}'.toNat ∧ next.depth = 0 then ⟨index + 1, true, next⟩
    else scanJsonUnits rest (index + 1) next

def scanJsonObject (text : Text) (start : Nat) : JsonObjectScan :=
  scanJsonUnits (text.drop start) start ⟨0, false, false⟩

inductive ClosingScan where
  | found (stop : Nat)
  | begun
  | missing
  deriving Repr, DecidableEq

def scanClosing (text : Text) (markerStart : Nat) : List Text → ClosingScan
  | [] => .missing
  | closing :: others =>
    if startsWithAt text closing markerStart then .found (markerStart + closing.length)
    else if isPrefixAt text closing markerStart then .begun
    else scanClosing text markerStart others

def nameClosing (text : Text) (name : Span) : Text :=
  units "[/" ++ name.of text ++ units "]"

/-- Behind the object: a bare bracketed name needs its closing marker, the other forms
take one that is there. -/
def scanJsonClosing (text : Text) (value : PlainTextJsonToolCallCandidate) (payload : Span)
    (state : PlainTextJsonToolCallState) : PlainTextJsonToolCallScan :=
  let closingCandidate := { value with payload := some payload, json := some state }
  let closed := { value with payload := some payload }
  let markerStart := skipWhitespace text payload.stop
  if value.form = .namedBracket then
    if markerStart = text.length then .unfinished (some closingCandidate)
    else
      match scanClosing text markerStart [END_TOOL_REQUEST, nameClosing text value.name] with
      | .found stop => .complete closed payload stop
      | .begun => .unfinished (some closingCandidate)
      | .missing => .invalid markerStart (some closingCandidate)
  else if markerStart = text.length then .complete closed payload payload.stop
  else
    match scanClosing text markerStart
      [HARMONY_CALL_MARKER, END_TOOL_REQUEST, nameClosing text value.name] with
    | .found stop => .complete closed payload stop
    | .begun => .unfinished (some closingCandidate)
    | .missing => .complete closed payload payload.stop

/-- The part of `scanPlainTextJsonToolCall` behind the opening. -/
def scanJsonPayload (text : Text) (cursor : Nat) (value : PlainTextJsonToolCallCandidate) :
    PlainTextJsonToolCallScan :=
  let payloadStart := skipWhitespace text cursor
  if payloadStart = text.length then .unfinished (some value)
  else if text[payloadStart]? ≠ some '{'.toNat then .invalid payloadStart (some value)
  else
    let json := scanJsonObject text payloadStart
    let payload : Span := ⟨payloadStart, json.stop⟩
    if json.finished = false then
      .unfinished (some { value with payload := some payload, json := some json.state })
    else scanJsonClosing text value payload json.state

def PlainTextJsonToolCallOpeningScan.scan (text : Text) : PlainTextJsonToolCallOpeningScan → PlainTextJsonToolCallScan
  | .stopped scan => scan
  | .opened cursor value => scanJsonPayload text cursor value

def scanPlainTextJsonToolCall (text : Text) (start : Nat) (lineBreakOffsets : List Nat) : PlainTextJsonToolCallScan :=
  if text[start]? = some '['.toNat then (scanBracketOpening text start lineBreakOffsets).scan text
  else (scanHarmonyOpening text start).scan text

/-- Whether the arguments parse to an object; which one they are is not looked at here. -/
def parseJsonArguments (text : Text) (payload : Span) : Bool :=
  JsonText.parsesToObject (payload.of text)

/-- What either grammar knows of the call it reads. -/
structure PlainTextToolCallScanCandidate where
  name : Span
  nameComplete : Bool
  payload : Option Span
  deriving Repr, DecidableEq

def XmlishToolCallScan.value : XmlishToolCallScan → Option PlainTextToolCallScanCandidate
  | .invalid _ candidate | .unfinished candidate _ =>
    candidate.map fun value => ⟨value.name, value.nameComplete, value.payload⟩
  | .complete value payload _ => some ⟨value.name, value.nameComplete, some payload⟩

def PlainTextJsonToolCallScan.value : PlainTextJsonToolCallScan → Option PlainTextToolCallScanCandidate
  | .invalid _ candidate | .unfinished candidate =>
    candidate.map fun value => ⟨value.name, value.nameComplete, value.payload⟩
  | .complete value payload _ => some ⟨value.name, value.nameComplete, some payload⟩

def XmlishToolCallScan.isUnfinished : XmlishToolCallScan → Bool
  | .unfinished _ _ => true
  | _ => false

def PlainTextJsonToolCallScan.isUnfinished : PlainTextJsonToolCallScan → Bool
  | .unfinished _ => true
  | _ => false

structure ScanOptions where
  matcher : Option PlainTextToolCallNameMatcher := none
  maxPayloadBytes : Nat := DEFAULT_MAX_PLAIN_TEXT_TOOL_PAYLOAD_BYTES
  lineBreakOffsets : List Nat := []

namespace ScanOptions

/-- Without a matcher every name is accepted. -/
def hasName (options : ScanOptions) (name : Text) (nameComplete : Bool) : Bool :=
  match options.matcher with
  | none => true
  | some matcher => if nameComplete then matcher.hasExactName name else matcher.hasNamePrefix name

def accepts (options : ScanOptions) (text : Text) (value : Option PlainTextToolCallScanCandidate)
    (isUnfinished : Bool) : Bool :=
  match value with
  | none => isUnfinished
  | some candidate => options.hasName (candidate.name.of text) candidate.nameComplete

def exceeds (options : ScanOptions) (text : Text) (payload : Option Span) : Bool :=
  payload.any fun span =>
    utf8ByteLengthWithinLimit text span.start span.stop options.maxPayloadBytes == none

end ScanOptions

inductive PlainTextToolCallScanKind where
  | complete (stop : Nat)
  | unfinished (completeEnd : Option Nat)
  | invalid (at_ : Nat)
  deriving Repr, DecidableEq

structure PlainTextToolCallScanBranches where
  json : PlainTextJsonToolCallScan
  matchesJson : Bool
  matchesXmlish : Bool
  xmlish : XmlishToolCallScan
  deriving Repr, DecidableEq

/-- What `scanPlainTextToolCall` adds to the branches. -/
structure PlainTextToolCallVerdict where
  kind : PlainTextToolCallScanKind
  next : Nat
  overCap : Bool
  payloadStart : Option Nat
  deriving Repr, DecidableEq

structure PlainTextToolCallScan extends PlainTextToolCallScanBranches, PlainTextToolCallVerdict
  deriving Repr, DecidableEq

namespace PlainTextToolCallVerdict

def complete (stop : Nat) (overCap : Bool) (payload : Span) : PlainTextToolCallVerdict :=
  ⟨.complete stop, stop, overCap, some payload.start⟩

def invalid (at_ : Nat) (overCap : Bool) (payloadStart : Option Nat) : PlainTextToolCallVerdict :=
  ⟨.invalid at_, at_, overCap, payloadStart⟩

end PlainTextToolCallVerdict

def XmlishToolCallScan.completeEnd : XmlishToolCallScan → Option Nat
  | .unfinished _ completeEnd => completeEnd
  | _ => none

namespace PlainTextToolCallScanBranches

def xmlPayload (branches : PlainTextToolCallScanBranches) : Option Span :=
  if branches.matchesXmlish then branches.xmlish.value.bind (·.payload) else none

def jsonPayload (branches : PlainTextToolCallScanBranches) : Option Span :=
  if branches.matchesJson then branches.json.value.bind (·.payload) else none

def xmlPrefix (branches : PlainTextToolCallScanBranches) : Bool :=
  branches.matchesXmlish && branches.xmlish.isUnfinished

def jsonPrefix (branches : PlainTextToolCallScanBranches) : Bool :=
  branches.matchesJson && branches.json.isUnfinished

/-- Where the scan goes on once neither grammar can make a call of this place. -/
def nextAfterInvalid (branches : PlainTextToolCallScanBranches) (text : Text) (start : Nat) : Nat :=
  let afterXml :=
    if branches.matchesXmlish then
      max (start + 1) (match branches.xmlish with
        | .invalid at_ _ => at_
        | _ => text.length)
    else start + 1
  if branches.matchesJson then
    max afterXml (match branches.json with
      | .complete _ _ stop => stop
      | .invalid at_ _ => at_
      | .unfinished _ => text.length)
  else afterXml

/-- A call has begun, or there is none. -/
def judgePrefix (branches : PlainTextToolCallScanBranches) (options : ScanOptions) (text : Text)
    (start : Nat) : PlainTextToolCallVerdict :=
  if branches.xmlPrefix || branches.jsonPrefix then
    let payload := if branches.xmlPrefix then branches.xmlPayload else branches.jsonPayload
    ⟨.unfinished branches.xmlish.completeEnd, text.length, options.exceeds text payload, payload.map Span.start⟩
  else .invalid (branches.nextAfterInvalid text start) false none

def judgeOverCap (branches : PlainTextToolCallScanBranches) (options : ScanOptions) (text : Text)
    (start : Nat) : PlainTextToolCallVerdict :=
  let afterXml :=
    match branches.json with
    | .invalid at_ _ =>
      if options.exceeds text branches.jsonPayload then
        .invalid at_ true (branches.jsonPayload.map Span.start)
      else branches.judgePrefix options text start
    | _ => branches.judgePrefix options text start
  match branches.xmlish with
  | .invalid at_ _ =>
    if options.exceeds text branches.xmlPayload then
      .invalid at_ true (branches.xmlPayload.map Span.start)
    else afterXml
  | _ => afterXml

/-- An object that does not parse makes no call, except that none over the cap is parsed. -/
def judgeJson (branches : PlainTextToolCallScanBranches) (options : ScanOptions) (text : Text)
    (start : Nat) : PlainTextToolCallVerdict :=
  match branches.json with
  | .complete _ payload stop =>
    if branches.matchesJson then
      if options.exceeds text (some payload) || parseJsonArguments text payload then
        .complete stop (options.exceeds text (some payload)) payload
      else .invalid stop false (some payload.start)
    else branches.judgeOverCap options text start
  | _ => branches.judgeOverCap options text start

/-- The tagged grammar has the first say about a complete call. -/
def judge (branches : PlainTextToolCallScanBranches) (options : ScanOptions) (text : Text)
    (start : Nat) : PlainTextToolCallVerdict :=
  match branches.xmlish with
  | .complete _ payload stop =>
    if branches.matchesXmlish then .complete stop (options.exceeds text (some payload)) payload
    else branches.judgeJson options text start
  | _ => branches.judgeJson options text start

end PlainTextToolCallScanBranches

def scanBranches (text : Text) (start : Nat) (options : ScanOptions) : PlainTextToolCallScanBranches :=
  let xmlish := scanXmlishToolCall text start options.lineBreakOffsets
  let json := scanPlainTextJsonToolCall text start options.lineBreakOffsets
  { json, xmlish, matchesJson := options.accepts text json.value json.isUnfinished,
    matchesXmlish := options.accepts text xmlish.value xmlish.isUnfinished }

def scanPlainTextToolCall (text : Text) (start : Nat) (options : ScanOptions) : PlainTextToolCallScan :=
  let branches := scanBranches text start options
  { branches, branches.judge options text start with }

end ToolCallRepair
