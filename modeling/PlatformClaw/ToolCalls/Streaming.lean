import PlatformClaw.ToolCalls.Stripping

/-! # Classifying buffered stream text

While a model's answer streams in, text that may be a tool call is held back.
`classifyPending` looks at what is buffered and says whether it goes on waiting, is
released as it is, is released without the calls in it, or is suppressed.
-/

namespace ToolCallRepair

open Scanning

def MAX_PAYLOAD_BYTES : Nat := 256000

structure CandidatePart where
  contentIndex : Nat
  start : Nat
  stop : Nat
  deriving Repr, DecidableEq

structure StandalonePlainTextToolCallCandidate where
  parts : List CandidatePart
  text : Text
  deriving Repr, DecidableEq

structure ScannedCallSequence where
  start : Nat
  stop : Nat
  activeStart : Option Nat
  overCap : Bool
  deriving Repr, DecidableEq

structure ScannedCall where
  stop : Nat
  incomplete : Bool
  overCap : Bool
  payloadStart : Option Nat
  deriving Repr, DecidableEq

/-- A malformed or unfinished call counts as one when its payload is over the cap. -/
def scannedCall (scan : PlainTextToolCallScan) : Option ScannedCall :=
  match scan.kind with
  | .complete stop => some ⟨stop, false, scan.overCap, scan.payloadStart⟩
  | .unfinished _ =>
    if scan.overCap && scan.payloadStart.isSome then some ⟨scan.next, true, true, scan.payloadStart⟩
    else none
  | .invalid at_ =>
    if scan.overCap && scan.payloadStart.isSome then some ⟨at_, false, true, scan.payloadStart⟩
    else none

def scanHasNamedCandidate (scan : PlainTextToolCallScan) : Bool :=
  [scan.json.value, scan.xmlish.value].any fun value =>
    value.any fun candidate => candidate.name.start < candidate.name.stop

/-- An unfinished scan that has read a part of a name. -/
def isNamedPrefix (scan : PlainTextToolCallScan) : Bool :=
  match scan.kind with
  | .unfinished _ => scanHasNamedCandidate scan
  | _ => false

def consumeRemovedLineEnd (text : Text) (stop : Nat) : Nat :=
  let lineBreakStart := skipLineIndentation text stop
  if lineBreakStart = text.length then lineBreakStart
  else (consumeLineBreak text lineBreakStart).getD stop

/-- The offset at which the encoded bytes exceed the cap, counted from `index` on. -/
def utf8OverCapOffset : Text → Nat → Nat → Option Nat
  | [], _, _ => none
  | [unit], index, bytes =>
    if MAX_PAYLOAD_BYTES < bytes + utf8ByteLength [unit] then some (index + 1) else none
  | high :: low :: rest, index, bytes =>
    if 0xD800 ≤ high ∧ high < 0xDC00 ∧ 0xDC00 ≤ low ∧ low < 0xE000 then
      if MAX_PAYLOAD_BYTES < bytes + 4 then some (index + 2)
      else utf8OverCapOffset rest (index + 2) (bytes + 4)
    else if MAX_PAYLOAD_BYTES < bytes + utf8ByteLength [high] then some (index + 1)
    else utf8OverCapOffset (low :: rest) (index + 1) (bytes + utf8ByteLength [high])

def findUtf8OverCapOffset (text : Text) (start : Nat) : Option Nat :=
  utf8OverCapOffset (text.drop start) start 0

/-- The first boundary at which a call begins, and the boundaries behind it. -/
def nextCallBoundary (text : Text) (options : ScanOptions) : List Nat → Option Nat × List Nat
  | [] => (none, [])
  | offset :: rest =>
    if (scannedCall
        (scanPlainTextToolCall text (skipLineIndentation text offset) options)).isSome then
      (some offset, rest)
    else nextCallBoundary text options rest

/-- An unfinished call over the cap is taken to end where a later part begins with a call. -/
def endAtBoundary (text : Text) (options : ScanOptions) (boundaries : List Nat)
    (call : ScannedCall) : ScannedCall × List Nat :=
  if call.incomplete && call.overCap then
    let overCapOffset := call.payloadStart.bind (findUtf8OverCapOffset text)
    let found := nextCallBoundary text options (boundaries.dropWhile fun boundary => overCapOffset.all (boundary < ·))
    match found.1 with
    | some boundary => ({ call with stop := boundary, incomplete := false }, found.2)
    | none => (call, found.2)
  else (call, boundaries)

structure CallSequenceEnd where
  stop : Nat
  activeStart : Option Nat
  overCap : Bool
  boundaries : List Nat
  deriving Repr, DecidableEq

/-- The inner loop of `findCallSequences`: calls with only whitespace between them. Every
turn moves `callStart` on. -/
def followCalls (text : Text) (options : ScanOptions) (protectedRanges : List Span) :
    Nat → List Nat → Nat → ScannedCall → Bool → CallSequenceEnd
  | 0, boundaries, callStart, _, hasOverCap => ⟨callStart, none, hasOverCap, boundaries⟩
  | turns + 1, boundaries, callStart, call, hasOverCap =>
    let bounded := endAtBoundary text options boundaries call
    let overCap := hasOverCap || bounded.1.overCap
    let stop := consumeRemovedLineEnd text bounded.1.stop
    if bounded.1.incomplete then ⟨stop, some callStart, overCap, bounded.2⟩
    else
      let nextStart := skipWhitespace text bounded.1.stop
      if text.length ≤ nextStart || isOffsetInProtectedRanges nextStart protectedRanges then
        ⟨stop, none, overCap, bounded.2⟩
      else
        let nextScan := scanPlainTextToolCall text nextStart options
        match scannedCall nextScan with
        | some next => followCalls text options protectedRanges turns bounded.2 nextStart next overCap
        | none =>
          if isNamedPrefix nextScan then ⟨text.length, some nextStart, overCap, bounded.2⟩
          else ⟨stop, none, overCap, bounded.2⟩

/-- The sequence whose first call begins at `callStart`, if there is one. -/
def sequenceAt (text : Text) (options : ScanOptions) (protectedRanges : List Span)
    (boundaries : List Nat) (callStart : Nat) : Option CallSequenceEnd :=
  let first := scanPlainTextToolCall text callStart options
  match scannedCall first with
  | some call =>
    if callStart < text.length then
      some (followCalls text options protectedRanges (text.length - callStart) boundaries callStart call false)
    else none
  | none =>
    if isNamedPrefix first then some ⟨text.length, some callStart, false, boundaries⟩ else none

/-- The outer loop of `findCallSequences`; every turn moves `index` on. `lineStarts` are the
offsets that count as line starts besides those of the text. -/
def callSequencesFrom (text : Text) (options : ScanOptions) (protectedRanges : List Span)
    (lineStarts : List Nat) : Nat → List Nat → Nat → List ScannedCallSequence
  | 0, _, _ => []
  | turns + 1, boundaries, index =>
    let search := callSequencesFrom text options protectedRanges lineStarts turns
    let callStart := skipLineIndentation text index
    if text.length ≤ index then []
    else if !(isLineStart text index || lineStarts.contains index) then
      search boundaries (index + 1)
    else if isOffsetInProtectedRanges callStart protectedRanges then search boundaries (index + 1)
    else
      match sequenceAt text options protectedRanges boundaries callStart with
      | some found =>
        let aggregateOverCap :=
          utf8ByteLengthWithinLimit text index found.stop MAX_PAYLOAD_BYTES == none
        ⟨index, found.stop, found.activeStart, found.overCap || aggregateOverCap⟩ ::
          search found.boundaries (max found.stop (index + 1))
      | none =>
        search boundaries (max (index + 1) (scanPlainTextToolCall text callStart options).next)

def callScanOptions (matcher : PlainTextToolCallNameMatcher) (lineBreakOffsets : List Nat) : ScanOptions :=
  { matcher := some matcher, maxPayloadBytes := MAX_PAYLOAD_BYTES, lineBreakOffsets }

def findCallSequences (text : Text) (matcher : PlainTextToolCallNameMatcher)
    (structuralBoundaries lineBreakOffsets : List Nat) (protectedRanges : List Span) :
    List ScannedCallSequence :=
  callSequencesFrom text (callScanOptions matcher lineBreakOffsets) protectedRanges
    structuralBoundaries text.length structuralBoundaries 0

/-- Where the text was joined from content items. -/
def StandalonePlainTextToolCallCandidate.boundaries (candidate : StandalonePlainTextToolCallCandidate) : List Nat :=
  candidate.parts.tail.map (·.start)

def findCandidateCallSequences (candidate : StandalonePlainTextToolCallCandidate)
    (matcher : PlainTextToolCallNameMatcher) (resolveProtectedRanges : Text → List Span) :
    List ScannedCallSequence :=
  findCallSequences candidate.text matcher candidate.boundaries candidate.boundaries
    (resolveProtectedRanges candidate.text)

/-- What `createRangeRemover` makes of a whole text. -/
def removeRangesFrom (text : Text) : Nat → List ScannedCallSequence → Text
  | cursor, [] => text.drop cursor
  | cursor, range :: rest =>
    if range.start < text.length then
      let stop := min text.length range.stop
      let kept := if range.start < stop then slice text cursor (max cursor range.start) else []
      let next := if range.start < stop then max cursor stop else cursor
      kept ++ if text.length < range.stop then text.drop next else removeRangesFrom text next rest
    else text.drop cursor

def removeRanges (ranges : List ScannedCallSequence) (text : Text) : Text :=
  removeRangesFrom text 0 ranges

def XML_PARAMETER_CLOSE : Text := units "</parameter>"
def XML_FUNCTION_CLOSE : Text := units "</function>"
def XML_PARAMETER_OPEN : Text := units "<parameter="

inductive XmlSuppressorPhase where
  | body
  | parameter
  deriving Repr, DecidableEq

structure XmlSuppressor where
  carry : Text
  phase : XmlSuppressorPhase
  deriving Repr, DecidableEq

inductive JsonSuppressorPhase where
  | closing
  | opening
  | payload
  deriving Repr, DecidableEq

structure JsonSuppressor where
  carry : Text
  depth : Int
  escaped : Bool
  inString : Bool
  phase : JsonSuppressorPhase
  optionalClosings : Option (List Text) := none
  requiredClosing : Option Text := none
  deriving Repr, DecidableEq

structure OpeningSuppressor where
  allowXml : Bool
  carry : Text
  json : JsonSuppressor
  deriving Repr, DecidableEq

inductive OverCapSuppressor where
  | json (suppressor : JsonSuppressor)
  | opening (suppressor : OpeningSuppressor)
  | xml (suppressor : XmlSuppressor)
  deriving Repr, DecidableEq

/-- The candidate of an unfinished or complete object call. -/
def suppressedJson (scan : PlainTextJsonToolCallScan) : Option PlainTextJsonToolCallCandidate :=
  match scan with
  | .unfinished candidate => candidate
  | .complete value _ _ => some value
  | .invalid _ _ => none

/-- How far the object has been read; a complete one has been read to its end. -/
def suppressedJsonState (scan : PlainTextJsonToolCallScan) : Option PlainTextJsonToolCallState :=
  match (suppressedJson scan).bind (·.json), scan with
  | some state, _ => some state
  | none, .complete _ _ _ => some ⟨0, false, false⟩
  | none, _ => none

def jsonSuppressor (text : Text) (value : PlainTextJsonToolCallCandidate)
    (state : Option PlainTextJsonToolCallState) : JsonSuppressor :=
  let finished := state.any (·.depth == 0)
  let common : JsonSuppressor :=
    { carry :=
        match value.payload with
        | some payload => if finished then text.drop (skipWhitespace text payload.stop) else []
        | none => []
      depth := (state.map (·.depth)).getD 0
      escaped := (state.map (·.escaped)).getD false
      inString := (state.map (·.inString)).getD false
      phase :=
        if value.payload.isNone then .opening else if finished then .closing else .payload }
  if value.form = .namedBracket then
    { common with requiredClosing := some (nameClosing text value.name) }
  else
    { common with
      optionalClosings := some [HARMONY_CALL_MARKER, END_TOOL_REQUEST, nameClosing text value.name] }

def lastIndexOf (text : Text) (unit : Nat) : Option Nat :=
  (List.range text.length).reverse.find? fun index => text[index]? == some unit

/-- The tags after which the rest of an unfinished tagged call is read. -/
def xmlSuppressor (text : Text) (candidate : XmlishToolCallCandidate) : XmlSuppressor :=
  let phase : XmlSuppressorPhase :=
    if candidate.activeParameterOpenEnd.isNone then .body else .parameter
  let markers :=
    if phase = .parameter then [XML_PARAMETER_CLOSE] else [XML_PARAMETER_OPEN, XML_FUNCTION_CLOSE]
  { carry :=
      match lastIndexOf text '<'.toNat with
      | some markerStart =>
        if markers.any (isAsciiMarkerPrefixIgnoreCase text markerStart) then text.drop markerStart
        else []
      | none => []
    phase }

/-- The suppressor of an unfinished tagged call that is over the cap, or is to be suppressed. -/
def createXmlSuppressor (text : Text) (scan : PlainTextToolCallScan) (force : Bool) : Option XmlSuppressor :=
  match scan.xmlish with
  | .unfinished (some candidate) _ =>
    match candidate.payload with
    | some payload =>
      if scan.matchesXmlish &&
          (force || utf8ByteLengthWithinLimit text payload.start payload.stop MAX_PAYLOAD_BYTES == none) then
        some (xmlSuppressor text candidate)
      else none
    | none => none
  | _ => none

/-- The suppressor of an object call; without `force` its payload has to be over the cap. -/
def createJsonSuppressor (text : Text) (scan : PlainTextToolCallScan) (force : Bool) : Option JsonSuppressor :=
  match suppressedJson scan.json with
  | none => none
  | some value =>
    let state := suppressedJsonState scan.json
    let withinLimit := value.payload.any fun payload =>
      utf8ByteLengthWithinLimit text payload.start payload.stop MAX_PAYLOAD_BYTES != none
    if (!value.nameComplete && value.payload.isNone) || !scan.matchesJson ||
        (state.isNone && !force) || (value.payload.isNone && !force) ||
        (!force && withinLimit) then none
    else some (jsonSuppressor text value state)

def createOverCapSuppressor (candidate : StandalonePlainTextToolCallCandidate)
    (matcher : PlainTextToolCallNameMatcher) (force : Bool) : Option OverCapSuppressor :=
  let text := candidate.text
  let scan := scanPlainTextToolCall text (skipLineIndentation text 0) (callScanOptions matcher candidate.boundaries)
  let awaited := (suppressedJson scan.json).filter fun value =>
    force && value.nameComplete && value.payload.isNone && scan.matchesJson
  match awaited with
  | some value =>
    some (.opening
      { allowXml := scan.xmlish.isUnfinished && scan.matchesXmlish
        carry := []
        json := jsonSuppressor text value (suppressedJsonState scan.json) })
  | none =>
    match createXmlSuppressor text scan force with
    | some suppressor => some (.xml suppressor)
    | none => (createJsonSuppressor text scan force).map .json

structure CandidatePendingState where
  buffer : Text
  bufferBytes : Nat
  parts : List CandidatePart
  sequenceOverCap : Bool
  deriving Repr, DecidableEq

inductive PendingClassification where
  | complete
  | falsePositive
  | incomplete
  | stripped (text : Text)
  | suppress (suppressor : OverCapSuppressor)
  | trim (candidate : StandalonePlainTextToolCallCandidate)
  deriving Repr, DecidableEq

/-- The candidate from the call on that is still being written. -/
def activeCandidate (candidate : StandalonePlainTextToolCallCandidate) (activeStart : Nat) :
    StandalonePlainTextToolCallCandidate :=
  { text := candidate.text.drop activeStart
    parts := (candidate.parts.filter (activeStart < ·.stop)).map fun part =>
      ⟨part.contentIndex, part.start - activeStart, part.stop - activeStart⟩ }

/-- What becomes of a leading call that is still being written behind text over the cap. -/
def classifyActive (candidate : StandalonePlainTextToolCallCandidate)
    (matcher : PlainTextToolCallNameMatcher) (leading : Option ScannedCallSequence)
    (overCap : Bool) : Option PendingClassification :=
  match leading.bind (·.activeStart) with
  | some activeStart =>
    if overCap then
      match createOverCapSuppressor (activeCandidate candidate activeStart) matcher true with
      | some suppressor => some (.suppress suppressor)
      | none => if 0 < activeStart then some (.trim (activeCandidate candidate activeStart)) else none
    else none
  | none => none

def classifyWithoutLeading (pending : CandidatePendingState) (terminalScan : PlainTextToolCallScan)
    (finalize : Bool) : PendingClassification :=
  let hasNamedCandidate := scanHasNamedCandidate terminalScan
  let isPrefix := terminalScan.kind matches .unfinished _
  if isPrefix && !hasNamedCandidate && decide (MAX_PAYLOAD_BYTES < pending.bufferBytes) then
    .falsePositive
  else if isPrefix && (!finalize || hasNamedCandidate) then .incomplete
  else if pending.sequenceOverCap then .stripped pending.buffer
  else .falsePositive

/-- A text that begins with a call, none over the cap. -/
def classifyLeading (pending : CandidatePendingState) (terminalScan : PlainTextToolCallScan)
    (finalize : Bool) (leading : ScannedCallSequence) : PendingClassification :=
  if leading.activeStart.isNone then
    if skipWhitespace pending.buffer leading.stop < pending.buffer.length then
      .stripped (removeRanges [leading] pending.buffer)
    else if pending.sequenceOverCap || decide (MAX_PAYLOAD_BYTES < pending.bufferBytes) then
      .stripped []
    else .complete
  else if !scanHasNamedCandidate terminalScan && finalize then .falsePositive
  else .incomplete

def CandidatePendingState.candidate (pending : CandidatePendingState) : StandalonePlainTextToolCallCandidate :=
  ⟨pending.parts, pending.buffer⟩

/-- The sequence a text begins with. -/
def leadingSequence (sequences : List ScannedCallSequence) : Option ScannedCallSequence :=
  sequences.head?.filter (·.start == 0)

def classifyPending (pending : CandidatePendingState) (matcher : PlainTextToolCallNameMatcher)
    (resolveProtectedRanges : Text → List Span) (finalize : Bool) : PendingClassification :=
  let candidate := pending.candidate
  let text := candidate.text
  let terminalScan := scanPlainTextToolCall text (skipLineIndentation text 0)
    (callScanOptions matcher candidate.boundaries)
  let sequences := findCandidateCallSequences candidate matcher resolveProtectedRanges
  let overCapRanges := sequences.filter (·.overCap)
  let leading := leadingSequence sequences
  match classifyActive candidate matcher leading
      (pending.sequenceOverCap || !overCapRanges.isEmpty) with
  | some classification => classification
  | none =>
    if overCapRanges.isEmpty then
      match leading with
      | some leading => classifyLeading pending terminalScan finalize leading
      | none => classifyWithoutLeading pending terminalScan finalize
    else
      let released := removeRanges overCapRanges text
      if released.isEmpty then
        match createOverCapSuppressor candidate matcher false with
        | some suppressor => .suppress suppressor
        | none => .stripped released
      else .stripped released

end ToolCallRepair
