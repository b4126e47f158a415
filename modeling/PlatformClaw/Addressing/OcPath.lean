import PlatformClaw.Library.Guarded
import PlatformClaw.Library.ScriptText

/-! # `oc://` paths

Universal addressing for the workspace: a file, up to three slots below it, each
a dotted list of sub-segments, and a session.

    oc://{file}[/{section}[/{item}[/{field}]]][?session={id}]

The model follows the formatter, with the walk over brackets and quotes that it
splits by.
-/

namespace PlatformClaw.Addressing

open ScriptText

def OC_SCHEME : Text := lit "oc://"
def MAX_PATH_LENGTH : Nat := 4096
def BOM : Nat := 0xFEFF

def REDACTED_SENTINEL : Text := lit "__OPENCLAW_REDACTED__"

structure OcPath where
  file : Text
  «section» : Option Text
  item : Option Text
  field : Option Text
  session : Option Text
  deriving Repr, DecidableEq

inductive OcPathCode where
  | tooLong
  | missingScheme
  | controlChar
  | empty
  | emptySegment
  | tooDeep
  | absoluteFile
  | parentTraversal
  | reservedChar
  | emptySubSegment
  | unquotable
  | whitespace
  | malformedPredicate
  | malformedUnion
  | unbalanced
  | fileRequired
  | nesting
  | wildcardInResolve
  | depthExceeded
  deriving Repr, DecidableEq

structure OcPathError where
  message : Text
  input : Text
  code : OcPathCode
  deriving Repr, DecidableEq

/-- What the code throws. -/
inductive OcFailure where
  | path (error : OcPathError)
  /-- `OcEmitSentinelError` with its path. -/
  | sentinel (path : Text)
  deriving Repr, DecidableEq

def refusal (message input : Text) (code : OcPathCode) : OcFailure :=
  .path ⟨message, input, code⟩

/-- Substring match, not equality. -/
def guardSentinel (value ocPath : Text) : Except OcFailure Unit :=
  .ensure (includes value REDACTED_SENTINEL = false) (.sentinel ocPath)

def isControlChar (unit : Nat) : Bool := unit ≤ 0x1F || unit == 0x7F

def hasControlChar (s : Text) : Bool := s.any isControlChar

def isReserved (unit : Nat) : Bool :=
  unit == '?'.toNat || unit == '&'.toNat || unit == '%'.toNat

def isBracket (unit : Nat) : Bool :=
  unit == '['.toNat || unit == ']'.toNat || unit == '\x7b'.toNat || unit == '\x7d'.toNat

/-- The characters of a sub-segment that only quotes carry. -/
def needsQuote (unit : Nat) : Bool :=
  unit == '/'.toNat || unit == '.'.toNat || isBracket unit || isReserved unit || isWhitespace unit

/-- Dots are normal in file names, quotes are not. -/
def fileNeedsQuote (unit : Nat) : Bool :=
  unit == '/'.toNat || isBracket unit || isReserved unit || unit == '"'.toNat || isWhitespace unit

/-- Render with `\xNN` escapes. -/
def printable (s : Text) : Text :=
  s.flatMap fun unit =>
    if isControlChar unit then lit "\\x" ++ [hexUnit (unit / 16), hexUnit (unit % 16)] else [unit]

structure ScanState where
  depthBracket : Nat
  depthBrace : Nat
  inQuote : Bool
  deriving Repr, DecidableEq

namespace ScanState

def start : ScanState := ⟨0, 0, false⟩

/-- One character outside quotes. Nothing when a bracket closes that was not open. -/
def bracket (state : ScanState) (c : Nat) : Option ScanState :=
  if c = '['.toNat then some { state with depthBracket := state.depthBracket + 1 }
  else if c = ']'.toNat then
    if state.depthBracket = 0 then none
    else some { state with depthBracket := state.depthBracket - 1 }
  else if c = '\x7b'.toNat then some { state with depthBrace := state.depthBrace + 1 }
  else if c = '\x7d'.toNat then
    if state.depthBrace = 0 then none
    else some { state with depthBrace := state.depthBrace - 1 }
  else some state

/-- The state after a character, and whether the character was at the top. -/
def step (state : ScanState) (c : Nat) : Option (ScanState × Bool) :=
  if state.inQuote then some ({ state with inQuote := c != '"'.toNat }, false)
  else if c = '"'.toNat then some ({ state with inQuote := true }, false)
  else
    (state.bracket c).map fun next => (next, next.depthBracket == 0 && next.depthBrace == 0)

def balanced (state : ScanState) : Bool :=
  state.depthBracket == 0 && state.depthBrace == 0 && !state.inQuote

end ScanState

def splitFrom (delim : Nat) : ScanState → Text → Text → Option (List Text)
  | state, buf, [] => if state.balanced then some [buf] else none
  | state, buf, c :: rest =>
    match state.step c with
    | none => none
    | some (next, atTop) =>
      if atTop && c == delim then (splitFrom delim next [] rest).map (buf :: ·)
      else splitFrom delim next (buf ++ [c]) rest

def splitRespectingBrackets (s : Text) (delim : Nat) (originalInput : Option Text) : Except OcFailure (List Text) :=
  let ctx := originalInput.getD s
  .orThrow (splitFrom delim .start [] s)
    (refusal (lit "Unbalanced bracket/brace in oc:// path: " ++ ctx) ctx .unbalanced)

def isQuotedSeg (seg : Text) : Bool :=
  2 ≤ seg.length && seg.head? == some '"'.toNat && seg.getLast? == some '"'.toNat

def hasQuoteOrBackslash (s : Text) : Bool :=
  s.any fun unit => unit == '"'.toNat || unit == '\\'.toNat

def quoted (value : Text) : Text := '"'.toNat :: (value ++ ['"'.toNat])

/-- Refuses values with `"` or `\`: there is no escape mechanism. -/
def quoteSeg (value : Text) : Except OcFailure Text :=
  if value = [] then .ok (quoted [])
  else if hasQuoteOrBackslash value then
    .error (refusal
      (lit "Cannot quote value containing '\"' or '\\\\': " ++ printable value) value .unquotable)
  else .ok (if value.any needsQuote then quoted value else value)

def opensWith (c : Char) (seg : Text) : Bool := seg.head? == some c.toNat

def closesWith (c : Char) (seg : Text) : Bool := seg.getLast? == some c.toNat

/-- Reject absolute paths, escapes to a parent, and control characters. -/
def validateFileSlot (file contextInput : Text) : Except OcFailure Unit := do
  .ensure (¬ (opensWith '/' file ∨ opensWith '\\' file ∨
      ((file.head?.any fun unit => ('a'.toNat ≤ unit && unit ≤ 'z'.toNat) ||
        ('A'.toNat ≤ unit && unit ≤ 'Z'.toNat)) ∧ file[1]? = some ':'.toNat)))
    (refusal (lit "Absolute file slot not allowed (oc:// paths are workspace-relative): " ++
      printable contextInput) contextInput .absoluteFile)
  .ensure (lit ".." ∉ file.splitOnP fun unit => unit == '\\'.toNat || unit == '/'.toNat)
    (refusal (lit "Parent-directory segment ('..') not allowed in oc:// file slot: " ++
      printable contextInput) contextInput .parentTraversal)
  .ensure (hasControlChar file = false)
    (refusal (lit "Control character in oc:// file slot: " ++ printable contextInput)
      contextInput .controlChar)

def validateSessionSlot (session contextInput : Text) : Except OcFailure Unit := do
  .ensure (hasControlChar session = false)
    (refusal (lit "Control character in oc:// session query: " ++ printable contextInput)
      contextInput .controlChar)
  .ensure (session.any isReserved = false)
    (refusal (lit "Reserved character (`?` / `&` / `%`) in oc:// session query: " ++
      printable contextInput) contextInput .reservedChar)

/-- Sub-segments in structural form pass through, raw ones are quoted where they need it. -/
def formatSubSegment (sub : Text) : Except OcFailure Text :=
  if isQuotedSeg sub || (opensWith '[' sub && closesWith ']' sub) ||
      (opensWith '\x7b' sub && closesWith '\x7d' sub) then .ok sub
  else quoteSeg sub

def validateSubForFormat (file slotName sub : Text) : Except OcFailure Unit := do
  .ensure (sub ≠ [])
    (refusal (lit "Empty dotted sub-segment in OcPath." ++ slotName) file .emptySubSegment)
  .ensure (hasControlChar sub = false)
    (refusal (lit "Control character in OcPath." ++ slotName ++ lit " sub-segment \"" ++
      printable sub ++ lit "\"") file .controlChar)

def formatSlot (file slotName slot : Text) : Except OcFailure Text := do
  let subs ← splitRespectingBrackets slot '.'.toNat none
  subs.forM (validateSubForFormat file slotName)
  let formatted ← subs.mapM formatSubSegment
  return join ['.'.toNat] formatted

/-- A slot with its separator, nothing where the slot is missing. -/
def formatOptionalSlot (file slotName : Text) : Option Text → Except OcFailure Text
  | none => .ok []
  | some slot => do
      let formatted ← formatSlot file slotName slot
      return '/'.toNat :: formatted

def formatSession (file : Text) : Option Text → Except OcFailure Text
  | none => .ok []
  | some session => do
      validateSessionSlot session file
      return lit "?session=" ++ session

def formatFile (file : Text) : Except OcFailure Text :=
  if file.any fileNeedsQuote then quoteSeg file else .ok file

def formatOcPath (path : OcPath) : Except OcFailure Text := do
  .ensure (path.file ≠ []) (refusal (lit "oc:// path requires a file") [] .fileRequired)
  validateFileSlot path.file path.file
  .ensure (path.item.isSome → path.section.isSome)
    (refusal (lit "Structural nesting violation: item requires section") path.file .nesting)
  .ensure (path.field.isSome → path.item.isSome)
    (refusal (lit "Structural nesting violation: field requires item") path.file .nesting)
  let formattedFile ← formatFile path.file
  let formattedSection ← formatOptionalSlot path.file (lit "section") path.section
  let formattedItem ← formatOptionalSlot path.file (lit "item") path.item
  let formattedField ← formatOptionalSlot path.file (lit "field") path.field
  let formattedSession ← formatSession path.file path.session
  let out := OC_SCHEME ++ formattedFile ++ formattedSection ++ formattedItem ++ formattedField ++ formattedSession
  .ensure (byteLength out ≤ MAX_PATH_LENGTH)
    (refusal (lit "Formatted oc:// exceeds " ++ natural MAX_PATH_LENGTH ++
      lit " bytes (length: " ++ natural (byteLength out) ++ lit ")")
      (truncateUtf16Safe out 80 ++ lit "…") .tooLong)
  .ensure (includes out REDACTED_SENTINEL = false) (.sentinel out)
  return out

end PlatformClaw.Addressing
