import PlatformClaw.ToolCalls.XmlishExtension

/-! # A call is read the same wherever it stands

No scanner looks at the text in front of its start. With other text put in front a
scan reports what it reported, every position moved by the length of that text.
-/

namespace ToolCallRepair

open Scanning

def Span.shift (offset : Nat) (span : Span) : Span :=
  ⟨offset + span.start, offset + span.stop⟩

def XmlishToolCallParameterSpan.shift (offset : Nat) (span : XmlishToolCallParameterSpan) :
    XmlishToolCallParameterSpan :=
  ⟨span.name.shift offset, span.value.shift offset⟩

def XmlishToolCallCandidate.shift (offset : Nat) (candidate : XmlishToolCallCandidate) : XmlishToolCallCandidate :=
  { form := candidate.form, name := candidate.name.shift offset,
    nameComplete := candidate.nameComplete,
    parameters := candidate.parameters.map (·.shift offset),
    payload := candidate.payload.map (·.shift offset),
    activeParameterOpenEnd := candidate.activeParameterOpenEnd.map (offset + ·) }

def XmlishToolCallScan.shift (offset : Nat) : XmlishToolCallScan → XmlishToolCallScan
  | .invalid at_ candidate => .invalid (offset + at_) (candidate.map (·.shift offset))
  | .unfinished candidate completeEnd =>
    .unfinished (candidate.map (·.shift offset)) (completeEnd.map (offset + ·))
  | .complete value payload stop =>
    .complete (value.shift offset) (payload.shift offset) (offset + stop)

def XmlishOpening.shift (offset : Nat) : XmlishOpening → XmlishOpening
  | .stopped scan => .stopped (scan.shift offset)
  | .opened form name cursor => .opened form (name.shift offset) (offset + cursor)

def XmlishBody.shift (offset : Nat) (body : XmlishBody) : XmlishBody :=
  { form := body.form, name := body.name.shift offset, bodyStart := offset + body.bodyStart,
    parameters := body.parameters.map (·.shift offset),
    lastParameterEnd := body.lastParameterEnd.map (offset + ·) }

def PlainTextJsonToolCallCandidate.shift (offset : Nat)
    (candidate : PlainTextJsonToolCallCandidate) : PlainTextJsonToolCallCandidate :=
  { candidate with
    name := candidate.name.shift offset
    payload := candidate.payload.map (·.shift offset) }

def PlainTextJsonToolCallScan.shift (offset : Nat) : PlainTextJsonToolCallScan → PlainTextJsonToolCallScan
  | .invalid at_ candidate => .invalid (offset + at_) (candidate.map (·.shift offset))
  | .unfinished candidate => .unfinished (candidate.map (·.shift offset))
  | .complete value payload stop =>
    .complete (value.shift offset) (payload.shift offset) (offset + stop)

def PlainTextJsonToolCallOpeningScan.shift (offset : Nat) :
    PlainTextJsonToolCallOpeningScan → PlainTextJsonToolCallOpeningScan
  | .stopped scan => .stopped (scan.shift offset)
  | .opened cursor value => .opened (offset + cursor) (value.shift offset)

def ClosingScan.shift (offset : Nat) : ClosingScan → ClosingScan
  | .found stop => .found (offset + stop)
  | .begun => .begun
  | .missing => .missing

def PlainTextToolCallScanCandidate.shift (offset : Nat)
    (candidate : PlainTextToolCallScanCandidate) : PlainTextToolCallScanCandidate :=
  ⟨candidate.name.shift offset, candidate.nameComplete, candidate.payload.map (·.shift offset)⟩

def PlainTextToolCallScanKind.shift (offset : Nat) : PlainTextToolCallScanKind → PlainTextToolCallScanKind
  | .complete stop => .complete (offset + stop)
  | .unfinished completeEnd => .unfinished (completeEnd.map (offset + ·))
  | .invalid at_ => .invalid (offset + at_)

def PlainTextToolCallScanBranches.shift (offset : Nat)
    (branches : PlainTextToolCallScanBranches) : PlainTextToolCallScanBranches :=
  { branches with json := branches.json.shift offset, xmlish := branches.xmlish.shift offset }

def PlainTextToolCallVerdict.shift (offset : Nat) (verdict : PlainTextToolCallVerdict) : PlainTextToolCallVerdict :=
  ⟨verdict.kind.shift offset, offset + verdict.next, verdict.overCap, verdict.payloadStart.map (offset + ·)⟩

def PlainTextToolCallScan.shift (offset : Nat) (scan : PlainTextToolCallScan) : PlainTextToolCallScan :=
  { scan.toPlainTextToolCallScanBranches.shift offset,
    scan.toPlainTextToolCallVerdict.shift offset with }

section Xmlish

variable {ahead text : Text} {start cursor : Nat}

@[simp] theorem Span.of_ahead {span : Span} :
    (span.shift ahead.length).of (ahead ++ text) = span.of text := by
  simp [Span.of, Span.shift]

@[simp] theorem skipHorizontalWhitespace_ahead :
    skipHorizontalWhitespace (ahead ++ text) (ahead.length + start) =
      ahead.length + skipHorizontalWhitespace text start :=
  skipWhile_ahead

@[simp] theorem skipLineIndentation_ahead :
    skipLineIndentation (ahead ++ text) (ahead.length + start) = ahead.length + skipLineIndentation text start :=
  skipWhile_ahead

@[simp] theorem skipWhitespace_ahead :
    skipWhitespace (ahead ++ text) (ahead.length + start) = ahead.length + skipWhitespace text start :=
  skipWhile_ahead

@[simp] theorem consumeLineBreak_ahead :
    consumeLineBreak (ahead ++ text) (ahead.length + start) =
      (consumeLineBreak text start).map (ahead.length + ·) := by
  simp only [consumeLineBreak, Nat.add_assoc, getElem?_ahead]
  split
  · split <;> rfl
  · split <;> rfl

@[simp] theorem consumeStructuralLineBreak_ahead :
    consumeStructuralLineBreakAfterHorizontalWhitespace (ahead ++ text) (ahead.length + start) [] =
      (consumeStructuralLineBreakAfterHorizontalWhitespace text start []).map (ahead.length + ·) := by
  unfold consumeStructuralLineBreakAfterHorizontalWhitespace
  simp only [skipHorizontalWhitespace_ahead, consumeLineBreak_ahead]
  cases consumeLineBreak text (skipHorizontalWhitespace text start) with
  | none =>
    have nowhere : ∀ places : List Nat, places.find? ([].contains ·) = none := by simp
    simp only [Option.map_none, nowhere]
  | some actual => rfl

@[simp] theorem startsWithAsciiMarkerIgnoreCase_ahead {marker : Text} :
    startsWithAsciiMarkerIgnoreCase (ahead ++ text) (ahead.length + start) marker =
      startsWithAsciiMarkerIgnoreCase text start marker := by
  have same : (ahead.map asciiLower).length = ahead.length := List.length_map _
  rw [startsWithAsciiMarkerIgnoreCase, List.map_append, ← same, startsWithAt_ahead]
  rfl

@[simp] theorem isAsciiMarkerPrefixIgnoreCase_ahead {marker : Text} :
    isAsciiMarkerPrefixIgnoreCase (ahead ++ text) (ahead.length + start) marker =
      isAsciiMarkerPrefixIgnoreCase text start marker := by
  have same : (ahead.map asciiLower).length = ahead.length := List.length_map _
  rw [isAsciiMarkerPrefixIgnoreCase, List.map_append, ← same, isPrefixAt_ahead]
  rfl

@[simp] theorem indexOfAsciiMarkerIgnoreCase_ahead {marker : Text} :
    indexOfAsciiMarkerIgnoreCase (ahead ++ text) marker (ahead.length + start) =
      (indexOfAsciiMarkerIgnoreCase text marker start).map (ahead.length + ·) := by
  have same : (ahead.map asciiLower).length = ahead.length := List.length_map _
  rw [indexOfAsciiMarkerIgnoreCase, List.map_append, ← same, indexOf?_ahead]
  rfl

theorem scanFunctionName_ahead : scanFunctionName (ahead ++ text) (ahead.length + start) =
      (scanFunctionName text start).shift ahead.length := by
  simp only [scanFunctionName, skipWhileUpTo_ahead, Nat.add_sub_add_left, List.length_append,
    Nat.add_left_cancel_iff, getElem?_ahead, apply_ite (XmlishOpening.shift ahead.length)]
  rfl

theorem scanFunctionOpening_ahead : scanFunctionOpening (ahead ++ text) (ahead.length + start) =
      (scanFunctionOpening text start).shift ahead.length := by
  simp only [scanFunctionOpening, startsWithAsciiMarkerIgnoreCase_ahead,
    isAsciiMarkerPrefixIgnoreCase_ahead, Nat.add_sub_add_left, List.length_append, Nat.add_assoc,
    scanFunctionName_ahead, apply_ite (XmlishOpening.shift ahead.length)]
  rfl

theorem scanXmlishBracketClose_ahead {form : XmlishSyntax} {name : Span} :
    scanXmlishBracketClose (ahead ++ text) form (name.shift ahead.length) [] =
      (scanXmlishBracketClose text form name []).shift ahead.length := by
  simp only [scanXmlishBracketClose, Span.shift, List.length_append, Nat.add_left_cancel_iff,
    getElem?_ahead, Nat.add_assoc, consumeStructuralLineBreak_ahead,
    apply_ite (XmlishOpening.shift ahead.length)]
  cases consumeStructuralLineBreakAfterHorizontalWhitespace text (name.stop + 1) [] with
  | none => rfl
  | some afterLineBreak => rfl

theorem scanXmlishToolName_ahead : scanXmlishToolName (ahead ++ text) (ahead.length + start) [] =
      (scanXmlishToolName text start []).shift ahead.length := by
  simp only [scanXmlishToolName, skipWhileUpTo_ahead, Nat.add_sub_add_left,
    apply_ite (XmlishOpening.shift ahead.length), ← scanXmlishBracketClose_ahead]
  rfl

theorem scanXmlishBracketOpening_ahead : scanXmlishBracketOpening (ahead ++ text) (ahead.length + start) [] =
      (scanXmlishBracketOpening text start []).shift ahead.length := by
  simp only [scanXmlishBracketOpening, Nat.add_assoc, skipWhileUpTo_ahead, Nat.add_sub_add_left,
    slice_ahead, List.length_append, Nat.add_left_cancel_iff, getElem?_ahead,
    scanXmlishToolName_ahead, apply_ite (XmlishOpening.shift ahead.length),
    ← scanXmlishBracketClose_ahead]
  rfl

theorem scanXmlishOpening_ahead : scanXmlishOpening (ahead ++ text) (ahead.length + start) [] =
      (scanXmlishOpening text start []).shift ahead.length := by
  simp only [scanXmlishOpening, getElem?_ahead, scanFunctionOpening_ahead,
    scanXmlishBracketOpening_ahead, apply_ite (XmlishOpening.shift ahead.length)]
  rfl

@[simp] theorem XmlishBody.shift_completeEnd {offset : Nat} {body : XmlishBody} :
    (body.shift offset).completeEnd = body.completeEnd.map (offset + ·) := by
  cases form : body.form <;> simp [completeEnd, shift, form]

theorem XmlishBody.shift_candidate {offset payloadEnd : Nat} {body : XmlishBody}
    {activeParameterOpenEnd : Option Nat} :
    (body.candidate payloadEnd activeParameterOpenEnd).shift offset =
      (body.shift offset).candidate (offset + payloadEnd) (activeParameterOpenEnd.map (offset + ·)) := rfl

@[simp] theorem XmlishBody.shift_invalid {offset at_ : Nat} {body : XmlishBody} :
    (body.shift offset).invalid (offset + at_) = (body.invalid at_).shift offset := rfl

@[simp] theorem XmlishBody.shift_unfinished {offset payloadEnd : Nat} {body : XmlishBody} :
    (body.shift offset).unfinished (offset + payloadEnd) = (body.unfinished payloadEnd).shift offset := by
  simp only [unfinished, shift_completeEnd, XmlishToolCallScan.shift, Option.map_some,
    shift_candidate, Option.map_none]

theorem XmlishBody.shift_waiting {offset payloadEnd : Nat} {body : XmlishBody} :
    (XmlishToolCallScan.unfinished (some (body.candidate payloadEnd)) none).shift offset =
      .unfinished (some ((body.shift offset).candidate (offset + payloadEnd))) none := rfl

@[simp] theorem XmlishBody.shift_unfinished_open {offset payloadEnd openEnd : Nat}
    {body : XmlishBody} :
    (body.shift offset).unfinished (offset + payloadEnd) (some (offset + openEnd)) =
      (body.unfinished payloadEnd (some openEnd)).shift offset := by
  simp only [unfinished, shift_completeEnd, XmlishToolCallScan.shift, Option.map_some, shift_candidate]

@[simp] theorem XmlishBody.shift_complete {offset payloadEnd stop : Nat} {body : XmlishBody} :
    (body.shift offset).complete (offset + payloadEnd) (offset + stop) =
      (body.complete payloadEnd stop).shift offset := rfl

theorem XmlishBody.shift_push {offset stop : Nat} {body : XmlishBody}
    {parameter : XmlishToolCallParameterSpan} :
    (body.shift offset).push (parameter.shift offset) (offset + stop) = (body.push parameter stop).shift offset := by
  simp [push, shift]

/-- What a turn of the loop returns, moved. -/
def shiftTurn (offset : Nat) :
    Except XmlishToolCallScan (XmlishBody × Nat) → Except XmlishToolCallScan (XmlishBody × Nat)
  | .error scan => .error (scan.shift offset)
  | .ok (body, stop) => .ok (body.shift offset, offset + stop)

theorem shiftTurn_error {offset : Nat} {scan : XmlishToolCallScan} :
    shiftTurn offset (.error scan) = .error (scan.shift offset) := rfl

theorem scanXmlishParameter_ahead {body : XmlishBody} :
    scanXmlishParameter (ahead ++ text) (body.shift ahead.length) (ahead.length + start) =
      shiftTurn ahead.length (scanXmlishParameter text body start) := by
  simp only [scanXmlishParameter, Nat.add_assoc, skipWhileUpTo_ahead, Nat.add_sub_add_left,
    List.length_append, Nat.add_left_cancel_iff, getElem?_ahead, indexOfAsciiMarkerIgnoreCase_ahead,
    XmlishBody.shift_invalid, XmlishBody.shift_unfinished, apply_ite (shiftTurn ahead.length)]
  cases indexOfAsciiMarkerIgnoreCase text PARAMETER_CLOSE
      (skipWhileUpTo 121 isXmlishNameChar text (start + PARAMETER_OPEN.length) + 1) with
  | none => simp only [Option.map_none, XmlishBody.shift_unfinished_open, shiftTurn]
  | some closeStart =>
    simp only [Option.map_some, Nat.add_assoc, shiftTurn, ← XmlishBody.shift_push,
      XmlishToolCallParameterSpan.shift, Span.shift]

theorem scanXmlishTurn_ahead {body : XmlishBody} :
    scanXmlishTurn (ahead ++ text) (body.shift ahead.length) (ahead.length + cursor) =
      shiftTurn ahead.length (scanXmlishTurn text body cursor) := by
  have form : (body.shift ahead.length).form = body.form := rfl
  have parameters : (body.shift ahead.length).parameters = [] ↔ body.parameters = [] :=
    List.map_eq_nil_iff
  simp only [scanXmlishTurn, skipWhitespace_ahead, List.length_append, Nat.add_left_cancel_iff,
    startsWithAsciiMarkerIgnoreCase_ahead, isAsciiMarkerPrefixIgnoreCase_ahead, form, parameters,
    XmlishBody.shift_completeEnd, XmlishBody.shift_invalid, XmlishBody.shift_unfinished,
    scanXmlishParameter_ahead, Nat.add_assoc, XmlishBody.shift_complete,
    apply_ite (shiftTurn ahead.length)]
  cases body.completeEnd with
  | none =>
    simp only [Option.map_none, shiftTurn_error, XmlishBody.shift_waiting,
      apply_ite (XmlishToolCallScan.shift ahead.length)]
  | some last =>
    simp only [Option.map_some, shiftTurn_error, XmlishBody.shift_complete,
      apply_ite (XmlishToolCallScan.shift ahead.length)]

theorem scanXmlishBody_ahead {turns turns' : Nat} {body : XmlishBody}
    (inside : cursor ≤ text.length) (enough : text.length < cursor + turns)
    (enough' : text.length < cursor + turns') :
    scanXmlishBody (ahead ++ text) turns' (body.shift ahead.length) (ahead.length + cursor) =
      (scanXmlishBody text turns body cursor).shift ahead.length := by
  induction turns generalizing turns' body cursor with
  | zero => omega
  | succ turns ih =>
    cases turns' with
    | zero => omega
    | succ turns' =>
      rw [scanXmlishBody, scanXmlishBody, scanXmlishTurn_ahead]
      cases turned : scanXmlishTurn text body cursor with
      | error scan => rfl
      | ok next =>
        have bound := scanXmlishTurn_bound turned
        exact ih bound.2.2 (by omega) (by omega)

theorem scanXmlishToolCall_ahead : scanXmlishToolCall (ahead ++ text) (ahead.length + start) [] =
      (scanXmlishToolCall text start []).shift ahead.length := by
  rw [scanXmlishToolCall, scanXmlishToolCall, scanXmlishOpening_ahead]
  cases opening : scanXmlishOpening text start [] with
  | stopped scan => rfl
  | opened form name cursor =>
    have inside : start < text.length := by
      apply Nat.lt_of_not_le
      intro beyond
      simp [scanXmlishOpening, List.getElem?_eq_none beyond] at opening
    have bound := (@scanXmlishOpening_grows text [] start [] inside).opened _ _ _ opening
    have later : (ahead ++ text).length = ahead.length + text.length := List.length_append
    have enough : text.length < cursor + (text.length + 1) := by omega
    have enough' : text.length < cursor + ((ahead ++ text).length + 1) := by omega
    exact @scanXmlishBody_ahead ahead text _ _ _ { form, name, bodyStart := cursor } bound.2.1 enough enough'

end Xmlish

section Json

variable {ahead text : Text} {start cursor : Nat} {value : PlainTextJsonToolCallCandidate}

theorem scanToolNameEnd_ahead : scanToolNameEnd (ahead ++ text) (ahead.length + start) =
      (scanToolNameEnd text start).map (ahead.length + ·) := by
  simp only [scanToolNameEnd, skipWhile_ahead, Nat.add_sub_add_left]
  split <;> rfl

theorem scanBracketLine_ahead :
    scanBracketLine (ahead ++ text) (ahead.length + cursor) (value.shift ahead.length) [] =
      (scanBracketLine text cursor value []).shift ahead.length := by
  simp only [scanBracketLine, skipHorizontalWhitespace_ahead, List.length_append,
    Nat.add_left_cancel_iff, consumeStructuralLineBreak_ahead,
    apply_ite (PlainTextJsonToolCallOpeningScan.shift ahead.length)]
  cases consumeStructuralLineBreakAfterHorizontalWhitespace text cursor [] with
  | none => rfl
  | some afterLineBreak => rfl

theorem unfinishedName_shift {offset : Nat} {form : PlainTextJsonToolCallSyntax} {name : Span} :
    unfinishedName form (name.shift offset) = (unfinishedName form name).shift offset := by
  by_cases empty : name.start = name.stop <;>
    simp [unfinishedName, empty, Span.shift, PlainTextJsonToolCallScan.shift, PlainTextJsonToolCallCandidate.shift]

theorem scanBracketName_ahead {form : PlainTextJsonToolCallSyntax} :
    scanBracketName (ahead ++ text) form (ahead.length + start) [] =
      (scanBracketName text form start []).shift ahead.length := by
  simp only [scanBracketName, scanToolNameEnd_ahead]
  cases scanToolNameEnd text start with
  | none =>
    simp only [Option.map_none, Nat.add_assoc]
    rfl
  | some nameEnd =>
    have line := @scanBracketLine_ahead ahead text (nameEnd + 1)
      { form, name := ⟨start, nameEnd⟩, nameComplete := true }
    have name := @unfinishedName_shift ahead.length form ⟨start, nameEnd⟩
    simp only [PlainTextJsonToolCallCandidate.shift, Span.shift, Option.map_none] at line name
    simp only [Option.map_some, List.length_append, Nat.add_left_cancel_iff, getElem?_ahead,
      Nat.add_assoc, line, name, apply_ite (PlainTextJsonToolCallOpeningScan.shift ahead.length)]
    rfl

theorem scanBracketOpening_ahead : scanBracketOpening (ahead ++ text) (ahead.length + start) [] =
      (scanBracketOpening text start []).shift ahead.length := by
  simp only [scanBracketOpening, Nat.add_assoc, startsWithAt_ahead, isPrefixAt_ahead,
    scanBracketName_ahead, apply_ite (PlainTextJsonToolCallOpeningScan.shift ahead.length)]
  rfl

theorem scanHarmonyMessage_ahead :
    scanHarmonyMessage (ahead ++ text) (ahead.length + cursor) (value.shift ahead.length) =
      (scanHarmonyMessage text cursor value).shift ahead.length := by
  simp only [scanHarmonyMessage, Nat.add_assoc, startsWithAt_ahead, isPrefixAt_ahead,
    skipWhitespace_ahead, getElem?_ahead,
    apply_ite (PlainTextJsonToolCallOpeningScan.shift ahead.length)]
  rfl

theorem scanHarmonyCode_ahead : scanHarmonyCode (ahead ++ text) (ahead.length + cursor) (value.shift ahead.length) =
      (scanHarmonyCode text cursor value).shift ahead.length := by
  simp only [scanHarmonyCode, Nat.add_assoc, startsWithAt_ahead, isPrefixAt_ahead,
    skipWhitespace_ahead, scanHarmonyMessage_ahead,
    apply_ite (PlainTextJsonToolCallOpeningScan.shift ahead.length)]
  rfl

theorem scanHarmonyRecipient_ahead : scanHarmonyRecipient (ahead ++ text) (ahead.length + start) =
      (scanHarmonyRecipient text start).shift ahead.length := by
  simp only [scanHarmonyRecipient, scanToolNameEnd_ahead]
  cases scanToolNameEnd text start with
  | none =>
    simp only [Option.map_none, Nat.add_assoc]
    rfl
  | some nameEnd =>
    have code := @scanHarmonyCode_ahead ahead text (skipHorizontalWhitespace text nameEnd)
      { form := .harmony, name := ⟨start, nameEnd⟩, nameComplete := true }
    have name := @unfinishedName_shift ahead.length .harmony ⟨start, nameEnd⟩
    simp only [PlainTextJsonToolCallCandidate.shift, Span.shift, Option.map_none] at code name
    simp only [Option.map_some, List.length_append, Nat.add_left_cancel_iff, getElem?_ahead,
      skipHorizontalWhitespace_ahead, code, name,
      apply_ite (PlainTextJsonToolCallOpeningScan.shift ahead.length)]
    rfl

theorem scanHarmonyChannel_ahead : scanHarmonyChannel (ahead ++ text) (ahead.length + cursor) =
      (scanHarmonyChannel text cursor).shift ahead.length := by
  simp only [scanHarmonyChannel, startsWithAt_ahead, isPrefixAt_ahead]
  cases HARMONY_CHANNELS.find? (startsWithAt text · cursor) with
  | none =>
    simp only [apply_ite (PlainTextJsonToolCallOpeningScan.shift ahead.length)]
    rfl
  | some channel =>
    simp only [Nat.add_assoc, List.length_append, Nat.add_left_cancel_iff, getElem?_ahead,
      skipHorizontalWhitespace_ahead, startsWithAt_ahead, isPrefixAt_ahead,
      scanHarmonyRecipient_ahead,
      apply_ite (PlainTextJsonToolCallOpeningScan.shift ahead.length)]
    rfl

theorem scanHarmonyOpening_ahead : scanHarmonyOpening (ahead ++ text) (ahead.length + start) =
      (scanHarmonyOpening text start).shift ahead.length := by
  simp only [scanHarmonyOpening, Nat.add_assoc, startsWithAt_ahead, isPrefixAt_ahead,
    getElem?_ahead, scanHarmonyChannel_ahead,
    apply_ite (PlainTextJsonToolCallOpeningScan.shift ahead.length)]
  rfl

theorem scanJsonUnits_shift {offset : Nat} (rest : Text) (index : Nat) (state : PlainTextJsonToolCallState) :
    scanJsonUnits rest (offset + index) state =
      ⟨offset + (scanJsonUnits rest index state).stop, (scanJsonUnits rest index state).finished,
        (scanJsonUnits rest index state).state⟩ := by
  induction rest generalizing index state with
  | nil => rfl
  | cons char rest ih =>
    simp only [scanJsonUnits, Nat.add_assoc, ih]
    split <;> rfl

theorem scanJsonObject_ahead : scanJsonObject (ahead ++ text) (ahead.length + start) =
      ⟨ahead.length + (scanJsonObject text start).stop, (scanJsonObject text start).finished,
        (scanJsonObject text start).state⟩ := by
  rw [scanJsonObject, drop_ahead, scanJsonUnits_shift]
  rfl

theorem scanClosing_ahead (closings : List Text) : scanClosing (ahead ++ text) (ahead.length + start) closings =
      (scanClosing text start closings).shift ahead.length := by
  induction closings with
  | nil => rfl
  | cons closing others ih =>
    simp only [scanClosing, startsWithAt_ahead, isPrefixAt_ahead, Nat.add_assoc, ih,
      apply_ite (ClosingScan.shift ahead.length)]
    rfl

theorem nameClosing_ahead {name : Span} :
    nameClosing (ahead ++ text) (name.shift ahead.length) = nameClosing text name := by
  rw [nameClosing, Span.of_ahead]
  rfl

theorem scanJsonClosing_ahead {payload : Span} {state : PlainTextJsonToolCallState} :
    scanJsonClosing (ahead ++ text) (value.shift ahead.length) (payload.shift ahead.length) state =
      (scanJsonClosing text value payload state).shift ahead.length := by
  have form : (value.shift ahead.length).form = value.form := rfl
  have name : (value.shift ahead.length).name = value.name.shift ahead.length := rfl
  have stop : (payload.shift ahead.length).stop = ahead.length + payload.stop := rfl
  simp only [scanJsonClosing, form, name, stop, skipWhitespace_ahead, List.length_append,
    Nat.add_left_cancel_iff, nameClosing_ahead, scanClosing_ahead,
    apply_ite (PlainTextJsonToolCallScan.shift ahead.length)]
  congr 1
  · cases scanClosing text (skipWhitespace text payload.stop) [END_TOOL_REQUEST, nameClosing text value.name] <;> rfl
  · cases scanClosing text (skipWhitespace text payload.stop)
      [HARMONY_CALL_MARKER, END_TOOL_REQUEST, nameClosing text value.name] <;> rfl

theorem scanJsonPayload_ahead : scanJsonPayload (ahead ++ text) (ahead.length + cursor) (value.shift ahead.length) =
      (scanJsonPayload text cursor value).shift ahead.length := by
  have closing := @scanJsonClosing_ahead ahead text value
    ⟨skipWhitespace text cursor, (scanJsonObject text (skipWhitespace text cursor)).stop⟩
    (scanJsonObject text (skipWhitespace text cursor)).state
  simp only [Span.shift] at closing
  simp only [scanJsonPayload, skipWhitespace_ahead, List.length_append, Nat.add_left_cancel_iff,
    getElem?_ahead, scanJsonObject_ahead, closing,
    apply_ite (PlainTextJsonToolCallScan.shift ahead.length)]
  rfl

theorem PlainTextJsonToolCallOpeningScan.scan_ahead {opening : PlainTextJsonToolCallOpeningScan} :
    (opening.shift ahead.length).scan (ahead ++ text) = (opening.scan text).shift ahead.length := by
  cases opening with
  | stopped scan => rfl
  | opened cursor value => exact scanJsonPayload_ahead

theorem scanPlainTextJsonToolCall_ahead : scanPlainTextJsonToolCall (ahead ++ text) (ahead.length + start) [] =
      (scanPlainTextJsonToolCall text start []).shift ahead.length := by
  simp only [scanPlainTextJsonToolCall, getElem?_ahead, scanBracketOpening_ahead,
    scanHarmonyOpening_ahead, PlainTextJsonToolCallOpeningScan.scan_ahead,
    apply_ite (PlainTextJsonToolCallScan.shift ahead.length)]

end Json

section Scan

variable {ahead text : Text} {start : Nat}

/-- The options of a scan whose text was not joined from parts. -/
def ScanOptions.Unjoined (options : ScanOptions) : Prop :=
  options.lineBreakOffsets = []

theorem XmlishToolCallScan.shift_value {offset : Nat} {scan : XmlishToolCallScan} :
    (scan.shift offset).value = scan.value.map (·.shift offset) := by
  cases scan with
  | invalid at_ candidate => cases candidate <;> rfl
  | unfinished candidate completeEnd => cases candidate <;> rfl
  | complete value payload stop => rfl

theorem PlainTextJsonToolCallScan.shift_value {offset : Nat} {scan : PlainTextJsonToolCallScan} :
    (scan.shift offset).value = scan.value.map (·.shift offset) := by
  cases scan with
  | invalid at_ candidate => cases candidate <;> rfl
  | unfinished candidate => cases candidate <;> rfl
  | complete value payload stop => rfl

theorem XmlishToolCallScan.shift_isUnfinished {offset : Nat} {scan : XmlishToolCallScan} :
    (scan.shift offset).isUnfinished = scan.isUnfinished := by
  cases scan <;> rfl

theorem PlainTextJsonToolCallScan.shift_isUnfinished {offset : Nat}
    {scan : PlainTextJsonToolCallScan} : (scan.shift offset).isUnfinished = scan.isUnfinished := by
  cases scan <;> rfl

theorem accepts_ahead {options : ScanOptions} {value : Option PlainTextToolCallScanCandidate}
    {isUnfinished : Bool} :
    options.accepts (ahead ++ text) (value.map (·.shift ahead.length)) isUnfinished =
      options.accepts text value isUnfinished := by
  cases value with
  | none => rfl
  | some candidate =>
    simp only [ScanOptions.accepts, Option.map_some, PlainTextToolCallScanCandidate.shift, Span.of_ahead]

theorem exceeds_ahead {options : ScanOptions} {payload : Option Span} :
    options.exceeds (ahead ++ text) (payload.map (·.shift ahead.length)) = options.exceeds text payload := by
  cases payload with
  | none => rfl
  | some span =>
    simp [ScanOptions.exceeds, utf8ByteLengthWithinLimit, Span.shift, Nat.add_sub_add_left]

theorem scanBranches_ahead {options : ScanOptions} (unjoined : options.Unjoined) :
    scanBranches (ahead ++ text) (ahead.length + start) options =
      (scanBranches text start options).shift ahead.length := by
  rw [ScanOptions.Unjoined] at unjoined
  simp only [scanBranches, unjoined, scanXmlishToolCall_ahead, scanPlainTextJsonToolCall_ahead,
    XmlishToolCallScan.shift_value, PlainTextJsonToolCallScan.shift_value, accepts_ahead,
    XmlishToolCallScan.shift_isUnfinished, PlainTextJsonToolCallScan.shift_isUnfinished,
    PlainTextToolCallScanBranches.shift]

theorem XmlishToolCallScan.shift_completeEnd {offset : Nat} {scan : XmlishToolCallScan} :
    (scan.shift offset).completeEnd = scan.completeEnd.map (offset + ·) := by
  cases scan <;> rfl

namespace PlainTextToolCallScanBranches

variable {branches : PlainTextToolCallScanBranches} {options : ScanOptions} {offset : Nat}

theorem shift_xmlPayload : (branches.shift offset).xmlPayload = branches.xmlPayload.map (·.shift offset) := by
  simp only [xmlPayload, shift, XmlishToolCallScan.shift_value]
  cases branches.matchesXmlish <;> cases branches.xmlish.value <;> rfl

theorem shift_jsonPayload : (branches.shift offset).jsonPayload = branches.jsonPayload.map (·.shift offset) := by
  simp only [jsonPayload, shift, PlainTextJsonToolCallScan.shift_value]
  cases branches.matchesJson <;> cases branches.json.value <;> rfl

theorem shift_xmlPrefix : (branches.shift offset).xmlPrefix = branches.xmlPrefix := by
  simp only [xmlPrefix, shift, XmlishToolCallScan.shift_isUnfinished]

theorem shift_jsonPrefix : (branches.shift offset).jsonPrefix = branches.jsonPrefix := by
  simp only [jsonPrefix, shift, PlainTextJsonToolCallScan.shift_isUnfinished]

theorem nextAfterInvalid_ahead :
    (branches.shift ahead.length).nextAfterInvalid (ahead ++ text) (ahead.length + start) =
      ahead.length + branches.nextAfterInvalid text start := by
  simp only [nextAfterInvalid, shift, List.length_append]
  cases branches.matchesXmlish <;> cases branches.matchesJson <;> cases branches.xmlish <;>
    cases branches.json <;>
    simp only [if_true, if_false, Bool.false_eq_true, XmlishToolCallScan.shift, PlainTextJsonToolCallScan.shift] <;>
    omega

theorem judgePrefix_ahead : (branches.shift ahead.length).judgePrefix options (ahead ++ text) (ahead.length + start) =
      (branches.judgePrefix options text start).shift ahead.length := by
  simp only [judgePrefix, shift_xmlPrefix, shift_jsonPrefix, shift_xmlPayload, shift_jsonPayload,
    nextAfterInvalid_ahead]
  have xmlish : (branches.shift ahead.length).xmlish = branches.xmlish.shift ahead.length := rfl
  have starts : ∀ payload : Option Span, (payload.map (·.shift ahead.length)).map Span.start =
        (payload.map Span.start).map (ahead.length + ·) := by
    intro payload
    cases payload <;> rfl
  cases branches.xmlPrefix <;> cases branches.jsonPrefix <;>
    simp [exceeds_ahead, PlainTextToolCallVerdict.invalid, XmlishToolCallScan.shift_completeEnd,
      xmlish, starts, PlainTextToolCallVerdict.shift, PlainTextToolCallScanKind.shift,
      -Option.map_map]

theorem judgeOverCap_ahead :
    (branches.shift ahead.length).judgeOverCap options (ahead ++ text) (ahead.length + start) =
      (branches.judgeOverCap options text start).shift ahead.length := by
  simp only [judgeOverCap, shift_xmlPayload, shift_jsonPayload, exceeds_ahead, judgePrefix_ahead]
  cases json : branches.json <;> cases xmlish : branches.xmlish <;>
    simp only [shift, json, xmlish, XmlishToolCallScan.shift, PlainTextJsonToolCallScan.shift,
      apply_ite (PlainTextToolCallVerdict.shift ahead.length)] <;>
    simp [PlainTextToolCallVerdict.invalid, PlainTextToolCallVerdict.shift,
      PlainTextToolCallScanKind.shift, Function.comp_def, Span.shift]

theorem judgeJson_ahead : (branches.shift ahead.length).judgeJson options (ahead ++ text) (ahead.length + start) =
      (branches.judgeJson options text start).shift ahead.length := by
  have parsed : ∀ payload : Span, parseJsonArguments (ahead ++ text) (payload.shift ahead.length) =
        parseJsonArguments text payload := by
    intro payload
    rw [parseJsonArguments, Span.of_ahead]
    rfl
  have exceeds : ∀ payload : Span, options.exceeds (ahead ++ text) (some (payload.shift ahead.length)) =
        options.exceeds text (some payload) := fun payload =>
    @exceeds_ahead ahead text options (some payload)
  have json : (branches.shift ahead.length).json = branches.json.shift ahead.length := rfl
  have matches_ : (branches.shift ahead.length).matchesJson = branches.matchesJson := rfl
  simp only [judgeJson, judgeOverCap_ahead, json, matches_]
  cases branches.json with
  | invalid at_ candidate => rfl
  | unfinished candidate => rfl
  | complete value payload stop =>
    simp only [PlainTextJsonToolCallScan.shift, exceeds, parsed,
      apply_ite (PlainTextToolCallVerdict.shift ahead.length)]
    rfl

theorem judge_ahead : (branches.shift ahead.length).judge options (ahead ++ text) (ahead.length + start) =
      (branches.judge options text start).shift ahead.length := by
  have exceeds : ∀ payload : Span, options.exceeds (ahead ++ text) (some (payload.shift ahead.length)) =
        options.exceeds text (some payload) := fun payload =>
    @exceeds_ahead ahead text options (some payload)
  have xmlish : (branches.shift ahead.length).xmlish = branches.xmlish.shift ahead.length := rfl
  have matches_ : (branches.shift ahead.length).matchesXmlish = branches.matchesXmlish := rfl
  simp only [judge, judgeJson_ahead, xmlish, matches_]
  cases branches.xmlish with
  | invalid at_ candidate => rfl
  | unfinished candidate completeEnd => rfl
  | complete value payload stop =>
    simp only [XmlishToolCallScan.shift, exceeds, apply_ite (PlainTextToolCallVerdict.shift ahead.length)]
    rfl

end PlainTextToolCallScanBranches

theorem scanPlainTextToolCall_ahead {options : ScanOptions} (unjoined : options.Unjoined) :
    scanPlainTextToolCall (ahead ++ text) (ahead.length + start) options =
      (scanPlainTextToolCall text start options).shift ahead.length := by
  simp only [scanPlainTextToolCall, scanBranches_ahead unjoined, PlainTextToolCallScanBranches.judge_ahead]
  rfl

end Scan

end ToolCallRepair
