import PlatformClaw.ToolCalls.Streaming
import PlatformClaw.ToolCalls.Translation

/-! # What is released of a buffered text

`classifyPending` decides about calls on the text that is buffered and then releases
what is left of it. Whether the reader is shown another call depends on what the same
search finds in the part that is kept.
-/

namespace ToolCallRepair

open Scanning

section Ahead

variable {ahead text : Text} {options : ScanOptions} {start index : Nat}

def ScannedCall.shift (offset : Nat) (call : ScannedCall) : ScannedCall :=
  { call with stop := offset + call.stop, payloadStart := call.payloadStart.map (offset + ·) }

def ScannedCallSequence.shift (offset : Nat) (sequence : ScannedCallSequence) : ScannedCallSequence :=
  { sequence with
    start := offset + sequence.start
    stop := offset + sequence.stop
    activeStart := sequence.activeStart.map (offset + ·) }

def CallSequenceEnd.shift (offset : Nat) (found : CallSequenceEnd) : CallSequenceEnd :=
  { found with stop := offset + found.stop, activeStart := found.activeStart.map (offset + ·) }

theorem scannedCall_shift {offset : Nat} {scan : PlainTextToolCallScan} :
    scannedCall (scan.shift offset) = (scannedCall scan).map (·.shift offset) := by
  have kind : (scan.shift offset).kind = scan.kind.shift offset := rfl
  have overCap : (scan.shift offset).overCap = scan.overCap := rfl
  have payloadStart : (scan.shift offset).payloadStart = scan.payloadStart.map (offset + ·) := rfl
  simp only [scannedCall, kind, overCap, payloadStart, Option.isSome_map]
  cases scan.kind with
  | complete stop => rfl
  | unfinished completeEnd =>
    simp only [PlainTextToolCallScanKind.shift]
    split <;> rfl
  | invalid at_ =>
    simp only [PlainTextToolCallScanKind.shift]
    split <;> rfl

theorem isNamedPrefix_shift {offset : Nat} {scan : PlainTextToolCallScan} :
    isNamedPrefix (scan.shift offset) = isNamedPrefix scan := by
  have named : ∀ value : Option PlainTextToolCallScanCandidate, (value.map (·.shift offset)).any
          (fun candidate => decide (candidate.name.start < candidate.name.stop)) =
        value.any fun candidate => decide (candidate.name.start < candidate.name.stop) := by
    intro value
    cases value <;> simp [PlainTextToolCallScanCandidate.shift, Span.shift]
  have same : scanHasNamedCandidate (scan.shift offset) = scanHasNamedCandidate scan := by
    have json : (scan.shift offset).json = scan.json.shift offset := rfl
    have xmlish : (scan.shift offset).xmlish = scan.xmlish.shift offset := rfl
    simp only [scanHasNamedCandidate, json, xmlish, PlainTextJsonToolCallScan.shift_value,
      XmlishToolCallScan.shift_value, List.any_cons, named]
  have kind : (scan.shift offset).kind = scan.kind.shift offset := rfl
  simp only [isNamedPrefix, kind, same]
  cases scan.kind <;> rfl

theorem consumeRemovedLineEnd_ahead {stop : Nat} : consumeRemovedLineEnd (ahead ++ text) (ahead.length + stop) =
      ahead.length + consumeRemovedLineEnd text stop := by
  simp only [consumeRemovedLineEnd, skipLineIndentation_ahead, List.length_append,
    Nat.add_left_cancel_iff, consumeLineBreak_ahead]
  split
  · rfl
  · cases consumeLineBreak text (skipLineIndentation text stop) <;> rfl

theorem endAtBoundary_nil {call : ScannedCall} : endAtBoundary text options [] call = (call, []) := by
  rw [endAtBoundary]
  split <;> rfl

theorem unprotected {offset : Nat} : isOffsetInProtectedRanges offset [] = false := rfl

theorem followCalls_ahead (unjoined : options.Unjoined) (turns callStart : Nat) (call : ScannedCall)
    (hasOverCap : Bool) :
    followCalls (ahead ++ text) options [] turns [] (ahead.length + callStart) (call.shift ahead.length) hasOverCap =
      (followCalls text options [] turns [] callStart call hasOverCap).shift ahead.length := by
  induction turns generalizing callStart call hasOverCap with
  | zero => rfl
  | succ turns ih =>
    have incomplete : (call.shift ahead.length).incomplete = call.incomplete := rfl
    have overCap : (call.shift ahead.length).overCap = call.overCap := rfl
    have stop : (call.shift ahead.length).stop = ahead.length + call.stop := rfl
    simp only [followCalls, endAtBoundary_nil, incomplete, overCap, stop,
      consumeRemovedLineEnd_ahead, skipWhitespace_ahead, List.length_append,
      Nat.add_le_add_iff_left, unprotected, scanPlainTextToolCall_ahead unjoined,
      scannedCall_shift, isNamedPrefix_shift]
    split
    · rfl
    · split
      · rfl
      · cases scannedCall (scanPlainTextToolCall text (skipWhitespace text call.stop) options) with
        | some next => exact ih _ _ _
        | none =>
          simp only [Option.map_none]
          split <;> rfl

theorem followCalls_boundaries (turns callStart : Nat) (call : ScannedCall) (hasOverCap : Bool) :
    (followCalls text options [] turns [] callStart call hasOverCap).boundaries = [] := by
  induction turns generalizing callStart call hasOverCap with
  | zero => rfl
  | succ turns ih =>
    simp only [followCalls, endAtBoundary_nil]
    split
    · rfl
    · split
      · rfl
      · split
        · exact ih _ _ _
        · split <;> rfl

theorem sequenceAt_boundaries {callStart : Nat} {found : CallSequenceEnd}
    (known : sequenceAt text options [] [] callStart = some found) : found.boundaries = [] := by
  rw [sequenceAt] at known
  split at known
  · split at known
    · cases known
      exact followCalls_boundaries _ _ _ _
    · cases known
  · split at known
    · cases known
      rfl
    · cases known

theorem utf8ByteLengthWithinLimit_ahead {stop limit : Nat} :
    utf8ByteLengthWithinLimit (ahead ++ text) (ahead.length + start) (ahead.length + stop) limit =
      utf8ByteLengthWithinLimit text start stop limit := by
  simp only [utf8ByteLengthWithinLimit, Nat.add_sub_add_left, slice_ahead]

theorem sequenceAt_ahead (unjoined : options.Unjoined) {callStart : Nat} :
    sequenceAt (ahead ++ text) options [] [] (ahead.length + callStart) =
      (sequenceAt text options [] [] callStart).map (·.shift ahead.length) := by
  simp only [sequenceAt, scanPlainTextToolCall_ahead unjoined, scannedCall_shift,
    isNamedPrefix_shift, List.length_append, Nat.add_sub_add_left, Nat.add_lt_add_iff_left]
  cases scannedCall (scanPlainTextToolCall text callStart options) with
  | some call =>
    simp only [Option.map_some, followCalls_ahead unjoined]
    split <;> rfl
  | none =>
    simp only [Option.map_none]
    split <;> rfl

theorem isLineStart_ahead : (isLineStart (ahead ++ text) (ahead.length + index) ||
      [ahead.length].contains (ahead.length + index)) = isLineStart text index := by
  cases index with
  | zero => simp [isLineStart]
  | succ before =>
    have place : ahead.length + (before + 1) - 1 = ahead.length + before := rfl
    simp [isLineStart, place]

/-- The search behind other text finds what it finds in the text alone, if a line is
taken to begin there. -/
theorem callSequencesFrom_ahead (unjoined : options.Unjoined) (turns index : Nat) :
    callSequencesFrom (ahead ++ text) options [] [ahead.length] turns [] (ahead.length + index) =
      (callSequencesFrom text options [] [] turns [] index).map (·.shift ahead.length) := by
  induction turns generalizing index with
  | zero => rfl
  | succ turns ih =>
    have next : ∀ place, max (ahead.length + place) (ahead.length + index + 1) =
        ahead.length + max place (index + 1) := by omega
    have after : ∀ place, max (ahead.length + index + 1) (ahead.length + place) =
        ahead.length + max (index + 1) place := by omega
    have nowhere : List.contains ([] : List Nat) index = false := rfl
    have scanned : ∀ scan : PlainTextToolCallScan,
        (scan.shift ahead.length).next = ahead.length + scan.next := fun scan => rfl
    simp only [callSequencesFrom, List.length_append, Nat.add_le_add_iff_left, isLineStart_ahead,
      skipLineIndentation_ahead, unprotected, sequenceAt_ahead unjoined,
      scanPlainTextToolCall_ahead unjoined, nowhere, Bool.or_false, scanned, after]
    split
    · rfl
    · split
      · exact ih (index + 1)
      · cases found : sequenceAt text options [] [] (skipLineIndentation text index) with
        | none => exact ih _
        | some sequence =>
          have boundaries : sequence.boundaries = [] := sequenceAt_boundaries found
          have moved : (sequence.shift ahead.length).boundaries = [] := boundaries
          have stop : (sequence.shift ahead.length).stop = ahead.length + sequence.stop := rfl
          simp only [Option.map_some, moved, stop, utf8ByteLengthWithinLimit_ahead, next, ih, boundaries]
          rfl

end Ahead

section Cuts

variable {matcher : PlainTextToolCallNameMatcher} {text : Text}

/-- The search in the text of a single content item without protected ranges. -/
def callSequences (matcher : PlainTextToolCallNameMatcher) (text : Text) : List ScannedCallSequence :=
  findCallSequences text matcher [] [] []

/-- The same search from `index` on, where a line is taken to begin. -/
def callSequencesBehind (matcher : PlainTextToolCallNameMatcher) (text : Text) (index : Nat) :
    List ScannedCallSequence :=
  callSequencesFrom text (callScanOptions matcher []) [] [index] (text.length - index) [] index

/-- No candidate is left open where the piece ends: whatever follows it, the search finds
nothing in the piece and in what follows the same as without it. -/
def Closed (matcher : PlainTextToolCallNameMatcher) (piece : Text) : Prop :=
  ∀ rest, callSequences matcher (piece ++ rest) = (callSequences matcher rest).map (·.shift piece.length)

/-- What `removeRangesFrom` takes out of the text. -/
def removedSpans (text : Text) : Nat → List ScannedCallSequence → List Span
  | _, [] => []
  | cursor, range :: rest =>
    if range.start < text.length then
      let stop := min text.length range.stop
      let next := if range.start < stop then max cursor stop else cursor
      let others := if text.length < range.stop then [] else removedSpans text next rest
      if range.start < stop then ⟨max cursor range.start, next⟩ :: others else others
    else []

def piecesAhead (text : Text) : Nat → List Span → List Text
  | _, [] => []
  | cursor, span :: rest => slice text cursor span.start :: piecesAhead text span.stop rest

/-- Where the last kept piece begins. -/
def lastCut : Nat → List Span → Nat
  | cursor, [] => cursor
  | _, span :: rest => lastCut span.stop rest

theorem removeRangesFrom_eq (cursor : Nat) (ranges : List ScannedCallSequence) : removeRangesFrom text cursor ranges =
      withoutSpans text cursor (removedSpans text cursor ranges) := by
  induction ranges generalizing cursor with
  | nil => rfl
  | cons range rest ih =>
    simp only [removeRangesFrom, removedSpans]
    by_cases inside : range.start < text.length
    · by_cases nonempty : range.start < min text.length range.stop
      · by_cases past : text.length < range.stop
        · simp only [if_pos, inside, nonempty, past, withoutSpans]
        · simp only [if_pos, inside, nonempty, if_neg, past, not_false_eq_true, ih, withoutSpans]
      · by_cases past : text.length < range.stop
        · simp only [if_pos, inside, if_neg, nonempty, past, not_false_eq_true, withoutSpans, List.nil_append]
        · simp only [if_pos, inside, if_neg, nonempty, past, not_false_eq_true, ih, List.nil_append]
    · simp only [if_neg, inside, not_false_eq_true, withoutSpans]

theorem withoutSpans_eq (cursor : Nat) (spans : List Span) : withoutSpans text cursor spans =
      (piecesAhead text cursor spans).flatten ++ text.drop (lastCut cursor spans) := by
  induction spans generalizing cursor with
  | nil => rfl
  | cons span rest ih =>
    simp only [withoutSpans, piecesAhead, lastCut, ih, List.flatten_cons, List.append_assoc]

theorem callSequencesBehind_eq {index : Nat} (inside : index ≤ text.length) : callSequencesBehind matcher text index =
      (callSequences matcher (text.drop index)).map (·.shift index) := by
  have length : (text.take index).length = index := List.length_take_of_le inside
  have moved := @callSequencesFrom_ahead (text.take index) (text.drop index)
    (callScanOptions matcher []) rfl (text.length - index) 0
  rw [length, List.take_append_drop, Nat.add_zero] at moved
  rw [callSequencesBehind, moved, callSequences, findCallSequences, List.length_drop]

theorem closed_nil : Closed matcher [] := by
  intro rest
  have same : ∀ sequence : ScannedCallSequence, sequence.shift 0 = sequence := by
    intro sequence
    cases sequence with
    | mk start stop activeStart overCap => cases activeStart <;> simp [ScannedCallSequence.shift]
  simp [same]

theorem closed_append {first second : Text} (closed : Closed matcher first)
    (closed' : Closed matcher second) : Closed matcher (first ++ second) := by
  intro rest
  have moved : ∀ sequence : ScannedCallSequence, (sequence.shift second.length).shift first.length =
        sequence.shift (first ++ second).length := by
    intro sequence
    cases sequence with
    | mk start stop activeStart overCap =>
      cases activeStart <;> simp [ScannedCallSequence.shift, Nat.add_assoc]
  rw [List.append_assoc, closed, closed', List.map_map]
  apply List.map_congr_left
  intro sequence _
  exact moved sequence

theorem closed_flatten {pieces : List Text} (closed : ∀ piece ∈ pieces, Closed matcher piece) :
    Closed matcher pieces.flatten := by
  induction pieces with
  | nil => exact closed_nil
  | cons piece pieces ih =>
    rw [List.flatten_cons]
    apply closed_append (closed piece List.mem_cons_self)
    exact ih fun other member => closed other (List.mem_cons_of_mem _ member)

def mayOpenCall (unit : Nat) : Bool :=
  (units "[<acf").contains unit

theorem kept_shows_no_call_iff {spans : List Span} (closed : ∀ piece ∈ piecesAhead text 0 spans, Closed matcher piece)
    (inside : lastCut 0 spans ≤ text.length) :
    callSequences matcher (withoutSpans text 0 spans) = [] ↔
      callSequencesBehind matcher text (lastCut 0 spans) = [] := by
  rw [withoutSpans_eq, closed_flatten closed, callSequencesBehind_eq inside, List.map_eq_nil_iff, List.map_eq_nil_iff]

theorem lastCut_removed (cursor : Nat) (ranges : List ScannedCallSequence) (inside : cursor ≤ text.length) :
    lastCut cursor (removedSpans text cursor ranges) ≤ text.length := by
  induction ranges generalizing cursor with
  | nil => exact inside
  | cons range rest ih =>
    simp only [removedSpans]
    split
    · split
      · rename_i nonempty
        have next : max cursor (min text.length range.stop) ≤ text.length := by omega
        split
        · exact next
        · exact ih _ next
      · split
        · exact inside
        · exact ih _ inside
    · exact inside

end Cuts

section Active

variable {text : Text} {options : ScanOptions} {start index : Nat}

theorem unfinished_next {completeEnd : Option Nat}
    (waits : (scanPlainTextToolCall text start options).kind = .unfinished completeEnd) :
    (scanPlainTextToolCall text start options).next = text.length := by
  refine (@PlainTextToolCallScanBranches.judge_cases (scanBranches text start options) options text
    start (fun verdict => verdict.kind = .unfinished completeEnd → verdict.next = text.length)
    ?_ ?_ ?_ ?_ ?_) waits
  · intro _ _ _ _ read
    cases read
  · intro _ _ _ _ _ read
    cases read
  · intro _ _ _ _ _ read
    cases read
  · intro _ _ read
    cases read
  · intro _ _ read
    rw [PlainTextToolCallScanBranches.judgePrefix] at read ⊢
    split at read
    · rename_i begun
      rw [if_pos begun]
    · cases read

theorem incomplete_stop {call : ScannedCall}
    (known : scannedCall (scanPlainTextToolCall text start options) = some call)
    (incomplete : call.incomplete = true) : call.stop = text.length := by
  rw [scannedCall] at known
  cases kind : (scanPlainTextToolCall text start options).kind with
  | complete stop =>
    rw [kind] at known
    cases known
    cases incomplete
  | unfinished completeEnd =>
    rw [kind] at known
    dsimp only at known
    split at known
    · cases known
      exact unfinished_next kind
    · cases known
  | invalid at_ =>
    rw [kind] at known
    dsimp only at known
    split at known
    · cases known
      cases incomplete
    · cases known

theorem consumeRemovedLineEnd_end : consumeRemovedLineEnd text text.length = text.length := by
  have ended : skipLineIndentation text text.length = text.length := by
    simp [skipLineIndentation, skipWhile]
  rw [consumeRemovedLineEnd, ended, if_pos rfl]

theorem followCalls_active {turns callStart active : Nat} {call : ScannedCall} {hasOverCap : Bool}
    (last : call.incomplete = true → call.stop = text.length)
    (writing : (followCalls text options [] turns [] callStart call hasOverCap).activeStart = some active) :
    (followCalls text options [] turns [] callStart call hasOverCap).stop = text.length := by
  induction turns generalizing callStart call hasOverCap with
  | zero => cases writing
  | succ turns ih =>
    simp only [followCalls, endAtBoundary_nil] at writing ⊢
    cases incomplete : call.incomplete with
    | true =>
      simp only [incomplete, if_true] at writing ⊢
      rw [last incomplete, consumeRemovedLineEnd_end]
    | false =>
      simp only [incomplete, Bool.false_eq_true, if_false] at writing ⊢
      split at writing
      · cases writing
      · rename_i more
        rw [if_neg more]
        cases following : scannedCall (scanPlainTextToolCall text (skipWhitespace text call.stop) options) with
        | some next =>
          rw [following] at writing
          exact ih (incomplete_stop following) writing
        | none =>
          rw [following] at writing
          dsimp only at writing ⊢
          split at writing
          · rename_i named
            rw [if_pos named]
          · cases writing

theorem sequenceAt_active {callStart active : Nat} {found : CallSequenceEnd}
    (known : sequenceAt text options [] [] callStart = some found)
    (writing : found.activeStart = some active) : found.stop = text.length := by
  rw [sequenceAt] at known
  cases first : scannedCall (scanPlainTextToolCall text callStart options) with
  | some call =>
    rw [first] at known
    dsimp only at known
    split at known
    · cases known
      exact followCalls_active (incomplete_stop first) writing
    · cases known
  | none =>
    rw [first] at known
    dsimp only at known
    split at known
    · cases known
      rfl
    · cases known

theorem callSequencesFrom_active {turns active : Nat} {lineStarts : List Nat}
    {sequence : ScannedCallSequence} {others : List ScannedCallSequence}
    (known : callSequencesFrom text options [] lineStarts turns [] index = sequence :: others)
    (writing : sequence.activeStart = some active) :
    sequence.stop = text.length ∧ others = [] := by
  induction turns generalizing index with
  | zero => cases known
  | succ turns ih =>
    simp only [callSequencesFrom, unprotected] at known
    split at known
    · cases known
    · split at known
      · exact ih known
      · cases found : sequenceAt text options [] [] (skipLineIndentation text index) with
        | none =>
          rw [found] at known
          exact ih known
        | some stopped =>
          rw [found] at known
          dsimp only [Bool.false_eq_true, if_false] at known
          injection known with first rest
          subst first
          have stop := sequenceAt_active found writing
          constructor
          · exact stop
          · rw [← rest, stop]
            cases turns with
            | zero => rfl
            | succ turns => exact if_pos (Nat.le_max_left _ _)

end Active

section Released

variable (pending : CandidatePendingState) (matcher : PlainTextToolCallNameMatcher)
  (finalize : Bool)

/-- No text that is released holds a sequence the search would find in it. -/
def ReleasesNoCall : Prop :=
  ∀ text, classifyPending pending matcher (fun _ => []) finalize = .stripped text →
    findCandidateCallSequences ⟨pending.parts, text⟩ matcher (fun _ => []) = []

def overCapRanges : List ScannedCallSequence :=
  (callSequences matcher pending.buffer).filter (·.overCap)

/-- Calls found behind the last of the ranges, where the released text goes on. -/
def callsBehind (ranges : List ScannedCallSequence) : List ScannedCallSequence :=
  callSequencesBehind matcher pending.buffer (lastCut 0 (removedSpans pending.buffer 0 ranges))

/-- Where sequences over the cap are removed, nothing is left open in front of them. -/
def CutsAreClosed : Prop :=
  ∀ piece ∈ piecesAhead pending.buffer 0
    (removedSpans pending.buffer 0 (overCapRanges pending matcher)), Closed matcher piece

/-- The text still waits for more, so it is not released. -/
def awaitsText : Bool :=
  let scan := scanPlainTextToolCall pending.buffer (skipLineIndentation pending.buffer 0) (callScanOptions matcher [])
  (scan.kind matches .unfinished _) &&
    (scanHasNamedCandidate scan || !finalize || decide (MAX_PAYLOAD_BYTES < pending.bufferBytes))

/-- Behind what is removed the buffer shows no further call. -/
structure NoCallBehind : Prop where
  overCap : overCapRanges pending matcher ≠ [] → callsBehind pending matcher (overCapRanges pending matcher) = []
  leading : overCapRanges pending matcher = [] → ∀ leading,
    leadingSequence (callSequences matcher pending.buffer) = some leading →
    leading.activeStart = none →
    skipWhitespace pending.buffer leading.stop < pending.buffer.length →
    callsBehind pending matcher [leading] = []
  whole : overCapRanges pending matcher = [] → leadingSequence (callSequences matcher pending.buffer) = none →
    pending.sequenceOverCap = true → awaitsText pending matcher finalize = false →
    callSequences matcher pending.buffer = []

variable {pending matcher finalize}

theorem boundaries_single {parts : List CandidatePart} {text : Text} (single : parts.length ≤ 1) :
    (StandalonePlainTextToolCallCandidate.mk parts text).boundaries = [] := by
  cases parts with
  | nil => rfl
  | cons part others =>
    cases others with
    | nil => rfl
    | cons _ _ =>
      simp only [List.length_cons] at single
      omega

theorem findCandidateCallSequences_single {parts : List CandidatePart} {text : Text} (single : parts.length ≤ 1) :
    findCandidateCallSequences ⟨parts, text⟩ matcher (fun _ => []) = callSequences matcher text := by
  rw [findCandidateCallSequences, boundaries_single single, callSequences]

theorem leadingSequence_cases {sequences : List ScannedCallSequence} {leading : ScannedCallSequence}
    (known : leadingSequence sequences = some leading) :
    ∃ others, sequences = leading :: others ∧ leading.start = 0 := by
  cases sequences with
  | nil => cases known
  | cons first others =>
    simp only [leadingSequence, List.head?_cons, Option.filter_some] at known
    split at known
    · rename_i start
      cases known
      exact ⟨others, rfl, by simpa using start⟩
    · cases known

theorem piecesAhead_leading {text : Text} {leading : ScannedCallSequence} (start : leading.start = 0) :
    ∀ piece ∈ piecesAhead text 0 (removedSpans text 0 [leading]), piece = [] := by
  intro piece member
  simp only [removedSpans, start, ite_self] at member
  split at member
  · split at member
    · simp only [piecesAhead, slice, List.mem_singleton] at member
      simpa using member
    · cases member
  · cases member

theorem released_iff {ranges : List ScannedCallSequence}
    (closed : ∀ piece ∈ piecesAhead pending.buffer 0 (removedSpans pending.buffer 0 ranges), Closed matcher piece) :
    callSequences matcher (removeRanges ranges pending.buffer) = [] ↔ callsBehind pending matcher ranges = [] := by
  rw [removeRanges, removeRangesFrom_eq, callsBehind]
  exact kept_shows_no_call_iff closed (lastCut_removed 0 ranges (Nat.zero_le _))

theorem closed_leading {text : Text} {leading : ScannedCallSequence} (start : leading.start = 0) :
    ∀ piece ∈ piecesAhead text 0 (removedSpans text 0 [leading]), Closed matcher piece := by
  intro piece member
  rw [piecesAhead_leading start piece member]
  exact closed_nil

theorem nothing_behind_active {leading : ScannedCallSequence} {active : Nat}
    (known : leadingSequence (callSequences matcher pending.buffer) = some leading)
    (writing : leading.activeStart = some active) (removed : overCapRanges pending matcher ≠ []) :
    callsBehind pending matcher (overCapRanges pending matcher) = [] := by
  obtain ⟨others, sequences, start⟩ := leadingSequence_cases known
  have last := callSequencesFrom_active sequences writing
  rw [last.2] at sequences
  have ranges : overCapRanges pending matcher = [leading] := by
    rw [overCapRanges, sequences] at removed ⊢
    cases capped : leading.overCap with
    | true => simp [capped]
    | false => simp [capped] at removed
  have nonempty : 0 < pending.buffer.length := by
    apply Nat.pos_of_ne_zero
    intro empty
    rw [callSequences, findCallSequences, empty] at sequences
    cases sequences
  have cut : lastCut 0 (removedSpans pending.buffer 0 [leading]) = pending.buffer.length := by
    simp [removedSpans, start, last.1, nonempty, lastCut]
  rw [ranges, callsBehind, cut, callSequencesBehind, Nat.sub_self]
  rfl

theorem classifyActive_not_stripped {candidate : StandalonePlainTextToolCallCandidate}
    {leading : Option ScannedCallSequence} {overCap : Bool} {text : Text} :
    classifyActive candidate matcher leading overCap ≠ some (.stripped text) := by
  intro stripped
  rw [classifyActive] at stripped
  split at stripped
  · split at stripped
    · split at stripped
      · cases stripped
      · split at stripped
        · cases stripped
        · cases stripped
    · cases stripped
  · cases stripped

theorem withoutLeading_stripped_iff {scan : PlainTextToolCallScan} {text : Text} :
    classifyWithoutLeading pending scan finalize = .stripped text ↔
      text = pending.buffer ∧ pending.sequenceOverCap = true ∧ ((scan.kind matches .unfinished _) &&
          (scanHasNamedCandidate scan || !finalize ||
            decide (MAX_PAYLOAD_BYTES < pending.bufferBytes))) = false := by
  simp only [classifyWithoutLeading]
  cases scan.kind <;> cases scanHasNamedCandidate scan <;> cases finalize <;>
    cases pending.sequenceOverCap <;>
    cases decide (MAX_PAYLOAD_BYTES < pending.bufferBytes) <;> simp [eq_comm]

section Single

variable (single : pending.parts.length ≤ 1)

include single

theorem sequences_single : findCandidateCallSequences pending.candidate matcher (fun _ => []) =
      callSequences matcher pending.buffer :=
  findCandidateCallSequences_single single

theorem boundaries_candidate : pending.candidate.boundaries = [] :=
  boundaries_single single

theorem releases_over_cap_iff (removed : overCapRanges pending matcher ≠ [])
    (closed : CutsAreClosed pending matcher) :
    ReleasesNoCall pending matcher finalize ↔ callsBehind pending matcher (overCapRanges pending matcher) = [] := by
  have shown := released_iff closed
  have some_ : (overCapRanges pending matcher).isEmpty = false :=
    List.isEmpty_eq_false_iff.mpr removed
  have ranges : (callSequences matcher pending.buffer).filter (·.overCap) = overCapRanges pending matcher := rfl
  constructor
  · intro quiet
    rw [ReleasesNoCall] at quiet
    simp only [classifyPending, sequences_single single, ranges, some_] at quiet
    cases active : classifyActive pending.candidate matcher (leadingSequence (callSequences matcher pending.buffer))
        (pending.sequenceOverCap || !false) with
    | some classification =>
      cases leading : leadingSequence (callSequences matcher pending.buffer) with
      | none =>
        rw [leading] at active
        cases active
      | some first =>
        cases writing : first.activeStart with
        | none =>
          rw [leading, classifyActive, Option.bind_some, writing] at active
          cases active
        | some start => exact nothing_behind_active leading writing removed
    | none =>
      rw [active] at quiet
      dsimp only at quiet
      apply shown.mp
      cases empty : (removeRanges (overCapRanges pending matcher) pending.buffer).isEmpty with
      | true =>
        rw [List.isEmpty_iff.mp empty]
        rfl
      | false =>
        have text : pending.candidate.text = pending.buffer := rfl
        rw [text, empty] at quiet
        rw [← findCandidateCallSequences_single single]
        exact quiet _ rfl
  · intro nothing text stripped
    rw [findCandidateCallSequences_single single]
    have candidateText : pending.candidate.text = pending.buffer := rfl
    simp only [classifyPending, sequences_single single, ranges, some_, candidateText] at stripped
    split at stripped
    · rename_i classification active
      subst stripped
      exact absurd active classifyActive_not_stripped
    · have released : removeRanges (overCapRanges pending matcher) pending.buffer = text := by
        simp only [Bool.false_eq_true, if_false] at stripped
        split at stripped
        · split at stripped
          · cases stripped
          · injection stripped
        · injection stripped
      rw [← released]
      exact shown.mpr nothing

theorem releases_leading_iff {leading : ScannedCallSequence} (kept : overCapRanges pending matcher = [])
    (known : leadingSequence (callSequences matcher pending.buffer) = some leading) :
    ReleasesNoCall pending matcher finalize ↔ (leading.activeStart = none →
        skipWhitespace pending.buffer leading.stop < pending.buffer.length →
        callsBehind pending matcher [leading] = []) := by
  obtain ⟨others, sequences, start⟩ := leadingSequence_cases known
  have shown := @released_iff pending matcher [leading] (closed_leading start)
  have ranges : (callSequences matcher pending.buffer).filter (·.overCap) = [] := kept
  constructor
  · intro quiet finished more
    rw [ReleasesNoCall] at quiet
    simp only [classifyPending, sequences_single single, ranges, known] at quiet
    simp only [classifyActive, Option.bind_some, finished, List.isEmpty_nil, if_true,
      classifyLeading, Option.isNone_none, more] at quiet
    apply shown.mp
    rw [← findCandidateCallSequences_single single]
    exact quiet _ rfl
  · intro nothing text stripped
    rw [findCandidateCallSequences_single single]
    simp only [classifyPending, sequences_single single, ranges, known, List.isEmpty_nil, if_true] at stripped
    split at stripped
    · rename_i classification active
      subst stripped
      exact absurd active classifyActive_not_stripped
    · rw [classifyLeading] at stripped
      split at stripped
      · rename_i finished
        split at stripped
        · rename_i more
          injection stripped with released
          rw [← released]
          exact shown.mpr (nothing (Option.isNone_iff_eq_none.mp finished) more)
        · split at stripped
          · injection stripped with released
            rw [← released]
            rfl
          · cases stripped
      · split at stripped
        · cases stripped
        · cases stripped

theorem releases_whole_iff (kept : overCapRanges pending matcher = [])
    (known : leadingSequence (callSequences matcher pending.buffer) = none) :
    ReleasesNoCall pending matcher finalize ↔
      (pending.sequenceOverCap = true → awaitsText pending matcher finalize = false →
        callSequences matcher pending.buffer = []) := by
  have ranges : (callSequences matcher pending.buffer).filter (·.overCap) = [] := kept
  have scan : classifyPending pending matcher (fun _ => []) finalize =
      classifyWithoutLeading pending
        (scanPlainTextToolCall pending.buffer (skipLineIndentation pending.buffer 0)
          (callScanOptions matcher [])) finalize := by
    simp only [classifyPending, sequences_single single, ranges, known, classifyActive,
      Option.bind_none, List.isEmpty_nil, if_true, boundaries_candidate single]
    rfl
  rw [ReleasesNoCall, scan]
  constructor
  · intro quiet capped waits
    rw [← findCandidateCallSequences_single single]
    exact quiet _ (withoutLeading_stripped_iff.mpr ⟨rfl, capped, waits⟩)
  · intro nothing text stripped
    obtain ⟨released, capped, waits⟩ := withoutLeading_stripped_iff.mp stripped
    rw [findCandidateCallSequences_single single, released]
    exact nothing capped waits

end Single

/-- What is released shows no call if the search finds none behind what was removed. That
is needed as well, except that a candidate left open in front of a removed sequence may
run on into the text behind it. -/
theorem released_text_shows_no_call (single : pending.parts.length ≤ 1) :
    (CutsAreClosed pending matcher ∧ NoCallBehind pending matcher finalize →
      ReleasesNoCall pending matcher finalize) ∧
    (ReleasesNoCall pending matcher finalize → CutsAreClosed pending matcher →
      NoCallBehind pending matcher finalize) := by
  constructor
  · intro condition
    obtain ⟨closed, nothing⟩ := condition
    by_cases kept : overCapRanges pending matcher = []
    · cases known : leadingSequence (callSequences matcher pending.buffer) with
      | none => exact (releases_whole_iff single kept known).mpr (nothing.whole kept known)
      | some leading =>
        exact (releases_leading_iff single kept known).mpr (nothing.leading kept leading known)
    · exact (releases_over_cap_iff single kept closed).mpr (nothing.overCap kept)
  · intro quiet closed
    constructor
    · intro removed
      exact (releases_over_cap_iff single removed closed).mp quiet
    · intro kept leading known
      exact (releases_leading_iff single kept known).mp quiet
    · intro kept known
      exact (releases_whole_iff single kept known).mp quiet

end Released

namespace SecondCall

def matcher : PlainTextToolCallNameMatcher :=
  ⟨fun name => name == units "x", fun beginning => beginning.isPrefixOf (units "x")⟩

/-- One text delta with a call, a line of text and the call again. -/
def pending : CandidatePendingState :=
  let buffer := units "[tool:x]{}\nhello\n[tool:x]{}"
  ⟨buffer, buffer.length, [⟨0, 0, buffer.length⟩], false⟩

theorem second_call_is_released :
    ¬∀ (pending : CandidatePendingState) (matcher : PlainTextToolCallNameMatcher) (finalize : Bool),
      pending.parts.length ≤ 1 → ReleasesNoCall pending matcher finalize := by
  intro quiet
  have released : classifyPending pending matcher (fun _ => []) false =
      .stripped (units "hello\n[tool:x]{}") := by decide
  have silent := quiet pending matcher false (by decide) _ released
  have shown : findCandidateCallSequences ⟨pending.parts, units "hello\n[tool:x]{}"⟩ matcher
      (fun _ => []) ≠ [] := by decide
  exact shown silent

/-- The call with nothing but the line of text behind it. -/
def quietPending : CandidatePendingState :=
  let buffer := units "[tool:x]{}\nhello"
  ⟨buffer, buffer.length, [⟨0, 0, buffer.length⟩], false⟩

theorem line_is_released : quietPending.parts.length ≤ 1 ∧ ReleasesNoCall quietPending matcher false := by
  have kept : overCapRanges quietPending matcher = [] := by decide
  have leading : leadingSequence (callSequences matcher quietPending.buffer) = some ⟨0, 11, none, false⟩ := by decide
  refine ⟨by decide, (released_text_shows_no_call (by decide)).1 ⟨?_, ?_, ?_, ?_⟩⟩
  · intro piece member
    rw [kept] at member
    cases member
  · intro removed
    exact absurd kept removed
  · intro _ first known _ _
    rw [leading] at known
    cases known
    decide
  · intro _ known
    rw [leading] at known
    cases known

end SecondCall

end ToolCallRepair
