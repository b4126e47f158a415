import PlatformClaw.ToolCalls.Extension

/-! # A scan moves forward

Every call that is read ends behind the place where it begins and within the text.
The loops over a text that remove or collect calls stop because of it.
-/

namespace ToolCallRepair

open Scanning

def Forward (text : Text) (start stop : Nat) : Prop :=
  start < stop ∧ stop ≤ text.length

section Xmlish

variable {text : Text} {start : Nat} {lineBreakOffsets : List Nat} {form form' : XmlishSyntax}
  {name name' : Span} {cursor : Nat}

theorem scanXmlishBracketClose_le (inside : name.stop ≤ text.length)
    (opened : scanXmlishBracketClose text form name lineBreakOffsets = .opened form' name' cursor) :
    name.stop < cursor := by
  rw [scanXmlishBracketClose] at opened
  split at opened
  · cases opened
  · split at opened
    · cases opened
    · dsimp only at opened
      split at opened
      · split at opened
        · cases opened
        · split at opened
          · cases opened
          · rename_i broken
            have bound := structuralLineBreak_le (by omega) broken
            cases opened
            omega
      · cases opened
        exact Nat.lt_succ_self _

theorem scanXmlishOpening_le (inside : start < text.length)
    (opened : scanXmlishOpening text start lineBreakOffsets = .opened form name cursor) :
    start < cursor := by
  rw [scanXmlishOpening] at opened
  split at opened
  · rw [scanFunctionOpening] at opened
    split at opened
    · cases opened
    · split at opened
      · cases opened
      · rw [scanFunctionName] at opened
        have least := @le_skipWhileUpTo _ isXmlishNameChar text (start + FUNCTION_OPEN.length) 121
        split at opened
        · cases opened
        · split at opened
          · cases opened
          · split at opened
            · cases opened
            · cases opened
              omega
  · split at opened
    · rw [scanXmlishBracketOpening] at opened
      dsimp only at opened
      have least := @le_skipWhileUpTo _ isPlainTextToolNameChar text (start + 1) 121
      have bound := @skipWhileUpTo_le _ isPlainTextToolNameChar text (start + 1) 121 inside
      split at opened
      · cases opened
      · split at opened
        · cases opened
        · split at opened
          · rename_i marked
            have colon := (List.getElem?_eq_some_iff.mp marked.1).1
            rw [scanXmlishToolName] at opened
            have reaches := @le_skipWhileUpTo _ isPlainTextToolNameChar text
              (skipWhileUpTo 121 isPlainTextToolNameChar text (start + 1) + 1) 121
            have reachesBound := @skipWhileUpTo_le _ isPlainTextToolNameChar text
              (skipWhileUpTo 121 isPlainTextToolNameChar text (start + 1) + 1) 121 colon
            split at opened
            · cases opened
            · have closed := scanXmlishBracketClose_le reachesBound opened
              dsimp only at closed
              omega
          · have closed := scanXmlishBracketClose_le bound opened
            dsimp only at closed
            omega
    · cases opened

theorem scanXmlishParameter_last {body next : XmlishBody} {markerStart stop : Nat}
    (read : scanXmlishParameter text body markerStart = .ok (next, stop)) :
    next.lastParameterEnd = some stop := by
  simp only [scanXmlishParameter] at read
  split at read
  · cases read
  · split at read
    · cases read
    · split at read
      · cases read
      · split at read
        · cases read
        · cases read
          rfl

theorem scanXmlishParameter_stop {body : XmlishBody} {markerStart stop : Nat}
    {scan : XmlishToolCallScan}
    (ended : scanXmlishParameter text body markerStart = .error scan)
    (reported : scan.stop? = some stop) : body.completeEnd = some stop := by
  simp only [scanXmlishParameter] at ended
  split at ended
  · cases ended
    cases reported
  · split at ended
    · cases ended
      exact reported
    · split at ended
      · cases ended
        cases reported
      · split at ended
        · cases ended
          exact reported
        · cases ended

theorem completeEnd_last {body : XmlishBody} {stop : Nat} (known : body.completeEnd = some stop) :
    body.lastParameterEnd = some stop := by
  unfold XmlishBody.completeEnd at known
  split at known
  · exact known
  · cases known

theorem scanXmlishTurn_stop {body : XmlishBody} {stop : Nat} {scan : XmlishToolCallScan} (order : start ≤ cursor)
    (last : ∀ stop, body.lastParameterEnd = some stop → Forward text start stop)
    (ended : scanXmlishTurn text body cursor = .error scan)
    (reported : scan.stop? = some stop) : Forward text start stop := by
  have least : cursor ≤ skipWhitespace text cursor := le_skipWhile
  simp only [scanXmlishTurn] at ended
  split at ended
  · cases ended
    cases known : body.completeEnd with
    | none =>
      rw [known] at reported
      cases reported
    | some end_ =>
      rw [known] at reported
      cases reported
      exact last _ (completeEnd_last known)
  · split at ended
    · rename_i closes
      have bound := startsWithAt_bound closes (by decide)
      rw [List.length_map] at bound
      have size : FUNCTION_CLOSE.length = 11 := by decide
      cases ended
      split at reported
      · cases reported
      · cases reported
        exact ⟨by omega, bound⟩
    · split at ended
      · cases ended
        exact last _ (completeEnd_last reported)
      · split at ended
        · exact last _ (completeEnd_last (scanXmlishParameter_stop ended reported))
        · split at ended
          · cases ended
            exact last _ (completeEnd_last reported)
          · cases ended
            cases known : body.completeEnd with
            | none =>
              rw [known] at reported
              cases reported
            | some end_ =>
              rw [known] at reported
              cases reported
              exact last _ (completeEnd_last known)

theorem scanXmlishTurn_last {body next : XmlishBody} {stop : Nat}
    (turned : scanXmlishTurn text body cursor = .ok (next, stop)) :
    next.lastParameterEnd = some stop := by
  simp only [scanXmlishTurn] at turned
  split at turned
  · cases turned
  · split at turned
    · cases turned
    · split at turned
      · cases turned
      · split at turned
        · exact scanXmlishParameter_last turned
        · split at turned <;> cases turned

theorem scanXmlishBody_stop {turns : Nat} {body : XmlishBody} {stop : Nat} (order : start ≤ cursor)
    (last : ∀ stop, body.lastParameterEnd = some stop → Forward text start stop)
    (reported : (scanXmlishBody text turns body cursor).stop? = some stop) :
    Forward text start stop := by
  induction turns generalizing body cursor with
  | zero => cases reported
  | succ turns ih =>
    rw [scanXmlishBody] at reported
    cases turned : scanXmlishTurn text body cursor with
    | error scan =>
      rw [turned] at reported
      exact scanXmlishTurn_stop order last turned reported
    | ok next =>
      have bound := scanXmlishTurn_bound turned
      rw [turned] at reported
      apply ih (by omega) _ reported
      intro stop known
      rw [scanXmlishTurn_last turned] at known
      cases known
      exact ⟨by omega, bound.2.2⟩

theorem scanXmlishOpening_stop {scan : XmlishToolCallScan} (inside : start < text.length)
    (stopped : scanXmlishOpening text start lineBreakOffsets = .stopped scan) : scan.stop? = none :=
  (@scanXmlishOpening_grows text [] start lineBreakOffsets inside).proper scan stopped

theorem scanXmlishToolCall_stop {stop : Nat} (inside : start < text.length)
    (reported : (scanXmlishToolCall text start lineBreakOffsets).stop? = some stop) :
    Forward text start stop := by
  rw [scanXmlishToolCall] at reported
  cases opening : scanXmlishOpening text start lineBreakOffsets with
  | stopped scan =>
    rw [opening] at reported
    dsimp only at reported
    rw [scanXmlishOpening_stop inside opening] at reported
    cases reported
  | opened form name cursor =>
    rw [opening] at reported
    exact scanXmlishBody_stop (Nat.le_of_lt (scanXmlishOpening_le inside opening))
      (fun _ known => by cases known) reported

end Xmlish

section Json

variable {text : Text} {start cursor : Nat} {lineBreakOffsets : List Nat}
  {value value' : PlainTextJsonToolCallCandidate}

theorem scanHarmonyMessage_le (opened : scanHarmonyMessage text start value = .opened cursor value') :
    start ≤ cursor := by
  rw [scanHarmonyMessage] at opened
  split at opened
  · cases opened
    exact Nat.le_trans (Nat.le_add_right _ _) le_skipWhile
  · split at opened
    · cases opened
    · split at opened
      · cases opened
      · cases opened
        exact Nat.le_refl _

theorem scanHarmonyCode_le (opened : scanHarmonyCode text start value = .opened cursor value') : start ≤ cursor := by
  rw [scanHarmonyCode] at opened
  split at opened
  · have least := scanHarmonyMessage_le opened
    have skipped : start + (units "code").length ≤
        skipWhitespace text (start + (units "code").length) := le_skipWhile
    omega
  · split at opened <;> cases opened

theorem scanHarmonyRecipient_le (opened : scanHarmonyRecipient text start = .opened cursor value) :
    start ≤ cursor := by
  rw [scanHarmonyRecipient] at opened
  cases read : scanToolNameEnd text start with
  | none => rw [read] at opened; cases opened
  | some nameEnd =>
    rw [read] at opened
    dsimp only at opened
    have named : start ≤ nameEnd := by
      rw [scanToolNameEnd_eq read]
      exact le_skipWhile
    have skipped : nameEnd ≤ skipHorizontalWhitespace text nameEnd := le_skipWhile
    split at opened
    · cases opened
    · split at opened
      · cases opened
      · have least := scanHarmonyCode_le opened
        omega

theorem scanHarmonyChannel_le (opened : scanHarmonyChannel text start = .opened cursor value) : start ≤ cursor := by
  rw [scanHarmonyChannel] at opened
  split at opened
  · split at opened <;> cases opened
  · rename_i channel found
    dsimp only at opened
    have skipped : start + channel.length ≤ skipHorizontalWhitespace text (start + channel.length) :=
      le_skipWhile
    split at opened
    · cases opened
    · split at opened
      · cases opened
      · split at opened
        · have least := scanHarmonyRecipient_le opened
          omega
        · split at opened <;> cases opened

theorem scanHarmonyOpening_le (opened : scanHarmonyOpening text start = .opened cursor value) : start ≤ cursor := by
  rw [scanHarmonyOpening] at opened
  split at opened
  · have least := scanHarmonyChannel_le opened
    omega
  · split at opened
    · cases opened
    · split at opened
      · cases opened
      · exact scanHarmonyChannel_le opened

theorem scanBracketOpening_le (inside : start < text.length)
    (opened : scanBracketOpening text start lineBreakOffsets = .opened cursor value) :
    start ≤ cursor := by
  have closed : ∀ form nameStart, start < nameStart → nameStart ≤ text.length →
      scanBracketName text form nameStart lineBreakOffsets = .opened cursor value → start ≤ cursor := by
    intro form nameStart behind bound opened
    obtain ⟨first, read, goesOn, nonempty, bracket, bareLine, marked⟩ := scanBracketName_opened opened
    have within := (scanToolNameEnd_bound bound read)
    have stopped := (List.getElem?_eq_some_iff.mp bracket).1
    cases form with
    | namedBracket =>
      have order := structuralLineBreak_le stopped (bareLine rfl).2
      omega
    | toolBracket => have next := marked (by decide); omega
    | harmony => have next := marked (by decide); omega
  rw [scanBracketOpening] at opened
  split at opened
  · rename_i tool
    have bound := startsWithAt_bound tool (by decide)
    exact closed _ _ (by omega) bound opened
  · split at opened
    · cases opened
    · exact closed _ _ (by omega) inside opened

theorem scanJsonUnits_progress (rest : Text) (index : Nat) (state : PlainTextJsonToolCallState)
    (finished : (scanJsonUnits rest index state).finished = true) :
    index < (scanJsonUnits rest index state).stop := by
  cases rest with
  | nil => cases finished
  | cons char rest =>
    simp only [scanJsonUnits]
    split
    · exact Nat.lt_succ_self _
    · have bound := scanJsonUnits_bound rest (index + 1) (state.read char)
      omega

theorem scanClosing_stop {closings : List Text} {stop : Nat} (nonempty : ∀ closing ∈ closings, closing ≠ [])
    (found : scanClosing text start closings = .found stop) : Forward text start stop := by
  induction closings with
  | nil => cases found
  | cons closing others ih =>
    rw [scanClosing] at found
    split at found
    · rename_i there
      have present := nonempty closing (by simp)
      have bound := startsWithAt_bound there present
      have size := List.length_pos_iff.mpr present
      cases found
      exact ⟨by omega, bound⟩
    · split at found
      · cases found
      · exact ih (fun closing inside => nonempty closing (List.mem_cons_of_mem _ inside)) found

theorem closings_nonempty {name : Span} :
    ∀ closing ∈ [HARMONY_CALL_MARKER, END_TOOL_REQUEST, nameClosing text name], closing ≠ [] := by
  intro closing known
  simp only [List.mem_cons, List.not_mem_nil, or_false] at known
  rcases known with rfl | rfl | rfl
  · decide
  · decide
  · exact nameClosing_nonempty

theorem scanJsonClosing_stop {payload whole : Span} {state : PlainTextJsonToolCallState} {stop : Nat}
    (inside : payload.stop ≤ text.length) (forward : start < payload.stop)
    (complete : scanJsonClosing text value payload state = .complete value' whole stop) :
    Forward text start stop := by
  have skipped : payload.stop ≤ skipWhitespace text payload.stop := le_skipWhile
  rw [scanJsonClosing] at complete
  split at complete
  · split at complete
    · cases complete
    · split at complete
      · rename_i found
        have bound := scanClosing_stop
          (fun closing known => closings_nonempty closing (List.mem_cons_of_mem _ known)) found
        cases complete
        exact ⟨Nat.lt_trans (Nat.lt_of_lt_of_le forward skipped) bound.1, bound.2⟩
      · cases complete
      · cases complete
  · split at complete
    · cases complete
      exact ⟨forward, inside⟩
    · split at complete
      · rename_i found
        have bound := scanClosing_stop closings_nonempty found
        cases complete
        exact ⟨Nat.lt_trans (Nat.lt_of_lt_of_le forward skipped) bound.1, bound.2⟩
      · cases complete
      · cases complete
        exact ⟨forward, inside⟩

theorem scanJsonPayload_stop {payload : Span} {stop : Nat} (inside : cursor ≤ text.length) (order : start ≤ cursor)
    (complete : scanJsonPayload text cursor value = .complete value' payload stop) :
    Forward text start stop := by
  have within : skipWhitespace text cursor ≤ text.length := skipWhile_le inside
  have skipped : cursor ≤ skipWhitespace text cursor := le_skipWhile
  rw [scanJsonPayload] at complete
  split at complete
  · cases complete
  · split at complete
    · cases complete
    · dsimp only at complete
      split at complete
      · cases complete
      · rename_i unfinished
        have finished := eq_true_of_ne_false unfinished
        have progress := scanJsonUnits_progress _ _ _ finished
        have bound := (scanJsonObject_bound within).2
        apply scanJsonClosing_stop bound _ complete
        dsimp only
        unfold scanJsonObject
        omega

theorem scanPlainTextJsonToolCall_opened {payload : Span} {stop : Nat} (inside : start < text.length)
    (complete : scanPlainTextJsonToolCall text start lineBreakOffsets = .complete value payload stop) :
    ∃ cursor candidate, (text[start]? = some '['.toNat ∧
        scanBracketOpening text start lineBreakOffsets = .opened cursor candidate ∨
      scanHarmonyOpening text start = .opened cursor candidate) ∧
      start ≤ cursor ∧ cursor ≤ text.length ∧
      scanJsonPayload text cursor candidate = .complete value payload stop := by
  rw [scanPlainTextJsonToolCall] at complete
  split at complete
  · rename_i opens
    have grows := @scanBracketOpening_grows text [] lineBreakOffsets start inside
    cases opening : scanBracketOpening text start lineBreakOffsets with
    | stopped scan =>
      rw [opening] at complete grows
      exact absurd (congrArg _ complete) (grows.proper value payload stop)
    | opened cursor candidate =>
      rw [opening] at complete
      have bound := (grows.opened cursor candidate opening).2.2.1
      exact ⟨cursor, candidate, .inl ⟨opens, rfl⟩, scanBracketOpening_le inside opening, bound, complete⟩
  · have grows := @scanHarmonyOpening_grows text [] start (Nat.le_of_lt inside)
    cases opening : scanHarmonyOpening text start with
    | stopped scan =>
      rw [opening] at complete grows
      exact absurd (congrArg _ complete) (grows.proper value payload stop)
    | opened cursor candidate =>
      rw [opening] at complete
      have bound := (grows.opened cursor candidate opening).2.2.1
      exact ⟨cursor, candidate, .inr rfl, scanHarmonyOpening_le opening, bound, complete⟩

theorem scanPlainTextJsonToolCall_stop {payload : Span} {stop : Nat} (inside : start < text.length)
    (complete : scanPlainTextJsonToolCall text start lineBreakOffsets = .complete value payload stop) :
    Forward text start stop := by
  obtain ⟨cursor, candidate, _, order, bound, read⟩ :=
    scanPlainTextJsonToolCall_opened inside complete
  exact scanJsonPayload_stop bound order read

end Json

theorem scanXmlishToolCall_opened {text : Text} {start stop : Nat} {lineBreakOffsets : List Nat}
    (inside : start < text.length)
    (reported : (scanXmlishToolCall text start lineBreakOffsets).stop? = some stop) :
    ∃ form name cursor, scanXmlishOpening text start lineBreakOffsets = .opened form name cursor := by
  rw [scanXmlishToolCall] at reported
  cases opening : scanXmlishOpening text start lineBreakOffsets with
  | stopped scan =>
    rw [opening] at reported
    dsimp only at reported
    rw [scanXmlishOpening_stop inside opening] at reported
    cases reported
  | opened form name cursor => exact ⟨form, name, cursor, rfl⟩

theorem call_cases {text : Text} {start stop : Nat} {options : ScanOptions}
    (call : (scanPlainTextToolCall text start options).kind = .complete stop) :
    (scanBranches text start options).XmlishComplete stop ∨
      ∃ payload, (scanBranches text start options).JsonComplete payload stop ∧
        (options.exceeds text (some payload) || parseJsonArguments text payload) = true := by
  refine (@PlainTextToolCallScanBranches.judge_cases (scanBranches text start options) options text
    start (fun verdict => verdict.kind = .complete stop → _) ?_ ?_ ?_ ?_ ?_) call
  · intro _ _ _ tagged same
    cases same
    exact .inl tagged
  · intro payload _ _ called good same
    cases same
    exact .inr ⟨payload, called, good⟩
  · intro _ _ _ _ _ same
    cases same
  · intro _ _ same
    cases same
  · intro _ _ same
    exact absurd same PlainTextToolCallScanBranches.judgePrefix_not_complete

theorem call_without_matcher {text : Text} {start stop : Nat}
    {matcher : Option PlainTextToolCallNameMatcher}
    (call : (scanPlainTextToolCall text start { matcher }).kind = .complete stop) :
    (scanPlainTextToolCall text start {}).kind = .complete stop := by
  have inside : start < text.length := by
    apply Nat.lt_of_not_le
    intro ended
    rw [scanPlainTextToolCall_beyond ended] at call
    cases call
  cases call_cases call with
  | inl tagged =>
    obtain ⟨value, payload, whole, _⟩ := tagged
    have whole : scanXmlishToolCall text start [] = .complete value payload stop := whole
    simp only [scanPlainTextToolCall, scanBranches, whole, PlainTextToolCallScanBranches.judge]
    rfl
  | inr called =>
    obtain ⟨payload, ⟨value, whole, _⟩, good⟩ := called
    have whole : scanPlainTextJsonToolCall text start [] = .complete value payload stop := whole
    obtain ⟨at_, candidate, untagged⟩ := scanXmlishToolCall_of_json (Nat.le_of_lt inside) whole
    have good : (ScanOptions.exceeds {} text (some payload) || parseJsonArguments text payload) = true := good
    simp only [scanPlainTextToolCall, scanBranches, whole, untagged,
      PlainTextToolCallScanBranches.judge, PlainTextToolCallScanBranches.judgeJson, good]
    rfl

def PlainTextToolCallScanKind.cutEnd? : PlainTextToolCallScanKind → Option Nat
  | .complete stop => some stop
  | .unfinished completeEnd => completeEnd
  | .invalid _ => none

theorem scanPlainTextToolCall_forward {text : Text} {start stop : Nat} {options : ScanOptions}
    (cut : (scanPlainTextToolCall text start options).kind.cutEnd? = some stop) :
    Forward text start stop := by
  have inside : start < text.length := by
    apply Nat.lt_of_not_le
    intro ended
    rw [scanPlainTextToolCall_beyond ended] at cut
    cases cut
  have xmlishEnd : ∀ stop, (scanBranches text start options).xmlish.stop? = some stop →
      Forward text start stop := fun stop reported => scanXmlishToolCall_stop inside reported
  have jsonEnd : ∀ payload stop, (scanBranches text start options).JsonComplete payload stop →
      Forward text start stop := by
    intro payload stop called
    obtain ⟨value, whole, _⟩ := called
    exact scanPlainTextJsonToolCall_stop inside whole
  refine (@PlainTextToolCallScanBranches.judge_cases (scanBranches text start options) options text
    start (fun verdict => verdict.kind.cutEnd? = some stop → Forward text start stop)
    ?_ ?_ ?_ ?_ ?_) cut
  · intro _ tagEnd _ tagged reported
    obtain ⟨value, payload, whole, _⟩ := tagged
    cases reported
    exact xmlishEnd stop (by rw [whole]; rfl)
  · intro payload _ _ called _ reported
    cases reported
    exact jsonEnd payload stop called
  · intro _ _ _ _ _ reported
    cases reported
  · intro _ _ reported
    cases reported
  · intro _ _ reported
    rw [PlainTextToolCallScanBranches.judgePrefix] at reported
    split at reported
    · apply xmlishEnd
      have known : (scanBranches text start options).xmlish.completeEnd = some stop := reported
      cases scan : (scanBranches text start options).xmlish with
      | invalid at_ candidate => rw [scan] at known; cases known
      | complete value payload stop => rw [scan] at known; cases known
      | unfinished candidate completeEnd =>
        rw [scan] at known
        exact known
    · cases reported

end ToolCallRepair
