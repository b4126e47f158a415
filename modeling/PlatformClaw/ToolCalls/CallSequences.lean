import PlatformClaw.ToolCalls.Streaming

/-! # The ranges of calls

What `findCallSequences` returns are nonempty stretches of the text, each behind the one before. Every call it
follows ends behind its own start: a finished one by the grammar, a malformed one over the cap behind its payload,
and an unfinished one at the boundary it is cut at or with the text.
-/

namespace ToolCallRepair

open Scanning

def XmlishToolCallScan.invalidAt? : XmlishToolCallScan → Option Nat
  | .invalid at_ _ => some at_
  | _ => none

def PlainTextJsonToolCallScan.invalidAt? : PlainTextJsonToolCallScan → Option Nat
  | .invalid at_ _ => some at_
  | _ => none

/-- The payload of a read that began at `start`; a malformed call is given up behind it. -/
structure Lies (text : Text) (start : Nat) (payload : Span) (invalidAt : Option Nat) : Prop where
  behind : start ≤ payload.start
  reaches : ∀ at_, invalidAt = some at_ → payload.stop ≤ at_ ∧ at_ ≤ text.length

section Xmlish

variable {text : Text} {start cursor : Nat} {payload : Span} {lineBreakOffsets : List Nat}
  {scan : XmlishToolCallScan}

theorem XmlishBody.lies {body : XmlishBody} {payloadEnd : Nat} {invalidAt : Option Nat}
    (begun : start ≤ body.bodyStart)
    (reaches : ∀ at_, invalidAt = some at_ → payloadEnd ≤ at_ ∧ at_ ≤ text.length)
    (known : some ⟨body.bodyStart, payloadEnd⟩ = some payload) : Lies text start payload invalidAt := by
  cases known
  exact ⟨begun, reaches⟩

theorem scanXmlishParameter_lies {body : XmlishBody} {markerStart : Nat} (inside : markerStart ≤ text.length)
    (begun : start ≤ body.bodyStart) (ended : scanXmlishParameter text body markerStart = .error scan)
    (known : scan.value.bind (·.payload) = some payload) : Lies text start payload scan.invalidAt? := by
  have given : ∀ at_, some markerStart = some at_ → markerStart ≤ at_ ∧ at_ ≤ text.length := by
    intro at_ same
    cases same
    exact ⟨Nat.le_refl _, inside⟩
  have never : ∀ stop at_, none = some at_ → stop ≤ at_ ∧ at_ ≤ text.length := by
    intro stop at_ same
    cases same
  simp only [scanXmlishParameter] at ended
  split at ended
  · cases ended
    exact XmlishBody.lies begun given known
  · split at ended
    · cases ended
      exact XmlishBody.lies begun (never _) known
    · split at ended
      · cases ended
        exact XmlishBody.lies begun given known
      · split at ended
        · cases ended
          exact XmlishBody.lies begun (never _) known
        · cases ended

theorem scanXmlishTurn_lies {body : XmlishBody} (inside : cursor ≤ text.length) (begun : start ≤ body.bodyStart)
    (ended : scanXmlishTurn text body cursor = .error scan)
    (known : scan.value.bind (·.payload) = some payload) : Lies text start payload scan.invalidAt? := by
  have bound : skipWhitespace text cursor ≤ text.length := skipWhile_le inside
  have given : ∀ at_, some (skipWhitespace text cursor) = some at_ →
      skipWhitespace text cursor ≤ at_ ∧ at_ ≤ text.length := by
    intro at_ same
    cases same
    exact ⟨Nat.le_refl _, bound⟩
  have never : ∀ stop at_, none = some at_ → stop ≤ at_ ∧ at_ ≤ text.length := by
    intro stop at_ same
    cases same
  simp only [scanXmlishTurn] at ended
  split at ended
  · cases ended
    cases last : body.completeEnd with
    | none =>
      rw [last] at known
      exact XmlishBody.lies begun (never _) known
    | some end_ =>
      rw [last] at known
      exact XmlishBody.lies begun (never _) known
  · split at ended
    · cases ended
      by_cases empty : body.form ≠ .function ∧ body.parameters = []
      · rw [if_pos empty] at known ⊢
        exact XmlishBody.lies begun given known
      · rw [if_neg empty] at known ⊢
        exact XmlishBody.lies begun (never _) known
    · split at ended
      · cases ended
        exact XmlishBody.lies begun (never _) known
      · split at ended
        · exact scanXmlishParameter_lies bound begun ended known
        · split at ended
          · cases ended
            exact XmlishBody.lies begun (never _) known
          · cases ended
            cases last : body.completeEnd with
            | none =>
              rw [last] at known
              exact XmlishBody.lies begun given known
            | some end_ =>
              rw [last] at known
              exact XmlishBody.lies begun (never _) known

theorem scanXmlishTurn_bodyStart {body next : XmlishBody} {stop : Nat}
    (turned : scanXmlishTurn text body cursor = .ok (next, stop)) : next.bodyStart = body.bodyStart := by
  simp only [scanXmlishTurn, scanXmlishParameter] at turned
  repeat' split at turned
  all_goals cases turned
  rfl

theorem scanXmlishBody_lies {turns : Nat} {body : XmlishBody} (inside : cursor ≤ text.length)
    (begun : start ≤ body.bodyStart)
    (known : (scanXmlishBody text turns body cursor).value.bind (·.payload) = some payload) :
    Lies text start payload (scanXmlishBody text turns body cursor).invalidAt? := by
  induction turns generalizing body cursor with
  | zero =>
    refine XmlishBody.lies begun ?_ known
    intro at_ same
    cases same
    exact ⟨Nat.le_refl _, inside⟩
  | succ turns ih =>
    rw [scanXmlishBody] at known ⊢
    cases turned : scanXmlishTurn text body cursor with
    | error scan =>
      rw [turned] at known
      exact scanXmlishTurn_lies inside begun turned known
    | ok next =>
      rw [turned] at known
      rw [← scanXmlishTurn_bodyStart turned] at begun
      exact ih (scanXmlishTurn_bound turned).2.2 begun known

theorem scanXmlishBracketClose_payload {form : XmlishSyntax} {name : Span} :
    (scanXmlishBracketClose text form name lineBreakOffsets).value.bind (·.payload) = none := by
  obtain ⟨missing, -⟩ | ⟨_, named⟩ := @scanXmlishBracketClose_names text form name lineBreakOffsets
  · rw [missing]
    rfl
  · rw [named]
    rfl

theorem scanFunctionOpening_payload : (scanFunctionOpening text start).value.bind (·.payload) = none := by
  unfold scanFunctionOpening scanFunctionName
  dsimp only
  repeat' split
  all_goals rfl

theorem scanXmlishBracketOpening_payload :
    (scanXmlishBracketOpening text start lineBreakOffsets).value.bind (·.payload) = none := by
  unfold scanXmlishBracketOpening scanXmlishToolName
  dsimp only
  repeat' split
  all_goals first
    | rfl
    | exact scanXmlishBracketClose_payload

theorem scanXmlishOpening_payload :
    (scanXmlishOpening text start lineBreakOffsets).value.bind (·.payload) = none := by
  unfold scanXmlishOpening
  split
  · exact scanFunctionOpening_payload
  · split
    · exact scanXmlishBracketOpening_payload
    · rfl

theorem scanXmlishToolCall_lies (inside : start < text.length)
    (known : (scanXmlishToolCall text start lineBreakOffsets).value.bind (·.payload) = some payload) :
    Lies text start payload (scanXmlishToolCall text start lineBreakOffsets).invalidAt? := by
  have grows := @scanXmlishOpening_grows text [] start lineBreakOffsets inside
  rw [scanXmlishToolCall] at known ⊢
  cases opening : scanXmlishOpening text start lineBreakOffsets with
  | stopped scan =>
    have missing := @scanXmlishOpening_payload text start lineBreakOffsets
    rw [opening] at known missing
    cases missing.symm.trans known
  | opened form name cursor =>
    rw [opening] at known
    have bound := (grows.opened form name cursor opening).2.1
    exact scanXmlishBody_lies bound (Nat.le_of_lt (scanXmlishOpening_le inside opening)) known

end Xmlish

section Json

variable {text : Text} {start cursor : Nat} {payload : Span} {lineBreakOffsets : List Nat}
  {value : PlainTextJsonToolCallCandidate}

theorem scanJsonClosing_lies {span : Span} {state : PlainTextJsonToolCallState} (begun : start ≤ span.start)
    (inside : span.stop ≤ text.length)
    (known : (scanJsonClosing text value span state).value.bind (·.payload) = some payload) :
    Lies text start payload (scanJsonClosing text value span state).invalidAt? := by
  have bound : skipWhitespace text span.stop ≤ text.length := skipWhile_le inside
  have least : span.stop ≤ skipWhitespace text span.stop := le_skipWhile
  have given : ∀ at_, some (skipWhitespace text span.stop) = some at_ → span.stop ≤ at_ ∧ at_ ≤ text.length := by
    intro at_ same
    cases same
    exact ⟨least, bound⟩
  have never : ∀ at_, none = some at_ → span.stop ≤ at_ ∧ at_ ≤ text.length := by
    intro at_ same
    cases same
  unfold scanJsonClosing at known ⊢
  dsimp only at known ⊢
  split at known
  · rename_i bare
    rw [if_pos bare]
    split at known
    · rename_i ended
      rw [if_pos ended]
      cases known
      exact ⟨begun, never⟩
    · rename_i goesOn
      rw [if_neg goesOn]
      split at known
      all_goals cases known
      · exact ⟨begun, never⟩
      · exact ⟨begun, never⟩
      · exact ⟨begun, given⟩
  · rename_i marked
    rw [if_neg marked]
    split at known
    · rename_i ended
      rw [if_pos ended]
      cases known
      exact ⟨begun, never⟩
    · rename_i goesOn
      rw [if_neg goesOn]
      split at known
      all_goals
        cases known
        exact ⟨begun, never⟩

theorem scanJsonPayload_lies (inside : cursor ≤ text.length) (begun : start ≤ cursor) (unnamed : value.payload = none)
    (known : (scanJsonPayload text cursor value).value.bind (·.payload) = some payload) :
    Lies text start payload (scanJsonPayload text cursor value).invalidAt? := by
  have bound : skipWhitespace text cursor ≤ text.length := skipWhile_le inside
  have least : cursor ≤ skipWhitespace text cursor := le_skipWhile
  unfold scanJsonPayload at known ⊢
  dsimp only at known ⊢
  split at known
  · cases unnamed.symm.trans known
  · rename_i goesOn
    rw [if_neg goesOn]
    split at known
    · cases unnamed.symm.trans known
    · rename_i opens
      rw [if_neg opens]
      split at known
      · rename_i open_
        rw [if_pos open_]
        cases known
        exact ⟨Nat.le_trans begun least, fun _ same => by cases same⟩
      · rename_i closed
        rw [if_neg closed]
        exact scanJsonClosing_lies (Nat.le_trans begun least) (scanJsonObject_bound bound).2 known

theorem unfinishedName_payload {form : PlainTextJsonToolCallSyntax} {name : Span} :
    (unfinishedName form name).value.bind (·.payload) = none := by
  unfold unfinishedName
  split <;> rfl

theorem scanHarmonyCode_payload (unnamed : value.payload = none) :
    (scanHarmonyCode text cursor value).value.bind (·.payload) = none := by
  unfold scanHarmonyCode scanHarmonyMessage
  repeat' split
  all_goals first
    | rfl
    | exact unnamed

theorem scanHarmonyRecipient_payload : (scanHarmonyRecipient text cursor).value.bind (·.payload) = none := by
  unfold scanHarmonyRecipient
  split
  · rfl
  · dsimp only
    split
    · exact unfinishedName_payload
    · split
      · rfl
      · exact scanHarmonyCode_payload rfl

theorem scanHarmonyChannel_payload : (scanHarmonyChannel text cursor).value.bind (·.payload) = none := by
  unfold scanHarmonyChannel
  split
  · split <;> rfl
  · dsimp only
    split
    · rfl
    · split
      · rfl
      · split
        · exact scanHarmonyRecipient_payload
        · split <;> rfl

theorem scanHarmonyOpening_payload : (scanHarmonyOpening text start).value.bind (·.payload) = none := by
  unfold scanHarmonyOpening
  split
  · exact scanHarmonyChannel_payload
  · split
    · rfl
    · split
      · rfl
      · exact scanHarmonyChannel_payload

theorem scanBracketName_payload {form : PlainTextJsonToolCallSyntax} :
    (scanBracketName text form cursor lineBreakOffsets).value.bind (·.payload) = none := by
  unfold scanBracketName scanBracketLine
  split
  · rfl
  · dsimp only
    split
    · exact unfinishedName_payload
    · repeat' split
      all_goals rfl

theorem scanBracketOpening_payload :
    (scanBracketOpening text start lineBreakOffsets).value.bind (·.payload) = none := by
  unfold scanBracketOpening
  dsimp only
  split
  · exact scanBracketName_payload
  · split
    · rfl
    · exact scanBracketName_payload

theorem opening_lies {opening : PlainTextJsonToolCallOpeningScan} (unnamed : opening.value.bind (·.payload) = none)
    (opened : ∀ cursor value, opening = .opened cursor value → start ≤ cursor ∧ cursor ≤ text.length)
    (known : (opening.scan text).value.bind (·.payload) = some payload) :
    Lies text start payload (opening.scan text).invalidAt? := by
  cases opening with
  | stopped scan => cases unnamed.symm.trans known
  | opened cursor value =>
    obtain ⟨begun, inside⟩ := opened cursor value rfl
    exact scanJsonPayload_lies inside begun unnamed known

theorem scanPlainTextJsonToolCall_lies (inside : start < text.length)
    (known : (scanPlainTextJsonToolCall text start lineBreakOffsets).value.bind (·.payload) = some payload) :
    Lies text start payload (scanPlainTextJsonToolCall text start lineBreakOffsets).invalidAt? := by
  unfold scanPlainTextJsonToolCall at known ⊢
  split at known
  · rename_i opens
    rw [if_pos opens]
    apply opening_lies scanBracketOpening_payload _ known
    intro cursor value opened
    have grows := @scanBracketOpening_grows text [] lineBreakOffsets start inside
    exact ⟨scanBracketOpening_le inside opened, (grows.opened cursor value opened).2.2.1⟩
  · rename_i opens
    rw [if_neg opens]
    apply opening_lies scanHarmonyOpening_payload _ known
    intro cursor value opened
    have grows := @scanHarmonyOpening_grows text [] start (Nat.le_of_lt inside)
    exact ⟨scanHarmonyOpening_le opened, (grows.opened cursor value opened).2.2.1⟩

end Json

theorem utf8ByteLengthWithinLimit_empty {text : Text} {start stop maxBytes : Nat} (empty : stop ≤ start) :
    utf8ByteLengthWithinLimit text start stop maxBytes = some 0 := by
  have nothing : slice text start stop = [] := by
    rw [slice, List.drop_eq_nil_iff, List.length_take]
    omega
  rw [utf8ByteLengthWithinLimit, Nat.sub_eq_zero_of_le empty, if_neg (Nat.not_lt_zero _), nothing]
  exact if_pos (Nat.zero_le _)

theorem exceeds_nonempty {options : ScanOptions} {text : Text} {payload : Span}
    (exceeding : options.exceeds text (some payload) = true) : payload.start < payload.stop := by
  apply Nat.lt_of_not_le
  intro empty
  have some_ := @utf8ByteLengthWithinLimit_empty text _ _ options.maxPayloadBytes empty
  simp [ScanOptions.exceeds, some_] at exceeding

section Verdict

variable {text : Text} {start : Nat} {options : ScanOptions} {branches : PlainTextToolCallScanBranches}

/-- What a verdict says of a call: the payload begins behind the start of the read, and one over the cap that is
malformed is left behind its payload. -/
structure PlainTextToolCallVerdict.Ahead (text : Text) (start : Nat) (verdict : PlainTextToolCallVerdict) : Prop where
  payload : ∀ place, verdict.payloadStart = some place → start ≤ place
  malformed : ∀ at_, verdict.kind = .invalid at_ → verdict.overCap = true → Forward text start at_
  unfinished : ∀ completeEnd, verdict.kind = .unfinished completeEnd → verdict.next = text.length

/-- Both grammars place their payloads behind the start. -/
def PlainTextToolCallScanBranches.Lie (text : Text) (start : Nat) (branches : PlainTextToolCallScanBranches) : Prop :=
  (∀ payload, branches.xmlish.value.bind (·.payload) = some payload →
    Lies text start payload branches.xmlish.invalidAt?) ∧
  ∀ payload, branches.json.value.bind (·.payload) = some payload → Lies text start payload branches.json.invalidAt?

theorem xmlPayload_lies (lie : branches.Lie text start) {payload : Span}
    (known : branches.xmlPayload = some payload) : Lies text start payload branches.xmlish.invalidAt? := by
  unfold PlainTextToolCallScanBranches.xmlPayload at known
  split at known
  · exact lie.1 payload known
  · cases known

theorem jsonPayload_lies (lie : branches.Lie text start) {payload : Span}
    (known : branches.jsonPayload = some payload) : Lies text start payload branches.json.invalidAt? := by
  unfold PlainTextToolCallScanBranches.jsonPayload at known
  split at known
  · exact lie.2 payload known
  · cases known

theorem judgePrefix_ahead (lie : branches.Lie text start) :
    (branches.judgePrefix options text start).Ahead text start := by
  unfold PlainTextToolCallScanBranches.judgePrefix
  split
  · refine ⟨fun place known => ?_, fun _ same => (by cases same), fun _ _ => rfl⟩
    obtain ⟨payload, begun, rfl⟩ := Option.map_eq_some_iff.mp known
    split at begun
    · exact (xmlPayload_lies lie begun).behind
    · exact (jsonPayload_lies lie begun).behind
  · constructor
    · intro _ same
      cases same
    · intro _ _ same
      cases same
    · intro _ same
      cases same

theorem overCap_ahead {payload : Option Span} {at_ : Nat}
    (lies : ∀ span, payload = some span → Lies text start span (some at_))
    (exceeding : options.exceeds text payload = true) :
    (PlainTextToolCallVerdict.invalid at_ true (payload.map Span.start)).Ahead text start := by
  cases payload with
  | none => cases exceeding
  | some span =>
    have there := lies span rfl
    have nonempty := exceeds_nonempty exceeding
    have bound := there.reaches at_ rfl
    have behind := there.behind
    constructor
    · intro place same
      cases same
      exact behind
    · intro _ same _
      cases same
      exact ⟨by omega, bound.2⟩
    · intro _ same
      cases same

theorem judgeOverCap_ahead (lie : branches.Lie text start) :
    (branches.judgeOverCap options text start).Ahead text start := by
  unfold PlainTextToolCallScanBranches.judgeOverCap
  dsimp only
  have behindXml : (match branches.json with
    | .invalid at_ _ =>
      if options.exceeds text branches.jsonPayload then
        .invalid at_ true (branches.jsonPayload.map Span.start)
      else branches.judgePrefix options text start
    | _ => branches.judgePrefix options text start : PlainTextToolCallVerdict).Ahead text start := by
    split
    · rename_i at_ candidate malformed
      split
      · rename_i exceeding
        apply overCap_ahead _ exceeding
        intro span known
        have lies := jsonPayload_lies lie known
        rw [malformed] at lies
        exact lies
      · exact judgePrefix_ahead lie
    · exact judgePrefix_ahead lie
  split
  · rename_i at_ candidate malformed
    split
    · rename_i exceeding
      apply overCap_ahead _ exceeding
      intro span known
      have lies := xmlPayload_lies lie known
      rw [malformed] at lies
      exact lies
    · exact behindXml
  · exact behindXml

theorem complete_ahead {payload : Span} {stop : Nat} {overCap : Bool} (behind : start ≤ payload.start) :
    (PlainTextToolCallVerdict.complete stop overCap payload).Ahead text start := by
  constructor
  · intro _ same
    cases same
    exact behind
  · intro _ same
    cases same
  · intro _ same
    cases same

theorem judgeJson_ahead (lie : branches.Lie text start) :
    (branches.judgeJson options text start).Ahead text start := by
  unfold PlainTextToolCallScanBranches.judgeJson
  split
  · rename_i value payload stop whole
    have behind := (lie.2 payload (by rw [whole]; rfl)).behind
    split
    · split
      · exact complete_ahead behind
      · constructor
        · intro _ same
          cases same
          exact behind
        · intro _ _ same
          cases same
        · intro _ same
          cases same
    · exact judgeOverCap_ahead lie
  · exact judgeOverCap_ahead lie

theorem judge_ahead (lie : branches.Lie text start) : (branches.judge options text start).Ahead text start := by
  unfold PlainTextToolCallScanBranches.judge
  split
  · rename_i value payload stop whole
    split
    · exact complete_ahead (lie.1 payload (by rw [whole]; rfl)).behind
    · exact judgeJson_ahead lie
  · exact judgeJson_ahead lie

/-- A call is followed to a place behind its start, and its payload does not begin before it. -/
structure ScannedCall.Ahead (text : Text) (start : Nat) (call : ScannedCall) : Prop where
  forward : Forward text start call.stop
  payload : ∀ place, call.payloadStart = some place → start ≤ place

theorem scannedCall_beyond (ended : text.length ≤ start) :
    scannedCall (scanPlainTextToolCall text start options) = none := by
  rw [scanPlainTextToolCall, scanBranches_beyond ended]
  rfl

theorem scannedCall_ahead {call : ScannedCall}
    (known : scannedCall (scanPlainTextToolCall text start options) = some call) : call.Ahead text start := by
  have inside : start < text.length := by
    apply Nat.lt_of_not_le
    intro ended
    rw [scannedCall_beyond ended] at known
    cases known
  have lie : (scanBranches text start options).Lie text start :=
    ⟨fun _ known => scanXmlishToolCall_lies inside known, fun _ known => scanPlainTextJsonToolCall_lies inside known⟩
  have verdict := @judge_ahead text start options _ lie
  unfold scannedCall at known
  split at known
  · rename_i stop whole
    cases known
    exact ⟨scanPlainTextToolCall_forward (by rw [whole]; rfl), verdict.payload⟩
  · rename_i completeEnd unfinished
    split at known
    · cases known
      have next := verdict.unfinished completeEnd unfinished
      refine ⟨⟨?_, ?_⟩, verdict.payload⟩
      · exact next ▸ inside
      · exact Nat.le_of_eq next
    · cases known
  · rename_i at_ malformed
    split at known
    · rename_i overCap
      cases known
      rw [Bool.and_eq_true] at overCap
      exact ⟨verdict.malformed at_ malformed overCap.1, verdict.payload⟩
    · cases known

end Verdict

section Boundaries

variable {text : Text} {options : ScanOptions} {boundaries : List Nat}

theorem utf8OverCapOffset_lt (text : Text) (index bytes : Nat) {offset : Nat}
    (found : utf8OverCapOffset text index bytes = some offset) : index < offset := by
  fun_induction utf8OverCapOffset text index bytes with
  | case1 => cases found
  | case2 index bytes unit exceeds =>
    cases found
    exact Nat.lt_succ_self _
  | case3 => cases found
  | case4 =>
    cases found
    omega
  | case5 index bytes high low rest pair within ih =>
    have later := ih found
    omega
  | case6 =>
    cases found
    exact Nat.lt_succ_self _
  | case7 index bytes high low rest single within ih =>
    have later := ih found
    omega

theorem le_of_mem_dropWhile (sorted : boundaries.Pairwise (· ≤ ·)) {least boundary : Nat}
    (remains : boundary ∈ boundaries.dropWhile fun boundary => decide (boundary < least)) : least ≤ boundary := by
  induction boundaries with
  | nil => cases remains
  | cons first rest ih =>
    obtain ⟨before, later⟩ := List.pairwise_cons.mp sorted
    rw [List.dropWhile_cons] at remains
    split at remains
    · exact ih later remains
    · rename_i reached
      rw [decide_eq_true_eq, Nat.not_lt] at reached
      obtain rfl | inRest := List.mem_cons.mp remains
      · exact reached
      · exact Nat.le_trans reached (before boundary inRest)

theorem dropWhile_all (boundaries : List Nat) : (boundaries.dropWhile fun _ => true) = [] := by
  induction boundaries with
  | nil => rfl
  | cons _ _ ih => exact ih

theorem nextCallBoundary_spec : (nextCallBoundary text options boundaries).2 <:+ boundaries ∧
      ∀ boundary, (nextCallBoundary text options boundaries).1 = some boundary →
        boundary ∈ boundaries ∧ boundary < text.length := by
  induction boundaries with
  | nil => exact ⟨List.suffix_refl _, fun _ found => by cases found⟩
  | cons offset rest ih =>
    rw [nextCallBoundary]
    split
    · rename_i begins
      refine ⟨List.suffix_cons _ _, fun boundary found => ?_⟩
      cases found
      refine ⟨List.mem_cons_self, Nat.lt_of_not_le fun ended => ?_⟩
      have skipped : offset ≤ skipLineIndentation text offset := le_skipWhile
      rw [scannedCall_beyond (Nat.le_trans ended skipped)] at begins
      cases begins
    · refine ⟨ih.1.trans (List.suffix_cons _ _), fun boundary found => ?_⟩
      obtain ⟨inRest, inside⟩ := ih.2 boundary found
      exact ⟨List.mem_cons_of_mem _ inRest, inside⟩

theorem endAtBoundary_suffix {call : ScannedCall} : (endAtBoundary text options boundaries call).2 <:+ boundaries := by
  unfold endAtBoundary
  split
  · have searched := (@nextCallBoundary_spec text options (boundaries.dropWhile fun boundary =>
      (call.payloadStart.bind (findUtf8OverCapOffset text)).all (boundary < ·))).1
    have kept := searched.trans (List.dropWhile_suffix _)
    dsimp only
    split <;> exact kept
  · exact List.suffix_refl _

theorem endAtBoundary_ahead {start : Nat} {call : ScannedCall} (sorted : boundaries.Pairwise (· ≤ ·))
    (ahead : call.Ahead text start) : (endAtBoundary text options boundaries call).1.Ahead text start := by
  unfold endAtBoundary
  split
  · dsimp only
    split
    · rename_i boundary found
      obtain ⟨isLeft, inside⟩ := nextCallBoundary_spec.2 boundary found
      cases offset : call.payloadStart.bind (findUtf8OverCapOffset text) with
      | none =>
        rw [offset] at isLeft
        cases (dropWhile_all boundaries ▸ isLeft : boundary ∈ ([] : List Nat))
      | some least =>
        rw [offset] at isLeft
        have reached : least ≤ boundary := le_of_mem_dropWhile sorted isLeft
        obtain ⟨place, begun, counted⟩ := Option.bind_eq_some_iff.mp offset
        have behind := utf8OverCapOffset_lt _ _ _ counted
        have least_ := ahead.payload place begun
        exact ⟨⟨by dsimp only; omega, Nat.le_of_lt inside⟩, ahead.payload⟩
    · exact ahead
  · exact ahead

end Boundaries

section Loops

variable {text : Text} {options : ScanOptions} {protectedRanges : List Span} {boundaries : List Nat}

theorem consumeRemovedLineEnd_bound {stop : Nat} (inside : stop ≤ text.length) :
    stop ≤ consumeRemovedLineEnd text stop ∧ consumeRemovedLineEnd text stop ≤ text.length :=
  afterBlock_bound inside

theorem followCalls_forward {turns callStart : Nat} {call : ScannedCall} {hasOverCap : Bool}
    (sorted : boundaries.Pairwise (· ≤ ·)) (inside : callStart < text.length)
    (enough : text.length ≤ callStart + turns) (ahead : call.Ahead text callStart) :
    Forward text callStart (followCalls text options protectedRanges turns boundaries callStart call hasOverCap).stop ∧
      (followCalls text options protectedRanges turns boundaries callStart call hasOverCap).boundaries <:+
        boundaries := by
  induction turns generalizing callStart call hasOverCap boundaries with
  | zero => omega
  | succ turns ih =>
    have bounded := @endAtBoundary_ahead text options boundaries callStart call sorted ahead
    have kept := @endAtBoundary_suffix text options boundaries call
    obtain ⟨forward, within⟩ := bounded.forward
    have line := consumeRemovedLineEnd_bound within
    have next : (endAtBoundary text options boundaries call).1.stop ≤
        skipWhitespace text (endAtBoundary text options boundaries call).1.stop := le_skipWhile
    rw [followCalls]
    dsimp only
    split
    · exact ⟨⟨by dsimp only; omega, line.2⟩, kept⟩
    · split
      · exact ⟨⟨by dsimp only; omega, line.2⟩, kept⟩
      · rename_i goesOn
        rw [Bool.or_eq_true, decide_eq_true_eq, not_or] at goesOn
        split
        · rename_i found followed
          obtain ⟨⟨further, reached⟩, suffix⟩ := ih (sorted.sublist kept.sublist) (by omega) (by omega)
            (scannedCall_ahead followed)
          exact ⟨⟨by omega, reached⟩, suffix.trans kept⟩
        · split
          · exact ⟨⟨inside, Nat.le_refl _⟩, kept⟩
          · exact ⟨⟨by dsimp only; omega, line.2⟩, kept⟩

theorem followCalls_turns {turns turns' callStart : Nat} {call : ScannedCall} {hasOverCap : Bool}
    (sorted : boundaries.Pairwise (· ≤ ·)) (inside : callStart < text.length)
    (enough : text.length ≤ callStart + turns) (enough' : text.length ≤ callStart + turns')
    (ahead : call.Ahead text callStart) :
    followCalls text options protectedRanges turns boundaries callStart call hasOverCap =
      followCalls text options protectedRanges turns' boundaries callStart call hasOverCap := by
  induction turns generalizing turns' callStart call hasOverCap boundaries with
  | zero => omega
  | succ turns ih =>
    cases turns' with
    | zero => omega
    | succ turns' =>
      have bounded := @endAtBoundary_ahead text options boundaries callStart call sorted ahead
      have kept := @endAtBoundary_suffix text options boundaries call
      have next : (endAtBoundary text options boundaries call).1.stop ≤
          skipWhitespace text (endAtBoundary text options boundaries call).1.stop := le_skipWhile
      have forward := bounded.forward.1
      rw [followCalls, followCalls]
      dsimp only
      split
      · rfl
      · split
        · rfl
        · rename_i goesOn
          rw [Bool.or_eq_true, decide_eq_true_eq, not_or] at goesOn
          split
          · rename_i found followed
            exact ih (sorted.sublist kept.sublist) (by omega) (by omega) (by omega) (scannedCall_ahead followed)
          · rfl

theorem sequenceAt_beyond {callStart : Nat} (ended : text.length ≤ callStart) :
    sequenceAt text options protectedRanges boundaries callStart = none := by
  have unnamed : isNamedPrefix (scanPlainTextToolCall text callStart options) = false := by
    rw [scanPlainTextToolCall, scanBranches_beyond ended]
    rfl
  rw [sequenceAt, scannedCall_beyond ended]
  dsimp only
  rw [unnamed]
  rfl

theorem sequenceAt_forward {callStart : Nat} {found : CallSequenceEnd} (sorted : boundaries.Pairwise (· ≤ ·))
    (known : sequenceAt text options protectedRanges boundaries callStart = some found) :
    Forward text callStart found.stop ∧ found.boundaries <:+ boundaries := by
  have inside : callStart < text.length := by
    apply Nat.lt_of_not_le
    intro ended
    rw [sequenceAt_beyond ended] at known
    cases known
  unfold sequenceAt at known
  dsimp only at known
  split at known
  · rename_i call followed
    rw [if_pos inside] at known
    cases known
    exact followCalls_forward sorted inside (by omega) (scannedCall_ahead followed)
  · split at known
    · cases known
      exact ⟨⟨inside, Nat.le_refl _⟩, List.suffix_refl _⟩
    · cases known

def ScannedCallSequence.range (sequence : ScannedCallSequence) : Span :=
  ⟨sequence.start, sequence.stop⟩

theorem callSequencesFrom_inOrder {lineStarts : List Nat} {turns index : Nat} (sorted : boundaries.Pairwise (· ≤ ·)) :
    InOrder text index
      ((callSequencesFrom text options protectedRanges lineStarts turns boundaries index).map (·.range)) := by
  induction turns generalizing boundaries index with
  | zero => trivial
  | succ turns ih =>
    rw [callSequencesFrom]
    dsimp only
    split
    · trivial
    · split
      · exact .earlier (Nat.le_succ index) (ih sorted)
      · split
        · exact .earlier (Nat.le_succ index) (ih sorted)
        · split
          · rename_i found known
            obtain ⟨⟨behind, reached⟩, suffix⟩ := sequenceAt_forward sorted known
            have skipped : index ≤ skipLineIndentation text index := le_skipWhile
            have later := @ih found.boundaries (max found.stop (index + 1)) (sorted.sublist suffix.sublist)
            exact ⟨Nat.le_refl _, Nat.lt_of_le_of_lt skipped behind, reached, .earlier (Nat.le_max_left _ _) later⟩
          · exact .earlier (Nat.le_trans (Nat.le_succ index) (Nat.le_max_left _ _)) (ih sorted)

theorem callSequencesFrom_turns {lineStarts : List Nat} {turns turns' index : Nat}
    (enough : text.length ≤ index + turns) (enough' : text.length ≤ index + turns') :
    callSequencesFrom text options protectedRanges lineStarts turns boundaries index =
      callSequencesFrom text options protectedRanges lineStarts turns' boundaries index := by
  induction turns generalizing turns' boundaries index with
  | zero =>
    cases turns' with
    | zero => rfl
    | succ turns' =>
      rw [callSequencesFrom, callSequencesFrom]
      exact (if_pos enough).symm
  | succ turns ih =>
    cases turns' with
    | zero =>
      rw [callSequencesFrom, callSequencesFrom]
      exact if_pos enough'
    | succ turns' =>
      rw [callSequencesFrom, callSequencesFrom]
      dsimp only
      split
      · rfl
      · split
        · exact ih (by omega) (by omega)
        · split
          · exact ih (by omega) (by omega)
          · split
            · congr 1
              exact ih (by omega) (by omega)
            · exact ih (by omega) (by omega)

end Loops

end ToolCallRepair
