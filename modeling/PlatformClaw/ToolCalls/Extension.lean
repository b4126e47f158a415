import PlatformClaw.ToolCalls.XmlishExtension

/-! # A rejected call is rejected for good

The stream releases a text once the scan calls it invalid. No continuation turns
such a text into a call. One kind of it may look unfinished again for a while: an
object that does not parse, whose optional closing marker could still arrive.
-/

namespace ToolCallRepair

open Scanning

/-- The prefix test admits every beginning of a name that it or the exact test admits. -/
structure PlainTextToolCallNameMatcher.PrefixClosed (matcher : PlainTextToolCallNameMatcher) :
    Prop where
  exact : ∀ name part, matcher.hasExactName name = true → part <+: name → matcher.hasNamePrefix part = true
  shorter : ∀ name part, matcher.hasNamePrefix name = true → part <+: name → matcher.hasNamePrefix part = true

def ScanOptions.PrefixClosed (options : ScanOptions) : Prop :=
  ∀ matcher, options.matcher = some matcher → matcher.PrefixClosed

section Verdict

variable {branches : PlainTextToolCallScanBranches} {options : ScanOptions} {text : Text}
  {start : Nat}

namespace PlainTextToolCallScanBranches

/-- An accepted call in tags. -/
def XmlishComplete (branches : PlainTextToolCallScanBranches) (stop : Nat) : Prop :=
  ∃ value payload, branches.xmlish = .complete value payload stop ∧ branches.matchesXmlish = true

/-- An accepted call with a whole object, whether the object parses or not. -/
def JsonComplete (branches : PlainTextToolCallScanBranches) (payload : Span) (stop : Nat) : Prop :=
  ∃ value, branches.json = .complete value payload stop ∧ branches.matchesJson = true

theorem judgePrefix_invalid {at_ : Nat} (invalid : (branches.judgePrefix options text start).kind = .invalid at_) :
    branches.xmlPrefix = false ∧ branches.jsonPrefix = false := by
  unfold judgePrefix at invalid
  split at invalid
  · cases invalid
  · rename_i unbegun
    simpa using unbegun

theorem judgePrefix_not_complete {stop : Nat} : (branches.judgePrefix options text start).kind ≠ .complete stop := by
  unfold judgePrefix
  split <;> exact PlainTextToolCallScanKind.noConfusion

theorem judgeOverCap_cases (motive : PlainTextToolCallVerdict → Prop)
    (overCap : ∀ at_ payloadStart, motive (.invalid at_ true payloadStart))
    (undecided : motive (branches.judgePrefix options text start)) :
    motive (branches.judgeOverCap options text start) := by
  unfold judgeOverCap
  dsimp only
  cases branches.xmlish with
  | invalid at_ candidate =>
    dsimp only
    split
    · exact overCap _ _
    · split
      · split
        · exact overCap _ _
        · exact undecided
      · exact undecided
  | unfinished _ _ | complete _ _ _ =>
    dsimp only
    split
    · split
      · exact overCap _ _
      · exact undecided
    · exact undecided

theorem judgeJson_cases (motive : PlainTextToolCallVerdict → Prop)
    (called : ∀ payload stop overCap, branches.JsonComplete payload stop →
      (options.exceeds text (some payload) || parseJsonArguments text payload) = true →
      motive (.complete stop overCap payload))
    (unparsed : ∀ payload stop, branches.JsonComplete payload stop →
      (options.exceeds text (some payload) || parseJsonArguments text payload) = false →
      motive (.invalid stop false (some payload.start)))
    (overCap : ∀ at_ payloadStart, motive (.invalid at_ true payloadStart))
    (undecided : (∀ payload stop, ¬branches.JsonComplete payload stop) →
      motive (branches.judgePrefix options text start)) :
    motive (branches.judgeJson options text start) := by
  unfold judgeJson
  split
  · rename_i value payload stop whole
    split
    · rename_i accepted
      split
      · rename_i good
        exact called _ _ _ ⟨value, whole, accepted⟩ good
      · rename_i bad
        exact unparsed _ _ ⟨value, whole, accepted⟩ (eq_false_of_ne_true bad)
    · rename_i refused
      apply judgeOverCap_cases motive overCap
      apply undecided
      intro payload stop complete
      obtain ⟨_, _, accepted⟩ := complete
      exact refused accepted
  · rename_i notWhole
    apply judgeOverCap_cases motive overCap
    apply undecided
    intro payload stop complete
    obtain ⟨value, whole, _⟩ := complete
    exact notWhole value payload stop whole

theorem judge_cases (motive : PlainTextToolCallVerdict → Prop)
    (tagged : ∀ payload stop overCap, branches.XmlishComplete stop → motive (.complete stop overCap payload))
    (called : ∀ payload stop overCap, branches.JsonComplete payload stop →
      (options.exceeds text (some payload) || parseJsonArguments text payload) = true →
      motive (.complete stop overCap payload))
    (unparsed : ∀ payload stop, (∀ tagEnd, ¬branches.XmlishComplete tagEnd) → branches.JsonComplete payload stop →
      (options.exceeds text (some payload) || parseJsonArguments text payload) = false →
      motive (.invalid stop false (some payload.start)))
    (overCap : ∀ at_ payloadStart, motive (.invalid at_ true payloadStart))
    (undecided : (∀ stop, ¬branches.XmlishComplete stop) → (∀ payload stop, ¬branches.JsonComplete payload stop) →
      motive (branches.judgePrefix options text start)) :
    motive (branches.judge options text start) := by
  unfold judge
  split
  · rename_i value payload stop whole
    split
    · rename_i accepted
      exact tagged _ _ _ ⟨value, payload, whole, accepted⟩
    · rename_i refused
      have untagged : ∀ tagEnd, ¬branches.XmlishComplete tagEnd := by
        intro tagEnd complete
        obtain ⟨_, _, _, accepted⟩ := complete
        exact refused accepted
      exact judgeJson_cases motive called (fun payload stop => unparsed payload stop untagged)
        overCap (undecided untagged)
  · rename_i notWhole
    have untagged : ∀ tagEnd, ¬branches.XmlishComplete tagEnd := by
      intro stop complete
      obtain ⟨value, payload, whole, _⟩ := complete
      exact notWhole value payload stop whole
    exact judgeJson_cases motive called (fun payload stop => unparsed payload stop untagged)
      overCap (undecided untagged)

end PlainTextToolCallScanBranches

end Verdict

section Exclusive

variable {text : Text} {start : Nat} {lineBreakOffsets : List Nat}

/-- What both grammars require behind a bracketed name. -/
def ClosesBracket (text : Text) (bare : Prop) (name : Span) (lineBreakOffsets : List Nat) (cursor : Nat) : Prop :=
  name.stop ≠ text.length ∧ name.start ≠ name.stop ∧ text[name.stop]? = some ']'.toNat ∧
    (bare → skipHorizontalWhitespace text (name.stop + 1) ≠ text.length ∧
      consumeStructuralLineBreakAfterHorizontalWhitespace text (name.stop + 1) lineBreakOffsets = some cursor) ∧
    (¬bare → cursor = name.stop + 1)

theorem scanBracketName_opened {form : PlainTextJsonToolCallSyntax} {nameStart cursor : Nat}
    {value : PlainTextJsonToolCallCandidate}
    (opened : scanBracketName text form nameStart lineBreakOffsets = .opened cursor value) :
    value.name.start = nameStart ∧ scanToolNameEnd text nameStart = some value.name.stop ∧
      ClosesBracket text (form = .namedBracket) value.name lineBreakOffsets cursor := by
  unfold scanBracketName at opened
  cases read : scanToolNameEnd text nameStart with
  | none => rw [read] at opened; cases opened
  | some nameEnd =>
    rw [read] at opened
    dsimp only at opened
    split at opened
    · cases opened
    · rename_i goesOn
      split at opened
      · cases opened
      · rename_i named
        obtain ⟨nonempty, bracket⟩ := not_or.mp named
        have bracket := Decidable.not_not.mp bracket
        split at opened
        · rename_i bare
          rw [scanBracketLine] at opened
          split at opened
          · cases opened
          · rename_i lineGoesOn
            cases broken : consumeStructuralLineBreakAfterHorizontalWhitespace text (nameEnd + 1)
              lineBreakOffsets with
            | none => rw [broken] at opened; cases opened
            | some stop =>
              rw [broken] at opened
              cases opened
              exact ⟨rfl, rfl, goesOn, nonempty, bracket, fun _ => ⟨lineGoesOn, broken⟩,
                fun marked => absurd bare marked⟩
        · rename_i marked
          cases opened
          exact ⟨rfl, rfl, goesOn, nonempty, bracket, fun bare => absurd bare marked, fun _ => rfl⟩

theorem scanXmlishBracketClose_opened {form : XmlishSyntax} {name : Span} {cursor : Nat}
    (closes : ClosesBracket text (form = .namedBracket) name lineBreakOffsets cursor) :
    scanXmlishBracketClose text form name lineBreakOffsets = .opened form name cursor := by
  obtain ⟨goesOn, nonempty, bracket, bareLine, marked⟩ := closes
  have named : ¬(name.start = name.stop ∨ text[name.stop]? ≠ some ']'.toNat) := by
    rw [bracket]
    exact fun empty => empty.elim nonempty (fun other => other rfl)
  rw [scanXmlishBracketClose, if_neg goesOn, if_neg named]
  dsimp only
  split
  · rename_i bare
    obtain ⟨lineGoesOn, broken⟩ := bareLine bare
    have inside : name.stop + 1 ≠ text.length := by
      intro atEnd
      rw [atEnd] at lineGoesOn
      have bound := @skipWhile_le _ isHorizontalWhitespace text _ (Nat.le_refl text.length)
      have least := @le_skipWhile _ isHorizontalWhitespace text text.length
      exact lineGoesOn (Nat.le_antisymm bound least)
    rw [if_neg inside, broken]
  · rename_i tool
    rw [marked tool]

/-- A name the JSON grammar takes is short enough for the tag grammar to stop at. -/
theorem upTo_of_scanToolNameEnd {nameStart nameEnd : Nat} (read : scanToolNameEnd text nameStart = some nameEnd) :
    skipWhileUpTo 121 isPlainTextToolNameChar text nameStart = nameEnd ∧ nameEnd - nameStart ≤ 120 := by
  have same := scanToolNameEnd_eq read
  have short : nameEnd - nameStart ≤ 120 := by
    simp only [scanToolNameEnd] at read
    split at read
    · cases read
    · rename_i within
      rw [MAX_PLAIN_TEXT_TOOL_NAME_CHARS] at within
      omega
  rw [skipWhileUpTo_eq, ← same]
  omega

theorem tool_marker_name (marked : startsWithAt text (units "tool:") start = true) :
    skipWhile isPlainTextToolNameChar text start = start + 4 ∧
      slice text start (start + 4) = units "tool" ∧ text[start + 4]? = some ':'.toNat := by
  obtain ⟨rest, whole⟩ := startsWithAt_iff.mp marked
  refine ⟨?_, ?_, getElem?_of_startsWithAt marked (by decide)⟩
  · rw [skipWhile, ← whole, List.takeWhile_append, if_neg (by decide)]
    have spelled : (List.takeWhile isPlainTextToolNameChar (units "tool:")).length = 4 := by decide
    rw [spelled]
  · rw [slice, List.drop_take, ← whole, Nat.add_sub_cancel_left, List.take_append_of_le_length (by decide)]
    decide

theorem scanXmlishOpening_of_bracket {cursor : Nat} {value : PlainTextJsonToolCallCandidate}
    (opens : text[start]? = some '['.toNat)
    (opened : scanBracketOpening text start lineBreakOffsets = .opened cursor value) :
    ∃ form, scanXmlishOpening text start lineBreakOffsets = .opened form value.name cursor := by
  have bracket : ¬text[start]? = some '<'.toNat := by
    rw [opens]
    decide
  rw [scanXmlishOpening, if_neg bracket, if_pos opens, scanXmlishBracketOpening]
  rw [scanBracketOpening] at opened
  dsimp only at opened ⊢
  split at opened
  · rename_i marked
    obtain ⟨spelled, tool, colon⟩ := tool_marker_name marked
    have upTo : skipWhileUpTo 121 isPlainTextToolNameChar text (start + 1) = start + 1 + 4 := by
      rw [skipWhileUpTo_eq, spelled]
      omega
    have bound := (List.getElem?_eq_some_iff.mp colon).1
    obtain ⟨first, read, closes⟩ := scanBracketName_opened opened
    have size : (units "tool:").length = 5 := by decide
    rw [size] at first read
    obtain ⟨nameEnd, short⟩ := upTo_of_scanToolNameEnd read
    have span : (⟨start + 1 + 4 + 1, value.name.stop⟩ : Span) = value.name := by
      rw [show start + 1 + 4 + 1 = value.name.start by omega]
    rw [upTo, if_neg (by omega), if_neg (fun cut => by omega), tool, colon, if_pos ⟨rfl, rfl⟩,
      scanXmlishToolName, nameEnd, if_neg (by omega), span]
    exact ⟨.toolBracket, scanXmlishBracketClose_opened
      ⟨closes.1, closes.2.1, closes.2.2.1, fun bare => (by cases bare),
        fun _ => closes.2.2.2.2 (by decide)⟩⟩
  · split at opened
    · cases opened
    · obtain ⟨first, read, closes⟩ := scanBracketName_opened opened
      obtain ⟨nameEnd, short⟩ := upTo_of_scanToolNameEnd read
      have span : (⟨start + 1, value.name.stop⟩ : Span) = value.name := by rw [← first]
      rw [nameEnd, if_neg (by omega), if_neg (fun cut => closes.1 cut.1), closes.2.2.1,
        if_neg (fun colon => absurd colon.1 (by decide)), span]
      exact ⟨.namedBracket, scanXmlishBracketClose_opened
        ⟨closes.1, closes.2.1, closes.2.2.1, fun _ => closes.2.2.2.1 rfl,
          fun marked => absurd rfl marked⟩⟩

theorem asciiMarker_missing {marker : Text} {place unit : Nat} (there : text[place]? = some unit)
    (nonempty : marker ≠ []) (different : marker[0]? ≠ some (asciiLower unit)) :
    startsWithAsciiMarkerIgnoreCase text place marker = false ∧
      isAsciiMarkerPrefixIgnoreCase text place marker = false := by
  have lowered : (text.map asciiLower)[place + 0]? = some (asciiLower unit) := by
    rw [List.getElem?_map, Nat.add_zero, there]
    rfl
  constructor
  · apply Bool.eq_false_iff.mpr
    intro found
    have same := getElem?_of_startsWithAt found (List.length_pos_iff.mpr nonempty)
    exact different (same.symm.trans lowered)
  · apply Bool.eq_false_iff.mpr
    intro begun
    exact different (getElem?_of_isPrefixAt begun lowered)

theorem scanXmlishBody_brace {form : XmlishSyntax} {name : Span} {cursor turns : Nat}
    (brace : text[skipWhitespace text cursor]? = some '{'.toNat) :
    ∃ at_ candidate, scanXmlishBody text (turns + 1) { form, name, bodyStart := cursor } cursor =
      .invalid at_ candidate := by
  have stopped := (List.getElem?_eq_some_iff.mp brace).1
  have early : ¬skipWhitespace text cursor = text.length := Nat.ne_of_lt stopped
  have noClose := @asciiMarker_missing text FUNCTION_CLOSE _ _ brace (by decide) (by decide)
  have noParameter := @asciiMarker_missing text PARAMETER_OPEN _ _ brace (by decide) (by decide)
  have open_ : XmlishBody.completeEnd { form, name, bodyStart := cursor } = none := by
    cases form <;> rfl
  rw [scanXmlishBody, scanXmlishTurn, if_neg early, noClose.1, noClose.2, noParameter.1, noParameter.2, open_]
  exact ⟨_, _, rfl⟩

theorem scanJsonPayload_complete {cursor stop : Nat} {value whole : PlainTextJsonToolCallCandidate}
    {payload : Span} (complete : scanJsonPayload text cursor value = .complete whole payload stop) :
    text[skipWhitespace text cursor]? = some '{'.toNat := by
  rw [scanJsonPayload] at complete
  split at complete
  · cases complete
  · split at complete
    · cases complete
    · rename_i brace
      exact Decidable.not_not.mp brace

theorem scanHarmonyOpening_tag {cursor : Nat} {value : PlainTextJsonToolCallCandidate}
    (tag : text[start]? = some '<'.toNat)
    (opened : scanHarmonyOpening text start = .opened cursor value) :
    text[start + 1]? = some '|'.toNat := by
  rw [scanHarmonyOpening] at opened
  split at opened
  · rename_i marked
    exact getElem?_of_startsWithAt marked (by decide)
  · split at opened
    · cases opened
    · cases opened

theorem scanFunctionOpening_bar (bar : text[start + 1]? = some '|'.toNat) :
    scanFunctionOpening text start = .stopped (.invalid start none) := by
  have lowered : (text.map asciiLower)[start + 1]? = some (asciiLower '|'.toNat) := by
    rw [List.getElem?_map, bar]
    rfl
  have absent : startsWithAsciiMarkerIgnoreCase text start FUNCTION_OPEN = false := by
    apply Bool.eq_false_iff.mpr
    intro found
    have same := @getElem?_of_startsWithAt _ _ _ _ _ found 1 (by decide)
    exact absurd (same.symm.trans lowered) (by decide)
  have unbegun : isAsciiMarkerPrefixIgnoreCase text start FUNCTION_OPEN = false := by
    apply Bool.eq_false_iff.mpr
    intro begun
    exact absurd (getElem?_of_isPrefixAt begun lowered) (by decide)
  rw [scanFunctionOpening, absent, unbegun, if_pos (by simp)]

theorem scanXmlishToolCall_of_json {value : PlainTextJsonToolCallCandidate} {payload : Span}
    {stop : Nat} (inside : start ≤ text.length)
    (whole : scanPlainTextJsonToolCall text start lineBreakOffsets = .complete value payload stop) :
    ∃ at_ candidate, scanXmlishToolCall text start lineBreakOffsets = .invalid at_ candidate := by
  rw [scanPlainTextJsonToolCall] at whole
  split at whole
  · rename_i opens
    have before := (List.getElem?_eq_some_iff.mp opens).1
    have grows := @scanBracketOpening_grows text [] lineBreakOffsets start before
    cases opening : scanBracketOpening text start lineBreakOffsets with
    | stopped scan =>
      rw [opening] at whole grows
      exact absurd (congrArg _ whole) (grows.proper value payload stop)
    | opened cursor candidate =>
      rw [opening] at whole
      obtain ⟨form, tagged⟩ := scanXmlishOpening_of_bracket opens opening
      rw [scanXmlishToolCall, tagged]
      exact scanXmlishBody_brace (scanJsonPayload_complete whole)
  · rename_i noBracket
    have grows := @scanHarmonyOpening_grows text [] start inside
    cases opening : scanHarmonyOpening text start with
    | stopped scan =>
      rw [opening] at whole grows
      exact absurd (congrArg _ whole) (grows.proper value payload stop)
    | opened cursor candidate =>
      have untagged : scanXmlishOpening text start lineBreakOffsets = .stopped (.invalid start none) := by
        rw [scanXmlishOpening]
        split
        · rename_i tag
          exact scanFunctionOpening_bar (scanHarmonyOpening_tag tag opening)
        · rfl
      rw [scanXmlishToolCall, untagged]
      exact ⟨_, _, rfl⟩

end Exclusive

section Acceptance

variable {options : ScanOptions} {text more : Text}

theorem hasName_of_extends (closed : options.PrefixClosed)
    {before after : PlainTextToolCallScanCandidate} (extended : NameExtends text before after)
    (later : options.hasName (after.name.of (text ++ more)) after.nameComplete = true) :
    options.hasName (before.name.of text) before.nameComplete = true := by
  cases complete : before.nameComplete with
  | true =>
    obtain ⟨sameName, stillComplete, inside⟩ := extended.finished complete
    rw [stillComplete, sameName, Span.of, slice_append inside] at later
    exact later
  | false =>
    obtain ⟨atEnd, reaches⟩ := extended.growing complete
    have part : before.name.of text <+: after.name.of (text ++ more) := by
      rw [Span.of, Span.of, atEnd, extended.start, ← @slice_append _ text more _ _ (Nat.le_refl text.length)]
      exact slice_prefix reaches
    unfold ScanOptions.hasName at later ⊢
    cases known : options.matcher with
    | none => rfl
    | some matcher =>
      rw [known] at later
      dsimp only at later ⊢
      cases grown : after.nameComplete with
      | true =>
        rw [grown] at later
        exact (closed matcher known).exact _ _ later part
      | false =>
        rw [grown] at later
        exact (closed matcher known).shorter _ _ later part

theorem accepts_of_retained (closed : options.PrefixClosed)
    {before : PlainTextToolCallScanCandidate} {after : Option PlainTextToolCallScanCandidate}
    {beforeUnfinished afterUnfinished : Bool}
    (retained : NameRetained text (some before) after afterUnfinished)
    (later : options.accepts (text ++ more) after afterUnfinished = true) :
    options.accepts text (some before) beforeUnfinished = true := by
  cases retained before rfl with
  | inr dropped =>
    rw [dropped.1, dropped.2] at later
    cases later
  | inl kept =>
    obtain ⟨candidate, known, extended⟩ := kept
    rw [known] at later
    exact hasName_of_extends closed extended later

theorem exceeds_append {payload : Span} (inside : payload.stop ≤ text.length) :
    options.exceeds (text ++ more) (some payload) = options.exceeds text (some payload) := by
  unfold ScanOptions.exceeds utf8ByteLengthWithinLimit
  rw [Option.any_some, Option.any_some, slice_append inside]

theorem parseJsonArguments_append {payload : Span} (inside : payload.stop ≤ text.length) :
    parseJsonArguments (text ++ more) payload = parseJsonArguments text payload := by
  unfold parseJsonArguments Span.of
  rw [slice_append inside]

end Acceptance

section Rejection

variable {options : ScanOptions} {text more : Text} {start : Nat}

theorem scanPlainTextJsonToolCall_beyond (ended : text.length ≤ start) :
    scanPlainTextJsonToolCall text start options.lineBreakOffsets = .unfinished none := by
  have nothing : text[start]? = none := List.getElem?_eq_none ended
  have absent : startsWithAt text HARMONY_CHANNEL_MARKER start = false := by
    rw [startsWithAt, List.drop_eq_nil_of_le ended]
    decide
  have begun : isPrefixAt text HARMONY_CHANNEL_MARKER start = true := by
    rw [isPrefixAt, List.drop_eq_nil_of_le ended]
    decide
  rw [scanPlainTextJsonToolCall, nothing, if_neg (by decide), scanHarmonyOpening, absent, begun]
  rfl

theorem scanBranches_beyond (ended : text.length ≤ start) :
    scanBranches text start options = ⟨.unfinished none, true, false, .invalid start none⟩ := by
  have json := @scanPlainTextJsonToolCall_beyond options text start ended
  have nothing : text[start]? = none := List.getElem?_eq_none ended
  have xmlish : scanXmlishToolCall text start options.lineBreakOffsets = .invalid start none := by
    rw [scanXmlishToolCall, scanXmlishOpening, nothing]
    rfl
  rw [scanBranches, json, xmlish]
  rfl

theorem scanPlainTextToolCall_beyond (ended : text.length ≤ start) :
    (scanPlainTextToolCall text start options).kind = .unfinished none := by
  rw [scanPlainTextToolCall, scanBranches_beyond ended]
  rfl

theorem invalid_is_inside {at_ : Nat} (rejected : (scanPlainTextToolCall text start options).kind = .invalid at_) :
    start < text.length := by
  apply Nat.lt_of_not_le
  intro ended
  rw [scanPlainTextToolCall_beyond ended] at rejected
  cases rejected

/-- The tag grammar has nothing to offer here. -/
def XmlishRejected (branches : PlainTextToolCallScanBranches) : Prop :=
  (∃ at_ candidate, branches.xmlish = .invalid at_ candidate) ∨ branches.matchesXmlish = false

def JsonRejected (branches : PlainTextToolCallScanBranches) : Prop :=
  (∃ at_ candidate, branches.json = .invalid at_ candidate) ∨ branches.matchesJson = false

theorem xmlishRejected_of_silent {branches : PlainTextToolCallScanBranches}
    (incomplete : ∀ stop, ¬branches.XmlishComplete stop) (unbegun : branches.xmlPrefix = false) :
    XmlishRejected branches := by
  cases accepted : branches.matchesXmlish with
  | false => exact .inr accepted
  | true =>
    left
    cases scan : branches.xmlish with
    | invalid at_ candidate => exact ⟨at_, candidate, rfl⟩
    | complete value payload stop =>
      exact absurd ⟨value, payload, scan, accepted⟩ (incomplete stop)
    | unfinished candidate completeEnd =>
      rw [PlainTextToolCallScanBranches.xmlPrefix, scan, accepted] at unbegun
      cases unbegun

theorem jsonRejected_of_silent {branches : PlainTextToolCallScanBranches}
    (incomplete : ∀ payload stop, ¬branches.JsonComplete payload stop)
    (unbegun : branches.jsonPrefix = false) :
    JsonRejected branches := by
  cases accepted : branches.matchesJson with
  | false => exact .inr accepted
  | true =>
    left
    cases scan : branches.json with
    | invalid at_ candidate => exact ⟨at_, candidate, rfl⟩
    | complete value payload stop =>
      exact absurd ⟨value, scan, accepted⟩ (incomplete payload stop)
    | unfinished candidate =>
      rw [PlainTextToolCallScanBranches.jsonPrefix, scan, accepted] at unbegun
      cases unbegun

theorem XmlishRejected.silent {branches : PlainTextToolCallScanBranches} (rejected : XmlishRejected branches) :
    (∀ stop, ¬branches.XmlishComplete stop) ∧ branches.xmlPrefix = false := by
  constructor
  · intro stop complete
    obtain ⟨value, payload, scan, accepted⟩ := complete
    cases rejected with
    | inl malformed =>
      obtain ⟨at_, candidate, malformed⟩ := malformed
      rw [scan] at malformed
      cases malformed
    | inr refused => rw [accepted] at refused; cases refused
  · cases rejected with
    | inl malformed =>
      obtain ⟨at_, candidate, malformed⟩ := malformed
      rw [PlainTextToolCallScanBranches.xmlPrefix, malformed]
      exact Bool.and_false _
    | inr refused => rw [PlainTextToolCallScanBranches.xmlPrefix, refused, Bool.false_and]

theorem JsonRejected.silent {branches : PlainTextToolCallScanBranches} (rejected : JsonRejected branches) :
    (∀ payload stop, ¬branches.JsonComplete payload stop) ∧ branches.jsonPrefix = false := by
  constructor
  · intro payload stop complete
    obtain ⟨value, scan, accepted⟩ := complete
    cases rejected with
    | inl malformed =>
      obtain ⟨at_, candidate, malformed⟩ := malformed
      rw [scan] at malformed
      cases malformed
    | inr refused => rw [accepted] at refused; cases refused
  · cases rejected with
    | inl malformed =>
      obtain ⟨at_, candidate, malformed⟩ := malformed
      rw [PlainTextToolCallScanBranches.jsonPrefix, malformed]
      exact Bool.and_false _
    | inr refused => rw [PlainTextToolCallScanBranches.jsonPrefix, refused, Bool.false_and]

theorem accepts_append (closed : options.PrefixClosed)
    {before after : Option PlainTextToolCallScanCandidate} {beforeUnfinished afterUnfinished : Bool}
    (retained : NameRetained text before after afterUnfinished) (named : before ≠ none)
    (refused : options.accepts text before beforeUnfinished = false) :
    options.accepts (text ++ more) after afterUnfinished = false := by
  apply Bool.eq_false_iff.mpr
  intro later
  cases before with
  | none => exact named rfl
  | some candidate =>
    have accepted : options.accepts text (some candidate) beforeUnfinished = true :=
      accepts_of_retained closed retained later
    rw [refused] at accepted
    cases accepted

theorem jsonRejected_append (closed : options.PrefixClosed) (inside : start ≤ text.length)
    (rejected : JsonRejected (scanBranches text start options)) :
    JsonRejected (scanBranches (text ++ more) start options) := by
  have grows := @scanPlainTextJsonToolCall_grows text more start options.lineBreakOffsets inside
  have malformed : ∀ at_ candidate, (scanBranches text start options).json = .invalid at_ candidate →
      JsonRejected (scanBranches (text ++ more) start options) := by
    intro at_ candidate invalid
    exact .inl ⟨at_, candidate, (grows.invalid at_ candidate invalid).trans invalid⟩
  cases rejected with
  | inl invalid =>
    obtain ⟨at_, candidate, invalid⟩ := invalid
    exact malformed at_ candidate invalid
  | inr refused =>
    cases scan : (scanBranches text start options).json with
    | invalid at_ candidate => exact malformed at_ candidate scan
    | unfinished candidate =>
      right
      apply accepts_append closed grows.named _ refused
      intro unnamed
      have same : scanPlainTextJsonToolCall text start options.lineBreakOffsets = .unfinished candidate := scan
      simp only [scanBranches, same] at refused unnamed
      rw [unnamed] at refused
      cases refused
    | complete value payload stop =>
      right
      apply accepts_append closed grows.named _ refused
      have same : scanPlainTextJsonToolCall text start options.lineBreakOffsets = .complete value payload stop := scan
      rw [same]
      exact fun unnamed => by cases unnamed

theorem xmlishRejected_append (closed : options.PrefixClosed) (inside : start < text.length)
    (rejected : XmlishRejected (scanBranches text start options))
    (bareRefused : ∀ name, AwaitsLineBreak text start options.lineBreakOffsets name →
      (scanBranches text start options).matchesJson = false) :
    XmlishRejected (scanBranches (text ++ more) start options) := by
  have grows := @scanXmlishToolCall_grows text more start options.lineBreakOffsets inside
  have malformed : ∀ at_ candidate, (scanBranches text start options).xmlish = .invalid at_ candidate →
      XmlishRejected (scanBranches (text ++ more) start options) := by
    intro at_ candidate invalid
    cases grows.invalid at_ candidate invalid with
    | inl same => exact .inl ⟨at_, candidate, same.trans invalid⟩
    | inr open_ =>
      obtain ⟨name, waits, retained⟩ := open_
      have refused : options.accepts text (some ⟨name, true, none⟩) true = false := by
        have verdict := bareRefused name waits
        have same : scanPlainTextJsonToolCall text start options.lineBreakOffsets =
            .unfinished (some { form := .namedBracket, name, nameComplete := true }) := waits
        rw [scanBranches, same] at verdict
        exact verdict
      exact .inr (accepts_append closed retained (fun unnamed => by cases unnamed) refused)
  cases rejected with
  | inl invalid =>
    obtain ⟨at_, candidate, invalid⟩ := invalid
    exact malformed at_ candidate invalid
  | inr refused =>
    cases scan : (scanBranches text start options).xmlish with
    | invalid at_ candidate => exact malformed at_ candidate scan
    | unfinished candidate completeEnd =>
      right
      apply accepts_append closed grows.named _ refused
      intro unnamed
      have same : scanXmlishToolCall text start options.lineBreakOffsets = .unfinished candidate completeEnd := scan
      simp only [scanBranches, same] at refused unnamed
      rw [unnamed] at refused
      cases refused
    | complete value payload stop =>
      right
      apply accepts_append closed grows.named _ refused
      have same : scanXmlishToolCall text start options.lineBreakOffsets = .complete value payload stop := scan
      rw [same]
      exact fun unnamed => by cases unnamed

/-- Nothing but blanks follows an object that does not parse, in a form whose closing
marker may be left out. -/
def MalformedTail (text : Text) (scan : PlainTextToolCallScan) : Prop :=
  ∃ value payload, scan.json = .complete value payload payload.stop ∧ scan.matchesJson = true ∧
    value.form ≠ .namedBracket ∧ parseJsonArguments text payload = false ∧
    skipWhitespace text payload.stop = text.length

theorem silent_verdict {branches : PlainTextToolCallScanBranches} {longer : Text}
    (xmlish : XmlishRejected branches) (json : JsonRejected branches) :
    (∀ stop, (branches.judge options longer start).kind ≠ .complete stop) ∧
      ∀ completeEnd, (branches.judge options longer start).kind ≠ .unfinished completeEnd := by
  obtain ⟨untagged, unbegunTag⟩ := xmlish.silent
  obtain ⟨uncalled, unbegunCall⟩ := json.silent
  apply PlainTextToolCallScanBranches.judge_cases (fun verdict => (∀ stop, verdict.kind ≠ .complete stop) ∧
      ∀ completeEnd, verdict.kind ≠ .unfinished completeEnd)
  · exact fun _ stop _ tagged => absurd tagged (untagged stop)
  · exact fun payload stop _ called _ => absurd called (uncalled payload stop)
  · exact fun payload stop _ called _ => absurd called (uncalled payload stop)
  · exact fun _ _ => ⟨fun _ => PlainTextToolCallScanKind.noConfusion,
      fun _ => PlainTextToolCallScanKind.noConfusion⟩
  · intro _ _
    rw [PlainTextToolCallScanBranches.judgePrefix, unbegunTag, unbegunCall]
    exact ⟨fun _ => PlainTextToolCallScanKind.noConfusion,
      fun _ => PlainTextToolCallScanKind.noConfusion⟩

theorem unparsed_verdict (closed : options.PrefixClosed) (inside : start < text.length)
    {payload : Span} {stop : Nat}
    (called : (scanBranches text start options).JsonComplete payload stop)
    (unparsed : (options.exceeds text (some payload) || parseJsonArguments text payload) = false) :
    (∀ stop, (scanPlainTextToolCall (text ++ more) start options).kind ≠ .complete stop) ∧
      ∀ completeEnd, (scanPlainTextToolCall (text ++ more) start options).kind =
        .unfinished completeEnd → MalformedTail text (scanPlainTextToolCall text start options) := by
  obtain ⟨value, whole, accepted⟩ := called
  have tags := scanXmlishToolCall_of_json (Nat.le_of_lt inside) whole
  have notWaiting : ∀ name, ¬AwaitsLineBreak text start options.lineBreakOffsets name := by
    intro name waits
    exact absurd (waits.symm.trans whole) (fun same => by cases same)
  obtain ⟨untagged, unbegunTag⟩ := (@xmlishRejected_append options text more start closed inside
    (.inl tags) (fun name waits => absurd waits (notWaiting name))).silent
  have grows := @scanPlainTextJsonToolCall_grows text more start options.lineBreakOffsets (Nat.le_of_lt inside)
  obtain ⟨within, again⟩ := grows.complete value payload stop whole
  cases again with
  | inl again =>
    obtain ⟨stop', again⟩ := again
    have uncalled : ∀ other otherStop, (scanBranches (text ++ more) start options).JsonComplete other otherStop →
        (options.exceeds (text ++ more) (some other) || parseJsonArguments (text ++ more) other) = false := by
      intro other otherStop called
      obtain ⟨_, later, _⟩ := called
      cases (again.symm.trans later)
      rw [exceeds_append within, parseJsonArguments_append within]
      exact unparsed
    have unbegunCall : (scanBranches (text ++ more) start options).jsonPrefix = false := by
      have finished : (scanBranches (text ++ more) start options).json.isUnfinished = false :=
        congrArg PlainTextJsonToolCallScan.isUnfinished again
      rw [PlainTextToolCallScanBranches.jsonPrefix, finished, Bool.and_false]
    have silent : (∀ stop, (scanPlainTextToolCall (text ++ more) start options).kind ≠
        .complete stop) ∧ ∀ completeEnd,
        (scanPlainTextToolCall (text ++ more) start options).kind ≠ .unfinished completeEnd := by
      apply PlainTextToolCallScanBranches.judge_cases (fun verdict => (∀ stop, verdict.kind ≠ .complete stop) ∧
          ∀ completeEnd, verdict.kind ≠ .unfinished completeEnd)
      · exact fun _ stop _ tagged => absurd tagged (untagged stop)
      · intro other otherStop _ called good
        rw [uncalled other otherStop called] at good
        cases good
      · exact fun _ _ _ _ _ => ⟨fun _ => PlainTextToolCallScanKind.noConfusion,
          fun _ => PlainTextToolCallScanKind.noConfusion⟩
      · exact fun _ _ => ⟨fun _ => PlainTextToolCallScanKind.noConfusion,
          fun _ => PlainTextToolCallScanKind.noConfusion⟩
      · intro _ _
        rw [PlainTextToolCallScanBranches.judgePrefix, unbegunTag, unbegunCall]
        exact ⟨fun _ => PlainTextToolCallScanKind.noConfusion,
          fun _ => PlainTextToolCallScanKind.noConfusion⟩
    exact ⟨silent.1, fun completeEnd unfinished => absurd unfinished (silent.2 completeEnd)⟩
  | inr open_ =>
    obtain ⟨begun, form, atPayload, blank⟩ := open_
    constructor
    · apply PlainTextToolCallScanBranches.judge_cases (fun verdict => ∀ stop, verdict.kind ≠ .complete stop)
      · exact fun _ stop _ tagged => absurd tagged (untagged stop)
      · intro other _ _ called _
        obtain ⟨_, later, _⟩ := called
        rw [show scanPlainTextJsonToolCall (text ++ more) start options.lineBreakOffsets = _ from later] at begun
        cases begun
      · exact fun _ _ _ _ _ _ => PlainTextToolCallScanKind.noConfusion
      · exact fun _ _ _ => PlainTextToolCallScanKind.noConfusion
      · exact fun _ _ _ => PlainTextToolCallScanBranches.judgePrefix_not_complete
    · intro _ _
      subst atPayload
      exact ⟨value, payload, whole, accepted, form, (Bool.or_eq_false_iff.mp unparsed).2, blank⟩

/-- No continuation makes a call of a text the scan has rejected. It makes it look
unfinished again only behind a malformed object. -/
theorem rejection_is_final (closed : options.PrefixClosed) {at_ : Nat}
    (rejected : (scanPlainTextToolCall text start options).kind = .invalid at_)
    (underCap : (scanPlainTextToolCall text start options).overCap = false) :
    (∀ stop, (scanPlainTextToolCall (text ++ more) start options).kind ≠ .complete stop) ∧
      ∀ completeEnd, (scanPlainTextToolCall (text ++ more) start options).kind =
        .unfinished completeEnd → MalformedTail text (scanPlainTextToolCall text start options) := by
  have inside := invalid_is_inside rejected
  refine (@PlainTextToolCallScanBranches.judge_cases (scanBranches text start options) options text
    start (fun verdict => verdict.kind = .invalid at_ → verdict.overCap = false →
      (∀ stop, (scanPlainTextToolCall (text ++ more) start options).kind ≠ .complete stop) ∧
      ∀ completeEnd, (scanPlainTextToolCall (text ++ more) start options).kind =
        .unfinished completeEnd → MalformedTail text (scanPlainTextToolCall text start options))
    ?_ ?_ ?_ ?_ ?_) rejected underCap
  · intro _ _ _ _ complete
    cases complete
  · intro _ _ _ _ _ complete
    cases complete
  · intro payload _ _ called unparsed _ _
    exact unparsed_verdict closed inside called unparsed
  · intro _ _ _ overCap
    cases overCap
  · intro untagged uncalled invalid _
    obtain ⟨unbegunTag, unbegunCall⟩ :=
      PlainTextToolCallScanBranches.judgePrefix_invalid invalid
    have json := jsonRejected_of_silent uncalled unbegunCall
    have bareRefused : ∀ name, AwaitsLineBreak text start options.lineBreakOffsets name →
        (scanBranches text start options).matchesJson = false := by
      intro name waits
      cases json with
      | inr refused => exact refused
      | inl malformed =>
        obtain ⟨at_, candidate, malformed⟩ := malformed
        exact absurd (waits.symm.trans malformed) (fun same => by cases same)
    have xmlishLater := @xmlishRejected_append options text more start closed inside
      (xmlishRejected_of_silent untagged unbegunTag) bareRefused
    have jsonLater := @jsonRejected_append options text more start closed (Nat.le_of_lt inside) json
    have silent := @silent_verdict options start _ (text ++ more) xmlishLater jsonLater
    exact ⟨silent.1, fun completeEnd unfinished => absurd unfinished (silent.2 completeEnd)⟩

end Rejection

namespace MalformedObject

/-- A request that knows the tool `x` only. -/
def options : ScanOptions :=
  { matcher := some
      { hasExactName := (· == units "x"), hasNamePrefix := (·.isPrefixOf (units "x")) } }

def text : Text := units "[tool:x]{bad}"

theorem options_closed : options.PrefixClosed := by
  intro matcher known
  cases known
  constructor
  · intro name part exact shorter
    have exact : name = units "x" := eq_of_beq exact
    rw [exact] at shorter
    exact List.isPrefixOf_iff_prefix.mpr shorter
  · intro name part longer shorter
    exact List.isPrefixOf_iff_prefix.mpr (shorter.trans (List.isPrefixOf_iff_prefix.mp longer))

theorem text_rejected : (scanPlainTextToolCall text 0 options).kind = .invalid 13 := by
  decide

/-- Its closing marker may still begin, and never makes a call of it. -/
theorem text_stays_rejected :
    (∀ stop, (scanPlainTextToolCall (text ++ units "<") 0 options).kind ≠ .complete stop) ∧
      ∀ completeEnd, (scanPlainTextToolCall (text ++ units "<") 0 options).kind =
        .unfinished completeEnd → MalformedTail text (scanPlainTextToolCall text 0 options) :=
  rejection_is_final options_closed text_rejected (by decide)

theorem text_looks_unfinished_again :
    options.PrefixClosed ∧ (scanPlainTextToolCall text 0 options).kind = .invalid 13 ∧
      (scanPlainTextToolCall text 0 options).overCap = false ∧
      (scanPlainTextToolCall (text ++ units "<") 0 options).kind = .unfinished none :=
  ⟨options_closed, text_rejected, by decide, by decide⟩

end MalformedObject

end ToolCallRepair
