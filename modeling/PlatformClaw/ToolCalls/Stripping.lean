import PlatformClaw.ToolCalls.Progress

/-! # Removing calls from a text

`stripPlainTextToolCallBlocks` takes the calls that begin a line out of a text that
is shown to people. It goes over the text once and decides on what was written, so
what it leaves is compared here with the calls the text itself shows.
-/

namespace ToolCallRepair

open Scanning

def isOffsetInProtectedRanges (offset : Nat) (ranges : List Span) : Bool :=
  ranges.any fun range => range.start ≤ offset && offset < range.stop

def isLineStart (text : Text) (index : Nat) : Bool :=
  index == 0 || text[index - 1]?.any isLineTerminator

def holdsBracketedName (text : Text) (start : Nat) : Bool :=
  let stop := skipWhile isPlainTextToolNameChar text start
  start < stop && text[stop]? == some ']'.toNat

def holdsBracketOpening (text : Text) (index : Nat) : Bool :=
  text[index]? == some '['.toNat && (holdsBracketedName text (index + 1) ||
      (startsWithAt text (units "tool:") (index + 1) &&
        holdsBracketedName text (index + 1 + (units "tool:").length)))

def holdsHarmonyChannel (text : Text) (start : Nat) : Bool :=
  HARMONY_CHANNELS.any fun channel =>
    startsWithAt text channel start &&
      let channelEnd := start + channel.length
      let recipient := skipHorizontalWhitespace text channelEnd
      channelEnd < recipient && startsWithAt text (units "to=") recipient

/-- The pattern of a Harmony opening at the start of a line. -/
def holdsHarmonyOpening (text : Text) (index : Nat) : Bool :=
  let start := skipLineIndentation text index
  isLineStart text index && (holdsHarmonyChannel text start || (startsWithAt text HARMONY_CHANNEL_MARKER start &&
        holdsHarmonyChannel text (start + HARMONY_CHANNEL_MARKER.length)))

/-- The pattern of a function tag at the start of a line. -/
def holdsFunctionOpening (text : Text) (index : Nat) : Bool :=
  isLineStart text index && startsWithAsciiMarkerIgnoreCase text (skipLineIndentation text index) FUNCTION_OPEN

/-- The three patterns without which a text comes back as it is. -/
def mayHoldToolCall (text : Text) : Bool :=
  (List.range (text.length + 1)).any fun index =>
    holdsBracketOpening text index || holdsHarmonyOpening text index || holdsFunctionOpening text index

/-- Calls that follow on the same line, or right behind one another, go as one block.
Every turn moves `blockEnd` on, so the length of the text bounds the turns. -/
def extendBlock (text : Text) (protectedRanges : List Span) : Nat → Nat → Nat
  | 0, blockEnd => blockEnd
  | turns + 1, blockEnd =>
    let adjacentStart := skipLineIndentation text blockEnd
    if isOffsetInProtectedRanges adjacentStart protectedRanges then blockEnd
    else
      match (scanPlainTextToolCall text adjacentStart {}).kind.cutEnd? with
      | none => blockEnd
      | some adjacentEnd =>
        if adjacentEnd ≤ blockEnd then blockEnd
        else extendBlock text protectedRanges turns adjacentEnd

/-- Where the text goes on behind a block: after its line, if nothing else is on it. -/
def afterBlock (text : Text) (blockEnd : Nat) : Nat :=
  let lineBreakStart := skipLineIndentation text blockEnd
  if lineBreakStart = text.length then lineBreakStart
  else (consumeLineBreak text lineBreakStart).getD blockEnd

/-- What the loop of `stripPlainTextToolCallBlocks` does at one place. -/
inductive StripStep where
  | finish
  | advance (index : Nat)
  | remove (next : Nat)
  deriving Repr, DecidableEq

def stripStep (text : Text) (protectedRanges : List Span) (index : Nat) : StripStep :=
  if text.length ≤ index then .finish
  else if !isLineStart text index then .advance (index + 1)
  else
    let blockStart := skipLineIndentation text index
    if isOffsetInProtectedRanges blockStart protectedRanges then .advance (index + 1)
    else
      let scan := scanPlainTextToolCall text blockStart {}
      match scan.kind with
      | .unfinished none => .finish
      | .invalid _ => .advance (max (index + 1) scan.next)
      | .complete stop | .unfinished (some stop) =>
        .remove (afterBlock text (extendBlock text protectedRanges text.length stop))

/-- The loop itself; every turn moves `index` on. -/
def stripBlocks (text : Text) (protectedRanges : List Span) : Nat → Text → Nat → Nat → Text
  | 0, result, cursor, _ => result ++ text.drop cursor
  | turns + 1, result, cursor, index =>
    match stripStep text protectedRanges index with
    | .finish => result ++ text.drop cursor
    | .advance index => stripBlocks text protectedRanges turns result cursor index
    | .remove next =>
      stripBlocks text protectedRanges turns (result ++ slice text cursor index) next next

def stripPlainTextToolCallBlocks (text : Text) (protectedRanges : List Span) : Text :=
  if mayHoldToolCall text then stripBlocks text protectedRanges (text.length + 1) [] 0 0 else text

/-- The text from `cursor` on without the given spans. -/
def withoutSpans (text : Text) : Nat → List Span → Text
  | cursor, [] => text.drop cursor
  | cursor, span :: rest => slice text cursor span.start ++ withoutSpans text span.stop rest

/-- Nonempty spans of the text, one behind the other. -/
def InOrder (text : Text) : Nat → List Span → Prop
  | _, [] => True
  | from_, span :: rest =>
    from_ ≤ span.start ∧ span.start < span.stop ∧ span.stop ≤ text.length ∧ InOrder text span.stop rest

def removedBlocks (text : Text) (protectedRanges : List Span) : Nat → Nat → List Span
  | 0, _ => []
  | turns + 1, index =>
    match stripStep text protectedRanges index with
    | .finish => []
    | .advance next => removedBlocks text protectedRanges turns next
    | .remove next => ⟨index, next⟩ :: removedBlocks text protectedRanges turns next

section Loop

variable {text : Text} {protectedRanges : List Span} {index : Nat}

theorem stripBlocks_eq (turns : Nat) (result : Text) (cursor index : Nat) :
    stripBlocks text protectedRanges turns result cursor index =
      result ++ withoutSpans text cursor (removedBlocks text protectedRanges turns index) := by
  induction turns generalizing result cursor index with
  | zero => rfl
  | succ turns ih =>
    rw [stripBlocks, removedBlocks]
    cases stripStep text protectedRanges index with
    | finish => rfl
    | advance next => exact ih result cursor next
    | remove next =>
      dsimp only
      rw [ih, withoutSpans, List.append_assoc]

theorem extendBlock_bound (turns blockEnd : Nat) (inside : blockEnd ≤ text.length) :
    blockEnd ≤ extendBlock text protectedRanges turns blockEnd ∧
      extendBlock text protectedRanges turns blockEnd ≤ text.length := by
  induction turns generalizing blockEnd with
  | zero => exact ⟨Nat.le_refl _, inside⟩
  | succ turns ih =>
    rw [extendBlock]
    split
    · exact ⟨Nat.le_refl _, inside⟩
    · split
      · exact ⟨Nat.le_refl _, inside⟩
      · rename_i adjacentEnd adjacent
        have forward := scanPlainTextToolCall_forward adjacent
        split
        · exact ⟨Nat.le_refl _, inside⟩
        · have further := ih adjacentEnd forward.2
          omega

theorem afterBlock_bound {blockEnd : Nat} (inside : blockEnd ≤ text.length) :
    blockEnd ≤ afterBlock text blockEnd ∧ afterBlock text blockEnd ≤ text.length := by
  have least : blockEnd ≤ skipLineIndentation text blockEnd := le_skipWhile
  have within : skipLineIndentation text blockEnd ≤ text.length := skipWhile_le inside
  rw [afterBlock]
  split
  · exact ⟨least, within⟩
  · cases broken : consumeLineBreak text (skipLineIndentation text blockEnd) with
    | none => exact ⟨Nat.le_refl _, inside⟩
    | some next =>
      have bound := consumeLineBreak_bound broken
      exact ⟨by dsimp only [Option.getD]; omega, bound.2⟩

/-- All that one turn of the loop can do, and where. -/
theorem stripStep_cases (motive : StripStep → Prop) (ended : text.length ≤ index → motive .finish)
    (unfinished : isLineStart text index = true →
      (scanPlainTextToolCall text (skipLineIndentation text index) {}).kind = .unfinished none →
      motive .finish)
    (notHere : isLineStart text index = false ∨
      isOffsetInProtectedRanges (skipLineIndentation text index) protectedRanges = true →
      motive (.advance (index + 1)))
    (malformed : ∀ at_, isLineStart text index = true →
      (scanPlainTextToolCall text (skipLineIndentation text index) {}).kind = .invalid at_ →
      motive (.advance (max (index + 1) (scanPlainTextToolCall text (skipLineIndentation text index) {}).next)))
    (block : ∀ stop next, isLineStart text index = true →
      (scanPlainTextToolCall text (skipLineIndentation text index) {}).kind.cutEnd? = some stop →
      index < stop → stop ≤ next → next ≤ text.length → motive (.remove next)) :
    motive (stripStep text protectedRanges index) := by
  have cut : ∀ stop, isLineStart text index = true →
      (scanPlainTextToolCall text (skipLineIndentation text index) {}).kind.cutEnd? = some stop →
      motive (.remove (afterBlock text (extendBlock text protectedRanges text.length stop))) := by
    intro stop line known
    have forward := scanPlainTextToolCall_forward known
    have least : index ≤ skipLineIndentation text index := le_skipWhile
    have extended := @extendBlock_bound text protectedRanges text.length stop forward.2
    have after := @afterBlock_bound text _ extended.2
    exact block stop _ line known (Nat.lt_of_le_of_lt least forward.1) (Nat.le_trans extended.1 after.1) after.2
  unfold stripStep
  split
  · rename_i beyond
    exact ended beyond
  · split
    · rename_i elsewhere
      exact notHere (.inl (by simpa using elsewhere))
    · rename_i here
      have line : isLineStart text index = true := by simpa using here
      dsimp only
      split
      · rename_i guarded
        exact notHere (.inr guarded)
      · split
        · rename_i kind
          exact unfinished line kind
        · rename_i at_ kind
          exact malformed at_ line kind
        · rename_i stop kind
          exact cut stop line (by rw [kind]; rfl)
        · rename_i stop kind
          exact cut stop line (by rw [kind]; rfl)

theorem stripStep_finish (step : stripStep text protectedRanges index = .finish) :
    text.length ≤ index ∨ isLineStart text index = true ∧
      (scanPlainTextToolCall text (skipLineIndentation text index) {}).kind = .unfinished none := by
  refine stripStep_cases (motive := fun step => step = .finish → _) ?_ ?_ ?_ ?_ ?_ step
  · exact fun ended _ => .inl ended
  · exact fun line kind _ => .inr ⟨line, kind⟩
  · intro _ same
    cases same
  · intro _ _ _ same
    cases same
  · intro _ _ _ _ _ _ _ same
    cases same

theorem stripStep_advance {next : Nat} (step : stripStep text protectedRanges index = .advance next) :
    next = index + 1 ∧ (isLineStart text index = false ∨
        isOffsetInProtectedRanges (skipLineIndentation text index) protectedRanges = true) ∨
      ∃ at_, isLineStart text index = true ∧
        (scanPlainTextToolCall text (skipLineIndentation text index) {}).kind = .invalid at_ ∧
        next = max (index + 1) (scanPlainTextToolCall text (skipLineIndentation text index) {}).next := by
  refine stripStep_cases (motive := fun step => step = .advance next → _) ?_ ?_ ?_ ?_ ?_ step
  · intro _ same
    cases same
  · intro _ _ same
    cases same
  · intro elsewhere same
    cases same
    exact .inl ⟨rfl, elsewhere⟩
  · intro at_ line kind same
    cases same
    exact .inr ⟨at_, line, kind, rfl⟩
  · intro _ _ _ _ _ _ _ same
    cases same

theorem stripStep_remove {next : Nat} (step : stripStep text protectedRanges index = .remove next) :
    isLineStart text index = true ∧ index < next ∧ next ≤ text.length ∧ ∃ stop, stop ≤ next ∧
      (scanPlainTextToolCall text (skipLineIndentation text index) {}).kind.cutEnd? = some stop := by
  refine stripStep_cases (motive := fun step => step = .remove next → _) ?_ ?_ ?_ ?_ ?_ step
  · intro _ same
    cases same
  · intro _ _ same
    cases same
  · intro _ same
    cases same
  · intro _ _ _ same
    cases same
  · intro stop behind line kind forward reaches inside same
    cases same
    exact ⟨line, Nat.lt_of_lt_of_le forward reaches, inside, stop, reaches, kind⟩

theorem InOrder.earlier {from_ earlier : Nat} {spans : List Span} (order : earlier ≤ from_)
    (later : InOrder text from_ spans) : InOrder text earlier spans := by
  cases spans with
  | nil => trivial
  | cons span rest => exact ⟨Nat.le_trans order later.1, later.2⟩

theorem stripStep_moves {next : Nat} (step : stripStep text protectedRanges index = .advance next) :
    index < next := by
  cases stripStep_advance step with
  | inl moved => omega
  | inr moved =>
    obtain ⟨_, _, _, same⟩ := moved
    omega

theorem removedBlocks_inOrder (turns index : Nat) :
    InOrder text index (removedBlocks text protectedRanges turns index) := by
  induction turns generalizing index with
  | zero => trivial
  | succ turns ih =>
    rw [removedBlocks]
    cases step : stripStep text protectedRanges index with
    | finish => trivial
    | advance next => exact InOrder.earlier (Nat.le_of_lt (stripStep_moves step)) (ih next)
    | remove next =>
      obtain ⟨_, forward, inside, _⟩ := stripStep_remove step
      exact ⟨Nat.le_refl _, forward, inside, ih next⟩

/-- A span that may go: a line that begins with a call, at least as far as that call. -/
def Removable (text : Text) (span : Span) : Prop :=
  isLineStart text span.start = true ∧ ∃ stop, stop ≤ span.stop ∧
    (scanPlainTextToolCall text (skipLineIndentation text span.start) {}).kind.cutEnd? = some stop

theorem removedBlocks_removable (turns index : Nat) :
    ∀ span ∈ removedBlocks text protectedRanges turns index, Removable text span := by
  induction turns generalizing index with
  | zero => exact fun _ known => by cases known
  | succ turns ih =>
    rw [removedBlocks]
    cases step : stripStep text protectedRanges index with
    | finish => exact fun _ known => by cases known
    | advance next => exact ih next
    | remove next =>
      obtain ⟨line, _, _, call⟩ := stripStep_remove step
      intro span known
      cases List.mem_cons.mp known with
      | inl here =>
        subst here
        exact ⟨line, call⟩
      | inr later => exact ih next span later

/-- The places the loop comes to. -/
inductive Visited (text : Text) (protectedRanges : List Span) : Nat → Prop where
  | first : Visited text protectedRanges 0
  | advance {index next : Nat} : Visited text protectedRanges index →
      stripStep text protectedRanges index = .advance next → Visited text protectedRanges next
  | remove {index next : Nat} : Visited text protectedRanges index →
      stripStep text protectedRanges index = .remove next → Visited text protectedRanges next

/-- A candidate the loop rejected at an earlier line start reaches over the place. -/
def InsideMalformed (text : Text) (protectedRanges : List Span) (place : Nat) : Prop :=
  ∃ earlier at_, Visited text protectedRanges earlier ∧ earlier < place ∧ isLineStart text earlier = true ∧
    (scanPlainTextToolCall text (skipLineIndentation text earlier) {}).kind = .invalid at_ ∧
    place < (scanPlainTextToolCall text (skipLineIndentation text earlier) {}).next

/-- A candidate the loop met at an earlier line start is unfinished where the text ends. -/
def BehindUnfinished (text : Text) (protectedRanges : List Span) (place : Nat) : Prop :=
  ∃ earlier, Visited text protectedRanges earlier ∧ earlier < place ∧ isLineStart text earlier = true ∧
    (scanPlainTextToolCall text (skipLineIndentation text earlier) {}).kind = .unfinished none

def Covered (spans : List Span) (place : Nat) : Prop :=
  ∃ span ∈ spans, span.start ≤ place ∧ place < span.stop

theorem removedBlocks_cover {turns place stop : Nat}
    (visited : Visited text protectedRanges index) (enough : text.length < index + turns)
    (reached : index ≤ place) (line : isLineStart text place = true)
    (unprotected : isOffsetInProtectedRanges (skipLineIndentation text place) protectedRanges = false)
    (call : (scanPlainTextToolCall text (skipLineIndentation text place) {}).kind = .complete stop) :
    Covered (removedBlocks text protectedRanges turns index) place ∨
      InsideMalformed text protectedRanges place ∨ BehindUnfinished text protectedRanges place := by
  have inside : place < text.length := by
    have least : place ≤ skipLineIndentation text place := le_skipWhile
    have forward := @scanPlainTextToolCall_forward text _ stop {} (by rw [call]; rfl)
    exact Nat.lt_of_le_of_lt least (Nat.lt_of_lt_of_le forward.1 forward.2)
  induction turns generalizing index with
  | zero => omega
  | succ turns ih =>
    rw [removedBlocks]
    cases step : stripStep text protectedRanges index with
    | finish =>
      cases stripStep_finish step with
      | inl ended => omega
      | inr unfinished =>
        right; right
        refine ⟨index, visited, Nat.lt_of_le_of_ne reached ?_, unfinished⟩
        intro same
        rw [← same, unfinished.2] at call
        cases call
    | advance next =>
      have moves := stripStep_moves step
      cases stripStep_advance step with
      | inl moved =>
        apply ih (visited.advance step) (by omega) (by
          rw [moved.1]
          apply Nat.lt_of_le_of_ne reached
          intro same
          rw [same, line, unprotected] at moved
          exact moved.2.elim Bool.noConfusion Bool.noConfusion)
      | inr moved =>
        obtain ⟨at_, earlierLine, kind, same⟩ := moved
        have behind : index < place := by
          apply Nat.lt_of_le_of_ne reached
          intro same
          rw [← same, kind] at call
          cases call
        cases Nat.lt_or_ge place next with
        | inl before =>
          right; left
          exact ⟨index, at_, visited, behind, earlierLine, kind, by omega⟩
        | inr beyond => exact ih (visited.advance step) (by omega) beyond
    | remove next =>
      obtain ⟨_, forward, _, _⟩ := stripStep_remove step
      cases Nat.lt_or_ge place next with
      | inl before => exact .inl ⟨⟨index, next⟩, by simp, reached, before⟩
      | inr beyond =>
        cases ih (visited.remove step) (by omega) beyond with
        | inl covered =>
          obtain ⟨span, known, within⟩ := covered
          exact .inl ⟨span, List.mem_cons_of_mem _ known, within⟩
        | inr spared => exact .inr spared

end Loop

section Patterns

variable {text : Text} {start : Nat} {lineBreakOffsets : List Nat}

theorem skipWhile_lt {p : Nat → Bool} {unit : Nat} (there : text[start]? = some unit)
    (holds : p unit = true) : start < skipWhile p text start := by
  have stopped : ¬skipWhile p text start = start := by
    intro same
    have failed := @skipWhile_stops _ p text start unit (by rw [same]; exact there)
    rw [holds] at failed
    cases failed
  have least := @le_skipWhile _ p text start
  omega

theorem holdsBracketedName_of_read {nameEnd : Nat}
    (read : nameEnd = skipWhile isPlainTextToolNameChar text start) (nonempty : start ≠ nameEnd)
    (bracket : text[nameEnd]? = some ']'.toNat) : holdsBracketedName text start = true := by
  have least := @le_skipWhile _ isPlainTextToolNameChar text start
  rw [holdsBracketedName, ← read, bracket]
  simp
  omega

theorem upTo_short (short : ¬120 < skipWhileUpTo 121 isPlainTextToolNameChar text start - start) :
    skipWhileUpTo 121 isPlainTextToolNameChar text start = skipWhile isPlainTextToolNameChar text start := by
  rw [skipWhileUpTo_eq] at short ⊢
  omega

theorem scanXmlishBracketClose_bracket {form form' : XmlishSyntax} {name name' : Span} {cursor : Nat}
    (opened : scanXmlishBracketClose text form name lineBreakOffsets = .opened form' name' cursor) :
    name.start ≠ name.stop ∧ text[name.stop]? = some ']'.toNat := by
  rw [scanXmlishBracketClose] at opened
  split at opened
  · cases opened
  · split at opened
    · cases opened
    · rename_i wellFormed
      obtain ⟨nonempty, bracket⟩ := not_or.mp wellFormed
      exact ⟨nonempty, Decidable.not_not.mp bracket⟩

theorem opened_xmlish_pattern {form : XmlishSyntax} {name : Span} {cursor : Nat} (inside : start < text.length)
    (opened : scanXmlishOpening text start lineBreakOffsets = .opened form name cursor) :
    holdsBracketOpening text start = true ∨ startsWithAsciiMarkerIgnoreCase text start FUNCTION_OPEN = true := by
  rw [scanXmlishOpening] at opened
  split at opened
  · right
    rcases @asciiMarker_cases text [] FUNCTION_OPEN start (Nat.le_of_lt inside) (by decide) with
      ⟨there, _, _⟩ | ⟨absent, begun⟩ | ⟨absent, unbegun, _, _⟩
    · exact there
    · have short : text.length - start < FUNCTION_OPEN.length := by
        have rest := (isPrefixAt_iff.mp begun).1
        rw [List.length_drop, List.length_map] at rest
        exact rest
      rw [scanFunctionOpening, absent, begun, if_neg (by simp), if_pos short] at opened
      cases opened
    · rw [scanFunctionOpening, absent, unbegun, if_pos (by simp)] at opened
      cases opened
  · split at opened
    · rename_i opens
      left
      rw [scanXmlishBracketOpening] at opened
      dsimp only at opened
      split at opened
      · cases opened
      · rename_i short
        have least := @le_skipWhileUpTo _ isPlainTextToolNameChar text (start + 1) 121
        split at opened
        · cases opened
        · split at opened
          · rename_i marked
            obtain ⟨tool, place⟩ := startsWithAt_of_slice least marked.2 marked.1
            have size : (units "tool").length = 4 := by decide
            have markerSize : (units "tool:").length = 5 := by decide
            rw [scanXmlishToolName] at opened
            split at opened
            · cases opened
            · rename_i nameShort
              obtain ⟨nonempty, bracket⟩ := scanXmlishBracketClose_bracket opened
              have named := holdsBracketedName_of_read (upTo_short nameShort) nonempty bracket
              have behind : skipWhileUpTo 121 isPlainTextToolNameChar text (start + 1) + 1 =
                  start + 1 + (units "tool:").length := by omega
              rw [behind] at named
              have marker : startsWithAt text (units "tool:") (start + 1) = true := tool
              rw [holdsBracketOpening, opens, marker, named]
              simp
          · obtain ⟨nonempty, bracket⟩ := scanXmlishBracketClose_bracket opened
            have named := holdsBracketedName_of_read (upTo_short short) nonempty bracket
            rw [holdsBracketOpening, opens, named]
            simp
    · cases opened

theorem opened_bracket_pattern {cursor : Nat} {value : PlainTextJsonToolCallCandidate}
    (opens : text[start]? = some '['.toNat)
    (opened : scanBracketOpening text start lineBreakOffsets = .opened cursor value) :
    holdsBracketOpening text start = true := by
  have named : ∀ form nameStart, scanBracketName text form nameStart lineBreakOffsets = .opened cursor value →
      holdsBracketedName text nameStart = true := by
    intro form nameStart opened
    obtain ⟨first, read, _, nonempty, bracket, _⟩ := scanBracketName_opened opened
    rw [first] at nonempty
    exact holdsBracketedName_of_read (scanToolNameEnd_eq read) nonempty bracket
  rw [scanBracketOpening] at opened
  split at opened
  · rename_i tool
    rw [holdsBracketOpening, opens, tool, named _ _ opened]
    simp
  · split at opened
    · cases opened
    · rw [holdsBracketOpening, opens, named _ _ opened]
      simp

theorem opened_channel_pattern {cursor : Nat} {value : PlainTextJsonToolCallCandidate}
    (opened : scanHarmonyChannel text start = .opened cursor value) :
    holdsHarmonyChannel text start = true := by
  rw [scanHarmonyChannel] at opened
  split at opened
  · split at opened <;> cases opened
  · rename_i channel found
    have here := List.find?_some found
    dsimp only at opened
    split at opened
    · cases opened
    · split at opened
      · cases opened
      · rename_i blank
        have blank := Decidable.not_not.mp blank
        have moved : start + channel.length < skipHorizontalWhitespace text (start + channel.length) := by
          cases unit : text[start + channel.length]? with
          | none => rw [unit] at blank; cases blank
          | some unit' => rw [unit] at blank; exact skipWhile_lt unit blank
        split at opened
        · rename_i recipient
          rw [holdsHarmonyChannel, List.any_eq_true]
          exact ⟨channel, List.mem_of_find?_eq_some found, by simp [here, moved, recipient]⟩
        · split at opened <;> cases opened

theorem opened_harmony_pattern {cursor : Nat} {value : PlainTextJsonToolCallCandidate}
    (opened : scanHarmonyOpening text start = .opened cursor value) :
    holdsHarmonyChannel text start = true ∨ startsWithAt text HARMONY_CHANNEL_MARKER start = true ∧
        holdsHarmonyChannel text (start + HARMONY_CHANNEL_MARKER.length) = true := by
  rw [scanHarmonyOpening] at opened
  split at opened
  · rename_i marked
    exact .inr ⟨marked, opened_channel_pattern opened⟩
  · split at opened
    · cases opened
    · split at opened
      · cases opened
      · exact .inl (opened_channel_pattern opened)

theorem mayHoldToolCall_of_pattern {place : Nat} (inside : place ≤ text.length)
    (pattern : holdsBracketOpening text place = true ∨ holdsHarmonyOpening text place = true ∨
      holdsFunctionOpening text place = true) : mayHoldToolCall text = true := by
  rw [mayHoldToolCall, List.any_eq_true]
  refine ⟨place, List.mem_range.mpr (Nat.lt_succ_of_le inside), ?_⟩
  rcases pattern with bracket | harmony | function
  · rw [bracket]
    rfl
  · rw [harmony, Bool.or_true]
    rfl
  · rw [function, Bool.or_true]

theorem mayHoldToolCall_of_call {index stop : Nat} (line : isLineStart text index = true)
    (call : (scanPlainTextToolCall text (skipLineIndentation text index) {}).kind = .complete stop) :
    mayHoldToolCall text = true := by
  have forward := @scanPlainTextToolCall_forward text _ stop {} (by rw [call]; rfl)
  have least : index ≤ skipLineIndentation text index := le_skipWhile
  have inside : skipLineIndentation text index < text.length := Nat.lt_of_lt_of_le forward.1 forward.2
  have function : startsWithAsciiMarkerIgnoreCase text (skipLineIndentation text index)
      FUNCTION_OPEN = true → mayHoldToolCall text = true := by
    intro tag
    apply mayHoldToolCall_of_pattern (Nat.le_trans least (Nat.le_of_lt inside))
    right; right
    rw [holdsFunctionOpening, line, tag]
    rfl
  cases call_cases call with
  | inl tagged =>
    obtain ⟨value, payload, whole, _⟩ := tagged
    have reported : (scanXmlishToolCall text (skipLineIndentation text index) []).stop? =
        some stop := congrArg XmlishToolCallScan.stop? whole
    obtain ⟨form, name, cursor, opened⟩ := scanXmlishToolCall_opened inside reported
    cases opened_xmlish_pattern inside opened with
    | inl bracket => exact mayHoldToolCall_of_pattern (Nat.le_of_lt inside) (.inl bracket)
    | inr tag => exact function tag
  | inr called =>
    obtain ⟨payload, ⟨value, whole, _⟩, _⟩ := called
    have whole : scanPlainTextJsonToolCall text (skipLineIndentation text index) [] =
      .complete value payload stop := whole
    obtain ⟨cursor, candidate, opened, _⟩ := scanPlainTextJsonToolCall_opened inside whole
    cases opened with
    | inl bracket =>
      exact mayHoldToolCall_of_pattern (Nat.le_of_lt inside) (.inl (opened_bracket_pattern bracket.1 bracket.2))
    | inr harmony =>
      apply mayHoldToolCall_of_pattern (Nat.le_trans least (Nat.le_of_lt inside))
      right; left
      rw [holdsHarmonyOpening, line]
      rcases opened_harmony_pattern harmony with channel | ⟨marked, channel⟩
      · simp [channel]
      · simp [marked, channel]

end Patterns

theorem stripPlainTextToolCallBlocks_eq (text : Text) :
    stripPlainTextToolCallBlocks text [] = text ∧ mayHoldToolCall text = false ∨
      stripPlainTextToolCallBlocks text [] = withoutSpans text 0 (removedBlocks text [] (text.length + 1) 0) := by
  rw [stripPlainTextToolCallBlocks]
  cases mayHoldToolCall text with
  | false => exact .inl ⟨rfl, rfl⟩
  | true => exact .inr (stripBlocks_eq _ _ _ _)

theorem nothing_removable {text : Text} (none_ : ∀ span, ¬Removable text span) :
    stripPlainTextToolCallBlocks text [] = text := by
  cases stripPlainTextToolCallBlocks_eq text with
  | inl unchanged => exact unchanged.1
  | inr stripped =>
    rw [stripped]
    have removable := @removedBlocks_removable text [] (text.length + 1) 0
    cases blocks : removedBlocks text [] (text.length + 1) 0 with
    | nil => rfl
    | cons span rest => exact absurd (removable span (by rw [blocks]; simp)) (none_ span)

/-- The calls that begin a line are taken out, unless a malformed or unfinished candidate
before them owns their place; nothing else is taken out but such calls. -/
theorem standing_calls_are_removed (text : Text) (matcher : Option PlainTextToolCallNameMatcher) :
    (∃ removed, stripPlainTextToolCallBlocks text [] = withoutSpans text 0 removed ∧
      InOrder text 0 removed ∧ (∀ span ∈ removed, Removable text span) ∧
      ∀ place stop, isLineStart text place = true →
        (scanPlainTextToolCall text (skipLineIndentation text place) { matcher }).kind = .complete stop →
        Covered removed place ∨ InsideMalformed text [] place ∨ BehindUnfinished text [] place) ∧
    ((∀ span, ¬Removable (stripPlainTextToolCallBlocks text []) span) →
      stripPlainTextToolCallBlocks (stripPlainTextToolCallBlocks text []) [] =
        stripPlainTextToolCallBlocks text []) := by
  refine ⟨?_, nothing_removable⟩
  cases stripPlainTextToolCallBlocks_eq text with
  | inl unchanged =>
    refine ⟨[], unchanged.1, trivial, fun _ known => (by cases known), ?_⟩
    intro place stop line call
    have held := mayHoldToolCall_of_call line (call_without_matcher call)
    rw [unchanged.2] at held
    cases held
  | inr stripped =>
    refine ⟨_, stripped, removedBlocks_inOrder _ _, removedBlocks_removable _ _, ?_⟩
    intro place stop line call
    exact removedBlocks_cover .first (by omega) (Nat.zero_le _) line rfl (call_without_matcher call)

namespace NestedCalls

def text : Text := units "<function=f>\n<function=g>\n</function>\n</function>"

/-- Taking out the inner call leaves the outer tags behind as a call of their own. -/
theorem removal_makes_a_call : isLineStart (stripPlainTextToolCallBlocks text []) 0 = true ∧
      (scanPlainTextToolCall (stripPlainTextToolCallBlocks text []) 0 {}).kind = .complete 24 ∧
      stripPlainTextToolCallBlocks (stripPlainTextToolCallBlocks text []) [] ≠
        stripPlainTextToolCallBlocks text [] := by
  decide

end NestedCalls

end ToolCallRepair
