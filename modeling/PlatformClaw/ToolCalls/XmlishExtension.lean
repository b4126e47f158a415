import PlatformClaw.ToolCalls.JsonExtension

/-! # The tag grammar on a text that grows

The counterpart of the JSON grammar, with one exception. After a bare bracketed name
and blanks the tag grammar misses its line break at once, while the JSON grammar
still waits for it; that place stays open to both.
-/

namespace ToolCallRepair

open Scanning

theorem asciiMarker_cases {text more marker : Text} {start : Nat} (inside : start ≤ text.length)
    (nonempty : marker ≠ []) :
    (startsWithAsciiMarkerIgnoreCase text start marker = true ∧
      startsWithAsciiMarkerIgnoreCase (text ++ more) start marker = true ∧
      start + marker.length ≤ text.length) ∨
    (startsWithAsciiMarkerIgnoreCase text start marker = false ∧
      isAsciiMarkerPrefixIgnoreCase text start marker = true) ∨
    (startsWithAsciiMarkerIgnoreCase text start marker = false ∧
      isAsciiMarkerPrefixIgnoreCase text start marker = false ∧
      startsWithAsciiMarkerIgnoreCase (text ++ more) start marker = false ∧
      isAsciiMarkerPrefixIgnoreCase (text ++ more) start marker = false) := by
  unfold startsWithAsciiMarkerIgnoreCase isAsciiMarkerPrefixIgnoreCase
  rw [List.map_append]
  have within : start ≤ (text.map asciiLower).length := by
    rw [List.length_map]
    exact inside
  rcases @literal_cases _ _ (text.map asciiLower) (more.map asciiLower) marker start within nonempty with
    ⟨there, later⟩ | begun | missing
  · have bound := startsWithAt_bound there nonempty
    rw [List.length_map] at bound
    exact .inl ⟨there, later, bound⟩
  · exact .inr (.inl begun)
  · exact .inr (.inr missing)

theorem indexOfAsciiMarker_append {text more marker : Text} {start found : Nat} (nonempty : marker ≠ [])
    (first : indexOfAsciiMarkerIgnoreCase text marker start = some found) :
    indexOfAsciiMarkerIgnoreCase (text ++ more) marker start = some found ∧
      start ≤ found ∧ found + marker.length ≤ text.length := by
  unfold indexOfAsciiMarkerIgnoreCase at first ⊢
  rw [List.map_append]
  have bound := indexOf?_bound first nonempty
  rw [List.length_map] at bound
  exact ⟨indexOf?_append first nonempty, bound⟩

/-- The ends a tag scan may report. -/
def XmlishToolCallScan.stop? : XmlishToolCallScan → Option Nat
  | .complete _ _ stop => some stop
  | .unfinished _ completeEnd => completeEnd
  | .invalid _ _ => none

namespace XmlishOpening

def value : XmlishOpening → Option PlainTextToolCallScanCandidate
  | .stopped scan => scan.value
  | .opened _ name _ => some ⟨name, true, none⟩

def isUnfinished : XmlishOpening → Bool
  | .stopped scan => scan.isUnfinished
  | .opened _ _ _ => false

/-- The opening read in a longer text. `waiting` are the bare names whose line is still
open where the shorter text ends. -/
structure Grows (text : Text) (waiting : Span → Prop) (before after : XmlishOpening) : Prop where
  invalid : ∀ at_ candidate, before = .stopped (.invalid at_ candidate) → after = before ∨
    ∃ name, waiting name ∧ NameRetained text (some ⟨name, true, none⟩) after.value after.isUnfinished
  named : NameRetained text before.value after.value after.isUnfinished
  opened : ∀ form name cursor, before = .opened form name cursor →
    name.stop ≤ text.length ∧ cursor ≤ text.length ∧ ∃ cursor', after = .opened form name cursor' ∧
      (cursor' = cursor ∨ skipWhitespace text cursor = text.length)
  /-- No opening ends a call. -/
  proper : ∀ scan, before = .stopped scan → scan.stop? = none

namespace Grows

variable {text : Text} {waiting : Span → Prop} {after : XmlishOpening} {form : XmlishSyntax}
  {name : Span}

theorem of_unfinished {candidate : Option XmlishToolCallCandidate}
    (named : NameRetained text (XmlishToolCallScan.unfinished candidate none).value after.value
      after.isUnfinished) : Grows text waiting (.stopped (.unfinished candidate none)) after where
  invalid := fun _ _ same => by cases same
  named := named
  opened := fun _ _ _ same => by cases same
  proper := fun _ same => by cases same <;> rfl

theorem of_invalid {at_ : Nat} :
    Grows text waiting (.stopped (.invalid at_ none)) (.stopped (.invalid at_ none)) where
  invalid := fun _ _ _ => .inl rfl
  named := .of_none
  opened := fun _ _ _ same => by cases same
  proper := fun _ same => by cases same <;> rfl

theorem of_waiting {at_ : Nat} (open_ : waiting name)
    (named : NameRetained text (some ⟨name, true, none⟩) after.value after.isUnfinished) :
    Grows text waiting (.stopped (.invalid at_ none)) after where
  invalid := fun _ _ _ => .inr ⟨name, open_, named⟩
  named := .of_none
  opened := fun _ _ _ same => by cases same
  proper := fun _ same => by cases same <;> rfl

theorem of_opened {cursor cursor' : Nat} (inside : name.stop ≤ text.length) (bound : cursor ≤ text.length)
    (still : cursor' = cursor ∨ skipWhitespace text cursor = text.length) :
    Grows text waiting (.opened form name cursor) (.opened form name cursor') where
  invalid := fun _ _ same => by cases same
  named := .of_finished rfl rfl inside rfl
  opened := fun _ _ _ same => by
    cases same
    exact ⟨inside, bound, cursor', rfl, still⟩
  proper := fun _ same => by cases same <;> rfl

end Grows

end XmlishOpening

/-- The result names this candidate, or no candidate any more. -/
def NamesOnly (name : Span) (opening : XmlishOpening) : Prop :=
  (opening.value = none ∧ opening.isUnfinished = false) ∨ ∃ complete, opening.value = some ⟨name, complete, none⟩

theorem NameRetained.of_cut {text : Text} {name later : Span} {after : XmlishOpening}
    (names : NamesOnly later after) (start : later.start = name.start)
    (atEnd : name.stop = text.length) (reaches : text.length ≤ later.stop) :
    NameRetained text (some ⟨name, false, none⟩) after.value after.isUnfinished := by
  intro candidate known
  cases known
  cases names with
  | inl dropped => exact .inr dropped
  | inr read =>
    obtain ⟨complete, named⟩ := read
    exact .inl ⟨_, named, start, fun finished => (by cases finished), fun _ => ⟨atEnd, reaches⟩⟩

section Opening

variable {text more : Text} {waiting : Span → Prop}

theorem upTo_cut {p : Nat → Bool} {start limit : Nat} (inside : start ≤ text.length)
    (full : start + limit ≤ skipWhileUpTo limit p text start) :
    skipWhileUpTo limit p (text ++ more) start = skipWhileUpTo limit p text start := by
  have grows := @skipWhileUpTo_mono _ p text more start limit inside
  have bound := @skipWhileUpTo_le_limit _ p (text ++ more) start limit
  have sameBound := @skipWhileUpTo_le_limit _ p text start limit
  omega

theorem scanFunctionName_names {nameStart : Nat} :
    NamesOnly ⟨nameStart, skipWhileUpTo 121 isXmlishNameChar text nameStart⟩ (scanFunctionName text nameStart) := by
  unfold scanFunctionName
  dsimp only
  split
  · exact .inl ⟨rfl, rfl⟩
  · split
    · exact .inr ⟨false, rfl⟩
    · split
      · exact .inl ⟨rfl, rfl⟩
      · exact .inr ⟨true, rfl⟩

theorem scanFunctionName_grows {nameStart : Nat} (inside : nameStart ≤ text.length) :
    XmlishOpening.Grows text waiting (scanFunctionName text nameStart)
      (scanFunctionName (text ++ more) nameStart) := by
  have within : skipWhileUpTo 121 isXmlishNameChar text nameStart ≤ text.length :=
    skipWhileUpTo_le inside
  cases Nat.lt_or_ge (skipWhileUpTo 121 isXmlishNameChar text nameStart) text.length with
  | inl stopped =>
    have early : ¬skipWhileUpTo 121 isXmlishNameChar text nameStart = text.length :=
      Nat.ne_of_lt stopped
    have earlier : ¬skipWhileUpTo 121 isXmlishNameChar text nameStart = (text ++ more).length := by
      rw [List.length_append]
      omega
    rw [scanFunctionName, scanFunctionName, skipWhileUpTo_append inside stopped,
      if_neg early, if_neg earlier, List.getElem?_append_left stopped]
    split
    · exact .of_invalid
    · split
      · exact .of_invalid
      · exact .of_opened within stopped (.inl rfl)
  | inr ended =>
    have atEnd := Nat.le_antisymm within ended
    have grows := @skipWhileUpTo_mono _ isXmlishNameChar text more nameStart 121 inside
    rw [scanFunctionName]
    split
    · rename_i tooLong
      rw [scanFunctionName, upTo_cut inside (by omega), if_pos tooLong]
      exact .of_invalid
    · exact .of_unfinished (.of_cut scanFunctionName_names rfl atEnd (by dsimp only; omega))

theorem scanFunctionOpening_grows {start : Nat} (inside : start ≤ text.length) :
    XmlishOpening.Grows text waiting (scanFunctionOpening text start) (scanFunctionOpening (text ++ more) start) := by
  rcases @asciiMarker_cases text more FUNCTION_OPEN start inside (by decide) with
    ⟨there, later, bound⟩ | ⟨absent, begun⟩ | ⟨absent, unbegun, absentLater, unbegunLater⟩
  · have long : ¬text.length - start < FUNCTION_OPEN.length := by omega
    have longer : ¬(text ++ more).length - start < FUNCTION_OPEN.length := by
      rw [List.length_append]
      omega
    rw [scanFunctionOpening, there, if_neg (by simp), if_neg long, scanFunctionOpening, later,
      if_neg (by simp), if_neg longer]
    exact scanFunctionName_grows bound
  · have short : text.length - start < FUNCTION_OPEN.length := by
      have rest := (isPrefixAt_iff.mp begun).1
      rw [List.length_drop, List.length_map] at rest
      exact rest
    rw [scanFunctionOpening, absent, begun, if_neg (by simp), if_pos short]
    exact .of_unfinished .of_none
  · rw [scanFunctionOpening, absent, unbegun, if_pos (by simp), scanFunctionOpening, absentLater,
      unbegunLater, if_pos (by simp)]
    exact .of_invalid

variable {form : XmlishSyntax} {name : Span} {lineBreakOffsets : List Nat}

theorem scanXmlishBracketClose_names : NamesOnly name (scanXmlishBracketClose text form name lineBreakOffsets) := by
  unfold scanXmlishBracketClose
  dsimp only
  split
  · exact .inr ⟨false, rfl⟩
  · split
    · exact .inl ⟨rfl, rfl⟩
    · split
      · split
        · exact .inr ⟨true, rfl⟩
        · split
          · exact .inl ⟨rfl, rfl⟩
          · exact .inr ⟨true, rfl⟩
      · exact .inr ⟨true, rfl⟩

theorem scanXmlishBracketClose_retains (inside : name.stop < text.length) :
    NameRetained text (some ⟨name, true, none⟩)
      (scanXmlishBracketClose (text ++ more) form name lineBreakOffsets).value
      (scanXmlishBracketClose (text ++ more) form name lineBreakOffsets).isUnfinished := by
  have earlier : ¬name.stop = (text ++ more).length := by
    rw [List.length_append]
    omega
  have within := Nat.le_of_lt inside
  rw [scanXmlishBracketClose, if_neg earlier]
  dsimp only
  split
  · exact fun _ _ => .inr ⟨rfl, rfl⟩
  · split
    · split
      · exact .of_finished rfl rfl within rfl
      · split
        · exact fun _ _ => .inr ⟨rfl, rfl⟩
        · exact .of_finished rfl rfl within rfl
    · exact .of_finished rfl rfl within rfl

theorem structuralLineBreak_end {cursor stop : Nat} (inside : cursor ≤ text.length)
    (ended : skipHorizontalWhitespace text cursor = text.length)
    (consumed : consumeStructuralLineBreakAfterHorizontalWhitespace text cursor lineBreakOffsets = some stop) :
    skipWhitespace text stop = text.length ∧
      ∃ later, consumeStructuralLineBreakAfterHorizontalWhitespace (text ++ more) cursor
        lineBreakOffsets = some later := by
  have bound := structuralLineBreak_le inside consumed
  constructor
  · apply skipWhile_end_mono _ bound.1 bound.2 ended
    intro unit blank
    simp only [isHorizontalWhitespace, Bool.or_eq_true, beq_iff_eq] at blank
    rcases blank with rfl | rfl <;> decide
  · have grows : skipHorizontalWhitespace text cursor ≤
        skipHorizontalWhitespace (text ++ more) cursor := skipWhile_mono inside
    have noBreak : consumeLineBreak text text.length = none := by simp [consumeLineBreak]
    rw [consumeStructuralLineBreakAfterHorizontalWhitespace, ended, noBreak] at consumed
    have place := List.mem_of_find?_eq_some consumed
    have offset := List.find?_some consumed
    rw [List.mem_range'_1] at place
    unfold consumeStructuralLineBreakAfterHorizontalWhitespace
    dsimp only
    split
    · exact ⟨_, rfl⟩
    · cases found : (List.range' cursor (skipHorizontalWhitespace (text ++ more) cursor + 1 -
          cursor)).find? (lineBreakOffsets.contains ·) with
      | some later => exact ⟨later, rfl⟩
      | none =>
        have absent := List.find?_eq_none.mp found stop (by
          rw [List.mem_range'_1]
          omega)
        exact absurd offset absent

theorem scanXmlishBracketClose_grows (inside : name.stop < text.length)
    (awaits : form = .namedBracket → name.start ≠ name.stop → text[name.stop]? = some ']'.toNat →
      skipHorizontalWhitespace text (name.stop + 1) = text.length → waiting name) :
    XmlishOpening.Grows text waiting (scanXmlishBracketClose text form name lineBreakOffsets)
      (scanXmlishBracketClose (text ++ more) form name lineBreakOffsets) := by
  have early : ¬name.stop = text.length := Nat.ne_of_lt inside
  have earlier : ¬name.stop = (text ++ more).length := by
    rw [List.length_append]
    omega
  have retains := @scanXmlishBracketClose_retains text more form name lineBreakOffsets inside
  rw [scanXmlishBracketClose, if_neg early]
  split
  · rename_i malformed
    rw [scanXmlishBracketClose, if_neg earlier, List.getElem?_append_left inside, if_pos malformed]
    exact .of_invalid
  · rename_i wellFormed
    have closes : ¬(name.start = name.stop ∨ (text ++ more)[name.stop]? ≠ some ']'.toNat) := by
      rw [List.getElem?_append_left inside]
      exact wellFormed
    obtain ⟨nonempty, bracket⟩ := not_or.mp wellFormed
    dsimp only
    split
    · rename_i bare
      split
      · exact .of_unfinished retains
      · rename_i goesOn
        have goesOnLater : ¬name.stop + 1 = (text ++ more).length := by
          rw [List.length_append]
          omega
        have within : skipHorizontalWhitespace text (name.stop + 1) ≤ text.length :=
          skipWhile_le inside
        cases Nat.lt_or_ge (skipHorizontalWhitespace text (name.stop + 1)) text.length with
        | inl stopped =>
          rw [scanXmlishBracketClose, if_neg earlier, if_neg closes, if_pos bare, if_neg goesOnLater]
          cases @structuralLineBreak_append text more (name.stop + 1) lineBreakOffsets stopped with
          | inl unchanged =>
            rw [unchanged]
            cases read : consumeStructuralLineBreakAfterHorizontalWhitespace text (name.stop + 1)
              lineBreakOffsets with
            | none => exact .of_invalid
            | some stop =>
              exact .of_opened (Nat.le_of_lt inside) (structuralLineBreak_le inside read).2 (.inl rfl)
          | inr moved =>
            obtain ⟨atEnd, later, consumed⟩ := moved
            rw [atEnd, consumed]
            exact .of_opened (Nat.le_of_lt inside) (Nat.le_refl _) (.inr skipWhitespace_end)
        | inr ended =>
          have atEnd := Nat.le_antisymm within ended
          cases read : consumeStructuralLineBreakAfterHorizontalWhitespace text (name.stop + 1) lineBreakOffsets with
          | none =>
            exact .of_waiting (awaits bare nonempty (Decidable.not_not.mp bracket) atEnd) retains
          | some stop =>
            obtain ⟨blank, later, consumed⟩ := @structuralLineBreak_end text more lineBreakOffsets
              (name.stop + 1) stop inside atEnd read
            rw [scanXmlishBracketClose, if_neg earlier, if_neg closes, if_pos bare, if_neg goesOnLater, consumed]
            exact .of_opened (Nat.le_of_lt inside) (structuralLineBreak_le inside read).2 (.inr blank)
    · rename_i marked
      rw [scanXmlishBracketClose, if_neg earlier, if_neg closes, if_neg marked]
      exact .of_opened (Nat.le_of_lt inside) inside (.inl rfl)

theorem scanXmlishToolName_names {nameStart : Nat} :
    NamesOnly ⟨nameStart, skipWhileUpTo 121 isPlainTextToolNameChar text nameStart⟩
      (scanXmlishToolName text nameStart lineBreakOffsets) := by
  unfold scanXmlishToolName
  dsimp only
  split
  · exact .inl ⟨rfl, rfl⟩
  · exact scanXmlishBracketClose_names

theorem scanXmlishToolName_grows {nameStart : Nat} (inside : nameStart ≤ text.length) :
    XmlishOpening.Grows text waiting (scanXmlishToolName text nameStart lineBreakOffsets)
      (scanXmlishToolName (text ++ more) nameStart lineBreakOffsets) := by
  have within : skipWhileUpTo 121 isPlainTextToolNameChar text nameStart ≤ text.length :=
    skipWhileUpTo_le inside
  cases Nat.lt_or_ge (skipWhileUpTo 121 isPlainTextToolNameChar text nameStart) text.length with
  | inl stopped =>
    rw [scanXmlishToolName, scanXmlishToolName, skipWhileUpTo_append inside stopped]
    split
    · exact .of_invalid
    · exact scanXmlishBracketClose_grows stopped (fun bare => by cases bare)
  | inr ended =>
    have atEnd := Nat.le_antisymm within ended
    have grows := @skipWhileUpTo_mono _ isPlainTextToolNameChar text more nameStart 121 inside
    rw [scanXmlishToolName]
    split
    · rename_i tooLong
      rw [scanXmlishToolName, upTo_cut inside (by omega), if_pos tooLong]
      exact .of_invalid
    · rw [scanXmlishBracketClose, if_pos atEnd]
      exact .of_unfinished (.of_cut scanXmlishToolName_names rfl atEnd (by dsimp only; omega))

theorem scanXmlishBracketOpening_names {start : Nat}
    (other : ¬(slice text (start + 1) text.length).isPrefixOf (units "tool"))
    (reaches : text.length ≤ skipWhileUpTo 121 isPlainTextToolNameChar (text ++ more) (start + 1)) :
    NamesOnly ⟨start + 1, skipWhileUpTo 121 isPlainTextToolNameChar (text ++ more) (start + 1)⟩
      (scanXmlishBracketOpening (text ++ more) start lineBreakOffsets) := by
  have grown : slice text (start + 1) text.length <+: slice (text ++ more) (start + 1)
      (skipWhileUpTo 121 isPlainTextToolNameChar (text ++ more) (start + 1)) := by
    rw [← @slice_append _ text more _ _ (Nat.le_refl text.length)]
    exact slice_prefix reaches
  have different : ∀ extra, ¬slice (text ++ more) (start + 1)
      (skipWhileUpTo 121 isPlainTextToolNameChar (text ++ more) (start + 1)) ++ extra =
        units "tool" := by
    intro extra same
    apply other
    rw [List.isPrefixOf_iff_prefix]
    exact grown.trans ⟨extra, same⟩
  unfold scanXmlishBracketOpening
  dsimp only
  split
  · exact .inl ⟨rfl, rfl⟩
  · split
    · rename_i cut
      obtain ⟨extra, same⟩ := List.isPrefixOf_iff_prefix.mp cut.2
      exact absurd same (different extra)
    · split
      · rename_i marked
        exact absurd (by rw [List.append_nil]; exact marked.2) (different [])
      · exact scanXmlishBracketClose_names

theorem scanXmlishBracketOpening_grows {start : Nat} (inside : start < text.length)
    (awaits : ∀ name : Span, name.start = start + 1 →
      name.stop = skipWhileUpTo 121 isPlainTextToolNameChar text (start + 1) →
      name.stop ≤ name.start + 120 → name.start ≠ name.stop → text[name.stop]? = some ']'.toNat →
      skipHorizontalWhitespace text (name.stop + 1) = text.length → waiting name) :
    XmlishOpening.Grows text waiting (scanXmlishBracketOpening text start lineBreakOffsets)
      (scanXmlishBracketOpening (text ++ more) start lineBreakOffsets) := by
  have inside : start + 1 ≤ text.length := inside
  have within : skipWhileUpTo 121 isPlainTextToolNameChar text (start + 1) ≤ text.length :=
    skipWhileUpTo_le inside
  cases Nat.lt_or_ge (skipWhileUpTo 121 isPlainTextToolNameChar text (start + 1)) text.length with
  | inl stopped =>
    have early : ¬skipWhileUpTo 121 isPlainTextToolNameChar text (start + 1) = text.length :=
      Nat.ne_of_lt stopped
    have earlier : ¬skipWhileUpTo 121 isPlainTextToolNameChar text (start + 1) = (text ++ more).length := by
      rw [List.length_append]
      omega
    rw [scanXmlishBracketOpening, scanXmlishBracketOpening, skipWhileUpTo_append inside stopped,
      slice_append within, List.getElem?_append_left stopped]
    split
    · exact .of_invalid
    · rename_i short
      simp only [early, earlier, false_and, if_false]
      split
      · exact scanXmlishToolName_grows stopped
      · exact scanXmlishBracketClose_grows stopped (fun _ nonempty bracket blank =>
          awaits _ rfl rfl (by dsimp only; omega) nonempty bracket blank)
  | inr ended =>
    have atEnd := Nat.le_antisymm within ended
    have grows :=
      @skipWhileUpTo_mono _ isPlainTextToolNameChar text more (start + 1) 121 inside
    rw [scanXmlishBracketOpening]
    split
    · rename_i tooLong
      rw [scanXmlishBracketOpening, upTo_cut inside (by omega), if_pos tooLong]
      exact .of_invalid
    · dsimp only
      split
      · exact .of_unfinished .of_none
      · rename_i other
        have other : ¬(slice text (start + 1) text.length).isPrefixOf (units "tool") := by
          rw [atEnd] at other
          exact fun cut => other ⟨rfl, cut⟩
        have ended : text[skipWhileUpTo 121 isPlainTextToolNameChar text (start + 1)]? = none := by
          rw [atEnd]
          exact List.getElem?_eq_none (Nat.le_refl _)
        rw [ended, if_neg (by simp), scanXmlishBracketClose, if_pos atEnd]
        exact .of_unfinished (.of_cut (scanXmlishBracketOpening_names other (by omega)) rfl atEnd
          (by dsimp only; omega))

end Opening

section Waiting

variable {text : Text} {start : Nat} {lineBreakOffsets : List Nat}

theorem bare_name_is_unmarked {stop : Nat} (order : start ≤ stop)
    (named : stop = skipWhile isPlainTextToolNameChar text start)
    (bracket : text[stop]? = some ']'.toNat) :
    startsWithAt text (units "tool:") start = false ∧
      isPrefixAt text (units "tool:") start = false := by
  have foreign : ∀ offset : Nat, (units "tool:")[offset]? ≠ some ']'.toNat := by
    intro offset there
    exact absurd (List.mem_of_getElem? there) (by decide)
  have offset : stop = start + (stop - start) := by omega
  constructor
  · apply Bool.eq_false_iff.mpr
    intro marked
    cases Nat.lt_or_ge (stop - start) (units "tool:").length with
    | inl within =>
      have same := getElem?_of_startsWithAt marked within
      rw [← offset, bracket] at same
      exact foreign _ same.symm
    | inr beyond =>
      have colon : text[start + 4]? = some ':'.toNat :=
        getElem?_of_startsWithAt marked (by decide)
      have size : (units "tool:").length = 5 := by decide
      have passed := @skipWhile_holds _ isPlainTextToolNameChar text start (start + 4) _ (by omega) (by omega) colon
      exact absurd passed (by decide)
  · apply Bool.eq_false_iff.mpr
    intro begun
    rw [offset] at bracket
    exact foreign _ (getElem?_of_isPrefixAt begun bracket)

theorem scanPlainTextJsonToolCall_waits {name : Span} (opens : text[start]? = some '['.toNat)
    (first : name.start = start + 1)
    (last : name.stop = skipWhileUpTo 121 isPlainTextToolNameChar text (start + 1))
    (short : name.stop ≤ name.start + 120) (nonempty : name.start ≠ name.stop)
    (bracket : text[name.stop]? = some ']'.toNat)
    (blank : skipHorizontalWhitespace text (name.stop + 1) = text.length) :
    scanPlainTextJsonToolCall text start lineBreakOffsets =
      .unfinished (some { form := .namedBracket, name, nameComplete := true }) := by
  have read : name.stop = skipWhile isPlainTextToolNameChar text (start + 1) := by
    rw [skipWhileUpTo_eq] at last
    omega
  have order : start + 1 ≤ name.stop := by
    rw [read]
    exact le_skipWhile
  have inside := (List.getElem?_eq_some_iff.mp bracket).1
  obtain ⟨absent, unbegun⟩ := bare_name_is_unmarked order read bracket
  have nameEnd : scanToolNameEnd text (start + 1) = some name.stop := by
    rw [scanToolNameEnd, ← read, if_neg]
    rw [MAX_PLAIN_TEXT_TOOL_NAME_CHARS]
    omega
  have span : (⟨start + 1, name.stop⟩ : Span) = name := by rw [← first]
  have named : ¬(start + 1 = name.stop ∨ text[name.stop]? ≠ some ']'.toNat) := by
    rw [← first, bracket]
    exact fun empty => empty.elim nonempty (fun other => other rfl)
  rw [scanPlainTextJsonToolCall, if_pos opens, scanBracketOpening, absent, unbegun,
    if_neg Bool.false_ne_true, if_neg Bool.false_ne_true, scanBracketName, nameEnd]
  dsimp only
  rw [if_neg (Nat.ne_of_lt inside), if_neg named, if_pos rfl, scanBracketLine, if_pos blank, span]
  rfl

end Waiting

/-- What the JSON grammar makes of a bare name whose line is still open. -/
def AwaitsLineBreak (text : Text) (start : Nat) (lineBreakOffsets : List Nat) (name : Span) : Prop :=
  scanPlainTextJsonToolCall text start lineBreakOffsets =
    .unfinished (some { form := .namedBracket, name, nameComplete := true })

theorem scanXmlishOpening_grows {text more : Text} {start : Nat} {lineBreakOffsets : List Nat}
    (inside : start < text.length) :
    XmlishOpening.Grows text (AwaitsLineBreak text start lineBreakOffsets)
      (scanXmlishOpening text start lineBreakOffsets)
      (scanXmlishOpening (text ++ more) start lineBreakOffsets) := by
  rw [scanXmlishOpening, scanXmlishOpening, List.getElem?_append_left inside]
  split
  · exact scanFunctionOpening_grows (Nat.le_of_lt inside)
  · split
    · rename_i opens
      exact scanXmlishBracketOpening_grows inside (fun _ first last short nonempty bracket blank =>
          scanPlainTextJsonToolCall_waits opens first last short nonempty bracket blank)
    · exact .of_invalid

section Body

variable {text more : Text}

theorem scanXmlishParameter_bound {body next : XmlishBody} {markerStart stop : Nat}
    (read : scanXmlishParameter text body markerStart = .ok (next, stop)) :
    next.name = body.name ∧ markerStart < stop ∧ stop ≤ text.length := by
  simp only [scanXmlishParameter] at read
  split at read
  · cases read
  · split at read
    · cases read
    · split at read
      · cases read
      · cases found : indexOfAsciiMarkerIgnoreCase text PARAMETER_CLOSE
            (skipWhileUpTo 121 isXmlishNameChar text (markerStart + PARAMETER_OPEN.length) + 1) with
        | none => rw [found] at read; cases read
        | some closeStart =>
          rw [found] at read
          cases read
          have bound := (@indexOfAsciiMarker_append text [] _ _ _ (by decide) found).2
          have least := @le_skipWhileUpTo _ isXmlishNameChar text (markerStart + PARAMETER_OPEN.length) 121
          exact ⟨rfl, by omega, bound.2⟩

theorem scanXmlishParameter_append {body : XmlishBody} {markerStart : Nat}
    (inside : markerStart + PARAMETER_OPEN.length ≤ text.length)
    (decided : ∀ candidate completeEnd,
      scanXmlishParameter text body markerStart ≠ .error (.unfinished candidate completeEnd)) :
    scanXmlishParameter (text ++ more) body markerStart = scanXmlishParameter text body markerStart := by
  have within : skipWhileUpTo 121 isXmlishNameChar text (markerStart + PARAMETER_OPEN.length) ≤
      text.length := skipWhileUpTo_le inside
  cases Nat.lt_or_ge (skipWhileUpTo 121 isXmlishNameChar text (markerStart + PARAMETER_OPEN.length)) text.length with
  | inl stopped =>
    have early : ¬skipWhileUpTo 121 isXmlishNameChar text (markerStart + PARAMETER_OPEN.length) =
        text.length := Nat.ne_of_lt stopped
    have earlier : ¬skipWhileUpTo 121 isXmlishNameChar text
        (markerStart + PARAMETER_OPEN.length) = (text ++ more).length := by
      rw [List.length_append]
      omega
    rw [scanXmlishParameter, scanXmlishParameter, skipWhileUpTo_append inside stopped,
      List.getElem?_append_left stopped]
    rw [scanXmlishParameter] at decided
    simp only [early, earlier, if_false] at decided ⊢
    split
    · rfl
    · rename_i short
      rw [if_neg short] at decided
      split
      · rfl
      · rename_i named
        rw [if_neg named] at decided
        cases found : indexOfAsciiMarkerIgnoreCase text PARAMETER_CLOSE
            (skipWhileUpTo 121 isXmlishNameChar text (markerStart + PARAMETER_OPEN.length) + 1) with
        | none =>
          rw [found] at decided
          exact absurd rfl (decided _ _)
        | some closeStart =>
          rw [(@indexOfAsciiMarker_append text more _ _ _ (by decide) found).1]
  | inr ended =>
    have atEnd := Nat.le_antisymm within ended
    cases Nat.lt_or_ge 120 (skipWhileUpTo 121 isXmlishNameChar text
        (markerStart + PARAMETER_OPEN.length) - (markerStart + PARAMETER_OPEN.length)) with
    | inl tooLong =>
      rw [scanXmlishParameter, upTo_cut inside (by omega), if_pos tooLong, scanXmlishParameter, if_pos tooLong]
    | inr short =>
      rw [scanXmlishParameter, if_neg (Nat.not_lt_of_le short), if_pos atEnd] at decided
      exact absurd rfl (decided _ _)

theorem scanXmlishParameter_error {body : XmlishBody} {markerStart : Nat}
    {scan : XmlishToolCallScan}
    (read : scanXmlishParameter text body markerStart = .error scan) :
    ∃ payload, scan.value = some ⟨body.name, true, payload⟩ := by
  simp only [scanXmlishParameter] at read
  split at read
  · cases read
    exact ⟨_, rfl⟩
  · split at read
    · cases read
      exact ⟨_, rfl⟩
    · split at read
      · cases read
        exact ⟨_, rfl⟩
      · split at read
        · cases read
          exact ⟨_, rfl⟩
        · cases read

theorem scanXmlishTurn_bound {body next : XmlishBody} {cursor stop : Nat}
    (turned : scanXmlishTurn text body cursor = .ok (next, stop)) :
    next.name = body.name ∧ cursor < stop ∧ stop ≤ text.length := by
  have least : cursor ≤ skipWhitespace text cursor := le_skipWhile
  simp only [scanXmlishTurn] at turned
  split at turned
  · cases turned
  · split at turned
    · cases turned
    · split at turned
      · cases turned
      · split at turned
        · have bound := scanXmlishParameter_bound turned
          exact ⟨bound.1, by omega, bound.2.2⟩
        · split at turned <;> cases turned

theorem scanXmlishTurn_value {body : XmlishBody} {cursor : Nat} {scan : XmlishToolCallScan}
    (ended : scanXmlishTurn text body cursor = .error scan) :
    ∃ payload, scan.value = some ⟨body.name, true, payload⟩ := by
  simp only [scanXmlishTurn] at ended
  split at ended
  · cases ended
    split <;> exact ⟨_, rfl⟩
  · split at ended
    · cases ended
      split <;> exact ⟨_, rfl⟩
    · split at ended
      · cases ended
        exact ⟨_, rfl⟩
      · split at ended
        · exact scanXmlishParameter_error ended
        · split at ended
          · cases ended
            exact ⟨_, rfl⟩
          · cases ended
            split <;> exact ⟨_, rfl⟩

theorem scanXmlishTurn_append {body : XmlishBody} {cursor : Nat} (inside : cursor ≤ text.length)
    (decided : (∃ next, scanXmlishTurn text body cursor = .ok next) ∨
      ∃ at_ candidate, scanXmlishTurn text body cursor = .error (.invalid at_ candidate)) :
    scanXmlishTurn (text ++ more) body cursor = scanXmlishTurn text body cursor := by
  have open_ : ∀ scan, scanXmlishTurn text body cursor = .error scan →
      ∃ at_ candidate, scan = .invalid at_ candidate := by
    intro scan ended
    rcases decided with ⟨next, turned⟩ | ⟨at_, candidate, malformed⟩
    · rw [turned] at ended
      cases ended
    · rw [malformed] at ended
      cases ended
      exact ⟨at_, candidate, rfl⟩
  have within : skipWhitespace text cursor ≤ text.length := skipWhile_le inside
  rw [scanXmlishTurn] at open_
  cases Nat.lt_or_ge (skipWhitespace text cursor) text.length with
  | inr ended =>
    rw [if_pos (Nat.le_antisymm within ended)] at open_
    obtain ⟨at_, candidate, same⟩ := open_ _ rfl
    split at same <;> cases same
  | inl stopped =>
    have same : skipWhitespace (text ++ more) cursor = skipWhitespace text cursor :=
      skipWhile_append stopped
    have early : ¬skipWhitespace text cursor = text.length := Nat.ne_of_lt stopped
    have earlier : ¬skipWhitespace text cursor = (text ++ more).length := by
      rw [List.length_append]
      omega
    rw [if_neg early] at open_
    rw [scanXmlishTurn, same, if_neg earlier, scanXmlishTurn, if_neg early]
    rcases @asciiMarker_cases text more FUNCTION_CLOSE _ within (by decide) with
      ⟨there, later, _⟩ | ⟨absent, begun⟩ | ⟨absent, unbegun, absentLater, unbegunLater⟩
    · rw [there, later]
      rfl
    · rw [absent, begun] at open_
      obtain ⟨at_, candidate, same⟩ := open_ _ rfl
      cases same
    · rw [absent, unbegun, if_neg Bool.false_ne_true, if_neg Bool.false_ne_true] at open_
      rw [absent, unbegun, absentLater, unbegunLater]
      rcases @asciiMarker_cases text more PARAMETER_OPEN _ within (by decide) with
        ⟨there, later, bound⟩ | ⟨absent, begun⟩ | ⟨absent, unbegun, absentLater, unbegunLater⟩
      · rw [there, if_pos rfl] at open_
        rw [there, later]
        apply scanXmlishParameter_append bound
        intro candidate completeEnd unfinished
        obtain ⟨at_, candidate, same⟩ := open_ _ unfinished
        cases same
      · rw [absent, begun] at open_
        obtain ⟨at_, candidate, same⟩ := open_ _ rfl
        cases same
      · rw [absent, unbegun, absentLater, unbegunLater]
        rfl

theorem scanXmlishBody_value (turns : Nat) (body : XmlishBody) (cursor : Nat) :
    ∃ payload, (scanXmlishBody text turns body cursor).value = some ⟨body.name, true, payload⟩ := by
  induction turns generalizing body cursor with
  | zero => exact ⟨_, rfl⟩
  | succ turns ih =>
    rw [scanXmlishBody]
    cases turned : scanXmlishTurn text body cursor with
    | error scan => exact scanXmlishTurn_value turned
    | ok next =>
      rw [← (scanXmlishTurn_bound turned).1]
      exact ih next.1 next.2

theorem scanXmlishBody_invalid {turns turns' cursor at_ : Nat} {body : XmlishBody}
    {candidate : Option XmlishToolCallCandidate} (inside : cursor ≤ text.length)
    (enough : text.length < cursor + turns) (enoughLater : (text ++ more).length < cursor + turns')
    (malformed : scanXmlishBody text turns body cursor = .invalid at_ candidate) :
    scanXmlishBody (text ++ more) turns' body cursor = .invalid at_ candidate := by
  induction turns generalizing turns' cursor body with
  | zero => omega
  | succ turns ih =>
    cases turns' with
    | zero =>
      rw [List.length_append] at enoughLater
      omega
    | succ turns' =>
      rw [scanXmlishBody] at malformed ⊢
      cases turned : scanXmlishTurn text body cursor with
      | error scan =>
        rw [turned] at malformed
        dsimp only at malformed
        rw [malformed] at turned
        rw [scanXmlishTurn_append inside (.inr ⟨at_, candidate, turned⟩), turned]
      | ok next =>
        have progress := scanXmlishTurn_bound turned
        rw [turned] at malformed
        rw [scanXmlishTurn_append inside (.inl ⟨next, turned⟩), turned]
        exact ih progress.2.2 (by omega) (by omega) malformed

end Body

/-- How the scan of a longer text relates to the scan of the text before. -/
structure XmlishGrows (text : Text) (waiting : Span → Prop) (before after : XmlishToolCallScan) :
    Prop where
  invalid : ∀ at_ candidate, before = .invalid at_ candidate → after = before ∨
    ∃ name, waiting name ∧ NameRetained text (some ⟨name, true, none⟩) after.value after.isUnfinished
  named : NameRetained text before.value after.value after.isUnfinished

theorem scanXmlishBody_blank {text : Text} {turns cursor at_ : Nat} {body : XmlishBody}
    {candidate : Option XmlishToolCallCandidate} (blank : skipWhitespace text cursor = text.length) :
    scanXmlishBody text (turns + 1) body cursor ≠ .invalid at_ candidate := by
  intro malformed
  rw [scanXmlishBody, scanXmlishTurn, if_pos blank] at malformed
  dsimp only at malformed
  split at malformed <;> cases malformed

theorem NameRetained.through_body {text longer : Text} {before : Option PlainTextToolCallScanCandidate}
    {form : XmlishSyntax} {name : Span} {cursor turns : Nat} {body : XmlishBody}
    (kept : NameRetained text before (XmlishOpening.opened form name cursor).value false)
    (sameName : body.name = name) :
    NameRetained text before (scanXmlishBody longer turns body cursor).value
      (scanXmlishBody longer turns body cursor).isUnfinished := by
  intro candidate known
  obtain ⟨payload, later⟩ := @scanXmlishBody_value longer turns body cursor
  cases kept candidate known with
  | inr dropped => cases dropped.1
  | inl still =>
    obtain ⟨named, opened, extended⟩ := still
    cases opened
    rw [sameName] at later
    exact .inl ⟨_, later, extended.start, extended.finished, extended.growing⟩

theorem scanXmlishToolCall_grows {text more : Text} {start : Nat} {lineBreakOffsets : List Nat}
    (inside : start < text.length) :
    XmlishGrows text (AwaitsLineBreak text start lineBreakOffsets) (scanXmlishToolCall text start lineBreakOffsets)
      (scanXmlishToolCall (text ++ more) start lineBreakOffsets) := by
  have grows := @scanXmlishOpening_grows text more start lineBreakOffsets inside
  rw [scanXmlishToolCall, scanXmlishToolCall]
  cases before : scanXmlishOpening text start lineBreakOffsets with
  | opened form name cursor =>
    obtain ⟨named, bound, cursor', later, still⟩ := grows.opened form name cursor before
    rw [later]
    dsimp only
    constructor
    · intro at_ candidate malformed
      left
      cases still with
      | inl same =>
        subst same
        rw [malformed]
        exact scanXmlishBody_invalid bound (by omega) (by omega) malformed
      | inr blank => exact absurd malformed (scanXmlishBody_blank blank)
    · obtain ⟨payload, known⟩ := @scanXmlishBody_value text (text.length + 1)
        { form, name, bodyStart := cursor } cursor
      obtain ⟨laterPayload, laterKnown⟩ := @scanXmlishBody_value (text ++ more)
        ((text ++ more).length + 1) { form, name, bodyStart := cursor' } cursor'
      rw [known, laterKnown]
      exact .of_finished rfl rfl named rfl
  | stopped scan =>
    rw [before] at grows
    have retained := grows.named
    cases after : scanXmlishOpening (text ++ more) start lineBreakOffsets with
    | stopped later =>
      rw [after] at grows retained
      constructor
      · intro at_ candidate malformed
        cases grows.invalid at_ candidate (congrArg _ malformed) with
        | inl same => exact .inl (XmlishOpening.stopped.inj same)
        | inr open_ => exact .inr open_
      · exact retained
    | opened form name cursor =>
      rw [after] at grows retained
      constructor
      · intro at_ candidate malformed
        cases grows.invalid at_ candidate (congrArg _ malformed) with
        | inl same => cases same
        | inr open_ =>
          obtain ⟨waits, awaited, kept⟩ := open_
          exact .inr ⟨waits, awaited, .through_body kept rfl⟩
      · exact .through_body retained rfl

end ToolCallRepair
