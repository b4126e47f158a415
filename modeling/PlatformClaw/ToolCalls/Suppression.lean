import PlatformClaw.Library.Feeding
import PlatformClaw.ToolCalls.Release

/-! # Suppressing the rest of a tagged call

A tagged call over the cap is not kept. What still arrives of it is read chunk by chunk up to its closing tag, and
only the beginning of a tag is carried over to the next chunk.
-/

namespace ToolCallRepair

open Scanning

def MAX_TOOL_NAME_CHARS : Nat := 120

/-- What one chunk of a tagged call comes to. -/
inductive XmlConsumption where
  | waits (carry : Text) (phase : XmlSuppressorPhase)
  /-- Behind the closing tag. -/
  | closes (stop : Nat)
  /-- Something that belongs to no call. -/
  | leaves (place : Nat)
  deriving Repr, DecidableEq

/-- A parameter tag: the loop goes on in the parameter's value. -/
def consumeXmlParameter (text : Text) (markerStart : Nat) : Except XmlConsumption Nat :=
  let nameStart := markerStart + XML_PARAMETER_OPEN.length
  match indexOf? text ['>'.toNat] nameStart with
  | none =>
    if text.length - markerStart ≤ XML_PARAMETER_OPEN.length + MAX_TOOL_NAME_CHARS then
      .error (.waits (text.drop markerStart) .body)
    else .error (.leaves markerStart)
  | some close =>
    let name := slice text nameStart close
    if name = [] ∨ MAX_TOOL_NAME_CHARS < name.length ∨ name.all isXmlishNameChar = false then
      .error (.leaves markerStart)
    else .ok (close + 1)

def consumeXmlBody (text : Text) (cursor : Nat) : Except XmlConsumption Nat :=
  let markerStart := skipWhitespace text cursor
  if markerStart = text.length then .error (.waits [] .body)
  else if startsWithAsciiMarkerIgnoreCase text markerStart XML_FUNCTION_CLOSE then
    .error (.closes (markerStart + XML_FUNCTION_CLOSE.length))
  else if isAsciiMarkerPrefixIgnoreCase text markerStart XML_FUNCTION_CLOSE ||
      isAsciiMarkerPrefixIgnoreCase text markerStart XML_PARAMETER_OPEN then
    .error (.waits (text.drop markerStart) .body)
  else if startsWithAsciiMarkerIgnoreCase text markerStart XML_PARAMETER_OPEN then
    consumeXmlParameter text markerStart
  else .error (.leaves markerStart)

/-- One turn of the loop of `consumeXmlSuppressor`. -/
def consumeXmlTurn (text : Text) (phase : XmlSuppressorPhase) (cursor : Nat) : Except XmlConsumption Nat :=
  match phase with
  | .body => consumeXmlBody text cursor
  | .parameter =>
    match indexOfAsciiMarkerIgnoreCase text XML_PARAMETER_CLOSE cursor with
    | none => .error (.waits (text.drop (text.length - (XML_PARAMETER_CLOSE.length - 1))) .parameter)
    | some close => consumeXmlBody text (close + XML_PARAMETER_CLOSE.length)

/-- The loop of `consumeXmlSuppressor`. Every turn passes a parameter tag, so the length of the text bounds their
number. -/
def consumeXmlLoop (text : Text) : Nat → XmlSuppressorPhase → Nat → XmlConsumption
  | 0, phase, _ => .waits [] phase
  | turns + 1, phase, cursor =>
    match consumeXmlTurn text phase cursor with
    | .error ended => ended
    | .ok next => consumeXmlLoop text turns .parameter next

/-- What is left of the text, once the call has ended in it. -/
def XmlConsumption.suffix (text : Text) : XmlConsumption → Option Text
  | .waits _ _ => none
  | .closes stop => some (text.drop (consumeRemovedLineEnd text stop))
  | .leaves place => some (text.drop place)

/-- The suppressor for the next chunk. -/
def XmlConsumption.suppressor : XmlConsumption → XmlSuppressor
  | .waits carry phase => ⟨carry, phase⟩
  | .closes _ | .leaves _ => ⟨[], .body⟩

def consumeXmlSuppressor (suppressor : XmlSuppressor) (chunk : Text) : Option Text × XmlSuppressor :=
  let text := suppressor.carry ++ chunk
  let consumption := consumeXmlLoop text (text.length + 1) suppressor.phase 0
  (consumption.suffix text, consumption.suppressor)

section Longer

variable {text more : Text} {cursor markerStart : Nat} {phase : XmlSuppressorPhase}

/-- What first shows up in the longer text reaches beyond the shorter one. -/
theorem indexOf?_later {literal : Text} {start found : Nat} (nonempty : literal ≠ [])
    (missing : indexOf? text literal start = none)
    (later : indexOf? (text ++ more) literal start = some found) :
    start ≤ found ∧ text.length < found + literal.length := by
  have size := List.length_pos_iff.mpr nonempty
  have there := List.find?_some later
  have place := List.mem_of_find?_eq_some later
  rw [List.mem_range'_1] at place
  refine ⟨place.1, Nat.lt_of_not_le fun inside => ?_⟩
  rw [startsWithAt_append inside] at there
  rw [indexOf?, List.find?_eq_none] at missing
  exact missing found (List.mem_range'_1.mpr ⟨place.1, by omega⟩) there

theorem not_begun_of_there {marker : Text} (there : startsWithAsciiMarkerIgnoreCase text markerStart marker = true) :
    isAsciiMarkerPrefixIgnoreCase text markerStart marker = false := by
  apply Bool.eq_false_iff.mpr
  intro begun
  have whole := (startsWithAt_iff.mp there).length_le
  have short := (isPrefixAt_iff.mp begun).1
  omega

theorem consumeXmlParameter_append (inside : markerStart + XML_PARAMETER_OPEN.length ≤ text.length)
    (decided : ∀ carry phase, consumeXmlParameter text markerStart ≠ .error (.waits carry phase)) :
    consumeXmlParameter (text ++ more) markerStart = consumeXmlParameter text markerStart := by
  unfold consumeXmlParameter at decided ⊢
  dsimp only at decided ⊢
  cases found : indexOf? text ['>'.toNat] (markerStart + XML_PARAMETER_OPEN.length) with
  | some close =>
    have bound := (indexOf?_bound found (List.cons_ne_nil _ _)).2
    rw [List.length_singleton] at bound
    rw [indexOf?_append found (List.cons_ne_nil _ _)]
    dsimp only
    rw [slice_append (Nat.le_of_succ_le bound)]
  | none =>
    rw [found] at decided
    dsimp only at decided
    have long : ¬text.length - markerStart ≤ XML_PARAMETER_OPEN.length + MAX_TOOL_NAME_CHARS := by
      intro short
      rw [if_pos short] at decided
      exact decided _ _ rfl
    rw [if_neg long]
    cases later : indexOf? (text ++ more) ['>'.toNat] (markerStart + XML_PARAMETER_OPEN.length) with
    | none =>
      dsimp only
      rw [if_neg]
      rw [List.length_append]
      omega
    | some close =>
      obtain ⟨-, reaches⟩ := indexOf?_later (List.cons_ne_nil _ _) found later
      have bound := (indexOf?_bound later (List.cons_ne_nil _ _)).2
      rw [List.length_singleton] at bound reaches
      -- A name that goes on to the end of the shorter text is too long already.
      have name : MAX_TOOL_NAME_CHARS <
          (slice (text ++ more) (markerStart + XML_PARAMETER_OPEN.length) close).length := by
        rw [slice, List.length_drop, List.length_take]
        omega
      dsimp only
      rw [if_pos (.inr (.inl name))]

theorem consumeXmlBody_append (inside : cursor ≤ text.length)
    (decided : ∀ carry phase, consumeXmlBody text cursor ≠ .error (.waits carry phase)) :
    consumeXmlBody (text ++ more) cursor = consumeXmlBody text cursor := by
  have least : cursor ≤ skipWhitespace text cursor := le_skipWhile
  have within : skipWhitespace text cursor ≤ text.length := skipWhile_le inside
  unfold consumeXmlBody at decided ⊢
  dsimp only at decided ⊢
  by_cases ended : skipWhitespace text cursor = text.length
  · rw [if_pos ended] at decided
    exact absurd rfl (decided _ _)
  · have stays : skipWhitespace (text ++ more) cursor = skipWhitespace text cursor :=
      skipWhile_append (by unfold skipWhitespace at within ended; omega)
    have early : ¬skipWhitespace text cursor = (text ++ more).length := by
      rw [List.length_append]
      omega
    rw [if_neg ended] at decided
    rw [stays, if_neg ended, if_neg early]
    obtain ⟨there, later, -⟩ | ⟨absent, begun⟩ | ⟨absent, unbegun, absentLater, unbegunLater⟩ :=
      @asciiMarker_cases text more XML_FUNCTION_CLOSE _ within (by decide)
    · rw [there, later]
      rfl
    · rw [absent, begun] at decided
      exact absurd rfl (decided _ _)
    · rw [absent, unbegun] at decided
      rw [absent, unbegun, absentLater, unbegunLater]
      obtain ⟨opens, opensLater, bound⟩ | ⟨missing, opening⟩ | ⟨missing, unopened, missingLater, unopenedLater⟩ :=
        @asciiMarker_cases text more XML_PARAMETER_OPEN _ within (by decide)
      · rw [not_begun_of_there opens, opens] at decided
        rw [not_begun_of_there opens, not_begun_of_there opensLater, opens, opensLater]
        exact consumeXmlParameter_append bound decided
      · rw [opening] at decided
        exact absurd rfl (decided _ _)
      · rw [missing, unopened, missingLater, unopenedLater]
        rfl

theorem consumeXmlTurn_append (inside : cursor ≤ text.length)
    (decided : ∀ carry phase', consumeXmlTurn text phase cursor ≠ .error (.waits carry phase')) :
    consumeXmlTurn (text ++ more) phase cursor = consumeXmlTurn text phase cursor := by
  cases phase with
  | body => exact consumeXmlBody_append inside decided
  | parameter =>
    unfold consumeXmlTurn at decided ⊢
    dsimp only at decided ⊢
    cases found : indexOfAsciiMarkerIgnoreCase text XML_PARAMETER_CLOSE cursor with
    | none =>
      rw [found] at decided
      exact absurd rfl (decided _ _)
    | some close =>
      rw [found] at decided
      obtain ⟨again, -, bound⟩ := @indexOfAsciiMarker_append text more _ _ _ (by decide) found
      rw [again]
      exact consumeXmlBody_append bound decided

theorem consumeXmlBody_ok {next : Nat} (turned : consumeXmlBody text cursor = .ok next) :
    cursor < next ∧ next ≤ text.length ∧ text[next - 1]? = some '>'.toNat := by
  have least : cursor ≤ skipWhitespace text cursor := le_skipWhile
  unfold consumeXmlBody at turned
  dsimp only at turned
  split at turned
  · cases turned
  · split at turned
    · cases turned
    · split at turned
      · cases turned
      · split at turned
        · unfold consumeXmlParameter at turned
          dsimp only at turned
          split at turned
          · split at turned <;> cases turned
          · rename_i close found
            split at turned
            · cases turned
            · cases turned
              have bound := indexOf?_bound found (List.cons_ne_nil _ _)
              rw [List.length_singleton] at bound
              have there := @getElem?_of_startsWithAt _ _ _ _ _ (List.find?_some found) 0 (by decide)
              exact ⟨by omega, bound.2, there⟩
        · cases turned

theorem consumeXmlTurn_ok {next : Nat} (turned : consumeXmlTurn text phase cursor = .ok next) :
    cursor < next ∧ next ≤ text.length ∧ text[next - 1]? = some '>'.toNat := by
  cases phase with
  | body => exact consumeXmlBody_ok turned
  | parameter =>
    unfold consumeXmlTurn at turned
    dsimp only at turned
    split at turned
    · cases turned
    · rename_i close found
      obtain ⟨-, order, -⟩ := @indexOfAsciiMarker_append text [] _ _ _ (by decide) found
      obtain ⟨forward, bound, tag⟩ := consumeXmlBody_ok turned
      exact ⟨by omega, bound, tag⟩

theorem consumeXmlLoop_turns {turns turns' : Nat} (enough : text.length < cursor + turns)
    (enough' : text.length < cursor + turns') (inside : cursor ≤ text.length) :
    consumeXmlLoop text turns phase cursor = consumeXmlLoop text turns' phase cursor := by
  induction turns generalizing turns' phase cursor with
  | zero => omega
  | succ turns ih =>
    cases turns' with
    | zero => omega
    | succ turns' =>
      rw [consumeXmlLoop, consumeXmlLoop]
      cases turned : consumeXmlTurn text phase cursor with
      | error _ => rfl
      | ok next =>
        obtain ⟨forward, bound, -⟩ := consumeXmlTurn_ok turned
        exact ih (by omega) (by omega) bound

theorem consumeXmlLoop_append {turns turns' : Nat} {ended : XmlConsumption} (inside : cursor ≤ text.length)
    (enough : (text ++ more).length < cursor + turns') (consumed : consumeXmlLoop text turns phase cursor = ended)
    (decided : ∀ carry phase', ended ≠ .waits carry phase') :
    consumeXmlLoop (text ++ more) turns' phase cursor = ended := by
  induction turns generalizing turns' phase cursor with
  | zero => exact absurd consumed.symm (decided _ _)
  | succ turns ih =>
    cases turns' with
    | zero =>
      rw [List.length_append] at enough
      omega
    | succ turns' =>
      rw [consumeXmlLoop] at consumed ⊢
      have same : consumeXmlTurn (text ++ more) phase cursor = consumeXmlTurn text phase cursor := by
        apply consumeXmlTurn_append inside
        intro carry phase' waited
        rw [waited] at consumed
        exact decided carry phase' consumed.symm
      rw [same]
      cases turned : consumeXmlTurn text phase cursor with
      | error _ =>
        rw [turned] at consumed
        exact consumed
      | ok next =>
        rw [turned] at consumed
        obtain ⟨forward, bound, -⟩ := consumeXmlTurn_ok turned
        exact ih bound (by omega) consumed

theorem consumeXmlBody_leaves {place : Nat} (inside : cursor ≤ text.length)
    (left : consumeXmlBody text cursor = .error (.leaves place)) : place ≤ text.length := by
  have within : skipWhitespace text cursor ≤ text.length := skipWhile_le inside
  unfold consumeXmlBody consumeXmlParameter at left
  dsimp only at left
  repeat' split at left
  all_goals cases left
  all_goals exact within

theorem consumeXmlLoop_leaves {turns place : Nat} (inside : cursor ≤ text.length)
    (left : consumeXmlLoop text turns phase cursor = .leaves place) : place ≤ text.length := by
  induction turns generalizing phase cursor with
  | zero => cases left
  | succ turns ih =>
    rw [consumeXmlLoop] at left
    cases turned : consumeXmlTurn text phase cursor with
    | ok next =>
      rw [turned] at left
      exact ih (consumeXmlTurn_ok turned).2.1 left
    | error ended =>
      rw [turned] at left
      cases left
      cases phase with
      | body => exact consumeXmlBody_leaves inside turned
      | parameter =>
        unfold consumeXmlTurn at turned
        dsimp only at turned
        split at turned
        · cases turned
        · rename_i close found
          exact consumeXmlBody_leaves (@indexOfAsciiMarker_append text [] _ _ _ (by decide) found).2.2 turned

theorem skipWhile_again {p : Nat → Bool} {start : Nat} (stopped : skipWhile p text start < text.length) :
    skipWhile p text (skipWhile p text start) = skipWhile p text start := by
  apply Nat.le_antisymm _ le_skipWhile
  apply Nat.le_of_not_lt
  intro goesOn
  have there : text[skipWhile p text start]? = some text[skipWhile p text start] := List.getElem?_eq_getElem stopped
  have passed := skipWhile_holds (Nat.le_refl _) goesOn there
  rw [skipWhile_stops there] at passed
  cases passed

theorem consumeXmlBody_congr {place : Nat} (same : skipWhitespace text cursor = skipWhitespace text place) :
    consumeXmlBody text cursor = consumeXmlBody text place := by
  unfold consumeXmlBody
  rw [same]

theorem consumeXmlParameter_waits {carry : Text} {phase' : XmlSuppressorPhase}
    (waited : consumeXmlParameter text markerStart = .error (.waits carry phase')) :
    carry = text.drop markerStart ∧ phase' = .body := by
  unfold consumeXmlParameter at waited
  dsimp only at waited
  split at waited
  · split at waited
    · cases waited
      exact ⟨rfl, rfl⟩
    · cases waited
  · split at waited <;> cases waited

theorem consumeXmlBody_waits {carry : Text} {phase' : XmlSuppressorPhase} (inside : cursor ≤ text.length)
    (waited : consumeXmlBody text cursor = .error (.waits carry phase')) :
    phase' = .body ∧ ∃ place ≤ text.length, carry = text.drop place ∧
      ∀ more, consumeXmlBody (text ++ more) cursor = consumeXmlBody (text ++ more) place := by
  have within : skipWhitespace text cursor ≤ text.length := skipWhile_le inside
  by_cases ended : skipWhitespace text cursor = text.length
  · unfold consumeXmlBody at waited
    rw [if_pos ended] at waited
    cases waited
    refine ⟨rfl, text.length, Nat.le_refl _, by simp, fun more => ?_⟩
    exact consumeXmlBody_congr (skipWhile_append_of_end inside ended)
  · have stopped : skipWhitespace text cursor < text.length := by omega
    have again : ∀ more, skipWhitespace (text ++ more) cursor =
        skipWhitespace (text ++ more) (skipWhitespace text cursor) := by
      intro more
      have stays : skipWhitespace (text ++ more) cursor = skipWhitespace text cursor := skipWhile_append stopped
      have later : skipWhitespace (text ++ more) cursor < (text ++ more).length := by
        rw [stays, List.length_append]
        omega
      have twice : skipWhitespace (text ++ more) (skipWhitespace (text ++ more) cursor) =
          skipWhitespace (text ++ more) cursor := skipWhile_again later
      rw [stays] at twice
      rw [twice, stays]
    have carried : carry = text.drop (skipWhitespace text cursor) ∧ phase' = .body := by
      unfold consumeXmlBody at waited
      rw [if_neg ended] at waited
      split at waited
      · cases waited
      · split at waited
        · cases waited
          exact ⟨rfl, rfl⟩
        · split at waited
          · exact consumeXmlParameter_waits waited
          · cases waited
    exact ⟨carried.2, _, within, carried.1, fun more => consumeXmlBody_congr (again more)⟩

/-- Places at which the literal does not stand may be passed over. -/
theorem indexOf?_skip {literal : Text} {start later : Nat} (order : start ≤ later) (inside : later ≤ text.length)
    (absent : ∀ place, start ≤ place → place < later → startsWithAt text literal place = false) :
    indexOf? text literal start = indexOf? text literal later := by
  have places : List.range' start (text.length - start) =
      List.range' start (later - start) ++ List.range' later (text.length - later) := by
    have joined := @List.range'_append_1 start (later - start) (text.length - later)
    rw [Nat.add_sub_cancel' order] at joined
    rw [joined]
    congr 1
    omega
  have none_ : (List.range' start (later - start)).find? (startsWithAt text literal) = none := by
    rw [List.find?_eq_none]
    intro place known
    rw [List.mem_range'_1] at known
    rw [absent place known.1 (by omega)]
    exact Bool.false_ne_true
  rw [indexOf?, places, List.find?_append, none_, Option.none_or, indexOf?]

theorem closing_mark_last : ∀ offset < XML_PARAMETER_CLOSE.length - 1,
    XML_PARAMETER_CLOSE[offset]? ≠ some '>'.toNat := by
  decide

/-- A closing tag of a parameter is found from what is carried over as from the cursor: one that lay before what is
carried over would have been found, and one that lay before the cursor would hold the mark in front of it. -/
theorem indexOf_parameter_close (missing : indexOfAsciiMarkerIgnoreCase text XML_PARAMETER_CLOSE cursor = none)
    (inside : cursor ≤ text.length) (tag : cursor = 0 ∨ text[cursor - 1]? = some '>'.toNat) (more : Text) :
    indexOfAsciiMarkerIgnoreCase (text ++ more) XML_PARAMETER_CLOSE cursor =
      indexOfAsciiMarkerIgnoreCase (text ++ more) XML_PARAMETER_CLOSE
        (text.length - (XML_PARAMETER_CLOSE.length - 1)) := by
  have size : XML_PARAMETER_CLOSE.length = 12 := by decide
  have length : ((text ++ more).map asciiLower).length = text.length + more.length := by
    rw [List.length_map, List.length_append]
  unfold indexOfAsciiMarkerIgnoreCase at missing ⊢
  obtain order | order := Nat.le_total cursor (text.length - (XML_PARAMETER_CLOSE.length - 1))
  · apply indexOf?_skip order (by omega)
    intro place from_ before
    apply Bool.eq_false_iff.mpr
    intro there
    rw [List.map_append, startsWithAt_append (by rw [List.length_map]; omega)] at there
    rw [indexOf?, List.find?_eq_none] at missing
    refine missing place (List.mem_range'_1.mpr ⟨from_, ?_⟩) there
    rw [List.length_map]
    omega
  · symm
    apply indexOf?_skip order (by omega)
    intro place from_ before
    apply Bool.eq_false_iff.mpr
    intro there
    have mark : text[cursor - 1]? = some '>'.toNat := by
      obtain first | mark := tag
      · omega
      · exact mark
    have spelled := @getElem?_of_startsWithAt _ _ _ _ _ there (cursor - 1 - place) (by omega)
    have here : place + (cursor - 1 - place) = cursor - 1 := by omega
    rw [here, List.getElem?_map, List.getElem?_append_left (by omega), mark] at spelled
    exact closing_mark_last (cursor - 1 - place) (by omega) spelled.symm

theorem consumeXmlTurn_waits {carry : Text} {phase' : XmlSuppressorPhase} (inside : cursor ≤ text.length)
    (tag : cursor = 0 ∨ text[cursor - 1]? = some '>'.toNat)
    (waited : consumeXmlTurn text phase cursor = .error (.waits carry phase')) :
    ∃ place ≤ text.length, carry = text.drop place ∧
      ∀ more, consumeXmlTurn (text ++ more) phase cursor = consumeXmlTurn (text ++ more) phase' place := by
  cases phase with
  | body =>
    obtain ⟨rfl, place, bound, carried, same⟩ := consumeXmlBody_waits inside waited
    exact ⟨place, bound, carried, same⟩
  | parameter =>
    unfold consumeXmlTurn at waited
    dsimp only at waited
    cases found : indexOfAsciiMarkerIgnoreCase text XML_PARAMETER_CLOSE cursor with
    | none =>
      rw [found] at waited
      cases waited
      refine ⟨_, Nat.sub_le _ _, rfl, fun more => ?_⟩
      unfold consumeXmlTurn
      rw [indexOf_parameter_close found inside tag more]
    | some close =>
      rw [found] at waited
      obtain ⟨-, order, bound⟩ := @indexOfAsciiMarker_append text [] _ _ _ (by decide) found
      obtain ⟨rfl, place, within, carried, same⟩ := consumeXmlBody_waits bound waited
      refine ⟨place, within, carried, fun more => ?_⟩
      unfold consumeXmlTurn
      rw [(@indexOfAsciiMarker_append text more _ _ _ (by decide) found).1]
      exact same more

theorem consumeXmlLoop_waits {turns : Nat} {carry : Text} {phase' : XmlSuppressorPhase} (inside : cursor ≤ text.length)
    (enough : text.length < cursor + turns) (tag : cursor = 0 ∨ text[cursor - 1]? = some '>'.toNat)
    (waited : consumeXmlLoop text turns phase cursor = .waits carry phase') :
    ∃ place ≤ text.length, carry = text.drop place ∧
      ∀ more turns' turns'', (text ++ more).length < cursor + turns' → (text ++ more).length < place + turns'' →
        consumeXmlLoop (text ++ more) turns' phase cursor = consumeXmlLoop (text ++ more) turns'' phase' place := by
  induction turns generalizing phase cursor with
  | zero => omega
  | succ turns ih =>
    rw [consumeXmlLoop] at waited
    cases turned : consumeXmlTurn text phase cursor with
    | error ended =>
      rw [turned] at waited
      cases waited
      obtain ⟨place, bound, carried, same⟩ := consumeXmlTurn_waits inside tag turned
      refine ⟨place, bound, carried, fun more turns' turns'' many many' => ?_⟩
      rw [List.length_append] at many many'
      obtain ⟨fewer, rfl⟩ := Nat.exists_eq_succ_of_ne_zero (show turns' ≠ 0 by omega)
      obtain ⟨fewer', rfl⟩ := Nat.exists_eq_succ_of_ne_zero (show turns'' ≠ 0 by omega)
      rw [consumeXmlLoop, consumeXmlLoop, same more]
      cases goesOn : consumeXmlTurn (text ++ more) phase' place with
      | error _ => rfl
      | ok next =>
        obtain ⟨forward, reached, -⟩ := consumeXmlTurn_ok goesOn
        obtain ⟨forward', -⟩ := consumeXmlTurn_ok ((same more).trans goesOn)
        apply consumeXmlLoop_turns _ _ reached
        · rw [List.length_append]
          omega
        · rw [List.length_append]
          omega
    | ok next =>
      rw [turned] at waited
      obtain ⟨forward, bound, mark⟩ := consumeXmlTurn_ok turned
      obtain ⟨place, within, carried, same⟩ := ih bound (by omega) (.inr mark) waited
      refine ⟨place, within, carried, fun more turns' turns'' many many' => ?_⟩
      have again : consumeXmlTurn (text ++ more) phase cursor = .ok next := by
        rw [← turned]
        apply consumeXmlTurn_append inside
        intro _ _ waits
        rw [turned] at waits
        cases waits
      cases turns' with
      | zero =>
        rw [List.length_append] at many
        omega
      | succ turns' =>
        rw [consumeXmlLoop, again]
        exact same more turns' turns'' (by omega) many'

end Longer

section Ahead

variable {ahead text : Text} {cursor markerStart : Nat} {phase : XmlSuppressorPhase}

def XmlConsumption.shift (offset : Nat) : XmlConsumption → XmlConsumption
  | .waits carry phase => .waits carry phase
  | .closes stop => .closes (offset + stop)
  | .leaves place => .leaves (offset + place)

def shiftConsumed (offset : Nat) : Except XmlConsumption Nat → Except XmlConsumption Nat
  | .error ended => .error (ended.shift offset)
  | .ok next => .ok (offset + next)

theorem consumeXmlParameter_ahead : consumeXmlParameter (ahead ++ text) (ahead.length + markerStart) =
      shiftConsumed ahead.length (consumeXmlParameter text markerStart) := by
  unfold consumeXmlParameter
  dsimp only
  rw [Nat.add_assoc, indexOf?_ahead, List.length_append, Nat.add_sub_add_left, drop_ahead]
  cases indexOf? text ['>'.toNat] (markerStart + XML_PARAMETER_OPEN.length) with
  | none =>
    dsimp only [Option.map_none]
    split <;> rfl
  | some close =>
    dsimp only [Option.map_some]
    rw [slice_ahead]
    split <;> rfl

theorem consumeXmlBody_ahead : consumeXmlBody (ahead ++ text) (ahead.length + cursor) =
      shiftConsumed ahead.length (consumeXmlBody text cursor) := by
  unfold consumeXmlBody
  dsimp only
  rw [skipWhitespace_ahead, List.length_append, startsWithAsciiMarkerIgnoreCase_ahead,
    startsWithAsciiMarkerIgnoreCase_ahead, isAsciiMarkerPrefixIgnoreCase_ahead, isAsciiMarkerPrefixIgnoreCase_ahead,
    drop_ahead, consumeXmlParameter_ahead]
  simp only [Nat.add_left_cancel_iff, Nat.add_assoc]
  split
  · rfl
  · split
    · rfl
    · split
      · rfl
      · split <;> rfl

theorem consumeXmlTurn_ahead : consumeXmlTurn (ahead ++ text) phase (ahead.length + cursor) =
        shiftConsumed ahead.length (consumeXmlTurn text phase cursor) ∨
      ∃ carry carry', consumeXmlTurn (ahead ++ text) phase (ahead.length + cursor) = .error (.waits carry .parameter) ∧
        consumeXmlTurn text phase cursor = .error (.waits carry' .parameter) := by
  cases phase with
  | body => exact .inl consumeXmlBody_ahead
  | parameter =>
    unfold consumeXmlTurn
    dsimp only
    rw [indexOfAsciiMarkerIgnoreCase_ahead]
    cases indexOfAsciiMarkerIgnoreCase text XML_PARAMETER_CLOSE cursor with
    | none => exact .inr ⟨_, _, rfl, rfl⟩
    | some close =>
      dsimp only [Option.map_some]
      rw [Nat.add_assoc]
      exact .inl consumeXmlBody_ahead

theorem XmlConsumption.suffix_shift (ended : XmlConsumption) :
    (ended.shift ahead.length).suffix (ahead ++ text) = ended.suffix text := by
  cases ended with
  | waits => rfl
  | closes stop => exact congrArg some (by rw [consumeRemovedLineEnd_ahead, drop_ahead])
  | leaves place => exact congrArg some drop_ahead

theorem consumeXmlLoop_ahead (turns : Nat) :
    (consumeXmlLoop (ahead ++ text) turns phase (ahead.length + cursor)).suffix (ahead ++ text) =
      (consumeXmlLoop text turns phase cursor).suffix text := by
  induction turns generalizing phase cursor with
  | zero => rfl
  | succ turns ih =>
    rw [consumeXmlLoop, consumeXmlLoop]
    obtain moved | ⟨carry, carry', waits, waits'⟩ := @consumeXmlTurn_ahead ahead text cursor phase
    · rw [moved]
      cases consumeXmlTurn text phase cursor with
      | error ended => exact ended.suffix_shift
      | ok next => exact ih
    · rw [waits, waits']
      rfl

end Ahead

theorem consumeXmlSuppressor_waits {suppressor next : XmlSuppressor} {chunk : Text}
    (waited : consumeXmlSuppressor suppressor chunk = (none, next)) (more : Text) :
    (consumeXmlSuppressor next more).1 = (consumeXmlSuppressor suppressor (chunk ++ more)).1 := by
  unfold consumeXmlSuppressor at waited ⊢
  dsimp only at waited ⊢
  cases consumed : consumeXmlLoop (suppressor.carry ++ chunk) ((suppressor.carry ++ chunk).length + 1)
      suppressor.phase 0 with
  | closes stop =>
    rw [consumed] at waited
    cases waited
  | leaves place =>
    rw [consumed] at waited
    cases waited
  | waits carry phase =>
    rw [consumed] at waited
    cases waited
    obtain ⟨place, bound, carried, same⟩ :=
      consumeXmlLoop_waits (Nat.zero_le _) (by omega) (.inl rfl) consumed
    have split : suppressor.carry ++ (chunk ++ more) = (suppressor.carry ++ chunk).take place ++ (carry ++ more) := by
      rw [carried, ← List.append_assoc, ← List.append_assoc, List.take_append_drop]
    have size : ((suppressor.carry ++ chunk).take place).length = place := by
      rw [List.length_take, Nat.min_eq_left bound]
    have length : (suppressor.carry ++ chunk ++ more).length = place + (carry ++ more).length := by
      rw [List.append_assoc, split, List.length_append, size]
    have moved := @consumeXmlLoop_ahead ((suppressor.carry ++ chunk).take place) (carry ++ more) 0 phase
      ((carry ++ more).length + 1)
    rw [size, ← split, Nat.add_zero, ← List.append_assoc] at moved
    dsimp only [XmlConsumption.suppressor]
    rw [← List.append_assoc,
      same more ((suppressor.carry ++ chunk ++ more).length + 1) ((carry ++ more).length + 1) (by omega) (by omega)]
    exact moved.symm

end ToolCallRepair
