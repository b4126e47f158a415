import PlatformClaw.ToolCalls.CallSequences
import PlatformClaw.ToolCalls.Suppression

/-! # Where a suppressed call ends

The rest of a tagged call is blanks, parameters with their values, and the closing tag. The suppressor stops behind
the first such rest of its text, wherever the chunks were cut, and then takes away what has arrived of the line.
-/

namespace ToolCallRepair

open Scanning

/-- A text that is the rest of a tagged call, from within its body or from within the value of a parameter. -/
inductive ClosesCall : XmlSuppressorPhase → Text → Prop
  | close {blank tag : Text} (isBlank : blank.all ScriptString.isWhitespacePoint = true)
      (isTag : tag.map asciiLower = XML_FUNCTION_CLOSE) : ClosesCall .body (blank ++ tag)
  | parameter {blank tag name rest : Text} (isBlank : blank.all ScriptString.isWhitespacePoint = true)
      (isTag : tag.map asciiLower = XML_PARAMETER_OPEN) (named : name ≠ []) (short : name.length ≤ MAX_TOOL_NAME_CHARS)
      (isName : name.all isXmlishNameChar = true) (closes : ClosesCall .parameter rest) :
      ClosesCall .body (blank ++ (tag ++ (name ++ '>'.toNat :: rest)))
  | value {value tag rest : Text} (isTag : tag.map asciiLower = XML_PARAMETER_CLOSE)
      (first : indexOfAsciiMarkerIgnoreCase (value ++ tag) XML_PARAMETER_CLOSE 0 = some value.length)
      (closes : ClosesCall .body rest) : ClosesCall .parameter (value ++ (tag ++ rest))

section Pieces

variable {text rest : Text} {start : Nat}

theorem skipWhile_split {p : Nat → Bool} :
    (text.drop start).takeWhile p ++ text.drop (skipWhile p text start) = text.drop start := by
  have front := List.prefix_iff_eq_take.mp (List.takeWhile_prefix p (l := text.drop start))
  have whole := List.take_append_drop ((text.drop start).takeWhile p).length (text.drop start)
  rw [← front, List.drop_drop] at whole
  exact whole

theorem drop_behind {front : Text} (there : text.drop start = front ++ rest) :
    text.drop (start + front.length) = rest := by
  rw [← List.drop_drop, there, List.drop_left]

theorem skipWhitespace_blank {blank : Text} (there : text.drop start = blank ++ rest)
    (isBlank : blank.all ScriptString.isWhitespacePoint = true)
    (ends : ∀ unit, rest.head? = some unit → ScriptString.isWhitespacePoint unit = false) :
    skipWhitespace text start = start + blank.length := by
  have taken : (blank ++ rest).takeWhile ScriptString.isWhitespacePoint = blank := by
    rw [List.takeWhile_append_of_pos (fun unit known => List.all_eq_true.mp isBlank unit known)]
    cases rest with
    | nil => simp
    | cons unit others => rw [List.takeWhile_cons_of_neg (by rw [ends unit rfl]; simp), List.append_nil]
  rw [skipWhitespace, skipWhile, there, taken]

theorem marker_split {marker : Text} (there : startsWithAsciiMarkerIgnoreCase text start marker = true) :
    ∃ tag, tag.map asciiLower = marker ∧ tag ++ text.drop (start + marker.length) = text.drop start := by
  have spelled := startsWithAt_iff.mp there
  rw [← List.map_drop] at spelled
  refine ⟨(text.drop start).take marker.length, ?_, ?_⟩
  · rw [List.map_take]
    exact (List.prefix_iff_eq_take.mp spelled).symm
  · rw [← List.drop_drop, List.take_append_drop]

theorem marker_there {marker tag : Text} (there : text.drop start = tag ++ rest)
    (isTag : tag.map asciiLower = marker) : startsWithAsciiMarkerIgnoreCase text start marker = true := by
  rw [startsWithAsciiMarkerIgnoreCase, startsWithAt_iff, ← List.map_drop, there, List.map_append, isTag]
  exact List.prefix_append _ _

theorem indexOf?_of_append {more literal : Text} {found : Nat} (nonempty : literal ≠ [])
    (later : indexOf? (text ++ more) literal start = some found) (inside : found + literal.length ≤ text.length) :
    indexOf? text literal start = some found := by
  cases here : indexOf? text literal start with
  | none =>
    have reaches := (indexOf?_later nonempty here later).2
    omega
  | some other => rw [← later, indexOf?_append here nonempty]

theorem indexOfAsciiMarker_split {marker : Text} {found : Nat} (nonempty : marker ≠ [])
    (first : indexOfAsciiMarkerIgnoreCase text marker start = some found) :
    ∃ value tag, tag.map asciiLower = marker ∧ value ++ (tag ++ text.drop (found + marker.length)) = text.drop start ∧
      indexOfAsciiMarkerIgnoreCase (value ++ tag) marker 0 = some value.length ∧
      found + marker.length ≤ text.length := by
  have there : startsWithAt (text.map asciiLower) marker found = true := List.find?_some first
  obtain ⟨-, order, bound⟩ := @indexOfAsciiMarker_append text [] _ _ _ nonempty first
  obtain ⟨tag, isTag, behind⟩ := marker_split there
  have whole : slice text start found ++ (tag ++ text.drop (found + marker.length)) = text.drop start := by
    rw [behind, slice_append_drop order]
  refine ⟨slice text start found, tag, isTag, whole, ?_, bound⟩
  have size : (text.take start).length = start := by
    rw [List.length_take]
    omega
  have moved := @indexOfAsciiMarkerIgnoreCase_ahead (text.take start) (text.drop start) 0 marker
  rw [List.take_append_drop, size, Nat.add_zero, first] at moved
  obtain ⟨place, here, same⟩ := Option.map_eq_some_iff.mp moved.symm
  have length : (slice text start found).length = place := by
    rw [length_slice (by omega)]
    omega
  rw [length]
  unfold indexOfAsciiMarkerIgnoreCase at here ⊢
  rw [← whole, ← List.append_assoc, List.map_append] at here
  apply indexOf?_of_append nonempty here
  apply Nat.le_of_eq
  rw [List.length_map, List.length_append, length, ← isTag, List.length_map]

end Pieces

section Reads

variable {text : Text} {cursor markerStart : Nat} {phase : XmlSuppressorPhase}

theorem consumeXmlParameter_reads {next : Nat} (turned : consumeXmlParameter text markerStart = .ok next) :
    ∃ name, name ≠ [] ∧ name.length ≤ MAX_TOOL_NAME_CHARS ∧ name.all isXmlishNameChar = true ∧
      name ++ '>'.toNat :: text.drop next = text.drop (markerStart + XML_PARAMETER_OPEN.length) := by
  unfold consumeXmlParameter at turned
  dsimp only at turned
  split at turned
  · split at turned <;> cases turned
  · rename_i close found
    split at turned
    · cases turned
    · rename_i good
      cases turned
      rw [not_or, not_or, Bool.not_eq_false, Nat.not_lt] at good
      have bound := indexOf?_bound found (List.cons_ne_nil _ _)
      rw [List.length_singleton] at bound
      have mark := @getElem?_of_startsWithAt _ _ _ _ _ (List.find?_some found) 0 (by decide)
      obtain ⟨inside, here⟩ := List.getElem?_eq_some_iff.mp mark
      refine ⟨_, good.1, good.2.1, good.2.2, ?_⟩
      have behind : '>'.toNat :: text.drop (close + 1) = text.drop close := by
        rw [List.drop_eq_getElem_cons (show close < text.length from inside)]
        exact congrArg (· :: _) here.symm
      rw [behind, slice_append_drop bound.1]

theorem consumeXmlBody_reads (inside : cursor ≤ text.length) :
    (∀ stop, consumeXmlBody text cursor = .error (.closes stop) →
      stop ≤ text.length ∧ ∃ call, ClosesCall .body call ∧ call ++ text.drop stop = text.drop cursor) ∧
    ∀ next, consumeXmlBody text cursor = .ok next → ∀ rest behind, ClosesCall .parameter rest →
      rest ++ behind = text.drop next → ∃ call, ClosesCall .body call ∧ call ++ behind = text.drop cursor := by
  have blank := @skipWhile_split text cursor ScriptString.isWhitespacePoint
  have isBlank : ((text.drop cursor).takeWhile ScriptString.isWhitespacePoint).all ScriptString.isWhitespacePoint = true :=
    List.all_takeWhile
  have within : skipWhitespace text cursor ≤ text.length := skipWhile_le inside
  unfold consumeXmlBody
  dsimp only
  constructor
  · intro stop turned
    split at turned
    · cases turned
    · split at turned
      · rename_i there
        cases turned
        obtain ⟨tag, isTag, rest⟩ := marker_split there
        obtain ⟨-, -, bound⟩ | ⟨absent, -⟩ | ⟨absent, -⟩ := @asciiMarker_cases text [] XML_FUNCTION_CLOSE _ within (by decide)
        · exact ⟨bound, _, .close isBlank isTag, by rw [List.append_assoc, rest]; exact blank⟩
        · cases absent.symm.trans there
        · cases absent.symm.trans there
      · split at turned
        · cases turned
        · split at turned
          · unfold consumeXmlParameter at turned
            dsimp only at turned
            split at turned
            · split at turned <;> cases turned
            · split at turned <;> cases turned
          · cases turned
  · intro next turned rest behind closes left
    split at turned
    · cases turned
    · split at turned
      · cases turned
      · split at turned
        · cases turned
        · split at turned
          · rename_i there
            obtain ⟨tag, isTag, afterTag⟩ := marker_split there
            obtain ⟨name, named, short, isName, afterName⟩ := consumeXmlParameter_reads turned
            refine ⟨_, .parameter isBlank isTag named short isName closes, ?_⟩
            rw [List.append_assoc, List.append_assoc, List.append_assoc, List.cons_append, left, afterName, afterTag]
            exact blank
          · cases turned

theorem consumeXmlLoop_reads {turns stop : Nat} (inside : cursor ≤ text.length)
    (consumed : consumeXmlLoop text turns phase cursor = .closes stop) :
    stop ≤ text.length ∧ ∃ call, ClosesCall phase call ∧ call ++ text.drop stop = text.drop cursor := by
  induction turns generalizing phase cursor with
  | zero => cases consumed
  | succ turns ih =>
    have body : ∀ place ≤ text.length, (∀ ended, consumeXmlBody text place = .error ended → ended = .closes stop) →
        (∀ next, consumeXmlBody text place = .ok next → consumeXmlLoop text turns .parameter next = .closes stop) →
        stop ≤ text.length ∧ ∃ call, ClosesCall .body call ∧ call ++ text.drop stop = text.drop place := by
      intro place bound ends goesOn
      obtain ⟨closed, opened⟩ := consumeXmlBody_reads bound
      cases turned : consumeXmlBody text place with
      | error ended => exact closed stop (turned.trans (congrArg Except.error (ends ended turned)))
      | ok next =>
        obtain ⟨reached, rest, closes, left⟩ := ih (consumeXmlBody_ok turned).2.1 (goesOn next turned)
        exact ⟨reached, opened next turned rest _ closes left⟩
    rw [consumeXmlLoop] at consumed
    cases phase with
    | body =>
      apply body cursor inside
      · intro ended turned
        rw [consumeXmlTurn, turned] at consumed
        exact consumed
      · intro next turned
        rw [consumeXmlTurn, turned] at consumed
        exact consumed
    | parameter =>
      unfold consumeXmlTurn at consumed
      dsimp only at consumed
      cases found : indexOfAsciiMarkerIgnoreCase text XML_PARAMETER_CLOSE cursor with
      | none =>
        rw [found] at consumed
        cases consumed
      | some close =>
        rw [found] at consumed
        dsimp only at consumed
        obtain ⟨value, tag, isTag, whole, first, bound⟩ := indexOfAsciiMarker_split (by decide) found
        obtain ⟨reached, rest, closes, left⟩ := body _ bound (fun ended turned => by
            rw [turned] at consumed
            exact consumed)
          (fun next turned => by
            rw [turned] at consumed
            exact consumed)
        refine ⟨reached, _, .value isTag first closes, ?_⟩
        rw [List.append_assoc, List.append_assoc, left, whole]

end Reads

section Closes

variable {text behind : Text} {cursor : Nat} {phase : XmlSuppressorPhase}

theorem tag_head {tag marker : Text} (opens : marker.head? = some '<'.toNat) (isTag : tag.map asciiLower = marker) :
    ∀ unit, (tag ++ behind).head? = some unit → ScriptString.isWhitespacePoint unit = false := by
  intro unit first
  cases tag with
  | nil =>
    subst isTag
    cases opens
  | cons mark rest =>
    cases first
    subst isTag
    have lowered : asciiLower unit = '<'.toNat := Option.some.inj opens
    have same : unit = '<'.toNat := by
      unfold asciiLower at lowered
      split at lowered
      · rename_i upper
        have values : 'A'.toNat = 65 ∧ '<'.toNat = 60 := by decide
        omega
      · exact lowered
    rw [same]
    decide

theorem parameter_not_closing {place : Nat}
    (opens : startsWithAsciiMarkerIgnoreCase text place XML_PARAMETER_OPEN = true) :
    startsWithAsciiMarkerIgnoreCase text place XML_FUNCTION_CLOSE = false ∧
      isAsciiMarkerPrefixIgnoreCase text place XML_FUNCTION_CLOSE = false := by
  have letter : (text.map asciiLower)[place + 1]? = some 'p'.toNat := by
    rw [@getElem?_of_startsWithAt _ _ _ _ _ opens 1 (by decide)]
    decide
  constructor
  · apply Bool.eq_false_iff.mpr
    intro closing
    rw [@getElem?_of_startsWithAt _ _ _ _ _ closing 1 (by decide)] at letter
    revert letter
    decide
  · apply Bool.eq_false_iff.mpr
    intro begun
    have spelled := getElem?_of_isPrefixAt begun letter
    revert spelled
    decide

theorem name_mark {name rest : Text} (there : text.drop cursor = name ++ '>'.toNat :: rest)
    (isName : name.all isXmlishNameChar = true) :
    indexOf? text ['>'.toNat] cursor = some (cursor + name.length) := by
  have length := congrArg List.length there
  rw [List.length_drop, List.length_append, List.length_cons] at length
  rw [indexOf?, List.find?_range'_eq_some]
  refine ⟨?_, List.mem_range'_1.mpr ⟨Nat.le_add_right _ _, by omega⟩, fun place from_ before => ?_⟩
  · rw [startsWithAt_iff, drop_behind there]
    exact ⟨rest, rfl⟩
  · apply Bool.not_eq_true' _ |>.mpr
    apply Bool.eq_false_iff.mpr
    intro stands
    have mark := @getElem?_of_startsWithAt _ _ _ _ _ stands 0 (by decide)
    have offset : place + 0 = cursor + (place - cursor) := by omega
    rw [offset, ← List.getElem?_drop, there, List.getElem?_append_left (by omega)] at mark
    have named := List.all_eq_true.mp isName _ (List.mem_of_getElem? mark)
    revert named
    decide

theorem consumeXmlBody_closes {blank tag : Text} (there : text.drop cursor = blank ++ (tag ++ behind))
    (isBlank : blank.all ScriptString.isWhitespacePoint = true) (isTag : tag.map asciiLower = XML_FUNCTION_CLOSE)
    (inside : cursor ≤ text.length) :
    consumeXmlBody text cursor = .error (.closes (cursor + (blank ++ tag).length)) := by
  have skipped := skipWhitespace_blank there isBlank (tag_head (by decide) isTag)
  have starts := marker_there (drop_behind there) isTag
  have size : tag.length = XML_FUNCTION_CLOSE.length := by rw [← isTag, List.length_map]
  have long : XML_FUNCTION_CLOSE.length = 11 := by decide
  have length := congrArg List.length there
  rw [List.length_drop, List.length_append, List.length_append] at length
  rw [consumeXmlBody, skipped, if_neg (by omega), if_pos starts, List.length_append, size, Nat.add_assoc]

theorem consumeXmlBody_parameter {blank tag name : Text}
    (there : text.drop cursor = blank ++ (tag ++ (name ++ '>'.toNat :: behind)))
    (isBlank : blank.all ScriptString.isWhitespacePoint = true) (isTag : tag.map asciiLower = XML_PARAMETER_OPEN)
    (named : name ≠ []) (short : name.length ≤ MAX_TOOL_NAME_CHARS) (isName : name.all isXmlishNameChar = true)
    (inside : cursor ≤ text.length) :
    consumeXmlBody text cursor = .ok (cursor + (blank.length + (tag.length + (name.length + 1)))) := by
  have skipped := skipWhitespace_blank there isBlank (tag_head (by decide) isTag)
  have opens := marker_there (drop_behind there) isTag
  obtain ⟨notClosing, notBegun⟩ := parameter_not_closing opens
  have size : tag.length = XML_PARAMETER_OPEN.length := by rw [← isTag, List.length_map]
  have long : XML_PARAMETER_OPEN.length = 11 := by decide
  have length := congrArg List.length there
  rw [List.length_drop, List.length_append, List.length_append] at length
  have nameStart := drop_behind (drop_behind there)
  rw [size] at nameStart
  have marked := name_mark nameStart isName
  have sliced : slice text (cursor + blank.length + XML_PARAMETER_OPEN.length)
      (cursor + blank.length + XML_PARAMETER_OPEN.length + name.length) = name := by
    rw [slice, List.drop_take, nameStart, Nat.add_sub_cancel_left, List.take_left]
  have good : ¬(name = [] ∨ MAX_TOOL_NAME_CHARS < name.length ∨ name.all isXmlishNameChar = false) := by
    rw [not_or, not_or, Bool.not_eq_false, Nat.not_lt]
    exact ⟨named, short, isName⟩
  rw [consumeXmlBody, skipped, if_neg (by omega), notClosing, notBegun, not_begun_of_there opens, opens]
  simp only [Bool.false_eq_true, if_false, Bool.or_self, if_true]
  rw [consumeXmlParameter, marked]
  dsimp only
  rw [sliced, if_neg good, size]
  simp only [Nat.add_assoc]

theorem ClosesCall.loop {call : Text} (closes : ClosesCall phase call) {turns : Nat}
    (there : text.drop cursor = call ++ behind) (inside : cursor ≤ text.length) (enough : text.length < cursor + turns) :
    consumeXmlLoop text turns phase cursor = .closes (cursor + call.length) := by
  induction closes generalizing cursor turns with
  | close isBlank isTag =>
    obtain ⟨fewer, rfl⟩ := Nat.exists_eq_succ_of_ne_zero (show turns ≠ 0 by omega)
    rw [List.append_assoc] at there
    rw [consumeXmlLoop, consumeXmlTurn, consumeXmlBody_closes there isBlank isTag inside]
  | @parameter blank tag name rest isBlank isTag named short isName closes ih =>
    obtain ⟨fewer, rfl⟩ := Nat.exists_eq_succ_of_ne_zero (show turns ≠ 0 by omega)
    simp only [List.append_assoc, List.cons_append] at there
    have turned := consumeXmlBody_parameter there isBlank isTag named short isName inside
    obtain ⟨forward, bound, -⟩ := consumeXmlBody_ok turned
    have mark : text.drop (cursor + blank.length + tag.length + name.length) = ['>'.toNat] ++ (rest ++ behind) :=
      drop_behind (drop_behind (drop_behind there))
    have left := drop_behind mark
    have place : cursor + blank.length + tag.length + name.length + ['>'.toNat].length =
        cursor + (blank.length + (tag.length + (name.length + 1))) := by
      rw [List.length_singleton]
      omega
    rw [place] at left
    rw [consumeXmlLoop, consumeXmlTurn, turned]
    dsimp only
    rw [ih left bound (by omega)]
    simp only [List.length_append, List.length_cons, Nat.add_assoc, Nat.add_comm 1]
  | @value value tag rest isTag first closes ih =>
    obtain ⟨fewer, rfl⟩ := Nat.exists_eq_succ_of_ne_zero (show turns ≠ 0 by omega)
    simp only [List.append_assoc] at there
    have size : tag.length = XML_PARAMETER_CLOSE.length := by rw [← isTag, List.length_map]
    have length := congrArg List.length there
    rw [List.length_drop, List.length_append, List.length_append] at length
    have found : indexOfAsciiMarkerIgnoreCase text XML_PARAMETER_CLOSE cursor = some (cursor + value.length) := by
      have front : (text.take cursor).length = cursor := by rw [List.length_take, Nat.min_eq_left inside]
      have moved := @indexOfAsciiMarkerIgnoreCase_ahead (text.take cursor) (text.drop cursor) 0 XML_PARAMETER_CLOSE
      have again := (@indexOfAsciiMarker_append _ (rest ++ behind) _ _ _ (by decide) first).1
      rw [List.append_assoc, ← there] at again
      rw [List.take_append_drop, front, Nat.add_zero, again] at moved
      exact moved
    have left := drop_behind (drop_behind there)
    have ended := @ih _ (fewer + 1) left (by omega) (by omega)
    rw [consumeXmlLoop, consumeXmlTurn, size] at ended
    rw [consumeXmlLoop, consumeXmlTurn, found]
    dsimp only at ended ⊢
    rw [ended]
    simp only [List.length_append, size, Nat.add_assoc]

end Closes

def lineEnd (blank : Nat) : Text → Nat
  | [] => blank
  | unit :: more =>
    if unit = 0x0D then if more.head? = some 0x0A then blank + 2 else blank + 1
    else if unit = 0x0A then blank + 1
    else 0

/-- The line that a call leaves behind ends in what has arrived of it, as it does in the whole text: what arrived
is not only indentation, and a carriage return is not cut off its line feed. Where nothing has arrived, nothing of
the line may have to be taken away. -/
def lineEndArrived (arrived rest : Text) : Bool :=
  match arrived.dropWhile isLineIndentation with
  | [] =>
    rest.isEmpty ||
      (arrived.isEmpty && (rest.dropWhile isLineIndentation).head?.any fun unit => !isLineTerminator unit)
  | unit :: more => !(unit == 0x0D && more.isEmpty && rest.head? == some 0x0A)

section LineEnd

theorem consumeRemovedLineEnd_start (text : Text) : consumeRemovedLineEnd text 0 =
      lineEnd (text.takeWhile isLineIndentation).length (text.dropWhile isLineIndentation) := by
  have parts := List.takeWhile_append_dropWhile (p := isLineIndentation) (l := text)
  have skipped : skipLineIndentation text 0 = (text.takeWhile isLineIndentation).length := by
    rw [skipLineIndentation, skipWhile, List.drop_zero, Nat.zero_add]
  have here : ∀ offset, text[(text.takeWhile isLineIndentation).length + offset]? =
      (text.dropWhile isLineIndentation)[offset]? := by
    intro offset
    have moved := @getElem?_ahead _ (text.takeWhile isLineIndentation) (text.dropWhile isLineIndentation) offset
    rw [parts] at moved
    exact moved
  have length := congrArg List.length parts
  rw [List.length_append] at length
  rw [consumeRemovedLineEnd, skipped, consumeLineBreak, here 1]
  have first := here 0
  rw [Nat.add_zero] at first
  rw [first]
  cases left : text.dropWhile isLineIndentation with
  | nil =>
    rw [left] at length
    exact if_pos (by simpa using length)
  | cons unit more =>
    rw [left, List.length_cons] at length
    rw [if_neg (by omega), lineEnd]
    simp only [List.getElem?_cons_zero, List.getElem?_cons_succ, Option.some.injEq, List.head?_eq_getElem?]
    split
    · rfl
    · split <;> rfl

theorem takeWhile_append_all {p : Nat → Bool} {front more : Text} (all : front.dropWhile p = []) :
    (front ++ more).takeWhile p = front ++ more.takeWhile p ∧ (front ++ more).dropWhile p = more.dropWhile p := by
  induction front with
  | nil => exact ⟨rfl, rfl⟩
  | cons unit rest ih =>
    rw [List.dropWhile_cons] at all
    split at all
    · rename_i holds
      obtain ⟨taken, left⟩ := ih all
      rw [List.cons_append, List.takeWhile_cons_of_pos holds, List.dropWhile_cons_of_pos holds, taken, left]
      exact ⟨rfl, rfl⟩
    · cases all

theorem takeWhile_append_stops {p : Nat → Bool} {front more : Text} {unit : Nat} {others : Text}
    (stops : front.dropWhile p = unit :: others) :
    (front ++ more).takeWhile p = front.takeWhile p ∧ (front ++ more).dropWhile p = unit :: (others ++ more) := by
  induction front with
  | nil => cases stops
  | cons first rest ih =>
    rw [List.dropWhile_cons] at stops
    split at stops
    · rename_i holds
      obtain ⟨taken, left⟩ := ih stops
      rw [List.cons_append, List.takeWhile_cons_of_pos holds, List.takeWhile_cons_of_pos holds,
        List.dropWhile_cons_of_pos holds, taken, left]
      exact ⟨rfl, rfl⟩
    · rename_i fails
      cases stops
      rw [List.cons_append, List.takeWhile_cons_of_neg fails, List.takeWhile_cons_of_neg fails,
        List.dropWhile_cons_of_neg fails]
      exact ⟨rfl, rfl⟩

theorem lineEndArrived_iff (arrived rest : Text) : lineEndArrived arrived rest = true ↔
      consumeRemovedLineEnd arrived 0 = consumeRemovedLineEnd (arrived ++ rest) 0 := by
  rw [consumeRemovedLineEnd_start, consumeRemovedLineEnd_start, lineEndArrived]
  cases left : arrived.dropWhile isLineIndentation with
  | nil =>
    obtain ⟨taken, dropped⟩ := @takeWhile_append_all _ arrived rest left
    have own := List.takeWhile_append_dropWhile (p := isLineIndentation) (l := arrived)
    rw [left, List.append_nil] at own
    have parts := List.takeWhile_append_dropWhile (p := isLineIndentation) (l := rest)
    rw [taken, dropped, own, lineEnd]
    cases behind : rest.dropWhile isLineIndentation with
    | nil =>
      rw [behind, List.append_nil] at parts
      rw [parts, lineEnd]
      simp
    | cons unit more =>
      have some_ : rest.isEmpty = false := by
        rw [← parts, behind]
        simp
      rw [some_, lineEnd, List.length_append]
      simp only [List.head?_cons, Option.any_some, Bool.false_or, isLineTerminator, Bool.and_eq_true,
        List.isEmpty_iff, Bool.not_eq_true', Bool.or_eq_false_iff, beq_eq_false_iff_ne]
      rw [← List.length_eq_zero_iff]
      split
      · rename_i carriage
        split <;> simp [carriage] <;> omega
      · rename_i other
        split
        · rename_i feed
          simp [feed]
          omega
        · rename_i none_
          simp [other, none_]
  | cons unit more =>
    obtain ⟨taken, dropped⟩ := @takeWhile_append_stops _ arrived rest _ _ left
    rw [taken, dropped, lineEnd, lineEnd]
    by_cases carriage : unit = 0x0D
    · cases more with
      | nil =>
        by_cases feed : rest.head? = some 0x0A
        · simp [carriage, feed]
        · simp [carriage, feed]
      | cons next others => simp [carriage]
    · simp [carriage]

end LineEnd

section Chunks

open Feeding

variable {suppressor : XmlSuppressor} {chunk call behind : Text}

theorem consumeXmlLoop_closed (closes : ClosesCall suppressor.phase call)
    (split : suppressor.carry ++ chunk = call ++ behind) :
    consumeXmlLoop (suppressor.carry ++ chunk) ((suppressor.carry ++ chunk).length + 1) suppressor.phase 0 =
      .closes call.length := by
  have enough : (suppressor.carry ++ chunk).length < 0 + ((suppressor.carry ++ chunk).length + 1) := by omega
  have there : (suppressor.carry ++ chunk).drop 0 = call ++ behind := split
  rw [closes.loop there (Nat.zero_le _) enough, Nat.zero_add]

theorem consumeXmlSuppressor_closed (closes : ClosesCall suppressor.phase call)
    (split : suppressor.carry ++ chunk = call ++ behind) :
    (consumeXmlSuppressor suppressor chunk).1 = some (behind.drop (consumeRemovedLineEnd behind 0)) := by
  have line := @consumeRemovedLineEnd_ahead call behind 0
  rw [Nat.add_zero] at line
  rw [consumeXmlSuppressor, consumeXmlLoop_closed closes split, split]
  exact congrArg some (by rw [line, drop_ahead])

theorem consumeXmlSuppressor_ends {suffix : Text} (ended : (consumeXmlSuppressor suppressor chunk).1 = some suffix) :
    (∃ call behind, ClosesCall suppressor.phase call ∧ suppressor.carry ++ chunk = call ++ behind ∧
        suffix = behind.drop (consumeRemovedLineEnd behind 0)) ∨
      ∀ more, (consumeXmlSuppressor suppressor (chunk ++ more)).1 = some (suffix ++ more) ∧
        ∀ call behind, ClosesCall suppressor.phase call → suppressor.carry ++ (chunk ++ more) ≠ call ++ behind := by
  cases consumed : consumeXmlLoop (suppressor.carry ++ chunk) ((suppressor.carry ++ chunk).length + 1)
      suppressor.phase 0 with
  | waits carry phase =>
    rw [consumeXmlSuppressor, consumed] at ended
    cases ended
  | closes stop =>
    obtain ⟨bound, call, closes, whole⟩ := consumeXmlLoop_reads (Nat.zero_le _) consumed
    rw [List.drop_zero] at whole
    have closed := consumeXmlSuppressor_closed closes whole.symm
    rw [ended] at closed
    exact .inl ⟨call, _, closes, whole.symm, Option.some.inj closed⟩
  | leaves place =>
    right
    intro more
    have bound := consumeXmlLoop_leaves (Nat.zero_le _) consumed
    have enough : ((suppressor.carry ++ chunk) ++ more).length < 0 + (((suppressor.carry ++ chunk) ++ more).length + 1) := by
      omega
    have later := consumeXmlLoop_append (Nat.zero_le _) enough consumed fun _ _ same => by cases same
    rw [List.append_assoc] at later
    constructor
    · rw [consumeXmlSuppressor, consumed] at ended
      cases ended
      rw [consumeXmlSuppressor, later]
      exact congrArg some (by rw [← List.append_assoc, List.drop_append_of_le_length bound])
    · intro call behind closes split
      cases later.symm.trans (consumeXmlLoop_closed closes split)

/-- Every chunk in which the call ends holds as much of the line behind it as decides what is taken away. -/
def LineEndsTogether (suppressor : XmlSuppressor) (chunks : List Text) : Prop :=
  ∀ before part rest call arrived, chunks = before ++ part :: rest → ClosesCall suppressor.phase call →
    suppressor.carry ++ (before.flatten ++ part) = call ++ arrived →
    (before ≠ [] → (suppressor.carry ++ before.flatten).length < call.length) →
    lineEndArrived arrived rest.flatten = true

theorem line_removed_iff (arrived rest : Text) : some (arrived.drop (consumeRemovedLineEnd arrived 0) ++ rest) =
        some ((arrived ++ rest).drop (consumeRemovedLineEnd (arrived ++ rest) 0)) ↔
      lineEndArrived arrived rest = true := by
  have bound := (@consumeRemovedLineEnd_bound arrived 0 (Nat.zero_le _)).2
  have bound' := (@consumeRemovedLineEnd_bound (arrived ++ rest) 0 (Nat.zero_le _)).2
  rw [lineEndArrived_iff]
  constructor
  · intro same
    have length := congrArg List.length (Option.some.inj same)
    rw [List.length_append, List.length_drop, List.length_drop, List.length_append] at length
    rw [List.length_append] at bound'
    omega
  · intro same
    rw [← same, List.drop_append_of_le_length bound]

theorem ClosesCall.unique {phase : XmlSuppressorPhase} {text call call' arrived arrived' : Text}
    (closes : ClosesCall phase call) (closes' : ClosesCall phase call') (split : text = call ++ arrived)
    (split' : text = call' ++ arrived') : call = call' ∧ arrived = arrived' := by
  have ended := @consumeXmlLoop_closed ⟨[], phase⟩ text call arrived closes split
  have ended' := @consumeXmlLoop_closed ⟨[], phase⟩ text call' arrived' closes' split'
  have length : call.length = call'.length := XmlConsumption.closes.inj (ended.symm.trans ended')
  exact List.append_inj (split.symm.trans split') length

theorem call_within {suppressor : XmlSuppressor} {before later middle : List Text} {part call arrived : Text}
    (whole : suppressor.carry ++ (before.flatten ++ part) = call ++ arrived) (order : later = before ++ part :: middle) :
    call.length ≤ (suppressor.carry ++ later.flatten).length := by
  have length := congrArg List.length whole
  rw [order, List.flatten_append, List.flatten_cons]
  simp only [List.length_append] at length ⊢
  omega

theorem same_chunk {suppressor : XmlSuppressor} {chunks before before' rest rest' : List Text}
    {part part' call arrived call' arrived' : Text} (split : chunks = before ++ part :: rest)
    (split' : chunks = before' ++ part' :: rest') (closes : ClosesCall suppressor.phase call)
    (closes' : ClosesCall suppressor.phase call')
    (whole : suppressor.carry ++ (before.flatten ++ part) = call ++ arrived)
    (whole' : suppressor.carry ++ (before'.flatten ++ part') = call' ++ arrived')
    (first : before ≠ [] → (suppressor.carry ++ before.flatten).length < call.length)
    (first' : before' ≠ [] → (suppressor.carry ++ before'.flatten).length < call'.length) :
    before = before' ∧ part = part' ∧ rest = rest' ∧ arrived = arrived' := by
  have all : suppressor.carry ++ chunks.flatten = call ++ (arrived ++ rest.flatten) := by
    rw [split, List.flatten_append, List.flatten_cons, ← List.append_assoc call, ← whole]
    simp only [List.append_assoc]
  have all' : suppressor.carry ++ chunks.flatten = call' ++ (arrived' ++ rest'.flatten) := by
    rw [split', List.flatten_append, List.flatten_cons, ← List.append_assoc call', ← whole']
    simp only [List.append_assoc]
  obtain ⟨rfl, -⟩ := closes.unique closes' all all'
  obtain ⟨middle, behind, tail⟩ | ⟨middle, ahead, tail⟩ := List.append_eq_append_iff.mp (split.symm.trans split')
  · cases middle with
    | nil =>
      rw [List.append_nil] at behind
      cases tail
      subst behind
      exact ⟨rfl, rfl, rfl, List.append_cancel_left (whole.symm.trans whole')⟩
    | cons next others =>
      cases tail
      have within := call_within whole behind
      have short := first' (by rw [behind]; simp)
      omega
  · cases middle with
    | nil =>
      rw [List.append_nil] at ahead
      cases tail
      subst ahead
      exact ⟨rfl, rfl, rfl, List.append_cancel_left (whole.symm.trans whole')⟩
    | cons next others =>
      cases tail
      have within := call_within whole' ahead
      have short := first (by rw [ahead]; simp)
      omega

theorem feed_consumeXmlSuppressor_iff (suppressor : XmlSuppressor) (chunk : Text) (chunks : List Text) :
    feed consumeXmlSuppressor suppressor (chunk :: chunks) =
        (consumeXmlSuppressor suppressor (chunk :: chunks).flatten).1 ↔
      LineEndsTogether suppressor (chunk :: chunks) := by
  have flat : ∀ before part rest, chunk :: chunks = before ++ part :: rest →
      (chunk :: chunks).flatten = before.flatten ++ part ++ rest.flatten := by
    intro before part rest split
    rw [split, List.flatten_append, List.flatten_cons, List.append_assoc]
  obtain ⟨waiting, waitingWhole⟩ | ⟨before, part, rest, suffix, split, ended, waited, left⟩ :=
    feed_cases (fun state chunk next more waits => consumeXmlSuppressor_waits waits more) suppressor chunk chunks
  · rw [waiting, waitingWhole]
    refine iff_of_true rfl fun before part rest call arrived split closes whole _ => ?_
    have closed := @consumeXmlSuppressor_closed suppressor (chunk :: chunks).flatten call (arrived ++ rest.flatten)
      closes (by rw [flat before part rest split, ← List.append_assoc, whole, List.append_assoc])
    cases waitingWhole.symm.trans closed
  · rw [left, flat before part rest split]
    obtain ⟨call, arrived, closes, whole, rfl⟩ | leaves := consumeXmlSuppressor_ends ended
    · have closed := @consumeXmlSuppressor_closed suppressor (before.flatten ++ part ++ rest.flatten) call
        (arrived ++ rest.flatten) closes (by rw [← List.append_assoc, whole, List.append_assoc])
      have first : before ≠ [] → (suppressor.carry ++ before.flatten).length < call.length := by
        intro some_
        apply Nat.lt_of_not_le
        intro within
        have front : call <+: suppressor.carry ++ before.flatten := by
          apply List.prefix_of_prefix_length_le _ (List.prefix_append _ part) within
          rw [List.append_assoc, whole]
          exact List.prefix_append _ _
        obtain ⟨behind, earlier⟩ := front
        cases (waited some_).symm.trans (consumeXmlSuppressor_closed closes earlier.symm)
      rw [closed, line_removed_iff]
      constructor
      · intro line before' part' rest' call' arrived' split' closes' whole' first'
        obtain ⟨rfl, rfl, rfl, rfl⟩ := same_chunk split split' closes closes' whole whole' first first'
        exact line
      · intro together
        exact together before part rest call arrived split closes whole first
    · rw [(leaves rest.flatten).1]
      refine iff_of_true rfl fun before' part' rest' call arrived split' closes whole _ => ?_
      exfalso
      apply (leaves rest.flatten).2 call (arrived ++ rest'.flatten) closes
      rw [← flat before part rest split, flat before' part' rest' split', ← List.append_assoc, whole, List.append_assoc]

end Chunks

end ToolCallRepair
