import PlatformClaw.Markdown.Spans
import Mathlib.Tactic.SplitIfs

/-! # Plain text in chunks

A text that is too long for one message is cut at readable places: ranges keep every unit of it, chunks
leave out the white space after a cut. A cut never stands between the halves of a surrogate pair.
-/

namespace PlatformClaw.Markdown

open ScriptText (Text isHighSurrogate isLowSurrogate isWhitespace)

/-- Whether a cut before `index` stands inside a pair. -/
def cutsPair (text : Text) (index : Nat) : Bool :=
  0 < index && text[index - 1]?.any isHighSurrogate && text[index]?.any isLowSurrogate

/-- A limit in whole units. -/
structure ChunkLimit where
  units : Nat
  positive : 0 < units
deriving DecidableEq

/-- Limits that are not positive mean that there is none. -/
def normalizeChunkLimit (limit : Rat) : Option ChunkLimit :=
  if 0 < limit then some ⟨max 1 limit.floor.toNat, Nat.lt_of_lt_of_le Nat.one_pos (Nat.le_max_left _ _)⟩
  else none

inductive ChunkMode
  | hard
  | preferred
deriving DecidableEq, Repr

/-- The last index below `bound` at which `p` holds. -/
def lastBelow (p : Nat → Bool) : Nat → Option Nat
  | 0 => none
  | bound + 1 => if p bound then some bound else lastBelow p bound

/-- How far `\n[\t ]*\n+` matches at the start. -/
def matchParagraph (text : Text) : Option Nat :=
  match text with
  | 10 :: rest =>
    let blanks := rest.takeWhile fun unit => unit == 9 || unit == 32
    let newlines := (rest.drop blanks.length).takeWhile fun unit => unit == 10
    if newlines.isEmpty then none else some (1 + blanks.length + newlines.length)
  | _ => none

/-- The end of the last paragraph break, matches following one another; `skip` units are in the last. -/
def lastParagraphEnd : Text → Nat → Nat → Option Nat → Option Nat
  | [], _, _, last => last
  | _ :: rest, index, skip + 1, last => lastParagraphEnd rest (index + 1) skip last
  | unit :: rest, index, 0, last =>
    match matchParagraph (unit :: rest) with
    | none => lastParagraphEnd rest (index + 1) 0 last
    | some length => lastParagraphEnd rest (index + 1) (length - 1) (some (index + length))

def findPreferredRangeEnd (text : Text) (start stop : Nat) : Option Nat :=
  match lastParagraphEnd (sliceText text start stop) 0 0 none with
  | some paragraphEnd => some (start + paragraphEnd)
  | none =>
    match (lastBelow (fun index => text.getD index 0 == 10) stop).filter (start ≤ ·) with
    | some newlineIndex => some (newlineIndex + 1)
    | none =>
      ((lastBelow (fun index => isWhitespace (text.getD index 0)) stop).filter (start < ·)).map
        (· + 1)

/-- Where the range that begins at `start` ends. -/
def rangeEnd (text : Text) (limit : ChunkLimit) (mode : Option ChunkMode) (start : Nat) : Nat :=
  let maxEnd := min text.length (start + limit.units)
  let preferredEnd :=
    if mode = some .preferred ∧ maxEnd < text.length then findPreferredRangeEnd text start maxEnd
    else none
  avoidTrailingHighSurrogateBreak text start ((preferredEnd.filter (start < ·)).getD maxEnd)

theorem lt_avoid {text : Text} {start stop : Nat} (less : start < stop) :
    start < avoidTrailingHighSurrogateBreak text start stop := by
  unfold avoidTrailingHighSurrogateBreak
  split_ifs <;> omega

theorem lt_candidate {text : Text} {limit : ChunkLimit} {start : Nat} (inside : start < text.length)
    (preferredEnd : Option Nat) :
    start < (preferredEnd.filter (start < ·)).getD (min text.length (start + limit.units)) := by
  have positive := limit.positive
  cases kept : preferredEnd.filter (start < ·) with
  | none =>
    rw [Option.getD_none]
    omega
  | some stop => exact of_decide_eq_true (Option.filter_eq_some_iff.mp kept).2

theorem lt_rangeEnd {text : Text} (limit : ChunkLimit) (mode : Option ChunkMode) {start : Nat}
    (inside : start < text.length) : start < rangeEnd text limit mode start :=
  lt_avoid (lt_candidate inside _)

def rangesFrom (text : Text) (limit : ChunkLimit) (mode : Option ChunkMode) (start : Nat) : List TextRange :=
  if _inside : start < text.length then
    ⟨start, rangeEnd text limit mode start⟩ :: rangesFrom text limit mode (rangeEnd text limit mode start)
  else []
termination_by text.length - start
decreasing_by
  have further := lt_rangeEnd limit mode _inside
  omega

def chunkTextRanges (text : Text) (limit : Rat) (mode : Option ChunkMode) : List TextRange :=
  if text = [] then []
  else
    match normalizeChunkLimit limit with
    | none => [⟨0, text.length⟩]
    | some normalizedLimit =>
      if text.length ≤ normalizedLimit.units then [⟨0, text.length⟩]
      else rangesFrom text normalizedLimit mode 0

/-- The last breaks outside of parentheses, -1 where there is none. -/
structure Breakpoints where
  lastNewline : Int
  lastWhitespace : Int
deriving DecidableEq, Repr

def scanBreakpointsFrom : Text → Nat → Nat → Breakpoints → Breakpoints
  | [], _, _, found => found
  | unit :: rest, index, depth, found =>
    if unit = 40 then scanBreakpointsFrom rest (index + 1) (depth + 1) found
    else if unit = 41 ∧ 0 < depth then scanBreakpointsFrom rest (index + 1) (depth - 1) found
    else if depth ≠ 0 then scanBreakpointsFrom rest (index + 1) depth found
    else if unit = 10 then scanBreakpointsFrom rest (index + 1) depth { found with lastNewline := index }
    else if isWhitespace unit then
      scanBreakpointsFrom rest (index + 1) depth { found with lastWhitespace := index }
    else scanBreakpointsFrom rest (index + 1) depth found

def scanParenAwareBreakpoints (text : Text) : Breakpoints :=
  scanBreakpointsFrom text 0 0 ⟨-1, -1⟩

/-- Where the chunk that begins at `cursor` ends. -/
def chunkEnd (text : Text) (limit : ChunkLimit) (cursor : Nat) : Nat :=
  let windowEnd := min text.length (cursor + limit.units)
  let found := scanParenAwareBreakpoints (sliceText text cursor windowEnd)
  let breakOffset := if 0 < found.lastNewline then found.lastNewline else found.lastWhitespace
  avoidTrailingHighSurrogateBreak text cursor (if 0 < breakOffset then cursor + breakOffset.toNat else windowEnd)

theorem lt_chunkEnd {text : Text} (limit : ChunkLimit) {cursor : Nat} (inside : cursor < text.length) :
    cursor < chunkEnd text limit cursor := by
  have positive := limit.positive
  apply lt_avoid
  split_ifs <;> omega

/-- The white space from a position on. -/
def whitespaceFrom (text : Text) (cursor : Nat) : Text := (text.drop cursor).takeWhile isWhitespace

def chunksFrom (text : Text) (limit : ChunkLimit) (cursor : Nat) : List Text :=
  if _inside : cursor < text.length then
    if text.length - cursor ≤ limit.units then [text.drop cursor]
    else
      let stop := chunkEnd text limit cursor
      sliceText text cursor stop :: chunksFrom text limit (stop + (whitespaceFrom text stop).length)
  else []
termination_by text.length - cursor
decreasing_by
  have further := lt_chunkEnd limit _inside
  omega

def chunkText (text : Text) (limit : Rat) : List Text :=
  if text = [] then []
  else
    match normalizeChunkLimit limit with
    | none => [text]
    | some normalizedLimit =>
      if text.length ≤ normalizedLimit.units then [text] else chunksFrom text normalizedLimit 0

theorem sliceText_append_drop {text : Text} {start stop : Nat} (ordered : start ≤ stop)
    (inside : stop ≤ text.length) : sliceText text start stop ++ text.drop stop = text.drop start := by
  have first : (text.take stop).length = stop := by
    rw [List.length_take]
    omega
  calc sliceText text start stop ++ text.drop stop = (text.take stop ++ text.drop stop).drop start := by
        rw [sliceText, List.drop_append_of_le_length (by omega)]
    _ = text.drop start := by rw [List.take_append_drop]

/-- Within a limit, or a pair that no limit of one unit can hold. -/
def Fits (units : Nat) (chunk : Text) : Prop :=
  chunk.length ≤ units ∨
    units = 1 ∧ ∃ high low, chunk = [high, low] ∧ isHighSurrogate high = true ∧ isLowSurrogate low = true

theorem cutsPair_iff {text : Text} {index : Nat} : cutsPair text index = true ↔
    0 < index ∧ ∃ high low, text[index - 1]? = some high ∧ text[index]? = some low ∧
      isHighSurrogate high = true ∧ isLowSurrogate low = true := by
  simp only [cutsPair, Bool.and_eq_true, decide_eq_true_eq, Option.any_eq_true]
  constructor
  · rintro ⟨⟨some, high, here, isHigh⟩, low, next, isLow⟩
    exact ⟨some, high, low, here, next, isHigh, isLow⟩
  · rintro ⟨some, high, low, here, next, isHigh, isLow⟩
    exact ⟨⟨some, high, here, isHigh⟩, low, next, isLow⟩

theorem not_low_of_high {unit : Nat} (high : isHighSurrogate unit = true) : isLowSurrogate unit = false := by
  simp only [isHighSurrogate, Bool.and_eq_true, decide_eq_true_eq] at high
  simp only [isLowSurrogate, Bool.and_eq_false_iff, decide_eq_false_iff_not]
  omega

theorem avoid_cases (text : Text) {start stop : Nat} (less : start < stop) :
    (avoidTrailingHighSurrogateBreak text start stop = stop ∧ cutsPair text stop = false) ∨
    (cutsPair text stop = true ∧ start < stop - 1 ∧ avoidTrailingHighSurrogateBreak text start stop = stop - 1) ∨
    (cutsPair text stop = true ∧ stop = start + 1 ∧ avoidTrailingHighSurrogateBreak text start stop = start + 2) := by
  unfold avoidTrailingHighSurrogateBreak
  cases cut : cutsPair text stop with
  | false =>
    refine .inl ⟨if_pos ?_, rfl⟩
    simp only [cutsPair, Bool.and_eq_false_iff, decide_eq_false_iff_not] at cut
    obtain (first | high) | low := cut
    · omega
    · exact .inr (.inr (.inl high))
    · exact .inr (.inr (.inr low))
  | true =>
    obtain ⟨-, high, low, here, next, isHigh, isLow⟩ := cutsPair_iff.mp cut
    have before := (List.getElem?_eq_some_iff.mp next).1
    have cuts : ¬ (stop ≤ start ∨ text.length ≤ stop ∨
        (text[stop - 1]?.any isHighSurrogate) = false ∨ (text[stop]?.any isLowSurrogate) = false) := by
      simp only [here, next, Option.any_some, isHigh, isLow, Bool.true_eq_false, or_false]
      omega
    rw [if_neg cuts]
    by_cases room : start < stop - 1
    · exact .inr (.inl ⟨rfl, room, if_pos room⟩)
    · refine .inr (.inr ⟨rfl, by omega, ?_⟩)
      rw [if_neg room]
      omega

section Adjusted

variable {text : Text} {start stop : Nat} (less : start < stop)

include less

theorem cutsPair_avoid : cutsPair text (avoidTrailingHighSurrogateBreak text start stop) = false := by
  rw [Bool.eq_false_iff]
  intro again
  obtain ⟨same, whole⟩ | ⟨cut, room, same⟩ | ⟨cut, first, same⟩ := avoid_cases text less
  · rw [same, whole] at again
    cases again
  · rw [same] at again
    obtain ⟨-, high, -, here, -, isHigh, -⟩ := cutsPair_iff.mp cut
    obtain ⟨-, -, low, -, next, -, isLow⟩ := cutsPair_iff.mp again
    cases here.symm.trans next
    rw [not_low_of_high isHigh] at isLow
    cases isLow
  · rw [same] at again
    obtain ⟨-, -, low, -, next, -, isLow⟩ := cutsPair_iff.mp cut
    obtain ⟨-, high, -, here, -, isHigh, -⟩ := cutsPair_iff.mp again
    have place : start + 2 - 1 = stop := by omega
    rw [place] at here
    cases here.symm.trans next
    rw [not_low_of_high isHigh] at isLow
    cases isLow

variable (inside : stop ≤ text.length)

include inside

theorem avoid_le_length : avoidTrailingHighSurrogateBreak text start stop ≤ text.length := by
  obtain ⟨same, -⟩ | ⟨-, -, same⟩ | ⟨cut, first, same⟩ := avoid_cases text less
  · omega
  · omega
  · obtain ⟨-, high, low, -, next, -⟩ := cutsPair_iff.mp cut
    have before := (List.getElem?_eq_some_iff.mp next).1
    omega

theorem fits_avoid {units : Nat} (near : stop ≤ start + units) :
    Fits units (sliceText text start (avoidTrailingHighSurrogateBreak text start stop)) := by
  have length := @length_sliceText text start _ (avoid_le_length less inside)
  obtain ⟨same, whole⟩ | ⟨cut, room, same⟩ | ⟨cut, first, same⟩ := avoid_cases text less
  · left
    omega
  · left
    omega
  · by_cases one : units = 1
    · right
      obtain ⟨-, high, low, here, next, isHigh, isLow⟩ := cutsPair_iff.mp cut
      refine ⟨one, high, low, ?_, isHigh, isLow⟩
      rw [first, Nat.add_sub_cancel] at here
      rw [first] at next
      rw [same, sliceText]
      apply List.ext_getElem?
      intro index
      match index with
      | 0 => simpa using here
      | 1 => simpa using next
      | index + 2 =>
        rw [List.getElem?_drop, List.getElem?_eq_none (by rw [List.length_take]; omega)]
        rfl
    · left
      omega

end Adjusted

theorem lastBelow_lt {p : Nat → Bool} {bound index : Nat} (found : lastBelow p bound = some index) :
    index < bound := by
  induction bound with
  | zero => cases found
  | succ bound ih =>
    unfold lastBelow at found
    split at found
    · cases found
      exact Nat.lt_succ_self _
    · exact Nat.lt_succ_of_lt (ih found)

theorem matchParagraph_le {text : Text} {length : Nat} (found : matchParagraph text = some length) :
    length ≤ text.length := by
  unfold matchParagraph at found
  split at found
  · rename_i rest
    dsimp only at found
    split at found
    · cases found
    · cases found
      have blanks := (List.takeWhile_sublist fun unit => unit == 9 || unit == 32 : List.Sublist _ rest).length_le
      have newlines := (List.takeWhile_sublist fun unit => unit == 10 : List.Sublist _
        (rest.drop (rest.takeWhile fun unit => unit == 9 || unit == 32).length)).length_le
      rw [List.length_drop] at newlines
      simp only [List.length_cons]
      omega
  · cases found

theorem lastParagraphEnd_le {text : Text} {index skip : Nat} {last : Option Nat} {paragraphEnd : Nat}
    (before : ∀ stop ∈ last, stop ≤ index + text.length)
    (found : lastParagraphEnd text index skip last = some paragraphEnd) :
    paragraphEnd ≤ index + text.length := by
  induction text, index, skip, last using lastParagraphEnd.induct with
  | case1 index skip last => exact before paragraphEnd found
  | case2 unit rest index skip last ih =>
    rw [lastParagraphEnd] at found
    have later := ih (fun stop isLast => by
      have upTo := before stop isLast
      simp only [List.length_cons] at upTo
      omega) found
    simp only [List.length_cons]
    omega
  | case3 unit rest index last none ih =>
    rw [lastParagraphEnd, none] at found
    have later := ih (fun stop isLast => by
      have upTo := before stop isLast
      simp only [List.length_cons] at upTo
      omega) found
    simp only [List.length_cons]
    omega
  | case4 unit rest index last length matched ih =>
    rw [lastParagraphEnd, matched] at found
    have short := matchParagraph_le matched
    simp only [List.length_cons] at short ⊢
    have later := ih (fun stop isLast => by
      cases isLast
      omega) found
    omega

theorem findPreferredRangeEnd_le {text : Text} {start stop preferredEnd : Nat} (inside : stop ≤ text.length)
    (ordered : start ≤ stop) (found : findPreferredRangeEnd text start stop = some preferredEnd) :
    preferredEnd ≤ stop := by
  unfold findPreferredRangeEnd at found
  split at found
  · rename_i paragraphEnd paragraph
    cases found
    have upTo := lastParagraphEnd_le (fun stop isLast => by cases isLast) paragraph
    rw [length_sliceText text inside] at upTo
    omega
  · split at found
    · rename_i newlineIndex newline
      cases found
      have less := lastBelow_lt (Option.filter_eq_some_iff.mp newline).1
      omega
    · obtain ⟨index, kept, rfl⟩ := Option.map_eq_some_iff.mp found
      have less := lastBelow_lt (Option.filter_eq_some_iff.mp kept).1
      omega

theorem candidate_le (text : Text) (limit : ChunkLimit) (mode : Option ChunkMode) (start : Nat) :
    ((if mode = some .preferred ∧ min text.length (start + limit.units) < text.length then
        findPreferredRangeEnd text start (min text.length (start + limit.units))
      else none).filter (start < ·)).getD (min text.length (start + limit.units)) ≤
      min text.length (start + limit.units) := by
  split
  · cases kept : (findPreferredRangeEnd text start (min text.length (start + limit.units))).filter (start < ·) with
    | none => exact Nat.le_refl _
    | some preferredEnd =>
      have short : start < text.length := by omega
      exact findPreferredRangeEnd_le (Nat.min_le_left _ _) (by omega) (Option.filter_eq_some_iff.mp kept).1
  · exact Nat.le_refl _

/-- Ranges that follow one another from `start` to `stop`, none of them empty. -/
inductive Contiguous : Nat → List TextRange → Nat → Prop
  | nil {place} : Contiguous place [] place
  | cons {range rest stop} : range.start < range.stop → Contiguous range.stop rest stop →
      Contiguous range.start (range :: rest) stop

theorem contiguous_rangesFrom (text : Text) (limit : ChunkLimit) (mode : Option ChunkMode) {start : Nat}
    (inside : start ≤ text.length) :
    Contiguous start (rangesFrom text limit mode start) text.length ∧
      ∀ range ∈ rangesFrom text limit mode start, range.stop ≤ text.length ∧
        cutsPair text range.stop = false ∧ Fits limit.units (sliceText text range.start range.stop) := by
  fun_induction rangesFrom text limit mode start with
  | case1 start less ih =>
    have candidate := candidate_le text limit mode start
    have later := @lt_candidate text limit start less
      (if mode = some .preferred ∧ min text.length (start + limit.units) < text.length then
        findPreferredRangeEnd text start (min text.length (start + limit.units)) else none)
    have inText := Nat.le_trans candidate (Nat.min_le_left _ _)
    obtain ⟨rest, each⟩ := ih (avoid_le_length later inText)
    refine ⟨@Contiguous.cons ⟨start, _⟩ _ _ (lt_rangeEnd limit mode less) rest, ?_⟩
    intro range inRanges
    rcases List.mem_cons.mp inRanges with rfl | inRest
    · exact ⟨avoid_le_length later inText, cutsPair_avoid later,
        fits_avoid later inText (Nat.le_trans candidate (Nat.min_le_right _ _))⟩
    · exact each range inRest
  | case2 start =>
    rename_i past
    have final : start = text.length := by omega
    rw [final]
    exact ⟨.nil, fun range inRanges => by cases inRanges⟩

theorem scanBreakpointsFrom_lt {text : Text} {index depth : Nat} {found : Breakpoints}
    (newline : found.lastNewline < index) (whitespace : found.lastWhitespace < index) :
    (scanBreakpointsFrom text index depth found).lastNewline < index + text.length ∧
      (scanBreakpointsFrom text index depth found).lastWhitespace < index + text.length := by
  induction text generalizing index depth found with
  | nil => exact ⟨by simpa [scanBreakpointsFrom] using newline, by
      simpa [scanBreakpointsFrom] using whitespace⟩
  | cons unit rest ih =>
    have later : ∀ {depth : Nat} {found : Breakpoints}, found.lastNewline < (index + 1 : Nat) →
        found.lastWhitespace < (index + 1 : Nat) →
        (scanBreakpointsFrom rest (index + 1) depth found).lastNewline < index + (unit :: rest).length ∧
          (scanBreakpointsFrom rest (index + 1) depth found).lastWhitespace < index + (unit :: rest).length := by
      intro depth found newline whitespace
      have both := @ih _ depth _ newline whitespace
      simp only [List.length_cons]
      omega
    unfold scanBreakpointsFrom
    split_ifs
    · exact later (by omega) (by omega)
    · exact later (by omega) (by omega)
    · exact later (by omega) (by omega)
    · exact later (by dsimp only; omega) (by dsimp only; omega)
    · exact later (by dsimp only; omega) (by dsimp only; omega)
    · exact later (by omega) (by omega)

section ChunkEnd

variable {text : Text} {limit : ChunkLimit} {cursor : Nat} (inside : cursor < text.length)

include inside

theorem exists_chunkEnd : ∃ stop, cursor < stop ∧ stop ≤ min text.length (cursor + limit.units) ∧
    chunkEnd text limit cursor = avoidTrailingHighSurrogateBreak text cursor stop := by
  have positive := limit.positive
  refine ⟨_, ?_, ?_, rfl⟩
  · split_ifs <;> omega
  · have both := @scanBreakpointsFrom_lt
      (sliceText text cursor (min text.length (cursor + limit.units))) 0 0 ⟨-1, -1⟩ (by decide) (by decide)
    rw [length_sliceText text (Nat.min_le_left _ _)] at both
    unfold scanParenAwareBreakpoints
    split_ifs <;> omega

theorem chunkEnd_le : chunkEnd text limit cursor ≤ text.length := by
  obtain ⟨stop, less, upTo, same⟩ := @exists_chunkEnd _ limit _ inside
  rw [same]
  exact avoid_le_length less (by omega)

theorem fits_chunk : Fits limit.units (sliceText text cursor (chunkEnd text limit cursor)) := by
  obtain ⟨stop, less, upTo, same⟩ := @exists_chunkEnd _ limit _ inside
  rw [same]
  exact fits_avoid less (by omega) (by omega)

end ChunkEnd

theorem whitespaceFrom_append_drop (text : Text) (cursor : Nat) :
    whitespaceFrom text cursor ++ text.drop (cursor + (whitespaceFrom text cursor).length) = text.drop cursor := by
  rw [← List.drop_drop]
  conv_rhs => rw [← List.takeWhile_append_dropWhile (p := isWhitespace) (l := text.drop cursor)]
  rw [whitespaceFrom]
  congr 1
  conv_lhs =>
    enter [2]
    rw [← List.takeWhile_append_dropWhile (p := isWhitespace) (l := text.drop cursor)]
  rw [List.drop_left]

/-- Chunks with the white space left out after each of them. -/
structure ChunksOf (units : Nat) (text : Text) (parts : List (Text × Text)) : Prop where
  whole : (parts.flatMap fun part => part.1 ++ part.2) = text
  nonempty : ∀ part ∈ parts, part.1 ≠ []
  fits : ∀ part ∈ parts, Fits units part.1
  blank : ∀ part ∈ parts, ∀ unit ∈ part.2, isWhitespace unit = true
  last : ∀ part ∈ parts.getLast?, part.2 ≠ [] → units < part.1.length + part.2.length

theorem exists_parts (text : Text) (limit : ChunkLimit) {cursor : Nat} (inside : cursor ≤ text.length) :
    ∃ parts, chunksFrom text limit cursor = parts.map Prod.fst ∧ ChunksOf limit.units (text.drop cursor) parts := by
  fun_induction chunksFrom text limit cursor with
  | case1 cursor less short =>
    have length := @List.length_drop _ cursor text
    refine ⟨[(text.drop cursor, [])], rfl, ?_⟩
    constructor
    · simp
    · intro part inParts empty
      obtain rfl := List.mem_singleton.mp inParts
      have none := congrArg List.length empty
      rw [length, List.length_nil] at none
      omega
    · intro part inParts
      obtain rfl := List.mem_singleton.mp inParts
      exact .inl (length.trans_le short)
    · intro part inParts
      obtain rfl := List.mem_singleton.mp inParts
      simp
    · intro part isLast
      cases isLast
      simp
  | case2 cursor less long stop ih =>
    have further : cursor < stop := lt_chunkEnd limit less
    have inText : stop ≤ text.length := chunkEnd_le less
    have fits : Fits limit.units (sliceText text cursor stop) := fits_chunk less
    clear_value stop
    have blank : (whitespaceFrom text stop).length ≤ (text.drop stop).length :=
      (List.takeWhile_sublist _).length_le
    have whole : sliceText text cursor stop ++ (whitespaceFrom text stop ++
        text.drop (stop + (whitespaceFrom text stop).length)) = text.drop cursor := by
      rw [whitespaceFrom_append_drop, sliceText_append_drop (Nat.le_of_lt further) inText]
    have length := congrArg List.length whole
    simp only [List.length_append, List.length_drop, length_sliceText text inText] at length blank
    obtain ⟨parts, same, rest⟩ := ih (by omega)
    refine ⟨(sliceText text cursor stop, whitespaceFrom text stop) :: parts, by rw [same]; rfl, ?_⟩
    constructor
    · rw [List.flatMap_cons, rest.whole, List.append_assoc, whole]
    · intro part inParts
      rcases List.mem_cons.mp inParts with rfl | inRest
      · intro empty
        have none := congrArg List.length empty
        rw [length_sliceText text inText, List.length_nil] at none
        omega
      · exact rest.nonempty part inRest
    · intro part inParts
      rcases List.mem_cons.mp inParts with rfl | inRest
      · exact fits
      · exact rest.fits part inRest
    · intro part inParts
      rcases List.mem_cons.mp inParts with rfl | inRest
      · intro unit inBlank
        exact List.all_eq_true.mp List.all_takeWhile unit inBlank
      · exact rest.blank part inRest
    · intro part isLast dropped
      cases parts with
      | nil =>
        cases isLast
        have none := congrArg List.length rest.whole
        rw [List.flatMap_nil, List.length_nil, List.length_drop] at none
        show limit.units < (sliceText text cursor stop).length + (whitespaceFrom text stop).length
        rw [length_sliceText text inText]
        omega
      | cons next others => exact rest.last part isLast dropped
  | case3 cursor =>
    rename_i past
    refine ⟨[], rfl, ?_⟩
    rw [List.drop_eq_nil_of_le (by omega)]
    constructor <;> simp

/-- A chunk that a limit admits, or a pair where the limit is less than two units. -/
def Within (limit : Rat) (chunk : Text) : Prop :=
  (chunk.length : Rat) ≤ limit ∨
    limit < 2 ∧ ∃ high low, chunk = [high, low] ∧ isHighSurrogate high = true ∧ isLowSurrogate low = true

theorem normalizeChunkLimit_of_one_le {limit : Rat} (least : 1 ≤ limit) :
    ∃ units : ChunkLimit, normalizeChunkLimit limit = some units ∧ (units.units : Rat) ≤ limit ∧
      limit < (units.units : Rat) + 1 := by
  have positive : 0 < limit := by grind
  have floor : 1 ≤ limit.floor := Rat.le_floor_iff.mpr (by exact_mod_cast least)
  have same : ((max 1 limit.floor.toNat : Nat) : Int) = limit.floor := by omega
  have cast : (((max 1 limit.floor.toNat : Nat) : Rat)) = (limit.floor : Rat) := by exact_mod_cast congrArg (Int.cast : Int → Rat) same
  refine ⟨_, if_pos positive, ?_, ?_⟩
  · rw [cast]
    exact Rat.floor_le limit
  · rw [cast]
    have next := Rat.lt_floor_add_one limit
    exact_mod_cast next

theorem Within.of_fits {units : ChunkLimit} {limit : Rat} (upTo : (units.units : Rat) ≤ limit)
    (less : limit < (units.units : Rat) + 1) {chunk : Text} (fits : Fits units.units chunk) :
    Within limit chunk := by
  obtain short | ⟨one, pair⟩ := fits
  · left
    have cast : (chunk.length : Rat) ≤ (units.units : Rat) := by exact_mod_cast short
    grind
  · right
    rw [one] at less
    exact ⟨by grind, pair⟩

/-- Ranges and chunks of a text: ranges are all of it, chunks leave out white space after cuts only, each is
within the limit, and no range ends inside a pair. -/
theorem chunking_lossless (text : Text) {limit : Rat} (least : 1 ≤ limit) :
    (∀ mode, Contiguous 0 (chunkTextRanges text limit mode) text.length ∧ ∀ range ∈ chunkTextRanges text limit mode,
        Within limit (sliceText text range.start range.stop) ∧ cutsPair text range.stop = false) ∧
    ∃ parts : List (Text × Text), chunkText text limit = parts.map Prod.fst ∧
      (parts.flatMap fun part => part.1 ++ part.2) = text ∧
      (∀ part ∈ parts, part.1 ≠ [] ∧ Within limit part.1 ∧ ∀ unit ∈ part.2, isWhitespace unit = true) ∧
      ∀ part ∈ parts.getLast?, part.2 ≠ [] → limit < (part.1.length + part.2.length : Nat) := by
  obtain ⟨units, normalized, upTo, less⟩ := normalizeChunkLimit_of_one_le least
  have uncut : cutsPair text text.length = false := by
    rw [cutsPair, List.getElem?_eq_none (Nat.le_refl _)]
    simp
  have all : sliceText text 0 text.length = text := by simp [sliceText]
  by_cases empty : text = []
  · rw [empty]
    refine ⟨fun mode => ⟨.nil, fun range inRanges => by cases inRanges⟩, [], rfl, rfl, ?_, ?_⟩ <;> simp
  by_cases short : text.length ≤ units.units
  · have within : Within limit text := .of_fits upTo less (.inl short)
    have some := List.length_pos_iff.mpr empty
    have ranges : ∀ mode, chunkTextRanges text limit mode = [⟨0, text.length⟩] := by
      intro mode
      rw [chunkTextRanges, if_neg empty, normalized]
      exact if_pos short
    have chunks : chunkText text limit = [text] := by
      rw [chunkText, if_neg empty, normalized]
      exact if_pos short
    refine ⟨fun mode => ?_, [(text, [])], chunks, by simp, ?_, ?_⟩
    · rw [ranges]
      refine ⟨@Contiguous.cons ⟨0, _⟩ _ _ some .nil, ?_⟩
      intro range inRanges
      obtain rfl := List.mem_singleton.mp inRanges
      rw [all]
      exact ⟨within, uncut⟩
    · intro part inParts
      obtain rfl := List.mem_singleton.mp inParts
      exact ⟨empty, within, fun unit inBlank => by cases inBlank⟩
    · intro part isLast dropped
      cases isLast
      exact absurd rfl dropped
  · have ranges : ∀ mode, chunkTextRanges text limit mode = rangesFrom text units mode 0 := by
      intro mode
      rw [chunkTextRanges, if_neg empty, normalized]
      exact if_neg short
    have chunks : chunkText text limit = chunksFrom text units 0 := by
      rw [chunkText, if_neg empty, normalized]
      exact if_neg short
    obtain ⟨parts, same, kept⟩ := exists_parts text units (Nat.zero_le _)
    rw [List.drop_zero] at kept
    refine ⟨fun mode => ?_, parts, chunks.trans same, kept.whole, ?_, ?_⟩
    · obtain ⟨contiguous, each⟩ := contiguous_rangesFrom text units mode (Nat.zero_le _)
      rw [ranges]
      refine ⟨contiguous, fun range inRanges => ?_⟩
      obtain ⟨-, whole, fits⟩ := each range inRanges
      exact ⟨.of_fits upTo less fits, whole⟩
    · exact fun part inParts => ⟨kept.nonempty part inParts, .of_fits upTo less (kept.fits part inParts),
        kept.blank part inParts⟩
    · intro part isLast dropped
      have more : units.units + 1 ≤ part.1.length + part.2.length := kept.last part isLast dropped
      have cast : (units.units : Rat) + 1 ≤ ((part.1.length + part.2.length : Nat) : Rat) := by
        exact_mod_cast more
      grind

/-- White space after the last cut is left out too. -/
theorem chunkText_drops_last : chunkText (ScriptText.lit "abc   ") 3 = [ScriptText.lit "abc"] ∧
    ¬ ∃ parts : List (Text × Text), chunkText (ScriptText.lit "abc   ") 3 = parts.map Prod.fst ∧
      (parts.flatMap fun part => part.1 ++ part.2) = ScriptText.lit "abc   " ∧
      ∀ part ∈ parts.getLast?, part.2 = [] := by
  have chunks : chunkText (ScriptText.lit "abc   ") 3 = [ScriptText.lit "abc"] := by
    have limit : normalizeChunkLimit 3 = some ⟨3, by decide⟩ := by decide +kernel
    have stop : chunkEnd (ScriptText.lit "abc   ") ⟨3, by decide⟩ 0 = 3 := by decide +kernel
    have blank : (whitespaceFrom (ScriptText.lit "abc   ") 3).length = 3 := by decide +kernel
    rw [chunkText, if_neg (by decide +kernel), limit]
    dsimp only
    rw [if_neg (by decide +kernel), chunksFrom, dif_pos (by decide +kernel), if_neg (by decide +kernel)]
    dsimp only
    rw [stop, blank, chunksFrom, dif_neg (by decide +kernel)]
    decide +kernel
  refine ⟨chunks, ?_⟩
  rintro ⟨parts, same, whole, last⟩
  rw [chunks] at same
  obtain ⟨part, rest, rfl, first, none⟩ := List.map_eq_cons_iff.mp same.symm
  obtain rfl := List.map_eq_nil_iff.mp none
  have empty := last part rfl
  rw [List.flatMap_singleton, first, empty, List.append_nil] at whole
  exact absurd whole (by decide +kernel)

/-- A limit that holds one unit of a pair. -/
theorem chunking_lossless_pair : (∀ range ∈ chunkTextRanges [0xD83D, 0xDE00] 1 none,
      Within 1 (sliceText [0xD83D, 0xDE00] range.start range.stop)) ∧
    Contiguous 0 (chunkTextRanges [0xD83D, 0xDE00] 1 none) 2 := by
  obtain ⟨contiguous, each⟩ := (@chunking_lossless [0xD83D, 0xDE00] 1 (by decide)).1 none
  exact ⟨fun range inRanges => (each range inRanges).1, contiguous⟩

end PlatformClaw.Markdown
