import PlatformClaw.Markdown.ChunkText

/-! # Chunks of a rendered document

A document is cut so that its chunks are within a limit once they are rendered, whatever rendering makes of
a text. It is first cut by the length of its text, then every chunk that is still too large is cut again,
and at last chunks of white space are given to their neighbours.
-/

namespace PlatformClaw.Markdown

open ScriptText (Text isWhitespace isHighSurrogate isLowSurrogate)

/-- A document with its list items and what is kept about its blocks, which slices take along. -/
structure SourceIR (ι : Type) extends MarkdownIR where
  items : Option ι := none

structure RenderedMarkdownChunk (ι α : Type) where
  rendered : α
  source : SourceIR ι

structure AssistantTranscriptRoleHeaderSpan extends TextRange where
  kind : AssistantTranscriptRoleHeaderKind
  role : AssistantTranscriptRole
deriving DecidableEq, Repr

/-- `other` is no number or the negative infinity. -/
inductive RenderLimit
  | unlimited
  | finite (limit : Rat)
  | other

/-- How chunks are rendered and measured; a size is `none` where it is no finite number. -/
structure RenderResolver (ι α : Type) where
  measureRendered : α → Option Rat
  renderChunk : SourceIR ι → α

structure RenderMarkdownIRChunksWithinLimitOptions (ι α : Type) extends RenderResolver ι α where
  ir : SourceIR ι
  limit : RenderLimit
  assistantTranscriptRoleMessageBoundaries : Bool := false

theorem resolved_pos (value : Rat) : 0 < max 1 value.floor.toNat := by omega

/-- At least one. -/
def resolveIntegerOption (value : Rat) : ChunkLimit := ⟨max 1 value.floor.toNat, resolved_pos value⟩

def rangesOverlap (left right : TextRange) : Bool := left.start < right.stop && left.stop > right.start

section Boundary

variable {ι : Type} (findAssistantTranscriptRoleHeaderSpans :
  Text → List TextRange → List AssistantTranscriptRoleHeaderSpan)

/-- A first line that reads as the header of a transcript is marked as one, and links in it are removed. -/
def annotateAssistantTranscriptRoleMessageBoundary (ir : SourceIR ι) : SourceIR ι :=
  let boundaryText := ir.text.takeWhile (· != 10)
  let excludedRanges := (ir.styles.filter fun span =>
      (span.style = .code || span.style = .code_block) && span.start < boundaryText.length).map
    fun span => (⟨span.start, min span.stop boundaryText.length⟩ : TextRange)
  match (findAssistantTranscriptRoleHeaderSpans boundaryText excludedRanges).head? with
  | none => ir
  | some boundarySpan =>
    if ir.annotations.any fun span => rangesOverlap span.toTextRange boundarySpan.toTextRange then ir
    else
      let annotation : MarkdownAnnotationSpan :=
        { toTextRange := boundarySpan.toTextRange
          type := .assistant_transcript_role
          kind := boundarySpan.kind
          role := boundarySpan.role }
      { ir with
        links := ir.links.filter fun link => !rangesOverlap link.toTextRange annotation.toTextRange
        annotations := mergeAnnotationSpans (ir.annotations ++ [ annotation]) }

def prepareChunkForMessageBoundary (boundaries : Bool) (chunk : SourceIR ι) : SourceIR ι :=
  if boundaries then
    annotateAssistantTranscriptRoleMessageBoundary findAssistantTranscriptRoleHeaderSpans chunk
  else chunk

theorem text_prepareChunk (boundaries : Bool) (chunk : SourceIR ι) :
    (prepareChunkForMessageBoundary findAssistantTranscriptRoleHeaderSpans boundaries chunk).text = chunk.text := by
  unfold prepareChunkForMessageBoundary annotateAssistantTranscriptRoleMessageBoundary
  dsimp only
  split
  · split
    · rfl
    · split <;> rfl
  · rfl

end Boundary

/-- What a window shows: the last breaks outside of parentheses and anywhere, -1 where there is none, and
where their runs of white space begin. -/
structure SplitBreaks where
  lastOutsideParenNewlineBreak : Int := -1
  lastOutsideParenWhitespaceBreak : Int := -1
  lastOutsideParenWhitespaceRunStart : Int := -1
  lastAnyNewlineBreak : Int := -1
  lastAnyWhitespaceBreak : Int := -1
  lastAnyWhitespaceRunStart : Int := -1
  parenDepth : Nat := 0
  sawNonWhitespace : Bool := false

def SplitBreaks.step (text : Text) (start : Nat) (found : SplitBreaks) (index : Nat) : SplitBreaks :=
  let char := text.getD index 0
  if char = 40 then { found with sawNonWhitespace := true, parenDepth := found.parenDepth + 1 }
  else if char = 41 ∧ 0 < found.parenDepth then
    { found with sawNonWhitespace := true, parenDepth := found.parenDepth - 1 }
  else if isWhitespace char = false then { found with sawNonWhitespace := true }
  else if found.sawNonWhitespace = false then found
  else if char = 10 then
    if found.parenDepth = 0 then
      { found with lastAnyNewlineBreak := index + 1, lastOutsideParenNewlineBreak := index + 1 }
    else { found with lastAnyNewlineBreak := index + 1 }
  else
    let whitespaceRunStart : Int :=
      if index = start ∨ isWhitespace (text.getD (index - 1) 0) = false then index
      else found.lastAnyWhitespaceRunStart
    if found.parenDepth = 0 then
      { found with
        lastAnyWhitespaceBreak := index + 1
        lastAnyWhitespaceRunStart := whitespaceRunStart
        lastOutsideParenWhitespaceBreak := index + 1
        lastOutsideParenWhitespaceRunStart := whitespaceRunStart }
    else
      { found with
        lastAnyWhitespaceBreak := index + 1
        lastAnyWhitespaceRunStart := whitespaceRunStart }

/-- Before a run of white space that goes on after the break, or at the break. -/
def resolveWhitespaceBreak (text : Text) (start : Nat) (breakIndex runStart : Int) : Int :=
  if breakIndex ≤ start then breakIndex
  else if runStart ≤ start then breakIndex
  else if isWhitespace (text.getD breakIndex.toNat 0) then runStart else breakIndex

def findMarkdownIRPreservedSplitIndex (text : Text) (start : Nat) (limit : ChunkLimit) : Nat :=
  let maxEnd := min text.length (start + limit.units)
  if text.length ≤ maxEnd then text.length
  else
    let found := (List.range' start (maxEnd - start)).foldl (SplitBreaks.step text start) {}
    if found.lastOutsideParenNewlineBreak > start then found.lastOutsideParenNewlineBreak.toNat
    else if found.lastOutsideParenWhitespaceBreak > start then
      (resolveWhitespaceBreak text start found.lastOutsideParenWhitespaceBreak
        found.lastOutsideParenWhitespaceRunStart).toNat
    else if found.lastAnyNewlineBreak > start then found.lastAnyNewlineBreak.toNat
    else if found.lastAnyWhitespaceBreak > start then
      (resolveWhitespaceBreak text start found.lastAnyWhitespaceBreak found.lastAnyWhitespaceRunStart).toNat
    else avoidTrailingHighSurrogateBreak text start maxEnd

/-- Right after a unit of white space of the window. -/
def AfterWhitespace (text : Text) (start stop : Nat) (place : Int) : Prop :=
  place = -1 ∨ ∃ index : Nat, place = index + 1 ∧ start ≤ index ∧ index < stop ∧
    isWhitespace (text.getD index 0) = true

/-- At a unit of white space of the window. -/
def AtWhitespace (text : Text) (start stop : Nat) (place : Int) : Prop :=
  place = -1 ∨ ∃ index : Nat, place = index ∧ start ≤ index ∧ index < stop ∧ isWhitespace (text.getD index 0) = true

structure SplitBreaks.Sound (text : Text) (start stop : Nat) (found : SplitBreaks) : Prop where
  outsideNewline : AfterWhitespace text start stop found.lastOutsideParenNewlineBreak
  outsideWhitespace : AfterWhitespace text start stop found.lastOutsideParenWhitespaceBreak
  outsideRun : AtWhitespace text start stop found.lastOutsideParenWhitespaceRunStart
  anyNewline : AfterWhitespace text start stop found.lastAnyNewlineBreak
  anyWhitespace : AfterWhitespace text start stop found.lastAnyWhitespaceBreak
  anyRun : AtWhitespace text start stop found.lastAnyWhitespaceRunStart

section Window

variable {text : Text} {start stop : Nat}

theorem SplitBreaks.Sound.step {found : SplitBreaks} (sound : found.Sound text start stop) {index : Nat}
    (first : start ≤ index) (inside : index < stop) : (found.step text start index).Sound text start stop := by
  have after : isWhitespace (text.getD index 0) = true →
      AfterWhitespace text start stop ((index : Int) + 1) := fun white =>
    .inr ⟨index, rfl, first, inside, white⟩
  have run : isWhitespace (text.getD index 0) = true → AtWhitespace text start stop
        (if index = start ∨ isWhitespace (text.getD (index - 1) 0) = false then (index : Int)
          else found.lastAnyWhitespaceRunStart) := by
    intro white
    split
    · exact .inr ⟨index, rfl, first, inside, white⟩
    · exact sound.anyRun
  unfold SplitBreaks.step
  dsimp only
  split
  · exact { sound with }
  · split
    · exact { sound with }
    · split
      · exact { sound with }
      · rename_i white
        rw [Bool.not_eq_false] at white
        split
        · exact sound
        · split
          · split
            · exact { sound with anyNewline := after white, outsideNewline := after white }
            · exact { sound with anyNewline := after white }
          · split
            · exact { sound with
                anyWhitespace := after white
                anyRun := run white
                outsideWhitespace := after white
                outsideRun := run white }
            · exact { sound with anyWhitespace := after white, anyRun := run white }

theorem SplitBreaks.Sound.foldl {found : SplitBreaks} (sound : found.Sound text start stop) (indices : List Nat)
    (inside : ∀ index ∈ indices, start ≤ index ∧ index < stop) :
    (indices.foldl (SplitBreaks.step text start) found).Sound text start stop := by
  induction indices generalizing found with
  | nil => exact sound
  | cons index rest ih =>
    have here := inside index List.mem_cons_self
    exact ih (sound.step here.1 here.2) fun other inRest =>
      inside other (List.mem_cons_of_mem _ inRest)

theorem not_surrogate_of_white {unit : Nat} (white : isWhitespace unit = true) :
    isHighSurrogate unit = false ∧ isLowSurrogate unit = false := by
  simp only [isWhitespace, ScriptString.isWhitespacePoint] at white
  simp only [isHighSurrogate, isLowSurrogate]
  grind

/-- A split stands in the window, past its start, and leaves pairs whole. -/
def IsSplit (text : Text) (start stop index : Nat) : Prop :=
  start < index ∧ index ≤ stop ∧ cutsPair text index = false

theorem AfterWhitespace.isSplit {place : Int} (after : AfterWhitespace text start stop place)
    (late : place > start) : IsSplit text start stop place.toNat := by
  obtain rfl | ⟨index, rfl, first, inside, white⟩ := after
  · omega
  · refine ⟨by omega, by omega, ?_⟩
    rw [Bool.eq_false_iff]
    intro cut
    obtain ⟨-, high, -, here, -, isHigh, -⟩ := cutsPair_iff.mp cut
    have place : ((index : Int) + 1).toNat - 1 = index := by omega
    rw [place] at here
    rw [List.getD_eq_getElem?_getD, here, Option.getD_some] at white
    rw [(not_surrogate_of_white white).1] at isHigh
    cases isHigh

theorem AtWhitespace.isSplit {place : Int} (here : AtWhitespace text start stop place)
    (late : place > start) : IsSplit text start stop place.toNat := by
  obtain rfl | ⟨index, rfl, first, inside, white⟩ := here
  · omega
  · refine ⟨by omega, by omega, ?_⟩
    rw [Bool.eq_false_iff]
    intro cut
    obtain ⟨-, -, low, -, here, -, isLow⟩ := cutsPair_iff.mp cut
    rw [Int.toNat_natCast] at here
    rw [List.getD_eq_getElem?_getD, here, Option.getD_some] at white
    rw [(not_surrogate_of_white white).2] at isLow
    cases isLow

theorem isSplit_resolve {breakIndex runStart : Int} (after : AfterWhitespace text start stop breakIndex)
    (run : AtWhitespace text start stop runStart) (late : breakIndex > start) :
    IsSplit text start stop (resolveWhitespaceBreak text start breakIndex runStart).toNat := by
  unfold resolveWhitespaceBreak
  split
  · exact after.isSplit late
  · split
    · exact after.isSplit late
    · split
      · exact run.isSplit (by omega)
      · exact after.isSplit late

end Window

theorem findSplitIndex_spec {text : Text} {start : Nat} (limit : ChunkLimit) (inside : start < text.length) :
    let stop := findMarkdownIRPreservedSplitIndex text start limit
    start < stop ∧ stop ≤ text.length ∧ cutsPair text stop = false ∧
      (cutsPair text (start + limit.units) = false → stop ≤ start + limit.units) := by
  have positive := limit.positive
  have last : cutsPair text text.length = false := by
    simp [cutsPair]
  unfold findMarkdownIRPreservedSplitIndex
  dsimp only
  split
  · exact ⟨inside, Nat.le_refl _, last, fun _ => by omega⟩
  · rename_i window
    have maxEnd : min text.length (start + limit.units) = start + limit.units := by omega
    rw [maxEnd]
    have sound : SplitBreaks.Sound text start (start + limit.units)
        ((List.range' start (start + limit.units - start)).foldl (SplitBreaks.step text start) {}) := by
      apply SplitBreaks.Sound.foldl
      · exact ⟨.inl rfl, .inl rfl, .inl rfl, .inl rfl, .inl rfl, .inl rfl⟩
      · intro index inWindow
        rw [List.mem_range'_1] at inWindow
        omega
    generalize (List.range' start (start + limit.units - start)).foldl (SplitBreaks.step text start) {} = found
      at sound
    have fromSplit : ∀ {index : Nat}, IsSplit text start (start + limit.units) index →
        start < index ∧ index ≤ text.length ∧ cutsPair text index = false ∧
          (cutsPair text (start + limit.units) = false → index ≤ start + limit.units) := by
      intro index isSplit
      exact ⟨isSplit.1, by have upTo := isSplit.2.1; omega, isSplit.2.2, fun _ => isSplit.2.1⟩
    split
    · exact fromSplit (sound.outsideNewline.isSplit ‹_›)
    · split
      · exact fromSplit (isSplit_resolve sound.outsideWhitespace sound.outsideRun ‹_›)
      · split
        · exact fromSplit (sound.anyNewline.isSplit ‹_›)
        · split
          · exact fromSplit (isSplit_resolve sound.anyWhitespace sound.anyRun ‹_›)
          · have less : start < start + limit.units := by omega
            refine ⟨lt_avoid less, avoid_le_length less (by omega), cutsPair_avoid less, fun whole => ?_⟩
            obtain ⟨same, -⟩ | ⟨cut, -⟩ | ⟨cut, -⟩ := avoid_cases text less
            · omega
            · rw [whole] at cut
              cases cut
            · rw [whole] at cut
              cases cut

section Split

variable {ι α : Type} (sliceItems : ι → TextRange → Option ι)

/-- `sliceMarkdownIR` with what slices take along. -/
def sliceSource (ir : SourceIR ι) (start stop : Int) : SourceIR ι where
  toMarkdownIR := sliceMarkdownIR ir.toMarkdownIR start stop
  items := ir.items.bind fun items => sliceItems items (normalizeSlice ir.text start stop)

def splitPreserveFrom (ir : SourceIR ι) (limit : ChunkLimit) (cursor : Nat) : List (SourceIR ι) :=
  if _inside : cursor < ir.text.length then
    let stop := findMarkdownIRPreservedSplitIndex ir.text cursor limit
    sliceSource sliceItems ir cursor stop :: splitPreserveFrom ir limit stop
  else []
termination_by ir.text.length - cursor
decreasing_by
  have further := (findSplitIndex_spec limit _inside).1
  omega

def splitMarkdownIRPreserveWhitespace (ir : SourceIR ι) (limit : Rat) : List (SourceIR ι) :=
  if ir.text = [] then []
  else
    let normalizedLimit := resolveIntegerOption limit
    if ir.text.length ≤ normalizedLimit.units then [ir] else splitPreserveFrom sliceItems ir normalizedLimit 0

end Split

theorem cutsPair_length {text : Text} : cutsPair text text.length = false := by simp [cutsPair]

/-- Texts that follow one another from a place to the end of a text and begin between whole pairs. -/
inductive Laid (text : Text) : Nat → List Text → Prop where
  | done : Laid text text.length []
  | next {place : Nat} {chunk : Text} {rest : List Text} :
      cutsPair text place = false → place + chunk.length ≤ text.length →
        sliceText text place (place + chunk.length) = chunk → Laid text (place + chunk.length) rest →
          Laid text place (chunk :: rest)

theorem Laid.cons {text chunk : Text} {place : Nat} {rest : List Text} (laid : Laid text place (chunk :: rest)) :
    cutsPair text place = false ∧ place + chunk.length ≤ text.length ∧
      sliceText text place (place + chunk.length) = chunk ∧ Laid text (place + chunk.length) rest := by
  cases laid with
  | next whole inside slice later => exact ⟨whole, inside, slice, later⟩

theorem Laid.whole {text : Text} {place : Nat} {chunks : List Text} (laid : Laid text place chunks) :
    cutsPair text place = false := by
  cases laid with
  | done => exact cutsPair_length
  | next whole => exact whole

theorem Laid.le_length {text : Text} {place : Nat} {chunks : List Text} (laid : Laid text place chunks) :
    place ≤ text.length := by
  cases laid with
  | done => exact Nat.le_refl _
  | next whole inside => omega

theorem Laid.flatten {text : Text} {place : Nat} {chunks : List Text} (laid : Laid text place chunks) :
    chunks.flatten = text.drop place := by
  induction laid with
  | done => simp
  | next whole inside slice later ih =>
    rw [List.flatten_cons, ih]
    nth_rewrite 1 [← slice]
    exact sliceText_append_drop (Nat.le_add_right _ _) inside

theorem getElem?_sliceText {text : Text} {place size index : Nat} (inside : index < size) :
    (sliceText text place (place + size))[index]? = text[place + index]? := by
  rw [sliceText, List.getElem?_drop, List.getElem?_take_of_lt (by omega)]

theorem cutsPair_sliceText {text : Text} {place size index : Nat} (first : 0 < index) (inside : index < size) :
    cutsPair (sliceText text place (place + size)) index = cutsPair text (place + index) := by
  have before : place + index - 1 = place + (index - 1) := by omega
  have positive : 0 < place + index := by omega
  rw [cutsPair, cutsPair, getElem?_sliceText inside, getElem?_sliceText (by omega), before]
  simp [first, positive]

theorem sliceText_sliceText {text : Text} {place size start stop : Nat} (ordered : stop ≤ size) :
    sliceText (sliceText text place (place + size)) start stop = sliceText text (place + start) (place + stop) := by
  rw [sliceText, sliceText, sliceText, List.take_drop, List.take_take, List.drop_drop]
  congr 2
  omega

theorem Laid.replace {text chunk : Text} {place offset : Nat} {parts rest : List Text}
    (whole : cutsPair text place = false) (slice : sliceText text place (place + chunk.length) = chunk)
    (inChunk : Laid chunk offset parts) (later : Laid text (place + chunk.length) rest) :
    Laid text (place + offset) (parts ++ rest) := by
  induction inChunk with
  | done => exact later
  | @next offset part others uncut inside within inRest ih =>
    refine .next ?_ ?_ ?_ ?_
    · obtain rfl | first := Nat.eq_zero_or_pos offset
      · exact whole
      · obtain same | less := Nat.eq_or_lt_of_le (Nat.le_trans (Nat.le_add_right offset part.length) inside)
        · rw [same]
          exact later.whole
        · rw [← slice, cutsPair_sliceText first less] at uncut
          exact uncut
    · have bound := later.le_length
      omega
    · rw [← slice, sliceText_sliceText inside] at within
      rwa [Nat.add_assoc]
    · rw [Nat.add_assoc]
      exact ih

theorem avoid_of_whole {text : Text} {start stop : Nat} (whole : cutsPair text stop = false) :
    avoidTrailingHighSurrogateBreak text start stop = stop := by
  by_cases less : start < stop
  · obtain ⟨same, -⟩ | ⟨cut, -⟩ | ⟨cut, -⟩ := avoid_cases text less
    · exact same
    · rw [whole] at cut
      cases cut
    · rw [whole] at cut
      cases cut
  · exact if_pos (.inl (by omega))

theorem normalizeSlice_of_whole {text : Text} {start stop : Nat} (ordered : start ≤ stop)
    (inside : stop ≤ text.length) (startWhole : cutsPair text start = false)
    (stopWhole : cutsPair text stop = false) : normalizeSlice text start stop = ⟨start, stop⟩ := by
  have places : ∀ place : Nat, place ≤ text.length → normalizePlace text.length place = place := by
    intro place upTo
    rw [normalizePlace, if_neg (by omega), Int.toNat_natCast, Nat.min_eq_left upTo]
  rw [normalizeSlice, places start (by omega), places stop inside]
  dsimp only
  rw [avoid_of_whole startWhole, avoid_of_whole stopWhole]
  simp

section Split

variable {ι α : Type} (sliceItems : ι → TextRange → Option ι)

theorem text_sliceSource {ir : SourceIR ι} {start stop : Nat} (ordered : start ≤ stop)
    (inside : stop ≤ ir.text.length) (startWhole : cutsPair ir.text start = false)
    (stopWhole : cutsPair ir.text stop = false) :
    (sliceSource sliceItems ir start stop).text = sliceText ir.text start stop := by
  rw [sliceSource, sliceMarkdownIR, normalizeSlice_of_whole ordered inside startWhole stopWhole]

theorem length_sliceSource {ir : SourceIR ι} {start stop : Nat} (ordered : start ≤ stop)
    (inside : stop ≤ ir.text.length) (startWhole : cutsPair ir.text start = false)
    (stopWhole : cutsPair ir.text stop = false) :
    (sliceSource sliceItems ir start stop).text.length = stop - start := by
  rw [text_sliceSource sliceItems ordered inside startWhole stopWhole, length_sliceText _ inside]

def texts (chunks : List (SourceIR ι)) : List Text := chunks.map fun chunk => chunk.text

theorem laid_slice {ir : SourceIR ι} {start stop : Nat} (ordered : start ≤ stop)
    (startWhole : cutsPair ir.text start = false) {rest : List Text} (later : Laid ir.text stop rest) :
    Laid ir.text start ((sliceSource sliceItems ir start stop).text :: rest) := by
  have inside := later.le_length
  rw [text_sliceSource sliceItems ordered inside startWhole later.whole]
  have size := @length_sliceText ir.text start stop inside
  have next : start + (sliceText ir.text start stop).length = stop := by omega
  refine .next startWhole (by omega) ?_ ?_
  · rw [next]
  · rw [next]
    exact later

theorem laid_splitPreserveFrom (ir : SourceIR ι) (limit : ChunkLimit) (cursor : Nat) (inside : cursor ≤ ir.text.length)
    (whole : cutsPair ir.text cursor = false) :
    Laid ir.text cursor (texts (splitPreserveFrom sliceItems ir limit cursor)) ∧
      ∀ chunk ∈ splitPreserveFrom sliceItems ir limit cursor, chunk.text ≠ [] := by
  fun_induction splitPreserveFrom sliceItems ir limit cursor with
  | case1 cursor less stop ih =>
    obtain ⟨further, upTo, uncut, -⟩ := findSplitIndex_spec limit less
    obtain ⟨later, nonempty⟩ := ih upTo uncut
    refine ⟨laid_slice sliceItems (Nat.le_of_lt further) whole later, ?_⟩
    intro chunk isIn
    obtain rfl | inRest := List.mem_cons.mp isIn
    · rw [text_sliceSource sliceItems (Nat.le_of_lt further) upTo whole uncut]
      have size := @length_sliceText ir.text cursor stop upTo
      intro empty
      rw [empty, List.length_nil] at size
      omega
    · exact nonempty chunk inRest
  | case2 cursor ended =>
    have last : cursor = ir.text.length := by omega
    rw [last]
    exact ⟨.done, fun chunk isIn => by cases isIn⟩

theorem laid_split {ir : SourceIR ι} (nonempty : ir.text ≠ []) (limit : Rat) :
    Laid ir.text 0 (texts (splitMarkdownIRPreserveWhitespace sliceItems ir limit)) ∧
      ∀ chunk ∈ splitMarkdownIRPreserveWhitespace sliceItems ir limit, chunk.text ≠ [] := by
  unfold splitMarkdownIRPreserveWhitespace
  rw [if_neg nonempty]
  dsimp only
  split
  · constructor
    · refine .next rfl (by simp) ?_ ?_
      · simp [sliceText]
      · rw [Nat.zero_add]
        exact .done
    · intro chunk isIn
      rw [List.mem_singleton.mp isIn]
      exact nonempty
  · exact laid_splitPreserveFrom sliceItems ir _ 0 (Nat.zero_le _) rfl

end Split

def RenderResolver.fits {ι α : Type} (options : RenderResolver ι α) (renderedLimit : ChunkLimit)
    (chunk : SourceIR ι) : Bool :=
  (options.measureRendered (options.renderChunk chunk)).any fun size => size ≤ (renderedLimit.units : Rat)

section Size

variable {ι α : Type} (sliceItems : ι → TextRange → Option ι) (renderedLimit : ChunkLimit)
  (options : RenderResolver ι α)

/-- Candidates from the longest on. -/
def largestFittingFrom (chunk : SourceIR ι) : Nat → Nat
  | 0 => 0
  | shorter + 1 =>
    let safeCandidateLength := avoidTrailingHighSurrogateBreak chunk.text 0 (shorter + 1)
    if options.fits renderedLimit (sliceSource sliceItems chunk 0 safeCandidateLength) then safeCandidateLength
    else largestFittingFrom chunk shorter

def findLargestChunkTextLengthWithinRenderedLimit (chunk : SourceIR ι) : Nat :=
  if chunk.text.length ≤ 1 then chunk.text.length
  else largestFittingFrom sliceItems renderedLimit options chunk (chunk.text.length - 1)

def splitMarkdownIRByRenderedLimit (chunk : SourceIR ι) : List (SourceIR ι) :=
  if chunk.text.length ≤ 1 then [chunk]
  else
    let splitLimit := findLargestChunkTextLengthWithinRenderedLimit sliceItems renderedLimit options chunk
    if splitLimit = 0 then [chunk]
    else
      let split := splitMarkdownIRPreserveWhitespace sliceItems chunk splitLimit
      if split.head?.any (options.fits renderedLimit) then split
      else [sliceSource sliceItems chunk 0 splitLimit, sliceSource sliceItems chunk splitLimit chunk.text.length]

/-- No beginning of a chunk that leaves pairs whole and is not all of it fits. -/
def NoPrefixFits (chunk : SourceIR ι) : Prop :=
  ∀ length : Nat, 0 < length → length < chunk.text.length → cutsPair chunk.text length = false →
    options.fits renderedLimit (sliceSource sliceItems chunk 0 length) = false

theorem largestFittingFrom_spec (chunk : SourceIR ι) {length : Nat} (inside : length < chunk.text.length) :
    let found := largestFittingFrom sliceItems renderedLimit options chunk length
    (found = 0 ∧ ∀ candidate, 0 < candidate → candidate ≤ length → cutsPair chunk.text candidate = false →
      options.fits renderedLimit (sliceSource sliceItems chunk 0 candidate) = false) ∨
    (0 < found ∧ found ≤ chunk.text.length ∧ cutsPair chunk.text found = false ∧
      options.fits renderedLimit (sliceSource sliceItems chunk 0 found) = true ∧
      (found = chunk.text.length → found = 2)) := by
  induction length with
  | zero => exact .inl ⟨rfl, fun candidate _ _ => by omega⟩
  | succ shorter ih =>
    rw [largestFittingFrom]
    dsimp only
    split
    · rename_i fitting
      have less : 0 < shorter + 1 := Nat.succ_pos shorter
      refine .inr ⟨lt_avoid less, avoid_le_length less (by omega), cutsPair_avoid less, fitting, ?_⟩
      intro last
      obtain ⟨same, -⟩ | ⟨-, -, same⟩ | ⟨-, -, same⟩ := avoid_cases chunk.text less
      · omega
      · omega
      · omega
    · rename_i unfit
      obtain ⟨none, unfitting⟩ | found := ih (by omega)
      · refine .inl ⟨none, fun candidate first upTo whole => ?_⟩
        obtain less | same := Nat.lt_or_eq_of_le upTo
        · exact unfitting candidate first (Nat.le_of_lt_succ less) whole
        · rw [← same, avoid_of_whole whole, Bool.not_eq_true] at unfit
          exact unfit
      · exact .inr found

/-- How often a chunk may still be taken from the worklist. -/
def weight (chunk : SourceIR ι) : Nat :=
  if options.fits renderedLimit chunk = true ∨ chunk.text.length ≤ 1 then 1 else 2 * chunk.text.length - 1

def totalWeight : List (SourceIR ι) → Nat
  | [] => 0
  | chunk :: rest => weight renderedLimit options chunk + totalWeight rest

theorem totalWeight_append (chunks others : List (SourceIR ι)) :
    totalWeight renderedLimit options (chunks ++ others) =
      totalWeight renderedLimit options chunks + totalWeight renderedLimit options others := by
  induction chunks with
  | nil => simp [totalWeight]
  | cons chunk rest ih =>
    rw [List.cons_append, totalWeight, ih, totalWeight]
    omega

theorem weight_pos (chunk : SourceIR ι) : 0 < weight renderedLimit options chunk := by
  unfold weight
  split <;> omega

theorem totalWeight_le {chunks : List (SourceIR ι)} (nonempty : ∀ chunk ∈ chunks, chunk.text ≠ []) :
    totalWeight renderedLimit options chunks + chunks.length ≤ 2 * (texts chunks).flatten.length := by
  induction chunks with
  | nil => exact Nat.le_refl _
  | cons chunk rest ih =>
    have later := ih fun other inRest => nonempty other (List.mem_cons_of_mem _ inRest)
    have first := List.length_pos_of_ne_nil (nonempty chunk List.mem_cons_self)
    have here : weight renderedLimit options chunk + 1 ≤ 2 * chunk.text.length := by
      unfold weight
      split <;> omega
    simp only [totalWeight, texts, List.map_cons, List.flatten_cons, List.length_append, List.length_cons] at later ⊢
    omega

theorem resolveIntegerOption_natCast {limit : Nat} (positive : 0 < limit) :
    (resolveIntegerOption limit).units = limit := by
  have floor : (limit : Rat).floor = limit := Rat.floor_intCast limit
  have units : (resolveIntegerOption limit).units = max 1 (limit : Rat).floor.toNat := rfl
  rw [units, floor]
  omega

theorem several_of_lt {ir : SourceIR ι} {limit : Nat} (positive : 0 < limit) (less : limit < ir.text.length)
    (whole : cutsPair ir.text limit = false) :
    1 < (splitMarkdownIRPreserveWhitespace sliceItems ir limit).length := by
  have units := resolveIntegerOption_natCast positive
  have nonempty : ir.text ≠ [] := by
    intro empty
    rw [empty, List.length_nil] at less
    omega
  unfold splitMarkdownIRPreserveWhitespace
  rw [if_neg nonempty]
  dsimp only
  rw [if_neg (by omega), splitPreserveFrom, dif_pos (by omega)]
  obtain ⟨further, -, -, upTo⟩ := findSplitIndex_spec (resolveIntegerOption limit) (show 0 < ir.text.length by omega)
  rw [Nat.zero_add, units] at upTo
  have before := upTo whole
  dsimp only
  rw [splitPreserveFrom.eq_def _ _ _ (findMarkdownIRPreservedSplitIndex _ _ _), dif_pos (by omega)]
  simp

/-- A chunk that is too large and has more than one unit: no beginning of it fits, or it is split into parts
that are laid in it and have less work left in them. -/
theorem split_spec {chunk : SourceIR ι} (unfit : options.fits renderedLimit chunk = false)
    (long : 1 < chunk.text.length) :
    let split := splitMarkdownIRByRenderedLimit sliceItems renderedLimit options chunk
    (split = [chunk] ∧ NoPrefixFits sliceItems renderedLimit options chunk) ∨
      (1 < split.length ∧ Laid chunk.text 0 (texts split) ∧
        totalWeight renderedLimit options split < weight renderedLimit options chunk) := by
  have heavy : weight renderedLimit options chunk = 2 * chunk.text.length - 1 := by
    unfold weight
    rw [if_neg]
    simp [unfit, long]
  have found := largestFittingFrom_spec sliceItems renderedLimit options chunk
    (Nat.sub_one_lt_of_lt long : chunk.text.length - 1 < chunk.text.length)
  have largest : findLargestChunkTextLengthWithinRenderedLimit sliceItems renderedLimit options chunk =
      largestFittingFrom sliceItems renderedLimit options chunk (chunk.text.length - 1) := if_neg (by omega)
  unfold splitMarkdownIRByRenderedLimit
  rw [if_neg (by omega), largest]
  generalize largestFittingFrom sliceItems renderedLimit options chunk (chunk.text.length - 1) = splitLimit at found
  dsimp only at found ⊢
  have nonempty : chunk.text ≠ [] := by
    intro empty
    rw [empty, List.length_nil] at long
    omega
  obtain ⟨rfl, none⟩ | ⟨positive, upTo, whole, fitting, last⟩ := found
  · left
    rw [if_pos rfl]
    exact ⟨rfl, fun length first less uncut => none length first (by omega) uncut⟩
  · right
    rw [if_neg (by omega)]
    split
    · rename_i first
      obtain ⟨laid, parts⟩ := laid_split sliceItems nonempty (splitLimit : Rat)
      have several : 1 < (splitMarkdownIRPreserveWhitespace sliceItems chunk (splitLimit : Rat)).length := by
        obtain less | same := Nat.lt_or_eq_of_le upTo
        · exact several_of_lt sliceItems positive less whole
        · -- The whole chunk would be the first part, and it does not fit.
          have alone : splitMarkdownIRPreserveWhitespace sliceItems chunk (splitLimit : Rat) = [chunk] := by
            have units := resolveIntegerOption_natCast positive
            unfold splitMarkdownIRPreserveWhitespace
            rw [if_neg nonempty]
            exact if_pos (by omega)
          rw [alone, List.head?_cons, Option.any_some, unfit] at first
          cases first
      refine ⟨several, laid, ?_⟩
      have bound := totalWeight_le renderedLimit options parts
      rw [laid.flatten, List.drop_zero] at bound
      omega
    · have laid : Laid chunk.text 0 (texts [sliceSource sliceItems chunk 0 splitLimit,
          sliceSource sliceItems chunk splitLimit chunk.text.length]) :=
        laid_slice sliceItems (Nat.zero_le _) rfl (laid_slice sliceItems upTo whole .done)
      refine ⟨by simp, laid, ?_⟩
      obtain less | same := Nat.lt_or_eq_of_le upTo
      · have parts : ∀ part ∈ [sliceSource sliceItems chunk 0 splitLimit,
            sliceSource sliceItems chunk splitLimit chunk.text.length], part.text ≠ [] := by
          intro part isIn
          apply List.ne_nil_of_length_pos
          obtain rfl | isSecond := List.mem_cons.mp isIn
          · have size : (sliceSource sliceItems chunk 0 splitLimit).text.length = splitLimit - 0 :=
              length_sliceSource sliceItems (Nat.zero_le _) upTo rfl whole
            omega
          · rw [List.mem_singleton.mp isSecond]
            have size := length_sliceSource sliceItems upTo (Nat.le_refl _) whole cutsPair_length
            omega
        have bound := totalWeight_le renderedLimit options parts
        rw [laid.flatten, List.drop_zero, List.length_cons, List.length_singleton] at bound
        omega
      · -- A pair that fits on its own, with nothing after it.
        have pair := last same
        have size := length_sliceSource sliceItems upTo (Nat.le_refl _) whole cutsPair_length
        have first : weight renderedLimit options (sliceSource sliceItems chunk 0 splitLimit) = 1 :=
          if_pos (.inl fitting)
        have second : weight renderedLimit options
            (sliceSource sliceItems chunk splitLimit chunk.text.length) = 1 := if_pos (.inr (by omega))
        simp only [totalWeight, first, second]
        omega

/-- The worklist, what is taken first at its head. -/
def finalizeFrom (pending : List (SourceIR ι)) : List (SourceIR ι) :=
  match pending with
  | [] => []
  | chunk :: rest =>
    if _fitting : options.fits renderedLimit chunk = true ∨ chunk.text.length ≤ 1 then
      chunk :: finalizeFrom rest
    else if _several : (splitMarkdownIRByRenderedLimit sliceItems renderedLimit options chunk).length ≤ 1 then
      -- What cannot be split is kept as it is.
      chunk :: finalizeFrom rest
    else finalizeFrom (splitMarkdownIRByRenderedLimit sliceItems renderedLimit options chunk ++ rest)
termination_by totalWeight renderedLimit options pending
decreasing_by
  · have positive := weight_pos renderedLimit options chunk
    rw [totalWeight]
    omega
  · have positive := weight_pos renderedLimit options chunk
    rw [totalWeight]
    omega
  · simp only [not_or, Bool.not_eq_true] at _fitting
    obtain ⟨alone, -⟩ | ⟨-, -, less⟩ :=
      split_spec sliceItems renderedLimit options _fitting.1 (Nat.lt_of_not_le _fitting.2)
    · rw [alone, List.length_singleton] at _several
      omega
    · rw [totalWeight_append, totalWeight]
      omega

theorem finalizeFrom_spec {text : Text} {place : Nat} {pending : List (SourceIR ι)}
    (laid : Laid text place (texts pending)) :
    Laid text place (texts (finalizeFrom sliceItems renderedLimit options pending)) ∧
      ∀ chunk ∈ finalizeFrom sliceItems renderedLimit options pending,
        options.fits renderedLimit chunk = true ∨ NoPrefixFits sliceItems renderedLimit options chunk := by
  fun_induction finalizeFrom sliceItems renderedLimit options pending generalizing place with
  | case1 => exact ⟨laid, fun chunk isIn => by cases isIn⟩
  | case2 chunk rest fitting ih =>
    cases laid with
    | next whole inside slice later =>
      obtain ⟨restLaid, settled⟩ := ih later
      refine ⟨.next whole inside slice restLaid, fun other isIn => ?_⟩
      obtain rfl | inRest := List.mem_cons.mp isIn
      · obtain fits | short := fitting
        · exact .inl fits
        · exact .inr fun length first less => by omega
      · exact settled other inRest
  | case3 chunk rest unfit alone ih =>
    simp only [not_or, Bool.not_eq_true] at unfit
    cases laid with
    | next whole inside slice later =>
      obtain ⟨restLaid, settled⟩ := ih later
      refine ⟨.next whole inside slice restLaid, fun other isIn => ?_⟩
      obtain rfl | inRest := List.mem_cons.mp isIn
      · obtain ⟨-, none⟩ | ⟨several, -⟩ :=
          split_spec sliceItems renderedLimit options unfit.1 (Nat.lt_of_not_le unfit.2)
        · exact .inr none
        · omega
      · exact settled other inRest
  | case4 chunk rest unfit several ih =>
    simp only [not_or, Bool.not_eq_true] at unfit
    cases laid with
    | next whole inside slice later =>
      obtain ⟨alone, -⟩ | ⟨-, inChunk, -⟩ :=
        split_spec sliceItems renderedLimit options unfit.1 (Nat.lt_of_not_le unfit.2)
      · rw [alone, List.length_singleton] at several
        omega
      · apply ih
        have replaced := Laid.replace whole slice inChunk later
        rw [Nat.add_zero] at replaced
        rwa [texts, List.map_append]

end Size

def mergeAdjacentStyleSpans (styles : List MarkdownStyleSpan) : List MarkdownStyleSpan :=
  mergeSorted (fun last span => last.style = span.style && last.language = span.language && span.start ≤ last.stop)
    (fun last span => { last with stop := max last.stop span.stop })
    styles

def mergeAdjacentLinkSpans (links : List MarkdownLinkSpan) : List MarkdownLinkSpan :=
  mergeSorted (fun last link => last.href = link.href && last.autoLinked = link.autoLinked && link.start ≤ last.stop)
    (fun last link => { last with stop := max last.stop link.stop })
    links

def TextRange.shift (range : TextRange) (offset : Nat) : TextRange := ⟨range.start + offset, range.stop + offset⟩

/-- List items and blocks are not taken along. -/
def mergeMarkdownIRChunks {ι : Type} (left right : SourceIR ι) : SourceIR ι :=
  let offset := left.text.length
  { text := left.text ++ right.text
    styles := mergeAdjacentStyleSpans (left.styles ++ right.styles.map fun span =>
      { span with toTextRange := span.toTextRange.shift offset })
    links := mergeAdjacentLinkSpans (left.links ++ right.links.map fun span =>
      { span with toTextRange := span.toTextRange.shift offset })
    annotations := mergeAnnotationSpans (left.annotations ++ right.annotations.map fun annotation =>
      { annotation with toTextRange := annotation.toTextRange.shift offset })
    items := none }

section Coalesce

variable {ι α : Type} (sliceItems : ι → TextRange → Option ι) (renderedLimit : ChunkLimit)
  (options : RenderResolver ι α)

/-- The longest beginning of a chunk of white space that the chunk before it can take, where the chunk after
it can take the rest. -/
def shareWhitespace (prev chunk next : SourceIR ι) : Nat → Option (SourceIR ι × SourceIR ι)
  | 0 => none
  | shorter + 1 =>
    let mergedPrev := mergeMarkdownIRChunks prev (sliceSource sliceItems chunk 0 (shorter + 1 : Nat))
    let mergedNext :=
      mergeMarkdownIRChunks (sliceSource sliceItems chunk (shorter + 1 : Nat) chunk.text.length) next
    if options.fits renderedLimit mergedPrev && options.fits renderedLimit mergedNext then
      some (mergedPrev, mergedNext)
    else shareWhitespace prev chunk next shorter

/-- What is taken over, the last first, and the next chunk, after a chunk. -/
def coalesceChunk (coalesced : List (SourceIR ι)) (chunk : SourceIR ι) (next : Option (SourceIR ι)) :
    List (SourceIR ι) × Option (SourceIR ι) :=
  if 0 < (ScriptText.trim chunk.text).length then (chunk :: coalesced, next)
  else
    match (coalesced.head?.map fun prev => mergeMarkdownIRChunks prev chunk).filter
        (options.fits renderedLimit) with
    | some mergedPrev => (mergedPrev :: coalesced.tail, next)
    | none =>
      match (next.map fun next => mergeMarkdownIRChunks chunk next).filter (options.fits renderedLimit) with
      | some mergedNext => (coalesced, some mergedNext)
      | none =>
        match coalesced.head?, next with
        | some prev, some next =>
          match shareWhitespace sliceItems renderedLimit options prev chunk next (chunk.text.length - 1) with
          | some (mergedPrev, mergedNext) => (mergedPrev :: coalesced.tail, some mergedNext)
          | none => (coalesced, some next)
        | _, _ => (coalesced, next)

def coalesceFrom (coalesced : List (SourceIR ι)) (chunk : SourceIR ι) : List (SourceIR ι) → List (SourceIR ι)
  | [] => (coalesceChunk sliceItems renderedLimit options coalesced chunk none).1.reverse
  | next :: rest =>
    let taken := coalesceChunk sliceItems renderedLimit options coalesced chunk (some next)
    coalesceFrom taken.1 (taken.2.getD next) rest

def coalesceWhitespaceOnlyMarkdownIRChunks : List (SourceIR ι) → List (SourceIR ι)
  | [] => []
  | chunk :: rest => coalesceFrom sliceItems renderedLimit options [] chunk rest

end Coalesce

/-- `shown` is `text` with white space left out. -/
structure LeavesOutWhitespace (text shown : Text) : Prop where
  sublist : shown.Sublist text
  rest : shown.filter (fun unit => !isWhitespace unit) = text.filter fun unit => !isWhitespace unit

theorem LeavesOutWhitespace.refl (text : Text) : LeavesOutWhitespace text text :=
  ⟨List.Sublist.refl text, rfl⟩

theorem LeavesOutWhitespace.append {text shown later laterShown : Text} (first : LeavesOutWhitespace text shown)
    (second : LeavesOutWhitespace later laterShown) :
    LeavesOutWhitespace (text ++ later) (shown ++ laterShown) where
  sublist := first.sublist.append second.sublist
  rest := by rw [List.filter_append, List.filter_append, first.rest, second.rest]

theorem leavesOut_white {text : Text} (white : ∀ unit ∈ text, isWhitespace unit = true) :
    LeavesOutWhitespace text [] where
  sublist := List.nil_sublist text
  rest := by
    symm
    rw [List.filter_nil, List.filter_eq_nil_iff]
    intro unit isIn
    simp [white unit isIn]

/-- Up to a place of a text: shown texts, the last first, are the pieces of it with white space left out. A
piece begins between whole pairs, and there is only white space before the first. -/
inductive ShownUpTo (text : Text) : Nat → List Text → Prop where
  | lead {place : Nat} : place ≤ text.length → (∀ unit ∈ sliceText text 0 place, isWhitespace unit = true) →
      ShownUpTo text place []
  | piece {start stop : Nat} {shown : Text} {before : List Text} :
      cutsPair text start = false → start ≤ stop → stop ≤ text.length →
        LeavesOutWhitespace (sliceText text start stop) shown → ShownUpTo text start before →
          ShownUpTo text stop (shown :: before)

theorem sliceText_append_sliceText {text : Text} {start middle stop : Nat} (first : start ≤ middle)
    (second : middle ≤ stop) (inside : stop ≤ text.length) :
    sliceText text start middle ++ sliceText text middle stop = sliceText text start stop := by
  have parts := @sliceText_append_drop (text.take stop) start middle first (by rw [List.length_take]; omega)
  rw [sliceText, List.take_take, Nat.min_eq_left second] at parts
  exact parts

theorem ShownUpTo.extend {text : Text} {place stop : Nat} {shown white : Text} {before : List Text}
    (here : ShownUpTo text place (shown :: before)) (further : place ≤ stop) (inside : stop ≤ text.length)
    (taken : LeavesOutWhitespace (sliceText text place stop) white) :
    ShownUpTo text stop ((shown ++ white) :: before) := by
  cases here with
  | piece whole ordered _ leaves earlier =>
    refine .piece whole (Nat.le_trans ordered further) inside ?_ earlier
    rw [← sliceText_append_sliceText ordered further inside]
    exact leaves.append taken

theorem ShownUpTo.skip {text : Text} {place stop : Nat} {shown : List Text} (here : ShownUpTo text place shown)
    (further : place ≤ stop) (inside : stop ≤ text.length)
    (white : ∀ unit ∈ sliceText text place stop, isWhitespace unit = true) : ShownUpTo text stop shown := by
  cases shown with
  | nil =>
    cases here with
    | lead _ before =>
      refine .lead inside fun unit isIn => ?_
      rw [← sliceText_append_sliceText (Nat.zero_le _) further inside, List.mem_append] at isIn
      exact isIn.elim (before unit) (white unit)
  | cons first before =>
    have extended := here.extend further inside (leavesOut_white white)
    rwa [List.append_nil] at extended

theorem ShownUpTo.leavesOut {text : Text} {place : Nat} {shown : List Text} (here : ShownUpTo text place shown) :
    LeavesOutWhitespace (sliceText text 0 place) shown.reverse.flatten := by
  induction here with
  | lead inside white => exact leavesOut_white white
  | piece whole ordered inside leaves earlier ih =>
    rw [List.reverse_cons, List.flatten_append, List.flatten_singleton,
      ← sliceText_append_sliceText (Nat.zero_le _) ordered inside]
    exact ih.append leaves

theorem white_of_dropWhile {text : Text} (nothing : text.dropWhile isWhitespace = []) :
    ∀ unit ∈ text, isWhitespace unit = true := by
  have parts := @List.takeWhile_append_dropWhile _ isWhitespace text
  rw [nothing, List.append_nil] at parts
  rw [← List.all_eq_true, ← parts]
  exact List.all_takeWhile

theorem white_of_trim {text : Text} (empty : ¬ 0 < (ScriptText.trim text).length) :
    ∀ unit ∈ text, isWhitespace unit = true := by
  have nothing : ScriptText.trim text = [] := List.eq_nil_of_length_eq_zero (by omega)
  rw [ScriptText.trim, ScriptText.trimEnd, List.reverse_eq_nil_iff] at nothing
  have start : ∀ unit ∈ ScriptText.trimStart text, isWhitespace unit = true := fun unit isIn =>
    white_of_dropWhile nothing unit (List.mem_reverse.mpr isIn)
  apply white_of_dropWhile
  cases left : text.dropWhile isWhitespace with
  | nil => rfl
  | cons first rest =>
    have plain := List.head?_dropWhile_not isWhitespace text
    have white := start first (by rw [ScriptText.trimStart, left]; exact List.mem_cons_self)
    rw [left] at plain
    simp [white] at plain

theorem cutsPair_of_white {text : Text} (white : ∀ unit ∈ text, isWhitespace unit = true) (index : Nat) :
    cutsPair text index = false := by
  rw [Bool.eq_false_iff]
  intro cut
  obtain ⟨-, high, -, here, -, isHigh, -⟩ := cutsPair_iff.mp cut
  rw [(not_surrogate_of_white (white high (List.mem_of_getElem? here))).1] at isHigh
  cases isHigh

theorem Laid.join {text first second : Text} {place : Nat} {rest : List Text}
    (laid : Laid text place (first :: second :: rest)) : Laid text place ((first ++ second) :: rest) := by
  obtain ⟨whole, inside, slice, later⟩ := laid.cons
  obtain ⟨-, upTo, next, others⟩ := later.cons
  have place_eq : place + (first ++ second).length = place + first.length + second.length := by
    rw [List.length_append]
    omega
  refine .next whole (by omega) ?_ ?_
  · rw [place_eq, ← sliceText_append_sliceText (Nat.le_add_right place first.length) (by omega) upTo, slice,
      next]
  · rw [place_eq]
    exact others

section Coalesce

variable {ι α : Type} {sliceItems : ι → TextRange → Option ι} {renderedLimit : ChunkLimit}
  {options : RenderResolver ι α}

theorem shareWhitespace_spec {prev chunk next : SourceIR ι} {length : Nat}
    (inside : length ≤ chunk.text.length - 1) {mergedPrev mergedNext : SourceIR ι}
    (shared : shareWhitespace sliceItems renderedLimit options prev chunk next length =
      some (mergedPrev, mergedNext)) :
    options.fits renderedLimit mergedPrev = true ∧ options.fits renderedLimit mergedNext = true ∧
      ∃ taken : Nat, 0 < taken ∧ taken < chunk.text.length ∧
        mergedPrev.text = prev.text ++ (sliceSource sliceItems chunk 0 taken).text ∧
        mergedNext.text = (sliceSource sliceItems chunk taken chunk.text.length).text ++ next.text := by
  induction length with
  | zero => cases shared
  | succ shorter ih =>
    rw [shareWhitespace] at shared
    split at shared
    · rename_i fitting
      rw [Bool.and_eq_true] at fitting
      cases shared
      exact ⟨fitting.1, fitting.2, shorter + 1, Nat.succ_pos shorter, by omega, rfl, rfl⟩
    · exact ih (by omega) shared

/-- A chunk that fits, or that cannot be made to. -/
def Settled (sliceItems : ι → TextRange → Option ι) (renderedLimit : ChunkLimit) (options : RenderResolver ι α)
    (chunk : SourceIR ι) : Prop :=
  options.fits renderedLimit chunk = true ∨ NoPrefixFits sliceItems renderedLimit options chunk

theorem text_slice_laid {text : Text} {place start stop : Nat} {chunk : SourceIR ι}
    (slice : sliceText text place (place + chunk.text.length) = chunk.text) (ordered : start ≤ stop)
    (inside : stop ≤ chunk.text.length) (startWhole : cutsPair chunk.text start = false)
    (stopWhole : cutsPair chunk.text stop = false) (sliceItems : ι → TextRange → Option ι) :
    (sliceSource sliceItems chunk start stop).text = sliceText text (place + start) (place + stop) := by
  rw [text_sliceSource sliceItems ordered inside startWhole stopWhole, ← slice, sliceText_sliceText inside]

theorem coalesceChunk_spec {text : Text} {place : Nat} {coalesced : List (SourceIR ι)} {chunk : SourceIR ι}
    {next : Option (SourceIR ι)} {rest : List (SourceIR ι)} (shown : ShownUpTo text place (texts coalesced))
    (laid : Laid text place (texts (chunk :: (next.toList ++ rest))))
    (settled : ∀ other ∈ chunk :: (next.toList ++ coalesced), Settled sliceItems renderedLimit options other) :
    let taken := coalesceChunk sliceItems renderedLimit options coalesced chunk next
    taken.2.isSome = next.isSome ∧
      (∀ other ∈ taken.2.toList ++ taken.1, Settled sliceItems renderedLimit options other) ∧
      ∃ stop, ShownUpTo text stop (texts taken.1) ∧ Laid text stop (texts (taken.2.toList ++ rest)) := by
  obtain ⟨whole, inside, slice, later⟩ := laid.cons
  change place + chunk.text.length ≤ text.length at inside
  change sliceText text place (place + chunk.text.length) = chunk.text at slice
  have chunkSettled := settled chunk List.mem_cons_self
  have others : ∀ other ∈ next.toList ++ coalesced, Settled sliceItems renderedLimit options other :=
    fun other isIn => settled other (List.mem_cons_of_mem _ isIn)
  unfold coalesceChunk
  dsimp only
  split
  · refine ⟨rfl, fun other isIn => ?_, place + chunk.text.length, ?_, later⟩
    · obtain inNext | inTaken := List.mem_append.mp isIn
      · exact others other (List.mem_append_left _ inNext)
      · obtain rfl | earlier := List.mem_cons.mp inTaken
        · exact chunkSettled
        · exact others other (List.mem_append_right _ earlier)
    · refine .piece whole (Nat.le_add_right _ _) inside ?_ shown
      rw [slice]
      exact .refl chunk.text
  · rename_i empty
    have white := white_of_trim empty
    have whiteSlice : ∀ unit ∈ sliceText text place (place + chunk.text.length), isWhitespace unit = true := by
      rwa [slice]
    have asBefore : ∀ other ∈ coalesced, Settled sliceItems renderedLimit options other := fun other isIn =>
      others other (List.mem_append_right _ isIn)
    split
    · rename_i mergedPrev merged
      obtain ⟨merging, fitting⟩ := Option.filter_eq_some_iff.mp merged
      cases coalesced with
      | nil => cases merging
      | cons prev before =>
        cases merging
        refine ⟨rfl, fun other isIn => ?_, place + chunk.text.length, ?_, later⟩
        · obtain inNext | inTaken := List.mem_append.mp isIn
          · exact others other (List.mem_append_left _ inNext)
          · obtain rfl | earlier := List.mem_cons.mp inTaken
            · exact .inl fitting
            · exact asBefore other (List.mem_cons_of_mem _ earlier)
        · apply shown.extend (Nat.le_add_right _ _) inside
          rw [slice]
          exact .refl chunk.text
    · split
      · rename_i mergedNext merged
        obtain ⟨merging, fitting⟩ := Option.filter_eq_some_iff.mp merged
        cases next with
        | none => cases merging
        | some following =>
          cases merging
          refine ⟨rfl, fun other isIn => ?_, place, shown, laid.join⟩
          obtain rfl | earlier := List.mem_cons.mp isIn
          · exact .inl fitting
          · exact asBefore other earlier
      · split
        · rename_i prev following isLast _
          split
          · rename_i mergedPrev mergedNext shared
            obtain ⟨prevFits, nextFits, taken, first, less, prevText, nextText⟩ :=
              shareWhitespace_spec (Nat.le_refl _) shared
            cases coalesced with
            | nil => cases isLast
            | cons prev before =>
              cases isLast
              refine ⟨rfl, fun other isIn => ?_, place + taken, ?_, ?_⟩
              · obtain rfl | inTaken := List.mem_cons.mp isIn
                · exact .inl nextFits
                · obtain rfl | earlier := List.mem_cons.mp inTaken
                  · exact .inl prevFits
                  · exact asBefore other (List.mem_cons_of_mem _ earlier)
              · have early : (sliceSource sliceItems chunk 0 taken).text = sliceText text place (place + taken) :=
                  text_slice_laid slice (Nat.zero_le taken) (Nat.le_of_lt less) rfl
                    (cutsPair_of_white white taken) sliceItems
                rw [texts, List.map_cons, prevText]
                apply shown.extend (Nat.le_add_right _ _) (by omega)
                rw [early]
                exact .refl _
              · have late := text_slice_laid slice (Nat.le_of_lt less) (Nat.le_refl _)
                  (cutsPair_of_white white taken) cutsPair_length sliceItems
                have size : (sliceSource sliceItems chunk taken chunk.text.length).text.length =
                    chunk.text.length - taken :=
                  length_sliceSource sliceItems (Nat.le_of_lt less) (Nat.le_refl _)
                    (cutsPair_of_white white taken) cutsPair_length
                have stop : place + taken + (chunk.text.length - taken) = place + chunk.text.length := by omega
                have uncut := cutsPair_of_white white taken
                rw [← slice, cutsPair_sliceText first less] at uncut
                rw [Option.toList_some, List.singleton_append, texts, List.map_cons, nextText]
                apply Laid.join
                refine .next uncut (by omega) ?_ ?_
                · rw [size, stop, late]
                · rw [size, stop]
                  exact later
          · exact ⟨rfl, others, place + chunk.text.length, shown.skip (Nat.le_add_right _ _) inside whiteSlice, later⟩
        · exact ⟨rfl, others, place + chunk.text.length, shown.skip (Nat.le_add_right _ _) inside whiteSlice, later⟩

theorem coalesceFrom_spec {text : Text} {place : Nat} {coalesced : List (SourceIR ι)} {chunk : SourceIR ι}
    {rest : List (SourceIR ι)} (shown : ShownUpTo text place (texts coalesced))
    (laid : Laid text place (texts (chunk :: rest)))
    (settled : ∀ other ∈ chunk :: (rest ++ coalesced), Settled sliceItems renderedLimit options other) :
    ShownUpTo text text.length (texts (coalesceFrom sliceItems renderedLimit options coalesced chunk rest)).reverse ∧
      ∀ other ∈ coalesceFrom sliceItems renderedLimit options coalesced chunk rest,
        Settled sliceItems renderedLimit options other := by
  induction rest generalizing place coalesced chunk with
  | nil =>
    obtain ⟨ended, taken, stop, upTo, last⟩ :=
      @coalesceChunk_spec _ _ sliceItems renderedLimit options text place coalesced chunk none [] shown laid settled
    rw [Option.isSome_none, Option.isSome_eq_false_iff, Option.isNone_iff_eq_none] at ended
    rw [ended] at taken last
    cases last
    rw [coalesceFrom, texts, List.map_reverse, List.reverse_reverse]
    exact ⟨upTo, fun other isIn => taken other (List.mem_reverse.mp isIn)⟩
  | cons next rest ih =>
    have here : ∀ other ∈ chunk :: ((some next).toList ++ coalesced),
        Settled sliceItems renderedLimit options other := by
      intro other isIn
      apply settled
      simp only [Option.toList_some, List.singleton_append, List.mem_cons, List.mem_append] at isIn ⊢
      tauto
    obtain ⟨going, taken, stop, upTo, later⟩ :=
      @coalesceChunk_spec _ _ sliceItems renderedLimit options text place coalesced chunk (some next) rest shown
        laid here
    obtain ⟨following, isNext⟩ := Option.isSome_iff_exists.mp going
    rw [isNext] at taken later
    rw [coalesceFrom, isNext, Option.getD_some]
    apply ih upTo later
    intro other isIn
    obtain rfl | inRest := List.mem_cons.mp isIn
    · exact taken _ List.mem_cons_self
    · obtain earlier | inTaken := List.mem_append.mp inRest
      · apply settled
        exact List.mem_cons_of_mem _ (List.mem_append_left _ (List.mem_cons_of_mem _ earlier))
      · exact taken other (List.mem_cons_of_mem _ inTaken)

end Coalesce

section Chunking

variable {ι α : Type} (sliceItems : ι → TextRange → Option ι)
  (findAssistantTranscriptRoleHeaderSpans : Text → List TextRange → List AssistantTranscriptRoleHeaderSpan)

namespace RenderMarkdownIRChunksWithinLimitOptions

/-- A chunk as it begins a message. -/
def prepare (options : RenderMarkdownIRChunksWithinLimitOptions ι α) (chunk : SourceIR ι) : SourceIR ι :=
  prepareChunkForMessageBoundary findAssistantTranscriptRoleHeaderSpans
    options.assistantTranscriptRoleMessageBoundaries chunk

def renderResolver (options : RenderMarkdownIRChunksWithinLimitOptions ι α) : RenderResolver ι α where
  measureRendered := options.measureRendered
  renderChunk := fun chunk => options.renderChunk (options.prepare findAssistantTranscriptRoleHeaderSpans chunk)

def rendered (options : RenderMarkdownIRChunksWithinLimitOptions ι α) (chunk : SourceIR ι) :
    RenderedMarkdownChunk ι α where
  source := options.prepare findAssistantTranscriptRoleHeaderSpans chunk
  rendered := options.renderChunk (options.prepare findAssistantTranscriptRoleHeaderSpans chunk)

end RenderMarkdownIRChunksWithinLimitOptions

/-- The three stages, under a limit in whole units. -/
def chunksWithin (options : RenderMarkdownIRChunksWithinLimitOptions ι α) (normalizedLimit : ChunkLimit) :
    List (SourceIR ι) :=
  let renderResolver := options.renderResolver findAssistantTranscriptRoleHeaderSpans
  let pending := splitMarkdownIRPreserveWhitespace sliceItems options.ir normalizedLimit.units
  coalesceWhitespaceOnlyMarkdownIRChunks sliceItems normalizedLimit renderResolver
    (finalizeFrom sliceItems normalizedLimit renderResolver pending)

def renderMarkdownIRChunksWithinLimit (options : RenderMarkdownIRChunksWithinLimitOptions ι α) :
    List (RenderedMarkdownChunk ι α) :=
  if options.ir.text = [] then []
  else
    (match options.limit with
      | .unlimited => [options.ir]
      | .finite limit => chunksWithin sliceItems findAssistantTranscriptRoleHeaderSpans options
          (resolveIntegerOption limit)
      | .other => chunksWithin sliceItems findAssistantTranscriptRoleHeaderSpans options ⟨1, Nat.one_pos⟩).map
      (options.rendered findAssistantTranscriptRoleHeaderSpans)

def AtMost (bound : Rat) (size : Option Rat) : Prop := ∃ number, size = some number ∧ number ≤ bound

/-- A returned chunk is within a bound, or no beginning of the chunk it was made from is that leaves pairs whole
and is not all of it. -/
def WithinWherePossible (options : RenderMarkdownIRChunksWithinLimitOptions ι α) (bound : Rat)
    (chunk : RenderedMarkdownChunk ι α) : Prop :=
  AtMost bound (options.measureRendered chunk.rendered) ∨
    ∃ made : SourceIR ι, chunk = options.rendered findAssistantTranscriptRoleHeaderSpans made ∧
      ∀ length : Nat, 0 < length → length < made.text.length → cutsPair made.text length = false →
        ¬ AtMost bound (options.measureRendered
          (options.rendered findAssistantTranscriptRoleHeaderSpans (sliceSource sliceItems made 0 length)).rendered)

theorem fits_iff {options : RenderMarkdownIRChunksWithinLimitOptions ι α} {limit : ChunkLimit}
    {chunk : SourceIR ι} :
    (options.renderResolver findAssistantTranscriptRoleHeaderSpans).fits limit chunk = true ↔
      AtMost limit.units (options.measureRendered
        (options.rendered findAssistantTranscriptRoleHeaderSpans chunk).rendered) := by
  simp only [RenderResolver.fits, Option.any_eq_true, decide_eq_true_eq, AtMost]
  rfl

theorem chunksWithin_spec {options : RenderMarkdownIRChunksWithinLimitOptions ι α} (nonempty : options.ir.text ≠ [])
    (limit : ChunkLimit) :
    let chunks := chunksWithin sliceItems findAssistantTranscriptRoleHeaderSpans options limit
    ShownUpTo options.ir.text options.ir.text.length (texts chunks).reverse ∧ ∀ chunk ∈ chunks,
        Settled sliceItems limit (options.renderResolver findAssistantTranscriptRoleHeaderSpans) chunk := by
  have laid := (laid_split sliceItems nonempty (limit.units : Rat)).1
  obtain ⟨finalized, settled⟩ := finalizeFrom_spec sliceItems limit
    (options.renderResolver findAssistantTranscriptRoleHeaderSpans) laid
  unfold chunksWithin
  cases chunks : finalizeFrom sliceItems limit (options.renderResolver findAssistantTranscriptRoleHeaderSpans)
      (splitMarkdownIRPreserveWhitespace sliceItems options.ir limit.units) with
  | nil =>
    rw [chunks] at finalized
    have nothing := finalized.flatten
    exact absurd nothing.symm nonempty
  | cons chunk rest =>
    rw [chunks] at finalized settled
    have first : ShownUpTo options.ir.text 0 (texts ([] : List (SourceIR ι))) :=
      .lead (Nat.zero_le _) fun unit isIn => by cases isIn
    simp only [chunks, coalesceWhitespaceOnlyMarkdownIRChunks]
    exact coalesceFrom_spec first finalized fun other isIn => settled other (by simpa using isIn)

theorem texts_rendered (options : RenderMarkdownIRChunksWithinLimitOptions ι α) (chunks : List (SourceIR ι)) :
    ((chunks.map (options.rendered findAssistantTranscriptRoleHeaderSpans)).map fun chunk => chunk.source.text) =
      texts chunks := by
  rw [List.map_map]
  apply List.map_congr_left
  intro chunk _
  exact text_prepareChunk findAssistantTranscriptRoleHeaderSpans _ chunk

theorem Settled.withinWherePossible {options : RenderMarkdownIRChunksWithinLimitOptions ι α} {limit : ChunkLimit}
    {chunk : SourceIR ι}
    (settled : Settled sliceItems limit (options.renderResolver findAssistantTranscriptRoleHeaderSpans) chunk) :
    WithinWherePossible sliceItems findAssistantTranscriptRoleHeaderSpans options limit.units
      (options.rendered findAssistantTranscriptRoleHeaderSpans chunk) := by
  obtain fits | none := settled
  · exact .inl ((fits_iff findAssistantTranscriptRoleHeaderSpans).mp fits)
  · refine .inr ⟨chunk, rfl, fun length first less whole atMost => ?_⟩
    have unfit := none length first less whole
    rw [(fits_iff findAssistantTranscriptRoleHeaderSpans).mpr atMost] at unfit
    cases unfit

/-- A finite limit counts in whole units; all but white space is returned, in pieces that leave pairs whole,
and every chunk is within the limit where a beginning of it could be. -/
theorem rendered_chunks_complete (options : RenderMarkdownIRChunksWithinLimitOptions ι α) {limit : Rat}
    (finite : options.limit = .finite limit) (least : 1 ≤ limit) :
    let result := renderMarkdownIRChunksWithinLimit sliceItems findAssistantTranscriptRoleHeaderSpans options
    let shown := result.map fun chunk => chunk.source.text
    LeavesOutWhitespace options.ir.text shown.flatten ∧
      ShownUpTo options.ir.text options.ir.text.length shown.reverse ∧
      ∀ chunk ∈ result, WithinWherePossible sliceItems findAssistantTranscriptRoleHeaderSpans options limit.floor
        chunk := by
  intro result shown
  have units : ((resolveIntegerOption limit).units : Rat) = limit.floor := by
    have floor : 1 ≤ limit.floor := Rat.le_floor_iff.mpr (by exact_mod_cast least)
    have whole : ((resolveIntegerOption limit).units : Int) = limit.floor := by
      have max : (resolveIntegerOption limit).units = max 1 limit.floor.toNat := rfl
      omega
    exact_mod_cast congrArg (Int.cast : Int → Rat) whole
  by_cases empty : options.ir.text = []
  · have none : result = [] := if_pos empty
    simp only [shown, none, empty, List.map_nil, List.flatten_nil, List.reverse_nil]
    exact ⟨.refl [], .lead (Nat.le_refl _) fun unit isIn => (by cases isIn),
      fun chunk isIn => by cases isIn⟩
  · obtain ⟨upTo, settled⟩ := chunksWithin_spec sliceItems findAssistantTranscriptRoleHeaderSpans empty
      (resolveIntegerOption limit)
    have chunks : result = (chunksWithin sliceItems findAssistantTranscriptRoleHeaderSpans options
        (resolveIntegerOption limit)).map (options.rendered findAssistantTranscriptRoleHeaderSpans) := by
      simp only [result, renderMarkdownIRChunksWithinLimit, if_neg empty, finite]
    have same : shown = texts (chunksWithin sliceItems findAssistantTranscriptRoleHeaderSpans options
        (resolveIntegerOption limit)) := by
      simp only [shown, chunks]
      exact texts_rendered findAssistantTranscriptRoleHeaderSpans options _
    rw [← same] at upTo
    refine ⟨?_, upTo, fun chunk isIn => ?_⟩
    · have leaves := upTo.leavesOut
      rw [List.reverse_reverse] at leaves
      simpa [sliceText] using leaves
    · rw [chunks] at isIn
      obtain ⟨made, isMade, rfl⟩ := List.mem_map.mp isIn
      rw [← units]
      exact (settled made isMade).withinWherePossible

end Chunking

/-- Two letters of size 3, and sizes of 9/4 on their own, with a limit between these. -/
def twoLetters : RenderMarkdownIRChunksWithinLimitOptions Unit Text where
  ir := { text := [97, 98], styles := [], links := [] }
  limit := .finite (5 / 2)
  measureRendered := fun rendered => some (if rendered.length = 1 then 9 / 4 else 3)
  renderChunk := fun chunk => chunk.text

theorem rendered_chunks_complete_letters :
    let result := renderMarkdownIRChunksWithinLimit (fun _ _ => none) (fun _ _ => []) twoLetters
    let shown := result.map fun chunk => chunk.source.text
    LeavesOutWhitespace twoLetters.ir.text shown.flatten ∧
      ShownUpTo twoLetters.ir.text twoLetters.ir.text.length shown.reverse ∧
      ∀ chunk ∈ result, WithinWherePossible (fun _ _ => none) (fun _ _ => []) twoLetters (5 / 2 : Rat).floor chunk :=
  rendered_chunks_complete (fun _ _ => none) (fun _ _ => []) twoLetters rfl (by decide +kernel)

/-- A limit that is no whole number is not filled by sizes that are none either. -/
theorem twoLetters_not_split : ¬ ∀ chunk ∈
    renderMarkdownIRChunksWithinLimit (fun _ _ => none) (fun _ _ => []) twoLetters,
      WithinWherePossible (fun _ _ => none) (fun _ _ => []) twoLetters (5 / 2) chunk := by
  have one : chunksWithin (fun _ _ => none) (fun _ _ => []) twoLetters (resolveIntegerOption (5 / 2)) =
      [twoLetters.ir] := by
    have split : splitMarkdownIRPreserveWhitespace (fun _ _ => none) twoLetters.ir
        ((resolveIntegerOption (5 / 2)).units : Rat) = [twoLetters.ir] := by
      rw [splitMarkdownIRPreserveWhitespace, if_neg (by decide), if_pos (by decide +kernel)]
    rw [chunksWithin, split, finalizeFrom, dif_neg (by decide +kernel), dif_pos (by decide +kernel), finalizeFrom]
    rfl
  intro within
  have whole := within (twoLetters.rendered (fun _ _ => []) twoLetters.ir) (by
    rw [renderMarkdownIRChunksWithinLimit, if_neg (by decide)]
    change _ ∈ (chunksWithin (fun _ _ => none) (fun _ _ => []) twoLetters (resolveIntegerOption (5 / 2))).map _
    rw [one]
    exact List.mem_singleton_self _)
  obtain ⟨size, isSize, upTo⟩ | ⟨made, same, none⟩ := whole
  · cases isSize
    revert upTo
    decide +kernel
  · have text : twoLetters.ir = made := congrArg RenderedMarkdownChunk.source same
    rw [← text] at none
    exact none 1 Nat.one_pos (by decide) (by decide) ⟨9 / 4, by decide +kernel, by decide +kernel⟩

end PlatformClaw.Markdown
