import PlatformClaw.Library.ScriptList
import PlatformClaw.Library.ScriptText

/-! # Spans of a Markdown document

A parsed document is its text with spans for styles, links and annotations. Touching spans of one
style are merged, and a slice of the document keeps the parts of the spans that lie in it.
-/

namespace PlatformClaw.Markdown

open ScriptText (Text)
open ScriptList (toSorted)

/-- From `start` up to `stop`, the `end` of the source. -/
@[ext]
structure TextRange where
  start : Nat
  stop : Nat
deriving DecidableEq, Repr

inductive MarkdownStyle where
  | bold
  | italic
  | underline
  | strikethrough
  | code
  | code_block
  | spoiler
  | blockquote
  | heading_1
  | heading_2
  | heading_3
  | heading_4
  | heading_5
  | heading_6
deriving DecidableEq, Repr

structure MarkdownStyleSpan extends TextRange where
  style : MarkdownStyle
  language : Option Text := none
deriving DecidableEq, Repr

/-- A link; `autoLinked` is where it comes from. -/
structure MarkdownLinkSpan extends TextRange where
  href : Text
  autoLinked : Bool := false
deriving DecidableEq, Repr

inductive MarkdownAnnotationType where
  | assistant_transcript_role
deriving DecidableEq, Repr

inductive AssistantTranscriptRoleHeaderKind where
  | angle_role_header
  | role_timestamp_bracket
  | timestamp_role_colon
deriving DecidableEq, Repr

inductive AssistantTranscriptRole where
  | assistant
  | developer
  | system
  | user
deriving DecidableEq, Repr

structure MarkdownAnnotationSpan extends TextRange where
  type : MarkdownAnnotationType
  kind : AssistantTranscriptRoleHeaderKind
  role : AssistantTranscriptRole
deriving DecidableEq, Repr

structure MarkdownIR where
  text : Text
  styles : List MarkdownStyleSpan
  links : List MarkdownLinkSpan
  annotations : List MarkdownAnnotationSpan := []
deriving DecidableEq, Repr

/-- An empty language is none. -/
def createStyleSpan (params : MarkdownStyleSpan) : MarkdownStyleSpan :=
  { params with language := params.language.filter fun language => !language.isEmpty }

/-- Each item of a sorted list is joined to the last one before it, where the two belong together. -/
def mergeInto {α : Type} (belongs : α → α → Bool) (join : α → α → α) : α → List α → List α
  | previous, [] => [previous]
  | previous, span :: rest =>
    if belongs previous span then mergeInto belongs join (join previous span) rest
    else previous :: mergeInto belongs join span rest

def mergeSorted {α : Type} (belongs : α → α → Bool) (join : α → α → α) : List α → List α
  | [] => []
  | span :: rest => mergeInto belongs join span rest

/-- The place of a style in the order of `localeCompare`. -/
def MarkdownStyle.localeRank : MarkdownStyle → Nat
  | .blockquote => 0
  | .bold => 1
  | .code => 2
  | .code_block => 3
  | .heading_1 => 4
  | .heading_2 => 5
  | .heading_3 => 6
  | .heading_4 => 7
  | .heading_5 => 8
  | .heading_6 => 9
  | .italic => 10
  | .spoiler => 11
  | .strikethrough => 12
  | .underline => 13

def compareForMerge (a b : MarkdownStyleSpan) : Int :=
  if a.start ≠ b.start then (a.start : Int) - b.start
  else if a.stop ≠ b.stop then (a.stop : Int) - b.stop
  else (a.style.localeRank : Int) - b.style.localeRank

/-- Blockquotes are containers: adjacent ones stay apart. -/
def belongsToPrevious (previous span : MarkdownStyleSpan) : Bool :=
  previous.style = span.style && previous.language = span.language &&
    (span.start < previous.stop || span.start = previous.stop && span.style ≠ .blockquote)

def joinStyleSpans (previous span : MarkdownStyleSpan) : MarkdownStyleSpan :=
  { previous with stop := max previous.stop span.stop }

def mergeStyleSpans (spans : List MarkdownStyleSpan) : List MarkdownStyleSpan :=
  mergeSorted belongsToPrevious joinStyleSpans (toSorted compareForMerge spans)

def compareAnnotations (a b : MarkdownAnnotationSpan) : Int :=
  if a.start ≠ b.start then (a.start : Int) - b.start else (a.stop : Int) - b.stop

def mergeAnnotationSpans (spans : List MarkdownAnnotationSpan) : List MarkdownAnnotationSpan :=
  mergeSorted (fun previous span =>
      previous.stop = span.start && previous.type = span.type && previous.kind = span.kind &&
        previous.role = span.role)
    (fun previous span => { previous with stop := span.stop })
    (toSorted compareAnnotations spans)

def resolveSliceBounds (span : TextRange) (start stop : Nat) : Option TextRange :=
  let sliceStart := max span.start start
  let sliceEnd := min span.stop stop
  if sliceEnd > sliceStart then some ⟨sliceStart, sliceEnd⟩ else none

def sliceRange (span : TextRange) (start stop : Nat) : Option TextRange :=
  (resolveSliceBounds span start stop).map fun bounds =>
    ⟨bounds.start - start, bounds.stop - start⟩

def sliceStyleSpans (spans : List MarkdownStyleSpan) (start stop : Nat) : List MarkdownStyleSpan :=
  mergeStyleSpans <| spans.filterMap fun span =>
    (sliceRange span.toTextRange start stop).map fun bounds =>
      createStyleSpan { span with toTextRange := bounds }

def sliceLinkSpans (spans : List MarkdownLinkSpan) (start stop : Nat) : List MarkdownLinkSpan :=
  spans.filterMap fun span =>
    (sliceRange span.toTextRange start stop).map fun bounds => { span with toTextRange := bounds }

def sliceAnnotationSpans (spans : List MarkdownAnnotationSpan) (start stop : Nat) : List MarkdownAnnotationSpan :=
  mergeAnnotationSpans <| spans.filterMap fun span =>
    (sliceRange span.toTextRange start stop).map fun bounds => { span with toTextRange := bounds }

/-- `text.slice(start, end)`. -/
def sliceText (text : Text) (start stop : Nat) : Text :=
  (text.take stop).drop start

/-- An end between the halves of a pair is moved before the pair, or after it. -/
def avoidTrailingHighSurrogateBreak (text : Text) (start stop : Nat) : Nat :=
  if stop ≤ start ∨ text.length ≤ stop ∨
      (text[stop - 1]?.any ScriptText.isHighSurrogate) = false ∨
      (text[stop]?.any ScriptText.isLowSurrogate) = false then stop
  else if start < stop - 1 then stop - 1
  else stop + 1

/-- A place that may be counted from the end. -/
def normalizePlace (textLength : Nat) (place : Int) : Nat :=
  if place < 0 then (max (textLength + place) 0).toNat else min place.toNat textLength

/-- The bounds of a slice, away from the middle of a pair. -/
def normalizeSlice (text : Text) (start stop : Int) : TextRange :=
  let normalizedStart := normalizePlace text.length start
  let normalizedEnd := normalizePlace text.length stop
  if normalizedStart < normalizedEnd then
    let safeStart := avoidTrailingHighSurrogateBreak text 0 normalizedStart
    let safeEnd := avoidTrailingHighSurrogateBreak text 0 normalizedEnd
    { start :=
        if safeStart ≠ normalizedStart then
          if safeStart < normalizedStart then safeStart else normalizedStart - 1
        else normalizedStart
      stop :=
        if safeEnd ≠ normalizedEnd then
          if safeEnd > normalizedEnd then safeEnd else normalizedEnd + 1
        else normalizedEnd }
  else ⟨normalizedStart, normalizedEnd⟩

def sliceMarkdownIR (ir : MarkdownIR) (start stop : Int) : MarkdownIR :=
  let bounds := normalizeSlice ir.text start stop
  { text := sliceText ir.text bounds.start bounds.stop
    styles := sliceStyleSpans ir.styles bounds.start bounds.stop
    links := sliceLinkSpans ir.links bounds.start bounds.stop
    annotations := sliceAnnotationSpans ir.annotations bounds.start bounds.stop }

def TextRange.Inside (length : Nat) (range : TextRange) : Prop :=
  range.start ≤ range.stop ∧ range.stop ≤ length

instance (length : Nat) (range : TextRange) : Decidable (range.Inside length) :=
  inferInstanceAs (Decidable (_ ∧ _))

/-- All spans are spans of the text. -/
structure MarkdownIR.Proper (ir : MarkdownIR) : Prop where
  styles : ∀ span ∈ ir.styles, span.toTextRange.Inside ir.text.length
  links : ∀ span ∈ ir.links, span.toTextRange.Inside ir.text.length
  annotations : ∀ span ∈ ir.annotations, span.toTextRange.Inside ir.text.length

def TextRange.NestedOrDisjoint (a b : TextRange) : Prop :=
  a.stop ≤ b.start ∨ b.stop ≤ a.start ∨ (a.start ≤ b.start ∧ b.stop ≤ a.stop) ∨ (b.start ≤ a.start ∧ a.stop ≤ b.stop)

/-- The ranges of the styles and links. -/
def MarkdownIR.ranges (ir : MarkdownIR) : List TextRange :=
  ir.styles.map MarkdownStyleSpan.toTextRange ++ ir.links.map MarkdownLinkSpan.toTextRange

/-- Style and link spans are pairwise nested or disjoint. -/
def MarkdownIR.Laminar (ir : MarkdownIR) : Prop :=
  ∀ a ∈ ir.ranges, ∀ b ∈ ir.ranges, a.NestedOrDisjoint b

instance (a b : TextRange) : Decidable (a.NestedOrDisjoint b) :=
  inferInstanceAs (Decidable (_ ∨ _ ∨ _ ∨ _))

instance (ir : MarkdownIR) : Decidable ir.Laminar :=
  inferInstanceAs (Decidable (∀ a ∈ ir.ranges, ∀ b ∈ ir.ranges, a.NestedOrDisjoint b))

theorem forall_mergeInto {α : Type} {belongs : α → α → Bool} {join : α → α → α} {p : α → Prop}
    (joined : ∀ {a b}, belongs a b = true → p a → p b → p (join a b)) {previous : α}
    {spans : List α} (first : p previous) (rest : ∀ span ∈ spans, p span) :
    ∀ span ∈ mergeInto belongs join previous spans, p span := by
  induction spans generalizing previous with
  | nil =>
    intro span inMerged
    exact List.mem_singleton.mp inMerged ▸ first
  | cons next spans ih =>
    have here := rest next List.mem_cons_self
    have later : ∀ span ∈ spans, p span := fun span inSpans =>
      rest span (List.mem_cons_of_mem _ inSpans)
    intro span inMerged
    rw [mergeInto] at inMerged
    split at inMerged
    · rename_i both
      exact ih (joined both first here) later span inMerged
    · cases List.mem_cons.mp inMerged with
      | inl same => exact same ▸ first
      | inr merged => exact ih here later span merged

theorem forall_mergeSorted {α : Type} {belongs : α → α → Bool} {join : α → α → α} {p : α → Prop}
    (joined : ∀ {a b}, belongs a b = true → p a → p b → p (join a b)) {spans : List α}
    (each : ∀ span ∈ spans, p span) : ∀ span ∈ mergeSorted belongs join spans, p span := by
  cases spans with
  | nil => exact each
  | cons first rest =>
    exact forall_mergeInto joined (each first List.mem_cons_self) fun span inRest =>
      each span (List.mem_cons_of_mem _ inRest)

theorem inside_mergeStyleSpans {length : Nat} {spans : List MarkdownStyleSpan}
    (inside : ∀ span ∈ spans, span.toTextRange.Inside length) :
    ∀ span ∈ mergeStyleSpans spans, span.toTextRange.Inside length := by
  apply forall_mergeSorted (p := fun span : MarkdownStyleSpan => span.toTextRange.Inside length)
  · intro previous span _ first second
    exact ⟨Nat.le_trans first.1 (Nat.le_max_left _ _), Nat.max_le.mpr ⟨first.2, second.2⟩⟩
  · intro span inSorted
    exact inside span (ScriptList.mem_toSorted.mp inSorted)

theorem inside_mergeAnnotationSpans {length : Nat} {spans : List MarkdownAnnotationSpan}
    (inside : ∀ span ∈ spans, span.toTextRange.Inside length) :
    ∀ span ∈ mergeAnnotationSpans spans, span.toTextRange.Inside length := by
  apply forall_mergeSorted (p := fun span : MarkdownAnnotationSpan => span.toTextRange.Inside length)
  · intro previous span both first second
    simp only [Bool.and_eq_true, decide_eq_true_eq] at both
    have touch := both.1.1.1
    exact ⟨Nat.le_trans first.1 (touch ▸ second.1), second.2⟩
  · intro span inSorted
    exact inside span (ScriptList.mem_toSorted.mp inSorted)

theorem inside_sliceRange {span bounds : TextRange} {start stop : Nat}
    (sliced : sliceRange span start stop = some bounds) : bounds.Inside (stop - start) := by
  obtain ⟨part, resolved, rfl⟩ := Option.map_eq_some_iff.mp sliced
  unfold resolveSliceBounds at resolved
  dsimp only at resolved
  split at resolved
  · rename_i nonempty
    cases resolved
    exact ⟨Nat.sub_le_sub_right (Nat.le_of_lt nonempty) _, Nat.sub_le_sub_right (Nat.min_le_right _ _) _⟩
  · cases resolved

theorem normalizePlace_le (textLength : Nat) (place : Int) : normalizePlace textLength place ≤ textLength := by
  unfold normalizePlace
  split <;> omega

theorem normalizeSlice_le (text : Text) (start stop : Int) : (normalizeSlice text start stop).stop ≤ text.length := by
  have bounded := normalizePlace_le text.length stop
  unfold normalizeSlice
  dsimp only
  split
  · have safe : avoidTrailingHighSurrogateBreak text 0 (normalizePlace text.length stop) ≠
        normalizePlace text.length stop → normalizePlace text.length stop < text.length := by
      unfold avoidTrailingHighSurrogateBreak
      split
      · exact fun moved => absurd rfl moved
      · rename_i inside
        omega
    have near : avoidTrailingHighSurrogateBreak text 0 (normalizePlace text.length stop) ≤
        normalizePlace text.length stop + 1 := by
      unfold avoidTrailingHighSurrogateBreak
      split
      · omega
      · split <;> omega
    dsimp only
    split
    · rename_i moved
      have less := safe moved
      split <;> omega
    · exact bounded
  · exact bounded

theorem length_sliceText (text : Text) {start stop : Nat} (inside : stop ≤ text.length) :
    (sliceText text start stop).length = stop - start := by
  unfold sliceText
  rw [List.length_drop, List.length_take, Nat.min_eq_left inside]

theorem MarkdownIR.Proper.slice (ir : MarkdownIR) (start stop : Int) : (sliceMarkdownIR ir start stop).Proper := by
  have length := @length_sliceText ir.text (normalizeSlice ir.text start stop).start _
    (normalizeSlice_le ir.text start stop)
  unfold sliceMarkdownIR
  constructor <;> dsimp only <;> rw [length]
  · apply inside_mergeStyleSpans
    intro span inSliced
    obtain ⟨before, _, made⟩ := List.mem_filterMap.mp inSliced
    obtain ⟨bounds, sliced, rfl⟩ := Option.map_eq_some_iff.mp made
    exact inside_sliceRange sliced
  · intro span inSliced
    obtain ⟨before, _, made⟩ := List.mem_filterMap.mp inSliced
    obtain ⟨bounds, sliced, rfl⟩ := Option.map_eq_some_iff.mp made
    exact inside_sliceRange sliced
  · apply inside_mergeAnnotationSpans
    intro span inSliced
    obtain ⟨before, _, made⟩ := List.mem_filterMap.mp inSliced
    obtain ⟨bounds, sliced, rfl⟩ := Option.map_eq_some_iff.mp made
    exact inside_sliceRange sliced

end PlatformClaw.Markdown
