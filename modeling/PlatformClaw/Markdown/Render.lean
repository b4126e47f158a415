import PlatformClaw.Library.NestedMarks
import PlatformClaw.Markdown.Spans

/-! # Rendering with markers

A document is rendered by one walk over the places at which a span starts or stops. What is open is
kept on a stack; at each place the items on top of it that stop there are closed, then those that
start there are opened, the ones that reach farthest first.
-/

namespace PlatformClaw.Markdown

open ScriptText (Text)
open ScriptList (toSorted)
open NestedMarks (Mark)

/-- A marker; `opens` is the `open` of the source, a text being a function that ignores the span. -/
structure RenderStyleMarker where
  opens : MarkdownStyleSpan → Text
  close : Text

structure RenderAnnotationMarker where
  opens : MarkdownAnnotationSpan → Text
  close : Text
  suppressNestedFormatting : Bool := false

structure RenderLink extends TextRange where
  opens : Text
  close : Text
deriving DecidableEq, Repr

inductive MarkdownLinkOrigin where
  | authored
  | linkify
deriving DecidableEq, Repr

def getMarkdownLinkOrigin (link : MarkdownLinkSpan) : MarkdownLinkOrigin :=
  if link.autoLinked then .linkify else .authored

structure RenderOptions where
  styleMarkers : MarkdownStyle → Option RenderStyleMarker
  annotationMarkers : MarkdownAnnotationType → Option RenderAnnotationMarker := fun _ => none
  escapeText : Text → Text
  buildLink : Option (MarkdownLinkSpan → Text → MarkdownLinkOrigin → Option RenderLink) := none

def STYLE_ORDER : List MarkdownStyle :=
  [.blockquote, .code_block, .code, .heading_1, .heading_2, .heading_3, .heading_4, .heading_5,
    .heading_6, .bold, .italic, .underline, .strikethrough, .spoiler]

def STYLE_RANK (style : MarkdownStyle) : Nat := STYLE_ORDER.idxOf style

def STRUCTURAL_STYLES : List MarkdownStyle :=
  [.blockquote, .heading_1, .heading_2, .heading_3, .heading_4, .heading_5, .heading_6]

def isStructural (style : MarkdownStyle) : Bool := STRUCTURAL_STYLES.contains style

def compareStyleSpans (a b : MarkdownStyleSpan) : Int :=
  if a.start ≠ b.start then (a.start : Int) - b.start
  else if a.stop ≠ b.stop then (b.stop : Int) - a.stop
  else (STYLE_RANK a.style : Int) - STYLE_RANK b.style

def sortStyleSpans (spans : List MarkdownStyleSpan) : List MarkdownStyleSpan :=
  toSorted compareStyleSpans spans

def compareAnnotationSpans (a b : MarkdownAnnotationSpan) : Int :=
  if a.start ≠ b.start then (a.start : Int) - b.start else (b.stop : Int) - a.stop

def sortAnnotationSpans (spans : List MarkdownAnnotationSpan) : List MarkdownAnnotationSpan :=
  toSorted compareAnnotationSpans spans

def compareRanges (a b : TextRange) : Int :=
  if a.start ≠ b.start then (a.start : Int) - b.start else (a.stop : Int) - b.stop

def mergeRanges (ranges : List TextRange) : List TextRange :=
  mergeSorted (fun previous range => range.start ≤ previous.stop)
    (fun previous range => { previous with stop := max previous.stop range.stop })
    (toSorted compareRanges ranges)

def firstOverlappingRangeIndex (ranges : List TextRange) (start : Nat) : Nat :=
  ScriptList.partitionPoint (fun index => ranges[index]?.any fun range => range.stop ≤ start) ranges.length

/-- The pieces from `cursor` on. -/
def subtractFrom (span : TextRange) (cursor : Nat) : List TextRange → List TextRange
  | [] => if cursor < span.stop then [⟨cursor, span.stop⟩] else []
  | range :: ranges =>
    if range.start ≥ span.stop then if cursor < span.stop then [⟨cursor, span.stop⟩] else []
    else
      let rangeStart := max span.start range.start
      let rangeEnd := min span.stop range.stop
      (if rangeStart > cursor then [⟨cursor, rangeStart⟩] else []) ++ subtractFrom span (max cursor rangeEnd) ranges

def subtractRanges (span : TextRange) (ranges : List TextRange) : List TextRange :=
  match ranges.drop (firstOverlappingRangeIndex ranges span.start) with
  | [] => [span]
  | firstRange :: rest =>
    if firstRange.start ≥ span.stop then [span]
    else subtractFrom span span.start (firstRange :: rest)

/-- The pieces from `cursor` on. -/
def splitFrom (span : TextRange) (cursor : Nat) : List Nat → List TextRange
  | [] => [⟨cursor, span.stop⟩]
  | boundary :: boundaries =>
    if boundary ≥ span.stop then [⟨cursor, span.stop⟩]
    else ⟨cursor, boundary⟩ :: splitFrom span boundary boundaries

def splitAtBoundaries (span : TextRange) (boundaries : List Nat) : List TextRange :=
  match boundaries.drop
      (ScriptList.partitionPoint (fun index => boundaries[index]?.any (· ≤ span.start))
        boundaries.length) with
  | [] => [span]
  | boundary :: rest =>
    if boundary ≥ span.stop then [span] else splitFrom span span.start (boundary :: rest)

/-- Numbers without repetition in ascending order, as from a `Set`. -/
def distinctAscending (numbers : List Nat) : List Nat :=
  toSorted ScriptList.ascending numbers.dedup

namespace MarkdownIR

def annotated (ir : MarkdownIR) (options : RenderOptions) : List MarkdownAnnotationSpan :=
  sortAnnotationSpans (ir.annotations.filter fun span =>
    (options.annotationMarkers span.type).isSome)

def dominantAnnotations (ir : MarkdownIR) (options : RenderOptions) : List MarkdownAnnotationSpan :=
  (ir.annotated options).filter fun span =>
    (options.annotationMarkers span.type).any RenderAnnotationMarker.suppressNestedFormatting

def dominantAnnotationRanges (ir : MarkdownIR) (options : RenderOptions) : List TextRange :=
  mergeRanges ((ir.dominantAnnotations options).map MarkdownAnnotationSpan.toTextRange)

def annotationBoundaries (ir : MarkdownIR) (options : RenderOptions) : List Nat :=
  distinctAscending ((ir.annotated options).flatMap fun span => [span.start, span.stop])

/-- A span outside of dominant annotations, cut where annotations start and stop. -/
def pieces (ir : MarkdownIR) (options : RenderOptions) (span : TextRange) : List TextRange :=
  (subtractRanges span (ir.dominantAnnotationRanges options)).flatMap fun piece =>
    splitAtBoundaries piece (ir.annotationBoundaries options)

def styled (ir : MarkdownIR) (options : RenderOptions) : List MarkdownStyleSpan :=
  sortStyleSpans <| (ir.styles.filter fun span => (options.styleMarkers span.style).isSome).flatMap fun span =>
      if isStructural span.style then [span]
      else (ir.pieces options span.toTextRange).map fun piece =>
        { span with toTextRange := piece }

def renderedLinks (ir : MarkdownIR) (options : RenderOptions) : List RenderLink :=
  match options.buildLink with
  | none => []
  | some buildLink =>
    (ir.links.flatMap fun span =>
        (ir.pieces options span.toTextRange).map fun piece =>
          { span with toTextRange := piece }).filterMap fun link =>
      if link.start = link.stop then none
      else buildLink link ir.text (getMarkdownLinkOrigin link)

/-- The places at which something starts or stops. -/
def points (ir : MarkdownIR) (options : RenderOptions) : List Nat :=
  distinctAscending <| [0, ir.text.length] ++ ((ir.styled options).filter fun span => span.start ≠ span.stop).flatMap
        (fun span => [span.start, span.stop]) ++
      ((ir.annotated options).filter fun span => span.start ≠ span.stop).flatMap
        (fun span => [span.start, span.stop]) ++
      (ir.renderedLinks options).flatMap fun link => [link.start, link.stop]

end MarkdownIR

inductive OpeningKind where
  | annotated
  | link
  | style (style : MarkdownStyle)
deriving DecidableEq, Repr

/-- What is opened at a place; `stop` is its `end`. -/
structure OpeningItem where
  stop : Nat
  opens : Text
  close : Text
  kind : OpeningKind
  index : Nat
deriving DecidableEq, Repr

def OpeningKind.isStructural : OpeningKind → Bool
  | .style named => Markdown.isStructural named
  | .annotated | .link => false

def OpeningKind.rank (kind : OpeningKind) : Int :=
  if kind.isStructural then -1
  else
    match kind with
    | .annotated => 0
    | .link => 1
    | .style _ => 2

def OpeningItem.lastRank (item : OpeningItem) : Nat :=
  match item.kind with
  | .style named => STYLE_RANK named
  | .annotated | .link => item.index

def compareOpeningItems (a b : OpeningItem) : Int :=
  if a.stop ≠ b.stop then (b.stop : Int) - a.stop
  else if a.kind.rank ≠ b.kind.rank then a.kind.rank - b.kind.rank
  else (a.lastRank : Int) - b.lastRank

def compareBucket (a b : MarkdownStyleSpan) : Int :=
  if a.stop ≠ b.stop then (b.stop : Int) - a.stop
  else (STYLE_RANK a.style : Int) - STYLE_RANK b.style

namespace MarkdownIR

def openingAnnotations (ir : MarkdownIR) (options : RenderOptions) (place : Nat) : List OpeningItem :=
  ((ir.annotated options).filter fun span =>
      span.start ≠ span.stop && span.start = place).zipIdx.filterMap fun entry =>
    (options.annotationMarkers entry.1.type).map fun marker =>
      { stop := entry.1.stop, opens := marker.opens entry.1, close := marker.close,
        kind := .annotated, index := entry.2 }

def openingLinks (ir : MarkdownIR) (options : RenderOptions) (place : Nat) : List OpeningItem :=
  ((ir.renderedLinks options).filter fun link => link.start = place).zipIdx.map fun entry =>
    { stop := entry.1.stop, opens := entry.1.opens, close := entry.1.close, kind := .link,
      index := entry.2 }

def openingStyles (ir : MarkdownIR) (options : RenderOptions) (place : Nat) : List OpeningItem :=
  (toSorted compareBucket <| (ir.styled options).filter fun span =>
      span.start ≠ span.stop && span.start = place).zipIdx.filterMap fun entry =>
    (options.styleMarkers entry.1.style).map fun marker =>
      { stop := entry.1.stop, opens := marker.opens entry.1, close := marker.close,
        kind := .style entry.1.style, index := entry.2 }

/-- What starts at a place, outer spans first. -/
def openingItems (ir : MarkdownIR) (options : RenderOptions) (place : Nat) : List OpeningItem :=
  toSorted compareOpeningItems <| ir.openingAnnotations options place ++ ir.openingLinks options place ++
      ir.openingStyles options place

end MarkdownIR

/-- The walk over the remaining places with what is open. -/
def renderFrom (openingItems : Nat → List OpeningItem) : List OpeningItem → List Nat → List (Mark OpeningItem)
  | _, [] => []
  | stack, place :: rest =>
    let items := openingItems place
    (stack.takeWhile fun item => item.stop = place).map .closed ++ (items.map .opened ++
      ((rest.head?.map fun next => .passed place next).toList ++ renderFrom openingItems
          (items.reverse ++ stack.dropWhile fun item => item.stop = place) rest))

namespace MarkdownIR

/-- The marks of which the output is the text. -/
def marks (ir : MarkdownIR) (options : RenderOptions) : List (Mark OpeningItem) :=
  if ir.text.isEmpty then []
  else renderFrom (ir.openingItems options) [] (ir.points options)

end MarkdownIR

def markup (options : RenderOptions) (text : Text) : Mark OpeningItem → Text
  | .opened item => item.opens
  | .closed item => item.close
  | .passed start stop => options.escapeText (sliceText text start stop)

def renderMarkdownWithMarkers (ir : MarkdownIR) (options : RenderOptions) : Text :=
  (ir.marks options).flatMap (markup options ir.text)

end PlatformClaw.Markdown
