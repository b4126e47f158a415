import PlatformClaw.Markdown.Pieces

/-! # Rendered markup is balanced

The walk can close only what is on top of its stack, so the markup is properly nested exactly when no
two of the stretches that get markers partly overlap. Spans that a parser produces do not, but the
merging of touching spans can make one that does.
-/

namespace PlatformClaw.Markdown

open ScriptText (Text)
open ScriptList (toSorted)
open NestedMarks (Mark Nested Reads)

section Walk

variable {opening : Nat → List OpeningItem}

/-- What starts within something that is open stops within it. -/
def Keeps (opening : Nat → List OpeningItem) (outer : OpeningItem) (places : List Nat) : Prop :=
  ∀ place ∈ places, place < outer.stop → ∀ inner ∈ opening place, inner.stop ≤ outer.stop

/-- Of the items that start at some places, none partly overlaps another. -/
def NoOverlap (opening : Nat → List OpeningItem) (places : List Nat) : Prop :=
  ∀ place ∈ places, ∀ outer ∈ opening place, Keeps opening outer (places.filter (place < ·))

theorem mem_takeWhile_stop {stack : List OpeningItem} {place : Nat} :
    ∀ item ∈ stack.takeWhile fun item => item.stop = place, item.stop = place := by
  intro item inTake
  exact of_decide_eq_true (List.all_eq_true.mp List.all_takeWhile item inTake)

theorem mem_dropWhile_stop {stack : List OpeningItem} {place : Nat} {item : OpeningItem}
    (inStack : item ∈ stack) (open' : place < item.stop) :
    item ∈ stack.dropWhile fun item => item.stop = place := by
  rw [← @List.takeWhile_append_dropWhile _ (fun item : OpeningItem => item.stop = place) stack]
    at inStack
  cases List.mem_append.mp inStack with
  | inr kept => exact kept
  | inl closed =>
    have here := mem_takeWhile_stop item closed
    omega

theorem dropWhile_stop {stack : List OpeningItem} {place : Nat}
    (sorted : stack.Pairwise fun inner outer => inner.stop ≤ outer.stop)
    (least : ∀ item ∈ stack, place ≤ item.stop) :
    ∀ item ∈ stack.dropWhile fun item => item.stop = place, place < item.stop := by
  induction stack with
  | nil => exact fun _ inNone => (by cases inNone)
  | cons first stack ih =>
    obtain ⟨below, sorted⟩ := List.pairwise_cons.mp sorted
    intro item inDrop
    rw [List.dropWhile_cons] at inDrop
    split at inDrop
    · exact ih sorted (fun other inStack => least other (List.mem_cons_of_mem _ inStack)) item
        inDrop
    · rename_i apart
      have beyond : place < first.stop := by
        have le := least first List.mem_cons_self
        have ne : first.stop ≠ place := fun same => apart (decide_eq_true same)
        omega
      cases List.mem_cons.mp inDrop with
      | inl same => exact same ▸ beyond
      | inr later => exact Nat.lt_of_lt_of_le beyond (below item later)

theorem reads_renderFrom_cons {stack : List OpeningItem} {place stop : Nat} {rest : List Nat} :
    Reads OpeningItem.stop place stack (renderFrom opening stack (place :: rest)) stop ↔ Reads OpeningItem.stop place
        ((opening place).reverse ++ stack.dropWhile fun item => item.stop = place)
        ((rest.head?.map fun next => .passed place next).toList ++ renderFrom opening
            ((opening place).reverse ++ stack.dropWhile fun item => item.stop = place) rest)
        stop := by
  have split : ∀ (closing kept : List OpeningItem) (marks : List (Mark OpeningItem)),
      (∀ item ∈ closing, item.stop = place) →
      (Reads OpeningItem.stop place (closing ++ kept)
          (closing.map .closed ++ ((opening place).map .opened ++ marks)) stop ↔
        Reads OpeningItem.stop place ((opening place).reverse ++ kept) marks stop) := by
    intro closing kept marks here
    rw [NestedMarks.reads_closed here, NestedMarks.reads_opened]
  have here := split _ (stack.dropWhile fun item => item.stop = place)
    ((rest.head?.map fun next => .passed place next).toList ++ renderFrom opening
        ((opening place).reverse ++ stack.dropWhile fun item => item.stop = place) rest)
    (@mem_takeWhile_stop stack place)
  rwa [List.takeWhile_append_dropWhile] at here

theorem noOverlap_cons {place : Nat} {rest : List Nat} (later : ∀ next ∈ rest, place < next) :
    NoOverlap opening (place :: rest) ↔
      (∀ outer ∈ opening place, Keeps opening outer rest) ∧ NoOverlap opening rest := by
  have none : ∀ {next : Nat}, next ∈ rest → ¬ next < place := fun inRest less =>
    Nat.lt_asymm less (later _ inRest)
  have first : (place :: rest).filter (place < ·) = rest := by
    rw [List.filter_cons_of_neg (by simp), List.filter_eq_self]
    exact fun next inRest => decide_eq_true (later next inRest)
  have others : ∀ next ∈ rest, (place :: rest).filter (next < ·) = rest.filter (next < ·) := fun next inRest =>
    List.filter_cons_of_neg (by simp [none inRest])
  unfold NoOverlap
  rw [List.forall_mem_cons, first]
  refine and_congr_right fun _ => forall_congr' fun next => ?_
  refine forall_congr' fun inRest => ?_
  rw [others next inRest]

theorem keeps_of_reads {places : List Nat} (ascending : places.Pairwise (· < ·)) :
    ∀ {stack : List OpeningItem} {start stop : Nat}, (∀ place ∈ places.head?, place = start) →
      Reads OpeningItem.stop start stack (renderFrom opening stack places) stop →
      (∀ outer ∈ stack, Keeps opening outer places) ∧ NoOverlap opening places := by
  induction places with
  | nil =>
    intro stack start stop _ _
    exact ⟨fun _ _ _ inNone => (by cases inNone), fun _ inNone => (by cases inNone)⟩
  | cons place rest ih =>
    intro stack start stop isStart reads
    obtain ⟨later, ascending⟩ := List.pairwise_cons.mp ascending
    obtain rfl : place = start := isStart place rfl
    have opened := reads_renderFrom_cons.mp reads
    have ordered := (List.pairwise_append.mp opened.ordered.1).2.2
    have below : (∀ outer ∈ (opening place).reverse ++
          stack.dropWhile fun item => item.stop = place, Keeps opening outer rest) ∧
        NoOverlap opening rest := by
      cases rest with
      | nil => exact ⟨fun _ _ _ inNone => (by cases inNone), fun _ inNone => (by cases inNone)⟩
      | cons next rest =>
        obtain ⟨_, _, reads⟩ := NestedMarks.reads_passed.mp opened
        exact ih ascending (fun _ same => (Option.some.inj same).symm) reads
    constructor
    · intro outer inStack
      refine List.forall_mem_cons.mpr ⟨fun within inner inOpening => ?_, fun next inRest within => ?_⟩
      · exact ordered inner (List.mem_reverse.mpr inOpening) outer (mem_dropWhile_stop inStack within)
      · have beyond : place < outer.stop := Nat.lt_trans (later next inRest) within
        exact below.1 outer (List.mem_append_right _ (mem_dropWhile_stop inStack beyond)) next inRest within
    · refine (noOverlap_cons later).mpr ⟨fun outer inOpening => ?_, below.2⟩
      exact below.1 outer (List.mem_append_left _ (List.mem_reverse.mpr inOpening))

theorem reads_of_keeps {places : List Nat} (ascending : places.Pairwise (· < ·))
    (outerFirst : ∀ place, (opening place).Pairwise fun outer inner => inner.stop ≤ outer.stop)
    (stops : ∀ place ∈ places, ∀ item ∈ opening place, place < item.stop ∧ item.stop ∈ places) :
    ∀ {stack : List OpeningItem} {start : Nat}, (∀ place ∈ places.head?, place = start) →
      (stack.Pairwise fun inner outer => inner.stop ≤ outer.stop) →
      (∀ item ∈ stack, item.stop ∈ places) →
      (∀ outer ∈ stack, Keeps opening outer places) → NoOverlap opening places →
      Reads OpeningItem.stop start stack (renderFrom opening stack places) (places.getLast?.getD start) := by
  induction places with
  | nil =>
    intro stack start _ _ inNone _ _
    cases stack with
    | nil => exact .nil start
    | cons item stack => cases inNone item List.mem_cons_self
  | cons place rest ih =>
    intro stack start isStart sorted inPlaces keeps apart
    obtain ⟨later, ascending⟩ := List.pairwise_cons.mp ascending
    obtain ⟨keepsHere, apart⟩ := (noOverlap_cons later).mp apart
    obtain rfl : place = start := isStart place rfl
    have least : ∀ item ∈ stack, place ≤ item.stop := by
      intro item inStack
      cases List.mem_cons.mp (inPlaces item inStack) with
      | inl same => exact Nat.le_of_eq same.symm
      | inr inRest => exact Nat.le_of_lt (later _ inRest)
    have beyond := dropWhile_stop sorted least
    have kept := List.dropWhile_sublist (l := stack) fun item => item.stop = place
    have beyondHere : ∀ item ∈ opening place, place < item.stop := fun item inOpening =>
      (stops place List.mem_cons_self item inOpening).1
    -- what is open after this place is sorted, and stops at the places that remain
    have sortedAfter : ((opening place).reverse ++ stack.dropWhile fun item =>
        item.stop = place).Pairwise fun inner outer => inner.stop ≤ outer.stop := by
      refine List.pairwise_append.mpr ⟨List.pairwise_reverse.mpr (outerFirst place), sorted.sublist kept, ?_⟩
      intro inner inOpening outer inDrop
      exact keeps outer (kept.mem inDrop) place List.mem_cons_self (beyond outer inDrop) inner
        (List.mem_reverse.mp inOpening)
    have inRest : ∀ {item : OpeningItem}, place < item.stop → item.stop ∈ place :: rest → item.stop ∈ rest := by
      intro item after inPlaces
      cases List.mem_cons.mp inPlaces with
      | inl same => omega
      | inr found => exact found
    have stopsAfter : ∀ item ∈ (opening place).reverse ++ stack.dropWhile fun item =>
        item.stop = place, item.stop ∈ rest := by
      intro item inStack
      cases List.mem_append.mp inStack with
      | inl opened =>
        have both := stops place List.mem_cons_self item (List.mem_reverse.mp opened)
        exact inRest both.1 both.2
      | inr below => exact inRest (beyond item below) (inPlaces item (kept.mem below))
    have keepsAfter : ∀ outer ∈ (opening place).reverse ++ stack.dropWhile fun item =>
        item.stop = place, Keeps opening outer rest := by
      intro outer inStack
      cases List.mem_append.mp inStack with
      | inl opened => exact keepsHere outer (List.mem_reverse.mp opened)
      | inr below =>
        exact fun next found => keeps outer (kept.mem below) next (List.mem_cons_of_mem _ found)
    have stopsRest : ∀ next ∈ rest, ∀ item ∈ opening next,
        next < item.stop ∧ item.stop ∈ rest := by
      intro next found item inOpening
      have both := stops next (List.mem_cons_of_mem _ found) item inOpening
      exact ⟨both.1, inRest (Nat.lt_trans (later next found) both.1) both.2⟩
    apply reads_renderFrom_cons.mpr
    cases rest with
    | nil =>
      have empty : (opening place).reverse ++ stack.dropWhile (fun item => item.stop = place) =
          [] := List.eq_nil_iff_forall_not_mem.mpr fun item inStack =>
        (by cases stopsAfter item inStack)
      rw [empty]
      exact .nil place
    | cons next rest =>
      have walked := ih ascending stopsRest (fun _ same => (Option.some.inj same).symm)
        sortedAfter stopsAfter keepsAfter apart
      apply NestedMarks.reads_passed.mpr
      refine ⟨rfl, later next List.mem_cons_self, ?_⟩
      rw [List.getLast?_cons_cons]
      rwa [List.getLast?_eq_some_getLast (List.cons_ne_nil _ _)] at walked ⊢

end Walk

/-- Links are given markers for their own bounds. -/
def RenderOptions.KeepsBounds (options : RenderOptions) : Prop :=
  ∀ buildLink, options.buildLink = some buildLink → ∀ link text origin rendered,
    buildLink link text origin = some rendered → rendered.toTextRange = link.toTextRange

/-- The stretches of a document that get markers. -/
inductive Rendered (ir : MarkdownIR) (options : RenderOptions) : TextRange → Prop where
  | annotated {span : MarkdownAnnotationSpan} (annotated : ir.Annotated options span)
      (forward : span.Forward) : Rendered ir options span.toTextRange
  | structural {span : MarkdownStyleSpan} (inStyles : span ∈ ir.styles)
      (marker : (options.styleMarkers span.style).isSome = true)
      (structural : isStructural span.style = true) (forward : span.Forward) :
      Rendered ir options span.toTextRange
  | style {span : MarkdownStyleSpan} {piece : TextRange} (inStyles : span ∈ ir.styles)
      (marker : (options.styleMarkers span.style).isSome = true)
      (inline : isStructural span.style = false)
      (isPiece : Piece ir options span.toTextRange piece) : Rendered ir options piece
  | link {span : MarkdownLinkSpan} {piece : TextRange} {rendered : RenderLink}
      {buildLink : MarkdownLinkSpan → Text → MarkdownLinkOrigin → Option RenderLink}
      (inLinks : span ∈ ir.links) (isPiece : Piece ir options span.toTextRange piece)
      (builds : options.buildLink = some buildLink)
      (built : buildLink { span with toTextRange := piece } ir.text (getMarkdownLinkOrigin span) =
        some rendered) : Rendered ir options piece

theorem Rendered.forward {ir : MarkdownIR} {options : RenderOptions} {range : TextRange}
    (rendered : Rendered ir options range) : range.Forward := by
  cases rendered with
  | annotated _ forward => exact forward
  | structural _ _ _ forward => exact forward
  | style _ _ _ isPiece => exact isPiece.forward
  | link _ isPiece _ _ => exact isPiece.forward

/-- No two stretches that get markers partly overlap. -/
def Separated (ir : MarkdownIR) (options : RenderOptions) : Prop :=
  ∀ outer inner, Rendered ir options outer → Rendered ir options inner →
    outer.start < inner.start → inner.start < outer.stop → inner.stop ≤ outer.stop

theorem comparison_compareOpeningItems : ScriptList.Comparison compareOpeningItems where
  total a b := by
    unfold compareOpeningItems
    split <;> split <;> try split
    all_goals try split
    all_goals omega
  trans := by
    intro a b c
    unfold compareOpeningItems
    split <;> split <;> split <;> try split
    all_goals try split
    all_goals try split
    all_goals omega

namespace MarkdownIR

variable {ir : MarkdownIR} {options : RenderOptions}

theorem openingItems_outerFirst (place : Nat) :
    (ir.openingItems options place).Pairwise fun outer inner => inner.stop ≤ outer.stop := by
  unfold openingItems
  refine (ScriptList.pairwise_toSorted comparison_compareOpeningItems).imp ?_
  intro outer inner le
  unfold compareOpeningItems at le
  split at le <;> omega

theorem mem_styled (proper : ir.Proper) {span : MarkdownStyleSpan} (forward : span.Forward) :
    span ∈ ir.styled options ↔ ∃ origin ∈ ir.styles, (options.styleMarkers origin.style).isSome = true ∧
        ((isStructural origin.style = true ∧ span = origin) ∨ (isStructural origin.style = false ∧
            Piece ir options origin.toTextRange span.toTextRange ∧
              span = { origin with toTextRange := span.toTextRange })) := by
  unfold styled sortStyleSpans
  rw [ScriptList.mem_toSorted, List.mem_flatMap]
  refine exists_congr fun origin => ?_
  rw [List.mem_filter, and_assoc]
  refine and_congr_right fun inStyles => and_congr_right fun _ => ?_
  split
  · rename_i structural
    simp [structural]
  · rename_i inline
    simp only [inline, Bool.false_eq_true, false_and, false_or, true_and, List.mem_map]
    constructor
    · rintro ⟨piece, inPieces, rfl⟩
      exact ⟨(mem_pieces proper forward (proper.styles origin inStyles).1).mp inPieces, rfl⟩
    · rintro ⟨isPiece, same⟩
      exact ⟨span.toTextRange, (mem_pieces proper forward (proper.styles origin inStyles).1).mpr isPiece, same.symm⟩

theorem forward_of_mem_styled (proper : ir.Proper) {span : MarkdownStyleSpan}
    (inStyled : span ∈ ir.styled options) (nonempty : span.start ≠ span.stop) : span.Forward := by
  refine Nat.lt_of_le_of_ne ?_ nonempty
  unfold styled sortStyleSpans at inStyled
  rw [ScriptList.mem_toSorted, List.mem_flatMap] at inStyled
  obtain ⟨origin, inStyles, inPieces⟩ := inStyled
  have proper' := (proper.styles origin (List.mem_filter.mp inStyles).1).1
  split at inPieces
  · exact (List.mem_singleton.mp inPieces) ▸ proper'
  · obtain ⟨piece, found, rfl⟩ := List.mem_map.mp inPieces
    exact proper_of_mem_pieces proper proper' found

theorem mem_renderedLinks (proper : ir.Proper) {rendered : RenderLink} :
    rendered ∈ ir.renderedLinks options ↔ ∃ buildLink, options.buildLink = some buildLink ∧
      ∃ origin ∈ ir.links, ∃ piece, Piece ir options origin.toTextRange piece ∧
        buildLink { origin with toTextRange := piece } ir.text (getMarkdownLinkOrigin origin) = some rendered := by
  unfold renderedLinks
  cases builds : options.buildLink with
  | none => simp
  | some buildLink =>
    simp only [List.mem_filterMap, List.mem_flatMap, List.mem_map, Option.some.injEq]
    constructor
    · rintro ⟨_, ⟨origin, inLinks, piece, inPieces, rfl⟩, built⟩
      split at built
      · cases built
      · rename_i nonempty
        have forward : piece.Forward := by
          have le := proper_of_mem_pieces proper (proper.links origin inLinks).1 inPieces
          exact Nat.lt_of_le_of_ne le nonempty
        have isPiece := (mem_pieces proper forward (proper.links origin inLinks).1).mp inPieces
        exact ⟨buildLink, rfl, origin, inLinks, piece, isPiece, built⟩
    · rintro ⟨_, rfl, origin, inLinks, piece, isPiece, built⟩
      have inPieces := (mem_pieces proper isPiece.forward (proper.links origin inLinks).1).mpr isPiece
      refine ⟨_, ⟨origin, inLinks, piece, inPieces, rfl⟩, ?_⟩
      rw [if_neg (Nat.ne_of_lt isPiece.forward)]
      exact built

theorem exists_mem_zipIdx {α : Type} {items : List α} {p : α → Prop} :
    (∃ entry ∈ items.zipIdx, p entry.1) ↔ ∃ item ∈ items, p item := by
  constructor
  · rintro ⟨entry, inEntries, holds⟩
    exact ⟨entry.1, List.fst_mem_of_mem_zipIdx inEntries, holds⟩
  · rintro ⟨item, inItems, holds⟩
    obtain ⟨index, found⟩ := List.getElem?_of_mem inItems
    exact ⟨(item, index), List.mem_zipIdx_iff_getElem?.mpr found, holds⟩

theorem exists_mem_openings {α β : Type} {spans : List α} (marker : α → Option β) (stopOf : α → Nat)
    {item : α × Nat → β → OpeningItem}
    (stops : ∀ entry found, (item entry found).stop = stopOf entry.1) {stop : Nat} :
    (∃ opened ∈ spans.zipIdx.filterMap fun entry => (marker entry.1).map (item entry), opened.stop = stop) ↔
      ∃ span ∈ spans, (marker span).isSome = true ∧ stopOf span = stop := by
  refine Iff.trans ?_ (@exists_mem_zipIdx _ spans fun span => (marker span).isSome = true ∧ stopOf span = stop)
  constructor
  · rintro ⟨opened, inOpened, same⟩
    obtain ⟨entry, inEntries, made⟩ := List.mem_filterMap.mp inOpened
    obtain ⟨found, isMarker, rfl⟩ := Option.map_eq_some_iff.mp made
    exact ⟨entry, inEntries, Option.isSome_of_eq_some isMarker, (stops entry found).symm.trans same⟩
  · rintro ⟨entry, inEntries, isMarker, same⟩
    obtain ⟨found, isFound⟩ := Option.isSome_iff_exists.mp isMarker
    refine ⟨item entry found, List.mem_filterMap.mpr ⟨entry, inEntries, ?_⟩, (stops entry found).trans same⟩
    rw [isFound]
    rfl

theorem exists_mem_openingAnnotations {place stop : Nat} :
    (∃ item ∈ ir.openingAnnotations options place, item.stop = stop) ↔
      ∃ span, ir.Annotated options span ∧ span.start ≠ span.stop ∧ span.start = place ∧ span.stop = stop := by
  refine (exists_mem_openings (fun span : MarkdownAnnotationSpan =>
    options.annotationMarkers span.type) (fun span => span.stop) fun _ _ => rfl).trans ?_
  refine exists_congr fun span => ?_
  simp only [List.mem_filter, mem_annotated, Bool.and_eq_true, decide_eq_true_eq]
  exact ⟨fun both => ⟨both.1.1, both.1.2.1, both.1.2.2, both.2.2⟩,
    fun all => ⟨⟨all.1, all.2.1, all.2.2.1⟩, all.1.2, all.2.2.2⟩⟩

theorem exists_mem_openingLinks {place stop : Nat} : (∃ item ∈ ir.openingLinks options place, item.stop = stop) ↔
      ∃ link ∈ ir.renderedLinks options, link.start = place ∧ link.stop = stop := by
  unfold openingLinks
  simp only [List.mem_map, exists_exists_and_eq_and]
  refine (@exists_mem_zipIdx _ _ fun link : RenderLink => link.stop = stop).trans ?_
  simp only [List.mem_filter, decide_eq_true_eq, and_assoc]

theorem exists_mem_openingStyles {place stop : Nat} : (∃ item ∈ ir.openingStyles options place, item.stop = stop) ↔
      ∃ span ∈ ir.styled options, span.start ≠ span.stop ∧ span.start = place ∧
        (options.styleMarkers span.style).isSome = true ∧ span.stop = stop := by
  refine (exists_mem_openings (fun span : MarkdownStyleSpan => options.styleMarkers span.style)
    (fun span => span.stop) fun _ _ => rfl).trans ?_
  simp only [ScriptList.mem_toSorted, List.mem_filter, Bool.and_eq_true, decide_eq_true_eq, and_assoc]

theorem rendered_iff (proper : ir.Proper) (keeps : options.KeepsBounds) {range : TextRange} :
    Rendered ir options range ↔
      (∃ span, ir.Annotated options span ∧ span.start ≠ span.stop ∧ span.start = range.start ∧
        span.stop = range.stop) ∨
      (∃ link ∈ ir.renderedLinks options, link.start = range.start ∧ link.stop = range.stop) ∨
      ∃ span ∈ ir.styled options, span.start ≠ span.stop ∧ span.start = range.start ∧
        (options.styleMarkers span.style).isSome = true ∧ span.stop = range.stop := by
  constructor
  · intro rendered
    have nonempty := Nat.ne_of_lt rendered.forward
    cases rendered with
    | @annotated span annotated forward =>
      exact .inl ⟨span, annotated, nonempty, rfl, rfl⟩
    | @structural span inStyles marker structural forward =>
      refine .inr (.inr ⟨span, ?_, nonempty, rfl, marker, rfl⟩)
      exact (mem_styled proper forward).mpr ⟨span, inStyles, marker, .inl ⟨structural, rfl⟩⟩
    | @style span _ inStyles marker inline isPiece =>
      refine .inr (.inr ⟨{ span with toTextRange := range }, ?_, nonempty, rfl, marker, rfl⟩)
      apply (@mem_styled ir options proper { span with toTextRange := range } isPiece.forward).mpr
      exact ⟨span, inStyles, marker, .inr ⟨inline, isPiece, rfl⟩⟩
    | @link span _ rendered buildLink inLinks isPiece builds built =>
      have same := keeps buildLink builds _ _ _ _ built
      refine .inr (.inl ⟨rendered, ?_, congrArg TextRange.start same, congrArg TextRange.stop same⟩)
      exact (mem_renderedLinks proper).mpr ⟨buildLink, builds, span, inLinks, range, isPiece, built⟩
  · rintro (⟨span, annotated, nonempty, start, stop⟩ | ⟨rendered, inLinks, start, stop⟩ |
      ⟨span, inStyled, nonempty, start, marker, stop⟩)
    · obtain rfl : span.toTextRange = range := TextRange.ext start stop
      exact .annotated annotated (Nat.lt_of_le_of_ne (proper.annotations span annotated.1).1 nonempty)
    · obtain ⟨buildLink, builds, span, inLinks, piece, isPiece, built⟩ :=
        (mem_renderedLinks proper).mp inLinks
      have same := keeps buildLink builds _ _ _ _ built
      obtain rfl : piece = range := TextRange.ext ((congrArg TextRange.start same).symm.trans start)
        ((congrArg TextRange.stop same).symm.trans stop)
      exact .link inLinks isPiece builds built
    · obtain rfl : span.toTextRange = range := TextRange.ext start stop
      have forward := forward_of_mem_styled proper inStyled nonempty
      obtain ⟨origin, inStyles, marker, either⟩ := (mem_styled proper forward).mp inStyled
      cases either with
      | inl whole =>
        obtain ⟨structural, rfl⟩ := whole
        exact .structural inStyles marker structural forward
      | inr cut => exact .style inStyles marker cut.1 cut.2.1

theorem rendered_iff_opened (proper : ir.Proper) (keeps : options.KeepsBounds)
    {range : TextRange} : Rendered ir options range ↔
      ∃ item ∈ ir.openingItems options range.start, item.stop = range.stop := by
  rw [rendered_iff proper keeps, ← exists_mem_openingAnnotations, ← exists_mem_openingLinks,
    ← exists_mem_openingStyles]
  unfold openingItems
  simp only [ScriptList.mem_toSorted, List.mem_append, or_assoc, or_and_right, exists_or]

theorem mem_points (proper : ir.Proper) (keeps : options.KeepsBounds) {place : Nat} :
    place ∈ ir.points options ↔ place = 0 ∨ place = ir.text.length ∨
      ∃ range, Rendered ir options range ∧ (place = range.start ∨ place = range.stop) := by
  have isRendered := fun range => @rendered_iff ir options proper keeps range
  unfold points
  simp only [mem_distinctAscending, List.mem_append, List.mem_cons, List.not_mem_nil, or_false,
    List.mem_flatMap, List.mem_filter, mem_annotated, decide_eq_true_eq]
  constructor
  · rintro ((((rfl | rfl) | ⟨span, ⟨inStyled, nonempty⟩, isEnd⟩) |
      ⟨span, ⟨annotated, nonempty⟩, isEnd⟩) | ⟨link, inLinks, isEnd⟩)
    · exact .inl rfl
    · exact .inr (.inl rfl)
    · have marker : (options.styleMarkers span.style).isSome = true := by
        obtain ⟨origin, _, marker, either⟩ :=
          (mem_styled proper (forward_of_mem_styled proper inStyled nonempty)).mp inStyled
        cases either with
        | inl whole => exact whole.2 ▸ marker
        | inr cut =>
          rw [cut.2.2]
          exact marker
      exact .inr (.inr ⟨span.toTextRange, (isRendered _).mpr
        (.inr (.inr ⟨span, inStyled, nonempty, rfl, marker, rfl⟩)), isEnd⟩)
    · exact .inr (.inr ⟨span.toTextRange, (isRendered _).mpr (.inl ⟨span, annotated, nonempty, rfl, rfl⟩), isEnd⟩)
    · exact .inr (.inr ⟨link.toTextRange, (isRendered _).mpr (.inr (.inl ⟨link, inLinks, rfl, rfl⟩)), isEnd⟩)
  · rintro (rfl | rfl | ⟨range, rendered, isEnd⟩)
    · exact .inl (.inl (.inl (.inl rfl)))
    · exact .inl (.inl (.inl (.inr rfl)))
    · rcases (isRendered range).mp rendered with ⟨span, annotated, nonempty, start, stop⟩ |
        ⟨link, inLinks, start, stop⟩ | ⟨span, inStyled, nonempty, start, _, stop⟩
      · exact .inl (.inr ⟨span, ⟨annotated, nonempty⟩, by rw [start, stop]; exact isEnd⟩)
      · exact .inr ⟨link, inLinks, by rw [start, stop]; exact isEnd⟩
      · exact .inl (.inl (.inr ⟨span, ⟨inStyled, nonempty⟩, by rw [start, stop]; exact isEnd⟩))

theorem Rendered.inside (proper : ir.Proper) {range : TextRange}
    (rendered : Rendered ir options range) : range.stop ≤ ir.text.length := by
  cases rendered with
  | annotated annotated _ => exact (proper.annotations _ annotated.1).2
  | structural inStyles _ _ _ => exact (proper.styles _ inStyles).2
  | style inStyles _ _ isPiece =>
    exact Nat.le_trans isPiece.inside.2 (proper.styles _ inStyles).2
  | link inLinks isPiece _ _ => exact Nat.le_trans isPiece.inside.2 (proper.links _ inLinks).2

theorem points_ascending : (ir.points options).Pairwise (· < ·) :=
  pairwise_distinctAscending _

/-- The walk begins at the start of the text. -/
theorem head?_points (proper : ir.Proper) (keeps : options.KeepsBounds) : (ir.points options).head? = some 0 := by
  have first : 0 ∈ ir.points options := (mem_points proper keeps).mpr (.inl rfl)
  have ascending := @points_ascending ir options
  cases places : ir.points options with
  | nil =>
    rw [places] at first
    cases first
  | cons place rest =>
    rw [places] at first ascending
    cases List.mem_cons.mp first with
    | inl same => exact congrArg some same.symm
    | inr later => exact absurd ((List.pairwise_cons.mp ascending).1 0 later) (Nat.not_lt_zero _)

theorem getLast?_points (proper : ir.Proper) (keeps : options.KeepsBounds) :
    (ir.points options).getLast? = some ir.text.length := by
  have last : ir.text.length ∈ ir.points options :=
    (mem_points proper keeps).mpr (.inr (.inl rfl))
  have ascending := @points_ascending ir options
  have bounded : ∀ place ∈ ir.points options, place ≤ ir.text.length := by
    intro place inPoints
    rcases (mem_points proper keeps).mp inPoints with rfl | rfl | ⟨range, rendered, isEnd⟩
    · exact Nat.zero_le _
    · exact Nat.le_refl _
    · have inside := Rendered.inside proper rendered
      have forward := rendered.forward
      unfold TextRange.Forward at forward
      omega
  rcases List.eq_nil_or_concat (ir.points options) with none | ⟨before, place, split⟩
  · rw [none] at last
    cases last
  · rw [split, List.concat_eq_append] at last ascending bounded
    rw [split, List.concat_eq_append, List.getLast?_concat]
    have most := bounded place (List.mem_append_right _ List.mem_cons_self)
    cases List.mem_append.mp last with
    | inr here => exact congrArg some (List.mem_singleton.mp here).symm
    | inl earlier =>
      have less := (List.pairwise_append.mp ascending).2.2 _ earlier place List.mem_cons_self
      omega

theorem noOverlap_iff (proper : ir.Proper) (keeps : options.KeepsBounds) :
    NoOverlap (ir.openingItems options) (ir.points options) ↔ Separated ir options := by
  have opened := fun range => @rendered_iff_opened ir options proper keeps range
  constructor
  · intro apart outer inner isOuter isInner later within
    obtain ⟨outerItem, inOpening, outerStop⟩ := (opened outer).mp isOuter
    obtain ⟨innerItem, inOpening', innerStop⟩ := (opened inner).mp isInner
    have places : ∀ range, Rendered ir options range → range.start ∈ ir.points options :=
      fun range rendered => (mem_points proper keeps).mpr (.inr (.inr ⟨range, rendered, .inl rfl⟩))
    have kept := apart outer.start (places outer isOuter) outerItem inOpening inner.start
      (List.mem_filter.mpr ⟨places inner isInner, decide_eq_true later⟩) (outerStop ▸ within)
      innerItem inOpening'
    omega
  · intro separated place _ outer inOpening next inLater within inner inOpening'
    have later := of_decide_eq_true (List.mem_filter.mp inLater).2
    exact separated ⟨place, outer.stop⟩ ⟨next, inner.stop⟩ ((opened _).mpr ⟨outer, inOpening, rfl⟩)
      ((opened _).mpr ⟨inner, inOpening', rfl⟩) later within

theorem reads_iff (proper : ir.Proper) (keeps : options.KeepsBounds) :
    Reads OpeningItem.stop 0 [] (renderFrom (ir.openingItems options) [] (ir.points options))
      ir.text.length ↔ Separated ir options := by
  have head : ∀ place ∈ (ir.points options).head?, place = 0 := by
    rw [head?_points proper keeps]
    exact fun _ same => (Option.some.inj same).symm
  rw [← noOverlap_iff proper keeps]
  constructor
  · exact fun reads => (keeps_of_reads points_ascending head reads).2
  · intro apart
    have stops : ∀ place ∈ ir.points options, ∀ item ∈ ir.openingItems options place,
        place < item.stop ∧ item.stop ∈ ir.points options := by
      intro place _ item inOpening
      have rendered := (@rendered_iff_opened ir options proper keeps ⟨place, item.stop⟩).mpr ⟨item, inOpening, rfl⟩
      exact ⟨rendered.forward, (mem_points proper keeps).mpr (.inr (.inr ⟨_, rendered, .inr rfl⟩))⟩
    have reads := reads_of_keeps points_ascending openingItems_outerFirst stops head .nil
      (fun _ inNone => (by cases inNone)) (fun _ inNone => (by cases inNone)) apart
    rwa [getLast?_points proper keeps] at reads

/-- The output without the markers. -/
def erased (ir : MarkdownIR) (options : RenderOptions) : Text :=
  (ir.marks options).flatMap fun mark =>
    match mark with
    | .passed start stop => options.escapeText (sliceText ir.text start stop)
    | .opened _ | .closed _ => []

/-- The output is made of marks by which every opened marker is closed once, at the end of its
stretch, properly nested; without the markers it is the escaped pieces of the text in order. -/
structure Balanced (ir : MarkdownIR) (options : RenderOptions) : Prop where
  output : renderMarkdownWithMarkers ir options = (ir.marks options).flatMap (markup options ir.text)
  nested : Nested OpeningItem.stop 0 (ir.marks options) ir.text.length
  erased : ∃ pieces : List Text, pieces.flatten = ir.text ∧ ir.erased options = pieces.flatMap options.escapeText

theorem erased_marks (text : Text) (options : RenderOptions) (marks : List (Mark OpeningItem)) :
    (marks.flatMap fun mark =>
        match mark with
        | .passed start stop => options.escapeText (sliceText text start stop)
        | .opened _ | .closed _ => []) =
      ((NestedMarks.passages marks).map fun piece =>
        NestedMarks.stretch text piece.1 piece.2).flatMap options.escapeText := by
  induction marks with
  | nil => rfl
  | cons mark marks ih =>
    rw [List.flatMap_cons, ih]
    cases mark <;> rfl

/-- The markup is balanced exactly when no two stretches that get markers partly overlap. -/
theorem balanced_iff (proper : ir.Proper) (keeps : options.KeepsBounds) :
    ir.Balanced options ↔ Separated ir options := by
  have nested : Nested OpeningItem.stop 0 (ir.marks options) ir.text.length ↔ Separated ir options := by
    unfold marks
    split
    · rename_i empty
      have length : ir.text.length = 0 := List.length_eq_zero_iff.mpr (List.isEmpty_iff.mp empty)
      rw [length]
      refine ⟨fun _ outer inner isOuter _ _ _ => ?_, fun _ => .nil 0⟩
      have inside := Rendered.inside proper isOuter
      have forward := isOuter.forward
      unfold TextRange.Forward at forward
      omega
    · rw [NestedMarks.nested_iff_reads]
      exact reads_iff proper keeps
  rw [← nested]
  refine ⟨Balanced.nested, fun isNested => ⟨rfl, isNested, _, ?_, erased_marks _ _ _⟩⟩
  rw [isNested.stretches]
  exact List.take_length

end MarkdownIR

def document (ir : MarkdownIR) (slices : List (Int × Int)) : MarkdownIR :=
  slices.foldl (fun ir bounds => sliceMarkdownIR ir bounds.1 bounds.2)
    { ir with styles := mergeStyleSpans ir.styles }

theorem proper_document {ir : MarkdownIR} (proper : ir.Proper) (slices : List (Int × Int)) :
    (document ir slices).Proper := by
  have merged : MarkdownIR.Proper { ir with styles := mergeStyleSpans ir.styles } :=
    { styles := inside_mergeStyleSpans proper.styles
      links := proper.links
      annotations := proper.annotations }
  unfold document
  generalize { ir with styles := mergeStyleSpans ir.styles } = current at merged
  induction slices generalizing current with
  | nil => exact merged
  | cons bounds slices ih => exact ih _ (MarkdownIR.Proper.slice current bounds.1 bounds.2)

/-- Italic text that ends bold, with more bold text right after it. -/
def boldAcrossItalic : MarkdownIR where
  text := ScriptText.lit "abc"
  styles :=
    [{ start := 0, stop := 2, style := .italic }, { start := 1, stop := 2, style := .bold },
      { start := 2, stop := 3, style := .bold }]
  links := []

def asterisksAndUnderscores : RenderOptions where
  styleMarkers
    | .bold => some ⟨fun _ => ScriptText.lit "*", ScriptText.lit "*"⟩
    | .italic => some ⟨fun _ => ScriptText.lit "_", ScriptText.lit "_"⟩
    | _ => none
  escapeText := id

theorem proper_boldAcrossItalic : boldAcrossItalic.Proper where
  styles := by decide
  links := by decide
  annotations := by decide

end PlatformClaw.Markdown
