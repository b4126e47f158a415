import Mathlib.Data.List.Dedup
import PlatformClaw.Markdown.Render

/-! # Cutting spans at annotations

Links and most styles are left out inside dominant annotations and cut where an annotation starts or
stops. The pieces of a span are the stretches of it that start and stop at its ends or at annotation
boundaries, have no such boundary inside and lie outside of dominant annotations.
-/

namespace PlatformClaw.Markdown

open ScriptList (toSorted)

namespace TextRange

def Avoids (piece range : TextRange) : Prop :=
  range.stop ≤ piece.start ∨ piece.stop ≤ range.start

def Forward (range : TextRange) : Prop := range.start < range.stop

end TextRange

structure Splits (span : TextRange) (cuts pieces : List TextRange) : Prop where
  inside : ∀ piece ∈ pieces, span.start ≤ piece.start ∧ piece.start ≤ piece.stop ∧ piece.stop ≤ span.stop
  starts : ∀ piece ∈ pieces, piece.Forward → piece.start = span.start ∨ ∃ cut ∈ cuts, piece.start = cut.stop
  stops : ∀ piece ∈ pieces, piece.Forward → piece.stop = span.stop ∨ ∃ cut ∈ cuts, piece.stop = cut.start
  avoids : ∀ piece ∈ pieces, piece.Forward → ∀ cut ∈ cuts, piece.Avoids cut
  covers : ∀ part : TextRange, part.Forward → span.start ≤ part.start → part.stop ≤ span.stop →
    (∀ cut ∈ cuts, part.Avoids cut) →
    ∃ piece ∈ pieces, piece.start ≤ part.start ∧ part.stop ≤ piece.stop

structure Apart (ranges : List TextRange) : Prop where
  order : ranges.Pairwise fun a b => a.stop < b.start
  proper : ∀ range ∈ ranges, range.start ≤ range.stop

theorem Apart.of_cons {range : TextRange} {ranges : List TextRange}
    (apart : Apart (range :: ranges)) : Apart ranges where
  order := apart.order.of_cons
  proper later inRanges := apart.proper later (List.mem_cons_of_mem _ inRanges)

theorem Apart.head {range : TextRange} {ranges : List TextRange}
    (apart : Apart (range :: ranges)) : range.start ≤ range.stop :=
  apart.proper range List.mem_cons_self

theorem Apart.later {range later : TextRange} {ranges : List TextRange}
    (apart : Apart (range :: ranges)) (inRanges : later ∈ ranges) : range.stop < later.start :=
  (List.pairwise_cons.mp apart.order).1 later inRanges

theorem Apart.drop {ranges : List TextRange} (apart : Apart ranges) (count : Nat) : Apart (ranges.drop count) where
  order := apart.order.drop
  proper range inRest := apart.proper range (List.mem_of_mem_drop inRest)

theorem splits_whole {span : TextRange} {cuts : List TextRange} (proper : span.start ≤ span.stop)
    (avoids : ∀ cut ∈ cuts, span.Avoids cut) : Splits span cuts [span] where
  inside piece inPieces := by
    obtain rfl := List.mem_singleton.mp inPieces
    exact ⟨Nat.le_refl _, proper, Nat.le_refl _⟩
  starts piece inPieces _ := .inl (congrArg _ (List.mem_singleton.mp inPieces))
  stops piece inPieces _ := .inl (congrArg _ (List.mem_singleton.mp inPieces))
  avoids piece inPieces _ := (List.mem_singleton.mp inPieces) ▸ avoids
  covers part _ start stop _ := ⟨span, List.mem_singleton.mpr rfl, start, stop⟩

theorem splits_rest {span : TextRange} {cursor : Nat} {cuts : List TextRange}
    (beyond : ∀ cut ∈ cuts, span.stop ≤ cut.start) :
    Splits ⟨cursor, span.stop⟩ cuts (if cursor < span.stop then [⟨cursor, span.stop⟩] else []) := by
  split
  · rename_i less
    exact splits_whole (Nat.le_of_lt less) fun cut inCuts => .inr (beyond cut inCuts)
  · rename_i done
    constructor
    · intro _ inNone
      cases inNone
    · intro _ inNone
      cases inNone
    · intro _ inNone
      cases inNone
    · intro _ inNone
      cases inNone
    · intro part forward start stop _
      unfold TextRange.Forward at forward
      dsimp only at start stop
      omega

theorem splits_subtractFrom {span : TextRange} {ranges : List TextRange} (apart : Apart ranges) :
    ∀ {cursor : Nat}, span.start ≤ cursor → Splits ⟨cursor, span.stop⟩ ranges (subtractFrom span cursor ranges) := by
  induction ranges with
  | nil => exact fun _ => splits_rest fun _ inNone => (by cases inNone)
  | cons range ranges ih =>
    intro cursor started
    rw [subtractFrom]
    split
    · rename_i beyond
      apply splits_rest
      intro cut inCuts
      cases List.mem_cons.mp inCuts with
      | inl same => exact same ▸ beyond
      | inr later =>
        have order := apart.later later
        have proper := apart.head
        omega
    · rename_i near
      have rest := ih apart.of_cons (Nat.le_trans started (Nat.le_max_left cursor (min span.stop range.stop)))
      have proper := apart.head
      dsimp only
      -- a piece is the one before the range, or one of the pieces after it
      have either : ∀ {p : TextRange → Prop},
          (cursor < max span.start range.start → p ⟨cursor, max span.start range.start⟩) →
          (∀ piece ∈ subtractFrom span (max cursor (min span.stop range.stop)) ranges, p piece) →
          ∀ piece ∈ (if max span.start range.start > cursor then
              [(⟨cursor, max span.start range.start⟩ : TextRange)] else []) ++
            subtractFrom span (max cursor (min span.stop range.stop)) ranges, p piece := by
        intro p first later piece inPieces
        cases List.mem_append.mp inPieces with
        | inr after => exact later piece after
        | inl before =>
          split at before
          · rename_i less
            exact List.mem_singleton.mp before ▸ first less
          · cases before
      constructor
      · apply either
        · intro less
          dsimp only
          omega
        · intro piece inRest
          have inside := rest.inside piece inRest
          dsimp only at inside ⊢
          omega
      · apply either
        · exact fun _ _ => .inl rfl
        · intro piece inRest forward
          have inside := rest.inside piece inRest
          unfold TextRange.Forward at forward
          cases rest.starts piece inRest forward with
          | inr found =>
            obtain ⟨cut, inCuts, same⟩ := found
            exact .inr ⟨cut, List.mem_cons_of_mem _ inCuts, same⟩
          | inl same =>
            dsimp only at same inside ⊢
            by_cases at' : piece.start = cursor
            · exact .inl at'
            · exact .inr ⟨range, List.mem_cons_self, by omega⟩
      · apply either
        · intro less _
          refine .inr ⟨range, List.mem_cons_self, ?_⟩
          dsimp only
          omega
        · intro piece inRest forward
          exact (rest.stops piece inRest forward).imp_right fun found => by
            obtain ⟨cut, inCuts, same⟩ := found
            exact ⟨cut, List.mem_cons_of_mem _ inCuts, same⟩
      · apply either
        · intro less _ cut inCuts
          refine .inr ?_
          dsimp only
          cases List.mem_cons.mp inCuts with
          | inl same =>
            subst same
            omega
          | inr later =>
            have order := apart.later later
            omega
        · intro piece inRest forward cut inCuts
          cases List.mem_cons.mp inCuts with
          | inr later => exact rest.avoids piece inRest forward cut later
          | inl same =>
            subst same
            have inside := rest.inside piece inRest
            unfold TextRange.Forward at forward
            dsimp only at inside
            refine .inl ?_
            omega
      · intro part forward start stop avoids
        unfold TextRange.Forward at forward
        dsimp only at start stop
        cases avoids range List.mem_cons_self with
        | inl after =>
          obtain ⟨piece, inRest, holds⟩ := rest.covers part forward (by dsimp only; omega) stop
            fun cut inCuts => avoids cut (List.mem_cons_of_mem _ inCuts)
          exact ⟨piece, List.mem_append_right _ inRest, holds⟩
        | inr before =>
          refine ⟨⟨cursor, max span.start range.start⟩, List.mem_append_left _ ?_, start, ?_⟩
          · rw [if_pos (by omega)]
            exact List.mem_singleton.mpr rfl
          · dsimp only
            omega

theorem firstOverlapping_splits {ranges : List TextRange} (apart : Apart ranges) {start index : Nat}
    {range : TextRange} (found : ranges[index]? = some range) :
    range.stop ≤ start ↔ index < firstOverlappingRangeIndex ranges start := by
  obtain ⟨inRanges, same⟩ := List.getElem?_eq_some_iff.mp found
  have closed : ∀ {i j : Nat}, i ≤ j → j < ranges.length → (ranges[j]?.any fun range => range.stop ≤ start) = true →
      (ranges[i]?.any fun range => range.stop ≤ start) = true := by
    intro i j le inRange holds
    have inRange' : i < ranges.length := by omega
    rw [List.getElem?_eq_getElem inRange] at holds
    rw [List.getElem?_eq_getElem inRange']
    simp only [Option.any_some, decide_eq_true_eq] at holds ⊢
    by_cases here : i = j
    · subst here
      exact holds
    · have order := List.pairwise_iff_getElem.mp apart.order i j inRange' inRange (by omega)
      have proper := apart.proper _ (List.getElem_mem inRange)
      omega
  unfold firstOverlappingRangeIndex
  rw [← ScriptList.lt_partitionPoint closed inRanges, found]
  simp

theorem Splits.skip {span : TextRange} {before cuts pieces : List TextRange}
    (splits : Splits span cuts pieces) (earlier : ∀ cut ∈ before, cut.stop ≤ span.start) :
    Splits span (before ++ cuts) pieces where
  inside := splits.inside
  starts piece inPieces forward := (splits.starts piece inPieces forward).imp_right
    fun ⟨cut, inCuts, same⟩ => ⟨cut, List.mem_append_right _ inCuts, same⟩
  stops piece inPieces forward := (splits.stops piece inPieces forward).imp_right
    fun ⟨cut, inCuts, same⟩ => ⟨cut, List.mem_append_right _ inCuts, same⟩
  avoids piece inPieces forward cut inCuts := by
    cases List.mem_append.mp inCuts with
    | inl early =>
      exact .inl (Nat.le_trans (earlier cut early) (splits.inside piece inPieces).1)
    | inr late => exact splits.avoids piece inPieces forward cut late
  covers part forward start stop avoids :=
    splits.covers part forward start stop fun cut inCuts =>
      avoids cut (List.mem_append_right _ inCuts)

theorem splits_subtractRanges {span : TextRange} {ranges : List TextRange} (apart : Apart ranges)
    (proper : span.start ≤ span.stop) : Splits span ranges (subtractRanges span ranges) := by
  have earlier : ∀ cut ∈ ranges.take (firstOverlappingRangeIndex ranges span.start), cut.stop ≤ span.start := by
    intro cut inTake
    obtain ⟨index, found⟩ := List.getElem?_of_mem inTake
    rw [List.getElem?_take] at found
    split at found
    · rename_i less
      exact (firstOverlapping_splits apart found).mpr less
    · cases found
  have after := apart.drop (firstOverlappingRangeIndex ranges span.start)
  have rest : Splits span (ranges.drop (firstOverlappingRangeIndex ranges span.start))
      (subtractRanges span ranges) := by
    unfold subtractRanges
    split
    · rename_i none
      rw [none]
      exact splits_whole proper fun _ inNone => (by cases inNone)
    · rename_i firstRange rest isRest
      rw [isRest] at after ⊢
      split
      · rename_i beyond
        apply splits_whole proper
        intro cut inCuts
        refine .inr ?_
        cases List.mem_cons.mp inCuts with
        | inl same => exact same ▸ beyond
        | inr later =>
          have order := after.later later
          have proper := after.head
          omega
      · exact splits_subtractFrom after (Nat.le_refl _)
  have joined := rest.skip earlier
  rwa [List.take_append_drop] at joined

def boundaryPoints (boundaries : List Nat) : List TextRange :=
  boundaries.map fun boundary => ⟨boundary, boundary⟩

theorem mem_boundaryPoints {boundaries : List Nat} {cut : TextRange} :
    cut ∈ boundaryPoints boundaries ↔ cut.start = cut.stop ∧ cut.start ∈ boundaries := by
  unfold boundaryPoints
  rw [List.mem_map]
  constructor
  · rintro ⟨boundary, inBoundaries, rfl⟩
    exact ⟨rfl, inBoundaries⟩
  · rintro ⟨same, inBoundaries⟩
    refine ⟨cut.start, inBoundaries, ?_⟩
    cases cut
    cases same
    rfl

theorem splits_splitFrom {span : TextRange} {boundaries : List Nat} (ascending : boundaries.Pairwise (· < ·)) :
    ∀ {cursor : Nat}, cursor < span.stop → (∀ boundary ∈ boundaries, cursor < boundary) →
      Splits ⟨cursor, span.stop⟩ (boundaryPoints boundaries) (splitFrom span cursor boundaries) := by
  have whole : ∀ {cursor : Nat} {cuts : List Nat}, cursor < span.stop → (∀ boundary ∈ cuts, span.stop ≤ boundary) →
      Splits ⟨cursor, span.stop⟩ (boundaryPoints cuts) [⟨cursor, span.stop⟩] := by
    intro cursor cuts less beyond
    refine splits_whole (Nat.le_of_lt less) fun cut inCuts => .inr ?_
    exact beyond _ (mem_boundaryPoints.mp inCuts).2
  induction boundaries with
  | nil =>
    intro cursor less _
    exact whole less fun _ inNone => (by cases inNone)
  | cons boundary boundaries ih =>
    intro cursor less after
    obtain ⟨first, ascending⟩ := List.pairwise_cons.mp ascending
    rw [splitFrom]
    split
    · rename_i beyond
      apply whole less
      intro other inBoundaries
      cases List.mem_cons.mp inBoundaries with
      | inl same => exact same ▸ beyond
      | inr later => exact Nat.le_trans beyond (Nat.le_of_lt (first other later))
    · rename_i near
      have here := after boundary List.mem_cons_self
      have rest := ih ascending (Nat.lt_of_not_le near) first
      have either : ∀ {p : TextRange → Prop}, p ⟨cursor, boundary⟩ →
          (∀ piece ∈ splitFrom span boundary boundaries, p piece) →
          ∀ piece ∈ (⟨cursor, boundary⟩ : TextRange) :: splitFrom span boundary boundaries, p piece := by
        intro p first later piece inPieces
        cases List.mem_cons.mp inPieces with
        | inl same => exact same ▸ first
        | inr after => exact later piece after
      have isPoint : (⟨boundary, boundary⟩ : TextRange) ∈ boundaryPoints (boundary :: boundaries) :=
        List.mem_cons_self
      constructor
      · apply either
        · dsimp only
          omega
        · intro piece inRest
          have inside := rest.inside piece inRest
          dsimp only at inside ⊢
          omega
      · apply either
        · exact fun _ => .inl rfl
        · intro piece inRest forward
          cases rest.starts piece inRest forward with
          | inl same => exact .inr ⟨_, isPoint, same⟩
          | inr found =>
            obtain ⟨cut, inCuts, same⟩ := found
            exact .inr ⟨cut, List.mem_cons_of_mem _ inCuts, same⟩
      · apply either
        · exact fun _ => .inr ⟨_, isPoint, rfl⟩
        · intro piece inRest forward
          cases rest.stops piece inRest forward with
          | inl same => exact .inl same
          | inr found =>
            obtain ⟨cut, inCuts, same⟩ := found
            exact .inr ⟨cut, List.mem_cons_of_mem _ inCuts, same⟩
      · apply either
        · intro _ cut inCuts
          refine .inr ?_
          cases List.mem_cons.mp (mem_boundaryPoints.mp inCuts).2 with
          | inl same => exact Nat.le_of_eq same.symm
          | inr later => exact Nat.le_of_lt (first _ later)
        · intro piece inRest forward cut inCuts
          cases List.mem_cons.mp inCuts with
          | inl same => exact .inl (same ▸ (rest.inside piece inRest).1)
          | inr later => exact rest.avoids piece inRest forward cut later
      · intro part forward start stop avoids
        cases avoids _ isPoint with
        | inl behind =>
          obtain ⟨piece, inRest, holds⟩ := rest.covers part forward behind stop
            fun cut inCuts => avoids cut (List.mem_cons_of_mem _ inCuts)
          exact ⟨piece, List.mem_cons_of_mem _ inRest, holds⟩
        | inr before => exact ⟨⟨cursor, boundary⟩, List.mem_cons_self, start, before⟩

theorem splits_splitAtBoundaries {span : TextRange} {boundaries : List Nat}
    (ascending : boundaries.Pairwise (· < ·)) (proper : span.start ≤ span.stop) :
    Splits span (boundaryPoints boundaries) (splitAtBoundaries span boundaries) := by
  have closed : ∀ {i j : Nat}, i ≤ j → j < boundaries.length → (boundaries[j]?.any (· ≤ span.start)) = true →
      (boundaries[i]?.any (· ≤ span.start)) = true := by
    intro i j le inRange holds
    have inRange' : i < boundaries.length := by omega
    rw [List.getElem?_eq_getElem inRange] at holds
    rw [List.getElem?_eq_getElem inRange']
    simp only [Option.any_some, decide_eq_true_eq] at holds ⊢
    by_cases here : i = j
    · subst here
      exact holds
    · have order := List.pairwise_iff_getElem.mp ascending i j inRange' inRange (by omega)
      omega
  have located : ∀ {index boundary : Nat}, boundaries[index]? = some boundary →
      (boundary ≤ span.start ↔ index < ScriptList.partitionPoint
        (fun index => boundaries[index]?.any (· ≤ span.start)) boundaries.length) := by
    intro index boundary found
    rw [← ScriptList.lt_partitionPoint closed (List.getElem?_eq_some_iff.mp found).1, found]
    simp
  have rest : Splits span (boundaryPoints (boundaries.drop (ScriptList.partitionPoint
        (fun index => boundaries[index]?.any (· ≤ span.start)) boundaries.length)))
      (splitAtBoundaries span boundaries) := by
    have after : ∀ boundary ∈ boundaries.drop (ScriptList.partitionPoint
        (fun index => boundaries[index]?.any (· ≤ span.start)) boundaries.length),
        span.start < boundary := by
      intro boundary inRest
      obtain ⟨index, found⟩ := List.getElem?_of_mem inRest
      rw [List.getElem?_drop] at found
      have notBefore := located found
      omega
    have ordered := ascending.drop (i := ScriptList.partitionPoint
      (fun index => boundaries[index]?.any (· ≤ span.start)) boundaries.length)
    unfold splitAtBoundaries
    split
    · rename_i none
      rw [none]
      exact splits_whole proper fun _ inNone => (by cases inNone)
    · rename_i boundary rest isRest
      rw [isRest] at after ordered ⊢
      split
      · rename_i beyond
        refine splits_whole proper fun cut inCuts => .inr ?_
        cases List.mem_cons.mp (mem_boundaryPoints.mp inCuts).2 with
        | inl same => exact same ▸ beyond
        | inr later =>
          exact Nat.le_trans beyond (Nat.le_of_lt ((List.pairwise_cons.mp ordered).1 _ later))
      · rename_i near
        have less := after boundary List.mem_cons_self
        exact splits_splitFrom ordered (by omega) after
  have earlier : ∀ cut ∈ boundaryPoints (boundaries.take (ScriptList.partitionPoint
      (fun index => boundaries[index]?.any (· ≤ span.start)) boundaries.length)),
      cut.stop ≤ span.start := by
    intro cut inCuts
    obtain ⟨same, inTake⟩ := mem_boundaryPoints.mp inCuts
    obtain ⟨index, found⟩ := List.getElem?_of_mem inTake
    rw [List.getElem?_take] at found
    split at found
    · rename_i less
      exact same ▸ (located found).mpr less
    · cases found
  have joined := rest.skip earlier
  unfold boundaryPoints at joined
  rwa [← List.map_append, List.take_append_drop] at joined

theorem comparison_compareRanges : ScriptList.Comparison compareRanges where
  total a b := by
    unfold compareRanges
    split <;> split <;> omega
  trans := by
    intro a b c
    unfold compareRanges
    split <;> split <;> split <;> omega

structure Merges (ranges merged : List TextRange) : Prop where
  apart : Apart merged
  starts : ∀ range ∈ merged, ∃ origin ∈ ranges, range.start = origin.start
  stops : ∀ range ∈ merged, ∃ origin ∈ ranges, range.stop = origin.stop
  avoids : ∀ part : TextRange, part.Forward →
    ((∀ range ∈ merged, part.Avoids range) ↔ ∀ range ∈ ranges, part.Avoids range)

theorem merges_mergeInto {previous : TextRange} {ranges : List TextRange}
    (sorted : (previous :: ranges).Pairwise fun a b => a.start ≤ b.start)
    (proper : ∀ range ∈ previous :: ranges, range.start ≤ range.stop) :
    Merges (previous :: ranges) (mergeInto (fun previous range => range.start ≤ previous.stop)
        (fun previous range => { previous with stop := max previous.stop range.stop })
        previous ranges) := by
  induction ranges generalizing previous with
  | nil =>
    rw [mergeInto]
    exact
      { apart := ⟨List.pairwise_singleton _ _, proper⟩
        starts := fun range inMerged => ⟨range, inMerged, rfl⟩
        stops := fun range inMerged => ⟨range, inMerged, rfl⟩
        avoids := fun _ _ => Iff.rfl }
  | cons next ranges ih =>
    obtain ⟨first, order⟩ := List.pairwise_cons.mp sorted
    have least := first next List.mem_cons_self
    have properFirst := proper previous List.mem_cons_self
    have properNext := proper next (List.mem_cons_of_mem _ List.mem_cons_self)
    have properLater : ∀ range ∈ ranges, range.start ≤ range.stop := fun range inRanges =>
      proper range (List.mem_cons_of_mem _ (List.mem_cons_of_mem _ inRanges))
    rw [mergeInto]
    split
    · rename_i touches
      have touch : next.start ≤ previous.stop := of_decide_eq_true touches
      have rest := @ih { previous with stop := max previous.stop next.stop } (List.pairwise_cons.mpr
          ⟨fun range inRanges => first range (List.mem_cons_of_mem _ inRanges), order.of_cons⟩)
        (by
          intro range inRanges
          cases List.mem_cons.mp inRanges with
          | inl same =>
            subst same
            exact Nat.le_trans properFirst (Nat.le_max_left _ _)
          | inr later => exact properLater range later)
      constructor
      · exact rest.apart
      · intro range inMerged
        obtain ⟨origin, inRanges, same⟩ := rest.starts range inMerged
        cases List.mem_cons.mp inRanges with
        | inl here =>
          subst here
          exact ⟨previous, List.mem_cons_self, same⟩
        | inr later =>
          exact ⟨origin, List.mem_cons_of_mem _ (List.mem_cons_of_mem _ later), same⟩
      · intro range inMerged
        obtain ⟨origin, inRanges, same⟩ := rest.stops range inMerged
        cases List.mem_cons.mp inRanges with
        | inr later =>
          exact ⟨origin, List.mem_cons_of_mem _ (List.mem_cons_of_mem _ later), same⟩
        | inl here =>
          subst here
          dsimp only at same
          by_cases reaches : previous.stop ≤ next.stop
          · exact ⟨next, List.mem_cons_of_mem _ List.mem_cons_self, by omega⟩
          · exact ⟨previous, List.mem_cons_self, by omega⟩
      · intro part forward
        rw [rest.avoids part forward]
        simp only [List.forall_mem_cons, ← and_assoc]
        refine and_congr_left fun _ => ?_
        unfold TextRange.Avoids
        unfold TextRange.Forward at forward
        dsimp only
        omega
    · rename_i apart
      have apart' : previous.stop < next.start := Nat.lt_of_not_le fun le =>
        apart (decide_eq_true le)
      have rest := ih order fun range inRanges => proper range (List.mem_cons_of_mem _ inRanges)
      have later : ∀ range ∈ mergeInto (fun previous range => decide (range.start ≤ previous.stop))
          (fun previous range => { previous with stop := max previous.stop range.stop })
          next ranges, next.start ≤ range.start := by
        apply forall_mergeInto (p := fun range : TextRange => next.start ≤ range.start)
        · exact fun _ first _ => first
        · exact Nat.le_refl _
        · exact (List.pairwise_cons.mp order).1
      constructor
      · constructor
        · refine List.pairwise_cons.mpr ⟨fun range inMerged => ?_, rest.apart.order⟩
          exact Nat.lt_of_lt_of_le apart' (later range inMerged)
        · intro range inMerged
          cases List.mem_cons.mp inMerged with
          | inl same => exact same ▸ properFirst
          | inr merged => exact rest.apart.proper range merged
      · intro range inMerged
        cases List.mem_cons.mp inMerged with
        | inl same => exact ⟨previous, List.mem_cons_self, congrArg _ same⟩
        | inr merged =>
          obtain ⟨origin, inRanges, same⟩ := rest.starts range merged
          exact ⟨origin, List.mem_cons_of_mem _ inRanges, same⟩
      · intro range inMerged
        cases List.mem_cons.mp inMerged with
        | inl same => exact ⟨previous, List.mem_cons_self, congrArg _ same⟩
        | inr merged =>
          obtain ⟨origin, inRanges, same⟩ := rest.stops range merged
          exact ⟨origin, List.mem_cons_of_mem _ inRanges, same⟩
      · intro part forward
        rw [List.forall_mem_cons, List.forall_mem_cons, rest.avoids part forward]

theorem merges_mergeRanges {ranges : List TextRange}
    (proper : ∀ range ∈ ranges, range.start ≤ range.stop) : Merges ranges (mergeRanges ranges) := by
  have sorted : (toSorted compareRanges ranges).Pairwise fun a b => a.start ≤ b.start := by
    refine (ScriptList.pairwise_toSorted comparison_compareRanges).imp ?_
    intro a b le
    unfold compareRanges at le
    split at le <;> omega
  have inRanges : ∀ {range : TextRange}, range ∈ toSorted compareRanges ranges ↔ range ∈ ranges :=
    ScriptList.mem_toSorted
  have sortedProper : ∀ range ∈ toSorted compareRanges ranges, range.start ≤ range.stop :=
    fun range inSorted => proper range (inRanges.mp inSorted)
  have merges : Merges (toSorted compareRanges ranges) (mergeRanges ranges) := by
    unfold mergeRanges
    generalize toSorted compareRanges ranges = list at sorted sortedProper
    cases list with
    | nil =>
      exact
        { apart := ⟨.nil, fun _ inNone => (by cases inNone)⟩
          starts := fun _ inNone => (by cases inNone)
          stops := fun _ inNone => (by cases inNone)
          avoids := fun _ _ => Iff.rfl }
    | cons first rest => exact merges_mergeInto sorted sortedProper
  constructor
  · exact merges.apart
  · intro range inMerged
    obtain ⟨origin, inSorted, same⟩ := merges.starts range inMerged
    exact ⟨origin, inRanges.mp inSorted, same⟩
  · intro range inMerged
    obtain ⟨origin, inSorted, same⟩ := merges.stops range inMerged
    exact ⟨origin, inRanges.mp inSorted, same⟩
  · intro part forward
    rw [merges.avoids part forward]
    exact forall_congr' fun range => imp_congr_left inRanges

def MarkdownIR.Annotated (ir : MarkdownIR) (options : RenderOptions) (noted : MarkdownAnnotationSpan) : Prop :=
  noted ∈ ir.annotations ∧ (options.annotationMarkers noted.type).isSome = true

/-- Nothing but text is rendered inside an annotation with such a marker. -/
def RenderOptions.Suppresses (options : RenderOptions) (type : MarkdownAnnotationType) : Prop :=
  (options.annotationMarkers type).any RenderAnnotationMarker.suppressNestedFormatting = true

/-- A longest stretch of a span outside of dominant annotations and without an annotation boundary
inside. -/
structure Piece (ir : MarkdownIR) (options : RenderOptions) (span piece : TextRange) : Prop where
  forward : piece.start < piece.stop
  inside : span.start ≤ piece.start ∧ piece.stop ≤ span.stop
  starts : piece.start = span.start ∨ ∃ noted, ir.Annotated options noted ∧
    (piece.start = noted.start ∨ piece.start = noted.stop)
  stops : piece.stop = span.stop ∨ ∃ noted, ir.Annotated options noted ∧
    (piece.stop = noted.start ∨ piece.stop = noted.stop)
  whole : ∀ noted, ir.Annotated options noted → (noted.start ≤ piece.start ∨ piece.stop ≤ noted.start) ∧
      (noted.stop ≤ piece.start ∨ piece.stop ≤ noted.stop)
  outside : ∀ noted, ir.Annotated options noted → options.Suppresses noted.type → piece.Avoids noted.toTextRange

theorem piece_iff_whole {ir : MarkdownIR} {options : RenderOptions} {span piece : TextRange}
    (plain : ir.annotations = []) : Piece ir options span piece ↔ piece.Forward ∧ piece = span := by
  have none : ∀ noted, ¬ ir.Annotated options noted := by
    intro noted annotated
    have inNone := plain ▸ annotated.1
    cases inNone
  constructor
  · intro isPiece
    refine ⟨isPiece.forward, TextRange.ext ?_ ?_⟩
    · cases isPiece.starts with
      | inl same => exact same
      | inr found => exact absurd found.choose_spec.1 (none _)
    · cases isPiece.stops with
      | inl same => exact same
      | inr found => exact absurd found.choose_spec.1 (none _)
  · rintro ⟨forward, rfl⟩
    exact
      { forward := forward
        inside := ⟨Nat.le_refl _, Nat.le_refl _⟩
        starts := .inl rfl
        stops := .inl rfl
        whole := fun noted annotated => absurd annotated (none noted)
        outside := fun noted annotated => absurd annotated (none noted) }

@[simp] theorem mem_distinctAscending {numbers : List Nat} {number : Nat} :
    number ∈ distinctAscending numbers ↔ number ∈ numbers := by
  unfold distinctAscending
  rw [ScriptList.mem_toSorted, List.mem_dedup]

theorem pairwise_distinctAscending (numbers : List Nat) : (distinctAscending numbers).Pairwise (· < ·) :=
  ScriptList.pairwise_toSorted_ascending (List.nodup_dedup numbers)

namespace MarkdownIR

variable {ir : MarkdownIR} {options : RenderOptions}

@[simp] theorem mem_annotated {noted : MarkdownAnnotationSpan} :
    noted ∈ ir.annotated options ↔ ir.Annotated options noted := by
  unfold annotated sortAnnotationSpans Annotated
  rw [ScriptList.mem_toSorted, List.mem_filter]

@[simp] theorem mem_dominantAnnotations {noted : MarkdownAnnotationSpan} :
    noted ∈ ir.dominantAnnotations options ↔ ir.Annotated options noted ∧ options.Suppresses noted.type := by
  unfold dominantAnnotations
  rw [List.mem_filter, mem_annotated]
  rfl

@[simp] theorem mem_annotationBoundaries {boundary : Nat} :
    boundary ∈ ir.annotationBoundaries options ↔ ∃ noted, ir.Annotated options noted ∧
      (boundary = noted.start ∨ boundary = noted.stop) := by
  unfold annotationBoundaries
  simp

theorem merges_dominant (proper : ir.Proper) :
    Merges ((ir.dominantAnnotations options).map MarkdownAnnotationSpan.toTextRange)
      (ir.dominantAnnotationRanges options) := by
  apply merges_mergeRanges
  intro range inRanges
  obtain ⟨noted, inDominant, rfl⟩ := List.mem_map.mp inRanges
  exact (proper.annotations noted (mem_dominantAnnotations.mp inDominant).1.1).1

theorem proper_of_mem_pieces (proper : ir.Proper) {span piece : TextRange}
    (spanProper : span.start ≤ span.stop) (inPieces : piece ∈ ir.pieces options span) :
    piece.start ≤ piece.stop := by
  obtain ⟨middle, inMiddle, inSplit⟩ := List.mem_flatMap.mp inPieces
  have subtracted := splits_subtractRanges (@merges_dominant ir options proper).apart spanProper
  have split := @splits_splitAtBoundaries middle (ir.annotationBoundaries options)
    (pairwise_distinctAscending _) (subtracted.inside middle inMiddle).2.1
  exact (split.inside piece inSplit).2.1

theorem mem_pieces (proper : ir.Proper) {span piece : TextRange} (forward : piece.Forward)
    (spanProper : span.start ≤ span.stop) :
    piece ∈ ir.pieces options span ↔ Piece ir options span piece := by
  have merges := @merges_dominant ir options proper
  have subtracted := splits_subtractRanges merges.apart spanProper
  have boundary := @mem_annotationBoundaries ir options
  have ascending : (ir.annotationBoundaries options).Pairwise (· < ·) :=
    pairwise_distinctAscending _
  have split : ∀ middle ∈ subtractRanges span (ir.dominantAnnotationRanges options),
      Splits middle (boundaryPoints (ir.annotationBoundaries options))
        (splitAtBoundaries middle (ir.annotationBoundaries options)) := fun middle inMiddle =>
    splits_splitAtBoundaries ascending (subtracted.inside middle inMiddle).2.1
  have origin : ∀ {range : TextRange}, range ∈ (ir.dominantAnnotations options).map
        MarkdownAnnotationSpan.toTextRange →
      ∃ noted, ir.Annotated options noted ∧ options.Suppresses noted.type ∧ noted.toTextRange = range := by
    intro range inRanges
    obtain ⟨noted, inDominant, same⟩ := List.mem_map.mp inRanges
    obtain ⟨annotated, suppresses⟩ := mem_dominantAnnotations.mp inDominant
    exact ⟨noted, annotated, suppresses, same⟩
  unfold pieces
  rw [List.mem_flatMap]
  constructor
  · rintro ⟨middle, inMiddle, inPieces⟩
    have splits := split middle inMiddle
    have inner := splits.inside piece inPieces
    have outer := subtracted.inside middle inMiddle
    have middleForward : middle.Forward := by
      unfold TextRange.Forward at forward ⊢
      omega
    constructor
    · exact forward
    · omega
    · cases splits.starts piece inPieces forward with
      | inr found =>
        obtain ⟨cut, inCuts, same⟩ := found
        obtain ⟨isPoint, inBoundaries⟩ := mem_boundaryPoints.mp inCuts
        exact .inr (boundary.mp (by rw [same, ← isPoint]; exact inBoundaries))
      | inl same =>
        cases subtracted.starts middle inMiddle middleForward with
        | inl here => exact .inl (same.trans here)
        | inr found =>
          obtain ⟨range, inMerged, isStop⟩ := found
          obtain ⟨origin', inRanges, same'⟩ := merges.stops range inMerged
          obtain ⟨noted, annotated, _, rfl⟩ := origin inRanges
          exact .inr ⟨noted, annotated, .inr (by omega)⟩
    · cases splits.stops piece inPieces forward with
      | inr found =>
        obtain ⟨cut, inCuts, same⟩ := found
        exact .inr (boundary.mp (by rw [same]; exact (mem_boundaryPoints.mp inCuts).2))
      | inl same =>
        cases subtracted.stops middle inMiddle middleForward with
        | inl here => exact .inl (same.trans here)
        | inr found =>
          obtain ⟨range, inMerged, isStart⟩ := found
          obtain ⟨origin', inRanges, same'⟩ := merges.starts range inMerged
          obtain ⟨noted, annotated, _, rfl⟩ := origin inRanges
          exact .inr ⟨noted, annotated, .inl (by omega)⟩
    · intro noted annotated
      have avoids : ∀ place, (place = noted.start ∨ place = noted.stop) →
          place ≤ piece.start ∨ piece.stop ≤ place := by
        intro place isBoundary
        have inBoundaries := boundary.mpr ⟨noted, annotated, isBoundary⟩
        exact splits.avoids piece inPieces forward ⟨place, place⟩ (mem_boundaryPoints.mpr ⟨rfl, inBoundaries⟩)
      exact ⟨avoids _ (.inl rfl), avoids _ (.inr rfl)⟩
    · intro noted annotated suppresses
      have outside := (merges.avoids middle middleForward).mp
        (subtracted.avoids middle inMiddle middleForward) noted.toTextRange
        (List.mem_map.mpr ⟨noted, mem_dominantAnnotations.mpr ⟨annotated, suppresses⟩, rfl⟩)
      unfold TextRange.Avoids at outside ⊢
      omega
  · intro isPiece
    have avoids : ∀ range ∈ ir.dominantAnnotationRanges options, piece.Avoids range := by
      rw [merges.avoids piece forward]
      intro range inRanges
      obtain ⟨noted, annotated, suppresses, rfl⟩ := origin inRanges
      exact isPiece.outside noted annotated suppresses
    obtain ⟨middle, inMiddle, before, after⟩ :=
      subtracted.covers piece forward isPiece.inside.1 isPiece.inside.2 avoids
    have splits := split middle inMiddle
    have uncut : ∀ place ∈ ir.annotationBoundaries options, place ≤ piece.start ∨ piece.stop ≤ place := by
      intro place inBoundaries
      obtain ⟨noted, annotated, isBoundary⟩ := boundary.mp inBoundaries
      have whole := isPiece.whole noted annotated
      cases isBoundary with
      | inl same => exact same ▸ whole.1
      | inr same => exact same ▸ whole.2
    obtain ⟨found, inPieces, start, stop⟩ := splits.covers piece forward before after
      fun cut inCuts => by
        obtain ⟨same, inBoundaries⟩ := mem_boundaryPoints.mp inCuts
        have either := uncut cut.start inBoundaries
        rw [same] at either
        exact either.imp_right fun le => same ▸ le
    have foundForward : found.Forward := by
      unfold TextRange.Forward at forward ⊢
      omega
    have outer := subtracted.inside middle inMiddle
    have inner := splits.inside found inPieces
    have kept : ∀ place ∈ ir.annotationBoundaries options,
        place ≤ found.start ∨ found.stop ≤ place := fun place inBoundaries =>
      splits.avoids found inPieces foundForward ⟨place, place⟩ (mem_boundaryPoints.mpr ⟨rfl, inBoundaries⟩)
    -- the piece that was found reaches no further than the given one
    have isStart : found.start = piece.start := by
      cases isPiece.starts with
      | inl same => omega
      | inr isBoundary =>
        have either := kept _ (boundary.mpr isBoundary)
        unfold TextRange.Forward at forward
        omega
    have isStop : found.stop = piece.stop := by
      cases isPiece.stops with
      | inl same => omega
      | inr isBoundary =>
        have either := kept _ (boundary.mpr isBoundary)
        unfold TextRange.Forward at forward
        omega
    refine ⟨middle, inMiddle, ?_⟩
    have same : found = piece := by
      cases found
      cases piece
      cases isStart
      cases isStop
      rfl
    exact same ▸ inPieces

end MarkdownIR

end PlatformClaw.Markdown
