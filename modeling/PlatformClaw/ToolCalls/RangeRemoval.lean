import PlatformClaw.ToolCalls.CallSequences

/-! # Removing ranges part by part

The text of a message lies in several content blocks. One remover goes over them in turn and keeps its place in the
ranges, so that a range may begin in one block and end in another.
-/

namespace ToolCallRepair

open Scanning

/-- The ranges from `rangeIndex` on. -/
structure RangeRemover where
  ranges : List Span
  deriving Repr, DecidableEq

def createRangeRemover (ranges : List Span) : RangeRemover := ⟨ranges⟩

/-- The loop over the ranges that begin before the end of the text. -/
def removeLoop (text : Text) (offset : Nat) (result : Text) (cursor : Nat) : List Span → Text × Nat × List Span
  | [] => (result, cursor, [])
  | range :: rest =>
    if range.start < offset + text.length then
      let start := range.start - offset
      let stop := min text.length (range.stop - offset)
      let kept := if start < stop then result ++ slice text cursor (max cursor start) else result
      let next := if start < stop then max cursor stop else cursor
      if offset + text.length < range.stop then (kept, next, range :: rest)
      else removeLoop text offset kept next rest
    else (result, cursor, range :: rest)

namespace RangeRemover

def remove (remover : RangeRemover) (text : Text) (offset : Nat) : Text × RangeRemover :=
  let passed := remover.ranges.dropWhile fun range => range.stop ≤ offset
  let (result, cursor, rest) := removeLoop text offset [] 0 passed
  (if cursor = 0 then text else result ++ text.drop cursor, ⟨rest⟩)

def removeParts (remover : RangeRemover) (offset : Nat) : List Text → List Text
  | [] => []
  | part :: rest =>
    let (text, next) := remover.remove part offset
    text :: next.removeParts (offset + part.length) rest

end RangeRemover

def Span.covers (span : Span) (place : Nat) : Bool :=
  span.start ≤ place && place < span.stop

def keptUnits (ranges : List Span) (offset : Nat) (text : Text) : Text :=
  ((text.zipIdx offset).filter fun unit => ranges.all fun range => !range.covers unit.2).map Prod.fst

section Kept

variable {ranges rest dropped : List Span} {offset : Nat} {text more : Text}

theorem keptUnits_append : keptUnits ranges offset (text ++ more) =
      keptUnits ranges offset text ++ keptUnits ranges (offset + text.length) more := by
  simp only [keptUnits, List.zipIdx_append, List.filter_append, List.map_append]

theorem keptUnits_congr (same : ∀ place, offset ≤ place → place < offset + text.length →
      (ranges.all fun range => !range.covers place) = rest.all fun range => !range.covers place) :
    keptUnits ranges offset text = keptUnits rest offset text := by
  unfold keptUnits
  congr 1
  apply List.filter_congr
  intro unit inText
  obtain ⟨least, bound, -⟩ := List.mem_zipIdx inText
  exact same unit.2 least (by omega)

theorem keptUnits_passed (passed : ∀ range ∈ dropped, range.stop ≤ offset) :
    keptUnits (dropped ++ rest) offset text = keptUnits rest offset text := by
  apply keptUnits_congr
  intro place least _
  have free : (dropped.all fun range => !range.covers place) = true := by
    rw [List.all_eq_true]
    intro range isDropped
    have ended := passed range isDropped
    simp [Span.covers]
    omega
  rw [List.all_append, free, Bool.true_and]

theorem keptUnits_behind (behind : ∀ range ∈ ranges, offset + text.length ≤ range.start) :
    keptUnits ranges offset text = text := by
  have all : ((text.zipIdx offset).filter fun unit => ranges.all fun range => !range.covers unit.2) =
      text.zipIdx offset := by
    apply List.filter_eq_self.mpr
    intro unit inText
    obtain ⟨least, bound, -⟩ := List.mem_zipIdx inText
    rw [List.all_eq_true]
    intro range inRanges
    have begins := behind range inRanges
    simp [Span.covers]
    omega
  rw [keptUnits, all, List.zipIdx_map_fst]

theorem keptUnits_covered {range : Span} (begun : range.start ≤ offset)
    (ended : offset + text.length ≤ range.stop) : keptUnits (range :: rest) offset text = [] := by
  have none_ : ((text.zipIdx offset).filter fun unit =>
      (range :: rest).all fun range => !range.covers unit.2) = [] := by
    apply List.filter_eq_nil_iff.mpr
    intro unit inText
    obtain ⟨least, bound, -⟩ := List.mem_zipIdx inText
    have covered : range.covers unit.2 = true := by
      simp [Span.covers]
      omega
    rw [List.all_cons, covered]
    exact Bool.false_ne_true
  rw [keptUnits, none_, List.map_nil]

@[simp] theorem keptUnits_nil : keptUnits ranges offset [] = [] := rfl

end Kept

structure Ordered (ranges : List Span) : Prop where
  nonempty : ∀ range ∈ ranges, range.start < range.stop
  sorted : ranges.Pairwise fun before behind => before.stop ≤ behind.start

theorem Ordered.tail {range : Span} {rest : List Span} (ordered : Ordered (range :: rest)) : Ordered rest :=
  ⟨fun other inRest => ordered.nonempty other (List.mem_cons_of_mem _ inRest), ordered.sorted.of_cons⟩

theorem Ordered.before {range other : Span} {rest : List Span} (ordered : Ordered (range :: rest))
    (inRest : other ∈ rest) : range.stop ≤ other.start :=
  List.rel_of_pairwise_cons ordered.sorted inRest

theorem keptUnits_cut {range : Span} {rest : List Span} {text : Text} {offset cursor : Nat}
    (ordered : Ordered (range :: rest)) (reached : range.start < offset + text.length) (ends : offset < range.stop)
    (inside : cursor ≤ text.length)
    (begins : cursor = 0 ∨ offset + cursor ≤ range.start) :
    keptUnits (range :: rest) (offset + cursor) (text.drop cursor) =
      slice text cursor (max cursor (range.start - offset)) ++
        keptUnits (range :: rest) (offset + min text.length (range.stop - offset))
          (text.drop (min text.length (range.stop - offset))) := by
  have nonempty := ordered.nonempty range List.mem_cons_self
  have cut : cursor ≤ max cursor (range.start - offset) := Nat.le_max_left _ _
  have order : max cursor (range.start - offset) ≤ min text.length (range.stop - offset) := by omega
  have stop : min text.length (range.stop - offset) ≤ text.length := Nat.min_le_left _ _
  have ahead : keptUnits (range :: rest) (offset + cursor) (slice text cursor (max cursor (range.start - offset))) =
      slice text cursor (max cursor (range.start - offset)) := by
    by_cases begun : range.start ≤ offset + cursor
    · have nothing : slice text cursor (max cursor (range.start - offset)) = [] := by
        apply List.eq_nil_of_length_eq_zero
        rw [length_slice (Nat.le_trans order stop)]
        omega
      rw [nothing, keptUnits_nil]
    · apply keptUnits_behind
      intro other known
      rw [length_slice (Nat.le_trans order stop)]
      obtain rfl | inRest := List.mem_cons.mp known
      · omega
      · have later := ordered.before inRest
        omega
  have covered : keptUnits (range :: rest) (offset + max cursor (range.start - offset))
      (slice text (max cursor (range.start - offset)) (min text.length (range.stop - offset))) = [] := by
    apply keptUnits_covered
    · omega
    · rw [length_slice stop]
      omega
  rw [← slice_append_drop cut, ← slice_append_drop order, keptUnits_append, keptUnits_append, ahead,
    length_slice (Nat.le_trans order stop), length_slice stop, Nat.add_assoc offset cursor, Nat.add_sub_cancel' cut,
    covered, List.nil_append, Nat.add_assoc offset, Nat.add_sub_cancel' order]

theorem removeLoop_spec {ranges : List Span} {text : Text} {offset cursor : Nat} (result : Text)
    (ordered : Ordered ranges) (inside : cursor ≤ text.length) (ends : ∀ range ∈ ranges, offset < range.stop)
    (begins : cursor = 0 ∨ ∀ range ∈ ranges, offset + cursor ≤ range.start) :
    ∃ kept next rest dropped, removeLoop text offset result cursor ranges = (kept, next, rest) ∧
      kept ++ text.drop next = result ++ keptUnits ranges (offset + cursor) (text.drop cursor) ∧
      cursor ≤ next ∧ (next = 0 → kept = result) ∧ ranges = dropped ++ rest ∧
      ∀ range ∈ dropped, range.stop ≤ offset + text.length := by
  induction ranges generalizing result cursor with
  | nil =>
    have all : keptUnits [] (offset + cursor) (text.drop cursor) = text.drop cursor :=
      keptUnits_behind fun _ known => by cases known
    exact ⟨result, cursor, [], [], rfl, by rw [all], Nat.le_refl _, fun _ => rfl, rfl,
      fun _ known => by cases known⟩
  | cons range rest ih =>
    have nonempty := ordered.nonempty range List.mem_cons_self
    have ends_ := ends range List.mem_cons_self
    have begins_ : cursor = 0 ∨ offset + cursor ≤ range.start :=
      begins.imp id fun all => all range List.mem_cons_self
    rw [removeLoop]
    dsimp only
    by_cases reached : range.start < offset + text.length
    · rw [if_pos reached]
      by_cases empty : text = []
      -- A range that covers an empty part is kept for the next one.
      · subst empty
        have past : offset + ([] : Text).length < range.stop := ends_
        have nothing : ¬range.start - offset < min ([] : Text).length (range.stop - offset) := by simp
        rw [if_neg nothing, if_neg nothing, if_pos past]
        exact ⟨result, cursor, range :: rest, [], rfl, by simp, Nat.le_refl _, fun _ => rfl, rfl,
          fun _ known => by cases known⟩
      have size := List.length_pos_iff.mpr empty
      have cuts : range.start - offset < min text.length (range.stop - offset) := by omega
      have next : max cursor (min text.length (range.stop - offset)) = min text.length (range.stop - offset) := by
        omega
      have cut := keptUnits_cut ordered reached ends_ inside begins_
      rw [if_pos cuts, if_pos cuts, next]
      by_cases past : offset + text.length < range.stop
      · rw [if_pos past]
        have whole : min text.length (range.stop - offset) = text.length := by omega
        rw [whole] at cut ⊢
        refine ⟨_, _, _, [], rfl, ?_, inside, ?_, rfl, fun _ known => by cases known⟩
        · rw [cut, List.drop_length, keptUnits_nil, List.append_nil, List.append_nil]
        · intro moved
          omega
      · rw [if_neg past]
        have stop : min text.length (range.stop - offset) = range.stop - offset := by omega
        rw [stop] at cut ⊢
        have inText : range.stop - offset ≤ text.length := by omega
        have behind : ∀ other ∈ rest, offset + (range.stop - offset) ≤ other.start := by
          intro other inRest
          have later := ordered.before inRest
          omega
        obtain ⟨kept, next, left, dropped, done, same, moved, -, split, passed⟩ := ih
          (result ++ slice text cursor (max cursor (range.start - offset))) ordered.tail inText
          (fun other inRest => ends other (List.mem_cons_of_mem _ inRest)) (.inr behind)
        have onward : keptUnits (range :: rest) (offset + (range.stop - offset)) (text.drop (range.stop - offset)) =
            keptUnits rest (offset + (range.stop - offset)) (text.drop (range.stop - offset)) := by
          apply @keptUnits_passed rest [range]
          intro other known
          cases List.mem_singleton.mp known
          omega
        refine ⟨kept, next, left, range :: dropped, done, ?_, by omega, by omega, congrArg _ split, ?_⟩
        · rw [same, cut, onward, List.append_assoc]
        · intro other known
          obtain rfl | inDropped := List.mem_cons.mp known
          · omega
          · exact passed other inDropped
    · rw [if_neg reached]
      have all : keptUnits (range :: rest) (offset + cursor) (text.drop cursor) = text.drop cursor := by
        apply keptUnits_behind
        intro other known
        rw [List.length_drop]
        obtain rfl | inRest := List.mem_cons.mp known
        · omega
        · have later := ordered.before inRest
          omega
      exact ⟨result, cursor, range :: rest, [], rfl, by rw [all], Nat.le_refl _, fun _ => rfl, rfl,
        fun _ known => by cases known⟩

section Parts

variable {ranges : List Span} {text : Text} {offset : Nat}

theorem Ordered.suffix {dropped rest : List Span} (ordered : Ordered (dropped ++ rest)) : Ordered rest :=
  ⟨fun range inRest => ordered.nonempty range (List.mem_append_right _ inRest),
    (List.pairwise_append.mp ordered.sorted).2.1⟩

theorem ends_behind (ordered : Ordered ranges) :
    ∀ range ∈ ranges.dropWhile (fun range => decide (range.stop ≤ offset)), offset < range.stop := by
  induction ranges with
  | nil => exact fun _ known => by cases known
  | cons first rest ih =>
    rw [List.dropWhile_cons]
    split
    · exact ih ordered.tail
    · rename_i reaches
      rw [decide_eq_true_eq, Nat.not_le] at reaches
      intro range known
      obtain rfl | inRest := List.mem_cons.mp known
      · exact reaches
      · have begins := ordered.before inRest
        have nonempty := ordered.nonempty range (List.mem_cons_of_mem _ inRest)
        omega

theorem remove_spec (ordered : Ordered ranges) : ∃ rest dropped, (createRangeRemover ranges).remove text offset =
        (keptUnits ranges offset text, createRangeRemover rest) ∧
      ranges = dropped ++ rest ∧ ∀ range ∈ dropped, range.stop ≤ offset + text.length := by
  have parts := List.takeWhile_append_dropWhile (p := fun range : Span => decide (range.stop ≤ offset)) (l := ranges)
  have passed : ∀ range ∈ ranges.takeWhile (fun range => decide (range.stop ≤ offset)), range.stop ≤ offset :=
    fun range known => of_decide_eq_true (List.all_eq_true.mp List.all_takeWhile range known)
  have left : Ordered (ranges.dropWhile fun range => decide (range.stop ≤ offset)) := (parts ▸ ordered).suffix
  obtain ⟨kept, next, rest, dropped, done, same, -, unmoved, cut, ended⟩ :=
    removeLoop_spec [] left (Nat.zero_le text.length) (ends_behind ordered) (.inl rfl)
  have all : keptUnits ranges offset text = kept ++ text.drop next := by
    have later := @keptUnits_passed (ranges.dropWhile fun range => decide (range.stop ≤ offset)) _ offset text passed
    rw [parts] at later
    rw [same, later, List.nil_append, Nat.add_zero, List.drop_zero]
  refine ⟨rest, ranges.takeWhile (fun range => decide (range.stop ≤ offset)) ++ dropped, ?_, ?_, ?_⟩
  · unfold RangeRemover.remove createRangeRemover
    dsimp only
    rw [done]
    dsimp only
    split
    · rename_i unread
      rw [all, unmoved unread, unread]
      rfl
    · rw [all]
  · rw [List.append_assoc, ← cut, parts]
  · intro range known
    obtain early | late := List.mem_append.mp known
    · exact Nat.le_trans (passed range early) (Nat.le_add_right _ _)
    · exact ended range late

theorem removeParts_flatten (ordered : Ordered ranges) (parts : List Text) :
    ((createRangeRemover ranges).removeParts offset parts).flatten = keptUnits ranges offset parts.flatten := by
  induction parts generalizing ranges offset with
  | nil => rfl
  | cons part rest ih =>
    obtain ⟨left, dropped, done, split, passed⟩ := @remove_spec ranges part offset ordered
    rw [RangeRemover.removeParts, done]
    dsimp only
    subst split
    rw [List.flatten_cons, List.flatten_cons, ih ordered.suffix, keptUnits_append, keptUnits_passed passed]

end Parts

theorem Ordered.of_inOrder {text : Text} {from_ : Nat} {spans : List Span} (order : InOrder text from_ spans) :
    Ordered spans ∧ ∀ span ∈ spans, from_ ≤ span.start ∧ span.stop ≤ text.length := by
  induction spans generalizing from_ with
  | nil => exact ⟨⟨fun _ known => (by cases known), List.Pairwise.nil⟩, fun _ known => by cases known⟩
  | cons span rest ih =>
    obtain ⟨behind, nonempty, inside, later⟩ := order
    obtain ⟨ordered, bounds⟩ := ih later
    refine ⟨⟨?_, List.pairwise_cons.mpr ⟨fun other inRest => (bounds other inRest).1, ordered.sorted⟩⟩, ?_⟩
    · intro other known
      obtain rfl | inRest := List.mem_cons.mp known
      · exact nonempty
      · exact ordered.nonempty other inRest
    · intro other known
      obtain rfl | inRest := List.mem_cons.mp known
      · exact ⟨behind, inside⟩
      · have bound := bounds other inRest
        exact ⟨by omega, bound.2⟩

def StandalonePlainTextToolCallCandidate.join (candidate : StandalonePlainTextToolCallCandidate)
    (block : Nat × Text) : StandalonePlainTextToolCallCandidate :=
  { text := candidate.text ++ block.2
    parts := candidate.parts ++ [⟨block.1, candidate.text.length, candidate.text.length + block.2.length⟩] }

/-- The text blocks of a message with their places among its content, from `extractStandaloneCandidate`. -/
def joinBlocks (blocks : List (Nat × Text)) : StandalonePlainTextToolCallCandidate :=
  blocks.foldl .join ⟨[], []⟩

theorem foldl_join_sorted (blocks : List (Nat × Text)) (candidate : StandalonePlainTextToolCallCandidate)
    (sorted : candidate.parts.Pairwise fun before behind => before.start ≤ behind.start)
    (inside : ∀ part ∈ candidate.parts, part.start ≤ candidate.text.length) :
    (blocks.foldl .join candidate).parts.Pairwise fun before behind => before.start ≤ behind.start := by
  induction blocks generalizing candidate with
  | nil => exact sorted
  | cons block rest ih =>
    apply ih
    · apply List.pairwise_append.mpr
      refine ⟨sorted, List.pairwise_singleton _ _, fun part known other last => ?_⟩
      cases List.mem_singleton.mp last
      exact inside part known
    · intro part known
      change part.start ≤ (candidate.text ++ block.2).length
      rw [List.length_append]
      obtain early | last := List.mem_append.mp known
      · have bound := inside part early
        omega
      · cases List.mem_singleton.mp last
        exact Nat.le_add_right _ _

theorem joinBlocks_boundaries (blocks : List (Nat × Text)) : (joinBlocks blocks).boundaries.Pairwise (· ≤ ·) := by
  have sorted := foldl_join_sorted blocks ⟨[], []⟩ List.Pairwise.nil fun _ known => by cases known
  exact List.pairwise_map.mpr (sorted.sublist (List.tail_sublist _))

end ToolCallRepair
