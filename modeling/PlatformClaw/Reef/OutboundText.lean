import PlatformClaw.Library.Guarded
import PlatformClaw.Reef.CanonicalJson

/-! # Texts sent in parts

A body that is too long for one message is sent in several. Every part is measured by the canonical bytes
of the body it is sent in, with room for both ids that a body may name.
-/

namespace PlatformClaw.Reef

def maxReefBodyId : Units := List.replicate 26 48

def reefMaxPlaintextBytes : Nat := 32 * 1024

/-- The body that a part is measured in. -/
def chunkBody (text : Units) : CanonicalValue :=
  .object [(units "text", .string text), (units "replyTo", .string maxReefBodyId),
    (units "thread", .string maxReefBodyId)]

/-- A body of texts only is always written. -/
def reefChunkFits (text : Units) (maxBytes : Nat) : Bool :=
  match canonicalBytes (chunkBody text) with
  | .ok bytes => bytes.size ≤ maxBytes
  | .error _ => false

inductive ReefChunkError
  | unsplittable
deriving DecidableEq, Repr

def ReefChunkError.message : ReefChunkError → String
  | .unsplittable => "Reef message contains an unsplittable plaintext unit"

/-- The bytes for one part; a limit between two whole numbers admits what the lower one does. -/
def maxChunkBytes (limit : Int) : Nat := (min (max 1 limit) reefMaxPlaintextBytes).toNat

def boundariesFrom (offset : Nat) : Units → List Nat
  | [] => []
  | [_] => [offset + 1]
  | high :: low :: rest =>
    if isPair high low then (offset + 2) :: boundariesFrom (offset + 2) rest
    else (offset + 1) :: boundariesFrom (offset + 1) (low :: rest)

/-- The offsets between code points, both ends among them. -/
def boundaries (text : Units) : List Nat := 0 :: boundariesFrom 0 text

def slice (text : Units) (start finish : Nat) : Units := (text.drop start).take (finish - start)

/-- Where a part that starts at `boundaries[startIndex]` ends; `startIndex` where nothing fits. -/
def bestIndex (text : Units) (maxBytes startIndex : Nat) : Nat :=
  let start := (boundaries text).getD startIndex 0
  let high := min ((boundaries text).length - 1) (startIndex + maxBytes)
  ScriptList.searchLast (fun candidateIndex =>
      reefChunkFits (slice text start ((boundaries text).getD candidateIndex start)) maxBytes)
    (high - startIndex) (startIndex + 1) high startIndex

theorem le_bestIndex (text : Units) (maxBytes startIndex : Nat) : startIndex ≤ bestIndex text maxBytes startIndex :=
  ScriptList.le_searchLast (Nat.lt_succ_self _)

def chunksFrom (text : Units) (maxBytes startIndex : Nat) : Except ReefChunkError (List Units) :=
  if _inside : startIndex < (boundaries text).length - 1 then
    let start := (boundaries text).getD startIndex 0
    if text.length - start ≤ maxBytes ∧ reefChunkFits (text.drop start) maxBytes = true then
      .ok [text.drop start]
    else if _stuck : bestIndex text maxBytes startIndex = startIndex then .error .unsplittable
    else
      let finish := (boundaries text).getD (bestIndex text maxBytes startIndex) start
      (chunksFrom text maxBytes (bestIndex text maxBytes startIndex)).map (slice text start finish :: ·)
  else .ok []
termination_by (boundaries text).length - startIndex
decreasing_by
  have least := le_bestIndex text maxBytes startIndex
  omega

def chunkReefText (text : Units) (limit : Int) : Except ReefChunkError (List Units) :=
  if text = [] then .ok [] else chunksFrom text (maxChunkBytes limit) 0

def codePoints : Units → List Units
  | [] => []
  | [unit] => [[unit]]
  | high :: low :: rest =>
    if isPair high low then [high, low] :: codePoints rest else [high] :: codePoints (low :: rest)

def CutsPair (before after : Units) : Prop :=
  ∃ high ∈ before.getLast?, ∃ low ∈ after.head?, isPair high low = true

inductive Points : List Units → Prop
  | nil : Points []
  | pair {high low rest} : isPair high low = true → Points rest → Points ([high, low] :: rest)
  | single {unit rest} : (∀ low ∈ rest.flatten.head?, isPair unit low = false) → Points rest →
      Points ([unit] :: rest)

theorem flatten_codePoints (text : Units) : (codePoints text).flatten = text := by
  induction text using codePoints.induct with
  | case1 => rfl
  | case2 unit => rfl
  | case3 high low rest pair ih => simp [codePoints, pair, ih]
  | case4 high low rest single ih => simp [codePoints, single, ih]

theorem points_codePoints (text : Units) : Points (codePoints text) := by
  induction text using codePoints.induct with
  | case1 => exact .nil
  | case2 unit =>
    apply Points.single _ .nil
    intro low first
    cases first
  | case3 high low rest pair ih =>
    rw [codePoints, if_pos pair]
    exact .pair pair ih
  | case4 high low rest single ih =>
    rw [codePoints, if_neg single]
    apply Points.single _ ih
    intro next first
    rw [flatten_codePoints] at first
    cases first
    exact Bool.eq_false_iff.mpr single

theorem Points.drop {points : List Units} (all : Points points) (count : Nat) : Points (points.drop count) := by
  induction all generalizing count with
  | nil =>
    rw [List.drop_nil]
    exact .nil
  | pair pair all ih =>
    cases count with
    | zero => exact .pair pair all
    | succ count => exact ih count
  | single apart all ih =>
    cases count with
    | zero => exact .single apart all
    | succ count => exact ih count

theorem Points.nonempty {points : List Units} (all : Points points) : ∀ point ∈ points, point ≠ [] := by
  induction all with
  | nil => simp
  | pair pair all ih => simpa using ih
  | single apart all ih => simpa using ih

theorem Points.head?_take {points : List Units} (all : Points points) {count : Nat} {unit : UInt16}
    (first : unit ∈ (points.take count).flatten.head?) : unit ∈ points.flatten.head? := by
  cases all with
  | nil => simp at first
  | pair pair all => cases count <;> simp_all
  | single apart all => cases count <;> simp_all

theorem Points.take {points : List Units} (all : Points points) (count : Nat) : Points (points.take count) := by
  induction all generalizing count with
  | nil =>
    rw [List.take_nil]
    exact .nil
  | pair pair all ih =>
    cases count with
    | zero => exact .nil
    | succ count => exact .pair pair (ih count)
  | single apart all ih =>
    cases count with
    | zero => exact .nil
    | succ count => exact .single (fun low first => apart low (all.head?_take first)) (ih count)

theorem escapeUnits_flatten {points : List Units} (all : Points points) :
    escapeUnits points.flatten = points.flatMap escapeUnits := by
  induction all with
  | nil => rfl
  | @pair high low rest pair all ih =>
    rw [List.flatten_cons, List.flatMap_cons, ← ih]
    simp [escapeUnits, pair]
  | @single unit rest apart all ih =>
    rw [List.flatten_cons, List.flatMap_cons, ← ih]
    cases later : rest.flatten with
    | nil => simp [escapeUnits]
    | cons low others =>
      have single := apart low (by rw [later]; rfl)
      simp [escapeUnits, single]

theorem codePoints_flatten {points : List Units} (all : Points points) : codePoints points.flatten = points := by
  induction all with
  | nil => rfl
  | pair pair all ih => simp [codePoints, pair, ih]
  | @single unit rest apart all ih =>
    cases later : rest.flatten with
    | nil =>
      rw [later] at ih
      simp [codePoints, ← ih]
    | cons low others =>
      have single := apart low (by rw [later]; rfl)
      rw [later] at ih
      simp [codePoints, later, single, ih]

theorem Points.not_cutsPair {points : List Units} (all : Points points) (count : Nat) :
    ¬ CutsPair (points.take count).flatten (points.drop count).flatten := by
  induction all generalizing count with
  | nil => simp [CutsPair]
  | @pair high low rest pair all ih =>
    cases count with
    | zero => simp [CutsPair]
    | succ count =>
      rintro ⟨last, isLast, first, isFirst, cut⟩
      cases taken : (rest.take count).flatten with
      | nil =>
        have same : low = last := by simpa [taken] using isLast
        have lower := isPair_bounds pair
        have upper := isPair_bounds cut
        rw [same] at lower
        omega
      | cons unit others =>
        apply ih count
        refine ⟨last, ?_, first, isFirst, cut⟩
        simpa [taken] using isLast
  | @single unit rest apart all ih =>
    cases count with
    | zero => simp [CutsPair]
    | succ count =>
      rintro ⟨last, isLast, first, isFirst, cut⟩
      cases taken : (rest.take count).flatten with
      | nil =>
        have same : unit = last := by simpa [taken] using isLast
        have whole : rest.flatten = (rest.drop count).flatten := by
          conv_lhs => rw [← List.take_append_drop count rest]
          rw [List.flatten_append, taken, List.nil_append]
        have single := apart first (by rw [whole]; exact isFirst)
        rw [same, cut] at single
        cases single
      | cons next others =>
        apply ih count
        refine ⟨last, ?_, first, isFirst, cut⟩
        simpa [taken] using isLast

theorem length_boundaries (text : Units) : (boundaries text).length = (codePoints text).length + 1 := by
  have lengths : ∀ offset, (boundariesFrom offset text).length = (codePoints text).length := by
    induction text using codePoints.induct with
    | case1 => simp [boundariesFrom, codePoints]
    | case2 unit => simp [boundariesFrom, codePoints]
    | case3 high low rest pair ih => simp [boundariesFrom, codePoints, pair, ih]
    | case4 high low rest single ih => simp [boundariesFrom, codePoints, single, ih]
  simp [boundaries, lengths]

theorem getD_boundariesFrom (text : Units) {offset index other : Nat} (inside : index < (codePoints text).length) :
    (boundariesFrom offset text).getD index other = offset + ((codePoints text).take (index + 1)).flatten.length := by
  induction text using codePoints.induct generalizing offset index with
  | case1 => simp [codePoints] at inside
  | case2 unit =>
    have zero : index = 0 := by simpa [codePoints] using inside
    simp [boundariesFrom, codePoints, zero]
  | case3 high low rest pair ih =>
    cases index with
    | zero => simp [boundariesFrom, codePoints, pair]
    | succ index =>
      have later := @ih (offset + 2) index (by simpa [codePoints, pair] using inside)
      simp only [boundariesFrom, codePoints, pair, if_true, List.getD_cons_succ, later,
        List.take_succ_cons, List.flatten_cons, List.length_append, List.length_cons,
        List.length_nil]
      omega
  | case4 high low rest single ih =>
    cases index with
    | zero => simp [boundariesFrom, codePoints, single]
    | succ index =>
      have later := @ih (offset + 1) index (by simpa [codePoints, single] using inside)
      simp only [boundariesFrom, codePoints, single, if_false, List.getD_cons_succ, later,
        List.take_succ_cons, List.flatten_cons, List.length_append, List.length_cons,
        List.length_nil, Bool.false_eq_true]
      omega

theorem getD_boundaries (text : Units) {index other : Nat} (inside : index ≤ (codePoints text).length) :
    (boundaries text).getD index other = ((codePoints text).take index).flatten.length := by
  cases index with
  | zero => simp [boundaries]
  | succ index =>
    rw [boundaries, List.getD_cons_succ, getD_boundariesFrom text inside, Nat.zero_add]

theorem drop_boundary (text : Units) {index other : Nat} (inside : index ≤ (codePoints text).length) :
    text.drop ((boundaries text).getD index other) = ((codePoints text).drop index).flatten := by
  have whole : text = ((codePoints text).take index).flatten ++ ((codePoints text).drop index).flatten := by
    rw [← List.flatten_append, List.take_append_drop, flatten_codePoints]
  rw [getD_boundaries text inside]
  exact (congrArg _ whole).trans List.drop_left

theorem slice_boundaries (text : Units) {first last other another : Nat} (ordered : first ≤ last)
    (inside : last ≤ (codePoints text).length) :
    slice text ((boundaries text).getD first other) ((boundaries text).getD last another) =
      (((codePoints text).drop first).take (last - first)).flatten := by
  have parts : (codePoints text).take last =
      (codePoints text).take first ++ ((codePoints text).drop first).take (last - first) := by
    rw [← List.take_add, Nat.add_sub_cancel' ordered]
  have length : (boundaries text).getD last another - (boundaries text).getD first other =
      (((codePoints text).drop first).take (last - first)).flatten.length := by
    rw [getD_boundaries text inside, getD_boundaries text (Nat.le_trans ordered inside), parts,
      List.flatten_append, List.length_append, Nat.add_sub_cancel_left]
  rw [slice, length, drop_boundary text (Nat.le_trans ordered inside)]
  conv_lhs =>
    enter [2]
    rw [← List.take_append_drop (last - first) ((codePoints text).drop first), List.flatten_append]
  rw [List.take_left]

def textBytes (text : Units) : Nat := (String.ofList (escapeUnits text)).utf8ByteSize

theorem escapeUnits_nonempty {text : Units} (nonempty : text ≠ []) : escapeUnits text ≠ [] := by
  have written : ∀ unit, escapeUnit unit ≠ [] := by
    intro unit
    unfold escapeUnit
    split
    · simp
    · unfold ScriptJson.escape
      split_ifs <;> simp
  match text with
  | [unit] => exact written unit
  | high :: low :: rest =>
    rw [escapeUnits]
    split
    · simp
    · simp [written]

theorem textBytes_pos {text : Units} (nonempty : text ≠ []) : 0 < textBytes text := by
  apply Nat.pos_of_ne_zero
  intro zero
  have empty := congrArg String.toList (String.utf8ByteSize_eq_zero_iff.mp zero)
  rw [String.toList_ofList] at empty
  exact escapeUnits_nonempty nonempty empty

theorem textBytes_flatten {points : List Units} (all : Points points) :
    textBytes points.flatten = (points.map textBytes).sum := by
  rw [textBytes, escapeUnits_flatten all]
  clear all
  induction points with
  | nil => rfl
  | cons point rest ih =>
    rw [List.flatMap_cons, String.ofList_append, String.utf8ByteSize_append, ih, List.map_cons,
      List.sum_cons, textBytes]

theorem textBytes_take_le {points : List Units} (all : Points points) {fewer more : Nat} (ordered : fewer ≤ more) :
    textBytes (points.take fewer).flatten ≤ textBytes (points.take more).flatten := by
  have parts : points.take more = points.take fewer ++ (points.drop fewer).take (more - fewer) := by
    rw [← List.take_add, Nat.add_sub_cancel' ordered]
  rw [textBytes_flatten (all.take fewer), textBytes_flatten (all.take more), parts, List.map_append, List.sum_append]
  exact Nat.le_add_right _ _

theorem length_le_textBytes {points : List Units} (all : Points points) :
    points.length ≤ textBytes points.flatten := by
  rw [textBytes_flatten all]
  have each := all.nonempty
  clear all
  induction points with
  | nil => simp
  | cons point rest ih =>
    have first := textBytes_pos (each point List.mem_cons_self)
    have later := ih fun other inRest => each other (List.mem_cons_of_mem _ inRest)
    simp only [List.length_cons, List.map_cons, List.sum_cons]
    omega

theorem toSorted_chunkBody (text id : List Char) : ScriptList.toSorted compareKeys
        [(units "text", text), (units "replyTo", id), (units "thread", id)] =
      [(units "replyTo", id), (units "text", text), (units "thread", id)] := by
  have upTo : ∀ {left right : Units} {a b : List Char},
      ScriptString.upTo (left.map UInt16.toNat) (right.map UInt16.toNat) = true →
        compareKeys (left, a) (right, b) ≤ 0 := by
    intro left right a b ordered
    simp [compareKeys, ordered]
  have above : ∀ {left right : Units} {a b : List Char},
      ScriptString.upTo (left.map UInt16.toNat) (right.map UInt16.toNat) = false →
        ¬ compareKeys (left, a) (right, b) ≤ 0 := by
    intro left right a b ordered
    simp [compareKeys, ordered]
  have first := @upTo (units "replyTo") (units "thread") id id (by decide +kernel)
  have second := @upTo (units "text") (units "thread") text id (by decide +kernel)
  have third := @above (units "text") (units "replyTo") text id (by decide +kernel)
  simp only [ScriptList.toSorted, List.insertionSort, List.foldr, List.orderedInsert, first, second,
    third, if_true, if_false]

theorem chunkBody_written : ∃ before after, ∀ text,
    canonicalJson (chunkBody text) = .ok (before ++ (escapeUnits text ++ after)) := by
  refine ⟨'{' :: (writeEntry (units "replyTo", stringify maxReefBodyId) ++
    ',' :: (stringify (units "text") ++ [':', '"'])),
    '"' :: ',' :: (writeEntry (units "thread", stringify maxReefBodyId) ++ ['}']), ?_⟩
  intro text
  have written : canonicalJson (chunkBody text) = .ok (writeObject
      [(units "text", stringify text), (units "replyTo", stringify maxReefBodyId),
        (units "thread", stringify maxReefBodyId)]) := rfl
  rw [written, writeObject, toSorted_chunkBody]
  simp [ScriptString.joinChars, writeEntry, stringify]

theorem reefChunkFits_iff : ∃ room, ∀ text maxBytes,
    reefChunkFits text maxBytes = true ↔ room + textBytes text ≤ maxBytes := by
  obtain ⟨before, after, written⟩ := chunkBody_written
  refine ⟨(String.ofList before).utf8ByteSize + (String.ofList after).utf8ByteSize, ?_⟩
  intro text maxBytes
  rw [reefChunkFits, canonicalBytes, written]
  simp only [Except.map, decide_eq_true_eq, String.toUTF8_eq_toByteArray, String.size_toByteArray,
    String.ofList_append, String.utf8ByteSize_append, textBytes]
  omega

section Fitting

variable {points : List Units} (all : Points points) {maxBytes : Nat}

include all

theorem fits_of_le {fewer more : Nat} (ordered : fewer ≤ more)
    (fits : reefChunkFits (points.take more).flatten maxBytes = true) :
    reefChunkFits (points.take fewer).flatten maxBytes = true := by
  obtain ⟨room, holds⟩ := reefChunkFits_iff
  have bytes := textBytes_take_le all ordered
  rw [holds] at fits ⊢
  omega

theorem length_le_of_fits (fits : reefChunkFits points.flatten maxBytes = true) : points.length ≤ maxBytes := by
  obtain ⟨room, holds⟩ := reefChunkFits_iff
  have bytes := length_le_textBytes all
  rw [holds] at fits
  omega

end Fitting

inductive Parts (maxBytes : Nat) : List Units → List Units → Prop
  | nil : Parts maxBytes [] []
  | last {points} : points ≠ [] → reefChunkFits points.flatten maxBytes = true →
      Parts maxBytes points [points.flatten]
  | part {points count chunks} : 0 < count → count < points.length →
      reefChunkFits (points.take count).flatten maxBytes = true →
      reefChunkFits (points.take (count + 1)).flatten maxBytes = false →
      Parts maxBytes (points.drop count) chunks →
      Parts maxBytes points ((points.take count).flatten :: chunks)

theorem isLast_bestIndex (text : Units) (maxBytes : Nat) {startIndex : Nat}
    (inside : startIndex ≤ (codePoints text).length) :
    ScriptList.IsLast (fun index =>
        reefChunkFits (((codePoints text).drop startIndex).take (index - startIndex)).flatten maxBytes)
      startIndex (codePoints text).length (bestIndex text maxBytes startIndex) := by
  have all := (points_codePoints text).drop startIndex
  have found : ScriptList.IsLast (fun index => reefChunkFits (slice text ((boundaries text).getD startIndex 0)
        ((boundaries text).getD index ((boundaries text).getD startIndex 0))) maxBytes)
      startIndex (min ((boundaries text).length - 1) (startIndex + maxBytes)) (bestIndex text maxBytes startIndex) := by
    apply ScriptList.isLast_searchLast _ (Nat.le_refl _) (Nat.le_refl _) _ (Nat.le_refl _)
    · intro less
      omega
    · intro i above inWindow
      omega
    · intro i j above ordered inWindow fits
      rw [length_boundaries] at inWindow
      rw [slice_boundaries text (by omega) (by omega)] at fits ⊢
      exact fits_of_le all (by omega) fits
    · rw [length_boundaries]
      omega
  have most := found.most
  rw [length_boundaries] at most
  constructor
  · exact found.least
  · omega
  · intro more
    have fits := found.good more
    rwa [slice_boundaries text (by omega) (by omega)] at fits
  · intro index more inText
    have least := found.least
    by_cases inWindow : index ≤ startIndex + maxBytes
    · have beyond := found.beyond index more (by rw [length_boundaries]; omega)
      rwa [slice_boundaries text (by omega) inText] at beyond
    · -- More code points than bytes.
      rw [Bool.eq_false_iff]
      intro fits
      have few := length_le_of_fits (all.take (index - startIndex)) fits
      rw [List.length_take, List.length_drop] at few
      omega

theorem parts_chunksFrom {text : Units} {maxBytes startIndex : Nat} {chunks : List Units}
    (inside : startIndex ≤ (codePoints text).length)
    (done : chunksFrom text maxBytes startIndex = .ok chunks) :
    Parts maxBytes ((codePoints text).drop startIndex) chunks := by
  fun_induction chunksFrom text maxBytes startIndex generalizing chunks with
  | case1 startIndex less start =>
    rename_i fast
    cases done
    have rest := @drop_boundary text startIndex 0 inside
    rw [length_boundaries] at less
    rw [rest]
    apply Parts.last
    · simp
      omega
    · rw [← rest]
      exact fast.2
  | case2 => cases done
  | case3 startIndex less start slow moved finish =>
    rename_i ih
    rw [length_boundaries] at less
    obtain ⟨chunks, later, rfl⟩ := Except.map_ok_iff.mp done
    have last := isLast_bestIndex text maxBytes inside
    have least := last.least
    have most := last.most
    have above : startIndex < bestIndex text maxBytes startIndex := by omega
    have fits := last.good above
    have rest := ih most later
    have part : slice text start finish = (((codePoints text).drop startIndex).take
        (bestIndex text maxBytes startIndex - startIndex)).flatten :=
      slice_boundaries text least most
    rw [part]
    have length : ((codePoints text).drop startIndex).length = (codePoints text).length - startIndex :=
      List.length_drop
    by_cases final : bestIndex text maxBytes startIndex = (codePoints text).length
    · rw [final, List.drop_length] at rest
      cases rest with
      | nil =>
        rw [final, ← length, List.take_length] at fits ⊢
        apply Parts.last _ fits
        intro empty
        rw [empty, List.length_nil] at length
        omega
      | last nonempty => exact absurd rfl nonempty
      | part some few => simp at few
    · apply Parts.part (by omega) (by omega) fits
      · have beyond := last.beyond (bestIndex text maxBytes startIndex + 1) (by omega) (by omega)
        have one : bestIndex text maxBytes startIndex + 1 - startIndex =
            bestIndex text maxBytes startIndex - startIndex + 1 := by omega
        simpa only [one] using beyond
      · rw [List.drop_drop, Nat.add_sub_cancel' least]
        exact rest
  | case4 startIndex =>
    rename_i finished
    cases done
    rw [length_boundaries] at finished
    rw [List.drop_eq_nil_of_le (by omega)]
    exact .nil

def firstPoint (text : Units) : Units := (codePoints text).headD []

section Sent

variable {maxBytes : Nat} {points chunks : List Units} (sent : Parts maxBytes points chunks)

include sent

theorem Parts.flatten : chunks.flatten = points.flatten := by
  induction sent with
  | nil => rfl
  | last nonempty fits => simp
  | @part points count chunks some few fits next later ih =>
    rw [List.flatten_cons, ih, ← List.flatten_append, List.take_append_drop]

theorem Parts.cut {before after : List Units} (split : chunks = before ++ after) :
    ∃ count, before.flatten = (points.take count).flatten ∧ after.flatten = (points.drop count).flatten := by
  have whole := sent.flatten
  induction sent generalizing before with
  | nil =>
    obtain ⟨rfl, rfl⟩ := List.append_eq_nil_iff.mp split.symm
    exact ⟨0, rfl, rfl⟩
  | @last points nonempty fits =>
    cases before with
    | nil => exact ⟨0, rfl, (congrArg List.flatten split.symm).trans whole⟩
    | cons chunk before =>
      obtain ⟨rfl, rest⟩ := List.cons.inj split
      obtain ⟨rfl, rfl⟩ := List.append_eq_nil_iff.mp rest.symm
      exact ⟨points.length, by simp, by simp⟩
  | @part points count chunks some few fits next later ih =>
    cases before with
    | nil => exact ⟨0, rfl, (congrArg List.flatten split.symm).trans whole⟩
    | cons chunk before =>
      obtain ⟨rfl, rest⟩ := List.cons.inj split
      obtain ⟨place, first, second⟩ := ih rest later.flatten
      refine ⟨count + place, ?_, ?_⟩
      · rw [List.flatten_cons, first, ← List.flatten_append, List.take_add]
      · rw [second, List.drop_drop]

theorem Parts.fits {chunk : Units} (all : Points points) (inChunks : chunk ∈ chunks) :
    chunk ≠ [] ∧ reefChunkFits chunk maxBytes = true := by
  have nonempty : ∀ {points : List Units}, Points points → points ≠ [] → points.flatten ≠ [] := by
    intro points all some empty
    obtain ⟨point, inPoints⟩ := List.exists_mem_of_ne_nil _ some
    exact all.nonempty point inPoints (List.flatten_eq_nil_iff.mp empty point inPoints)
  induction sent with
  | nil => cases inChunks
  | last some fits =>
    obtain rfl := List.mem_singleton.mp inChunks
    exact ⟨nonempty all some, fits⟩
  | @part points count chunks some few fits next later ih =>
    rcases List.mem_cons.mp inChunks with rfl | inRest
    · refine ⟨nonempty (all.take count) ?_, fits⟩
      intro empty
      have none := congrArg List.length empty
      rw [List.length_take, List.length_nil] at none
      omega
    · exact ih (all.drop count) inRest

theorem Parts.full {chunk : Units} {before after : List Units} (all : Points points)
    (split : chunks = before ++ chunk :: after) (more : after ≠ []) :
    reefChunkFits (chunk ++ firstPoint after.flatten) maxBytes = false := by
  induction sent generalizing before with
  | nil => simp at split
  | last some fits =>
    cases before with
    | nil => exact absurd (List.cons.inj split).2.symm more
    | cons first before => simp at split
  | @part points count chunks some few fits next later ih =>
    cases before with
    | nil =>
      obtain ⟨rfl, rfl⟩ := List.cons.inj split
      rw [later.flatten, firstPoint, codePoints_flatten (all.drop count)]
      rw [List.take_succ_eq_append_getElem few, List.flatten_append, List.flatten_singleton] at next
      rw [List.drop_eq_getElem_cons few]
      exact next
    | cons first before => exact ih (all.drop count) (List.cons.inj split).2

end Sent

/-- Where a text is sent in parts, they are the text, each fits with both ids, none but the last has
room for the next code point, and no pair is cut between them. -/
theorem chunkReefText_lossless {text : Units} {limit : Int} {chunks : List Units}
    (done : chunkReefText text limit = .ok chunks) :
    chunks.flatten = text ∧
    (∀ before after, chunks = before ++ after → ¬ CutsPair before.flatten after.flatten) ∧
    (∀ chunk ∈ chunks, chunk ≠ [] ∧ reefChunkFits chunk (maxChunkBytes limit) = true) ∧
    (∀ before chunk after, chunks = before ++ chunk :: after → after ≠ [] →
      reefChunkFits (chunk ++ firstPoint after.flatten) (maxChunkBytes limit) = false) := by
  have all := points_codePoints text
  have sent : Parts (maxChunkBytes limit) (codePoints text) chunks := by
    unfold chunkReefText at done
    split at done
    · rename_i empty
      cases done
      rw [empty]
      exact .nil
    · exact parts_chunksFrom (Nat.zero_le _) done
  refine ⟨sent.flatten.trans (flatten_codePoints text), ?_, ?_, ?_⟩
  · intro before after split
    obtain ⟨count, first, second⟩ := sent.cut split
    rw [first, second]
    exact all.not_cutsPair count
  · exact fun chunk inChunks => sent.fits all inChunks
  · exact fun before chunk after split more => sent.full all split more

/-- Two parts, the second found without a search. -/
theorem chunkReefText_lossless_two :
    chunkReefText (units "hi") 89 = .ok [units "h", units "i"] ∧
      [units "h", units "i"].flatten = units "hi" ∧
      reefChunkFits (units "h" ++ firstPoint (units "i")) 89 = false := by
  have done : chunkReefText (units "hi") 89 = .ok [units "h", units "i"] := by
    have first : bestIndex (units "hi") 89 0 = 1 := by decide +kernel
    have slow : ¬ (2 ≤ 89 ∧ reefChunkFits (units "hi") 89 = true) := by decide +kernel
    have fast : 1 ≤ 89 ∧ reefChunkFits (units "i") 89 = true := by decide +kernel
    have later : chunksFrom (units "hi") 89 1 = .ok [units "i"] := by
      rw [chunksFrom, dif_pos (by decide)]
      exact if_pos fast
    have whole : chunksFrom (units "hi") 89 0 = .ok [units "h", units "i"] := by
      rw [chunksFrom, dif_pos (by decide)]
      dsimp only
      rw [first, later]
      exact (if_neg slow).trans (dif_neg Nat.one_ne_zero)
    rw [chunkReefText, if_neg (by decide)]
    exact whole
  obtain ⟨all, -, -, full⟩ := chunkReefText_lossless done
  exact ⟨done, all, full [] (units "h") [units "i"] rfl (List.cons_ne_nil _ _)⟩

end PlatformClaw.Reef
