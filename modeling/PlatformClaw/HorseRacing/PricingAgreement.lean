import PlatformClaw.HorseRacing.Pricing
import Mathlib.Data.List.Nodup
import Mathlib.Tactic.Positivity

/-! # Pricing agrees with settlement

The fraction that a quote is built on is the chance, over all weighted orders of
all scenarios, that settlement pays the ticket. What the probabilities of a
market add up to and what a ticket returns on average follow from that.
-/

namespace PlatformClaw.HorseRacing

open Except (bind_ok_iff)
open WeightedDraw (chance expected chance_eq_expected)

namespace ProbabilityFraction

def value (fraction : ProbabilityFraction) : ℚ :=
  fraction.numerator / fraction.denominator

structure Sound (fraction : ProbabilityFraction) : Prop where
  numerator : 0 ≤ fraction.numerator
  denominator : 0 < fraction.denominator

end ProbabilityFraction

open ProbabilityFraction (value Sound)

theorem commonDivisor_divides {divisor remainder : Int} :
    commonDivisor divisor remainder ∣ divisor ∧ commonDivisor divisor remainder ∣ remainder := by
  induction divisor, remainder using commonDivisor.induct with
  | case1 divisor =>
    rw [commonDivisor, if_pos rfl]
    exact ⟨dvd_refl _, dvd_zero _⟩
  | case2 divisor remainder unfinished ih =>
    rw [commonDivisor, if_neg unfinished]
    refine ⟨?_, ih.1⟩
    have split := dvd_add (Dvd.dvd.mul_right ih.1 (divisor.tdiv remainder)) ih.2
    rwa [Int.mul_tdiv_add_tmod] at split

theorem commonDivisor_pos {divisor remainder : Int} (positive : 0 < divisor)
    (nonnegative : 0 ≤ remainder) : 0 < commonDivisor divisor remainder := by
  induction divisor, remainder using commonDivisor.induct with
  | case1 divisor => rwa [commonDivisor, if_pos rfl]
  | case2 divisor remainder unfinished ih =>
    rw [commonDivisor, if_neg unfinished]
    exact ih (by omega) (Int.tmod_nonneg _ positive.le)

theorem reduceFraction_value {numerator denominator : Int} (nonnegative : 0 ≤ numerator)
    (positive : 0 < denominator) :
    (reduceFraction numerator denominator).value = numerator / denominator := by
  have divisor := commonDivisor_pos positive nonnegative
  obtain ⟨⟨d, exactD⟩, n, exactN⟩ := @commonDivisor_divides denominator numerator
  simp only [value, reduceFraction]
  generalize commonDivisor denominator numerator = g at *
  subst exactD exactN
  have nonzero : (g : ℚ) ≠ 0 := by exact_mod_cast divisor.ne'
  rw [Int.mul_tdiv_cancel_left _ divisor.ne', Int.mul_tdiv_cancel_left _ divisor.ne']
  push_cast
  exact (mul_div_mul_left _ _ nonzero).symm

theorem reduceFraction_sound {numerator denominator : Int} (nonnegative : 0 ≤ numerator)
    (positive : 0 < denominator) : (reduceFraction numerator denominator).Sound := by
  have divisor := commonDivisor_pos positive nonnegative
  obtain ⟨⟨d, exactD⟩, n, exactN⟩ := @commonDivisor_divides denominator numerator
  constructor
  · exact Int.tdiv_nonneg nonnegative divisor.le
  · simp only [reduceFraction]
    generalize commonDivisor denominator numerator = g at *
    subst exactD exactN
    rw [Int.mul_tdiv_cancel_left _ divisor.ne']
    exact pos_of_mul_pos_right positive divisor.le

theorem addFractions_sound {left right : ProbabilityFraction} (soundLeft : left.Sound)
    (soundRight : right.Sound) : (addFractions left right).Sound := by
  have := soundLeft.numerator
  have := soundLeft.denominator
  have := soundRight.numerator
  have := soundRight.denominator
  exact reduceFraction_sound (by positivity) (by positivity)

theorem addFractions_value {left right : ProbabilityFraction} (soundLeft : left.Sound)
    (soundRight : right.Sound) : (addFractions left right).value = left.value + right.value := by
  have := soundLeft.numerator
  have := soundRight.numerator
  have positiveLeft := soundLeft.denominator
  have positiveRight := soundRight.denominator
  rw [addFractions, reduceFraction_value (by positivity) (by positivity)]
  have nonzeroLeft : (left.denominator : ℚ) ≠ 0 := by exact_mod_cast positiveLeft.ne'
  have nonzeroRight : (right.denominator : ℚ) ≠ 0 := by exact_mod_cast positiveRight.ne'
  simp only [value]
  push_cast
  field_simp

theorem foldl_value {ι : Type} {items : List ι} {step : ProbabilityFraction → ι → ProbabilityFraction}
    {gain : ι → ℚ} (adds : ∀ fraction, fraction.Sound → ∀ item ∈ items,
      (step fraction item).Sound ∧ (step fraction item).value = fraction.value + gain item)
    {start : ProbabilityFraction} (sound : start.Sound) :
    (items.foldl step start).Sound ∧ (items.foldl step start).value = start.value + (items.map gain).sum := by
  induction items generalizing start with
  | nil => exact ⟨sound, by simp⟩
  | cons item rest ih =>
    obtain ⟨next, added⟩ := adds start sound item List.mem_cons_self
    obtain ⟨finish, rest⟩ := ih (fun fraction h other inRest =>
      adds fraction h other (List.mem_cons_of_mem item inRest)) next
    refine ⟨finish, ?_⟩
    rw [List.foldl_cons, rest, added, List.map_cons, List.sum_cons, add_assoc]

theorem zero_sound : Sound { numerator := 0, denominator := 1 } := ⟨by decide, by decide⟩

theorem zero_value : value { numerator := 0, denominator := 1 } = 0 := by simp [value]

/-- Horses that can be drawn: distinct ids and positive weights. -/
structure Drawable (horses : List RacingHorse) : Prop where
  positive : ∀ horse ∈ horses, 0 < horse.weight
  distinct : (horses.map (·.id)).Nodup

namespace Drawable

variable {horses : List RacingHorse}

theorem nodup (drawable : Drawable horses) : horses.Nodup :=
  drawable.distinct.of_map _

theorem weights (drawable : Drawable horses) : ∀ horse ∈ horses, 0 < weightOf horse := by
  intro horse inHorses
  simp only [weightOf]
  exact_mod_cast drawable.positive horse inHorses

theorem same_id (drawable : Drawable horses) {a b : RacingHorse} (inA : a ∈ horses)
    (inB : b ∈ horses) : a.id = b.id ↔ a = b :=
  ⟨fun same => List.inj_on_of_nodup_map drawable.distinct inA inB same, fun same => same ▸ rfl⟩

end Drawable

theorem totalWeight_eq (horses : List RacingHorse) :
    (totalWeight horses : ℚ) = WeightedDraw.total weightOf horses := by
  have sum : ∀ start : Int, ((horses.foldl (fun sum horse => sum + horse.weight) start : Int) : ℚ) =
      start + WeightedDraw.total weightOf horses := by
    induction horses with
    | nil => simp [WeightedDraw.total]
    | cons horse rest ih =>
      intro start
      rw [List.foldl_cons, ih]
      simp only [WeightedDraw.total, List.map_cons, List.sum_cons, weightOf]
      push_cast
      ring
  rw [totalWeight, sum 0]
  simp

theorem weight_lt_total {horses : List RacingHorse} (drawable : Drawable horses)
    {horse other : RacingHorse} (inHorses : horse ∈ horses) (inOther : other ∈ horses)
    (different : horse ≠ other) : horse.weight < totalWeight horses := by
  have rest := WeightedDraw.total_pos (WeightedDraw.positive_erase drawable.weights horse)
    (List.ne_nil_of_mem ((List.mem_erase_of_ne (Ne.symm different)).mpr inOther))
  rw [WeightedDraw.total_erase inHorses, ← totalWeight_eq] at rest
  have : (horse.weight : ℚ) < totalWeight horses := by
    simp only [weightOf] at rest
    linarith
  exact_mod_cast this

theorem two_weights_lt_total {horses : List RacingHorse} (drawable : Drawable horses)
    {first second third : RacingHorse} (inFirst : first ∈ horses) (inSecond : second ∈ horses)
    (inThird : third ∈ horses) (firstSecond : second ≠ first) (firstThird : third ≠ first)
    (secondThird : third ≠ second) : first.weight + second.weight < totalWeight horses := by
  have inRest : second ∈ horses.erase first := (List.mem_erase_of_ne firstSecond).mpr inSecond
  have rest := WeightedDraw.total_pos
    (WeightedDraw.positive_erase (WeightedDraw.positive_erase drawable.weights first) second)
    (List.ne_nil_of_mem ((List.mem_erase_of_ne secondThird).mpr ((List.mem_erase_of_ne firstThird).mpr inThird)))
  rw [WeightedDraw.total_erase inRest, WeightedDraw.total_erase inFirst, ← totalWeight_eq] at rest
  have : ((first.weight + second.weight : Int) : ℚ) < totalWeight horses := by
    simp only [weightOf] at rest
    push_cast
    linarith
  exact_mod_cast this

theorem totalWeight_pos {horses : List RacingHorse} (drawable : Drawable horses)
    (inhabited : horses ≠ []) : 0 < totalWeight horses := by
  have whole := WeightedDraw.total_pos drawable.weights inhabited
  rw [← totalWeight_eq] at whole
  exact_mod_cast whole

def HorseBetMarket.places : HorseBetMarket → Nat
  | .win => 1
  | .quinella => 2
  | .quinellaPlace => 3

/-- The whole selection is among the leading places. -/
def placed (places : Nat) (selection : List String) (order : List RacingHorse) : Bool :=
  selection.all fun id => id ∈ (order.take places).map (·.id)

/-- A selection that `quoteHorseBet` prices. -/
structure ValidBet (horses : List RacingHorse) (market : HorseBetMarket)
    (selection : List String) : Prop where
  selected : ValidSelection horses market selection
  offered : market ≠ .quinellaPlace ∨ 3 ≤ horses.length

theorem selection_perm {horses : List RacingHorse} (drawable : Drawable horses)
    {market : HorseBetMarket} {selection : List String}
    (valid : ValidSelection horses market selection) :
    ((horses.filter fun horse => horse.id ∈ selection).map (·.id)).Perm selection := by
  have distinct : ((horses.filter fun horse => horse.id ∈ selection).map (·.id)).Nodup :=
    drawable.distinct.sublist (List.filter_sublist.map _)
  apply (distinct.subperm ?_).perm_of_length_le
  · rw [List.length_map, valid.2]
  · intro id inIds
    obtain ⟨horse, inFilter, rfl⟩ := List.mem_map.mp inIds
    simpa using (List.mem_filter.mp inFilter).2

theorem selection_single {horses : List RacingHorse} (drawable : Drawable horses)
    {selection : List String} (valid : ValidSelection horses .win selection) :
    ∃ horse ∈ horses, selection = [horse.id] ∧ (horses.filter fun horse => horse.id ∈ selection) = [horse] := by
  have same := selection_perm drawable valid
  obtain ⟨horse, only⟩ := List.length_eq_one_iff.mp (valid.2.trans valid.1)
  have inFilter : horse ∈ horses.filter fun horse => horse.id ∈ selection := by
    rw [only]
    exact List.mem_cons_self
  rw [only] at same
  exact ⟨horse, (List.mem_filter.mp inFilter).1, (List.singleton_perm.mp same).symm, only⟩

theorem selection_pair {horses : List RacingHorse} (drawable : Drawable horses)
    {market : HorseBetMarket} (two : market.horses = 2) {selection : List String}
    (valid : ValidSelection horses market selection) :
    ∃ a ∈ horses, ∃ b ∈ horses, a ≠ b ∧ (selection = [a.id, b.id] ∨ selection = [b.id, a.id]) ∧
      (horses.filter fun horse => horse.id ∈ selection) = [a, b] := by
  have same := selection_perm drawable valid
  obtain ⟨a, b, both⟩ := List.length_eq_two.mp (valid.2.trans (valid.1.trans two))
  have inFilter : ∀ horse ∈ [a, b], horse ∈ horses := by
    intro horse inBoth
    rw [← both] at inBoth
    exact (List.mem_filter.mp inBoth).1
  have distinct : [a, b].Nodup := both ▸ drawable.nodup.filter _
  obtain ⟨x, y, ids⟩ := List.length_eq_two.mp (valid.1.trans two)
  rw [both, ids, List.map_cons, List.map_cons, List.map_nil] at same
  refine ⟨a, inFilter a (by simp), b, inFilter b (by simp), by simpa using distinct, ?_, both⟩
  rw [ids]
  have inIds : x ∈ [a.id, b.id] := same.mem_iff.mpr List.mem_cons_self
  cases List.mem_cons.mp inIds with
  | inl first =>
    subst first
    have rest := (List.perm_cons _).mp same
    exact .inl (by rw [List.singleton_perm_singleton.mp rest])
  | inr later =>
    have second := List.mem_singleton.mp later
    subst second
    have swapped : [b.id, a.id].Perm [b.id, y] := (List.Perm.swap _ _ _).trans same
    have rest := (List.perm_cons _).mp swapped
    exact .inr (by rw [List.singleton_perm_singleton.mp rest])

theorem mem_take_ids {horses order : List RacingHorse} (drawable : Drawable horses)
    (isOrder : order.Perm horses) {horse : RacingHorse} (inHorses : horse ∈ horses) (places : Nat) :
    horse.id ∈ (order.take places).map (·.id) ↔ horse ∈ order.take places := by
  constructor
  · intro inIds
    obtain ⟨other, inTake, same⟩ := List.mem_map.mp inIds
    have inOther := isOrder.mem_iff.mp (List.mem_of_mem_take inTake)
    exact (drawable.same_id inOther inHorses).mp same ▸ inTake
  · exact fun inTake => List.mem_map.mpr ⟨horse, inTake, rfl⟩

theorem placed_pair {horses order : List RacingHorse} (drawable : Drawable horses)
    (isOrder : order.Perm horses) {a b : RacingHorse} (inA : a ∈ horses) (inB : b ∈ horses)
    {selection : List String} (ids : selection = [a.id, b.id] ∨ selection = [b.id, a.id])
    (places : Nat) : placed places selection order =
      decide (a ∈ order.take places ∧ b ∈ order.take places) := by
  have placedA := mem_take_ids drawable isOrder inA places
  have placedB := mem_take_ids drawable isOrder inB places
  cases ids with
  | inl ids =>
    simp only [placed, ids, List.all_cons, List.all_nil, placedA, placedB, Bool.and_true, Bool.decide_and]
  | inr ids =>
    simp only [placed, ids, List.all_cons, List.all_nil, placedA, placedB, Bool.and_true, Bool.decide_and]
    exact Bool.and_comm _ _

theorem win_branch {horses : List RacingHorse} (drawable : Drawable horses)
    {selection : List String} (valid : ValidSelection horses .win selection) :
    (branchProbability .win horses selection).Sound ∧ (branchProbability .win horses selection).value =
        chance weightOf horses (placed 1 selection) := by
  obtain ⟨horse, inHorses, ids, only⟩ := selection_single drawable valid
  have whole := totalWeight_pos drawable (List.ne_nil_of_mem inHorses)
  have positive := drawable.positive horse inHorses
  have event : chance weightOf horses (placed 1 selection) =
      chance weightOf horses fun order => horse ∈ order.take 1 := by
    apply WeightedDraw.chance_congr
    intro order isOrder
    simp only [placed, ids, List.all_cons, List.all_nil, Bool.and_true, mem_take_ids drawable isOrder inHorses]
  rw [event, WeightedDraw.chance_first drawable.nodup drawable.weights inHorses]
  simp only [branchProbability, only, List.foldl_cons, List.foldl_nil, one_mul]
  refine ⟨⟨positive.le, whole⟩, ?_⟩
  rw [value, totalWeight_eq, weightOf]

theorem quinella_branch {horses : List RacingHorse} (drawable : Drawable horses)
    {selection : List String} (valid : ValidSelection horses .quinella selection) :
    (branchProbability .quinella horses selection).Sound ∧ (branchProbability .quinella horses selection).value =
        chance weightOf horses (placed 2 selection) := by
  obtain ⟨a, inA, b, inB, different, ids, both⟩ := selection_pair drawable rfl valid
  have positiveA := drawable.positive a inA
  have positiveB := drawable.positive b inB
  have lessA := weight_lt_total drawable inA inB different
  have lessB := weight_lt_total drawable inB inA (Ne.symm different)
  have event : chance weightOf horses (placed 2 selection) =
      chance weightOf horses fun order => a ∈ order.take 2 ∧ b ∈ order.take 2 :=
    WeightedDraw.chance_congr fun order isOrder => placed_pair drawable isOrder inA inB ids 2
  rw [event, WeightedDraw.chance_first_two drawable.nodup drawable.weights inA inB different]
  simp only [branchProbability, both, List.foldl_cons, List.foldl_nil, one_mul, totalWeight, zero_add]
  constructor
  · constructor
    · exact mul_nonneg (mul_nonneg positiveA.le positiveB.le) (by
        change 0 ≤ 2 * totalWeight horses - (a.weight + b.weight)
        omega)
    · change 0 < totalWeight horses * ((totalWeight horses - a.weight) * (totalWeight horses - b.weight))
      exact mul_pos (by omega) (mul_pos (by omega) (by omega))
  · change ((a.weight * b.weight * (2 * totalWeight horses - (a.weight + b.weight)) : Int) : ℚ) /
      ((totalWeight horses * ((totalWeight horses - a.weight) * (totalWeight horses - b.weight)) : Int) : ℚ) = _
    rw [← totalWeight_eq]
    generalize totalWeight horses = T at *
    have nonzero : (T : ℚ) ≠ 0 := by exact_mod_cast (by omega : T ≠ 0)
    have nonzeroA : (T : ℚ) - a.weight ≠ 0 := by exact_mod_cast (by omega : T - a.weight ≠ 0)
    have nonzeroB : (T : ℚ) - b.weight ≠ 0 := by exact_mod_cast (by omega : T - b.weight ≠ 0)
    simp only [weightOf]
    push_cast
    field_simp
    ring

def topThreeShare (selection : List String) (total : Int) (first second third : RacingHorse) : ℚ :=
  if third.id = first.id ∨ third.id = second.id ∨
      ¬∀ id ∈ selection, id = first.id ∨ id = second.id ∨ id = third.id then 0
  else first.weight * second.weight * third.weight /
    (total * (total - first.weight) * (total - first.weight - second.weight))

theorem addThird_value {horses : List RacingHorse} (drawable : Drawable horses)
    (selection : List String) {first second third : RacingHorse} (inFirst : first ∈ horses)
    (inSecond : second ∈ horses) (inThird : third ∈ horses) (different : second.id ≠ first.id)
    {fraction : ProbabilityFraction} (sound : fraction.Sound) :
    (addThird selection (totalWeight horses) first second fraction third).Sound ∧
      (addThird selection (totalWeight horses) first second fraction third).value =
        fraction.value + topThreeShare selection (totalWeight horses) first second third := by
  unfold addThird topThreeShare
  split
  · exact ⟨sound, (add_zero _).symm⟩
  · rename_i counted
    simp only [not_or] at counted
    have less := two_weights_lt_total drawable inFirst inSecond inThird
      (fun same => different (same ▸ rfl)) (fun same => counted.1 (same ▸ rfl))
      (fun same => counted.2.1 (same ▸ rfl))
    have positiveFirst := drawable.positive first inFirst
    have positiveSecond := drawable.positive second inSecond
    have positiveThird := drawable.positive third inThird
    have added : Sound
        { numerator := first.weight * second.weight * third.weight
          denominator := totalWeight horses * (totalWeight horses - first.weight) *
            (totalWeight horses - first.weight - second.weight) } :=
      ⟨by positivity, mul_pos (mul_pos (by omega) (by omega)) (by omega)⟩
    refine ⟨addFractions_sound sound added, ?_⟩
    rw [addFractions_value sound added, value, value]
    push_cast
    rfl

theorem addSecond_value {horses : List RacingHorse} (drawable : Drawable horses)
    (selection : List String) {first second : RacingHorse} (inFirst : first ∈ horses)
    (inSecond : second ∈ horses) {fraction : ProbabilityFraction} (sound : fraction.Sound) :
    (addSecond horses selection (totalWeight horses) first fraction second).Sound ∧
      (addSecond horses selection (totalWeight horses) first fraction second).value =
        fraction.value + if second.id = first.id then 0 else
          (horses.map (topThreeShare selection (totalWeight horses) first second)).sum := by
  unfold addSecond
  split
  · exact ⟨sound, (add_zero _).symm⟩
  · rename_i different
    exact foldl_value (fun fraction sound third inThird =>
      addThird_value drawable selection inFirst inSecond inThird different sound) sound

theorem topThreePairProbability_value {horses : List RacingHorse} (drawable : Drawable horses)
    (selection : List String) :
    (topThreePairProbability horses selection (totalWeight horses)).Sound ∧
      (topThreePairProbability horses selection (totalWeight horses)).value =
        (horses.map fun first => (horses.map fun second =>
          if second.id = first.id then 0 else
            (horses.map (topThreeShare selection (totalWeight horses) first second)).sum).sum).sum := by
  have loop := @foldl_value _ horses _ _ (fun fraction sound first inFirst => foldl_value
    (fun fraction sound second inSecond =>
      addSecond_value drawable selection inFirst inSecond sound) sound) _ zero_sound
  rw [zero_value, zero_add] at loop
  exact loop

theorem place_branch {horses : List RacingHorse} (drawable : Drawable horses)
    (enough : 3 ≤ horses.length) (selection : List String) :
    (branchProbability .quinellaPlace horses selection).Sound ∧
      (branchProbability .quinellaPlace horses selection).value = chance weightOf horses (placed 3 selection) := by
  obtain ⟨sound, summed⟩ := topThreePairProbability_value drawable selection
  refine ⟨sound, summed.trans ?_⟩
  rw [chance_eq_expected]
  refine Eq.trans ?_ (WeightedDraw.expected_top_three drawable.nodup drawable.weights enough
    fun top => if selection.all (fun id => id ∈ top.map (·.id)) then 1 else 0).symm
  congr 1
  apply List.map_congr_left
  intro first inFirst
  rw [WeightedDraw.sum_erase drawable.nodup, ← List.sum_map_mul_left]
  congr 1
  apply List.map_congr_left
  intro second inSecond
  by_cases same : second = first
  · rw [if_pos (same ▸ rfl), if_pos same, mul_zero]
  · have inRest : second ∈ horses.erase first := (List.mem_erase_of_ne same).mpr inSecond
    rw [if_neg fun ids => same ((drawable.same_id inSecond inFirst).mp ids), if_neg same,
      WeightedDraw.sum_erase (drawable.nodup.erase first), WeightedDraw.sum_erase drawable.nodup,
      ← mul_assoc, ← List.sum_map_mul_left]
    congr 1
    apply List.map_congr_left
    intro third inThird
    unfold topThreeShare
    have sameFirst := drawable.same_id inThird inFirst
    have sameSecond := drawable.same_id inThird inSecond
    by_cases isFirst : third = first
    · rw [if_pos (.inl (sameFirst.mpr isFirst)), if_pos isFirst, mul_zero]
    · by_cases isSecond : third = second
      · rw [if_pos (.inr (.inl (sameSecond.mpr isSecond))), if_neg isFirst, if_pos isSecond, mul_zero]
      · rw [if_neg isFirst, if_neg isSecond, ← totalWeight_eq]
        by_cases covered : ∀ id ∈ selection, id = first.id ∨ id = second.id ∨ id = third.id
        · have counted : ¬(third.id = first.id ∨ third.id = second.id ∨
              ¬∀ id ∈ selection, id = first.id ∨ id = second.id ∨ id = third.id) := by
            rintro (ids | ids | missed)
            · exact isFirst (sameFirst.mp ids)
            · exact isSecond (sameSecond.mp ids)
            · exact missed covered
          rw [if_neg counted, if_pos (by simpa using covered), mul_one]
          simp only [weightOf, div_mul_div_comm]
        · rw [if_pos (.inr (.inr covered)), if_neg (by simpa using covered), mul_zero, mul_zero]

theorem branch_value {horses : List RacingHorse} (drawable : Drawable horses)
    {market : HorseBetMarket} {selection : List String}
    (valid : ValidBet horses market selection) :
    (branchProbability market horses selection).Sound ∧ (branchProbability market horses selection).value =
        chance weightOf horses (placed market.places selection) := by
  cases market with
  | win => exact win_branch drawable valid.selected
  | quinella => exact quinella_branch drawable valid.selected
  | quinellaPlace => exact place_branch drawable (valid.offered.resolve_left (by simp)) selection

def raceChance (horses : List RacingHorse) (event : List RacingHorse → Bool) : ℚ :=
  ((horseRaceScenarios horses).map fun scenario =>
    (scenario.numerator / scenario.denominator : ℚ) * chance weightOf scenario.horses event).sum

/-- What a scenario of a roster can be: the roster with possibly another weight for the joker. -/
structure IsScenario (horses : List RacingHorse) (scenario : HorseRaceScenario) : Prop where
  numerator : 0 < scenario.numerator
  denominator : 0 < scenario.denominator
  ids : scenario.horses.map (·.id) = horses.map (·.id)
  drawable : Drawable horses → Drawable scenario.horses

theorem withJokerWeight_ids (jokerWeight : Int) (horses : List RacingHorse) :
    (withJokerWeight jokerWeight horses).map (·.id) = horses.map (·.id) := by
  simp [withJokerWeight]

theorem withJokerWeight_drawable {jokerWeight : Int} (positive : 0 < jokerWeight)
    {horses : List RacingHorse} (drawable : Drawable horses) :
    Drawable (withJokerWeight jokerWeight horses) where
  positive := by
    intro horse inHorses
    obtain ⟨other, inOther, rfl⟩ := List.mem_map.mp inHorses
    simp only []
    split
    · exact positive
    · exact drawable.positive other inOther
  distinct := by
    rw [withJokerWeight_ids]
    exact drawable.distinct

theorem isScenario {horses : List RacingHorse} {scenario : HorseRaceScenario}
    (inScenarios : scenario ∈ horseRaceScenarios horses) : IsScenario horses scenario := by
  unfold horseRaceScenarios at inScenarios
  split at inScenarios
  · simp only [List.mem_cons, List.not_mem_nil, or_false] at inScenarios
    rcases inScenarios with rfl | rfl
    · exact ⟨by norm_num, by norm_num, withJokerWeight_ids 1 horses,
        withJokerWeight_drawable (by norm_num)⟩
    · exact ⟨by norm_num, by norm_num, withJokerWeight_ids 96 horses,
        withJokerWeight_drawable (by norm_num)⟩
  · rw [List.mem_singleton.mp inScenarios]
    exact ⟨by norm_num, by norm_num, rfl, id⟩

theorem scenario_shares (horses : List RacingHorse) : ((horseRaceScenarios horses).map fun scenario =>
      (scenario.numerator / scenario.denominator : ℚ)).sum = 1 := by
  unfold horseRaceScenarios
  split
  · norm_num
  · norm_num

theorem ValidBet.congr {horses other : List RacingHorse} {market : HorseBetMarket}
    {selection : List String} (valid : ValidBet horses market selection)
    (ids : (other.map (·.id)).Perm (horses.map (·.id))) : ValidBet other market selection := by
  have counts : ∀ roster : List RacingHorse, (roster.filter fun horse => horse.id ∈ selection).length =
        (roster.map (·.id)).countP (· ∈ selection) := by
    intro roster
    rw [List.countP_map, List.countP_eq_length_filter]
    rfl
  have size : other.length = horses.length := by simpa using ids.length_eq
  refine ⟨⟨valid.selected.1, ?_⟩, size ▸ valid.offered⟩
  rw [counts, ids.countP_eq, ← counts]
  exact valid.selected.2

theorem horseBetProbability_value {horses : List RacingHorse} (drawable : Drawable horses)
    {market : HorseBetMarket} {selection : List String}
    (valid : ValidBet horses market selection) :
    (horseBetProbability market horses selection).Sound ∧ (horseBetProbability market horses selection).value =
        raceChance horses (placed market.places selection) := by
  have mixed := @foldl_value _ (horseRaceScenarios horses) (fun probability scenario =>
      addFractions probability
        { numerator := (branchProbability market scenario.horses selection).numerator *
            scenario.numerator
          denominator := (branchProbability market scenario.horses selection).denominator *
            scenario.denominator })
    (fun scenario => (scenario.numerator / scenario.denominator : ℚ) *
      chance weightOf scenario.horses (placed market.places selection)) ?_ _ zero_sound
  · rw [zero_value, zero_add] at mixed
    exact mixed
  · intro fraction sound scenario inScenarios
    have possible := isScenario inScenarios
    obtain ⟨soundBranch, branch⟩ := branch_value (possible.drawable drawable)
      (valid.congr (possible.ids ▸ List.Perm.refl _))
    have soundMixed : Sound
        { numerator := (branchProbability market scenario.horses selection).numerator *
            scenario.numerator
          denominator := (branchProbability market scenario.horses selection).denominator *
            scenario.denominator } :=
      ⟨mul_nonneg soundBranch.numerator possible.numerator.le, mul_pos soundBranch.denominator possible.denominator⟩
    refine ⟨addFractions_sound sound soundMixed, ?_⟩
    rw [addFractions_value sound soundMixed, ← branch, value, value, value]
    push_cast
    ring

theorem horseIds_commaFree : ∀ id ∈ horseIds, ',' ∉ id.toList := by decide

theorem toSorted_swap : ∀ a ∈ horseIds, ∀ b ∈ horseIds,
    ScriptString.toSorted [a, b] = ScriptString.toSorted [b, a] := by
  simp only [ScriptString.toSorted_pair]
  decide

/-- The text of a pair holds both ids and nothing else. -/
theorem toSorted_pair_cases (a b : String) :
    ScriptString.toSorted [a, b] = [a, b] ∨ ScriptString.toSorted [a, b] = [b, a] := by
  rw [ScriptString.toSorted_pair]
  split
  · exact .inl rfl
  · exact .inr rfl

theorem pair_text_eq_iff {a b x y : String} (inA : a ∈ horseIds) (inB : b ∈ horseIds) :
    ScriptString.join ',' (ScriptString.toSorted [a, b]) = ScriptString.join ',' (ScriptString.toSorted [x, y]) ↔
      (x = a ∧ y = b) ∨ (x = b ∧ y = a) := by
  have freeA := horseIds_commaFree a inA
  have freeB := horseIds_commaFree b inB
  constructor
  · intro same
    rcases toSorted_pair_cases a b with left | left <;>
      rcases toSorted_pair_cases x y with right | right <;> rw [left, right] at same
    · obtain ⟨rfl, rfl⟩ := ScriptString.join_pair_inj freeA freeB same.symm
      exact .inl ⟨rfl, rfl⟩
    · obtain ⟨rfl, rfl⟩ := ScriptString.join_pair_inj freeA freeB same.symm
      exact .inr ⟨rfl, rfl⟩
    · obtain ⟨rfl, rfl⟩ := ScriptString.join_pair_inj freeB freeA same.symm
      exact .inr ⟨rfl, rfl⟩
    · obtain ⟨rfl, rfl⟩ := ScriptString.join_pair_inj freeB freeA same.symm
      exact .inl ⟨rfl, rfl⟩
  · rintro (⟨rfl, rfl⟩ | ⟨rfl, rfl⟩)
    · rfl
    · rw [toSorted_swap x inB y inA]

theorem settlementPays_iff {market : HorseBetMarket} {selection : List String} {text : String}
    (canonical : canonicalSelection market selection = .ok text) {order : List String}
    (enough : market.horses ≤ order.length) :
    settlementPays market text order = true ↔ ∀ id ∈ selection, id ∈ order.take market.places := by
  simp only [canonicalSelection, bind_ok_iff, Except.ensure_ok_iff, Except.pure_ok_iff] at canonical
  obtain ⟨_, ⟨size, known, distinct⟩, rfl⟩ := canonical
  cases market with
  | win =>
    obtain ⟨id, rfl⟩ := List.length_eq_one_iff.mp size
    have text : ScriptString.join ',' (ScriptString.toSorted [id]) = id := by
      simp [ScriptString.toSorted, ScriptString.join, ScriptString.joinChars]
    rw [text]
    cases order with
    | nil => simp [settlementPays, HorseBetMarket.places]
    | cons first rest => simp [settlementPays, HorseBetMarket.places, eq_comm]
  | quinella =>
    obtain ⟨a, b, rfl⟩ := List.length_eq_two.mp size
    have different : a ≠ b := by simpa using distinct
    obtain ⟨x, y, rest, rfl⟩ : ∃ x y rest, order = x :: y :: rest := by
      cases order with
      | nil => exact absurd enough (by decide)
      | cons x later =>
        cases later with
        | nil => exact absurd enough (by simp [HorseBetMarket.horses])
        | cons y rest => exact ⟨x, y, rest, rfl⟩
    have texts := pair_text_eq_iff (x := x) (y := y) (known a (by simp)) (known b (by simp))
    simp only [settlementPays, decide_eq_true_eq, HorseBetMarket.places, List.take_succ_cons,
      List.take_zero, texts, List.mem_cons, List.not_mem_nil, or_false, forall_eq_or_imp,
      forall_eq]
    constructor
    · rintro (⟨rfl, rfl⟩ | ⟨rfl, rfl⟩)
      · exact ⟨.inl rfl, .inr rfl⟩
      · exact ⟨.inr rfl, .inl rfl⟩
    · rintro ⟨rfl | rfl, rfl | rfl⟩
      · exact absurd rfl different
      · exact .inl ⟨rfl, rfl⟩
      · exact .inr ⟨rfl, rfl⟩
      · exact absurd rfl different
  | quinellaPlace =>
    obtain ⟨a, b, rfl⟩ := List.length_eq_two.mp size
    have freeA := horseIds_commaFree a (known a (by simp))
    have freeB := horseIds_commaFree b (known b (by simp))
    rcases toSorted_pair_cases a b with sorted | sorted
    · simp [settlementPays, sorted, ScriptString.split_join_pair freeA freeB, HorseBetMarket.places]
    · simp [settlementPays, sorted, ScriptString.split_join_pair freeB freeA, HorseBetMarket.places, and_comm]

theorem raceChance_perm {horses other : List RacingHorse} (same : other.Perm horses)
    (event : List RacingHorse → Bool) : raceChance other event = raceChance horses event := by
  have joker : (other.any fun horse => horse.id = HORSE_RACING_JOKER_ID) =
      horses.any fun horse => horse.id = HORSE_RACING_JOKER_ID := same.any_eq
  unfold raceChance horseRaceScenarios
  rw [joker]
  split
  · simp only [List.map_cons, List.map_nil, withJokerWeight]
    rw [WeightedDraw.chance_perm (same.map _), WeightedDraw.chance_perm (same.map _)]
  · simp only [List.map_cons, List.map_nil]
    rw [WeightedDraw.chance_perm same]

theorem raceChance_congr {horses : List RacingHorse} {event event' : List RacingHorse → Bool}
    (equal : ∀ order : List RacingHorse, (order.map (·.id)).Perm (horses.map (·.id)) →
      event order = event' order) : raceChance horses event = raceChance horses event' := by
  unfold raceChance
  congr 1
  apply List.map_congr_left
  intro scenario inScenarios
  congr 1
  apply WeightedDraw.chance_congr
  intro order isOrder
  exact equal order ((isOrder.map _).trans ((isScenario inScenarios).ids ▸ .refl _))

/-- The chance that settlement pays a ticket with this text, over the orders that
    `drawHorseFinishOrder` draws: weighted, without replacement, in a random scenario. -/
def settlementChance (horses : List RacingHorse) (market : HorseBetMarket) (selection : String) : ℚ :=
  raceChance (canonicalHorses horses) fun order =>
    settlementPays market selection (order.map (·.id))

theorem settlementChance_eq {horses : List RacingHorse} {market : HorseBetMarket}
    {selection : List String} {text : String}
    (canonical : canonicalSelection market selection = .ok text)
    (valid : ValidBet horses market selection) :
    settlementChance horses market text = raceChance horses (placed market.places selection) := by
  have sorted : (canonicalHorses horses).Perm horses := List.mergeSort_perm _ _
  rw [settlementChance, raceChance_perm sorted]
  apply raceChance_congr
  intro order isOrder
  have size : order.length = horses.length := by simpa using isOrder.length_eq
  have enough : market.horses ≤ (order.map (·.id)).length := by
    have selected := List.length_filter_le (fun horse : RacingHorse => decide (horse.id ∈ selection))
      horses
    rw [valid.selected.2, valid.selected.1] at selected
    rw [List.length_map, size]
    exact selected
  rw [Bool.eq_iff_iff, settlementPays_iff canonical enough]
  simp [placed, List.map_take]

theorem indicator_sum (selections : List (List String)) (holds : List String → Bool) :
    (selections.map fun selection => if holds selection then (1 : ℚ) else 0).sum = selections.countP holds := by
  induction selections with
  | nil => rfl
  | cons selection rest ih =>
    rw [List.map_cons, List.sum_cons, ih, List.countP_cons]
    split
    · push_cast
      ring
    · simp

theorem countP_selectionPairs (horses : List RacingHorse) (inSet : String → Bool) :
    2 * (selectionPairs horses).countP (fun selection => selection.all inSet) =
      (horses.map (·.id)).countP inSet * ((horses.map (·.id)).countP inSet - 1) := by
  induction horses with
  | nil => rfl
  | cons horse rest ih =>
    have front : (rest.map fun other => [horse.id, other.id]).countP (fun selection => selection.all inSet) =
          if inSet horse.id then (rest.map (·.id)).countP inSet else 0 := by
      rw [List.countP_map, List.countP_map]
      cases member : inSet horse.id with
      | true => simp [Function.comp_def, member]
      | false => simp [Function.comp_def, member]
    rw [selectionPairs, List.countP_append, Nat.mul_add, ih, front, List.map_cons, List.countP_cons]
    generalize (rest.map (·.id)).countP inSet = n
    cases member : inSet horse.id with
    | true =>
      cases n with
      | zero => rfl
      | succ n =>
        simp only [if_true, Nat.add_sub_cancel]
        ring
    | false => simp

/-- As many ids of the roster are among the leading places as there are places. -/
theorem countP_placed {horses order : List RacingHorse} (drawable : Drawable horses)
    (isOrder : (order.map (·.id)).Perm (horses.map (·.id))) {places : Nat}
    (enough : places ≤ horses.length) :
    (horses.map (·.id)).countP (fun id => id ∈ (order.take places).map (·.id)) = places := by
  have distinct : (order.map (·.id)).Nodup := isOrder.nodup_iff.mpr drawable.distinct
  have size : order.length = horses.length := by simpa using isOrder.length_eq
  rw [← isOrder.countP_eq, ← List.take_append_drop places (order.map (·.id)), List.countP_append,
    List.countP_eq_length.mpr, List.countP_eq_zero.mpr, List.length_take, List.length_map]
  · omega
  · intro id inRest inTop
    have apart := List.disjoint_take_drop distinct (Nat.le_refl places)
    exact apart (by simpa [List.map_take] using inTop) inRest
  · intro id inTop
    simpa [List.map_take] using inTop

def HorseBetMarket.winners : HorseBetMarket → Nat
  | .win | .quinella => 1
  | .quinellaPlace => 3

theorem countP_marketSelections {horses order : List RacingHorse} (drawable : Drawable horses)
    (isOrder : (order.map (·.id)).Perm (horses.map (·.id))) {market : HorseBetMarket}
    (enough : market.places ≤ horses.length) :
    (marketSelections horses market).countP (fun selection => placed market.places selection order) =
      market.winners := by
  have placedIds := countP_placed drawable isOrder enough
  cases market with
  | win =>
    simp only [marketSelections, List.countP_map]
    rw [List.countP_map] at placedIds
    refine Eq.trans ?_ placedIds
    congr 1
    funext horse
    simp [placed, HorseBetMarket.places]
  | quinella =>
    have pairs := countP_selectionPairs horses fun id =>
      id ∈ (order.take HorseBetMarket.quinella.places).map (·.id)
    rw [placedIds] at pairs
    exact Nat.eq_of_mul_eq_mul_left two_pos pairs
  | quinellaPlace =>
    have pairs := countP_selectionPairs horses fun id =>
      id ∈ (order.take HorseBetMarket.quinellaPlace.places).map (·.id)
    rw [placedIds] at pairs
    exact Nat.eq_of_mul_eq_mul_left two_pos pairs

theorem raceChance_sum_comm (horses : List RacingHorse) (selections : List (List String))
    (event : List String → List RacingHorse → Bool) :
    (selections.map fun selection => raceChance horses (event selection)).sum =
      ((horseRaceScenarios horses).map fun scenario =>
        (scenario.numerator / scenario.denominator : ℚ) * (selections.map fun selection =>
          chance weightOf scenario.horses (event selection)).sum).sum := by
  unfold raceChance
  induction selections with
  | nil => simp
  | cons selection rest ih =>
    rw [List.map_cons, List.sum_cons, ih, ← List.sum_map_add]
    simp only [List.map_cons, List.sum_cons, mul_add]

theorem raceChance_sum {horses : List RacingHorse} (drawable : Drawable horses)
    (selections : List (List String)) (event : List String → List RacingHorse → Bool) {count : Nat}
    (happen : ∀ order : List RacingHorse, (order.map (·.id)).Perm (horses.map (·.id)) →
      selections.countP (fun selection => event selection order) = count) :
    (selections.map fun selection => raceChance horses (event selection)).sum = count := by
  have scenario_sum : ∀ scenario ∈ horseRaceScenarios horses, (selections.map fun selection =>
        chance weightOf scenario.horses (event selection)).sum = count := by
    intro scenario inScenarios
    have possible := isScenario inScenarios
    have scenarioDrawable := possible.drawable drawable
    simp only [chance_eq_expected]
    rw [← WeightedDraw.expected_sum, ← WeightedDraw.expected_const scenarioDrawable.nodup
      scenarioDrawable.weights (count : ℚ)]
    apply WeightedDraw.expected_congr
    intro order isOrder
    rw [indicator_sum selections fun selection => event selection order,
      happen order ((isOrder.map _).trans (possible.ids ▸ .refl _))]
  calc (selections.map fun selection => raceChance horses (event selection)).sum
      = ((horseRaceScenarios horses).map fun scenario =>
          (scenario.numerator / scenario.denominator : ℚ) * (selections.map fun selection =>
            chance weightOf scenario.horses (event selection)).sum).sum :=
        raceChance_sum_comm horses selections event
    _ = ((horseRaceScenarios horses).map fun scenario =>
          (scenario.numerator / scenario.denominator : ℚ) * count).sum := by
        congr 1
        apply List.map_congr_left
        intro scenario inScenarios
        rw [scenario_sum scenario inScenarios]
    _ = count := by rw [List.sum_map_mul_right, scenario_shares, one_mul]

theorem mem_selectionPairs {horses : List RacingHorse} (distinct : horses.Nodup)
    {selection : List String} (listed : selection ∈ selectionPairs horses) :
    ∃ a ∈ horses, ∃ b ∈ horses, a ≠ b ∧ selection = [a.id, b.id] := by
  induction horses with
  | nil => cases listed
  | cons horse rest ih =>
    have apart := List.nodup_cons.mp distinct
    cases List.mem_append.mp listed with
    | inl front =>
      obtain ⟨other, inRest, rfl⟩ := List.mem_map.mp front
      exact ⟨horse, List.mem_cons_self, other, List.mem_cons_of_mem _ inRest,
        fun same => apart.1 (same ▸ inRest), rfl⟩
    | inr later =>
      obtain ⟨a, inA, b, inB, different, rfl⟩ := ih apart.2 later
      exact ⟨a, List.mem_cons_of_mem _ inA, b, List.mem_cons_of_mem _ inB, different, rfl⟩

theorem marketSelections_valid {horses : List RacingHorse} (drawable : Drawable horses)
    {market : HorseBetMarket} (offered : market ≠ .quinellaPlace ∨ 3 ≤ horses.length)
    {selection : List String} (listed : selection ∈ marketSelections horses market) :
    ValidBet horses market selection := by
  have counted : (horses.filter fun horse => horse.id ∈ selection).length = selection.length ∧
      selection.length = market.horses := by
    have single : ∀ chosen : List RacingHorse, (∀ horse ∈ chosen, horse ∈ horses) → chosen.Nodup →
        selection = chosen.map (·.id) →
        (horses.filter fun horse => horse.id ∈ selection).length = selection.length := by
      intro chosen inHorses distinct ids
      have same : (horses.filter fun horse => horse.id ∈ selection).Perm chosen := by
        apply (List.perm_ext_iff_of_nodup (drawable.nodup.filter _) distinct).mpr
        intro horse
        rw [List.mem_filter, decide_eq_true_eq, ids, List.mem_map]
        constructor
        · rintro ⟨inRoster, other, inChosen, same⟩
          exact (drawable.same_id (inHorses other inChosen) inRoster).mp same ▸ inChosen
        · exact fun inChosen => ⟨inHorses horse inChosen, horse, inChosen, rfl⟩
      rw [same.length_eq, ids, List.length_map]
    cases market with
    | win =>
      obtain ⟨horse, inHorses, rfl⟩ := List.mem_map.mp listed
      exact ⟨single [horse] (by simpa using inHorses) (List.nodup_singleton _) rfl, rfl⟩
    | quinella | quinellaPlace =>
      obtain ⟨a, inA, b, inB, different, rfl⟩ := mem_selectionPairs drawable.nodup listed
      exact ⟨single [a, b] (by simp [inA, inB]) (by simpa using different) rfl, rfl⟩
  exact ⟨⟨counted.2, counted.1⟩, offered⟩

theorem market_probabilities_sum {horses : List RacingHorse} (drawable : Drawable horses)
    {market : HorseBetMarket} {selection : List String}
    (valid : ValidBet horses market selection) :
    ((marketSelections horses market).map fun selection =>
      (horseBetProbability market horses selection).value).sum = market.winners := by
  have enough : market.places ≤ horses.length := by
    have selected := List.length_filter_le (fun horse : RacingHorse => decide (horse.id ∈ selection))
      horses
    rw [valid.selected.2, valid.selected.1] at selected
    cases market with
    | win => exact selected
    | quinella => exact selected
    | quinellaPlace => exact valid.offered.resolve_left (by simp)
  rw [← raceChance_sum drawable (marketSelections horses market) (placed market.places)
    fun order isOrder => countP_marketSelections drawable isOrder enough]
  congr 1
  apply List.map_congr_left
  intro listed inSelections
  exact (horseBetProbability_value drawable (marketSelections_valid drawable valid.offered inSelections)).2

/-- The mean payout of a ticket, over the orders and scenarios of its race. -/
def expectedPayout (horses : List RacingHorse) (market : HorseBetMarket) (selection : String)
    (potentialPayout : Int) : ℚ :=
  ((horseRaceScenarios (canonicalHorses horses)).map fun scenario =>
    (scenario.numerator / scenario.denominator : ℚ) * expected weightOf scenario.horses fun order =>
        if settlementPays market selection (order.map (·.id)) then (potentialPayout : ℚ)
        else 0).sum

theorem expectedPayout_eq (horses : List RacingHorse) (market : HorseBetMarket)
    (selection : String) (potentialPayout : Int) :
    expectedPayout horses market selection potentialPayout =
      potentialPayout * settlementChance horses market selection := by
  unfold expectedPayout settlementChance raceChance
  rw [← List.sum_map_mul_left]
  congr 1
  apply List.map_congr_left
  intro scenario _
  rw [chance_eq_expected, mul_left_comm]
  congr 1
  rw [← WeightedDraw.expected_mul]
  apply WeightedDraw.expected_congr
  intro order _
  split <;> simp

theorem quoteHorsePayout_le {quote : ProbabilityFraction} {amount payout : Int}
    (paid : quoteHorsePayout quote amount = .ok payout) :
    0 < amount ∧ 0 < quote.denominator ∧ (payout : ℚ) ≤ amount * quote.value := by
  simp only [quoteHorsePayout, bind_ok_iff, Except.ensure_ok_iff, Except.pure_ok_iff] at paid
  obtain ⟨_, ⟨_, stake⟩, _, ⟨positive, denominator⟩, _, _, rfl⟩ := paid
  refine ⟨by omega, denominator, ?_⟩
  have nonnegative : 0 ≤ amount * quote.numerator := mul_nonneg (by omega) positive.le
  rw [Int.tdiv_eq_ediv_of_nonneg nonnegative, value, ← mul_div_assoc]
  rw [le_div_iff₀ (by exact_mod_cast denominator)]
  exact_mod_cast Int.ediv_mul_le _ denominator.ne'

theorem potentialPayout_le {horses : List RacingHorse} {market : HorseBetMarket}
    {selection : List String} {amount : Int} {quote : HorseBetQuote}
    (quoted : quoteHorseBet horses market selection amount = .ok quote) :
    Drawable horses ∧ ValidBet horses market selection ∧
      (quote.potentialPayout : ℚ) * (horseBetProbability market horses selection).value ≤
        amount * (100 - HORSE_RACING_FEE_PERCENT) / 100 := by
  simp only [quoteHorseBet, bind_ok_iff, Except.ensure_ok_iff, Except.pure_ok_iff] at quoted
  obtain ⟨_, _, _, roster, _, selected, _, offered, payout, paid, rfl⟩ := quoted
  have drawable : Drawable horses := ⟨fun horse inHorses => (roster.1 horse inHorses).2, roster.2⟩
  refine ⟨drawable, ⟨selected, offered⟩, ?_⟩
  have sound := (horseBetProbability_value drawable ⟨selected, offered⟩).1
  obtain ⟨stake, denominator, bounded⟩ := quoteHorsePayout_le paid
  generalize horseBetProbability market horses selection = probability at *
  have possible : 0 < probability.numerator := by
    apply lt_of_le_of_ne sound.numerator
    intro impossible
    rw [← impossible] at denominator
    simp [reduceFraction] at denominator
  have positive := sound.denominator
  rw [reduceFraction_value (by simp only [HORSE_RACING_FEE_PERCENT]; positivity) (by positivity)] at bounded
  have numeratorPos : (0 : ℚ) < probability.numerator := by exact_mod_cast possible
  have denominatorPos : (0 : ℚ) < probability.denominator := by exact_mod_cast positive
  calc (payout : ℚ) * probability.value
      ≤ amount * (((probability.denominator * (100 - HORSE_RACING_FEE_PERCENT) : Int) : ℚ) /
          ((probability.numerator * 100 : Int) : ℚ)) * probability.value :=
        mul_le_mul_of_nonneg_right bounded (div_nonneg numeratorPos.le denominatorPos.le)
    _ = amount * (100 - HORSE_RACING_FEE_PERCENT) / 100 := by
        simp only [value]
        push_cast
        field_simp

/-- The ids and weights of `HORSE_ROSTER`. -/
def horseRoster : List RacingHorse :=
  [⟨"1", 32⟩, ⟨"2", 19⟩, ⟨"3", 12⟩, ⟨"4", 8⟩, ⟨"5", 25⟩, ⟨"6", 4⟩]

end PlatformClaw.HorseRacing