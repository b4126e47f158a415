import PlatformClaw.HorseRacing.PricingAgreement

/-! # Chances of the drawn order

`drawHorseFinishOrder` turns a sequence of numbers below one into an order. The
sequences that yield a given order form a box whose volume is the chance of that
order, so the chances that quotes are built on are those of the draw itself.
-/

namespace PlatformClaw.HorseRacing

open WeightedDraw (total orderChance drawIndex)

/-- For each place the lower end and the width of the numbers that draw the order's horse. -/
def drawBox : List RacingHorse → List RacingHorse → List (ℚ × ℚ)
  | _, [] => []
  | remaining, first :: rest =>
    (total weightOf (remaining.take (remaining.idxOf first)) / total weightOf remaining,
      weightOf first / total weightOf remaining) :: drawBox (remaining.erase first) rest

/-- From `counter` on, the numbers lie in the intervals one after the other. -/
def InBox (random : Nat → ℚ) : Nat → List (ℚ × ℚ) → Prop
  | _, [] => True
  | counter, (low, width) :: rest =>
    (low ≤ random counter ∧ random counter < low + width) ∧ InBox random (counter + 1) rest

/-- The volume of an order's box is the chance of the order. -/
theorem drawBox_volume {remaining order : List RacingHorse} (isOrder : order.Perm remaining) :
    ((drawBox remaining order).map (·.2)).prod = orderChance weightOf order := by
  induction order generalizing remaining with
  | nil => rfl
  | cons first rest ih =>
    have placed := List.cons_perm_iff_perm_erase.mp isOrder
    rw [drawBox, List.map_cons, List.prod_cons, ih placed.2, orderChance, WeightedDraw.total_perm isOrder]

/-- Drawing the place of a horse: the number falls into the horse's interval. -/
theorem drawIndex_eq_idxOf_iff {remaining : List RacingHorse} (drawable : Drawable remaining)
    {horse : RacingHorse} (inRemaining : horse ∈ remaining) {sample : ℚ} (nonnegative : 0 ≤ sample) :
    drawIndex weightOf (sample * total weightOf remaining) remaining = some (remaining.idxOf horse) ↔
      total weightOf (remaining.take (remaining.idxOf horse)) / total weightOf remaining ≤ sample ∧
        sample < total weightOf (remaining.take (remaining.idxOf horse)) / total weightOf remaining +
          weightOf horse / total weightOf remaining := by
  have whole := WeightedDraw.total_pos drawable.weights (List.ne_nil_of_mem inRemaining)
  have within := List.idxOf_lt_length_of_mem inRemaining
  rw [WeightedDraw.drawIndex_eq_some_iff drawable.weights (by positivity) within,
    List.getElem_idxOf, div_le_iff₀ whole, ← add_div, lt_div_iff₀ whole]

theorem Drawable.erase {remaining : List RacingHorse} (drawable : Drawable remaining) (horse : RacingHorse) :
    Drawable (remaining.erase horse) :=
  ⟨fun other inRest => drawable.positive other (List.mem_of_mem_erase inRest),
    drawable.distinct.sublist (List.erase_sublist.map _)⟩

/-- The draw yields an order exactly for the numbers in the order's box. -/
theorem drawPlaces_eq_iff {remaining order : List RacingHorse} (drawable : Drawable remaining)
    (isOrder : order.Perm remaining) {random : Nat → ℚ}
    (samples : ∀ counter, 0 ≤ random counter ∧ random counter < 1) (counter : Nat) :
    drawPlaces random order.length counter remaining = order.map (·.id) ↔
      InBox random counter (drawBox remaining order) := by
  induction order generalizing remaining counter with
  | nil => simp [drawPlaces, drawBox, InBox]
  | cons first rest ih =>
    have placed := List.cons_perm_iff_perm_erase.mp isOrder
    have whole := WeightedDraw.total_pos drawable.weights (List.ne_nil_of_mem placed.1)
    obtain ⟨index, within, drawn⟩ := WeightedDraw.drawIndex_of_lt_total
      (mul_lt_of_lt_one_left whole (samples counter).2)
      (mul_nonneg (samples counter).1 whole.le)
    have top : ((remaining.drop index).take 1).map (·.id) = [remaining[index].id] := by
      rw [List.drop_eq_getElem_cons within]
      rfl
    have interval := drawIndex_eq_idxOf_iff drawable placed.1 (samples counter).1
    rw [drawn, Option.some_inj] at interval
    have chosen : index = remaining.idxOf first ↔ remaining[index].id = first.id := by
      rw [drawable.same_id (List.getElem_mem within) placed.1]
      constructor
      · rintro rfl
        exact List.getElem_idxOf within
      · rintro rfl
        exact (drawable.nodup.idxOf_getElem index within).symm
    rw [List.length_cons, drawPlaces, drawn, Option.getD_some, top, List.map_cons,
      List.singleton_append, List.cons.injEq, ← chosen, drawBox, InBox, ← interval]
    apply and_congr_right
    rintro rfl
    rw [← List.erase_eq_eraseIdx_of_idxOf rfl]
    exact ih (drawable.erase first) placed.2 (counter + 1)

/-- The share of the races that run in a scenario. -/
def HorseRaceScenario.share (scenario : HorseRaceScenario) : ℚ :=
  scenario.numerator / scenario.denominator

/-- Every outcome of a race with the intervals of the numbers that lead to it; the first
    number selects the scenario. -/
def raceBoxes : ℚ → List HorseRaceScenario → List (List String × List (ℚ × ℚ))
  | _, [] => []
  | low, scenario :: rest =>
    scenario.horses.permutations'.map (fun order =>
      (order.map (·.id), (low, scenario.share) :: drawBox scenario.horses order)) ++
      raceBoxes (low + scenario.share) rest

/-- Whatever the numbers are, they draw an order. -/
theorem exists_inBox {remaining : List RacingHorse} (drawable : Drawable remaining)
    {random : Nat → ℚ} (samples : ∀ counter, 0 ≤ random counter ∧ random counter < 1) (counter : Nat) :
    ∃ order, order.Perm remaining ∧ InBox random counter (drawBox remaining order) := by
  induction size : remaining.length generalizing remaining counter with
  | zero =>
    rw [List.length_eq_zero_iff.mp size]
    exact ⟨[], .refl [], trivial⟩
  | succ places ih =>
    have whole := WeightedDraw.total_pos drawable.weights (List.length_pos_iff.mp (by omega))
    obtain ⟨index, within, drawn⟩ := WeightedDraw.drawIndex_of_lt_total
      (mul_lt_of_lt_one_left whole (samples counter).2)
      (mul_nonneg (samples counter).1 whole.le)
    have inRemaining := List.getElem_mem within
    obtain ⟨rest, isRest, inBox⟩ := ih (drawable.erase remaining[index]) (counter + 1)
      (by rw [List.length_erase_of_mem inRemaining, size, Nat.add_sub_cancel])
    refine ⟨remaining[index] :: rest, List.cons_perm_iff_perm_erase.mpr ⟨inRemaining, isRest⟩, ?_, inBox⟩
    rw [← drawIndex_eq_idxOf_iff drawable inRemaining (samples counter).1, drawn,
      drawable.nodup.idxOf_getElem index within]

/-- From `low` on, the boxes leave no number out. -/
theorem exists_raceBox {scenarios : List HorseRaceScenario}
    (drawable : ∀ scenario ∈ scenarios, Drawable scenario.horses) {random : Nat → ℚ}
    (samples : ∀ counter, 0 ≤ random counter ∧ random counter < 1) {low : ℚ} (above : low ≤ random 0)
    (below : random 0 < low + (scenarios.map (·.share)).sum) :
    ∃ outcome ∈ raceBoxes low scenarios, InBox random 0 outcome.2 := by
  induction scenarios generalizing low with
  | nil =>
    rw [List.map_nil, List.sum_nil, add_zero] at below
    exact absurd above (not_le.mpr below)
  | cons scenario rest ih =>
    rw [List.map_cons, List.sum_cons, ← add_assoc] at below
    rcases lt_or_ge (random 0) (low + scenario.share) with here | later
    · obtain ⟨order, isOrder, inBox⟩ := exists_inBox (drawable scenario List.mem_cons_self) samples 1
      exact ⟨_, List.mem_append_left _ (List.mem_map_of_mem (List.mem_permutations'.mpr isOrder)),
        ⟨above, here⟩, inBox⟩
    · obtain ⟨outcome, inBoxes, inBox⟩ := ih
        (fun other inRest => drawable other (List.mem_cons_of_mem scenario inRest)) later below
      exact ⟨outcome, List.mem_append_right _ inBoxes, inBox⟩

theorem low_le_of_raceBox {scenarios : List HorseRaceScenario}
    (shares : ∀ scenario ∈ scenarios, 0 ≤ scenario.share) {low : ℚ} {random : Nat → ℚ}
    {outcome : List String × List (ℚ × ℚ)} (inBoxes : outcome ∈ raceBoxes low scenarios)
    (inBox : InBox random 0 outcome.2) : low ≤ random 0 := by
  induction scenarios generalizing low with
  | nil => exact absurd inBoxes List.not_mem_nil
  | cons scenario rest ih =>
    rcases List.mem_append.mp inBoxes with here | later
    · obtain ⟨order, _, rfl⟩ := List.mem_map.mp here
      exact inBox.1.1
    · have share := shares scenario List.mem_cons_self
      have above := ih (fun other inRest => shares other (List.mem_cons_of_mem scenario inRest)) later
      linarith

/-- The first number of a box selects its scenario. -/
theorem selected_of_raceBox {scenarios : List HorseRaceScenario}
    (shares : ∀ scenario ∈ scenarios, 0 ≤ scenario.share) {low : ℚ} {random : Nat → ℚ}
    {outcome : List String × List (ℚ × ℚ)} (inBoxes : outcome ∈ raceBoxes low scenarios)
    (inBox : InBox random 0 outcome.2) :
    ∃ scenario ∈ scenarios, selectHorseRaceScenario scenarios (random 0 - low) = some scenario ∧
      ∃ order, order.Perm scenario.horses ∧ outcome.1 = order.map (·.id) ∧
        InBox random 1 (drawBox scenario.horses order) := by
  induction scenarios generalizing low with
  | nil => exact absurd inBoxes List.not_mem_nil
  | cons scenario rest ih =>
    have restShares := fun other inRest => shares other (List.mem_cons_of_mem scenario inRest)
    rcases List.mem_append.mp inBoxes with here | later
    · obtain ⟨order, inOrders, rfl⟩ := List.mem_map.mp here
      refine ⟨scenario, List.mem_cons_self, ?_, order, List.mem_permutations'.mp inOrders, rfl, inBox.2⟩
      have below : random 0 - low - scenario.share < 0 := by linarith [inBox.1.2]
      cases rest with
      | nil => rfl
      | cons next others => exact if_pos below
    · obtain ⟨other, inRest, selected, drawn⟩ := ih restShares later
      refine ⟨other, List.mem_cons_of_mem scenario inRest, ?_, drawn⟩
      have above := low_le_of_raceBox restShares later inBox
      cases rest with
      | nil => exact absurd inRest List.not_mem_nil
      | cons next others =>
        have reached : ¬random 0 - low - scenario.share < 0 := by linarith
        rw [sub_add_eq_sub_sub] at selected
        exact (if_neg reached).trans selected

/-- The boxes of the orders in which an event happens are as large together as its chance. -/
theorem raceBoxes_volume (scenarios : List HorseRaceScenario) (low : ℚ) (event : List String → Bool) :
    (((raceBoxes low scenarios).filter fun outcome => event outcome.1).map fun outcome =>
        (outcome.2.map (·.2)).prod).sum =
      (scenarios.map fun scenario => (scenario.numerator / scenario.denominator : ℚ) *
        WeightedDraw.chance weightOf scenario.horses fun order => event (order.map (·.id))).sum := by
  induction scenarios generalizing low with
  | nil => rfl
  | cons scenario rest ih =>
    rw [raceBoxes, List.filter_append, List.map_append, List.sum_append, ih, List.map_cons,
      List.sum_cons, List.filter_map, List.map_map, WeightedDraw.chance, ← List.sum_map_mul_left]
    congr 2
    apply List.map_congr_left
    intro order inOrders
    have isOrder := List.mem_permutations'.mp (List.mem_of_mem_filter inOrders)
    simp only [Function.comp_apply, List.map_cons, List.prod_cons, drawBox_volume isOrder]
    rfl

end PlatformClaw.HorseRacing
