import PlatformClaw.HorseRacing.Contracts
import PlatformClaw.Library.WeightedDraw

/-! # Quotes and draws

The exact pricing of a ticket and the weighted draw of a finish order, both over
the scenarios of the joker's hidden form. Fractions are integers as in the
source; the decimal odds that are only displayed are left out.
-/

namespace PlatformClaw.HorseRacing

open Except (ensure)
open ScriptNumber (isSafeInteger maxSafeInteger)

inductive JokerForm where
  | cold
  | hot
  deriving Repr, DecidableEq

structure HorseRaceScenario where
  numerator : Int
  denominator : Int
  horses : List RacingHorse
  jokerForm : Option JokerForm
  deriving Repr, DecidableEq

def withJokerWeight (jokerWeight : Int) (horses : List RacingHorse) : List RacingHorse :=
  horses.map fun horse =>
    { id := horse.id
      weight := if horse.id = HORSE_RACING_JOKER_ID then jokerWeight else horse.weight }

def horseRaceScenarios (horses : List RacingHorse) : List HorseRaceScenario :=
  if horses.any fun horse => horse.id = HORSE_RACING_JOKER_ID then
    [{ numerator := 2231, denominator := 2375, horses := withJokerWeight 1 horses,
       jokerForm := some .cold },
     { numerator := 144, denominator := 2375, horses := withJokerWeight 96 horses,
       jokerForm := some .hot }]
  else [{ numerator := 1, denominator := 1, horses, jokerForm := none }]

/-- `(a.id < b.id ? -1 : …)`: by code unit. -/
def canonicalHorses (horses : List RacingHorse) : List RacingHorse :=
  horses.mergeSort fun left right =>
    ScriptString.upTo (ScriptString.codeUnits left.id) (ScriptString.codeUnits right.id)

def weightOf (horse : RacingHorse) : ℚ := horse.weight

/-- The last scenario catches a draw that no other one takes. -/
def selectHorseRaceScenario (scenarios : List HorseRaceScenario) (sample : ℚ) : Option HorseRaceScenario :=
  match scenarios with
  | [] => none
  | [last] => some last
  | scenario :: rest =>
    let draw := sample - scenario.numerator / scenario.denominator
    if draw < 0 then some scenario else selectHorseRaceScenario rest draw

/-- One draw for each place; `random` is the seeded sequence of numbers below one. -/
def drawPlaces (random : Nat → ℚ) : Nat → Nat → List RacingHorse → List String
  | 0, _, _ => []
  | places + 1, counter, remaining =>
    let draw := random counter * WeightedDraw.total weightOf remaining
    let index := (WeightedDraw.drawIndex weightOf draw remaining).getD (remaining.length - 1)
    ((remaining.drop index).take 1).map (·.id) ++ drawPlaces random places (counter + 1) (remaining.eraseIdx index)

def drawHorseFinishOrder (horses : List RacingHorse) (random : Nat → ℚ) : List String :=
  match selectHorseRaceScenario (horseRaceScenarios (canonicalHorses horses)) (random 0) with
  | none => []
  | some scenario => drawPlaces random scenario.horses.length 1 scenario.horses

structure ProbabilityFraction where
  numerator : Int
  denominator : Int
  deriving Repr, DecidableEq

/-- The loop of `reduceFraction`; the remainder shrinks. -/
def commonDivisor (divisor remainder : Int) : Int :=
  if remainder = 0 then divisor else commonDivisor remainder (divisor.tmod remainder)
termination_by remainder.natAbs
decreasing_by
  rw [Int.natAbs_tmod]
  exact Nat.mod_lt _ (by omega)

def reduceFraction (numerator denominator : Int) : ProbabilityFraction where
  numerator := numerator.tdiv (commonDivisor denominator numerator)
  denominator := denominator.tdiv (commonDivisor denominator numerator)

def addFractions (left right : ProbabilityFraction) : ProbabilityFraction :=
  reduceFraction (left.numerator * right.denominator + right.numerator * left.denominator)
    (left.denominator * right.denominator)

/-- One ordered top three: it counts if it holds the whole selection. -/
def addThird (selection : List String) (total : Int) (first second : RacingHorse)
    (probability : ProbabilityFraction) (third : RacingHorse) : ProbabilityFraction :=
  if third.id = first.id ∨ third.id = second.id ∨
      ¬∀ id ∈ selection, id = first.id ∨ id = second.id ∨ id = third.id then probability
  else
    addFractions probability
      { numerator := first.weight * second.weight * third.weight
        denominator := total * (total - first.weight) * (total - first.weight - second.weight) }

def addSecond (horses : List RacingHorse) (selection : List String) (total : Int)
    (first : RacingHorse) (probability : ProbabilityFraction) (second : RacingHorse) :
    ProbabilityFraction :=
  if second.id = first.id then probability
  else horses.foldl (addThird selection total first second) probability

def topThreePairProbability (horses : List RacingHorse) (selection : List String) (total : Int) :
    ProbabilityFraction :=
  horses.foldl (fun probability first =>
    horses.foldl (addSecond horses selection total first) probability)
    { numerator := 0, denominator := 1 }

def totalWeight (horses : List RacingHorse) : Int :=
  horses.foldl (fun sum horse => sum + horse.weight) 0

/-- What one scenario contributes before it is mixed. -/
def branchProbability (market : HorseBetMarket) (horses : List RacingHorse)
    (selection : List String) : ProbabilityFraction :=
  let total := totalWeight horses
  let scenarioSelection := horses.filter fun horse => horse.id ∈ selection
  let product := scenarioSelection.foldl (fun product horse => product * horse.weight) 1
  match market with
  | .win => { numerator := product, denominator := total }
  | .quinella =>
    { numerator := product * (2 * total - totalWeight scenarioSelection)
      denominator := total *
        scenarioSelection.foldl (fun product horse => product * (total - horse.weight)) 1 }
  | .quinellaPlace => topThreePairProbability horses selection total

/-- The exact probability that `quoteHorseBet` computes. -/
def horseBetProbability (market : HorseBetMarket) (horses : List RacingHorse)
    (selection : List String) : ProbabilityFraction :=
  (horseRaceScenarios horses).foldl (fun probability scenario =>
    let branch := branchProbability market scenario.horses selection
    addFractions probability
      { numerator := branch.numerator * scenario.numerator
        denominator := branch.denominator * scenario.denominator })
    { numerator := 0, denominator := 1 }

def quoteHorsePayout (quote : ProbabilityFraction) (amount : Int) : Except HorseRacingError Int := do
  ensure (isSafeInteger amount ∧ 1 ≤ amount)
    ⟨"invalid_bet", "베팅금은 1G 이상의 안전한 정수여야 합니다."⟩
  ensure (0 < quote.numerator ∧ 0 < quote.denominator)
    ⟨"invalid_quote", "확정 배당 정보가 유효하지 않습니다."⟩
  let payout := (amount * quote.numerator).tdiv quote.denominator
  ensure (payout ≤ maxSafeInteger) ⟨"invalid_bet", "예상 지급액이 포인트 정수 범위를 초과합니다."⟩
  return payout

/-- The roster check of `quoteHorseBet`. -/
def ValidRoster (horses : List RacingHorse) : Prop :=
  (∀ horse ∈ horses, isSafeInteger horse.weight ∧ 0 < horse.weight) ∧ (horses.map (·.id)).Nodup

instance (horses : List RacingHorse) : Decidable (ValidRoster horses) :=
  inferInstanceAs (Decidable (_ ∧ _))

/-- The selection check of `quoteHorseBet`. -/
def ValidSelection (horses : List RacingHorse) (market : HorseBetMarket) (selection : List String) : Prop :=
  selection.length = market.horses ∧ (horses.filter fun horse => horse.id ∈ selection).length = selection.length

instance (horses : List RacingHorse) (market : HorseBetMarket) (selection : List String) :
    Decidable (ValidSelection horses market selection) :=
  inferInstanceAs (Decidable (_ ∧ _))

structure HorseBetQuote where
  probability : ProbabilityFraction
  potentialPayout : Int
  /-- The multiplier with the fee taken off, principal included. -/
  multiplier : ProbabilityFraction
  deriving Repr, DecidableEq

def quoteHorseBet (horses : List RacingHorse) (market : HorseBetMarket) (selection : List String)
    (amount : Int) : Except HorseRacingError HorseBetQuote := do
  ensure (isSafeInteger amount ∧ HORSE_RACING_MIN_BET_GOLD ≤ amount ∧ amount ≤ HORSE_RACING_MAX_BET_GOLD)
    ⟨"invalid_bet", "베팅금은 50~1000G 정수여야 합니다."⟩
  ensure (ValidRoster horses) ⟨"invalid_roster", "출전마 확률 정보가 유효하지 않습니다."⟩
  ensure (ValidSelection horses market selection)
    ⟨"invalid_selection", "단승은 출전마 1마리, 복승·복연승은 서로 다른 출전마 2마리를 선택하세요."⟩
  ensure (market ≠ .quinellaPlace ∨ 3 ≤ horses.length)
    ⟨"invalid_roster", "복연승은 출전마가 3마리 이상인 경주에서 선택하세요."⟩
  let probability := horseBetProbability market horses selection
  let multiplier := reduceFraction
    (probability.denominator * (100 - HORSE_RACING_FEE_PERCENT)) (probability.numerator * 100)
  let potentialPayout ← quoteHorsePayout multiplier amount
  return { probability, potentialPayout, multiplier }

/-- `horses.flatMap((horse, index) => horses.slice(index + 1).map(…))`. -/
def selectionPairs : List RacingHorse → List (List String)
  | [] => []
  | horse :: rest => (rest.map fun other => [horse.id, other.id]) ++ selectionPairs rest

/-- The selections of a market for which a race publishes quotes. -/
def marketSelections (horses : List RacingHorse) : HorseBetMarket → List (List String)
  | .win => horses.map fun horse => [horse.id]
  | .quinella | .quinellaPlace => selectionPairs horses

end PlatformClaw.HorseRacing
