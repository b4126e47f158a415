import PlatformClaw.Library.Guarded
import PlatformClaw.Library.ScriptNumber
import PlatformClaw.Library.ScriptString

/-! # Horse racing contracts

Markets, limits and errors, and the selection text under which a ticket is stored.
-/

namespace PlatformClaw.HorseRacing

open Except (ensure)

def HORSE_RACING_JOKER_ID : String := "6"
def HORSE_RACING_MIN_BET_GOLD : Int := 50
def HORSE_RACING_MAX_BET_GOLD : Int := 1000
def HORSE_RACING_FEE_PERCENT : Int := 3

inductive HorseBetMarket where
  | win
  | quinella
  | quinellaPlace
  deriving Repr, DecidableEq

structure HorseRacingError where
  code : String
  message : String
  deriving Repr, DecidableEq

/-- A horse as drawing and pricing see it. -/
structure RacingHorse where
  id : String
  weight : Int
  deriving Repr, DecidableEq

/-- How many horses a ticket of the market names. -/
def HorseBetMarket.horses : HorseBetMarket → Nat
  | .win => 1
  | .quinella | .quinellaPlace => 2

/-- The ids that match `/^[1-6]$/`. -/
def horseIds : List String := ["1", "2", "3", "4", "5", "6"]

def canonicalSelection (market : HorseBetMarket) (selection : List String) : Except HorseRacingError String := do
  ensure (selection.length = market.horses ∧ (∀ id ∈ selection, id ∈ horseIds) ∧ selection.Nodup)
    ⟨"invalid_selection", "단승은 말 1마리, 복승·복연승은 서로 다른 말 2마리를 선택하세요."⟩
  return ScriptString.join ',' (ScriptString.toSorted selection)

/-- Whether settlement pays a ticket, given its selection text and the order of the race. -/
def settlementPays (market : HorseBetMarket) (selection : String) (order : List String) : Bool :=
  match market with
  | .win => order.head? = some selection
  | .quinella => selection = ScriptString.join ',' (ScriptString.toSorted (order.take 2))
  | .quinellaPlace =>
    (ScriptString.split ',' selection).all fun horseId => horseId ∈ order.take 3

end PlatformClaw.HorseRacing
