import PlatformClaw.Library.ScriptMap
import PlatformClaw.Library.ScriptSet
import PlatformClaw.Library.ScriptString
import Mathlib.Algebra.GroupWithZero.Nat

/-! # Command lanes and their capacity groups

A lane is an object of the script: the registry has it under the lane's name,
and a task that was started on it keeps hold of it after the registry has let it
go. A group shares a budget among its members and reserves part of it for some
of them; what its members use is always counted from their active tasks.
-/

namespace PlatformClaw.Lanes

structure QueueEntry where
  sequence : Nat
  priority : Int
  deriving Repr, DecidableEq

structure LaneState where
  lane : String
  queue : List QueueEntry
  activeTaskIds : List Nat
  maxConcurrent : Nat
  draining : Bool
  generation : Nat
  deriving Repr, DecidableEq

structure LaneGroupState where
  group : String
  budget : Nat
  members : ScriptSet
  reservations : ScriptMap Nat

structure QueueState where
  /-- The lane objects by their identity, those the registry has let go included. -/
  heap : Nat → LaneState
  nextObject : Nat
  /-- The registry. -/
  lanes : ScriptMap Nat
  groups : ScriptMap LaneGroupState
  groupByLane : ScriptMap String
  nextTaskId : Nat
  nextQueueSequence : Nat

def mainLane : String := "main"

def normalizeLane (lane : String) : String :=
  if ScriptString.trim lane = "" then mainLane else ScriptString.trim lane

def startsWith (lane first : String) : Bool := first.toList.isPrefixOf lane.toList

def isQuietProbeLane (lane : String) : Bool :=
  startsWith lane "auth-probe:" || startsWith lane "session:probe-" ||
    startsWith lane "session:temp:setup-inference:probe-setup-inference-"

/-- The lanes that come and go with their work. -/
def isScopedLane (lane : String) : Bool :=
  startsWith lane "session:" || startsWith lane "nested:" ||
    startsWith lane "context-engine-turn-maintenance:"

def groupIneligibleLanes : List String := ["cron", "main", "subagent", "nested"]

namespace QueueState

def setObject (state : QueueState) (object : Nat) (lane : LaneState) : QueueState :=
  { state with heap := fun other => if other = object then lane else state.heap other }

/-- The object of a lane that the registry has. -/
def laneAt (state : QueueState) (lane : String) : Option LaneState :=
  (state.lanes.get lane).map state.heap

/-- Make the lane if the registry does not have it. -/
def ensureLane (state : QueueState) (lane : String) : QueueState :=
  if state.lanes.has lane then state
  else
    { state.setObject state.nextObject
        { lane, queue := [], activeTaskIds := [], maxConcurrent := 1, draining := false,
          generation := 0 } with
      nextObject := state.nextObject + 1
      lanes := state.lanes.set lane state.nextObject }

def objectOf (state : QueueState) (lane : String) : Nat := (state.lanes.get lane).getD 0

def getLaneGroup (state : QueueState) (lane : String) : Option LaneGroupState :=
  (state.groupByLane.get lane).bind state.groups.get

/-- Active tasks of a group member, without making the lane. -/
def getMemberActiveCount (state : QueueState) (lane : String) : Nat :=
  ((state.laneAt lane).map fun found => found.activeTaskIds.length).getD 0

def groupActive (state : QueueState) (group : LaneGroupState) : Nat :=
  (group.members.rows.map state.getMemberActiveCount).sum

def reservation (group : LaneGroupState) (member : String) : Nat :=
  (group.reservations.get member).getD 0

/-- The unused part of a member's reservation. -/
def unfilled (state : QueueState) (group : LaneGroupState) (member : String) : Nat :=
  reservation group member - state.getMemberActiveCount member

def siblingReserveHeld (state : QueueState) (group : LaneGroupState) (lane : String) : Nat :=
  ((group.members.rows.filter fun member => member ≠ lane).map (state.unfilled group)).sum

end QueueState

inductive CommandLaneBlockReason where
  | lane
  | groupBudget
  | siblingReservation
  deriving Repr, DecidableEq

namespace QueueState

/-- Why a lane cannot admit another task, or nothing if it can. -/
def resolveLaneBlockReason (state : QueueState) (lane : String) : Option CommandLaneBlockReason :=
  if (state.laneAt lane).any fun found => found.maxConcurrent ≤ found.activeTaskIds.length then
    some .lane
  else
    match state.getLaneGroup lane with
    | none => none
    | some group =>
      if group.budget ≤ state.groupActive group then some .groupBudget
      else if state.getMemberActiveCount lane < reservation group lane then none
      else if state.groupActive group + state.siblingReserveHeld group lane < group.budget then none
      else some .siblingReservation

def canAdmitInGroup (state : QueueState) (lane : String) : Bool :=
  state.resolveLaneBlockReason lane = none || state.resolveLaneBlockReason lane = some .lane

/-- Install a validated group, detaching its members from any previous owner. -/
def installCommandLaneGroup (state : QueueState) (next : LaneGroupState) : QueueState :=
  let detached := match state.groups.get next.group with
    | some previous => previous.members.rows.foldl ScriptMap.remove state.groupByLane
    | none => state.groupByLane
  let groups := next.members.rows.foldl (fun groups member =>
    match detached.get member with
    | some owner =>
      if owner = next.group then groups
      else
        match groups.get owner with
        | some group => groups.set owner { group with members := group.members.remove member }
        | none => groups
    | none => groups) state.groups
  { state with
    groups := groups.set next.group next
    groupByLane := next.members.rows.foldl (fun owners member => owners.set member next.group) detached }

def clearCommandLaneGroup (state : QueueState) (group : String) : QueueState :=
  match state.groups.get group with
  | none => state
  | some existing =>
    { state with
      groups := state.groups.remove group
      groupByLane := existing.members.rows.foldl ScriptMap.remove state.groupByLane }

end QueueState

/-- A group as it is asked for: budget, members, reservations. -/
structure CommandLaneGroupSpec where
  budget : Int
  members : List String
  reservations : List (String × Int)

/-- A count as the queue keeps it. -/
def counted (number : Int) : Nat := number.toNat

/-- Nothing if the group is refused. -/
def validateCommandLaneGroupSpec (group : String) (spec : CommandLaneGroupSpec) : Option LaneGroupState :=
  let members := spec.members.map normalizeLane
  let reservations : ScriptMap Nat := spec.reservations.foldl (fun reservations entry =>
    reservations.set (normalizeLane entry.1) (counted entry.2)) ScriptMap.empty
  let reservedTotal := (spec.reservations.map fun entry => counted entry.2).sum
  if members.any (fun member => groupIneligibleLanes.contains member || isScopedLane member) then none
  else if spec.reservations.any fun entry => !members.contains (normalizeLane entry.1) then none
  else if counted spec.budget < reservedTotal then none
  else some { group, budget := counted spec.budget, members := ScriptSet.ofList members, reservations }

end PlatformClaw.Lanes
