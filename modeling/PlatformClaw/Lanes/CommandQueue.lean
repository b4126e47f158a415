import PlatformClaw.Lanes.QueueState
import PlatformClaw.Library.Machine

/-! # The command queue

What callers do with the queue. Starting a task is synchronous, its end is an
event of its own; every other operation runs to its end before the next one. The
log of starts and settled promises only records what happened.
-/

namespace PlatformClaw.Lanes

/-- A task that was started and has not ended: what its completion keeps hold of. -/
structure RunningTask where
  taskId : Nat
  entry : QueueEntry
  lane : String
  object : Nat
  generation : Nat
  deriving Repr, DecidableEq

inductive Settlement where
  | resolved
  | rejected
  /-- Rejected because the lane was cleared. -/
  | cleared
  deriving Repr, DecidableEq

structure Start where
  /-- The queue when the task was started, its entry still in front. -/
  before : QueueState
  task : RunningTask

structure World where
  queue : QueueState
  running : List RunningTask
  started : List Start
  /-- Promises by the sequence number of their entry. -/
  settled : List (Nat × Settlement)

def World.onQueue (world : World) (change : QueueState → QueueState) : World :=
  { world with queue := change world.queue }

namespace QueueState

def insertEntry (entry : QueueEntry) : List QueueEntry → List QueueEntry
  | [] => [entry]
  | queued :: rest =>
    if queued.priority < entry.priority ∨
        (queued.priority = entry.priority ∧ entry.sequence < queued.sequence) then
      entry :: queued :: rest
    else queued :: insertEntry entry rest

def updateObject (state : QueueState) (object : Nat) (change : LaneState → LaneState) : QueueState :=
  state.setObject object (change (state.heap object))

def retireIdleScopedCommandLane (state : QueueState) (object : Nat) : QueueState :=
  let lane := state.heap object
  if lane.draining || !lane.activeTaskIds.isEmpty || !lane.queue.isEmpty || lane.maxConcurrent ≠ 1 ||
      !isScopedLane lane.lane then state
  else if state.lanes.get lane.lane = some object then
    { state with lanes := state.lanes.remove lane.lane }
  else state

end QueueState

namespace World

/-- The condition of the pump's loop. -/
def canStart (world : World) (lane : String) (object : Nat) : Bool :=
  (world.queue.heap object).activeTaskIds.length < (world.queue.heap object).maxConcurrent &&
    !(world.queue.heap object).queue.isEmpty && world.queue.canAdmitInGroup lane

/-- Take the first entry off the queue and start its task. -/
def startNext (world : World) (lane : String) (object : Nat) : World :=
  match (world.queue.heap object).queue with
  | [] => world
  | entry :: rest =>
    let task : RunningTask :=
      { taskId := world.queue.nextTaskId, entry, lane, object
        generation := (world.queue.heap object).generation }
    { world with
      queue := { world.queue.updateObject object fun state =>
          { state with queue := rest, activeTaskIds := state.activeTaskIds ++ [task.taskId] } with
        nextTaskId := world.queue.nextTaskId + 1 }
      running := world.running ++ [task]
      started := world.started ++ [⟨world.queue, task⟩] }

/-- Every round takes an entry off, so as many rounds as there are entries are enough. -/
def pumpRounds (lane : String) (object : Nat) : Nat → World → World
  | 0, world => world
  | rounds + 1, world =>
    if world.canStart lane object then pumpRounds lane object rounds (world.startNext lane object)
    else world

def pump (world : World) (lane : String) (object : Nat) : World :=
  (pumpRounds lane object (world.queue.heap object).queue.length world).onQueue fun queue =>
    (queue.updateObject object fun state =>
      { state with draining := false }).retireIdleScopedCommandLane object

def drainLane (world : World) (lane : String) : World :=
  let made := world.onQueue fun queue => queue.ensureLane lane
  let object := made.queue.objectOf lane
  if (made.queue.heap object).draining then made
  else
    (made.onQueue fun queue =>
      queue.updateObject object fun state => { state with draining := true }).pump lane object

/-- Drain a lane that the registry has, that has queued work and is not draining. -/
def drainMember (world : World) (lane : String) : World :=
  match world.queue.laneAt lane with
  | some state => if !state.queue.isEmpty && !state.draining then world.drainLane lane else world
  | none => world

def drainMembers (world : World) (lanes : List String) : World :=
  lanes.foldl drainMember world

def drainGroupSiblings (world : World) (lane : String) : World :=
  match world.queue.getLaneGroup lane with
  | none => world
  | some group => world.drainMembers (group.members.rows.filter fun member => member ≠ lane)

inductive Priority where
  | foreground
  | normal
  | background
  deriving Repr, DecidableEq

def resolveQueuePriority : Priority → Int
  | .foreground => 1
  | .normal => 0
  | .background => -1

/-- Admission closed means that the enqueued promise is rejected at once and nothing is queued. -/
def enqueueCommandInLane (world : World) (rawLane : String) (priority : Priority) (admissionClosed : Bool) : World :=
  if admissionClosed then world
  else
    let lane := normalizeLane rawLane
    let made := world.onQueue fun queue => queue.ensureLane lane
    let entry : QueueEntry :=
      { sequence := world.queue.nextQueueSequence, priority := resolveQueuePriority priority }
    let queued := made.onQueue fun queue =>
      { queue.updateObject (queue.objectOf lane) fun state =>
          { state with queue := QueueState.insertEntry entry state.queue } with
        nextQueueSequence := queue.nextQueueSequence + 1 }
    queued.drainLane lane

/-- The end of a started task: success, or failure by an error or a timeout. -/
def endTask (world : World) (task : RunningTask) (succeeded : Bool) : World :=
  let ended := { world with running := world.running.erase task }
  let released :=
    if task.generation = (ended.queue.heap task.object).generation then
      ((ended.onQueue fun queue => queue.updateObject task.object fun state =>
        { state with activeTaskIds := state.activeTaskIds.filter (· ≠ task.taskId) }).pump
          task.lane task.object).drainGroupSiblings task.lane
    else ended
  { released with
    settled := released.settled ++
      [(task.entry.sequence, if succeeded then .resolved else .rejected)] }

def clearCommandLane (world : World) (rawLane : String) : World :=
  match world.queue.lanes.get (normalizeLane rawLane) with
  | none => world
  | some object =>
    { world.onQueue fun queue => queue.updateObject object fun state => { state with queue := [] } with
      settled := world.settled ++
        (world.queue.heap object).queue.map fun entry => (entry.sequence, .cleared) }

def reset (state : LaneState) : LaneState :=
  { state with generation := state.generation + 1, activeTaskIds := [], draining := false }

def resetCommandLane (world : World) (rawLane : String) : World :=
  let lane := normalizeLane rawLane
  match world.queue.lanes.get lane with
  | none => world
  | some object =>
    let idle := world.onQueue fun queue => queue.updateObject object reset
    let drained := if (idle.queue.heap object).queue.isEmpty then idle else idle.drainLane lane
    drained.drainGroupSiblings lane

def resetAllLanes (world : World) : World :=
  let idle := world.onQueue fun queue =>
    queue.lanes.rows.foldl (fun queue entry => queue.updateObject entry.2 reset) queue
  let lanesToDrain := idle.queue.lanes.rows.filterMap fun entry =>
    if (idle.queue.heap entry.2).queue.isEmpty then none else some (idle.queue.heap entry.2).lane
  lanesToDrain.foldl drainLane idle

def widthOf (lane : String) (maxConcurrent : Int) : Nat :=
  max (if isQuietProbeLane lane then 1 else 0) (counted maxConcurrent)

def setWidth (queue : QueueState) (lane : String) (maxConcurrent : Int) : QueueState :=
  (queue.ensureLane lane).updateObject ((queue.ensureLane lane).objectOf lane) fun state =>
    { state with maxConcurrent := widthOf lane maxConcurrent }

def setCommandLaneConcurrency (world : World) (rawLane : String) (maxConcurrent : Int) : World :=
  let lane := normalizeLane rawLane
  let changed := world.onQueue fun queue => setWidth queue lane maxConcurrent
  if 0 < widthOf lane maxConcurrent then changed.drainLane lane else changed

end World

/-- Lane widths, groups to define, groups to remove, as one transaction. The callers name their
    groups by constants, so the name is never the empty text that the registry reads as none. -/
structure LaneConfiguration where
  lanes : List (String × Int)
  groups : List (String × CommandLaneGroupSpec)
  clearGroups : List String
  named : ∀ entry ∈ groups, entry.1 ≠ ""

namespace World

def validated (config : LaneConfiguration) : Option (List LaneGroupState) :=
  config.groups.mapM fun entry => validateCommandLaneGroupSpec entry.1 entry.2

/-- The lanes whose drains are due when the transaction commits. -/
def touched (queue : QueueState) (config : LaneConfiguration) (groups : List LaneGroupState) : ScriptSet :=
  let widened := ScriptSet.ofList (config.lanes.map fun entry => normalizeLane entry.1)
  let cleared := config.clearGroups.foldl (fun acc name =>
    (acc.1.clearCommandLaneGroup name, acc.2.addAll (((acc.1.groups.get name).map fun existing =>
      existing.members.rows).getD []))) (queue, widened)
  groups.foldl (fun touched group => touched.addAll group.members.rows) cleared.2

/-- Nothing starts while the state is installed. -/
def installConfiguration (queue : QueueState) (config : LaneConfiguration)
    (groups : List LaneGroupState) : QueueState :=
  let widened := config.lanes.foldl (fun queue entry =>
    setWidth queue (normalizeLane entry.1) entry.2) queue
  let cleared := config.clearGroups.foldl QueueState.clearCommandLaneGroup widened
  groups.foldl QueueState.installCommandLaneGroup cleared

def commitDrain (world : World) (lane : String) : World :=
  match world.queue.laneAt lane with
  | some state =>
    if 0 < state.maxConcurrent && !state.queue.isEmpty && !state.draining then world.drainLane lane
    else world
  | none => world

/-- A configuration that is refused changes nothing. -/
def publishLaneConfiguration (world : World) (config : LaneConfiguration) : World :=
  match validated config with
  | none => world
  | some groups =>
    (touched world.queue config groups).rows.foldl commitDrain
      (world.onQueue fun queue => installConfiguration queue config groups)

end World

inductive QueueOperation where
  | enqueue (lane : String) (priority : World.Priority) (admissionClosed : Bool)
  /-- The task at a place among those running ends. -/
  | complete (place : Nat) (succeeded : Bool)
  | clear (lane : String)
  | reset (lane : String)
  | resetAll
  | setConcurrency (lane : String) (maxConcurrent : Int)
  | publish (config : LaneConfiguration)

def World.step (world : World) : QueueOperation → World
  | .enqueue lane priority admissionClosed => world.enqueueCommandInLane lane priority admissionClosed
  | .complete place succeeded =>
    match world.running[place]? with
    | none => world
    | some task => world.endTask task succeeded
  | .clear lane => world.clearCommandLane lane
  | .reset lane => world.resetCommandLane lane
  | .resetAll => world.resetAllLanes
  | .setConcurrency lane maxConcurrent => world.setCommandLaneConcurrency lane maxConcurrent
  | .publish config => world.publishLaneConfiguration config

def World.machine : Machine World QueueOperation := ⟨World.step⟩

def World.initial : World where
  queue :=
    { heap := fun _ => ⟨"", [], [], 1, false, 0⟩
      nextObject := 0
      lanes := ScriptMap.empty
      groups := ScriptMap.empty
      groupByLane := ScriptMap.empty
      nextTaskId := 1
      nextQueueSequence := 1 }
  running := []
  started := []
  settled := []

end PlatformClaw.Lanes
