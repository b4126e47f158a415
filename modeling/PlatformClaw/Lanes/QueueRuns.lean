import PlatformClaw.Lanes.Promises
import PlatformClaw.Lanes.StartOrder

/-! # Runs of the command queue

Every operation is a chain of effects and leaves no pump running, so the laws
hold after every run.
-/

namespace PlatformClaw.Lanes

open Relation QueueState World

/-- The laws that hold at every moment of every run. -/
structure Lawful (moment : Moment) : Prop where
  registry : moment.1.queue.Registry
  grouped : moment.1.queue.Grouped
  tasks : Tasks moment.1
  ordered : Ordered moment.1
  accounted : Accounted moment

theorem Effect.lawful {spared : String → Prop} {before after : Moment}
    (effect : Effect spared before after) (lawful : Lawful before) : Lawful after where
  registry := effect.registry lawful.registry
  grouped := effect.grouped lawful.grouped
  tasks := effect.tasks lawful.registry lawful.tasks
  ordered := effect.ordered lawful.registry lawful.ordered
  accounted := effect.accounted lawful.registry lawful.accounted

abbrev Effects (spared : String → Prop) : Moment → Moment → Prop := ReflTransGen (Effect spared)

theorem Effects.lawful {spared : String → Prop} {before after : Moment}
    (effects : Effects spared before after) (lawful : Lawful before) : Lawful after := by
  induction effects with
  | refl => exact lawful
  | tail _ effect ih => exact effect.lawful ih

theorem Drained.effects {spared : String → Prop} {before after : World}
    (drained : Drained before after) (owed : List Nat) :
    Effects spared (before, owed) (after, owed) := by
  have moves := drained.moves
  clear drained
  induction moves with
  | refl => exact .refl
  | tail _ move ih => exact .tail ih (.move move)

/-- An accepted configuration removes or defines the group. -/
def QueueOperation.Redefines : QueueOperation → String → Prop
  | .publish config, name => ∃ groups, validated config = some groups ∧
      (name ∈ config.clearGroups ∨ ∃ group ∈ groups, group.group = name)
  | _, _ => False

namespace World

variable {spared : String → Prop} {world : World} {owed : List Nat}

theorem Idle.of_update (idle : world.Idle) (object : Nat) (change : LaneState → LaneState)
    (keeps : ∀ found, found.draining = false → (change found).draining = false) :
    (world.onQueue fun queue => queue.updateObject object change).Idle := by
  intro other
  rw [queue_onQueue, heap_updateObject]
  split
  · exact keeps _ (idle object)
  · exact idle other

def withEntry (world : World) (lane : String) (priority : Priority) : World :=
  (world.onQueue fun queue => queue.ensureLane lane).onQueue fun queue =>
    { queue.updateObject (queue.objectOf lane) fun state => { state with
        queue := insertEntry ⟨queue.nextQueueSequence, resolveQueuePriority priority⟩ state.queue } with
      nextQueueSequence := queue.nextQueueSequence + 1 }

theorem enqueue_eq (world : World) (rawLane : String) (priority : Priority) :
    world.enqueueCommandInLane rawLane priority false =
      (world.withEntry (normalizeLane rawLane) priority).drainLane (normalizeLane rawLane) := by
  have sequence : (world.queue.ensureLane (normalizeLane rawLane)).nextQueueSequence =
      world.queue.nextQueueSequence := by
    unfold ensureLane
    split <;> rfl
  unfold enqueueCommandInLane withEntry
  rw [if_neg Bool.false_ne_true]
  simp only [World.onQueue, sequence]

theorem withEntry_effects (world : World) (lane : String) (priority : Priority) (owed : List Nat) :
    Effects spared (world, owed) (world.withEntry lane priority, owed) :=
  .head (.move (.make world lane)) (.single (.enqueue (world.queue.get_ensureLane lane) _))

theorem withEntry_idle (idle : world.Idle) (lane : String) (priority : Priority) :
    (world.withEntry lane priority).Idle := by
  have made := idle_ensureLane idle lane
  intro other
  exact made.of_update _ (fun state => { state with
    queue := insertEntry ⟨(world.queue.ensureLane lane).nextQueueSequence,
      resolveQueuePriority priority⟩ state.queue }) (fun _ still => still) other

/-- The ended task is taken from the active set of its lane. -/
def withoutTask (world : World) (task : RunningTask) : World :=
  ({ world with running := world.running.erase task } : World).onQueue fun queue =>
    queue.updateObject task.object fun state =>
      { state with activeTaskIds := state.activeTaskIds.filter (· ≠ task.taskId) }

def settlePromise (world : World) (task : RunningTask) (succeeded : Bool) : World :=
  { world with
    settled := world.settled ++
      [(task.entry.sequence, if succeeded then .resolved else .rejected)] }

theorem endTask_current {task : RunningTask}
    (current : task.generation = (world.queue.heap task.object).generation) (succeeded : Bool) :
    world.endTask task succeeded = (((world.withoutTask task).pump task.lane task.object
      ).drainGroupSiblings task.lane).settlePromise task succeeded := by
  unfold endTask
  dsimp only
  rw [if_pos current]
  rfl

theorem endTask_stale {task : RunningTask}
    (stale : task.generation ≠ (world.queue.heap task.object).generation) (succeeded : Bool) :
    world.endTask task succeeded =
      ({ world with running := world.running.erase task } : World).settlePromise task succeeded := by
  unfold endTask
  dsimp only
  rw [if_neg stale]
  rfl

theorem settlePromise_effect (world : World) (task : RunningTask) (succeeded : Bool) :
    Effect spared (world, [task.entry.sequence]) (world.settlePromise task succeeded, []) :=
  .settle task.entry.sequence (by cases succeeded <;> simp)

/-- Every lane of the registry is reset. -/
def withResets (world : World) : World :=
  world.onQueue fun queue =>
    queue.lanes.rows.foldl (fun queue entry => queue.updateObject entry.2 reset) queue

/-- The lanes with queued entries. -/
def lanesToDrain (world : World) : List String :=
  world.queue.lanes.rows.filterMap fun entry =>
    if (world.queue.heap entry.2).queue.isEmpty then none else some (world.queue.heap entry.2).lane

theorem resetAllLanes_eq (world : World) :
    world.resetAllLanes = world.withResets.lanesToDrain.foldl drainLane world.withResets := rfl

theorem resets_effects {rows : List (String × Nat)} {world : World}
    (registered : ∀ entry ∈ rows, world.queue.lanes.get entry.1 = some entry.2) (idle : world.Idle) :
    Effects spared (world, owed) (world.onQueue fun queue =>
        rows.foldl (fun queue entry => queue.updateObject entry.2 reset) queue, owed) ∧
      (world.onQueue fun queue =>
        rows.foldl (fun queue entry => queue.updateObject entry.2 reset) queue).Idle := by
  induction rows generalizing world with
  | nil => exact ⟨.refl, idle⟩
  | cons entry rest ih =>
    obtain ⟨here, later⟩ := List.forall_mem_cons.mp registered
    obtain ⟨effects, idleAfter⟩ := @ih (world.onQueue fun queue =>
      queue.updateObject entry.2 reset) later (idle.of_update entry.2 reset fun _ _ => rfl)
    exact ⟨.head (.reset here) effects, idleAfter⟩

theorem withResets_effects (idle : world.Idle) :
    Effects spared (world, owed) (world.withResets, owed) ∧ world.withResets.Idle :=
  resets_effects (fun _ inMap => ScriptMap.get_eq_some_iff.mpr inMap) idle

theorem setWidth_effects (world : World) (lane : String) (maxConcurrent : Int) (idle : world.Idle) :
    Effects spared (world, owed) (world.onQueue fun queue => setWidth queue lane maxConcurrent, owed) ∧
      (world.onQueue fun queue => setWidth queue lane maxConcurrent).Idle := by
  have made := idle_ensureLane idle lane
  constructor
  · exact .head (.move (.make world lane)) (.single (.widen (world.queue.get_ensureLane lane) _))
  · exact made.of_update _ (fun state => { state with
      maxConcurrent := widthOf lane maxConcurrent }) fun _ still => still

theorem installConfiguration_effects (world : World) (config : LaneConfiguration)
    (groups : List LaneGroupState) (idle : world.Idle)
    (cleared : ∀ name ∈ config.clearGroups, ¬ spared name)
    (defined : ∀ group ∈ groups, ¬ spared group.group) :
    Effects spared (world, owed) (world.onQueue fun queue => installConfiguration queue config groups, owed) ∧
      (world.onQueue fun queue => installConfiguration queue config groups).Idle := by
  have widened : ∀ lanes : List (String × Int), ∀ {world : World}, world.Idle →
      Effects spared (world, owed) (world.onQueue fun queue => lanes.foldl (fun queue entry =>
        setWidth queue (normalizeLane entry.1) entry.2) queue, owed) ∧
      (world.onQueue fun queue => lanes.foldl (fun queue entry =>
        setWidth queue (normalizeLane entry.1) entry.2) queue).Idle := by
    intro lanes
    induction lanes with
    | nil => exact fun idle => ⟨.refl, idle⟩
    | cons entry rest ih =>
      intro world idle
      obtain ⟨first, idleFirst⟩ := @setWidth_effects spared owed world (normalizeLane entry.1) entry.2 idle
      obtain ⟨later, idleLater⟩ := ih idleFirst
      exact ⟨first.trans later, idleLater⟩
  have clears : ∀ names : List String, (∀ name ∈ names, ¬ spared name) → ∀ {world : World},
      Effects spared (world, owed) (world.onQueue fun queue => names.foldl clearCommandLaneGroup queue, owed) := by
    intro names free
    induction names with
    | nil => exact .refl
    | cons name rest ih =>
      obtain ⟨here, later⟩ := List.forall_mem_cons.mp free
      exact .head (.ungroup here) (ih later)
  have installs : ∀ groups : List LaneGroupState, (∀ group ∈ groups, ¬ spared group.group) →
      ∀ {world : World}, Effects spared (world, owed)
        (world.onQueue fun queue => groups.foldl installCommandLaneGroup queue, owed) := by
    intro groups free
    induction groups with
    | nil => exact .refl
    | cons group rest ih =>
      obtain ⟨here, later⟩ := List.forall_mem_cons.mp free
      exact .head (.regroup here) (ih later)
  obtain ⟨widening, idleWidened⟩ := widened config.lanes idle
  refine ⟨widening.trans ((clears config.clearGroups cleared).trans (installs groups defined)), ?_⟩
  intro object
  have still := idleWidened object
  rw [queue_onQueue] at still ⊢
  unfold installConfiguration
  dsimp only
  rw [heap_installs, heap_clears]
  exact still

theorem endTask_effects (lawful : Lawful (world, [])) (idle : world.Idle) {task : RunningTask}
    (running : task ∈ world.running) (succeeded : Bool) :
    Effects spared (world, []) (world.endTask task succeeded, []) ∧ (world.endTask task succeeded).Idle := by
  by_cases current : task.generation = (world.queue.heap task.object).generation
  · rw [endTask_current current]
    have released : Effect spared (world, []) (world.withoutTask task, [task.entry.sequence]) :=
      .release running current
    have registry := released.registry lawful.registry
    -- the object still has the task, so the registry has the object
    have active : task.taskId ∈ (world.queue.heap task.object).activeTaskIds :=
      lawful.tasks.active.mpr ⟨task, running, rfl, rfl, current⟩
    have registered := lawful.registry.of_active (List.ne_nil_of_mem active)
    rw [(lawful.tasks.owned running).2.1] at registered
    have idleReleased : (world.withoutTask task).Idle :=
      (show ({ world with running := world.running.erase task } : World).Idle from idle).of_update _
        (fun state => { state with activeTaskIds := state.activeTaskIds.filter (· ≠ task.taskId) })
        fun _ still => still
    have pumped := pump_settles registry registered fun other _ => idleReleased other
    have siblings := (drainGroupSiblings_settles (pumped.registry registry) pumped.idle task.lane).1
    have drained := pumped.toDrained.trans siblings
    exact ⟨.head released ((drained.effects _).tail (settlePromise_effect _ task succeeded)), siblings.idle⟩
  · rw [endTask_stale current]
    have finished : Effect spared (world, [])
        ({ world with running := world.running.erase task }, [task.entry.sequence]) :=
      .finish running current
    exact ⟨.head finished (.single (settlePromise_effect _ task succeeded)), idle⟩

theorem clearCommandLane_effects (idle : world.Idle) (rawLane : String) :
    Effects spared (world, []) (world.clearCommandLane rawLane, []) ∧ (world.clearCommandLane rawLane).Idle := by
  cases registered : world.queue.lanes.get (normalizeLane rawLane) with
  | none =>
    rw [clearCommandLane, registered]
    exact ⟨.refl, idle⟩
  | some object =>
    rw [clearCommandLane, registered]
    exact ⟨.single (.clear registered),
      idle.of_update object (fun state => { state with queue := [] }) fun _ still => still⟩

theorem resetCommandLane_eq {rawLane : String} {object : Nat}
    (registered : world.queue.lanes.get (normalizeLane rawLane) = some object) :
    world.resetCommandLane rawLane =
      (if ((world.onQueue fun queue => queue.updateObject object reset).queue.heap object).queue.isEmpty
        then world.onQueue fun queue => queue.updateObject object reset
        else (world.onQueue fun queue => queue.updateObject object reset).drainLane
          (normalizeLane rawLane)).drainGroupSiblings (normalizeLane rawLane) := by
  rw [resetCommandLane]
  dsimp only
  rw [registered]

theorem resetCommandLane_effects (lawful : Lawful (world, [])) (idle : world.Idle) (rawLane : String) :
    Effects spared (world, []) (world.resetCommandLane rawLane, []) ∧ (world.resetCommandLane rawLane).Idle := by
  cases registered : world.queue.lanes.get (normalizeLane rawLane) with
  | none =>
    rw [resetCommandLane]
    dsimp only
    rw [registered]
    exact ⟨.refl, idle⟩
  | some object =>
    rw [resetCommandLane_eq registered]
    have reseted : Effect spared (world, [])
        (world.onQueue fun queue => queue.updateObject object reset, []) := .reset registered
    have registry := reseted.registry lawful.registry
    have idleReset := idle.of_update object reset fun _ _ => rfl
    split
    · have siblings := (drainGroupSiblings_settles registry idleReset (normalizeLane rawLane)).1
      exact ⟨.head reseted (siblings.effects []), siblings.idle⟩
    · have own := drainLane_settles registry idleReset (normalizeLane rawLane)
      have siblings := (drainGroupSiblings_settles (own.registry registry) own.idle (normalizeLane rawLane)).1
      exact ⟨.head reseted ((own.toDrained.trans siblings).effects []), siblings.idle⟩

theorem step_effects (lawful : Lawful (world, [])) (idle : world.Idle) (operation : QueueOperation)
    (free : ∀ name, operation.Redefines name → ¬ spared name) :
    Effects spared (world, []) (world.step operation, []) ∧ (world.step operation).Idle := by
  cases operation with
  | enqueue rawLane priority admissionClosed =>
    cases admissionClosed with
    | true => exact ⟨.refl, idle⟩
    | false =>
      show Effects spared _ (world.enqueueCommandInLane rawLane priority false, []) ∧ _
      rw [step, enqueue_eq]
      have queued := @withEntry_effects spared world (normalizeLane rawLane) priority []
      have drained := drainLane_settles (queued.lawful lawful).registry
        (withEntry_idle idle (normalizeLane rawLane) priority) (normalizeLane rawLane)
      exact ⟨queued.trans (drained.effects []), drained.idle⟩
  | complete place succeeded =>
    dsimp only [step]
    cases located : world.running[place]? with
    | none => exact ⟨.refl, idle⟩
    | some task => exact endTask_effects lawful idle (List.mem_of_getElem? located) succeeded
  | clear rawLane => exact clearCommandLane_effects idle rawLane
  | reset rawLane => exact resetCommandLane_effects lawful idle rawLane
  | resetAll =>
    dsimp only [step]
    rw [resetAllLanes_eq]
    obtain ⟨resets, idleReset⟩ := @withResets_effects spared world [] idle
    have drained := (drains_settle drainLane_settles world.withResets.lanesToDrain
      (resets.lawful lawful).registry idleReset).1
    exact ⟨resets.trans (drained.effects []), drained.idle⟩
  | setConcurrency rawLane maxConcurrent =>
    obtain ⟨widened, idleWidened⟩ :=
      @setWidth_effects spared [] world (normalizeLane rawLane) maxConcurrent idle
    dsimp only [step, setCommandLaneConcurrency]
    split
    · have drained := drainLane_settles (widened.lawful lawful).registry idleWidened (normalizeLane rawLane)
      exact ⟨widened.trans (drained.effects []), drained.idle⟩
    · exact ⟨widened, idleWidened⟩
  | publish config =>
    dsimp only [step, publishLaneConfiguration]
    cases accepted : validated config with
    | none => exact ⟨.refl, idle⟩
    | some groups =>
      obtain ⟨installed, idleInstalled⟩ := @installConfiguration_effects spared [] world config groups
        idle (fun name isCleared => free name ⟨groups, accepted, .inl isCleared⟩)
        fun group isDefined => free _ ⟨groups, accepted, .inr ⟨group, isDefined, rfl⟩⟩
      have drained := (drains_settle commitDrain_settles (touched world.queue config groups).rows
        (installed.lawful lawful).registry idleInstalled).1
      exact ⟨installed.trans (drained.effects []), drained.idle⟩

/-- What holds of the queue between two operations. -/
structure Settled (world : World) : Prop where
  lawful : Lawful (world, [])
  idle : world.Idle

theorem settled_initial : Settled World.initial := by
  have noLane : ∀ lane, World.initial.queue.lanes.get lane = none := fun lane => ScriptMap.get_empty lane
  constructor
  · constructor
    · constructor
      · intro lane object isLane
        rw [noLane] at isLane
        cases isLane
      · exact fun _ => ⟨rfl, rfl⟩
    · constructor
      · intro lane name isOwner
        cases isOwner
      · intro lane name group isGroup
        cases isGroup
    · constructor
      · exact List.Pairwise.nil
      · exact fun none_ => absurd none_ List.not_mem_nil
      · exact fun none_ => absurd none_ List.not_mem_nil
      · intro object id
        simp [World.initial]
    · constructor
      · exact fun _ => List.Pairwise.nil
      · exact fun _ _ none_ => absurd none_ List.not_mem_nil
      · exact fun _ none_ => absurd none_ List.not_mem_nil
      · exact fun _ none_ => absurd none_ List.not_mem_nil
      · exact fun _ none_ => absurd none_ List.not_mem_nil
      · exact List.Pairwise.nil
    · constructor
      · exact Nat.le_refl 1
      · intro sequence
        simp [World.initial, QueueState.waiting, QueueState.enqueued, World.runs, World.settlements]
        omega
      · intro sequence
        simp [World.initial, QueueState.waiting, QueueState.enqueued, World.starts, World.drops]
        omega
  · exact fun _ => rfl

theorem Settled.step (settled : Settled world) (operation : QueueOperation) : Settled (world.step operation) := by
  obtain ⟨effects, idle⟩ := @step_effects (fun _ => False) world settled.lawful settled.idle operation
    fun _ _ spared => spared
  exact ⟨effects.lawful settled.lawful, idle⟩

theorem settled_run (operations : List QueueOperation) : Settled (machine.run World.initial operations) :=
  Machine.run_invariant (fun _ operation settled => settled.step operation) settled_initial operations

end World

end PlatformClaw.Lanes
