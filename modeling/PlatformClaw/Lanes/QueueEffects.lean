import PlatformClaw.Lanes.Grouping
import PlatformClaw.Lanes.QueueMoves

/-! # Laws of the command queue

Every operation of the queue is a chain of effects: what it changes itself, and
the moves of the drains. A law that each effect keeps holds at every moment of
every run, also in the middle of an operation. Promises of ended tasks that are
not settled yet are carried along as owed.
-/

namespace PlatformClaw.Lanes

open QueueState World

/-- The world with the sequence numbers of the promises that are owed. -/
abbrev Moment : Type := World × List Nat

/-- The groups with spared names are not redefined. -/
inductive Effect (spared : String → Prop) : Moment → Moment → Prop
  | move {before after : World} {owed : List Nat} (move : Move before after) :
      Effect spared (before, owed) (after, owed)
  | enqueue {world : World} {owed : List Nat} {lane : String} {object : Nat}
      (registered : world.queue.lanes.get lane = some object) (priority : Int) :
      Effect spared (world, owed) (world.onQueue fun queue =>
        { queue.updateObject object fun state =>
            { state with queue := insertEntry ⟨queue.nextQueueSequence, priority⟩ state.queue } with
          nextQueueSequence := queue.nextQueueSequence + 1 }, owed)
  | finish {world : World} {owed : List Nat} {task : RunningTask} (running : task ∈ world.running)
      (stale : task.generation ≠ (world.queue.heap task.object).generation) :
      Effect spared (world, owed) ({ world with running := world.running.erase task }, task.entry.sequence :: owed)
  | release {world : World} {owed : List Nat} {task : RunningTask} (running : task ∈ world.running)
      (current : task.generation = (world.queue.heap task.object).generation) :
      Effect spared (world, owed) (({ world with running := world.running.erase task } : World).onQueue fun queue =>
          queue.updateObject task.object fun state =>
            { state with activeTaskIds := state.activeTaskIds.filter (· ≠ task.taskId) },
          task.entry.sequence :: owed)
  | settle {world : World} {owed : List Nat} (sequence : Nat) {fate : Settlement}
      (ended : fate ≠ .cleared) :
      Effect spared (world, sequence :: owed) ({ world with settled := world.settled ++ [(sequence, fate)] }, owed)
  | clear {world : World} {owed : List Nat} {lane : String} {object : Nat}
      (registered : world.queue.lanes.get lane = some object) :
      Effect spared (world, owed)
        ({ world.onQueue fun queue =>
            queue.updateObject object fun state => { state with queue := [] } with
          settled := world.settled ++
            (world.queue.heap object).queue.map fun entry => (entry.sequence, .cleared) }, owed)
  | reset {world : World} {owed : List Nat} {lane : String} {object : Nat}
      (registered : world.queue.lanes.get lane = some object) :
      Effect spared (world, owed) (world.onQueue fun queue => queue.updateObject object World.reset, owed)
  | widen {world : World} {owed : List Nat} {lane : String} {object : Nat}
      (registered : world.queue.lanes.get lane = some object) (width : Nat) :
      Effect spared (world, owed) (world.onQueue fun queue =>
        queue.updateObject object fun state => { state with maxConcurrent := width }, owed)
  | ungroup {world : World} {owed : List Nat} {name : String} (free : ¬ spared name) :
      Effect spared (world, owed) (world.onQueue fun queue => queue.clearCommandLaneGroup name, owed)
  | regroup {world : World} {owed : List Nat} {group : LaneGroupState}
      (free : ¬ spared group.group) :
      Effect spared (world, owed) (world.onQueue fun queue => queue.installCommandLaneGroup group, owed)

theorem Effect.registry {spared : String → Prop} {before after : Moment} (effect : Effect spared before after)
    (registry : before.1.queue.Registry) : after.1.queue.Registry := by
  cases effect with
  | move move => exact move.registry registry
  | @enqueue world _ _ _ registered priority =>
    have updated := registry.update registered (fun state =>
      { state with queue := insertEntry ⟨world.queue.nextQueueSequence, priority⟩ state.queue })
      fun _ => rfl
    exact ⟨updated.named, updated.released⟩
  | finish => exact registry
  | @release world owed task running current =>
    constructor
    · intro lane object isLane
      obtain ⟨named, old⟩ := registry.named isLane
      refine ⟨?_, old⟩
      rw [queue_onQueue, heap_updateObject]
      split
      · rename_i same
        rw [← same]
        exact named
      · exact named
    · intro object gone
      obtain ⟨noQueue, noActive⟩ := registry.released gone
      rw [queue_onQueue, heap_updateObject]
      split
      · rename_i same
        rw [← same, noActive]
        exact ⟨noQueue, rfl⟩
      · exact ⟨noQueue, noActive⟩
  | settle => exact registry
  | clear registered => exact registry.update registered (fun state => { state with queue := [] }) fun _ => rfl
  | reset registered => exact registry.update registered World.reset fun _ => rfl
  | widen registered width =>
    exact registry.update registered (fun state => { state with maxConcurrent := width }) fun _ => rfl
  | @ungroup world owed name =>
    constructor
    · intro lane object isLane
      rw [queue_onQueue, lanes_clearCommandLaneGroup] at isLane
      rw [queue_onQueue, heap_clearCommandLaneGroup]
      unfold clearCommandLaneGroup
      obtain ⟨named, old⟩ := registry.named isLane
      refine ⟨named, ?_⟩
      split
      · exact old
      · exact old
    · intro object gone
      rw [queue_onQueue, heap_clearCommandLaneGroup]
      rw [queue_onQueue, lanes_clearCommandLaneGroup] at gone
      exact registry.released gone
  | regroup => exact ⟨registry.named, registry.released⟩

theorem QueueState.SameGroups.grouped {before after : QueueState} (same : SameGroups before after)
    (grouped : before.Grouped) : after.Grouped := by
  constructor
  · intro lane name isOwner
    rw [same.groupByLane] at isOwner
    rw [same.groups]
    exact grouped.group_of_owner isOwner
  · intro lane name group there inGroup
    rw [same.groups] at there
    rw [same.groupByLane]
    exact grouped.owner_of_member there inGroup

theorem Effect.grouped {spared : String → Prop} {before after : Moment} (effect : Effect spared before after)
    (grouped : before.1.queue.Grouped) : after.1.queue.Grouped := by
  cases effect with
  | move move => exact move.sameGroups.grouped grouped
  | enqueue | finish | release | settle | clear | reset | widen =>
    exact ⟨grouped.group_of_owner, grouped.owner_of_member⟩
  | @ungroup world owed name => exact grouped.clear name
  | @regroup world owed group => exact grouped.install group

/-- The tasks that were started and have not ended, and the active sets of the lanes. -/
structure Tasks (world : World) : Prop where
  distinct : world.running.Pairwise fun a b => a.taskId ≠ b.taskId
  numbered : ∀ {task}, task ∈ world.running → task.taskId < world.queue.nextTaskId
  owned : ∀ {task}, task ∈ world.running → task.object < world.queue.nextObject ∧
    (world.queue.heap task.object).lane = task.lane ∧
    task.generation ≤ (world.queue.heap task.object).generation
  active : ∀ {object id}, id ∈ (world.queue.heap object).activeTaskIds ↔
    ∃ task ∈ world.running, task.taskId = id ∧ task.object = object ∧
      task.generation = (world.queue.heap object).generation

theorem Tasks.unique {world : World} (tasks : Tasks world) {task other : RunningTask}
    (running : task ∈ world.running) (otherRunning : other ∈ world.running)
    (same : task.taskId = other.taskId) : task = other :=
  @KeyedRows.unique _ _ RunningTask.taskId _ tasks.distinct _ _ running otherRunning same

theorem Tasks.mem_erase {world : World} (tasks : Tasks world) {task other : RunningTask} :
    other ∈ world.running.erase task ↔ other ≠ task ∧ other ∈ world.running := by
  have nodup : world.running.Nodup := by
    apply tasks.distinct.imp
    rintro _ _ apart rfl
    exact apart rfl
  exact nodup.mem_erase_iff

theorem Tasks.of_same {before after : World} (tasks : Tasks before) (running : after.running = before.running)
    (nextTaskId : after.queue.nextTaskId = before.queue.nextTaskId)
    (nextObject : before.queue.nextObject ≤ after.queue.nextObject)
    (active : ∀ object, (after.queue.heap object).activeTaskIds = (before.queue.heap object).activeTaskIds)
    (old : ∀ object, object < before.queue.nextObject →
      (after.queue.heap object).lane = (before.queue.heap object).lane ∧
        (after.queue.heap object).generation = (before.queue.heap object).generation) : Tasks after where
  distinct := by
    rw [running]
    exact tasks.distinct
  numbered := by
    intro task isRunning
    rw [running] at isRunning
    rw [nextTaskId]
    exact tasks.numbered isRunning
  owned := by
    intro task isRunning
    rw [running] at isRunning
    obtain ⟨known, named, generation⟩ := tasks.owned isRunning
    obtain ⟨sameLane, sameGeneration⟩ := old task.object known
    rw [sameLane, sameGeneration]
    exact ⟨Nat.lt_of_lt_of_le known nextObject, named, generation⟩
  active := by
    intro object id
    rw [active, running, tasks.active]
    apply exists_congr
    intro task
    apply and_congr_right
    intro isRunning
    apply and_congr_right
    intro _
    apply and_congr_right
    rintro rfl
    rw [(old task.object (tasks.owned isRunning).1).2]

theorem Tasks.of_update {world : World} (tasks : Tasks world) (object : Nat)
    (change : LaneState → LaneState) (keeps : ∀ found, (change found).lane = found.lane ∧
      (change found).activeTaskIds = found.activeTaskIds ∧
      (change found).generation = found.generation) :
    Tasks (world.onQueue fun queue => queue.updateObject object change) :=
  tasks.of_same rfl rfl (Nat.le_refl _)
    (field_updateObject LaneState.activeTaskIds change (fun found => (keeps found).2.1) world.queue object)
    fun other _ =>
      ⟨field_updateObject LaneState.lane change (fun found => (keeps found).1) world.queue object other,
        field_updateObject LaneState.generation change (fun found => (keeps found).2.2) world.queue object other⟩

theorem Move.tasks {before after : World} (move : Move before after)
    (registry : before.queue.Registry) (tasks : Tasks before) : Tasks after := by
  cases move with
  | make lane =>
    cases there : before.queue.lanes.get lane with
    | some object =>
      have same := ensureLane_of_get there
      exact tasks.of_same rfl (by simp [same]) (by simp [same]) (by simp [same]) (by simp [same])
    | none =>
      have made := ensureLane_new there
      have free : ∀ other, before.queue.lanes.get other ≠ some before.queue.nextObject := by
        intro other isOther
        exact Nat.lt_irrefl _ (registry.named isOther).2
      refine tasks.of_same rfl ?_ ?_ ?_ ?_
      · rw [queue_onQueue, made]
        rfl
      · rw [queue_onQueue, made]
        exact Nat.le_succ _
      · intro object
        rw [queue_onQueue, made]
        dsimp only
        rw [heap_setObject]
        split
        · rename_i same
          rw [same, (registry.released free).2]
        · rfl
      · intro object known
        rw [queue_onQueue, made]
        dsimp only
        rw [heap_setObject, if_neg (Nat.ne_of_lt known)]
        exact ⟨rfl, rfl⟩
  | @start lane object registered possible =>
    obtain ⟨entry, rest, front⟩ := List.exists_cons_of_ne_nil (canStart_iff.mp possible).2.1
    obtain ⟨named, known⟩ := registry.named registered
    rw [startNext_eq front]
    have sameLane := field_updateObject LaneState.lane (fun state =>
      { state with queue := rest, activeTaskIds := state.activeTaskIds ++ [before.queue.nextTaskId] })
      (fun _ => rfl) before.queue object
    have sameGeneration := field_updateObject LaneState.generation (fun state =>
      { state with queue := rest, activeTaskIds := state.activeTaskIds ++ [before.queue.nextTaskId] })
      (fun _ => rfl) before.queue object
    constructor
    · apply List.pairwise_append.mpr
      refine ⟨tasks.distinct, List.pairwise_singleton _ _, ?_⟩
      intro task isRunning other isNew
      rw [List.mem_singleton.mp isNew]
      exact Nat.ne_of_lt (tasks.numbered isRunning)
    · intro task isRunning
      rcases List.mem_append.mp isRunning with old | new
      · exact Nat.lt_succ_of_lt (tasks.numbered old)
      · rw [List.mem_singleton.mp new]
        exact Nat.lt_succ_self _
    · intro task isRunning
      dsimp only
      rw [sameLane, sameGeneration]
      rcases List.mem_append.mp isRunning with old | new
      · exact tasks.owned old
      · rw [List.mem_singleton.mp new]
        exact ⟨known, named, Nat.le_refl _⟩
    · intro other id
      dsimp only
      rw [sameGeneration, heap_updateObject]
      by_cases same : other = object
      · subst same
        simp only [if_true, List.mem_append, List.mem_singleton, tasks.active]
        constructor
        · rintro (⟨task, old, facts⟩ | rfl)
          · exact ⟨task, .inl old, facts⟩
          · exact ⟨_, .inr rfl, rfl, rfl, rfl⟩
        · rintro ⟨task, old | rfl, facts⟩
          · exact .inl ⟨task, old, facts⟩
          · exact .inr facts.1.symm
      · simp only [same, if_false, List.mem_append, List.mem_singleton, tasks.active]
        constructor
        · rintro ⟨task, old, facts⟩
          exact ⟨task, .inl old, facts⟩
        · rintro ⟨task, old | rfl, facts⟩
          · exact ⟨task, old, facts⟩
          · exact absurd facts.2.1.symm same
  | @flag lane object registered draining =>
    exact tasks.of_update object (fun state => { state with draining }) fun _ => ⟨rfl, rfl, rfl⟩
  | retire object =>
    rcases retire_cases before.queue object with same | ⟨_, _, _, same⟩
    · exact tasks.of_same rfl (by simp [same]) (by simp [same]) (by simp [same]) (by simp [same])
    · exact tasks.of_same rfl (by simp [same]) (by simp [same]) (by simp [same]) (by simp [same])

theorem Tasks.ended {world : World} (tasks : Tasks world) {task : RunningTask}
    (running : task ∈ world.running) {after : World}
    (rest : after.running = world.running.erase task)
    (nextTaskId : after.queue.nextTaskId = world.queue.nextTaskId)
    (nextObject : after.queue.nextObject = world.queue.nextObject)
    (same : ∀ object, (after.queue.heap object).lane = (world.queue.heap object).lane ∧
      (after.queue.heap object).generation = (world.queue.heap object).generation)
    (active : ∀ object id, id ∈ (after.queue.heap object).activeTaskIds ↔
      id ∈ (world.queue.heap object).activeTaskIds ∧ ¬ (id = task.taskId ∧ object = task.object ∧
          task.generation = (world.queue.heap object).generation)) : Tasks after where
  distinct := by
    rw [rest]
    exact tasks.distinct.sublist List.erase_sublist
  numbered := by
    intro other isRunning
    rw [rest] at isRunning
    rw [nextTaskId]
    exact tasks.numbered (List.mem_of_mem_erase isRunning)
  owned := by
    intro other isRunning
    rw [rest] at isRunning
    rw [nextObject, (same other.object).1, (same other.object).2]
    exact tasks.owned (List.mem_of_mem_erase isRunning)
  active := by
    intro object id
    rw [active, (same object).2, rest, tasks.active]
    constructor
    · rintro ⟨⟨other, isRunning, isId, isObject, isCurrent⟩, kept⟩
      refine ⟨other, tasks.mem_erase.mpr ⟨?_, isRunning⟩, isId, isObject, isCurrent⟩
      rintro rfl
      exact kept ⟨isId.symm, isObject.symm, isCurrent⟩
    · rintro ⟨other, isOther, isId, isObject, isCurrent⟩
      obtain ⟨apart, isRunning⟩ := tasks.mem_erase.mp isOther
      refine ⟨⟨other, isRunning, isId, isObject, isCurrent⟩, ?_⟩
      rintro ⟨isTask, _, _⟩
      exact apart (tasks.unique isRunning running (isId.trans isTask))

theorem Effect.tasks {spared : String → Prop} {before after : Moment} (effect : Effect spared before after)
    (registry : before.1.queue.Registry) (tasks : Tasks before.1) : Tasks after.1 := by
  cases effect with
  | move move => exact move.tasks registry tasks
  | @enqueue world owed lane object registered priority =>
    have queued := tasks.of_update object (fun state => { state with
      queue := insertEntry ⟨world.queue.nextQueueSequence, priority⟩ state.queue })
      fun _ => ⟨rfl, rfl, rfl⟩
    exact ⟨queued.distinct, queued.numbered, queued.owned, queued.active⟩
  | @finish world owed task running stale =>
    refine tasks.ended running rfl rfl rfl (fun _ => ⟨rfl, rfl⟩) ?_
    intro object id
    constructor
    · intro isActive
      refine ⟨isActive, ?_⟩
      rintro ⟨_, rfl, isCurrent⟩
      exact stale isCurrent
    · exact And.left
  | @release world owed task running current =>
    have sameLane := field_updateObject LaneState.lane (fun state =>
      { state with activeTaskIds := state.activeTaskIds.filter (· ≠ task.taskId) })
      (fun _ => rfl) world.queue task.object
    have sameGeneration := field_updateObject LaneState.generation (fun state =>
      { state with activeTaskIds := state.activeTaskIds.filter (· ≠ task.taskId) })
      (fun _ => rfl) world.queue task.object
    refine tasks.ended running rfl rfl rfl (fun object => ⟨sameLane object, sameGeneration object⟩) ?_
    intro object id
    rw [queue_onQueue, heap_updateObject]
    by_cases same : object = task.object
    · subst same
      simp [current, List.mem_filter]
    · simp [same]
  | settle => exact ⟨tasks.distinct, tasks.numbered, tasks.owned, tasks.active⟩
  | @clear world owed lane object registered =>
    have cleared := tasks.of_update object (fun state => { state with queue := [] })
      fun _ => ⟨rfl, rfl, rfl⟩
    exact ⟨cleared.distinct, cleared.numbered, cleared.owned, cleared.active⟩
  | @reset world owed lane object registered =>
    have sameLane := field_updateObject LaneState.lane World.reset (fun _ => rfl) world.queue object
    have grown : ∀ other, (world.queue.heap other).generation ≤
        ((world.queue.updateObject object World.reset).heap other).generation := by
      intro other
      rw [heap_updateObject]
      split
      · rename_i same
        rw [same]
        exact Nat.le_succ _
      · exact Nat.le_refl _
    constructor
    · exact tasks.distinct
    · exact tasks.numbered
    · intro task isRunning
      obtain ⟨known, named, generation⟩ := tasks.owned isRunning
      exact ⟨known, (sameLane task.object).trans named, Nat.le_trans generation (grown task.object)⟩
    · intro other id
      rw [queue_onQueue, heap_updateObject]
      by_cases same : other = object
      · subst same
        simp only [if_true, World.reset, List.not_mem_nil, false_iff]
        rintro ⟨task, isRunning, _, rfl, isCurrent⟩
        have generation : task.generation ≤ (world.queue.heap task.object).generation :=
          (tasks.owned isRunning).2.2
        omega
      · rw [if_neg same]
        exact tasks.active
  | widen registered width => exact tasks.of_update _ (fun state => { state with maxConcurrent := width }) fun _ =>
    ⟨rfl, rfl, rfl⟩
  | @ungroup world owed name =>
    refine tasks.of_same rfl ?_ ?_ ?_ ?_
    · show (world.queue.clearCommandLaneGroup name).nextTaskId = _
      unfold clearCommandLaneGroup
      cases world.queue.groups.get name <;> rfl
    · show _ ≤ (world.queue.clearCommandLaneGroup name).nextObject
      unfold clearCommandLaneGroup
      cases world.queue.groups.get name <;> exact Nat.le_refl _
    · simp
    · simp
  | regroup => exact ⟨tasks.distinct, tasks.numbered, tasks.owned, tasks.active⟩

end PlatformClaw.Lanes
