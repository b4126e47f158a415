import PlatformClaw.Lanes.QueueRuns

/-! # Lanes respect their limits

Widths, budgets, order, single settlement and reservations, over every run.
-/

namespace PlatformClaw.Lanes

open Relation QueueState World

namespace QueueState

/-- The group, whatever lanes were taken away from it, is within its budget. -/
def Within (queue : QueueState) (name : String) (group : LaneGroupState) : Prop :=
  ∃ lanes, queue.groups.get name = some (group.leaving lanes) ∧ queue.load (group.leaving lanes) ≤ group.budget

theorem load_leaving (queue : QueueState) (group : LaneGroupState) (lanes : List String) :
    queue.load (group.leaving lanes) ≤ queue.load group := by
  have same : queue.claimed (group.leaving lanes) = queue.claimed group := rfl
  unfold load
  rw [same, LaneGroupState.members_leaving, ScriptSet.rows_without, sum_map_filter]
  apply sum_map_le
  intro member _
  split
  · exact Nat.le_refl _
  · exact Nat.zero_le _

theorem active_updateObject {queue : QueueState} (object : Nat) (change : LaneState → LaneState)
    (fewer : ∀ found, (change found).activeTaskIds.length ≤ found.activeTaskIds.length)
    (member : String) :
    (queue.updateObject object change).getMemberActiveCount member ≤ queue.getMemberActiveCount member := by
  unfold getMemberActiveCount laneAt
  rw [lanes_updateObject]
  cases queue.lanes.get member with
  | none => exact Nat.le_refl _
  | some other =>
    simp only [Option.map_some, Option.getD_some, heap_updateObject]
    split
    · rename_i same
      rw [same]
      exact fewer _
    · exact Nat.le_refl _

theorem Within.of_fewer {before after : QueueState} {name : String} {group : LaneGroupState}
    (within : before.Within name group) (same : after.groups.get name = before.groups.get name)
    (fewer : ∀ member, after.getMemberActiveCount member ≤ before.getMemberActiveCount member) :
    after.Within name group := by
  obtain ⟨lanes, isGroup, load⟩ := within
  exact ⟨lanes, same.trans isGroup, Nat.le_trans (load_mono fewer) load⟩

theorem canAdmitInGroup_of_admits {queue : QueueState} {lane : String} (admits : queue.Admits lane) :
    queue.canAdmitInGroup lane = true := by
  unfold canAdmitInGroup resolveLaneBlockReason
  split
  · simp
  · cases isGroup : queue.getLaneGroup lane with
    | none => simp
    | some group =>
      obtain ⟨room, reserved⟩ := admits group isGroup
      simp only [Nat.not_le.mpr room, if_false]
      rcases reserved with own | borrowed
      · simp [own]
      · simp [borrowed]

theorem admits_reserved {queue : QueueState} (grouped : queue.Grouped) {name : String}
    {group : LaneGroupState} (isGroup : queue.groups.get name = some group)
    (within : queue.load group ≤ group.budget) {member : String} (inGroup : member ∈ group.members)
    (below : queue.getMemberActiveCount member < reservation group member) :
    queue.Admits member := by
  intro found isFound
  have there := grouped.getLaneGroup_iff.mpr ⟨name, isGroup, inGroup⟩
  rw [isFound] at there
  cases there
  refine ⟨?_, .inl below⟩
  -- the member's own active tasks are fewer than what it claims
  have less : (group.members.rows.map queue.getMemberActiveCount).sum + 1 ≤
      (group.members.rows.map (queue.claimed group)).sum := by
    obtain ⟨front, back, split⟩ := List.append_of_mem (Table.mem_rows.mpr inGroup)
    have here : queue.getMemberActiveCount member + 1 ≤ queue.claimed group member := by
      rw [claimed_eq]
      omega
    have least : ∀ members : List String, (members.map queue.getMemberActiveCount).sum ≤
        (members.map (queue.claimed group)).sum :=
      fun members => sum_map_le fun _ _ => Nat.le_add_right _ _
    have frontLeast := least front
    have backLeast := least back
    rw [split]
    simp only [List.map_append, List.map_cons, List.sum_append, List.sum_cons]
    omega
  exact Nat.lt_of_lt_of_le less within

end QueueState

theorem Move.within {before after : World} (move : Move before after)
    (registry : before.queue.Registry) (grouped : before.queue.Grouped) {name : String}
    {group : LaneGroupState} (within : before.queue.Within name group) :
    after.queue.Within name group := by
  have same := congrArg (fun groups => groups.get name) move.sameGroups.groups
  cases move with
  | make lane =>
    exact within.of_fewer same fun member => Nat.le_of_eq (active_ensureLane _ registry lane member)
  | @start lane object registered possible =>
    obtain ⟨room, waiting, admitted⟩ := canStart_iff.mp possible
    obtain ⟨lanes, isGroup, load⟩ := within
    have counted := active_startNext registry registered waiting
    have there := laneAt_eq_some_iff.mpr ⟨object, registered, rfl⟩
    refine ⟨lanes, same.trans isGroup, ?_⟩
    refine @load_start _ _ _ lane load ?_ ?_ ?_ ?_
    · exact fun _ => (canAdmitInGroup_iff there room).mp admitted
    · exact fun inGroup => grouped.getLaneGroup_iff.mpr ⟨name, isGroup, inGroup⟩
    · rw [counted, if_pos rfl]
    · intro member apart
      rw [counted, if_neg apart]
      rfl
  | @flag lane object registered draining =>
    exact within.of_fewer same
      (active_updateObject object (fun state => { state with draining }) fun _ => Nat.le_refl _)
  | retire object =>
    exact within.of_fewer same fun member => Nat.le_of_eq (active_retire _ object member)

theorem Effect.within {spared : String → Prop} {before after : Moment}
    (effect : Effect spared before after) (registry : before.1.queue.Registry)
    (grouped : before.1.queue.Grouped) {name : String} (isSpared : spared name)
    {group : LaneGroupState} (within : before.1.queue.Within name group) :
    after.1.queue.Within name group := by
  cases effect with
  | move move => exact move.within registry grouped within
  | @enqueue world owed lane object registered priority =>
    exact within.of_fewer rfl (active_updateObject object (fun state => { state with
      queue := insertEntry ⟨world.queue.nextQueueSequence, priority⟩ state.queue })
        fun _ => Nat.le_refl _)
  | finish => exact within
  | @release world owed task =>
    exact within.of_fewer rfl (active_updateObject task.object (fun state =>
      { state with activeTaskIds := state.activeTaskIds.filter (· ≠ task.taskId) })
        fun found => List.length_filter_le _ found.activeTaskIds)
  | settle => exact within
  | @clear world owed lane object =>
    exact within.of_fewer rfl (active_updateObject object (fun state => { state with queue := [] })
      fun _ => Nat.le_refl _)
  | @reset world owed lane object =>
    exact within.of_fewer rfl (active_updateObject object World.reset fun _ => Nat.zero_le _)
  | @widen world owed lane object registered width =>
    exact within.of_fewer rfl (active_updateObject object (fun state =>
      { state with maxConcurrent := width }) fun _ => Nat.le_refl _)
  | @ungroup world owed other free =>
    have apart : other ≠ name := by
      rintro rfl
      exact free isSpared
    refine within.of_fewer ?_ fun member => Nat.le_of_eq ?_
    · rw [queue_onQueue, groups_clear, if_neg apart]
    · unfold getMemberActiveCount laneAt
      rw [queue_onQueue, lanes_clearCommandLaneGroup, heap_clearCommandLaneGroup]
  | @regroup world owed next free =>
    have apart : next.group ≠ name := by
      rintro rfl
      exact free isSpared
    obtain ⟨lanes, isGroup, load⟩ := within
    refine ⟨lanes ++ next.members.rows, ?_, ?_⟩
    · rw [queue_onQueue, groups_install grouped, if_neg apart, isGroup, Option.map_some,
        LaneGroupState.leaving_leaving]
    · rw [← LaneGroupState.leaving_leaving]
      exact Nat.le_trans (load_leaving world.queue (group.leaving lanes) next.members.rows) load

theorem Effects.within {spared : String → Prop} {before after : Moment}
    (effects : Effects spared before after) (lawful : Lawful before) {name : String}
    (isSpared : spared name) {group : LaneGroupState} (within : before.1.queue.Within name group) :
    after.1.queue.Within name group := by
  have both : Lawful after ∧ after.1.queue.Within name group := by
    induction effects with
    | refl => exact ⟨lawful, within⟩
    | tail _ effect ih =>
      obtain ⟨lawfulThere, withinThere⟩ := ih
      exact ⟨effect.lawful lawfulThere, effect.within lawfulThere.registry lawfulThere.grouped isSpared withinThere⟩
  exact both.2

namespace World

variable {world : World}

theorem within_run (settled : Settled world) {name : String} {group : LaneGroupState}
    (within : world.queue.Within name group) (operations : List QueueOperation)
    (free : ∀ operation ∈ operations, ¬ operation.Redefines name) :
    (machine.run world operations).queue.Within name group ∧ Settled (machine.run world operations) := by
  have kept : ∀ state operation, ¬ QueueOperation.Redefines operation name →
      state.queue.Within name group ∧ Settled state → (machine.step state operation).queue.Within name group ∧
          Settled (machine.step state operation) := by
    intro state operation kept holds
    obtain ⟨effects, _⟩ := @step_effects (fun other => other = name) state holds.2.lawful holds.2.idle
      operation (by
        rintro other redefines rfl
        exact kept redefines)
    exact ⟨effects.within holds.2.lawful rfl holds.1, holds.2.step operation⟩
  exact Machine.run_invariant_of kept ⟨within, settled⟩ operations free

/-- The lane of the task was reset or retired since it was started. -/
def Stale (world : World) (task : RunningTask) : Prop :=
  world.queue.lanes.get task.lane = some task.object → task.generation < (world.queue.heap task.object).generation

theorem endTask_of_stale (settled : Settled world) {task : RunningTask} (running : task ∈ world.running)
    (stale : world.Stale task) (succeeded : Bool) :
    (world.endTask task succeeded).queue = world.queue ∧ (world.endTask task succeeded).started = world.started := by
  have older : task.generation ≠ (world.queue.heap task.object).generation := by
    intro current
    have active : task.taskId ∈ (world.queue.heap task.object).activeTaskIds :=
      settled.lawful.tasks.active.mpr ⟨task, running, rfl, rfl, current⟩
    have registered := settled.lawful.registry.of_active (List.ne_nil_of_mem active)
    rw [(settled.lawful.tasks.owned running).2.1] at registered
    have less := stale registered
    omega
  rw [endTask_stale older]
  exact ⟨rfl, rfl⟩

/-- What is said of the lanes after any run. -/
structure RespectsLimits (world : World) : Prop where
  /-- The lane and its group had room at every start, and the entry was the first of its lane. -/
  starts : ∀ start ∈ world.started, start.Lawful
  fifo : world.started.Pairwise Start.Fifo
  startedOnce : ∀ sequence, world.starts sequence ≤ 1
  settledOnce : ∀ sequence, world.settlements sequence =
    if world.queue.enqueued sequence ∧ world.queue.waiting sequence = 0 ∧ world.runs sequence = 0
    then 1 else 0
  stale : ∀ task ∈ world.running, world.Stale task → ∀ succeeded, (world.endTask task succeeded).queue = world.queue ∧
      (world.endTask task succeeded).started = world.started
  reserved : ∀ name group, world.queue.groups.get name = some group →
    world.queue.load group ≤ group.budget → ∀ operations : List QueueOperation,
      (∀ operation ∈ operations, ¬ operation.Redefines name) →
        ∃ lanes, (machine.run world operations).queue.groups.get name = some (group.leaving lanes) ∧
          (machine.run world operations).queue.load (group.leaving lanes) ≤ group.budget ∧
          ∀ member ∈ (group.leaving lanes).members,
            (machine.run world operations).queue.getMemberActiveCount member < reservation group member →
              (machine.run world operations).queue.canAdmitInGroup member = true

theorem Settled.respectsLimits (settled : Settled world) : RespectsLimits world where
  starts := settled.lawful.ordered.lawful
  fifo := settled.lawful.ordered.fifo
  startedOnce sequence := by
    have passages := settled.lawful.accounted.passages sequence
    dsimp only at passages
    split at passages <;> omega
  settledOnce sequence := by
    have places := settled.lawful.accounted.places sequence
    simp only [List.count_nil, Nat.add_zero] at places
    split at places
    · rename_i known
      split
      · omega
      · rename_i placed
        have elsewhere : ¬ (world.queue.waiting sequence = 0 ∧ world.runs sequence = 0) :=
          fun free => placed ⟨known, free⟩
        omega
    · rename_i unknown
      rw [if_neg fun known => unknown known.1]
      omega
  stale task running stale succeeded := endTask_of_stale settled running stale succeeded
  reserved name group isGroup load operations free := by
    have within : world.queue.Within name group :=
      ⟨[], by rw [LaneGroupState.leaving_nil]; exact isGroup, by rw [LaneGroupState.leaving_nil]; exact load⟩
    obtain ⟨⟨lanes, there, loadThere⟩, settledThere⟩ := within_run settled within operations free
    exact ⟨lanes, there, loadThere, fun member inGroup below => canAdmitInGroup_of_admits
      (admits_reserved settledThere.lawful.grouped there loadThere inGroup below)⟩

/-- After any operations, in any order, the lanes have respected their limits. -/
theorem lanes_respect_limits (operations : List QueueOperation) :
    RespectsLimits (machine.run World.initial operations) :=
  (settled_run operations).respectsLimits

end World

end PlatformClaw.Lanes
