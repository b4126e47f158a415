import PlatformClaw.Lanes.QueueEffects

/-! # The order of starts

A queue is sorted by priority and, within a priority, by sequence number, which
is the order of enqueueing. Only its first entry is started, when the lane and
its group have room.
-/

namespace PlatformClaw.Lanes

open QueueState World

/-- The order of the entries of a lane. -/
def QueueEntry.Before (first second : QueueEntry) : Prop :=
  second.priority < first.priority ∨ (first.priority = second.priority ∧ first.sequence < second.sequence)

theorem QueueEntry.Before.of_priority {first second : QueueEntry} (ordered : first.Before second)
    (same : second.priority = first.priority) : first.sequence < second.sequence := by
  rcases ordered with higher | ⟨_, earlier⟩
  · omega
  · exact earlier

theorem mem_insertEntry {entry other : QueueEntry} {queue : List QueueEntry} :
    other ∈ insertEntry entry queue ↔ other = entry ∨ other ∈ queue := by
  induction queue with
  | nil => simp [insertEntry]
  | cons queued rest ih =>
    unfold insertEntry
    split
    · exact List.mem_cons
    · rw [List.mem_cons, ih, List.mem_cons]
      constructor
      · rintro (first | new | later)
        · exact .inr (.inl first)
        · exact .inl new
        · exact .inr (.inr later)
      · rintro (new | first | later)
        · exact .inr (.inl new)
        · exact .inl first
        · exact .inr (.inr later)

theorem insertEntry_sorted {entry : QueueEntry} {queue : List QueueEntry} (sorted : queue.Pairwise QueueEntry.Before)
    (fresh : ∀ queued ∈ queue, queued.sequence < entry.sequence) :
    (insertEntry entry queue).Pairwise QueueEntry.Before := by
  induction queue with
  | nil => exact List.pairwise_singleton _ _
  | cons queued rest ih =>
    obtain ⟨first, later⟩ := List.pairwise_cons.mp sorted
    obtain ⟨old, oldRest⟩ := List.forall_mem_cons.mp fresh
    unfold insertEntry
    split
    · rename_i ahead
      have beforeFirst : entry.Before queued := by
        rcases ahead with higher | ⟨_, earlier⟩
        · exact .inl higher
        · omega
      refine List.pairwise_cons.mpr ⟨?_, sorted⟩
      intro other isOther
      rcases List.mem_cons.mp isOther with rfl | inRest
      · exact beforeFirst
      · have after := first other inRest
        have otherOld := oldRest other inRest
        unfold QueueEntry.Before at *
        omega
    · rename_i behind
      refine List.pairwise_cons.mpr ⟨?_, ih later oldRest⟩
      intro other isOther
      rcases mem_insertEntry.mp isOther with rfl | inRest
      · unfold QueueEntry.Before
        omega
      · exact first other inRest

/-- The entry was the first one of its lane, which the registry had, and both the lane and its
    group had room for it. -/
structure Start.Lawful (start : Start) : Prop where
  registered : start.before.lanes.get start.task.lane = some start.task.object
  room : (start.before.heap start.task.object).activeTaskIds.length <
    (start.before.heap start.task.object).maxConcurrent
  budget : ∀ group, start.before.getLaneGroup start.task.lane = some group →
    start.before.groupActive group < group.budget
  first : ∃ rest, (start.before.heap start.task.object).queue = start.task.entry :: rest ∧
    ∀ entry ∈ rest, start.task.entry.Before entry

/-- Of two starts in a lane with the same priority the one enqueued first comes first. -/
def Start.Fifo (early late : Start) : Prop :=
  early.task.lane = late.task.lane → early.task.entry.priority = late.task.entry.priority →
    early.task.entry.sequence < late.task.entry.sequence

structure Ordered (world : World) : Prop where
  sorted : ∀ object, (world.queue.heap object).queue.Pairwise QueueEntry.Before
  numbered : ∀ object, ∀ entry ∈ (world.queue.heap object).queue, entry.sequence < world.queue.nextQueueSequence
  lawful : ∀ start ∈ world.started, start.Lawful
  earlier : ∀ start ∈ world.started, start.task.entry.sequence < world.queue.nextQueueSequence
  behind : ∀ start ∈ world.started, ∀ object,
    (world.queue.heap object).lane = start.task.lane → ∀ entry ∈ (world.queue.heap object).queue,
      start.task.entry.priority = entry.priority → start.task.entry.sequence < entry.sequence
  fifo : world.started.Pairwise Start.Fifo

theorem Ordered.of_shorter {before after : World} (ordered : Ordered before)
    (started : after.started = before.started)
    (sequence : after.queue.nextQueueSequence = before.queue.nextQueueSequence)
    (shorter : ∀ object, ((after.queue.heap object).queue).Sublist (before.queue.heap object).queue)
    (named : ∀ object, (after.queue.heap object).queue ≠ [] →
      (after.queue.heap object).lane = (before.queue.heap object).lane) : Ordered after where
  sorted object := (ordered.sorted object).sublist (shorter object)
  numbered object entry queued := by
    rw [sequence]
    exact ordered.numbered object entry ((shorter object).subset queued)
  lawful := by
    rw [started]
    exact ordered.lawful
  earlier := by
    rw [started, sequence]
    exact ordered.earlier
  behind := by
    rw [started]
    intro start logged object isLane entry queued
    rw [named object (List.ne_nil_of_mem queued)] at isLane
    exact ordered.behind start logged object isLane entry ((shorter object).subset queued)
  fifo := by
    rw [started]
    exact ordered.fifo

theorem Ordered.of_update {world : World} (ordered : Ordered world) (object : Nat)
    (change : LaneState → LaneState) (keeps : ∀ found, (change found).lane = found.lane)
    (shorter : ∀ found, ((change found).queue).Sublist found.queue) :
    Ordered (world.onQueue fun queue => queue.updateObject object change) := by
  refine ordered.of_shorter rfl rfl ?_ ?_
  · intro other
    rw [queue_onQueue, heap_updateObject]
    split
    · rename_i same
      rw [same]
      exact shorter _
    · exact List.Sublist.refl _
  · intro other _
    exact field_updateObject LaneState.lane change keeps world.queue object other

theorem Move.ordered {before after : World} (move : Move before after)
    (registry : before.queue.Registry) (ordered : Ordered before) : Ordered after := by
  cases move with
  | make lane =>
    cases there : before.queue.lanes.get lane with
    | some object =>
      have same := ensureLane_of_get there
      exact ordered.of_shorter rfl (by simp [same]) (by simp [same]) (by simp [same])
    | none =>
      have made := ensureLane_new there
      refine ordered.of_shorter rfl ?_ ?_ ?_
      · rw [queue_onQueue, made]
        rfl
      · intro object
        rw [queue_onQueue, made]
        dsimp only
        rw [heap_setObject]
        split
        · exact List.nil_sublist _
        · exact List.Sublist.refl _
      · intro object waiting
        rw [queue_onQueue, made] at waiting ⊢
        dsimp only at waiting ⊢
        rw [heap_setObject] at waiting ⊢
        split
        · rename_i same
          rw [if_pos same] at waiting
          exact absurd rfl waiting
        · rfl
  | @start lane object registered possible =>
    obtain ⟨room, waiting, admitted⟩ := canStart_iff.mp possible
    obtain ⟨entry, rest, front⟩ := List.exists_cons_of_ne_nil waiting
    obtain ⟨named, known⟩ := registry.named registered
    rw [startNext_eq front]
    have sorted := ordered.sorted object
    rw [front] at sorted
    obtain ⟨first, _⟩ := List.pairwise_cons.mp sorted
    have there := laneAt_eq_some_iff.mpr ⟨object, registered, rfl⟩
    have admits := (canAdmitInGroup_iff there room).mp admitted
    have inFront : entry ∈ (before.queue.heap object).queue := front ▸ List.mem_cons_self
    -- without the new start only the queue of the lane got shorter
    have shorter := ordered.of_update object (fun state => { state with
        queue := state.queue.tail, activeTaskIds := state.activeTaskIds ++ [before.queue.nextTaskId] })
      (fun _ => rfl) (fun found => List.tail_sublist found.queue)
    have sameHeap : ∀ other, (before.queue.updateObject object fun state => { state with
          queue := rest, activeTaskIds := state.activeTaskIds ++ [before.queue.nextTaskId] }).heap other =
        (before.queue.updateObject object fun state => { state with
          queue := state.queue.tail,
          activeTaskIds := state.activeTaskIds ++ [before.queue.nextTaskId] }).heap other := by
      intro other
      rw [heap_updateObject, heap_updateObject, front]
      rfl
    have onlyHere : ∀ other, (before.queue.heap other).lane = lane →
        ∀ queued ∈ ((before.queue.updateObject object fun state => { state with
          queue := state.queue.tail,
          activeTaskIds := state.activeTaskIds ++ [before.queue.nextTaskId] }).heap other).queue,
        queued ∈ rest := by
      intro other isLane queued inQueue
      rw [heap_updateObject] at inQueue
      split at inQueue
      · rw [front] at inQueue
        exact inQueue
      · rename_i apart
        have gone : ∀ name, before.queue.lanes.get name ≠ some other := by
          intro name isOther
          rw [← (registry.named isOther).1, isLane, registered] at isOther
          cases isOther
          exact apart rfl
        rw [(registry.released gone).1] at inQueue
        exact absurd inQueue List.not_mem_nil
    constructor
    · intro other
      dsimp only
      rw [sameHeap]
      exact shorter.sorted other
    · intro other
      dsimp only
      rw [sameHeap]
      exact shorter.numbered other
    · intro start logged
      rcases List.mem_append.mp logged with old | new
      · exact ordered.lawful start old
      · rw [List.mem_singleton.mp new]
        exact ⟨registered, room, fun group isGroup => (admits group isGroup).1, rest, front, first⟩
    · intro start logged
      rcases List.mem_append.mp logged with old | new
      · exact ordered.earlier start old
      · rw [List.mem_singleton.mp new]
        exact ordered.numbered object entry inFront
    · intro start logged other
      dsimp only
      rw [sameHeap]
      intro isLane queued inQueue same
      rcases List.mem_append.mp logged with old | new
      · exact shorter.behind start old other isLane queued inQueue same
      · rw [List.mem_singleton.mp new] at isLane same ⊢
        have sameLane := field_updateObject LaneState.lane (fun state => { state with
            queue := state.queue.tail,
            activeTaskIds := state.activeTaskIds ++ [before.queue.nextTaskId] })
          (fun _ => rfl) before.queue object other
        exact (first queued (onlyHere other (sameLane ▸ isLane) queued inQueue)).of_priority same.symm
    · apply List.pairwise_append.mpr
      refine ⟨ordered.fifo, List.pairwise_singleton _ _, ?_⟩
      intro start logged other isNew
      rw [List.mem_singleton.mp isNew]
      intro sameLane samePriority
      exact ordered.behind start logged object (named.trans sameLane.symm) entry inFront samePriority
  | flag registered draining =>
    exact ordered.of_update _ (fun state => { state with draining }) (fun _ => rfl)
      fun _ => List.Sublist.refl _
  | retire object =>
    rcases retire_cases before.queue object with same | ⟨_, _, _, same⟩
    · exact ordered.of_shorter rfl (by simp [same]) (by simp [same]) (by simp [same])
    · exact ordered.of_shorter rfl (by simp [same]) (by simp [same]) (by simp [same])

theorem Effect.ordered {spared : String → Prop} {before after : Moment} (effect : Effect spared before after)
    (registry : before.1.queue.Registry) (ordered : Ordered before.1) : Ordered after.1 := by
  cases effect with
  | move move => exact move.ordered registry ordered
  | @enqueue world owed lane object registered priority =>
    have sameLane := field_updateObject LaneState.lane (fun state => { state with
      queue := insertEntry ⟨world.queue.nextQueueSequence, priority⟩ state.queue })
      (fun _ => rfl) world.queue object
    -- what is queued afterwards is the new entry or was queued before
    have cases_ : ∀ other, ∀ entry ∈ ((world.queue.updateObject object fun state => { state with
          queue := insertEntry ⟨world.queue.nextQueueSequence, priority⟩ state.queue }).heap other).queue,
        entry = ⟨world.queue.nextQueueSequence, priority⟩ ∨ entry ∈ (world.queue.heap other).queue := by
      intro other entry queued
      rw [heap_updateObject] at queued
      split at queued
      · rename_i same
        rw [same]
        exact mem_insertEntry.mp queued
      · exact .inr queued
    constructor
    · intro other
      show ((world.queue.updateObject object fun state => { state with
        queue := insertEntry ⟨world.queue.nextQueueSequence, priority⟩ state.queue }).heap
          other).queue.Pairwise QueueEntry.Before
      rw [heap_updateObject]
      split
      · exact insertEntry_sorted (ordered.sorted object) (ordered.numbered object)
      · exact ordered.sorted other
    · intro other entry queued
      rcases cases_ other entry queued with rfl | old
      · exact Nat.lt_succ_self _
      · exact Nat.lt_succ_of_lt (ordered.numbered other entry old)
    · exact ordered.lawful
    · intro start logged
      exact Nat.lt_succ_of_lt (ordered.earlier start logged)
    · intro start logged other isLane entry queued same
      rcases cases_ other entry queued with rfl | old
      · exact ordered.earlier start logged
      · exact ordered.behind start logged other ((sameLane other).symm.trans isLane) entry old same
    · exact ordered.fifo
  | finish =>
    exact ordered.of_shorter rfl rfl (fun _ => List.Sublist.refl _) (fun _ _ => rfl)
  | @release world owed task =>
    have same := ordered.of_update task.object (fun state =>
      { state with activeTaskIds := state.activeTaskIds.filter (· ≠ task.taskId) }) (fun _ => rfl)
      fun _ => List.Sublist.refl _
    exact same.of_shorter rfl rfl (fun _ => List.Sublist.refl _) (fun _ _ => rfl)
  | settle => exact ordered.of_shorter rfl rfl (fun _ => List.Sublist.refl _) (fun _ _ => rfl)
  | @clear world owed lane object =>
    have cleared := ordered.of_update object (fun state => { state with queue := [] }) (fun _ => rfl)
      fun found => List.nil_sublist found.queue
    exact cleared.of_shorter rfl rfl (fun _ => List.Sublist.refl _) (fun _ _ => rfl)
  | reset => exact ordered.of_update _ World.reset (fun _ => rfl) fun _ => List.Sublist.refl _
  | widen registered width =>
    exact ordered.of_update _ (fun state => { state with maxConcurrent := width }) (fun _ => rfl)
      fun _ => List.Sublist.refl _
  | @ungroup world owed name =>
    refine ordered.of_shorter rfl ?_ (by simp) (by simp)
    rw [queue_onQueue]
    unfold clearCommandLaneGroup
    cases world.queue.groups.get name <;> rfl
  | regroup => exact ordered.of_shorter rfl rfl (fun _ => List.Sublist.refl _) (fun _ _ => rfl)

end PlatformClaw.Lanes
