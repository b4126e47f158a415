import PlatformClaw.Lanes.QueueEffects

/-! # What becomes of an entry

Every sequence number that was given out is in one place: it waits in a queue,
its task runs, its promise is owed, or the promise was settled. That places are
counted makes each of them exclusive and each passage happen once.
-/

namespace PlatformClaw.Lanes

open QueueState World

/-- How often an entry waits in a queue. -/
def QueueState.waiting (queue : QueueState) (sequence : Nat) : Nat :=
  ((List.range queue.nextObject).map fun object =>
    (queue.heap object).queue.countP fun entry => entry.sequence = sequence).sum

/-- How often the task of an entry runs. -/
def World.runs (world : World) (sequence : Nat) : Nat :=
  world.running.countP fun task => task.entry.sequence = sequence

/-- How often an entry was started. -/
def World.starts (world : World) (sequence : Nat) : Nat :=
  world.started.countP fun start => start.task.entry.sequence = sequence

/-- How often the promise of an entry was settled. -/
def World.settlements (world : World) (sequence : Nat) : Nat :=
  world.settled.countP fun settled => settled.1 = sequence

/-- How often an entry was dropped by clearing its lane. -/
def World.drops (world : World) (sequence : Nat) : Nat :=
  world.settled.countP fun settled => settled.1 = sequence ∧ settled.2 = .cleared

/-- Whether the sequence number was given out. -/
def QueueState.enqueued (queue : QueueState) (sequence : Nat) : Bool :=
  1 ≤ sequence && sequence < queue.nextQueueSequence

structure Accounted (moment : Moment) : Prop where
  known : 1 ≤ moment.1.queue.nextQueueSequence
  places : ∀ sequence, moment.1.queue.waiting sequence + moment.1.runs sequence +
    moment.2.count sequence + moment.1.settlements sequence =
      if moment.1.queue.enqueued sequence then 1 else 0
  passages : ∀ sequence, moment.1.queue.waiting sequence + moment.1.starts sequence +
    moment.1.drops sequence = if moment.1.queue.enqueued sequence then 1 else 0

theorem sum_map_change {places : List Nat} (distinct : places.Nodup) {place : Nat} {f g : Nat → Nat}
    (inPlaces : place ∈ places) (same : ∀ other, other ≠ place → f other = g other) :
    (places.map f).sum + g place = (places.map g).sum + f place := by
  induction places with
  | nil => exact absurd inPlaces List.not_mem_nil
  | cons first rest ih =>
    obtain ⟨fresh, laterDistinct⟩ := List.nodup_cons.mp distinct
    simp only [List.map_cons, List.sum_cons]
    by_cases here : first = place
    · subst here
      have later : rest.map f = rest.map g := by
        apply List.map_congr_left
        intro other inRest
        apply same
        rintro rfl
        exact fresh inRest
      rw [later]
      omega
    · have inRest := (List.mem_cons.mp inPlaces).resolve_left (Ne.symm here)
      have later := ih laterDistinct inRest
      have first_ := same first here
      omega

theorem waiting_updateObject {queue : QueueState} {object : Nat} (known : object < queue.nextObject)
    (change : LaneState → LaneState) (sequence : Nat) :
    (queue.updateObject object change).waiting sequence +
        (queue.heap object).queue.countP (fun entry => entry.sequence = sequence) =
      queue.waiting sequence + (change (queue.heap object)).queue.countP fun entry => entry.sequence = sequence := by
  have changed := sum_map_change List.nodup_range (List.mem_range.mpr known)
    (f := fun other => ((queue.updateObject object change).heap other).queue.countP
      fun entry => entry.sequence = sequence)
    (g := fun other => (queue.heap other).queue.countP fun entry => entry.sequence = sequence)
    (by
      intro other apart
      rw [heap_updateObject, if_neg apart])
  rw [heap_updateObject, if_pos rfl] at changed
  exact changed

theorem waiting_same {queue : QueueState} (object : Nat) (change : LaneState → LaneState)
    (keeps : ∀ found, (change found).queue = found.queue) (sequence : Nat) :
    (queue.updateObject object change).waiting sequence = queue.waiting sequence := by
  unfold waiting
  congr 1
  apply List.map_congr_left
  intro other _
  rw [field_updateObject LaneState.queue change keeps]

theorem waiting_ensureLane (queue : QueueState) (lane : String) (sequence : Nat) :
    (queue.ensureLane lane).waiting sequence = queue.waiting sequence := by
  cases there : queue.lanes.get lane with
  | some object => rw [ensureLane_of_get there]
  | none =>
    rw [ensureLane_new there]
    unfold waiting
    dsimp only
    rw [List.range_succ, List.map_append, List.sum_append]
    have older : (List.range queue.nextObject).map (fun object =>
        (((queue.setObject queue.nextObject ⟨lane, [], [], 1, false, 0⟩).heap object).queue.countP
          fun entry => entry.sequence = sequence)) =
        (List.range queue.nextObject).map fun object =>
          (queue.heap object).queue.countP fun entry => entry.sequence = sequence := by
      apply List.map_congr_left
      intro object inRange
      rw [heap_setObject, if_neg (Nat.ne_of_lt (List.mem_range.mp inRange))]
    rw [older]
    simp

theorem countP_insertEntry (entry : QueueEntry) (queue : List QueueEntry) (p : QueueEntry → Bool) :
    (insertEntry entry queue).countP p = queue.countP p + if p entry then 1 else 0 := by
  induction queue with
  | nil => simp [insertEntry, List.countP_cons]
  | cons queued rest ih =>
    unfold insertEntry
    split
    · rw [List.countP_cons]
    · rw [List.countP_cons, List.countP_cons, ih]
      omega

theorem countP_erase_of_mem {α : Type} [DecidableEq α] {list : List α} {a : α} (inList : a ∈ list)
    (p : α → Bool) : (list.erase a).countP p + (if p a then 1 else 0) = list.countP p := by
  rw [(List.perm_cons_erase inList).countP_eq, List.countP_cons]

theorem Accounted.of_counts {before after : Moment} (accounted : Accounted before)
    (same : after.1.queue.nextQueueSequence = before.1.queue.nextQueueSequence)
    (places : ∀ sequence, after.1.queue.waiting sequence + after.1.runs sequence +
      after.2.count sequence + after.1.settlements sequence = before.1.queue.waiting sequence +
        before.1.runs sequence + before.2.count sequence + before.1.settlements sequence)
    (passages : ∀ sequence, after.1.queue.waiting sequence + after.1.starts sequence +
      after.1.drops sequence = before.1.queue.waiting sequence + before.1.starts sequence +
        before.1.drops sequence) : Accounted after where
  known := by
    rw [same]
    exact accounted.known
  places sequence := by
    rw [places, accounted.places, enqueued, enqueued, same]
  passages sequence := by
    rw [passages, accounted.passages, enqueued, enqueued, same]

/-- Whatever leaves the queues, the tasks and the settled promises alone. -/
theorem Accounted.of_same {before after : World} {owed : List Nat} (accounted : Accounted (before, owed))
    (running : after.running = before.running) (started : after.started = before.started)
    (settled : after.settled = before.settled)
    (sequence : after.queue.nextQueueSequence = before.queue.nextQueueSequence)
    (waiting : ∀ sequence, after.queue.waiting sequence = before.queue.waiting sequence) :
    Accounted (after, owed) := by
  apply accounted.of_counts sequence
  · intro number
    simp only [World.runs, World.settlements, waiting, running, settled]
  · intro number
    simp only [World.starts, World.drops, waiting, started, settled]

theorem Move.accounted {before after : World} (move : Move before after) {owed : List Nat}
    (registry : before.queue.Registry) (accounted : Accounted (before, owed)) :
    Accounted (after, owed) := by
  cases move with
  | make lane =>
    refine accounted.of_same rfl rfl rfl ?_ (waiting_ensureLane before.queue lane)
    cases there : before.queue.lanes.get lane with
    | some object => rw [queue_onQueue, ensureLane_of_get there]
    | none =>
      rw [queue_onQueue, ensureLane_new there]
      rfl
  | @start lane object registered possible =>
    obtain ⟨entry, rest, front⟩ := List.exists_cons_of_ne_nil (canStart_iff.mp possible).2.1
    have taken : ∀ number, (before.startNext lane object).queue.waiting number +
        (if entry.sequence = number then 1 else 0) = before.queue.waiting number := by
      intro number
      have moved := waiting_updateObject (registry.named registered).2 (fun state =>
        { state with
          queue := rest, activeTaskIds := state.activeTaskIds ++ [before.queue.nextTaskId] }) number
      simp only [front, List.countP_cons, decide_eq_true_eq] at moved
      have unfolded : (before.startNext lane object).queue.waiting number =
          (before.queue.updateObject object fun state => { state with
            queue := rest
            activeTaskIds := state.activeTaskIds ++ [before.queue.nextTaskId] }).waiting number := by
        rw [startNext_eq front]
        rfl
      omega
    have running : ∀ number, (before.startNext lane object).runs number =
        before.runs number + if entry.sequence = number then 1 else 0 := by
      intro number
      rw [startNext_eq front]
      simp [World.runs, List.countP_append, List.countP_singleton]
    have started : ∀ number, (before.startNext lane object).starts number =
        before.starts number + if entry.sequence = number then 1 else 0 := by
      intro number
      rw [startNext_eq front]
      simp [World.starts, List.countP_append, List.countP_singleton]
    have settled : (before.startNext lane object).settled = before.settled := by
      rw [startNext_eq front]
    apply accounted.of_counts
    · rw [startNext_eq front]
      rfl
    · intro number
      have fewer := taken number
      have more := running number
      simp only [World.settlements, settled]
      omega
    · intro number
      have fewer := taken number
      have more := started number
      simp only [World.drops, settled]
      omega
  | @flag lane object registered draining =>
    exact accounted.of_same rfl rfl rfl rfl (waiting_same object (fun state => { state with draining }) fun _ => rfl)
  | retire object =>
    rcases retire_cases before.queue object with same | ⟨_, _, _, same⟩
    · exact accounted.of_same rfl rfl rfl (by simp [same]) (by simp [same])
    · exact accounted.of_same rfl rfl rfl (by simp [same]) (by simp [same, waiting])

theorem Effect.accounted {spared : String → Prop} {before after : Moment} (effect : Effect spared before after)
    (registry : before.1.queue.Registry) (accounted : Accounted before) : Accounted after := by
  cases effect with
  | move move => exact move.accounted registry accounted
  | @enqueue world owed lane object registered priority =>
    have added : ∀ number, (world.queue.updateObject object fun state => { state with
          queue := insertEntry ⟨world.queue.nextQueueSequence, priority⟩ state.queue }).waiting number =
        world.queue.waiting number + if world.queue.nextQueueSequence = number then 1 else 0 := by
      intro number
      have moved := waiting_updateObject (registry.named registered).2 (fun state => { state with
        queue := insertEntry ⟨world.queue.nextQueueSequence, priority⟩ state.queue }) number
      simp only [countP_insertEntry, decide_eq_true_eq] at moved
      omega
    have known : 1 ≤ world.queue.nextQueueSequence := accounted.known
    -- the number that is given out is the next one
    have given : ∀ number, (if world.queue.enqueued number then 1 else 0) +
        (if world.queue.nextQueueSequence = number then 1 else 0) =
          if 1 ≤ number && number < world.queue.nextQueueSequence + 1 then 1 else 0 := by
      intro number
      simp only [enqueued, Bool.and_eq_true, decide_eq_true_eq]
      by_cases new : world.queue.nextQueueSequence = number
      · subst new
        simp [known]
      · by_cases old : 1 ≤ number ∧ number < world.queue.nextQueueSequence
        · rw [if_pos old, if_neg new, if_pos (by omega)]
        · rw [if_neg old, if_neg new, if_neg (by omega)]
    constructor
    · exact Nat.le_succ_of_le known
    · intro number
      have earlier := accounted.places number
      have next := given number
      have more := added number
      show (world.queue.updateObject object fun state => { state with
        queue := insertEntry ⟨world.queue.nextQueueSequence, priority⟩ state.queue }).waiting number +
          world.runs number + owed.count number + world.settlements number =
            if 1 ≤ number && number < world.queue.nextQueueSequence + 1 then 1 else 0
      dsimp only at earlier
      omega
    · intro number
      have earlier := accounted.passages number
      have next := given number
      have more := added number
      show (world.queue.updateObject object fun state => { state with
        queue := insertEntry ⟨world.queue.nextQueueSequence, priority⟩ state.queue }).waiting number +
          world.starts number + world.drops number =
            if 1 ≤ number && number < world.queue.nextQueueSequence + 1 then 1 else 0
      dsimp only at earlier
      omega
  | @finish world owed task running stale =>
    refine accounted.of_counts rfl ?_ ?_
    · intro number
      have ended := countP_erase_of_mem running fun task => task.entry.sequence = number
      simp only [World.runs, World.settlements, List.count_cons, beq_iff_eq, decide_eq_true_eq]
        at ended ⊢
      omega
    · exact fun _ => rfl
  | @release world owed task running current =>
    have waits := @waiting_same world.queue task.object (fun state =>
      { state with activeTaskIds := state.activeTaskIds.filter (· ≠ task.taskId) }) fun _ => rfl
    refine accounted.of_counts rfl ?_ ?_
    · intro number
      have ended := countP_erase_of_mem running fun task => task.entry.sequence = number
      have sameWaiting := waits number
      simp only [World.runs, World.settlements, List.count_cons, beq_iff_eq, decide_eq_true_eq,
        World.onQueue] at ended ⊢
      omega
    · intro number
      have sameWaiting := waits number
      simp only [World.starts, World.drops, World.onQueue]
      omega
  | @settle world owed sequence fate ended =>
    refine accounted.of_counts rfl ?_ ?_
    · intro number
      simp only [World.runs, World.settlements, List.count_cons, List.countP_append,
        List.countP_singleton, beq_iff_eq, decide_eq_true_eq]
      omega
    · intro number
      simp [World.starts, World.drops, List.countP_append, ended]
  | @clear world owed lane object registered =>
    have emptied : ∀ number, (world.queue.updateObject object fun state =>
          { state with queue := [] }).waiting number +
        (world.queue.heap object).queue.countP (fun entry => entry.sequence = number) =
          world.queue.waiting number :=
      fun number => waiting_updateObject (registry.named registered).2
        (fun state => { state with queue := [] }) number
    refine accounted.of_counts rfl ?_ ?_
    · intro number
      have fewer := emptied number
      simp only [World.runs, World.settlements, List.countP_append, List.countP_map, World.onQueue]
      have counted : (world.queue.heap object).queue.countP
          ((fun settled : Nat × Settlement => decide (settled.1 = number)) ∘
            fun entry => (entry.sequence, Settlement.cleared)) =
          (world.queue.heap object).queue.countP fun entry => entry.sequence = number := rfl
      omega
    · intro number
      have fewer := emptied number
      simp only [World.starts, World.drops, List.countP_append, List.countP_map, World.onQueue]
      have counted : (world.queue.heap object).queue.countP
          ((fun settled : Nat × Settlement => decide (settled.1 = number ∧ settled.2 = .cleared)) ∘
            fun entry => (entry.sequence, Settlement.cleared)) =
          (world.queue.heap object).queue.countP fun entry => entry.sequence = number := by
        apply List.countP_congr
        intro entry _
        simp
      omega
  | @reset world owed lane object =>
    exact accounted.of_same rfl rfl rfl rfl (waiting_same object World.reset fun _ => rfl)
  | @widen world owed lane object registered width =>
    exact accounted.of_same rfl rfl rfl rfl
      (waiting_same object (fun state => { state with maxConcurrent := width }) fun _ => rfl)
  | @ungroup world owed name =>
    have same : (world.queue.clearCommandLaneGroup name).nextQueueSequence = world.queue.nextQueueSequence ∧
        (world.queue.clearCommandLaneGroup name).nextObject = world.queue.nextObject := by
      unfold clearCommandLaneGroup
      cases world.queue.groups.get name <;> exact ⟨rfl, rfl⟩
    refine accounted.of_same rfl rfl rfl same.1 ?_
    intro number
    rw [queue_onQueue]
    unfold waiting
    rw [same.2, heap_clearCommandLaneGroup]
  | regroup => exact accounted.of_same rfl rfl rfl rfl fun _ => rfl

end PlatformClaw.Lanes
