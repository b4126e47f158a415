import PlatformClaw.Lanes.Capacity
import Mathlib.Logic.Relation

/-! # What draining does

However pumps nest, a drain is a chain of four moves: a lane is made, the first
entry of a lane that can start one is started, a draining flag is set, an idle
lane is retired. What the moves preserve, every drain preserves.
-/

namespace PlatformClaw.Lanes

open Relation

namespace QueueState

/-- The registry has every lane under its own name, and what it let go is idle. -/
structure Registry (state : QueueState) : Prop where
  named : ∀ {lane object}, state.lanes.get lane = some object →
    (state.heap object).lane = lane ∧ object < state.nextObject
  released : ∀ {object}, (∀ lane, state.lanes.get lane ≠ some object) →
    (state.heap object).queue = [] ∧ (state.heap object).activeTaskIds = []

theorem Registry.apart {state : QueueState} (registry : state.Registry) {lane other : String}
    {object otherObject : Nat} (isLane : state.lanes.get lane = some object)
    (isOther : state.lanes.get other = some otherObject) (differ : other ≠ lane) :
    otherObject ≠ object := by
  intro same
  apply differ
  rw [← (registry.named isOther).1, ← (registry.named isLane).1, same]

theorem Registry.of_active {state : QueueState} (registry : state.Registry) {object : Nat}
    (active : (state.heap object).activeTaskIds ≠ []) :
    state.lanes.get (state.heap object).lane = some object := by
  by_cases found : ∃ lane, state.lanes.get lane = some object
  · obtain ⟨lane, isLane⟩ := found
    rw [(registry.named isLane).1]
    exact isLane
  · exact absurd (registry.released (not_exists.mp found)).2 active

theorem Registry.update {state : QueueState} (registry : state.Registry) {lane : String}
    {object : Nat} (isLane : state.lanes.get lane = some object) (change : LaneState → LaneState)
    (keeps : ∀ found, (change found).lane = found.lane) :
    (state.updateObject object change).Registry where
  named := by
    intro other otherObject isOther
    obtain ⟨named, old⟩ := registry.named isOther
    refine ⟨?_, old⟩
    rw [heap_updateObject]
    split
    · rename_i same
      rw [keeps, ← same]
      exact named
    · exact named
  released := by
    intro other gone
    have differ : other ≠ object := by
      rintro rfl
      exact gone lane isLane
    rw [heap_updateObject, if_neg differ]
    exact registry.released gone

theorem field_updateObject {α : Type} (field : LaneState → α) (change : LaneState → LaneState)
    (keeps : ∀ found, field (change found) = field found) (state : QueueState) (object other : Nat) :
    field ((state.updateObject object change).heap other) = field (state.heap other) := by
  rw [heap_updateObject]
  split
  · rename_i same
    rw [keeps, same]
  · rfl

theorem ensureLane_of_get {state : QueueState} {lane : String} {object : Nat}
    (isLane : state.lanes.get lane = some object) : state.ensureLane lane = state := by
  have there : state.lanes.has lane = true := by rw [ScriptMap.has, isLane]; rfl
  rw [ensureLane, if_pos there]

theorem ensureLane_new {state : QueueState} {lane : String} (absent : state.lanes.get lane = none) :
    state.ensureLane lane =
      { state.setObject state.nextObject ⟨lane, [], [], 1, false, 0⟩ with
        nextObject := state.nextObject + 1
        lanes := state.lanes.set lane state.nextObject } := by
  have missing : ¬ state.lanes.has lane = true := by rw [ScriptMap.has, absent]; simp
  rw [ensureLane, if_neg missing]

theorem sameGroups_ensureLane (state : QueueState) (lane : String) : SameGroups state (state.ensureLane lane) := by
  unfold ensureLane
  split
  · exact ⟨rfl, rfl⟩
  · exact ⟨rfl, rfl⟩

theorem Registry.ensureLane {state : QueueState} (registry : state.Registry) (lane : String) :
    (state.ensureLane lane).Registry := by
  cases there : state.lanes.get lane with
  | some object => rw [ensureLane_of_get there]; exact registry
  | none =>
    rw [ensureLane_new there]
    constructor
    · intro other object isOther
      dsimp only at isOther
      rw [ScriptMap.get_set] at isOther
      split at isOther
      · rename_i same
        cases isOther
        exact ⟨by simp [same], Nat.lt_succ_self _⟩
      · obtain ⟨named, old⟩ := registry.named isOther
        have apart : object ≠ state.nextObject := Nat.ne_of_lt old
        exact ⟨by simp [apart, named], Nat.lt_succ_of_lt old⟩
    · intro object gone
      have apart : object ≠ state.nextObject := by
        rintro rfl
        exact gone lane (by simp)
      have before : ∀ other, state.lanes.get other ≠ some object := by
        intro other isOther
        have kept := gone other
        dsimp only at kept
        rw [ScriptMap.get_set] at kept
        split at kept
        · rename_i same
          subst same
          rw [there] at isOther
          cases isOther
        · exact kept isOther
      simpa [apart] using registry.released before

theorem get_ensureLane (state : QueueState) (lane : String) :
    (state.ensureLane lane).lanes.get lane = some ((state.ensureLane lane).objectOf lane) := by
  cases there : state.lanes.get lane with
  | some object => rw [ensureLane_of_get there, objectOf, there]; rfl
  | none => rw [ensureLane_new there]; simp [objectOf]

theorem active_ensureLane (state : QueueState) (registry : state.Registry) (lane member : String) :
    (state.ensureLane lane).getMemberActiveCount member = state.getMemberActiveCount member := by
  cases there : state.lanes.get lane with
  | some object => rw [ensureLane_of_get there]
  | none =>
    rw [ensureLane_new there]
    unfold getMemberActiveCount laneAt
    dsimp only
    rw [ScriptMap.get_set]
    split
    · rename_i same
      subst same
      simp [there]
    · cases isMember : state.lanes.get member with
      | none => rfl
      | some object =>
        have apart : object ≠ state.nextObject := Nat.ne_of_lt (registry.named isMember).2
        simp [apart]

theorem retire_cases (state : QueueState) (object : Nat) : state.retireIdleScopedCommandLane object = state ∨
      ((state.heap object).activeTaskIds = [] ∧ (state.heap object).queue = [] ∧
        state.lanes.get (state.heap object).lane = some object ∧
        state.retireIdleScopedCommandLane object =
          { state with lanes := state.lanes.remove (state.heap object).lane }) := by
  unfold retireIdleScopedCommandLane
  dsimp only
  split
  · exact .inl rfl
  · rename_i idle
    split
    · rename_i registered
      simp only [Bool.or_eq_true, not_or, Bool.not_eq_true', Bool.not_eq_true, Bool.not_eq_false,
        List.isEmpty_iff] at idle
      exact .inr ⟨idle.1.1.1.2, idle.1.1.2, registered, rfl⟩
    · exact .inl rfl

theorem Registry.retire {state : QueueState} (registry : state.Registry) (object : Nat) :
    (state.retireIdleScopedCommandLane object).Registry := by
  rcases retire_cases state object with same | ⟨active, queue, isLane, after⟩
  · rw [same]
    exact registry
  · rw [after]
    constructor
    · intro other otherObject isOther
      dsimp only at isOther
      rw [ScriptMap.get_remove] at isOther
      split at isOther
      · cases isOther
      · exact registry.named isOther
    · intro other gone
      by_cases same : other = object
      · subst same
        exact ⟨queue, active⟩
      · apply registry.released
        intro lane isOther
        have kept := gone lane
        dsimp only at kept
        rw [ScriptMap.get_remove] at kept
        split at kept
        · rename_i sameLane
          rw [← sameLane, isLane] at isOther
          cases isOther
          exact same rfl
        · exact kept isOther

theorem active_retire (state : QueueState) (object : Nat) (member : String) :
    (state.retireIdleScopedCommandLane object).getMemberActiveCount member = state.getMemberActiveCount member := by
  rcases retire_cases state object with same | ⟨active, _, isLane, after⟩
  · rw [same]
  · rw [after]
    unfold getMemberActiveCount laneAt
    dsimp only
    rw [ScriptMap.get_remove]
    split
    · rename_i sameLane
      rw [← sameLane, isLane]
      simp [active]
    · rfl

end QueueState

inductive Move : World → World → Prop
  | make (world : World) (lane : String) : Move world (world.onQueue fun queue => queue.ensureLane lane)
  | start {world : World} {lane : String} {object : Nat}
      (registered : world.queue.lanes.get lane = some object)
      (possible : world.canStart lane object = true) : Move world (world.startNext lane object)
  | flag {world : World} {lane : String} {object : Nat}
      (registered : world.queue.lanes.get lane = some object) (draining : Bool) :
      Move world (world.onQueue fun queue =>
        queue.updateObject object fun state => { state with draining })
  | retire (world : World) (object : Nat) :
      Move world (world.onQueue fun queue => queue.retireIdleScopedCommandLane object)

theorem moves_invariant {P : World → Prop} (kept : ∀ {before after}, Move before after → P before → P after)
    {before after : World} (moves : ReflTransGen Move before after) (holds : P before) : P after := by
  induction moves with
  | refl => exact holds
  | tail _ move ih => exact kept move ih

namespace World

@[simp] theorem queue_onQueue (world : World) (change : QueueState → QueueState) :
    (world.onQueue change).queue = change world.queue := rfl

/-- No pump is running. -/
def Idle (world : World) : Prop :=
  ∀ object, (world.queue.heap object).draining = false

theorem canStart_iff {world : World} {lane : String} {object : Nat} : world.canStart lane object = true ↔
      (world.queue.heap object).activeTaskIds.length < (world.queue.heap object).maxConcurrent ∧
        (world.queue.heap object).queue ≠ [] ∧ world.queue.canAdmitInGroup lane = true := by
  simp [canStart, and_assoc]

theorem startNext_eq {world : World} {lane : String} {object : Nat} {entry : QueueEntry}
    {rest : List QueueEntry} (front : (world.queue.heap object).queue = entry :: rest) :
    world.startNext lane object =
      let task : RunningTask :=
        ⟨world.queue.nextTaskId, entry, lane, object, (world.queue.heap object).generation⟩
      { world with
        queue := { world.queue.updateObject object fun state =>
            { state with queue := rest, activeTaskIds := state.activeTaskIds ++ [task.taskId] } with
          nextTaskId := world.queue.nextTaskId + 1 }
        running := world.running ++ [task]
        started := world.started ++ [⟨world.queue, task⟩] } := by
  rw [startNext, front]

@[simp] theorem lanes_startNext (world : World) (lane : String) (object : Nat) :
    (world.startNext lane object).queue.lanes = world.queue.lanes := by
  cases front : (world.queue.heap object).queue with
  | nil => rw [startNext, front]
  | cons => rw [startNext_eq front]; rfl

theorem sameGroups_startNext (world : World) (lane : String) (object : Nat) :
    QueueState.SameGroups world.queue (world.startNext lane object).queue := by
  cases front : (world.queue.heap object).queue with
  | nil => rw [startNext, front]; exact .refl _
  | cons => rw [startNext_eq front]; exact ⟨rfl, rfl⟩

theorem heap_startNext_other (world : World) (lane : String) {object other : Nat} (apart : other ≠ object) :
    (world.startNext lane object).queue.heap other = world.queue.heap other := by
  cases front : (world.queue.heap object).queue with
  | nil => rw [startNext, front]
  | cons => rw [startNext_eq front]; simp [apart]

theorem draining_startNext (world : World) (lane : String) (object other : Nat) :
    ((world.startNext lane object).queue.heap other).draining = (world.queue.heap other).draining := by
  cases front : (world.queue.heap object).queue with
  | nil => rw [startNext, front]
  | cons =>
    rw [startNext_eq front]
    dsimp only
    rw [QueueState.heap_updateObject]
    split
    · rename_i same
      rw [same]
    · rfl

theorem length_startNext {world : World} (lane : String) {object : Nat}
    (waiting : (world.queue.heap object).queue ≠ []) :
    ((world.startNext lane object).queue.heap object).queue.length + 1 = (world.queue.heap object).queue.length := by
  obtain ⟨entry, rest, front⟩ := List.exists_cons_of_ne_nil waiting
  rw [startNext_eq front, front]
  simp

theorem pumpRounds_moves {lane : String} {object : Nat} (rounds : Nat) (world : World)
    (registered : world.queue.lanes.get lane = some object) :
    ReflTransGen Move world (pumpRounds lane object rounds world) ∧
      (pumpRounds lane object rounds world).queue.lanes.get lane = some object := by
  induction rounds generalizing world with
  | zero => exact ⟨.refl, registered⟩
  | succ rounds ih =>
    unfold pumpRounds
    split
    · rename_i possible
      obtain ⟨moves, still⟩ := ih (world.startNext lane object) (by simpa using registered)
      exact ⟨.head (.start registered possible) moves, still⟩
    · exact ⟨.refl, registered⟩

theorem pumpRounds_draining {lane : String} {object : Nat} (rounds : Nat) (world : World) (other : Nat) :
    ((pumpRounds lane object rounds world).queue.heap other).draining = (world.queue.heap other).draining := by
  induction rounds generalizing world with
  | zero => rfl
  | succ rounds ih =>
    unfold pumpRounds
    split
    · rw [ih, draining_startNext]
    · rfl

theorem pumpRounds_stops {lane : String} {object : Nat} (rounds : Nat) {world : World}
    (enough : (world.queue.heap object).queue.length ≤ rounds) :
    (pumpRounds lane object rounds world).canStart lane object = false := by
  induction rounds generalizing world with
  | zero =>
    have empty : (world.queue.heap object).queue = [] :=
      List.eq_nil_of_length_eq_zero (Nat.le_zero.mp enough)
    simp [pumpRounds, canStart, empty]
  | succ rounds ih =>
    unfold pumpRounds
    split
    · rename_i possible
      have waiting := (canStart_iff.mp possible).2.1
      have shorter := length_startNext lane waiting
      exact ih (by omega)
    · rename_i stopped
      simpa using stopped

/-- A lane that has no object has nothing to start, and neither has one that is blocked. -/
def Blocked (world : World) (lane : String) : Prop :=
  ∀ object, world.queue.lanes.get lane = some object → world.canStart lane object = false

end World

open QueueState World in
theorem Move.registry {before after : World} (move : Move before after)
    (registry : before.queue.Registry) : after.queue.Registry := by
  cases move with
  | make lane => exact registry.ensureLane lane
  | start registered possible =>
    obtain ⟨_, waiting, _⟩ := canStart_iff.mp possible
    obtain ⟨entry, rest, front⟩ := List.exists_cons_of_ne_nil waiting
    rw [startNext_eq front]
    have updated := registry.update registered (fun state =>
      { state with queue := rest, activeTaskIds := state.activeTaskIds ++ [before.queue.nextTaskId] })
      fun _ => rfl
    exact ⟨updated.named, updated.released⟩
  | flag registered draining => exact registry.update registered (fun state => { state with draining }) fun _ => rfl
  | retire object => exact registry.retire object

theorem Move.sameGroups {before after : World} (move : Move before after) :
    QueueState.SameGroups before.queue after.queue := by
  cases move with
  | make lane => exact QueueState.sameGroups_ensureLane before.queue lane
  | start => exact World.sameGroups_startNext before _ _
  | flag => exact ⟨rfl, rfl⟩
  | retire object =>
    rcases QueueState.retire_cases before.queue object with same | ⟨_, _, _, same⟩
    · rw [World.queue_onQueue, same]
      exact .refl _
    · rw [World.queue_onQueue, same]
      exact ⟨rfl, rfl⟩

namespace World

theorem active_startNext {world : World} {lane : String} {object : Nat}
    (registry : world.queue.Registry) (registered : world.queue.lanes.get lane = some object)
    (waiting : (world.queue.heap object).queue ≠ []) (member : String) :
    (world.startNext lane object).queue.getMemberActiveCount member =
      world.queue.getMemberActiveCount member + if member = lane then 1 else 0 := by
  unfold QueueState.getMemberActiveCount QueueState.laneAt
  rw [lanes_startNext]
  by_cases same : member = lane
  · obtain ⟨entry, rest, front⟩ := List.exists_cons_of_ne_nil waiting
    rw [same, registered, startNext_eq front]
    simp
  · cases isMember : world.queue.lanes.get member with
    | none => simp [same]
    | some other =>
      have apart := registry.apart registered isMember same
      simp [same, heap_startNext_other world lane apart]

/-- What decides whether a lane can start anything. -/
theorem blocked_iff {world : World} {lane : String} :
    world.Blocked lane ↔ ∀ found, world.queue.laneAt lane = some found → found.queue ≠ [] →
      found.activeTaskIds.length < found.maxConcurrent → ¬ world.queue.Admits lane := by
  constructor
  · intro blocked found there waiting room admits
    obtain ⟨object, registered, rfl⟩ := QueueState.laneAt_eq_some_iff.mp there
    have stopped := blocked object registered
    rw [canStart_iff.mpr ⟨room, waiting, (QueueState.canAdmitInGroup_iff there room).mpr admits⟩] at stopped
    cases stopped
  · intro refused object registered
    apply Bool.eq_false_iff.mpr
    intro possible
    obtain ⟨room, waiting, admits⟩ := canStart_iff.mp possible
    have there := QueueState.laneAt_eq_some_iff.mpr ⟨object, registered, rfl⟩
    exact refused _ there waiting room ((QueueState.canAdmitInGroup_iff there room).mp admits)

theorem Blocked.of_same {before after : World} {lane : String} (blocked : before.Blocked lane)
    (there : ∀ found, after.queue.laneAt lane = some found → found.queue ≠ [] →
      ∃ old, before.queue.laneAt lane = some old ∧ old.queue ≠ [] ∧
        (found.activeTaskIds.length < found.maxConcurrent → old.activeTaskIds.length < old.maxConcurrent))
    (admits : after.queue.Admits lane → before.queue.Admits lane) : after.Blocked lane := by
  apply blocked_iff.mpr
  intro found isLane waiting room isAdmitted
  obtain ⟨old, isOld, oldWaiting, oldRoom⟩ := there found isLane waiting
  exact blocked_iff.mp blocked old isOld oldWaiting (oldRoom room) (admits isAdmitted)

end World

open QueueState World in
theorem Move.blocked {before after : World} (move : Move before after)
    (registry : before.queue.Registry) {lane : String} (blocked : before.Blocked lane) :
    after.Blocked lane := by
  cases move with
  | make made =>
    apply blocked.of_same
    · intro found there waiting
      obtain ⟨object, registered, rfl⟩ := laneAt_eq_some_iff.mp there
      cases isMade : before.queue.lanes.get made with
      | some old =>
        rw [queue_onQueue, ensureLane_of_get isMade] at registered waiting ⊢
        exact ⟨_, laneAt_eq_some_iff.mpr ⟨object, registered, rfl⟩, waiting, id⟩
      | none =>
        rw [queue_onQueue, ensureLane_new isMade] at registered waiting ⊢
        dsimp only at registered
        rw [ScriptMap.get_set] at registered
        split at registered
        · cases registered
          simp at waiting
        · have apart : object ≠ before.queue.nextObject :=
            Nat.ne_of_lt (registry.named registered).2
          simp only [heap_setObject, if_neg apart] at waiting ⊢
          exact ⟨_, laneAt_eq_some_iff.mpr ⟨object, registered, rfl⟩, waiting, id⟩
    · have counted := active_ensureLane before.queue registry made
      exact Admits.of_more (sameGroups_ensureLane before.queue made)
        (fun member => Nat.le_of_eq (counted member).symm) (counted lane)
  | @start started object registered possible =>
    have waitingStarted := (canStart_iff.mp possible).2.1
    have counted := active_startNext registry registered waitingStarted
    have apart : lane ≠ started := by
      rintro rfl
      rw [blocked object registered] at possible
      cases possible
    apply blocked.of_same
    · intro found there waiting
      obtain ⟨other, isLane, rfl⟩ := laneAt_eq_some_iff.mp there
      rw [lanes_startNext] at isLane
      have others := registry.apart registered isLane apart
      rw [heap_startNext_other before started others] at waiting ⊢
      exact ⟨_, laneAt_eq_some_iff.mpr ⟨other, isLane, rfl⟩, waiting, id⟩
    · apply Admits.of_more (sameGroups_startNext before started object)
      · intro member
        rw [counted]
        exact Nat.le_add_right _ _
      · rw [counted, if_neg apart]
        rfl
  | @flag flagged object registered draining =>
    have heap : ∀ other, ((before.queue.updateObject object fun state =>
        { state with draining }).heap other).activeTaskIds = (before.queue.heap other).activeTaskIds :=
      field_updateObject LaneState.activeTaskIds (fun state => { state with draining }) (fun _ => rfl)
        before.queue object
    have counted : ∀ member, (before.queue.updateObject object fun state =>
        { state with draining }).getMemberActiveCount member = before.queue.getMemberActiveCount member := by
      intro member
      unfold getMemberActiveCount laneAt
      rw [lanes_updateObject]
      cases before.queue.lanes.get member with
      | none => rfl
      | some other => simp only [Option.map_some, Option.getD_some, heap other]
    apply blocked.of_same
    · intro found there waiting
      obtain ⟨other, isLane, rfl⟩ := laneAt_eq_some_iff.mp there
      refine ⟨_, laneAt_eq_some_iff.mpr ⟨other, isLane, rfl⟩, ?_⟩
      rw [queue_onQueue, heap_updateObject] at waiting ⊢
      split at waiting
      · rename_i same
        subst same
        simpa using waiting
      · rename_i others
        rw [if_neg others]
        exact ⟨waiting, id⟩
    · exact Admits.of_more ⟨rfl, rfl⟩ (fun member => Nat.le_of_eq (counted member).symm)
        (counted lane)
  | retire object =>
    have counted := active_retire before.queue object
    apply blocked.of_same
    · intro found there waiting
      refine ⟨found, ?_, waiting, id⟩
      rw [queue_onQueue] at there
      rcases retire_cases before.queue object with same | ⟨_, _, _, after⟩
      · rwa [same] at there
      · rw [after, laneAt_eq_some_iff] at there
        obtain ⟨other, isLane, found⟩ := there
        dsimp only at isLane
        rw [ScriptMap.get_remove] at isLane
        split at isLane
        · cases isLane
        · exact laneAt_eq_some_iff.mpr ⟨other, isLane, found⟩
    · exact Admits.of_more (Move.retire before object).sameGroups
        (fun member => Nat.le_of_eq (counted member).symm) (counted lane)

/-- Between two worlds there are only moves, and no pump is left running. -/
structure Drained (before after : World) : Prop where
  moves : ReflTransGen Move before after
  idle : after.Idle

theorem Drained.invariant {P : World → Prop}
    (kept : ∀ {before after}, Move before after → P before → P after) {before after : World}
    (drained : Drained before after) (holds : P before) : P after :=
  moves_invariant kept drained.moves holds

theorem Drained.trans {first middle last : World} (early : Drained first middle)
    (late : Drained middle last) : Drained first last :=
  ⟨early.moves.trans late.moves, late.idle⟩

theorem Drained.registry {before after : World} (drained : Drained before after)
    (registry : before.queue.Registry) : after.queue.Registry :=
  drained.invariant (P := fun world => world.queue.Registry) Move.registry registry

theorem Drained.sameGroups {before after : World} (drained : Drained before after) :
    QueueState.SameGroups before.queue after.queue :=
  drained.invariant (P := fun world => QueueState.SameGroups before.queue world.queue)
    (fun move same => ⟨move.sameGroups.groups.trans same.groups,
      move.sameGroups.groupByLane.trans same.groupByLane⟩) (.refl _)

theorem Drained.blocked {before after : World} (drained : Drained before after)
    (registry : before.queue.Registry) {lane : String} (blocked : before.Blocked lane) :
    after.Blocked lane := by
  have both := drained.invariant (P := fun world => world.queue.Registry ∧ world.Blocked lane)
    (fun move holds => ⟨move.registry holds.1, move.blocked holds.1 holds.2⟩)
    ⟨registry, blocked⟩
  exact both.2

namespace World

/-- What a drain of a lane comes to: it ends, and the lane has nothing to start. -/
structure Settles (before after : World) (lane : String) : Prop extends Drained before after where
  stopped : after.Blocked lane

variable {world : World}

theorem pump_settles {lane : String} {object : Nat} (registry : world.queue.Registry)
    (registered : world.queue.lanes.get lane = some object)
    (others : ∀ other, other ≠ object → (world.queue.heap other).draining = false) :
    world.Settles (world.pump lane object) lane := by
  obtain ⟨moves, still⟩ := pumpRounds_moves (world.queue.heap object).queue.length world registered
  have pumped := moves_invariant (P := fun world => world.queue.Registry) Move.registry moves registry
  have stops : (pumpRounds lane object (world.queue.heap object).queue.length world).Blocked lane := by
    intro other isLane
    rw [still] at isLane
    cases isLane
    exact pumpRounds_stops _ (Nat.le_refl _)
  have released := Move.flag still false
  have retired := Move.retire _ object |>.blocked (released.registry pumped) (released.blocked pumped stops)
  refine ⟨⟨(moves.tail released).tail (.retire _ object), ?_⟩, retired⟩
  intro other
  unfold pump
  rcases QueueState.retire_cases ((pumpRounds lane object (world.queue.heap object).queue.length
      world).queue.updateObject object fun state => { state with draining := false }) object with
    same | ⟨_, _, _, same⟩
  · rw [queue_onQueue, same, QueueState.heap_updateObject]
    split
    · rfl
    · rename_i apart
      rw [pumpRounds_draining]
      exact others other apart
  · rw [queue_onQueue, same]
    dsimp only
    rw [QueueState.heap_updateObject]
    split
    · rfl
    · rename_i apart
      rw [pumpRounds_draining]
      exact others other apart

theorem idle_ensureLane (idle : world.Idle) (lane : String) :
    (world.onQueue fun queue => queue.ensureLane lane).Idle := by
  intro other
  rw [queue_onQueue]
  cases there : world.queue.lanes.get lane with
  | some object =>
    rw [QueueState.ensureLane_of_get there]
    exact idle other
  | none =>
    rw [QueueState.ensureLane_new there]
    dsimp only
    rw [QueueState.heap_setObject]
    split
    · rfl
    · exact idle other

theorem drainLane_settles (registry : world.queue.Registry) (idle : world.Idle) (lane : String) :
    world.Settles (world.drainLane lane) lane := by
  have registered := world.queue.get_ensureLane lane
  have made : Drained world (world.onQueue fun queue => queue.ensureLane lane) :=
    ⟨.single (.make world lane), idle_ensureLane idle lane⟩
  have free := made.idle ((world.queue.ensureLane lane).objectOf lane)
  have flagged := @Move.flag (world.onQueue fun queue => queue.ensureLane lane) _ _ registered true
  have settled := pump_settles (flagged.registry (made.registry registry)) registered (by
    intro other apart
    rw [queue_onQueue, QueueState.heap_updateObject, if_neg apart]
    exact made.idle other)
  have unfolded : world.drainLane lane = ((world.onQueue fun queue => queue.ensureLane lane).onQueue
      fun queue => queue.updateObject ((world.queue.ensureLane lane).objectOf lane)
        fun state => { state with draining := true }).pump lane
          ((world.queue.ensureLane lane).objectOf lane) := by
    unfold drainLane
    exact if_neg (by simpa using free)
  rw [unfolded]
  exact ⟨⟨(made.moves.tail flagged).trans settled.moves, settled.idle⟩, settled.stopped⟩

theorem settles_refl (idle : world.Idle) {lane : String} (nothing : world.Blocked lane) : world.Settles world lane :=
  ⟨⟨.refl, idle⟩, nothing⟩

theorem drainMember_settles (registry : world.queue.Registry) (idle : world.Idle) (lane : String) :
    world.Settles (world.drainMember lane) lane := by
  cases there : world.queue.laneAt lane with
  | none =>
    rw [drainMember, there]
    apply settles_refl idle
    apply blocked_iff.mpr
    intro found isLane
    rw [there] at isLane
    cases isLane
  | some state =>
    rw [drainMember, there]
    dsimp only
    split
    · exact drainLane_settles registry idle lane
    · rename_i skipped
      obtain ⟨object, _, rfl⟩ := QueueState.laneAt_eq_some_iff.mp there
      have empty : (world.queue.heap object).queue = [] := by simpa [idle object] using skipped
      apply settles_refl idle
      apply blocked_iff.mpr
      intro found isLane waiting
      rw [there] at isLane
      cases isLane
      exact absurd empty waiting

theorem commitDrain_settles (registry : world.queue.Registry) (idle : world.Idle) (lane : String) :
    world.Settles (world.commitDrain lane) lane := by
  cases there : world.queue.laneAt lane with
  | none =>
    rw [commitDrain, there]
    apply settles_refl idle
    apply blocked_iff.mpr
    intro found isLane
    rw [there] at isLane
    cases isLane
  | some state =>
    rw [commitDrain, there]
    dsimp only
    split
    · exact drainLane_settles registry idle lane
    · rename_i skipped
      obtain ⟨object, _, rfl⟩ := QueueState.laneAt_eq_some_iff.mp there
      have none_ : 0 < (world.queue.heap object).maxConcurrent →
          (world.queue.heap object).queue = [] := by simpa [idle object] using skipped
      apply settles_refl idle
      apply blocked_iff.mpr
      intro found isLane waiting room
      rw [there] at isLane
      cases isLane
      exact absurd (none_ (by omega)) waiting

theorem drains_settle {drain : World → String → World}
    (settles : ∀ {world : World}, world.queue.Registry → world.Idle → ∀ lane,
      world.Settles (drain world lane) lane) (lanes : List String) {world : World}
    (registry : world.queue.Registry) (idle : world.Idle) :
    Drained world (lanes.foldl drain world) ∧ ∀ lane ∈ lanes, (lanes.foldl drain world).Blocked lane := by
  induction lanes generalizing world with
  | nil => exact ⟨⟨.refl, idle⟩, fun _ none_ => absurd none_ List.not_mem_nil⟩
  | cons lane rest ih =>
    have first := settles registry idle lane
    obtain ⟨later, stopped⟩ := ih (first.registry registry) first.idle
    refine ⟨first.toDrained.trans later, ?_⟩
    intro other isOther
    rcases List.mem_cons.mp isOther with rfl | inRest
    · exact later.blocked (first.registry registry) first.stopped
    · exact stopped other inRest

theorem drainGroupSiblings_settles (registry : world.queue.Registry) (idle : world.Idle) (lane : String) :
    Drained world (world.drainGroupSiblings lane) ∧
      ∀ group, world.queue.getLaneGroup lane = some group → ∀ member ∈ group.members,
        member ≠ lane → (world.drainGroupSiblings lane).Blocked member := by
  unfold drainGroupSiblings
  cases world.queue.getLaneGroup lane with
  | none => exact ⟨⟨.refl, idle⟩, fun _ isGroup => by cases isGroup⟩
  | some group =>
    obtain ⟨drained, stopped⟩ := drains_settle drainMember_settles
      (group.members.rows.filter fun member => member ≠ lane) registry idle
    refine ⟨drained, ?_⟩
    rintro _ ⟨⟩ member inMembers apart
    exact stopped member (List.mem_filter.mpr ⟨inMembers, by simpa using apart⟩)

end World

end PlatformClaw.Lanes
