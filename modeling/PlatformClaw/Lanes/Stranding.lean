import PlatformClaw.Lanes.QueueRuns

/-! # No lane is left waiting

After every operation no lane that has queued entries could start one, provided
that a published configuration drains every lane that it frees.
-/

namespace PlatformClaw.Lanes

open Relation QueueState World

namespace World

variable {world : World}

/-- No lane holds a queued entry that it could start. -/
def NoneStranded (world : World) : Prop :=
  ∀ lane, world.Blocked lane

theorem Blocked.of_queue {before after : World} {lane : String} (blocked : before.Blocked lane)
    (same : after.queue = before.queue) : after.Blocked lane := by
  apply blocked_iff.mpr
  rw [same]
  exact blocked_iff.mp blocked

theorem active_same {queue : QueueState} (object : Nat) (change : LaneState → LaneState)
    (keeps : ∀ found, (change found).activeTaskIds = found.activeTaskIds) (member : String) :
    (queue.updateObject object change).getMemberActiveCount member = queue.getMemberActiveCount member := by
  unfold getMemberActiveCount laneAt
  rw [lanes_updateObject]
  cases queue.lanes.get member with
  | none => rfl
  | some other =>
    simp only [Option.map_some, Option.getD_some]
    rw [field_updateObject LaneState.activeTaskIds change keeps]

theorem active_other {queue : QueueState} (registry : queue.Registry) {lane : String} {object : Nat}
    (registered : queue.lanes.get lane = some object) (change : LaneState → LaneState)
    {member : String} (apart : member ≠ lane) :
    (queue.updateObject object change).getMemberActiveCount member = queue.getMemberActiveCount member := by
  unfold getMemberActiveCount laneAt
  rw [lanes_updateObject]
  cases isMember : queue.lanes.get member with
  | none => rfl
  | some other =>
    simp only [Option.map_some, Option.getD_some, heap_updateObject,
      if_neg (registry.apart registered isMember apart)]

theorem Blocked.of_update (registry : world.queue.Registry) (grouped : world.queue.Grouped)
    {lane : String} {object : Nat} (registered : world.queue.lanes.get lane = some object)
    (change : LaneState → LaneState) {other : String} (blocked : world.Blocked other)
    (apart : other ≠ lane) (outside : (∀ found, (change found).activeTaskIds = found.activeTaskIds) ∨
      ∀ group, world.queue.getLaneGroup lane = some group → other ∉ group.members) :
    (world.onQueue fun queue => queue.updateObject object change).Blocked other := by
  apply blocked.of_same
  · intro found there waiting
    obtain ⟨otherObject, isOther, rfl⟩ := laneAt_eq_some_iff.mp there
    have differ := registry.apart registered isOther apart
    rw [queue_onQueue, heap_updateObject, if_neg differ] at waiting ⊢
    exact ⟨_, laneAt_eq_some_iff.mpr ⟨otherObject, isOther, rfl⟩, waiting, id⟩
  · intro admits group isGroup
    obtain ⟨name, there, inGroup⟩ := grouped.getLaneGroup_iff.mp isGroup
    refine (hasRoom_congr inGroup ?_).mp (admits group isGroup)
    intro member isMember
    rcases outside with same | outside
    · exact active_same object change same member
    · apply active_other registry registered change
      rintro rfl
      exact outside group (grouped.getLaneGroup_iff.mpr ⟨name, there, isMember⟩) inGroup

theorem blocked_of_empty {lane : String} {object : Nat} (registered : world.queue.lanes.get lane = some object)
    (empty : (world.queue.heap object).queue = []) : world.Blocked lane := by
  intro other isLane
  rw [registered] at isLane
  cases isLane
  simp [canStart, empty]

theorem withEntry_blocked (settled : Settled world) (none_ : world.NoneStranded) (lane : String)
    (priority : Priority) {other : String} (apart : other ≠ lane) :
    (world.withEntry lane priority).Blocked other := by
  have made : Move world (world.onQueue fun queue => queue.ensureLane lane) := .make world lane
  have registry := made.registry settled.lawful.registry
  have updated := (made.blocked settled.lawful.registry (none_ other)).of_update registry
    (made.sameGroups.grouped settled.lawful.grouped) (world.queue.get_ensureLane lane)
    (fun state => { state with queue := insertEntry ⟨(world.queue.ensureLane lane).nextQueueSequence,
      resolveQueuePriority priority⟩ state.queue }) apart (.inl fun _ => rfl)
  exact fun object isLane => updated object isLane

theorem setWidth_blocked (settled : Settled world) (none_ : world.NoneStranded) (lane : String)
    (maxConcurrent : Int) {other : String} (apart : other ≠ lane) :
    (world.onQueue fun queue => setWidth queue lane maxConcurrent).Blocked other := by
  have made : Move world (world.onQueue fun queue => queue.ensureLane lane) := .make world lane
  exact (made.blocked settled.lawful.registry (none_ other)).of_update
    (made.registry settled.lawful.registry) (made.sameGroups.grouped settled.lawful.grouped)
    (world.queue.get_ensureLane lane)
    (fun state => { state with maxConcurrent := widthOf lane maxConcurrent }) apart (.inl fun _ => rfl)

theorem noneStranded_of_drains {middle after : World} {lane : String} (drained : Drained middle after)
    (registry : middle.queue.Registry)
    (others : ∀ other, other ≠ lane → (∀ group, middle.queue.getLaneGroup lane = some group → other ∉ group.members) →
        middle.Blocked other)
    (own : after.Blocked lane)
    (siblings : ∀ group, middle.queue.getLaneGroup lane = some group → ∀ member ∈ group.members,
      member ≠ lane → after.Blocked member) : after.NoneStranded := by
  intro other
  by_cases same : other = lane
  · rw [same]
    exact own
  · by_cases inside : ∃ group, middle.queue.getLaneGroup lane = some group ∧ other ∈ group.members
    · obtain ⟨group, isGroup, inGroup⟩ := inside
      exact siblings group isGroup other inGroup same
    · exact drained.blocked registry (others other same fun group isGroup inGroup =>
        inside ⟨group, isGroup, inGroup⟩)

theorem endTask_none (settled : Settled world) (none_ : world.NoneStranded) {task : RunningTask}
    (running : task ∈ world.running) (succeeded : Bool) :
    (world.endTask task succeeded).NoneStranded := by
  by_cases current : task.generation = (world.queue.heap task.object).generation
  · rw [endTask_current current]
    have active : task.taskId ∈ (world.queue.heap task.object).activeTaskIds :=
      settled.lawful.tasks.active.mpr ⟨task, running, rfl, rfl, current⟩
    have registered := settled.lawful.registry.of_active (List.ne_nil_of_mem active)
    rw [(settled.lawful.tasks.owned running).2.1] at registered
    have released : Effect (fun _ => False) (world, [])
        (world.withoutTask task, [task.entry.sequence]) := .release running current
    have registry := released.registry settled.lawful.registry
    have idleReleased : (world.withoutTask task).Idle :=
      (show ({ world with running := world.running.erase task } : World).Idle from settled.idle).of_update _
        (fun state => { state with activeTaskIds := state.activeTaskIds.filter (· ≠ task.taskId) })
        fun _ still => still
    have pumped := pump_settles registry registered fun other _ => idleReleased other
    obtain ⟨drained, siblings⟩ :=
      drainGroupSiblings_settles (pumped.registry registry) pumped.idle task.lane
    have finished := noneStranded_of_drains (pumped.toDrained.trans drained) registry (fun other apart outside => by
        have before : ({ world with running := world.running.erase task } : World).Blocked other :=
          (none_ other).of_queue rfl
        exact before.of_update settled.lawful.registry settled.lawful.grouped registered _ apart (.inr outside))
      (drained.blocked (pumped.registry registry) pumped.stopped)
      (fun group isGroup => siblings group ((pumped.toDrained.sameGroups.getLaneGroup _).trans isGroup))
    exact fun lane => (finished lane).of_queue rfl
  · rw [endTask_stale current]
    exact fun lane => (none_ lane).of_queue rfl

theorem clearCommandLane_none (settled : Settled world) (none_ : world.NoneStranded)
    (rawLane : String) : (world.clearCommandLane rawLane).NoneStranded := by
  cases registered : world.queue.lanes.get (normalizeLane rawLane) with
  | none =>
    rw [clearCommandLane, registered]
    exact none_
  | some object =>
    rw [clearCommandLane, registered]
    intro other
    by_cases same : other = normalizeLane rawLane
    · rw [same]
      exact blocked_of_empty registered (by simp)
    · have kept := (none_ other).of_update settled.lawful.registry settled.lawful.grouped registered
        (fun state => { state with queue := [] }) same (.inl fun _ => rfl)
      exact kept.of_queue rfl

theorem resetCommandLane_none (settled : Settled world) (none_ : world.NoneStranded)
    (rawLane : String) : (world.resetCommandLane rawLane).NoneStranded := by
  cases registered : world.queue.lanes.get (normalizeLane rawLane) with
  | none =>
    rw [resetCommandLane]
    dsimp only
    rw [registered]
    exact none_
  | some object =>
    rw [resetCommandLane_eq registered]
    have reseted : Effect (fun _ => False) (world, [])
        (world.onQueue fun queue => queue.updateObject object reset, []) := .reset registered
    have registry := reseted.registry settled.lawful.registry
    have idleReset := settled.idle.of_update object reset fun _ _ => rfl
    have others : ∀ other, other ≠ normalizeLane rawLane →
        (∀ group, (world.onQueue fun queue => queue.updateObject object reset).queue.getLaneGroup
          (normalizeLane rawLane) = some group → other ∉ group.members) →
        (world.onQueue fun queue => queue.updateObject object reset).Blocked other :=
      fun other apart outside => (none_ other).of_update settled.lawful.registry
        settled.lawful.grouped registered reset apart (.inr outside)
    split
    · rename_i empty
      obtain ⟨drained, siblings⟩ :=
        drainGroupSiblings_settles registry idleReset (normalizeLane rawLane)
      have own : (world.onQueue fun queue => queue.updateObject object reset).Blocked (normalizeLane rawLane) :=
        blocked_of_empty registered (List.isEmpty_iff.mp empty)
      exact noneStranded_of_drains drained registry others (drained.blocked registry own) siblings
    · have own := drainLane_settles registry idleReset (normalizeLane rawLane)
      obtain ⟨drained, siblings⟩ :=
        drainGroupSiblings_settles (own.registry registry) own.idle (normalizeLane rawLane)
      exact noneStranded_of_drains (own.toDrained.trans drained) registry others
        (drained.blocked (own.registry registry) own.stopped)
        (fun group isGroup => siblings group ((own.toDrained.sameGroups.getLaneGroup _).trans isGroup))

theorem resetAllLanes_none (settled : Settled world) : world.resetAllLanes.NoneStranded := by
  rw [resetAllLanes_eq]
  obtain ⟨resets, idleReset⟩ := @withResets_effects (fun _ => False) world [] settled.idle
  have registry := (resets.lawful settled.lawful).registry
  obtain ⟨drained, stopped⟩ :=
    drains_settle drainLane_settles world.withResets.lanesToDrain registry idleReset
  intro lane
  by_cases queued : lane ∈ world.withResets.lanesToDrain
  · exact stopped lane queued
  · apply drained.blocked registry
    intro object registered
    by_cases empty : (world.withResets.queue.heap object).queue = []
    · simp [canStart, empty]
    · refine absurd ?_ queued
      apply List.mem_filterMap.mpr
      refine ⟨(lane, object), ScriptMap.get_eq_some_iff.mp registered, ?_⟩
      rw [if_neg (by simpa using empty), (registry.named registered).1]

theorem setCommandLaneConcurrency_none (settled : Settled world) (none_ : world.NoneStranded)
    (rawLane : String) (maxConcurrent : Int) :
    (world.setCommandLaneConcurrency rawLane maxConcurrent).NoneStranded := by
  obtain ⟨widened, idleWidened⟩ := @setWidth_effects (fun _ => False) [] world (normalizeLane rawLane)
    maxConcurrent settled.idle
  have registry := (widened.lawful settled.lawful).registry
  have others := fun other => @setWidth_blocked world settled none_ (normalizeLane rawLane) maxConcurrent other
  unfold setCommandLaneConcurrency
  dsimp only
  split
  · have drained := drainLane_settles registry idleWidened (normalizeLane rawLane)
    intro other
    by_cases same : other = normalizeLane rawLane
    · rw [same]
      exact drained.stopped
    · exact drained.blocked registry (others other same)
  · rename_i narrow
    intro other
    by_cases same : other = normalizeLane rawLane
    · -- a lane of no width starts nothing
      intro object registered
      rw [same] at registered
      have isLane := world.queue.get_ensureLane (normalizeLane rawLane)
      rw [queue_onQueue] at registered
      unfold setWidth at registered
      rw [lanes_updateObject, isLane] at registered
      cases registered
      have noWidth : widthOf (normalizeLane rawLane) maxConcurrent = 0 := by omega
      simp [canStart, setWidth, noWidth]
    · exact others other same

/-- A lane that the transaction does not drain has nothing to start because of it: its group, if it
    has one, is not redefined without it and does not admit it once the lanes that the new groups
    take have left. -/
def FreesOnlyTouched (queue : QueueState) (config : LaneConfiguration) (groups : List LaneGroupState) : Prop :=
  ∀ lane, lane ∉ touched queue config groups → ∀ found, queue.laneAt lane = some found →
    found.queue ≠ [] → found.activeTaskIds.length < found.maxConcurrent →
      ∀ name group, queue.groupByLane.get lane = some name → queue.groups.get name = some group →
        (∀ next ∈ groups, next.group ≠ name) ∧ ¬ queue.HasRoom (group.leaving (membersOf groups)) lane

/-- What the transaction drains. -/
theorem untouched {queue : QueueState} {config : LaneConfiguration} {groups : List LaneGroupState}
    {lane : String} (free : lane ∉ touched queue config groups) :
    lane ∉ config.lanes.map (fun entry => normalizeLane entry.1) ∧
      (∀ name ∈ config.clearGroups, ∀ group, queue.groups.get name = some group →
        lane ∉ group.members) ∧ lane ∉ membersOf groups := by
  have gathered : ∀ groups : List LaneGroupState, ∀ set : ScriptSet,
      lane ∈ groups.foldl (fun touched group => touched.addAll group.members.rows) set ↔
        lane ∈ membersOf groups ∨ lane ∈ set := by
    intro groups
    induction groups with
    | nil => simp [membersOf]
    | cons group rest ih =>
      intro set
      rw [List.foldl_cons, ih, ScriptSet.mem_addAll]
      simp only [membersOf, List.flatMap_cons, List.mem_append]
      rw [← or_assoc, or_comm (a := lane ∈ List.flatMap _ rest)]
  have cleared : ∀ names : List String, ∀ queue : QueueState, ∀ set : ScriptSet,
      lane ∉ (names.foldl (fun acc name => (acc.1.clearCommandLaneGroup name,
        acc.2.addAll (((acc.1.groups.get name).map fun existing => existing.members.rows).getD [])))
          (queue, set)).2 → lane ∉ set ∧ ∀ name ∈ names, ∀ group, queue.groups.get name = some group →
            lane ∉ group.members := by
    intro names
    induction names with
    | nil => exact fun _ _ out => ⟨out, fun _ none_ => absurd none_ List.not_mem_nil⟩
    | cons first rest ih =>
      intro queue set out
      rw [List.foldl_cons] at out
      obtain ⟨here, later⟩ := ih _ _ out
      rw [ScriptSet.mem_addAll, not_or] at here
      refine ⟨here.2, ?_⟩
      intro name isName group isGroup inGroup
      by_cases same : first = name
      · rw [same, isGroup] at here
        exact here.1 inGroup
      · have inRest := (List.mem_cons.mp isName).resolve_left (Ne.symm same)
        refine later name inRest group ?_ inGroup
        rw [groups_clear, if_neg same, isGroup]
  unfold touched at free
  dsimp only at free
  rw [gathered, not_or] at free
  obtain ⟨outside, kept⟩ := cleared _ _ _ free.2
  rw [ScriptSet.mem_ofList] at outside
  exact ⟨outside, kept, free.1⟩

theorem widths_other {lane : String} (lanes : List (String × Int)) {world : World} (registry : world.queue.Registry)
    (free : lane ∉ lanes.map fun entry => normalizeLane entry.1) :
    (lanes.foldl (fun queue entry => setWidth queue (normalizeLane entry.1) entry.2) world.queue).laneAt
        lane = world.queue.laneAt lane ∧
      (∀ member, (lanes.foldl (fun queue entry =>
        setWidth queue (normalizeLane entry.1) entry.2) world.queue).getMemberActiveCount member =
          world.queue.getMemberActiveCount member) ∧
      SameGroups world.queue
        (lanes.foldl (fun queue entry => setWidth queue (normalizeLane entry.1) entry.2) world.queue) := by
  induction lanes generalizing world with
  | nil => exact ⟨rfl, fun _ => rfl, .refl _⟩
  | cons entry rest ih =>
    rw [List.map_cons, List.mem_cons, not_or] at free
    have registered := world.queue.get_ensureLane (normalizeLane entry.1)
    have made := registry.ensureLane (normalizeLane entry.1)
    have groups := sameGroups_ensureLane world.queue (normalizeLane entry.1)
    obtain ⟨same, counts, sameGroups⟩ := @ih
      (world.onQueue fun queue => setWidth queue (normalizeLane entry.1) entry.2)
      (made.update registered (fun state =>
        { state with maxConcurrent := widthOf (normalizeLane entry.1) entry.2 }) fun _ => rfl) free.2
    rw [List.foldl_cons]
    refine ⟨same.trans ?_, fun member => (counts member).trans ?_,
      ⟨sameGroups.groups.trans groups.groups, sameGroups.groupByLane.trans groups.groupByLane⟩⟩
    · rw [queue_onQueue]
      unfold laneAt setWidth
      rw [lanes_updateObject]
      cases there : world.queue.lanes.get (normalizeLane entry.1) with
      | some object =>
        rw [ensureLane_of_get there] at registered ⊢
        cases isLane : world.queue.lanes.get lane with
        | none => rfl
        | some other =>
          simp [registry.apart registered isLane free.1]
      | none =>
        rw [ensureLane_new there] at registered ⊢
        dsimp only
        rw [ScriptMap.get_set, if_neg (Ne.symm free.1)]
        cases isLane : world.queue.lanes.get lane with
        | none => rfl
        | some other =>
          have older : other ≠ world.queue.nextObject :=
            Nat.ne_of_lt (registry.named isLane).2
          have fresh : objectOf { world.queue.setObject world.queue.nextObject
              ⟨normalizeLane entry.1, [], [], 1, false, 0⟩ with
              nextObject := world.queue.nextObject + 1
              lanes := world.queue.lanes.set (normalizeLane entry.1) world.queue.nextObject }
                (normalizeLane entry.1) = world.queue.nextObject := by
            simp [objectOf]
          simp only [Option.map_some, heap_updateObject, fresh, if_neg older]
          simp [older]
    · rw [queue_onQueue]
      unfold setWidth
      rw [active_same _ (fun state =>
        { state with maxConcurrent := widthOf (normalizeLane entry.1) entry.2 }) fun _ => rfl]
      exact active_ensureLane world.queue registry (normalizeLane entry.1) member

theorem publish_none (settled : Settled world) (none_ : world.NoneStranded) (config : LaneConfiguration)
    (frees : ∀ groups, validated config = some groups → FreesOnlyTouched world.queue config groups) :
    (world.publishLaneConfiguration config).NoneStranded := by
  unfold publishLaneConfiguration
  cases accepted : validated config with
  | none => exact none_
  | some groups =>
    dsimp only
    obtain ⟨installed, idleInstalled⟩ := @installConfiguration_effects (fun _ => False) [] world config
      groups settled.idle (fun _ _ => id) fun _ _ => id
    have registry := (installed.lawful settled.lawful).registry
    obtain ⟨drained, stopped⟩ := drains_settle commitDrain_settles
      (touched world.queue config groups).rows registry idleInstalled
    intro lane
    by_cases due : lane ∈ touched world.queue config groups
    · exact stopped lane due
    · apply drained.blocked registry
      obtain ⟨sameWidth, kept, unnamed⟩ := untouched due
      obtain ⟨sameLane, counts, sameGroups⟩ :=
        widths_other config.lanes settled.lawful.registry sameWidth
      have widened := sameGroups.grouped settled.lawful.grouped
      -- the lane itself and all counts are as before
      have atLane : (installConfiguration world.queue config groups).laneAt lane = world.queue.laneAt lane := by
        unfold installConfiguration laneAt
        dsimp only
        rw [lanes_installs, heap_installs, lanes_clears, heap_clears]
        exact sameLane
      have sameCounts : ∀ member, (installConfiguration world.queue config groups).getMemberActiveCount member =
            world.queue.getMemberActiveCount member := by
        intro member
        rw [← counts member]
        unfold installConfiguration getMemberActiveCount laneAt
        dsimp only
        rw [lanes_installs, heap_installs, lanes_clears, heap_clears]
      apply blocked_iff.mpr
      intro found there waiting room admits
      rw [queue_onQueue] at there admits
      rw [atLane] at there
      have refused := blocked_iff.mp (none_ lane) found there waiting room
      apply refused
      intro group isGroup
      obtain ⟨name, isNamed, inGroup⟩ := settled.lawful.grouped.getLaneGroup_iff.mp isGroup
      have isOwner := settled.lawful.grouped.owner_of_member isNamed inGroup
      obtain ⟨stays, full⟩ := frees groups accepted lane due found there waiting room name group isOwner isNamed
      -- its group is still there, without the lanes that the new groups took
      have notCleared : name ∉ config.clearGroups := fun isCleared => kept name isCleared group isNamed inGroup
      have after : (installConfiguration world.queue config groups).groups.get name =
          some (group.leaving (membersOf groups)) := by
        unfold installConfiguration
        dsimp only
        rw [groups_installs (widened.clears config.clearGroups) groups stays,
          groups_clears _ _ notCleared, sameGroups.groups, isNamed]
        rfl
      have inAfter : lane ∈ (group.leaving (membersOf groups)).members :=
        ScriptSet.mem_without.mpr ⟨inGroup, unnamed⟩
      have groupedAfter := (installed.lawful settled.lawful).grouped
      have roomAfter := admits _ (groupedAfter.getLaneGroup_iff.mpr ⟨name, after, inAfter⟩)
      exact absurd ((hasRoom_congr inAfter fun member _ => sameCounts member).mp roomAfter) full

def DrainsWhatItFrees (world : World) : QueueOperation → Prop
  | .publish config => ∀ groups, validated config = some groups →
      FreesOnlyTouched world.queue config groups
  | _ => True

theorem step_none (settled : Settled world) (none_ : world.NoneStranded) (operation : QueueOperation)
    (frees : DrainsWhatItFrees world operation) : (world.step operation).NoneStranded := by
  cases operation with
  | enqueue rawLane priority admissionClosed =>
    cases admissionClosed with
    | true => exact none_
    | false =>
      rw [step, enqueue_eq]
      have queued := @withEntry_effects (fun _ => False) world (normalizeLane rawLane) priority []
      have registry := (queued.lawful settled.lawful).registry
      have drained := drainLane_settles registry
        (withEntry_idle settled.idle (normalizeLane rawLane) priority) (normalizeLane rawLane)
      intro other
      by_cases same : other = normalizeLane rawLane
      · rw [same]
        exact drained.stopped
      · exact drained.blocked registry (withEntry_blocked settled none_ (normalizeLane rawLane) priority same)
  | complete place succeeded =>
    dsimp only [step]
    cases located : world.running[place]? with
    | none => exact none_
    | some task => exact endTask_none settled none_ (List.mem_of_getElem? located) succeeded
  | clear rawLane => exact clearCommandLane_none settled none_ rawLane
  | reset rawLane => exact resetCommandLane_none settled none_ rawLane
  | resetAll => exact resetAllLanes_none settled
  | setConcurrency rawLane maxConcurrent =>
    exact setCommandLaneConcurrency_none settled none_ rawLane maxConcurrent
  | publish config => exact publish_none settled none_ config frees

theorem noneStranded_initial : World.initial.NoneStranded := by
  intro lane object registered
  rw [show World.initial.queue.lanes.get lane = none from ScriptMap.get_empty lane] at registered
  cases registered

/-- When every configuration drains what it frees, no lane is stranded after any operations. -/
theorem lanes_never_strand (operations : List QueueOperation)
    (frees : machine.Meets DrainsWhatItFrees World.initial operations) :
    (machine.run World.initial operations).NoneStranded := by
  have kept : ∀ state operation, DrainsWhatItFrees state operation → Settled state ∧ state.NoneStranded →
        Settled (machine.step state operation) ∧ (machine.step state operation).NoneStranded :=
    fun state operation frees holds =>
      ⟨holds.1.step operation, step_none holds.1 holds.2 operation frees⟩
  exact (Machine.Meets.invariant kept ⟨settled_initial, noneStranded_initial⟩ frees).2

/-- One group with a budget for one task. -/
def sharedBy (members : List String) : LaneConfiguration where
  lanes := []
  groups := [("shared", ⟨1, members, []⟩)]
  clearGroups := []
  named := by simp

theorem lanes_never_strand_shared :
    (machine.run World.initial [.publish (sharedBy ["x", "y"]), .enqueue "x" .normal false,
      .enqueue "y" .normal false, .complete 0 true]).NoneStranded := by
  apply lanes_never_strand
  refine ⟨?_, trivial, trivial, trivial, trivial⟩
  intro groups _ lane _ found there
  rw [laneAt, show World.initial.queue.lanes.get lane = none from ScriptMap.get_empty lane] at there
  cases there

/-- The lane `y` waits for the task of `x`. Then the group is replaced by one without `y`: nothing
    keeps `y` from starting any more, and nothing drains it. -/
theorem shrinking_group_strands : ¬ ∀ operations, (machine.run World.initial operations).NoneStranded := by
  intro never
  have blocked := never [.publish (sharedBy ["x", "y"]), .enqueue "x" .normal false,
    .enqueue "y" .normal false, .publish (sharedBy ["x"])] "y" 1 (by decide +kernel)
  exact absurd blocked (by decide +kernel)

end World

end PlatformClaw.Lanes
