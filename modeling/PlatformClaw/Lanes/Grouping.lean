import PlatformClaw.Lanes.Capacity

/-! # Who is in which group

A lane is in at most one group: the groups' member sets and the owner of each
lane say the same, whatever groups are defined, replaced and removed.
-/

namespace PlatformClaw.Lanes

def LaneGroupState.leaving (group : LaneGroupState) (lanes : List String) : LaneGroupState :=
  { group with members := group.members.without lanes }

namespace LaneGroupState

variable (group : LaneGroupState)

@[simp] theorem members_leaving (lanes : List String) :
    (group.leaving lanes).members = group.members.without lanes := rfl

theorem leaving_nil : group.leaving [] = group := by
  rw [leaving, ScriptSet.without_nil]

theorem leaving_leaving (early late : List String) :
    (group.leaving early).leaving late = group.leaving (early ++ late) := by
  unfold leaving
  rw [ScriptSet.without_without]

end LaneGroupState

namespace QueueState

/-- The members of the groups and the owners of the lanes agree. -/
structure Grouped (state : QueueState) : Prop where
  group_of_owner : ∀ {lane name}, state.groupByLane.get lane = some name →
    ∃ group, state.groups.get name = some group ∧ lane ∈ group.members
  owner_of_member : ∀ {lane name group}, state.groups.get name = some group →
    lane ∈ group.members → state.groupByLane.get lane = some name

variable {state : QueueState}

theorem Grouped.getLaneGroup_iff (grouped : state.Grouped) {lane : String} {group : LaneGroupState} :
    state.getLaneGroup lane = some group ↔ ∃ name, state.groups.get name = some group ∧ lane ∈ group.members := by
  unfold getLaneGroup
  rw [Option.bind_eq_some_iff]
  constructor
  · rintro ⟨name, isOwner, isGroup⟩
    obtain ⟨found, there, inGroup⟩ := grouped.group_of_owner isOwner
    rw [isGroup] at there
    cases there
    exact ⟨name, isGroup, inGroup⟩
  · rintro ⟨name, isGroup, inGroup⟩
    exact ⟨name, grouped.owner_of_member isGroup inGroup, isGroup⟩

@[simp] theorem heap_clearCommandLaneGroup (state : QueueState) (name : String) :
    (state.clearCommandLaneGroup name).heap = state.heap := by
  unfold clearCommandLaneGroup
  cases state.groups.get name <;> rfl

@[simp] theorem lanes_clearCommandLaneGroup (state : QueueState) (name : String) :
    (state.clearCommandLaneGroup name).lanes = state.lanes := by
  unfold clearCommandLaneGroup
  cases state.groups.get name <;> rfl

theorem groups_clear (state : QueueState) (name other : String) :
    (state.clearCommandLaneGroup name).groups.get other =
      if name = other then none else state.groups.get other := by
  unfold clearCommandLaneGroup
  cases found : state.groups.get name with
  | none =>
    dsimp only
    split
    · rename_i same
      rw [← same, found]
    · rfl
  | some group => simp

theorem owner_clear (grouped : state.Grouped) (name lane : String) :
    (state.clearCommandLaneGroup name).groupByLane.get lane =
      if state.groupByLane.get lane = some name then none else state.groupByLane.get lane := by
  unfold clearCommandLaneGroup
  cases found : state.groups.get name with
  | none =>
    dsimp only
    split
    · rename_i isOwner
      obtain ⟨group, there, _⟩ := grouped.group_of_owner isOwner
      rw [found] at there
      cases there
    · rfl
  | some group =>
    dsimp only
    rw [ScriptMap.get_foldl_remove]
    by_cases inGroup : lane ∈ group.members.rows
    · rw [if_pos inGroup, if_pos (grouped.owner_of_member found inGroup)]
    · rw [if_neg inGroup, if_neg]
      intro isOwner
      obtain ⟨other, there, inOther⟩ := grouped.group_of_owner isOwner
      rw [found] at there
      cases there
      exact inGroup inOther

theorem Grouped.clear (grouped : state.Grouped) (name : String) : (state.clearCommandLaneGroup name).Grouped := by
  constructor
  · intro lane other isOwner
    rw [owner_clear grouped] at isOwner
    split at isOwner
    · cases isOwner
    · rename_i apart
      obtain ⟨group, there, inGroup⟩ := grouped.group_of_owner isOwner
      refine ⟨group, ?_, inGroup⟩
      rw [groups_clear, if_neg, there]
      rintro rfl
      exact apart isOwner
  · intro lane other group there inGroup
    rw [groups_clear] at there
    split at there
    · cases there
    · rename_i apart
      have isOwner := grouped.owner_of_member there inGroup
      rw [owner_clear grouped, if_neg, isOwner]
      rw [isOwner]
      rintro ⟨⟩
      exact apart rfl

@[simp] theorem heap_installCommandLaneGroup (state : QueueState) (next : LaneGroupState) :
    (state.installCommandLaneGroup next).heap = state.heap := rfl

@[simp] theorem lanes_installCommandLaneGroup (state : QueueState) (next : LaneGroupState) :
    (state.installCommandLaneGroup next).lanes = state.lanes := rfl

/-- The owners once the group's former members were let go. -/
def detached (state : QueueState) (name : String) : ScriptMap String :=
  match state.groups.get name with
  | some previous => previous.members.rows.foldl ScriptMap.remove state.groupByLane
  | none => state.groupByLane

theorem get_detached (grouped : state.Grouped) (name lane : String) : (state.detached name).get lane =
      if state.groupByLane.get lane = some name then none else state.groupByLane.get lane := by
  have cleared := owner_clear grouped name lane
  unfold clearCommandLaneGroup at cleared
  unfold detached
  cases found : state.groups.get name with
  | none => rw [found] at cleared; exact cleared
  | some group => rw [found] at cleared; exact cleared

/-- Take the members of a new group away from the groups that own them. -/
def takenFrom (owners : ScriptMap String) (name : String) (members : List String)
    (groups : ScriptMap LaneGroupState) : ScriptMap LaneGroupState :=
  members.foldl (fun groups member =>
    match owners.get member with
    | some owner =>
      if owner = name then groups
      else
        match groups.get owner with
        | some group => groups.set owner { group with members := group.members.remove member }
        | none => groups
    | none => groups) groups

theorem groups_installCommandLaneGroup (state : QueueState) (next : LaneGroupState) :
    (state.installCommandLaneGroup next).groups =
      (takenFrom (state.detached next.group) next.group next.members.rows state.groups).set
        next.group next := rfl

theorem groupByLane_installCommandLaneGroup (state : QueueState) (next : LaneGroupState) :
    (state.installCommandLaneGroup next).groupByLane =
      next.members.rows.foldl (fun owners member => owners.set member next.group)
        (state.detached next.group) := rfl

theorem get_takenFrom (owners : ScriptMap String) (name : String) (members : List String)
    (groups : ScriptMap LaneGroupState) {other : String} (apart : other ≠ name) :
    (takenFrom owners name members groups).get other = (groups.get other).map fun group =>
        group.leaving (members.filter fun member => owners.get member = some other) := by
  unfold takenFrom
  induction members generalizing groups with
  | nil =>
    cases found : groups.get other with
    | none => simp [found]
    | some group => simp [found, LaneGroupState.leaving_nil]
  | cons member rest ih =>
    rw [List.foldl_cons, ih, List.filter_cons]
    cases isOwned : owners.get member with
    | none => simp
    | some owner =>
      dsimp only
      by_cases own : owner = name
      · rw [if_pos own, if_neg]
        simp [own, Ne.symm apart]
      · rw [if_neg own]
        by_cases same : owner = other
        · subst same
          cases isGroup : groups.get owner with
          | none => simp [isGroup]
          | some group =>
            simp only [ScriptMap.get_set, if_true, Option.map_some, decide_true]
            unfold LaneGroupState.leaving
            rw [ScriptSet.remove_without]
        · cases isGroup : groups.get owner with
          | none => simp [same]
          | some group => simp [same]

theorem groups_install (grouped : state.Grouped) (next : LaneGroupState) (name : String) :
    (state.installCommandLaneGroup next).groups.get name =
      if next.group = name then some next
      else (state.groups.get name).map fun group => group.leaving next.members.rows := by
  rw [groups_installCommandLaneGroup, ScriptMap.get_set]
  split
  · rfl
  · rename_i apart
    rw [get_takenFrom _ _ _ _ (Ne.symm apart)]
    cases found : state.groups.get name with
    | none => rfl
    | some group =>
      rw [Option.map_some, Option.map_some]
      congr 1
      unfold LaneGroupState.leaving
      congr 1
      apply ScriptSet.without_congr
      intro member inGroup
      have isOwner := grouped.owner_of_member found inGroup
      have kept : (state.detached next.group).get member = some name := by
        rw [get_detached grouped, if_neg, isOwner]
        rw [isOwner]
        rintro ⟨⟩
        exact apart rfl
      simp [kept]

theorem owner_install (grouped : state.Grouped) (next : LaneGroupState) (lane : String) :
    (state.installCommandLaneGroup next).groupByLane.get lane =
      if lane ∈ next.members.rows then some next.group
      else if state.groupByLane.get lane = some next.group then none
      else state.groupByLane.get lane := by
  rw [groupByLane_installCommandLaneGroup, ScriptMap.get_foldl_set, get_detached grouped]

theorem Grouped.install (grouped : state.Grouped) (next : LaneGroupState) :
    (state.installCommandLaneGroup next).Grouped := by
  constructor
  · intro lane name isOwner
    rw [owner_install grouped] at isOwner
    rw [groups_install grouped]
    split at isOwner
    · rename_i inNext
      cases isOwner
      exact ⟨next, if_pos rfl, inNext⟩
    · rename_i notInNext
      split at isOwner
      · cases isOwner
      · rename_i elsewhere
        obtain ⟨group, there, inGroup⟩ := grouped.group_of_owner isOwner
        have apart : next.group ≠ name := by
          rintro rfl
          exact elsewhere isOwner
        rw [if_neg apart, there]
        exact ⟨_, rfl, by simpa using ⟨inGroup, notInNext⟩⟩
  · intro lane name group there inGroup
    rw [groups_install grouped] at there
    rw [owner_install grouped]
    split at there
    · rename_i same
      cases there
      rw [if_pos (Table.mem_rows.mpr inGroup), same]
    · rename_i apart
      obtain ⟨old, isOld, rfl⟩ := Option.map_eq_some_iff.mp there
      obtain ⟨inOld, notInNext⟩ := ScriptSet.mem_without.mp inGroup
      have isOwner := grouped.owner_of_member isOld inOld
      rw [if_neg notInNext, if_neg, isOwner]
      rw [isOwner]
      rintro ⟨⟩
      exact apart rfl

/-- The lanes that some of the groups name. -/
def membersOf (groups : List LaneGroupState) : List String :=
  groups.flatMap fun group => group.members.rows

theorem groups_installs (grouped : state.Grouped) (groups : List LaneGroupState) {name : String}
    (kept : ∀ group ∈ groups, group.group ≠ name) :
    (groups.foldl installCommandLaneGroup state).groups.get name =
      (state.groups.get name).map fun group => group.leaving (membersOf groups) := by
  induction groups generalizing state with
  | nil => cases found : state.groups.get name <;> simp [found, membersOf, LaneGroupState.leaving_nil]
  | cons next rest ih =>
    obtain ⟨here, later⟩ := List.forall_mem_cons.mp kept
    rw [List.foldl_cons, ih (grouped.install next) later, groups_install grouped, if_neg here, Option.map_map]
    congr 1
    funext group
    exact group.leaving_leaving _ _

@[simp] theorem heap_installs (groups : List LaneGroupState) (state : QueueState) :
    (groups.foldl installCommandLaneGroup state).heap = state.heap := by
  induction groups generalizing state with
  | nil => rfl
  | cons next rest ih => rw [List.foldl_cons, ih, heap_installCommandLaneGroup]

@[simp] theorem lanes_installs (groups : List LaneGroupState) (state : QueueState) :
    (groups.foldl installCommandLaneGroup state).lanes = state.lanes := by
  induction groups generalizing state with
  | nil => rfl
  | cons next rest ih => rw [List.foldl_cons, ih, lanes_installCommandLaneGroup]

@[simp] theorem heap_clears (names : List String) (state : QueueState) :
    (names.foldl clearCommandLaneGroup state).heap = state.heap := by
  induction names generalizing state with
  | nil => rfl
  | cons name rest ih => rw [List.foldl_cons, ih, heap_clearCommandLaneGroup]

@[simp] theorem lanes_clears (names : List String) (state : QueueState) :
    (names.foldl clearCommandLaneGroup state).lanes = state.lanes := by
  induction names generalizing state with
  | nil => rfl
  | cons name rest ih => rw [List.foldl_cons, ih, lanes_clearCommandLaneGroup]

theorem Grouped.clears (grouped : state.Grouped) (names : List String) :
    (names.foldl clearCommandLaneGroup state).Grouped := by
  induction names generalizing state with
  | nil => exact grouped
  | cons name rest ih => exact ih (grouped.clear name)

theorem groups_clears (names : List String) (state : QueueState) {name : String} (kept : name ∉ names) :
    (names.foldl clearCommandLaneGroup state).groups.get name = state.groups.get name := by
  induction names generalizing state with
  | nil => rfl
  | cons first rest ih =>
    obtain ⟨apart, later⟩ := not_or.mp (mt List.mem_cons.mpr kept)
    rw [List.foldl_cons, ih _ later, groups_clear, if_neg (Ne.symm apart)]

end QueueState

end PlatformClaw.Lanes
