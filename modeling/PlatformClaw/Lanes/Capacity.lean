import PlatformClaw.Lanes.CommandQueue

/-! # What a lane may start

Whether a lane may start another task depends on the active counts of the
members of its group and on nothing else of the other lanes. More active tasks
elsewhere never let it start one that it could not start before.
-/

namespace PlatformClaw.Lanes

namespace QueueState

@[simp] theorem heap_setObject (state : QueueState) (object other : Nat) (lane : LaneState) :
    (state.setObject object lane).heap other = if other = object then lane else state.heap other :=
  rfl

@[simp] theorem heap_updateObject (state : QueueState) (object other : Nat)
    (change : LaneState → LaneState) :
    (state.updateObject object change).heap other =
      if other = object then change (state.heap object) else state.heap other := rfl

@[simp] theorem lanes_updateObject (state : QueueState) (object : Nat)
    (change : LaneState → LaneState) : (state.updateObject object change).lanes = state.lanes := rfl

theorem laneAt_eq_some_iff {state : QueueState} {lane : String} {found : LaneState} :
    state.laneAt lane = some found ↔ ∃ object, state.lanes.get lane = some object ∧ state.heap object = found :=
  Option.map_eq_some_iff

/-- Two states that agree on their groups. -/
structure SameGroups (before after : QueueState) : Prop where
  groups : after.groups = before.groups
  groupByLane : after.groupByLane = before.groupByLane

theorem SameGroups.refl (state : QueueState) : SameGroups state state := ⟨rfl, rfl⟩

theorem SameGroups.getLaneGroup {before after : QueueState} (same : SameGroups before after)
    (lane : String) : after.getLaneGroup lane = before.getLaneGroup lane := by
  unfold QueueState.getLaneGroup
  rw [same.groups, same.groupByLane]

def HasRoom (state : QueueState) (group : LaneGroupState) (lane : String) : Prop :=
  state.groupActive group < group.budget ∧ (state.getMemberActiveCount lane < reservation group lane ∨
      state.groupActive group + state.siblingReserveHeld group lane < group.budget)

/-- The group of a lane, if it has one, has room for another task of it. -/
def Admits (state : QueueState) (lane : String) : Prop :=
  ∀ group, state.getLaneGroup lane = some group → state.HasRoom group lane

theorem canAdmitInGroup_iff {state : QueueState} {lane : String} {found : LaneState}
    (there : state.laneAt lane = some found)
    (room : found.activeTaskIds.length < found.maxConcurrent) :
    state.canAdmitInGroup lane = true ↔ state.Admits lane := by
  have open_ : ¬ ((state.laneAt lane).any fun found =>
      found.maxConcurrent ≤ found.activeTaskIds.length) = true := by
    rw [there]
    simpa using room
  unfold canAdmitInGroup resolveLaneBlockReason Admits HasRoom
  rw [if_neg open_]
  cases state.getLaneGroup lane with
  | none => simp
  | some group =>
    simp only [Option.some.injEq, forall_eq']
    split
    · simp
      omega
    · split
      · simp
        omega
      · split
        · simp
          omega
        · simp
          omega

/-- A member with the unused part of its reservation. -/
def claimed (state : QueueState) (group : LaneGroupState) (member : String) : Nat :=
  state.getMemberActiveCount member + state.unfilled group member

/-- The group's active tasks and unfilled reservations. -/
def load (state : QueueState) (group : LaneGroupState) : Nat :=
  (group.members.rows.map (state.claimed group)).sum

theorem claimed_eq (state : QueueState) (group : LaneGroupState) (member : String) :
    state.claimed group member = max (state.getMemberActiveCount member) (reservation group member) := by
  unfold claimed unfilled
  omega

theorem sum_map_filter (members : List String) (p : String → Bool) (f : String → Nat) :
    ((members.filter p).map f).sum = (members.map fun member => if p member then f member else 0).sum := by
  induction members with
  | nil => rfl
  | cons member rest ih =>
    rw [List.filter_cons]
    split
    · rename_i kept
      simp [kept, ih]
    · rename_i dropped
      simp [dropped, ih]

theorem sum_map_add (members : List String) (f g : String → Nat) :
    (members.map f).sum + (members.map g).sum = (members.map fun member => f member + g member).sum := by
  induction members with
  | nil => rfl
  | cons member rest ih =>
    simp only [List.map_cons, List.sum_cons]
    omega

theorem sum_map_le {members : List String} {f g : String → Nat}
    (least : ∀ member ∈ members, f member ≤ g member) : (members.map f).sum ≤ (members.map g).sum := by
  induction members with
  | nil => exact Nat.le_refl _
  | cons member rest ih =>
    have first := least member (.head _)
    have later := ih fun other inRest => least other (.tail _ inRest)
    simp only [List.map_cons, List.sum_cons]
    omega

theorem groupActive_add_held (state : QueueState) (group : LaneGroupState) (lane : String) :
    state.groupActive group + state.siblingReserveHeld group lane =
      (group.members.rows.map fun member => state.getMemberActiveCount member +
        if member ≠ lane then state.unfilled group member else 0).sum := by
  unfold groupActive siblingReserveHeld
  rw [sum_map_filter, sum_map_add]
  simp

theorem hasRoom_congr {before after : QueueState} {group : LaneGroupState} {lane : String}
    (inGroup : lane ∈ group.members) (same : ∀ member ∈ group.members,
      after.getMemberActiveCount member = before.getMemberActiveCount member) :
    after.HasRoom group lane ↔ before.HasRoom group lane := by
  have active : after.groupActive group = before.groupActive group := by
    unfold groupActive
    rw [List.map_congr_left same]
  have held : after.siblingReserveHeld group lane = before.siblingReserveHeld group lane := by
    unfold siblingReserveHeld
    congr 1
    apply List.map_congr_left
    intro member isSibling
    unfold unfilled
    rw [same member (List.mem_filter.mp isSibling |>.1)]
  unfold HasRoom
  rw [active, held, same lane inGroup]

theorem Admits.of_more {before after : QueueState} {lane : String} (same : SameGroups before after)
    (more : ∀ member, before.getMemberActiveCount member ≤ after.getMemberActiveCount member)
    (here : after.getMemberActiveCount lane = before.getMemberActiveCount lane)
    (admits : after.Admits lane) : before.Admits lane := by
  intro group isGroup
  obtain ⟨room, reserved⟩ := admits group ((same.getLaneGroup lane).trans isGroup)
  have active : before.groupActive group ≤ after.groupActive group :=
    sum_map_le fun member _ => more member
  have held : before.groupActive group + before.siblingReserveHeld group lane ≤
      after.groupActive group + after.siblingReserveHeld group lane := by
    rw [groupActive_add_held, groupActive_add_held]
    apply sum_map_le
    intro member _
    have grown := more member
    unfold unfilled
    split
    · omega
    · omega
  rw [here] at reserved
  exact ⟨by omega, by omega⟩

theorem load_mono {before after : QueueState} {group : LaneGroupState}
    (fewer : ∀ member, after.getMemberActiveCount member ≤ before.getMemberActiveCount member) :
    after.load group ≤ before.load group := by
  apply sum_map_le
  intro member _
  have less := fewer member
  rw [claimed_eq, claimed_eq]
  omega

theorem sum_map_single {members : List String} (distinct : members.Nodup) {lane : String}
    {f g : String → Nat} (extra : Nat) (inMembers : lane ∈ members)
    (same : ∀ member, member ≠ lane → f member = g member) (here : f lane ≤ g lane + extra) :
    (members.map f).sum ≤ (members.map g).sum + extra := by
  induction members with
  | nil => exact absurd inMembers List.not_mem_nil
  | cons member rest ih =>
    obtain ⟨fresh, laterDistinct⟩ := List.nodup_cons.mp distinct
    simp only [List.map_cons, List.sum_cons]
    by_cases first : member = lane
    · subst first
      have rest_same : (rest.map f).sum ≤ (rest.map g).sum := by
        apply sum_map_le
        intro other inRest
        exact Nat.le_of_eq (same other fun isMember => fresh (isMember ▸ inRest))
      omega
    · have inRest := (List.mem_cons.mp inMembers).resolve_left (Ne.symm first)
      have later := ih laterDistinct inRest
      have here := same member first
      omega

theorem load_start {before after : QueueState} {group : LaneGroupState} {lane : String}
    (within : before.load group ≤ group.budget)
    (admits : before.getLaneGroup lane = some group → before.Admits lane)
    (isGroup : lane ∈ group.members → before.getLaneGroup lane = some group)
    (here : after.getMemberActiveCount lane = before.getMemberActiveCount lane + 1)
    (others : ∀ member, member ≠ lane → after.getMemberActiveCount member = before.getMemberActiveCount member) :
    after.load group ≤ group.budget := by
  by_cases inGroup : lane ∈ group.members
  · obtain ⟨_, reserved⟩ := admits (isGroup inGroup) group (isGroup inGroup)
    have elsewhere : ∀ member, member ≠ lane → after.claimed group member = before.claimed group member := by
      intro member apart
      rw [claimed_eq, claimed_eq, others member apart]
    rcases reserved with own | borrowed
    · have same : after.load group ≤ before.load group + 0 :=
        sum_map_single group.members.nodup 0 inGroup elsewhere (by
          rw [claimed_eq, claimed_eq]
          omega)
      omega
    · by_cases own : before.getMemberActiveCount lane < reservation group lane
      · have same : after.load group ≤ before.load group + 0 :=
          sum_map_single group.members.nodup 0 inGroup elsewhere (by
            rw [claimed_eq, claimed_eq]
            omega)
        omega
      · have one : after.load group ≤ before.load group + 1 :=
          sum_map_single group.members.nodup 1 inGroup elsewhere (by
            rw [claimed_eq, claimed_eq]
            omega)
        have full : before.load group = before.groupActive group + before.siblingReserveHeld group lane := by
          rw [groupActive_add_held]
          unfold load
          congr 1
          apply List.map_congr_left
          intro member _
          unfold claimed
          split
          · rfl
          · rename_i isLane
            have isLane : member = lane := by simpa using isLane
            unfold unfilled
            rw [isLane]
            omega
        omega
  · have same : after.load group ≤ before.load group := by
      apply sum_map_le
      intro member inMembers
      have apart : member ≠ lane := fun isLane => inGroup (isLane ▸ inMembers)
      exact Nat.le_of_eq (by rw [claimed_eq, claimed_eq, others member apart])
    omega

end QueueState

end PlatformClaw.Lanes
