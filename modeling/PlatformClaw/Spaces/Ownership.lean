import PlatformClaw.Library.KeyedRows
import PlatformClaw.Spaces.Model

/-! # Ownership of a Space

Who owns a Space after a membership change, and when the last-owner guard sees
the owner it is meant to keep. The guard counts owners in the member list, which
stops at two hundred active employees; an owner past the end of that list is not
counted.
-/

namespace PlatformClaw.Spaces

open Except (ensure orThrow bind_ok_iff)

namespace SpaceStore

/-- The membership table holds an owner row of this user. -/
def IsOwner (store : SpaceStore) (spaceId userId : String) : Prop :=
  { spaceId, userId, role := .owner } ∈ store.collaborationSpaceMembers

/-- An owner who can act: the account is active. -/
def IsActiveOwner (store : SpaceStore) (spaceId userId : String) : Prop :=
  store.IsOwner spaceId userId ∧ store.isActiveUser userId = true

def HasActiveOwner (store : SpaceStore) (spaceId : String) : Prop :=
  ∃ userId, store.IsActiveOwner spaceId userId

def IsSoleActiveOwner (store : SpaceStore) (spaceId userId : String) : Prop :=
  store.IsActiveOwner spaceId userId ∧ ∀ other, store.IsActiveOwner spaceId other → other = userId

/-- The user is among the two hundred active members that the member list shows. -/
def IsListed (store : SpaceStore) (spaceId userId : String) : Prop :=
  ∃ member ∈ store.memberList spaceId, member.userId = userId

/-- Primary keys of the two tables the member list joins. -/
structure WellKeyed (store : SpaceStore) : Prop where
  users : store.platformUsers.Pairwise fun a b => a.id ≠ b.id
  members : store.collaborationSpaceMembers.Pairwise
    fun a b => ¬(a.spaceId = b.spaceId ∧ a.userId = b.userId)

theorem isActiveUser_iff {store : SpaceStore} {userId : String} : store.isActiveUser userId = true ↔
      ∃ user ∈ store.platformUsers, user.id = userId ∧ user.status = .active := by
  simp [isActiveUser]

theorem WellKeyed.member_unique {store : SpaceStore} (keyed : store.WellKeyed)
    {a b : SpaceMemberRow} (inA : a ∈ store.collaborationSpaceMembers)
    (inB : b ∈ store.collaborationSpaceMembers) (space : a.spaceId = b.spaceId)
    (user : a.userId = b.userId) : a = b :=
  @KeyedRows.unique SpaceMemberRow (String × String) (fun row => (row.spaceId, row.userId)) _
    (keyed.members.imp fun apart same => apart (by simpa using same)) _ _ inA inB
    (by rw [space, user])

theorem WellKeyed.user_unique {store : SpaceStore} (keyed : store.WellKeyed)
    {a b : PlatformUserRow} (inA : a ∈ store.platformUsers) (inB : b ∈ store.platformUsers)
    (same : a.id = b.id) : a = b :=
  KeyedRows.unique keyed.users inA inB same

theorem member?_some {store : SpaceStore} {spaceId userId : String} {row : SpaceMemberRow}
    (found : store.member? spaceId userId = some row) :
    row ∈ store.collaborationSpaceMembers ∧ row.spaceId = spaceId ∧ row.userId = userId := by
  have mem := List.mem_of_find?_eq_some found
  have key := List.find?_some found
  simp at key
  exact ⟨mem, key.1, key.2⟩

theorem member?_eq_none_iff {store : SpaceStore} {spaceId userId : String} : store.member? spaceId userId = none ↔
      ∀ row ∈ store.collaborationSpaceMembers, ¬(row.spaceId = spaceId ∧ row.userId = userId) := by
  simp [member?, List.find?_eq_none]

theorem WellKeyed.member?_owner_iff {store : SpaceStore} (keyed : store.WellKeyed)
    {spaceId userId : String} :
    (store.member? spaceId userId).map (·.role) = some .owner ↔ store.IsOwner spaceId userId := by
  constructor
  · intro found
    obtain ⟨row, lookup, role⟩ := Option.map_eq_some_iff.mp found
    obtain ⟨mem, rfl, rfl⟩ := member?_some lookup
    cases row
    cases role
    exact mem
  · intro owns
    cases lookup : store.member? spaceId userId with
    | none => exact absurd ⟨rfl, rfl⟩ (member?_eq_none_iff.mp lookup _ owns)
    | some row =>
      obtain ⟨mem, space, user⟩ := member?_some lookup
      rw [keyed.member_unique mem owns space user]
      rfl

theorem mem_activeMembers {store : SpaceStore} {spaceId : String} {member : SpaceMember} :
    member ∈ store.activeMembers spaceId ↔ ∃ row ∈ store.collaborationSpaceMembers, row.spaceId = spaceId ∧
        ∃ user ∈ store.platformUsers, user.id = row.userId ∧ user.status = .active ∧
          member = { userId := user.id, accountId := user.accountId,
                     displayName := (user.displayName.filter (· ≠ "")).getD user.accountId,
                     role := row.role } := by
  simp only [activeMembers, List.mem_flatMap]
  constructor
  · rintro ⟨row, inTable, shown⟩
    split at shown
    · rename_i here
      simp only [List.mem_map, List.mem_filter, decide_eq_true_eq] at shown
      obtain ⟨user, ⟨inUsers, same, active⟩, rfl⟩ := shown
      exact ⟨row, inTable, here, user, inUsers, same, active, rfl⟩
    · simp at shown
  · rintro ⟨row, inTable, here, user, inUsers, same, active, rfl⟩
    refine ⟨row, inTable, ?_⟩
    rw [if_pos here]
    exact List.mem_map.mpr ⟨user, List.mem_filter.mpr ⟨inUsers, by simp [same, active]⟩, rfl⟩

theorem mem_memberList {store : SpaceStore} {spaceId : String} {member : SpaceMember}
    (shown : member ∈ store.memberList spaceId) : member ∈ store.activeMembers spaceId := by
  have sorted := List.mem_of_mem_take shown
  exact List.mem_mergeSort.mp sorted

theorem isActiveOwner_of_listed {store : SpaceStore} {spaceId : String} {member : SpaceMember}
    (shown : member ∈ store.memberList spaceId) (owner : member.role = .owner) :
    store.IsActiveOwner spaceId member.userId := by
  obtain ⟨row, inTable, here, user, inUsers, same, active, rfl⟩ :=
    mem_activeMembers.mp (mem_memberList shown)
  refine ⟨?_, isActiveUser_iff.mpr ⟨user, inUsers, rfl, active⟩⟩
  cases row
  cases owner
  cases here
  cases same
  exact inTable

theorem WellKeyed.owner_of_listed {store : SpaceStore} (keyed : store.WellKeyed)
    {spaceId : String} {member : SpaceMember} (shown : member ∈ store.memberList spaceId)
    (owns : store.IsOwner spaceId member.userId) : member.role = .owner := by
  obtain ⟨row, inTable, here, user, _, same, _, rfl⟩ := mem_activeMembers.mp (mem_memberList shown)
  have := keyed.member_unique inTable owns here same.symm
  simp only [this]

theorem WellKeyed.activeMembers_distinct {store : SpaceStore} (keyed : store.WellKeyed) (spaceId : String) :
    (store.activeMembers spaceId).Pairwise fun a b => a.userId ≠ b.userId := by
  unfold activeMembers
  rw [List.pairwise_flatMap]
  constructor
  · intro row _
    split
    · rw [List.pairwise_map]
      exact (keyed.users.filter _).imp fun different => different
    · exact .nil
  · refine keyed.members.imp ?_
    intro a b apart left inLeft right inRight
    split at inLeft
    · split at inRight
      · rename_i spaceA spaceB
        simp only [List.mem_map, List.mem_filter, decide_eq_true_eq] at inLeft inRight
        obtain ⟨userA, ⟨_, sameA, _⟩, rfl⟩ := inLeft
        obtain ⟨userB, ⟨_, sameB, _⟩, rfl⟩ := inRight
        intro same
        exact apart ⟨spaceA.trans spaceB.symm, sameA.symm.trans (same.trans sameB)⟩
      · simp at inRight
    · simp at inLeft

/-- The join yields one entry for each membership of an active account. -/
theorem WellKeyed.activeMembers_length {store : SpaceStore} (keyed : store.WellKeyed) (spaceId : String) :
    (store.activeMembers spaceId).length = (store.collaborationSpaceMembers.filter fun row =>
        row.spaceId = spaceId ∧ store.isActiveUser row.userId).length := by
  unfold activeMembers
  induction store.collaborationSpaceMembers with
  | nil => rfl
  | cons row rest ih =>
    rw [List.flatMap_cons, List.length_append, ih, List.filter_cons]
    split
    · rename_i here
      rw [List.length_map]
      cases active : store.isActiveUser row.userId with
      | false =>
        have none : store.platformUsers.filter (fun user => user.id = row.userId ∧ user.status = .active) = [] := by
          refine List.filter_eq_nil_iff.mpr ?_
          intro user inUsers given
          have known := isActiveUser_iff.mpr ⟨user, inUsers, by simpa using given⟩
          simp [active] at known
        rw [none, List.length_nil, Nat.zero_add, if_neg (by simp)]
      | true =>
        obtain ⟨user, inUsers, known⟩ := isActiveUser_iff.mp active
        have single : (store.platformUsers.filter
            fun user => user.id = row.userId ∧ user.status = .active).length = 1 := by
          refine KeyedRows.length_filter_eq_one keyed.users inUsers (by simpa using known) ?_
          intro other inUsers given
          exact (by simpa using given : other.id = row.userId ∧ _).1.trans known.1.symm
        rw [single, if_pos (by simp [here]), List.length_cons, Nat.add_comm]
    · rename_i elsewhere
      rw [List.length_nil, Nat.zero_add, if_neg (by simp [elsewhere])]

theorem WellKeyed.memberList_distinct {store : SpaceStore} (keyed : store.WellKeyed) (spaceId : String) :
    (store.memberList spaceId).Pairwise fun a b => a.userId ≠ b.userId := by
  have sorted : ((store.activeMembers spaceId).mergeSort accountOrder).Pairwise
      fun a b => a.userId ≠ b.userId :=
    ((List.mergeSort_perm _ _).pairwise_iff fun different => different.symm).mpr
      (keyed.activeMembers_distinct spaceId)
  exact sorted.sublist (List.take_sublist _ _)

theorem memberList_before (store : SpaceStore) (spaceId : String) (keyed : store.WellKeyed) :
    ∀ shown ∈ store.memberList spaceId, ∀ rest ∈ ((store.activeMembers spaceId).mergeSort accountOrder).drop 200,
        shown.userId ≠ rest.userId ∧ accountOrder shown rest = true := by
  have sorted : ((store.activeMembers spaceId).mergeSort accountOrder).Pairwise
      fun a b => accountOrder a b = true := by
    refine List.pairwise_mergeSort ?_ ?_ _
    · intro a b c first second
      exact ScriptString.upTo_trans first second
    · intro a b
      exact Bool.or_eq_true _ _ ▸ ScriptString.upTo_total _ _
  have distinct : ((store.activeMembers spaceId).mergeSort accountOrder).Pairwise
      fun a b => a.userId ≠ b.userId :=
    ((List.mergeSort_perm _ _).pairwise_iff fun different => different.symm).mpr
      (keyed.activeMembers_distinct spaceId)
  have both := sorted.and distinct
  rw [← List.take_append_drop 200 ((store.activeMembers spaceId).mergeSort accountOrder)] at both
  intro shown inList rest inRest
  obtain ⟨before, different⟩ := (List.pairwise_append.mp both).2.2 shown inList rest inRest
  exact ⟨different, before⟩

theorem WellKeyed.sole_owner_counted {store : SpaceStore} (keyed : store.WellKeyed)
    {spaceId userId : String} (sole : store.IsSoleActiveOwner spaceId userId)
    (listed : store.IsListed spaceId userId) :
    ((store.memberList spaceId).find? fun m => m.userId = userId).map (·.role) = some .owner ∧
      ((store.memberList spaceId).filter fun m => m.role = .owner).length = 1 := by
  obtain ⟨member, shown, rfl⟩ := listed
  have owner := keyed.owner_of_listed shown sole.1.1
  constructor
  · cases found : (store.memberList spaceId).find? fun m => m.userId = member.userId with
    | none =>
      have missing := List.find?_eq_none.mp found member shown
      simp at missing
    | some other =>
      have inList := List.mem_of_find?_eq_some found
      have same : other.userId = member.userId := by simpa using List.find?_some found
      have role := keyed.owner_of_listed inList (same ▸ sole.1.1)
      simp [role]
  · -- Every owner shown is the sole one, and the list shows each user once.
    refine KeyedRows.length_filter_eq_one (keyed.memberList_distinct spaceId) shown (by simpa using owner) ?_
    intro other inList role
    exact sole.2 _ (isActiveOwner_of_listed inList (by simpa using role))

@[simp] theorem setRevision_isOwner (store : SpaceStore) (spaceId : String) (revision : Nat) :
    (store.setRevision spaceId revision).IsOwner = store.IsOwner := rfl

@[simp] theorem revokeRuns_isOwner (store : SpaceStore) (concerned : SpaceRunRow → Bool) :
    (store.revokeRuns concerned).IsOwner = store.IsOwner := rfl

@[simp] theorem upsertDeparture_isOwner (store : SpaceStore) (spaceId userId : String)
    (revision : Nat) :
    (store.upsertDeparture spaceId userId revision).IsOwner = store.IsOwner := by
  funext space user
  unfold upsertDeparture
  split <;> rfl

@[simp] theorem setRevision_users (store : SpaceStore) (spaceId : String) (revision : Nat) :
    (store.setRevision spaceId revision).platformUsers = store.platformUsers := rfl

@[simp] theorem revokeRuns_users (store : SpaceStore) (concerned : SpaceRunRow → Bool) :
    (store.revokeRuns concerned).platformUsers = store.platformUsers := rfl

@[simp] theorem upsertDeparture_users (store : SpaceStore) (spaceId userId : String)
    (revision : Nat) :
    (store.upsertDeparture spaceId userId revision).platformUsers = store.platformUsers := by
  unfold upsertDeparture
  split <;> rfl

@[simp] theorem deleteMember_users (store : SpaceStore) (spaceId memberId : String) :
    (store.deleteMember spaceId memberId).platformUsers = store.platformUsers := rfl

@[simp] theorem upsertMember_users (store : SpaceStore) (spaceId memberId : String)
    (role : SpaceRole) :
    (store.upsertMember spaceId memberId role).platformUsers = store.platformUsers := by
  unfold upsertMember
  split <;> rfl

theorem deleteMember_isOwner {store : SpaceStore} {spaceId memberId space user : String} :
    (store.deleteMember spaceId memberId).IsOwner space user ↔
      ¬(space = spaceId ∧ user = memberId) ∧ store.IsOwner space user := by
  simp only [IsOwner, deleteMember, List.mem_filter, decide_eq_true_eq]
  exact and_comm

theorem upsertMember_isOwner {store : SpaceStore} {spaceId memberId space user : String}
    {role : SpaceRole} :
    (store.upsertMember spaceId memberId role).IsOwner space user ↔
      if space = spaceId ∧ user = memberId then role = .owner else store.IsOwner space user := by
  unfold upsertMember
  split
  · rename_i present
    obtain ⟨row, lookup⟩ := Option.isSome_iff_exists.mp present
    obtain ⟨mem, rowSpace, rowUser⟩ := member?_some lookup
    simp only [IsOwner, List.mem_map]
    split
    · rename_i here
      obtain ⟨rfl, rfl⟩ := here
      constructor
      · rintro ⟨source, _, image⟩
        split at image
        · simpa using congrArg SpaceMemberRow.role image
        · rename_i elsewhere
          subst image
          exact absurd ⟨rfl, rfl⟩ elsewhere
      · intro owner
        exact ⟨row, mem, by rw [if_pos ⟨rowSpace, rowUser⟩, owner, rowSpace, rowUser]⟩
    · rename_i elsewhere
      constructor
      · rintro ⟨source, inTable, image⟩
        split at image
        · rename_i here
          exact absurd ⟨by rw [← here.1]; exact congrArg (·.spaceId) image.symm,
            by rw [← here.2]; exact congrArg (·.userId) image.symm⟩ elsewhere
        · exact image ▸ inTable
      · intro owns
        exact ⟨_, owns, by rw [if_neg elsewhere]⟩
  · rename_i absent
    have missing := member?_eq_none_iff.mp (by simpa using absent)
    simp only [IsOwner, List.mem_append, List.mem_singleton, SpaceMemberRow.mk.injEq]
    split
    · rename_i here
      obtain ⟨rfl, rfl⟩ := here
      constructor
      · rintro (old | ⟨-, -, owner⟩)
        · exact absurd ⟨rfl, rfl⟩ (missing _ old)
        · exact owner.symm
      · exact fun owner => .inr ⟨rfl, rfl, owner.symm⟩
    · rename_i elsewhere
      constructor
      · rintro (old | ⟨space, user, -⟩)
        · exact old
        · exact absurd ⟨space, user⟩ elsewhere
      · exact .inl

theorem access_ok {store : SpaceStore} {userId spaceId : String} {minimum : SpaceRole}
    {space : Space} (granted : store.access userId spaceId minimum = .ok space) :
    store.isActiveUser userId = true ∧ minimum.rank ≤ space.role.rank ∧
      ∃ row, store.member? spaceId userId = some row ∧ space.role = row.role := by
  simp only [access, activeUser, bind_ok_iff, Except.ensure_ok_iff, Except.orThrow_ok_iff,
    Except.pure_ok_iff] at granted
  obtain ⟨-, active, -, -, row, -, member, found, -, rank, rfl⟩ := granted
  exact ⟨active, rank, member, found, rfl⟩

theorem isActiveOwner_of_access {store : SpaceStore} {userId spaceId : String} {space : Space}
    (granted : store.access userId spaceId .owner = .ok space) :
    store.IsActiveOwner spaceId userId := by
  obtain ⟨active, rank, row, lookup, role⟩ := access_ok granted
  obtain ⟨mem, rfl, rfl⟩ := member?_some lookup
  refine ⟨?_, active⟩
  have owner : row.role = .owner := by
    rw [role] at rank
    cases stored : row.role <;> simp [stored, SpaceRole.rank] at rank
    rfl
  cases row
  cases owner
  exact mem

theorem members_ok {store : SpaceStore} {userId spaceId : String} {members : List SpaceMember}
    (read : store.members userId spaceId = .ok members) : members = store.memberList spaceId := by
  simp only [SpaceStore.members, bind_ok_iff, Except.pure_ok_iff] at read
  obtain ⟨-, -, rfl⟩ := read
  rfl

theorem setMember_ok {store after : SpaceStore} {userId spaceId memberId : String}
    {role : Option SpaceRole} {revision : Nat}
    (accepted : store.setMember userId spaceId memberId role revision = .ok after) :
    store.IsActiveOwner spaceId userId ∧ after.platformUsers = store.platformUsers ∧ ¬(role ≠ some .owner ∧
        ((store.memberList spaceId).find? fun m => m.userId = memberId).map (·.role) = some .owner ∧
        ((store.memberList spaceId).filter fun m => m.role = .owner).length = 1) ∧
      ∀ space user, after.IsOwner space user ↔
        if space = spaceId ∧ user = memberId then role = some .owner
        else store.IsOwner space user := by
  simp only [setMember, bind_ok_iff, Except.ensure_ok_iff, Except.pure_ok_iff] at accepted
  obtain ⟨space, granted, -, -, -, -, -, -, members, read, -, guarded, -, -, rfl⟩ := accepted
  rw [members_ok read] at guarded
  refine ⟨isActiveOwner_of_access granted, ?_, guarded, ?_⟩
  · cases role <;> simp only [] <;> split <;> simp
  · intro inSpace user
    cases role with
    | none =>
      simp only [true_or, if_true, revokeRuns_isOwner, setRevision_isOwner, deleteMember_isOwner]
      split <;> simp_all
    | some role =>
      have changed : ∀ condition : Prop, ∀ [Decidable condition], (if condition then
              ((store.upsertMember spaceId memberId role).setRevision spaceId (space.revision + 1)).revokeRuns
                  fun run => run.spaceId = spaceId ∧ run.userId = memberId
            else (store.upsertMember spaceId memberId role).setRevision spaceId
              (space.revision + 1)).IsOwner inSpace user ↔
            if inSpace = spaceId ∧ user = memberId then role = .owner
            else store.IsOwner inSpace user := by
        intro condition _
        rw [← upsertMember_isOwner]
        split <;> simp
      simpa using changed _

/-- An accepted `leave` either only answers from the receipt of an earlier departure,
    or takes the caller's own membership away. -/
theorem leave_ok {store after : SpaceStore} {userId spaceId : String} {revision : Nat}
    {result : LeaveResult} (keyed : store.WellKeyed)
    (accepted : store.leave userId spaceId revision = .ok (result, after)) :
    (store.member? spaceId userId = none ∧ after = store) ∨ after.platformUsers = store.platformUsers ∧
      (store.IsOwner spaceId userId → ((store.memberList spaceId).filter fun m => m.role = .owner).length ≠ 1) ∧
      ∀ space user, after.IsOwner space user ↔ ¬(space = spaceId ∧ user = userId) ∧ store.IsOwner space user := by
  have departed : leave.depart store userId spaceId revision = .ok (result, after) →
      after.platformUsers = store.platformUsers ∧
      (store.IsOwner spaceId userId → ((store.memberList spaceId).filter fun m => m.role = .owner).length ≠ 1) ∧
      ∀ space user, after.IsOwner space user ↔ ¬(space = spaceId ∧ user = userId) ∧ store.IsOwner space user := by
    intro taken
    simp only [leave.depart, bind_ok_iff, Except.ensure_ok_iff, Except.pure_ok_iff, Prod.mk.injEq] at taken
    obtain ⟨space, granted, -, -, members, read, -, guarded, -, rfl⟩ := taken
    rw [members_ok read] at guarded
    refine ⟨by simp, ?_, ?_⟩
    · intro owns single
      obtain ⟨-, -, row, lookup, role⟩ := access_ok granted
      have owner := keyed.member?_owner_iff.mpr owns
      rw [lookup] at owner
      exact guarded ⟨role.trans (by simpa using owner), single⟩
    · intro inSpace user
      simp [deleteMember_isOwner]
  simp only [leave, bind_ok_iff] at accepted
  obtain ⟨-, -, taken⟩ := accepted
  split at taken
  · rename_i absent _ _
    split at taken
    · simp only [Except.pure_ok_iff, Prod.mk.injEq] at taken
      exact .inl ⟨absent, taken.2.symm⟩
    · exact .inr (departed taken)
  · exact .inr (departed taken)

theorem leave_accepts {store : SpaceStore} {userId spaceId : String} {row : SpaceMemberRow}
    {space : Space} (present : store.member? spaceId userId = some row)
    (granted : store.access userId spaceId = .ok space)
    (unguarded : ¬(space.role = .owner ∧ ((store.memberList spaceId).filter fun m => m.role = .owner).length = 1)) :
    ∃ result after, store.leave userId spaceId space.revision = .ok (result, after) := by
  have active := (access_ok granted).1
  simp only [leave, activeUser, bind_ok_iff, Except.ensure_ok_iff, present]
  simp only [leave.depart, SpaceStore.members, bind_ok_iff, Except.ensure_ok_iff,
    Except.pure_ok_iff, granted, Except.ok.injEq, exists_eq_left', unguarded, active]
  simp

end SpaceStore

end PlatformClaw.Spaces
