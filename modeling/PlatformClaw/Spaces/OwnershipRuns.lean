import PlatformClaw.Spaces.Ownership

/-! # Ownership over whole runs

Membership changes of every run, started from an empty store. A change takes the
last active owner away exactly when that owner gives up their own role while the
member list, cut off at two hundred entries, does not show them.
-/

namespace PlatformClaw.Spaces

open Except (bind_ok_iff)

namespace SpaceStore

structure Consistent (store : SpaceStore) : Prop extends store.WellKeyed where
  placed : ∀ member ∈ store.collaborationSpaceMembers, ∃ space ∈ store.collaborationSpaces, space.id = member.spaceId

theorem Consistent.empty : SpaceStore.empty.Consistent where
  users := .nil
  members := .nil
  placed := by simp [SpaceStore.empty]

theorem Consistent.congr {store after : SpaceStore} (consistent : store.Consistent)
    (users : after.platformUsers = store.platformUsers)
    (members : after.collaborationSpaceMembers = store.collaborationSpaceMembers)
    (spaces : ∀ space ∈ store.collaborationSpaces,
      ∃ kept ∈ after.collaborationSpaces, kept.id = space.id) : after.Consistent where
  users := users ▸ consistent.users
  members := members ▸ consistent.members
  placed := by
    intro member inTable
    obtain ⟨space, inSpaces, same⟩ := consistent.placed member (members ▸ inTable)
    obtain ⟨kept, inAfter, id⟩ := spaces space inSpaces
    exact ⟨kept, inAfter, id.trans same⟩

theorem Consistent.setRevision {store : SpaceStore} (consistent : store.Consistent)
    (spaceId : String) (revision : Nat) : (store.setRevision spaceId revision).Consistent := by
  refine consistent.congr rfl rfl ?_
  intro space inSpaces
  refine ⟨_, List.mem_map.mpr ⟨space, inSpaces, rfl⟩, ?_⟩
  split <;> rfl

theorem Consistent.revokeRuns {store : SpaceStore} (consistent : store.Consistent)
    (concerned : SpaceRunRow → Bool) : (store.revokeRuns concerned).Consistent :=
  consistent.congr rfl rfl fun space inSpaces => ⟨space, inSpaces, rfl⟩

theorem Consistent.upsertDeparture {store : SpaceStore} (consistent : store.Consistent)
    (spaceId userId : String) (revision : Nat) :
    (store.upsertDeparture spaceId userId revision).Consistent := by
  unfold SpaceStore.upsertDeparture
  split <;> exact consistent.congr rfl rfl fun space inSpaces => ⟨space, inSpaces, rfl⟩

theorem Consistent.deleteMember {store : SpaceStore} (consistent : store.Consistent)
    (spaceId memberId : String) : (store.deleteMember spaceId memberId).Consistent where
  users := consistent.users
  members := consistent.members.filter _
  placed := fun member inTable => consistent.placed member (List.mem_filter.mp inTable).1

theorem Consistent.upsertMember {store : SpaceStore} (consistent : store.Consistent)
    {spaceId : String} (memberId : String) (role : SpaceRole)
    (inSpace : ∃ space ∈ store.collaborationSpaces, space.id = spaceId) :
    (store.upsertMember spaceId memberId role).Consistent := by
  unfold SpaceStore.upsertMember
  split
  · exact
      { users := consistent.users
        members := by
          refine List.pairwise_map.mpr (consistent.members.imp ?_)
          intro a b apart
          split <;> split <;> exact apart
        placed := by
          intro member inTable
          obtain ⟨source, inSource, rfl⟩ := List.mem_map.mp inTable
          split <;> exact consistent.placed source inSource }
  · rename_i absent
    have missing := member?_eq_none_iff.mp (by simpa using absent)
    exact
      { users := consistent.users
        members := by
          refine List.pairwise_append.mpr ⟨consistent.members, by simp, ?_⟩
          intro a inTable b isNew
          rw [List.mem_singleton.mp isNew]
          exact missing a inTable
        placed := by
          intro member inTable
          rcases List.mem_append.mp inTable with old | new
          · exact consistent.placed member old
          · rw [List.mem_singleton.mp new]
            exact inSpace }

theorem space?_some {store : SpaceStore} {spaceId : String} {space : SpaceRow}
    (found : store.space? spaceId = some space) :
    space ∈ store.collaborationSpaces ∧ space.id = spaceId :=
  ⟨List.mem_of_find?_eq_some found, by simpa using List.find?_some found⟩

theorem space_of_access {store : SpaceStore} {userId spaceId : String} {minimum : SpaceRole}
    {space : Space} (granted : store.access userId spaceId minimum = .ok space) :
    ∃ row ∈ store.collaborationSpaces, row.id = spaceId := by
  simp only [access, bind_ok_iff, Except.orThrow_ok_iff] at granted
  obtain ⟨-, -, -, -, row, found, -⟩ := granted
  exact ⟨row, space?_some found⟩

theorem Consistent.createUser {store after : SpaceStore} {user : PlatformUserRow}
    (consistent : store.Consistent) (accepted : store.createUser user = .ok after) :
    after.Consistent := by
  simp only [SpaceStore.createUser, bind_ok_iff, Except.ensure_ok_iff, Except.pure_ok_iff]
    at accepted
  obtain ⟨-, fresh, rfl⟩ := accepted
  exact
    { users := by
        refine List.pairwise_append.mpr ⟨consistent.users, by simp, ?_⟩
        intro a inTable b isNew
        rw [List.mem_singleton.mp isNew]
        exact (fresh a inTable).1
      members := consistent.members
      placed := consistent.placed }

theorem Consistent.setManagedUserStatus {store : SpaceStore} (consistent : store.Consistent)
    (userId : String) (status : UserStatus) :
    (store.setManagedUserStatus userId status).Consistent where
  users := by
    refine List.pairwise_map.mpr (consistent.users.imp ?_)
    intro a b apart
    split <;> split <;> exact apart
  members := consistent.members
  placed := consistent.placed

theorem Consistent.create {store after : SpaceStore} {userId name requestId id : String} {now : Int}
    {space : Space} (consistent : store.Consistent)
    (accepted : store.create userId name requestId id now = .ok (space, after)) :
    after.Consistent := by
  simp only [SpaceStore.create, bind_ok_iff] at accepted
  obtain ⟨-, -, -, -, -, -, -, -, taken⟩ := accepted
  split at taken
  · simp only [bind_ok_iff, Except.pure_ok_iff, Prod.mk.injEq] at taken
    obtain ⟨-, -, -, -, -, rfl⟩ := taken
    exact consistent
  · simp only [bind_ok_iff, Except.ensure_ok_iff, Except.pure_ok_iff, Prod.mk.injEq] at taken
    obtain ⟨-, -, -, fresh, -, -, -, rfl⟩ := taken
    exact
      { users := consistent.users
        members := by
          refine List.pairwise_append.mpr ⟨consistent.members, by simp, ?_⟩
          intro a inTable b isNew clash
          -- A membership of the new id would point at a Space that has it already.
          rw [List.mem_singleton.mp isNew] at clash
          obtain ⟨other, inSpaces, same⟩ := consistent.placed a inTable
          exact (fresh other inSpaces).1 (same.trans clash.1)
        placed := by
          intro member inTable
          rcases List.mem_append.mp inTable with old | new
          · obtain ⟨other, inSpaces, same⟩ := consistent.placed member old
            exact ⟨other, List.mem_append_left _ inSpaces, same⟩
          · rw [List.mem_singleton.mp new]
            exact ⟨_, List.mem_append_right _ (List.mem_singleton.mpr rfl), rfl⟩ }

theorem Consistent.setMember {store after : SpaceStore} {userId spaceId memberId : String}
    {role : Option SpaceRole} {revision : Nat} (consistent : store.Consistent)
    (accepted : store.setMember userId spaceId memberId role revision = .ok after) :
    after.Consistent := by
  simp only [SpaceStore.setMember, bind_ok_iff, Except.pure_ok_iff] at accepted
  obtain ⟨space, granted, -, -, -, -, -, -, -, -, -, -, -, -, rfl⟩ := accepted
  cases role with
  | none =>
    have changed := consistent.deleteMember spaceId memberId
    rw [if_pos (.inl rfl)]
    exact (changed.setRevision _ _).revokeRuns _
  | some role =>
    have changed := consistent.upsertMember memberId role (space_of_access granted)
    split
    · exact (changed.setRevision _ _).revokeRuns _
    · exact changed.setRevision _ _

theorem Consistent.leave {store after : SpaceStore} {userId spaceId : String} {revision : Nat}
    {result : LeaveResult} (consistent : store.Consistent)
    (accepted : store.leave userId spaceId revision = .ok (result, after)) :
    after.Consistent := by
  have departed : leave.depart store userId spaceId revision = .ok (result, after) → after.Consistent := by
    intro taken
    simp only [leave.depart, bind_ok_iff, Except.pure_ok_iff, Prod.mk.injEq] at taken
    obtain ⟨-, -, -, -, -, -, -, -, -, rfl⟩ := taken
    exact (((consistent.deleteMember _ _).setRevision _ _).revokeRuns _).upsertDeparture _ _ _
  simp only [SpaceStore.leave, bind_ok_iff] at accepted
  obtain ⟨-, -, taken⟩ := accepted
  split at taken
  · split at taken
    · simp only [Except.pure_ok_iff, Prod.mk.injEq] at taken
      exact taken.2 ▸ consistent
    · exact departed taken
  · exact departed taken

theorem Consistent.beginDelete {store after : SpaceStore} {userId spaceId confirmName : String}
    {revision : Nat} {now : Int} {row : SpaceDeletionRow} (consistent : store.Consistent)
    (accepted : store.beginDelete userId spaceId revision confirmName now = .ok (row, after)) :
    after.Consistent := by
  simp only [SpaceStore.beginDelete, bind_ok_iff] at accepted
  obtain ⟨-, -, taken⟩ := accepted
  split at taken
  · simp only [bind_ok_iff, Except.pure_ok_iff, Prod.mk.injEq] at taken
    obtain ⟨-, -, -, rfl⟩ := taken
    exact consistent
  · simp only [bind_ok_iff, Except.pure_ok_iff, Prod.mk.injEq] at taken
    obtain ⟨-, -, -, -, -, -, -, -, -, -, -, -, -, rfl⟩ := taken
    refine Consistent.revokeRuns (Consistent.setRevision ?_ _ _) _
    exact consistent.congr rfl rfl fun space inSpaces => ⟨space, inSpaces, rfl⟩

theorem Consistent.finishDelete {store : SpaceStore} (consistent : store.Consistent)
    (userId spaceId : String) : (store.finishDelete userId spaceId).Consistent where
  users := consistent.users
  members := consistent.members.filter _
  placed := by
    intro member inTable
    obtain ⟨old, elsewhere⟩ := List.mem_filter.mp inTable
    obtain ⟨space, inSpaces, same⟩ := consistent.placed member old
    exact ⟨space, List.mem_filter.mpr ⟨inSpaces, by simpa [same] using elsewhere⟩, same⟩

theorem Consistent.execute {store after : SpaceStore} {operation : SpaceOperation}
    (consistent : store.Consistent) (accepted : store.execute operation = .ok after) :
    after.Consistent := by
  cases operation with
  | createUser user => exact consistent.createUser accepted
  | setManagedUserStatus userId status =>
    cases accepted
    exact consistent.setManagedUserStatus userId status
  | create userId name requestId id now =>
    obtain ⟨⟨space, _⟩, run, rfl⟩ := Except.map_ok_iff.mp accepted
    exact consistent.create run
  | setMember userId spaceId memberId role revision => exact consistent.setMember accepted
  | leave userId spaceId revision =>
    obtain ⟨⟨result, _⟩, run, rfl⟩ := Except.map_ok_iff.mp accepted
    exact consistent.leave run
  | finishLeave userId spaceId revision =>
    cases accepted
    exact consistent.congr rfl rfl fun space inSpaces => ⟨space, inSpaces, rfl⟩
  | beginDelete userId spaceId revision confirmName now =>
    obtain ⟨⟨row, _⟩, run, rfl⟩ := Except.map_ok_iff.mp accepted
    exact consistent.beginDelete run
  | finishDelete userId spaceId =>
    cases accepted
    exact consistent.finishDelete userId spaceId

theorem consistent_of_run (operations : List SpaceOperation) : (spaceMachine.run .empty operations).Consistent := by
  refine Machine.run_invariant ?_ .empty operations
  intro store operation consistent
  simp only [spaceMachine]
  split
  · rename_i accepted
    exact consistent.execute accepted
  · exact consistent

end SpaceStore

/-- The Space and user whose own ownership the call gives up: leaving, or setting
    one's own role to anything but owner. -/
def SpaceOperation.relinquishes : SpaceOperation → Option (String × String)
  | .setMember userId spaceId memberId role _ =>
    if memberId = userId ∧ role ≠ some .owner then some (spaceId, userId) else none
  | .leave userId spaceId _ => some (spaceId, userId)
  | _ => none

def SpaceOperation.changesMembership : SpaceOperation → Bool
  | .setMember .. | .leave .. => true
  | _ => false

/-- A sole active owner who gives up ownership is among the first two hundred
    active members by account. -/
def SpaceStore.SoleOwnerListed (store : SpaceStore) (operation : SpaceOperation) : Prop :=
  ∀ spaceId userId, operation.relinquishes = some (spaceId, userId) →
    store.IsSoleActiveOwner spaceId userId → store.IsListed spaceId userId

/-- No Space with an active owner loses its last one between two stores. -/
def SpaceStore.KeepsOwners (store after : SpaceStore) : Prop :=
  ∀ spaceId, store.HasActiveOwner spaceId → after.HasActiveOwner spaceId

namespace SpaceStore

theorem isActiveUser_congr {store after : SpaceStore} (users : after.platformUsers = store.platformUsers) :
    after.isActiveUser = store.isActiveUser := by
  funext userId
  simp only [isActiveUser, users]

theorem hasActiveOwner_of_other {store after : SpaceStore} {spaceId inSpace owner userId : String}
    (users : after.platformUsers = store.platformUsers)
    (frame : ¬(inSpace = spaceId ∧ owner = userId) → store.IsOwner inSpace owner → after.IsOwner inSpace owner)
    (other : ¬(inSpace = spaceId ∧ owner = userId)) (owned : store.IsActiveOwner inSpace owner) :
    after.HasActiveOwner inSpace :=
  ⟨owner, frame other owned.1, by rw [isActiveUser_congr users]; exact owned.2⟩

theorem not_hasActiveOwner_of_sole {store after : SpaceStore} {spaceId userId : String}
    (users : after.platformUsers = store.platformUsers)
    (removed : ∀ owner, after.IsOwner spaceId owner → owner ≠ userId ∧ store.IsOwner spaceId owner)
    (sole : store.IsSoleActiveOwner spaceId userId) : ¬after.HasActiveOwner spaceId := by
  rintro ⟨owner, owns, active⟩
  obtain ⟨different, owned⟩ := removed owner owns
  rw [isActiveUser_congr users] at active
  exact different (sole.2 owner ⟨owned, active⟩)

theorem WellKeyed.guard_iff_listed {store : SpaceStore} (keyed : store.WellKeyed)
    {spaceId userId : String} (sole : store.IsSoleActiveOwner spaceId userId) :
    ((store.memberList spaceId).filter fun m => m.role = .owner).length = 1 ↔ store.IsListed spaceId userId := by
  constructor
  · intro single
    obtain ⟨member, only⟩ := List.length_eq_one_iff.mp single
    have inOwners : member ∈ (store.memberList spaceId).filter fun m => m.role = .owner := by
      rw [only]
      exact List.mem_singleton.mpr rfl
    obtain ⟨shown, owner⟩ := List.mem_filter.mp inOwners
    exact ⟨member, shown, sole.2 _ (isActiveOwner_of_listed shown (by simpa using owner))⟩
  · exact fun listed => (keyed.sole_owner_counted sole listed).2

theorem WellKeyed.setMember_keepsOwners_iff {store after : SpaceStore}
    {userId spaceId memberId : String} {role : Option SpaceRole} {revision : Nat}
    (keyed : store.WellKeyed)
    (accepted : store.setMember userId spaceId memberId role revision = .ok after) :
    store.KeepsOwners after ↔ store.SoleOwnerListed (.setMember userId spaceId memberId role revision) := by
  obtain ⟨caller, users, guarded, ownership⟩ := setMember_ok accepted
  have frame : ∀ space user, ¬(space = spaceId ∧ user = memberId) → store.IsOwner space user →
      after.IsOwner space user := by
    intro space user elsewhere owns
    exact (ownership space user).mpr (by rwa [if_neg elsewhere])
  by_cases own : memberId = userId ∧ role ≠ some .owner
  · obtain ⟨rfl, demoted⟩ := own
    have removed : ∀ owner, after.IsOwner spaceId owner → owner ≠ memberId ∧ store.IsOwner spaceId owner := by
      intro owner owns
      have known := (ownership spaceId owner).mp owns
      split at known
      · exact absurd known demoted
      · rename_i elsewhere
        exact ⟨fun same => elsewhere ⟨rfl, same⟩, known⟩
    constructor
    · intro keeps space user given sole
      simp only [SpaceOperation.relinquishes, demoted, ne_eq, not_false_eq_true, and_self, if_true,
        Option.some.injEq, Prod.mk.injEq] at given
      obtain ⟨rfl, rfl⟩ := given
      exact absurd (keeps _ ⟨_, sole.1⟩) (not_hasActiveOwner_of_sole users removed sole)
    · intro listed space ⟨owner, owned⟩
      by_cases other : ∃ owner, store.IsActiveOwner space owner ∧ ¬(space = spaceId ∧ owner = memberId)
      · obtain ⟨owner, owned, elsewhere⟩ := other
        exact hasActiveOwner_of_other users (frame space owner) elsewhere owned
      · -- The caller is the only active owner, the list shows them, so the guard refused.
        have only : ∀ owner, store.IsActiveOwner space owner → space = spaceId ∧ owner = memberId := by
          intro owner owned
          exact Classical.byContradiction fun elsewhere => other ⟨owner, owned, elsewhere⟩
        obtain ⟨rfl, rfl⟩ := only owner owned
        have sole : store.IsSoleActiveOwner space owner :=
          ⟨owned, fun candidate owns => (only candidate owns).2⟩
        have shown := listed space owner (by simp [SpaceOperation.relinquishes, demoted]) sole
        exact absurd ⟨demoted, keyed.sole_owner_counted sole shown⟩ guarded
  · refine iff_of_true ?_ ?_
    · intro space ⟨owner, owned⟩
      by_cases here : space = spaceId ∧ owner = memberId
      · obtain ⟨rfl, rfl⟩ := here
        by_cases self : owner = userId
        · have kept : role = some .owner :=
            Classical.byContradiction fun demoted => own ⟨self, demoted⟩
          refine ⟨owner, (ownership _ _).mpr ?_, by rw [isActiveUser_congr users]; exact owned.2⟩
          rwa [if_pos ⟨rfl, rfl⟩]
        · exact hasActiveOwner_of_other users (frame space userId) (fun same => self same.2.symm) caller
      · exact hasActiveOwner_of_other users (frame space owner) here owned
    · intro space user given
      simp [SpaceOperation.relinquishes, own] at given

theorem WellKeyed.leave_keepsOwners_iff {store after : SpaceStore} {userId spaceId : String}
    {revision : Nat} {result : LeaveResult} (keyed : store.WellKeyed)
    (accepted : store.leave userId spaceId revision = .ok (result, after)) :
    store.KeepsOwners after ↔ store.SoleOwnerListed (.leave userId spaceId revision) := by
  rcases leave_ok keyed accepted with ⟨absent, rfl⟩ | ⟨users, guarded, ownership⟩
  · -- A replay changes nothing, and its caller is no member, let alone an owner.
    refine iff_of_true (fun _ owned => owned) ?_
    intro space user given sole
    simp only [SpaceOperation.relinquishes, Option.some.injEq, Prod.mk.injEq] at given
    obtain ⟨rfl, rfl⟩ := given
    have owner := keyed.member?_owner_iff.mpr sole.1.1
    simp [absent] at owner
  · constructor
    · intro keeps space user given sole
      simp only [SpaceOperation.relinquishes, Option.some.injEq, Prod.mk.injEq] at given
      obtain ⟨rfl, rfl⟩ := given
      refine absurd (keeps _ ⟨_, sole.1⟩) (not_hasActiveOwner_of_sole users ?_ sole)
      intro owner owns
      obtain ⟨elsewhere, owned⟩ := (ownership _ owner).mp owns
      exact ⟨fun same => elsewhere ⟨rfl, same⟩, owned⟩
    · intro listed space ⟨owner, owned⟩
      by_cases other : ∃ owner, store.IsActiveOwner space owner ∧ ¬(space = spaceId ∧ owner = userId)
      · obtain ⟨owner, owned, elsewhere⟩ := other
        exact hasActiveOwner_of_other users
          (fun elsewhere owns => (ownership space owner).mpr ⟨elsewhere, owns⟩) elsewhere owned
      · have only : ∀ owner, store.IsActiveOwner space owner → space = spaceId ∧ owner = userId := by
          intro owner owned
          exact Classical.byContradiction fun elsewhere => other ⟨owner, owned, elsewhere⟩
        obtain ⟨rfl, rfl⟩ := only owner owned
        have sole : store.IsSoleActiveOwner space owner :=
          ⟨owned, fun candidate owns => (only candidate owns).2⟩
        have shown := listed space owner rfl sole
        exact absurd ((keyed.guard_iff_listed sole).mpr shown) (guarded owned.1)

theorem WellKeyed.execute_keepsOwners_iff {store after : SpaceStore} {operation : SpaceOperation}
    (keyed : store.WellKeyed) (change : operation.changesMembership = true)
    (accepted : store.execute operation = .ok after) :
    store.KeepsOwners after ↔ store.SoleOwnerListed operation := by
  cases operation with
  | setMember userId spaceId memberId role revision =>
    exact keyed.setMember_keepsOwners_iff accepted
  | leave userId spaceId revision =>
    obtain ⟨⟨result, _⟩, run, rfl⟩ := Except.map_ok_iff.mp accepted
    exact keyed.leave_keepsOwners_iff run
  | _ => simp [SpaceOperation.changesMembership] at change

end SpaceStore

/-- `P` holds at every accepted membership change of a run from the empty store:
    of the store before, the call, and the store after. -/
def AtMembershipChanges (operations : List SpaceOperation)
    (P : SpaceStore → SpaceOperation → SpaceStore → Prop) : Prop :=
  ∀ early operation late after, operations = early ++ operation :: late → operation.changesMembership = true →
    (spaceMachine.run .empty early).execute operation = .ok after →
    P (spaceMachine.run .empty early) operation after

/-- A run keeps an active owner in every Space that has one, at every accepted
    membership change, exactly when a sole active owner who gives up ownership
    is always among the first two hundred active members by account. -/
theorem ownership_kept_iff_sole_owner_listed (operations : List SpaceOperation) :
    AtMembershipChanges operations (fun store _ after => store.KeepsOwners after) ↔
      AtMembershipChanges operations (fun store operation _ => store.SoleOwnerListed operation) := by
  have step : ∀ early operation after, operation.changesMembership = true →
      (spaceMachine.run .empty early).execute operation = .ok after →
      ((spaceMachine.run .empty early).KeepsOwners after ↔
        (spaceMachine.run .empty early).SoleOwnerListed operation) := fun early _ _ change accepted =>
    (SpaceStore.consistent_of_run early).toWellKeyed.execute_keepsOwners_iff change accepted
  constructor
  · intro kept early operation late after split change accepted
    exact (step early operation after change accepted).mp (kept early operation late after split change accepted)
  · intro listed early operation late after split change accepted
    exact (step early operation after change accepted).mpr (listed early operation late after split change accepted)

namespace CrowdedSpace

/-- Ids and accounts of the employees: distinct, and all before the owner's. -/
def name (index : Nat) : String := .ofList (List.replicate (index + 1) 'a')

def owner : PlatformUserRow := ⟨"z", "z", none, .active, .member⟩

def employee (index : Nat) : PlatformUserRow := ⟨name index, name index, none, .active, .member⟩

def staff (count : Nat) : List PlatformUserRow := owner :: (List.range count).map employee

/-- The Space after the first `count` employees have joined, at the revision these calls reach. -/
def crowd (users : List PlatformUserRow) (count : Nat) : SpaceStore :=
  { SpaceStore.empty with
    platformUsers := users
    collaborationSpaces := [⟨"space", "Space", "space-space", "z", "request", count + 1, 0⟩]
    collaborationSpaceMembers :=
      ⟨"space", "z", .owner⟩ :: (List.range count).map fun i => ⟨"space", name i, .viewer⟩ }

def hiring (count : Nat) : List SpaceOperation :=
  .createUser owner :: (List.range count).map fun i => .createUser (employee i)

def joining (index : Nat) : SpaceOperation :=
  .setMember "z" "space" (name index) (some .viewer) (index + 1)

/-- Everybody is hired, the Space is created, and all employees end up as active members. -/
def operations : List SpaceOperation :=
  hiring 200 ++ [.create "z" "Space" "request" "space" 0] ++ (List.range 199).map joining ++
    [.setManagedUserStatus (name 0) .disabled, joining 199, .setManagedUserStatus (name 0) .active]

theorem name_inj {i j : Nat} (same : name i = name j) : i = j := by
  have lengths := congrArg (fun text => text.toList.length) same
  simpa [name] using lengths

theorem name_ne_owner (index : Nat) : name index ≠ "z" := by
  intro same
  have letters := congrArg String.toList same
  simp [name, List.replicate_succ] at letters

theorem step_of_ok {store after : SpaceStore} {operation : SpaceOperation}
    (accepted : store.execute operation = .ok after) :
    spaceMachine.step store operation = after := by
  simp only [spaceMachine, accepted]

theorem run_hiring (count : Nat) :
    spaceMachine.run .empty (hiring count) = { SpaceStore.empty with platformUsers := staff count } := by
  induction count with
  | zero => rfl
  | succ count ih =>
    have split : hiring (count + 1) = hiring count ++ [.createUser (employee count)] := by
      simp [hiring, List.range_succ]
    rw [split, Machine.run_append, ih, Machine.run_cons, Machine.run_nil]
    refine step_of_ok ?_
    have fresh : ∀ other ∈ staff count, other.id ≠ name count ∧ other.accountId ≠ name count := by
      intro other inStaff
      rcases List.mem_cons.mp inStaff with rfl | employed
      · exact ⟨(name_ne_owner count).symm, (name_ne_owner count).symm⟩
      · obtain ⟨i, inRange, rfl⟩ := List.mem_map.mp employed
        have different : name i ≠ name count := fun same => by
          have := name_inj same
          have := List.mem_range.mp inRange
          omega
        exact ⟨different, different⟩
    refine bind_ok_iff.mpr ⟨(), Except.ensure_ok_iff.mpr fresh, ?_⟩
    simp [pure, Except.pure, staff, List.range_succ, employee]

theorem isActiveUser_owner {users : List PlatformUserRow} (hired : owner ∈ users) (count : Nat) :
    (crowd users count).isActiveUser "z" = true :=
  SpaceStore.isActiveUser_iff.mpr ⟨owner, hired, rfl, rfl⟩

theorem access_owner {users : List PlatformUserRow} (hired : owner ∈ users) (count : Nat)
    (minimum : SpaceRole) : (crowd users count).access "z" "space" minimum =
      .ok ⟨"space", "Space", "space-space", count + 1, .owner⟩ := by
  simp only [SpaceStore.access, SpaceStore.activeUser, bind_ok_iff, Except.ensure_ok_iff,
    Except.orThrow_ok_iff, Except.pure_ok_iff]
  exact ⟨(), isActiveUser_owner hired count, (), rfl, _, rfl, _, rfl, (), by cases minimum <;> decide, rfl⟩

theorem joins {users : List PlatformUserRow} {count : Nat} (hired : owner ∈ users)
    (active : (crowd users count).isActiveUser (name count) = true)
    (room : ((crowd users count).activeMembers "space").length < 200) :
    spaceMachine.step (crowd users count) (joining count) = crowd users (count + 1) := by
  have absent : (crowd users count).member? "space" (name count) = none := by
    refine SpaceStore.member?_eq_none_iff.mpr ?_
    rintro row inTable ⟨-, same⟩
    rcases List.mem_cons.mp inTable with rfl | joined
    · exact name_ne_owner count same.symm
    · obtain ⟨i, inRange, rfl⟩ := List.mem_map.mp joined
      have := name_inj same
      have := List.mem_range.mp inRange
      omega
  have unlisted : (((crowd users count).memberList "space").find?
      fun m => m.userId = name count) = none := by
    refine List.find?_eq_none.mpr ?_
    intro member shown same
    obtain ⟨row, inTable, here, user, _, given, _, rfl⟩ :=
      SpaceStore.mem_activeMembers.mp (SpaceStore.mem_memberList shown)
    exact SpaceStore.member?_eq_none_iff.mp absent row inTable ⟨here, given.symm.trans (by simpa using same)⟩
  have short : ((crowd users count).memberList "space").length < 200 := by
    simp only [SpaceStore.memberList, List.length_take, List.length_mergeSort]
    omega
  refine step_of_ok ?_
  simp only [SpaceStore.execute, joining, SpaceStore.setMember, SpaceStore.members, bind_ok_iff,
    Except.ensure_ok_iff, Except.pure_ok_iff]
  refine ⟨_, access_owner hired count .owner, (), rfl, (), .inr active, (), rfl, _,
    ⟨_, access_owner hired count .viewer, rfl⟩, (), ?_, (), .inr (.inr short), ?_⟩
  · simp [unlisted]
  · rw [if_pos (by simp), SpaceStore.upsertMember, absent]
    simp [crowd, SpaceStore.setRevision, SpaceStore.revokeRuns, SpaceStore.empty, List.range_succ]

theorem owner_hired (count : Nat) : owner ∈ staff count := List.mem_cons_self

theorem employee_hired {index count : Nat} (within : index < count) : employee index ∈ staff count :=
  List.mem_cons_of_mem _ (List.mem_map.mpr ⟨index, List.mem_range.mpr within, rfl⟩)

theorem run_created (count : Nat) :
    spaceMachine.run .empty (hiring count ++ [.create "z" "Space" "request" "space" 0]) =
      crowd (staff count) 0 := by
  rw [Machine.run_append, run_hiring, Machine.run_cons, Machine.run_nil]
  refine step_of_ok ?_
  refine Except.map_ok_iff.mpr ⟨(⟨"space", "Space", "space-space", 1, .owner⟩, _), ?_, rfl⟩
  simp only [SpaceStore.create, SpaceStore.activeUser, spaceText, bind_ok_iff, Except.ensure_ok_iff]
  refine ⟨(), isActiveUser_owner (owner_hired count) 0, (), by decide, (), by decide, (), rfl, ?_⟩
  rw [show SpaceStore.empty.collaborationSpaces.find? (fun space =>
    space.creatorId = "z" ∧ space.requestId = "request") = none from rfl]
  simp only [bind_ok_iff, Except.ensure_ok_iff, Except.pure_ok_iff]
  refine ⟨(), by decide, (), by simp [SpaceStore.empty], _, access_owner (owner_hired count) 0 .viewer, ?_⟩
  rfl

theorem members_crowd (users : List PlatformUserRow) (count : Nat) :
    (crowd users count).collaborationSpaceMembers.length = count + 1 := by
  simp [crowd]

theorem keyed_of_run {earlier : List SpaceOperation} {store : SpaceStore}
    (reached : spaceMachine.run .empty earlier = store) : store.WellKeyed :=
  reached ▸ (SpaceStore.consistent_of_run earlier).toWellKeyed

/-- Before the limit is reached the rows themselves are fewer than two hundred. -/
theorem run_joining {count : Nat} (early : count ≤ 199) :
    spaceMachine.run .empty (hiring 200 ++ [.create "z" "Space" "request" "space" 0] ++
      (List.range count).map joining) = crowd (staff 200) count := by
  induction count with
  | zero => simpa using run_created 200
  | succ count ih =>
    have joined := ih (by omega)
    rw [List.range_succ, List.map_append, ← List.append_assoc, Machine.run_append, joined]
    refine joins (owner_hired 200) ?_ ?_
    · exact SpaceStore.isActiveUser_iff.mpr ⟨_, employee_hired (by omega : count < 200), rfl, rfl⟩
    · have keyed := keyed_of_run joined
      have rows := List.length_filter_le (fun row =>
        decide (row.spaceId = "space" ∧ (crowd (staff 200) count).isActiveUser row.userId))
        (crowd (staff 200) count).collaborationSpaceMembers
      rw [members_crowd] at rows
      rw [keyed.activeMembers_length]
      omega

/-- The staff while the first employee is disabled. -/
def reduced : List PlatformUserRow :=
  (staff 200).map fun user => if user.id = name 0 then { user with status := .disabled } else user

theorem staff_active {count : Nat} {user : PlatformUserRow} (inStaff : user ∈ staff count) :
    user.status = .active := by
  rcases List.mem_cons.mp inStaff with rfl | employed
  · rfl
  · obtain ⟨i, _, rfl⟩ := List.mem_map.mp employed
    rfl

theorem reduced_enabled :
    reduced.map (fun user => if user.id = name 0 then { user with status := .active } else user) =
      staff 200 := by
  rw [reduced, List.map_map]
  refine (List.map_congr_left ?_).trans (List.map_id _)
  intro user inStaff
  have active := staff_active inStaff
  rw [Function.comp_apply, id]
  by_cases first : user.id = name 0
  · rw [if_pos first, if_pos first, ← active]
  · rw [if_neg first, if_neg first]

theorem reduced_owner : owner ∈ reduced :=
  List.mem_map.mpr ⟨owner, owner_hired 200, if_neg (name_ne_owner 0).symm⟩

theorem reduced_first : (crowd reduced 199).isActiveUser (name 0) = false := by
  refine Bool.eq_false_iff.mpr fun active => ?_
  obtain ⟨user, inTable, same, status⟩ := SpaceStore.isActiveUser_iff.mp active
  obtain ⟨source, _, rfl⟩ := List.mem_map.mp inTable
  split at same
  · rename_i first
    rw [if_pos first] at status
    cases status
  · rename_i other
    exact other same

/-- The disabled employee keeps the membership but is not counted, so the last one may join. -/
theorem run_operations : spaceMachine.run .empty operations = crowd (staff 200) 200 := by
  have disabled : spaceMachine.run .empty (hiring 200 ++
      [.create "z" "Space" "request" "space" 0] ++ (List.range 199).map joining ++
      [.setManagedUserStatus (name 0) .disabled]) = crowd reduced 199 := by
    rw [Machine.run_append, run_joining (Nat.le_refl 199)]
    rfl
  have joined : spaceMachine.step (crowd reduced 199) (joining 199) = crowd reduced 200 := by
    refine joins reduced_owner ?_ ?_
    · refine SpaceStore.isActiveUser_iff.mpr ⟨employee 199, ?_, rfl, rfl⟩
      refine List.mem_map.mpr ⟨employee 199, employee_hired (by omega), if_neg ?_⟩
      exact fun same => absurd (name_inj same) (by omega)
    · rw [(keyed_of_run disabled).activeMembers_length]
      have fewer : (List.filter (fun row =>
          decide (row.spaceId = "space" ∧ (crowd reduced 199).isActiveUser row.userId))
          (crowd reduced 199).collaborationSpaceMembers).length <
            (crowd reduced 199).collaborationSpaceMembers.length := by
        refine List.length_filter_lt_length_iff_exists.mpr ⟨⟨"space", name 0, .viewer⟩, ?_, ?_⟩
        · exact List.mem_cons_of_mem _ (List.mem_map.mpr ⟨0, by decide, rfl⟩)
        · simp [reduced_first]
      rw [members_crowd] at fewer
      omega
  have split : operations = (hiring 200 ++ [.create "z" "Space" "request" "space" 0] ++
      (List.range 199).map joining ++ [.setManagedUserStatus (name 0) .disabled]) ++
      [joining 199, .setManagedUserStatus (name 0) .active] := by
    simp only [operations, List.append_assoc, List.cons_append, List.nil_append]
  rw [split, Machine.run_append, disabled, Machine.run_cons, joined, Machine.run_cons, Machine.run_nil]
  refine step_of_ok (congrArg Except.ok ?_)
  rw [SpaceStore.setManagedUserStatus, show (crowd reduced 200).platformUsers = reduced from rfl, reduced_enabled]
  rfl

theorem keyed : (crowd (staff 200) 200).WellKeyed := keyed_of_run run_operations

theorem sole_owner : (crowd (staff 200) 200).IsSoleActiveOwner "space" "z" := by
  refine ⟨⟨List.mem_cons_self, isActiveUser_owner (owner_hired 200) 200⟩, ?_⟩
  rintro other ⟨owns, -⟩
  rcases List.mem_cons.mp owns with same | joined
  · exact congrArg SpaceMemberRow.userId same
  · obtain ⟨i, _, row⟩ := List.mem_map.mp joined
    cases congrArg SpaceMemberRow.role row

theorem active_crowd : ((crowd (staff 200) 200).activeMembers "space").length = 201 := by
  rw [keyed.activeMembers_length, List.filter_eq_self.mpr, members_crowd]
  intro row inTable
  rcases List.mem_cons.mp inTable with rfl | joined
  · simpa using isActiveUser_owner (owner_hired 200) 200
  · obtain ⟨i, inRange, rfl⟩ := List.mem_map.mp joined
    have active : (crowd (staff 200) 200).isActiveUser (name i) = true :=
      SpaceStore.isActiveUser_iff.mpr ⟨_, employee_hired (List.mem_range.mp inRange), rfl, rfl⟩
    simpa using active

theorem owner_after (index : Nat) :
    ScriptString.upTo (ScriptString.codePoints "z") (ScriptString.codePoints (name index)) =
      false := by
  have letters : (name index).toList = 'a' :: List.replicate index 'a' := by
    rw [name, String.toList_ofList, List.replicate_succ]
  rw [ScriptString.codePoints, ScriptString.codePoints, letters]
  rfl

theorem owner_unlisted : ¬(crowd (staff 200) 200).IsListed "space" "z" := by
  rintro ⟨member, shown, isOwner⟩
  have ordered := SpaceStore.memberList_before (crowd (staff 200) 200) "space"
  have length : (((crowd (staff 200) 200).activeMembers "space").mergeSort
      SpaceStore.accountOrder).length = 201 := by
    rw [List.length_mergeSort, active_crowd]
  obtain ⟨late, inRest⟩ : ∃ late, late ∈ (((crowd (staff 200) 200).activeMembers "space").mergeSort
      SpaceStore.accountOrder).drop 200 :=
    List.exists_mem_of_length_pos (by rw [List.length_drop, length]; decide)
  obtain ⟨distinct, before⟩ := ordered keyed member shown late inRest
  have inActive := List.mem_mergeSort.mp (List.mem_of_mem_drop inRest)
  obtain ⟨row, inTable, here, user, inUsers, same, _, rfl⟩ := SpaceStore.mem_activeMembers.mp inActive
  obtain ⟨own, _, _, ownUser, inOwn, ownSame, _, rfl⟩ :=
    SpaceStore.mem_activeMembers.mp (SpaceStore.mem_memberList shown)
  rcases List.mem_cons.mp inUsers with rfl | employed
  · exact distinct isOwner
  · obtain ⟨i, _, rfl⟩ := List.mem_map.mp employed
    rw [keyed.user_unique inOwn (owner_hired 200) isOwner] at before
    exact absurd before (Bool.eq_false_iff.mp (owner_after i))

theorem owner_member (users : List PlatformUserRow) (count : Nat) :
    (crowd users count).member? "space" "z" = some ⟨"space", "z", .owner⟩ := rfl

theorem owner_leaves : ∃ result after,
    (crowd (staff 200) 200).leave "z" "space" 201 = .ok (result, after) ∧
      ¬after.HasActiveOwner "space" := by
  have unguarded := mt (keyed.guard_iff_listed sole_owner).mp owner_unlisted
  have accepted := SpaceStore.leave_accepts (owner_member (staff 200) 200)
    (access_owner (owner_hired 200) 200 .viewer) fun guarded => unguarded guarded.2
  obtain ⟨result, after, taken⟩ := accepted
  refine ⟨result, after, taken, ?_⟩
  rcases SpaceStore.leave_ok keyed taken with ⟨absent, -⟩ | ⟨users, -, ownership⟩
  · rw [owner_member] at absent
    cases absent
  · refine SpaceStore.not_hasActiveOwner_of_sole users ?_ sole_owner
    intro other owns
    obtain ⟨elsewhere, owned⟩ := (ownership "space" other).mp owns
    exact ⟨fun same => elsewhere ⟨rfl, same⟩, owned⟩

/-- The last-owner guard misses the owner whom the member list does not show. -/
theorem crowdedSpace_loses_ownership :
    ¬AtMembershipChanges (operations ++ [.leave "z" "space" 201])
      (fun store _ after => store.KeepsOwners after) := by
  intro kept
  obtain ⟨result, after, accepted, lost⟩ := owner_leaves
  refine lost (kept operations (.leave "z" "space" 201) [] after rfl rfl ?_ "space" ?_)
  · rw [run_operations]
    exact Except.map_ok_iff.mpr ⟨(result, after), accepted, rfl⟩
  · rw [run_operations]
    exact ⟨"z", sole_owner.1⟩

end CrowdedSpace

end PlatformClaw.Spaces
