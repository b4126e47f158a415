import PlatformClaw.Accounts
import PlatformClaw.Library.Guarded
import PlatformClaw.Library.Machine
import PlatformClaw.Library.ScriptString

/-! # The spaces store

Tables and operations of `sqlite-spaces.ts` and `sqlite-space-lifecycle.ts`, as
far as membership, departure and deletion go. An operation reads the store and
returns either an error or its result with the changed store: it runs in one
immediate transaction, so an error leaves the store as it was.
-/

namespace PlatformClaw.Spaces

open Except (ensure orThrow)

inductive SpaceRole where
  | viewer
  | editor
  | owner
  deriving Repr, DecidableEq

/-- `rank` orders the roles by what they allow. -/
def SpaceRole.rank : SpaceRole → Nat
  | .viewer => 1
  | .editor => 2
  | .owner => 3

inductive DeletionState where
  | deleting
  | deleted
  deriving Repr, DecidableEq

inductive RunState where
  | active
  | revoked
  | finished
  | failed
  deriving Repr, DecidableEq

structure SpaceRow where
  id : String
  name : String
  agentId : String
  creatorId : String
  requestId : String
  revision : Nat
  createdAt : Int
  deriving Repr, DecidableEq

structure SpaceMemberRow where
  spaceId : String
  userId : String
  role : SpaceRole
  deriving Repr, DecidableEq

structure SpaceDeletionRow where
  spaceId : String
  userId : String
  name : String
  agentId : String
  revision : Nat
  creatorId : String
  requestId : String
  ownerIds : List String
  state : DeletionState
  createdAt : Int
  deriving Repr, DecidableEq

structure SpaceDepartureRow where
  spaceId : String
  userId : String
  revision : Nat
  pending : Bool
  deriving Repr, DecidableEq

structure SpaceRunRow where
  runId : String
  spaceId : String
  userId : String
  state : RunState
  deriving Repr, DecidableEq

structure SpaceStore where
  platformUsers : List PlatformUserRow
  collaborationSpaces : List SpaceRow
  collaborationSpaceMembers : List SpaceMemberRow
  collaborationSpaceDeletions : List SpaceDeletionRow
  collaborationSpaceDepartures : List SpaceDepartureRow
  collaborationSpaceRuns : List SpaceRunRow
  deriving Repr, DecidableEq

def SpaceStore.empty : SpaceStore := ⟨[], [], [], [], [], []⟩

/-- The errors of the control plane, with the texts the source gives them. -/
inductive SpaceError where
  | authorization (message : String)
  | conflict (code message : String)
  | state (message : String)
  /-- A uniqueness or foreign-key constraint of the schema rejected the write. -/
  | constraint
  deriving Repr, DecidableEq

/-- A Space as a member sees it. -/
structure Space where
  id : String
  name : String
  agentId : String
  revision : Nat
  role : SpaceRole
  deriving Repr, DecidableEq

structure SpaceMember where
  userId : String
  accountId : String
  displayName : String
  role : SpaceRole
  deriving Repr, DecidableEq

def unavailable : SpaceError := .authorization "Space unavailable"

def spaceChanged (action : String) : SpaceError :=
  .conflict "space_changed" ("Space changed; reload before " ++ action)

def spaceText (value label : String) (max : Nat) : Except SpaceError Unit :=
  ensure (ScriptString.length value ≤ max ∧ ScriptString.isBlank value = false)
    (.state ("Invalid " ++ label))

namespace SpaceStore

def isActiveUser (store : SpaceStore) (userId : String) : Bool :=
  store.platformUsers.any fun user => user.id = userId ∧ user.status = .active

def activeUser (store : SpaceStore) (userId : String) : Except SpaceError Unit :=
  ensure (store.isActiveUser userId) unavailable

/-- A deletion receipt exists, whether cleanup is still running or finished. -/
def deleting (store : SpaceStore) (spaceId : String) : Bool :=
  store.collaborationSpaceDeletions.any fun deletion => deletion.spaceId = spaceId

def deletedRequest (store : SpaceStore) (userId requestId : String) : Bool :=
  store.collaborationSpaceDeletions.any fun deletion =>
    deletion.creatorId = userId ∧ deletion.requestId = requestId

def space? (store : SpaceStore) (spaceId : String) : Option SpaceRow :=
  store.collaborationSpaces.find? fun space => space.id = spaceId

def member? (store : SpaceStore) (spaceId userId : String) : Option SpaceMemberRow :=
  store.collaborationSpaceMembers.find? fun member =>
    member.spaceId = spaceId ∧ member.userId = userId

def departure? (store : SpaceStore) (spaceId userId : String) : Option SpaceDepartureRow :=
  store.collaborationSpaceDepartures.find? fun departure =>
    departure.spaceId = spaceId ∧ departure.userId = userId

def access (store : SpaceStore) (userId spaceId : String) (minimum : SpaceRole := .viewer) :
    Except SpaceError Space := do
  store.activeUser userId
  ensure (store.deleting spaceId = false) unavailable
  let space ← orThrow (store.space? spaceId) unavailable
  let member ← orThrow (store.member? spaceId userId) unavailable
  ensure (minimum.rank ≤ member.role.rank) unavailable
  return { id := space.id, name := space.name, agentId := space.agentId,
           revision := space.revision, role := member.role }

/-- `employee.account_id` orders the member list. -/
def accountOrder (left right : SpaceMember) : Bool :=
  ScriptString.upTo (ScriptString.codePoints left.accountId) (ScriptString.codePoints right.accountId)

/-- The rows of the join of members and active employees, unordered. -/
def activeMembers (store : SpaceStore) (spaceId : String) : List SpaceMember :=
  store.collaborationSpaceMembers.flatMap fun member =>
    if member.spaceId = spaceId then
      (store.platformUsers.filter fun user => user.id = member.userId ∧ user.status = .active).map
        fun user =>
          { userId := user.id, accountId := user.accountId,
            displayName := (user.displayName.filter (· ≠ "")).getD user.accountId,
            role := member.role }
    else []

/-- The member list a client sees: active employees by account, at most two hundred. -/
def memberList (store : SpaceStore) (spaceId : String) : List SpaceMember :=
  ((store.activeMembers spaceId).mergeSort accountOrder).take 200

def members (store : SpaceStore) (userId spaceId : String) : Except SpaceError (List SpaceMember) := do
  let _ ← store.access userId spaceId
  return store.memberList spaceId

def setRevision (store : SpaceStore) (spaceId : String) (revision : Nat) : SpaceStore :=
  { store with collaborationSpaces := store.collaborationSpaces.map fun space =>
      if space.id = spaceId then { space with revision } else space }

/-- Insert the membership or change the role of the existing one. -/
def upsertMember (store : SpaceStore) (spaceId memberId : String) (role : SpaceRole) : SpaceStore :=
  if (store.member? spaceId memberId).isSome then
    { store with collaborationSpaceMembers := store.collaborationSpaceMembers.map fun member =>
        if member.spaceId = spaceId ∧ member.userId = memberId then { member with role }
        else member }
  else
    { store with collaborationSpaceMembers :=
        store.collaborationSpaceMembers ++ [{ spaceId, userId := memberId, role }] }

def deleteMember (store : SpaceStore) (spaceId memberId : String) : SpaceStore :=
  { store with collaborationSpaceMembers := store.collaborationSpaceMembers.filter fun member =>
      ¬(member.spaceId = spaceId ∧ member.userId = memberId) }

/-- Revoke the active runs that `concerned` selects. -/
def revokeRuns (store : SpaceStore) (concerned : SpaceRunRow → Bool) : SpaceStore :=
  { store with collaborationSpaceRuns := store.collaborationSpaceRuns.map fun run =>
      if concerned run ∧ run.state = .active then { run with state := .revoked } else run }

def upsertDeparture (store : SpaceStore) (spaceId userId : String) (revision : Nat) : SpaceStore :=
  if (store.departure? spaceId userId).isSome then
    { store with collaborationSpaceDepartures := store.collaborationSpaceDepartures.map fun row =>
        if row.spaceId = spaceId ∧ row.userId = userId then { row with revision, pending := true }
        else row }
  else
    { store with collaborationSpaceDepartures :=
        store.collaborationSpaceDepartures ++ [{ spaceId, userId, revision, pending := true }] }

/-- The part of sign-in that adds an employee; ids and accounts are unique columns. -/
def createUser (store : SpaceStore) (user : PlatformUserRow) : Except SpaceError SpaceStore := do
  ensure (∀ other ∈ store.platformUsers, other.id ≠ user.id ∧ other.accountId ≠ user.accountId) .constraint
  return { store with platformUsers := store.platformUsers ++ [{ user with status := .active }] }

def setManagedUserStatus (store : SpaceStore) (userId : String) (status : UserStatus) : SpaceStore :=
  { store with platformUsers := store.platformUsers.map fun user =>
      if user.id = userId then { user with status } else user }

/-- `id` is the random identifier the call draws. -/
def create (store : SpaceStore) (userId name requestId id : String) (now : Int) :
    Except SpaceError (Space × SpaceStore) := do
  store.activeUser userId
  spaceText name "Space name" 160
  spaceText requestId "request id" 128
  ensure (store.deletedRequest userId requestId = false)
    (.state "Space was deleted; use a new creation request")
  match store.collaborationSpaces.find? fun space =>
      space.creatorId = userId ∧ space.requestId = requestId with
  | some prior =>
    ensure (prior.name = name) (spaceChanged "retrying")
    let space ← store.access userId prior.id
    return (space, store)
  | none =>
    ensure ((store.collaborationSpaces.filter fun space => space.creatorId = userId).length < 100)
      (.state "Space limit reached")
    ensure (∀ other ∈ store.collaborationSpaces, other.id ≠ id ∧ other.agentId ≠ "space-" ++ id)
      .constraint
    let created : SpaceStore := { store with
      collaborationSpaces := store.collaborationSpaces ++
        [{ id, name, agentId := "space-" ++ id, creatorId := userId, requestId,
           revision := 1, createdAt := now }]
      collaborationSpaceMembers := store.collaborationSpaceMembers ++
        [{ spaceId := id, userId, role := .owner }] }
    let space ← created.access userId id
    return (space, created)

def setMember (store : SpaceStore) (userId spaceId memberId : String) (role : Option SpaceRole)
    (revision : Nat) : Except SpaceError SpaceStore := do
  let space ← store.access userId spaceId .owner
  ensure (space.revision = revision) (spaceChanged "retrying")
  -- Disabled employees cannot receive grants, but their membership stays removable.
  ensure (role = none ∨ store.isActiveUser memberId) unavailable
  ensure ((store.departure? spaceId memberId).all fun departure => departure.pending = false)
    (.state "This member is still leaving; finish their cleanup before changing membership")
  let members ← store.members userId spaceId
  ensure (¬(role ≠ some .owner ∧ (members.find? fun m => m.userId = memberId).map (·.role) = some .owner ∧
      (members.filter fun m => m.role = .owner).length = 1))
    (.state "Keep at least one active Space owner")
  ensure (role = none ∨ (members.any fun m => m.userId = memberId) ∨ members.length < 200)
    (.state "Space member limit reached")
  let changed := match role with
    | some role => store.upsertMember spaceId memberId role
    | none => store.deleteMember spaceId memberId
  let counted := changed.setRevision spaceId (space.revision + 1)
  return if role = none ∨ role = some .viewer then
      counted.revokeRuns fun run => run.spaceId = spaceId ∧ run.userId = memberId
    else counted

/-- What `leave` answers: cleanup still owed, or finished earlier. -/
inductive LeaveResult where
  | left
  | leaving (id agentId : String)
  deriving Repr, DecidableEq

def leave (store : SpaceStore) (userId spaceId : String) (revision : Nat) :
    Except SpaceError (LeaveResult × SpaceStore) := do
  store.activeUser userId
  match store.member? spaceId userId, store.departure? spaceId userId, store.space? spaceId with
  | none, some receipt, some row =>
    if receipt.revision = revision ∧ store.deleting spaceId = false then
      return (if receipt.pending then .leaving row.id row.agentId else .left, store)
    else depart
  | _, _, _ => depart
where
  /-- The path taken unless the receipt of an earlier departure answers. -/
  depart : Except SpaceError (LeaveResult × SpaceStore) := do
    let space ← store.access userId spaceId
    ensure (space.revision = revision) (spaceChanged "leaving")
    let members ← store.members userId spaceId
    ensure (¬(space.role = .owner ∧ (members.filter fun m => m.role = .owner).length = 1))
      (.state "Assign another active Space owner before leaving")
    let departed := (store.deleteMember spaceId userId).setRevision spaceId (revision + 1)
    let revoked := departed.revokeRuns fun run => run.spaceId = spaceId ∧ run.userId = userId
    return (.leaving space.id space.agentId, revoked.upsertDeparture spaceId userId revision)

def finishLeave (store : SpaceStore) (userId spaceId : String) (revision : Nat) : SpaceStore :=
  { store with collaborationSpaceDepartures := store.collaborationSpaceDepartures.map fun row =>
      if row.spaceId = spaceId ∧ row.userId = userId ∧ row.revision = revision then
        { row with pending := false }
      else row }

def beginDelete (store : SpaceStore) (userId spaceId : String) (revision : Nat)
    (confirmName : String) (now : Int) : Except SpaceError (SpaceDeletionRow × SpaceStore) := do
  store.activeUser userId
  match store.collaborationSpaceDeletions.find? fun deletion => deletion.spaceId = spaceId with
  | some prior =>
    let owner := prior.state = .deleting ∧ (store.member? spaceId userId).any fun member => member.role = .owner
    ensure ((owner ∨ userId ∈ prior.ownerIds) ∧ prior.revision = revision ∧
        (prior.state = .deleted ∨ prior.name = confirmName))
      (.authorization "Space deletion unavailable")
    return (prior, store)
  | none =>
    let space ← store.access userId spaceId .owner
    ensure (space.revision = revision) (spaceChanged "deleting")
    ensure (confirmName = space.name)
      (.state "Enter the exact Space name to confirm permanent deletion")
    let original ← orThrow (store.space? spaceId) unavailable
    let members ← store.members userId spaceId
    let row : SpaceDeletionRow :=
      { spaceId, userId, name := space.name, agentId := space.agentId, revision,
        creatorId := original.creatorId, requestId := original.requestId,
        ownerIds := (members.filter fun m => m.role = .owner).map (·.userId),
        state := .deleting, createdAt := now }
    ensure (∀ other ∈ store.collaborationSpaceDeletions,
        ¬(other.creatorId = row.creatorId ∧ other.requestId = row.requestId)) .constraint
    let started : SpaceStore := { store with
      collaborationSpaceDeletions := store.collaborationSpaceDeletions ++ [row] }
    let counted := started.setRevision spaceId (revision + 1)
    return (row, counted.revokeRuns fun run => run.spaceId = spaceId)

/-- Registry removal; the rows of a Space go with it by the foreign keys. -/
def finishDelete (store : SpaceStore) (userId spaceId : String) : SpaceStore :=
  { store with
    collaborationSpaces := store.collaborationSpaces.filter fun space => space.id ≠ spaceId
    collaborationSpaceMembers :=
      store.collaborationSpaceMembers.filter fun member => member.spaceId ≠ spaceId
    collaborationSpaceDepartures :=
      store.collaborationSpaceDepartures.filter fun departure => departure.spaceId ≠ spaceId
    collaborationSpaceRuns := store.collaborationSpaceRuns.filter fun run => run.spaceId ≠ spaceId
    collaborationSpaceDeletions := store.collaborationSpaceDeletions.map fun deletion =>
      if deletion.spaceId = spaceId then { deletion with state := .deleted, name := "", userId }
      else deletion }

end SpaceStore

/-- One call on the store. -/
inductive SpaceOperation where
  | createUser (user : PlatformUserRow)
  | setManagedUserStatus (userId : String) (status : UserStatus)
  | create (userId name requestId id : String) (now : Int)
  | setMember (userId spaceId memberId : String) (role : Option SpaceRole) (revision : Nat)
  | leave (userId spaceId : String) (revision : Nat)
  | finishLeave (userId spaceId : String) (revision : Nat)
  | beginDelete (userId spaceId : String) (revision : Nat) (confirmName : String) (now : Int)
  | finishDelete (userId spaceId : String)
  deriving Repr, DecidableEq

def SpaceStore.execute (store : SpaceStore) : SpaceOperation → Except SpaceError SpaceStore
  | .createUser user => store.createUser user
  | .setManagedUserStatus userId status => .ok (store.setManagedUserStatus userId status)
  | .create userId name requestId id now => (·.2) <$> store.create userId name requestId id now
  | .setMember userId spaceId memberId role revision =>
    store.setMember userId spaceId memberId role revision
  | .leave userId spaceId revision => (·.2) <$> store.leave userId spaceId revision
  | .finishLeave userId spaceId revision => .ok (store.finishLeave userId spaceId revision)
  | .beginDelete userId spaceId revision confirmName now =>
    (·.2) <$> store.beginDelete userId spaceId revision confirmName now
  | .finishDelete userId spaceId => .ok (store.finishDelete userId spaceId)

/-- The store as a machine: a rejected call rolls back. -/
def spaceMachine : Machine SpaceStore SpaceOperation where
  step store operation :=
    match store.execute operation with
    | .ok changed => changed
    | .error _ => store

end PlatformClaw.Spaces
