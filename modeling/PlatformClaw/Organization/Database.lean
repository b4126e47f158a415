import PlatformClaw.Library.Machine
import PlatformClaw.Library.Table
import PlatformClaw.Organization.Access

/-! # The organization database

The tables behind teams, groups and parts with every column their writers use,
the constraints that `sqlite-schema-managed-scopes.ts` puts on them, and the
reads that the operations share. A write that a constraint rejects is an error,
and an error rolls the transaction back.
-/

namespace PlatformClaw.Organization

open Except (ensure orThrow)

structure AccountRow extends PlatformUserRow where
  lastLoginAt : Option Int
  deriving Repr, DecidableEq

structure DirectoryScopeRow extends ManagedScopeRow where
  directoryUpdatedAt : Option Int
  directoryParentKey : Option String
  deriving Repr, DecidableEq

structure MembershipRow extends ScopeMembershipRow where
  managedBy : Option ScopeManager
  manualRole : Option ScopeRole
  createdAt : Int
  updatedAt : Int
  deriving Repr, DecidableEq

structure PrimaryMembershipRow where
  userId : String
  scopeId : String
  updatedAt : Int
  deriving Repr, DecidableEq

/-- The directory source of an employee. -/
structure DirectorySyncRow where
  userId : String
  scopeId : String
  sourceUpdatedAt : Int
  deriving Repr, DecidableEq

abbrev AccountRow.key (row : AccountRow) : String := row.id

abbrev DirectoryScopeRow.key (row : DirectoryScopeRow) : String := row.id

abbrev MembershipRow.key (row : MembershipRow) : String × String := (row.scopeId, row.userId)

abbrev PrimaryMembershipRow.key (row : PrimaryMembershipRow) : String := row.userId

abbrev DirectorySyncRow.key (row : DirectorySyncRow) : String := row.userId

abbrev JoinRequestRow.key (row : JoinRequestRow) : String := row.id

structure OrganizationDatabase where
  platformUsers : Table AccountRow.key
  managedScopes : Table DirectoryScopeRow.key
  memberships : Table MembershipRow.key
  primaryMemberships : Table PrimaryMembershipRow.key
  directorySync : Table DirectorySyncRow.key
  joinRequests : Table JoinRequestRow.key
  deriving DecidableEq

def OrganizationDatabase.empty : OrganizationDatabase where
  platformUsers := Table.empty
  managedScopes := Table.empty
  memberships := Table.empty
  primaryMemberships := Table.empty
  directorySync := Table.empty
  joinRequests := Table.empty

inductive MutationError where
  | authorization (message : String)
  | state (message : String)
  | conflict (code message : String)
  | notFound (entity id : String)
  /-- A check, a unique index, a foreign key or a trigger rejected the write. -/
  | constraint
  /-- The script read a row that is not there. -/
  | missingRow
  deriving Repr, DecidableEq

def ScopeKind.text : ScopeKind → String
  | .team => "team"
  | .group => "group"
  | .part => "part"

/-- What is left of a text between its white space, which must not be nothing. -/
def required (value field : String) : Except MutationError String := do
  let normalized := ScriptString.trim value
  ensure (normalized ≠ "") (.state (field ++ " must not be empty"))
  return normalized

def boundedOrganizationText (value field : String) (max : Nat) : Except MutationError String := do
  let text ← required value field
  ensure (ScriptString.length text ≤ max)
    (.state (field ++ " must not exceed " ++ toString max ++ " characters"))
  return text

def boundedOrganizationReason (value field : String) : Except MutationError String :=
  boundedOrganizationText value field 500

def boundedOrganizationScopeName (value : String) : Except MutationError String :=
  boundedOrganizationText value "scope.name" 120

def assertOrganizationScopeRevision (actual : Int) (expected : Option Int) : Except MutationError Unit :=
  ensure (expected.all (actual = ·))
    (.conflict "organization_scope_changed" "organization scope changed since it was loaded")

/-- No expectation is `none`; `some none` expects that there is no membership. -/
def assertExpectedOrganizationMembershipRole (currentRole : Option ScopeRole)
    (expectedRole : Option (Option ScopeRole)) : Except MutationError Unit :=
  ensure (expectedRole.all (currentRole = ·))
    (.conflict "organization_membership_changed" "organization membership changed")

namespace OrganizationDatabase

/-- The columns that the policy reads. -/
def toStore (db : OrganizationDatabase) : OrganizationStore where
  platformUsers := db.platformUsers.rows.map (·.toPlatformUserRow)
  managedScopes := db.managedScopes.rows.map (·.toManagedScopeRow)
  managedScopeMemberships := db.memberships.rows.map (·.toScopeMembershipRow)
  organizationJoinRequests := db.joinRequests.rows

theorem toStore_primaryKeys (db : OrganizationDatabase) : db.toStore.PrimaryKeys where
  scopes := List.pairwise_map.mpr db.managedScopes.keyed
  memberships := by
    refine List.pairwise_map.mpr (db.memberships.keyed.imp ?_)
    intro left right apart same
    exact apart (Prod.ext same.1 same.2)

/-- In every organization state the listing shows what the authorization lets an employee read,
    and the two notions of a leader are one. -/
theorem listing_agrees (db : OrganizationDatabase) (localeUpTo : String → String → Bool)
    (actorUserId scopeId : String) : db.toStore.AccessAgrees localeUpTo actorUserId scopeId :=
  db.toStore.access_agrees db.toStore_primaryKeys localeUpTo actorUserId scopeId

def requireUserRow (db : OrganizationDatabase) (userId : String) : Except MutationError AccountRow :=
  orThrow (db.platformUsers.lookup userId) (.notFound "user" userId)

def requireAdmin (db : OrganizationDatabase) (userId : String) : Except MutationError AccountRow := do
  let user ← db.requireUserRow userId
  ensure (user.status = .active ∧ user.globalRole = .admin) (.authorization "active administrator required")
  return user

def requireScopeRow (db : OrganizationDatabase) (scopeId : String) : Except MutationError DirectoryScopeRow :=
  orThrow (db.managedScopes.lookup scopeId) (.notFound "managed-scope" scopeId)

def selectMembership (db : OrganizationDatabase) (scopeId userId : String) : Option MembershipRow :=
  db.memberships.lookup (scopeId, userId)

/-- The loop of `scopeLineageRows`. It meets no scope twice, so it makes at most one more
    step than there are scopes. -/
def lineageRows (db : OrganizationDatabase) : Nat → List String → List DirectoryScopeRow → DirectoryScopeRow →
      Except MutationError (List DirectoryScopeRow)
  | 0, _, _, current => .error (.state ("managed scope lineage cycle: " ++ current.id))
  | fuel + 1, seen, lineage, current => do
      ensure (current.id ∉ seen) (.state ("managed scope lineage cycle: " ++ current.id))
      match truthy current.parentScopeId with
      | none => return lineage ++ [current]
      | some parentScopeId =>
        let parent ← db.requireScopeRow parentScopeId
        db.lineageRows fuel (current.id :: seen) (lineage ++ [current]) parent

def scopeLineageRows (db : OrganizationDatabase) (scope : DirectoryScopeRow) :
    Except MutationError (List DirectoryScopeRow) :=
  db.lineageRows (db.managedScopes.rows.length + 1) [] [] scope

def isLeaderForScope (db : OrganizationDatabase) (userId : String) (scope : DirectoryScopeRow) : Bool :=
  db.toStore.isLeaderForScope userId scope.toManagedScopeRow

/-- A manually named scope of this kind and parent has the name already. -/
def nameTaken (db : OrganizationDatabase) (scope : DirectoryScopeRow) (excludeScopeId : Option String) : Bool :=
  db.managedScopes.rows.any fun other =>
    other.kind = scope.kind ∧ other.externalKey = none ∧ other.normalizedName = scope.normalizedName ∧
      (if scope.kind = .team then other.parentScopeId = none
        else other.parentScopeId.isSome ∧ other.parentScopeId = scope.parentScopeId) ∧
      some other.id ≠ truthy excludeScopeId

def assertScopeNameAvailable (db : OrganizationDatabase) (scope : DirectoryScopeRow)
    (excludeScopeId : Option String := none) : Except MutationError Unit :=
  if (truthy scope.externalKey).isSome then .ok ()
  else ensure (db.nameTaken scope excludeScopeId = false)
    (.conflict "managed_scope_name_conflict"
      (scope.kind.text ++ " name already exists in its parent scope: " ++ scope.name))

/-- `external_key GLOB 'aicm-part:?*'`. -/
def isPartKey (key : String) : Bool :=
  "aicm-part:".toList.isPrefixOf key.toList && decide ("aicm-part:".toList.length < key.toList.length)

def hasParentOfKind (db : OrganizationDatabase) (row : DirectoryScopeRow) (kind : ScopeKind) : Bool :=
  (row.parentScopeId.bind db.managedScopes.lookup).any fun parent => parent.kind = kind

/-- The check of the table and the parent-kind triggers. -/
def placementAllowed (db : OrganizationDatabase) (row : DirectoryScopeRow) : Bool :=
  match row.kind with
  | .team => row.parentScopeId.isNone
  | .group => db.hasParentOfKind row .team
  | .part =>
    (row.parentScopeId.isNone && decide (row.managedBy = some .ldapLogin) && row.externalKey.any isPartKey) ||
      db.hasParentOfKind row .group

/-- The unique indexes on external keys and on the names of manual scopes. -/
def uniqueAmong (db : OrganizationDatabase) (row : DirectoryScopeRow) : Bool :=
  db.managedScopes.rows.all fun other =>
    other.id = row.id ∨ ((row.externalKey = none ∨ other.externalKey ≠ row.externalKey) ∧
        ¬(row.externalKey = none ∧ other.externalKey = none ∧ other.kind = row.kind ∧
          other.normalizedName = row.normalizedName ∧
          (row.kind = .team ∨ (row.parentScopeId.isSome ∧ other.parentScopeId = row.parentScopeId))))

def insertScope (db : OrganizationDatabase) (row : DirectoryScopeRow) :
    Except MutationError OrganizationDatabase := do
  ensure (db.placementAllowed row ∧ db.uniqueAmong row) .constraint
  let managedScopes ← orThrow (db.managedScopes.insert? row) .constraint
  return { db with managedScopes }

def setScope (db : OrganizationDatabase) (row : DirectoryScopeRow) : OrganizationDatabase :=
  { db with
    managedScopes := db.managedScopes.update (fun other => other.id = row.id)
      (fun other => { row with id := other.id }) fun _ => rfl }

/-- An update of the name columns, which no trigger watches. -/
def renameScope (db : OrganizationDatabase) (row : DirectoryScopeRow) :
    Except MutationError OrganizationDatabase := do
  ensure (db.uniqueAmong row) .constraint
  return db.setScope row

/-- An update that may change the parent. -/
def moveScope (db : OrganizationDatabase) (row : DirectoryScopeRow) : Except MutationError OrganizationDatabase := do
  ensure (db.placementAllowed row ∧ db.uniqueAmong row) .constraint
  return db.setScope row

/-- A membership takes the primary selection along. -/
def deleteMembership (db : OrganizationDatabase) (scopeId userId : String) : OrganizationDatabase :=
  { db with
    memberships := db.memberships.delete fun row => row.scopeId = scopeId ∧ row.userId = userId
    primaryMemberships :=
      db.primaryMemberships.delete fun row => row.scopeId = scopeId ∧ row.userId = userId }

def updateMembership (db : OrganizationDatabase) (scopeId userId : String)
    (change : MembershipRow → MembershipRow) (keeps : ∀ row, (change row).key = row.key) :
    OrganizationDatabase :=
  { db with
    memberships :=
      db.memberships.update (fun row => row.scopeId = scopeId ∧ row.userId = userId) change keeps }

def insertMembership (db : OrganizationDatabase) (row : MembershipRow) :
    Except MutationError OrganizationDatabase := do
  let memberships ← orThrow (db.memberships.insert? row) .constraint
  return { db with memberships }

/-- Every pending request of the user for the scope gets this decision. -/
def decidePendingRequests (db : OrganizationDatabase) (concerned : JoinRequestRow → Bool)
    (status : JoinRequestStatus) : OrganizationDatabase :=
  { db with
    joinRequests := db.joinRequests.update (fun request => concerned request ∧ request.status = .pending)
      (fun request => { request with status }) fun _ => rfl }

/-- `UPDATE organization_join_requests SET status WHERE id`. -/
def setRequestStatus (db : OrganizationDatabase) (requestId : String) (status : JoinRequestStatus) :
    OrganizationDatabase :=
  { db with
    joinRequests := db.joinRequests.update (fun request => request.id = requestId)
      (fun request => { request with status }) fun _ => rfl }

end OrganizationDatabase

end PlatformClaw.Organization
