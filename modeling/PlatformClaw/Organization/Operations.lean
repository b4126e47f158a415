import PlatformClaw.Organization.Database

/-! # Manual organization operations

`sqlite-store-organization.ts` and `sqlite-store-organization-join.ts`: what an
administrator, a leader or an employee changes by hand. Each operation is one
transaction; the random part of a new scope's id is an argument.
-/

namespace PlatformClaw.Organization

open Except (ensure orThrow)

/-- `lowerCase` is `toLocaleLowerCase("en-US")`. -/
def normalizeScopeName (lowerCase : String → String) (name : String) : Except MutationError String := do
  let text ← required name "scope.name"
  return lowerCase text

/-- `nextManagedScopeId` of the random identifier it draws. -/
def nextManagedScopeId (uuid : String) : String := "scope-" ++ uuid

def organizationManaged : MutationError :=
  .state "organization structure is managed by ldap-login"

inductive ReviewDecision where
  | approved
  | rejected
  deriving Repr, DecidableEq

namespace OrganizationDatabase

def parentForNewScope (db : OrganizationDatabase) (kind : ScopeKind) (parentScopeId : Option String) :
    Except MutationError (Option String) :=
  let under (expectedParentKind : ScopeKind) : Except MutationError (Option String) := do
    let parentScopeId ← required (parentScopeId.getD "") "parentScopeId"
    let parent ← db.requireScopeRow parentScopeId
    ensure (parent.kind = expectedParentKind ∧ parent.status = .active)
      (.state (kind.text ++ " parent must be an active " ++ expectedParentKind.text))
    let lineage ← db.scopeLineageRows parent
    ensure (∀ ancestor ∈ lineage, ancestor.status = .active)
      (.state "managed scope parent lineage must be active")
    return some parentScopeId
  match kind with
  | .team => do
      ensure (truthy parentScopeId = none) (.state "teams cannot have a parent")
      return none
  | .group => under .team
  | .part => under .group

def createManagedScope (db : OrganizationDatabase) (lowerCase : String → String)
    (actorUserId : String) (kind : ScopeKind) (name : String) (parentScopeId : Option String)
    (uuid : String) (createdAt : Int) :
    Except MutationError (DirectoryScopeRow × OrganizationDatabase) := do
  let _ ← db.requireAdmin actorUserId
  let name ← boundedOrganizationScopeName name
  let parentScopeId ← db.parentForNewScope kind parentScopeId
  let normalizedName ← normalizeScopeName lowerCase name
  let row : DirectoryScopeRow :=
    { id := nextManagedScopeId uuid, kind, name, normalizedName, externalKey := none
      managedBy := none, parentScopeId, status := .active, createdByUserId := actorUserId
      createdAt, updatedAt := createdAt, directoryUpdatedAt := none, directoryParentKey := none }
  db.assertScopeNameAvailable row
  let created ← db.insertScope row
  return (row, created)

def renameManagedScope (db : OrganizationDatabase) (lowerCase : String → String)
    (actorUserId scopeId : String) (expectedRevision : Option Int) (name reason : String)
    (changedAt : Int) : Except MutationError OrganizationDatabase := do
  let _ ← db.requireAdmin actorUserId
  let scope ← db.requireScopeRow scopeId
  ensure (scope.managedBy = none) organizationManaged
  assertOrganizationScopeRevision scope.updatedAt expectedRevision
  ensure (scope.status = .active) (.state "archived scopes cannot be renamed")
  let name ← boundedOrganizationScopeName name
  let _ ← boundedOrganizationReason reason "reason"
  let normalizedName ← normalizeScopeName lowerCase name
  let updated : DirectoryScopeRow :=
    { scope with name, normalizedName, updatedAt := max changedAt (scope.updatedAt + 1) }
  db.assertScopeNameAvailable updated (some scope.id)
  db.renameScope updated

/-- The scopes of the list whose lineage passes through `scopeId`, apart from itself. -/
def descendantIds (db : OrganizationDatabase) (scopeId : String) :
    List DirectoryScopeRow → Except MutationError (List String)
  | [] => return []
  | candidate :: rest => do
      if candidate.id = scopeId then db.descendantIds scopeId rest
      else
        let lineage ← db.scopeLineageRows candidate
        let later ← db.descendantIds scopeId rest
        return if lineage.any fun ancestor => ancestor.id = scopeId then candidate.id :: later
          else later

/-- Archive the scopes, reject the requests for them and drop primary selections of them. -/
def archiveScopes (db : OrganizationDatabase) (archivedScopeIds : List String) (archivedAt : Int) :
    OrganizationDatabase :=
  let archived := db.managedScopes.rows.filter fun candidate => candidate.id ∈ archivedScopeIds
  let nextRevision := archived.foldl (fun latest candidate => max latest (candidate.updatedAt + 1))
    archivedAt
  let marked := { db with
    managedScopes := db.managedScopes.update (fun row => row.id ∈ archivedScopeIds)
      (fun row => { row with status := .archived, updatedAt := nextRevision }) fun _ => rfl }
  let decided := marked.decidePendingRequests (fun request => request.scopeId ∈ archivedScopeIds)
    .rejected
  { decided with
    primaryMemberships :=
      decided.primaryMemberships.delete fun row => row.scopeId ∈ archivedScopeIds }

def archiveManagedScope (db : OrganizationDatabase) (actorUserId scopeId : String)
    (expectedRevision : Option Int) (reason : String) (archivedAt : Int) :
    Except MutationError OrganizationDatabase := do
  let _ ← db.requireAdmin actorUserId
  let scope ← db.requireScopeRow scopeId
  ensure (scope.managedBy = none) organizationManaged
  assertOrganizationScopeRevision scope.updatedAt expectedRevision
  let _ ← boundedOrganizationReason reason "reason"
  if scope.status = .archived then return db
  else
    let descendants ← db.descendantIds scope.id db.managedScopes.rows
    return db.archiveScopes (scope.id :: descendants) archivedAt

/-- The membership written for a manual assignment. -/
def assignMembership (db : OrganizationDatabase) (scopeId userId : String) (role : ScopeRole)
    (changedAt : Int) : Except MutationError OrganizationDatabase :=
  if (db.selectMembership scopeId userId).isSome then
    -- An explicit assignment retains this role after the directory source moves.
    .ok (db.updateMembership scopeId userId (fun row =>
      { row with role, manualRole := row.managedBy.map fun _ => role, updatedAt := changedAt })
      fun _ => rfl)
  else
    db.insertMembership
      { scopeId, userId, role, managedBy := none, manualRole := none
        createdAt := changedAt, updatedAt := changedAt }

def setManagedScopeMembership (db : OrganizationDatabase) (actorUserId scopeId userId : String)
    (role : ScopeRole) (expectedRole : Option (Option ScopeRole)) (reason : String)
    (changedAt : Int) : Except MutationError OrganizationDatabase := do
  let actor ← db.requireUserRow actorUserId
  let scope ← db.requireScopeRow scopeId
  let target ← db.requireUserRow userId
  ensure (actor.status = .active) (.authorization "active organization manager required")
  ensure (target.status = .active) (.state "cannot add a disabled user to a managed scope")
  ensure (scope.status = .active) (.state "cannot change memberships for an archived scope")
  let actorIsAdmin := actor.globalRole = .admin
  let _ ← boundedOrganizationReason reason "reason"
  ensure (actorIsAdmin ∨ db.isLeaderForScope actor.id scope)
    (.authorization "not allowed to manage memberships for this scope")
  ensure (actorIsAdmin ∨ role ≠ .leader) (.authorization "leaders can only assign member role")
  let existing := db.selectMembership scope.id userId
  assertExpectedOrganizationMembershipRole (existing.map (·.role)) expectedRole
  ensure (actorIsAdmin ∨ existing.map (·.role) ≠ some .leader)
    (.authorization "only administrators can change leader roles")
  let assigned ← db.assignMembership scope.id userId role changedAt
  return assigned.decidePendingRequests
    (fun request => request.userId = userId ∧ request.scopeId = scope.id) .approved

def removeManagedScopeMembership (db : OrganizationDatabase) (actorUserId scopeId userId : String)
    (expectedRole : Option (Option ScopeRole)) (reason : String) :
    Except MutationError OrganizationDatabase := do
  let actor ← db.requireUserRow actorUserId
  let scope ← db.requireScopeRow scopeId
  ensure (scope.status = .active) (.state "cannot change memberships for an archived scope")
  ensure (actor.status = .active) (.authorization "active organization manager required")
  let actorIsAdmin := actor.globalRole = .admin
  ensure (actorIsAdmin ∨ db.isLeaderForScope actor.id scope)
    (.authorization "not allowed to manage memberships for this scope")
  ensure (actorIsAdmin ∨ actor.id ≠ userId) (.authorization "leaders cannot remove themselves")
  let _ ← boundedOrganizationReason reason "reason"
  let existing := db.selectMembership scope.id userId
  assertExpectedOrganizationMembershipRole (existing.map (·.role)) expectedRole
  ensure (actorIsAdmin ∨ existing.map (·.role) ≠ some .leader)
    (.authorization "only administrators can remove leaders")
  return db.deleteMembership scope.id userId

def activeScopeLineageRows (db : OrganizationDatabase) (scope : DirectoryScopeRow) :
    Except MutationError (List DirectoryScopeRow) :=
  if scope.status = .active then db.scopeLineageRows scope else .ok []

/-- Without a scope, or with an empty one, the selection is cleared. -/
def setUserPrimaryScope (db : OrganizationDatabase) (actorUserId userId : String)
    (scopeId : Option String) (changedAt : Int) : Except MutationError OrganizationDatabase := do
  let actor ← db.requireUserRow actorUserId
  ensure (actor.status = .active ∧ (actor.id = userId ∨ actor.globalRole = .admin))
    (.authorization "primary scope can only be changed by its user or an administrator")
  let target ← db.requireUserRow userId
  ensure (target.status = .active) (.state "primary scope requires an active user")
  match truthy scopeId with
  | none =>
    return { db with
      primaryMemberships := db.primaryMemberships.delete fun row => row.userId = userId }
  | some scopeId =>
    let scope ← db.requireScopeRow scopeId
    let lineage ← db.activeScopeLineageRows scope
    ensure (scope.status = .active ∧ (∀ ancestor ∈ lineage, ancestor.status = .active) ∧
        (db.selectMembership scope.id userId).isSome)
      (.state "primary scope must be an active direct membership")
    return { db with
      primaryMemberships := db.primaryMemberships.upsert
        { userId, scopeId := scope.id, updatedAt := changedAt }
        (fun row => { row with scopeId := scope.id, updatedAt := changedAt }) fun _ => rfl }

def scopeUnavailable : MutationError := .state "organization scope is unavailable"

/-- The scope and its ancestors are active, or the operation stops. -/
def requireAvailable (db : OrganizationDatabase) (scope : DirectoryScopeRow) : Except MutationError Unit := do
  ensure (scope.status = .active) scopeUnavailable
  let lineage ← db.scopeLineageRows scope
  ensure (∀ ancestor ∈ lineage, ancestor.status = .active) scopeUnavailable

def hasPendingRequest (db : OrganizationDatabase) (userId scopeId : String) : Bool :=
  db.joinRequests.rows.any fun request =>
    request.userId = userId ∧ request.scopeId = scopeId ∧ request.status = .pending

def submitOrganizationJoinRequest (db : OrganizationDatabase) (requestId userId scopeId reason : String) :
    Except MutationError OrganizationDatabase := do
  let user ← db.requireUserRow userId
  let scope ← db.requireScopeRow scopeId
  ensure (user.status = .active) (.state "disabled users cannot request organization membership")
  db.requireAvailable scope
  ensure (db.selectMembership scope.id user.id = none)
    (.state "user is already a direct member of this scope")
  ensure (db.hasPendingRequest user.id scope.id = false)
    (.conflict "organization_join_request_conflict"
      "an organization join request is already pending for this scope")
  let _ ← boundedOrganizationReason reason "reason"
  let id ← required requestId "requestId"
  let joinRequests ← orThrow (db.joinRequests.insert?
    { id, userId := user.id, scopeId := scope.id, status := .pending }) .constraint
  -- The row is read back under the identifier as it was given.
  let _ ← orThrow (joinRequests.lookup requestId) .missingRow
  return { db with joinRequests }

def requestMissing (requestId : String) : MutationError :=
  .notFound "organization-join-request" requestId

def decideOrganizationJoinRequest (db : OrganizationDatabase) (actorUserId requestId : String)
    (decision : ReviewDecision) (reason : String) (decidedAt : Int) :
    Except MutationError OrganizationDatabase := do
  let actor ← db.requireUserRow actorUserId
  let request ← orThrow (db.joinRequests.lookup requestId) (requestMissing requestId)
  let scope ← db.requireScopeRow request.scopeId
  ensure (actor.status = .active ∧ (actor.globalRole = .admin ∨ db.isLeaderForScope actor.id scope))
    (requestMissing requestId)
  ensure (actor.id ≠ request.userId) (.authorization "users cannot review their own join request")
  ensure (request.status = .pending)
    (.conflict "organization_join_request_terminal_conflict"
      "organization join request already has a terminal decision")
  db.requireAvailable scope
  let _ ← boundedOrganizationReason reason "reason"
  match decision with
  | .approved => do
      let target ← db.requireUserRow request.userId
      ensure (target.status = .active) (.state "cannot approve membership for a disabled user")
      -- A membership that is there already stays as it is.
      let memberships := (db.memberships.insert?
        { scopeId := scope.id, userId := target.id, role := .member, managedBy := none
          manualRole := none, createdAt := decidedAt, updatedAt := decidedAt }).getD db.memberships
      return { db with memberships }.setRequestStatus request.id .approved
  | .rejected => return db.setRequestStatus request.id .rejected

def cancelOrganizationJoinRequest (db : OrganizationDatabase) (actorUserId requestId reason : String) :
    Except MutationError OrganizationDatabase := do
  let actor ← db.requireUserRow actorUserId
  ensure (actor.status = .active) (.authorization "active user required")
  let request ← orThrow (db.joinRequests.lookup requestId) (requestMissing requestId)
  ensure (request.userId = actorUserId) (requestMissing requestId)
  ensure (request.status = .pending)
    (.conflict "organization_join_request_terminal_conflict"
      "organization join request is no longer pending")
  let _ ← boundedOrganizationReason reason "reason"
  return db.setRequestStatus request.id .cancelled

end OrganizationDatabase

end PlatformClaw.Organization
