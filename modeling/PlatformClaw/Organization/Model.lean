import PlatformClaw.Accounts
import PlatformClaw.Library.Guarded
import PlatformClaw.Library.ParentWalk
import PlatformClaw.Library.ScriptString

/-! # Organization scopes and their deciders

Teams, groups and parts in `managed_scopes`, and the three places that decide
whether one of them is active: the lineage walk of `organization-policy.ts`, the
projection of `knowledge-vault-access.ts`, and the join behind
`searchOrganizationScopesForUser`.
-/

namespace PlatformClaw.Organization

open Except (ensure orThrow)

inductive ScopeKind where
  | team
  | group
  | part
  deriving Repr, DecidableEq

inductive ScopeStatus where
  | active
  | archived
  deriving Repr, DecidableEq

inductive ScopeManager where
  | ldapLogin
  deriving Repr, DecidableEq

inductive ScopeRole where
  | member
  | leader
  deriving Repr, DecidableEq

inductive JoinRequestStatus where
  | pending
  | approved
  | rejected
  | cancelled
  deriving Repr, DecidableEq

structure ManagedScopeRow where
  id : String
  kind : ScopeKind
  name : String
  normalizedName : String
  externalKey : Option String
  managedBy : Option ScopeManager
  parentScopeId : Option String
  status : ScopeStatus
  createdByUserId : String
  createdAt : Int
  updatedAt : Int
  deriving Repr, DecidableEq

structure ScopeMembershipRow where
  scopeId : String
  userId : String
  role : ScopeRole
  deriving Repr, DecidableEq

structure JoinRequestRow where
  id : String
  userId : String
  scopeId : String
  status : JoinRequestStatus
  deriving Repr, DecidableEq

structure OrganizationStore where
  platformUsers : List PlatformUserRow
  managedScopes : List ManagedScopeRow
  managedScopeMemberships : List ScopeMembershipRow
  organizationJoinRequests : List JoinRequestRow
  deriving Repr, DecidableEq

inductive OrganizationError where
  | authorization (message : String)
  | notFound (entity id : String)
  deriving Repr, DecidableEq

/-- A scope outside the database: optional columns that are empty are left out. -/
structure ManagedScope where
  id : String
  kind : ScopeKind
  name : String
  parentScopeId : Option String
  status : ScopeStatus
  createdByUserId : String
  createdAt : Int
  updatedAt : Int
  managedBy : Option ScopeManager
  externalKey : Option String
  deriving Repr, DecidableEq

/-- An optional text that counts as present: a script takes the empty text for absent. -/
def truthy (text : Option String) : Option String :=
  text.filter (· ≠ "")

def rowToScope (row : ManagedScopeRow) : ManagedScope where
  id := row.id
  kind := row.kind
  name := row.name
  parentScopeId := truthy row.parentScopeId
  status := row.status
  createdByUserId := row.createdByUserId
  createdAt := row.createdAt
  updatedAt := row.updatedAt
  managedBy := row.managedBy
  externalKey := truthy row.externalKey

inductive AuthorizationSource where
  | none
  | administrator
  | membership
  | leadership
  deriving Repr, DecidableEq

/-- The three capabilities a search result carries. -/
structure Capabilities where
  canManageMembers : Bool
  canManageStructure : Bool
  canManageLeaders : Bool
  deriving Repr, DecidableEq

structure OrganizationAuthorization extends Capabilities where
  canRead : Bool
  source : AuthorizationSource
  scopeIds : List String
  deriving Repr, DecidableEq

/-- `Map` of the scopes by id: a later entry replaces an earlier one of the same id. -/
def scopeById (scopes : List ManagedScope) (id : String) : Option ManagedScope :=
  scopes.reverse.find? fun scope => scope.id = id

def membershipByScope (memberships : List ScopeMembershipRow) (id : String) : Option ScopeMembershipRow :=
  memberships.reverse.find? fun membership => membership.scopeId = id

/-- The scope and its ancestors, nearest first, or nothing if the walk does not end at a
    root. A lineage repeats no scope, so it visits at most one more than the map holds. -/
def lineageFor (scope : ManagedScope) (scopes : List ManagedScope) : List ManagedScope :=
  ParentWalk.walk ManagedScope.id (truthy ·.parentScopeId) (scopeById scopes) (scopes.length + 2) [] [] scope

def lineageActive (lineage : List ManagedScope) : Bool :=
  0 < lineage.length && lineage.all fun scope => scope.status = .active

def unavailable : OrganizationAuthorization where
  canRead := false
  canManageMembers := false
  canManageStructure := false
  canManageLeaders := false
  source := .none
  scopeIds := []

/-- The memberships through which the scope can be read: those in an active lineage that
    passes through it. -/
def readableTargets (scopes : List ManagedScope) (memberships : List ScopeMembershipRow)
    (scopeId : String) : List String :=
  memberships.flatMap fun membership =>
    match scopeById scopes membership.scopeId with
    | none => []
    | some membershipScope =>
      let lineage := lineageFor membershipScope scopes
      if lineageActive lineage then
        (lineage.filter fun scope => scope.id = scopeId).map fun _ => membership.scopeId
      else []

/-- `prepareOrganizationAuthorizationContext(…).lineage`. -/
def activeLineage (scopes : List ManagedScope) (targetScope : Option ManagedScope) : List ManagedScope :=
  match targetScope with
  | none => []
  | some targetScope =>
    let lineage := lineageFor targetScope scopes
    if lineageActive lineage then lineage else []

/-- `prepareOrganizationAuthorizationContext(…).authorize`. -/
def resolveOrganizationAuthorization (actor : Option PlatformUserRow)
    (targetScope : Option ManagedScope) (scopes : List ManagedScope)
    (memberships : List ScopeMembershipRow) : OrganizationAuthorization :=
  match actor, targetScope with
  | some actor, some targetScope =>
    if actor.status ≠ .active then unavailable
    else
      let targetLineage := lineageFor targetScope scopes
      if lineageActive targetLineage = false then unavailable
      else if actor.globalRole = .admin then
        { canRead := true
          canManageMembers := true
          canManageStructure := targetScope.managedBy.isNone
          canManageLeaders := true
          source := .administrator
          scopeIds := [targetScope.id] }
      else
        let leaderScopeIds := (targetLineage.filter fun scope =>
          (membershipByScope memberships scope.id).any fun m => m.role = .leader).map (·.id)
        let readScopeIds := ScriptString.toSorted (readableTargets scopes memberships targetScope.id)
        let canManageMembers := 0 < leaderScopeIds.length
        let canRead := 0 < readScopeIds.length
        { canRead
          canManageMembers
          canManageStructure := false
          canManageLeaders := false
          source := if canManageMembers then .leadership else if canRead then .membership else .none
          scopeIds := if canManageMembers then leaderScopeIds else readScopeIds }
  | _, _ => unavailable

namespace OrganizationStore

def scope? (store : OrganizationStore) (id : String) : Option ManagedScopeRow :=
  store.managedScopes.find? fun row => row.id = id

/-- `LEFT JOIN managed_scopes ON id = parent_scope_id`; a null key joins nothing. -/
def parent? (store : OrganizationStore) (row : ManagedScopeRow) : Option ManagedScopeRow :=
  row.parentScopeId.bind store.scope?

def selectUserById (store : OrganizationStore) (userId : String) : Option PlatformUserRow :=
  store.platformUsers.find? fun user => user.id = userId

def resolveOrganizationAuthorizationSnapshot (store : OrganizationStore)
    (actorUserId scopeId : String) : OrganizationAuthorization :=
  let actor := store.selectUserById actorUserId
  let memberships := match actor with
    | some actor => store.managedScopeMemberships.filter fun m => m.userId = actor.id
    | none => []
  resolveOrganizationAuthorization actor ((store.scope? scopeId).map rowToScope)
    (store.managedScopes.map rowToScope) memberships

/-- The projection the knowledge vaults use. -/
def activeWikiOrganizations (store : OrganizationStore) : List ManagedScopeRow :=
  store.managedScopes.filter fun scope =>
    if scope.status ≠ .active then false
    else if scope.kind = .team then scope.parentScopeId.isNone
    else if scope.kind = .part ∧ scope.parentScopeId = none then true
    else
      let parent := store.scope? (scope.parentScopeId.getD "")
      if parent.map (·.status) ≠ some .active then false
      else if scope.kind = .group then
        parent.any fun parent => parent.kind = .team ∧ parent.parentScopeId = none
      else
        parent.any fun parent =>
          parent.kind = .group ∧
            (store.scope? (parent.parentScopeId.getD "")).any fun team =>
              team.kind = .team ∧ team.status = .active ∧ team.parentScopeId = none

/-- The `WHERE` of the search: a comparison with a null column is not true. -/
def searchShape (store : OrganizationStore) (scope : ManagedScopeRow) : Bool :=
  let parent := store.parent? scope
  let grandparent := parent.bind store.parent?
  decide (scope.status = .active) && (decide (scope.kind = .team ∧ scope.parentScopeId = none) ||
      (decide (scope.kind = .group) && parent.any fun parent =>
          parent.kind = .team ∧ parent.status = .active ∧ parent.parentScopeId = none) ||
      (decide (scope.kind = .part) && (parent.any fun parent => parent.kind = .group ∧ parent.status = .active) &&
        grandparent.any fun team =>
          team.kind = .team ∧ team.status = .active ∧ team.parentScopeId = none) ||
      decide (scope.kind = .part ∧ scope.parentScopeId = none))

/-- The joined columns of an ancestor, taken for a scope if all required ones are truthy. -/
def joinedScope (row : ManagedScopeRow) : Option ManagedScope :=
  if row.id ≠ "" ∧ row.name ≠ "" ∧ row.createdByUserId ≠ "" then some (rowToScope row) else none

/-- `Map.set`: the entry keeps its place if the id is there already. -/
def setScope (scopes : List ManagedScope) (scope : ManagedScope) : List ManagedScope :=
  if scopes.any fun other => other.id = scope.id then
    scopes.map fun other => if other.id = scope.id then scope else other
  else scopes ++ [scope]

/-- One selected row, with its parent and grandparent where the join found them. -/
def addLineage (store : OrganizationStore) (scopes : List ManagedScope) (row : ManagedScopeRow) : List ManagedScope :=
  let parent := store.parent? row
  let grandparent := parent.bind store.parent?
  let selected := setScope scopes (rowToScope row)
  let joined := (parent.bind joinedScope).elim selected (setScope selected)
  (grandparent.bind joinedScope).elim joined (setScope joined)

/-- The bounded ancestor context of a page of rows. -/
def lineageScopes (store : OrganizationStore) (rows : List ManagedScopeRow) : List ManagedScope :=
  rows.foldl store.addLineage []

inductive RequestState where
  | eligible
  | member
  | pending
  deriving Repr, DecidableEq

structure SearchResult where
  scope : ManagedScope
  lineage : List ManagedScope
  capabilities : Capabilities
  requestState : RequestState
  requestEligible : Bool
  deriving Repr, DecidableEq

/-- The rows of the search in order; `named` is its `LIKE` condition on the normalized name. -/
def searchRows (store : OrganizationStore) (named : String → Bool) (limit : Int) : List ManagedScopeRow :=
  let limit := max 1 (min limit 101)
  ((store.managedScopes.filter fun row =>
      store.searchShape row && named row.normalizedName).mergeSort fun left right =>
    if left.normalizedName = right.normalizedName then
      ScriptString.upTo (ScriptString.codePoints left.id) (ScriptString.codePoints right.id)
    else
      ScriptString.upTo (ScriptString.codePoints left.normalizedName)
        (ScriptString.codePoints right.normalizedName)).take limit.toNat

def searchOrganizationScopesForUser (store : OrganizationStore) (userId : String)
    (named : String → Bool) (limit : Int) : Except OrganizationError (List SearchResult) := do
  let user ← orThrow (store.selectUserById userId) (.notFound "user" userId)
  ensure (user.status = .active) (.authorization "active user required")
  let scopes := store.searchRows named limit
  let lineageScopes := store.lineageScopes scopes
  let actorMemberships := store.managedScopeMemberships.filter fun m =>
    m.userId = user.id ∧ m.scopeId ∈ lineageScopes.map (·.id)
  let pending := store.organizationJoinRequests.filter fun request =>
    request.userId = user.id ∧ request.status = .pending ∧ request.scopeId ∈ scopes.map (·.id)
  return scopes.map fun scope =>
    let managedScope := rowToScope scope
    let authorization :=
      resolveOrganizationAuthorization (some user) (some managedScope) lineageScopes actorMemberships
    let requestState :=
      if actorMemberships.any fun m => m.scopeId = scope.id then .member
      else if pending.any fun request => request.scopeId = scope.id then .pending
      else .eligible
    { scope := managedScope
      lineage := (activeLineage lineageScopes (some managedScope)).reverse
      capabilities := authorization.toCapabilities
      requestState
      requestEligible := requestState = .eligible }

end OrganizationStore

end PlatformClaw.Organization
