import PlatformClaw.Organization.Operations

/-! # Directory synchronization

`sqlite-store-directory-organization.ts`: a login brings the part, the group and
the team of an employee. The chain of scopes is planned and checked as a whole
before anything is written.
-/

namespace PlatformClaw.Organization

open Except (ensure orThrow)

structure DirectoryNode where
  id : String
  name : String
  deriving Repr, DecidableEq

/-- What a parsed payload says. Parsing keeps no empty identifier or team. -/
structure DirectoryOrganization where
  part : DirectoryNode
  group : Option DirectoryNode
  team : Option String
  sourceUpdatedAt : Int
  partNamed : part.id ≠ ""
  teamNamed : team ≠ some ""
  deriving Repr, DecidableEq

inductive SkipReason where
  | testAccount
  | noOrganization
  | unsupportedVersion
  | untrustedSource
  | noPart
  | invalidOrganization
  | inactiveOrganization
  | inactiveUser
  | staleAuthentication
  | staleOrganization
  | conflictingOrganization
  deriving Repr, DecidableEq

inductive DirectoryOrganizationSyncResult where
  | synced (scopeId : String)
  | skipped (reason : SkipReason)
  deriving Repr, DecidableEq

/-- The random identifiers drawn for scopes that are new. -/
structure DrawnIds where
  team : String
  group : String
  part : String
  deriving Repr, DecidableEq

structure ScopePlan where
  id : String
  kind : ScopeKind
  key : String
  name : String
  parentId : Option String
  parentKey : Option String
  existing : Option DirectoryScopeRow
  deriving Repr, DecidableEq

namespace ScopePlan

/-- The plan asks for something the existing row does not say yet. -/
def changes (plan : ScopePlan) (current : DirectoryScopeRow) : Bool :=
  current.name ≠ plan.name ∨ current.parentScopeId ≠ plan.parentId ∨ current.directoryParentKey ≠ plan.parentKey

/-- Unknown parent facts may be refined; pending parts may also get their recorded group. -/
def refinesUnknownParent (plan : ScopePlan) (current : DirectoryScopeRow) : Bool :=
  current.kind ≠ .team ∧ current.name = plan.name ∧ (current.directoryParentKey = none ∨
      (current.kind = .part ∧ current.parentScopeId = none ∧ current.directoryParentKey = plan.parentKey))

end ScopePlan

def partKey (id : String) : String := "aicm-part:" ++ id

def groupKey (id : String) : String := "group:" ++ id

def teamKey (name : String) : String := "team:" ++ name

namespace OrganizationDatabase

def selectDirectoryScope (db : OrganizationDatabase) (key : String) : Option DirectoryScopeRow :=
  db.managedScopes.rows.find? fun row => row.externalKey = some key

def directoryScopePlan (kind : ScopeKind) (key name : String) (parentId parentKey : Option String)
    (existing : Option DirectoryScopeRow) (uuid : String) : ScopePlan where
  id := (existing.map (·.id)).getD (nextManagedScopeId uuid)
  kind := kind
  key := key
  name := name
  parentId := parentId
  parentKey := parentKey
  existing := existing

/-- Claim certainty belongs to this source revision; unknowns of the same revision cannot
    erase an explicit key. -/
def unknownParentKey (org : DirectoryOrganization) (scope : Option DirectoryScopeRow) : Option String :=
  match scope.bind (·.directoryUpdatedAt) with
  | none => none
  | some updatedAt =>
    if updatedAt < org.sourceUpdatedAt then none else scope.bind (·.directoryParentKey)

/-- The part comes last and is returned on its own. -/
def planDirectoryOrganization (db : OrganizationDatabase) (org : DirectoryOrganization)
    (drawn : DrawnIds) : List ScopePlan × ScopePlan :=
  let part := db.selectDirectoryScope (partKey org.part.id)
  let planPart (parentId parentKey : Option String) : ScopePlan :=
    directoryScopePlan .part (partKey org.part.id) org.part.name parentId parentKey part drawn.part
  match org.group with
  | none =>
    -- Unknown preserves an existing parent; a new part has no invented ancestors.
    ([], planPart (part.bind (·.parentScopeId)) (unknownParentKey org part))
  | some node =>
    let group := db.selectDirectoryScope (groupKey node.id)
    let planGroup (teamId parentKey : Option String) : ScopePlan :=
      directoryScopePlan .group (groupKey node.id) node.name teamId parentKey group drawn.group
    match org.team, group with
    | none, none =>
      -- A new group without its team cannot be linked yet; the part records its key.
      ([], planPart none (some (groupKey node.id)))
    | none, some known =>
      let groupPlan := planGroup known.parentScopeId (unknownParentKey org group)
      ([groupPlan], planPart (some groupPlan.id) (some (groupKey node.id)))
    | some name, _ =>
      let team := directoryScopePlan .team (teamKey name) name none none
        (db.selectDirectoryScope (teamKey name)) drawn.team
      let groupPlan := planGroup (some team.id) (some (teamKey name))
      ([team, groupPlan], planPart (some groupPlan.id) (some (groupKey node.id)))

def planObjection (db : OrganizationDatabase) (sourceUpdatedAt : Int) (plan : ScopePlan) :
    Except MutationError (Option SkipReason) :=
  match plan.existing with
  | none => return none
  | some current => do
      let lineage ← db.scopeLineageRows current
      if lineage.any fun scope => scope.status ≠ .active then return some .inactiveOrganization
      else if plan.changes current then
        match current.directoryUpdatedAt with
        | none => return none
        | some updatedAt =>
          if sourceUpdatedAt < updatedAt then return some .staleOrganization
          else if sourceUpdatedAt = updatedAt ∧ plan.refinesUnknownParent current = false then
            return some .conflictingOrganization
          else return none
      else return none

def firstObjection (db : OrganizationDatabase) (sourceUpdatedAt : Int) :
    List ScopePlan → Except MutationError (Option SkipReason)
  | [] => return none
  | plan :: rest => do
      match ← db.planObjection sourceUpdatedAt plan with
      | some reason => return some reason
      | none => db.firstObjection sourceUpdatedAt rest

def writeDirectoryScope (db : OrganizationDatabase) (lowerCase : String → String) (plan : ScopePlan)
    (userId : String) (sourceUpdatedAt syncedAt : Int) :
    Except MutationError OrganizationDatabase := do
  match plan.existing with
  | none =>
    let normalizedName ← normalizeScopeName lowerCase plan.name
    db.insertScope
      { id := plan.id, kind := plan.kind, name := plan.name, normalizedName
        externalKey := some plan.key, managedBy := some .ldapLogin
        parentScopeId := plan.parentId, status := .active, createdByUserId := userId
        createdAt := syncedAt, updatedAt := syncedAt
        directoryUpdatedAt := some sourceUpdatedAt, directoryParentKey := plan.parentKey }
  | some current =>
    let scopeChanged := current.name ≠ plan.name ∨ current.parentScopeId ≠ plan.parentId
    if plan.changes current ∨ current.directoryUpdatedAt.getD 0 < sourceUpdatedAt then
      let normalizedName ← normalizeScopeName lowerCase plan.name
      db.moveScope
        { current with
          name := plan.name, normalizedName, parentScopeId := plan.parentId
          directoryParentKey := plan.parentKey
          directoryUpdatedAt :=
            some (max sourceUpdatedAt (current.directoryUpdatedAt.getD sourceUpdatedAt))
          updatedAt := if scopeChanged then max syncedAt (current.updatedAt + 1)
            else current.updatedAt }
    else return db

def writeDirectoryScopes (db : OrganizationDatabase) (lowerCase : String → String)
    (userId : String) (sourceUpdatedAt syncedAt : Int) :
    List ScopePlan → Except MutationError OrganizationDatabase
  | [] => return db
  | plan :: rest => do
      let written ← db.writeDirectoryScope lowerCase plan userId sourceUpdatedAt syncedAt
      written.writeDirectoryScopes lowerCase userId sourceUpdatedAt syncedAt rest

/-- Give a retained manual role back its own membership, drop the others that came from the
    old source. -/
def leaveOldSource (db : OrganizationDatabase) (userId scopeId : String) (syncedAt : Int) : OrganizationDatabase :=
  let old (row : MembershipRow) : Bool :=
    row.userId = userId ∧ row.managedBy = some .ldapLogin ∧ row.scopeId ≠ scopeId
  let restored := db.memberships.update (fun row => old row && row.manualRole.isSome)
    (fun row => { row with
      managedBy := none, manualRole := none, role := row.manualRole.getD row.role
      updatedAt := syncedAt }) fun _ => rfl
  let dropped := db.memberships.rows.filter fun row => old row && row.manualRole.isNone
  { db with
    memberships := restored.delete fun row => old row && row.manualRole.isNone
    primaryMemberships := db.primaryMemberships.delete fun primary =>
      dropped.any fun row => row.scopeId = primary.scopeId ∧ row.userId = primary.userId }

/-- The membership at the part becomes one of the directory, keeping a manual role. -/
def joinNewSource (db : OrganizationDatabase) (userId scopeId : String) (syncedAt : Int) :
    Except MutationError OrganizationDatabase :=
  match db.selectMembership scopeId userId with
  | none =>
    db.insertMembership
      { scopeId, userId, role := .member, managedBy := some .ldapLogin, manualRole := none
        createdAt := syncedAt, updatedAt := syncedAt }
  | some membership =>
    if membership.managedBy = none then
      return db.updateMembership scopeId userId (fun row =>
        { row with managedBy := some .ldapLogin, manualRole := some row.role
                   updatedAt := syncedAt }) fun _ => rfl
    else return db

/-- `INSERT … ON CONFLICT (user_id) DO UPDATE` of the source. -/
def recordSource (db : OrganizationDatabase) (userId scopeId : String) (sourceUpdatedAt : Int) :
    OrganizationDatabase :=
  { db with
    directorySync := db.directorySync.upsert { userId, scopeId, sourceUpdatedAt }
      (fun row => { row with scopeId, sourceUpdatedAt }) fun _ => rfl }

/-- Everything after the checks. -/
def commitDirectoryOrganization (db : OrganizationDatabase) (lowerCase : String → String)
    (userId : String) (sourceUpdatedAt syncedAt : Int) (plans : List ScopePlan)
    (partPlan : ScopePlan) : Except MutationError OrganizationDatabase := do
  let written ← db.writeDirectoryScopes lowerCase userId sourceUpdatedAt syncedAt (plans ++ [partPlan])
  let joined ← (written.leaveOldSource userId partPlan.id syncedAt).joinNewSource userId partPlan.id syncedAt
  let completed := joined.decidePendingRequests
    (fun request => request.userId = userId ∧ request.scopeId = partPlan.id) .cancelled
  return completed.recordSource userId partPlan.id sourceUpdatedAt

def applyDirectoryOrganization (db : OrganizationDatabase) (lowerCase : String → String)
    (userId : String) (org : DirectoryOrganization) (drawn : DrawnIds) (syncedAt : Int)
    (expectedLastLoginAt : Option Int) :
    Except MutationError (DirectoryOrganizationSyncResult × OrganizationDatabase) := do
  let user ← db.requireUserRow userId
  if user.status ≠ .active then return (.skipped .inactiveUser, db)
  else if expectedLastLoginAt.isSome ∧ user.lastLoginAt ≠ expectedLastLoginAt then
    return (.skipped .staleAuthentication, db)
  else
    let previous := db.directorySync.lookup userId
    if previous.any fun row => org.sourceUpdatedAt < row.sourceUpdatedAt then
      return (.skipped .staleOrganization, db)
    else
      let plan := db.planDirectoryOrganization org drawn
      if previous.any fun row =>
          row.sourceUpdatedAt = org.sourceUpdatedAt ∧ row.scopeId ≠ plan.2.id then
        return (.skipped .conflictingOrganization, db)
      else
        -- One user's cached login must not roll back another user's newer name or parent.
        match ← db.firstObjection org.sourceUpdatedAt (plan.1 ++ [plan.2]) with
        | some reason => return (.skipped reason, db)
        | none =>
          let committed ← db.commitDirectoryOrganization lowerCase userId org.sourceUpdatedAt syncedAt plan.1 plan.2
          return (.synced plan.2.id, committed)

/-- `parsed` is the outcome of parsing the payload. -/
def syncDirectoryOrganization (db : OrganizationDatabase) (lowerCase : String → String)
    (userId : String) (parsed : Except SkipReason DirectoryOrganization) (isTestAccount : Bool)
    (drawn : DrawnIds) (syncedAt : Int) (expectedLastLoginAt : Option Int) :
    Except MutationError (DirectoryOrganizationSyncResult × OrganizationDatabase) :=
  if isTestAccount then .ok (.skipped .testAccount, db)
  else
    match parsed with
    | .error reason => .ok (.skipped reason, db)
    | .ok org =>
      db.applyDirectoryOrganization lowerCase userId org drawn syncedAt expectedLastLoginAt

/-- Sign-in adds an account or refreshes the profile of an existing one. -/
def upsertPrincipal (db : OrganizationDatabase) (account : AccountRow) :
    Except MutationError OrganizationDatabase := do
  ensure (∀ other ∈ db.platformUsers.rows, other.id = account.id ∨ other.accountId ≠ account.accountId) .constraint
  return { db with
    platformUsers := db.platformUsers.upsert { account with status := .active }
      (fun row => { row with
        displayName := account.displayName, lastLoginAt := account.lastLoginAt }) fun _ => rfl }

def setUserGlobalRole (db : OrganizationDatabase) (userId : String) (globalRole : GlobalRole) :
    OrganizationDatabase :=
  { db with
    platformUsers := db.platformUsers.update (fun row => row.id = userId)
      (fun row => { row with globalRole }) fun _ => rfl }

def setManagedUserStatus (db : OrganizationDatabase) (userId : String) (status : UserStatus) : OrganizationDatabase :=
  { db with
    platformUsers := db.platformUsers.update (fun row => row.id = userId)
      (fun row => { row with status }) fun _ => rfl }

end OrganizationDatabase

/-- One call on the database. -/
inductive OrganizationOperation where
  | upsertPrincipal (account : AccountRow)
  | setUserGlobalRole (userId : String) (globalRole : GlobalRole)
  | setManagedUserStatus (userId : String) (status : UserStatus)
  | createManagedScope (actorUserId : String) (kind : ScopeKind) (name : String)
      (parentScopeId : Option String) (uuid : String) (createdAt : Int)
  | renameManagedScope (actorUserId scopeId : String) (expectedRevision : Option Int)
      (name reason : String) (changedAt : Int)
  | archiveManagedScope (actorUserId scopeId : String) (expectedRevision : Option Int)
      (reason : String) (archivedAt : Int)
  | setManagedScopeMembership (actorUserId scopeId userId : String) (role : ScopeRole)
      (expectedRole : Option (Option ScopeRole)) (reason : String) (changedAt : Int)
  | removeManagedScopeMembership (actorUserId scopeId userId : String)
      (expectedRole : Option (Option ScopeRole)) (reason : String)
  | setUserPrimaryScope (actorUserId userId : String) (scopeId : Option String) (changedAt : Int)
  | submitOrganizationJoinRequest (requestId userId scopeId reason : String)
  | decideOrganizationJoinRequest (actorUserId requestId : String) (decision : ReviewDecision)
      (reason : String) (decidedAt : Int)
  | cancelOrganizationJoinRequest (actorUserId requestId reason : String)
  | syncDirectoryOrganization (userId : String) (parsed : Except SkipReason DirectoryOrganization)
      (isTestAccount : Bool) (drawn : DrawnIds) (syncedAt : Int) (expectedLastLoginAt : Option Int)

namespace OrganizationDatabase

def execute (db : OrganizationDatabase) (lowerCase : String → String) :
    OrganizationOperation → Except MutationError OrganizationDatabase
  | .upsertPrincipal account => db.upsertPrincipal account
  | .setUserGlobalRole userId globalRole => .ok (db.setUserGlobalRole userId globalRole)
  | .setManagedUserStatus userId status => .ok (db.setManagedUserStatus userId status)
  | .createManagedScope actorUserId kind name parentScopeId uuid createdAt =>
    (·.2) <$> db.createManagedScope lowerCase actorUserId kind name parentScopeId uuid createdAt
  | .renameManagedScope actorUserId scopeId expectedRevision name reason changedAt =>
    db.renameManagedScope lowerCase actorUserId scopeId expectedRevision name reason changedAt
  | .archiveManagedScope actorUserId scopeId expectedRevision reason archivedAt =>
    db.archiveManagedScope actorUserId scopeId expectedRevision reason archivedAt
  | .setManagedScopeMembership actorUserId scopeId userId role expectedRole reason changedAt =>
    db.setManagedScopeMembership actorUserId scopeId userId role expectedRole reason changedAt
  | .removeManagedScopeMembership actorUserId scopeId userId expectedRole reason =>
    db.removeManagedScopeMembership actorUserId scopeId userId expectedRole reason
  | .setUserPrimaryScope actorUserId userId scopeId changedAt =>
    db.setUserPrimaryScope actorUserId userId scopeId changedAt
  | .submitOrganizationJoinRequest requestId userId scopeId reason =>
    db.submitOrganizationJoinRequest requestId userId scopeId reason
  | .decideOrganizationJoinRequest actorUserId requestId decision reason decidedAt =>
    db.decideOrganizationJoinRequest actorUserId requestId decision reason decidedAt
  | .cancelOrganizationJoinRequest actorUserId requestId reason =>
    db.cancelOrganizationJoinRequest actorUserId requestId reason
  | .syncDirectoryOrganization userId parsed isTestAccount drawn syncedAt expectedLastLoginAt =>
    (·.2) <$> db.syncDirectoryOrganization lowerCase userId parsed isTestAccount drawn syncedAt expectedLastLoginAt

end OrganizationDatabase

/-- The database as a machine: a rejected call rolls back. -/
def organizationMachine (lowerCase : String → String) : Machine OrganizationDatabase OrganizationOperation where
  step db operation :=
    match db.execute lowerCase operation with
    | .ok changed => changed
    | .error _ => db

end PlatformClaw.Organization
