import PlatformClaw.Execution.VmOperations

/-! # Saved connections

`SqliteControlPlaneSavedVmConnectionStore`: an agent saves a connection to a host
after it was verified, activates one of those it has, and removes one. A saved
connection survives target changes; the allocation is what the runtime reads.
-/

namespace PlatformClaw.Execution.Vm

open Except (ensure orThrow)

/-- The connection target that was verified, as it was prepared before. -/
structure VmCandidate where
  agentId : String
  userId : String
  revision : Int
  linuxAccount : String
  allocationId : String
  endpointHost : String
  endpointPort : Int
  adDomain : String
  hostKeyAlgorithm : String
  hostKeyPublicKey : String
  hostKeyFingerprint : String
  targetAddress : String
  deriving Repr, DecidableEq

def candidateIdentity (candidate : VmCandidate) : EndpointIdentity where
  host := candidate.endpointHost
  port := candidate.endpointPort
  adDomain := candidate.adDomain
  hostKeyAlgorithm := some candidate.hostKeyAlgorithm
  hostKeyPublicKey := some candidate.hostKeyPublicKey
  hostKeyFingerprint := some candidate.hostKeyFingerprint
  targetAddress := candidate.targetAddress

inductive SavedVmStatus where
  | unavailable
  | connectionRequired
  | ready
  deriving Repr, DecidableEq

/-- The status in `rowToSavedVmConnection`. -/
def savedVmStatus (row : SavedVmConnectionRow) (host : VmHostRow)
    (endpoint : SafeConnectEndpointRow) : SavedVmStatus :=
  if host.status ≠ .active ∨ endpoint.status ≠ .active then .unavailable
  else if row.connectionStatus ≠ .ready ∨ row.credentialStatus ≠ .current ∨
      present row.remoteHomeDir = false ∨ present row.remoteWorkspaceDir = false ∨
      row.endpointIdentity ≠ endpointIdentity host endpoint then
    .connectionRequired
  else .ready

structure SaveRequest where
  actorUserId : String
  agentId : String
  vmHostId : String
  linuxAccount : String
  remoteHomeDir : String
  remoteWorkspaceDir : String
  credentialEnvelope : SshCredentialEnvelope
  candidate : VmCandidate
  expectedRevision : Int
  verifiedAt : Int
  deriving Repr, DecidableEq

def SaveRequest.row (request : SaveRequest) (existing : Option SavedVmConnectionRow)
    (bindingId linuxAccount drawn : String) (identity : EndpointIdentity) :
    SavedVmConnectionRow where
  id := (existing.map (·.id)).getD (nextExecutionResourceId "vm-allocation" drawn)
  agentBindingId := bindingId
  vmHostId := request.vmHostId
  linuxAccount := linuxAccount
  allocationId := existing.bind (·.allocationId)
  revision := (existing.map (·.revision)).getD 0 + 1
  endpointIdentity := identity
  remoteHomeDir := some request.remoteHomeDir
  remoteWorkspaceDir := some request.remoteWorkspaceDir
  lastConnectionSucceededAt := some request.verifiedAt
  connectionStatus := .ready
  failureCode := none
  credential := some { request.credentialEnvelope with formatVersion := 1 }
  credentialStatus := .current
  createdAt := (existing.map (·.createdAt)).getD request.verifiedAt
  updatedAt := request.verifiedAt

namespace VmTables

def savedVmRow (db : VmTables) (bindingId connectionId : String) :
    Option (SavedVmConnectionRow × VmHostRow × SafeConnectEndpointRow) := do
  let saved ← (db.connections.lookup connectionId).filter (·.agentBindingId = bindingId)
  let (host, endpoint) ← db.site saved.vmHostId
  return (saved, host, endpoint)

/-- Another agent holds the Linux account, through an allocation or a saved connection. -/
def HeldByAnother (db : VmTables) (bindingId vmHostId linuxAccount : String) : Prop :=
  (∃ row ∈ db.allocations.rows, row.vmHostId = vmHostId ∧ row.linuxAccount = linuxAccount ∧
      row.agentBindingId ≠ bindingId ∧ row.live = true) ∨
    ∃ saved ∈ db.connections.rows, saved.vmHostId = vmHostId ∧
      saved.linuxAccount = linuxAccount ∧ saved.agentBindingId ≠ bindingId

instance (db : VmTables) (bindingId vmHostId linuxAccount : String) :
    Decidable (db.HeldByAnother bindingId vmHostId linuxAccount) :=
  inferInstanceAs (Decidable (_ ∨ _))

end VmTables

namespace VmDatabase

def savePersonalVmConnection (db : VmDatabase) (request : SaveRequest) (drawn : String) :
    Except VmError VmDatabase := do
  let owner ← db.savedVmOwner request.agentId (some request.actorUserId) false
  ensure (owner.profile.targetRevision = request.expectedRevision ∧
      request.candidate.revision = request.expectedRevision ∧
      request.candidate.agentId = request.agentId ∧
      request.candidate.userId = request.actorUserId)
    (targetConflict "execution target changed during VM verification")
  validateSshCredentialEnvelope request.credentialEnvelope
  let linuxAccount ← normalizeLinuxAccount request.linuxAccount
  let changed := targetConflict "VM configuration changed during connection verification"
  let (host, endpoint) ← orThrow ((db.site request.vmHostId).filter fun site =>
      decide (site.1.status = .active ∧ site.2.status = .active)) changed
  let identity := endpointIdentity host endpoint
  ensure (present endpoint.hostKeyFingerprint = true ∧ identity = candidateIdentity request.candidate ∧
    request.candidate.linuxAccount = linuxAccount ∧
    request.candidate.allocationId = "candidate:" ++ request.vmHostId) changed
  requireVerifiedPaths request.remoteHomeDir request.remoteWorkspaceDir
  ensure (¬db.HeldByAnother owner.binding.id request.vmHostId linuxAccount)
    (.conflict "vm_allocation_conflict" "this VM Linux account is already assigned")
  let existing := db.connectionFor owner.binding.id request.vmHostId
  ensure (∀ saved ∈ existing, saved.linuxAccount = linuxAccount ∧ saved.endpointIdentity = identity ∧
      SameDirectory (some request.remoteHomeDir) saved.remoteHomeDir ∧
      SameDirectory (some request.remoteWorkspaceDir) saved.remoteWorkspaceDir)
    (.state "VM identity changed; remove this saved connection and register it again")
  let saved ← db.upsertConnection (request.row existing owner.binding.id linuxAccount drawn identity)
  -- The audit row names the actor, who must be an account.
  ensure ((saved.users.lookup request.actorUserId).isSome = true) .constraint
  return saved

/-- Forget which allocation is active, without a new revision. -/
def deselectAllocation (db : VmDatabase) (bindingId : String) : Except VmError VmDatabase :=
  db.updateProfile bindingId (fun _ => true)
    (fun row => { row with activeTarget := .platformServer, activeAllocationId := none })
    fun _ => rfl

/-- Detached connections are kept when the allocation is revoked. -/
def detachCurrent (db : VmDatabase) (current : Option VmAllocationRow) : Except VmError VmDatabase :=
  match current with
  | some row => db.detachConnections row.id
  | none => .ok db

/-- The allocation that an agent has is given up, its saved connection is kept. -/
def retireAllocation (db : VmDatabase) (bindingId : String) (current : Option VmAllocationRow)
    (changedAt : Int) : Except VmError VmDatabase := do
  let detached ← db.detachCurrent current
  let deselected ← detached.deselectAllocation bindingId
  deselected.revokeCurrent current changedAt

def activatePersonalVmConnection (db : VmDatabase) (agentId connectionId : String)
    (expectedRevision expectedConnectionRevision : Int) (drawn drawnCredential : String)
    (changedAt : Int) : Except VmError VmDatabase := do
  let owner ← db.savedVmOwner agentId none false
  let (saved, host, endpoint) ← orThrow ((db.savedVmRow owner.binding.id connectionId).filter fun found =>
      decide (owner.profile.targetRevision = expectedRevision ∧ found.1.revision = expectedConnectionRevision))
    (targetConflict "VM connection changed during switch; reload and retry")
  let notReady := VmError.state "saved VM is not ready; reconnect this VM"
  ensure (savedVmStatus saved host endpoint = .ready) notReady
  let home ← orThrow saved.remoteHomeDir notReady
  let workspace ← orThrow saved.remoteWorkspaceDir notReady
  let envelope ← orThrow (saved.credential.filter fun envelope => envelope.keyId ≠ "") notReady
  let retired ← db.retireAllocation owner.binding.id (db.getVmAllocationForAgent agentId) changedAt
  let allocation := readyAllocation (nextExecutionResourceId "vm-allocation" drawn)
    owner.binding.id saved.vmHostId saved.linuxAccount home workspace owner.user.id changedAt
  let inserted ← retired.insertAllocation allocation
  let projected ← inserted.putCredential owner.user.id drawnCredential
    { envelope with formatVersion := 1 } changedAt
  projected.updateProfile owner.binding.id (fun row => row.targetRevision = expectedRevision)
    (fun row =>
      { row with
        activeTarget := .assignedVm
        activeAllocationId := some allocation.id
        targetRevision := owner.profile.targetRevision + 1
        updatedAt := changedAt })
    fun _ => rfl

/-- The release that goes with the removal of a connection an allocation is linked to. -/
def releaseForRemoval (db : VmDatabase) (owner : SavedVmOwner) (actorUserId agentId
    allocationId : String) (removedAt : Int) : Except VmError VmDatabase := do
  ensure (owner.profile.activeTarget = .platformServer ∧
      (db.getVmAllocationForAgent agentId).map (·.id) = some allocationId)
    (targetConflict "work location changed before removing its VM connection")
  if owner.user.status = .active ∧ owner.binding.state = .active then
    db.releasePersonalVmAccess owner.user.id agentId removedAt
  else
    db.revokePersonalVmAllocation actorUserId none (some allocationId) removedAt true

/-- The agent as the actor may see it: an administrator sees inactive ones too. -/
def removalOwner (db : VmTables) (actor : PlatformUserRow) (agentId : String) : Except VmError SavedVmOwner :=
  if actor.globalRole = .admin then db.savedVmOwner agentId none true
  else db.savedVmOwner agentId (some actor.id) false

/-- The release comes first where the connection is linked. -/
def releaseLinked (db : VmDatabase) (allocationId : Option String) (owner : SavedVmOwner)
    (actorUserId agentId : String) (removedAt : Int) : Except VmError VmDatabase :=
  match allocationId.filter (· ≠ "") with
  | some allocationId => db.releaseForRemoval owner actorUserId agentId allocationId removedAt
  | none => .ok db

def removePersonalSavedVmConnection (db : VmDatabase) (actorUserId agentId connectionId : String)
    (removedAt : Int) : Except VmError VmDatabase := do
  let actor ← db.requireUserRow actorUserId
  db.requireAdminIf (actor.globalRole = .admin) actorUserId
  let owner ← removalOwner db.toVmTables actor agentId
  let saved ← orThrow ((db.connections.lookup connectionId).filter (·.agentBindingId = owner.binding.id))
    (.state "saved VM connection is unavailable")
  ensure (saved.allocationId ≠ none → saved.allocationId ≠ owner.profile.activeAllocationId)
    (.state "switch work location before removing this VM")
  let released ← db.releaseLinked saved.allocationId owner actorUserId agentId removedAt
  released.deleteConnection saved.id

def markSavedVmConnectionUpdateRequired (db : VmDatabase) (actorUserId agentId
    connectionId : String) (expectedConnectionRevision failedAt : Int) :
    Except VmError VmDatabase := do
  let owner ← db.savedVmOwner agentId (some actorUserId) false
  let saved ← orThrow ((db.connections.lookup connectionId).filter fun row =>
      decide (row.agentBindingId = owner.binding.id ∧ row.revision = expectedConnectionRevision))
    (targetConflict "saved VM credential changed during authentication")
  db.updateConnections (fun row => row.id = connectionId)
    (fun row =>
      { row with
        credentialStatus := .updateRequired
        connectionStatus := .connectionRequired
        failureCode := some "vm_authentication_failed"
        revision := saved.revision + 1
        updatedAt := failedAt })
    fun _ => rfl

/-- A new personal agent starts on the platform server; its identifier is derived from the
    account. -/
def reservePersonalAgent (db : VmDatabase) (userId bindingId agentId : String) (reservedAt : Int) :
    Except VmError VmDatabase := do
  let user ← db.requireUserRow userId
  ensure (user.status = .active)
    (.state ("cannot provision agent for disabled user: " ++ userId))
  if db.bindings.rows.any fun row => row.kind = .personal ∧ row.userId = some userId then
    return db
  else
    let bindings ← orThrow (db.bindings.insert?
        { id := bindingId, kind := .personal, userId := some userId, agentId, state := .provisioning })
      .constraint
    let bound ← check { db.toVmTables with bindings }
    bound.insertProfile
      { agentBindingId := bindingId, activeTarget := .platformServer, activeAllocationId := none
        targetRevision := 0, updatedAt := reservedAt }

end VmDatabase

inductive VmOperation where
  /-- Accounts, agents, endpoints and hosts change in other stores. -/
  | administer (directory : Directory)
  | reservePersonalAgent (userId bindingId agentId : String) (reservedAt : Int)
  | assignVmToPersonalAgent (actorUserId agentId vmHostId linuxAccount drawn : String)
      (assignedAt : Int)
  | changePersonalExecutionTarget (agentId : String) (target : TargetKind)
      (expectedRevision changedAt : Int)
  | resolvePersonalExecutionTarget (agentId : String) (requestedTarget : Option TargetKind)
  | resolveAssignedVmConnectionTarget (agentId : String)
  | recordVmConnectionResult (actorUserId agentId expectedAllocationId : String)
      (expectedTargetRevision : Int) (expectedCredentialRevision : Option Int) (checkedAt : Int)
      (result : VmDatabase.ConnectionResult)
  | recordVmAuthenticationFailure (agentId allocationId : String)
      (targetRevision credentialRevision failedAt : Int)
  | replacePersonalVmAllocation (actorUserId agentId vmHostId linuxAccount remoteHomeDir
      remoteWorkspaceDir drawn : String) (replacedAt : Int)
  | commitPersonalVmSelection (actorUserId agentId vmHostId linuxAccount remoteHomeDir
      remoteWorkspaceDir drawn drawnCredential : String) (envelope : SshCredentialEnvelope)
      (committedAt : Int)
  | releasePersonalVmAllocation (actorUserId agentId : String) (releasedAt : Int)
  | releasePersonalVmAccess (actorUserId agentId : String) (releasedAt : Int)
  | revokeVmAllocationAsAdmin (actorUserId allocationId : String) (revokedAt : Int)
  | replaceCredential (actorUserId userId drawn : String) (envelope : SshCredentialEnvelope)
      (replacedAt : Int)
  | removeCredential (actorUserId userId : String)
  | savePersonalVmConnection (request : SaveRequest) (drawn : String)
  | activatePersonalVmConnection (agentId connectionId : String)
      (expectedRevision expectedConnectionRevision : Int) (drawn drawnCredential : String)
      (changedAt : Int)
  | removePersonalSavedVmConnection (actorUserId agentId connectionId : String) (removedAt : Int)
  | markSavedVmConnectionUpdateRequired (actorUserId agentId connectionId : String)
      (expectedConnectionRevision failedAt : Int)

namespace VmDatabase

def execute (db : VmDatabase) : VmOperation → Except VmError VmDatabase
  | .administer directory => check { db.toVmTables with toDirectory := directory }
  | .reservePersonalAgent userId bindingId agentId reservedAt =>
    db.reservePersonalAgent userId bindingId agentId reservedAt
  | .assignVmToPersonalAgent actorUserId agentId vmHostId linuxAccount drawn assignedAt =>
    db.assignVmToPersonalAgent actorUserId agentId vmHostId linuxAccount drawn assignedAt
  | .changePersonalExecutionTarget agentId target expectedRevision changedAt =>
    db.changePersonalExecutionTarget agentId target expectedRevision changedAt
  | .resolvePersonalExecutionTarget agentId requestedTarget =>
    (fun _ => db) <$> db.resolvePersonalExecutionTarget agentId requestedTarget
  | .resolveAssignedVmConnectionTarget agentId =>
    (fun _ => db) <$> db.resolveAssignedVmConnectionTarget agentId
  | .recordVmConnectionResult actorUserId agentId expectedAllocationId expectedTargetRevision
      expectedCredentialRevision checkedAt result =>
      db.recordVmConnectionResult actorUserId agentId expectedAllocationId expectedTargetRevision
        expectedCredentialRevision checkedAt result
  | .recordVmAuthenticationFailure agentId allocationId targetRevision credentialRevision
      failedAt =>
      db.recordVmAuthenticationFailure agentId allocationId targetRevision credentialRevision failedAt
  | .replacePersonalVmAllocation actorUserId agentId vmHostId linuxAccount remoteHomeDir
      remoteWorkspaceDir drawn replacedAt =>
      db.replacePersonalVmAllocation actorUserId agentId vmHostId linuxAccount remoteHomeDir
        remoteWorkspaceDir drawn replacedAt
  | .commitPersonalVmSelection actorUserId agentId vmHostId linuxAccount remoteHomeDir
      remoteWorkspaceDir drawn drawnCredential envelope committedAt =>
      db.commitPersonalVmSelection actorUserId agentId vmHostId linuxAccount remoteHomeDir
        remoteWorkspaceDir drawn drawnCredential envelope committedAt
  | .releasePersonalVmAllocation actorUserId agentId releasedAt =>
    db.releasePersonalVmAllocation actorUserId agentId releasedAt
  | .releasePersonalVmAccess actorUserId agentId releasedAt =>
    db.releasePersonalVmAccess actorUserId agentId releasedAt
  | .revokeVmAllocationAsAdmin actorUserId allocationId revokedAt =>
    db.revokeVmAllocationAsAdmin actorUserId allocationId revokedAt
  | .replaceCredential actorUserId userId drawn envelope replacedAt =>
    db.replaceCredential actorUserId userId drawn envelope replacedAt
  | .removeCredential actorUserId userId => db.removeCredential actorUserId userId
  | .savePersonalVmConnection request drawn => db.savePersonalVmConnection request drawn
  | .activatePersonalVmConnection agentId connectionId expectedRevision
      expectedConnectionRevision drawn drawnCredential changedAt =>
      db.activatePersonalVmConnection agentId connectionId expectedRevision
        expectedConnectionRevision drawn drawnCredential changedAt
  | .removePersonalSavedVmConnection actorUserId agentId connectionId removedAt =>
    db.removePersonalSavedVmConnection actorUserId agentId connectionId removedAt
  | .markSavedVmConnectionUpdateRequired actorUserId agentId connectionId
      expectedConnectionRevision failedAt =>
      db.markSavedVmConnectionUpdateRequired actorUserId agentId connectionId expectedConnectionRevision failedAt

def empty : VmDatabase where
  users := Table.empty
  bindings := Table.empty
  endpoints := Table.empty
  hosts := Table.empty
  allocations := Table.empty
  profiles := Table.empty
  connections := Table.empty
  credentials := Table.empty
  valid := by decide

end VmDatabase

/-- An operation that fails rolls back. -/
def vmMachine : Machine VmDatabase VmOperation where
  step db operation :=
    match db.execute operation with
    | .ok changed => changed
    | .error _ => db

end PlatformClaw.Execution.Vm
