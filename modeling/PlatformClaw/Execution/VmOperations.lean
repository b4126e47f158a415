import PlatformClaw.Execution.VmStatements
import PlatformClaw.Library.Machine
import PlatformClaw.Library.ScriptString

/-! # Operations on development VMs

Assignment, target changes and connection results (`sqlite-store-execution.ts`),
replacement and release (`sqlite-store-vm-self-service.ts`), credentials
(`sqlite-store-credentials.ts`) and saved connections
(`sqlite-store-saved-vm-connections.ts`). Each is one transaction: an error
rolls back what it wrote. What the store draws for a new identifier is an argument.
-/

namespace PlatformClaw.Execution.Vm

open Except (ensure orThrow)

def required (value field : String) : Except VmError String := do
  let normalized := ScriptString.trim value
  ensure (normalized ≠ "") (.state (field ++ " must not be empty"))
  return normalized

def normalizeLinuxAccount (value : String) : Except VmError String := do
  let account ← required value "allocation.linuxAccount"
  ensure (ScriptString.length account ≤ 255 ∧ account.toList.all fun c =>
        !ScriptString.isWhitespace c && !"\\+@".toList.contains c && decide (c.toNat ≠ 0))
    (.state "allocation.linuxAccount is invalid")
  return account

/-- A column that is neither null nor empty. -/
def present (column : Option String) : Bool :=
  column.any (· ≠ "")

/-- The workspace that a connection test found lies in the home directory it found. -/
def requireVerifiedPaths (remoteHomeDir remoteWorkspaceDir : String) : Except VmError Unit :=
  ensure ("/".toList.isPrefixOf remoteHomeDir.toList ∧ remoteHomeDir ≠ "/" ∧
      (remoteHomeDir ++ "/").toList.isPrefixOf remoteWorkspaceDir.toList)
    (.state "connection-verified remote workspace must be inside the Linux account home")

/-- `/^sha256:[A-Za-z0-9_-]{43}$/u`. -/
def isCredentialKeyId (keyId : String) : Bool :=
  let digest := keyId.toList.drop 7
  "sha256:".toList.isPrefixOf keyId.toList && decide (digest.length = 43) &&
    digest.all fun c => c.isAlphanum || decide (c = '_') || decide (c = '-')

def validateSshCredentialEnvelope (envelope : SshCredentialEnvelope) : Except VmError Unit := do
  ensure (envelope.formatVersion = 1)
    (.state ("unsupported SSH credential format version: " ++ toString envelope.formatVersion))
  ensure (isCredentialKeyId envelope.keyId = true) (.state "SSH credential key id is invalid")
  ensure (envelope.ciphertext ≠ []) (.state "SSH credential ciphertext must not be empty")
  ensure (envelope.nonce.length = 12) (.state "SSH credential nonce must contain 12 bytes")
  ensure (envelope.authTag.length = 16)
    (.state "SSH credential authentication tag must contain 16 bytes")

/-- `${kind}-${randomUUID()}`. -/
def nextExecutionResourceId (kind drawn : String) : String :=
  kind ++ "-" ++ drawn

def targetConflict (message : String) : VmError :=
  .conflict "execution_target_conflict" message

namespace Directory

def requireUserRow (directory : Directory) (userId : String) : Except VmError PlatformUserRow :=
  orThrow (directory.users.lookup userId) (.notFound "user" userId)

def requireAdmin (directory : Directory) (userId : String) : Except VmError Unit := do
  let user ← directory.requireUserRow userId
  ensure (user.globalRole = .admin ∧ user.status = .active)
    (.authorization "active administrator required")

def requireAdminIf (directory : Directory) (needed : Bool) (userId : String) : Except VmError Unit :=
  if needed then directory.requireAdmin userId else .ok ()

end Directory

/-- A personal agent with its employee and its profile. -/
structure SavedVmOwner where
  binding : AgentBindingRow
  user : PlatformUserRow
  profile : PersonalExecutionProfileRow

namespace VmTables

def profileOf (db : VmTables) (agentId : String) : Option (AgentBindingRow × PersonalExecutionProfileRow) := do
  let binding ← db.personalBinding agentId
  let profile ← db.profiles.lookup binding.id
  return (binding, profile)

def ownerOf (db : VmTables) (agentId : String) : Option SavedVmOwner := do
  let (binding, profile) ← db.profileOf agentId
  let userId ← binding.userId
  let user ← db.users.lookup userId
  return { binding, user, profile }

/-- Scripts take an empty identifier for none. -/
def savedVmOwner (db : VmTables) (agentId : String) (actorUserId : Option String)
    (includeInactive : Bool) : Except VmError SavedVmOwner := do
  let owner ← orThrow (db.ownerOf agentId)
    (.state "owned personal VM connections are unavailable")
  ensure (includeInactive = true ∨ owner.binding.state = .active ∧ owner.user.status = .active)
    (.state "owned personal VM connections are unavailable")
  ensure (owner.user.id ≠ "" ∧ ∀ actor ∈ actorUserId, actor = "" ∨ owner.user.id = actor)
    (.state "owned personal VM connections are unavailable")
  return owner

def getVmAllocationForAgent (db : VmTables) (agentId : String) : Option VmAllocationRow := do
  let binding ← db.personalBinding agentId
  db.liveAllocation binding.id

end VmTables

structure AssignedVmExecutionTarget where
  agentId : String
  userId : String
  targetId : String
  revision : Int
  allocationId : String
  credentialRevision : Int
  vmLabel : String
  safeConnectLabel : String
  endpointHost : String
  endpointPort : Int
  adDomain : String
  adAccount : String
  targetAddress : String
  linuxAccount : String
  remoteHomeDir : Option String
  remoteWorkspaceDir : Option String
  hostKeyAlgorithm : Option String
  hostKeyPublicKey : Option String
  hostKeyFingerprint : Option String
  deriving Repr, DecidableEq

inductive PersonalExecutionTarget where
  | platformServer (agentId userId : String) (revision : Int)
  | assignedVm (target : AssignedVmExecutionTarget)
  deriving Repr, DecidableEq

/-- An allocation with the rows it is joined with. -/
structure VmRow where
  allocation : VmAllocationRow
  connection : SavedVmConnectionRow
  host : VmHostRow
  endpoint : SafeConnectEndpointRow

def hasHostKey (endpoint : SafeConnectEndpointRow) : Bool :=
  present endpoint.hostKeyAlgorithm && present endpoint.hostKeyPublicKey && present endpoint.hostKeyFingerprint

/-- The largest integer a script counts to exactly. -/
def maxSafeInteger : Int := 9007199254740991

def isReadyAssignedVmExecutionRow (vm : VmRow) (credential : Option EncryptedUserSshCredentialRow)
    (expectedBindingId : String) : Bool :=
  decide (vm.allocation.agentBindingId = expectedBindingId) &&
    decide (vm.allocation.status = .ready) && decide (vm.host.status = .active) &&
    decide (vm.endpoint.status = .active) &&
    (credential.any fun row => decide (row.status = .current ∧ 1 ≤ row.revision ∧ row.revision ≤ maxSafeInteger)) &&
    hasHostKey vm.endpoint && present vm.allocation.remoteHomeDir &&
    decide (vm.allocation.remoteHomeDir ≠ some "/") && present vm.allocation.remoteWorkspaceDir

namespace VmTables

def vmRow (db : VmTables) (allocation : VmAllocationRow) : Option VmRow := do
  let connection ← db.connections.rows.find? fun saved => saved.allocationId = some allocation.id
  let (host, endpoint) ← db.site allocation.vmHostId
  return { allocation, connection, host, endpoint }

def assignedVmTarget (owner : SavedVmOwner) (vm : VmRow) (credentialRevision : Int) : AssignedVmExecutionTarget where
  agentId := owner.binding.agentId
  userId := owner.user.id
  targetId := vm.connection.id
  revision := owner.profile.targetRevision
  allocationId := vm.allocation.id
  credentialRevision
  vmLabel := vm.host.label
  safeConnectLabel := vm.endpoint.label
  endpointHost := vm.endpoint.host
  endpointPort := vm.endpoint.port
  adDomain := vm.endpoint.adDomain
  adAccount := owner.user.accountId
  targetAddress := vm.host.targetAddress
  linuxAccount := vm.allocation.linuxAccount
  remoteHomeDir := vm.allocation.remoteHomeDir
  remoteWorkspaceDir := vm.allocation.remoteWorkspaceDir
  hostKeyAlgorithm := vm.endpoint.hostKeyAlgorithm
  hostKeyPublicKey := vm.endpoint.hostKeyPublicKey
  hostKeyFingerprint := vm.endpoint.hostKeyFingerprint

def resolvePersonalExecutionTarget (db : VmTables) (agentId : String)
    (requestedTarget : Option TargetKind) : Except VmError PersonalExecutionTarget := do
  let owner ← orThrow (db.ownerOf agentId)
    (.state "active personal execution target is unavailable")
  ensure (owner.binding.state = .active ∧ owner.user.status = .active)
    (.state "active personal execution target is unavailable")
  match requestedTarget.getD owner.profile.activeTarget with
  | .platformServer =>
    return .platformServer owner.binding.agentId owner.user.id owner.profile.targetRevision
  | .assignedVm =>
    -- An explicit request reads the allocation of the agent, otherwise the active one.
    let allocation :=
      if requestedTarget.isSome then db.liveAllocation owner.binding.id
      else db.allocations.lookup (owner.profile.activeAllocationId.getD "")
    let vm ← orThrow (allocation.bind db.vmRow)
      (.state "assigned VM execution target is not ready")
    let credential := db.credentialOf owner.user.id
    ensure (isReadyAssignedVmExecutionRow vm credential owner.binding.id = true)
      (.state "assigned VM execution target is not ready")
    return .assignedVm (assignedVmTarget owner vm ((credential.map (·.revision)).getD 0))

/-- The connection before it is known to work: neither its directories nor a credential are
    needed yet. -/
def resolveAssignedVmConnectionTarget (db : VmTables) (agentId : String) :
    Except VmError (AllocationStatus × AssignedVmExecutionTarget) := do
  let owner ← orThrow (db.ownerOf agentId) (.state "assigned VM connection target is unavailable")
  let vm ← orThrow ((db.liveAllocation owner.binding.id).bind db.vmRow)
    (.state "assigned VM connection target is unavailable")
  ensure (owner.binding.state = .active ∧ owner.user.status = .active ∧ vm.host.status = .active ∧
      vm.endpoint.status = .active ∧ hasHostKey vm.endpoint = true)
    (.state "assigned VM connection target is unavailable")
  return (vm.allocation.status, assignedVmTarget owner vm 0)

end VmTables

namespace VmDatabase

/-- The first allocation of an agent on a host of an administrator's choice. -/
def newAssignment (id bindingId vmHostId linuxAccount actorUserId : String) (assignedAt : Int) : VmAllocationRow where
  id := id
  agentBindingId := bindingId
  vmHostId := vmHostId
  linuxAccount := linuxAccount
  status := .assigned
  remoteHomeDir := none
  remoteWorkspaceDir := none
  lastConnectionCheckAt := none
  lastConnectionSucceededAt := none
  failureCode := none
  createdByUserId := actorUserId
  createdAt := assignedAt
  updatedAt := assignedAt
  revokedAt := none

/-- An allocation whose connection was verified. -/
def readyAllocation (id bindingId vmHostId linuxAccount remoteHomeDir remoteWorkspaceDir
    creatorUserId : String) (at_ : Int) : VmAllocationRow where
  id := id
  agentBindingId := bindingId
  vmHostId := vmHostId
  linuxAccount := linuxAccount
  status := .ready
  remoteHomeDir := some remoteHomeDir
  remoteWorkspaceDir := some remoteWorkspaceDir
  lastConnectionCheckAt := some at_
  lastConnectionSucceededAt := some at_
  failureCode := none
  createdByUserId := creatorUserId
  createdAt := at_
  updatedAt := at_
  revokedAt := none

def assignVmToPersonalAgent (db : VmDatabase) (actorUserId agentId vmHostId linuxAccount
    drawn : String) (assignedAt : Int) : Except VmError VmDatabase := do
  db.requireAdmin actorUserId
  let binding ← orThrow ((db.personalBinding agentId).filter (·.state = .active))
    (.state ("active personal agent not found: " ++ agentId))
  let host ← orThrow ((db.hosts.lookup vmHostId).filter (·.status = .active))
    (.state ("active VM host not found: " ++ vmHostId))
  let linuxAccount ← required linuxAccount "allocation.linuxAccount"
  ensure (db.liveAllocation binding.id = none ∧ db.accountAllocation host.id linuxAccount = none)
    (.conflict "vm_allocation_conflict"
      "personal agent or VM Linux account already has an active allocation")
  db.insertAllocation
    (newAssignment (nextExecutionResourceId "vm-allocation" drawn) binding.id host.id linuxAccount
      actorUserId assignedAt)

/-- The allocation that a change to the VM activates. -/
def allocationToActivate (db : VmTables) (bindingId : String) : Except VmError VmAllocationRow := do
  let allocation ← orThrow (db.liveAllocation bindingId) (.state "assigned VM is not ready")
  let (host, endpoint) ← orThrow (db.site allocation.vmHostId) (.state "assigned VM is not ready")
  ensure (allocation.status = .ready ∧ host.status = .active ∧ endpoint.status = .active ∧
      present allocation.remoteWorkspaceDir = true ∧ hasHostKey endpoint = true)
    (.state "assigned VM is not ready")
  return allocation

/-- What `active_allocation_id` becomes. -/
def activatedAllocation (db : VmTables) (bindingId : String) : TargetKind → Except VmError (Option String)
  | .platformServer => .ok none
  | .assignedVm => do
      let allocation ← allocationToActivate db bindingId
      return some allocation.id

def changePersonalExecutionTarget (db : VmDatabase) (agentId : String) (target : TargetKind)
    (expectedRevision changedAt : Int) : Except VmError VmDatabase := do
  let (binding, profile) ← orThrow ((db.profileOf agentId).filter fun owner =>
      decide (owner.1.state = .active ∧ owner.2.targetRevision = expectedRevision))
    (targetConflict "execution target changed before the requested update")
  let allocationId ← activatedAllocation db.toVmTables binding.id target
  db.updateProfile binding.id (fun row => row.targetRevision = profile.targetRevision)
    (fun row =>
      { row with
        activeTarget := target
        activeAllocationId := allocationId
        targetRevision := profile.targetRevision + 1
        updatedAt := changedAt })
    fun _ => rfl

inductive ConnectionResult where
  | ready (remoteHomeDir remoteWorkspaceDir : String)
  | connectionRequired (failureCode : String)
  deriving Repr, DecidableEq

def storeConnectionResult (db : VmDatabase) (allocationId : String) (checkedAt : Int) :
    ConnectionResult → Except VmError VmDatabase
  | .ready remoteHomeDir remoteWorkspaceDir => do
      let home ← required remoteHomeDir "allocation.remoteHomeDir"
      let workspace ← required remoteWorkspaceDir "allocation.remoteWorkspaceDir"
      db.updateAllocation allocationId (fun row =>
          { row with
            status := .ready
            remoteHomeDir := some home
            remoteWorkspaceDir := some workspace
            lastConnectionCheckAt := some checkedAt
            lastConnectionSucceededAt := some checkedAt
            failureCode := none
            updatedAt := checkedAt })
        fun _ => rfl
  | .connectionRequired failureCode => do
      let failureCode ← required failureCode "allocation.failureCode"
      db.updateAllocation allocationId (fun row =>
          { row with
            status := .connectionRequired
            lastConnectionCheckAt := some checkedAt
            failureCode := some failureCode
            updatedAt := checkedAt })
        fun _ => rfl

def recordVmConnectionResult (db : VmDatabase) (actorUserId agentId expectedAllocationId : String)
    (expectedTargetRevision : Int) (expectedCredentialRevision : Option Int) (checkedAt : Int)
    (result : ConnectionResult) : Except VmError VmDatabase := do
  let changed := targetConflict "execution target changed before the connection result was stored"
  let owner ← orThrow (db.ownerOf agentId) changed
  ensure (owner.binding.state = .active ∧ owner.user.status = .active ∧ owner.user.id ≠ "" ∧
    owner.profile.targetRevision = expectedTargetRevision) changed
  let allocation ← orThrow ((db.allocations.lookup expectedAllocationId).filter fun row =>
      decide (row.agentBindingId = owner.binding.id) && row.live) changed
  ensure (∀ revision ∈ expectedCredentialRevision, (db.credentialOf owner.user.id).any fun row =>
        decide (row.revision = revision ∧ row.status = .current))
    (targetConflict "VM credential changed during the connection test")
  db.requireAdminIf (owner.user.id ≠ actorUserId) actorUserId
  db.storeConnectionResult allocation.id checkedAt result

def revokeCurrent (db : VmDatabase) (current : Option VmAllocationRow) (revokedAt : Int) :
    Except VmError VmDatabase :=
  match current with
  | some row => db.revokeAllocation row.id revokedAt
  | none => .ok db

def replacePersonalVmAllocation (db : VmDatabase) (actorUserId agentId vmHostId linuxAccount
    remoteHomeDir remoteWorkspaceDir drawn : String) (replacedAt : Int) :
    Except VmError VmDatabase := do
  let (binding, profile) ← orThrow ((db.profileOf agentId).filter fun owner => owner.1.state = .active)
    (.state "personal VM assignment is unavailable")
  ensure (binding.userId = some actorUserId) (.state "personal VM assignment is unavailable")
  ensure (profile.activeTarget = .platformServer)
    (.state "switch to the Basic workspace before changing development VM")
  let (host, _) ← orThrow ((db.site vmHostId).filter fun site =>
      decide (site.1.status = .active ∧ site.2.status = .active))
    (.state "selected development VM is unavailable")
  let linuxAccount ← normalizeLinuxAccount linuxAccount
  let current := db.liveAllocation binding.id
  ensure (∀ other ∈ db.accountAllocation host.id linuxAccount, ∃ own ∈ current, other.id = own.id)
    (.conflict "vm_allocation_conflict" "this VM Linux account is already assigned")
  let released ← db.revokeCurrent current replacedAt
  let home ← required remoteHomeDir "allocation.remoteHomeDir"
  let workspace ← required remoteWorkspaceDir "allocation.remoteWorkspaceDir"
  released.insertAllocation
    (readyAllocation (nextExecutionResourceId "vm-allocation" drawn) binding.id host.id linuxAccount
      home workspace actorUserId replacedAt)

/-- An empty identifier selects nothing, as if it were not given. -/
def selectedBy (given : Option String) (value : String) : Bool :=
  given.all fun text => decide (text = "" ∨ text = value)

def allocationToRevoke (db : VmTables) (agentId allocationId : Option String) :
    Option (VmAllocationRow × AgentBindingRow × PersonalExecutionProfileRow) :=
  db.allocations.rows.findSome? fun row => do
    let binding ← db.bindings.lookup row.agentBindingId
    let profile ← db.profiles.lookup binding.id
    if row.live && selectedBy allocationId row.id && selectedBy agentId binding.agentId then
      some (row, binding, profile)
    else none

def revokePersonalVmAllocation (db : VmDatabase) (actorUserId : String)
    (agentId allocationId : Option String) (releasedAt : Int) (requireAdmin : Bool) :
    Except VmError VmDatabase := do
  db.requireAdminIf requireAdmin actorUserId
  let (row, binding, profile) ← orThrow (allocationToRevoke db.toVmTables agentId allocationId)
    (.state "active VM assignment is unavailable")
  ensure (requireAdmin = true ∨ binding.userId = some actorUserId)
    (.state "active VM assignment is unavailable")
  ensure (profile.activeTarget = .platformServer)
    (.state "switch to the Basic workspace before releasing development VM")
  db.revokeAllocation row.id releasedAt

def releasePersonalVmAllocation (db : VmDatabase) (actorUserId agentId : String)
    (releasedAt : Int) : Except VmError VmDatabase :=
  db.revokePersonalVmAllocation actorUserId (some agentId) none releasedAt false

def revokeVmAllocationAsAdmin (db : VmDatabase) (actorUserId allocationId : String)
    (revokedAt : Int) : Except VmError VmDatabase := do
  db.requireAdmin actorUserId
  db.revokePersonalVmAllocation actorUserId none (some allocationId) revokedAt true

/-- Only the account itself, while it is active. -/
def requireOwnCredential (db : VmTables) (actorUserId userId : String) : Except VmError Unit := do
  ensure (actorUserId = userId)
    (.authorization "users may manage only their own SSH credential")
  let user ← db.requireUserRow userId
  ensure (user.status = .active)
    (.state "active user required for SSH credential management")

def nextCredential (existing : Option EncryptedUserSshCredentialRow) (userId drawn : String)
    (envelope : SshCredentialEnvelope) (replacedAt : Int) : EncryptedUserSshCredentialRow where
  id := (existing.map (·.id)).getD (nextExecutionResourceId "ssh-credential" drawn)
  userId := userId
  envelope := envelope
  revision := (existing.map (·.revision)).getD 0 + 1
  status := .current
  lastAuthFailureAt := none
  createdAt := (existing.map (·.createdAt)).getD replacedAt
  updatedAt := replacedAt

def putCredential (db : VmDatabase) (userId drawn : String) (envelope : SshCredentialEnvelope)
    (replacedAt : Int) : Except VmError VmDatabase :=
  match db.credentialOf userId with
  | some existing =>
    db.updateCredential existing.id
      (fun row => { nextCredential (some existing) userId drawn envelope replacedAt with
        id := row.id })
      fun _ => rfl
  | none => db.insertCredential (nextCredential none userId drawn envelope replacedAt)

def replaceCredential (db : VmDatabase) (actorUserId userId drawn : String)
    (envelope : SshCredentialEnvelope) (replacedAt : Int) : Except VmError VmDatabase := do
  requireOwnCredential db.toVmTables actorUserId userId
  validateSshCredentialEnvelope envelope
  db.putCredential userId drawn envelope replacedAt

def removeCredential (db : VmDatabase) (actorUserId userId : String) : Except VmError VmDatabase := do
  requireOwnCredential db.toVmTables actorUserId userId
  match db.credentialOf userId with
  | some row => db.deleteCredential row
  | none => return db

def commitPersonalVmSelection (db : VmDatabase) (actorUserId agentId vmHostId linuxAccount
    remoteHomeDir remoteWorkspaceDir drawn drawnCredential : String)
    (envelope : SshCredentialEnvelope) (committedAt : Int) : Except VmError VmDatabase := do
  let replaced ← db.replacePersonalVmAllocation actorUserId agentId vmHostId linuxAccount
    remoteHomeDir remoteWorkspaceDir drawn committedAt
  replaced.replaceCredential actorUserId actorUserId drawnCredential envelope committedAt

def releaseCurrent (db : VmDatabase) (current : Option VmAllocationRow) (actorUserId agentId : String)
    (releasedAt : Int) : Except VmError VmDatabase :=
  match current with
  | some _ => db.releasePersonalVmAllocation actorUserId agentId releasedAt
  | none => .ok db

def releasePersonalVmAccess (db : VmDatabase) (actorUserId agentId : String) (releasedAt : Int) :
    Except VmError VmDatabase := do
  let current := db.getVmAllocationForAgent agentId
  let released ← db.releaseCurrent current actorUserId agentId releasedAt
  released.removeCredential actorUserId actorUserId

/-- The credential of the target that failed, while both are the current ones. -/
def failedCredential (db : VmTables) (agentId allocationId : String)
    (targetRevision credentialRevision : Int) : Option EncryptedUserSshCredentialRow := do
  let owner ← db.ownerOf agentId
  let allocation ← db.allocations.lookup allocationId
  let (host, endpoint) ← db.site allocation.vmHostId
  let credential ← db.credentialOf owner.user.id
  if allocation.agentBindingId = owner.binding.id ∧ allocation.live = true ∧
      owner.binding.state = .active ∧ owner.user.status = .active ∧ host.status = .active ∧
      endpoint.status = .active ∧ owner.profile.activeTarget = .assignedVm ∧
      owner.profile.activeAllocationId = some allocationId ∧
      owner.profile.targetRevision = targetRevision ∧
      credential.revision = credentialRevision ∧ credential.status = .current then
    some credential
  else none

def recordVmAuthenticationFailure (db : VmDatabase) (agentId allocationId : String)
    (targetRevision credentialRevision failedAt : Int) : Except VmError VmDatabase :=
  match failedCredential db.toVmTables agentId allocationId targetRevision credentialRevision with
  | none => return db
  | some credential => do
      let marked ← db.updateCredential credential.id (fun row =>
          { row with
            status := .updateRequired
            lastAuthFailureAt := some failedAt
            updatedAt := failedAt })
        fun _ => rfl
      marked.updateAllocation allocationId (fun row =>
          { row with
            status := .connectionRequired
            failureCode := some "vm_authentication_failed"
            lastConnectionCheckAt := some failedAt
            updatedAt := failedAt })
        fun _ => rfl

end VmDatabase

end PlatformClaw.Execution.Vm
