import PlatformClaw.Execution.VmSchema

/-! # Statements on the tables of development VMs

Each statement the stores execute, with the triggers it fires: those of
`sqlite-schema-v2.ts` on allocations and profiles, and the ones of
`sqlite-schema-saved-vms.ts` that keep a saved connection for every allocation.
A statement writes its rows, is checked against the constraints, and then runs
its triggers.
-/

namespace PlatformClaw.Execution.Vm

open Except (ensure orThrow)

namespace Directory

def site (directory : Directory) (vmHostId : String) : Option (VmHostRow × SafeConnectEndpointRow) := do
  let host ← directory.hosts.lookup vmHostId
  let endpoint ← directory.endpoints.lookup host.endpointId
  return (host, endpoint)

def personalBinding (directory : Directory) (agentId : String) : Option AgentBindingRow :=
  directory.bindings.rows.find? fun row => row.agentId = agentId && decide (row.kind = .personal)

end Directory

/-- `json_array(e.host, e.port, …, h.target_address)`. -/
def endpointIdentity (host : VmHostRow) (endpoint : SafeConnectEndpointRow) : EndpointIdentity where
  host := endpoint.host
  port := endpoint.port
  adDomain := endpoint.adDomain
  hostKeyAlgorithm := endpoint.hostKeyAlgorithm
  hostKeyPublicKey := endpoint.hostKeyPublicKey
  hostKeyFingerprint := endpoint.hostKeyFingerprint
  targetAddress := host.targetAddress

namespace VmTables

/-- The allocation of an agent that is not revoked. -/
def liveAllocation (db : VmTables) (bindingId : String) : Option VmAllocationRow :=
  db.allocations.rows.find? fun row => decide (row.agentBindingId = bindingId) && row.live

def accountAllocation (db : VmTables) (vmHostId linuxAccount : String) : Option VmAllocationRow :=
  db.allocations.rows.find? fun row =>
    decide (row.vmHostId = vmHostId ∧ row.linuxAccount = linuxAccount) && row.live

def connectionFor (db : VmTables) (bindingId vmHostId : String) : Option SavedVmConnectionRow :=
  db.connections.rows.find? fun row =>
    decide (row.agentBindingId = bindingId ∧ row.vmHostId = vmHostId)

def credentialOf (db : VmTables) (userId : String) : Option EncryptedUserSshCredentialRow :=
  db.credentials.rows.find? fun row => row.userId = userId

end VmTables

/-- A directory that is known on both sides is the same one. -/
def SameDirectory (new saved : Option String) : Prop :=
  ∀ dir ∈ new, ∀ old ∈ saved, old = dir

instance (new saved : Option String) : Decidable (SameDirectory new saved) :=
  inferInstanceAs (Decidable (∀ dir ∈ new, ∀ old ∈ saved, old = dir))

namespace VmAllocationRow

def connectionStatus (row : VmAllocationRow) : ConnectionStatus :=
  if row.status = .ready then .ready else .connectionRequired

def FitsDirectories (row : VmAllocationRow) (saved : SavedVmConnectionRow) : Prop :=
  SameDirectory row.remoteHomeDir saved.remoteHomeDir ∧ SameDirectory row.remoteWorkspaceDir saved.remoteWorkspaceDir

instance (row : VmAllocationRow) (saved : SavedVmConnectionRow) :
    Decidable (row.FitsDirectories saved) :=
  inferInstanceAs (Decidable (_ ∧ _))

/-- The row that `saved_vm_allocation_created` inserts. -/
def registration (row : VmAllocationRow) (identity : EndpointIdentity) : SavedVmConnectionRow where
  id := row.id
  agentBindingId := row.agentBindingId
  vmHostId := row.vmHostId
  linuxAccount := row.linuxAccount
  allocationId := some row.id
  revision := 1
  endpointIdentity := identity
  remoteHomeDir := row.remoteHomeDir
  remoteWorkspaceDir := row.remoteWorkspaceDir
  lastConnectionSucceededAt := row.lastConnectionSucceededAt
  connectionStatus := row.connectionStatus
  failureCode := none
  credential := none
  credentialStatus := .missing
  createdAt := row.createdAt
  updatedAt := row.updatedAt

/-- What it makes of a connection that is there already. -/
def relink (row : VmAllocationRow) (saved : SavedVmConnectionRow) : SavedVmConnectionRow :=
  { saved with
    allocationId := some row.id
    credentialStatus := .missing
    remoteHomeDir := row.remoteHomeDir.or saved.remoteHomeDir
    remoteWorkspaceDir := row.remoteWorkspaceDir.or saved.remoteWorkspaceDir
    lastConnectionSucceededAt :=
      row.lastConnectionSucceededAt.or saved.lastConnectionSucceededAt
    connectionStatus := row.connectionStatus
    failureCode := none
    revision := saved.revision + 1
    updatedAt := row.updatedAt }

/-- What `saved_vm_allocation_checked` makes of the linked connection. -/
def project (row : VmAllocationRow) (saved : SavedVmConnectionRow) : SavedVmConnectionRow :=
  { saved with
    remoteHomeDir := row.remoteHomeDir.or saved.remoteHomeDir
    remoteWorkspaceDir := row.remoteWorkspaceDir.or saved.remoteWorkspaceDir
    lastConnectionSucceededAt :=
      row.lastConnectionSucceededAt.or saved.lastConnectionSucceededAt
    connectionStatus := row.connectionStatus
    failureCode := row.failureCode
    revision := saved.revision + 1
    updatedAt := row.updatedAt }

end VmAllocationRow

namespace VmDatabase

/-- The constraints are checked after a statement. -/
def check (tables : VmTables) : Except VmError VmDatabase :=
  if valid : tables.Valid then .ok ⟨tables, valid⟩ else .error .constraint

/-- `saved_vm_allocation_reservation_insert` and `_update`. -/
def ReservedByAnother (db : VmTables) (row : VmAllocationRow) : Prop :=
  ∃ saved ∈ db.connections.rows, saved.vmHostId = row.vmHostId ∧
    saved.linuxAccount = row.linuxAccount ∧ saved.agentBindingId ≠ row.agentBindingId

instance (db : VmTables) (row : VmAllocationRow) : Decidable (ReservedByAnother db row) :=
  inferInstanceAs (Decidable (∃ saved ∈ db.connections.rows, saved.vmHostId = row.vmHostId ∧
    saved.linuxAccount = row.linuxAccount ∧ saved.agentBindingId ≠ row.agentBindingId))

def requireUnreserved (db : VmTables) (row : VmAllocationRow) : Except VmError Unit :=
  ensure (row.live = true → ¬ReservedByAnother db row)
    (.abort "VM Linux account is reserved by another personal agent")

def Registers (row : VmAllocationRow) (identity : EndpointIdentity) (saved : SavedVmConnectionRow) : Prop :=
  saved.linuxAccount = row.linuxAccount ∧ saved.endpointIdentity = identity ∧ row.FitsDirectories saved

instance (row : VmAllocationRow) (identity : EndpointIdentity) (saved : SavedVmConnectionRow) :
    Decidable (Registers row identity saved) :=
  inferInstanceAs (Decidable (_ ∧ _))

/-- `saved_vm_allocation_created`. Both of its statements read the join of host and endpoint. -/
def linkAllocation (db : VmDatabase) (row : VmAllocationRow) : Except VmError VmDatabase :=
  match db.site row.vmHostId with
  | none => .ok db
  | some (host, endpoint) =>
    match db.connectionFor row.agentBindingId row.vmHostId with
    | some saved => do
        ensure (Registers row (endpointIdentity host endpoint) saved)
          (.abort "VM identity changed; remove this saved connection and register it again")
        check { db.toVmTables with
          connections := db.connections.update (fun other => other.id = saved.id) row.relink
            fun _ => rfl }
    | none => do
        let connections ← orThrow (db.connections.insert? (row.registration (endpointIdentity host endpoint)))
          .constraint
        check { db.toVmTables with connections }

/-- `INSERT INTO vm_allocations`. -/
def insertAllocation (db : VmDatabase) (row : VmAllocationRow) : Except VmError VmDatabase := do
  ensure ((db.bindings.lookup row.agentBindingId).any fun binding => binding.kind = .personal)
    (.abort "VM allocation requires a personal agent binding")
  requireUnreserved db.toVmTables row
  let allocations ← orThrow (db.allocations.insert? row) .constraint
  let inserted ← check { db.toVmTables with allocations }
  if row.live then inserted.linkAllocation row else return inserted

/-- `saved_vm_allocation_checked`. -/
def projectAllocation (db : VmDatabase) (row : VmAllocationRow) : Except VmError VmDatabase := do
  ensure (∀ saved ∈ db.connections.rows, saved.allocationId = some row.id → row.FitsDirectories saved)
    (.abort "VM identity changed; remove this saved connection and register it again")
  check { db.toVmTables with
    connections := db.connections.update (fun saved => saved.allocationId = some row.id)
      row.project fun _ => rfl }

/-- `saved_vm_allocation_revoked`. -/
def unlinkAllocation (db : VmDatabase) (id : String) : Except VmError VmDatabase :=
  check { db.toVmTables with
    connections := db.connections.delete fun saved => saved.allocationId = some id }

/-- `vm_allocations_block_active_revoke`. -/
def requireDeselected (db : VmTables) (row : VmAllocationRow) : Except VmError Unit :=
  ensure (row.live = false → ∀ profile ∈ db.profiles.rows,
      ¬(profile.activeTarget = .assignedVm ∧ profile.activeAllocationId = some row.id))
    (.abort "active VM allocation must be deselected before revocation")

/-- `UPDATE vm_allocations SET status = …, … WHERE id = ?`. -/
def updateAllocation (db : VmDatabase) (id : String) (change : VmAllocationRow → VmAllocationRow)
    (keeps : ∀ row, (change row).toAllocationPlace = row.toAllocationPlace) :
    Except VmError VmDatabase :=
  match db.allocations.lookup id with
  | none => .ok db
  | some old => do
      requireUnreserved db.toVmTables (change old)
      requireDeselected db.toVmTables (change old)
      let updated ← check { db.toVmTables with
        allocations := db.allocations.update (fun row => row.id = id) change fun row =>
          congrArg AllocationPlace.id (keeps row) }
      if (change old).live then updated.projectAllocation (change old)
      else updated.unlinkAllocation id

/-- `SET status = 'revoked', revoked_at = ?, updated_at = ?`. -/
def revokeAllocation (db : VmDatabase) (id : String) (revokedAt : Int) : Except VmError VmDatabase :=
  db.updateAllocation id
    (fun row => { row with status := .revoked, revokedAt := some revokedAt, updatedAt := revokedAt })
    fun _ => rfl

/-- The allocation of a profile that works on a VM is the agent's own and not revoked. -/
def LiveTarget (db : VmTables) (profile : PersonalExecutionProfileRow) : Prop :=
  profile.activeTarget = .assignedVm → ∃ row ∈ db.allocations.rows,
    profile.activeAllocationId = some row.id ∧ row.agentBindingId = profile.agentBindingId ∧ row.live = true

instance (db : VmTables) (profile : PersonalExecutionProfileRow) :
    Decidable (LiveTarget db profile) :=
  inferInstanceAs (Decidable (_ → ∃ row ∈ db.allocations.rows,
    profile.activeAllocationId = some row.id ∧ row.agentBindingId = profile.agentBindingId ∧ row.live = true))

def requireLiveTarget (db : VmTables) (profile : PersonalExecutionProfileRow) : Except VmError Unit :=
  ensure (LiveTarget db profile)
    (.abort "execution profile requires a non-revoked owned allocation")

def insertProfile (db : VmDatabase) (row : PersonalExecutionProfileRow) : Except VmError VmDatabase := do
  ensure ((db.bindings.lookup row.agentBindingId).any fun binding => binding.kind = .personal)
    (.abort "execution profile requires a personal agent binding")
  requireLiveTarget db.toVmTables row
  let profiles ← orThrow (db.profiles.insert? row) .constraint
  check { db.toVmTables with profiles }

/-- `UPDATE personal_execution_profiles SET … WHERE agent_binding_id = ? AND …`. -/
def updateProfile (db : VmDatabase) (bindingId : String) (selects : PersonalExecutionProfileRow → Bool)
    (change : PersonalExecutionProfileRow → PersonalExecutionProfileRow)
    (keeps : ∀ row, (change row).agentBindingId = row.agentBindingId) :
    Except VmError VmDatabase :=
  match (db.profiles.lookup bindingId).filter selects with
  | none => .ok db
  | some old => do
      requireLiveTarget db.toVmTables (change old)
      check { db.toVmTables with
        profiles := db.profiles.update (fun row => row.agentBindingId = bindingId) change keeps }

/-- `INSERT … ON CONFLICT (agent_binding_id, vm_host_id) DO UPDATE SET` the same row, which keeps
    the identifier of the one that is there. -/
def upsertConnection (db : VmDatabase) (row : SavedVmConnectionRow) : Except VmError VmDatabase :=
  match db.connectionFor row.agentBindingId row.vmHostId with
  | some saved =>
    check { db.toVmTables with
      connections := db.connections.update (fun other => other.id = saved.id)
        (fun old => { row with id := old.id }) fun _ => rfl }
  | none => do
      let connections ← orThrow (db.connections.insert? row) .constraint
      check { db.toVmTables with connections }

/-- An update of columns that do not say whose the connection is. -/
def updateConnections (db : VmDatabase) (selects : SavedVmConnectionRow → Bool)
    (change : SavedVmConnectionRow → SavedVmConnectionRow)
    (keeps : ∀ row, (change row).toConnectionPlace = row.toConnectionPlace) :
    Except VmError VmDatabase :=
  check { db.toVmTables with
    connections := db.connections.update selects change fun row =>
      congrArg ConnectionPlace.id (keeps row) }

/-- `SET allocation_id = NULL WHERE allocation_id = ?`. -/
def detachConnections (db : VmDatabase) (allocationId : String) : Except VmError VmDatabase :=
  check { db.toVmTables with
    connections := db.connections.update (fun saved => saved.allocationId = some allocationId)
      (fun saved => { saved with allocationId := none }) fun _ => rfl }

def deleteConnection (db : VmDatabase) (id : String) : Except VmError VmDatabase :=
  check { db.toVmTables with connections := db.connections.delete fun saved => saved.id = id }

def linkedTo (db : VmTables) (userId : String) (saved : SavedVmConnectionRow) : Bool :=
  db.allocations.rows.any fun row => decide (saved.allocationId = some row.id) && row.live &&
    (db.bindings.lookup row.agentBindingId).any fun binding => binding.userId = some userId

/-- What the triggers on credentials write to the linked connections. -/
def projectCredential (db : VmDatabase) (row : EncryptedUserSshCredentialRow) : Except VmError VmDatabase :=
  db.updateConnections (linkedTo db.toVmTables row.userId) (fun saved =>
      { saved with
        credential := some row.envelope
        credentialStatus := row.status
        revision := saved.revision + 1
        updatedAt := row.updatedAt })
    fun _ => rfl

def insertCredential (db : VmDatabase) (row : EncryptedUserSshCredentialRow) : Except VmError VmDatabase := do
  let credentials ← orThrow (db.credentials.insert? row) .constraint
  let inserted ← check { db.toVmTables with credentials }
  inserted.projectCredential row

def updateCredential (db : VmDatabase) (id : String)
    (change : EncryptedUserSshCredentialRow → EncryptedUserSshCredentialRow)
    (keeps : ∀ row, (change row).id = row.id) : Except VmError VmDatabase :=
  match db.credentials.lookup id with
  | none => .ok db
  | some old => do
      let updated ← check { db.toVmTables with
        credentials := db.credentials.update (fun row => row.id = id) change keeps }
      updated.projectCredential (change old)

def deleteCredential (db : VmDatabase) (row : EncryptedUserSshCredentialRow) : Except VmError VmDatabase := do
  let deleted ← check { db.toVmTables with
    credentials := db.credentials.delete fun other => other.id = row.id }
  deleted.updateConnections (linkedTo deleted.toVmTables row.userId)
    (fun saved => { saved with credential := none, credentialStatus := .missing })
    fun _ => rfl

end VmDatabase

end PlatformClaw.Execution.Vm
