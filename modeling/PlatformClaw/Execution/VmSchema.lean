import PlatformClaw.Accounts
import PlatformClaw.Library.Constraints
import PlatformClaw.Library.Guarded

/-! # Tables of development VMs

The tables behind personal execution targets with the constraints and triggers
that `sqlite-schema-v2.ts` and `sqlite-schema-saved-vms.ts` put on them. A
database value carries the proof that it meets the declarative constraints; a
statement runs its triggers and is rejected if one of them aborts.
-/

namespace PlatformClaw.Execution.Vm

open Except (ensure orThrow)

inductive VmError where
  | authorization (message : String)
  | state (message : String)
  | conflict (code message : String)
  | notFound (entity id : String)
  /-- A trigger raised it. -/
  | abort (message : String)
  /-- A check, a unique index or a foreign key rejected the write. -/
  | constraint
  deriving Repr, DecidableEq

inductive AgentKind where
  | personal
  | knoxRoom
  deriving Repr, DecidableEq

inductive AgentState where
  | provisioning
  | active
  | failed
  | disabled
  deriving Repr, DecidableEq

structure AgentBindingRow where
  id : String
  kind : AgentKind
  userId : Option String
  agentId : String
  state : AgentState
  deriving Repr, DecidableEq

inductive EndpointStatus where
  | pending
  | active
  | disabled
  deriving Repr, DecidableEq

structure SafeConnectEndpointRow where
  id : String
  label : String
  host : String
  port : Int
  adDomain : String
  status : EndpointStatus
  hostKeyAlgorithm : Option String
  hostKeyPublicKey : Option String
  hostKeyFingerprint : Option String
  deriving Repr, DecidableEq

inductive HostStatus where
  | active
  | disabled
  deriving Repr, DecidableEq

structure VmHostRow where
  id : String
  endpointId : String
  label : String
  targetAddress : String
  status : HostStatus
  deriving Repr, DecidableEq

inductive AllocationStatus where
  | assigned
  | ready
  | connectionRequired
  | revoked
  deriving Repr, DecidableEq

/-- The columns of an allocation that no statement changes. -/
structure AllocationPlace where
  id : String
  agentBindingId : String
  vmHostId : String
  linuxAccount : String
  deriving Repr, DecidableEq

structure VmAllocationRow extends AllocationPlace where
  status : AllocationStatus
  remoteHomeDir : Option String
  remoteWorkspaceDir : Option String
  lastConnectionCheckAt : Option Int
  lastConnectionSucceededAt : Option Int
  failureCode : Option String
  createdByUserId : String
  createdAt : Int
  updatedAt : Int
  revokedAt : Option Int
  deriving Repr, DecidableEq

inductive TargetKind where
  | platformServer
  | assignedVm
  deriving Repr, DecidableEq

structure PersonalExecutionProfileRow where
  agentBindingId : String
  activeTarget : TargetKind
  activeAllocationId : Option String
  targetRevision : Int
  updatedAt : Int
  deriving Repr, DecidableEq

/-- The array that `endpoint_identity` holds as a JSON text. -/
structure EndpointIdentity where
  host : String
  port : Int
  adDomain : String
  hostKeyAlgorithm : Option String
  hostKeyPublicKey : Option String
  hostKeyFingerprint : Option String
  targetAddress : String
  deriving Repr, DecidableEq

structure SshCredentialEnvelope where
  ciphertext : List UInt8
  nonce : List UInt8
  authTag : List UInt8
  keyId : String
  formatVersion : Int
  deriving Repr, DecidableEq

inductive CredentialStatus where
  | current
  | updateRequired
  | missing
  deriving Repr, DecidableEq

inductive ConnectionStatus where
  | ready
  | connectionRequired
  deriving Repr, DecidableEq

/-- The columns of a saved connection that say whose it is, and for what. -/
structure ConnectionPlace where
  id : String
  agentBindingId : String
  vmHostId : String
  linuxAccount : String
  allocationId : Option String
  deriving Repr, DecidableEq

/-- The five columns of the credential are written and cleared together. -/
structure SavedVmConnectionRow extends ConnectionPlace where
  revision : Int
  endpointIdentity : EndpointIdentity
  remoteHomeDir : Option String
  remoteWorkspaceDir : Option String
  lastConnectionSucceededAt : Option Int
  connectionStatus : ConnectionStatus
  failureCode : Option String
  credential : Option SshCredentialEnvelope
  credentialStatus : CredentialStatus
  createdAt : Int
  updatedAt : Int
  deriving Repr, DecidableEq

structure EncryptedUserSshCredentialRow where
  id : String
  userId : String
  envelope : SshCredentialEnvelope
  revision : Int
  status : CredentialStatus
  lastAuthFailureAt : Option Int
  createdAt : Int
  updatedAt : Int
  deriving Repr, DecidableEq

abbrev userKey (row : PlatformUserRow) : String := row.id

abbrev AgentBindingRow.key (row : AgentBindingRow) : String := row.id

abbrev SafeConnectEndpointRow.key (row : SafeConnectEndpointRow) : String := row.id

abbrev VmHostRow.key (row : VmHostRow) : String := row.id

abbrev VmAllocationRow.key (row : VmAllocationRow) : String := row.id

abbrev PersonalExecutionProfileRow.key (row : PersonalExecutionProfileRow) : String :=
  row.agentBindingId

abbrev SavedVmConnectionRow.key (row : SavedVmConnectionRow) : String := row.id

abbrev EncryptedUserSshCredentialRow.key (row : EncryptedUserSshCredentialRow) : String := row.id

/-- What other parts of the control plane administer. -/
structure Directory where
  users : Table userKey
  bindings : Table AgentBindingRow.key
  endpoints : Table SafeConnectEndpointRow.key
  hosts : Table VmHostRow.key

structure VmTables extends Directory where
  allocations : Table VmAllocationRow.key
  profiles : Table PersonalExecutionProfileRow.key
  connections : Table SavedVmConnectionRow.key
  credentials : Table EncryptedUserSshCredentialRow.key

/-- `status != 'revoked'`. -/
def VmAllocationRow.live (row : VmAllocationRow) : Bool :=
  row.status ≠ .revoked

def VmAllocationRow.Checked (row : VmAllocationRow) : Prop :=
  (row.status = .ready → row.remoteHomeDir.isSome = true ∧ row.remoteWorkspaceDir.isSome = true ∧
      row.lastConnectionSucceededAt.isSome = true ∧ row.failureCode = none) ∧
    (row.status = .revoked ↔ row.revokedAt.isSome = true)

instance (row : VmAllocationRow) : Decidable row.Checked :=
  inferInstanceAs (Decidable (_ ∧ _))

def PersonalExecutionProfileRow.Checked (row : PersonalExecutionProfileRow) : Prop :=
  0 ≤ row.targetRevision ∧ (row.activeTarget = .assignedVm ↔ row.activeAllocationId.isSome = true)

instance (row : PersonalExecutionProfileRow) : Decidable row.Checked :=
  inferInstanceAs (Decidable (_ ∧ _))

def EncryptedUserSshCredentialRow.Checked (row : EncryptedUserSshCredentialRow) : Prop :=
  row.envelope.nonce.length = 12 ∧ row.envelope.authTag.length = 16 ∧
    row.envelope.formatVersion = 1 ∧ 1 ≤ row.revision ∧ row.status ≠ .missing

instance (row : EncryptedUserSshCredentialRow) : Decidable row.Checked :=
  inferInstanceAs (Decidable (_ ∧ _))

def SavedVmConnectionRow.Checked (row : SavedVmConnectionRow) : Prop :=
  1 ≤ row.revision ∧ ∀ envelope ∈ row.credential, envelope.nonce.length = 12 ∧
    envelope.authTag.length = 16 ∧ envelope.formatVersion = 1

instance (row : SavedVmConnectionRow) : Decidable row.Checked :=
  inferInstanceAs (Decidable (_ ∧ _))

/-- An agent is an employee's or a room's. Its identifier is derived from theirs, and validated
    there. -/
def AgentBindingRow.Checked (row : AgentBindingRow) : Prop :=
  (row.kind = .personal ↔ row.userId.isSome = true) ∧ row.agentId ≠ ""

instance (row : AgentBindingRow) : Decidable row.Checked :=
  inferInstanceAs (Decidable (_ ∧ _))

namespace Directory

structure Valid (directory : Directory) : Prop where
  checks : ∀ row ∈ directory.bindings.rows, row.Checked
  agentIds : directory.bindings.UniqueIndex (fun _ => true) (·.agentId)
  personalUsers : directory.bindings.UniqueIndex (·.kind = .personal) (·.userId)
  bindingUsers : directory.bindings.References (·.userId) directory.users
  hostEndpoints : directory.hosts.References (fun row => some row.endpointId) directory.endpoints

instance (directory : Directory) : Decidable directory.Valid :=
  decidable_of_iff ((∀ row ∈ directory.bindings.rows, row.Checked) ∧
      directory.bindings.UniqueIndex (fun _ => true) (·.agentId) ∧
      directory.bindings.UniqueIndex (·.kind = .personal) (·.userId) ∧
      directory.bindings.References (·.userId) directory.users ∧
      directory.hosts.References (fun row => some row.endpointId) directory.endpoints)
    ⟨fun all => ⟨all.1, all.2.1, all.2.2.1, all.2.2.2.1, all.2.2.2.2⟩,
      fun valid => ⟨valid.checks, valid.agentIds, valid.personalUsers, valid.bindingUsers,
        valid.hostEndpoints⟩⟩

end Directory

namespace VmTables

structure AllocationsValid (db : VmTables) : Prop where
  checks : ∀ row ∈ db.allocations.rows, row.Checked
  bindings : db.allocations.References (fun row => some row.agentBindingId) db.bindings
  hosts : db.allocations.References (fun row => some row.vmHostId) db.hosts
  creators : db.allocations.References (fun row => some row.createdByUserId) db.users
  /-- `vm_allocations_active_agent`. -/
  activeAgent : db.allocations.UniqueIndex (·.live) (·.agentBindingId)
  /-- `vm_allocations_active_linux_account`. -/
  activeLinuxAccount : db.allocations.UniqueIndex (·.live) fun row =>
    (row.vmHostId, row.linuxAccount)

instance (db : VmTables) : Decidable db.AllocationsValid :=
  decidable_of_iff ((∀ row ∈ db.allocations.rows, row.Checked) ∧
      db.allocations.References (fun row => some row.agentBindingId) db.bindings ∧
      db.allocations.References (fun row => some row.vmHostId) db.hosts ∧
      db.allocations.References (fun row => some row.createdByUserId) db.users ∧
      db.allocations.UniqueIndex (·.live) (·.agentBindingId) ∧
      db.allocations.UniqueIndex (·.live) fun row => (row.vmHostId, row.linuxAccount))
    ⟨fun all => ⟨all.1, all.2.1, all.2.2.1, all.2.2.2.1, all.2.2.2.2.1, all.2.2.2.2.2⟩,
      fun valid => ⟨valid.checks, valid.bindings, valid.hosts, valid.creators, valid.activeAgent,
        valid.activeLinuxAccount⟩⟩

structure ConnectionsValid (db : VmTables) : Prop where
  checks : ∀ row ∈ db.connections.rows, row.Checked
  bindings : db.connections.References (fun row => some row.agentBindingId) db.bindings
  hosts : db.connections.References (fun row => some row.vmHostId) db.hosts
  allocations : db.connections.References (·.allocationId) db.allocations
  linkedOnce : db.connections.UniqueIndex (·.allocationId.isSome) (·.allocationId)
  bindingHosts : db.connections.UniqueIndex (fun _ => true) fun row =>
    (row.agentBindingId, row.vmHostId)
  hostAccounts : db.connections.UniqueIndex (fun _ => true) fun row =>
    (row.vmHostId, row.linuxAccount)

instance (db : VmTables) : Decidable db.ConnectionsValid :=
  decidable_of_iff ((∀ row ∈ db.connections.rows, row.Checked) ∧
      db.connections.References (fun row => some row.agentBindingId) db.bindings ∧
      db.connections.References (fun row => some row.vmHostId) db.hosts ∧
      db.connections.References (·.allocationId) db.allocations ∧
      db.connections.UniqueIndex (·.allocationId.isSome) (·.allocationId) ∧
      (db.connections.UniqueIndex (fun _ => true) fun row => (row.agentBindingId, row.vmHostId)) ∧
      db.connections.UniqueIndex (fun _ => true) fun row => (row.vmHostId, row.linuxAccount))
    ⟨fun all => ⟨all.1, all.2.1, all.2.2.1, all.2.2.2.1, all.2.2.2.2.1, all.2.2.2.2.2.1,
        all.2.2.2.2.2.2⟩,
      fun valid => ⟨valid.checks, valid.bindings, valid.hosts, valid.allocations, valid.linkedOnce,
        valid.bindingHosts, valid.hostAccounts⟩⟩

structure ProfilesValid (db : VmTables) : Prop where
  checks : ∀ row ∈ db.profiles.rows, row.Checked
  bindings : db.profiles.References (fun row => some row.agentBindingId) db.bindings
  /-- The foreign key on the allocation names the agent as well. -/
  allocations : ∀ row ∈ db.profiles.rows, ∀ id ∈ row.activeAllocationId,
    ∃ allocation ∈ db.allocations.rows, allocation.id = id ∧ allocation.agentBindingId = row.agentBindingId

instance (db : VmTables) : Decidable db.ProfilesValid :=
  decidable_of_iff ((∀ row ∈ db.profiles.rows, row.Checked) ∧
      db.profiles.References (fun row => some row.agentBindingId) db.bindings ∧
      ∀ row ∈ db.profiles.rows, ∀ id ∈ row.activeAllocationId,
        ∃ allocation ∈ db.allocations.rows, allocation.id = id ∧ allocation.agentBindingId = row.agentBindingId)
    ⟨fun all => ⟨all.1, all.2.1, all.2.2⟩,
      fun valid => ⟨valid.checks, valid.bindings, valid.allocations⟩⟩

structure CredentialsValid (db : VmTables) : Prop where
  checks : ∀ row ∈ db.credentials.rows, row.Checked
  users : db.credentials.References (fun row => some row.userId) db.users
  userIds : db.credentials.UniqueIndex (fun _ => true) (·.userId)

instance (db : VmTables) : Decidable db.CredentialsValid :=
  decidable_of_iff ((∀ row ∈ db.credentials.rows, row.Checked) ∧
      db.credentials.References (fun row => some row.userId) db.users ∧
      db.credentials.UniqueIndex (fun _ => true) (·.userId))
    ⟨fun all => ⟨all.1, all.2.1, all.2.2⟩,
      fun valid => ⟨valid.checks, valid.users, valid.userIds⟩⟩

/-- The declarative constraints of the schema. -/
structure Valid (db : VmTables) : Prop where
  directory : db.toDirectory.Valid
  allocations : db.AllocationsValid
  connections : db.ConnectionsValid
  profiles : db.ProfilesValid
  credentials : db.CredentialsValid

instance (db : VmTables) : Decidable db.Valid :=
  decidable_of_iff (db.toDirectory.Valid ∧ db.AllocationsValid ∧ db.ConnectionsValid ∧ db.ProfilesValid ∧
      db.CredentialsValid)
    ⟨fun all => ⟨all.1, all.2.1, all.2.2.1, all.2.2.2.1, all.2.2.2.2⟩,
      fun valid => ⟨valid.directory, valid.allocations, valid.connections, valid.profiles,
        valid.credentials⟩⟩

end VmTables

/-- Tables that meet the constraints. -/
structure VmDatabase extends VmTables where
  valid : toVmTables.Valid

end PlatformClaw.Execution.Vm
