import PlatformClaw.Library.ScriptMap
import PlatformClaw.Organization.Model

/-! # Access to shared Wikis

Who may read a vault follows from members and from grants to organizations. A change of it connects users to
the vaults they gain and takes the connections to those they lose, within a limit of connections for each user.
-/

namespace PlatformClaw.Wiki

open Except (ensure)
open Organization (OrganizationStore)

inductive KnowledgeVaultRole where
  | reader
  | editor
  | owner
deriving Repr, DecidableEq

def KnowledgeVaultRole.rank : KnowledgeVaultRole → Nat
  | .reader => 1
  | .editor => 2
  | .owner => 3

/-- `KNOWLEDGE_VAULT_LIMITS.connections`. -/
def connectionLimit : Nat := 256

structure VaultMemberRow where
  vaultId : String
  userId : String
  role : KnowledgeVaultRole
deriving Repr, DecidableEq

structure OrganizationGrantRow where
  vaultId : String
  scopeId : String
  role : KnowledgeVaultRole
deriving Repr, DecidableEq

structure VaultConnectionRow where
  userId : String
  vaultId : String
deriving Repr, DecidableEq

structure AccessStateRow extends VaultConnectionRow where
  accessible : Bool
deriving Repr, DecidableEq

structure SelectionRow where
  userId : String
  revision : Nat
deriving Repr, DecidableEq

/-- Connections and outcomes have the user and the vault as their key; the issue of an outcome is always the
capacity. -/
structure WikiStore where
  organization : OrganizationStore
  members : List VaultMemberRow
  grants : List OrganizationGrantRow
  accessStates : Table AccessStateRow.toVaultConnectionRow
  connections : Table (id : VaultConnectionRow → VaultConnectionRow)
  enableOutcomes : Table (id : VaultConnectionRow → VaultConnectionRow)
  selections : Table SelectionRow.userId

inductive WikiError where
  | state (message : String)
  | conflict (code message : String)
deriving Repr, DecidableEq

/-- The highest role of each user in each vault. -/
abbrev WikiRoles : Type := ScriptMap (ScriptMap KnowledgeVaultRole)

def WikiRoles.add (roles : WikiRoles) (vaultId userId : String) (role : KnowledgeVaultRole) : WikiRoles :=
  let members := (roles.get vaultId).getD .empty
  let held := ((members.get userId).map (·.rank)).getD 0
  roles.set vaultId (if held < role.rank then members.set userId role else members)

def WikiRoles.has (roles : WikiRoles) (vaultId userId : String) : Bool :=
  (roles.get vaultId).any fun members => ScriptMap.has members userId

namespace WikiStore

/-- Grants go to direct members of an organization that is active. -/
def grantedRoles (store : WikiStore) : List VaultMemberRow :=
  let scopes := store.organization.activeWikiOrganizations.map (·.id)
  (store.grants.filter fun grant => scopes.contains grant.scopeId).flatMap fun grant =>
    (store.organization.managedScopeMemberships.filter fun member => member.scopeId = grant.scopeId).map
      fun member => ⟨grant.vaultId, member.userId, grant.role⟩

def effectiveWikiRoles (store : WikiStore) : WikiRoles :=
  let users := (store.organization.platformUsers.filter fun user => user.status = .active).map (·.id)
  ((store.members ++ store.grantedRoles).filter fun member => users.contains member.userId).foldl
    (fun roles member => roles.add member.vaultId member.userId member.role) .empty

def bumpWikiSelection (store : WikiStore) (userId : String) : WikiStore :=
  { store with
    selections := store.selections.upsert ⟨userId, 1⟩
      (fun row => { row with revision := row.revision + 1 }) fun _ => rfl }

def connectedVaults (store : WikiStore) (userId : String) : List String :=
  (store.connections.rows.filter fun row => row.userId = userId).map (·.vaultId)

def writeWikiEnabled (store : WikiStore) (userId vaultId : String) (enabled automatic : Bool) :
    Except WikiError WikiStore :=
  let row : VaultConnectionRow := ⟨userId, vaultId⟩
  let prior := (store.connections.lookup row).isSome
  if enabled = true ∧ prior = false ∧ connectionLimit ≤ (store.connectedVaults userId).length then
    if automatic then
      -- A change of the directory must succeed; why the vault is not connected is recorded.
      .ok { store with enableOutcomes := store.enableOutcomes.upsert row id fun _ => rfl }
    else
      .error (.state "Disable another Shared Wiki before enabling this Wiki (256 enabled limit)")
  else
    let cleared := { store with enableOutcomes := store.enableOutcomes.delete (· = row) }
    if prior = enabled then .ok cleared
    else if enabled then
      .ok ({ cleared with connections := store.connections.upsert row id fun _ => rfl }.bumpWikiSelection userId)
    else
      .ok ({ cleared with connections := store.connections.delete (· = row) }.bumpWikiSelection userId)

def current (store : WikiStore) : List AccessStateRow :=
  store.effectiveWikiRoles.rows.flatMap fun vault => vault.2.rows.map fun member => ⟨⟨member.1, vault.1⟩, true⟩

/-- Who is known to the access states and has no access now. -/
def without (store : WikiStore) : List AccessStateRow :=
  (store.accessStates.rows.filter fun prior =>
    !store.effectiveWikiRoles.has prior.vaultId prior.userId).map fun prior => { prior with accessible := false }

/-- The access a user had to a vault before. -/
def prior (store : WikiStore) (row : AccessStateRow) : Option Bool :=
  (store.accessStates.lookup row.toVaultConnectionRow).map (·.accessible)

/-- A change of access, read against the states `before` it. -/
def reconcileRow (before store : WikiStore) (row : AccessStateRow) : Except WikiError WikiStore :=
  if before.prior row = some row.accessible then .ok store
  else
    { store with
      accessStates := store.accessStates.upsert row
        (fun old => { old with accessible := row.accessible }) fun _ => rfl }.writeWikiEnabled
      row.userId row.vaultId row.accessible true

def reconcileWikiAccess (store : WikiStore) (requireOwnerVaultId : Option String) : Except WikiError WikiStore := do
  match requireOwnerVaultId.filter (· ≠ "") with
  | none => pure ()
  | some vaultId =>
    ensure ((store.effectiveWikiRoles.get vaultId).any fun members =>
        members.rows.any fun member => member.2 = .owner)
      (.conflict "knowledge_vault_changed"
        "Assign another active Wiki Owner before removing the last effective Owner")
  (store.current ++ store.without).foldlM store.reconcileRow store

end WikiStore

end PlatformClaw.Wiki
