import PlatformClaw.Library.ScriptSet
import PlatformClaw.Organization.Model

/-! # The skill catalog

The tables of `sqlite-schema-skill-hub-catalog.ts` that the operations on skills
write, and the guards of `sqlite-skill-hub-catalog-core.ts`. An error rolls the
transaction back. Of the constraints, the keys and the unique indexes are
checked; the column checks hold of whatever the operations write.
-/

namespace PlatformClaw.Skills

open Except (ensure orThrow)
open Organization (ManagedScopeRow)

inductive SharingMode where
  | «public»
  | selected
  | «private»
  deriving Repr, DecidableEq

inductive PublicationState where
  | pending
  | completed
  | cancelled
  deriving Repr, DecidableEq

inductive RecipientKind where
  | user
  | scope
  deriving Repr, DecidableEq

inductive CursorKind where
  | publication
  | purge
  deriving Repr, DecidableEq

structure SkillHubCatalogRow where
  id : String
  registryId : Option Int
  «namespace» : String
  slug : String
  ownerUserId : Option String
  displayName : String
  summary : String
  tags : List String
  sharingMode : SharingMode
  revision : Int
  currentVersion : Option String
  createdAt : Int
  updatedAt : Int
  deletedAt : Option Int
  purgedAt : Option Int
  purgePending : Bool
  pendingTransferUserId : Option String
  deriving Repr, DecidableEq

structure SkillHubCatalogPublicationRow where
  operationId : String
  skillId : String
  actorUserId : String
  version : String
  fingerprint : String
  expectedRevision : Int
  state : PublicationState
  createdAt : Int
  updatedAt : Int
  deriving Repr, DecidableEq

structure SkillHubCatalogCoordinateRow where
  «namespace» : String
  slug : String
  skillId : String
  current : Bool
  deriving Repr, DecidableEq

structure SkillHubCatalogRecipientRow where
  skillId : String
  kind : RecipientKind
  targetId : String
  deriving Repr, DecidableEq

structure SkillHubCatalogIcon where
  contentType : String
  bytes : List UInt8
  deriving Repr, DecidableEq

structure SkillHubCatalogIconRow extends SkillHubCatalogIcon where
  skillId : String
  deriving Repr, DecidableEq

inductive HistoryDetails where
  | none
  | reason (text : String)
  | fields (names : List String)
  | sharing (old new : SharingMode)
  | owners (old : Option String) (new : String)
  deriving Repr, DecidableEq

structure SkillHubCatalogHistoryRow where
  skillId : String
  actorUserId : Option String
  actorName : Option String
  action : String
  version : Option String
  management : Bool
  details : HistoryDetails
  createdAt : Int
  deriving Repr, DecidableEq

structure SkillHubCatalogMaintenanceCursorRow where
  kind : CursorKind
  afterId : String
  deriving Repr, DecidableEq

abbrev SkillHubCatalogCoordinateRow.key (row : SkillHubCatalogCoordinateRow) : String × String :=
  (row.namespace, row.slug)

abbrev SkillHubCatalogRecipientRow.key (row : SkillHubCatalogRecipientRow) : String × RecipientKind × String :=
  (row.skillId, row.kind, row.targetId)

structure Catalog where
  platformUsers : Table PlatformUserRow.id
  managedScopes : Table ManagedScopeRow.id
  skills : Table SkillHubCatalogRow.id
  publications : Table SkillHubCatalogPublicationRow.operationId
  coordinates : Table SkillHubCatalogCoordinateRow.key
  recipients : Table SkillHubCatalogRecipientRow.key
  icons : Table SkillHubCatalogIconRow.skillId
  history : List SkillHubCatalogHistoryRow
  cursors : Table SkillHubCatalogMaintenanceCursorRow.kind

inductive CatalogError where
  | authorization (message : String)
  | state (message : String)
  | conflict (code message : String)
  | notFound (entity id : String)
  /-- A primary key or a unique index rejected the write. -/
  | constraint
  deriving Repr, DecidableEq

structure SkillHubSharing where
  mode : SharingMode
  userIds : List String
  scopeIds : List String
  deriving Repr, DecidableEq

namespace Catalog

def user (catalog : Catalog) (userId : String) : Except CatalogError PlatformUserRow := do
  let user ← orThrow (catalog.platformUsers.lookup userId)
    (.authorization "Active Skill Hub account required")
  ensure (user.status = .active) (.authorization "Active Skill Hub account required")
  return user

def row (catalog : Catalog) (id : String) : Except CatalogError SkillHubCatalogRow :=
  orThrow (catalog.skills.lookup id) (.notFound "skill-hub-skill" id)

def manager (catalog : Catalog) (row : SkillHubCatalogRow) (actorUserId : String) : Except CatalogError Unit := do
  let actor ← catalog.user actorUserId
  ensure (actor.globalRole = .admin ∨ row.ownerUserId = some actor.id)
    (.authorization "Skill Hub owner or administrator required")

/-- The reason that an administrator gives for changing the skill of another owner. -/
def administratorReason (catalog : Catalog) (row : SkillHubCatalogRow) (actorUserId : String)
    (reason : Option String) : Except CatalogError (Option String) := do
  let actor ← catalog.user actorUserId
  if actor.globalRole ≠ .admin ∨ row.ownerUserId = some actor.id then return none
  else
    let normalized := (reason.map ScriptString.trim).getD ""
    ensure (normalized ≠ "" ∧ ScriptString.length normalized ≤ 500)
      (.state "Administrator changes to another owner's skill require a reason of 1–500 characters")
    return some normalized

def revision (row : SkillHubCatalogRow) (expectedRevision : Int) : Except CatalogError Unit :=
  ensure (row.revision = expectedRevision)
    (.conflict "skill-hub-changed" "This skill changed; reload before saving")

end Catalog

/-- Neither in the trash nor deleted for good. -/
def SkillHubCatalogRow.Available (row : SkillHubCatalogRow) : Prop :=
  row.deletedAt = none ∧ row.purgedAt = none ∧ row.purgePending = false

instance (row : SkillHubCatalogRow) : Decidable row.Available :=
  inferInstanceAs (Decidable (_ ∧ _ ∧ _))

namespace Catalog

def available (row : SkillHubCatalogRow) : Except CatalogError Unit :=
  ensure row.Available (.state "This skill is in the trash or has been permanently deleted")

def pendingOf (catalog : Catalog) (skillId : String) : List SkillHubCatalogPublicationRow :=
  catalog.publications.rows.filter fun publication =>
    publication.skillId = skillId ∧ publication.state = .pending

def noPublication (catalog : Catalog) (id : String) : Except CatalogError Unit :=
  ensure (catalog.pendingOf id = [])
    (.conflict "skill-hub-publication-pending"
      "Publication is still being reconciled; retry shortly")

/-- `UPDATE skill_hub_catalog SET … WHERE id = …`. -/
def setSkill (catalog : Catalog) (id : String) (change : SkillHubCatalogRow → SkillHubCatalogRow)
    (keeps : ∀ row, (change row).id = row.id) : Catalog :=
  { catalog with skills := catalog.skills.update (fun row => row.id = id) change keeps }

/-- Whether the unique index on `registry_id` lets the skill have it. -/
def registryFree (catalog : Catalog) (id : String) (registryId : Int) : Bool :=
  catalog.skills.rows.all fun other => other.id = id || other.registryId ≠ some registryId

def setPublication (catalog : Catalog) (operationId : String) (state : PublicationState) (now : Int) : Catalog :=
  { catalog with
    publications := catalog.publications.update (fun row => row.operationId = operationId)
      (fun row => { row with state, updatedAt := now }) fun _ => rfl }

def appendHistory (catalog : Catalog) (row : SkillHubCatalogRow) (actorUserId : Option String)
    (action : String) (now : Int) (details : HistoryDetails) (management : Bool)
    (version : Option String) : Catalog :=
  let actor := actorUserId.bind catalog.platformUsers.lookup
  { catalog with
    history := catalog.history ++
      [{ skillId := row.id, actorUserId, action, version, management, details, createdAt := now
         actorName := actor.map fun actor =>
          if actor.displayName.getD "" = "" then actor.accountId else actor.displayName.getD "" }] }

/-- Insert one row after the other; a key that is taken rejects all. -/
def setSharing (catalog : Catalog) (id : String) (sharing : SkillHubSharing) : Except CatalogError Catalog := do
  let userIds := (ScriptSet.ofList sharing.userIds).rows
  let scopeIds := (ScriptSet.ofList sharing.scopeIds).rows
  ensure (userIds.length + scopeIds.length ≤ 100 ∧ (sharing.mode = .selected ↔ userIds.length + scopeIds.length ≠ 0))
    (.state "Choose recipients for selected sharing, or choose Public or Private")
  userIds.forM fun userId => discard (catalog.user userId)
  ensure (scopeIds.all (fun scopeId =>
      (catalog.managedScopes.lookup scopeId).any fun scope => scope.status = .active) = true)
    (.state "Selected organization is unavailable")
  let kept := catalog.recipients.delete fun row => row.skillId = id
  let recipients ← orThrow (kept.insertAll?
    (userIds.map (⟨id, .user, ·⟩) ++ scopeIds.map (⟨id, .scope, ·⟩))) .constraint
  return { catalog with recipients }

def recordCoordinate (catalog : Catalog) (row : SkillHubCatalogRow) : Except CatalogError Catalog := do
  let existing := catalog.coordinates.lookup (row.namespace, row.slug)
  ensure (existing.all (fun found => found.skillId = row.id || !found.current) = true)
    (.state "Registry coordinate already identifies another skill")
  if existing.any (fun found => found.skillId = row.id) then return catalog
  else
    return { catalog with
      coordinates := catalog.coordinates.upsert ⟨row.namespace, row.slug, row.id, true⟩
        (fun old => { old with skillId := row.id, current := true }) fun _ => rfl }

def maintenanceCursor (catalog : Catalog) (kind : CursorKind) : Option String :=
  (catalog.cursors.lookup kind).map SkillHubCatalogMaintenanceCursorRow.afterId

def advanceMaintenanceCursor (catalog : Catalog) (kind : CursorKind) (afterId : Option String) : Catalog :=
  match afterId with
  | none => { catalog with cursors := catalog.cursors.delete fun row => row.kind = kind }
  | some afterId =>
    { catalog with
      cursors := catalog.cursors.upsert ⟨kind, afterId⟩ (fun row => { row with afterId }) fun _ => rfl }

/-- The next batch behind the cursor, then from the start again. -/
def rotation (cursor : Option String) (limit : Nat) (ids : List String) : List String :=
  let ordered := ids.mergeSort fun a b => decide (a ≤ b)
  match cursor with
  | none => ordered.take limit
  | some cursor =>
    let behind := (ordered.filter fun id => decide (cursor < id)).take limit
    behind ++ (ordered.filter fun id => decide (id ≤ cursor)).take (limit - behind.length)

end Catalog

end PlatformClaw.Skills
