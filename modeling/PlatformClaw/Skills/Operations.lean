import PlatformClaw.Library.Machine
import PlatformClaw.Skills.Catalog

/-! # Operations on the skill catalog

Publications (`sqlite-skill-hub-catalog-artifacts.ts`), trash and purge
(`sqlite-skill-hub-catalog-lifecycle.ts`), metadata and transfers
(`sqlite-store-skill-hub-catalog.ts`). Each is one transaction on the catalog.
-/

namespace PlatformClaw.Skills

open Except (ensure orThrow)
open Organization (ManagedScopeRow)

def trashRetentionMs : Int := 30 * 24 * 60 * 60 * 1000

def maxSafeInteger : Int := 9007199254740991

/-- A safe integer from 1 on. -/
def isRegistryId (registryId : Int) : Bool :=
  1 ≤ registryId && registryId ≤ maxSafeInteger

/-- `/^[a-f0-9]{8}-(?:[a-f0-9]{4}-){3}[a-f0-9]{12}$/u`. -/
def isUuid (text : String) : Bool :=
  let groups := text.toList.splitOn '-'
  groups.map List.length = [8, 4, 4, 4, 12] &&
    groups.all fun group => group.all fun c => ('a' ≤ c && c ≤ 'f') || ('0' ≤ c && c ≤ '9')

structure ReservePublicationParams where
  operationId : String
  skillId : Option String
  actorUserId : String
  slug : String
  version : String
  fingerprint : String
  expectedRevision : Option Int
  displayName : Option String
  summary : Option String
  sharing : Option SkillHubSharing
  reason : Option String
  now : Int

structure BindRegistryIdentityParams where
  skillId : String
  registryId : Int
  expectedNamespace : String
  expectedSlug : String

structure CompletePublicationParams where
  operationId : String
  registryId : Int
  now : Int

structure CancelPublicationParams where
  operationId : String
  actorUserId : String
  now : Int
  reason : Option String

structure CatalogMutation where
  skillId : String
  actorUserId : String
  expectedRevision : Int
  now : Int
  reason : Option String

structure UpdateMetadataParams extends CatalogMutation where
  displayName : Option String
  summary : Option String
  tags : Option (List String)
  sharing : Option SkillHubSharing
  /-- `some none` takes the icon away. -/
  icon : Option (Option SkillHubCatalogIcon)

namespace Catalog

def bindRegistryIdentity (catalog : Catalog) (params : BindRegistryIdentityParams) : Except CatalogError Catalog := do
  let row ← catalog.row params.skillId
  ensure (isRegistryId params.registryId = true ∧ row.namespace = params.expectedNamespace ∧
      row.slug = params.expectedSlug ∧ row.purgedAt = none ∧
      (row.registryId = none ∨ row.registryId = some params.registryId))
    (.conflict "skill-hub-native-identity-changed" "Registry skill identity changed")
  if row.registryId = none then do
    ensure (catalog.registryFree row.id params.registryId = true) .constraint
    return catalog.setSkill row.id (fun row => { row with registryId := some params.registryId })
      fun _ => rfl
  else return catalog

/-- While a publication is pending the skill must be as it was when it was reserved. -/
def unchangedSince (publication : SkillHubCatalogPublicationRow) (row : SkillHubCatalogRow) :
    Except CatalogError Unit :=
  if publication.state = .pending then revision row publication.expectedRevision else return ()

/-- The reservation is already there: it must be the same request, and nothing is written. -/
def reuseReservation (catalog : Catalog) (prior : SkillHubCatalogPublicationRow)
    (params : ReservePublicationParams) : Except CatalogError Catalog := do
  let row ← catalog.row prior.skillId
  ensure (prior.actorUserId = params.actorUserId ∧ prior.fingerprint = params.fingerprint ∧
      prior.version = params.version ∧ row.slug = params.slug ∧
      ∀ skillId ∈ params.skillId, prior.skillId = skillId)
    (.conflict "skill-hub-publication-changed" "This publication ID belongs to another request")
  catalog.manager row params.actorUserId
  discard (catalog.administratorReason row params.actorUserId params.reason)
  available row
  ensure (prior.state ≠ .cancelled)
    (.conflict "skill-hub-publication-cancelled"
      "This publication was cancelled; start a new publication")
  unchangedSince prior row
  return catalog

def insertPublication (catalog : Catalog) (publication : SkillHubCatalogPublicationRow) :
    Except CatalogError Catalog := do
  ensure (catalog.pendingOf publication.skillId = []) .constraint
  let publications ← orThrow (catalog.publications.insert? publication) .constraint
  return { catalog with publications }

def reservation (row : SkillHubCatalogRow) (params : ReservePublicationParams) : SkillHubCatalogPublicationRow where
  operationId := params.operationId
  skillId := row.id
  actorUserId := params.actorUserId
  version := params.version
  fingerprint := params.fingerprint
  expectedRevision := row.revision
  state := .pending
  createdAt := params.now
  updatedAt := params.now

def openPublication (catalog : Catalog) (row : SkillHubCatalogRow)
    (params : ReservePublicationParams) : Except CatalogError Catalog := do
  let opened ← catalog.insertPublication (reservation row params)
  let reason ← opened.administratorReason row params.actorUserId params.reason
  match reason with
  | none => return opened
  | some reason =>
    return opened.appendHistory row (some params.actorUserId) "administrator-publication-requested"
      params.now (.reason reason) true (some params.version)

def reserveVersion (catalog : Catalog) (skillId : String) (params : ReservePublicationParams) :
    Except CatalogError Catalog := do
  ensure (params.sharing = none)
    (.state "Change sharing in the skill details before publishing a new version")
  let row ← catalog.row skillId
  catalog.manager row params.actorUserId
  discard (catalog.administratorReason row params.actorUserId params.reason)
  available row
  revision row (params.expectedRevision.getD (-1))
  ensure (row.slug = params.slug) (.state "Published skill package name cannot change")
  catalog.noPublication row.id
  catalog.openPublication row params

def publicSharing : SkillHubSharing := ⟨.public, [], []⟩

/-- The row of a skill whose first version is being published. -/
def newSkill (params : ReservePublicationParams) : SkillHubCatalogRow where
  id := params.operationId
  registryId := none
  «namespace» := "pc-" ++ params.operationId
  slug := params.slug
  ownerUserId := some params.actorUserId
  displayName := params.displayName.getD params.slug
  summary := params.summary.getD ""
  tags := []
  sharingMode := (params.sharing.getD publicSharing).mode
  revision := 1
  currentVersion := none
  createdAt := params.now
  updatedAt := params.now
  deletedAt := none
  purgedAt := none
  purgePending := false
  pendingTransferUserId := none

def insertSkill (catalog : Catalog) (row : SkillHubCatalogRow) : Except CatalogError Catalog := do
  ensure (catalog.skills.rows.all (fun other =>
    other.namespace ≠ row.namespace || other.slug ≠ row.slug) = true) .constraint
  let skills ← orThrow (catalog.skills.insert? row) .constraint
  return { catalog with skills }

def reserveSkill (catalog : Catalog) (params : ReservePublicationParams) : Except CatalogError Catalog := do
  ensure (isUuid params.operationId = true) (.state "Publication operation ID must be a UUID")
  let inserted ← catalog.insertSkill (newSkill params)
  let recorded ← inserted.recordCoordinate (newSkill params)
  let shared ← recorded.setSharing (newSkill params).id (params.sharing.getD publicSharing)
  shared.openPublication (newSkill params) params

def reservePublication (catalog : Catalog) (params : ReservePublicationParams) : Except CatalogError Catalog := do
  discard (catalog.user params.actorUserId)
  match catalog.publications.lookup params.operationId with
  | some prior => catalog.reuseReservation prior params
  | none =>
    if params.skillId.getD "" ≠ "" then catalog.reserveVersion (params.skillId.getD "") params
    else catalog.reserveSkill params

def publication (catalog : Catalog) (operationId : String) :
    Except CatalogError (SkillHubCatalogPublicationRow × SkillHubCatalogRow) := do
  let publication ← orThrow (catalog.publications.lookup operationId)
    (.notFound "skill-hub-publication" operationId)
  let row ← catalog.row publication.skillId
  available row
  ensure (publication.state ≠ .cancelled)
    (.conflict "skill-hub-publication-cancelled" "This publication was cancelled")
  unchangedSince publication row
  return (publication, row)

/-- The version becomes the current one. -/
def recordCompletion (catalog : Catalog) (publication : SkillHubCatalogPublicationRow)
    (row : SkillHubCatalogRow) (params : CompletePublicationParams) : Catalog :=
  ((catalog.setSkill row.id (fun row => { row with
      registryId := some params.registryId
      currentVersion := some publication.version
      revision := row.revision + 1
      updatedAt := params.now }) fun _ => rfl).setPublication params.operationId .completed
        params.now).appendHistory row (some publication.actorUserId) "version-published" params.now
          .none false (some publication.version)

/-- With the publication whose version became the current one, unless it had before. -/
def completePublication (catalog : Catalog) (params : CompletePublicationParams) :
    Except CatalogError (Catalog × Option SkillHubCatalogPublicationRow) := do
  ensure (isRegistryId params.registryId = true) (.state "Invalid registry skill identity")
  let found ← catalog.publication params.operationId
  ensure (found.2.registryId = none ∨ found.2.registryId = some params.registryId)
    (.state "Registry skill identity changed during publication")
  if found.1.state = .completed then return (catalog, none)
  else do
    ensure (catalog.registryFree found.2.id params.registryId = true) .constraint
    return (catalog.recordCompletion found.1 found.2 params, some found.1)

structure Cancellation where
  publication : SkillHubCatalogPublicationRow
  row : SkillHubCatalogRow
  reason : Option String

def cancellation (catalog : Catalog) (params : CancelPublicationParams) : Except CatalogError Cancellation := do
  let publication ← orThrow (catalog.publications.lookup params.operationId)
    (.notFound "skill-hub-publication" params.operationId)
  let row ← catalog.row publication.skillId
  catalog.manager row params.actorUserId
  let reason ← catalog.administratorReason row params.actorUserId params.reason
  ensure (publication.state ≠ .completed)
    (.conflict "skill-hub-publication-completed"
      "This publication already completed; refresh Skill Hub")
  return { publication, row, reason }

def detailsOf : Option String → HistoryDetails
  | none => .none
  | some reason => .reason reason

/-- A first upload that is cancelled goes to the trash. -/
def discardFirstUpload (catalog : Catalog) (row : SkillHubCatalogRow) (now : Int) : Catalog :=
  if row.currentVersion = none ∧ row.deletedAt = none then
    catalog.setSkill row.id (fun row => { row with
      deletedAt := some now
      pendingTransferUserId := none
      revision := row.revision + 1
      updatedAt := now }) fun _ => rfl
  else catalog

def cancelPublication (catalog : Catalog) (params : CancelPublicationParams) : Except CatalogError Catalog := do
  let found ← catalog.cancellation params
  if found.publication.state = .pending then
    return ((catalog.setPublication params.operationId .cancelled params.now).discardFirstUpload
      found.row params.now).appendHistory found.row (some params.actorUserId) "publication-cancelled"
        params.now (detailsOf found.reason) true (some found.publication.version)
  else return catalog

/-- The next pending publications for maintenance; only the cursor moves. -/
def claimPendingPublications (catalog : Catalog) (limit : Int) : Except CatalogError Catalog := do
  ensure (isRegistryId limit = true) (.state "Invalid publication maintenance limit")
  let pending := catalog.publications.rows.filter fun publication => publication.state = .pending
  let claimed := rotation (catalog.maintenanceCursor .publication) limit.toNat
    (pending.map SkillHubCatalogPublicationRow.operationId)
  return catalog.advanceMaintenanceCursor .publication claimed.getLast?

def availableUnless (allowTrash : Bool) (row : SkillHubCatalogRow) : Except CatalogError Unit :=
  if allowTrash then return () else available row

/-- A change of one skill by its manager. -/
def mutate (catalog : Catalog) (params : CatalogMutation)
    (update : SkillHubCatalogRow → SkillHubCatalogRow) (keeps : ∀ row, (update row).id = row.id)
    (action : String) (allowTrash : Bool) : Except CatalogError Catalog := do
  let row ← catalog.row params.skillId
  catalog.manager row params.actorUserId
  let reason ← catalog.administratorReason row params.actorUserId params.reason
  revision row params.expectedRevision
  catalog.noPublication row.id
  availableUnless allowTrash row
  return (catalog.setSkill row.id (fun row => { update row with
      revision := row.revision + 1, updatedAt := params.now }) keeps).appendHistory row
    (some params.actorUserId) action params.now (detailsOf reason) true none

def setIcon (catalog : Catalog) (id : String) : Option (Option SkillHubCatalogIcon) → Except CatalogError Catalog
  | none => return catalog
  | some none => return { catalog with icons := catalog.icons.delete fun row => row.skillId = id }
  | some (some icon) => do
      ensure (icon.bytes.length ≠ 0 ∧ icon.bytes.length ≤ 2 * 1024 * 1024)
        (.state "Skill icon must contain at most 2 MiB")
      let icons ← orThrow ((catalog.icons.delete fun row => row.skillId = id).insert?
        { icon with skillId := id }) .constraint
      return { catalog with icons }

def updatedFields (params : UpdateMetadataParams) : List String :=
  (if params.displayName.isSome then ["name"] else []) ++
    (if params.summary.isSome then ["description"] else []) ++
    (if params.tags.isSome then ["tags"] else []) ++
    (if params.icon.isSome then ["icon"] else [])

/-- The history of a metadata change: fields, sharing, and the administrator's reason. -/
def metadataHistory (catalog : Catalog) (row : SkillHubCatalogRow) (params : UpdateMetadataParams)
    (reason : Option String) : Catalog :=
  let actor := some params.actorUserId
  let edited := if updatedFields params = [] then catalog
    else catalog.appendHistory row actor "metadata-updated" params.now
      (.fields (updatedFields params)) false none
  let shared := match params.sharing with
    | none => edited
    | some sharing => edited.appendHistory row actor "sharing-updated" params.now
        (.sharing row.sharingMode sharing.mode) true none
  match reason with
  | none => shared
  | some reason => shared.appendHistory row actor "administrator-metadata-updated" params.now
      (.reason reason) true none

def setRecipients (catalog : Catalog) (id : String) : Option SkillHubSharing → Except CatalogError Catalog
  | none => return catalog
  | some sharing => catalog.setSharing id sharing

def withMetadata (params : UpdateMetadataParams) (row : SkillHubCatalogRow) : SkillHubCatalogRow :=
  { row with
    displayName := (params.displayName.map ScriptString.trim).getD row.displayName
    summary := params.summary.getD row.summary
    tags := (params.tags.map fun tags =>
      (ScriptSet.ofList (tags.map ScriptString.trim)).rows).getD row.tags
    sharingMode := (params.sharing.map SkillHubSharing.mode).getD row.sharingMode
    revision := row.revision + 1
    updatedAt := params.now }

def updateMetadata (catalog : Catalog) (params : UpdateMetadataParams) : Except CatalogError Catalog := do
  let row ← catalog.row params.skillId
  catalog.manager row params.actorUserId
  let reason ← catalog.administratorReason row params.actorUserId params.reason
  available row
  revision row params.expectedRevision
  catalog.noPublication row.id
  ensure ((∀ name ∈ params.displayName, ScriptString.trim name ≠ "" ∧ ScriptString.length name ≤ 200) ∧
      ∀ summary ∈ params.summary, ScriptString.length summary ≤ 4000)
    (.state "Invalid Skill Hub name or description")
  ensure (∀ tags ∈ params.tags, tags.length ≤ 5 ∧ ∀ tag ∈ tags.map ScriptString.trim,
      tag ≠ "" ∧ tag.toList.length ≤ 32)
    (.state "Use up to five tags, each containing 1–32 characters")
  let shared ← catalog.setRecipients row.id params.sharing
  let pictured ← shared.setIcon row.id params.icon
  return (pictured.setSkill row.id (withMetadata params) fun _ => rfl).metadataHistory row params reason

def requestTransfer (catalog : Catalog) (params : CatalogMutation) (recipientUserId : String) :
    Except CatalogError Catalog := do
  let recipient ← catalog.user recipientUserId
  let row ← catalog.row params.skillId
  ensure (row.ownerUserId ≠ some recipient.id) (.state "This user already owns the skill")
  catalog.mutate params (fun row => { row with pendingTransferUserId := some recipient.id })
    (fun _ => rfl) "transfer-requested" false

def acceptTransfer (catalog : Catalog) (params : CatalogMutation) : Except CatalogError Catalog := do
  let actor ← catalog.user params.actorUserId
  let row ← catalog.row params.skillId
  available row
  revision row params.expectedRevision
  catalog.noPublication row.id
  ensure (row.pendingTransferUserId = some actor.id)
    (.authorization "This ownership invitation is not addressed to you")
  return (catalog.setSkill row.id (fun row => { row with
      ownerUserId := some actor.id
      pendingTransferUserId := none
      revision := row.revision + 1
      updatedAt := params.now }) fun _ => rfl).appendHistory row (some actor.id) "owner-transferred"
    params.now (.owners row.ownerUserId actor.id) true none

def trash (catalog : Catalog) (params : CatalogMutation) : Except CatalogError Catalog :=
  catalog.mutate params (fun row => { row with deletedAt := some params.now, pendingTransferUserId := none })
    (fun _ => rfl) "deleted" false

/-- Whether the trash still keeps the skill for its owner. -/
def Restorable (row : SkillHubCatalogRow) (now : Int) : Prop :=
  row.purgedAt = none ∧ row.purgePending = false ∧
    row.deletedAt.any (fun deletedAt => now < deletedAt + trashRetentionMs) = true

instance (row : SkillHubCatalogRow) (now : Int) : Decidable (Restorable row now) :=
  inferInstanceAs (Decidable (_ ∧ _ ∧ _))

def restore (catalog : Catalog) (params : CatalogMutation) : Except CatalogError Catalog := do
  let row ← catalog.row params.skillId
  ensure (row.currentVersion ≠ none)
    (.state "This upload never completed; start a new publication")
  ensure (Restorable row params.now) (.state "This skill is no longer available for restoration")
  catalog.mutate params (fun row => { row with deletedAt := none }) (fun _ => rfl) "restored" true

/-- In the trash for the whole retention time. -/
def overdue (row : SkillHubCatalogRow) (now : Int) : Bool :=
  row.deletedAt.any fun deletedAt => deletedAt ≤ now - trashRetentionMs

def claimPurgeDue (catalog : Catalog) (now limit : Int) : Except CatalogError Catalog := do
  ensure (isRegistryId limit = true) (.state "Invalid purge maintenance limit")
  let due := catalog.skills.rows.filter fun row => overdue row now && row.purgedAt = none
  let claimed := rotation (catalog.maintenanceCursor .purge) limit.toNat (due.map SkillHubCatalogRow.id)
  return catalog.advanceMaintenanceCursor .purge claimed.getLast?

def beginPurge (catalog : Catalog) (skillId : String) (expectedRevision now : Int) : Except CatalogError Catalog := do
  let row ← catalog.row skillId
  revision row expectedRevision
  ensure (overdue row now = true ∧ row.purgedAt = none)
    (.state "This skill is not due for permanent deletion")
  if row.purgePending then return catalog
  else
    return catalog.setSkill row.id (fun row => { row with
      purgePending := true, revision := row.revision + 1, updatedAt := now }) fun _ => rfl

def erased (now : Int) (row : SkillHubCatalogRow) : SkillHubCatalogRow :=
  { row with
    displayName := ""
    summary := ""
    tags := []
    sharingMode := .private
    currentVersion := none
    pendingTransferUserId := none
    purgePending := false
    purgedAt := some now
    revision := row.revision + 1
    updatedAt := now }

/-- The icon, the recipients, the texts and the details of the history are erased. -/
def erase (catalog : Catalog) (row : SkillHubCatalogRow) (now : Int) : Catalog :=
  ({ catalog with
      icons := catalog.icons.delete fun icon => icon.skillId = row.id
      recipients := catalog.recipients.delete fun recipient => recipient.skillId = row.id
      history := catalog.history.map fun (event : SkillHubCatalogHistoryRow) =>
        if event.skillId = row.id then { event with details := HistoryDetails.none, management := true }
        else event }).setSkill row.id (erased now) fun _ => rfl

def finishPurge (catalog : Catalog) (skillId : String) (now : Int) : Except CatalogError Catalog := do
  let row ← catalog.row skillId
  if row.purgedAt ≠ none then return catalog
  else do
    ensure (row.purgePending = true ∧ row.deletedAt ≠ none)
      (.state "Permanent deletion has not been reserved")
    return (catalog.erase row now).appendHistory row none "permanently-deleted" now .none true none

end Catalog

inductive CatalogOperation where
  | reservePublication (params : ReservePublicationParams)
  | bindRegistryIdentity (params : BindRegistryIdentityParams)
  | completePublication (params : CompletePublicationParams)
  | cancelPublication (params : CancelPublicationParams)
  | claimPendingPublications (limit : Int)
  | updateMetadata (params : UpdateMetadataParams)
  | requestTransfer (params : CatalogMutation) (recipientUserId : String)
  | acceptTransfer (params : CatalogMutation)
  | trash (params : CatalogMutation)
  | restore (params : CatalogMutation)
  | claimPurgeDue (now limit : Int)
  | beginPurge (skillId : String) (expectedRevision now : Int)
  | finishPurge (skillId : String) (now : Int)
  /-- Employees and organizations are administered elsewhere. -/
  | administer (platformUsers : Table PlatformUserRow.id) (managedScopes : Table ManagedScopeRow.id)

/-- The catalog and the publications whose version became the current one, in that order. -/
structure SkillHub where
  catalog : Catalog
  published : List SkillHubCatalogPublicationRow

namespace SkillHub

/-- An operation that fails leaves everything as it was. -/
def commit (hub : SkillHub) (result : Except CatalogError Catalog) : SkillHub :=
  match result with
  | .error _ => hub
  | .ok catalog => { hub with catalog }

def complete (hub : SkillHub) (params : CompletePublicationParams) : SkillHub :=
  match hub.catalog.completePublication params with
  | .error _ => hub
  | .ok done => { catalog := done.1, published := hub.published ++ done.2.toList }

def step (hub : SkillHub) : CatalogOperation → SkillHub
  | .reservePublication params => hub.commit (hub.catalog.reservePublication params)
  | .bindRegistryIdentity params => hub.commit (hub.catalog.bindRegistryIdentity params)
  | .completePublication params => hub.complete params
  | .cancelPublication params => hub.commit (hub.catalog.cancelPublication params)
  | .claimPendingPublications limit => hub.commit (hub.catalog.claimPendingPublications limit)
  | .updateMetadata params => hub.commit (hub.catalog.updateMetadata params)
  | .requestTransfer params recipient => hub.commit (hub.catalog.requestTransfer params recipient)
  | .acceptTransfer params => hub.commit (hub.catalog.acceptTransfer params)
  | .trash params => hub.commit (hub.catalog.trash params)
  | .restore params => hub.commit (hub.catalog.restore params)
  | .claimPurgeDue now limit => hub.commit (hub.catalog.claimPurgeDue now limit)
  | .beginPurge skillId expected now => hub.commit (hub.catalog.beginPurge skillId expected now)
  | .finishPurge skillId now => hub.commit (hub.catalog.finishPurge skillId now)
  | .administer platformUsers managedScopes =>
    { hub with catalog := { hub.catalog with platformUsers, managedScopes } }

def machine : Machine SkillHub CatalogOperation := ⟨step⟩

/-- A catalog as it is before anything was published through it. -/
def opening (catalog : Catalog) : SkillHub where
  catalog := { catalog with publications := Table.empty }
  published := []

end SkillHub

end PlatformClaw.Skills
