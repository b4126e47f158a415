import PlatformClaw.Skills.Operations

/-! # What the operations do to skills and publications

There are six ways in which an operation can succeed. Whatever holds of all of
them holds of every run.
-/

namespace PlatformClaw.Skills

open Except (bind_ok_iff ensure_ok_iff orThrow_ok_iff pure_ok_iff)

/-- Deletion for good has begun, or is done. -/
def SkillHubCatalogRow.InPurge (row : SkillHubCatalogRow) : Prop :=
  row.purgePending = true ∨ row.purgedAt ≠ none

/-- The row under one identifier is changed, and no other. -/
def Catalog.Rewrites (before after : Catalog) (id : String)
    (change : SkillHubCatalogRow → SkillHubCatalogRow) : Prop :=
  ∀ other, after.skills.lookup other =
    (before.skills.lookup other).map fun row => if row.id = id then change row else row

inductive Effect (before after : SkillHub) : Prop
  /-- Neither skills nor publications. -/
  | elsewhere (skills : after.catalog.skills = before.catalog.skills)
      (publications : after.catalog.publications = before.catalog.publications)
      (published : after.published = before.published)
  | bound {row : SkillHubCatalogRow} (found : before.catalog.skills.lookup row.id = some row)
      (unbound : row.registryId = none) (registryId : Int)
      (skills : before.catalog.Rewrites after.catalog row.id fun row =>
        { row with registryId := some registryId })
      (publications : after.catalog.publications = before.catalog.publications)
      (published : after.published = before.published)
  /-- A skill without a pending publication, by its manager or by maintenance. -/
  | edited {row : SkillHubCatalogRow} (found : before.catalog.skills.lookup row.id = some row)
      (idle : before.catalog.pendingOf row.id = [] ∨ ¬ row.Available)
      (change : SkillHubCatalogRow → SkillHubCatalogRow) (keepsId : (change row).id = row.id)
      (registry : (change row).registryId = row.registryId)
      (version : (change row).currentVersion = row.currentVersion ∨ (change row).purgedAt ≠ none)
      (purged : row.purgedAt ≠ none → (change row).purgedAt ≠ none)
      (purge : row.InPurge → (change row).InPurge)
      (skills : before.catalog.Rewrites after.catalog row.id change)
      (publications : after.catalog.publications = before.catalog.publications)
      (published : after.published = before.published)
  | reserved {row : SkillHubCatalogRow} {publication : SkillHubCatalogPublicationRow}
      (known : before.catalog.skills.lookup row.id = some row ∧ after.catalog.skills = before.catalog.skills ∨
        row.registryId = none ∧ row.currentVersion = none ∧
          before.catalog.skills.insert? row = some after.catalog.skills)
      (available : row.Available) (skill : publication.skillId = row.id)
      (revision : publication.expectedRevision = row.revision)
      (pending : publication.state = .pending) (idle : before.catalog.pendingOf row.id = [])
      (publications : before.catalog.publications.insert? publication = some after.catalog.publications)
      (published : after.published = before.published)
  | completed {row : SkillHubCatalogRow} {publication : SkillHubCatalogPublicationRow}
      (found : before.catalog.skills.lookup row.id = some row) (available : row.Available)
      (skill : publication.skillId = row.id)
      (pending : publication.state = .pending)
      (known : before.catalog.publications.lookup publication.operationId = some publication)
      (registryId now : Int)
      (registry : row.registryId = none ∨ row.registryId = some registryId)
      (skills : before.catalog.Rewrites after.catalog row.id fun row => { row with
        registryId := some registryId
        currentVersion := some publication.version
        revision := row.revision + 1
        updatedAt := now })
      (publications : after.catalog.publications =
        (before.catalog.setPublication publication.operationId .completed now).publications)
      (published : after.published = before.published ++ [publication])
  | cancelled {row : SkillHubCatalogRow} {publication : SkillHubCatalogPublicationRow}
      (found : before.catalog.skills.lookup row.id = some row)
      (skill : publication.skillId = row.id) (pending : publication.state = .pending)
      (known : before.catalog.publications.lookup publication.operationId = some publication)
      (now : Int) (change : SkillHubCatalogRow → SkillHubCatalogRow)
      (keepsId : (change row).id = row.id)
      (registry : (change row).registryId = row.registryId)
      (version : (change row).currentVersion = row.currentVersion)
      (purged : (change row).purgedAt = row.purgedAt)
      (pendingPurge : (change row).purgePending = row.purgePending)
      (skills : before.catalog.Rewrites after.catalog row.id change)
      (publications : after.catalog.publications =
        (before.catalog.setPublication publication.operationId .cancelled now).publications)
      (published : after.published = before.published)

namespace Catalog

variable {catalog after : Catalog}

theorem rewrites_setSkill (catalog : Catalog) (id : String)
    (change : SkillHubCatalogRow → SkillHubCatalogRow) (keeps : ∀ row, (change row).id = row.id) :
    catalog.Rewrites (catalog.setSkill id change keeps) id change := by
  intro other
  rw [setSkill, Table.lookup_update]
  simp

theorem row_ok {id : String} {row : SkillHubCatalogRow} (found : catalog.row id = .ok row) :
    catalog.skills.lookup row.id = some row ∧ row.id = id := by
  have there := orThrow_ok_iff.mp found
  have same := (Table.lookup_eq_some_iff.mp there).2
  rw [same]
  exact ⟨there, rfl⟩

theorem advanceMaintenanceCursor_same (catalog : Catalog) (kind : CursorKind) (id : Option String) :
    (catalog.advanceMaintenanceCursor kind id).skills = catalog.skills ∧
      (catalog.advanceMaintenanceCursor kind id).publications = catalog.publications := by
  cases id <;> exact ⟨rfl, rfl⟩

theorem metadataHistory_same (catalog : Catalog) (row : SkillHubCatalogRow)
    (params : UpdateMetadataParams) (reason : Option String) :
    (catalog.metadataHistory row params reason).skills = catalog.skills ∧
      (catalog.metadataHistory row params reason).publications = catalog.publications := by
  unfold metadataHistory
  cases params.sharing <;> cases reason <;> dsimp only <;> split <;> exact ⟨rfl, rfl⟩

theorem setSharing_same {id : String} {sharing : SkillHubSharing} (done : catalog.setSharing id sharing = .ok after) :
    after.skills = catalog.skills ∧ after.publications = catalog.publications := by
  unfold setSharing at done
  obtain ⟨_, _, done⟩ := bind_ok_iff.mp done
  obtain ⟨_, _, done⟩ := bind_ok_iff.mp done
  obtain ⟨_, _, done⟩ := bind_ok_iff.mp done
  obtain ⟨_, _, done⟩ := bind_ok_iff.mp done
  cases pure_ok_iff.mp done
  exact ⟨rfl, rfl⟩

theorem setRecipients_same {id : String} {sharing : Option SkillHubSharing}
    (done : catalog.setRecipients id sharing = .ok after) :
    after.skills = catalog.skills ∧ after.publications = catalog.publications := by
  cases sharing with
  | none => cases pure_ok_iff.mp done; exact ⟨rfl, rfl⟩
  | some sharing => exact setSharing_same done

theorem setIcon_same {id : String} {icon : Option (Option SkillHubCatalogIcon)}
    (done : catalog.setIcon id icon = .ok after) :
    after.skills = catalog.skills ∧ after.publications = catalog.publications := by
  cases icon with
  | none => cases pure_ok_iff.mp done; exact ⟨rfl, rfl⟩
  | some icon =>
    cases icon with
    | none => cases pure_ok_iff.mp done; exact ⟨rfl, rfl⟩
    | some icon =>
      unfold setIcon at done
      obtain ⟨_, _, done⟩ := bind_ok_iff.mp done
      obtain ⟨_, _, done⟩ := bind_ok_iff.mp done
      cases pure_ok_iff.mp done
      exact ⟨rfl, rfl⟩

theorem recordCoordinate_same {row : SkillHubCatalogRow} (done : catalog.recordCoordinate row = .ok after) :
    after.skills = catalog.skills ∧ after.publications = catalog.publications := by
  unfold recordCoordinate at done
  obtain ⟨_, _, done⟩ := bind_ok_iff.mp done
  split at done
  · cases pure_ok_iff.mp done
    exact ⟨rfl, rfl⟩
  · cases pure_ok_iff.mp done
    exact ⟨rfl, rfl⟩

theorem pendingOf_congr {before after : Catalog} (same : after.publications = before.publications)
    (id : String) : after.pendingOf id = before.pendingOf id := by
  unfold pendingOf
  rw [same]

end Catalog

namespace SkillHub

open Catalog

variable {hub : SkillHub} {after : Catalog}

theorem bindRegistryIdentity_effect {params : BindRegistryIdentityParams}
    (done : hub.catalog.bindRegistryIdentity params = .ok after) :
    Effect hub { hub with catalog := after } := by
  unfold bindRegistryIdentity at done
  obtain ⟨row, found, done⟩ := bind_ok_iff.mp done
  obtain ⟨_, _, done⟩ := bind_ok_iff.mp done
  split at done
  · rename_i unbound
    obtain ⟨_, _, done⟩ := bind_ok_iff.mp done
    cases pure_ok_iff.mp done
    exact .bound (row_ok found).1 unbound params.registryId (rewrites_setSkill hub.catalog row.id _ _) rfl rfl
  · cases pure_ok_iff.mp done
    exact .elsewhere rfl rfl rfl

theorem reuseReservation_effect {prior : SkillHubCatalogPublicationRow}
    {params : ReservePublicationParams} (done : hub.catalog.reuseReservation prior params = .ok after) :
    after = hub.catalog := by
  unfold reuseReservation at done
  obtain ⟨_, _, done⟩ := bind_ok_iff.mp done
  obtain ⟨_, _, done⟩ := bind_ok_iff.mp done
  obtain ⟨_, _, done⟩ := bind_ok_iff.mp done
  obtain ⟨_, _, done⟩ := bind_ok_iff.mp done
  obtain ⟨_, _, done⟩ := bind_ok_iff.mp done
  obtain ⟨_, _, done⟩ := bind_ok_iff.mp done
  obtain ⟨_, _, done⟩ := bind_ok_iff.mp done
  exact (pure_ok_iff.mp done).symm

theorem openPublication_ok {catalog : Catalog} {row : SkillHubCatalogRow}
    {params : ReservePublicationParams} (done : catalog.openPublication row params = .ok after) :
    catalog.pendingOf row.id = [] ∧ after.skills = catalog.skills ∧
      catalog.publications.insert? (reservation row params) = some after.publications := by
  unfold openPublication at done
  obtain ⟨opened, inserted, done⟩ := bind_ok_iff.mp done
  unfold insertPublication at inserted
  obtain ⟨_, idle, inserted⟩ := bind_ok_iff.mp inserted
  obtain ⟨publications, new, inserted⟩ := bind_ok_iff.mp inserted
  cases pure_ok_iff.mp inserted
  obtain ⟨reason, _, done⟩ := bind_ok_iff.mp done
  refine ⟨ensure_ok_iff.mp idle, ?_⟩
  cases reason with
  | none =>
    cases pure_ok_iff.mp done
    exact ⟨rfl, orThrow_ok_iff.mp new⟩
  | some reason =>
    cases pure_ok_iff.mp done
    exact ⟨rfl, orThrow_ok_iff.mp new⟩

theorem reserveVersion_effect {skillId : String} {params : ReservePublicationParams}
    (done : hub.catalog.reserveVersion skillId params = .ok after) :
    Effect hub { hub with catalog := after } := by
  unfold reserveVersion at done
  obtain ⟨_, _, done⟩ := bind_ok_iff.mp done
  obtain ⟨row, found, done⟩ := bind_ok_iff.mp done
  obtain ⟨_, _, done⟩ := bind_ok_iff.mp done
  obtain ⟨_, _, done⟩ := bind_ok_iff.mp done
  obtain ⟨_, available, done⟩ := bind_ok_iff.mp done
  obtain ⟨_, _, done⟩ := bind_ok_iff.mp done
  obtain ⟨_, _, done⟩ := bind_ok_iff.mp done
  obtain ⟨_, _, done⟩ := bind_ok_iff.mp done
  obtain ⟨idle, skills, publications⟩ := openPublication_ok done
  exact .reserved (.inl ⟨(row_ok found).1, skills⟩) (ensure_ok_iff.mp available) rfl rfl rfl idle publications rfl

theorem insertSkill_ok {catalog : Catalog} {row : SkillHubCatalogRow} (done : catalog.insertSkill row = .ok after) :
    catalog.skills.insert? row = some after.skills ∧ after.publications = catalog.publications := by
  unfold insertSkill at done
  obtain ⟨_, _, done⟩ := bind_ok_iff.mp done
  obtain ⟨skills, new, done⟩ := bind_ok_iff.mp done
  cases pure_ok_iff.mp done
  exact ⟨orThrow_ok_iff.mp new, rfl⟩

theorem reserveSkill_effect {params : ReservePublicationParams} (done : hub.catalog.reserveSkill params = .ok after) :
    Effect hub { hub with catalog := after } := by
  unfold reserveSkill at done
  obtain ⟨_, _, done⟩ := bind_ok_iff.mp done
  obtain ⟨inserted, inserting, done⟩ := bind_ok_iff.mp done
  obtain ⟨recorded, recording, done⟩ := bind_ok_iff.mp done
  obtain ⟨shared, sharing, done⟩ := bind_ok_iff.mp done
  obtain ⟨new, insertedPublications⟩ := insertSkill_ok inserting
  obtain ⟨recordedSkills, recordedPublications⟩ := recordCoordinate_same recording
  obtain ⟨sharedSkills, sharedPublications⟩ := setSharing_same sharing
  obtain ⟨idle, kept, publications⟩ := openPublication_ok done
  have samePublications : shared.publications = hub.catalog.publications :=
    sharedPublications.trans (recordedPublications.trans insertedPublications)
  rw [pendingOf_congr samePublications] at idle
  rw [samePublications] at publications
  have sameSkills : after.skills = inserted.skills := kept.trans (sharedSkills.trans recordedSkills)
  refine .reserved (.inr ⟨rfl, rfl, ?_⟩) ⟨rfl, rfl, rfl⟩ rfl rfl rfl idle publications rfl
  rw [new, sameSkills]

theorem reservePublication_effect {params : ReservePublicationParams}
    (done : hub.catalog.reservePublication params = .ok after) :
    Effect hub { hub with catalog := after } := by
  unfold reservePublication at done
  obtain ⟨_, _, done⟩ := bind_ok_iff.mp done
  cases prior : hub.catalog.publications.lookup params.operationId with
  | some publication =>
    rw [prior] at done
    rw [reuseReservation_effect done]
    exact .elsewhere rfl rfl rfl
  | none =>
    rw [prior] at done
    dsimp only at done
    split at done
    · exact reserveVersion_effect done
    · exact reserveSkill_effect done

theorem publication_ok {catalog : Catalog} {operationId : String}
    {found : SkillHubCatalogPublicationRow × SkillHubCatalogRow}
    (done : catalog.publication operationId = .ok found) :
    catalog.publications.lookup operationId = some found.1 ∧
      catalog.skills.lookup found.2.id = some found.2 ∧ found.1.skillId = found.2.id ∧
      found.2.Available ∧ found.1.state ≠ .cancelled := by
  unfold publication at done
  obtain ⟨publication, known, done⟩ := bind_ok_iff.mp done
  obtain ⟨row, there, done⟩ := bind_ok_iff.mp done
  obtain ⟨_, available, done⟩ := bind_ok_iff.mp done
  obtain ⟨_, open_, done⟩ := bind_ok_iff.mp done
  obtain ⟨_, _, done⟩ := bind_ok_iff.mp done
  cases pure_ok_iff.mp done
  exact ⟨orThrow_ok_iff.mp known, (row_ok there).1, (row_ok there).2.symm,
    ensure_ok_iff.mp available, ensure_ok_iff.mp open_⟩

theorem completePublication_effect {params : CompletePublicationParams}
    {completion : Catalog × Option SkillHubCatalogPublicationRow}
    (done : hub.catalog.completePublication params = .ok completion) :
    Effect hub ⟨completion.1, hub.published ++ completion.2.toList⟩ := by
  unfold completePublication at done
  obtain ⟨_, _, done⟩ := bind_ok_iff.mp done
  obtain ⟨found, located, done⟩ := bind_ok_iff.mp done
  obtain ⟨_, registry, done⟩ := bind_ok_iff.mp done
  obtain ⟨known, there, skill, available, open_⟩ := publication_ok located
  split at done
  · cases pure_ok_iff.mp done
    exact .elsewhere rfl rfl (List.append_nil _)
  · rename_i incomplete
    obtain ⟨_, _, done⟩ := bind_ok_iff.mp done
    cases pure_ok_iff.mp done
    have pending : found.1.state = .pending := by
      cases state : found.1.state with
      | pending => rfl
      | completed => exact absurd state incomplete
      | cancelled => exact absurd state open_
    have named := (Table.lookup_eq_some_iff.mp known).2
    refine .completed there available skill pending (named ▸ known) params.registryId params.now
      (ensure_ok_iff.mp registry) ?_ (named ▸ rfl) rfl
    exact rewrites_setSkill hub.catalog found.2.id (fun row => { row with
      registryId := some params.registryId
      currentVersion := some found.1.version
      revision := row.revision + 1
      updatedAt := params.now }) fun _ => rfl

theorem cancelPublication_effect {params : CancelPublicationParams}
    (done : hub.catalog.cancelPublication params = .ok after) :
    Effect hub { hub with catalog := after } := by
  unfold cancelPublication at done
  obtain ⟨found, located, done⟩ := bind_ok_iff.mp done
  unfold cancellation at located
  obtain ⟨publication, known, located⟩ := bind_ok_iff.mp located
  obtain ⟨row, there, located⟩ := bind_ok_iff.mp located
  obtain ⟨_, _, located⟩ := bind_ok_iff.mp located
  obtain ⟨_, _, located⟩ := bind_ok_iff.mp located
  obtain ⟨_, _, located⟩ := bind_ok_iff.mp located
  cases pure_ok_iff.mp located
  dsimp only at done
  split at done
  · rename_i pending
    cases pure_ok_iff.mp done
    have isKnown := orThrow_ok_iff.mp known
    have named := (Table.lookup_eq_some_iff.mp isKnown).2
    have skill := (row_ok there).2.symm
    by_cases first : row.currentVersion = none ∧ row.deletedAt = none
    · refine .cancelled (row_ok there).1 skill pending (named ▸ isKnown) params.now (fun row =>
        { row with deletedAt := some params.now, pendingTransferUserId := none
                   revision := row.revision + 1, updatedAt := params.now }) rfl rfl rfl rfl rfl ?_ ?_ rfl
      · unfold discardFirstUpload
        rw [if_pos first]
        exact rewrites_setSkill (hub.catalog.setPublication params.operationId .cancelled params.now)
          row.id (fun row => { row with
            deletedAt := some params.now
            pendingTransferUserId := none
            revision := row.revision + 1
            updatedAt := params.now }) fun _ => rfl
      · unfold discardFirstUpload
        rw [if_pos first, named]
        rfl
    · refine .cancelled (row_ok there).1 skill pending (named ▸ isKnown) params.now id rfl rfl rfl rfl
        rfl ?_ ?_ rfl
      · unfold discardFirstUpload
        rw [if_neg first]
        intro other
        show hub.catalog.skills.lookup other = _
        cases hub.catalog.skills.lookup other <;> simp
      · unfold discardFirstUpload
        rw [if_neg first, named]
        rfl
  · cases pure_ok_iff.mp done
    exact .elsewhere rfl rfl rfl

theorem mutate_ok {catalog : Catalog} {params : CatalogMutation}
    {update : SkillHubCatalogRow → SkillHubCatalogRow} {keeps : ∀ row, (update row).id = row.id}
    {action : String} {allowTrash : Bool}
    (done : catalog.mutate params update keeps action allowTrash = .ok after) :
    ∃ row, catalog.row params.skillId = .ok row ∧ row.revision = params.expectedRevision ∧
      catalog.pendingOf row.id = [] ∧ (allowTrash = false → row.Available) ∧
      catalog.Rewrites after row.id (fun row => { update row with
        revision := row.revision + 1, updatedAt := params.now }) ∧
      after.publications = catalog.publications := by
  unfold mutate at done
  obtain ⟨row, found, done⟩ := bind_ok_iff.mp done
  obtain ⟨_, _, done⟩ := bind_ok_iff.mp done
  obtain ⟨_, _, done⟩ := bind_ok_iff.mp done
  obtain ⟨_, current, done⟩ := bind_ok_iff.mp done
  obtain ⟨_, idle, done⟩ := bind_ok_iff.mp done
  obtain ⟨_, available, done⟩ := bind_ok_iff.mp done
  cases pure_ok_iff.mp done
  refine ⟨row, found, ensure_ok_iff.mp current, ensure_ok_iff.mp idle, ?_, ?_, rfl⟩
  · rintro rfl
    exact ensure_ok_iff.mp available
  · exact rewrites_setSkill catalog row.id (fun row => { update row with
      revision := row.revision + 1, updatedAt := params.now }) keeps

theorem requestTransfer_effect {params : CatalogMutation} {recipient : String}
    (done : hub.catalog.requestTransfer params recipient = .ok after) :
    Effect hub { hub with catalog := after } := by
  unfold requestTransfer at done
  obtain ⟨user, _, done⟩ := bind_ok_iff.mp done
  obtain ⟨_, _, done⟩ := bind_ok_iff.mp done
  obtain ⟨_, _, done⟩ := bind_ok_iff.mp done
  obtain ⟨row, found, _, idle, _, skills, publications⟩ := mutate_ok done
  exact .edited (row_ok found).1 (.inl idle) _ rfl rfl (.inl rfl) id id skills publications rfl

theorem trash_effect {params : CatalogMutation} (done : hub.catalog.trash params = .ok after) :
    Effect hub { hub with catalog := after } := by
  obtain ⟨row, found, _, idle, _, skills, publications⟩ := mutate_ok done
  exact .edited (row_ok found).1 (.inl idle) _ rfl rfl (.inl rfl) id id skills publications rfl

theorem restore_effect {params : CatalogMutation} (done : hub.catalog.restore params = .ok after) :
    Effect hub { hub with catalog := after } := by
  unfold restore at done
  obtain ⟨_, _, done⟩ := bind_ok_iff.mp done
  obtain ⟨_, _, done⟩ := bind_ok_iff.mp done
  obtain ⟨_, _, done⟩ := bind_ok_iff.mp done
  obtain ⟨row, found, _, idle, _, skills, publications⟩ := mutate_ok done
  exact .edited (row_ok found).1 (.inl idle) _ rfl rfl (.inl rfl) id id skills publications rfl

theorem acceptTransfer_effect {params : CatalogMutation} (done : hub.catalog.acceptTransfer params = .ok after) :
    Effect hub { hub with catalog := after } := by
  unfold acceptTransfer at done
  obtain ⟨actor, _, done⟩ := bind_ok_iff.mp done
  obtain ⟨row, found, done⟩ := bind_ok_iff.mp done
  obtain ⟨_, _, done⟩ := bind_ok_iff.mp done
  obtain ⟨_, _, done⟩ := bind_ok_iff.mp done
  obtain ⟨_, idle, done⟩ := bind_ok_iff.mp done
  obtain ⟨_, _, done⟩ := bind_ok_iff.mp done
  cases pure_ok_iff.mp done
  refine .edited (row_ok found).1 (.inl (ensure_ok_iff.mp idle)) _ rfl rfl (.inl rfl) id id
    (rewrites_setSkill hub.catalog row.id (fun row => { row with
      ownerUserId := some actor.id
      pendingTransferUserId := none
      revision := row.revision + 1
      updatedAt := params.now }) fun _ => rfl) rfl rfl

theorem updateMetadata_effect {params : UpdateMetadataParams} (done : hub.catalog.updateMetadata params = .ok after) :
    Effect hub { hub with catalog := after } := by
  unfold updateMetadata at done
  obtain ⟨row, found, done⟩ := bind_ok_iff.mp done
  obtain ⟨_, _, done⟩ := bind_ok_iff.mp done
  obtain ⟨reason, _, done⟩ := bind_ok_iff.mp done
  obtain ⟨_, _, done⟩ := bind_ok_iff.mp done
  obtain ⟨_, _, done⟩ := bind_ok_iff.mp done
  obtain ⟨_, idle, done⟩ := bind_ok_iff.mp done
  obtain ⟨_, _, done⟩ := bind_ok_iff.mp done
  obtain ⟨_, _, done⟩ := bind_ok_iff.mp done
  obtain ⟨shared, sharing, done⟩ := bind_ok_iff.mp done
  obtain ⟨pictured, picturing, done⟩ := bind_ok_iff.mp done
  cases pure_ok_iff.mp done
  obtain ⟨sharedSkills, sharedPublications⟩ := setRecipients_same sharing
  obtain ⟨picturedSkills, picturedPublications⟩ := setIcon_same picturing
  obtain ⟨skills, publications⟩ := metadataHistory_same
    (pictured.setSkill row.id (withMetadata params) fun _ => rfl) row params reason
  refine .edited (row_ok found).1 (.inl (ensure_ok_iff.mp idle)) (withMetadata params) rfl rfl
    (.inl rfl) id id ?_ ?_ rfl
  · intro other
    rw [skills, rewrites_setSkill pictured row.id (withMetadata params) (fun _ => rfl) other,
      picturedSkills, sharedSkills]
  · rw [publications]
    exact picturedPublications.trans sharedPublications

theorem claimPendingPublications_effect {limit : Int}
    (done : hub.catalog.claimPendingPublications limit = .ok after) :
    Effect hub { hub with catalog := after } := by
  unfold claimPendingPublications at done
  obtain ⟨_, _, done⟩ := bind_ok_iff.mp done
  cases pure_ok_iff.mp done
  obtain ⟨skills, publications⟩ := advanceMaintenanceCursor_same hub.catalog .publication _
  exact .elsewhere skills publications rfl

theorem claimPurgeDue_effect {now limit : Int} (done : hub.catalog.claimPurgeDue now limit = .ok after) :
    Effect hub { hub with catalog := after } := by
  unfold claimPurgeDue at done
  obtain ⟨_, _, done⟩ := bind_ok_iff.mp done
  cases pure_ok_iff.mp done
  obtain ⟨skills, publications⟩ := advanceMaintenanceCursor_same hub.catalog .purge _
  exact .elsewhere skills publications rfl

theorem not_available_of_overdue {row : SkillHubCatalogRow} {now : Int} (due : overdue row now = true) :
    ¬ row.Available := by
  intro available
  rw [overdue, available.1] at due
  cases due

theorem beginPurge_effect {skillId : String} {expected now : Int}
    (done : hub.catalog.beginPurge skillId expected now = .ok after) :
    Effect hub { hub with catalog := after } := by
  unfold beginPurge at done
  obtain ⟨row, found, done⟩ := bind_ok_iff.mp done
  obtain ⟨_, _, done⟩ := bind_ok_iff.mp done
  obtain ⟨_, due, done⟩ := bind_ok_iff.mp done
  split at done
  · cases pure_ok_iff.mp done
    exact .elsewhere rfl rfl rfl
  · cases pure_ok_iff.mp done
    exact .edited (row_ok found).1 (.inr (not_available_of_overdue (ensure_ok_iff.mp due).1)) _ rfl rfl
      (.inl rfl) id (fun _ => .inl rfl) (rewrites_setSkill hub.catalog row.id _ _) rfl rfl

theorem finishPurge_effect {skillId : String} {now : Int} (done : hub.catalog.finishPurge skillId now = .ok after) :
    Effect hub { hub with catalog := after } := by
  unfold finishPurge at done
  obtain ⟨row, found, done⟩ := bind_ok_iff.mp done
  split at done
  · cases pure_ok_iff.mp done
    exact .elsewhere rfl rfl rfl
  · obtain ⟨_, reserved, done⟩ := bind_ok_iff.mp done
    cases pure_ok_iff.mp done
    have gone : ¬ row.Available := fun available =>
      (ensure_ok_iff.mp reserved).2 available.1
    exact .edited (row_ok found).1 (.inr gone) (erased now) rfl rfl (.inr (Option.some_ne_none now))
      (fun _ => Option.some_ne_none now) (fun _ => .inr (Option.some_ne_none now))
      (rewrites_setSkill _ row.id (erased now) fun _ => rfl) rfl rfl

theorem step_effect (hub : SkillHub) (operation : CatalogOperation) : Effect hub (hub.step operation) := by
  have committed : ∀ result : Except CatalogError Catalog,
      (∀ after, result = .ok after → Effect hub { hub with catalog := after }) → Effect hub (hub.commit result) := by
    intro result effects
    cases result with
    | error error => exact .elsewhere rfl rfl rfl
    | ok after => exact effects after rfl
  cases operation with
  | reservePublication params => exact committed _ fun _ => reservePublication_effect
  | bindRegistryIdentity params => exact committed _ fun _ => bindRegistryIdentity_effect
  | completePublication params =>
    show Effect hub (hub.complete params)
    unfold complete
    cases done : hub.catalog.completePublication params with
    | error error => exact .elsewhere rfl rfl rfl
    | ok completion => exact completePublication_effect done
  | cancelPublication params => exact committed _ fun _ => cancelPublication_effect
  | claimPendingPublications limit => exact committed _ fun _ => claimPendingPublications_effect
  | updateMetadata params => exact committed _ fun _ => updateMetadata_effect
  | requestTransfer params recipient => exact committed _ fun _ => requestTransfer_effect
  | acceptTransfer params => exact committed _ fun _ => acceptTransfer_effect
  | trash params => exact committed _ fun _ => trash_effect
  | restore params => exact committed _ fun _ => restore_effect
  | claimPurgeDue now limit => exact committed _ fun _ => claimPurgeDue_effect
  | beginPurge skillId expected now => exact committed _ fun _ => beginPurge_effect
  | finishPurge skillId now => exact committed _ fun _ => finishPurge_effect
  | administer platformUsers managedScopes => exact .elsewhere rfl rfl rfl

end SkillHub

end PlatformClaw.Skills
