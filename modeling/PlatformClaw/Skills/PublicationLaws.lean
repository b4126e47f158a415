import PlatformClaw.Skills.CatalogRuns

/-! # Publications and the life of a skill

What holds of the skill catalog after any operations of any actors.
-/

namespace PlatformClaw.Skills

open Except (bind_ok_iff ensure_ok_iff orThrow_ok_iff pure_ok_iff)

def CatalogOperation.expects : CatalogOperation → Option (String × Int)
  | .reservePublication params =>
    if params.skillId.getD "" ≠ "" then
      some (params.skillId.getD "", params.expectedRevision.getD (-1))
    else none
  | .updateMetadata params => some (params.skillId, params.expectedRevision)
  | .requestTransfer params _ => some (params.skillId, params.expectedRevision)
  | .acceptTransfer params => some (params.skillId, params.expectedRevision)
  | .trash params => some (params.skillId, params.expectedRevision)
  | .restore params => some (params.skillId, params.expectedRevision)
  | .beginPurge skillId expectedRevision _ => some (skillId, expectedRevision)
  | _ => none

namespace Catalog

variable {catalog : Catalog}

theorem row_of_lookup {id : String} {row : SkillHubCatalogRow}
    (found : catalog.skills.lookup id = some row) : catalog.row id = .ok row :=
  orThrow_ok_iff.mpr found

theorem completePublication_of_pending {publication : SkillHubCatalogPublicationRow}
    {row : SkillHubCatalogRow} {params : CompletePublicationParams}
    (known : catalog.publications.lookup params.operationId = some publication)
    (found : catalog.skills.lookup publication.skillId = some row) (available : row.Available)
    (revision : row.revision = publication.expectedRevision) (pending : publication.state = .pending)
    (valid : isRegistryId params.registryId = true)
    (registry : row.registryId = none ∨ row.registryId = some params.registryId)
    (free : catalog.registryFree row.id params.registryId = true) :
    catalog.completePublication params = .ok (catalog.recordCompletion publication row params, some publication) := by
  have located : catalog.publication params.operationId = .ok (publication, row) := by
    unfold Catalog.publication
    apply bind_ok_iff.mpr ⟨publication, orThrow_ok_iff.mpr known, ?_⟩
    apply bind_ok_iff.mpr ⟨row, row_of_lookup found, ?_⟩
    apply bind_ok_iff.mpr ⟨(), ensure_ok_iff.mpr available, ?_⟩
    apply bind_ok_iff.mpr ⟨(), ensure_ok_iff.mpr (by rw [pending]; simp), ?_⟩
    have unchanged : unchangedSince publication row = .ok () := by
      unfold unchangedSince
      rw [if_pos pending]
      exact ensure_ok_iff.mpr revision
    rw [unchanged]
    rfl
  unfold completePublication
  apply bind_ok_iff.mpr ⟨(), ensure_ok_iff.mpr valid, ?_⟩
  apply bind_ok_iff.mpr ⟨(publication, row), located, ?_⟩
  apply bind_ok_iff.mpr ⟨(), ensure_ok_iff.mpr registry, ?_⟩
  rw [if_neg (by rw [pending]; simp)]
  apply bind_ok_iff.mpr ⟨(), ensure_ok_iff.mpr free, ?_⟩
  rfl

theorem cancelPublication_of_pending {publication : SkillHubCatalogPublicationRow}
    {row : SkillHubCatalogRow} {params : CancelPublicationParams} {reason : Option String}
    (known : catalog.publications.lookup params.operationId = some publication)
    (found : catalog.skills.lookup publication.skillId = some row)
    (pending : publication.state = .pending)
    (manager : catalog.manager row params.actorUserId = .ok ())
    (reasoned : catalog.administratorReason row params.actorUserId params.reason = .ok reason) :
    ∃ after, catalog.cancelPublication params = .ok after := by
  have located : catalog.cancellation params = .ok { publication, row, reason } := by
    unfold cancellation
    apply bind_ok_iff.mpr ⟨publication, orThrow_ok_iff.mpr known, ?_⟩
    apply bind_ok_iff.mpr ⟨row, row_of_lookup found, ?_⟩
    apply bind_ok_iff.mpr ⟨(), manager, ?_⟩
    apply bind_ok_iff.mpr ⟨reason, reasoned, ?_⟩
    apply bind_ok_iff.mpr ⟨(), ensure_ok_iff.mpr (by rw [pending]; simp), ?_⟩
    rfl
  unfold cancelPublication
  rw [located]
  dsimp only [bind, Except.bind]
  rw [if_pos pending]
  exact ⟨_, rfl⟩

theorem restore_ok {params : CatalogMutation} {after : Catalog} (done : catalog.restore params = .ok after) :
    ∃ row, catalog.skills.lookup params.skillId = some row ∧ Restorable row params.now := by
  unfold restore at done
  obtain ⟨row, found, done⟩ := bind_ok_iff.mp done
  obtain ⟨_, _, done⟩ := bind_ok_iff.mp done
  obtain ⟨_, restorable, _⟩ := bind_ok_iff.mp done
  exact ⟨row, orThrow_ok_iff.mp found, ensure_ok_iff.mp restorable⟩

theorem not_restored_of_inPurge {params : CatalogMutation} {row : SkillHubCatalogRow}
    (found : catalog.skills.lookup params.skillId = some row) (inPurge : row.InPurge) (after : Catalog) :
    catalog.restore params ≠ .ok after := by
  intro done
  obtain ⟨there, located, unpurged, unpending, _⟩ := restore_ok done
  rw [found] at located
  cases located
  rcases inPurge with pending | purged
  · rw [unpending] at pending
    cases pending
  · exact purged unpurged

theorem not_restored_of_due {skillId : String} {expected now : Int} {after : Catalog}
    (begun : catalog.beginPurge skillId expected now = .ok after) {params : CatalogMutation}
    (same : params.skillId = skillId) (later : now ≤ params.now) (restored : Catalog) :
    catalog.restore params ≠ .ok restored := by
  intro done
  unfold beginPurge at begun
  obtain ⟨row, found, begun⟩ := bind_ok_iff.mp begun
  obtain ⟨_, _, begun⟩ := bind_ok_iff.mp begun
  obtain ⟨_, due, _⟩ := bind_ok_iff.mp begun
  have overdue_ := (ensure_ok_iff.mp due).1
  obtain ⟨there, located, _, _, kept⟩ := restore_ok done
  rw [same, orThrow_ok_iff.mp found] at located
  cases located
  unfold overdue at overdue_
  cases trashed : row.deletedAt with
  | none =>
    rw [trashed] at kept
    cases kept
  | some deletedAt =>
    rw [trashed] at kept overdue_
    simp only [Option.any_some, decide_eq_true_eq] at kept overdue_
    omega

theorem mutate_stale {params : CatalogMutation} {row : SkillHubCatalogRow}
    (found : catalog.skills.lookup params.skillId = some row)
    (stale : row.revision ≠ params.expectedRevision) (update : SkillHubCatalogRow → SkillHubCatalogRow)
    (keeps : ∀ row, (update row).id = row.id) (action : String) (allowTrash : Bool) (after : Catalog) :
    catalog.mutate params update keeps action allowTrash ≠ .ok after := by
  intro done
  obtain ⟨there, located, current, _⟩ := SkillHub.mutate_ok done
  rw [row_of_lookup found] at located
  cases located
  exact stale current

end Catalog

namespace SkillHub

open Catalog

variable {hub : SkillHub}

/-- What does not succeed leaves everything as it was. -/
theorem commit_of_error {result : Except CatalogError Catalog} (fails : ∀ after, result ≠ .ok after) :
    hub.commit result = hub := by
  cases result with
  | error error => rfl
  | ok after => exact absurd rfl (fails after)

theorem step_stale {operation : CatalogOperation} {id : String} {expected : Int}
    {row : SkillHubCatalogRow} (expects : operation.expects = some (id, expected))
    (found : hub.catalog.skills.lookup id = some row) (stale : row.revision ≠ expected) :
    hub.step operation = hub := by
  cases operation with
  | reservePublication params =>
    simp only [CatalogOperation.expects] at expects
    split at expects
    · rename_i named
      cases expects
      unfold step commit
      dsimp only
      cases done : hub.catalog.reservePublication params with
      | error error => rfl
      | ok after =>
        unfold reservePublication at done
        obtain ⟨_, _, done⟩ := bind_ok_iff.mp done
        cases prior : hub.catalog.publications.lookup params.operationId with
        | some publication =>
          rw [prior] at done
          rw [reuseReservation_effect done]
        | none =>
          rw [prior] at done
          dsimp only at done
          rw [if_pos named] at done
          unfold reserveVersion at done
          obtain ⟨_, _, done⟩ := bind_ok_iff.mp done
          obtain ⟨there, located, done⟩ := bind_ok_iff.mp done
          obtain ⟨_, _, done⟩ := bind_ok_iff.mp done
          obtain ⟨_, _, done⟩ := bind_ok_iff.mp done
          obtain ⟨_, _, done⟩ := bind_ok_iff.mp done
          obtain ⟨_, current, _⟩ := bind_ok_iff.mp done
          rw [row_of_lookup found] at located
          cases located
          exact absurd (ensure_ok_iff.mp current) stale
    · cases expects
  | updateMetadata params =>
    cases expects
    apply commit_of_error
    intro after done
    unfold updateMetadata at done
    obtain ⟨there, located, done⟩ := bind_ok_iff.mp done
    obtain ⟨_, _, done⟩ := bind_ok_iff.mp done
    obtain ⟨_, _, done⟩ := bind_ok_iff.mp done
    obtain ⟨_, _, done⟩ := bind_ok_iff.mp done
    obtain ⟨_, current, _⟩ := bind_ok_iff.mp done
    rw [row_of_lookup found] at located
    cases located
    exact stale (ensure_ok_iff.mp current)
  | requestTransfer params recipient =>
    cases expects
    apply commit_of_error
    intro after done
    unfold requestTransfer at done
    obtain ⟨_, _, done⟩ := bind_ok_iff.mp done
    obtain ⟨_, _, done⟩ := bind_ok_iff.mp done
    obtain ⟨_, _, done⟩ := bind_ok_iff.mp done
    exact mutate_stale found stale _ _ _ _ _ done
  | acceptTransfer params =>
    cases expects
    apply commit_of_error
    intro after done
    unfold acceptTransfer at done
    obtain ⟨_, _, done⟩ := bind_ok_iff.mp done
    obtain ⟨there, located, done⟩ := bind_ok_iff.mp done
    obtain ⟨_, _, done⟩ := bind_ok_iff.mp done
    obtain ⟨_, current, _⟩ := bind_ok_iff.mp done
    rw [row_of_lookup found] at located
    cases located
    exact stale (ensure_ok_iff.mp current)
  | trash params =>
    cases expects
    exact commit_of_error fun after => mutate_stale found stale _ _ _ _ after
  | restore params =>
    cases expects
    apply commit_of_error
    intro after done
    unfold restore at done
    obtain ⟨_, _, done⟩ := bind_ok_iff.mp done
    obtain ⟨_, _, done⟩ := bind_ok_iff.mp done
    obtain ⟨_, _, done⟩ := bind_ok_iff.mp done
    exact mutate_stale found stale _ _ _ _ _ done
  | beginPurge skillId expectedRevision now =>
    cases expects
    apply commit_of_error
    intro after done
    unfold beginPurge at done
    obtain ⟨there, located, done⟩ := bind_ok_iff.mp done
    obtain ⟨_, current, _⟩ := bind_ok_iff.mp done
    rw [row_of_lookup found] at located
    cases located
    exact stale (ensure_ok_iff.mp current)
  | bindRegistryIdentity | completePublication | cancelPublication | claimPendingPublications
  | claimPurgeDue | finishPurge | administer => cases expects

/-- What is said of a catalog after a run, and of how it goes on. -/
structure Orderly (hub : SkillHub) : Prop where
  onePending : ∀ id, (hub.catalog.pendingOf id).length ≤ 1
  pinned : ∀ publication ∈ hub.catalog.publications, publication.state = .pending →
    ∃ row, hub.catalog.skills.lookup publication.skillId = some row ∧ row.Available ∧
      row.revision = publication.expectedRevision
  /-- With the registry identity of its skill, or with one that is still free. -/
  completable : ∀ publication ∈ hub.catalog.publications, publication.state = .pending →
    ∀ row, hub.catalog.skills.lookup publication.skillId = some row → ∀ registryId now,
      isRegistryId registryId = true →
      row.registryId = none ∨ row.registryId = some registryId →
      hub.catalog.registryFree row.id registryId = true →
        ∃ done, hub.catalog.completePublication ⟨publication.operationId, registryId, now⟩ = .ok done
  cancellable : ∀ publication ∈ hub.catalog.publications, publication.state = .pending →
    ∀ row, hub.catalog.skills.lookup publication.skillId = some row → ∀ actor now given reason,
      hub.catalog.manager row actor = .ok () →
      hub.catalog.administratorReason row actor given = .ok reason →
        ∃ after, hub.catalog.cancelPublication ⟨publication.operationId, actor, now, given⟩ = .ok after
  closed : ∀ publication ∈ hub.catalog.publications, publication.state ≠ .pending →
    ∀ operations, publication ∈ (machine.run hub operations).catalog.publications
  /-- Its version became the current one once if it was completed, and never otherwise. -/
  publishedOnce : ∀ publication ∈ hub.catalog.publications,
    hub.published.countP (fun done => done.operationId = publication.operationId) =
      if publication.state = .completed then 1 else 0
  publishedVersion : ∀ done ∈ hub.published, ∃ publication ∈ hub.catalog.publications,
    publication.operationId = done.operationId ∧ publication.skillId = done.skillId ∧
      publication.version = done.version ∧ publication.state = .completed
  currentVersion : ∀ id row last, hub.catalog.skills.lookup id = some row → row.purgedAt = none →
    (hub.published.filter fun done => done.skillId = id).getLast? = some last → row.currentVersion = some last.version
  registryFixed : ∀ id row registryId, hub.catalog.skills.lookup id = some row →
    row.registryId = some registryId → ∀ operations,
      ∃ new, (machine.run hub operations).catalog.skills.lookup id = some new ∧ new.registryId = some registryId
  stale : ∀ operation id expected row, operation.expects = some (id, expected) →
    hub.catalog.skills.lookup id = some row → row.revision ≠ expected → hub.step operation = hub
  /-- A purge that can begin at some time leaves no restore for that time or later. -/
  purgeIsLate : ∀ skillId expected now after,
    hub.catalog.beginPurge skillId expected now = .ok after → ∀ params : CatalogMutation,
      params.skillId = skillId → now ≤ params.now → ∀ restored, hub.catalog.restore params ≠ .ok restored
  purgeIsFinal : ∀ id row, hub.catalog.skills.lookup id = some row → row.InPurge → ∀ operations,
    ∃ new, (machine.run hub operations).catalog.skills.lookup id = some new ∧ new.InPurge ∧
      ∀ params : CatalogMutation, params.skillId = id → ∀ restored,
        (machine.run hub operations).catalog.restore params ≠ .ok restored

theorem orderly_of_consistent (consistent : Consistent hub) : Orderly hub where
  onePending id := by
    have same : ∀ first ∈ hub.catalog.pendingOf id, ∀ second ∈ hub.catalog.pendingOf id,
        first = second := by
      intro first isFirst second isSecond
      obtain ⟨knownFirst, skillFirst, pendingFirst⟩ := mem_pendingOf.mp isFirst
      obtain ⟨knownSecond, skillSecond, pendingSecond⟩ := mem_pendingOf.mp isSecond
      exact consistent.unique knownFirst knownSecond pendingFirst pendingSecond (skillFirst.trans skillSecond.symm)
    have distinct : (hub.catalog.pendingOf id).Pairwise fun a b => a.operationId ≠ b.operationId :=
      hub.catalog.publications.keyed.filter _
    cases all : hub.catalog.pendingOf id with
    | nil => exact Nat.zero_le 1
    | cons first rest =>
      cases rest with
      | nil => exact Nat.le_refl 1
      | cons second rest =>
        rw [all] at same distinct
        have apart := (List.pairwise_cons.mp distinct).1 second List.mem_cons_self
        exact absurd (congrArg SkillHubCatalogPublicationRow.operationId
          (same first List.mem_cons_self second (.tail _ List.mem_cons_self))) apart
  pinned publication known pending := consistent.current known pending
  completable publication known pending row found registryId now valid registry free := by
    obtain ⟨there, located, available, revision⟩ := consistent.current known pending
    rw [found] at located
    cases located
    exact ⟨_, completePublication_of_pending (Table.lookup_key known) found available revision pending
      valid registry free⟩
  cancellable publication known pending row found actor now given reason manager reasoned :=
    cancelPublication_of_pending (Table.lookup_key known) found pending manager reasoned
  closed publication known closed operations := (Keeps.run hub operations).closed publication known closed
  publishedOnce publication known := consistent.once known
  publishedVersion done isDone := consistent.known isDone
  currentVersion id row last found unpurged isLast := consistent.newest found unpurged isLast
  registryFixed id row registryId found bound operations :=
    (Keeps.run hub operations).registry id row registryId found bound
  stale operation id expected row expects found stale := step_stale expects found stale
  purgeIsLate skillId expected now after begun params same later restored :=
    not_restored_of_due begun same later restored
  purgeIsFinal id row found inPurge operations := by
    obtain ⟨new, there, still⟩ := (Keeps.run hub operations).purge id row found inPurge
    refine ⟨new, there, still, ?_⟩
    rintro params rfl restored
    exact not_restored_of_inPurge there still restored

/-- After any operations at any times, from any catalog through which nothing was published yet. -/
theorem skill_publications_are_orderly (catalog : Catalog) (operations : List CatalogOperation) :
    Orderly (machine.run (opening catalog) operations) :=
  orderly_of_consistent ((Consistent.opening catalog).run operations)

end SkillHub

end PlatformClaw.Skills
