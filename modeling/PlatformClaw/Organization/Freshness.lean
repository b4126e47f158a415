import PlatformClaw.Organization.Provenance

/-! # Freshness of directory facts

The time a directory fact is from never goes back, neither that of a scope nor
that of an employee's source, and a login that brings older facts about a scope
does not touch it.
-/

namespace PlatformClaw.Organization

open Except (bind_ok_iff)

namespace OrganizationDatabase

variable {db middle after : OrganizationDatabase} {lowerCase : String → String}
variable {sourceUpdatedAt syncedAt : Int}

/-- Scopes and sources are still there, and their times are no earlier. -/
structure NoOlder (db after : OrganizationDatabase) : Prop where
  scopes : ∀ id row, db.managedScopes.lookup id = some row → ∃ row', after.managedScopes.lookup id = some row' ∧
      ∀ time, row.directoryUpdatedAt = some time → ∃ later, row'.directoryUpdatedAt = some later ∧ time ≤ later
  sources : ∀ userId sync, db.directorySync.lookup userId = some sync →
    ∃ sync', after.directorySync.lookup userId = some sync' ∧ sync.sourceUpdatedAt ≤ sync'.sourceUpdatedAt

theorem NoOlder.refl (db : OrganizationDatabase) : db.NoOlder db where
  scopes := fun _ row found => ⟨row, found, fun time known => ⟨time, known, Int.le_refl time⟩⟩
  sources := fun _ sync found => ⟨sync, found, Int.le_refl _⟩

theorem NoOlder.trans (first : db.NoOlder middle) (second : middle.NoOlder after) : db.NoOlder after where
  scopes := by
    intro id row found
    obtain ⟨row', found', times⟩ := first.scopes id row found
    obtain ⟨row'', found'', times'⟩ := second.scopes id row' found'
    refine ⟨row'', found'', ?_⟩
    intro time known
    obtain ⟨later, known', le⟩ := times time known
    obtain ⟨latest, known'', le'⟩ := times' later known'
    exact ⟨latest, known'', Int.le_trans le le'⟩
  sources := by
    intro userId sync found
    obtain ⟨sync', found', le⟩ := first.sources userId sync found
    obtain ⟨sync'', found'', le'⟩ := second.sources userId sync' found'
    exact ⟨sync'', found'', Int.le_trans le le'⟩

theorem NoOlder.of_times (sources : after.directorySync = db.directorySync)
    (times : ∀ id row, db.managedScopes.lookup id = some row → ∃ row', after.managedScopes.lookup id = some row' ∧
        row'.directoryUpdatedAt = row.directoryUpdatedAt) : db.NoOlder after where
  scopes := by
    intro id row found
    obtain ⟨row', found', same⟩ := times id row found
    exact ⟨row', found', fun time known => ⟨time, same.trans known, Int.le_refl time⟩⟩
  sources := by
    intro userId sync found
    exact ⟨sync, sources ▸ found, Int.le_refl _⟩

theorem NoOlder.of_same (scopes : after.managedScopes = db.managedScopes)
    (sources : after.directorySync = db.directorySync) : db.NoOlder after :=
  .of_times sources fun _ row found => ⟨row, scopes ▸ found, rfl⟩

theorem synced_scopes {userId scopeId : String} {parsed : Except SkipReason DirectoryOrganization}
    {isTestAccount : Bool} {drawn : DrawnIds} {expectedLastLoginAt : Option Int}
    (done : db.syncDirectoryOrganization lowerCase userId parsed isTestAccount drawn syncedAt
      expectedLastLoginAt = .ok (.synced scopeId, after)) :
    ∃ org plans, parsed = .ok org ∧ db.Traced plans org.sourceUpdatedAt syncedAt after ∧
      db.firstObjection org.sourceUpdatedAt plans = .ok none ∧
      (∀ sync, db.directorySync.lookup userId = some sync → sync.sourceUpdatedAt ≤ org.sourceUpdatedAt) ∧
      ∀ user, after.directorySync.lookup user =
        if userId = user then some { userId, scopeId, sourceUpdatedAt := org.sourceUpdatedAt }
        else db.directorySync.lookup user := by
  rcases syncDirectoryOrganization_ok done with
    ⟨reason, same, -⟩ | ⟨org, plans, partPlan, read, same, checked, committed⟩
  · cases same
  cases same
  obtain ⟨written, joined, wrote, moved, rfl⟩ := commitDirectoryOrganization_ok committed
  obtain ⟨traced, scopes, rfl⟩ := writeDirectoryScopes_ok (Traced.refl (plans ++ [partPlan]))
    (fun plan listed => ⟨listed, checked.fits plan listed⟩) wrote
  obtain ⟨memberships, rfl, -⟩ := joinNewSource_ok moved
  exact ⟨org, plans ++ [partPlan], read, traced, checked.clear, checked.fresh,
    lookup_recordSource _ userId partPlan.id org.sourceUpdatedAt⟩

theorem ScopePlan.le_applied (plan : ScopePlan) (normalizedName : String)
    {row : DirectoryScopeRow} {time : Int} (known : row.directoryUpdatedAt = some time) :
    ∃ later, (plan.applied normalizedName sourceUpdatedAt syncedAt row).directoryUpdatedAt = some later ∧
      time ≤ later := by
  refine ⟨max sourceUpdatedAt time, ?_, Int.le_max_right _ _⟩
  simp [ScopePlan.applied, known]

theorem NoOlder.syncDirectoryOrganization {userId : String}
    {parsed : Except SkipReason DirectoryOrganization} {isTestAccount : Bool} {drawn : DrawnIds}
    {expectedLastLoginAt : Option Int} {result : DirectoryOrganizationSyncResult}
    (done : db.syncDirectoryOrganization lowerCase userId parsed isTestAccount drawn syncedAt
      expectedLastLoginAt = .ok (result, after)) : db.NoOlder after := by
  cases result with
  | skipped reason =>
    rcases syncDirectoryOrganization_ok done with ⟨-, -, rfl⟩ | ⟨_, _, _, -, impossible, -⟩
    · exact .refl _
    · cases impossible
  | synced scopeId =>
    obtain ⟨org, plans, -, traced, -, fresh, sources⟩ := synced_scopes done
    constructor
    · intro id row found
      obtain ⟨row', found', rfl | ⟨plan, -, -, -, normalizedName, rfl⟩⟩ := traced id row found
      · exact ⟨_, found', fun time known => ⟨time, known, Int.le_refl time⟩⟩
      · exact ⟨_, found', fun time known => ScopePlan.le_applied plan normalizedName known⟩
    · intro user sync found
      rw [sources]
      split
      · rename_i same
        exact ⟨_, rfl, fresh sync (same ▸ found)⟩
      · exact ⟨sync, found, Int.le_refl _⟩

theorem lookup_of_older_sync {userId : String} {org : DirectoryOrganization} {isTestAccount : Bool}
    {drawn : DrawnIds} {expectedLastLoginAt : Option Int} {result : DirectoryOrganizationSyncResult}
    (done : db.syncDirectoryOrganization lowerCase userId (.ok org) isTestAccount drawn syncedAt
      expectedLastLoginAt = .ok (result, after))
    {id : String} {row : DirectoryScopeRow} {time : Int}
    (found : db.managedScopes.lookup id = some row) (known : row.directoryUpdatedAt = some time)
    (older : org.sourceUpdatedAt < time) : after.managedScopes.lookup id = some row := by
  cases result with
  | skipped reason =>
    rcases syncDirectoryOrganization_ok done with ⟨-, -, rfl⟩ | ⟨_, _, _, -, impossible, -⟩
    · exact found
    · cases impossible
  | synced scopeId =>
    obtain ⟨org', plans, read, traced, clear, -⟩ := synced_scopes done
    cases read
    obtain ⟨row', found', rfl | ⟨plan, listed, existing, wanted, -⟩⟩ := traced id row found
    · exact found'
    · -- A plan that wants something else of this row was objected to as stale.
      rcases wanted with changes | newer
      · have le := (firstObjection_none clear plan listed row existing).2 changes time known
        omega
      · rw [known, Option.getD_some] at newer
        omega

theorem NoOlder.execute {operation : OrganizationOperation}
    (done : db.execute lowerCase operation = .ok after) : db.NoOlder after := by
  cases operation with
  | upsertPrincipal account =>
    simp only [OrganizationDatabase.execute, upsertPrincipal, bind_ok_iff, Except.pure_ok_iff] at done
    obtain ⟨-, -, rfl⟩ := done
    exact .of_same rfl rfl
  | setUserGlobalRole userId globalRole =>
    cases done
    exact .of_same rfl rfl
  | setManagedUserStatus userId status =>
    cases done
    exact .of_same rfl rfl
  | createManagedScope actorUserId kind name parentScopeId uuid createdAt =>
    simp only [OrganizationDatabase.execute, Except.map_ok_iff] at done
    obtain ⟨⟨row, created⟩, made, rfl⟩ := done
    obtain ⟨-, -, scopes, inserted, rfl⟩ := insertScope_ok (createManagedScope_ok made).1
    refine .of_times rfl ?_
    intro id old found
    have apart : row.id ≠ id := by
      intro same
      have absent : db.managedScopes.lookup row.id = none := Table.insert?_absent inserted
      rw [same, found] at absent
      cases absent
    exact ⟨old, ((Table.lookup_insert? inserted id).trans (if_neg apart)).trans found, rfl⟩
  | renameManagedScope actorUserId scopeId expectedRevision name reason changedAt =>
    obtain ⟨scope, found, -, name, normalizedName, updatedAt, rfl⟩ := renameManagedScope_ok done
    have same := scope_id found
    refine .of_times rfl ?_
    intro id old foundOld
    have lookups := lookup_setScope
      { scope with name := name, normalizedName := normalizedName, updatedAt := updatedAt }
      (same ▸ found) id
    by_cases here : scope.id = id
    · rw [← here, same, found] at foundOld
      cases foundOld
      exact ⟨_, lookups.trans (if_pos here), rfl⟩
    · exact ⟨old, (lookups.trans (if_neg here)).trans foundOld, rfl⟩
  | archiveManagedScope actorUserId scopeId expectedRevision reason archivedAt =>
    obtain ⟨scope, -, rfl | ⟨ids, -, rfl⟩⟩ := archiveManagedScope_ok done
    · exact .refl _
    · refine .of_times rfl ?_
      intro id old found
      obtain ⟨revision, looked⟩ := lookup_archiveScopes db (scope.id :: ids) archivedAt id
      rw [found, Option.map_some] at looked
      refine ⟨_, looked, ?_⟩
      split <;> rfl
  | setManagedScopeMembership actorUserId scopeId userId role expectedRole reason changedAt =>
    obtain ⟨assigned, ⟨-, rfl⟩ | ⟨-, inserted⟩, rfl⟩ := setManagedScopeMembership_ok done
    · exact .of_same rfl rfl
    · obtain ⟨memberships, -, rfl⟩ := insertMembership_ok inserted
      exact .of_same rfl rfl
  | removeManagedScopeMembership actorUserId scopeId userId expectedRole reason =>
    rw [removeManagedScopeMembership_ok done]
    exact .of_same rfl rfl
  | setUserPrimaryScope actorUserId userId scopeId changedAt =>
    rcases setUserPrimaryScope_ok done with rfl | ⟨scope, -, -, -, rfl⟩
    · exact .of_same rfl rfl
    · exact .of_same rfl rfl
  | submitOrganizationJoinRequest requestId userId scopeId reason =>
    obtain ⟨-, -, id, requests, -, rfl⟩ := submitOrganizationJoinRequest_ok done
    exact .of_same rfl rfl
  | decideOrganizationJoinRequest actorUserId requestId decision reason decidedAt =>
    obtain ⟨request, -, -, ⟨-, rfl⟩ | ⟨-, rfl⟩⟩ := decideOrganizationJoinRequest_ok done
    · exact .of_same rfl rfl
    · exact .of_same rfl rfl
  | cancelOrganizationJoinRequest actorUserId requestId reason =>
    obtain ⟨request, -, rfl⟩ := cancelOrganizationJoinRequest_ok done
    exact .of_same rfl rfl
  | syncDirectoryOrganization userId parsed isTestAccount drawn syncedAt expectedLastLoginAt =>
    simp only [OrganizationDatabase.execute, Except.map_ok_iff] at done
    obtain ⟨⟨result, synced⟩, made, rfl⟩ := done
    exact .syncDirectoryOrganization made

theorem NoOlder.step (lowerCase : String → String) (db : OrganizationDatabase) (operation : OrganizationOperation) :
    db.NoOlder ((organizationMachine lowerCase).step db operation) := by
  simp only [organizationMachine]
  cases done : db.execute lowerCase operation with
  | error failure => exact .refl db
  | ok changed => exact .execute done

theorem NoOlder.run (lowerCase : String → String) (db : OrganizationDatabase)
    (operations : List OrganizationOperation) :
    db.NoOlder ((organizationMachine lowerCase).run db operations) :=
  Machine.run_related NoOlder.refl NoOlder.trans (NoOlder.step lowerCase) db operations

/-- Over every run the times of scopes and sources never decrease; a sync with older facts
    about a scope leaves its row alone, and a skipped sync leaves everything. -/
theorem freshness_of_run (lowerCase : String → String) (db : OrganizationDatabase)
    (operations : List OrganizationOperation) :
    let after := (organizationMachine lowerCase).run db operations
    (∀ id row time, db.managedScopes.lookup id = some row → row.directoryUpdatedAt = some time →
        ∃ row' later, after.managedScopes.lookup id = some row' ∧
          row'.directoryUpdatedAt = some later ∧ time ≤ later) ∧
      (∀ userId sync, db.directorySync.lookup userId = some sync →
        ∃ sync', after.directorySync.lookup userId = some sync' ∧ sync.sourceUpdatedAt ≤ sync'.sourceUpdatedAt) ∧
      ∀ userId parsed isTestAccount drawn syncedAt expectedLastLoginAt result synced,
        after.syncDirectoryOrganization lowerCase userId parsed isTestAccount drawn syncedAt
            expectedLastLoginAt = .ok (result, synced) →
          (∀ org id row time, parsed = .ok org → after.managedScopes.lookup id = some row →
            row.directoryUpdatedAt = some time → org.sourceUpdatedAt < time →
            ∃ row', synced.managedScopes.lookup id = some row' ∧ row'.name = row.name ∧
              row'.parentScopeId = row.parentScopeId) ∧
          (∀ reason, result = .skipped reason → synced = after) := by
  intro after
  have run : db.NoOlder after := .run lowerCase db operations
  refine ⟨?_, run.sources, ?_⟩
  · intro id row time found known
    obtain ⟨row', found', times⟩ := run.scopes id row found
    obtain ⟨later, known', le⟩ := times time known
    exact ⟨row', later, found', known', le⟩
  · intro userId parsed isTestAccount drawn syncedAt expectedLastLoginAt result synced done
    constructor
    · intro org id row time read found known older
      subst read
      exact ⟨row, lookup_of_older_sync done found known older, rfl, rfl⟩
    · intro reason same
      subst same
      rcases syncDirectoryOrganization_ok done with ⟨-, -, rfl⟩ | ⟨_, _, _, -, impossible, -⟩
      · rfl
      · cases impossible

end OrganizationDatabase

end PlatformClaw.Organization
