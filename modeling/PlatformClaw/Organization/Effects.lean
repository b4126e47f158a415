import PlatformClaw.Organization.DirectorySync

/-! # What an accepted operation does

For each operation of the organization database, what an accepted call has
checked and which tables it leaves changed. The invariants are proved from these
lemmas and do not look at the operations again.
-/

namespace PlatformClaw.Organization

open Except (bind_ok_iff)
open ParentWalk (Ancestry)

namespace OrganizationDatabase

variable {db after : OrganizationDatabase}

theorem requireScopeRow_ok {scopeId : String} {row : DirectoryScopeRow} :
    db.requireScopeRow scopeId = .ok row ↔ db.managedScopes.lookup scopeId = some row := by
  simp [requireScopeRow]

theorem requireUserRow_ok {userId : String} {row : AccountRow} :
    db.requireUserRow userId = .ok row ↔ db.platformUsers.lookup userId = some row := by
  simp [requireUserRow]

theorem scope_id {id : String} {row : DirectoryScopeRow}
    (found : db.managedScopes.lookup id = some row) : row.id = id :=
  (Table.lookup_eq_some_iff.mp found).2

theorem lineageRows_ok {fuel : Nat} {seen : List String} {collected lineage : List DirectoryScopeRow}
    {scope : DirectoryScopeRow} (read : db.lineageRows fuel seen collected scope = .ok lineage) :
    ∃ rest, lineage = collected ++ rest ∧ Ancestry (truthy ·.parentScopeId) db.managedScopes.lookup scope rest := by
  induction fuel generalizing seen collected scope with
  | zero => simp [lineageRows] at read
  | succ fuel ih =>
    simp only [lineageRows, bind_ok_iff] at read
    obtain ⟨-, -, next⟩ := read
    cases named : truthy scope.parentScopeId with
    | none =>
      simp only [named, Except.pure_ok_iff] at next
      exact ⟨[scope], next.symm, .root named⟩
    | some parentId =>
      simp only [named, bind_ok_iff, requireScopeRow_ok] at next
      obtain ⟨parent, found, walked⟩ := next
      obtain ⟨rest, same, chain⟩ := ih walked
      exact ⟨scope :: rest, by simp [same], .child named found chain⟩

theorem scopeLineageRows_ok {scope : DirectoryScopeRow} {lineage : List DirectoryScopeRow}
    (read : db.scopeLineageRows scope = .ok lineage) :
    Ancestry (truthy ·.parentScopeId) db.managedScopes.lookup scope lineage := by
  obtain ⟨rest, same, chain⟩ := lineageRows_ok read
  rwa [same]

def HasActiveScope (db : OrganizationDatabase) (id : String) : Prop :=
  ∃ row, db.managedScopes.lookup id = some row ∧ row.status = .active

theorem insertScope_ok {row : DirectoryScopeRow} (done : db.insertScope row = .ok after) :
    db.placementAllowed row = true ∧ db.uniqueAmong row = true ∧
      ∃ scopes, db.managedScopes.insert? row = some scopes ∧ after = { db with managedScopes := scopes } := by
  simp only [insertScope, bind_ok_iff, Except.ensure_ok_iff, Except.orThrow_ok_iff, Except.pure_ok_iff] at done
  obtain ⟨-, ⟨placed, unique⟩, scopes, inserted, rfl⟩ := done
  exact ⟨placed, unique, scopes, inserted, rfl⟩

theorem moveScope_ok {row : DirectoryScopeRow} (done : db.moveScope row = .ok after) :
    db.placementAllowed row = true ∧ db.uniqueAmong row = true ∧ after = db.setScope row := by
  simp only [moveScope, bind_ok_iff, Except.ensure_ok_iff, Except.pure_ok_iff] at done
  obtain ⟨-, ⟨placed, unique⟩, rfl⟩ := done
  exact ⟨placed, unique, rfl⟩

theorem lookup_setScope (row : DirectoryScopeRow) {current : DirectoryScopeRow}
    (found : db.managedScopes.lookup row.id = some current) (id : String) :
    (db.setScope row).managedScopes.lookup id =
      if row.id = id then some row else db.managedScopes.lookup id := by
  simp only [setScope, Table.lookup_update]
  by_cases same : row.id = id
  · subst same
    have keyed : current.id = row.id := scope_id found
    simp [found, keyed]
  · rw [if_neg same]
    cases other : db.managedScopes.lookup id with
    | none => rfl
    | some old =>
      have apart : old.id ≠ row.id := fun clash => same (clash.symm.trans (scope_id other))
      simp [apart]

theorem mem_setScope {row current other : DirectoryScopeRow} (found : db.managedScopes.lookup row.id = some current) :
    other ∈ (db.setScope row).managedScopes ↔ other = row ∨ (other ∈ db.managedScopes ∧ other.id ≠ row.id) := by
  have here := lookup_setScope row found other.id
  constructor
  · intro inTable
    rw [Table.lookup_key inTable] at here
    split at here
    · exact .inl (Option.some.inj here)
    · rename_i apart
      exact .inr ⟨(Table.lookup_eq_some_iff.mp here.symm).1, Ne.symm apart⟩
  · intro which
    have there : (db.setScope row).managedScopes.lookup other.id = some other := by
      rw [here]
      cases which with
      | inl same => rw [same, if_pos rfl]
      | inr old => rw [if_neg (Ne.symm old.2), Table.lookup_key old.1]
    exact (Table.lookup_eq_some_iff.mp there).1

theorem createManagedScope_ok {lowerCase : String → String} {actorUserId name uuid : String}
    {kind : ScopeKind} {parentScopeId : Option String} {createdAt : Int} {row : DirectoryScopeRow}
    (done : db.createManagedScope lowerCase actorUserId kind name parentScopeId uuid createdAt = .ok (row, after)) :
    db.insertScope row = .ok after ∧ row.id = nextManagedScopeId uuid ∧ row.status = .active ∧
      row.externalKey = none ∧ row.managedBy = none ∧
      ∀ parentId, row.parentScopeId = some parentId → db.HasActiveScope parentId := by
  simp only [createManagedScope, bind_ok_iff, Except.pure_ok_iff, Prod.mk.injEq] at done
  obtain ⟨-, -, name, -, parentId, placed, normalizedName, -, -, -, created, inserted, rfl, rfl⟩ :=
    done
  refine ⟨inserted, rfl, rfl, rfl, rfl, ?_⟩
  intro parent named
  cases kind with
  | team =>
    simp only [parentForNewScope, bind_ok_iff, Except.pure_ok_iff] at placed
    obtain ⟨-, -, rfl⟩ := placed
    cases named
  | group =>
    simp only [parentForNewScope, bind_ok_iff, Except.pure_ok_iff, Except.ensure_ok_iff, requireScopeRow_ok] at placed
    obtain ⟨_, -, above, found, -, ⟨-, active⟩, -, -, -, -, rfl⟩ := placed
    cases named
    exact ⟨above, found, active⟩
  | part =>
    simp only [parentForNewScope, bind_ok_iff, Except.pure_ok_iff, Except.ensure_ok_iff, requireScopeRow_ok] at placed
    obtain ⟨_, -, above, found, -, ⟨-, active⟩, -, -, -, -, rfl⟩ := placed
    cases named
    exact ⟨above, found, active⟩

theorem renameManagedScope_ok {lowerCase : String → String} {actorUserId scopeId name reason : String}
    {expectedRevision : Option Int} {changedAt : Int}
    (done : db.renameManagedScope lowerCase actorUserId scopeId expectedRevision name reason changedAt = .ok after) :
    ∃ scope, db.managedScopes.lookup scopeId = some scope ∧ scope.managedBy = none ∧
      ∃ name normalizedName updatedAt, after = db.setScope
        { scope with name := name, normalizedName := normalizedName, updatedAt := updatedAt } := by
  simp only [renameManagedScope, bind_ok_iff, Except.ensure_ok_iff, requireScopeRow_ok,
    renameScope, Except.pure_ok_iff] at done
  obtain ⟨-, -, scope, found, -, manual, -, -, -, -, name, -, -, -, normalizedName, -, -, -, -, -,
    rfl⟩ := done
  exact ⟨scope, found, manual, _, _, _, rfl⟩

theorem descendantIds_ok {scopeId : String} {rows : List DirectoryScopeRow} {ids : List String}
    (read : db.descendantIds scopeId rows = .ok ids) :
    ∀ candidate ∈ rows, candidate.id ≠ scopeId →
      ∃ lineage, Ancestry (truthy ·.parentScopeId) db.managedScopes.lookup candidate lineage ∧
        (candidate.id ∈ ids ∨ ∀ ancestor ∈ lineage, ancestor.id ≠ scopeId) := by
  induction rows generalizing ids with
  | nil => simp
  | cons first rest ih =>
    intro candidate listed different
    simp only [descendantIds] at read
    by_cases same : first.id = scopeId
    · rw [if_pos same] at read
      cases List.mem_cons.mp listed with
      | inl here => exact absurd (here ▸ same) different
      | inr later => exact ih read candidate later different
    · simp only [if_neg same, bind_ok_iff, Except.pure_ok_iff] at read
      obtain ⟨lineage, walked, later, laterRead, rfl⟩ := read
      cases List.mem_cons.mp listed with
      | inl here =>
        cases here
        refine ⟨lineage, scopeLineageRows_ok walked, ?_⟩
        by_cases passes : lineage.any (fun ancestor => ancestor.id = scopeId) = true
        · exact .inl (by rw [if_pos passes]; exact List.mem_cons_self)
        · exact .inr (by simpa using passes)
      | inr behind =>
        obtain ⟨own, chain, placed⟩ := ih laterRead candidate behind different
        refine ⟨own, chain, placed.imp_left fun inLater => ?_⟩
        split
        · exact List.mem_cons_of_mem _ inLater
        · exact inLater

theorem descendantIds_mem {scopeId id : String} {rows : List DirectoryScopeRow} {ids : List String}
    (read : db.descendantIds scopeId rows = .ok ids) (listed : id ∈ ids) :
    ∃ candidate ∈ rows, candidate.id = id ∧ ∃ lineage,
      Ancestry (truthy ·.parentScopeId) db.managedScopes.lookup candidate lineage ∧
        ∃ ancestor ∈ lineage, ancestor.id = scopeId := by
  induction rows generalizing ids with
  | nil =>
    simp only [descendantIds, Except.pure_ok_iff] at read
    rw [← read] at listed
    cases listed
  | cons first rest ih =>
    have later : ∀ later, db.descendantIds scopeId rest = .ok later → id ∈ later →
        ∃ candidate ∈ first :: rest, candidate.id = id ∧ ∃ lineage,
          Ancestry (truthy ·.parentScopeId) db.managedScopes.lookup candidate lineage ∧
            ∃ ancestor ∈ lineage, ancestor.id = scopeId := by
      intro later laterRead inLater
      obtain ⟨candidate, behind, found⟩ := ih laterRead inLater
      exact ⟨candidate, List.mem_cons_of_mem _ behind, found⟩
    simp only [descendantIds] at read
    by_cases same : first.id = scopeId
    · rw [if_pos same] at read
      exact later ids read listed
    · simp only [if_neg same, bind_ok_iff, Except.pure_ok_iff] at read
      obtain ⟨lineage, walked, rows, laterRead, rfl⟩ := read
      split at listed
      · rename_i passes
        cases List.mem_cons.mp listed with
        | inl here =>
          exact ⟨first, List.mem_cons_self, here.symm, lineage, scopeLineageRows_ok walked, by simpa using passes⟩
        | inr behind => exact later rows laterRead behind
      · exact later rows laterRead listed

theorem archiveManagedScope_ok {actorUserId scopeId reason : String} {expectedRevision : Option Int}
    {archivedAt : Int}
    (done : db.archiveManagedScope actorUserId scopeId expectedRevision reason archivedAt = .ok after) :
    ∃ scope, db.managedScopes.lookup scopeId = some scope ∧
      (after = db ∨ ∃ ids, db.descendantIds scope.id db.managedScopes.rows = .ok ids ∧
        after = db.archiveScopes (scope.id :: ids) archivedAt) := by
  simp only [archiveManagedScope, bind_ok_iff, requireScopeRow_ok] at done
  obtain ⟨-, -, scope, found, -, -, -, -, -, -, rest⟩ := done
  refine ⟨scope, found, ?_⟩
  split at rest
  · exact .inl (Except.pure_ok_iff.mp rest).symm
  · simp only [bind_ok_iff, Except.pure_ok_iff] at rest
    obtain ⟨ids, read, rfl⟩ := rest
    exact .inr ⟨ids, read, rfl⟩

theorem archiveScopes_managedScopes (db : OrganizationDatabase) (ids : List String) (archivedAt : Int) :
    ∃ revision : Int, (db.archiveScopes ids archivedAt).managedScopes =
      db.managedScopes.update (fun row => row.id ∈ ids)
        (fun row => { row with status := .archived, updatedAt := revision }) fun _ => rfl :=
  ⟨_, rfl⟩

theorem lookup_archiveScopes (db : OrganizationDatabase) (ids : List String) (archivedAt : Int) (id : String) :
    ∃ revision : Int, (db.archiveScopes ids archivedAt).managedScopes.lookup id =
      (db.managedScopes.lookup id).map fun row =>
        if row.id ∈ ids then { row with status := .archived, updatedAt := revision } else row := by
  obtain ⟨revision, same⟩ := archiveScopes_managedScopes db ids archivedAt
  refine ⟨revision, ?_⟩
  rw [same, Table.lookup_update]
  simp

/-- The membership a manual assignment leaves. -/
def assignRole (role : ScopeRole) (changedAt : Int) (row : MembershipRow) : MembershipRow :=
  { row with role, manualRole := row.managedBy.map fun _ => role, updatedAt := changedAt }

def manualMembership (scopeId userId : String) (role : ScopeRole) (changedAt : Int) : MembershipRow where
  scopeId := scopeId
  userId := userId
  role := role
  managedBy := none
  manualRole := none
  createdAt := changedAt
  updatedAt := changedAt

theorem insertMembership_ok {row : MembershipRow} (done : db.insertMembership row = .ok after) :
    ∃ memberships, db.memberships.insert? row = some memberships ∧
      after = { db with memberships := memberships } := by
  simp only [insertMembership, bind_ok_iff, Except.orThrow_ok_iff, Except.pure_ok_iff] at done
  obtain ⟨memberships, inserted, rfl⟩ := done
  exact ⟨memberships, inserted, rfl⟩

theorem setManagedScopeMembership_ok {actorUserId scopeId userId reason : String} {role : ScopeRole}
    {expectedRole : Option (Option ScopeRole)} {changedAt : Int}
    (done : db.setManagedScopeMembership actorUserId scopeId userId role expectedRole reason changedAt = .ok after) :
    ∃ assigned : OrganizationDatabase, (((db.selectMembership scopeId userId).isSome = true ∧
          assigned = db.updateMembership scopeId userId (assignRole role changedAt) fun _ => rfl) ∨
        ((db.selectMembership scopeId userId).isSome = false ∧
          db.insertMembership (manualMembership scopeId userId role changedAt) = .ok assigned)) ∧
      after = assigned.decidePendingRequests
        (fun request => request.userId = userId ∧ request.scopeId = scopeId) .approved := by
  simp only [setManagedScopeMembership, bind_ok_iff, requireScopeRow_ok, Except.pure_ok_iff] at done
  obtain ⟨-, -, scope, found, -, -, -, -, -, -, -, -, -, -, -, -, -, -, -, -, -, -, assigned, written,
    rfl⟩ := done
  have same := scope_id found
  rw [same] at written ⊢
  refine ⟨assigned, ?_, rfl⟩
  unfold assignMembership at written
  by_cases existing : (db.selectMembership scopeId userId).isSome = true
  · rw [if_pos existing] at written
    exact .inl ⟨existing, (Except.ok.inj written).symm⟩
  · rw [if_neg existing] at written
    exact .inr ⟨by simpa using existing, written⟩

theorem removeManagedScopeMembership_ok {actorUserId scopeId userId reason : String}
    {expectedRole : Option (Option ScopeRole)}
    (done : db.removeManagedScopeMembership actorUserId scopeId userId expectedRole reason = .ok after) :
    after = db.deleteMembership scopeId userId := by
  simp only [removeManagedScopeMembership, bind_ok_iff, requireScopeRow_ok, Except.pure_ok_iff] at done
  obtain ⟨-, -, scope, found, -, -, -, -, -, -, -, -, -, -, -, -, -, -, rfl⟩ := done
  rw [scope_id found]

theorem setUserPrimaryScope_ok {actorUserId userId : String} {scopeId : Option String}
    {changedAt : Int}
    (done : db.setUserPrimaryScope actorUserId userId scopeId changedAt = .ok after) :
    after = { db with
        primaryMemberships := db.primaryMemberships.delete fun row => row.userId = userId } ∨
      ∃ scope, db.managedScopes.lookup scope.id = some scope ∧ scope.status = .active ∧
        (db.selectMembership scope.id userId).isSome = true ∧
        after = { db with
          primaryMemberships := db.primaryMemberships.upsert
            { userId, scopeId := scope.id, updatedAt := changedAt }
            (fun row => { row with scopeId := scope.id, updatedAt := changedAt }) fun _ => rfl } := by
  simp only [setUserPrimaryScope, bind_ok_iff] at done
  obtain ⟨-, -, -, -, -, -, -, -, rest⟩ := done
  cases named : truthy scopeId with
  | none =>
    simp only [named, Except.pure_ok_iff] at rest
    exact .inl rest.symm
  | some id =>
    simp only [named, bind_ok_iff, requireScopeRow_ok, Except.ensure_ok_iff, Except.pure_ok_iff] at rest
    obtain ⟨scope, found, -, -, -, ⟨active, -, member⟩, rfl⟩ := rest
    rw [← scope_id found] at found
    exact .inr ⟨scope, found, active, member, rfl⟩

theorem submitOrganizationJoinRequest_ok {requestId userId scopeId reason : String}
    (done : db.submitOrganizationJoinRequest requestId userId scopeId reason = .ok after) :
    db.selectMembership scopeId userId = none ∧ db.hasPendingRequest userId scopeId = false ∧
      ∃ id requests, db.joinRequests.insert?
          { id := id, userId := userId, scopeId := scopeId, status := .pending } = some requests ∧
        after = { db with joinRequests := requests } := by
  simp only [submitOrganizationJoinRequest, bind_ok_iff, requireUserRow_ok, requireScopeRow_ok,
    Except.orThrow_ok_iff, Except.ensure_ok_iff, Except.pure_ok_iff] at done
  obtain ⟨user, foundUser, scope, foundScope, -, -, -, -, -, absent, -, new, -, -, id, -, requests,
    inserted, -, -, rfl⟩ := done
  have sameUser : user.id = userId := (Table.lookup_eq_some_iff.mp foundUser).2
  rw [sameUser, scope_id foundScope] at absent new inserted
  exact ⟨absent, new, id, requests, inserted, rfl⟩

theorem decideOrganizationJoinRequest_ok {actorUserId requestId reason : String}
    {decision : ReviewDecision} {decidedAt : Int}
    (done : db.decideOrganizationJoinRequest actorUserId requestId decision reason decidedAt = .ok after) :
    ∃ request, db.joinRequests.lookup requestId = some request ∧ request.status = .pending ∧ ((decision = .approved ∧
          after = { db with
            memberships := (db.memberships.insert? (manualMembership request.scopeId request.userId
              .member decidedAt)).getD db.memberships }.setRequestStatus requestId .approved) ∨
        (decision = .rejected ∧ after = db.setRequestStatus requestId .rejected)) := by
  simp only [decideOrganizationJoinRequest, bind_ok_iff, requireScopeRow_ok,
    Except.orThrow_ok_iff, Except.ensure_ok_iff] at done
  obtain ⟨-, -, request, found, scope, foundScope, -, -, -, -, -, pending, -, -, -, -, rest⟩ := done
  have sameId : request.id = requestId := (Table.lookup_eq_some_iff.mp found).2
  refine ⟨request, found, pending, ?_⟩
  cases decision with
  | approved =>
    simp only [bind_ok_iff, requireUserRow_ok, Except.pure_ok_iff] at rest
    obtain ⟨target, foundTarget, -, -, rfl⟩ := rest
    have sameUser : target.id = request.userId := (Table.lookup_eq_some_iff.mp foundTarget).2
    rw [sameUser, scope_id foundScope, sameId]
    exact .inl ⟨rfl, rfl⟩
  | rejected =>
    simp only [Except.pure_ok_iff] at rest
    rw [sameId] at rest
    exact .inr ⟨rfl, rest.symm⟩

theorem cancelOrganizationJoinRequest_ok {actorUserId requestId reason : String}
    (done : db.cancelOrganizationJoinRequest actorUserId requestId reason = .ok after) :
    ∃ request, db.joinRequests.lookup requestId = some request ∧
      after = db.setRequestStatus requestId .cancelled := by
  simp only [cancelOrganizationJoinRequest, bind_ok_iff, Except.orThrow_ok_iff, Except.pure_ok_iff] at done
  obtain ⟨-, -, -, -, request, found, -, -, -, -, -, -, rfl⟩ := done
  have sameId : request.id = requestId := (Table.lookup_eq_some_iff.mp found).2
  rw [sameId]
  exact ⟨request, found, rfl⟩

end OrganizationDatabase

end PlatformClaw.Organization
