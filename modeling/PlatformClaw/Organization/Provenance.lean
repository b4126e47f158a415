import PlatformClaw.Organization.SyncEffects

/-! # Provenance of memberships

Where a membership came from is spread over three columns, a directory source
for each user, and the join requests. What an accepted operation does to all of
them is said once, one case for each kind of writer, and the invariants and the
life of a manual role are read off those cases.
-/

namespace PlatformClaw.Organization

open Except (bind_ok_iff)

namespace OrganizationDatabase

variable {db after : OrganizationDatabase} {lowerCase : String → String}

def IsPending (db : OrganizationDatabase) (request : JoinRequestRow) : Prop :=
  request ∈ db.joinRequests ∧ request.status = .pending

def PendingLess (db after : OrganizationDatabase) (decided : JoinRequestRow → Prop) : Prop :=
  ∀ request, after.IsPending request → db.IsPending request ∧ ¬decided request

def assignedMembership (scopeId userId : String) (role : ScopeRole) (changedAt : Int) :
    Option MembershipRow → MembershipRow
  | some row => assignRole role changedAt row
  | none => manualMembership scopeId userId role changedAt

def MembershipAt (db after : OrganizationDatabase) (scopeId userId : String)
    (membership : Option MembershipRow) : Prop :=
  ∀ scope user, after.selectMembership scope user =
    if scope = scopeId ∧ user = userId then membership else db.selectMembership scope user

/-- What an accepted operation does to memberships, sources and requests. -/
inductive MembershipEffect (db after : OrganizationDatabase) : OrganizationOperation → Prop where
  | unchanged {operation : OrganizationOperation}
      (memberships : after.memberships = db.memberships)
      (sources : after.directorySync = db.directorySync)
      (pending : db.PendingLess after fun _ => False) : MembershipEffect db after operation
  | submitted {requestId userId scopeId reason id : String}
      (memberships : after.memberships = db.memberships)
      (sources : after.directorySync = db.directorySync)
      (absent : db.selectMembership scopeId userId = none)
      (new : ∀ request, db.IsPending request → ¬(request.userId = userId ∧ request.scopeId = scopeId))
      (pending : ∀ request, after.IsPending request →
        db.IsPending request ∨ request = { id, userId, scopeId, status := .pending }) :
      MembershipEffect db after (.submitOrganizationJoinRequest requestId userId scopeId reason)
  | assigned {actorUserId scopeId userId reason : String} {role : ScopeRole}
      {expectedRole : Option (Option ScopeRole)} {changedAt : Int}
      (sources : after.directorySync = db.directorySync)
      (membership : db.MembershipAt after scopeId userId
        (some (assignedMembership scopeId userId role changedAt (db.selectMembership scopeId userId))))
      (pending : db.PendingLess after fun request => request.userId = userId ∧ request.scopeId = scopeId) :
      MembershipEffect db after
        (.setManagedScopeMembership actorUserId scopeId userId role expectedRole reason changedAt)
  | removed {actorUserId scopeId userId reason : String} {expectedRole : Option (Option ScopeRole)}
      (sources : after.directorySync = db.directorySync)
      (membership : db.MembershipAt after scopeId userId none)
      (pending : db.PendingLess after fun _ => False) :
      MembershipEffect db after (.removeManagedScopeMembership actorUserId scopeId userId expectedRole reason)
  | approved {actorUserId requestId reason : String} {decidedAt : Int} {request : JoinRequestRow}
      (sources : after.directorySync = db.directorySync)
      (found : db.joinRequests.lookup requestId = some request)
      (waiting : request.status = .pending)
      (membership : db.MembershipAt after request.scopeId request.userId
        (some ((db.selectMembership request.scopeId request.userId).getD
          (manualMembership request.scopeId request.userId .member decidedAt))))
      (pending : db.PendingLess after fun other => other = request) :
      MembershipEffect db after (.decideOrganizationJoinRequest actorUserId requestId .approved reason decidedAt)
  | synced {userId : String} {parsed : Except SkipReason DirectoryOrganization}
      {isTestAccount : Bool} {drawn : DrawnIds} {syncedAt : Int} {expectedLastLoginAt : Option Int}
      {scopeId : String} {sourceUpdatedAt : Int}
      (sources : ∀ user, after.directorySync.lookup user =
        if userId = user then some { userId, scopeId, sourceUpdatedAt }
        else db.directorySync.lookup user)
      (membership : ∀ scope user, after.selectMembership scope user =
        if scope = scopeId ∧ user = userId then
          some (joinedMembership userId scopeId syncedAt (db.selectMembership scopeId userId))
        else (db.selectMembership scope user).bind (leftMembership userId scopeId syncedAt))
      (pending : db.PendingLess after fun request => request.userId = userId ∧ request.scopeId = scopeId) :
      MembershipEffect db after (.syncDirectoryOrganization userId parsed isTestAccount drawn
        syncedAt expectedLastLoginAt)

theorem PendingLess.of_same (same : after.joinRequests = db.joinRequests) : db.PendingLess after fun _ => False := by
  intro request ⟨inTable, pending⟩
  exact ⟨⟨same ▸ inTable, pending⟩, not_false⟩

theorem pendingLess_decidePendingRequests (concerned : JoinRequestRow → Bool)
    {status : JoinRequestStatus} (terminal : status ≠ .pending) :
    db.PendingLess (db.decidePendingRequests concerned status) fun request =>
      concerned request = true := by
  intro request ⟨inTable, pending⟩
  simp only [decidePendingRequests, Table.mem_update] at inTable
  obtain ⟨old, inOld, rfl⟩ := inTable
  by_cases decided : concerned old = true ∧ old.status = .pending
  · simp [decided, terminal] at pending
  · simp only [decided, decide_false, Bool.false_eq_true, if_false] at pending ⊢
    exact ⟨⟨inOld, pending⟩, fun concerns => decided ⟨concerns, pending⟩⟩

theorem pendingLess_setRequestStatus {requestId : String} {status : JoinRequestStatus}
    {request : JoinRequestRow} (found : db.joinRequests.lookup requestId = some request)
    (terminal : status ≠ .pending) :
    db.PendingLess (db.setRequestStatus requestId status) fun other => other = request := by
  intro other ⟨inTable, pending⟩
  simp only [setRequestStatus, Table.mem_update] at inTable
  obtain ⟨old, inOld, rfl⟩ := inTable
  by_cases same : old.id = requestId
  · simp [same, terminal] at pending
  · simp only [same, decide_false, Bool.false_eq_true, if_false] at pending ⊢
    refine ⟨⟨inOld, pending⟩, ?_⟩
    rintro rfl
    exact same (Table.lookup_eq_some_iff.mp found).2

theorem PendingLess.weaken {decided : JoinRequestRow → Prop} (less : db.PendingLess after decided) :
    db.PendingLess after fun _ => False :=
  fun request pending => ⟨(less request pending).1, not_false⟩

theorem hasPendingRequest_eq_false {userId scopeId : String}
    (none' : db.hasPendingRequest userId scopeId = false) (request : JoinRequestRow)
    (pending : db.IsPending request) : ¬(request.userId = userId ∧ request.scopeId = scopeId) := by
  intro same
  have any := List.any_eq_false.mp none' request pending.1
  simp [same, pending.2] at any

theorem membershipAt_updateMembership {scopeId userId : String} {row : MembershipRow}
    (change : MembershipRow → MembershipRow) (keeps : ∀ row, (change row).key = row.key)
    (found : db.selectMembership scopeId userId = some row) :
    db.MembershipAt (db.updateMembership scopeId userId change keeps) scopeId userId (some (change row)) := by
  intro scope user
  simp only [selectMembership, updateMembership, Table.lookup_update] at found ⊢
  split
  · rename_i same
    have keyed := (Table.lookup_eq_some_iff.mp found).2
    simp only [MembershipRow.key, Prod.mk.injEq] at keyed
    simp [same, found, keyed]
  · rename_i apart
    cases other : db.memberships.lookup (scope, user) with
    | none => rfl
    | some kept =>
      have keyed := (Table.lookup_eq_some_iff.mp other).2
      simp only [MembershipRow.key, Prod.mk.injEq] at keyed
      rw [← keyed.1, ← keyed.2] at apart
      simp [apart]

theorem membershipAt_insertMembership {row : MembershipRow} (done : db.insertMembership row = .ok after) :
    db.MembershipAt after row.scopeId row.userId (some row) := by
  obtain ⟨memberships, inserted, rfl⟩ := insertMembership_ok done
  intro scope user
  have lookups := Table.lookup_insert? inserted (scope, user)
  simp only [MembershipRow.key, Prod.mk.injEq] at lookups
  simp only [selectMembership, lookups, eq_comm]

theorem membershipAt_deleteMembership (scopeId userId : String) :
    db.MembershipAt (db.deleteMembership scopeId userId) scopeId userId none := by
  intro scope user
  simp only [selectMembership, OrganizationDatabase.deleteMembership, Table.lookup_delete]
  cases found : db.memberships.lookup (scope, user) with
  | none => simp
  | some row =>
    have keyed := (Table.lookup_eq_some_iff.mp found).2
    simp only [MembershipRow.key, Prod.mk.injEq] at keyed
    rw [← keyed.1, ← keyed.2]
    by_cases same : row.scopeId = scopeId ∧ row.userId = userId
    · simp [same]
    · simpa [same] using Decidable.not_and_iff_not_or_not.mp same

theorem setManagedScopeMembership_membershipAt {actorUserId scopeId userId reason : String}
    {role : ScopeRole} {expectedRole : Option (Option ScopeRole)} {changedAt : Int}
    (done : db.setManagedScopeMembership actorUserId scopeId userId role expectedRole reason changedAt = .ok after) :
    after.directorySync = db.directorySync ∧
      db.MembershipAt after scopeId userId (some (assignedMembership scopeId userId role changedAt
        (db.selectMembership scopeId userId))) ∧
      db.PendingLess after fun request => request.userId = userId ∧ request.scopeId = scopeId := by
  obtain ⟨assigned, how, rfl⟩ := setManagedScopeMembership_ok done
  have facts : assigned.directorySync = db.directorySync ∧ assigned.joinRequests = db.joinRequests ∧
      db.MembershipAt assigned scopeId userId (some (assignedMembership scopeId userId role changedAt
        (db.selectMembership scopeId userId))) := by
    rcases how with ⟨present, rfl⟩ | ⟨absent, inserted⟩
    · obtain ⟨row, found⟩ := Option.isSome_iff_exists.mp present
      refine ⟨rfl, rfl, ?_⟩
      rw [found]
      exact membershipAt_updateMembership _ _ found
    · obtain ⟨memberships, -, same⟩ := insertMembership_ok inserted
      refine ⟨by rw [same], by rw [same], ?_⟩
      have missing : db.selectMembership scopeId userId = none := by simpa using absent
      rw [missing]
      exact membershipAt_insertMembership inserted
  obtain ⟨sources, requests, membership⟩ := facts
  refine ⟨sources, membership, ?_⟩
  intro request pending
  obtain ⟨⟨inTable, stillPending⟩, others⟩ :=
    pendingLess_decidePendingRequests _ (by simp) request pending
  exact ⟨⟨requests ▸ inTable, stillPending⟩, by simpa using others⟩

theorem approveOrganizationJoinRequest_membershipAt {actorUserId requestId reason : String}
    {decidedAt : Int}
    (done : db.decideOrganizationJoinRequest actorUserId requestId .approved reason decidedAt = .ok after) :
    ∃ request, db.joinRequests.lookup requestId = some request ∧ request.status = .pending ∧
      after.directorySync = db.directorySync ∧
      db.MembershipAt after request.scopeId request.userId
        (some ((db.selectMembership request.scopeId request.userId).getD
          (manualMembership request.scopeId request.userId .member decidedAt))) ∧
      db.PendingLess after fun other => other = request := by
  obtain ⟨request, found, pending, ⟨-, rfl⟩ | ⟨rejected, -⟩⟩ := decideOrganizationJoinRequest_ok done
  · refine ⟨request, found, pending, rfl, ?_, pendingLess_setRequestStatus found (by simp)⟩
    intro scope user
    simp only [selectMembership, setRequestStatus]
    cases inserted : db.memberships.insert? (manualMembership request.scopeId request.userId .member decidedAt) with
    | some memberships =>
      have absent : db.memberships.lookup (request.scopeId, request.userId) = none :=
        Table.insert?_absent inserted
      have lookups := Table.lookup_insert? inserted (scope, user)
      simp only [MembershipRow.key, manualMembership, Prod.mk.injEq] at lookups
      simp only [Option.getD_some, lookups, absent, Option.getD_none, manualMembership, eq_comm]
    | none =>
      simp only [Option.getD_none]
      split
      · rename_i same
        cases here : db.memberships.lookup (request.scopeId, request.userId) with
        | some row => rw [same.1, same.2, here, Option.getD_some]
        | none =>
          have taken : (db.memberships.insert? (manualMembership request.scopeId request.userId
              .member decidedAt)).isSome = true := Table.insert?_isSome_iff.mpr here
          rw [inserted] at taken
          cases taken
      · rfl
  · cases rejected

theorem lookup_recordSource (db : OrganizationDatabase) (userId scopeId : String)
    (sourceUpdatedAt : Int) (user : String) :
    (db.recordSource userId scopeId sourceUpdatedAt).directorySync.lookup user =
      if userId = user then some { userId, scopeId, sourceUpdatedAt }
      else db.directorySync.lookup user := by
  unfold recordSource
  simp only [Table.lookup_upsert]
  split
  · rename_i same
    cases found : db.directorySync.lookup user with
    | none => rfl
    | some row =>
      have keyed : row.userId = userId := (Table.lookup_eq_some_iff.mp found).2.trans same.symm
      simp [keyed]
  · rfl

theorem synced_membership {userId scopeId : String} {parsed : Except SkipReason DirectoryOrganization}
    {isTestAccount : Bool} {drawn : DrawnIds} {syncedAt : Int} {expectedLastLoginAt : Option Int}
    (done : db.syncDirectoryOrganization lowerCase userId parsed isTestAccount drawn syncedAt
      expectedLastLoginAt = .ok (.synced scopeId, after)) :
    ∃ sourceUpdatedAt, (∀ user, after.directorySync.lookup user =
        if userId = user then some { userId, scopeId, sourceUpdatedAt }
        else db.directorySync.lookup user) ∧
      (∀ scope user, after.selectMembership scope user =
        if scope = scopeId ∧ user = userId then
          some (joinedMembership userId scopeId syncedAt (db.selectMembership scopeId userId))
        else (db.selectMembership scope user).bind (leftMembership userId scopeId syncedAt)) ∧
      db.PendingLess after fun request => request.userId = userId ∧ request.scopeId = scopeId := by
  rcases syncDirectoryOrganization_ok done with
    ⟨reason, same, -⟩ | ⟨org, plans, partPlan, -, same, checked, committed⟩
  · cases same
  cases same
  obtain ⟨written, joined, wrote, moved, rfl⟩ := commitDirectoryOrganization_ok committed
  obtain ⟨-, scopes, rfl⟩ := writeDirectoryScopes_ok (Traced.refl (plans ++ [partPlan]))
    (fun plan listed => ⟨listed, checked.fits plan listed⟩) wrote
  obtain ⟨memberships, rfl, found⟩ := joinNewSource_ok moved
  refine ⟨org.sourceUpdatedAt, lookup_recordSource _ userId partPlan.id org.sourceUpdatedAt, ?_, ?_⟩
  · intro scope user
    have here := found scope user
    simp only [selectMembership_leaveOldSource] at here
    have stays : (db.selectMembership partPlan.id userId).bind
        (leftMembership userId partPlan.id syncedAt) = db.selectMembership partPlan.id userId := by
      cases old : db.selectMembership partPlan.id userId with
      | none => rfl
      | some row =>
        have keyed := (Table.lookup_eq_some_iff.mp old).2
        simp only [MembershipRow.key, Prod.mk.injEq] at keyed
        simp [leftMembership, keyed]
    rw [← stays]
    exact here
  · intro request pending
    obtain ⟨before, others⟩ := pendingLess_decidePendingRequests _ (by simp) request pending
    exact ⟨before, by simpa using others⟩

theorem membershipEffect_execute {operation : OrganizationOperation}
    (done : db.execute lowerCase operation = .ok after) :
    MembershipEffect db after operation := by
  cases operation with
  | upsertPrincipal account =>
    simp only [execute, upsertPrincipal, bind_ok_iff, Except.pure_ok_iff] at done
    obtain ⟨-, -, rfl⟩ := done
    exact .unchanged rfl rfl (PendingLess.of_same rfl)
  | setUserGlobalRole userId globalRole =>
    cases done
    exact .unchanged rfl rfl (PendingLess.of_same rfl)
  | setManagedUserStatus userId status =>
    cases done
    exact .unchanged rfl rfl (PendingLess.of_same rfl)
  | createManagedScope actorUserId kind name parentScopeId uuid createdAt =>
    simp only [execute, Except.map_ok_iff] at done
    obtain ⟨⟨row, created⟩, made, rfl⟩ := done
    obtain ⟨-, -, scopes, -, rfl⟩ := insertScope_ok (createManagedScope_ok made).1
    exact .unchanged rfl rfl (PendingLess.of_same rfl)
  | renameManagedScope actorUserId scopeId expectedRevision name reason changedAt =>
    obtain ⟨scope, -, -, name, normalizedName, updatedAt, rfl⟩ := renameManagedScope_ok done
    exact .unchanged rfl rfl (PendingLess.of_same rfl)
  | archiveManagedScope actorUserId scopeId expectedRevision reason archivedAt =>
    obtain ⟨scope, -, rfl | ⟨ids, -, rfl⟩⟩ := archiveManagedScope_ok done
    · exact .unchanged rfl rfl (PendingLess.of_same rfl)
    · refine .unchanged rfl rfl ?_
      intro request pending
      obtain ⟨before, -⟩ := pendingLess_decidePendingRequests _ (by simp) request pending
      exact ⟨before, not_false⟩
  | setManagedScopeMembership actorUserId scopeId userId role expectedRole reason changedAt =>
    obtain ⟨sources, membership, pending⟩ := setManagedScopeMembership_membershipAt done
    exact .assigned sources membership pending
  | removeManagedScopeMembership actorUserId scopeId userId expectedRole reason =>
    rw [removeManagedScopeMembership_ok done]
    exact .removed rfl (membershipAt_deleteMembership scopeId userId) (PendingLess.of_same rfl)
  | setUserPrimaryScope actorUserId userId scopeId changedAt =>
    rcases setUserPrimaryScope_ok done with rfl | ⟨scope, -, -, -, rfl⟩
    · exact .unchanged rfl rfl (PendingLess.of_same rfl)
    · exact .unchanged rfl rfl (PendingLess.of_same rfl)
  | submitOrganizationJoinRequest requestId userId scopeId reason =>
    obtain ⟨absent, new, id, requests, inserted, rfl⟩ := submitOrganizationJoinRequest_ok done
    exact .submitted rfl rfl absent (hasPendingRequest_eq_false new) fun request pending =>
      ((Table.mem_insert? inserted).mp pending.1).imp_left fun old => ⟨old, pending.2⟩
  | decideOrganizationJoinRequest actorUserId requestId decision reason decidedAt =>
    simp only [execute] at done
    cases decision with
    | approved =>
      obtain ⟨request, found, waiting, sources, membership, pending⟩ :=
        approveOrganizationJoinRequest_membershipAt done
      exact .approved sources found waiting membership pending
    | rejected =>
      obtain ⟨request, found, -, ⟨approved, -⟩ | ⟨-, rfl⟩⟩ := decideOrganizationJoinRequest_ok done
      · cases approved
      · exact .unchanged rfl rfl (pendingLess_setRequestStatus found (by simp)).weaken
  | cancelOrganizationJoinRequest actorUserId requestId reason =>
    obtain ⟨request, found, rfl⟩ := cancelOrganizationJoinRequest_ok done
    exact .unchanged rfl rfl (pendingLess_setRequestStatus found (by simp)).weaken
  | syncDirectoryOrganization userId parsed isTestAccount drawn syncedAt expectedLastLoginAt =>
    simp only [execute, Except.map_ok_iff] at done
    obtain ⟨⟨result, synced⟩, made, rfl⟩ := done
    cases result with
    | synced scopeId =>
      obtain ⟨sourceUpdatedAt, sources, membership, pending⟩ := synced_membership made
      exact .synced sources membership pending
    | skipped reason =>
      rcases syncDirectoryOrganization_ok made with ⟨-, -, rfl⟩ | ⟨_, _, _, -, impossible, -⟩
      · exact .unchanged rfl rfl (PendingLess.of_same rfl)
      · cases impossible

/-- The three columns of a membership agree with each other and with the source of the user. -/
structure Sourced (db : OrganizationDatabase) (row : MembershipRow) : Prop where
  source : row.managedBy = some .ldapLogin →
    ∃ sync, db.directorySync.lookup row.userId = some sync ∧ sync.scopeId = row.scopeId
  manual : ∀ role, row.manualRole = some role → row.managedBy = some .ldapLogin ∧ row.role = role
  plain : row.managedBy = some .ldapLogin → row.manualRole = none → row.role = .member

/-- What every run keeps of memberships and requests. -/
structure ProvenanceKept (db : OrganizationDatabase) : Prop where
  sourced : ∀ scopeId userId row, db.selectMembership scopeId userId = some row → db.Sourced row
  waiting : ∀ request, db.IsPending request → db.selectMembership request.scopeId request.userId = none
  single : ∀ left right, db.IsPending left → db.IsPending right →
    left.userId = right.userId → left.scopeId = right.scopeId → left = right

theorem ProvenanceKept.empty : ProvenanceKept .empty where
  sourced := by
    intro scopeId userId row found
    cases found
  waiting := by
    intro request pending
    cases pending.1
  single := by
    intro left right pending
    cases pending.1

theorem selectMembership_key {scopeId userId : String} {row : MembershipRow}
    (found : db.selectMembership scopeId userId = some row) :
    row.scopeId = scopeId ∧ row.userId = userId := by
  have keyed := (Table.lookup_eq_some_iff.mp found).2
  simpa only [MembershipRow.key, Prod.mk.injEq] using keyed

theorem Sourced.of_sources {row : MembershipRow} (sourced : db.Sourced row)
    (sources : after.directorySync = db.directorySync) : after.Sourced row where
  source := sources ▸ sourced.source
  manual := sourced.manual
  plain := sourced.plain

theorem Sourced.assignRole {row : MembershipRow} (sourced : db.Sourced row) (role : ScopeRole)
    (changedAt : Int) : db.Sourced (assignRole role changedAt row) where
  source := sourced.source
  manual := by
    intro given same
    cases managed : row.managedBy with
    | none => simp [OrganizationDatabase.assignRole, managed] at same
    | some manager =>
      cases manager
      simp only [OrganizationDatabase.assignRole, managed, Option.map_some, Option.some.injEq] at same
      exact ⟨managed, same⟩
  plain := by
    intro managed missing
    have from' : row.managedBy = some .ldapLogin := managed
    simp [OrganizationDatabase.assignRole, from'] at missing

theorem sourced_manualMembership (db : OrganizationDatabase) (scopeId userId : String)
    (role : ScopeRole) (changedAt : Int) :
    db.Sourced (manualMembership scopeId userId role changedAt) where
  source := by simp [manualMembership]
  manual := by simp [manualMembership]
  plain := by simp [manualMembership]

end OrganizationDatabase

end PlatformClaw.Organization
