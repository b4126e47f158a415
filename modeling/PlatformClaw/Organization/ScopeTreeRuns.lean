import PlatformClaw.Organization.ScopeTree
import Mathlib.Logic.Relation

/-! # The tree of scopes along runs

Every accepted operation keeps the tree and the primary selections, a directory
sync by keeping them with each scope of its chain. So they hold after every run
from the empty database.
-/

namespace PlatformClaw.Organization

open Except (bind_ok_iff)
open Relation (TransGen)

namespace OrganizationDatabase

variable {db after before : OrganizationDatabase} {sourceUpdatedAt syncedAt : Int}

theorem ScopeTree.writeDirectoryScope (tree : db.ScopeTree) {lowerCase : String → String}
    {plan : ScopePlan} {userId : String}
    (fresh : plan.existing = none → plan.id ≠ "")
    (known : ∀ current, plan.existing = some current → current.id = plan.id ∧
      ∃ there, db.managedScopes.lookup current.id = some there ∧ there.kind = current.kind ∧
        there.status = .active ∧ current.status = .active)
    (linked : ∀ parentId, plan.parentId = some parentId → db.HasActiveScope parentId)
    (done : db.writeDirectoryScope lowerCase plan userId sourceUpdatedAt syncedAt = .ok after) :
    after.ScopeTree ∧ (∀ id, db.HasActiveScope id → after.HasActiveScope id) ∧ after.HasActiveScope plan.id := by
  rcases writeDirectoryScope_ok done with ⟨new, normalizedName, created⟩ | ⟨current, existing, rest⟩
  · obtain ⟨grown, active, found, -⟩ := tree.insertScope created (fresh new) fun _ => linked
    exact ⟨grown, active, _, found, rfl⟩
  · obtain ⟨sameId, there, found, kind, status, enabled⟩ := known current existing
    have activeThere : db.HasActiveScope plan.id := ⟨there, sameId ▸ found, status⟩
    rcases rest with rfl | ⟨-, normalizedName, moved⟩
    · exact ⟨tree, fun _ here => here, activeThere⟩
    · obtain ⟨placed, -, rfl⟩ := moveScope_ok moved
      obtain ⟨kept, active⟩ := tree.setScope
        (plan.applied normalizedName sourceUpdatedAt syncedAt current) found kind.symm
        (enabled.trans status.symm) placed fun _ => linked
      exact ⟨kept, fun id => (active id).mpr, (active plan.id).mpr activeThere⟩

/-- Along the chain each parent is active when its child is written: it was written earlier,
    or it is the parent that an active scope of the chain has. -/
theorem ScopeTree.writeDirectoryScopes {lowerCase : String → String} {userId : String}
    {plans rest : List ScopePlan} {earlier : List String} (treeBefore : before.ScopeTree)
    (tree : db.ScopeTree) (traced : before.Traced plans sourceUpdatedAt syncedAt db)
    (kept : ∀ id, before.HasActiveScope id → db.HasActiveScope id)
    (written : ∀ id ∈ earlier, db.HasActiveScope id)
    (listed : ∀ plan ∈ rest, plan ∈ plans ∧ before.Fits plan ∧
      ∀ current, plan.existing = some current → current.status = .active)
    (linked : Linked earlier rest)
    (done : db.writeDirectoryScopes lowerCase userId sourceUpdatedAt syncedAt rest = .ok after) :
    after.ScopeTree ∧ ∀ id, before.HasActiveScope id → after.HasActiveScope id := by
  induction rest generalizing db earlier with
  | nil =>
    simp only [OrganizationDatabase.writeDirectoryScopes, Except.pure_ok_iff] at done
    exact done ▸ ⟨tree, kept⟩
  | cons plan rest ih =>
    simp only [OrganizationDatabase.writeDirectoryScopes, bind_ok_iff] at done
    obtain ⟨next, first, later⟩ := done
    obtain ⟨inPlans, fits, enabled⟩ := listed plan List.mem_cons_self
    obtain ⟨parents, linkedRest⟩ := linked
    have known : ∀ current, plan.existing = some current → current.id = plan.id ∧
        ∃ there, db.managedScopes.lookup current.id = some there ∧ there.kind = current.kind ∧
          there.status = .active ∧ current.status = .active := by
      intro current existing
      obtain ⟨found, sameId⟩ := fits.known current existing
      have active := enabled current existing
      obtain ⟨there, foundThere, same | ⟨_, -, -, -, _, same⟩⟩ := traced current.id current found
      · exact ⟨sameId, there, foundThere, by rw [same], by rw [same, active], active⟩
      · exact ⟨sameId, there, foundThere, by rw [same]; rfl, by rw [same]; exact active, active⟩
    have linkedHere : ∀ parentId, plan.parentId = some parentId → db.HasActiveScope parentId := by
      intro parentId given
      rcases parents parentId given with inEarlier | ⟨current, existing, parent⟩
      · exact written parentId inEarlier
      · have inTable := (Table.lookup_eq_some_iff.mp (fits.known current existing).1).1
        exact kept parentId (treeBefore.above current inTable (enabled current existing) parentId parent)
    obtain ⟨treeNext, active, activeHere⟩ := tree.writeDirectoryScope fits.fresh known linkedHere first
    refine ih treeNext (traced.writeDirectoryScope inPlans fits first) (fun id here => active id (kept id here)) ?_
      (fun other inRest => listed other (List.mem_cons_of_mem _ inRest)) linkedRest later
    intro id inEarlier
    cases List.mem_cons.mp inEarlier with
    | inl here => exact here ▸ activeHere
    | inr old => exact active id (written id old)

theorem ScopeTree.commitDirectoryOrganization {lowerCase : String → String} {userId : String}
    {org : DirectoryOrganization} {plans : List ScopePlan} {partPlan : ScopePlan}
    (tree : db.ScopeTree) (checked : db.SyncChecked userId org plans partPlan)
    (done : db.writeDirectoryScopes lowerCase userId org.sourceUpdatedAt syncedAt (plans ++ [partPlan]) = .ok after) :
    after.ScopeTree ∧ ∀ id, db.HasActiveScope id → after.HasActiveScope id := by
  refine tree.writeDirectoryScopes tree (Traced.refl (plans ++ [partPlan])) (fun _ here => here)
    (by simp) ?_ checked.linked done
  intro plan listed
  exact ⟨listed, checked.fits plan listed,
    fun current existing => (firstObjection_none checked.clear plan listed current existing).1⟩

theorem PrimariesActive.mono (primaries : db.PrimariesActive)
    (active : ∀ id, db.HasActiveScope id → after.HasActiveScope id)
    (members : ∀ scopeId userId, (db.selectMembership scopeId userId).isSome = true →
      (after.selectMembership scopeId userId).isSome = true)
    (selected : ∀ primary ∈ after.primaryMemberships, primary ∈ db.primaryMemberships) :
    after.PrimariesActive := by
  intro primary inAfter
  obtain ⟨enabled, member⟩ := primaries primary (selected primary inAfter)
  exact ⟨active _ enabled, members _ _ member⟩

theorem PrimariesActive.deleteMembership (primaries : db.PrimariesActive) (scopeId userId : String) :
    (db.deleteMembership scopeId userId).PrimariesActive := by
  intro primary inAfter
  obtain ⟨inTable, kept⟩ := Table.mem_delete.mp inAfter
  obtain ⟨enabled, member⟩ := primaries primary inTable
  refine ⟨enabled, ?_⟩
  obtain ⟨row, found⟩ := Option.isSome_iff_exists.mp member
  have keyed := (Table.lookup_eq_some_iff.mp found).2
  simp only [MembershipRow.key, Prod.mk.injEq] at keyed
  simp only [selectMembership] at found
  have other : ¬row.scopeId = scopeId ∨ ¬row.userId = userId :=
    Decidable.not_and_iff_not_or_not.mp (by simpa [keyed] using kept)
  simpa [selectMembership, OrganizationDatabase.deleteMembership, found, Option.filter] using other

theorem PrimariesActive.archiveScopes (primaries : db.PrimariesActive) (ids : List String)
    (archivedAt : Int) : (db.archiveScopes ids archivedAt).PrimariesActive := by
  intro primary inAfter
  have selected : primary ∈ db.primaryMemberships.delete fun row => row.scopeId ∈ ids := inAfter
  obtain ⟨inTable, kept⟩ := Table.mem_delete.mp selected
  obtain ⟨enabled, member⟩ := primaries primary inTable
  exact ⟨archiveScopes_active (by simpa using kept) enabled, member⟩

theorem isSome_updateMembership {scopeId userId : String} {change : MembershipRow → MembershipRow}
    {keeps : ∀ row, (change row).key = row.key} {scope user : String}
    (member : (db.selectMembership scope user).isSome = true) :
    ((db.updateMembership scopeId userId change keeps).selectMembership scope user).isSome = true := by
  rw [← member]
  simp [selectMembership, updateMembership]

theorem isSome_insertMembership {row : MembershipRow} (done : db.insertMembership row = .ok after)
    {scope user : String} (member : (db.selectMembership scope user).isSome = true) :
    (after.selectMembership scope user).isSome = true := by
  obtain ⟨memberships, inserted, rfl⟩ := insertMembership_ok done
  have lookups := Table.lookup_insert? inserted (scope, user)
  simp only [selectMembership] at member ⊢
  rw [lookups]
  split
  · rfl
  · exact member

/-- What every run keeps. -/
structure TreeKept (db : OrganizationDatabase) : Prop where
  tree : db.ScopeTree
  primaries : db.PrimariesActive

theorem TreeKept.empty : TreeKept .empty where
  tree := ⟨by simp [OrganizationDatabase.empty], by simp [OrganizationDatabase.empty],
    by simp [OrganizationDatabase.empty]⟩
  primaries := by simp [PrimariesActive, OrganizationDatabase.empty]

theorem TreeKept.of_same (kept : db.TreeKept) (scopes : after.managedScopes = db.managedScopes)
    (memberships : after.memberships = db.memberships)
    (selections : after.primaryMemberships = db.primaryMemberships) : after.TreeKept where
  tree := kept.tree.of_scopes_eq scopes
  primaries := kept.primaries.mono (fun id => (hasActiveScope_of_scopes_eq scopes id).mpr)
    (by simp [selectMembership, memberships]) (by simp [selections])

theorem TreeKept.setManagedScopeMembership (kept : db.TreeKept)
    {actorUserId scopeId userId reason : String} {role : ScopeRole}
    {expectedRole : Option (Option ScopeRole)} {changedAt : Int}
    (done : db.setManagedScopeMembership actorUserId scopeId userId role expectedRole reason
      changedAt = .ok after) : after.TreeKept := by
  obtain ⟨assigned, how, rfl⟩ := setManagedScopeMembership_ok done
  have same : assigned.managedScopes = db.managedScopes ∧ assigned.primaryMemberships = db.primaryMemberships := by
    rcases how with ⟨-, rfl⟩ | ⟨-, inserted⟩
    · exact ⟨rfl, rfl⟩
    · obtain ⟨memberships, -, rfl⟩ := insertMembership_ok inserted
      exact ⟨rfl, rfl⟩
  refine ⟨kept.tree.of_scopes_eq same.1, ?_⟩
  refine kept.primaries.mono (fun id => (hasActiveScope_of_scopes_eq same.1 id).mpr) ?_ ?_
  · intro scope user member
    rcases how with ⟨-, rfl⟩ | ⟨-, inserted⟩
    · have stays := @isSome_updateMembership db scopeId userId (assignRole role changedAt)
        (fun _ => rfl) scope user member
      exact stays
    · exact isSome_insertMembership inserted member
  · intro primary inAfter
    exact same.2 ▸ inAfter

theorem TreeKept.setUserPrimaryScope (kept : db.TreeKept) {actorUserId userId : String}
    {scopeId : Option String} {changedAt : Int}
    (done : db.setUserPrimaryScope actorUserId userId scopeId changedAt = .ok after) :
    after.TreeKept := by
  rcases setUserPrimaryScope_ok done with rfl | ⟨scope, found, enabled, member, rfl⟩
  · exact ⟨kept.tree.of_scopes_eq rfl, kept.primaries.mono (fun _ here => here)
      (fun _ _ here => here) fun _ inAfter => (Table.mem_delete.mp inAfter).1⟩
  · refine ⟨kept.tree.of_scopes_eq rfl, ?_⟩
    intro primary inAfter
    have lookups := Table.lookup_upsert db.primaryMemberships
      { userId := userId, scopeId := scope.id, updatedAt := changedAt }
      (fun row => { row with scopeId := scope.id, updatedAt := changedAt }) (fun _ => rfl)
      primary.userId
    rw [Table.lookup_key inAfter] at lookups
    by_cases same : userId = primary.userId
    · rw [if_pos same] at lookups
      have placed : primary.scopeId = scope.id := by
        cases old : db.primaryMemberships.lookup primary.userId with
        | none =>
          rw [old] at lookups
          cases lookups
          rfl
        | some row =>
          rw [old] at lookups
          cases lookups
          rfl
      rw [placed, ← same]
      exact ⟨⟨scope, found, enabled⟩, member⟩
    · rw [if_neg same] at lookups
      exact kept.primaries primary (Table.lookup_eq_some_iff.mp lookups.symm).1

theorem TreeKept.decideOrganizationJoinRequest (kept : db.TreeKept)
    {actorUserId requestId reason : String} {decision : ReviewDecision} {decidedAt : Int}
    (done : db.decideOrganizationJoinRequest actorUserId requestId decision reason decidedAt =
      .ok after) : after.TreeKept := by
  obtain ⟨request, -, -, ⟨-, rfl⟩ | ⟨-, rfl⟩⟩ := decideOrganizationJoinRequest_ok done
  · refine ⟨kept.tree.of_scopes_eq rfl, kept.primaries.mono (fun _ here => here) ?_
      fun _ inAfter => inAfter⟩
    intro scope user member
    simp only [selectMembership, setRequestStatus] at member ⊢
    cases inserted : db.memberships.insert? (manualMembership request.scopeId request.userId .member decidedAt) with
    | none => simpa using member
    | some memberships =>
      rw [Option.getD_some, Table.lookup_insert? inserted]
      split
      · rfl
      · exact member
  · exact kept.of_same rfl rfl rfl

theorem TreeKept.syncDirectoryOrganization (kept : db.TreeKept) {lowerCase : String → String}
    {userId : String} {parsed : Except SkipReason DirectoryOrganization} {isTestAccount : Bool}
    {drawn : DrawnIds} {expectedLastLoginAt : Option Int} {result : DirectoryOrganizationSyncResult}
    (done : db.syncDirectoryOrganization lowerCase userId parsed isTestAccount drawn syncedAt
      expectedLastLoginAt = .ok (result, after)) : after.TreeKept := by
  rcases syncDirectoryOrganization_ok done with
    ⟨reason, -, rfl⟩ | ⟨org, plans, partPlan, -, -, checked, committed⟩
  · exact kept
  obtain ⟨written, joined, wrote, moved, rfl⟩ := commitDirectoryOrganization_ok committed
  obtain ⟨tree, active⟩ := kept.tree.commitDirectoryOrganization checked wrote
  obtain ⟨-, scopes, rfl⟩ := writeDirectoryScopes_ok (Traced.refl (plans ++ [partPlan]))
    (fun plan listed => ⟨listed, checked.fits plan listed⟩) wrote
  obtain ⟨memberships, rfl, found⟩ := joinNewSource_ok moved
  refine ⟨tree.of_scopes_eq rfl, ?_⟩
  intro primary inAfter
  obtain ⟨old, left⟩ := mem_primary_leaveOldSource inAfter
  obtain ⟨enabled, member⟩ := kept.primaries primary old
  refine ⟨active _ enabled, ?_⟩
  have here := found primary.scopeId primary.userId
  split at here
  · exact (congrArg Option.isSome here).trans rfl
  · obtain ⟨row, known⟩ := Option.isSome_iff_exists.mp member
    have still : selectMembership { db with managedScopes := scopes } primary.scopeId
        primary.userId = some row := known
    rw [selectMembership_leaveOldSource, still, Option.bind_some] at here
    exact (congrArg Option.isSome here).trans (left row known)

theorem TreeKept.execute (kept : db.TreeKept) {lowerCase : String → String}
    {operation : OrganizationOperation} (done : db.execute lowerCase operation = .ok after) :
    after.TreeKept := by
  cases operation with
  | upsertPrincipal account =>
    simp only [OrganizationDatabase.execute, upsertPrincipal, bind_ok_iff, Except.pure_ok_iff] at done
    obtain ⟨-, -, rfl⟩ := done
    exact kept.of_same rfl rfl rfl
  | setUserGlobalRole userId globalRole =>
    cases done
    exact kept.of_same rfl rfl rfl
  | setManagedUserStatus userId status =>
    cases done
    exact kept.of_same rfl rfl rfl
  | createManagedScope actorUserId kind name parentScopeId uuid createdAt =>
    simp only [OrganizationDatabase.execute, Except.map_ok_iff] at done
    obtain ⟨⟨row, created⟩, made, rfl⟩ := done
    obtain ⟨inserted, id, -, -, -, above⟩ := createManagedScope_ok made
    obtain ⟨tree, active, -⟩ := kept.tree.insertScope inserted (id ▸ nextManagedScopeId_ne_empty uuid) fun _ => above
    obtain ⟨-, -, scopes, -, rfl⟩ := insertScope_ok inserted
    exact ⟨tree, kept.primaries.mono active (fun _ _ here => here) fun _ inAfter => inAfter⟩
  | renameManagedScope actorUserId scopeId expectedRevision name reason changedAt =>
    obtain ⟨scope, found, -, name, normalizedName, updatedAt, rfl⟩ := renameManagedScope_ok done
    have inTable := (Table.lookup_eq_some_iff.mp found).1
    obtain ⟨tree, active⟩ := kept.tree.setScope
      { scope with name := name, normalizedName := normalizedName, updatedAt := updatedAt }
      (Table.lookup_eq_some_iff.mpr ⟨inTable, rfl⟩) rfl rfl (kept.tree.placed scope inTable)
      (kept.tree.above scope inTable)
    exact ⟨tree, kept.primaries.mono (fun id => (active id).mpr) (fun _ _ here => here)
      fun _ inAfter => inAfter⟩
  | archiveManagedScope actorUserId scopeId expectedRevision reason archivedAt =>
    obtain ⟨scope, -, rfl | ⟨ids, read, rfl⟩⟩ := archiveManagedScope_ok done
    · exact kept
    · exact ⟨kept.tree.archiveScopes archivedAt (kept.tree.closedBelow read),
        kept.primaries.archiveScopes _ archivedAt⟩
  | setManagedScopeMembership actorUserId scopeId userId role expectedRole reason changedAt =>
    exact kept.setManagedScopeMembership done
  | removeManagedScopeMembership actorUserId scopeId userId expectedRole reason =>
    rw [removeManagedScopeMembership_ok done]
    exact ⟨kept.tree.of_scopes_eq rfl, kept.primaries.deleteMembership scopeId userId⟩
  | setUserPrimaryScope actorUserId userId scopeId changedAt => exact kept.setUserPrimaryScope done
  | submitOrganizationJoinRequest requestId userId scopeId reason =>
    obtain ⟨-, -, id, requests, -, rfl⟩ := submitOrganizationJoinRequest_ok done
    exact kept.of_same rfl rfl rfl
  | decideOrganizationJoinRequest actorUserId requestId decision reason decidedAt =>
    exact kept.decideOrganizationJoinRequest done
  | cancelOrganizationJoinRequest actorUserId requestId reason =>
    obtain ⟨request, -, rfl⟩ := cancelOrganizationJoinRequest_ok done
    exact kept.of_same rfl rfl rfl
  | syncDirectoryOrganization userId parsed isTestAccount drawn syncedAt expectedLastLoginAt =>
    simp only [OrganizationDatabase.execute, Except.map_ok_iff] at done
    obtain ⟨⟨result, synced⟩, made, rfl⟩ := done
    exact kept.syncDirectoryOrganization made

theorem TreeKept.step (lowerCase : String → String) (kept : db.TreeKept) (operation : OrganizationOperation) :
    ((organizationMachine lowerCase).step db operation).TreeKept := by
  simp only [organizationMachine]
  cases done : db.execute lowerCase operation with
  | error failure => exact kept
  | ok changed => exact kept.execute done

/-- The scope of the first identifier has the second one as its parent. -/
def IsParent (db : OrganizationDatabase) (childId parentId : String) : Prop :=
  ∃ row, db.managedScopes.lookup childId = some row ∧ row.parentScopeId = some parentId

def ScopeKind.depth : ScopeKind → Nat
  | .team => 0
  | .group => 1
  | .part => 2

theorem ScopeTree.depth_lt (tree : db.ScopeTree) {childId ancestorId : String}
    (way : TransGen db.IsParent childId ancestorId) :
    ∃ child ancestor, db.managedScopes.lookup childId = some child ∧
      db.managedScopes.lookup ancestorId = some ancestor ∧
      ScopeKind.depth ancestor.kind < ScopeKind.depth child.kind := by
  have step : ∀ {below above : String}, db.IsParent below above →
      ∃ child parent, db.managedScopes.lookup below = some child ∧ db.managedScopes.lookup above = some parent ∧
        ScopeKind.depth parent.kind < ScopeKind.depth child.kind := by
    intro below above ⟨row, found, given⟩
    have inTable := (Table.lookup_eq_some_iff.mp found).1
    obtain ⟨parent, foundParent, allowed⟩ := placementAllowed_parent (tree.placed row inTable) given
    refine ⟨row, parent, found, foundParent, ?_⟩
    obtain ⟨up, down⟩ | ⟨up, down⟩ := allowed <;> simp [ScopeKind.depth, up, down]
  induction way with
  | single here => exact step here
  | tail _ here ih =>
    obtain ⟨child, middle, foundChild, foundMiddle, less⟩ := ih
    obtain ⟨middle', ancestor, foundMiddle', foundAncestor, less'⟩ := step here
    cases foundMiddle.symm.trans foundMiddle'
    exact ⟨child, ancestor, foundChild, foundAncestor, Nat.lt_trans less' less⟩

theorem ScopeTree.acyclic (tree : db.ScopeTree) (id : String) : ¬TransGen db.IsParent id id := by
  intro way
  obtain ⟨row, same, found, found', less⟩ := tree.depth_lt way
  cases found.symm.trans found'
  exact Nat.lt_irrefl _ less

theorem ScopeTree.ancestor_active (tree : db.ScopeTree) {id ancestorId : String}
    (active : db.HasActiveScope id) (way : TransGen db.IsParent id ancestorId) :
    db.HasActiveScope ancestorId := by
  have step : ∀ {below above : String}, db.HasActiveScope below → db.IsParent below above →
      db.HasActiveScope above := by
    intro below above ⟨row, found, enabled⟩ ⟨row', found', given⟩
    cases found.symm.trans found'
    exact tree.above row (Table.lookup_eq_some_iff.mp found).1 enabled above given
  induction way with
  | single here => exact step active here
  | tail _ here ih => exact step ih here

/-- After every run: no cycle, active scopes below active ones only, kinds as the levels ask,
    and primary selections that are active direct memberships. -/
theorem scopeTree_of_run (lowerCase : String → String) (operations : List OrganizationOperation) :
    let db := (organizationMachine lowerCase).run OrganizationDatabase.empty operations
    (∀ id, ¬TransGen db.IsParent id id) ∧
      (∀ id ancestorId, db.HasActiveScope id → TransGen db.IsParent id ancestorId → db.HasActiveScope ancestorId) ∧
      (∀ row ∈ db.managedScopes, ∀ parentId, row.parentScopeId = some parentId →
        ∃ parent, db.managedScopes.lookup parentId = some parent ∧ AllowedUnder parent.kind row.kind) ∧
      ∀ primary ∈ db.primaryMemberships, db.HasActiveScope primary.scopeId ∧
        (db.selectMembership primary.scopeId primary.userId).isSome = true := by
  intro db
  have kept : db.TreeKept := Machine.run_invariant (P := TreeKept)
    (fun _ operation kept => TreeKept.step lowerCase kept operation) TreeKept.empty operations
  exact ⟨kept.tree.acyclic, fun _ _ active way => kept.tree.ancestor_active active way,
    fun row inTable _ given => placementAllowed_parent (kept.tree.placed row inTable) given,
    kept.primaries⟩

end OrganizationDatabase

end PlatformClaw.Organization
