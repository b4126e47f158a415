import PlatformClaw.Organization.SyncEffects

/-! # The tree of scopes

What every reachable database keeps about teams, groups and parts: parents are
of the kind above, an active scope has an active parent, and a primary selection
is an active scope its owner is a member of. Every step is reduced to three
writes on scopes: a new row, a changed row of the same kind and status, and an
archived subtree.
-/

namespace PlatformClaw.Organization

open Except (bind_ok_iff)
open ParentWalk (Ancestry)

namespace OrganizationDatabase

structure ScopeTree (db : OrganizationDatabase) : Prop where
  placed : ∀ row ∈ db.managedScopes, db.placementAllowed row = true
  above : ∀ row ∈ db.managedScopes, row.status = .active → ∀ parentId,
    row.parentScopeId = some parentId → db.HasActiveScope parentId
  named : ∀ row ∈ db.managedScopes, row.id ≠ ""

def IsActiveMembership (db : OrganizationDatabase) (scopeId userId : String) : Prop :=
  db.HasActiveScope scopeId ∧ (db.selectMembership scopeId userId).isSome = true

def PrimariesActive (db : OrganizationDatabase) : Prop :=
  ∀ primary ∈ db.primaryMemberships, db.IsActiveMembership primary.scopeId primary.userId

variable {db after : OrganizationDatabase}

theorem ScopeTree.of_scopes_eq (tree : db.ScopeTree)
    (same : after.managedScopes = db.managedScopes) : after.ScopeTree := by
  cases db
  cases after
  cases same
  exact ⟨tree.placed, tree.above, tree.named⟩

theorem hasActiveScope_of_scopes_eq (same : after.managedScopes = db.managedScopes) (id : String) :
    after.HasActiveScope id ↔ db.HasActiveScope id := by
  simp only [HasActiveScope, same]

theorem placementAllowed_congr (row : DirectoryScopeRow) (kinds : ∀ id, (after.managedScopes.lookup id).map (·.kind) =
      (db.managedScopes.lookup id).map (·.kind)) :
    after.placementAllowed row = db.placementAllowed row := by
  have parents : ∀ kind, after.hasParentOfKind row kind = db.hasParentOfKind row kind := by
    intro kind
    cases named : row.parentScopeId with
    | none => simp [hasParentOfKind, named]
    | some parentId =>
      have same := kinds parentId
      cases found : after.managedScopes.lookup parentId <;>
        cases found' : db.managedScopes.lookup parentId <;>
        simp_all [hasParentOfKind]
  simp only [placementAllowed, parents]

theorem ScopeTree.setScope (tree : db.ScopeTree) (row : DirectoryScopeRow)
    {current : DirectoryScopeRow}
    (found : db.managedScopes.lookup row.id = some current) (kind : row.kind = current.kind)
    (status : row.status = current.status) (placed : db.placementAllowed row = true)
    (above : row.status = .active → ∀ parentId, row.parentScopeId = some parentId → db.HasActiveScope parentId) :
    (db.setScope row).ScopeTree ∧ ∀ id, (db.setScope row).HasActiveScope id ↔ db.HasActiveScope id := by
  have inTable := (Table.lookup_eq_some_iff.mp found).1
  have kinds : ∀ id, ((db.setScope row).managedScopes.lookup id).map (·.kind) =
      (db.managedScopes.lookup id).map (·.kind) := by
    intro id
    rw [lookup_setScope row found]
    split
    · rename_i same
      rw [← same, found]
      exact congrArg some kind
    · rfl
  have active : ∀ id, (db.setScope row).HasActiveScope id ↔ db.HasActiveScope id := by
    intro id
    unfold HasActiveScope
    rw [lookup_setScope row found]
    split
    · rename_i same
      subst same
      simp [found, status]
    · exact Iff.rfl
  refine ⟨?_, active⟩
  exact
    { placed := by
        intro other inAfter
        rw [placementAllowed_congr other kinds]
        rcases (mem_setScope found).mp inAfter with rfl | ⟨old, -⟩
        · exact placed
        · exact tree.placed other old
      above := by
        intro other inAfter enabled parentId named
        rw [active]
        rcases (mem_setScope found).mp inAfter with rfl | ⟨old, -⟩
        · exact above enabled parentId named
        · exact tree.above other old enabled parentId named
      named := by
        intro other inAfter
        rcases (mem_setScope found).mp inAfter with rfl | ⟨old, -⟩
        · have sameId : current.id = other.id := scope_id found
          rw [← sameId]
          exact tree.named current inTable
        · exact tree.named other old }

theorem ScopeTree.insertScope (tree : db.ScopeTree) {row : DirectoryScopeRow} (done : db.insertScope row = .ok after)
    (named : row.id ≠ "")
    (above : row.status = .active → ∀ parentId, row.parentScopeId = some parentId → db.HasActiveScope parentId) :
    after.ScopeTree ∧ (∀ id, db.HasActiveScope id → after.HasActiveScope id) ∧
      after.managedScopes.lookup row.id = some row ∧
      ∀ id, id ≠ row.id → after.managedScopes.lookup id = db.managedScopes.lookup id := by
  obtain ⟨placed, -, scopes, inserted, rfl⟩ := insertScope_ok done
  have lookups := Table.lookup_insert? inserted
  have absent : db.managedScopes.lookup row.id = none := Table.insert?_absent inserted
  have old : ∀ id other, db.managedScopes.lookup id = some other → scopes.lookup id = some other := by
    intro id other found
    rw [lookups]
    split
    · rename_i same
      have clash : row.id = id := same
      rw [← clash, absent] at found
      cases found
    · exact found
  have active : ∀ id, db.HasActiveScope id → HasActiveScope { db with managedScopes := scopes } id := by
    intro id here
    obtain ⟨other, found, enabled⟩ := here
    exact ⟨other, old id other found, enabled⟩
  have placedAfter : ∀ other, db.placementAllowed other = true →
      placementAllowed { db with managedScopes := scopes } other = true := by
    intro other allowed
    have parents : ∀ kind, db.hasParentOfKind other kind = true →
        hasParentOfKind { db with managedScopes := scopes } other kind = true := by
      intro kind given
      obtain ⟨parent, found, same⟩ := (Option.any_eq_true _ _).mp given
      obtain ⟨parentId, here, looked⟩ := Option.bind_eq_some_iff.mp found
      exact (Option.any_eq_true _ _).mpr ⟨parent, Option.bind_eq_some_iff.mpr ⟨parentId, here, old _ _ looked⟩, same⟩
    unfold placementAllowed at allowed ⊢
    cases kind : other.kind with
    | team => simpa [kind] using allowed
    | group =>
      simp only [kind] at allowed ⊢
      exact parents _ allowed
    | part =>
      simp only [kind, Bool.or_eq_true] at allowed ⊢
      exact allowed.imp_right (parents _)
  refine ⟨?_, active, (lookups row.id).trans (if_pos rfl), ?_⟩
  · exact
      { placed := by
          intro other inAfter
          cases (Table.mem_insert? inserted).mp inAfter with
          | inl inTable => exact placedAfter other (tree.placed other inTable)
          | inr new => exact new ▸ placedAfter row placed
        above := by
          intro other inAfter enabled parentId given
          cases (Table.mem_insert? inserted).mp inAfter with
          | inl inTable => exact active _ (tree.above other inTable enabled parentId given)
          | inr new =>
            subst new
            exact active _ (above enabled parentId given)
        named := by
          intro other inAfter
          cases (Table.mem_insert? inserted).mp inAfter with
          | inl inTable => exact tree.named other inTable
          | inr new => exact new ▸ named }
  · intro id apart
    exact (lookups id).trans (if_neg (Ne.symm apart))

/-- The kinds that scopes of a kind are put under. -/
def AllowedUnder (parent child : ScopeKind) : Prop :=
  (parent = .team ∧ child = .group) ∨ (parent = .group ∧ child = .part)

theorem placementAllowed_parent {row : DirectoryScopeRow} {parentId : String}
    (placed : db.placementAllowed row = true) (given : row.parentScopeId = some parentId) :
    ∃ parent, db.managedScopes.lookup parentId = some parent ∧ AllowedUnder parent.kind row.kind := by
  have parents : ∀ kind, db.hasParentOfKind row kind = true →
      ∃ parent, db.managedScopes.lookup parentId = some parent ∧ parent.kind = kind := by
    intro kind allowed
    simpa [hasParentOfKind, given] using (Option.any_eq_true _ _).mp allowed
  unfold placementAllowed at placed
  cases kind : row.kind with
  | team => simp [kind, given] at placed
  | group =>
    simp only [kind] at placed
    obtain ⟨parent, found, same⟩ := parents _ placed
    exact ⟨parent, found, .inl ⟨same, rfl⟩⟩
  | part =>
    simp only [kind, given, Option.isNone_some, Bool.false_and, Bool.false_or] at placed
    obtain ⟨parent, found, same⟩ := parents _ placed
    exact ⟨parent, found, .inr ⟨same, rfl⟩⟩

theorem ScopeTree.truthy_parent (tree : db.ScopeTree) {row : DirectoryScopeRow}
    (inTable : row ∈ db.managedScopes) : truthy row.parentScopeId = row.parentScopeId := by
  cases given : row.parentScopeId with
  | none => rfl
  | some parentId =>
    obtain ⟨parent, found, -⟩ := placementAllowed_parent (tree.placed row inTable) given
    have present : parentId ≠ "" := by
      rw [← scope_id found]
      exact tree.named parent (Table.lookup_eq_some_iff.mp found).1
    simp [truthy, present]

/-- A scope under an archived one is archived too. -/
def ClosedBelow (db : OrganizationDatabase) (ids : List String) : Prop :=
  ∀ row ∈ db.managedScopes, ∀ parentId, row.parentScopeId = some parentId → parentId ∈ ids → row.id ∈ ids

theorem ScopeTree.closedBelow (tree : db.ScopeTree) {scopeId : String} {ids : List String}
    (read : db.descendantIds scopeId db.managedScopes.rows = .ok ids) :
    db.ClosedBelow (scopeId :: ids) := by
  intro row inTable parentId given inIds
  by_cases same : row.id = scopeId
  · exact same ▸ List.mem_cons_self
  obtain ⟨lineage, chain, placed⟩ := descendantIds_ok read row inTable same
  have named : truthy row.parentScopeId = some parentId := (tree.truthy_parent inTable).trans given
  cases chain with
  | root orphan =>
    rw [orphan] at named
    cases named
  | @child _ parent k rest named' found chain =>
    have here : k = parentId := Option.some.inj (named'.symm.trans named)
    subst here
    -- The lineage of the parent passes through the archived scope, so this one does.
    have through : ∃ ancestor ∈ rest, ancestor.id = scopeId := by
      cases List.mem_cons.mp inIds with
      | inl top => exact ⟨parent, chain.head_mem, (scope_id found).trans top⟩
      | inr below =>
        obtain ⟨candidate, inRows, sameId, own, ownChain, ancestor, inOwn, top⟩ :=
          descendantIds_mem read below
        have looked : db.managedScopes.lookup k = some candidate :=
          Table.lookup_eq_some_iff.mpr ⟨inRows, sameId⟩
        rw [found] at looked
        cases looked
        rw [chain.unique ownChain]
        exact ⟨ancestor, inOwn, top⟩
    obtain ⟨ancestor, inRest, top⟩ := through
    cases placed with
    | inl listed => exact List.mem_cons_of_mem _ listed
    | inr avoids => exact absurd top (avoids ancestor (List.mem_cons_of_mem _ inRest))

theorem archiveScopes_active {ids : List String} {archivedAt : Int} {id : String}
    (outside : id ∉ ids) (active : db.HasActiveScope id) :
    (db.archiveScopes ids archivedAt).HasActiveScope id := by
  obtain ⟨row, found, enabled⟩ := active
  obtain ⟨revision, looked⟩ := lookup_archiveScopes db ids archivedAt id
  have sameId : row.id = id := scope_id found
  refine ⟨row, ?_, enabled⟩
  rw [looked, found, Option.map_some, sameId, if_neg outside]

theorem ScopeTree.archiveScopes (tree : db.ScopeTree) {ids : List String} (archivedAt : Int)
    (closed : db.ClosedBelow ids) : (db.archiveScopes ids archivedAt).ScopeTree := by
  have rows : ∀ row ∈ (db.archiveScopes ids archivedAt).managedScopes, ∃ old ∈ db.managedScopes,
      row.id = old.id ∧ row.kind = old.kind ∧ row.externalKey = old.externalKey ∧
        row.parentScopeId = old.parentScopeId ∧ row.managedBy = old.managedBy ∧
        (row.status = .active → old.status = .active ∧ old.id ∉ ids) := by
    intro row inAfter
    obtain ⟨revision, same⟩ := archiveScopes_managedScopes db ids archivedAt
    rw [same] at inAfter
    obtain ⟨old, inTable, rfl⟩ := Table.mem_update.mp inAfter
    refine ⟨old, inTable, ?_⟩
    by_cases inIds : old.id ∈ ids
    · simp [inIds]
    · simp [inIds]
  have kinds : ∀ id, ((db.archiveScopes ids archivedAt).managedScopes.lookup id).map (·.kind) =
      (db.managedScopes.lookup id).map (·.kind) := by
    intro id
    obtain ⟨revision, looked⟩ := lookup_archiveScopes db ids archivedAt id
    rw [looked]
    cases db.managedScopes.lookup id with
    | none => rfl
    | some row =>
      by_cases inIds : row.id ∈ ids
      · simp [inIds]
      · simp [inIds]
  exact
    { placed := by
        intro row inAfter
        obtain ⟨old, inTable, -, kind, externalKey, parent, managed, -⟩ := rows row inAfter
        rw [placementAllowed_congr row kinds]
        have allowed := tree.placed old inTable
        simpa only [placementAllowed, hasParentOfKind, kind, externalKey, parent, managed] using allowed
      above := by
        intro row inAfter enabled parentId given
        obtain ⟨old, inTable, -, -, -, parent, -, active⟩ := rows row inAfter
        obtain ⟨oldEnabled, outside⟩ := active enabled
        have oldGiven : old.parentScopeId = some parentId := parent.symm.trans given
        exact archiveScopes_active (fun inIds => outside (closed old inTable parentId oldGiven inIds))
          (tree.above old inTable oldEnabled parentId oldGiven)
      named := by
        intro row inAfter
        obtain ⟨old, inTable, id, -⟩ := rows row inAfter
        rw [id]
        exact tree.named old inTable }

end OrganizationDatabase

end PlatformClaw.Organization
