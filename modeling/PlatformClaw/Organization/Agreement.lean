import PlatformClaw.Library.KeyedRows
import PlatformClaw.Organization.Model

/-! # The deciders agree

What an active organization is, independently of how it is decided: the scope
and all its ancestors are active. Each decider is compared with that on a
database that satisfies the constraints of its schema, and the capabilities of a
search are compared with those of the whole database.
-/

namespace PlatformClaw.Organization

open Except (bind_ok_iff)
open ParentWalk (Ancestry)

/-- How far a kind is from the root of the tree. -/
def ScopeKind.depth : ScopeKind → Nat
  | .team => 0
  | .group => 1
  | .part => 2

namespace OrganizationStore

/-- The constraints on scopes: the primary key, the kinds of parents that the checks and
    the parent-kind triggers demand, and the directory origin of a part without a parent. -/
structure SchemaConstraints (store : OrganizationStore) : Prop where
  scopeIds : store.managedScopes.Pairwise fun a b => a.id ≠ b.id
  team : ∀ row ∈ store.managedScopes, row.kind = .team → row.parentScopeId = none
  group : ∀ row ∈ store.managedScopes, row.kind = .group →
    ∃ parent ∈ store.managedScopes, row.parentScopeId = some parent.id ∧ parent.kind = .team
  part : ∀ row ∈ store.managedScopes, row.kind = .part → (row.parentScopeId = none ∧ row.managedBy = some .ldapLogin ∧
      ∃ name ≠ "", row.externalKey = some ("aicm-part:" ++ name)) ∨
    ∃ parent ∈ store.managedScopes, row.parentScopeId = some parent.id ∧ parent.kind = .group

/-- No scope has an empty id, name or creator. -/
def TextsPresent (store : OrganizationStore) : Prop :=
  ∀ row ∈ store.managedScopes, row.id ≠ "" ∧ row.name ≠ "" ∧ row.createdByUserId ≠ ""

def IsActiveOrganization (store : OrganizationStore) (row : ManagedScopeRow) : Prop :=
  ∃ lineage, Ancestry ManagedScopeRow.parentScopeId store.scope? row lineage ∧
    ∀ ancestor ∈ lineage, ancestor.status = .active

theorem scope?_some {store : OrganizationStore} {id : String} {row : ManagedScopeRow}
    (found : store.scope? id = some row) : row ∈ store.managedScopes ∧ row.id = id :=
  ⟨List.mem_of_find?_eq_some found, by simpa using List.find?_some found⟩

namespace SchemaConstraints

variable {store : OrganizationStore}

theorem unique (constraints : store.SchemaConstraints) {a b : ManagedScopeRow}
    (inA : a ∈ store.managedScopes) (inB : b ∈ store.managedScopes) (same : a.id = b.id) :
    a = b :=
  KeyedRows.unique constraints.scopeIds inA inB same

theorem scope?_id (constraints : store.SchemaConstraints) {row : ManagedScopeRow}
    (inTable : row ∈ store.managedScopes) : store.scope? row.id = some row :=
  KeyedRows.find?_key constraints.scopeIds inTable

theorem shapes (constraints : store.SchemaConstraints) {row : ManagedScopeRow} (inTable : row ∈ store.managedScopes) :
    (row.kind = .team ∧ row.parentScopeId = none) ∨
    (row.kind = .part ∧ row.parentScopeId = none) ∨
    (row.kind = .group ∧ ∃ team ∈ store.managedScopes, row.parentScopeId = some team.id ∧
      team.kind = .team ∧ team.parentScopeId = none) ∨
    (row.kind = .part ∧ ∃ group ∈ store.managedScopes, row.parentScopeId = some group.id ∧
      group.kind = .group ∧ ∃ team ∈ store.managedScopes, group.parentScopeId = some team.id ∧
        team.kind = .team ∧ team.parentScopeId = none) := by
  cases kind : row.kind with
  | team => exact .inl ⟨rfl, constraints.team row inTable kind⟩
  | group =>
    obtain ⟨team, inTeams, named, isTeam⟩ := constraints.group row inTable kind
    exact .inr (.inr (.inl ⟨rfl, team, inTeams, named, isTeam, constraints.team team inTeams isTeam⟩))
  | part =>
    cases constraints.part row inTable kind with
    | inl orphan => exact .inr (.inl ⟨rfl, orphan.1⟩)
    | inr placed =>
      obtain ⟨group, inGroups, named, isGroup⟩ := placed
      obtain ⟨team, inTeams, above, isTeam⟩ := constraints.group group inGroups isGroup
      exact .inr (.inr (.inr ⟨rfl, group, inGroups, named, isGroup, team, inTeams, above, isTeam,
        constraints.team team inTeams isTeam⟩))

theorem descends (constraints : store.SchemaConstraints) (row : ManagedScopeRow)
    (inTable : row ∈ store.managedScopes) (id : String) (parent : ManagedScopeRow)
    (named : row.parentScopeId = some id) (found : store.scope? id = some parent) :
    parent ∈ store.managedScopes ∧ parent.kind.depth < row.kind.depth := by
  obtain ⟨inParents, rfl⟩ := scope?_some found
  refine ⟨inParents, ?_⟩
  rcases constraints.shapes inTable with ⟨kind, orphan⟩ | ⟨kind, orphan⟩ |
    ⟨kind, team, inTeams, above, isTeam, _⟩ | ⟨kind, group, inGroups, above, isGroup, _⟩
  · rw [orphan] at named; cases named
  · rw [orphan] at named; cases named
  · rw [named] at above
    rw [constraints.unique inParents inTeams (Option.some.inj above), kind, isTeam]
    decide
  · rw [named] at above
    rw [constraints.unique inParents inGroups (Option.some.inj above), kind, isGroup]
    decide

theorem ancestry (constraints : store.SchemaConstraints) {row : ManagedScopeRow}
    (inTable : row ∈ store.managedScopes) :
    ∃ lineage, Ancestry ManagedScopeRow.parentScopeId store.scope? row lineage := by
  refine Ancestry.exists_of_resolves constraints.descends ?_ inTable
  intro row inTable id named
  rcases constraints.shapes inTable with ⟨_, orphan⟩ | ⟨_, orphan⟩ |
    ⟨_, parent, inParents, above, _⟩ | ⟨_, parent, inParents, above, _⟩
  · rw [orphan] at named; cases named
  · rw [orphan] at named; cases named
  · rw [named] at above
    exact ⟨parent, Option.some.inj above ▸ constraints.scope?_id inParents⟩
  · rw [named] at above
    exact ⟨parent, Option.some.inj above ▸ constraints.scope?_id inParents⟩

theorem active_root {row : ManagedScopeRow} (orphan : row.parentScopeId = none) :
    store.IsActiveOrganization row ↔ row.status = .active := by
  constructor
  · intro ⟨lineage, chain, active⟩
    exact active row chain.head_mem
  · intro active
    exact ⟨_, .root orphan, fun ancestor same => List.mem_singleton.mp same ▸ active⟩

theorem active_child (constraints : store.SchemaConstraints) {row parent : ManagedScopeRow}
    (inParents : parent ∈ store.managedScopes) (named : row.parentScopeId = some parent.id) :
    store.IsActiveOrganization row ↔ row.status = .active ∧ store.IsActiveOrganization parent := by
  have found := constraints.scope?_id inParents
  constructor
  · intro ⟨lineage, chain, active⟩
    cases chain with
    | root orphan => rw [orphan] at named; cases named
    | child named' found' rest =>
      rw [named] at named'
      cases named'
      rw [found] at found'
      cases found'
      exact ⟨active _ List.mem_cons_self, _, rest,
        fun ancestor inRest => active ancestor (List.mem_cons_of_mem _ inRest)⟩
  · intro ⟨active, lineage, rest, above⟩
    refine ⟨_, .child named found rest, ?_⟩
    intro ancestor inLineage
    cases List.mem_cons.mp inLineage with
    | inl same => exact same ▸ active
    | inr later => exact above ancestor later

theorem searchShape_iff (constraints : store.SchemaConstraints) {row : ManagedScopeRow}
    (inTable : row ∈ store.managedScopes) :
    store.searchShape row = true ↔ store.IsActiveOrganization row := by
  rcases constraints.shapes inTable with ⟨kind, orphan⟩ | ⟨kind, orphan⟩ |
    ⟨kind, team, inTeams, above, isTeam, root⟩ |
    ⟨kind, group, inGroups, above, isGroup, team, inTeams, above', isTeam, root⟩
  · rw [active_root orphan]
    simp [searchShape, kind, orphan]
  · rw [active_root orphan]
    simp [searchShape, kind, orphan]
  · rw [constraints.active_child inTeams above, active_root root]
    simp [searchShape, kind, parent?, above, constraints.scope?_id inTeams, isTeam, root]
  · rw [constraints.active_child inGroups above, constraints.active_child inTeams above', active_root root]
    simp [searchShape, kind, parent?, above, constraints.scope?_id inGroups, isGroup, above',
      constraints.scope?_id inTeams, isTeam, root]

theorem mem_activeWikiOrganizations_iff (constraints : store.SchemaConstraints)
    {row : ManagedScopeRow} (inTable : row ∈ store.managedScopes) :
    row ∈ store.activeWikiOrganizations ↔ store.IsActiveOrganization row := by
  rw [activeWikiOrganizations, List.mem_filter, and_iff_right inTable]
  rcases constraints.shapes inTable with ⟨kind, orphan⟩ | ⟨kind, orphan⟩ |
    ⟨kind, team, inTeams, above, isTeam, root⟩ |
    ⟨kind, group, inGroups, above, isGroup, team, inTeams, above', isTeam, root⟩
  · rw [active_root orphan]
    simp [kind, orphan]
  · rw [active_root orphan]
    simp [kind, orphan]
  · rw [constraints.active_child inTeams above, active_root root]
    simp [kind, above, constraints.scope?_id inTeams, isTeam, root]
  · rw [constraints.active_child inGroups above, constraints.active_child inTeams above', active_root root]
    simp [kind, above, constraints.scope?_id inGroups, isGroup, above', constraints.scope?_id inTeams, isTeam, root]

end SchemaConstraints

def Covers (scopes : List ManagedScope) (row : ManagedScopeRow) : Prop :=
  scopeById scopes row.id = some (rowToScope row)

variable {store : OrganizationStore}

theorem covers_of_mem (constraints : store.SchemaConstraints) {scopes : List ManagedScope}
    (fromRows : ∀ scope ∈ scopes, ∃ row ∈ store.managedScopes, scope = rowToScope row)
    {row : ManagedScopeRow} (inTable : row ∈ store.managedScopes)
    (held : ∃ scope ∈ scopes, scope.id = row.id) : Covers scopes row := by
  unfold Covers scopeById
  cases found : scopes.reverse.find? (fun scope => scope.id = row.id) with
  | none =>
    obtain ⟨scope, inScopes, same⟩ := held
    have missing := List.find?_eq_none.mp found scope (List.mem_reverse.mpr inScopes)
    exact absurd (by simpa using same) missing
  | some scope =>
    have same : scope.id = row.id := by simpa using List.find?_some found
    obtain ⟨other, inOther, rfl⟩ :=
      fromRows scope (List.mem_reverse.mp (List.mem_of_find?_eq_some found))
    rw [constraints.unique inOther inTable same]

theorem covers_all (constraints : store.SchemaConstraints) {row : ManagedScopeRow}
    (inTable : row ∈ store.managedScopes) : Covers (store.managedScopes.map rowToScope) row := by
  apply covers_of_mem constraints ?_ inTable ⟨_, List.mem_map.mpr ⟨row, inTable, rfl⟩, rfl⟩
  intro scope inScopes
  obtain ⟨other, inOther, rfl⟩ := List.mem_map.mp inScopes
  exact ⟨other, inOther, rfl⟩

theorem lineageFor_eq (constraints : store.SchemaConstraints) (texts : store.TextsPresent)
    {scopes : List ManagedScope} {row : ManagedScopeRow} {lineage : List ManagedScopeRow}
    (inTable : row ∈ store.managedScopes)
    (chain : Ancestry ManagedScopeRow.parentScopeId store.scope? row lineage)
    (covered : ∀ ancestor ∈ lineage, Covers scopes ancestor) :
    lineageFor (rowToScope row) scopes = lineage.map rowToScope := by
  have inStore := fun ancestor inLineage =>
    (chain.forall_mem constraints.descends inTable ancestor inLineage).1
  have parents : ∀ ancestor ∈ lineage, truthy (rowToScope ancestor).parentScopeId = ancestor.parentScopeId := by
    intro ancestor inLineage
    cases named : ancestor.parentScopeId with
    | none => simp [rowToScope, named, truthy]
    | some id =>
      -- A parent key resolves to a row, whose id is not empty.
      obtain ⟨parents, above⟩ := constraints.ancestry (inStore ancestor inLineage)
      have present : id ≠ "" := by
        cases above with
        | root orphan => rw [orphan] at named; cases named
        | child named' found _ =>
          rw [named] at named'
          cases named'
          obtain ⟨inParents, rfl⟩ := scope?_some found
          exact (texts _ inParents).1
      simp [rowToScope, named, truthy, present]
  have lookups : ∀ ancestor ∈ lineage, ∀ id, store.scope? id = some ancestor →
      scopeById scopes id = some (rowToScope ancestor) := by
    intro ancestor inLineage id found
    obtain ⟨_, rfl⟩ := scope?_some found
    exact covered ancestor inLineage
  have lifted : Ancestry (truthy ·.parentScopeId) (scopeById scopes) (rowToScope row)
      (lineage.map rowToScope) := chain.map parents lookups
  have distinct : (lineage.map rowToScope).Pairwise fun a b => a.id ≠ b.id := by
    apply List.pairwise_map.mpr
    apply (chain.ranks_decrease constraints.descends inTable).imp_of_mem
    intro a b inA inB lower same
    rw [constraints.unique (inStore a inA) (inStore b inB) same] at lower
    exact Nat.lt_irrefl _ lower
  have enough : (lineage.map rowToScope).length ≤ scopes.length + 2 := by
    have short := chain.length_le constraints.descends inTable
    have shallow : row.kind.depth ≤ 2 := by cases row.kind <;> decide
    have held : 0 < scopes.length := by
      have found := covered row chain.head_mem
      cases scopes with
      | nil => cases found
      | cons _ _ => exact Nat.succ_pos _
    rw [List.length_map]
    omega
  exact lifted.walk_eq distinct (fun _ _ => List.not_mem_nil) enough []

theorem lineageActive_iff (constraints : store.SchemaConstraints) (texts : store.TextsPresent)
    {row : ManagedScopeRow} (inTable : row ∈ store.managedScopes) :
    lineageActive (lineageFor (rowToScope row) (store.managedScopes.map rowToScope)) = true ↔
      store.IsActiveOrganization row := by
  obtain ⟨lineage, chain⟩ := constraints.ancestry inTable
  rw [lineageFor_eq constraints texts inTable chain]
  · have active : lineageActive (lineage.map rowToScope) = true ↔
        ∀ ancestor ∈ lineage, ancestor.status = .active := by
      have inhabited := List.length_pos_of_mem chain.head_mem
      simp only [lineageActive, List.length_map, inhabited, decide_true, Bool.true_and,
        List.all_eq_true, List.forall_mem_map, decide_eq_true_eq]
      exact Iff.rfl
    rw [active]
    constructor
    · exact fun all => ⟨lineage, chain, all⟩
    · intro ⟨other, chain', all⟩
      exact chain.unique chain' ▸ all
  · intro ancestor inLineage
    exact covers_all constraints (chain.forall_mem constraints.descends inTable ancestor inLineage).1

/-- Scopes read from rows of the store, and nothing else. -/
def IsContext (store : OrganizationStore) (scopes : List ManagedScope) : Prop :=
  ∀ scope ∈ scopes, ∃ row ∈ store.managedScopes, scope = rowToScope row

def Holds (scopes : List ManagedScope) (id : String) : Prop :=
  ∃ scope ∈ scopes, scope.id = id

theorem setScope_isContext {scopes : List ManagedScope} {row : ManagedScopeRow}
    (context : store.IsContext scopes) (inTable : row ∈ store.managedScopes) :
    store.IsContext (setScope scopes (rowToScope row)) := by
  unfold setScope
  intro scope inScopes
  split at inScopes
  · obtain ⟨other, inOther, rfl⟩ := List.mem_map.mp inScopes
    split
    · exact ⟨row, inTable, rfl⟩
    · exact context other inOther
  · cases List.mem_append.mp inScopes with
    | inl old => exact context scope old
    | inr new => exact ⟨row, inTable, List.mem_singleton.mp new⟩

theorem setScope_holds {scopes : List ManagedScope} {scope : ManagedScope} {id : String}
    (held : Holds scopes id ∨ scope.id = id) : Holds (setScope scopes scope) id := by
  unfold setScope
  split
  · rename_i present
    have old : Holds scopes id := by
      cases held with
      | inl old => exact old
      | inr new =>
        obtain ⟨other, inScopes, same⟩ := List.any_eq_true.mp present
        exact ⟨other, inScopes, (of_decide_eq_true same).trans new⟩
    obtain ⟨other, inScopes, same⟩ := old
    refine ⟨_, List.mem_map.mpr ⟨other, inScopes, rfl⟩, ?_⟩
    split
    · rename_i replaced
      exact replaced.symm.trans same
    · exact same
  · cases held with
    | inl old =>
      obtain ⟨other, inScopes, same⟩ := old
      exact ⟨other, List.mem_append_left _ inScopes, same⟩
    | inr new => exact ⟨scope, List.mem_append_right _ (List.mem_singleton.mpr rfl), new⟩

theorem parent?_mem {row parent : ManagedScopeRow} (found : store.parent? row = some parent) :
    parent ∈ store.managedScopes := by
  obtain ⟨id, _, lookup⟩ := Option.bind_eq_some_iff.mp found
  exact (scope?_some lookup).1

theorem joinedScope_eq (texts : store.TextsPresent) {row : ManagedScopeRow}
    (inTable : row ∈ store.managedScopes) : joinedScope row = some (rowToScope row) :=
  if_pos (texts row inTable)

/-- The rows a selected row brings along: itself, its parent and its grandparent. -/
def IsNear (store : OrganizationStore) (row ancestor : ManagedScopeRow) : Prop :=
  ancestor = row ∨ store.parent? row = some ancestor ∨ (store.parent? row).bind store.parent? = some ancestor

theorem addLineage_isContext (texts : store.TextsPresent) {scopes : List ManagedScope}
    {row : ManagedScopeRow} (context : store.IsContext scopes)
    (inTable : row ∈ store.managedScopes) : store.IsContext (store.addLineage scopes row) := by
  have selected := setScope_isContext context inTable
  unfold addLineage
  cases found : store.parent? row with
  | none => exact selected
  | some parent =>
    have inParents := parent?_mem found
    have joined := setScope_isContext selected inParents
    cases above : store.parent? parent with
    | none => simpa [above, joinedScope_eq texts inParents] using joined
    | some grandparent =>
      have inGrandparents := parent?_mem above
      simpa [above, joinedScope_eq texts inParents, joinedScope_eq texts inGrandparents] using
        setScope_isContext joined inGrandparents

theorem addLineage_holds (texts : store.TextsPresent) {scopes : List ManagedScope}
    {row : ManagedScopeRow} {id : String}
    (held : Holds scopes id ∨ ∃ ancestor, store.IsNear row ancestor ∧ ancestor.id = id) :
    Holds (store.addLineage scopes row) id := by
  have selected : Holds scopes id ∨ row.id = id → Holds (setScope scopes (rowToScope row)) id :=
    fun near => setScope_holds near
  unfold addLineage
  unfold IsNear at held
  cases found : store.parent? row with
  | none =>
    apply selected
    simpa [found] using held
  | some parent =>
    have parentScope := joinedScope_eq texts (parent?_mem found)
    have joined : (Holds scopes id ∨ row.id = id) ∨ parent.id = id →
        Holds (setScope (setScope scopes (rowToScope row)) (rowToScope parent)) id :=
      fun near => setScope_holds (near.imp_left selected)
    cases above : store.parent? parent with
    | none =>
      simp only [above, Option.bind_some, Option.elim, parentScope]
      apply joined
      simpa [found, above, or_assoc] using held
    | some grandparent =>
      have grandparentScope := joinedScope_eq texts (parent?_mem above)
      simp only [above, Option.bind_some, Option.elim, parentScope, grandparentScope]
      apply setScope_holds
      have near : ((Holds scopes id ∨ row.id = id) ∨ parent.id = id) ∨ grandparent.id = id := by
        simpa [found, above, or_assoc] using held
      exact near.imp_left joined

theorem lineageScopes_holds (texts : store.TextsPresent) {rows : List ManagedScopeRow}
    {row ancestor : ManagedScopeRow} (selected : row ∈ rows) (near : store.IsNear row ancestor) :
    Holds (store.lineageScopes rows) ancestor.id := by
  have fold : ∀ scopes, Holds scopes ancestor.id ∨ row ∈ rows →
      Holds (rows.foldl store.addLineage scopes) ancestor.id := by
    clear selected
    induction rows with
    | nil => exact fun scopes held => held.elim id nofun
    | cons first rest ih =>
      intro scopes held
      apply ih
      cases held with
      | inl old => exact .inl (addLineage_holds texts (.inl old))
      | inr listed =>
        cases List.mem_cons.mp listed with
        | inl same => exact .inl (addLineage_holds texts (.inr ⟨ancestor, same ▸ near, rfl⟩))
        | inr later => exact .inr later
  exact fold [] (.inr selected)

theorem lineageScopes_isContext (texts : store.TextsPresent) {rows : List ManagedScopeRow}
    (inTable : ∀ row ∈ rows, row ∈ store.managedScopes) :
    store.IsContext (store.lineageScopes rows) := by
  have fold : ∀ scopes, store.IsContext scopes → store.IsContext (rows.foldl store.addLineage scopes) := by
    induction rows with
    | nil => exact fun scopes context => context
    | cons first rest ih =>
      intro scopes context
      apply ih (fun row later => inTable row (List.mem_cons_of_mem _ later))
      exact addLineage_isContext texts context (inTable first List.mem_cons_self)
  exact fold [] nofun

theorem isNear_of_ancestry (constraints : store.SchemaConstraints) {row : ManagedScopeRow}
    {lineage : List ManagedScopeRow} (inTable : row ∈ store.managedScopes)
    (chain : Ancestry ManagedScopeRow.parentScopeId store.scope? row lineage) :
    ∀ ancestor ∈ lineage, store.IsNear row ancestor := by
  rcases constraints.shapes inTable with ⟨_, orphan⟩ | ⟨_, orphan⟩ | ⟨_, team, inTeams, above, _, root⟩ |
    ⟨_, group, inGroups, above, _, team, inTeams, above', _, root⟩
  · rw [chain.unique (.root orphan)]
    simp [IsNear]
  · rw [chain.unique (.root orphan)]
    simp [IsNear]
  · rw [chain.unique (.child above (constraints.scope?_id inTeams) (.root root))]
    simp [IsNear, parent?, above, constraints.scope?_id inTeams]
  · rw [chain.unique (.child above (constraints.scope?_id inGroups)
      (.child above' (constraints.scope?_id inTeams) (.root root)))]
    simp [IsNear, parent?, above, above', constraints.scope?_id inGroups, constraints.scope?_id inTeams]

theorem capabilities_congr (actor : PlatformUserRow) (target : ManagedScope)
    {scopes scopes' : List ManagedScope} {memberships memberships' : List ScopeMembershipRow}
    (lineages : lineageFor target scopes = lineageFor target scopes')
    (lookups : ∀ scope ∈ lineageFor target scopes',
      membershipByScope memberships scope.id = membershipByScope memberships' scope.id) :
    (resolveOrganizationAuthorization (some actor) (some target) scopes memberships).toCapabilities =
      (resolveOrganizationAuthorization (some actor) (some target) scopes' memberships').toCapabilities := by
  have leaders : (lineageFor target scopes').filter (fun scope =>
        (membershipByScope memberships scope.id).any fun m => m.role = .leader) =
      (lineageFor target scopes').filter (fun scope =>
        (membershipByScope memberships' scope.id).any fun m => m.role = .leader) := by
    apply List.filter_congr
    intro scope inLineage
    rw [lookups scope inLineage]
  simp only [resolveOrganizationAuthorization, lineages]
  split
  · rfl
  · split
    · rfl
    · split
      · rfl
      · simp only [leaders]

theorem membershipByScope_filter {memberships : List ScopeMembershipRow} {ids : List String}
    {id : String} (listed : id ∈ ids) (userId : String) :
    membershipByScope (memberships.filter fun m => m.userId = userId ∧ m.scopeId ∈ ids) id =
      membershipByScope (memberships.filter fun m => m.userId = userId) id := by
  simp only [membershipByScope, ← List.filter_reverse, List.find?_filter]
  congr 1
  funext membership
  by_cases here : membership.scopeId = id
  · simp [here, listed]
  · simp [here]

theorem mem_searchRows {named : String → Bool} {limit : Int} {row : ManagedScopeRow}
    (selected : row ∈ store.searchRows named limit) : row ∈ store.managedScopes := by
  have sorted := List.mem_of_mem_take selected
  exact (List.mem_filter.mp (List.mem_mergeSort.mp sorted)).1

/-- All deciders give the same answer on every scope, and the capabilities of a search
    are those of the whole database. -/
def DecidersAgree (store : OrganizationStore) : Prop :=
  (∀ row ∈ store.managedScopes,
    (lineageActive (lineageFor (rowToScope row) (store.managedScopes.map rowToScope)) = true ↔
      row ∈ store.activeWikiOrganizations) ∧
    (row ∈ store.activeWikiOrganizations ↔ store.searchShape row = true)) ∧
  ∀ userId named limit results, store.searchOrganizationScopesForUser userId named limit = .ok results →
    ∀ result ∈ results, result.capabilities =
      (store.resolveOrganizationAuthorizationSnapshot userId result.scope.id).toCapabilities

theorem search_capabilities (constraints : store.SchemaConstraints) (texts : store.TextsPresent)
    {userId : String} {named : String → Bool} {limit : Int} {results : List SearchResult}
    (found : store.searchOrganizationScopesForUser userId named limit = .ok results) :
    ∀ result ∈ results, result.capabilities =
      (store.resolveOrganizationAuthorizationSnapshot userId result.scope.id).toCapabilities := by
  simp only [searchOrganizationScopesForUser, bind_ok_iff, Except.orThrow_ok_iff, Except.pure_ok_iff] at found
  obtain ⟨user, selected, _, _, rfl⟩ := found
  intro result inResults
  obtain ⟨row, inRows, rfl⟩ := List.mem_map.mp inResults
  have inTable := mem_searchRows inRows
  obtain ⟨lineage, chain⟩ := constraints.ancestry inTable
  have inStore := fun ancestor inLineage =>
    (chain.forall_mem constraints.descends inTable ancestor inLineage).1
  have held : ∀ ancestor ∈ lineage, Holds (store.lineageScopes (store.searchRows named limit)) ancestor.id :=
    fun ancestor inLineage => lineageScopes_holds texts inRows
      (isNear_of_ancestry constraints inTable chain ancestor inLineage)
  have context := lineageScopes_isContext texts fun row (selected : row ∈ store.searchRows named limit) =>
    mem_searchRows selected
  have bounded : lineageFor (rowToScope row) (store.lineageScopes (store.searchRows named limit)) =
      lineage.map rowToScope :=
    lineageFor_eq constraints texts inTable chain fun ancestor inLineage =>
      covers_of_mem constraints context (inStore ancestor inLineage) (held ancestor inLineage)
  have full : lineageFor (rowToScope row) (store.managedScopes.map rowToScope) = lineage.map rowToScope :=
    lineageFor_eq constraints texts inTable chain fun ancestor inLineage =>
      covers_all constraints (inStore ancestor inLineage)
  have target : store.scope? (rowToScope row).id = some row := constraints.scope?_id inTable
  simp only [resolveOrganizationAuthorizationSnapshot, selected, target, Option.map_some]
  apply capabilities_congr _ _ (bounded.trans full.symm)
  intro scope inLineage
  rw [full] at inLineage
  obtain ⟨ancestor, inAncestors, rfl⟩ := List.mem_map.mp inLineage
  obtain ⟨other, inOther, same⟩ := held ancestor inAncestors
  exact membershipByScope_filter (List.mem_map.mpr ⟨other, inOther, same⟩) user.id

theorem deciders_agree (constraints : store.SchemaConstraints) (texts : store.TextsPresent) :
    store.DecidersAgree := by
  constructor
  · intro row inTable
    have lineage := lineageActive_iff constraints texts inTable
    have wiki := constraints.mem_activeWikiOrganizations_iff inTable
    exact ⟨lineage.trans wiki.symm, wiki.trans (constraints.searchShape_iff inTable).symm⟩
  · intro userId named limit results found
    exact search_capabilities constraints texts found

def sampleScope (id : String) (kind : ScopeKind) (name : String) (parentScopeId : Option String) :
    ManagedScopeRow where
  id := id
  kind := kind
  name := name
  normalizedName := name
  externalKey := none
  managedBy := none
  parentScopeId := parentScopeId
  status := .active
  createdByUserId := "lead"
  createdAt := 0
  updatedAt := 0

def ledTeam (teamName : String) : OrganizationStore where
  platformUsers := [⟨"lead", "lead", none, .active, .member⟩]
  managedScopes := [sampleScope "t" .team teamName none, sampleScope "g" .group "group" (some "t")]
  managedScopeMemberships := [⟨"t", "lead", .leader⟩]
  organizationJoinRequests := []

theorem ledTeam_constraints (teamName : String) : (ledTeam teamName).SchemaConstraints where
  scopeIds := by simp [ledTeam, sampleScope]
  team := by simp [ledTeam, sampleScope]
  group := by simp [ledTeam, sampleScope]
  part := by simp [ledTeam, sampleScope]

theorem ledTeam_agrees : (ledTeam "team").DecidersAgree :=
  deciders_agree (ledTeam_constraints "team") (by simp [TextsPresent, ledTeam, sampleScope])

/-- A search for the group drops its team from the context if the team's name is empty, and
    with it the team leader's capability. -/
theorem unnamed_team_hides_leader : ¬∀ store : OrganizationStore, store.SchemaConstraints → store.DecidersAgree := by
  intro agree
  have capabilities := (agree (ledTeam "") (ledTeam_constraints "")).2
  have rows : (ledTeam "").searchRows (fun name => name.toList.contains 'g') 10 =
      [sampleScope "g" .group "group" (some "t")] := by
    have selected : ((ledTeam "").managedScopes.filter fun row =>
        (ledTeam "").searchShape row && row.normalizedName.toList.contains 'g') =
          [sampleScope "g" .group "group" (some "t")] := by decide
    rw [searchRows, selected, List.mergeSort_singleton]
    rfl
  have found : ∃ result, (ledTeam "").searchOrganizationScopesForUser "lead"
      (fun name => name.toList.contains 'g') 10 = .ok [result] ∧
      result.capabilities.canManageMembers = false ∧ result.scope.id = "g" := by
    rw [searchOrganizationScopesForUser, rows]
    exact ⟨_, rfl, rfl, rfl⟩
  obtain ⟨result, search, hidden, isGroup⟩ := found
  have same := capabilities "lead" _ 10 _ search result List.mem_cons_self
  rw [same, isGroup] at hidden
  exact absurd hidden (by decide)

end OrganizationStore

end PlatformClaw.Organization
