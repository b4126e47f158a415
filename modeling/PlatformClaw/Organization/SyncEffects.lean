import PlatformClaw.Organization.Effects

/-! # What a directory synchronization does

A sync is skipped and leaves everything as it was, or it writes its planned
chain of scopes and then moves the membership of the employee. The plans are
described by what they were made from, the writes by what becomes of each row.
-/

namespace PlatformClaw.Organization

open Except (bind_ok_iff)
open ParentWalk (Ancestry)

theorem nextManagedScopeId_ne_empty (uuid : String) : nextManagedScopeId uuid ≠ "" := by
  intro empty
  have chars := congrArg (fun text => text.toList.length) empty
  simp [nextManagedScopeId, String.toList_append] at chars

def ScopePlan.applied (plan : ScopePlan) (normalizedName : String) (sourceUpdatedAt syncedAt : Int)
    (current : DirectoryScopeRow) : DirectoryScopeRow :=
  { current with
    name := plan.name
    normalizedName := normalizedName
    parentScopeId := plan.parentId
    directoryParentKey := plan.parentKey
    directoryUpdatedAt :=
      some (max sourceUpdatedAt (current.directoryUpdatedAt.getD sourceUpdatedAt))
    updatedAt :=
      if current.name ≠ plan.name ∨ current.parentScopeId ≠ plan.parentId then
        max syncedAt (current.updatedAt + 1)
      else current.updatedAt }

def ScopePlan.created (plan : ScopePlan) (normalizedName userId : String)
    (sourceUpdatedAt syncedAt : Int) : DirectoryScopeRow where
  id := plan.id
  kind := plan.kind
  name := plan.name
  normalizedName := normalizedName
  externalKey := some plan.key
  managedBy := some .ldapLogin
  parentScopeId := plan.parentId
  status := .active
  createdByUserId := userId
  createdAt := syncedAt
  updatedAt := syncedAt
  directoryUpdatedAt := some sourceUpdatedAt
  directoryParentKey := plan.parentKey

namespace OrganizationDatabase

variable {db after : OrganizationDatabase}

/-- The plan is about the scope that its key finds, or about a new one. -/
structure Fits (db : OrganizationDatabase) (plan : ScopePlan) : Prop where
  known : ∀ current, plan.existing = some current →
    db.managedScopes.lookup current.id = some current ∧ current.id = plan.id
  fresh : plan.existing = none → plan.id ≠ ""

/-- Each plan is put under an earlier one, or where an existing scope of the chain is. -/
def Linked : List String → List ScopePlan → Prop
  | _, [] => True
  | earlier, plan :: rest =>
    (∀ parentId, plan.parentId = some parentId → parentId ∈ earlier ∨
      ∃ current, plan.existing = some current ∧ current.parentScopeId = some parentId) ∧
    Linked (plan.id :: earlier) rest

theorem directoryScopePlan_fits (kind : ScopeKind) (key name : String)
    (parentId parentKey : Option String) (uuid : String) :
    db.Fits (directoryScopePlan kind key name parentId parentKey (db.selectDirectoryScope key) uuid) := by
  constructor
  · intro current found
    have selected : db.selectDirectoryScope key = some current := found
    constructor
    · exact Table.lookup_eq_some_iff.mpr ⟨List.mem_of_find?_eq_some selected, rfl⟩
    · simp [directoryScopePlan, selected]
  · intro absent
    have missing : db.selectDirectoryScope key = none := absent
    simpa [directoryScopePlan, missing] using nextManagedScopeId_ne_empty uuid

theorem planDirectoryOrganization_fits {org : DirectoryOrganization} {drawn : DrawnIds}
    {plans : List ScopePlan} {partPlan : ScopePlan}
    (planned : db.planDirectoryOrganization org drawn = (plans, partPlan)) :
    ∀ plan ∈ plans ++ [partPlan], db.Fits plan := by
  unfold planDirectoryOrganization at planned
  cases named : org.group with
  | none =>
    simp only [named, Prod.mk.injEq] at planned
    obtain ⟨rfl, rfl⟩ := planned
    simpa using directoryScopePlan_fits ..
  | some node =>
    cases team : org.team <;>
      cases known : db.selectDirectoryScope (groupKey node.id) <;>
      simp only [named, team, known, Prod.mk.injEq] at planned <;>
      obtain ⟨rfl, rfl⟩ := planned <;>
      simp only [← known, List.nil_append, List.cons_append, List.forall_mem_cons,
        List.not_mem_nil, false_implies, implies_true, and_true]
    · exact directoryScopePlan_fits ..
    · exact ⟨directoryScopePlan_fits .., directoryScopePlan_fits ..⟩
    · exact ⟨directoryScopePlan_fits .., directoryScopePlan_fits .., directoryScopePlan_fits ..⟩
    · exact ⟨directoryScopePlan_fits .., directoryScopePlan_fits .., directoryScopePlan_fits ..⟩

theorem planDirectoryOrganization_linked {org : DirectoryOrganization} {drawn : DrawnIds}
    {plans : List ScopePlan} {partPlan : ScopePlan}
    (planned : db.planDirectoryOrganization org drawn = (plans, partPlan)) :
    Linked [] (plans ++ [partPlan]) := by
  unfold planDirectoryOrganization at planned
  cases named : org.group with
  | none =>
    simp only [named, Prod.mk.injEq] at planned
    obtain ⟨rfl, rfl⟩ := planned
    simp only [List.nil_append, Linked, directoryScopePlan, and_true]
    intro parentId given
    exact .inr (Option.bind_eq_some_iff.mp given)
  | some node =>
    cases team : org.team <;>
      cases known : db.selectDirectoryScope (groupKey node.id) <;>
      simp only [named, team, known, Prod.mk.injEq] at planned <;>
      obtain ⟨rfl, rfl⟩ := planned <;>
      simp [Linked, directoryScopePlan]

theorem writeDirectoryScope_ok {lowerCase : String → String} {plan : ScopePlan} {userId : String}
    {sourceUpdatedAt syncedAt : Int}
    (done : db.writeDirectoryScope lowerCase plan userId sourceUpdatedAt syncedAt = .ok after) :
    (plan.existing = none ∧ ∃ normalizedName,
        db.insertScope (plan.created normalizedName userId sourceUpdatedAt syncedAt) = .ok after) ∨
      ∃ current, plan.existing = some current ∧ (after = db ∨
          ((plan.changes current = true ∨ current.directoryUpdatedAt.getD 0 < sourceUpdatedAt) ∧ ∃ normalizedName,
              db.moveScope (plan.applied normalizedName sourceUpdatedAt syncedAt current) = .ok after)) := by
  unfold writeDirectoryScope at done
  cases existing : plan.existing with
  | none =>
    simp only [existing, bind_ok_iff] at done
    obtain ⟨normalizedName, -, inserted⟩ := done
    exact .inl ⟨rfl, normalizedName, inserted⟩
  | some current =>
    simp only [existing, Except.ite_ok_iff, bind_ok_iff, Except.pure_ok_iff] at done
    refine .inr ⟨current, rfl, ?_⟩
    rcases done with ⟨wanted, normalizedName, -, moved⟩ | ⟨-, rfl⟩
    · exact .inr ⟨wanted, normalizedName, moved⟩
    · exact .inl rfl

/-- What the writes have made of the rows that were there: a row is as it was, or as a plan
    that found it wants it. -/
def Traced (before : OrganizationDatabase) (plans : List ScopePlan) (sourceUpdatedAt syncedAt : Int)
    (db : OrganizationDatabase) : Prop :=
  ∀ id row, before.managedScopes.lookup id = some row → ∃ row', db.managedScopes.lookup id = some row' ∧
      (row' = row ∨ ∃ plan ∈ plans, plan.existing = some row ∧
        (plan.changes row = true ∨ row.directoryUpdatedAt.getD 0 < sourceUpdatedAt) ∧
        ∃ normalizedName, row' = plan.applied normalizedName sourceUpdatedAt syncedAt row)

variable {before : OrganizationDatabase} {sourceUpdatedAt syncedAt : Int}

theorem Traced.writeDirectoryScope {plans : List ScopePlan} {lowerCase : String → String}
    {plan : ScopePlan} {userId : String} (traced : before.Traced plans sourceUpdatedAt syncedAt db)
    (listed : plan ∈ plans) (fits : before.Fits plan)
    (done : db.writeDirectoryScope lowerCase plan userId sourceUpdatedAt syncedAt = .ok after) :
    before.Traced plans sourceUpdatedAt syncedAt after := by
  rcases writeDirectoryScope_ok done with ⟨-, normalizedName, created⟩ | ⟨current, existing, same | moved⟩
  · obtain ⟨-, -, scopes, inserted, rfl⟩ := insertScope_ok created
    intro id row found
    obtain ⟨row', found', as⟩ := traced id row found
    refine ⟨row', ?_, as⟩
    have apart : plan.id ≠ id := by
      intro clash
      have absent : db.managedScopes.lookup plan.id = none := Table.insert?_absent inserted
      rw [clash, found'] at absent
      cases absent
    exact (Table.lookup_insert? inserted id).trans ((if_neg apart).trans found')
  · exact same ▸ traced
  · obtain ⟨wanted, normalizedName, done⟩ := moved
    obtain ⟨-, -, rfl⟩ := moveScope_ok done
    obtain ⟨known, -⟩ := fits.known current existing
    obtain ⟨there, foundThere, -⟩ := traced current.id current known
    intro id row found
    have lookups := lookup_setScope (plan.applied normalizedName sourceUpdatedAt syncedAt current) foundThere id
    by_cases here : current.id = id
    · subst here
      rw [known] at found
      cases found
      exact ⟨_, lookups.trans (if_pos rfl), .inr ⟨plan, listed, existing, wanted, normalizedName, rfl⟩⟩
    · obtain ⟨row', found', as⟩ := traced id row found
      exact ⟨row', (lookups.trans (if_neg here)).trans found', as⟩

theorem Traced.refl (plans : List ScopePlan) : db.Traced plans sourceUpdatedAt syncedAt db :=
  fun _ row found => ⟨row, found, .inl rfl⟩

/-- The writes of a whole chain, and nothing but scopes is written. -/
theorem writeDirectoryScopes_ok {plans rest : List ScopePlan} {lowerCase : String → String}
    {userId : String} (traced : before.Traced plans sourceUpdatedAt syncedAt db)
    (listed : ∀ plan ∈ rest, plan ∈ plans ∧ before.Fits plan)
    (done : db.writeDirectoryScopes lowerCase userId sourceUpdatedAt syncedAt rest = .ok after) :
    before.Traced plans sourceUpdatedAt syncedAt after ∧ ∃ scopes, after = { db with managedScopes := scopes } := by
  induction rest generalizing db with
  | nil =>
    simp only [writeDirectoryScopes, Except.pure_ok_iff] at done
    exact ⟨done ▸ traced, db.managedScopes, done.symm⟩
  | cons plan rest ih =>
    simp only [writeDirectoryScopes, bind_ok_iff] at done
    obtain ⟨written, first, later⟩ := done
    obtain ⟨inPlans, fits⟩ := listed plan List.mem_cons_self
    have scopesOnly : ∃ scopes, written = { db with managedScopes := scopes } := by
      rcases writeDirectoryScope_ok first with ⟨-, _, created⟩ | ⟨_, -, rfl | ⟨-, _, moved⟩⟩
      · obtain ⟨-, -, scopes, -, same⟩ := insertScope_ok created
        exact ⟨scopes, same⟩
      · exact ⟨_, rfl⟩
      · obtain ⟨-, -, same⟩ := moveScope_ok moved
        exact ⟨_, same⟩
    obtain ⟨tracedAfter, scopes, rfl⟩ := ih (traced.writeDirectoryScope inPlans fits first)
      (fun plan inRest => listed plan (List.mem_cons_of_mem _ inRest)) later
    obtain ⟨between, rfl⟩ := scopesOnly
    exact ⟨tracedAfter, scopes, rfl⟩

theorem firstObjection_none {plans : List ScopePlan} (clear : db.firstObjection sourceUpdatedAt plans = .ok none) :
    ∀ plan ∈ plans, ∀ current, plan.existing = some current → current.status = .active ∧
        (plan.changes current = true → ∀ updatedAt, current.directoryUpdatedAt = some updatedAt →
          updatedAt ≤ sourceUpdatedAt) := by
  induction plans with
  | nil => simp
  | cons plan rest ih =>
    simp only [firstObjection, bind_ok_iff] at clear
    obtain ⟨objection, own, next⟩ := clear
    cases objection with
    | some reason => simp at next
    | none =>
      intro other listed current existing
      cases List.mem_cons.mp listed with
      | inr later => exact ih next other later current existing
      | inl here =>
        subst here
        simp only [planObjection, existing, bind_ok_iff] at own
        obtain ⟨lineage, read, decided⟩ := own
        have chain := scopeLineageRows_ok read
        split at decided
        · simp at decided
        · rename_i enabled
          have allActive : ∀ scope ∈ lineage, scope.status = .active := by simpa using enabled
          refine ⟨allActive current chain.head_mem, ?_⟩
          intro changes updatedAt known
          rw [if_pos changes] at decided
          simp only [known] at decided
          split at decided
          · simp at decided
          · omega

structure SyncChecked (db : OrganizationDatabase) (userId : String) (org : DirectoryOrganization)
    (plans : List ScopePlan) (partPlan : ScopePlan) : Prop where
  fits : ∀ plan ∈ plans ++ [partPlan], db.Fits plan
  linked : Linked [] (plans ++ [partPlan])
  clear : db.firstObjection org.sourceUpdatedAt (plans ++ [partPlan]) = .ok none
  fresh : ∀ row, db.directorySync.lookup userId = some row → row.sourceUpdatedAt ≤ org.sourceUpdatedAt

theorem syncDirectoryOrganization_ok {lowerCase : String → String} {userId : String}
    {parsed : Except SkipReason DirectoryOrganization} {isTestAccount : Bool} {drawn : DrawnIds}
    {expectedLastLoginAt : Option Int} {result : DirectoryOrganizationSyncResult}
    (done : db.syncDirectoryOrganization lowerCase userId parsed isTestAccount drawn syncedAt
      expectedLastLoginAt = .ok (result, after)) :
    (∃ reason, result = .skipped reason ∧ after = db) ∨
      ∃ org plans partPlan, parsed = .ok org ∧ result = .synced partPlan.id ∧
        db.SyncChecked userId org plans partPlan ∧
        db.commitDirectoryOrganization lowerCase userId org.sourceUpdatedAt syncedAt plans partPlan = .ok after := by
  unfold syncDirectoryOrganization at done
  split at done
  · cases done
    exact .inl ⟨_, rfl, rfl⟩
  · cases parsed with
    | error reason =>
      cases done
      exact .inl ⟨_, rfl, rfl⟩
    | ok org =>
      simp only [applyDirectoryOrganization, bind_ok_iff, Except.ite_ok_iff, Except.pure_ok_iff,
        Prod.mk.injEq] at done
      obtain ⟨user, -, done⟩ := done
      rcases done with ⟨-, rfl, rfl⟩ | ⟨-, ⟨-, rfl, rfl⟩ | ⟨-, ⟨-, rfl, rfl⟩ | ⟨fresh, ⟨-, rfl, rfl⟩ |
        ⟨-, objection, clear, next⟩⟩⟩⟩
      · exact .inl ⟨_, rfl, rfl⟩
      · exact .inl ⟨_, rfl, rfl⟩
      · exact .inl ⟨_, rfl, rfl⟩
      · exact .inl ⟨_, rfl, rfl⟩
      · cases objection with
        | some reason =>
          simp only [Except.pure_ok_iff, Prod.mk.injEq] at next
          exact .inl ⟨reason, next.1.symm, next.2.symm⟩
        | none =>
          simp only [bind_ok_iff, Except.pure_ok_iff, Prod.mk.injEq] at next
          obtain ⟨committed, written, rfl, rfl⟩ := next
          refine .inr ⟨org, _, _, rfl, rfl, ?_, written⟩
          exact
            { fits := planDirectoryOrganization_fits rfl
              linked := planDirectoryOrganization_linked rfl
              clear := clear
              fresh := by
                intro row found
                simpa [found] using fresh }

theorem commitDirectoryOrganization_ok {lowerCase : String → String} {userId : String}
    {plans : List ScopePlan} {partPlan : ScopePlan}
    (done : db.commitDirectoryOrganization lowerCase userId sourceUpdatedAt syncedAt plans partPlan = .ok after) :
    ∃ written joined, db.writeDirectoryScopes lowerCase userId sourceUpdatedAt syncedAt
        (plans ++ [partPlan]) = .ok written ∧
      (written.leaveOldSource userId partPlan.id syncedAt).joinNewSource userId partPlan.id syncedAt = .ok joined ∧
      after = (joined.decidePendingRequests (fun request => request.userId = userId ∧ request.scopeId = partPlan.id)
        .cancelled).recordSource userId partPlan.id sourceUpdatedAt := by
  simp only [commitDirectoryOrganization, bind_ok_iff, Except.pure_ok_iff] at done
  obtain ⟨written, wrote, joined, moved, rfl⟩ := done
  exact ⟨written, joined, wrote, moved, rfl⟩

/-- What is left of a membership when the directory source of the user is `scopeId`: a manual
    role becomes an ordinary membership, a purely directory one is gone. -/
def leftMembership (userId scopeId : String) (syncedAt : Int) (row : MembershipRow) : Option MembershipRow :=
  if row.userId = userId ∧ row.managedBy = some .ldapLogin ∧ row.scopeId ≠ scopeId then
    row.manualRole.map fun role =>
      { row with managedBy := none, manualRole := none, role, updatedAt := syncedAt }
  else some row

/-- The membership at the new source, from the one that is there. -/
def joinedMembership (userId scopeId : String) (syncedAt : Int) : Option MembershipRow → MembershipRow
  | none =>
    { scopeId, userId, role := .member, managedBy := some .ldapLogin, manualRole := none
      createdAt := syncedAt, updatedAt := syncedAt }
  | some row =>
    if row.managedBy = none then
      { row with managedBy := some .ldapLogin, manualRole := some row.role, updatedAt := syncedAt }
    else row

theorem selectMembership_leaveOldSource (userId scopeId : String) (scope user : String) :
    (db.leaveOldSource userId scopeId syncedAt).selectMembership scope user =
      (db.selectMembership scope user).bind (leftMembership userId scopeId syncedAt) := by
  unfold selectMembership leaveOldSource
  simp only [Table.lookup_delete, Table.lookup_update]
  cases found : db.memberships.lookup (scope, user) with
  | none => rfl
  | some row =>
    simp only [Option.map_some, Option.bind_some, leftMembership]
    by_cases old : row.userId = userId ∧ row.managedBy = some .ldapLogin ∧ row.scopeId ≠ scopeId
    · cases manual : row.manualRole with
      | none => simp [old, manual]
      | some role => simp [old]
    · grind

theorem mem_primary_leaveOldSource {userId scopeId : String} {primary : PrimaryMembershipRow}
    (stays : primary ∈ (db.leaveOldSource userId scopeId syncedAt).primaryMemberships) :
    primary ∈ db.primaryMemberships ∧ ∀ row, db.selectMembership primary.scopeId primary.userId = some row →
        (leftMembership userId scopeId syncedAt row).isSome = true := by
  obtain ⟨before, kept⟩ := Table.mem_delete.mp stays
  refine ⟨before, ?_⟩
  intro row found
  obtain ⟨inTable, same⟩ := Table.lookup_eq_some_iff.mp found
  unfold leftMembership
  split
  · rename_i old
    cases manual : row.manualRole with
    | some role => rfl
    | none =>
      -- The row was dropped, so its primary selection was.
      have keyed : row.scopeId = primary.scopeId ∧ row.userId = primary.userId := by
        simpa [MembershipRow.key] using same
      have dropped : ∃ other, (other ∈ db.memberships ∧ (other.userId = userId ∧
          other.managedBy = some .ldapLogin ∧ other.scopeId ≠ scopeId) ∧ other.manualRole = none) ∧
          other.scopeId = primary.scopeId ∧ other.userId = primary.userId :=
        ⟨row, ⟨inTable, old, manual⟩, keyed⟩
      simp only [List.any_eq_false, List.mem_filter, Table.mem_rows, Bool.and_eq_true,
        decide_eq_true_eq, Option.isNone_iff_eq_none, not_and] at kept
      obtain ⟨other, ⟨inOther, oldOther, manualOther⟩, sameScope, sameUser⟩ := dropped
      exact absurd sameUser (kept other ⟨inOther, oldOther, manualOther⟩ sameScope)
  · rfl

theorem joinNewSource_ok {userId scopeId : String} (done : db.joinNewSource userId scopeId syncedAt = .ok after) :
    ∃ memberships, after = { db with memberships := memberships } ∧ ∀ scope user, after.selectMembership scope user =
        if scope = scopeId ∧ user = userId then
          some (joinedMembership userId scopeId syncedAt (db.selectMembership scopeId userId))
        else db.selectMembership scope user := by
  unfold joinNewSource at done
  cases found : db.selectMembership scopeId userId with
  | none =>
    simp only [found] at done
    obtain ⟨memberships, inserted, rfl⟩ := insertMembership_ok done
    refine ⟨memberships, rfl, ?_⟩
    intro scope user
    have lookups := Table.lookup_insert? inserted (scope, user)
    simp only [MembershipRow.key, Prod.mk.injEq] at lookups
    simp only [selectMembership, joinedMembership, lookups, eq_comm]
  | some row =>
    simp only [found] at done
    have keyed := (Table.lookup_eq_some_iff.mp found).2
    simp only [MembershipRow.key, Prod.mk.injEq] at keyed
    by_cases manual : row.managedBy = none
    · rw [if_pos manual] at done
      simp only [Except.pure_ok_iff] at done
      subst done
      refine ⟨_, rfl, ?_⟩
      intro scope user
      by_cases same : scope = scopeId ∧ user = userId
      · obtain ⟨rfl, rfl⟩ := same
        simp only [selectMembership] at found
        simp [selectMembership, updateMembership, joinedMembership, found, keyed, manual]
      · rw [if_neg same]
        simp only [selectMembership, updateMembership, Table.lookup_update]
        cases other : db.memberships.lookup (scope, user) with
        | none => rfl
        | some kept =>
          have keyedOther := (Table.lookup_eq_some_iff.mp other).2
          simp only [MembershipRow.key, Prod.mk.injEq] at keyedOther
          rw [← keyedOther.1, ← keyedOther.2] at same
          simp [same]
    · rw [if_neg manual] at done
      simp only [Except.pure_ok_iff] at done
      subst done
      refine ⟨_, rfl, ?_⟩
      intro scope user
      split
      · rename_i same
        rw [same.1, same.2, found, joinedMembership, if_neg manual]
      · rfl

end OrganizationDatabase

end PlatformClaw.Organization
