import PlatformClaw.Library.KeyedRows
import PlatformClaw.Organization.Model

/-! # Listing and deciding access

`resolveOrganizationAccess` lists what an employee can reach by expanding every
membership; `resolveOrganizationAuthorization` decides one scope by its lineage.
Both are compared with the same notion: a membership in an active lineage that
passes through the scope.
-/

namespace PlatformClaw.Organization

open ParentWalk (Ancestry)

inductive AccessSource where
  | administrator
  | direct
  | ancestor
  deriving Repr, DecidableEq

structure EffectiveManagedScopeAccess where
  scope : ManagedScope
  source : AccessSource
  directRole : Option ScopeRole := none
  deriving Repr, DecidableEq

structure OrganizationAccess where
  effectiveAccess : List EffectiveManagedScopeAccess
  activeMemberships : List ScopeMembershipRow
  deriving Repr, DecidableEq

def isDelegatedOrganizationLeader (targetScope : ManagedScope) (scopes : List ManagedScope)
    (memberships : List ScopeMembershipRow) : Bool :=
  let lineage := lineageFor targetScope scopes
  if lineageActive lineage = false then false
  else
    let leaderScopeIds := (memberships.filter fun m => m.role = .leader).map (·.scopeId)
    lineage.any fun scope => scope.id ∈ leaderScopeIds

/-- The memberships in an active lineage, each with that lineage. -/
def directLineages (scopes : List ManagedScope) (memberships : List ScopeMembershipRow) :
    List (ScopeMembershipRow × List ManagedScope) :=
  memberships.flatMap fun membership =>
    let lineage := ((scopeById scopes membership.scopeId).map (lineageFor · scopes)).getD []
    if lineageActive lineage then [(membership, lineage)] else []

/-- `access.set` unless an entry for the scope is there already and this one is not direct. -/
def recordAccess (access : List EffectiveManagedScopeAccess)
    (candidate : EffectiveManagedScopeAccess) : List EffectiveManagedScopeAccess :=
  if access.any fun entry => entry.scope.id = candidate.scope.id then
    if candidate.source = .direct then
      access.map fun entry => if entry.scope.id = candidate.scope.id then candidate else entry
    else access
  else access ++ [candidate]

def accessCandidates (membership : ScopeMembershipRow) : List ManagedScope → List EffectiveManagedScopeAccess
  | [] => []
  | scope :: ancestors =>
    { scope, source := .direct, directRole := some membership.role } ::
      ancestors.map fun scope => { scope, source := .ancestor }

/-- `localeUpTo` is the order of `localeCompare`, which depends on the installed locale. -/
def resolveOrganizationAccess (localeUpTo : String → String → Bool)
    (user : Option PlatformUserRow) (scopes : List ManagedScope)
    (memberships : List ScopeMembershipRow) : OrganizationAccess :=
  match user with
  | none => { effectiveAccess := [], activeMemberships := [] }
  | some user =>
    if user.status ≠ .active then { effectiveAccess := [], activeMemberships := [] }
    else
      let direct := directLineages scopes memberships
      let activeMemberships := direct.map (·.1)
      if user.globalRole = .admin then
        { activeMemberships
          effectiveAccess :=
            (scopes.filter fun scope => lineageActive (lineageFor scope scopes)).map fun scope =>
              { scope, source := .administrator } }
      else
        let access := (direct.flatMap fun entry =>
          accessCandidates entry.1 entry.2).foldl recordAccess []
        { activeMemberships
          effectiveAccess := access.mergeSort fun left right =>
            localeUpTo left.scope.id right.scope.id }

namespace OrganizationStore

def resolveOrganizationAccessSnapshot (store : OrganizationStore)
    (localeUpTo : String → String → Bool) (userId : String) : OrganizationAccess :=
  let user := store.selectUserById userId
  let memberships := match user with
    | some user => store.managedScopeMemberships.filter fun m => m.userId = user.id
    | none => []
  resolveOrganizationAccess localeUpTo user (store.managedScopes.map rowToScope) memberships

def isLeaderForScope (store : OrganizationStore) (userId : String) (scope : ManagedScopeRow) : Bool :=
  isDelegatedOrganizationLeader (rowToScope scope) (store.managedScopes.map rowToScope)
    (store.managedScopeMemberships.filter fun m => m.userId = userId)

end OrganizationStore

section Lineages

variable {scopes : List ManagedScope}

theorem scopeById_mem {id : String} {scope : ManagedScope} (found : scopeById scopes id = some scope) :
    scope ∈ scopes ∧ scope.id = id :=
  ⟨List.mem_reverse.mp (List.mem_of_find?_eq_some found), by simpa using List.find?_some found⟩

theorem lineageActive_iff_forall {lineage : List ManagedScope} :
    lineageActive lineage = true ↔ lineage ≠ [] ∧ ∀ scope ∈ lineage, scope.status = .active := by
  cases lineage <;> simp [lineageActive]

theorem lineageFor_suffix {scope ancestor : ManagedScope} (inLineage : ancestor ∈ lineageFor scope scopes) :
    lineageFor ancestor scopes ≠ [] ∧ lineageFor ancestor scopes <:+ lineageFor scope scopes := by
  have present : lineageFor scope scopes ≠ [] := List.ne_nil_of_mem inLineage
  obtain ⟨lineage, result, chain, distinct, -, short⟩ := Ancestry.of_walk present
  have same : lineageFor scope scopes = lineage := result
  rw [same] at inLineage ⊢
  obtain ⟨rest, ownChain, shorter⟩ := chain.suffix inLineage
  have own : lineageFor ancestor scopes = rest :=
    ownChain.walk_eq (distinct.sublist shorter.sublist) (fun _ _ => List.not_mem_nil)
      (Nat.le_trans shorter.length_le short) []
  rw [own]
  exact ⟨List.ne_nil_of_mem ownChain.head_mem, shorter⟩

theorem lineageFor_active {scope ancestor : ManagedScope} (active : lineageActive (lineageFor scope scopes) = true)
    (inLineage : ancestor ∈ lineageFor scope scopes) :
    lineageActive (lineageFor ancestor scopes) = true := by
  obtain ⟨present, shorter⟩ := lineageFor_suffix inLineage
  have all := (lineageActive_iff_forall.mp active).2
  exact lineageActive_iff_forall.mpr ⟨present, fun other inRest => all other (shorter.mem inRest)⟩

theorem lineageFor_mem {scope ancestor : ManagedScope} (listed : scope ∈ scopes)
    (inLineage : ancestor ∈ lineageFor scope scopes) : ancestor ∈ scopes := by
  obtain ⟨lineage, result, chain, -⟩ := Ancestry.of_walk (List.ne_nil_of_mem inLineage)
  have same : lineageFor scope scopes = lineage := result
  rw [same] at inLineage
  cases chain.found_mem inLineage with
  | inl start => exact start ▸ listed
  | inr found =>
    obtain ⟨id, resolved⟩ := found
    exact (scopeById_mem resolved).1

end Lineages

/-- A membership in an active lineage passes through the scope. -/
def IsReachedBy (scopes : List ManagedScope) (memberships : List ScopeMembershipRow) (id : String) : Prop :=
  ∃ membership ∈ memberships, ∃ scope, scopeById scopes membership.scopeId = some scope ∧
    lineageActive (lineageFor scope scopes) = true ∧
    ∃ ancestor ∈ lineageFor scope scopes, ancestor.id = id

variable {scopes : List ManagedScope} {memberships : List ScopeMembershipRow}

theorem readableTargets_nonempty {id : String} :
    0 < (readableTargets scopes memberships id).length ↔ IsReachedBy scopes memberships id := by
  rw [List.length_pos_iff_exists_mem]
  constructor
  · intro ⟨source, inTargets⟩
    obtain ⟨membership, inMemberships, given⟩ := List.mem_flatMap.mp inTargets
    cases found : scopeById scopes membership.scopeId with
    | none => simp [found] at given
    | some scope =>
      by_cases active : lineageActive (lineageFor scope scopes) = true
      · simp only [found, active, if_true, List.mem_map, List.mem_filter] at given
        obtain ⟨ancestor, ⟨inLineage, same⟩, -⟩ := given
        exact ⟨membership, inMemberships, scope, found, active, ancestor, inLineage, of_decide_eq_true same⟩
      · simp [found, active] at given
  · intro ⟨membership, inMemberships, scope, found, active, ancestor, inLineage, same⟩
    refine ⟨membership.scopeId, List.mem_flatMap.mpr ⟨membership, inMemberships, ?_⟩⟩
    simp only [found, active, if_true, List.mem_map, List.mem_filter]
    exact ⟨ancestor, ⟨inLineage, decide_eq_true same⟩, trivial⟩

def Lists (access : List EffectiveManagedScopeAccess) (id : String) : Prop :=
  ∃ entry ∈ access, entry.scope.id = id

theorem recordAccess_lists {access : List EffectiveManagedScopeAccess}
    {candidate : EffectiveManagedScopeAccess} {id : String} :
    Lists (recordAccess access candidate) id ↔ Lists access id ∨ candidate.scope.id = id := by
  unfold recordAccess Lists
  split
  · rename_i present
    obtain ⟨entry, inAccess, same⟩ := List.any_eq_true.mp present
    have there : candidate.scope.id = id → ∃ entry ∈ access, entry.scope.id = id :=
      fun here => ⟨entry, inAccess, (of_decide_eq_true same).trans here⟩
    split
    · constructor
      · intro ⟨other, inMap, here⟩
        obtain ⟨old, inOld, rfl⟩ := List.mem_map.mp inMap
        split at here
        · exact .inr here
        · exact .inl ⟨old, inOld, here⟩
      · intro listed
        obtain ⟨old, inOld, here⟩ := listed.elim (fun found => found) there
        refine ⟨_, List.mem_map.mpr ⟨old, inOld, rfl⟩, ?_⟩
        split
        · rename_i replaced
          exact replaced.symm.trans here
        · exact here
    · exact ⟨.inl, fun listed => listed.elim (fun found => found) there⟩
  · simp [or_and_right, exists_or]

theorem foldl_recordAccess_lists {candidates access : List EffectiveManagedScopeAccess} {id : String} :
    Lists (candidates.foldl recordAccess access) id ↔
      Lists access id ∨ ∃ candidate ∈ candidates, candidate.scope.id = id := by
  induction candidates generalizing access with
  | nil => simp
  | cons candidate rest ih => simp [ih, recordAccess_lists, or_assoc]

theorem accessCandidates_scopes (membership : ScopeMembershipRow) (lineage : List ManagedScope) :
    (accessCandidates membership lineage).map (·.scope) = lineage := by
  cases lineage <;> simp [accessCandidates, Function.comp_def]

theorem accessCandidates_mem {membership : ScopeMembershipRow} {lineage : List ManagedScope}
    {id : String} :
    (∃ candidate ∈ accessCandidates membership lineage, candidate.scope.id = id) ↔
      ∃ scope ∈ lineage, scope.id = id := by
  have scopes := accessCandidates_scopes membership lineage
  constructor
  · intro ⟨candidate, own, same⟩
    exact ⟨candidate.scope, scopes ▸ List.mem_map.mpr ⟨candidate, own, rfl⟩, same⟩
  · intro ⟨scope, inLineage, same⟩
    rw [← scopes] at inLineage
    obtain ⟨candidate, own, rfl⟩ := List.mem_map.mp inLineage
    exact ⟨candidate, own, same⟩

theorem mem_directLineages {membership : ScopeMembershipRow} {lineage : List ManagedScope} :
    (membership, lineage) ∈ directLineages scopes memberships ↔
      membership ∈ memberships ∧ ∃ scope, scopeById scopes membership.scopeId = some scope ∧
        lineageActive (lineageFor scope scopes) = true ∧ lineage = lineageFor scope scopes := by
  unfold directLineages
  rw [List.mem_flatMap]
  constructor
  · intro ⟨other, inMemberships, given⟩
    cases found : scopeById scopes other.scopeId with
    | none => simp [found, lineageActive] at given
    | some scope =>
      by_cases active : lineageActive (lineageFor scope scopes) = true
      · simp only [found, Option.map_some, Option.getD_some, active, if_true,
          List.mem_singleton, Prod.mk.injEq] at given
        obtain ⟨rfl, rfl⟩ := given
        exact ⟨inMemberships, scope, found, active, rfl⟩
      · simp [found, active] at given
  · intro ⟨inMemberships, scope, found, active, same⟩
    exact ⟨membership, inMemberships, by simp [found, active, same]⟩

theorem access_lists {localeUpTo : String → String → Bool} {user : PlatformUserRow} {id : String}
    (active : user.status = .active) (plain : user.globalRole ≠ .admin) :
    Lists (resolveOrganizationAccess localeUpTo (some user) scopes memberships).effectiveAccess id ↔
      IsReachedBy scopes memberships id := by
  have candidates : (∃ candidate ∈ (directLineages scopes memberships).flatMap fun entry =>
        accessCandidates entry.1 entry.2, candidate.scope.id = id) ↔
      IsReachedBy scopes memberships id := by
    constructor
    · intro ⟨candidate, given, same⟩
      obtain ⟨⟨membership, lineage⟩, inDirect, own⟩ := List.mem_flatMap.mp given
      obtain ⟨inMemberships, scope, found, activeLineage, rfl⟩ := mem_directLineages.mp inDirect
      exact ⟨membership, inMemberships, scope, found, activeLineage, accessCandidates_mem.mp ⟨candidate, own, same⟩⟩
    · intro ⟨membership, inMemberships, scope, found, activeLineage, reached⟩
      have inDirect := mem_directLineages.mpr ⟨inMemberships, scope, found, activeLineage, rfl⟩
      obtain ⟨candidate, own, same⟩ := accessCandidates_mem.mpr reached
      exact ⟨candidate, List.mem_flatMap.mpr ⟨_, inDirect, own⟩, same⟩
  have recorded := @foldl_recordAccess_lists ((directLineages scopes memberships).flatMap fun entry =>
    accessCandidates entry.1 entry.2) [] id
  rw [← candidates]
  simp only [resolveOrganizationAccess, active, plain, Lists] at recorded ⊢
  simpa using recorded

theorem access_lists_administrator {localeUpTo : String → String → Bool} {user : PlatformUserRow}
    {id : String} (active : user.status = .active) (admin : user.globalRole = .admin) :
    Lists (resolveOrganizationAccess localeUpTo (some user) scopes memberships).effectiveAccess id ↔
      ∃ scope ∈ scopes, lineageActive (lineageFor scope scopes) = true ∧ scope.id = id := by
  have listed : (resolveOrganizationAccess localeUpTo (some user) scopes memberships).effectiveAccess =
        (scopes.filter fun scope => lineageActive (lineageFor scope scopes)).map fun scope =>
          { scope, source := .administrator } := by
    simp [resolveOrganizationAccess, active, admin]
  unfold Lists
  rw [listed]
  constructor
  · intro ⟨entry, given, same⟩
    obtain ⟨scope, inFilter, rfl⟩ := List.mem_map.mp given
    obtain ⟨inScopes, activeLineage⟩ := List.mem_filter.mp inFilter
    exact ⟨scope, inScopes, activeLineage, same⟩
  · intro ⟨scope, inScopes, activeLineage, same⟩
    exact ⟨_, List.mem_map.mpr ⟨scope, List.mem_filter.mpr ⟨inScopes, activeLineage⟩, rfl⟩, same⟩

theorem canRead_employee {actor : PlatformUserRow} {target : ManagedScope}
    (enabled : actor.status = .active) (plain : actor.globalRole ≠ .admin) :
    (resolveOrganizationAuthorization (some actor) (some target) scopes memberships).canRead = true ↔
      lineageActive (lineageFor target scopes) = true ∧ IsReachedBy scopes memberships target.id := by
  by_cases active : lineageActive (lineageFor target scopes) = true
  · have counted : (ScriptString.toSorted (readableTargets scopes memberships target.id)).length =
        (readableTargets scopes memberships target.id).length := List.length_mergeSort _
    simp [resolveOrganizationAuthorization, enabled, plain, active, counted, ← readableTargets_nonempty]
  · simp [resolveOrganizationAuthorization, enabled, active, unavailable]

theorem canRead_administrator {actor : PlatformUserRow} {target : ManagedScope}
    (enabled : actor.status = .active) (admin : actor.globalRole = .admin) :
    (resolveOrganizationAuthorization (some actor) (some target) scopes memberships).canRead = true ↔
      lineageActive (lineageFor target scopes) = true := by
  by_cases active : lineageActive (lineageFor target scopes) = true
  · simp [resolveOrganizationAuthorization, enabled, admin, active]
  · simp [resolveOrganizationAuthorization, enabled, active, unavailable]

theorem IsReachedBy.active (scopeIds : scopes.Pairwise fun a b => a.id ≠ b.id)
    {target : ManagedScope} (listed : target ∈ scopes)
    (reached : IsReachedBy scopes memberships target.id) :
    lineageActive (lineageFor target scopes) = true := by
  obtain ⟨membership, -, scope, found, active, ancestor, inLineage, same⟩ := reached
  have inScopes := lineageFor_mem (scopeById_mem found).1 inLineage
  rw [← KeyedRows.unique scopeIds inScopes listed same]
  exact lineageFor_active active inLineage

theorem canRead_iff_lists (scopeIds : scopes.Pairwise fun a b => a.id ≠ b.id)
    (localeUpTo : String → String → Bool) (actor : PlatformUserRow) {target : ManagedScope}
    (listed : target ∈ scopes) :
    (resolveOrganizationAuthorization (some actor) (some target) scopes memberships).canRead = true ↔
      Lists (resolveOrganizationAccess localeUpTo (some actor) scopes memberships).effectiveAccess target.id := by
  by_cases enabled : actor.status = .active
  · by_cases admin : actor.globalRole = .admin
    · rw [canRead_administrator enabled admin, access_lists_administrator enabled admin]
      constructor
      · exact fun active => ⟨target, listed, active, rfl⟩
      · intro ⟨scope, inScopes, active, same⟩
        exact KeyedRows.unique scopeIds inScopes listed same ▸ active
    · rw [canRead_employee enabled admin, access_lists enabled admin]
      exact ⟨And.right, fun reached => ⟨reached.active scopeIds listed, reached⟩⟩
  · simp [resolveOrganizationAuthorization, resolveOrganizationAccess, enabled, Lists, unavailable]

theorem canManageMembers_iff_leader
    (single : memberships.Pairwise fun a b => a.scopeId ≠ b.scopeId) {actor : PlatformUserRow}
    (enabled : actor.status = .active) (plain : actor.globalRole ≠ .admin) (target : ManagedScope) :
    (resolveOrganizationAuthorization (some actor) (some target) scopes memberships).canManageMembers = true ↔
      isDelegatedOrganizationLeader target scopes memberships = true := by
  have leads : ∀ id, ((membershipByScope memberships id).any fun m => m.role = .leader) = true ↔
      id ∈ (memberships.filter fun m => m.role = .leader).map (·.scopeId) := by
    intro id
    have reversed : memberships.reverse.Pairwise fun a b => a.scopeId ≠ b.scopeId :=
      List.pairwise_reverse.mpr (single.imp fun apart => apart.symm)
    constructor
    · intro leading
      obtain ⟨membership, found, leader⟩ := (Option.any_eq_true _ _).mp leading
      have same : membership.scopeId = id := by simpa using List.find?_some found
      have inMemberships := List.mem_reverse.mp (List.mem_of_find?_eq_some found)
      exact List.mem_map.mpr ⟨membership, List.mem_filter.mpr ⟨inMemberships, leader⟩, same⟩
    · intro leading
      obtain ⟨membership, inFilter, rfl⟩ := List.mem_map.mp leading
      obtain ⟨inMemberships, leader⟩ := List.mem_filter.mp inFilter
      have found := KeyedRows.find?_key reversed (List.mem_reverse.mpr inMemberships)
      exact (Option.any_eq_true _ _).mpr ⟨membership, found, leader⟩
  by_cases active : lineageActive (lineageFor target scopes) = true
  · simp only [resolveOrganizationAuthorization, isDelegatedOrganizationLeader, enabled, plain, active]
    simp [List.length_pos_iff, List.filter_eq_nil_iff, leads, and_assoc]
  · simp [resolveOrganizationAuthorization, isDelegatedOrganizationLeader, enabled, active, unavailable]

namespace OrganizationStore

variable {store : OrganizationStore}

/-- The primary keys of `managed_scopes` and `managed_scope_memberships`. -/
structure PrimaryKeys (store : OrganizationStore) : Prop where
  scopes : store.managedScopes.Pairwise fun a b => a.id ≠ b.id
  memberships : store.managedScopeMemberships.Pairwise fun a b =>
    ¬(a.scopeId = b.scopeId ∧ a.userId = b.userId)

theorem PrimaryKeys.scopeIds (keys : store.PrimaryKeys) :
    (store.managedScopes.map rowToScope).Pairwise fun a b => a.id ≠ b.id :=
  List.pairwise_map.mpr keys.scopes

theorem PrimaryKeys.single (keys : store.PrimaryKeys) (userId : String) :
    (store.managedScopeMemberships.filter fun m => m.userId = userId).Pairwise
      fun a b => a.scopeId ≠ b.scopeId := by
  apply (keys.memberships.filter _).imp_of_mem
  intro a b inA inB apart same
  have ownA : a.userId = userId := by simpa using (List.mem_filter.mp inA).2
  have ownB : b.userId = userId := by simpa using (List.mem_filter.mp inB).2
  exact apart ⟨same, ownA.trans ownB.symm⟩

/-- The listing and the authorization of the store give the same answers. -/
def AccessAgrees (store : OrganizationStore) (localeUpTo : String → String → Bool)
    (actorUserId scopeId : String) : Prop :=
  ((store.resolveOrganizationAuthorizationSnapshot actorUserId scopeId).canRead = true ↔
    ∃ entry ∈ (store.resolveOrganizationAccessSnapshot localeUpTo actorUserId).effectiveAccess,
      entry.scope.id = scopeId) ∧
  ∀ actor, store.selectUserById actorUserId = some actor → actor.status = .active →
    actor.globalRole ≠ .admin → ∀ row, store.scope? scopeId = some row →
      ((store.resolveOrganizationAuthorizationSnapshot actorUserId scopeId).canManageMembers = true ↔
        store.isLeaderForScope actor.id row = true)

theorem access_scopes_exist {localeUpTo : String → String → Bool} {user : Option PlatformUserRow}
    {memberships : List ScopeMembershipRow} {scopes : List ManagedScope} {id : String}
    (listed : Lists (resolveOrganizationAccess localeUpTo user scopes memberships).effectiveAccess id) :
    ∃ scope ∈ scopes, scope.id = id := by
  cases user with
  | none => simp [resolveOrganizationAccess, Lists] at listed
  | some user =>
    by_cases enabled : user.status = .active
    · by_cases admin : user.globalRole = .admin
      · obtain ⟨scope, inScopes, -, same⟩ := (access_lists_administrator enabled admin).mp listed
        exact ⟨scope, inScopes, same⟩
      · obtain ⟨membership, -, scope, found, -, ancestor, inLineage, same⟩ :=
          (access_lists enabled admin).mp listed
        exact ⟨ancestor, lineageFor_mem (scopeById_mem found).1 inLineage, same⟩
    · simp [resolveOrganizationAccess, enabled, Lists] at listed

theorem access_agrees (keys : store.PrimaryKeys) (localeUpTo : String → String → Bool)
    (actorUserId scopeId : String) : store.AccessAgrees localeUpTo actorUserId scopeId := by
  constructor
  · cases selected : store.selectUserById actorUserId with
    | none =>
      simp [resolveOrganizationAuthorizationSnapshot, resolveOrganizationAccessSnapshot, selected,
        resolveOrganizationAuthorization, resolveOrganizationAccess, unavailable]
    | some actor =>
      cases found : store.scope? scopeId with
      | none =>
        have hidden : ¬Lists (store.resolveOrganizationAccessSnapshot localeUpTo
            actorUserId).effectiveAccess scopeId := by
          intro listed
          obtain ⟨scope, inScopes, same⟩ := access_scopes_exist listed
          obtain ⟨row, inTable, rfl⟩ := List.mem_map.mp inScopes
          exact absurd (decide_eq_true same) (List.find?_eq_none.mp found row inTable)
        have denied : (store.resolveOrganizationAuthorizationSnapshot actorUserId scopeId).canRead = false := by
          simp [resolveOrganizationAuthorizationSnapshot, found, resolveOrganizationAuthorization, unavailable]
        rw [denied]
        exact ⟨nofun, fun listed => absurd listed hidden⟩
      | some row =>
        have listed : rowToScope row ∈ store.managedScopes.map rowToScope :=
          List.mem_map.mpr ⟨row, List.mem_of_find?_eq_some found, rfl⟩
        have named : row.id = scopeId := by simpa using List.find?_some found
        have same : (rowToScope row).id = scopeId := named
        have agree := @canRead_iff_lists _ (store.managedScopeMemberships.filter fun m =>
          m.userId = actor.id) keys.scopeIds localeUpTo actor _ listed
        rw [same] at agree
        simpa [resolveOrganizationAuthorizationSnapshot, resolveOrganizationAccessSnapshot,
          selected, found, Lists] using agree
  · intro actor selected enabled plain row found
    simp only [resolveOrganizationAuthorizationSnapshot, selected, found, Option.map_some]
    exact canManageMembers_iff_leader (keys.single actor.id) enabled plain (rowToScope row)

end OrganizationStore

end PlatformClaw.Organization
