import PlatformClaw.Organization.Provenance

/-! # Provenance along runs

The columns of every membership stay consistent with the directory source of
its user, a role given by hand stays until it is changed by hand, and what only
came from a directory source goes with it.
-/

namespace PlatformClaw.Organization

def OrganizationOperation.Assigns (scopeId userId : String) : OrganizationOperation → Prop
  | .setManagedScopeMembership _ scope user _ _ _ _ => scope = scopeId ∧ user = userId
  | .removeManagedScopeMembership _ scope user _ _ => scope = scopeId ∧ user = userId
  | _ => False

namespace OrganizationDatabase

variable {db after : OrganizationDatabase} {lowerCase : String → String}
variable {operation : OrganizationOperation}

theorem Sourced.joined {userId scopeId : String} {syncedAt : Int} {existing : Option MembershipRow}
    (sourced : ∀ row, existing = some row → db.Sourced row ∧ row.scopeId = scopeId ∧ row.userId = userId)
    {sync : DirectorySyncRow} (recorded : after.directorySync.lookup userId = some sync)
    (here : sync.scopeId = scopeId) :
    after.Sourced (joinedMembership userId scopeId syncedAt existing) := by
  cases existing with
  | none =>
    exact
      { source := fun _ => ⟨sync, recorded, here⟩
        manual := by simp [joinedMembership]
        plain := by simp [joinedMembership] }
  | some row =>
    obtain ⟨fine, sameScope, sameUser⟩ := sourced row rfl
    have source : ∃ sync, after.directorySync.lookup row.userId = some sync ∧ sync.scopeId = row.scopeId := by
      rw [sameUser, sameScope]
      exact ⟨sync, recorded, here⟩
    simp only [joinedMembership]
    split
    · exact
        { source := fun _ => source
          manual := by simp
          plain := by simp }
    · exact
        { source := fun _ => source
          manual := fine.manual
          plain := fine.plain }

theorem Sourced.left {userId scopeId : String} {syncedAt : Int} {row left : MembershipRow}
    (sourced : db.Sourced row) (stays : leftMembership userId scopeId syncedAt row = some left)
    {sync : DirectorySyncRow} (recorded : after.directorySync.lookup userId = some sync)
    (here : sync.scopeId = scopeId)
    (others : ∀ user, user ≠ userId → after.directorySync.lookup user = db.directorySync.lookup user) :
    after.Sourced left := by
  unfold leftMembership at stays
  split at stays
  · obtain ⟨role, manual, rfl⟩ := Option.map_eq_some_iff.mp stays
    exact
      { source := by simp
        manual := by simp
        plain := by simp }
  · rename_i kept
    cases stays
    refine ⟨?_, sourced.manual, sourced.plain⟩
    intro managed
    by_cases own : row.userId = userId
    · have sameScope : row.scopeId = scopeId := by
        by_cases same : row.scopeId = scopeId
        · exact same
        · exact absurd ⟨own, managed, same⟩ kept
      rw [own]
      exact ⟨sync, recorded, here.trans sameScope.symm⟩
    · rw [others row.userId own]
      exact sourced.source managed

theorem ProvenanceKept.effect (kept : db.ProvenanceKept)
    (effect : MembershipEffect db after operation) : after.ProvenanceKept := by
  have smaller : ∀ {decided : JoinRequestRow → Prop}, db.PendingLess after decided →
      ∀ left right, after.IsPending left → after.IsPending right →
        left.userId = right.userId → left.scopeId = right.scopeId → left = right :=
    fun less left right pendingLeft pendingRight =>
      kept.single left right (less left pendingLeft).1 (less right pendingRight).1
  cases effect with
  | unchanged memberships sources pending =>
    refine ⟨?_, ?_, smaller pending⟩
    · intro scopeId userId row found
      rw [selectMembership, memberships] at found
      exact (kept.sourced scopeId userId row found).of_sources sources
    · intro request waits
      rw [selectMembership, memberships]
      exact kept.waiting request (pending request waits).1
  | submitted memberships sources absent new pending =>
    refine ⟨?_, ?_, ?_⟩
    · intro scopeId userId row found
      rw [selectMembership, memberships] at found
      exact (kept.sourced scopeId userId row found).of_sources sources
    · intro request waits
      rw [selectMembership, memberships]
      rcases pending request waits with before | rfl
      · exact kept.waiting request before
      · exact absent
    · intro left right waitsLeft waitsRight sameUser sameScope
      rcases pending left waitsLeft with beforeLeft | rfl <;>
        rcases pending right waitsRight with beforeRight | rfl
      · exact kept.single left right beforeLeft beforeRight sameUser sameScope
      · exact absurd ⟨sameUser, sameScope⟩ (new left beforeLeft)
      · exact absurd ⟨sameUser.symm, sameScope.symm⟩ (new right beforeRight)
      · rfl
  | @assigned _ scopeId userId _ role _ changedAt sources membership pending =>
    refine ⟨?_, ?_, smaller pending⟩
    · intro scope user row found
      rw [membership] at found
      split at found
      · cases found
        cases existing : db.selectMembership scopeId userId with
        | none => exact (sourced_manualMembership db scopeId userId role changedAt).of_sources sources
        | some row =>
          exact ((kept.sourced scopeId userId row existing).assignRole role changedAt).of_sources sources
      · exact (kept.sourced scope user row found).of_sources sources
    · intro request waits
      obtain ⟨before, other⟩ := pending request waits
      rw [membership, if_neg fun same => other same.symm]
      exact kept.waiting request before
  | removed sources membership pending =>
    refine ⟨?_, ?_, smaller pending⟩
    · intro scope user row found
      rw [membership] at found
      split at found
      · cases found
      · exact (kept.sourced scope user row found).of_sources sources
    · intro request waits
      rw [membership]
      split
      · rfl
      · exact kept.waiting request (pending request waits).1
  | @approved _ _ _ decidedAt approvedRequest sources found waiting membership pending =>
    refine ⟨?_, ?_, smaller pending⟩
    · intro scope user row found
      rw [membership] at found
      split at found
      · cases existing : db.selectMembership approvedRequest.scopeId approvedRequest.userId with
        | none =>
          rw [existing] at found
          cases found
          exact (sourced_manualMembership db _ _ _ decidedAt).of_sources sources
        | some old =>
          rw [existing] at found
          cases found
          exact (kept.sourced _ _ _ existing).of_sources sources
      · exact (kept.sourced scope user row found).of_sources sources
    · intro request waits
      obtain ⟨before, other⟩ := pending request waits
      have inTable := (Table.lookup_eq_some_iff.mp found).1
      rw [membership, if_neg]
      · exact kept.waiting request before
      · intro same
        exact other (kept.single request approvedRequest before ⟨inTable, waiting⟩ same.2 same.1)
  | @synced userId _ _ _ syncedAt _ scopeId sourceUpdatedAt sources membership pending =>
    have recorded := sources userId
    rw [if_pos rfl] at recorded
    refine ⟨?_, ?_, smaller pending⟩
    · intro scope user row found
      rw [membership] at found
      split at found
      · cases found
        exact Sourced.joined (fun row existing => ⟨kept.sourced _ _ _ existing, selectMembership_key existing⟩)
          recorded rfl
      · obtain ⟨old, existing, stays⟩ := Option.bind_eq_some_iff.mp found
        exact (kept.sourced _ _ _ existing).left stays recorded rfl
          fun other apart => (sources other).trans (if_neg (Ne.symm apart))
    · intro request waits
      obtain ⟨before, other⟩ := pending request waits
      rw [membership, if_neg fun same => other same.symm, kept.waiting request before]
      rfl

theorem ProvenanceKept.step (kept : db.ProvenanceKept) (lowerCase : String → String)
    (operation : OrganizationOperation) :
    ((organizationMachine lowerCase).step db operation).ProvenanceKept := by
  simp only [organizationMachine]
  cases done : db.execute lowerCase operation with
  | error failure => exact kept
  | ok changed => exact kept.effect (membershipEffect_execute done)

/-- The member has the role by hand, on whatever the directory says. -/
def HasManualRole (db : OrganizationDatabase) (scopeId userId : String) (role : ScopeRole) : Prop :=
  ∃ row, db.selectMembership scopeId userId = some row ∧ row.role = role ∧
    (row.managedBy = none ∨ row.manualRole = some role)

def GivesRole (db : OrganizationDatabase) (scopeId userId : String) (role : ScopeRole) : OrganizationOperation → Prop
  | .setManagedScopeMembership _ scope user given _ _ _ =>
    scope = scopeId ∧ user = userId ∧ given = role
  | .decideOrganizationJoinRequest _ requestId .approved _ _ =>
    ∃ request, db.joinRequests.lookup requestId = some request ∧
      request.scopeId = scopeId ∧ request.userId = userId ∧ role = .member
  | _ => False

variable {scopeId userId : String} {role : ScopeRole}

theorem ProvenanceKept.hasManualRole (kept : db.ProvenanceKept) (done : db.execute lowerCase operation = .ok after)
    (gives : db.GivesRole scopeId userId role operation) : after.HasManualRole scopeId userId role := by
  cases operation with
  | setManagedScopeMembership actorUserId scope user given expectedRole reason changedAt =>
    obtain ⟨rfl, rfl, rfl⟩ := gives
    obtain ⟨-, membership, -⟩ := setManagedScopeMembership_membershipAt done
    refine ⟨_, (membership scope user).trans (if_pos ⟨rfl, rfl⟩), ?_⟩
    cases db.selectMembership scope user with
    | none => exact ⟨rfl, .inl rfl⟩
    | some row =>
      refine ⟨rfl, ?_⟩
      cases managed : row.managedBy with
      | none => exact .inl managed
      | some manager => exact .inr (congrArg (Option.map fun _ => given) managed)
  | decideOrganizationJoinRequest actorUserId requestId decision reason decidedAt =>
    cases decision with
    | rejected => exact gives.elim
    | approved =>
      obtain ⟨request, found, rfl, rfl, rfl⟩ := gives
      obtain ⟨request', found', waiting, -, membership, -⟩ :=
        approveOrganizationJoinRequest_membershipAt done
      cases found.symm.trans found'
      have inTable := (Table.lookup_eq_some_iff.mp found).1
      have here := (membership request.scopeId request.userId).trans (if_pos ⟨rfl, rfl⟩)
      rw [kept.waiting request ⟨inTable, waiting⟩] at here
      exact ⟨_, here, rfl, .inl rfl⟩
  | upsertPrincipal | setUserGlobalRole | setManagedUserStatus | createManagedScope
  | renameManagedScope | archiveManagedScope | removeManagedScopeMembership | setUserPrimaryScope
  | submitOrganizationJoinRequest | cancelOrganizationJoinRequest | syncDirectoryOrganization =>
    exact gives.elim

/-- Nothing but an assignment by hand takes such a role away. -/
theorem HasManualRole.effect (manual : db.HasManualRole scopeId userId role)
    (effect : MembershipEffect db after operation)
    (other : ¬operation.Assigns scopeId userId) : after.HasManualRole scopeId userId role := by
  obtain ⟨row, found, sameRole, byHand⟩ := manual
  cases effect with
  | unchanged memberships =>
    refine ⟨row, ?_, sameRole, byHand⟩
    rw [selectMembership, memberships]
    exact found
  | submitted memberships =>
    refine ⟨row, ?_, sameRole, byHand⟩
    rw [selectMembership, memberships]
    exact found
  | assigned sources membership =>
    refine ⟨row, ?_, sameRole, byHand⟩
    rw [membership, if_neg fun same => other ⟨same.1.symm, same.2.symm⟩]
    exact found
  | removed sources membership =>
    refine ⟨row, ?_, sameRole, byHand⟩
    rw [membership, if_neg fun same => other ⟨same.1.symm, same.2.symm⟩]
    exact found
  | approved sources looked waiting membership =>
    refine ⟨row, ?_, sameRole, byHand⟩
    rw [membership]
    split
    · rename_i same
      rw [← same.1, ← same.2, found]
      rfl
    · exact found
  | @synced user _ _ _ syncedAt _ scope sourceUpdatedAt sources membership pending =>
    have here := membership scopeId userId
    split at here
    · rename_i same
      rw [← same.1, ← same.2, found] at here
      refine ⟨_, here, ?_⟩
      simp only [joinedMembership]
      split
      · exact ⟨sameRole, .inr (congrArg some sameRole)⟩
      · exact ⟨sameRole, byHand⟩
    · rw [found, Option.bind_some] at here
      unfold leftMembership at here
      split at here
      · rename_i old
        have manualRole : row.manualRole = some role := by
          rcases byHand with missing | given
          · rw [missing] at old
            cases old.2.1
          · exact given
        rw [manualRole, Option.map_some] at here
        exact ⟨_, here, rfl, .inl rfl⟩
      · exact ⟨row, here, sameRole, byHand⟩

theorem HasManualRole.run (lowerCase : String → String) (manual : db.HasManualRole scopeId userId role)
    (later : List OrganizationOperation)
    (others : ∀ operation ∈ later, ¬operation.Assigns scopeId userId) :
    ((organizationMachine lowerCase).run db later).HasManualRole scopeId userId role := by
  induction later generalizing db with
  | nil => exact manual
  | cons operation rest ih =>
    refine ih ?_ fun next listed => others next (List.mem_cons_of_mem _ listed)
    simp only [organizationMachine]
    cases done : db.execute lowerCase operation with
    | error failure => exact manual
    | ok changed =>
      exact manual.effect (membershipEffect_execute done) (others operation List.mem_cons_self)

theorem selectMembership_moved {parsed : Except SkipReason DirectoryOrganization}
    {isTestAccount : Bool} {drawn : DrawnIds} {syncedAt : Int} {expectedLastLoginAt : Option Int}
    (done : db.syncDirectoryOrganization lowerCase userId parsed isTestAccount drawn syncedAt
      expectedLastLoginAt = .ok (.synced scopeId, after))
    {row : MembershipRow} (inTable : row ∈ db.memberships) (own : row.userId = userId)
    (managed : row.managedBy = some .ldapLogin) (plain : row.manualRole = none)
    (elsewhere : row.scopeId ≠ scopeId) : after.selectMembership row.scopeId userId = none := by
  obtain ⟨sourceUpdatedAt, -, membership, -⟩ := synced_membership done
  have found : db.selectMembership row.scopeId userId = some row :=
    Table.lookup_eq_some_iff.mpr ⟨inTable, by rw [← own]⟩
  rw [membership, if_neg fun same => elsewhere same.1, found, Option.bind_some, leftMembership,
    if_pos ⟨own, managed, elsewhere⟩, plain]
  rfl

/-- After every run the directory memberships are what the sources say, manual roles sit on
    directory memberships only, roles given by hand stay until they are changed by hand, and a
    move takes what only came from the directory. -/
theorem provenance_of_run (lowerCase : String → String) (operations : List OrganizationOperation) :
    let db := (organizationMachine lowerCase).run OrganizationDatabase.empty operations
    (∀ left ∈ db.memberships, ∀ right ∈ db.memberships, left.managedBy = some .ldapLogin →
        right.managedBy = some .ldapLogin → left.userId = right.userId → left = right) ∧
      (∀ row ∈ db.memberships, row.managedBy = some .ldapLogin →
        ∃ sync, db.directorySync.lookup row.userId = some sync ∧ sync.scopeId = row.scopeId) ∧
      (∀ row ∈ db.memberships, ∀ role, row.manualRole = some role →
        row.managedBy = some .ldapLogin ∧ row.role = role) ∧
      (∀ row ∈ db.memberships, row.managedBy = some .ldapLogin → row.manualRole = none → row.role = .member) ∧
      (∀ operation after scopeId userId role, db.execute lowerCase operation = .ok after →
        db.GivesRole scopeId userId role operation →
        ∀ later : List OrganizationOperation, (∀ other ∈ later, ¬other.Assigns scopeId userId) →
          ∃ row, ((organizationMachine lowerCase).run after later).selectMembership scopeId userId =
            some row ∧ row.role = role) ∧
      ∀ userId parsed isTestAccount drawn syncedAt expectedLastLoginAt scopeId after,
        db.syncDirectoryOrganization lowerCase userId parsed isTestAccount drawn syncedAt
          expectedLastLoginAt = .ok (.synced scopeId, after) →
        ∀ row ∈ db.memberships, row.userId = userId → row.managedBy = some .ldapLogin →
          row.manualRole = none → row.scopeId ≠ scopeId →
          after.selectMembership row.scopeId userId = none := by
  intro db
  have kept : db.ProvenanceKept := Machine.run_invariant (P := ProvenanceKept)
    (fun _ operation kept => kept.step lowerCase operation) ProvenanceKept.empty operations
  have sourced : ∀ row ∈ db.memberships, db.Sourced row := fun row inTable =>
    kept.sourced row.scopeId row.userId row (Table.lookup_eq_some_iff.mpr ⟨inTable, rfl⟩)
  refine ⟨?_, fun row inTable => (sourced row inTable).source,
    fun row inTable => (sourced row inTable).manual, fun row inTable => (sourced row inTable).plain,
    ?_, ?_⟩
  · intro left inLeft right inRight managedLeft managedRight sameUser
    obtain ⟨sync, recorded, here⟩ := (sourced left inLeft).source managedLeft
    obtain ⟨sync', recorded', here'⟩ := (sourced right inRight).source managedRight
    rw [sameUser] at recorded
    cases recorded.symm.trans recorded'
    exact Table.unique inLeft inRight (Prod.ext (here.symm.trans here') sameUser)
  · intro operation after scopeId userId role done gives later others
    obtain ⟨row, found, same, -⟩ := (kept.hasManualRole done gives).run lowerCase later others
    exact ⟨row, found, same⟩
  · intro userId parsed isTestAccount drawn syncedAt expectedLastLoginAt scopeId after done row inTable
      own managed plain elsewhere
    exact selectMembership_moved done inTable own managed plain elsewhere

end OrganizationDatabase

end PlatformClaw.Organization
