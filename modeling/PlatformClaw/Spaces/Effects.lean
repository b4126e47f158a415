import PlatformClaw.Spaces.OwnershipRuns

/-! # What one call does to the memberships

An accepted call has one of a few effects on the store. Every law about
memberships, departures, deletions and runs is proved from them, and no proof
unfolds an operation a second time.
-/

namespace PlatformClaw.Spaces

open Except (bind_ok_iff)

def SpaceRow.revise (spaceId : String) (revision : Nat) (space : SpaceRow) : SpaceRow :=
  if space.id = spaceId then { space with revision } else space

namespace SpaceStore

variable {store after : SpaceStore} {spaceId userId memberId : String}

def assignMember (store : SpaceStore) (spaceId memberId : String) : Option SpaceRole → SpaceStore
  | some role => store.upsertMember spaceId memberId role
  | none => store.deleteMember spaceId memberId

/-- A membership of which no active run is left: none, or one that may only read. -/
def withoutRuns (role : Option SpaceRole) : Bool :=
  role = none ∨ role = some .viewer

def changeMember (store : SpaceStore) (space : SpaceRow) (memberId : String) (role : Option SpaceRole) : SpaceStore :=
  ((store.assignMember space.id memberId role).setRevision space.id (space.revision + 1)).revokeRuns
    fun run => withoutRuns role ∧ run.spaceId = space.id ∧ run.userId = memberId

/-- The store with a new Space, owned by its creator. -/
def addSpace (store : SpaceStore) (space : SpaceRow) : SpaceStore :=
  { store with
    collaborationSpaces := store.collaborationSpaces ++ [space]
    collaborationSpaceMembers := store.collaborationSpaceMembers ++
      [{ spaceId := space.id, userId := space.creatorId, role := .owner }] }

def recordDeletion (store : SpaceStore) (space : SpaceRow) (deletion : SpaceDeletionRow) : SpaceStore :=
  (({ store with
      collaborationSpaceDeletions := store.collaborationSpaceDeletions ++ [deletion] }
    : SpaceStore).setRevision space.id (space.revision + 1)).revokeRuns
      fun run => run.spaceId = space.id

/-- The effects of an accepted call, registry removal apart. -/
inductive Effect (store : SpaceStore) : SpaceStore → Prop
  | accounts (platformUsers : List PlatformUserRow) : Effect store { store with platformUsers }
  | created (space : SpaceRow) (fresh : store.space? space.id = none)
      (kept : store.deleting space.id = false) : Effect store (store.addSpace space)
  | memberSet (space : SpaceRow) (memberId : String) (role : Option SpaceRole)
      (found : store.space? space.id = some space)
      (settled : (store.departure? space.id memberId).all fun departure => departure.pending = false) :
      Effect store (store.changeMember space memberId role)
  | departed (space : SpaceRow) (userId : String) (found : store.space? space.id = some space) :
      Effect store ((store.changeMember space userId none).upsertDeparture space.id userId space.revision)
  | departureFinished (userId spaceId : String) (revision : Nat) :
      Effect store (store.finishLeave userId spaceId revision)
  | deletionBegun (space : SpaceRow) (deletion : SpaceDeletionRow)
      (found : store.space? space.id = some space) (here : deletion.spaceId = space.id) :
      Effect store (store.recordDeletion space deletion)

theorem Effect.refl (store : SpaceStore) : Effect store store :=
  .accounts store.platformUsers

theorem access_reads {minimum : SpaceRole} {space : Space}
    (granted : store.access userId spaceId minimum = .ok space) :
    store.deleting spaceId = false ∧
      ∃ row, store.space? spaceId = some row ∧ row.id = spaceId ∧ space.revision = row.revision := by
  simp only [access, bind_ok_iff, Except.ensure_ok_iff, Except.orThrow_ok_iff, Except.pure_ok_iff]
    at granted
  obtain ⟨-, -, -, kept, row, found, -, -, -, -, rfl⟩ := granted
  exact ⟨kept, row, found, (space?_some found).2, rfl⟩

theorem access_deleting (deleted : store.deleting spaceId = true) (userId : String)
    (minimum : SpaceRole) : store.access userId spaceId minimum = .error unavailable := by
  unfold access activeUser Except.ensure
  cases store.isActiveUser userId with
  | false => rfl
  | true =>
    simp only [deleted]
    rfl

theorem revokeRuns_none {concerned : SpaceRunRow → Bool} (none : ∀ run, concerned run = false) :
    store.revokeRuns concerned = store := by
  have same : store.collaborationSpaceRuns.map (fun run =>
      if concerned run ∧ run.state = .active then { run with state := .revoked } else run) =
        store.collaborationSpaceRuns := by
    simp [none]
  rw [revokeRuns, same]

theorem create_effect {name requestId id : String} {now : Int} {space : Space}
    (accepted : store.create userId name requestId id now = .ok (space, after)) :
    Effect store after := by
  simp only [SpaceStore.create, bind_ok_iff] at accepted
  obtain ⟨-, -, -, -, -, -, -, -, taken⟩ := accepted
  split at taken
  · simp only [bind_ok_iff, Except.pure_ok_iff, Prod.mk.injEq] at taken
    obtain ⟨-, -, -, -, -, rfl⟩ := taken
    exact .refl _
  · simp only [bind_ok_iff, Except.ensure_ok_iff, Except.pure_ok_iff, Prod.mk.injEq] at taken
    obtain ⟨-, -, -, fresh, _, granted, rfl, rfl⟩ := taken
    refine .created
      { id, name, agentId := "space-" ++ id, creatorId := userId, requestId, revision := 1,
        createdAt := now } ?_ (access_reads granted).1
    refine List.find?_eq_none.mpr ?_
    intro other inSpaces
    simpa using (fresh other inSpaces).1

theorem setMember_effect {role : Option SpaceRole} {revision : Nat}
    (accepted : store.setMember userId spaceId memberId role revision = .ok after) :
    ∃ space, store.space? spaceId = some space ∧ space.id = spaceId ∧
      (store.departure? spaceId memberId).all (fun departure => departure.pending = false) ∧
      after = store.changeMember space memberId role := by
  simp only [setMember, bind_ok_iff, Except.ensure_ok_iff, Except.pure_ok_iff] at accepted
  obtain ⟨space, granted, -, -, -, -, -, settled, -, -, -, -, -, -, rfl⟩ := accepted
  obtain ⟨-, row, found, rfl, revision⟩ := access_reads granted
  refine ⟨row, found, rfl, settled, ?_⟩
  rw [changeMember, revision]
  cases role with
  | none => simp [assignMember, withoutRuns]
  | some role =>
    split
    · rename_i reads
      have viewer : role = .viewer := by simpa using reads
      simp [assignMember, withoutRuns, viewer]
    · rename_i writes
      have other : role ≠ .viewer := by simpa using writes
      rw [revokeRuns_none (by simp [withoutRuns, other])]
      rfl

theorem leave_effect {revision : Nat} {result : LeaveResult}
    (accepted : store.leave userId spaceId revision = .ok (result, after)) :
    store.deleting spaceId = false ∧ ∃ space, store.space? spaceId = some space ∧ space.id = spaceId ∧
      ((after = store ∧ store.member? spaceId userId = none ∧
          ∃ departure, store.departure? spaceId userId = some departure ∧ departure.revision = revision) ∨
        (space.revision = revision ∧
          after = (store.changeMember space userId none).upsertDeparture spaceId userId revision)) := by
  have departed : leave.depart store userId spaceId revision = .ok (result, after) →
      store.deleting spaceId = false ∧ ∃ space, store.space? spaceId = some space ∧
        space.id = spaceId ∧ space.revision = revision ∧
        after = (store.changeMember space userId none).upsertDeparture spaceId userId revision := by
    intro taken
    simp only [leave.depart, bind_ok_iff, Except.ensure_ok_iff, Except.pure_ok_iff, Prod.mk.injEq] at taken
    obtain ⟨space, granted, -, current, -, -, -, -, -, rfl⟩ := taken
    obtain ⟨kept, row, found, rfl, same⟩ := access_reads granted
    have revised : row.revision = revision := same.symm.trans current
    refine ⟨kept, row, found, rfl, revised, ?_⟩
    simp [changeMember, assignMember, withoutRuns, revised]
  simp only [leave, bind_ok_iff] at accepted
  obtain ⟨-, -, taken⟩ := accepted
  split at taken
  · rename_i absent receipt found
    split at taken
    · rename_i replayed
      simp only [Except.pure_ok_iff, Prod.mk.injEq] at taken
      exact ⟨replayed.2, _, found, (space?_some found).2, .inl ⟨taken.2.symm, absent, _, receipt, replayed.1⟩⟩
    · obtain ⟨kept, space, found, here, changed⟩ := departed taken
      exact ⟨kept, space, found, here, .inr changed⟩
  · obtain ⟨kept, space, found, here, changed⟩ := departed taken
    exact ⟨kept, space, found, here, .inr changed⟩

theorem beginDelete_effect {revision : Nat} {confirmName : String} {now : Int}
    {deletion : SpaceDeletionRow}
    (accepted : store.beginDelete userId spaceId revision confirmName now = .ok (deletion, after)) :
    (store.deleting spaceId = true ∧ after = store) ∨ (store.deleting spaceId = false ∧
        ∃ space, store.space? spaceId = some space ∧ space.id = spaceId ∧
          deletion.spaceId = spaceId ∧ after = store.recordDeletion space deletion) := by
  simp only [beginDelete, bind_ok_iff] at accepted
  obtain ⟨-, -, taken⟩ := accepted
  split at taken
  · rename_i prior found
    simp only [bind_ok_iff, Except.pure_ok_iff, Prod.mk.injEq] at taken
    obtain ⟨-, -, -, rfl⟩ := taken
    refine .inl ⟨List.any_eq_true.mpr ⟨prior, List.mem_of_find?_eq_some found, ?_⟩, rfl⟩
    simpa using List.find?_some found
  · simp only [bind_ok_iff, Except.ensure_ok_iff, Except.pure_ok_iff, Prod.mk.injEq] at taken
    obtain ⟨space, granted, -, current, -, -, -, -, -, -, -, -, rfl, rfl⟩ := taken
    obtain ⟨kept, row, found, rfl, same⟩ := access_reads granted
    exact .inr ⟨kept, row, found, rfl, rfl, by rw [recordDeletion, ← same, current]⟩

theorem execute_effect {operation : SpaceOperation}
    (kept : ∀ userId spaceId, operation ≠ .finishDelete userId spaceId)
    (accepted : store.execute operation = .ok after) : Effect store after := by
  cases operation with
  | createUser user =>
    simp only [execute, createUser, bind_ok_iff, Except.pure_ok_iff] at accepted
    obtain ⟨-, -, rfl⟩ := accepted
    exact .accounts _
  | setManagedUserStatus userId status =>
    cases accepted
    exact .accounts _
  | create userId name requestId id now =>
    obtain ⟨⟨space, _⟩, created, rfl⟩ := Except.map_ok_iff.mp accepted
    exact create_effect created
  | setMember userId spaceId memberId role revision =>
    obtain ⟨space, found, rfl, settled, rfl⟩ := setMember_effect accepted
    exact .memberSet space memberId role found settled
  | leave userId spaceId revision =>
    obtain ⟨⟨result, _⟩, left, rfl⟩ := Except.map_ok_iff.mp accepted
    obtain ⟨-, space, found, rfl, ⟨rfl, -⟩ | ⟨rfl, rfl⟩⟩ := leave_effect left
    · exact .refl _
    · exact .departed space userId found
  | finishLeave userId spaceId revision =>
    cases accepted
    exact .departureFinished userId spaceId revision
  | beginDelete userId spaceId revision confirmName now =>
    obtain ⟨⟨deletion, _⟩, begun, rfl⟩ := Except.map_ok_iff.mp accepted
    obtain ⟨-, rfl⟩ | ⟨-, space, found, rfl, here, rfl⟩ := beginDelete_effect begun
    · exact .refl _
    · exact .deletionBegun space deletion found here
  | finishDelete userId spaceId => exact absurd rfl (kept userId spaceId)

theorem space?_setRevision (store : SpaceStore) (spaceId inSpace : String) (revision : Nat) :
    (store.setRevision spaceId revision).space? inSpace =
      (store.space? inSpace).map (SpaceRow.revise spaceId revision) := by
  refine KeyedRows.find?_map_of_keeps ?_
  intro space
  split <;> rfl

theorem member?_deleteMember (store : SpaceStore) (spaceId memberId inSpace user : String) :
    (store.deleteMember spaceId memberId).member? inSpace user =
      if inSpace = spaceId ∧ user = memberId then none else store.member? inSpace user := by
  split
  · rename_i here
    refine KeyedRows.find?_filter_of_dropped ?_
    intro row found
    obtain ⟨rfl, rfl⟩ := here
    simpa using found
  · rename_i elsewhere
    refine KeyedRows.find?_filter_of_kept ?_
    intro row found
    obtain ⟨rfl, rfl⟩ : row.spaceId = inSpace ∧ row.userId = user := by simpa using found
    simpa using Decidable.not_and_iff_not_or_not.mp elsewhere

theorem member?_upsertMember (store : SpaceStore) (spaceId memberId inSpace user : String) (role : SpaceRole) :
    (store.upsertMember spaceId memberId role).member? inSpace user =
      if inSpace = spaceId ∧ user = memberId then some { spaceId, userId := memberId, role }
      else store.member? inSpace user := by
  unfold upsertMember
  split
  · rename_i present
    refine (KeyedRows.find?_map_of_keeps fun row => by split <;> rfl).trans ?_
    change (store.member? inSpace user).map _ = _
    split
    · rename_i here
      obtain ⟨rfl, rfl⟩ := here
      obtain ⟨row, found⟩ := Option.isSome_iff_exists.mp present
      obtain ⟨-, rfl, rfl⟩ := member?_some found
      simp [found]
    · rename_i elsewhere
      cases found : store.member? inSpace user with
      | none => rfl
      | some row =>
        obtain ⟨-, rfl, rfl⟩ := member?_some found
        rw [Option.map_some, if_neg elsewhere]
  · rename_i absent
    refine KeyedRows.find?_append_row.trans ?_
    change (store.member? inSpace user).or _ = _
    simp only [decide_eq_true_eq]
    split
    · rename_i here
      obtain ⟨rfl, rfl⟩ := here
      simp [Option.not_isSome_iff_eq_none.mp absent]
    · rename_i elsewhere
      rw [if_neg fun same => elsewhere ⟨same.1.symm, same.2.symm⟩, Option.or_none]

theorem departure?_some {departure : SpaceDepartureRow} (found : store.departure? spaceId userId = some departure) :
    departure.spaceId = spaceId ∧ departure.userId = userId := by
  simpa using List.find?_some found

theorem departure?_upsertDeparture (store : SpaceStore) (spaceId userId inSpace user : String) (revision : Nat) :
    (store.upsertDeparture spaceId userId revision).departure? inSpace user =
      if inSpace = spaceId ∧ user = userId then some { spaceId, userId, revision, pending := true }
      else store.departure? inSpace user := by
  unfold upsertDeparture
  split
  · rename_i present
    refine (KeyedRows.find?_map_of_keeps fun row => by split <;> rfl).trans ?_
    change (store.departure? inSpace user).map _ = _
    split
    · rename_i here
      obtain ⟨rfl, rfl⟩ := here
      obtain ⟨row, found⟩ := Option.isSome_iff_exists.mp present
      obtain ⟨rfl, rfl⟩ := departure?_some found
      simp [found]
    · rename_i elsewhere
      cases found : store.departure? inSpace user with
      | none => rfl
      | some row =>
        obtain ⟨rfl, rfl⟩ := departure?_some found
        rw [Option.map_some, if_neg elsewhere]
  · rename_i absent
    refine KeyedRows.find?_append_row.trans ?_
    change (store.departure? inSpace user).or _ = _
    simp only [decide_eq_true_eq]
    split
    · rename_i here
      obtain ⟨rfl, rfl⟩ := here
      simp [Option.not_isSome_iff_eq_none.mp absent]
    · rename_i elsewhere
      rw [if_neg fun same => elsewhere ⟨same.1.symm, same.2.symm⟩, Option.or_none]

theorem departure?_finishLeave (store : SpaceStore) (spaceId userId inSpace user : String) (revision : Nat) :
    (store.finishLeave userId spaceId revision).departure? inSpace user =
      (store.departure? inSpace user).map fun row =>
        if row.spaceId = spaceId ∧ row.userId = userId ∧ row.revision = revision then
          { row with pending := false }
        else row :=
  KeyedRows.find?_map_of_keeps fun row => by split <;> rfl

theorem addSpace_space? (store : SpaceStore) (space : SpaceRow) (inSpace : String) :
    (store.addSpace space).space? inSpace =
      (store.space? inSpace).or (if space.id = inSpace then some space else none) := by
  refine KeyedRows.find?_append_row.trans ?_
  simp only [decide_eq_true_eq]
  rfl

theorem addSpace_member? (store : SpaceStore) (space : SpaceRow) (inSpace user : String) :
    (store.addSpace space).member? inSpace user = (store.member? inSpace user).or
        (if space.id = inSpace ∧ space.creatorId = user then
          some { spaceId := space.id, userId := space.creatorId, role := .owner }
        else none) := by
  refine KeyedRows.find?_append_row.trans ?_
  simp only [decide_eq_true_eq]
  rfl

section FinishDelete

variable (store : SpaceStore) (deleter deleted inSpace user : String)

theorem finishDelete_deleting : (store.finishDelete deleter deleted).deleting = store.deleting := by
  funext inSpace
  simp only [deleting, finishDelete, List.any_map]
  congr 1
  funext deletion
  simp only [Function.comp_apply]
  split <;> rfl

theorem finishDelete_space? : (store.finishDelete deleter deleted).space? inSpace =
      if inSpace = deleted then none else store.space? inSpace := by
  split
  · rename_i here
    exact KeyedRows.find?_filter_of_dropped fun row found => by simp_all
  · rename_i elsewhere
    exact KeyedRows.find?_filter_of_kept fun row found => by simp_all

theorem finishDelete_member? : (store.finishDelete deleter deleted).member? inSpace user =
      if inSpace = deleted then none else store.member? inSpace user := by
  split
  · rename_i here
    exact KeyedRows.find?_filter_of_dropped fun row found => by simp_all
  · rename_i elsewhere
    exact KeyedRows.find?_filter_of_kept fun row found => by simp_all

theorem finishDelete_departure? : (store.finishDelete deleter deleted).departure? inSpace user =
      if inSpace = deleted then none else store.departure? inSpace user := by
  split
  · rename_i here
    exact KeyedRows.find?_filter_of_dropped fun row found => by simp_all
  · rename_i elsewhere
    exact KeyedRows.find?_filter_of_kept fun row found => by simp_all

end FinishDelete

section ChangeMember

variable (store : SpaceStore) (space : SpaceRow) (memberId : String) (role : Option SpaceRole)

theorem assignMember_frame (spaceId : String) : ∃ members,
    store.assignMember spaceId memberId role = { store with collaborationSpaceMembers := members } := by
  cases role with
  | none => exact ⟨_, rfl⟩
  | some role =>
    simp only [assignMember, upsertMember]
    split <;> exact ⟨_, rfl⟩

theorem changeMember_frame : (store.changeMember space memberId role).deleting = store.deleting ∧
      (store.changeMember space memberId role).departure? = store.departure? := by
  obtain ⟨members, same⟩ := assignMember_frame store memberId role space.id
  rw [changeMember, same]
  exact ⟨rfl, rfl⟩

theorem changeMember_runs : (store.changeMember space memberId role).collaborationSpaceRuns =
      (store.revokeRuns fun run => withoutRuns role ∧ run.spaceId = space.id ∧
        run.userId = memberId).collaborationSpaceRuns := by
  obtain ⟨members, same⟩ := assignMember_frame store memberId role space.id
  rw [changeMember, same]
  rfl

theorem changeMember_space? (inSpace : String) : (store.changeMember space memberId role).space? inSpace =
      (store.space? inSpace).map (SpaceRow.revise space.id (space.revision + 1)) := by
  obtain ⟨members, same⟩ := assignMember_frame store memberId role space.id
  rw [changeMember, same]
  exact space?_setRevision store space.id inSpace (space.revision + 1)

theorem changeMember_member? (inSpace user : String) : (store.changeMember space memberId role).member? inSpace user =
      if inSpace = space.id ∧ user = memberId then
        role.map fun role => { spaceId := space.id, userId := memberId, role }
      else store.member? inSpace user := by
  cases role with
  | none => exact member?_deleteMember store space.id memberId inSpace user
  | some role => exact member?_upsertMember store space.id memberId inSpace user role

end ChangeMember

theorem upsertDeparture_frame (store : SpaceStore) (spaceId userId : String) (revision : Nat) :
    ∃ departures, store.upsertDeparture spaceId userId revision =
      { store with collaborationSpaceDepartures := departures } := by
  unfold upsertDeparture
  split <;> exact ⟨_, rfl⟩

theorem active_of_revokeRuns {concerned : SpaceRunRow → Bool} {run : SpaceRunRow}
    (inRuns : run ∈ (store.revokeRuns concerned).collaborationSpaceRuns)
    (active : run.state = .active) :
    run ∈ store.collaborationSpaceRuns ∧ concerned run = false := by
  obtain ⟨old, inTable, rfl⟩ := List.mem_map.mp inRuns
  split at active
  · cases active
  · rename_i kept
    rw [if_neg kept]
    exact ⟨inTable, by simpa [active] using kept⟩

theorem revise_counts {inSpace : String} {space row : SpaceRow}
    (found : store.space? space.id = some space) (here : store.space? inSpace = some row) :
    (row.revise space.id (space.revision + 1)).revision = row.revision + if inSpace = space.id then 1 else 0 := by
  have id := (space?_some here).2
  unfold SpaceRow.revise
  by_cases same : inSpace = space.id
  · have row' : space = row := Option.some.inj (found.symm.trans (same ▸ here))
    rw [if_pos (id.trans same), if_pos same, row']
  · rw [if_neg fun named => same (id.symm.trans named), if_neg same, Nat.add_zero]

theorem changeMember_revisions {changed space : SpaceRow} {inSpace : String}
    (here : store.space? changed.id = some changed) (found : store.space? inSpace = some space)
    (memberId : String) (role : Option SpaceRole) :
    ∃ later, (store.changeMember changed memberId role).space? inSpace = some later ∧
      space.revision ≤ later.revision ∧
      ∀ user, store.member? inSpace user ≠ (store.changeMember changed memberId role).member? inSpace user →
          space.revision < later.revision := by
  refine ⟨_, (changeMember_space? ..).trans (congrArg _ found), ?_⟩
  rw [revise_counts here found]
  refine ⟨Nat.le_add_right _ _, ?_⟩
  intro user apart
  rw [changeMember_member?] at apart
  split at apart
  · rename_i both
    simp [both.1]
  · exact absurd rfl apart

theorem Effect.revisions (effect : Effect store after) {inSpace : String} {space : SpaceRow}
    (found : store.space? inSpace = some space) :
    ∃ later, after.space? inSpace = some later ∧ space.revision ≤ later.revision ∧
      ∀ user, store.member? inSpace user ≠ after.member? inSpace user → space.revision < later.revision := by
  cases effect with
  | accounts platformUsers =>
    exact ⟨space, found, Nat.le_refl _, fun user changed => absurd rfl changed⟩
  | created created fresh =>
    have apart : created.id ≠ inSpace := by
      rintro rfl
      rw [found] at fresh
      cases fresh
    refine ⟨space, ?_, Nat.le_refl _, fun user changed => absurd ?_ changed⟩
    · rw [addSpace_space?, found, Option.some_or]
    · rw [addSpace_member?, if_neg fun same => apart same.1, Option.or_none]
  | memberSet changed memberId role here settled =>
    exact changeMember_revisions here found memberId role
  | departed left userId here =>
    obtain ⟨departures, same⟩ := upsertDeparture_frame
      (store.changeMember left userId none) left.id userId left.revision
    rw [same]
    exact changeMember_revisions here found userId none
  | departureFinished userId spaceId revision =>
    exact ⟨space, found, Nat.le_refl _, fun user changed => absurd rfl changed⟩
  | deletionBegun deleted deletion here =>
    have later := (space?_setRevision store deleted.id inSpace (deleted.revision + 1)).trans (congrArg _ found)
    refine ⟨_, later, ?_, fun user changed => absurd rfl changed⟩
    rw [revise_counts here found]
    exact Nat.le_add_right _ _

/-- No call takes a deletion back. -/
theorem Effect.deleting_le (effect : Effect store after) {inSpace : String}
    (deleted : store.deleting inSpace = true) : after.deleting inSpace = true := by
  cases effect with
  | accounts | created | departureFinished => exact deleted
  | memberSet space memberId role =>
    rwa [(changeMember_frame store space memberId role).1]
  | departed space userId =>
    obtain ⟨departures, same⟩ := upsertDeparture_frame
      (store.changeMember space userId none) space.id userId space.revision
    rw [same]
    exact (congrFun (changeMember_frame store space userId none).1 inSpace).trans deleted
  | deletionBegun space deletion =>
    rw [deleting, recordDeletion]
    exact (List.any_append ..).trans (by rw [← deleting, deleted, Bool.true_or])

end SpaceStore

end PlatformClaw.Spaces
