import PlatformClaw.Spaces.AdmittedRuns

/-! # Membership, departure and deletion over whole runs

What every step does to the revisions of the Spaces, why a departure or a
deletion can be asked for again without effect, and the laws of every reachable
store.
-/

namespace PlatformClaw.Spaces

open Except (bind_ok_iff)

namespace SpaceStore

variable {store after : SpaceStore} {spaceId userId : String}

/-- A Space that has another membership afterwards has a higher revision. -/
def CountsChanges (store after : SpaceStore) : Prop :=
  ∀ spaceId userId space later, store.space? spaceId = some space → after.space? spaceId = some later →
    store.member? spaceId userId ≠ after.member? spaceId userId →
    space.revision < later.revision

def Past (store : SpaceStore) (spaceId : String) (revision : Nat) : Prop :=
  store.deleting spaceId = true ∨ ∃ space, store.space? spaceId = some space ∧ revision < space.revision

theorem Effect.countsChanges (effect : Effect store after) : CountsChanges store after := by
  intro spaceId userId space later found kept changed
  obtain ⟨same, kept', -, counts⟩ := effect.revisions found
  cases kept.symm.trans kept'
  exact counts userId changed

theorem Past.effect {revision : Nat} (past : store.Past spaceId revision)
    (effect : Effect store after) : after.Past spaceId revision := by
  obtain deleted | ⟨space, found, less⟩ := past
  · exact .inl (effect.deleting_le deleted)
  · obtain ⟨later, kept, atLeast, -⟩ := effect.revisions found
    exact .inr ⟨later, kept, Nat.lt_of_lt_of_le less atLeast⟩

theorem Past.finishDelete {revision : Nat} (past : store.Past spaceId revision)
    {deleted : String} (begun : store.deleting deleted = true) (deleter : String) :
    (store.finishDelete deleter deleted).Past spaceId revision := by
  obtain gone | ⟨space, found, less⟩ := past
  · exact .inl (by rwa [finishDelete_deleting])
  · by_cases same : spaceId = deleted
    · exact .inl (by rwa [finishDelete_deleting, same])
    · exact .inr ⟨space, by rwa [finishDelete_space?, if_neg same], less⟩

theorem recordDeletion_deleting {space : SpaceRow} {deletion : SpaceDeletionRow} :
    (store.recordDeletion space deletion).deleting deletion.spaceId = true := by
  refine (List.any_append ..).trans ?_
  simp

theorem Admitted.past_of_leave (admitted : store.Admitted) {revision : Nat} {result : LeaveResult}
    (accepted : store.leave userId spaceId revision = .ok (result, after)) :
    after.Past spaceId revision := by
  obtain ⟨-, space, found, rfl, ⟨rfl, -, departure, known, rfl⟩ | ⟨rfl, rfl⟩⟩ :=
    leave_effect accepted
  · exact .inr (admitted.counted space.id userId departure known)
  · have counted := changeMember_space? store space userId none space.id
    rw [found, Option.map_some] at counted
    obtain ⟨departures, same⟩ := upsertDeparture_frame
      (store.changeMember space userId none) space.id userId space.revision
    rw [same]
    refine .inr ⟨_, counted, ?_⟩
    rw [revise_counts found found, if_pos rfl]
    exact Nat.lt_succ_self _

theorem Past.leave_same {revision : Nat} {result : LeaveResult} (past : store.Past spaceId revision)
    (accepted : store.leave userId spaceId revision = .ok (result, after)) : after = store := by
  obtain ⟨kept, space, found, -, ⟨same, -⟩ | ⟨current, -⟩⟩ := leave_effect accepted
  · exact same
  · obtain deleted | ⟨later, found', less⟩ := past
    · rw [kept] at deleted
      cases deleted
    · cases found.symm.trans found'
      exact absurd current.symm (Nat.ne_of_lt less)

theorem deleting_of_beginDelete {revision : Nat} {confirmName : String} {now : Int}
    {deletion : SpaceDeletionRow}
    (accepted : store.beginDelete userId spaceId revision confirmName now = .ok (deletion, after)) :
    after.deleting spaceId = true := by
  obtain ⟨deleted, rfl⟩ | ⟨-, space, -, -, here, rfl⟩ := beginDelete_effect accepted
  · exact deleted
  · exact here ▸ recordDeletion_deleting

theorem beginDelete_same {revision : Nat} {confirmName : String} {now : Int}
    {deletion : SpaceDeletionRow} (deleted : store.deleting spaceId = true)
    (accepted : store.beginDelete userId spaceId revision confirmName now = .ok (deletion, after)) :
    after = store := by
  obtain ⟨-, same⟩ | ⟨kept, -⟩ := beginDelete_effect accepted
  · exact same
  · rw [deleted] at kept
    cases kept

end SpaceStore

namespace ContentStore

variable {store after : ContentStore}

theorem execute_spaces {digests : Digests} {call : ContentCall} (accepted : store.execute digests call = .ok after) :
    (∃ runs, after.spaces = { store.spaces with collaborationSpaceRuns := runs }) ∨
      SpaceStore.Effect store.spaces after.spaces ∨
      ∃ userId spaceId, store.spaces.deleting spaceId = true ∧
        after.spaces = store.spaces.finishDelete userId spaceId := by
  have same {edited : ContentStore} (edits : EditsContent store edited) :
      ∃ runs, edited.spaces = { store.spaces with collaborationSpaceRuns := runs } :=
    ⟨_, edits.spaces⟩
  cases call with
  | space operation =>
    obtain ⟨spaces, effect, -, rfl⟩ | ⟨userId, spaceId, -, deleted, rfl⟩ :=
      executeSpace_ok accepted
    · exact .inr (.inl effect)
    · exact .inr (.inr ⟨userId, spaceId, deleted, rfl⟩)
  | createPage userId spaceId params id now =>
    obtain ⟨⟨row, _⟩, created, rfl⟩ := Except.map_ok_iff.mp accepted
    exact .inl (same (createPage_edits created))
  | savePage userId spaceId pageId title body revision now =>
    obtain ⟨⟨row, _⟩, saved, rfl⟩ := Except.map_ok_iff.mp accepted
    exact .inl (same (savePage_edits saved))
  | beginRun userId spaceId pageId runId message =>
    obtain ⟨⟨finished, _⟩, begun, rfl⟩ := Except.map_ok_iff.mp accepted
    obtain ⟨-, -, rfl | ⟨-, -, -, -, -, -, rfl⟩ | ⟨-, -, -, rfl⟩⟩ := beginRun_ok begun
    · exact .inl ⟨_, rfl⟩
    · exact .inl ⟨_, rfl⟩
    · exact .inl ⟨_, rfl⟩
  | finishRun runId pageId =>
    cases accepted
    exact .inl ⟨_, rfl⟩
  | failRun runId =>
    cases accepted
    exact .inl ⟨_, rfl⟩
  | mutate context mutation drawn now =>
    obtain ⟨⟨receipt, _⟩, mutated, rfl⟩ := Except.map_ok_iff.mp accepted
    exact .inl (same (mutate_edits mutated))
  | others conversations personalBindings =>
    cases accepted
    exact .inl ⟨_, rfl⟩

theorem execute_countsChanges {digests : Digests} {call : ContentCall}
    (accepted : store.execute digests call = .ok after) :
    SpaceStore.CountsChanges store.spaces after.spaces := by
  obtain ⟨runs, same⟩ | effect | ⟨userId, deleted, -, same⟩ := execute_spaces accepted
  · rw [same]
    exact fun spaceId userId space later _ _ changed => absurd rfl changed
  · exact effect.countsChanges
  · rw [same]
    intro spaceId user space later found kept changed
    rw [SpaceStore.finishDelete_space?] at kept
    rw [SpaceStore.finishDelete_member?] at changed
    split at kept
    · cases kept
    · rename_i elsewhere
      rw [if_neg elsewhere] at changed
      exact absurd rfl changed

theorem step_countsChanges {digests : Digests} (call : ContentCall) :
    SpaceStore.CountsChanges store.spaces ((contentMachine digests).step store call).spaces := by
  simp only [contentMachine]
  split
  · rename_i accepted
    exact execute_countsChanges accepted
  · exact fun spaceId userId space later _ _ changed => absurd rfl changed

theorem execute_past {digests : Digests} {call : ContentCall} {spaceId : String} {revision : Nat}
    (past : store.spaces.Past spaceId revision)
    (accepted : store.execute digests call = .ok after) : after.spaces.Past spaceId revision := by
  obtain ⟨runs, same⟩ | effect | ⟨userId, deleted, begun, same⟩ := execute_spaces accepted
  · rw [same]
    exact past
  · exact past.effect effect
  · rw [same]
    exact past.finishDelete begun userId

theorem execute_deleting {digests : Digests} {call : ContentCall} {spaceId : String}
    (begun : store.spaces.deleting spaceId = true)
    (accepted : store.execute digests call = .ok after) : after.spaces.deleting spaceId = true := by
  obtain ⟨runs, same⟩ | effect | ⟨userId, deleted, -, same⟩ := execute_spaces accepted
  · rw [same]
    exact begun
  · exact effect.deleting_le begun
  · rw [same, SpaceStore.finishDelete_deleting]
    exact begun

theorem step_same {digests : Digests} {call : ContentCall}
    (same : ∀ after, store.execute digests call = .ok after → after = store) :
    (contentMachine digests).step store call = store := by
  simp only [contentMachine]
  split
  · rename_i accepted
    exact same _ accepted
  · rfl

theorem execute_leave {digests : Digests} {userId spaceId : String} {revision : Nat}
    (accepted : store.execute digests (.space (.leave userId spaceId revision)) = .ok after) :
    ∃ result spaces, store.spaces.leave userId spaceId revision = .ok (result, spaces) ∧
      after = { store with spaces } := by
  obtain ⟨spaces, -, executed, rfl⟩ | ⟨_, _, same, _⟩ :=
    @executeSpace_ok store after (.leave userId spaceId revision) accepted
  · obtain ⟨⟨result, _⟩, left, rfl⟩ := Except.map_ok_iff.mp executed
    exact ⟨result, _, left, rfl⟩
  · cases same

theorem execute_beginDelete {digests : Digests} {userId spaceId name : String} {revision : Nat}
    {now : Int}
    (accepted : store.execute digests (.space (.beginDelete userId spaceId revision name now)) = .ok after) :
    ∃ deletion spaces, store.spaces.beginDelete userId spaceId revision name now = .ok (deletion, spaces) ∧
        after = { store with spaces } := by
  obtain ⟨spaces, -, executed, rfl⟩ | ⟨_, _, same, _⟩ :=
    @executeSpace_ok store after (.beginDelete userId spaceId revision name now) accepted
  · obtain ⟨⟨deletion, _⟩, begun, rfl⟩ := Except.map_ok_iff.mp executed
    exact ⟨deletion, _, begun, rfl⟩
  · cases same

theorem leave_again (admitted : store.Admitted) {digests : Digests} {userId spaceId : String}
    {revision : Nat}
    (accepted : store.execute digests (.space (.leave userId spaceId revision)) = .ok after)
    (later : List ContentCall) :
    (contentMachine digests).step ((contentMachine digests).run after later)
        (.space (.leave userId spaceId revision)) =
      (contentMachine digests).run after later := by
  obtain ⟨result, spaces, left, rfl⟩ := execute_leave accepted
  have past : ((contentMachine digests).run { store with spaces } later).spaces.Past spaceId revision :=
    Machine.run_invariant (P := fun store : ContentStore => store.spaces.Past spaceId revision)
      (step_preserves fun _ _ _ past accepted => execute_past past accepted)
      (admitted.spaces.past_of_leave left) later
  refine step_same ?_
  intro again replayed
  obtain ⟨result', spaces', left', rfl⟩ := execute_leave replayed
  rw [past.leave_same left']

theorem beginDelete_again {digests : Digests} {userId spaceId name : String} {revision : Nat}
    {now : Int}
    (accepted : store.execute digests (.space (.beginDelete userId spaceId revision name now)) =
      .ok after) (later : List ContentCall) (again : Int) :
    (contentMachine digests).step ((contentMachine digests).run after later)
        (.space (.beginDelete userId spaceId revision name again)) =
      (contentMachine digests).run after later := by
  obtain ⟨deletion, spaces, begun, rfl⟩ := execute_beginDelete accepted
  have deleted : ((contentMachine digests).run { store with spaces } later).spaces.deleting spaceId = true :=
    Machine.run_invariant (P := fun store : ContentStore => store.spaces.deleting spaceId = true)
      (step_preserves fun _ _ _ deleted accepted => execute_deleting deleted accepted)
      (SpaceStore.deleting_of_beginDelete begun) later
  refine step_same ?_
  intro changed replayed
  obtain ⟨deletion', spaces', begun', rfl⟩ := execute_beginDelete replayed
  rw [SpaceStore.beginDelete_same deleted begun']

/-- Memberships, departures, deletions and runs in every reachable store. -/
theorem lifecycle_of_run (digests : Digests) (calls : List ContentCall) :
    let machine := contentMachine digests
    let store := machine.run .empty calls
    (∀ run ∈ store.spaces.collaborationSpaceRuns, run.state = .active →
      store.spaces.space? run.spaceId ≠ none ∧ store.spaces.MayEdit run.spaceId run.userId) ∧
    (∀ spaceId userId departure, store.spaces.departure? spaceId userId = some departure →
      departure.pending = true → store.spaces.member? spaceId userId = none) ∧
    (∀ spaceId, store.spaces.deleting spaceId = true →
      ∀ userId minimum, store.spaces.access userId spaceId minimum = .error unavailable) ∧
    (∀ call, SpaceStore.CountsChanges store.spaces (machine.step store call).spaces) ∧
    (∀ userId spaceId revision after, store.execute digests (.space (.leave userId spaceId revision)) = .ok after →
      ∀ later, let reached := machine.run after later
        machine.step reached (.space (.leave userId spaceId revision)) = reached) ∧
    ∀ userId spaceId revision name now after,
      store.execute digests (.space (.beginDelete userId spaceId revision name now)) = .ok after →
      ∀ later again, let reached := machine.run after later
        machine.step reached (.space (.beginDelete userId spaceId revision name again)) = reached := by
  have admitted := admitted_reachable digests calls
  refine ⟨?_, admitted.spaces.departed, ?_, ?_, ?_, ?_⟩
  · intro run inRuns active
    have allowed := admitted.spaces.runs run inRuns active
    refine ⟨?_, allowed⟩
    obtain ⟨-, member, found, -⟩ := allowed
    exact admitted.spaces.placed run.spaceId run.userId (by simp [found])
  · intro spaceId deleted userId minimum
    exact SpaceStore.access_deleting deleted userId minimum
  · intro call
    exact step_countsChanges call
  · intro userId spaceId revision after accepted later
    exact leave_again admitted accepted later
  · intro userId spaceId revision name now after accepted later again
    exact beginDelete_again accepted later again

end ContentStore

end PlatformClaw.Spaces
