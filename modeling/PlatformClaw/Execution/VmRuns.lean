import PlatformClaw.Execution.VmEffects

/-! # Development VMs over whole runs

Every operation leaves the active allocation of a profile alive and every
allocation linked to its saved connection. What an agent may expect follows from
these and the unique indexes: one allocation at a time, and no Linux account
that another agent holds as well.
-/

namespace PlatformClaw.Execution.Vm

open Except (bind_ok_iff ensure_ok_iff orThrow_ok_iff pure_ok_iff ite_ok_iff)
open VmTables VmDatabase

/-- What an operation leaves that is no switch: profiles, targets and links. -/
structure Quiet (db after : VmTables) : Prop where
  profiles : ∀ row ∈ db.profiles, row ∈ after.profiles
  targets : db.LiveTargets → after.LiveTargets
  linked : db.Linked → after.Linked

namespace Quiet

variable {db middle after : VmTables}

theorem refl (db : VmTables) : Quiet db db :=
  ⟨fun _ inTable => inTable, id, id⟩

theorem trans (first : Quiet db middle) (second : Quiet middle after) : Quiet db after where
  profiles row inTable := second.profiles row (first.profiles row inTable)
  targets targets := second.targets (first.targets targets)
  linked linked := second.linked (first.linked linked)

theorem of_frame (frame : Frame db after) (linked : db.Linked → after.Linked) : Quiet db after where
  profiles _ inTable := frame.profiles ▸ inTable
  targets := frame.liveTargets
  linked := linked

theorem of_places (same : SamePlaces db after) : Quiet db after :=
  of_frame same.frame same.linked

end Quiet

theorem resourceId_named (kind drawn : String) : nextExecutionResourceId kind drawn ≠ "" := by
  intro empty
  have letters := congrArg String.toList empty
  simp [nextExecutionResourceId] at letters

namespace VmDatabase

variable {db after : VmDatabase}

theorem insertAllocation_quiet {row : VmAllocationRow} (named : row.id ≠ "")
    (done : db.insertAllocation row = .ok after) : Quiet db.toVmTables after.toVmTables :=
  .of_frame (insertAllocation_frame done) fun linked => insertAllocation_linked named linked done

theorem revokeAllocation_quiet {id : String} {revokedAt : Int}
    (done : db.revokeAllocation id revokedAt = .ok after) : Quiet db.toVmTables after.toVmTables :=
  .of_frame (revokeAllocation_frame done) fun linked => revokeAllocation_linked linked.mono done

theorem assign_quiet {actorUserId agentId vmHostId linuxAccount drawn : String} {assignedAt : Int}
    (done : db.assignVmToPersonalAgent actorUserId agentId vmHostId linuxAccount drawn assignedAt =
      .ok after) : Quiet db.toVmTables after.toVmTables := by
  simp only [assignVmToPersonalAgent, bind_ok_iff] at done
  obtain ⟨-, -, binding, -, host, -, account, -, -, -, inserted⟩ := done
  exact insertAllocation_quiet (resourceId_named "vm-allocation" drawn) inserted

theorem updateAllocation_quiet {id : String} {change : VmAllocationRow → VmAllocationRow}
    {keeps : ∀ row, (change row).toAllocationPlace = row.toAllocationPlace} {row : VmAllocationRow}
    (found : db.allocations.lookup id = some row) (live : row.live = true)
    (done : db.updateAllocation id change keeps = .ok after) :
    Quiet db.toVmTables after.toVmTables := by
  refine .of_frame (updateAllocation_frame done) fun linked => ?_
  apply updateAllocation_linked linked _ _ done
  · intro other impossible
    cases impossible
  · intro old looked _
    rw [found] at looked
    cases looked
    exact live

theorem record_quiet {actorUserId agentId expectedAllocationId : String}
    {expectedTargetRevision : Int} {expectedCredentialRevision : Option Int} {checkedAt : Int}
    {result : ConnectionResult}
    (done : db.recordVmConnectionResult actorUserId agentId expectedAllocationId
      expectedTargetRevision expectedCredentialRevision checkedAt result = .ok after) :
    Quiet db.toVmTables after.toVmTables := by
  simp only [recordVmConnectionResult, bind_ok_iff, orThrow_ok_iff] at done
  obtain ⟨owner, -, -, -, row, found, -, -, -, -, stored⟩ := done
  obtain ⟨looked, own⟩ := Option.filter_eq_some_iff.mp found
  obtain ⟨-, live⟩ := (Bool.and_eq_true _ _).mp own
  have same : db.allocations.lookup row.id = some row :=
    Table.lookup_key (Table.lookup_eq_some_iff.mp looked).1
  cases result with
  | ready remoteHomeDir remoteWorkspaceDir =>
    simp only [storeConnectionResult, bind_ok_iff] at stored
    obtain ⟨home, -, workspace, -, updated⟩ := stored
    exact updateAllocation_quiet same live updated
  | connectionRequired failureCode =>
    simp only [storeConnectionResult, bind_ok_iff] at stored
    obtain ⟨text, -, updated⟩ := stored
    exact updateAllocation_quiet same live updated

theorem putCredential_places {userId drawn : String} {envelope : SshCredentialEnvelope}
    {replacedAt : Int} (done : db.putCredential userId drawn envelope replacedAt = .ok after) :
    SamePlaces db.toVmTables after.toVmTables := by
  unfold putCredential at done
  split at done
  · exact updateCredential_places done
  · exact insertCredential_places done

theorem replaceCredential_places {actorUserId userId drawn : String}
    {envelope : SshCredentialEnvelope} {replacedAt : Int}
    (done : db.replaceCredential actorUserId userId drawn envelope replacedAt = .ok after) :
    SamePlaces db.toVmTables after.toVmTables := by
  simp only [replaceCredential, bind_ok_iff] at done
  obtain ⟨-, -, -, -, stored⟩ := done
  exact putCredential_places stored

theorem removeCredential_places {actorUserId userId : String}
    (done : db.removeCredential actorUserId userId = .ok after) :
    SamePlaces db.toVmTables after.toVmTables := by
  obtain ⟨_, -, rest⟩ := bind_ok_iff.mp done
  split at rest
  · exact deleteCredential_places rest
  · cases rest
    exact SamePlaces.refl _

theorem recordFailure_quiet {agentId allocationId : String}
    {targetRevision credentialRevision failedAt : Int}
    (done : db.recordVmAuthenticationFailure agentId allocationId targetRevision
      credentialRevision failedAt = .ok after) : Quiet db.toVmTables after.toVmTables := by
  unfold recordVmAuthenticationFailure at done
  split at done
  · cases done
    exact Quiet.refl _
  · rename_i credential current
    obtain ⟨marked, wrote, updated⟩ := bind_ok_iff.mp done
    have same := updateCredential_places wrote
    simp only [failedCredential, Option.bind_eq_bind, Option.bind_eq_some_iff] at current
    obtain ⟨owner, -, row, found, site, -, known, -, checked⟩ := current
    split at checked
    · rename_i all
      rw [← same.allocations] at found
      exact (Quiet.of_places same).trans (updateAllocation_quiet found all.2.1 updated)
    · cases checked

theorem revokeCurrent_quiet {current : Option VmAllocationRow} {revokedAt : Int}
    (done : db.revokeCurrent current revokedAt = .ok after) :
    Quiet db.toVmTables after.toVmTables := by
  cases current with
  | none =>
    cases done
    exact Quiet.refl _
  | some row => exact revokeAllocation_quiet done

theorem replace_quiet {actorUserId agentId vmHostId linuxAccount remoteHomeDir remoteWorkspaceDir
    drawn : String} {replacedAt : Int}
    (done : db.replacePersonalVmAllocation actorUserId agentId vmHostId linuxAccount remoteHomeDir
      remoteWorkspaceDir drawn replacedAt = .ok after) : Quiet db.toVmTables after.toVmTables := by
  simp only [replacePersonalVmAllocation, bind_ok_iff] at done
  obtain ⟨owner, -, -, -, -, -, site, -, account, -, -, -, released, revoked, home, -, workspace, -, inserted⟩ := done
  exact (revokeCurrent_quiet revoked).trans
    (insertAllocation_quiet (resourceId_named "vm-allocation" drawn) inserted)

theorem revokePersonal_ok {actorUserId : String} {agentId allocationId : Option String}
    {releasedAt : Int} {requireAdmin : Bool}
    (done : db.revokePersonalVmAllocation actorUserId agentId allocationId releasedAt requireAdmin = .ok after) :
    ∃ row binding, row ∈ db.allocations ∧ row.live = true ∧ db.bindings.lookup row.agentBindingId = some binding ∧
      selectedBy allocationId row.id = true ∧ selectedBy agentId binding.agentId = true ∧
      db.revokeAllocation row.id releasedAt = .ok after := by
  simp only [revokePersonalVmAllocation, bind_ok_iff, orThrow_ok_iff] at done
  obtain ⟨-, -, ⟨row, binding, profile⟩, found, -, -, -, -, revoked⟩ := done
  obtain ⟨candidate, inTable, selected⟩ := List.exists_of_findSome?_eq_some found
  simp only [Option.bind_eq_bind, Option.bind_eq_some_iff] at selected
  obtain ⟨own, foundBinding, owned, -, checked⟩ := selected
  split at checked
  · rename_i all
    cases checked
    simp only [Bool.and_eq_true] at all
    exact ⟨row, binding, inTable, all.1.1, foundBinding, all.1.2, all.2, revoked⟩
  · cases checked

theorem revokePersonal_quiet {actorUserId : String} {agentId allocationId : Option String}
    {releasedAt : Int} {requireAdmin : Bool}
    (done : db.revokePersonalVmAllocation actorUserId agentId allocationId releasedAt requireAdmin =
      .ok after) : Quiet db.toVmTables after.toVmTables := by
  obtain ⟨row, binding, -, -, -, -, -, revoked⟩ := revokePersonal_ok done
  exact revokeAllocation_quiet revoked

theorem releaseAccess_quiet {actorUserId agentId : String} {releasedAt : Int}
    (done : db.releasePersonalVmAccess actorUserId agentId releasedAt = .ok after) :
    Quiet db.toVmTables after.toVmTables := by
  simp only [releasePersonalVmAccess, bind_ok_iff] at done
  obtain ⟨released, release, removed⟩ := done
  have same := removeCredential_places removed
  unfold releaseCurrent at release
  split at release
  · exact (revokePersonal_quiet release).trans (.of_places same)
  · cases release
    exact .of_places same

/-- What is left after an allocation is released: no connection is new. -/
structure Released (db after : VmTables) (id : String) : Prop where
  quiet : Quiet db after
  revoked : ∀ row ∈ after.allocations, row.id = id → row.live = false
  only : ∀ saved' ∈ after.connections, ∃ saved ∈ db.connections, saved'.toConnectionPlace = saved.toConnectionPlace

theorem revokeAllocation_released {id : String} {revokedAt : Int}
    (done : db.revokeAllocation id revokedAt = .ok after) :
    Released db.toVmTables after.toVmTables id :=
  ⟨revokeAllocation_quiet done, (revokeAllocation_only done).1, (revokeAllocation_only done).2⟩

theorem Released.of_places {middle : VmDatabase} {id : String}
    (released : Released db.toVmTables middle.toVmTables id)
    (same : SamePlaces middle.toVmTables after.toVmTables) :
    Released db.toVmTables after.toVmTables id where
  quiet := released.quiet.trans (.of_places same)
  revoked := by
    rw [same.allocations]
    exact released.revoked
  only := by
    intro saved'' inAfter
    obtain ⟨saved', inMiddle, place⟩ := same.only saved'' inAfter
    obtain ⟨saved, inTable, place'⟩ := released.only saved' inMiddle
    exact ⟨saved, inTable, place.trans place'⟩

theorem personalBinding_some {directory : Directory} {agentId : String}
    {binding : AgentBindingRow} (found : directory.personalBinding agentId = some binding) :
    binding ∈ directory.bindings ∧ binding.agentId = agentId ∧ binding.kind = .personal := by
  obtain ⟨same, personal⟩ : binding.agentId = agentId ∧ binding.kind = .personal := by
    simpa using List.find?_some found
  exact ⟨List.mem_of_find?_eq_some found, same, personal⟩

theorem releasePersonal_released {actorUserId agentId : String} {releasedAt : Int}
    {row : VmAllocationRow} (current : db.getVmAllocationForAgent agentId = some row)
    (done : db.releasePersonalVmAllocation actorUserId agentId releasedAt = .ok after) :
    Released db.toVmTables after.toVmTables row.id := by
  obtain ⟨binding, foundBinding, found⟩ := Option.bind_eq_some_iff.mp current
  obtain ⟨inBindings, sameAgent, -⟩ := personalBinding_some foundBinding
  obtain ⟨inTable, own, live⟩ := liveAllocation_some found
  obtain ⟨other, binding', inTable', live', foundBinding', -, selected, revoked⟩ :=
    revokePersonal_ok done
  obtain ⟨inBindings', sameId⟩ := Table.lookup_eq_some_iff.mp foundBinding'
  have named : agentId ≠ "" := sameAgent ▸ (db.valid.directory.checks binding inBindings).2
  have sameAgent' : agentId = binding'.agentId := by simpa [selectedBy, named] using selected
  obtain rfl : binding' = binding := db.valid.directory.agentIds.eq inBindings' inBindings rfl rfl
    (sameAgent'.symm.trans sameAgent.symm)
  obtain rfl : other = row := db.valid.allocations.activeAgent.eq inTable' inTable live' live
    (sameId.symm.trans own.symm)
  exact revokeAllocation_released revoked

theorem releaseForRemoval_released {owner : SavedVmOwner} {actorUserId agentId allocationId : String}
    {removedAt : Int} (named : allocationId ≠ "")
    (done : db.releaseForRemoval owner actorUserId agentId allocationId removedAt = .ok after) :
    Released db.toVmTables after.toVmTables allocationId := by
  simp only [releaseForRemoval, bind_ok_iff, ensure_ok_iff, ite_ok_iff] at done
  obtain ⟨-, ⟨-, current⟩, ⟨-, release⟩ | ⟨-, revoke⟩⟩ := done
  · obtain ⟨row, found, rfl⟩ := Option.map_eq_some_iff.mp current
    simp only [releasePersonalVmAccess, bind_ok_iff, found, releaseCurrent] at release
    obtain ⟨released, rest, removed⟩ := release
    exact (releasePersonal_released found rest).of_places (removeCredential_places removed)
  · obtain ⟨row, -, -, -, -, selected, -, revoked⟩ := revokePersonal_ok revoke
    obtain rfl : allocationId = row.id := by simpa [selectedBy, named] using selected
    exact revokeAllocation_released revoked

theorem releaseLinked_free {saved : SavedVmConnectionRow} {owner : SavedVmOwner}
    {actorUserId agentId : String} {removedAt : Int} (inTable : saved ∈ db.connections)
    (done : db.releaseLinked saved.allocationId owner actorUserId agentId removedAt = .ok after) :
    Quiet db.toVmTables after.toVmTables ∧
      ∀ saved' ∈ after.connections, saved'.id = saved.id → ∀ row ∈ after.allocations,
        row.live = true → row.id ≠ "" → saved'.allocationId ≠ some row.id := by
  unfold releaseLinked at done
  split at done
  · rename_i allocationId linked
    obtain ⟨link, named⟩ := Option.filter_eq_some_iff.mp linked
    have released := releaseForRemoval_released (of_decide_eq_true named) done
    refine ⟨released.quiet, fun saved' inAfter same row inRows live _ names => ?_⟩
    obtain ⟨old, inOld, place⟩ := released.only saved' inAfter
    obtain rfl : old = saved := db.connections.unique inOld inTable
      ((congrArg ConnectionPlace.id place).symm.trans same)
    rw [congrArg ConnectionPlace.allocationId place, link] at names
    rw [released.revoked row inRows (Option.some.inj names).symm] at live
    cases live
  · rename_i unlinked
    cases done
    refine ⟨Quiet.refl _, fun saved' inAfter same row _ _ named names => ?_⟩
    obtain rfl : saved' = saved := db.connections.unique inAfter inTable same
    rw [names] at unlinked
    simp [Option.filter, named] at unlinked

theorem remove_quiet {actorUserId agentId connectionId : String} {removedAt : Int}
    (done : db.removePersonalSavedVmConnection actorUserId agentId connectionId removedAt =
      .ok after) : Quiet db.toVmTables after.toVmTables := by
  simp only [removePersonalSavedVmConnection, bind_ok_iff, orThrow_ok_iff] at done
  obtain ⟨actor, -, -, -, owner, -, saved, found, -, -, released, release, deleted⟩ := done
  obtain ⟨looked, -⟩ := Option.filter_eq_some_iff.mp found
  have inTable : saved ∈ db.connections := (Table.lookup_eq_some_iff.mp looked).1
  obtain ⟨quiet, free⟩ := releaseLinked_free inTable release
  refine ⟨?_, ?_, ?_⟩
  · intro row inProfiles
    exact (deleteConnection_frame deleted).profiles ▸ quiet.profiles row inProfiles
  · exact fun targets => (deleteConnection_frame deleted).liveTargets (quiet.targets targets)
  · intro linked
    have stillLinked := quiet.linked linked
    apply deleteConnection_linked stillLinked _ deleted
    intro saved' inConnections same row inRows live
    obtain ⟨_, -, link⟩ := stillLinked row inRows live (Option.some_ne_none _).symm
    exact free saved' inConnections same row inRows live link.named

theorem save_quiet {request : SaveRequest} {drawn : String}
    (done : db.savePersonalVmConnection request drawn = .ok after) :
    Quiet db.toVmTables after.toVmTables := by
  simp only [savePersonalVmConnection, bind_ok_iff, ensure_ok_iff, pure_ok_iff] at done
  obtain ⟨owner, -, -, -, -, -, account, -, site, -, -, -, -, -, -, -, -, agrees, saved, upserted, -, -, rfl⟩ := done
  refine .of_frame (upsertConnection_frame upserted) fun linked => ?_
  apply upsertConnection_linked linked _ upserted
  intro existing found
  have known : db.connectionFor owner.binding.id request.vmHostId = some existing := found
  refine ⟨(agrees existing known).1, ?_⟩
  simp only [SaveRequest.row, known, Option.bind_some]

theorem mark_quiet {actorUserId agentId connectionId : String}
    {expectedConnectionRevision failedAt : Int}
    (done : db.markSavedVmConnectionUpdateRequired actorUserId agentId connectionId
      expectedConnectionRevision failedAt = .ok after) : Quiet db.toVmTables after.toVmTables := by
  simp only [markSavedVmConnectionUpdateRequired, bind_ok_iff] at done
  obtain ⟨owner, -, saved, -, updated⟩ := done
  exact .of_places (updateConnections_places updated)

theorem commitSelection_quiet {actorUserId agentId vmHostId linuxAccount remoteHomeDir
    remoteWorkspaceDir drawn drawnCredential : String} {envelope : SshCredentialEnvelope}
    {committedAt : Int}
    (done : db.commitPersonalVmSelection actorUserId agentId vmHostId linuxAccount remoteHomeDir
      remoteWorkspaceDir drawn drawnCredential envelope committedAt = .ok after) :
    Quiet db.toVmTables after.toVmTables := by
  simp only [commitPersonalVmSelection, bind_ok_iff] at done
  obtain ⟨replaced, replace, stored⟩ := done
  exact (replace_quiet replace).trans (.of_places (replaceCredential_places stored))

/-- What a switch leaves: the profile of one agent with the next revision. -/
structure Switched (db after : VmTables) (bindingId : String) : Prop where
  raised : ∃ old ∈ db.profiles, old.agentBindingId = bindingId ∧
    ∃ new ∈ after.profiles, new.agentBindingId = bindingId ∧ new.targetRevision = old.targetRevision + 1
  others : ∀ row ∈ db.profiles, row.agentBindingId ≠ bindingId → row ∈ after.profiles
  targets : db.LiveTargets → after.LiveTargets
  linked : db.Linked → after.Linked

theorem updateProfile_members {bindingId : String} {selects : PersonalExecutionProfileRow → Bool}
    {change : PersonalExecutionProfileRow → PersonalExecutionProfileRow}
    {keeps : ∀ row, (change row).agentBindingId = row.agentBindingId}
    {old : PersonalExecutionProfileRow} (found : db.profiles.lookup bindingId = some old)
    (selected : selects old = true)
    (done : db.updateProfile bindingId selects change keeps = .ok after) :
    change old ∈ after.profiles ∧ ∀ row ∈ db.profiles, row.agentBindingId ≠ bindingId → row ∈ after.profiles := by
  rcases updateProfile_ok done with ⟨absent, -⟩ | ⟨_, -, -, -, same⟩
  · rw [found] at absent
    simp [Option.filter, selected] at absent
  obtain ⟨inTable, key⟩ := Table.lookup_eq_some_iff.mp found
  rw [same]
  constructor
  · exact List.mem_map.mpr ⟨old, inTable, if_pos (decide_eq_true key)⟩
  · intro row inProfiles other
    exact List.mem_map.mpr ⟨row, inProfiles, if_neg (by simpa using other)⟩

theorem profileOf_some {db : VmTables} {agentId : String} {binding : AgentBindingRow}
    {profile : PersonalExecutionProfileRow}
    (found : db.profileOf agentId = some (binding, profile)) :
    db.personalBinding agentId = some binding ∧ db.profiles.lookup binding.id = some profile := by
  simp only [profileOf, Option.bind_eq_bind, Option.bind_eq_some_iff, Option.pure_def,
    Option.some.injEq, Prod.mk.injEq] at found
  obtain ⟨_, foundBinding, _, foundProfile, rfl, rfl⟩ := found
  exact ⟨foundBinding, foundProfile⟩

theorem change_switched {agentId : String} {target : TargetKind} {expectedRevision changedAt : Int}
    (done : db.changePersonalExecutionTarget agentId target expectedRevision changedAt = .ok after) :
    ∃ binding, db.personalBinding agentId = some binding ∧ Switched db.toVmTables after.toVmTables binding.id := by
  simp only [changePersonalExecutionTarget, bind_ok_iff, orThrow_ok_iff] at done
  obtain ⟨⟨binding, profile⟩, found, allocationId, -, updated⟩ := done
  obtain ⟨looked, -⟩ := Option.filter_eq_some_iff.mp found
  obtain ⟨foundBinding, foundProfile⟩ := profileOf_some looked
  obtain ⟨inTable, key⟩ := Table.lookup_eq_some_iff.mp foundProfile
  obtain ⟨inAfter, others⟩ := updateProfile_members foundProfile (decide_eq_true rfl) updated
  refine ⟨binding, foundBinding, ⟨⟨profile, inTable, key, _, inAfter, key, rfl⟩, others, ?_, ?_⟩⟩
  · exact fun targets => updateProfile_liveTargets targets updated
  · exact fun linked => updateProfile_linked linked updated

theorem retire_effect {bindingId : String} {current : Option VmAllocationRow} {changedAt : Int}
    {profile : PersonalExecutionProfileRow}
    (found : db.profiles.lookup bindingId = some profile)
    (done : db.retireAllocation bindingId current changedAt = .ok after) :
    (db.Linked → after.Linked) ∧ (db.LiveTargets → after.LiveTargets) ∧
      (∀ row ∈ db.profiles, row.agentBindingId ≠ bindingId → row ∈ after.profiles) ∧
      after.profiles.lookup bindingId =
        some { profile with activeTarget := .platformServer, activeAllocationId := none } := by
  simp only [retireAllocation, bind_ok_iff] at done
  obtain ⟨detached, detach, deselected, deselect, revoke⟩ := done
  have detachFrame : Frame db.toVmTables detached.toVmTables := by
    cases current with
    | none =>
      cases detach
      exact Frame.refl _
    | some row => exact detachConnections_frame detach
  have revokeFrame : Frame deselected.toVmTables after.toVmTables := by
    cases current with
    | none =>
      cases revoke
      exact Frame.refl _
    | some row => exact revokeAllocation_frame revoke
  have foundDetached : detached.profiles.lookup bindingId = some profile := by
    rw [detachFrame.profiles]
    exact found
  obtain ⟨inDeselected, others⟩ := updateProfile_members foundDetached rfl deselect
  refine ⟨fun linked => ?_, fun targets => ?_, ?_, ?_⟩
  · cases current with
    | none =>
      cases detach
      cases revoke
      exact updateProfile_linked linked deselect
    | some row =>
      have apart := detachConnections_linked linked detach
      exact revokeAllocation_linked (updateProfile_linked apart deselect) revoke
  · have deselectedTargets := updateProfile_liveTargets (detachFrame.liveTargets targets) deselect
    exact revokeFrame.liveTargets deselectedTargets
  · rw [revokeFrame.profiles]
    intro row inTable other
    exact others row (detachFrame.profiles ▸ inTable) other
  · rw [revokeFrame.profiles]
    exact Table.lookup_eq_some_iff.mpr ⟨inDeselected, (Table.lookup_eq_some_iff.mp found).2⟩

theorem savedVmOwner_some {db : VmTables} {agentId : String} {actorUserId : Option String}
    {includeInactive : Bool} {owner : SavedVmOwner}
    (done : db.savedVmOwner agentId actorUserId includeInactive = .ok owner) :
    db.profileOf agentId = some (owner.binding, owner.profile) := by
  simp only [savedVmOwner, bind_ok_iff, orThrow_ok_iff, pure_ok_iff] at done
  obtain ⟨_, found, -, -, -, -, rfl⟩ := done
  simp only [ownerOf, Option.bind_eq_bind, Option.bind_eq_some_iff, Option.pure_def, Option.some.injEq] at found
  obtain ⟨⟨binding, profile⟩, looked, userId, -, user, -, rfl⟩ := found
  exact looked

theorem activate_switched {agentId connectionId : String}
    {expectedRevision expectedConnectionRevision : Int} {drawn drawnCredential : String}
    {changedAt : Int}
    (done : db.activatePersonalVmConnection agentId connectionId expectedRevision
      expectedConnectionRevision drawn drawnCredential changedAt = .ok after) :
    ∃ binding, db.personalBinding agentId = some binding ∧ Switched db.toVmTables after.toVmTables binding.id := by
  simp only [activatePersonalVmConnection, bind_ok_iff, orThrow_ok_iff] at done
  obtain ⟨owner, found, ⟨saved, host, endpoint⟩, read, -, -, home, -, workspace, -, envelope, -,
    retired, retire, inserted, insert, projected, project, updated⟩ := done
  obtain ⟨-, expected⟩ := Option.filter_eq_some_iff.mp read
  have revision : owner.profile.targetRevision = expectedRevision :=
    (of_decide_eq_true expected).1
  obtain ⟨foundBinding, foundProfile⟩ := profileOf_some (savedVmOwner_some found)
  obtain ⟨inTable, key⟩ := Table.lookup_eq_some_iff.mp foundProfile
  obtain ⟨retireLinked, retireTargets, retireOthers, retireFound⟩ :=
    retire_effect foundProfile retire
  have quiet : Quiet retired.toVmTables projected.toVmTables :=
    (insertAllocation_quiet (resourceId_named "vm-allocation" drawn) insert).trans
      (.of_places (putCredential_places project))
  obtain ⟨inRetired, -⟩ := Table.lookup_eq_some_iff.mp retireFound
  have foundProjected : projected.profiles.lookup owner.binding.id = some _ :=
    Table.lookup_eq_some_iff.mpr ⟨quiet.profiles _ inRetired, key⟩
  obtain ⟨inAfter, others⟩ :=
    updateProfile_members foundProjected (decide_eq_true revision) updated
  refine ⟨owner.binding, foundBinding, ⟨⟨owner.profile, inTable, key, _, inAfter, key, rfl⟩, ?_, ?_, ?_⟩⟩
  · intro row inProfiles other
    exact others row (quiet.profiles row (retireOthers row inProfiles other)) other
  · exact fun targets => updateProfile_liveTargets (quiet.targets (retireTargets targets)) updated
  · exact fun linked => updateProfile_linked (quiet.linked (retireLinked linked)) updated

theorem reserve_quiet {userId bindingId agentId : String} {reservedAt : Int}
    (done : db.reservePersonalAgent userId bindingId agentId reservedAt = .ok after) :
    Quiet db.toVmTables after.toVmTables := by
  simp only [reservePersonalAgent, bind_ok_iff] at done
  obtain ⟨-, -, -, -, rest⟩ := done
  split at rest
  · cases rest
    exact Quiet.refl _
  · simp only [bind_ok_iff] at rest
    obtain ⟨bindings, -, bound, checked, inserted⟩ := rest
    obtain ⟨profiles, new, live, same⟩ := insertProfile_ok inserted
    rw [same, check_ok checked]
    rw [check_ok checked] at new live
    refine ⟨fun row inTable => (Table.mem_insert? new).mpr (.inl inTable), fun targets => ?_, id⟩
    intro profile inAfter
    cases (Table.mem_insert? new).mp inAfter with
    | inl old => exact targets profile old
    | inr same =>
      rw [same]
      exact live

theorem administer_quiet {directory : Directory}
    (done : check { db.toVmTables with toDirectory := directory } = .ok after) :
    Quiet db.toVmTables after.toVmTables := by
  rw [check_ok done]
  exact ⟨fun _ inTable => inTable, id, id⟩

end VmDatabase

namespace VmOperation

def switches : VmOperation → Option String
  | .changePersonalExecutionTarget agentId _ _ _ => some agentId
  | .activatePersonalVmConnection agentId _ _ _ _ _ _ => some agentId
  | _ => none

/-- The target revision that the operation expects of an agent. -/
def expectedTarget : VmOperation → Option (String × Int)
  | .changePersonalExecutionTarget agentId _ expected _ => some (agentId, expected)
  | .recordVmConnectionResult _ agentId _ expected _ _ _ => some (agentId, expected)
  | .recordVmAuthenticationFailure agentId _ expected _ _ => some (agentId, expected)
  | .savePersonalVmConnection request _ => some (request.agentId, request.expectedRevision)
  | .activatePersonalVmConnection agentId _ expected _ _ _ _ => some (agentId, expected)
  | _ => none

/-- The revision that it expects of a saved connection. -/
def expectedConnection : VmOperation → Option (String × Int)
  | .activatePersonalVmConnection _ connectionId _ expected _ _ _ => some (connectionId, expected)
  | .markSavedVmConnectionUpdateRequired _ _ connectionId expected _ => some (connectionId, expected)
  | _ => none

/-- The revision it expects of a target or a saved connection is not the one there is. -/
def Stale (operation : VmOperation) (db : VmTables) : Prop :=
  (∃ agentId expected, operation.expectedTarget = some (agentId, expected) ∧
      (db.profileOf agentId).map (·.2.targetRevision) ≠ some expected) ∨
    ∃ connectionId expected, operation.expectedConnection = some (connectionId, expected) ∧
      (db.connections.lookup connectionId).map (·.revision) ≠ some expected

end VmOperation

namespace VmDatabase

variable {db after : VmDatabase}

theorem execute_quiet {operation : VmOperation} (quiet : operation.switches = none)
    (done : db.execute operation = .ok after) : Quiet db.toVmTables after.toVmTables := by
  cases operation with
  | administer directory => exact administer_quiet done
  | reservePersonalAgent userId bindingId agentId reservedAt => exact reserve_quiet done
  | assignVmToPersonalAgent actorUserId agentId vmHostId linuxAccount drawn assignedAt =>
    exact assign_quiet done
  | changePersonalExecutionTarget agentId target expectedRevision changedAt => cases quiet
  | resolvePersonalExecutionTarget agentId requestedTarget =>
    obtain ⟨-, -, rfl⟩ := Except.map_ok_iff.mp done
    exact Quiet.refl _
  | resolveAssignedVmConnectionTarget agentId =>
    obtain ⟨-, -, rfl⟩ := Except.map_ok_iff.mp done
    exact Quiet.refl _
  | recordVmConnectionResult actorUserId agentId allocationId revision credential checkedAt result =>
    exact record_quiet done
  | recordVmAuthenticationFailure agentId allocationId revision credential failedAt =>
    exact recordFailure_quiet done
  | replacePersonalVmAllocation actorUserId agentId vmHostId linuxAccount home workspace drawn at_ =>
    exact replace_quiet done
  | commitPersonalVmSelection actorUserId agentId vmHostId linuxAccount home workspace drawn
      drawnCredential envelope at_ => exact commitSelection_quiet done
  | releasePersonalVmAllocation actorUserId agentId releasedAt => exact revokePersonal_quiet done
  | releasePersonalVmAccess actorUserId agentId releasedAt => exact releaseAccess_quiet done
  | revokeVmAllocationAsAdmin actorUserId allocationId revokedAt =>
    obtain ⟨_, -, revoked⟩ := bind_ok_iff.mp done
    exact revokePersonal_quiet revoked
  | replaceCredential actorUserId userId drawn envelope replacedAt =>
    exact .of_places (replaceCredential_places done)
  | removeCredential actorUserId userId => exact .of_places (removeCredential_places done)
  | savePersonalVmConnection request drawn => exact save_quiet done
  | activatePersonalVmConnection agentId connectionId revision connectionRevision drawn
      drawnCredential changedAt => cases quiet
  | removePersonalSavedVmConnection actorUserId agentId connectionId removedAt =>
    exact remove_quiet done
  | markSavedVmConnectionUpdateRequired actorUserId agentId connectionId revision failedAt =>
    exact mark_quiet done

theorem execute_switched {operation : VmOperation} {agentId : String}
    (switches : operation.switches = some agentId) (done : db.execute operation = .ok after) :
    ∃ binding, db.personalBinding agentId = some binding ∧ Switched db.toVmTables after.toVmTables binding.id := by
  cases operation with
  | changePersonalExecutionTarget agent target expectedRevision changedAt =>
    cases switches
    exact change_switched done
  | activatePersonalVmConnection agent connectionId revision connectionRevision drawn
      drawnCredential changedAt =>
      cases switches
      exact activate_switched done
  | _ => cases switches

theorem execute_kept {operation : VmOperation} (done : db.execute operation = .ok after)
    (kept : db.LiveTargets ∧ db.Linked) : after.LiveTargets ∧ after.Linked := by
  cases switches : operation.switches with
  | none =>
    have quiet := execute_quiet switches done
    exact ⟨quiet.targets kept.1, quiet.linked kept.2⟩
  | some agentId =>
    obtain ⟨binding, -, switched⟩ := execute_switched switches done
    exact ⟨switched.targets kept.1, switched.linked kept.2⟩

theorem run_kept (operations : List VmOperation) :
    let db := vmMachine.run VmDatabase.empty operations
    db.LiveTargets ∧ db.Linked := by
  refine @Machine.run_invariant _ _ vmMachine (fun db => db.LiveTargets ∧ db.Linked) ?_ _ ?_ operations
  · intro db operation kept
    cases done : db.execute operation with
    | error error => simpa only [vmMachine, done] using kept
    | ok after => simpa only [vmMachine, done] using execute_kept done kept
  · refine ⟨fun profile inTable => ?_, fun row inTable => ?_⟩
    · exact absurd inTable (Table.not_mem_empty profile)
    · exact absurd inTable (Table.not_mem_empty row)

theorem ownerOf_profileOf {db : VmTables} {agentId : String} {owner : SavedVmOwner}
    (found : db.ownerOf agentId = some owner) :
    db.profileOf agentId = some (owner.binding, owner.profile) := by
  simp only [ownerOf, Option.bind_eq_bind, Option.bind_eq_some_iff, Option.pure_def, Option.some.injEq] at found
  obtain ⟨⟨binding, profile⟩, looked, userId, -, user, -, rfl⟩ := found
  exact looked

theorem execute_target {operation : VmOperation} {agentId : String} {expected : Int}
    (expects : operation.expectedTarget = some (agentId, expected))
    (done : db.execute operation = .ok after) :
    (db.profileOf agentId).map (·.2.targetRevision) = some expected ∨ after = db := by
  cases operation with
  | changePersonalExecutionTarget agent target revision changedAt =>
    cases expects
    simp only [execute, changePersonalExecutionTarget, bind_ok_iff, orThrow_ok_iff] at done
    obtain ⟨⟨binding, profile⟩, found, -⟩ := done
    obtain ⟨looked, checked⟩ := Option.filter_eq_some_iff.mp found
    rw [looked]
    exact .inl (congrArg some (of_decide_eq_true checked).2)
  | recordVmConnectionResult actorUserId agent allocationId revision credential checkedAt result =>
    cases expects
    simp only [execute, recordVmConnectionResult, bind_ok_iff, orThrow_ok_iff, ensure_ok_iff] at done
    obtain ⟨owner, found, -, checked, -⟩ := done
    rw [ownerOf_profileOf found]
    exact .inl (congrArg some checked.2.2.2)
  | recordVmAuthenticationFailure agent allocationId revision credential failedAt =>
    cases expects
    simp only [execute, recordVmAuthenticationFailure] at done
    split at done
    · cases done
      exact .inr rfl
    · rename_i current
      simp only [failedCredential, Option.bind_eq_bind, Option.bind_eq_some_iff] at current
      obtain ⟨owner, found, row, -, site, -, known, -, checked⟩ := current
      split at checked
      · rename_i all
        rw [ownerOf_profileOf found]
        exact .inl (congrArg some all.2.2.2.2.2.2.2.2.1)
      · cases checked
  | savePersonalVmConnection request drawn =>
    cases expects
    simp only [execute, savePersonalVmConnection, bind_ok_iff, ensure_ok_iff] at done
    obtain ⟨owner, found, -, checked, -⟩ := done
    rw [savedVmOwner_some found]
    exact .inl (congrArg some checked.1)
  | activatePersonalVmConnection agent connectionId revision connectionRevision drawn
      drawnCredential changedAt =>
      cases expects
      simp only [execute, activatePersonalVmConnection, bind_ok_iff, orThrow_ok_iff] at done
      obtain ⟨owner, found, site, read, -⟩ := done
      obtain ⟨-, checked⟩ := Option.filter_eq_some_iff.mp read
      rw [savedVmOwner_some found]
      exact .inl (congrArg some (of_decide_eq_true checked).1)
  | _ => cases expects

theorem execute_connection {operation : VmOperation} {connectionId : String} {expected : Int}
    (expects : operation.expectedConnection = some (connectionId, expected))
    (done : db.execute operation = .ok after) :
    (db.connections.lookup connectionId).map (·.revision) = some expected := by
  cases operation with
  | activatePersonalVmConnection agent connection revision connectionRevision drawn
      drawnCredential changedAt =>
      cases expects
      simp only [execute, activatePersonalVmConnection, bind_ok_iff, orThrow_ok_iff] at done
      obtain ⟨owner, -, ⟨saved, host, endpoint⟩, read, -⟩ := done
      obtain ⟨looked, checked⟩ := Option.filter_eq_some_iff.mp read
      simp only [savedVmRow, Option.bind_eq_bind, Option.bind_eq_some_iff, Option.pure_def,
        Option.some.injEq, Prod.mk.injEq] at looked
      obtain ⟨row, found, site, -, rfl, -⟩ := looked
      rw [(Option.filter_eq_some_iff.mp found).1]
      exact congrArg some (of_decide_eq_true checked).2
  | markSavedVmConnectionUpdateRequired actorUserId agent connection revision failedAt =>
    cases expects
    simp only [execute, markSavedVmConnectionUpdateRequired, bind_ok_iff, orThrow_ok_iff] at done
    obtain ⟨owner, -, saved, found, -⟩ := done
    obtain ⟨looked, checked⟩ := Option.filter_eq_some_iff.mp found
    rw [looked]
    exact congrArg some (of_decide_eq_true checked).2
  | _ => cases expects

theorem step_stale {operation : VmOperation} (stale : operation.Stale db.toVmTables) :
    vmMachine.step db operation = db := by
  cases done : db.execute operation with
  | error error => simp only [vmMachine, done]
  | ok after =>
    simp only [vmMachine, done]
    rcases stale with ⟨agentId, expected, expects, other⟩ | ⟨id, expected, expects, other⟩
    · exact (execute_target expects done).resolve_left other
    · exact absurd (execute_connection expects done) other

/-- After every run: one allocation for each agent, the active one its own and not revoked, the
    next revision with every switch and with nothing else, and nothing written for a stale
    request. -/
theorem targets_of_run (operations : List VmOperation) :
    let db := vmMachine.run VmDatabase.empty operations
    (∀ a ∈ db.allocations, ∀ b ∈ db.allocations, a.live = true → b.live = true →
        a.agentBindingId = b.agentBindingId → a = b) ∧
      (∀ profile ∈ db.profiles, profile.activeTarget = .assignedVm →
        ∃ row ∈ db.allocations, profile.activeAllocationId = some row.id ∧
          row.agentBindingId = profile.agentBindingId ∧ row.live = true) ∧
      (∀ operation agentId after, operation.switches = some agentId → db.execute operation = .ok after →
        ∃ binding, db.personalBinding agentId = some binding ∧ (∃ old ∈ db.profiles, old.agentBindingId = binding.id ∧
            ∃ new ∈ after.profiles, new.agentBindingId = binding.id ∧ new.targetRevision = old.targetRevision + 1) ∧
          ∀ row ∈ db.profiles, row.agentBindingId ≠ binding.id → row ∈ after.profiles) ∧
      (∀ operation after, operation.switches = none → db.execute operation = .ok after →
        ∀ row ∈ db.profiles, row ∈ after.profiles) ∧
      ∀ operation, operation.Stale db.toVmTables → vmMachine.step db operation = db := by
  intro db
  refine ⟨?_, (run_kept operations).1, ?_, ?_, ?_⟩
  · intro a inA b inB liveA liveB same
    exact db.valid.allocations.activeAgent.eq inA inB liveA liveB same
  · intro operation agentId after switches done
    obtain ⟨binding, found, switched⟩ := execute_switched switches done
    exact ⟨binding, found, switched.raised, switched.others⟩
  · intro operation after quiet done
    exact (execute_quiet quiet done).profiles
  · intro operation stale
    exact step_stale stale

/-- A personal agent has a Linux account, through an allocation or a saved connection. -/
def Holds (db : VmTables) (agentId vmHostId linuxAccount : String) : Prop :=
  ∃ binding ∈ db.bindings, binding.agentId = agentId ∧
    ((∃ row ∈ db.allocations, row.live = true ∧ row.agentBindingId = binding.id ∧
        row.vmHostId = vmHostId ∧ row.linuxAccount = linuxAccount) ∨
      ∃ saved ∈ db.connections, saved.agentBindingId = binding.id ∧
        saved.vmHostId = vmHostId ∧ saved.linuxAccount = linuxAccount)

theorem Holds.saved (linked : db.Linked) {agentId vmHostId linuxAccount : String}
    (holds : Holds db.toVmTables agentId vmHostId linuxAccount) :
    ∃ binding ∈ db.bindings, binding.agentId = agentId ∧ ∃ saved ∈ db.connections, saved.agentBindingId = binding.id ∧
        saved.vmHostId = vmHostId ∧ saved.linuxAccount = linuxAccount := by
  obtain ⟨binding, inBindings, agent, ⟨row, inTable, live, own, host, account⟩ | found⟩ := holds
  · obtain ⟨saved, inConnections, link⟩ := linked row inTable live (Option.some_ne_none _).symm
    exact ⟨binding, inBindings, agent, saved, inConnections, link.binding.trans own,
      link.host.trans host, link.account.trans account⟩
  · exact ⟨binding, inBindings, agent, found⟩

theorem Holds.exclusive (linked : db.Linked) {first second vmHostId linuxAccount : String}
    (one : Holds db.toVmTables first vmHostId linuxAccount)
    (other : Holds db.toVmTables second vmHostId linuxAccount) : first = second := by
  obtain ⟨binding, inBindings, rfl, saved, inConnections, own, host, account⟩ := one.saved linked
  obtain ⟨binding', inBindings', rfl, saved', inConnections', own', host', account'⟩ :=
    other.saved linked
  obtain rfl : saved' = saved := db.valid.connections.hostAccounts.eq inConnections' inConnections
    rfl rfl (Prod.ext (host'.trans host.symm) (account'.trans account.symm))
  rw [db.bindings.unique inBindings inBindings' (own.symm.trans own')]

/-- After every run, each allocation that is not revoked has its one saved connection, and no two
    agents have the same Linux account. -/
theorem accounts_exclusive (operations : List VmOperation) :
    let db := vmMachine.run VmDatabase.empty operations
    (∀ row ∈ db.allocations, row.live = true → ∃ saved ∈ db.connections, saved.allocationId = some row.id ∧
          saved.agentBindingId = row.agentBindingId ∧ saved.vmHostId = row.vmHostId ∧
          saved.linuxAccount = row.linuxAccount ∧
          ∀ other ∈ db.connections, other.allocationId = some row.id → other = saved) ∧
      ∀ first second vmHostId linuxAccount, Holds db.toVmTables first vmHostId linuxAccount →
        Holds db.toVmTables second vmHostId linuxAccount → first = second := by
  intro db
  have linked : db.Linked := (run_kept operations).2
  constructor
  · intro row inTable live
    obtain ⟨saved, inConnections, link⟩ := linked row inTable live (Option.some_ne_none _).symm
    refine ⟨saved, inConnections, link.linked, link.binding, link.host, link.account, ?_⟩
    intro other inConnections' names
    apply db.valid.connections.linkedOnce.eq inConnections' inConnections
    · exact Option.isSome_of_eq_some names
    · exact Option.isSome_of_eq_some link.linked
    · exact names.trans link.linked.symm
  · intro first second vmHostId linuxAccount one other
    exact one.exclusive linked other

end VmDatabase

end PlatformClaw.Execution.Vm
