import PlatformClaw.Execution.VmConnections

/-! # What the statements do

Two facts are kept over the tables of development VMs: a profile that works on a
VM names an allocation of its agent that is not revoked, and every such
allocation has its saved connection. Each statement, with its triggers, has one
lemma for either.
-/

namespace PlatformClaw.Execution.Vm

open Except (bind_ok_iff)

structure LinkOf (saved : SavedVmConnectionRow) (row : VmAllocationRow) : Prop where
  named : row.id ≠ ""
  linked : saved.allocationId = some row.id
  binding : saved.agentBindingId = row.agentBindingId
  host : saved.vmHostId = row.vmHostId
  account : saved.linuxAccount = row.linuxAccount

theorem LinkOf.of_places {saved saved' : SavedVmConnectionRow} {row row' : VmAllocationRow}
    (link : LinkOf saved row) (savedPlace : saved'.toConnectionPlace = saved.toConnectionPlace)
    (rowPlace : row'.toAllocationPlace = row.toAllocationPlace) : LinkOf saved' row' where
  named := by
    rw [congrArg AllocationPlace.id rowPlace]
    exact link.named
  linked := by
    rw [congrArg ConnectionPlace.allocationId savedPlace, congrArg AllocationPlace.id rowPlace]
    exact link.linked
  binding := by
    rw [congrArg ConnectionPlace.agentBindingId savedPlace, congrArg AllocationPlace.agentBindingId rowPlace]
    exact link.binding
  host := by
    rw [congrArg ConnectionPlace.vmHostId savedPlace, congrArg AllocationPlace.vmHostId rowPlace]
    exact link.host
  account := by
    rw [congrArg ConnectionPlace.linuxAccount savedPlace, congrArg AllocationPlace.linuxAccount rowPlace]
    exact link.account

namespace VmTables

def LiveTargets (db : VmTables) : Prop :=
  ∀ profile ∈ db.profiles, VmDatabase.LiveTarget db profile

/-- Every allocation that is not revoked has its connection, but for one that is about to be. -/
def LinkedApart (db : VmTables) (apart : Option String) : Prop :=
  ∀ row ∈ db.allocations, row.live = true → apart ≠ some row.id → ∃ saved ∈ db.connections, LinkOf saved row

abbrev Linked (db : VmTables) : Prop :=
  db.LinkedApart none

/-- The active allocation of some profile. -/
def IsTarget (db : VmTables) (row : VmAllocationRow) : Prop :=
  ∃ profile ∈ db.profiles, profile.activeTarget = .assignedVm ∧ profile.activeAllocationId = some row.id

/-- What a statement that is not about profiles leaves. -/
structure Frame (db after : VmTables) : Prop where
  directory : after.toDirectory = db.toDirectory
  profiles : after.profiles = db.profiles
  kept : ∀ row ∈ db.allocations, row.live = true → db.IsTarget row →
    ∃ row' ∈ after.allocations, row'.toAllocationPlace = row.toAllocationPlace ∧ row'.live = true

variable {db middle after : VmTables}

theorem Frame.refl (db : VmTables) : Frame db db :=
  ⟨rfl, rfl, fun row inTable live _ => ⟨row, inTable, rfl, live⟩⟩

theorem IsTarget.of_place {row row' : VmAllocationRow} (target : db.IsTarget row)
    (profiles : after.profiles = db.profiles)
    (same : row'.toAllocationPlace = row.toAllocationPlace) : after.IsTarget row' := by
  obtain ⟨profile, inTable, active, names⟩ := target
  have sameId : row'.id = row.id := congrArg AllocationPlace.id same
  exact ⟨profile, profiles ▸ inTable, active, by rw [sameId]; exact names⟩

theorem Frame.trans (first : Frame db middle) (second : Frame middle after) : Frame db after where
  directory := second.directory.trans first.directory
  profiles := second.profiles.trans first.profiles
  kept := by
    intro row inTable live target
    obtain ⟨row', inMiddle, same, live'⟩ := first.kept row inTable live target
    obtain ⟨row'', inAfter, same', live''⟩ :=
      second.kept row' inMiddle live' (target.of_place first.profiles same)
    exact ⟨row'', inAfter, same'.trans same, live''⟩

theorem Frame.liveTargets (frame : Frame db after) (targets : db.LiveTargets) : after.LiveTargets := by
  intro profile inAfter active
  have inTable : profile ∈ db.profiles := frame.profiles ▸ inAfter
  obtain ⟨row, inRows, names, own, live⟩ := targets profile inTable active
  obtain ⟨row', inRows', same, live'⟩ :=
    frame.kept row inRows live ⟨profile, inTable, active, names⟩
  refine ⟨row', inRows', ?_, ?_, live'⟩
  · rw [names, congrArg AllocationPlace.id same]
  · rw [congrArg AllocationPlace.agentBindingId same, own]

theorem LinkedApart.of_places {apart : Option String} (linked : db.LinkedApart apart)
    (allocations : after.allocations = db.allocations)
    (places : ∀ saved ∈ db.connections, ∃ saved' ∈ after.connections,
      saved'.toConnectionPlace = saved.toConnectionPlace) : after.LinkedApart apart := by
  intro row inAfter live other
  obtain ⟨saved, inTable, link⟩ := linked row (allocations ▸ inAfter) live other
  obtain ⟨saved', inAfter', same⟩ := places saved inTable
  exact ⟨saved', inAfter', link.of_places same rfl⟩

/-- What a statement leaves that writes no column that says whose a row is. -/
structure SamePlaces (db after : VmTables) : Prop where
  directory : after.toDirectory = db.toDirectory
  profiles : after.profiles = db.profiles
  allocations : after.allocations = db.allocations
  kept : ∀ saved ∈ db.connections, ∃ saved' ∈ after.connections, saved'.toConnectionPlace = saved.toConnectionPlace
  only : ∀ saved' ∈ after.connections, ∃ saved ∈ db.connections, saved'.toConnectionPlace = saved.toConnectionPlace

theorem SamePlaces.refl (db : VmTables) : SamePlaces db db :=
  ⟨rfl, rfl, rfl, fun saved inTable => ⟨saved, inTable, rfl⟩,
    fun saved inTable => ⟨saved, inTable, rfl⟩⟩

theorem SamePlaces.trans (first : SamePlaces db middle) (second : SamePlaces middle after) : SamePlaces db after where
  directory := second.directory.trans first.directory
  profiles := second.profiles.trans first.profiles
  allocations := second.allocations.trans first.allocations
  kept := by
    intro saved inTable
    obtain ⟨saved', inMiddle, same⟩ := first.kept saved inTable
    obtain ⟨saved'', inAfter, same'⟩ := second.kept saved' inMiddle
    exact ⟨saved'', inAfter, same'.trans same⟩
  only := by
    intro saved'' inAfter
    obtain ⟨saved', inMiddle, same⟩ := second.only saved'' inAfter
    obtain ⟨saved, inTable, same'⟩ := first.only saved' inMiddle
    exact ⟨saved, inTable, same.trans same'⟩

theorem SamePlaces.frame (same : SamePlaces db after) : Frame db after :=
  ⟨same.directory, same.profiles,
    fun row inTable live _ => ⟨row, same.allocations ▸ inTable, rfl, live⟩⟩

theorem SamePlaces.linked {apart : Option String} (same : SamePlaces db after)
    (linked : db.LinkedApart apart) : after.LinkedApart apart :=
  linked.of_places same.allocations same.kept

theorem LinkedApart.mono {apart : Option String} (linked : db.Linked) : db.LinkedApart apart :=
  fun row inTable live _ => linked row inTable live (Option.some_ne_none row.id).symm

end VmTables

open VmTables

namespace VmDatabase

variable {db after : VmDatabase} {apart : Option String}

theorem check_ok {tables : VmTables} (done : check tables = .ok after) : after.toVmTables = tables := by
  unfold check at done
  split at done
  · cases done
    rfl
  · cases done

theorem connectionFor_some {db : VmTables} {bindingId vmHostId : String}
    {saved : SavedVmConnectionRow} (found : db.connectionFor bindingId vmHostId = some saved) :
    saved ∈ db.connections ∧ saved.agentBindingId = bindingId ∧ saved.vmHostId = vmHostId := by
  obtain ⟨binding, host⟩ : saved.agentBindingId = bindingId ∧ saved.vmHostId = vmHostId := by
    simpa using List.find?_some found
  exact ⟨List.mem_of_find?_eq_some found, binding, host⟩

theorem liveAllocation_some {db : VmTables} {bindingId : String} {row : VmAllocationRow}
    (found : db.liveAllocation bindingId = some row) :
    row ∈ db.allocations ∧ row.agentBindingId = bindingId ∧ row.live = true := by
  obtain ⟨binding, live⟩ : row.agentBindingId = bindingId ∧ row.live = true := by
    simpa using List.find?_some found
  exact ⟨List.mem_of_find?_eq_some found, binding, live⟩

theorem site_isSome (db : VmDatabase) {host : VmHostRow} (inTable : host ∈ db.hosts) :
    ∃ site, db.site host.id = some site := by
  obtain ⟨endpoint, inEndpoints, same⟩ :=
    db.valid.directory.hostEndpoints.found inTable rfl
  refine ⟨(host, endpoint), ?_⟩
  have foundHost : db.hosts.lookup host.id = some host := Table.lookup_key inTable
  have foundEndpoint : db.endpoints.lookup host.endpointId = some endpoint :=
    Table.lookup_eq_some_iff.mpr ⟨inEndpoints, same⟩
  simp [Directory.site, foundHost, foundEndpoint]

theorem update_places {connections : Table SavedVmConnectionRow.key}
    {selects : SavedVmConnectionRow → Bool}
    {change : SavedVmConnectionRow → SavedVmConnectionRow}
    (keepsKey : ∀ row, (change row).id = row.id)
    (keeps : ∀ row ∈ connections, selects row = true → (change row).toConnectionPlace = row.toConnectionPlace) :
    ∀ saved ∈ connections, ∃ saved' ∈ connections.update selects change keepsKey,
      saved'.toConnectionPlace = saved.toConnectionPlace := by
  intro saved inTable
  refine ⟨_, Table.mem_update.mpr ⟨saved, inTable, rfl⟩, ?_⟩
  split
  · rename_i selected
    exact keeps saved inTable selected
  · rfl

theorem updateConnections_places {selects : SavedVmConnectionRow → Bool}
    {change : SavedVmConnectionRow → SavedVmConnectionRow}
    {keeps : ∀ row, (change row).toConnectionPlace = row.toConnectionPlace}
    (done : db.updateConnections selects change keeps = .ok after) :
    SamePlaces db.toVmTables after.toVmTables := by
  rw [check_ok done]
  refine ⟨rfl, rfl, rfl, ?_, ?_⟩
  · exact update_places (fun row => congrArg ConnectionPlace.id (keeps row)) fun row _ _ => keeps row
  · intro saved' inAfter
    obtain ⟨saved, inTable, rfl⟩ := List.mem_map.mp inAfter
    refine ⟨saved, inTable, ?_⟩
    split
    · exact keeps saved
    · rfl

theorem detachConnections_frame {id : String} (done : db.detachConnections id = .ok after) :
    Frame db.toVmTables after.toVmTables := by
  rw [check_ok done]
  exact ⟨rfl, rfl, fun row inTable live _ => ⟨row, inTable, rfl, live⟩⟩

theorem detachConnections_linked {id : String} (linked : db.Linked)
    (done : db.detachConnections id = .ok after) : after.LinkedApart (some id) := by
  rw [check_ok done]
  intro row inTable live other
  obtain ⟨saved, inConnections, link⟩ := linked row inTable live (Option.some_ne_none _).symm
  have kept : decide (saved.allocationId = some id) = false := by
    rw [link.linked]
    exact decide_eq_false fun same => other same.symm
  exact ⟨saved, List.mem_map.mpr ⟨saved, inConnections, if_neg (Bool.eq_false_iff.mp kept)⟩, link⟩

theorem deleteConnection_frame {id : String} (done : db.deleteConnection id = .ok after) :
    Frame db.toVmTables after.toVmTables := by
  rw [check_ok done]
  exact ⟨rfl, rfl, fun row inTable live _ => ⟨row, inTable, rfl, live⟩⟩

theorem deleteConnection_linked {id : String} (linked : db.Linked)
    (free : ∀ saved ∈ db.connections, saved.id = id → ∀ row ∈ db.allocations, row.live = true →
      saved.allocationId ≠ some row.id)
    (done : db.deleteConnection id = .ok after) : after.Linked := by
  rw [check_ok done]
  intro row inTable live other
  obtain ⟨saved, inConnections, link⟩ := linked row inTable live other
  refine ⟨saved, Table.mem_delete.mpr ⟨inConnections, ?_⟩, link⟩
  exact decide_eq_false fun same => free saved inConnections same row inTable live link.linked

theorem upsertConnection_frame {row : SavedVmConnectionRow}
    (done : db.upsertConnection row = .ok after) : Frame db.toVmTables after.toVmTables := by
  unfold upsertConnection at done
  split at done
  · rw [check_ok done]
    exact ⟨rfl, rfl, fun row inTable live _ => ⟨row, inTable, rfl, live⟩⟩
  · obtain ⟨connections, -, checked⟩ := bind_ok_iff.mp done
    rw [check_ok checked]
    exact ⟨rfl, rfl, fun row inTable live _ => ⟨row, inTable, rfl, live⟩⟩

theorem upsertConnection_linked {row : SavedVmConnectionRow} (linked : db.LinkedApart apart)
    (agrees : ∀ saved, db.connectionFor row.agentBindingId row.vmHostId = some saved →
      saved.linuxAccount = row.linuxAccount ∧ row.allocationId = saved.allocationId)
    (done : db.upsertConnection row = .ok after) : after.LinkedApart apart := by
  unfold upsertConnection at done
  split at done
  · rename_i saved found
    obtain ⟨account, link⟩ := agrees saved found
    obtain ⟨inConnections, binding, host⟩ := connectionFor_some found
    refine linked.of_places ?_ ?_
    · rw [check_ok done]
    · rw [check_ok done]
      refine @update_places db.connections _ (fun old => { row with id := old.id }) (fun _ => rfl) ?_
      intro old inTable same
      obtain rfl : old = saved :=
        db.connections.unique inTable inConnections (of_decide_eq_true same)
      simp only [← binding, ← host, ← account, link]
  · obtain ⟨connections, inserted, checked⟩ := bind_ok_iff.mp done
    refine linked.of_places ?_ ?_
    · rw [check_ok checked]
    · rw [check_ok checked]
      intro saved inTable
      exact ⟨saved, (Table.mem_insert? (Except.orThrow_ok_iff.mp inserted)).mpr (.inl inTable), rfl⟩

theorem linkAllocation_ok {row : VmAllocationRow} (done : db.linkAllocation row = .ok after) :
    ∃ connections, after.toVmTables = { db.toVmTables with connections } := by
  unfold linkAllocation at done
  split at done
  · cases done
    exact ⟨db.connections, rfl⟩
  · split at done
    · obtain ⟨_, -, checked⟩ := bind_ok_iff.mp done
      exact ⟨_, check_ok checked⟩
    · obtain ⟨connections, -, checked⟩ := bind_ok_iff.mp done
      exact ⟨connections, check_ok checked⟩

theorem insertAllocation_ok {row : VmAllocationRow} (done : db.insertAllocation row = .ok after) :
    ∃ inserted : VmDatabase, ∃ allocations, db.allocations.insert? row = some allocations ∧
      inserted.toVmTables = { db.toVmTables with allocations } ∧
      ((row.live = true ∧ inserted.linkAllocation row = .ok after) ∨ row.live = false ∧ after = inserted) := by
  simp only [insertAllocation, bind_ok_iff, Except.orThrow_ok_iff] at done
  obtain ⟨-, -, -, -, allocations, new, inserted, checked, rest⟩ := done
  refine ⟨inserted, allocations, new, check_ok checked, ?_⟩
  cases live : row.live with
  | true =>
    rw [live, if_pos rfl] at rest
    exact .inl ⟨rfl, rest⟩
  | false =>
    rw [live, if_neg Bool.false_ne_true] at rest
    exact .inr ⟨rfl, (Except.pure_ok_iff.mp rest).symm⟩

theorem insertAllocation_frame {row : VmAllocationRow}
    (done : db.insertAllocation row = .ok after) : Frame db.toVmTables after.toVmTables := by
  obtain ⟨inserted, allocations, new, tables, rest⟩ := insertAllocation_ok done
  have first : Frame db.toVmTables inserted.toVmTables := by
    rw [tables]
    exact ⟨rfl, rfl, fun old inTable live _ =>
      ⟨old, (Table.mem_insert? new).mpr (.inl inTable), rfl, live⟩⟩
  rcases rest with ⟨-, links⟩ | ⟨-, rfl⟩
  · obtain ⟨connections, same⟩ := linkAllocation_ok links
    refine first.trans ?_
    rw [same]
    exact ⟨rfl, rfl, fun old inTable live _ => ⟨old, inTable, rfl, live⟩⟩
  · exact first

theorem linkAllocation_linked {row : VmAllocationRow} (named : row.id ≠ "")
    (inTable : row ∈ db.allocations) (live : row.live = true)
    (others : ∀ other ∈ db.allocations, other.live = true → other ≠ row →
      ∃ saved ∈ db.connections, LinkOf saved other)
    (done : db.linkAllocation row = .ok after) : after.Linked := by
  obtain ⟨host, inHosts, sameHost⟩ := db.valid.allocations.hosts.found inTable rfl
  obtain ⟨site, found⟩ := db.site_isSome inHosts
  have joined : db.site row.vmHostId = some site := (congrArg db.site sameHost).symm.trans found
  unfold linkAllocation at done
  simp only [joined] at done
  split at done
  · rename_i saved known
    obtain ⟨_, registers, checked⟩ := bind_ok_iff.mp done
    obtain ⟨inConnections, binding, savedHost⟩ := connectionFor_some known
    have account : saved.linuxAccount = row.linuxAccount := (Except.ensure_ok_iff.mp registers).1
    rw [check_ok checked]
    intro other inOther liveOther _
    by_cases same : other = row
    · subst same
      refine ⟨other.relink saved, List.mem_map.mpr ⟨saved, inConnections, if_pos ?_⟩, ?_⟩
      · exact decide_eq_true rfl
      · exact ⟨named, rfl, binding, savedHost, account⟩
    · -- The connection is not that of another allocation: its agent has but one.
      obtain ⟨link, inLinks, isLink⟩ := others other inOther liveOther same
      have apart : link.id ≠ saved.id := by
        intro sameId
        obtain rfl : link = saved := db.connections.unique inLinks inConnections sameId
        have sameAgent : other.agentBindingId = row.agentBindingId :=
          isLink.binding.symm.trans binding
        exact same (db.valid.allocations.activeAgent.eq inOther inTable liveOther live sameAgent)
      exact ⟨link, List.mem_map.mpr ⟨link, inLinks, if_neg (by simpa using apart)⟩, isLink⟩
  · obtain ⟨connections, inserted, checked⟩ := bind_ok_iff.mp done
    have new := Except.orThrow_ok_iff.mp inserted
    rw [check_ok checked]
    intro other inOther liveOther _
    by_cases same : other = row
    · subst same
      exact ⟨_, (Table.mem_insert? new).mpr (.inr rfl), named, rfl, rfl, rfl, rfl⟩
    · obtain ⟨link, inLinks, isLink⟩ := others other inOther liveOther same
      exact ⟨link, (Table.mem_insert? new).mpr (.inl inLinks), isLink⟩

theorem insertAllocation_linked {row : VmAllocationRow} (named : row.id ≠ "") (linked : db.Linked)
    (done : db.insertAllocation row = .ok after) : after.Linked := by
  obtain ⟨inserted, allocations, new, tables, rest⟩ := insertAllocation_ok done
  have members : ∀ other, other ∈ inserted.allocations ↔ other ∈ db.allocations ∨ other = row := by
    intro other
    rw [tables]
    exact Table.mem_insert? new
  have others : ∀ other ∈ inserted.allocations, other.live = true → other ≠ row →
      ∃ saved ∈ inserted.connections, LinkOf saved other := by
    intro other inTable live apart
    rw [tables]
    cases (members other).mp inTable with
    | inl old => exact linked other old live (Option.some_ne_none _).symm
    | inr same => exact absurd same apart
  rcases rest with ⟨live, links⟩ | ⟨revoked, rfl⟩
  · exact linkAllocation_linked named ((members row).mpr (.inr rfl)) live others links
  · intro other inTable live _
    refine others other inTable live fun same => ?_
    rw [same, revoked] at live
    cases live

/-- What an update of an allocation leaves, after its triggers. -/
structure AllocationEffect (db after : VmTables) (id : String)
    (change : VmAllocationRow → VmAllocationRow) (old : VmAllocationRow) : Prop where
  found : db.allocations.lookup id = some old
  deselected : (change old).live = false → ∀ profile ∈ db.profiles,
    ¬(profile.activeTarget = .assignedVm ∧ profile.activeAllocationId = some (change old).id)
  directory : after.toDirectory = db.toDirectory
  profiles : after.profiles = db.profiles
  members : ∀ row, row ∈ after.allocations ↔
    ∃ other ∈ db.allocations, row = if other.id = id then change other else other
  kept : ∀ saved ∈ db.connections, ((change old).live = false ∧ saved.allocationId = some id) ∨
    ∃ saved' ∈ after.connections, saved'.toConnectionPlace = saved.toConnectionPlace
  only : ∀ saved' ∈ after.connections, ∃ saved ∈ db.connections, saved'.toConnectionPlace = saved.toConnectionPlace

theorem updateAllocation_ok {id : String} {change : VmAllocationRow → VmAllocationRow}
    {keeps : ∀ row, (change row).toAllocationPlace = row.toAllocationPlace}
    (done : db.updateAllocation id change keeps = .ok after) :
    (db.allocations.lookup id = none ∧ after = db) ∨
      ∃ old, AllocationEffect db.toVmTables after.toVmTables id change old := by
  unfold updateAllocation at done
  split at done
  · rename_i absent
    cases done
    exact .inl ⟨absent, rfl⟩
  · rename_i old found
    simp only [bind_ok_iff, requireDeselected, Except.ensure_ok_iff] at done
    obtain ⟨-, -, -, deselected, updated, checked, rest⟩ := done
    have tables := check_ok checked
    have members : ∀ row, row ∈ updated.allocations ↔
        ∃ other ∈ db.allocations, row = if other.id = id then change other else other := by
      intro row
      rw [tables]
      have update := @Table.mem_update _ _ _ db.allocations (fun row => decide (row.id = id)) change
        (fun row => congrArg AllocationPlace.id (keeps row)) row
      simpa only [decide_eq_true_eq] using update
    have connections : updated.connections = db.connections := by rw [tables]
    have directory : updated.toDirectory = db.toDirectory := by rw [tables]
    have profiles : updated.profiles = db.profiles := by rw [tables]
    refine .inr ⟨old, ?_⟩
    cases live : (change old).live with
    | true =>
      rw [live, if_pos rfl] at rest
      obtain ⟨_, -, projected⟩ := bind_ok_iff.mp rest
      have places := @updateConnections_places updated after _ (change old).project (fun _ => rfl) projected
      refine ⟨found, deselected, places.directory.trans directory, places.profiles.trans profiles, ?_, ?_, ?_⟩
      · rw [places.allocations]
        exact members
      · rw [← connections]
        exact fun saved inTable => .inr (places.kept saved inTable)
      · rw [← connections]
        exact places.only
    | false =>
      rw [live, if_neg Bool.false_ne_true] at rest
      have unlinked := check_ok rest
      refine ⟨found, deselected, ?_, ?_, ?_, ?_, ?_⟩
      · rw [unlinked, directory]
      · rw [unlinked, profiles]
      · rw [unlinked]
        exact members
      · rw [unlinked, ← connections]
        intro saved inTable
        by_cases link : saved.allocationId = some id
        · exact .inl ⟨live, link⟩
        · exact .inr ⟨saved, Table.mem_delete.mpr ⟨inTable, decide_eq_false link⟩, rfl⟩
      · rw [unlinked, ← connections]
        intro saved' inAfter
        exact ⟨saved', (Table.mem_delete.mp inAfter).1, rfl⟩

theorem updateAllocation_frame {id : String} {change : VmAllocationRow → VmAllocationRow}
    {keeps : ∀ row, (change row).toAllocationPlace = row.toAllocationPlace}
    (done : db.updateAllocation id change keeps = .ok after) :
    Frame db.toVmTables after.toVmTables := by
  rcases updateAllocation_ok done with ⟨-, rfl⟩ | ⟨old, effect⟩
  · exact Frame.refl _
  refine ⟨effect.directory, effect.profiles, fun row inTable live target => ?_⟩
  obtain ⟨inOld, sameId⟩ := Table.lookup_eq_some_iff.mp effect.found
  by_cases same : row.id = id
  · obtain rfl : row = old := db.allocations.unique inTable inOld (same.trans sameId.symm)
    refine ⟨change row, (effect.members _).mpr ⟨row, inTable, (if_pos same).symm⟩, keeps row, ?_⟩
    -- The active allocation of a profile is not revoked.
    cases changed : (change row).live with
    | true => rfl
    | false =>
      obtain ⟨profile, inProfiles, active, names⟩ := target
      refine absurd ⟨active, ?_⟩ (effect.deselected changed profile inProfiles)
      rw [congrArg AllocationPlace.id (keeps row)]
      exact names
  · exact ⟨row, (effect.members _).mpr ⟨row, inTable, (if_neg same).symm⟩, rfl, live⟩

theorem updateAllocation_linked {id : String} {change : VmAllocationRow → VmAllocationRow}
    {keeps : ∀ row, (change row).toAllocationPlace = row.toAllocationPlace}
    (linked : db.LinkedApart apart)
    (own : ∀ other, apart = some other → other = id ∧ ∀ row, (change row).live = false)
    (revived : ∀ old, db.allocations.lookup id = some old → (change old).live = true → old.live = true)
    (done : db.updateAllocation id change keeps = .ok after) : after.Linked := by
  rcases updateAllocation_ok done with ⟨absent, rfl⟩ | ⟨old, effect⟩
  · intro row inTable live _
    refine linked row inTable live fun same => ?_
    exact Table.lookup_eq_none_iff.mp absent row inTable (own row.id same).1
  obtain ⟨inOld, sameId⟩ := Table.lookup_eq_some_iff.mp effect.found
  intro row inAfter live _
  obtain ⟨other, inTable, rfl⟩ := (effect.members row).mp inAfter
  by_cases same : other.id = id
  · obtain rfl : other = old := db.allocations.unique inTable inOld (same.trans sameId.symm)
    rw [if_pos same] at live ⊢
    have notApart : apart ≠ some other.id := by
      intro setApart
      rw [(own other.id setApart).2 other] at live
      cases live
    obtain ⟨saved, inConnections, link⟩ :=
      linked other inTable (revived other effect.found live) notApart
    rcases effect.kept saved inConnections with ⟨revoked, -⟩ | ⟨saved', inConnections', place⟩
    · rw [revoked] at live
      cases live
    · exact ⟨saved', inConnections', link.of_places place (keeps other)⟩
  · rw [if_neg same] at live ⊢
    obtain ⟨saved, inConnections, link⟩ :=
      linked other inTable live fun setApart => same (own other.id setApart).1
    rcases effect.kept saved inConnections with ⟨-, own⟩ | ⟨saved', inConnections', place⟩
    · rw [link.linked] at own
      exact absurd (Option.some.inj own) same
    · exact ⟨saved', inConnections', link.of_places place rfl⟩

theorem revokeAllocation_frame {id : String} {revokedAt : Int} (done : db.revokeAllocation id revokedAt = .ok after) :
    Frame db.toVmTables after.toVmTables :=
  updateAllocation_frame done

theorem revokeAllocation_linked {id : String} {revokedAt : Int}
    (linked : db.LinkedApart (some id)) (done : db.revokeAllocation id revokedAt = .ok after) :
    after.Linked := by
  apply updateAllocation_linked linked _ _ done
  · intro other same
    exact ⟨(Option.some.inj same).symm, fun _ => rfl⟩
  · intro old _ live
    cases live

theorem revokeAllocation_only {id : String} {revokedAt : Int} (done : db.revokeAllocation id revokedAt = .ok after) :
    (∀ row ∈ after.allocations, row.id = id → row.live = false) ∧
      ∀ saved' ∈ after.connections, ∃ saved ∈ db.connections, saved'.toConnectionPlace = saved.toConnectionPlace := by
  rcases updateAllocation_ok done with ⟨absent, rfl⟩ | ⟨old, effect⟩
  · refine ⟨fun row inTable same => ?_, fun saved inTable => ⟨saved, inTable, rfl⟩⟩
    exact absurd same (Table.lookup_eq_none_iff.mp absent row inTable)
  · refine ⟨fun row inAfter same => ?_, effect.only⟩
    obtain ⟨other, -, rfl⟩ := (effect.members row).mp inAfter
    split at same
    · rename_i named
      rw [if_pos named]
      rfl
    · rename_i other'
      exact absurd same other'

theorem updateProfile_ok {bindingId : String} {selects : PersonalExecutionProfileRow → Bool}
    {change : PersonalExecutionProfileRow → PersonalExecutionProfileRow}
    {keeps : ∀ row, (change row).agentBindingId = row.agentBindingId}
    (done : db.updateProfile bindingId selects change keeps = .ok after) :
    ((db.profiles.lookup bindingId).filter selects = none ∧ after = db) ∨
      ∃ old, db.profiles.lookup bindingId = some old ∧ selects old = true ∧ LiveTarget db.toVmTables (change old) ∧
        after.toVmTables = { db.toVmTables with
          profiles := db.profiles.update (fun row => row.agentBindingId = bindingId) change keeps } := by
  unfold updateProfile at done
  split at done
  · rename_i absent
    cases done
    exact .inl ⟨absent, rfl⟩
  · rename_i old found
    obtain ⟨looked, selected⟩ := Option.filter_eq_some_iff.mp found
    obtain ⟨_, live, checked⟩ := bind_ok_iff.mp done
    exact .inr ⟨old, looked, selected, Except.ensure_ok_iff.mp live, check_ok checked⟩

theorem updateProfile_linked {bindingId : String} {selects : PersonalExecutionProfileRow → Bool}
    {change : PersonalExecutionProfileRow → PersonalExecutionProfileRow}
    {keeps : ∀ row, (change row).agentBindingId = row.agentBindingId}
    (linked : db.LinkedApart apart)
    (done : db.updateProfile bindingId selects change keeps = .ok after) :
    after.LinkedApart apart := by
  rcases updateProfile_ok done with ⟨-, rfl⟩ | ⟨old, -, -, -, same⟩
  · exact linked
  · rw [same]
    exact linked

theorem updateProfile_liveTargets {bindingId : String}
    {selects : PersonalExecutionProfileRow → Bool}
    {change : PersonalExecutionProfileRow → PersonalExecutionProfileRow}
    {keeps : ∀ row, (change row).agentBindingId = row.agentBindingId}
    (targets : db.LiveTargets)
    (done : db.updateProfile bindingId selects change keeps = .ok after) : after.LiveTargets := by
  rcases updateProfile_ok done with ⟨-, rfl⟩ | ⟨old, found, -, live, same⟩
  · exact targets
  rw [same]
  intro profile inAfter
  obtain ⟨other, inTable, rfl⟩ := List.mem_map.mp inAfter
  split
  · rename_i named
    obtain ⟨inOld, key⟩ := Table.lookup_eq_some_iff.mp found
    obtain rfl : other = old :=
      db.profiles.unique inTable inOld ((of_decide_eq_true named).trans key.symm)
    exact live
  · exact targets other inTable

theorem insertProfile_ok {row : PersonalExecutionProfileRow} (done : db.insertProfile row = .ok after) :
    ∃ profiles, db.profiles.insert? row = some profiles ∧ LiveTarget db.toVmTables row ∧
      after.toVmTables = { db.toVmTables with profiles } := by
  simp only [insertProfile, requireLiveTarget, bind_ok_iff, Except.ensure_ok_iff, Except.orThrow_ok_iff] at done
  obtain ⟨-, -, -, live, profiles, inserted, checked⟩ := done
  exact ⟨profiles, inserted, live, check_ok checked⟩

theorem credential_places {credentials : Table EncryptedUserSshCredentialRow.key}
    {written : VmDatabase} {selects : SavedVmConnectionRow → Bool}
    {change : SavedVmConnectionRow → SavedVmConnectionRow}
    {keeps : ∀ row, (change row).toConnectionPlace = row.toConnectionPlace}
    (checked : check { db.toVmTables with credentials } = .ok written)
    (done : written.updateConnections selects change keeps = .ok after) :
    SamePlaces db.toVmTables after.toVmTables := by
  have first : SamePlaces db.toVmTables written.toVmTables := by
    rw [check_ok checked]
    exact ⟨rfl, rfl, rfl, fun saved inTable => ⟨saved, inTable, rfl⟩,
      fun saved inTable => ⟨saved, inTable, rfl⟩⟩
  exact first.trans (updateConnections_places done)

theorem insertCredential_places {row : EncryptedUserSshCredentialRow} (done : db.insertCredential row = .ok after) :
    SamePlaces db.toVmTables after.toVmTables := by
  obtain ⟨credentials, -, rest⟩ := bind_ok_iff.mp done
  obtain ⟨inserted, checked, projected⟩ := bind_ok_iff.mp rest
  exact credential_places checked projected

theorem updateCredential_places {id : String}
    {change : EncryptedUserSshCredentialRow → EncryptedUserSshCredentialRow}
    {keeps : ∀ row, (change row).id = row.id}
    (done : db.updateCredential id change keeps = .ok after) :
    SamePlaces db.toVmTables after.toVmTables := by
  unfold updateCredential at done
  split at done
  · cases done
    exact SamePlaces.refl _
  · obtain ⟨updated, checked, projected⟩ := bind_ok_iff.mp done
    exact credential_places checked projected

theorem deleteCredential_places {row : EncryptedUserSshCredentialRow} (done : db.deleteCredential row = .ok after) :
    SamePlaces db.toVmTables after.toVmTables := by
  obtain ⟨deleted, checked, cleared⟩ := bind_ok_iff.mp done
  exact credential_places checked cleared

end VmDatabase

end PlatformClaw.Execution.Vm
