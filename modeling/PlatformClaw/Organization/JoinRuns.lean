import PlatformClaw.Organization.JoinDecisions
import PlatformClaw.Organization.ProvenanceRuns
import PlatformClaw.Organization.ScopeTree

/-! # Join requests over whole runs

Membership comes by several ways and a scope can be archived under a request.
Each of these operations ends the requests it makes stale, and a request that has
ended has its one decision.
-/

namespace PlatformClaw.Organization

open Except (bind_ok_iff)

theorem JoinDecision.status_ne_pending (decision : JoinDecision) : decision.status ≠ .pending := by
  cases decision <;> simp [JoinDecision.status]

namespace OrganizationDatabase

variable {db after : OrganizationDatabase} {lowerCase : String → String}

/-- What an accepted operation does to the table of requests, with what it ends. -/
inductive RequestsEffect (db after : OrganizationDatabase) : Option Closing → Prop where
  | same (requests : after.joinRequests = db.joinRequests) : RequestsEffect db after none
  | submitted {row : JoinRequestRow} (waiting : row.status = .pending)
      (inserted : db.joinRequests.insert? row = some after.joinRequests)
      (available : db.HasActiveScope row.scopeId) (scopes : after.managedScopes = db.managedScopes) :
      RequestsEffect db after none
  | closed {closing : Closing}
      (requests : after.joinRequests.rows = db.joinRequests.rows.map closing.change) :
      RequestsEffect db after (some closing)

theorem submit_available {requestId userId scopeId reason : String}
    (done : db.submitOrganizationJoinRequest requestId userId scopeId reason = .ok after) :
    db.HasActiveScope scopeId := by
  simp only [submitOrganizationJoinRequest, bind_ok_iff, requireScopeRow_ok, requireAvailable,
    Except.ensure_ok_iff] at done
  obtain ⟨-, -, scope, found, -, -, -, ⟨-, active, -⟩, -⟩ := done
  exact ⟨scope, found, active⟩

theorem set_reason {actorUserId scopeId userId reason : String} {role : ScopeRole}
    {expectedRole : Option (Option ScopeRole)} {changedAt : Int}
    (done : db.setManagedScopeMembership actorUserId scopeId userId role expectedRole reason
      changedAt = .ok after) : ∃ text, boundedOrganizationReason reason "reason" = .ok text := by
  simp only [setManagedScopeMembership, bind_ok_iff] at done
  obtain ⟨-, -, -, -, -, -, -, -, -, -, -, -, text, bounded, -⟩ := done
  exact ⟨text, bounded⟩

theorem decide_checked {actorUserId requestId reason : String} {decision : ReviewDecision}
    {decidedAt : Int}
    (done : db.decideOrganizationJoinRequest actorUserId requestId decision reason decidedAt = .ok after) :
    (∃ request, db.joinRequests.lookup requestId = some request ∧ request.userId ≠ actorUserId) ∧
      ∃ text, boundedOrganizationReason reason "reason" = .ok text := by
  simp only [decideOrganizationJoinRequest, bind_ok_iff, requireUserRow_ok, Except.orThrow_ok_iff,
    Except.ensure_ok_iff] at done
  obtain ⟨actor, foundActor, request, found, -, -, -, -, -, others, -, -, -, -, text, bounded, -⟩ :=
    done
  have sameActor : actor.id = actorUserId := (Table.lookup_eq_some_iff.mp foundActor).2
  exact ⟨⟨request, found, fun own => others (sameActor.trans own.symm)⟩, text, bounded⟩

theorem cancel_checked {actorUserId requestId reason : String}
    (done : db.cancelOrganizationJoinRequest actorUserId requestId reason = .ok after) :
    (∃ request, db.joinRequests.lookup requestId = some request ∧ request.status = .pending) ∧
      ∃ text, boundedOrganizationReason reason "reason" = .ok text := by
  simp only [cancelOrganizationJoinRequest, bind_ok_iff, Except.orThrow_ok_iff, Except.ensure_ok_iff] at done
  obtain ⟨-, -, -, -, request, found, -, -, -, waiting, text, bounded, -⟩ := done
  exact ⟨⟨request, found, waiting⟩, text, bounded⟩

theorem setRequestStatus_rows {requestId : String} {request : JoinRequestRow}
    (found : db.joinRequests.lookup requestId = some request) (waiting : request.status = .pending)
    (decision : JoinDecision) (actorUserId reason : String) :
    (db.setRequestStatus requestId decision.status).joinRequests.rows = db.joinRequests.rows.map (Closing.change
        { concerned := fun request => request.id = requestId, decision, actorUserId, reason }) := by
  obtain ⟨inTable, same⟩ := Table.lookup_eq_some_iff.mp found
  refine List.map_congr_left fun other inRows => ?_
  by_cases own : other.id = requestId
  · obtain rfl : other = request := Table.unique inRows inTable (own.trans same.symm)
    simp [Closing.change, Closing.selects, own, waiting]
  · simp [Closing.change, Closing.selects, own]

theorem archive_closing (lowerCase : String → String) {actorUserId scopeId reason : String} {expectedRevision : Option Int}
    {archivedAt : Int}
    (done : db.archiveManagedScope actorUserId scopeId expectedRevision reason archivedAt = .ok after) :
    (after = db ∧ db.closing lowerCase
        (.archiveManagedScope actorUserId scopeId expectedRevision reason archivedAt) = .ok none) ∨
      ∃ ids, after = db.archiveScopes ids archivedAt ∧ db.closing lowerCase
          (.archiveManagedScope actorUserId scopeId expectedRevision reason archivedAt) =
        .ok (some { concerned := fun request => request.scopeId ∈ ids, decision := .rejected,
                    actorUserId, reason := "Owning scope archived" }) := by
  simp only [archiveManagedScope, bind_ok_iff, requireScopeRow_ok] at done
  obtain ⟨-, -, scope, found, -, -, -, -, -, -, rest⟩ := done
  have read : db.requireScopeRow scopeId = .ok scope := requireScopeRow_ok.mpr found
  by_cases archived : scope.status = .archived
  · rw [if_pos archived] at rest
    refine .inl ⟨(Except.pure_ok_iff.mp rest).symm, bind_ok_iff.mpr ⟨scope, read, ?_⟩⟩
    rw [if_pos archived]
    rfl
  · rw [if_neg archived] at rest
    obtain ⟨descendants, below, rest⟩ := bind_ok_iff.mp rest
    refine .inr ⟨scope.id :: descendants, (Except.pure_ok_iff.mp rest).symm, bind_ok_iff.mpr ⟨scope, read, ?_⟩⟩
    rw [if_neg archived]
    exact bind_ok_iff.mpr ⟨descendants, below, rfl⟩

theorem requestsEffect_execute {operation : OrganizationOperation}
    (done : db.execute lowerCase operation = .ok after) :
    ∃ closing, db.closing lowerCase operation = .ok closing ∧ RequestsEffect db after closing := by
  cases operation with
  | upsertPrincipal account =>
    simp only [execute, upsertPrincipal, bind_ok_iff, Except.pure_ok_iff] at done
    obtain ⟨-, -, rfl⟩ := done
    exact ⟨none, rfl, .same rfl⟩
  | setUserGlobalRole userId globalRole =>
    cases done
    exact ⟨none, rfl, .same rfl⟩
  | setManagedUserStatus userId status =>
    cases done
    exact ⟨none, rfl, .same rfl⟩
  | createManagedScope actorUserId kind name parentScopeId uuid createdAt =>
    simp only [execute, Except.map_ok_iff] at done
    obtain ⟨⟨row, created⟩, made, rfl⟩ := done
    obtain ⟨-, -, scopes, -, rfl⟩ := insertScope_ok (createManagedScope_ok made).1
    exact ⟨none, rfl, .same rfl⟩
  | renameManagedScope actorUserId scopeId expectedRevision name reason changedAt =>
    obtain ⟨scope, -, -, name, normalizedName, updatedAt, rfl⟩ := renameManagedScope_ok done
    exact ⟨none, rfl, .same rfl⟩
  | archiveManagedScope actorUserId scopeId expectedRevision reason archivedAt =>
    rcases archive_closing lowerCase done with ⟨rfl, closes⟩ | ⟨ids, rfl, closes⟩
    · exact ⟨none, closes, .same rfl⟩
    · exact ⟨_, closes, .closed rfl⟩
  | setManagedScopeMembership actorUserId scopeId userId role expectedRole reason changedAt =>
    obtain ⟨text, bounded⟩ := set_reason done
    obtain ⟨assigned, how, rfl⟩ := setManagedScopeMembership_ok done
    have requests : assigned.joinRequests = db.joinRequests := by
      rcases how with ⟨-, rfl⟩ | ⟨-, inserted⟩
      · rfl
      · obtain ⟨memberships, -, same⟩ := insertMembership_ok inserted
        rw [same]
    refine ⟨_, bind_ok_iff.mpr ⟨text, bounded, rfl⟩, .closed ?_⟩
    rw [← requests]
    rfl
  | removeManagedScopeMembership actorUserId scopeId userId expectedRole reason =>
    rw [removeManagedScopeMembership_ok done]
    exact ⟨none, rfl, .same rfl⟩
  | setUserPrimaryScope actorUserId userId scopeId changedAt =>
    rcases setUserPrimaryScope_ok done with rfl | ⟨scope, -, -, -, rfl⟩
    · exact ⟨none, rfl, .same rfl⟩
    · exact ⟨none, rfl, .same rfl⟩
  | submitOrganizationJoinRequest requestId userId scopeId reason =>
    have available := submit_available done
    obtain ⟨-, -, id, requests, inserted, rfl⟩ := submitOrganizationJoinRequest_ok done
    exact ⟨none, rfl, .submitted rfl inserted available rfl⟩
  | decideOrganizationJoinRequest actorUserId requestId decision reason decidedAt =>
    obtain ⟨-, text, bounded⟩ := decide_checked done
    refine ⟨_, bind_ok_iff.mpr ⟨text, bounded, rfl⟩, .closed ?_⟩
    obtain ⟨request, found, waiting, ⟨rfl, rfl⟩ | ⟨rfl, rfl⟩⟩ :=
      decideOrganizationJoinRequest_ok done
    · exact setRequestStatus_rows found waiting .approved actorUserId text
    · exact setRequestStatus_rows found waiting .rejected actorUserId text
  | cancelOrganizationJoinRequest actorUserId requestId reason =>
    obtain ⟨⟨request, found, waiting⟩, text, bounded⟩ := cancel_checked done
    obtain ⟨-, -, rfl⟩ := cancelOrganizationJoinRequest_ok done
    exact ⟨_, bind_ok_iff.mpr ⟨text, bounded, rfl⟩,
      .closed (setRequestStatus_rows found waiting .cancelled actorUserId text)⟩
  | syncDirectoryOrganization userId parsed isTestAccount drawn syncedAt expectedLastLoginAt =>
    simp only [execute, Except.map_ok_iff] at done
    obtain ⟨⟨result, synced⟩, made, rfl⟩ := done
    cases result with
    | skipped reason =>
      refine ⟨none, bind_ok_iff.mpr ⟨_, made, rfl⟩, ?_⟩
      rcases syncDirectoryOrganization_ok made with ⟨-, -, rfl⟩ | ⟨_, _, _, -, impossible, -⟩
      · exact .same rfl
      · cases impossible
    | synced scopeId =>
      refine ⟨_, bind_ok_iff.mpr ⟨_, made, rfl⟩, .closed ?_⟩
      rcases syncDirectoryOrganization_ok made with
        ⟨reason, impossible, -⟩ | ⟨org, plans, partPlan, -, same, checked, committed⟩
      · cases impossible
      cases same
      obtain ⟨written, joined, wrote, moved, rfl⟩ := commitDirectoryOrganization_ok committed
      obtain ⟨-, scopes, rfl⟩ := writeDirectoryScopes_ok (Traced.refl (plans ++ [partPlan]))
        (fun plan listed => ⟨listed, checked.fits plan listed⟩) wrote
      obtain ⟨memberships, rfl, -⟩ := joinNewSource_ok moved
      rfl

theorem HasActiveScope.execute {id : String} (active : db.HasActiveScope id)
    {operation : OrganizationOperation} (done : db.execute lowerCase operation = .ok after) :
    after.HasActiveScope id ∨ ∃ closing, db.closing lowerCase operation = .ok (some closing) ∧
      ∀ request : JoinRequestRow, request.scopeId = id → closing.concerned request = true := by
  have of_same (same : after.managedScopes = db.managedScopes) : after.HasActiveScope id :=
    (hasActiveScope_of_scopes_eq same id).mpr active
  obtain ⟨row, found, enabled⟩ := active
  cases operation with
  | upsertPrincipal account =>
    simp only [OrganizationDatabase.execute, upsertPrincipal, bind_ok_iff, Except.pure_ok_iff] at done
    obtain ⟨-, -, rfl⟩ := done
    exact .inl (of_same rfl)
  | setUserGlobalRole userId globalRole =>
    cases done
    exact .inl (of_same rfl)
  | setManagedUserStatus userId status =>
    cases done
    exact .inl (of_same rfl)
  | createManagedScope actorUserId kind name parentScopeId uuid createdAt =>
    simp only [OrganizationDatabase.execute, Except.map_ok_iff] at done
    obtain ⟨⟨new, created⟩, made, rfl⟩ := done
    obtain ⟨-, -, scopes, inserted, rfl⟩ := insertScope_ok (createManagedScope_ok made).1
    refine .inl ⟨row, (Table.lookup_insert? inserted id).trans ?_, enabled⟩
    have apart : new.key ≠ id := by
      intro same
      have absent := Table.insert?_absent inserted
      rw [same, found] at absent
      cases absent
    rw [if_neg apart]
    exact found
  | renameManagedScope actorUserId scopeId expectedRevision name reason changedAt =>
    obtain ⟨scope, looked, -, name, normalizedName, updatedAt, rfl⟩ := renameManagedScope_ok done
    have here : db.managedScopes.lookup scope.id = some scope := by
      rw [scope_id looked]
      exact looked
    have lookups := @lookup_setScope db { scope with name := name, normalizedName := normalizedName, updatedAt := updatedAt }
      scope here id
    left
    by_cases same : scope.id = id
    · refine ⟨_, lookups.trans (if_pos same), ?_⟩
      rw [← same, here] at found
      cases found
      exact enabled
    · exact ⟨row, (lookups.trans (if_neg same)).trans found, enabled⟩
  | archiveManagedScope actorUserId scopeId expectedRevision reason archivedAt =>
    rcases archive_closing lowerCase done with ⟨rfl, -⟩ | ⟨ids, rfl, closes⟩
    · exact .inl (of_same rfl)
    · by_cases inside : id ∈ ids
      · exact .inr ⟨_, closes, fun request same => by simpa [same] using inside⟩
      · exact .inl (archiveScopes_active inside ⟨row, found, enabled⟩)
  | setManagedScopeMembership actorUserId scopeId userId role expectedRole reason changedAt =>
    obtain ⟨assigned, ⟨-, rfl⟩ | ⟨-, inserted⟩, rfl⟩ := setManagedScopeMembership_ok done
    · exact .inl (of_same rfl)
    · obtain ⟨memberships, -, rfl⟩ := insertMembership_ok inserted
      exact .inl (of_same rfl)
  | removeManagedScopeMembership actorUserId scopeId userId expectedRole reason =>
    rw [removeManagedScopeMembership_ok done] at of_same ⊢
    exact .inl (of_same rfl)
  | setUserPrimaryScope actorUserId userId scopeId changedAt =>
    rcases setUserPrimaryScope_ok done with rfl | ⟨scope, -, -, -, rfl⟩
    · exact .inl (of_same rfl)
    · exact .inl (of_same rfl)
  | submitOrganizationJoinRequest requestId userId scopeId reason =>
    obtain ⟨-, -, id, requests, -, rfl⟩ := submitOrganizationJoinRequest_ok done
    exact .inl (of_same rfl)
  | decideOrganizationJoinRequest actorUserId requestId decision reason decidedAt =>
    obtain ⟨request, -, -, ⟨-, rfl⟩ | ⟨-, rfl⟩⟩ := decideOrganizationJoinRequest_ok done
    · exact .inl (of_same rfl)
    · exact .inl (of_same rfl)
  | cancelOrganizationJoinRequest actorUserId requestId reason =>
    obtain ⟨-, -, rfl⟩ := cancelOrganizationJoinRequest_ok done
    exact .inl (of_same rfl)
  | syncDirectoryOrganization userId parsed isTestAccount drawn syncedAt expectedLastLoginAt =>
    simp only [OrganizationDatabase.execute, Except.map_ok_iff] at done
    obtain ⟨⟨result, synced⟩, made, rfl⟩ := done
    rcases syncDirectoryOrganization_ok made with
      ⟨-, -, rfl⟩ | ⟨org, plans, partPlan, -, -, checked, committed⟩
    · exact .inl (of_same rfl)
    · obtain ⟨written, joined, wrote, moved, rfl⟩ := commitDirectoryOrganization_ok committed
      obtain ⟨traced, scopes, rfl⟩ := writeDirectoryScopes_ok (Traced.refl (plans ++ [partPlan]))
        (fun plan listed => ⟨listed, checked.fits plan listed⟩) wrote
      obtain ⟨memberships, rfl, -⟩ := joinNewSource_ok moved
      obtain ⟨row', found', rfl | ⟨plan, -, -, -, normalizedName, rfl⟩⟩ := traced id row found
      · exact .inl ⟨row', found', enabled⟩
      · exact .inl ⟨_, found', enabled⟩

theorem change_pending {closing : Closing} {old : JoinRequestRow} (pending : (closing.change old).status = .pending) :
    closing.change old = old ∧ closing.selects old = false := by
  unfold Closing.change at pending ⊢
  split
  · rename_i selected
    rw [if_pos selected] at pending
    exact absurd pending closing.decision.status_ne_pending
  · rename_i kept
    exact ⟨rfl, by simpa using kept⟩

theorem change_id (closing : Closing) (old : JoinRequestRow) : (closing.change old).id = old.id := by
  unfold Closing.change
  split <;> rfl

theorem mem_closed {closing : Closing} {row : JoinDecisionRow} : row ∈ db.closed (some closing) ↔
      ∃ request ∈ db.joinRequests, closing.selects request = true ∧ closing.row request = row := by
  simp only [closed, List.mem_map, List.mem_filter, and_assoc, Table.mem_rows]

theorem mem_of_closed {closing : Closing} {request : JoinRequestRow}
    (requests : after.joinRequests.rows = db.joinRequests.rows.map closing.change) :
    request ∈ after.joinRequests ↔ ∃ old ∈ db.joinRequests, closing.change old = request := by
  rw [← Table.mem_rows, requests, List.mem_map]
  rfl

theorem RequestsEffect.pending {closing : Option Closing}
    (effect : RequestsEffect db after closing) {request : JoinRequestRow}
    (pending : after.IsPending request) :
    (db.IsPending request ∧ ∀ ending, closing = some ending → ending.selects request = false) ∨
      (closing = none ∧ db.joinRequests.lookup request.id = none ∧
        db.HasActiveScope request.scopeId ∧ after.managedScopes = db.managedScopes) := by
  obtain ⟨inAfter, waiting⟩ := pending
  cases effect with
  | same requests => exact .inl ⟨⟨requests ▸ inAfter, waiting⟩, fun _ same => by cases same⟩
  | submitted _ inserted available scopes =>
    rcases (Table.mem_insert? inserted).mp inAfter with old | rfl
    · exact .inl ⟨⟨old, waiting⟩, fun _ same => by cases same⟩
    · exact .inr ⟨rfl, Table.insert?_absent inserted, available, scopes⟩
  | closed requests =>
    obtain ⟨old, inOld, rfl⟩ := (mem_of_closed requests).mp inAfter
    obtain ⟨same, kept⟩ := change_pending waiting
    rw [same] at waiting ⊢
    refine .inl ⟨⟨inOld, waiting⟩, fun ending isEnding => ?_⟩
    cases isEnding
    exact kept

end OrganizationDatabase

open OrganizationDatabase (RequestsEffect requestsEffect_execute change_id change_pending mem_closed
  mem_of_closed)

/-- What every run keeps of requests and decisions. -/
structure JoinDatabase.JoinsKept (db : JoinDatabase) : Prop where
  provenance : db.organization.ProvenanceKept
  available : ∀ request, db.organization.IsPending request → db.organization.HasActiveScope request.scopeId
  undecided : ∀ request, db.organization.IsPending request → db.decisions.lookup request.id = none
  decided : ∀ request ∈ db.organization.joinRequests, request.status ≠ .pending →
    ∃ decision, db.decisions.lookup request.id = some decision ∧ decision.decision.status = request.status
  requested : ∀ decision ∈ db.decisions, ∃ request ∈ db.organization.joinRequests, request.id = decision.requestId

namespace JoinDatabase

variable {db : JoinDatabase} {after : OrganizationDatabase} {lowerCase : String → String}
variable {operation : OrganizationOperation} {closing : Option Closing}

theorem JoinsKept.empty : JoinsKept .empty where
  provenance := .empty
  available _ pending := absurd pending.1 (Table.not_mem_empty _)
  undecided _ pending := absurd pending.1 (Table.not_mem_empty _)
  decided _ inTable := absurd inTable (Table.not_mem_empty _)
  requested _ inTable := absurd inTable (Table.not_mem_empty _)

theorem JoinsKept.accepts (kept : db.JoinsKept) (closing : Option Closing) :
    ∃ decisions, db.decisions.insertAll? (db.organization.closed closing) = some decisions := by
  cases closing with
  | none => exact ⟨db.decisions, rfl⟩
  | some closing =>
    refine Table.insertAll?_isSome ?_ ?_
    · exact List.pairwise_map.mpr (db.organization.joinRequests.keyed.filter _)
    · intro row listed
      obtain ⟨request, inTable, selected, rfl⟩ := mem_closed.mp listed
      simp only [Closing.selects, decide_eq_true_eq] at selected
      exact kept.undecided request ⟨inTable, selected.2⟩

theorem JoinsKept.effect (kept : db.JoinsKept) (done : db.organization.execute lowerCase operation = .ok after)
    (closes : db.organization.closing lowerCase operation = .ok closing)
    (effect : RequestsEffect db.organization after closing) {decisions : Table JoinDecisionRow.key}
    (inserted : db.decisions.insertAll? (db.organization.closed closing) = some decisions) :
    JoinsKept { organization := after, decisions } := by
  have written := @Table.mem_insertAll? _ _ _ _ _ _ _ inserted
  refine ⟨kept.provenance.effect (OrganizationDatabase.membershipEffect_execute done), ?_, ?_, ?_, ?_⟩
  · intro request pending
    rcases effect.pending pending with ⟨before, open_⟩ | ⟨-, -, available, scopes⟩
    · rcases (kept.available request before).execute done with active | ⟨ending, ends, all⟩
      · exact active
      · cases Except.ok.inj (closes.symm.trans ends)
        have spared := open_ ending rfl
        simp [Closing.selects, all request rfl, before.2] at spared
    · exact (OrganizationDatabase.hasActiveScope_of_scopes_eq scopes _).mpr available
  · intro request pending
    refine Table.lookup_eq_none_iff.mpr fun decision inDecisions same => ?_
    rcases effect.pending pending with ⟨before, spared⟩ | ⟨rfl, absent, -⟩
    · rcases written.mp inDecisions with old | new
      · exact Table.lookup_eq_none_iff.mp (kept.undecided request before) decision old same
      · cases closing with
        | none => cases new
        | some ending =>
          obtain ⟨other, inTable, selected, rfl⟩ := mem_closed.mp new
          obtain rfl := Table.unique inTable before.1 same
          rw [spared ending rfl] at selected
          cases selected
    · rcases written.mp inDecisions with old | new
      · obtain ⟨other, inTable, owned⟩ := kept.requested decision old
        exact Table.lookup_eq_none_iff.mp absent other inTable (owned.trans same)
      · cases new
  · intro request inAfter terminal
    have still (old : JoinRequestRow) (inTable : old ∈ db.organization.joinRequests)
        (ended : old.status ≠ .pending) : ∃ decision, decisions.lookup old.id = some decision ∧
          decision.decision.status = old.status := by
      obtain ⟨decision, found, status⟩ := kept.decided old inTable ended
      obtain ⟨inDecisions, same⟩ := Table.lookup_eq_some_iff.mp found
      exact ⟨decision, Table.lookup_eq_some_iff.mpr ⟨written.mpr (.inl inDecisions), same⟩, status⟩
    cases effect with
    | same requests => exact still request (requests ▸ inAfter) terminal
    | submitted waiting new =>
      rcases (Table.mem_insert? new).mp inAfter with old | rfl
      · exact still request old terminal
      · exact absurd waiting terminal
    | @closed ending requests =>
      obtain ⟨old, inTable, rfl⟩ := (mem_of_closed requests).mp inAfter
      rw [change_id]
      by_cases selected : ending.selects old = true
      · refine ⟨ending.row old, Table.lookup_eq_some_iff.mpr ⟨written.mpr (.inr
          (mem_closed.mpr ⟨old, inTable, selected, rfl⟩)), rfl⟩, ?_⟩
        simp [Closing.change, selected, Closing.row]
      · have same : ending.change old = old := if_neg selected
        rw [same] at terminal ⊢
        exact still old inTable terminal
  · intro decision inDecisions
    have found (old : JoinRequestRow) (inTable : old ∈ db.organization.joinRequests) :
        ∃ request ∈ after.joinRequests, request.id = old.id := by
      cases effect with
      | same requests => exact ⟨old, requests ▸ inTable, rfl⟩
      | submitted _ new => exact ⟨old, (Table.mem_insert? new).mpr (.inl inTable), rfl⟩
      | @closed ending requests =>
        exact ⟨ending.change old, (mem_of_closed requests).mpr ⟨old, inTable, rfl⟩, change_id _ _⟩
    rcases written.mp inDecisions with old | new
    · obtain ⟨request, inTable, same⟩ := kept.requested decision old
      obtain ⟨request', inAfter, same'⟩ := found request inTable
      exact ⟨request', inAfter, same'.trans same⟩
    · cases closing with
      | none => cases new
      | some ending =>
        obtain ⟨request, inTable, -, rfl⟩ := mem_closed.mp new
        exact found request inTable

/-- The trigger on the status lets every operation through. -/
theorem terminalAllowed_of_kept {before : OrganizationDatabase}
    {decisions : Table JoinDecisionRow.key} (effect : RequestsEffect before after closing)
    (kept : JoinsKept { organization := after, decisions }) :
    terminalAllowed before after decisions = true := by
  have unchanged (request : JoinRequestRow) (inTable : request ∈ before.joinRequests) :
      ((before.joinRequests.lookup request.id).all fun old =>
        decide (old.status = request.status) || (decide (old.status = .pending ∧ request.status ≠ .pending) &&
            (decisions.lookup request.id).any fun decision =>
              decision.decision.status = request.status)) = true := by
    have found : before.joinRequests.lookup request.id = some request := Table.lookup_key inTable
    simp [found]
  refine List.all_eq_true.mpr fun request inAfter => ?_
  cases effect with
  | same requests => exact unchanged request (requests ▸ inAfter)
  | submitted _ new =>
    rcases (Table.mem_insert? new).mp inAfter with old | rfl
    · exact unchanged request old
    · have absent : before.joinRequests.lookup request.id = none := Table.insert?_absent new
      simp [absent]
  | @closed ending requests =>
    obtain ⟨old, inTable, rfl⟩ := (mem_of_closed requests).mp inAfter
    by_cases selected : ending.selects old = true
    · have found : before.joinRequests.lookup old.id = some old := Table.lookup_key inTable
      have terminal : (ending.change old).status ≠ .pending := by
        simp [Closing.change, selected, ending.decision.status_ne_pending]
      obtain ⟨decision, decided, status⟩ := kept.decided _ inAfter terminal
      simp only [Closing.selects, decide_eq_true_eq] at selected
      rw [change_id] at decided ⊢
      simp [found, decided, status, selected.2, terminal]
    · have same : ending.change old = old := if_neg selected
      rw [same]
      exact unchanged old inTable

theorem JoinsKept.execute (kept : db.JoinsKept) (done : db.organization.execute lowerCase operation = .ok after) :
    ∃ decisions, db.execute lowerCase operation = .ok { organization := after, decisions } ∧
      JoinsKept { organization := after, decisions } := by
  obtain ⟨closing, closes, effect⟩ := requestsEffect_execute done
  obtain ⟨decisions, inserted⟩ := kept.accepts closing
  have keptAfter := kept.effect done closes effect inserted
  refine ⟨decisions, ?_, keptAfter⟩
  exact Except.bind_ok_iff.mpr ⟨after, done, Except.bind_ok_iff.mpr ⟨closing, closes,
    Except.bind_ok_iff.mpr ⟨decisions, Except.orThrow_ok_iff.mpr inserted,
      Except.bind_ok_iff.mpr ⟨(), Except.ensure_ok_iff.mpr (terminalAllowed_of_kept effect keptAfter),
        rfl⟩⟩⟩⟩

theorem execute_organization {db' : JoinDatabase} (done : db.execute lowerCase operation = .ok db') :
    db.organization.execute lowerCase operation = .ok db'.organization := by
  obtain ⟨organization, accepted, done⟩ := Except.bind_ok_iff.mp done
  obtain ⟨closing, -, done⟩ := Except.bind_ok_iff.mp done
  obtain ⟨decisions, -, done⟩ := Except.bind_ok_iff.mp done
  obtain ⟨_, -, done⟩ := Except.bind_ok_iff.mp done
  cases Except.pure_ok_iff.mp done
  exact accepted

theorem JoinsKept.step (kept : db.JoinsKept) (lowerCase : String → String)
    (operation : OrganizationOperation) : ((joinMachine lowerCase).step db operation).JoinsKept ∧
      ((joinMachine lowerCase).step db operation).organization =
        (organizationMachine lowerCase).step db.organization operation := by
  simp only [joinMachine, organizationMachine]
  cases done : db.organization.execute lowerCase operation with
  | ok organization =>
    obtain ⟨decisions, accepted, keptAfter⟩ := kept.execute done
    simp [accepted, keptAfter]
  | error failure =>
    have rejected : db.execute lowerCase operation = .error failure := by
      simp only [JoinDatabase.execute, done]
      rfl
    simp [rejected, kept]

theorem joinsKept_run (lowerCase : String → String) (operations : List OrganizationOperation) :
    ((joinMachine lowerCase).run .empty operations).JoinsKept :=
  Machine.run_invariant (fun _ operation kept => (kept.step lowerCase operation).1) .empty operations

theorem run_organization (kept : db.JoinsKept) (lowerCase : String → String)
    (operations : List OrganizationOperation) :
    ((joinMachine lowerCase).run db operations).organization =
      (organizationMachine lowerCase).run db.organization operations := by
  induction operations generalizing db with
  | nil => rfl
  | cons operation rest ih =>
    obtain ⟨keptNext, same⟩ := kept.step lowerCase operation
    rw [Machine.run_cons, Machine.run_cons, ← same]
    exact ih keptNext

/-- After every run: one pending request for a user and a scope at most, none of a direct member
    and none for an archived scope, one decision with the status of every request that has ended,
    and none that its requester reviews. -/
theorem joins_of_run (lowerCase : String → String) (operations : List OrganizationOperation) :
    let db := (joinMachine lowerCase).run .empty operations
    (∀ left right, db.organization.IsPending left → db.organization.IsPending right →
        left.userId = right.userId → left.scopeId = right.scopeId → left = right) ∧
      (∀ request, db.organization.IsPending request →
        db.organization.selectMembership request.scopeId request.userId = none ∧
        ∃ scope, db.organization.managedScopes.lookup request.scopeId = some scope ∧ scope.status = .active) ∧
      (∀ request ∈ db.organization.joinRequests, request.status ≠ .pending →
        ∃ decision ∈ db.decisions, decision.requestId = request.id ∧ decision.decision.status = request.status ∧
          ∀ other ∈ db.decisions, other.requestId = request.id → other = decision) ∧
      ∀ actorUserId requestId decision reason decidedAt after,
        db.execute lowerCase (.decideOrganizationJoinRequest actorUserId requestId decision reason
          decidedAt) = .ok after →
        ∃ request, db.organization.joinRequests.lookup requestId = some request ∧ request.userId ≠ actorUserId := by
  intro db
  have kept : db.JoinsKept := joinsKept_run lowerCase operations
  refine ⟨kept.provenance.single, ?_, ?_, ?_⟩
  · intro request pending
    exact ⟨kept.provenance.waiting request pending, kept.available request pending⟩
  · intro request inTable ended
    obtain ⟨decision, found, status⟩ := kept.decided request inTable ended
    obtain ⟨inDecisions, same⟩ := Table.lookup_eq_some_iff.mp found
    refine ⟨decision, inDecisions, same, status, fun other inOther owned => ?_⟩
    exact Table.unique inOther inDecisions (owned.trans same.symm)
  · intro actorUserId requestId decision reason decidedAt after done
    exact (OrganizationDatabase.decide_checked (execute_organization done)).1

/-- An employee asks to join a team that an administrator has made. -/
def oneRequest : List OrganizationOperation :=
  [.upsertPrincipal ⟨⟨"alice", "alice", none, .active, .member⟩, none⟩,
    .upsertPrincipal ⟨⟨"bob", "bob", none, .active, .member⟩, none⟩,
    .setUserGlobalRole "alice" .admin,
    .createManagedScope "alice" .team "Team" none "t" 0,
    .submitOrganizationJoinRequest "r" "bob" "scope-t" "please"]

theorem oneRequest_reviewed : ∃ request,
    ((joinMachine id).run .empty oneRequest).organization.joinRequests.lookup "r" = some request ∧
      request.userId ≠ "alice" :=
  (joins_of_run id oneRequest).2.2.2 "alice" "r" .approved "welcome" 1 _ rfl

end JoinDatabase

end PlatformClaw.Organization
