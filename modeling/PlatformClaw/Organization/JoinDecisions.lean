import PlatformClaw.Organization.DirectorySync

/-! # Decisions on join requests

`organization_join_request_decisions`: every operation that ends pending requests
writes a decision for each of them, in the same transaction. The table is kept
beside the database of the other operations, with the triggers of the schema.
-/

namespace PlatformClaw.Organization

open Except (ensure orThrow)

inductive JoinDecision where
  | approved
  | rejected
  | cancelled
  deriving Repr, DecidableEq

def JoinDecision.status : JoinDecision → JoinRequestStatus
  | .approved => .approved
  | .rejected => .rejected
  | .cancelled => .cancelled

def ReviewDecision.decision : ReviewDecision → JoinDecision
  | .approved => .approved
  | .rejected => .rejected

structure JoinDecisionRow where
  requestId : String
  decision : JoinDecision
  actorUserId : String
  reason : String
  deriving Repr, DecidableEq

abbrev JoinDecisionRow.key (row : JoinDecisionRow) : String := row.requestId

structure JoinDatabase where
  organization : OrganizationDatabase
  decisions : Table JoinDecisionRow.key
  deriving DecidableEq

def JoinDatabase.empty : JoinDatabase where
  organization := .empty
  decisions := Table.empty

/-- The pending requests that an operation ends, and how. -/
structure Closing where
  concerned : JoinRequestRow → Bool
  decision : JoinDecision
  actorUserId : String
  reason : String

namespace Closing

def selects (closing : Closing) (request : JoinRequestRow) : Bool :=
  closing.concerned request ∧ request.status = .pending

def change (closing : Closing) (request : JoinRequestRow) : JoinRequestRow :=
  if closing.selects request then { request with status := closing.decision.status } else request

def row (closing : Closing) (request : JoinRequestRow) : JoinDecisionRow where
  requestId := request.id
  decision := closing.decision
  actorUserId := closing.actorUserId
  reason := closing.reason

end Closing

namespace OrganizationDatabase

/-- The requests an operation ends; of `decide` and `cancel` it is the one they name. -/
def closing (db : OrganizationDatabase) (lowerCase : String → String) :
    OrganizationOperation → Except MutationError (Option Closing)
  | .archiveManagedScope actorUserId scopeId _ _ _ => do
      let scope ← db.requireScopeRow scopeId
      if scope.status = .archived then return none
      else
        let descendants ← db.descendantIds scope.id db.managedScopes.rows
        return some
          { concerned := fun request => request.scopeId ∈ scope.id :: descendants
            decision := .rejected, actorUserId, reason := "Owning scope archived" }
  | .setManagedScopeMembership actorUserId scopeId userId _ _ reason _ => do
      let reason ← boundedOrganizationReason reason "reason"
      return some
        { concerned := fun request => request.userId = userId ∧ request.scopeId = scopeId
          decision := .approved, actorUserId, reason }
  | .decideOrganizationJoinRequest actorUserId requestId decision reason _ => do
      let reason ← boundedOrganizationReason reason "reason"
      return some
        { concerned := fun request => request.id = requestId
          decision := decision.decision, actorUserId, reason }
  | .cancelOrganizationJoinRequest actorUserId requestId reason => do
      let reason ← boundedOrganizationReason reason "reason"
      return some
        { concerned := fun request => request.id = requestId
          decision := .cancelled, actorUserId, reason }
  | .syncDirectoryOrganization userId parsed isTestAccount drawn syncedAt expectedLastLoginAt => do
      let (result, _) ← db.syncDirectoryOrganization lowerCase userId parsed isTestAccount drawn
        syncedAt expectedLastLoginAt
      match result with
      | .skipped _ => return none
      | .synced scopeId =>
        -- Directory authority ends the now-satisfied request without a human reviewer.
        return some
          { concerned := fun request => request.userId = userId ∧ request.scopeId = scopeId
            decision := .cancelled, actorUserId := userId
            reason := "Membership supplied by ldap-login" }
  | _ => return none

def closed (db : OrganizationDatabase) : Option Closing → List JoinDecisionRow
  | none => []
  | some closing => (db.joinRequests.rows.filter closing.selects).map closing.row

end OrganizationDatabase

namespace JoinDatabase

/-- The trigger on the status: a request leaves `pending` once, with a decision that says so. -/
def terminalAllowed (before after : OrganizationDatabase) (decisions : Table JoinDecisionRow.key) : Bool :=
  after.joinRequests.rows.all fun request =>
    (before.joinRequests.lookup request.id).all fun old =>
      decide (old.status = request.status) || (decide (old.status = .pending ∧ request.status ≠ .pending) &&
          (decisions.lookup request.id).any fun decision =>
            decision.decision.status = request.status)

/-- The database an accepted call leaves. The requests that are decided are read as pending by
    the same transaction, as the trigger on decisions asks. -/
def execute (db : JoinDatabase) (lowerCase : String → String) (operation : OrganizationOperation) :
    Except MutationError JoinDatabase := do
  let organization ← db.organization.execute lowerCase operation
  let closing ← db.organization.closing lowerCase operation
  let decisions ← orThrow (db.decisions.insertAll? (db.organization.closed closing)) .constraint
  ensure (terminalAllowed db.organization organization decisions) .constraint
  return { organization, decisions }

end JoinDatabase

/-- The database as a machine: a rejected call rolls back. -/
def joinMachine (lowerCase : String → String) : Machine JoinDatabase OrganizationOperation where
  step db operation :=
    match db.execute lowerCase operation with
    | .ok changed => changed
    | .error _ => db

end PlatformClaw.Organization
