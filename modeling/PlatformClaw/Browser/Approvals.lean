import PlatformClaw.Library.Machine
import PlatformClaw.Library.ScriptMap
import PlatformClaw.Library.ScriptValue

/-! # Approvals of browser sessions

The approvals of `BrowserGatewayInteractiveOwnership`: events and replays bind
the id of an approval to the session it was shown in, and a browser may read or
resolve it only through that binding. Questions and suggested tasks have
registries of their own.
-/

namespace PlatformClaw.Browser

open ScriptValue (Record field setField asRecord asArray nonEmptyString)

/-- A browser as the ownership rules see it at the time of a call. -/
structure InteractiveAccess where
  agentId : String
  resolveAgentIdFromSessionKey : String → Option String
  canAccessSession : Option (String → Bool → Bool)

structure ApprovalBinding where
  agentId : String
  sessionKey : Option String
  kind : String
  allowedDecisions : List String
  deriving DecidableEq

inductive FailureCode where
  | invalidParams
  | crossAgentDenied
  | upstreamResultDenied
  deriving DecidableEq

structure InteractiveFailure where
  code : FailureCode
  message : String
  deriving DecidableEq

def maxOwnershipBindings : Nat := 4096

/-- The entries in the order they were bound in. -/
abbrev ApprovalOwners := ScriptMap ApprovalBinding

/-- The loop drops the oldest entry while there are too many. -/
def dropOldest : Nat → ApprovalOwners → ApprovalOwners
  | 0, registry => registry
  | rounds + 1, registry =>
    if maxOwnershipBindings < registry.rows.length then
      match registry.rows.head? with
      | none => registry
      | some oldest => if oldest.1 = "" then registry else dropOldest rounds (registry.remove oldest.1)
    else registry

def bindBounded (registry : ApprovalOwners) (id : String) (binding : ApprovalBinding) : ApprovalOwners :=
  let bound := (registry.remove id).set id binding
  dropOldest bound.rows.length bound

namespace InteractiveAccess

/-- `canAccessSession?.(sessionKey, true) !== false`. -/
def mayWrite (access : InteractiveAccess) (sessionKey : String) : Bool :=
  access.canAccessSession.all fun canAccess => canAccess sessionKey true

def owns (access : InteractiveAccess) (binding : ApprovalBinding) : Bool :=
  binding.agentId = access.agentId && binding.sessionKey.all fun sessionKey =>
    access.resolveAgentIdFromSessionKey sessionKey = some access.agentId && access.mayWrite sessionKey

end InteractiveAccess

def isSessionDecision : ScriptValue → Bool
  | .text decision => decision = "allow-once" || decision = "deny"
  | _ => false

/-- Persistent host policy is outside one user's session boundary. -/
def projectSessionApproval (approval : Record) : Option Record := do
  let presentation ← asRecord (field approval "presentation")
  let decisions ← asArray (field presentation "allowedDecisions")
  let allowedDecisions := decisions.filter isSessionDecision
  if allowedDecisions = [] then none
  else
    some (setField approval "presentation"
      (.object (setField presentation "allowedDecisions" (.array allowedDecisions))))

namespace ApprovalOwners

/-- The id and the binding of an approval that a browser may hold. -/
def approvalBinding? (access : InteractiveAccess) (sessionKey : String) (approval : Record) :
    Option (String × ApprovalBinding) := do
  let id ← nonEmptyString (field approval "id")
  let presentation ← asRecord (field approval "presentation")
  let kind ← nonEmptyString (field presentation "kind")
  let allowedDecisions := ((asArray (field presentation "allowedDecisions")).getD []).filterMap
    fun decision => nonEmptyString (some decision)
  if allowedDecisions = [] ∨
      access.resolveAgentIdFromSessionKey sessionKey ≠ some access.agentId ∨
      access.mayWrite sessionKey = false ∨
      (nonEmptyString (field presentation "agentId")).any (· ≠ access.agentId) then none
  else
    some (id, { agentId := access.agentId, sessionKey, kind, allowedDecisions })

def bindApproval (registry : ApprovalOwners) (access : InteractiveAccess) (sessionKey : String)
    (approval : Record) : Bool × ApprovalOwners :=
  match approvalBinding? access sessionKey approval with
  | none => (false, registry)
  | some (id, binding) => (true, bindBounded registry id binding)

def bindSessionApproval (registry : ApprovalOwners) (access : InteractiveAccess)
    (payload : Record) : Bool × ApprovalOwners :=
  match nonEmptyString (field payload "sessionKey"), asRecord (field payload "approval") with
  | some sessionKey, some approval =>
    if access.resolveAgentIdFromSessionKey sessionKey = some access.agentId then
      registry.bindApproval access sessionKey approval
    else (false, registry)
  | _, _ => (false, registry)

/-- A `session.approval` event for one browser: what it is sent, if anything. -/
def filterEvent (registry : ApprovalOwners) (access : InteractiveAccess)
    (payload : Option ScriptValue) : Option Record × ApprovalOwners :=
  let projected := do
    let payload ← asRecord payload
    let approval ← (asRecord (field payload "approval")).bind projectSessionApproval
    return setField payload "approval" (.object approval)
  match projected with
  | none => (none, registry)
  | some payload =>
    let bound := registry.bindSessionApproval access payload
    (if bound.1 then some payload else none, bound.2)

def replayApprovals (registry : ApprovalOwners) (access : InteractiveAccess) (sessionKey : String) :
    List ScriptValue → List Record × ApprovalOwners
  | [] => ([], registry)
  | approval :: rest =>
    match (asRecord (some approval)).bind projectSessionApproval with
    | none => registry.replayApprovals access sessionKey rest
    | some projected =>
      let bound := registry.bindApproval access sessionKey projected
      let later := bound.2.replayApprovals access sessionKey rest
      (if bound.1 then projected :: later.1 else later.1, later.2)

/-- The session of a replay that a browser may see, and its approvals. -/
def replayed (access : InteractiveAccess) (value : Option ScriptValue) :
    Except InteractiveFailure (Record × String × List ScriptValue) :=
  match asRecord value, nonEmptyString ((asRecord value).bind (field · "sessionKey")) with
  | some replay, some sessionKey =>
    if access.resolveAgentIdFromSessionKey sessionKey ≠ some access.agentId ∨
        access.mayWrite sessionKey = false then
      .error ⟨.upstreamResultDenied, "Gateway returned a foreign approval replay"⟩
    else
      match asArray (field replay "approvals") with
      | none => .error ⟨.upstreamResultDenied, "Gateway returned an invalid approval replay"⟩
      | some approvals => .ok (replay, sessionKey, approvals)
  | _, _ => .error ⟨.upstreamResultDenied, "Gateway returned a foreign approval replay"⟩

def projectApprovalReplay (registry : ApprovalOwners) (access : InteractiveAccess)
    (value : Option ScriptValue) : Except InteractiveFailure Record × ApprovalOwners :=
  match replayed access value with
  | .error failure => (.error failure, registry)
  | .ok (replay, sessionKey, approvals) =>
    let projected := registry.replayApprovals access sessionKey approvals
    (.ok (setField replay "approvals" (.array (projected.1.map .object))), projected.2)

end ApprovalOwners

/-- What is forwarded to the Gateway. -/
inductive ApprovalRequest where
  | get (id : String)
  | resolve (id kind decision : String)
  deriving DecidableEq

def requireId (value : Option ScriptValue) (method : String) : Except InteractiveFailure String :=
  match nonEmptyString value with
  | some id => .ok id
  | none => .error ⟨.invalidParams, method ++ " requires an id"⟩

namespace ApprovalOwners

def ownedBinding (registry : ApprovalOwners) (access : InteractiveAccess) (id : String) :
    Except InteractiveFailure ApprovalBinding :=
  match registry.get id with
  | some binding =>
    if access.owns binding then .ok binding
    else .error ⟨.crossAgentDenied, "approval is not bound to the browser agent"⟩
  | none => .error ⟨.crossAgentDenied, "approval is not bound to the browser agent"⟩

/-- `approval.get`, up to its request. -/
def getApproval (registry : ApprovalOwners) (access : InteractiveAccess) (params : Record) :
    Except InteractiveFailure (ApprovalBinding × ApprovalRequest) := do
  let id ← requireId (field params "id") "approval.get"
  let binding ← registry.ownedBinding access id
  return (binding, .get id)

/-- `approval.get`, once the Gateway has answered. -/
def gotApproval (access : InteractiveAccess) (id : String) (binding : ApprovalBinding)
    (result : Option ScriptValue) : Except InteractiveFailure Record :=
  let projected := (asRecord result).bind fun result =>
    (asRecord (field result "approval")).bind projectSessionApproval
  match projected with
  | none => .error ⟨.upstreamResultDenied, "Gateway returned a mismatched approval record"⟩
  | some projected =>
    if nonEmptyString (field projected "id") ≠ some id ∨
        nonEmptyString ((asRecord (field projected "presentation")).bind (field · "kind")) ≠
          some binding.kind ∨ access.owns binding = false then
      .error ⟨.upstreamResultDenied, "Gateway returned a mismatched approval record"⟩
    else .ok [("approval", .object projected)]

/-- `approval.resolve`, up to its request. -/
def resolveApproval (registry : ApprovalOwners) (access : InteractiveAccess) (params : Record) :
    Except InteractiveFailure (ApprovalBinding × ApprovalRequest) := do
  let id ← requireId (field params "id") "approval.resolve"
  let binding ← registry.ownedBinding access id
  match nonEmptyString (field params "kind"), nonEmptyString (field params "decision") with
  | some kind, some decision =>
    if kind = binding.kind ∧ decision ∈ binding.allowedDecisions then
      return (binding, .resolve id kind decision)
    else
      throw ⟨.invalidParams, "approval kind or decision does not match the session prompt"⟩
  | _, _ => throw ⟨.invalidParams, "approval kind or decision does not match the session prompt"⟩

/-- `approval.resolve`, once the Gateway has answered. -/
def resolvedApproval (access : InteractiveAccess) (binding : ApprovalBinding)
    (result : Option ScriptValue) : Except InteractiveFailure (Option Record) :=
  if access.owns binding = false then
    .error ⟨.crossAgentDenied, "approval is no longer bound to the browser agent"⟩
  else
    match asRecord result with
    | none => .ok none
    | some result =>
      match (asRecord (field result "approval")).bind projectSessionApproval with
      | none => .ok (some result)
      | some projected => .ok (some (setField result "approval" (.object projected)))

end ApprovalOwners

/-- What the ownership rules see, in any order and for any browsers. -/
inductive ApprovalEvent where
  | sessionApproval (access : InteractiveAccess) (payload : Option ScriptValue)
  | approvalReplay (access : InteractiveAccess) (value : Option ScriptValue)
  | get (access : InteractiveAccess) (params : Record)
  | resolve (access : InteractiveAccess) (params : Record)

/-- The bindings so far, and the requests that were forwarded with the browser they came from. -/
structure ApprovalGateway where
  owners : ApprovalOwners
  forwarded : List (InteractiveAccess × ApprovalRequest)

namespace ApprovalGateway

def fresh : ApprovalGateway := ⟨.empty, []⟩

def forward (gateway : ApprovalGateway) (access : InteractiveAccess)
    (request : Except InteractiveFailure (ApprovalBinding × ApprovalRequest)) : ApprovalGateway :=
  match request with
  | .error _ => gateway
  | .ok (_, request) => { gateway with forwarded := gateway.forwarded ++ [(access, request)] }

end ApprovalGateway

def approvalMachine : Machine ApprovalGateway ApprovalEvent where
  step gateway
    | .sessionApproval access payload =>
      { gateway with owners := (gateway.owners.filterEvent access payload).2 }
    | .approvalReplay access value =>
      { gateway with owners := (gateway.owners.projectApprovalReplay access value).2 }
    | .get access params => gateway.forward access (gateway.owners.getApproval access params)
    | .resolve access params =>
      gateway.forward access (gateway.owners.resolveApproval access params)

end PlatformClaw.Browser
