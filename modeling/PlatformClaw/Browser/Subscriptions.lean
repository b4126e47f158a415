import PlatformClaw.Library.Machine
import PlatformClaw.Library.ScriptJson
import PlatformClaw.Library.ScriptMap

/-! # Shared subscriptions to session messages

`BrowserGatewaySessionMessageSubscriptions`: browser connections share one
subscription per session with the Gateway. Operations run one after the other
behind a barrier, and await the Gateway in between; connections come and go at
any time. The maps of the registry are objects: an operation keeps the one it
has read while its connection is released.
-/

namespace PlatformClaw.Browser

/-- A session as a request names it. The Gateway's schema refuses an empty agent. -/
structure SessionRef where
  key : String
  agentId : Option String
  named : agentId ≠ some ""

structure SubscriptionParams where
  session : SessionRef
  includeApprovals : Bool

def subscriptionId (session : SessionRef) : String :=
  .ofList (ScriptJson.array [ScriptJson.string session.key, ScriptJson.optional ScriptJson.string session.agentId])

/-- What is sent to take a subscription back: an agent only if there is one. -/
def SubscriptionParams.withdrawn (params : SubscriptionParams) : SessionRef where
  key := params.session.key
  agentId := params.session.agentId.filter (· ≠ "")
  named := by simp [Option.filter_eq_some_iff]

inductive GatewayRequest where
  | subscribe (params : SubscriptionParams)
  | unsubscribe (session : SessionRef)

/-- The Gateway's side: the sessions it sends messages of. -/
def GatewayRequest.apply (upstream : List String) : GatewayRequest → List String
  | .subscribe params => subscriptionId params.session :: upstream
  | .unsubscribe session => upstream.filter (· ≠ subscriptionId session)

/-- What an operation does with the answer to its request. -/
inductive Continuation where
  | subscribed (connectionId : String) (params : SubscriptionParams)
  | undone
  | unsubscribed (connectionId id : String) (subscriptions : Option Nat)
  | released (rest : List (String × SubscriptionParams))

/-- A request on its way: applied by the Gateway or not yet. -/
structure Flight where
  request : GatewayRequest
  applied : Bool
  next : Continuation

/-- An operation that waits for the barrier. -/
inductive Operation where
  | subscribe (connectionId : String) (params : SubscriptionParams)
  | unsubscribe (connectionId : String) (session : SessionRef)
  | release (released : Option Nat)

/-- One of the map objects, named by position, has the session. -/
def hasSubscription (maps : List (ScriptMap SubscriptionParams)) (subscriptions : Nat) (id : String) : Bool :=
  maps[subscriptions]?.any fun map => map.has id

/-- The registry with its map objects, and the Gateway's side. -/
structure Registry where
  activeConnections : List String
  desired : ScriptMap Nat
  maps : List (ScriptMap SubscriptionParams)
  queue : List Operation
  running : Option Flight
  upstream : List String

namespace Registry

def fresh : Registry where
  activeConnections := []
  desired := .empty
  maps := []
  queue := []
  running := none
  upstream := []

def isDesiredElsewhere (registry : Registry) (id : String) (excluded : Option String) : Bool :=
  registry.desired.rows.any fun entry =>
    some entry.1 ≠ excluded && hasSubscription registry.maps entry.2 id

def enqueue (registry : Registry) (operation : Operation) : Registry :=
  { registry with queue := registry.queue ++ [operation] }

def registerConnection (registry : Registry) (connectionId : String) : Registry :=
  if connectionId = "" ∨ connectionId ∈ registry.activeConnections then registry
  else { registry with activeConnections := registry.activeConnections ++ [connectionId] }

def releaseConnection (registry : Registry) (connectionId : String) : Registry :=
  if connectionId = "" then registry
  else
    { registry with
      activeConnections := registry.activeConnections.filter (· ≠ connectionId)
      desired := registry.desired.remove connectionId }.enqueue
      (.release (registry.desired.get connectionId))

/-- Await the answer to a request. -/
def send (registry : Registry) (request : GatewayRequest) (next : Continuation) : Registry :=
  { registry with running := some { request, applied := false, next } }

/-- `subscriptions.set(…)` in the map of the connection, a new one if it has none. -/
def addSubscription (registry : Registry) (connectionId : String) (params : SubscriptionParams) : Registry :=
  let id := subscriptionId params.session
  match registry.desired.get connectionId with
  | some subscriptions =>
    { registry with maps := registry.maps.modify subscriptions fun map => map.set id params }
  | none =>
    { registry with
      maps := registry.maps ++ [ScriptMap.empty.set id params]
      desired := registry.desired.set connectionId registry.maps.length }

/-- `subscriptions?.delete(id)`; an empty map goes. -/
def dropSubscription (registry : Registry) (connectionId id : String) (subscriptions : Option Nat) : Registry :=
  match subscriptions with
  | none => registry
  | some subscriptions =>
    let dropped :=
      { registry with maps := registry.maps.modify subscriptions fun map => map.remove id }
    if dropped.maps[subscriptions]?.any fun map => map.rows.isEmpty then
      { dropped with desired := dropped.desired.remove connectionId }
    else dropped

/-- The loop over the map of a released connection, up to its next request. -/
def releaseNext (registry : Registry) : List (String × SubscriptionParams) → Registry
  | [] => { registry with running := none }
  | entry :: rest =>
    if registry.isDesiredElsewhere entry.1 none then registry.releaseNext rest
    else
      registry.send (.unsubscribe entry.2.withdrawn) (.released rest)

/-- An operation up to its first request. No operation changes the map of a released connection
    but the one before, so its entries are read here. -/
def start (registry : Registry) : Operation → Registry
  | .subscribe connectionId params =>
    if connectionId ∈ registry.activeConnections then
      registry.send (.subscribe params) (.subscribed connectionId params)
    else registry
  | .unsubscribe connectionId session =>
    let id := subscriptionId session
    let subscriptions := registry.desired.get connectionId
    if connectionId ∈ registry.activeConnections then
      if registry.isDesiredElsewhere id (some connectionId) then
        registry.dropSubscription connectionId id subscriptions
      else
        registry.send (.unsubscribe session) (.unsubscribed connectionId id subscriptions)
    else registry
  | .release released =>
    registry.releaseNext (((released.bind (registry.maps[·]?)).map (·.rows)).getD [])

/-- The operation after the answer to its request. -/
def resume (registry : Registry) : Continuation → Registry
  | .subscribed connectionId params =>
    if connectionId ∈ registry.activeConnections then
      { registry with running := none }.addSubscription connectionId params
    else if registry.isDesiredElsewhere (subscriptionId params.session) none then
      { registry with running := none }
    else
      registry.send (.unsubscribe params.withdrawn) .undone
  | .undone => { registry with running := none }
  | .unsubscribed connectionId id subscriptions =>
    { registry with running := none }.dropSubscription connectionId id subscriptions
  | .released rest => registry.releaseNext rest

/-- The next step behind the barrier: the Gateway applies the request, its answer arrives, or
    the next operation starts. -/
def advance (registry : Registry) : Registry :=
  match registry.running with
  | some flight =>
    if flight.applied then registry.resume flight.next
    else
      { registry with
        upstream := flight.request.apply registry.upstream
        running := some { flight with applied := true } }
  | none =>
    match registry.queue with
    | [] => registry
    | operation :: rest => { registry with queue := rest }.start operation

/-- The request fails, applied or not, and its operation with it. -/
def fail (registry : Registry) : Registry :=
  { registry with running := none }

end Registry

inductive RegistryEvent where
  | registerConnection (connectionId : String)
  | subscribe (connectionId : String) (params : SubscriptionParams)
  | unsubscribe (connectionId : String) (session : SessionRef)
  | releaseConnection (connectionId : String)
  | advance
  | fail

def registryMachine : Machine Registry RegistryEvent where
  step registry
    | .registerConnection connectionId => registry.registerConnection connectionId
    | .subscribe connectionId params => registry.enqueue (.subscribe connectionId params)
    | .unsubscribe connectionId session => registry.enqueue (.unsubscribe connectionId session)
    | .releaseConnection connectionId => registry.releaseConnection connectionId
    | .advance => registry.advance
    | .fail => registry.fail

end PlatformClaw.Browser
