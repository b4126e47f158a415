import PlatformClaw.Library.Machine
import PlatformClaw.Library.RecencyMap
import PlatformClaw.Library.ScriptSet
import PlatformClaw.Reef.PeerTrust

/-! # Notices of rejected messages

A message that a peer rejects leaves a rejection on its delivery record. `ReefReceiptNotifier` tells
the agent of it, at most once with leave to resend; when the last leave was given is kept in a
bounded cache of the peers, in a reservation on the delivery, and, once the notice is through, in the
state of the peer. The functions are those of the notifier and of the trust store it is given; a
handle stands for its normal form.
-/

namespace PlatformClaw.Reef

structure ReefPeerIdentity where
  ed25519PublicKey : String
  x25519PublicKey : String
  keyEpoch : Int
deriving DecidableEq, Repr

def matchesReefPeerIdentity (current : Option ReefPeerTrust) (expected : ReefPeerIdentity) : Bool :=
  current.any fun trust =>
    !trust.safetyNumberChanged &&
      (⟨trust.ed25519PublicKey, trust.x25519PublicKey, trust.keyEpoch⟩ : ReefPeerIdentity) = expected

structure ReefOutboundRejection where
  category : Option String
  notice : Option ReefRejectionNoticeState
deriving DecidableEq, Repr

structure ReefOutboundDelivery where
  recipient : ReefPeerIdentity
  textHash : Option String
  resendDisabled : Bool
  rejection : Option ReefOutboundRejection
deriving DecidableEq, Repr

/-- The record of a message id; ids are never used twice. -/
inductive DeliverySlot
  | unsent
  | held (delivery : ReefOutboundDelivery)
  | gone
deriving DecidableEq, Repr

namespace DeliverySlot

/-- The reservation that the record holds. -/
def notice : DeliverySlot → Option ReefRejectionNoticeState
  | .held delivery => delivery.rejection.bind ReefOutboundRejection.notice
  | .unsent | .gone => none

/-- `recordOutboundDelivery`, which throws on a record that is there. -/
def record (slot : DeliverySlot) (recipient : ReefPeerIdentity) (textHash : Option String)
    (resendDisabled : Bool) : DeliverySlot :=
  match slot with
  | .unsent => .held { recipient, textHash, resendDisabled, rejection := none }
  | .held _ | .gone => slot

/-- `recordOutboundRejection`. The rejection of a resend comes with its reservation. -/
def reject (slot : DeliverySlot) (category : Option String) (now : Nat) : DeliverySlot :=
  match slot with
  | .held { recipient, textHash, resendDisabled, rejection := none } =>
    .held
      { recipient
        textHash
        resendDisabled
        rejection := some
          { category
            notice := if resendDisabled then some ⟨now, none⟩ else none } }
  | .held _ | .unsent | .gone => slot

/-- The update of `reserveOutboundRejectionNotice`: the record after it, and the reservation that was
there. It throws without a rejection of the same recipient. -/
def reserve (slot : DeliverySlot) (recipient : ReefPeerIdentity) (state : ReefRejectionNoticeState) :
    Option (DeliverySlot × Option ReefRejectionNoticeState) :=
  match slot with
  | .held { recipient := pinned, textHash, resendDisabled, rejection := some { category, notice } } =>
    if pinned ≠ recipient then none
    else
      match notice with
      | some existing => some (slot, some existing)
      | none =>
        some (.held
            { recipient := pinned
              textHash
              resendDisabled
              rejection := some { category, notice := some state } }, none)
  | .held _ | .unsent | .gone => none

end DeliverySlot

structure ReefDeliveryRejection where
  id : String
  peer : String
  recipient : ReefPeerIdentity
  textHash : Option String
  category : Option String
  reservedNotice : Option ReefRejectionNoticeState
deriving DecidableEq, Repr

structure ReefRejectionNotice where
  text : String
  peer : String
  messageId : String
  recipient : ReefPeerIdentity
  originalTextHash : Option String
  allowResend : Bool
deriving DecidableEq, Repr

structure ReefPeerNoticeState where
  lastRejectionAt : Option Nat := none
  lastResendAt : Option Nat := none
  resendBlocked : Bool := false
deriving DecidableEq, Repr

structure ReefNoticePlan where
  notice : ReefRejectionNotice
  state : ReefRejectionNoticeState
deriving DecidableEq, Repr

def MAX_REJECTION_TRACKED : Nat := 1024
def REJECTION_RESEND_COOLDOWN_MS : Nat := 15 * 60 * 1000
def REJECTION_NOTICE_RETRY_BASE_MS : Nat := 1000
def REJECTION_NOTICE_RETRY_MAX_MS : Nat := 60000

def rejectionNoticeRetryDelay (retryAttempt : Nat) : Nat :=
  min (REJECTION_NOTICE_RETRY_BASE_MS * Nat.pow 2 (min retryAttempt 6)) REJECTION_NOTICE_RETRY_MAX_MS

/-- `rejectionKey`. -/
def ReefDeliveryRejection.key (rejection : ReefDeliveryRejection) : String :=
  rejection.peer ++ "\n" ++ rejection.id

def noticeText (rejection : ReefDeliveryRejection) (allowResend : Bool) : String :=
  if rejection.category = some "guard_deny" then
    if allowResend then
      "Your Reef message to @" ++ rejection.peer ++
        " was rejected by the peer's inbound guard (message " ++ rejection.id ++
        "). Rephrase it at most once and resend if still appropriate; do not retry unchanged text. " ++
        "If that retry is also rejected, stop and wait for owner guidance."
    else
      "Another Reef message to @" ++ rejection.peer ++
        " was rejected by the peer's inbound guard (message " ++ rejection.id ++
        "). Stop automatic retries and wait for owner guidance."
  else
    "Your Reef message to @" ++ rejection.peer ++ " was rejected before delivery (message " ++
      rejection.id ++ "). Stop automatic retries and wait for owner guidance."

def buildNotice (rejection : ReefDeliveryRejection) (allowResend : Bool) : ReefRejectionNotice where
  text := noticeText rejection allowResend
  peer := rejection.peer
  messageId := rejection.id
  recipient := rejection.recipient
  originalTextHash := rejection.textHash.filter (· ≠ "")
  allowResend := allowResend

/-- Of two times of leave the later one. -/
def laterResend (current persisted : Option Nat) : Option Nat :=
  if current.isSome ∨ persisted.isSome then some (max (current.getD 0) (persisted.getD 0)) else none

def mergeStates (current : Option ReefRejectionNoticeState) (persisted : ReefRejectionNoticeState) :
    ReefRejectionNoticeState where
  lastRejectionAt :=
    max ((current.map ReefRejectionNoticeState.lastRejectionAt).getD 0) persisted.lastRejectionAt
  lastResendAt :=
    laterResend (current.bind ReefRejectionNoticeState.lastResendAt) persisted.lastResendAt

namespace ReefPeerNoticeState

/-- What `touchPeerState` makes of the durable state. -/
def loaded (persisted : Option ReefRejectionNoticeState) : ReefPeerNoticeState where
  lastRejectionAt := persisted.map ReefRejectionNoticeState.lastRejectionAt
  lastResendAt := persisted.bind ReefRejectionNoticeState.lastResendAt

/-- `snapshotState`. -/
def snapshot (state : ReefPeerNoticeState) : Option ReefRejectionNoticeState :=
  state.lastRejectionAt.map fun lastRejectionAt => ⟨lastRejectionAt, state.lastResendAt⟩

/-- `applyState`. -/
def apply (target : ReefPeerNoticeState) (state : ReefRejectionNoticeState) : ReefPeerNoticeState :=
  { target with lastRejectionAt := some state.lastRejectionAt, lastResendAt := state.lastResendAt }

/-- What a recovered reservation leaves. -/
def recover (target : ReefPeerNoticeState) (reserved : ReefRejectionNoticeState) : ReefPeerNoticeState :=
  target.apply (mergeStates target.snapshot reserved)

end ReefPeerNoticeState

/-- A time is less than a cooldown ago. -/
def coolingDown (now : Nat) (last : Option Nat) : Bool :=
  last.any fun last => now < last + REJECTION_RESEND_COOLDOWN_MS

/-- Whether a notice without a reservation gives leave to resend. -/
def allowsResend (now : Nat) (rejection : ReefDeliveryRejection)
    (previous : Option ReefRejectionNoticeState) (resendBlocked : Bool) : Bool :=
  !resendBlocked && rejection.category = some "guard_deny" && rejection.textHash.isSome &&
    !coolingDown now (previous.map ReefRejectionNoticeState.lastRejectionAt) &&
    !coolingDown now (previous.bind ReefRejectionNoticeState.lastResendAt)

def planNotice (now : Nat) (rejection : ReefDeliveryRejection)
    (previous reserved : Option ReefRejectionNoticeState) (resendBlocked : Bool) : ReefNoticePlan :=
  match reserved with
  | some reserved =>
    { notice := buildNotice rejection false
      state := mergeStates previous reserved }
  | none =>
    { notice := buildNotice rejection (allowsResend now rejection previous resendBlocked)
      state :=
        { lastRejectionAt :=
            max ((previous.map ReefRejectionNoticeState.lastRejectionAt).getD 0) now
          lastResendAt :=
            if allowsResend now rejection previous resendBlocked then some now
            else previous.bind ReefRejectionNoticeState.lastResendAt } }

/-- An entry of `peerStates`. The objects are numbered: a dispatch goes on with the object it began
with, also when the cache has another one for the peer by then. -/
structure CachedPeer where
  object : Nat
  state : ReefPeerNoticeState
deriving DecidableEq, Repr

/-- A task of the queue of a peer. -/
inductive NoticeTask
  /-- The next rejection of a batch, and those that the batch goes on with. -/
  | notify (rejection : ReefDeliveryRejection) (rest : List ReefDeliveryRejection)
  /-- A scheduled retry of a notice. -/
  | renotify (rejection : ReefDeliveryRejection) (retryAttempt : Nat)
  /-- A scheduled retry of `completeNotice`. -/
  | recomplete (rejection : ReefDeliveryRejection) (state : ReefRejectionNoticeState)
      (retryAttempt : Nat)
deriving DecidableEq, Repr

def NoticeTask.rejection : NoticeTask → ReefDeliveryRejection
  | .notify rejection _ | .renotify rejection _ | .recomplete rejection _ _ => rejection

structure NoticeTimer where
  delayMs : Nat
  task : NoticeTask
deriving DecidableEq, Repr

/-- A notice that the agent works on. -/
structure NoticeDispatch where
  rejection : ReefDeliveryRejection
  retryAttempt : Nat
  rest : List ReefDeliveryRejection
  object : Nat
  state : ReefRejectionNoticeState
deriving DecidableEq, Repr

/-- A notice that was dispatched, when, and whether its reservation was stored before. -/
structure SentNotice where
  notice : ReefRejectionNotice
  sentAt : Nat
  reserved : Bool
deriving DecidableEq, Repr

/-- What a step meets. -/
structure NoticeMoment where
  now : Nat
  /-- `loadState` does not throw. -/
  loads : Bool := true
  /-- `reserve` does not throw. -/
  reserves : Bool := true
  /-- The process lives on after the reservation. -/
  survives : Bool := true
  /-- The state of the peer can be written. -/
  writes : Bool := true
  /-- The delivery record can be deleted. -/
  deletes : Bool := true
  /-- `schedule` does not throw. -/
  schedules : Bool := true
deriving DecidableEq, Repr

/-- The stores, and the notifier of the running process. -/
structure NoticeWorld where
  peers : String → ReefPeerState
  deliveries : String → String → DeliverySlot
  /-- The time of the last event. -/
  clock : Nat := 0
  aborted : Bool := false
  completed : ScriptSet := Table.empty
  inFlight : ScriptSet := Table.empty
  peerStates : ScriptMap CachedPeer := ScriptMap.empty
  /-- How many objects were made. -/
  objects : Nat := 0
  peerQueues : String → List NoticeTask := fun _ => []
  dispatching : String → Option NoticeDispatch := fun _ => none
  timers : List NoticeTimer := []
  sent : List SentNotice := []

inductive NoticeEvent
  /-- `notifyRejections`; the states of the peers in `failing` cannot be loaded. -/
  | batch (now : Nat) (rejections : List ReefDeliveryRejection) (failing : List String)
  /-- The next task of the peer's queue starts. -/
  | run (peer : String) (moment : NoticeMoment)
  /-- The dispatch of the peer ends. -/
  | dispatched (peer : String) (succeeds : Bool) (moment : NoticeMoment)
  /-- A timer fires. -/
  | fired (index : Nat)
  | abort
  | restart
  /-- A message is sent. -/
  | messageSent (peer id : String) (recipient : ReefPeerIdentity) (textHash : Option String)
      (resendDisabled : Bool)
  /-- A receipt rejects a message. -/
  | rejected (peer id : String) (category : Option String) (now : Nat)
  /-- A delivery record expires or is discarded. -/
  | dropped (peer id : String)
  /-- The keys of a peer are pinned. -/
  | pinned (peer : String) (trust : ReefPeerTrust)
  /-- The trust in a peer is removed. -/
  | revoked (peer : String)
deriving DecidableEq, Repr

namespace NoticeWorld

def setPeer (world : NoticeWorld) (peer : String) (state : ReefPeerState) : NoticeWorld :=
  { world with peers := fun other => if other = peer then state else world.peers other }

def setDelivery (world : NoticeWorld) (peer id : String) (slot : DeliverySlot) : NoticeWorld :=
  { world with
    deliveries := fun otherPeer otherId =>
      if otherPeer = peer ∧ otherId = id then slot else world.deliveries otherPeer otherId }

def setQueue (world : NoticeWorld) (peer : String) (tasks : List NoticeTask) : NoticeWorld :=
  { world with peerQueues := fun other => if other = peer then tasks else world.peerQueues other }

def setDispatching (world : NoticeWorld) (peer : String) (dispatch : Option NoticeDispatch) : NoticeWorld :=
  { world with
    dispatching := fun other => if other = peer then dispatch else world.dispatching other }

/-- Everything in memory is lost. -/
def restart (world : NoticeWorld) : NoticeWorld where
  peers := world.peers
  deliveries := world.deliveries
  clock := world.clock
  objects := world.objects
  sent := world.sent

/-- `runForPeer`. -/
def runForPeer (world : NoticeWorld) (task : NoticeTask) : NoticeWorld :=
  world.setQueue task.rejection.peer (world.peerQueues task.rejection.peer ++ [task])

/-- A batch goes on with its next rejection. -/
def proceed (world : NoticeWorld) : List ReefDeliveryRejection → NoticeWorld
  | [] => world
  | rejection :: rest => world.runForPeer (.notify rejection rest)

def rememberPeerState (world : NoticeWorld) (peer : String) (cached : CachedPeer) : NoticeWorld :=
  { world with peerStates := world.peerStates.remember MAX_REJECTION_TRACKED peer cached }

def cacheNew (world : NoticeWorld) (peer : String) (state : ReefPeerNoticeState) : NoticeWorld :=
  { world with objects := world.objects + 1 }.rememberPeerState peer ⟨world.objects, state⟩

/-- `touchPeerState`, or `none` when it throws. -/
def touchPeerState (world : NoticeWorld) (peer : String) (loads : Bool) : Option (NoticeWorld × CachedPeer) :=
  match world.peerStates.get peer with
  | some cached => some (world.rememberPeerState peer cached, cached)
  | none =>
    if loads then
      some (world.cacheNew peer (.loaded (world.peers peer).rejectionNotice),
        ⟨world.objects, .loaded (world.peers peer).rejectionNotice⟩)
    else none

/-- The reservations of a peer in a batch. -/
def recovered (rejections : List ReefDeliveryRejection) (peer : String) : List ReefRejectionNoticeState :=
  (rejections.filter fun rejection => rejection.peer = peer).filterMap ReefDeliveryRejection.reservedNotice

/-- The peers with reservations in a batch. -/
def recoveredPeers (rejections : List ReefDeliveryRejection) : List String :=
  (ScriptSet.ofList ((rejections.filter fun rejection => rejection.reservedNotice.isSome).map
    ReefDeliveryRejection.peer)).rows

def seedPeer (rejections : List ReefDeliveryRejection) (failing : List String)
    (world : NoticeWorld) (peer : String) : NoticeWorld :=
  match world.touchPeerState peer (!failing.contains peer) with
  | some (touched, cached) =>
    touched.rememberPeerState peer
      { cached with
        state := (recovered rejections peer).foldl ReefPeerNoticeState.recover cached.state }
  | none =>
    world.cacheNew peer ((recovered rejections peer).foldl ReefPeerNoticeState.recover { resendBlocked := true })

def seedRecoveredStates (world : NoticeWorld) (rejections : List ReefDeliveryRejection)
    (failing : List String) : NoticeWorld :=
  (recoveredPeers rejections).foldl (seedPeer rejections failing) world

def scheduleRetry (world : NoticeWorld) (task : NoticeTask) (retryAttempt : Nat) (schedules : Bool) : NoticeWorld :=
  if world.aborted = true ∨ schedules = false then
    { world with inFlight := world.inFlight.remove task.rejection.key }
  else
    { world with timers := world.timers ++ [⟨rejectionNoticeRetryDelay retryAttempt, task⟩] }

def scheduleNotificationRetry (world : NoticeWorld) (rejection : ReefDeliveryRejection)
    (retryAttempt : Nat) (schedules : Bool) : NoticeWorld :=
  world.scheduleRetry (.renotify rejection retryAttempt) retryAttempt schedules

/-- `reserveOutboundRejectionNotice`, or `none` when it throws. -/
def reserve (world : NoticeWorld) (rejection : ReefDeliveryRejection)
    (state : ReefRejectionNoticeState) (reserves : Bool) :
    Option (NoticeWorld × Option ReefRejectionNoticeState) :=
  if reserves = false ∨
      matchesReefPeerIdentity (world.peers rejection.peer).trust rejection.recipient = false then none
  else
    ((world.deliveries rejection.peer rejection.id).reserve rejection.recipient state).map
      fun reserved => (world.setDelivery rejection.peer rejection.id reserved.1, reserved.2)

/-- The notice is handed to the agent. -/
def dispatch (world : NoticeWorld) (rejection : ReefDeliveryRejection) (retryAttempt : Nat)
    (rest : List ReefDeliveryRejection) (object : Nat) (reserved : Bool) (now : Nat)
    (plan : ReefNoticePlan) : NoticeWorld :=
  { world.setDispatching rejection.peer
      (some { rejection, retryAttempt, rest, object, state := plan.state }) with
    sent := world.sent ++ [⟨plan.notice, now, reserved⟩] }

def notifyCached (world : NoticeWorld) (rejection : ReefDeliveryRejection) (retryAttempt : Nat)
    (rest : List ReefDeliveryRejection) (moment : NoticeMoment) (cached : CachedPeer) :
    NoticeWorld :=
  match world.reserve rejection
      (planNotice moment.now rejection cached.state.snapshot rejection.reservedNotice
        cached.state.resendBlocked).state moment.reserves with
  | none => (world.scheduleNotificationRetry rejection retryAttempt moment.schedules).proceed rest
  | some (reserved, existing) =>
    if moment.survives then
      reserved.dispatch rejection retryAttempt rest cached.object existing.isSome moment.now
        (planNotice moment.now rejection cached.state.snapshot
          (existing.or rejection.reservedNotice) cached.state.resendBlocked)
    else reserved.restart

def notifyRejection (world : NoticeWorld) (rejection : ReefDeliveryRejection) (retryAttempt : Nat)
    (rest : List ReefDeliveryRejection) (moment : NoticeMoment) : NoticeWorld :=
  if world.completed.rows.contains rejection.key = true ∨
      world.inFlight.rows.contains rejection.key = true then world.proceed rest
  else
    match { world with inFlight := world.inFlight.add rejection.key }.touchPeerState rejection.peer
        moment.loads with
    | none =>
      ({ world with inFlight := world.inFlight.add rejection.key }.scheduleNotificationRetry
        rejection retryAttempt moment.schedules).proceed rest
    | some (touched, cached) => touched.notifyCached rejection retryAttempt rest moment cached

def markCompleted (world : NoticeWorld) (rejection : ReefDeliveryRejection) : NoticeWorld :=
  { world with
    inFlight := world.inFlight.remove rejection.key
    completed :=
      if MAX_REJECTION_TRACKED < ((world.completed.remove rejection.key).add rejection.key).rows.length then
        (((world.completed.remove rejection.key).add rejection.key).rows.head?).elim
          ((world.completed.remove rejection.key).add rejection.key)
          ((world.completed.remove rejection.key).add rejection.key).remove
      else (world.completed.remove rejection.key).add rejection.key }

/-- The first write of `completeOutboundRejection`. -/
def recordNotice (world : NoticeWorld) (peer : String) (state : ReefRejectionNoticeState) : NoticeWorld :=
  world.setPeer peer
    { world.peers peer with
      rejectionNotice := some (mergeStates (world.peers peer).rejectionNotice state) }

/-- The second one: the record goes if it holds a reservation, and must be gone. -/
def deleteReservation (world : NoticeWorld) (peer id : String) : Option NoticeWorld :=
  match world.deliveries peer id with
  | .held delivery =>
    if (DeliverySlot.held delivery).notice.isSome then some (world.setDelivery peer id .gone)
    else none
  | .unsent | .gone => some world

def completeNotice (world : NoticeWorld) (rejection : ReefDeliveryRejection)
    (state : ReefRejectionNoticeState) (retryAttempt : Nat) (moment : NoticeMoment) : NoticeWorld :=
  if moment.writes = false then
    world.scheduleRetry (.recomplete rejection state retryAttempt) retryAttempt moment.schedules
  else if moment.deletes = false then
    (world.recordNotice rejection.peer state).scheduleRetry
      (.recomplete rejection state retryAttempt) retryAttempt moment.schedules
  else
    match (world.recordNotice rejection.peer state).deleteReservation rejection.peer rejection.id with
    | none =>
      (world.recordNotice rejection.peer state).scheduleRetry
        (.recomplete rejection state retryAttempt) retryAttempt moment.schedules
    | some deleted => deleted.markCompleted rejection

/-- `applyState` on the object of a dispatch: the cache sees it if it still has that object. -/
def applyState (world : NoticeWorld) (peer : String) (object : Nat)
    (state : ReefRejectionNoticeState) : NoticeWorld :=
  match world.peerStates.get peer with
  | some cached =>
    if cached.object = object then
      { world with
        peerStates := world.peerStates.set peer { cached with state := cached.state.apply state } }
    else world
  | none => world

def endDispatch (world : NoticeWorld) (peer : String) (dispatch : NoticeDispatch)
    (succeeds : Bool) (moment : NoticeMoment) : NoticeWorld :=
  if succeeds then
    (((world.setDispatching peer none).applyState peer dispatch.object dispatch.state).completeNotice
      dispatch.rejection dispatch.state 0 moment).proceed dispatch.rest
  else
    (((world.setDispatching peer none).applyState peer dispatch.object
      dispatch.state).scheduleNotificationRetry dispatch.rejection dispatch.retryAttempt
        moment.schedules).proceed dispatch.rest

def startTask (world : NoticeWorld) (moment : NoticeMoment) : NoticeTask → NoticeWorld
  | .notify rejection rest => world.notifyRejection rejection 0 rest moment
  | .renotify rejection retryAttempt =>
    if world.aborted then { world with inFlight := world.inFlight.remove rejection.key }
    else
      { world with inFlight := world.inFlight.remove rejection.key }.notifyRejection rejection
        (retryAttempt + 1) [] moment
  | .recomplete rejection state retryAttempt =>
    if world.aborted then { world with inFlight := world.inFlight.remove rejection.key }
    else world.completeNotice rejection state (retryAttempt + 1) moment

def runTask (world : NoticeWorld) (peer : String) (moment : NoticeMoment) : NoticeWorld :=
  match world.dispatching peer, world.peerQueues peer with
  | none, task :: rest => (world.setQueue peer rest).startTask moment task
  | _, _ => world

def tick (world : NoticeWorld) (now : Nat) : NoticeWorld :=
  { world with clock := now }

def step (world : NoticeWorld) : NoticeEvent → NoticeWorld
  | .batch now rejections failing =>
    ((world.tick now).seedRecoveredStates rejections failing).proceed rejections
  | .run peer moment => (world.tick moment.now).runTask peer moment
  | .dispatched peer succeeds moment =>
    (world.dispatching peer).elim (world.tick moment.now) fun dispatch =>
      (world.tick moment.now).endDispatch peer dispatch succeeds moment
  | .fired index =>
    (world.timers[index]?).elim world fun timer =>
      { world with timers := world.timers.eraseIdx index }.runForPeer timer.task
  | .abort => { world with aborted := true }
  | .restart => world.restart
  | .messageSent peer id recipient textHash resendDisabled =>
    world.setDelivery peer id ((world.deliveries peer id).record recipient textHash resendDisabled)
  | .rejected peer id category now =>
    (world.tick now).setDelivery peer id ((world.deliveries peer id).reject category now)
  | .dropped peer id => world.setDelivery peer id .gone
  | .pinned peer trust =>
    world.setPeer peer
      { world.peers peer with revision := (world.peers peer).revision + 1, trust := some trust }
  | .revoked peer => world.setPeer peer (world.peers peer).remove

def machine : Machine NoticeWorld NoticeEvent where
  step := step

end NoticeWorld

end PlatformClaw.Reef
