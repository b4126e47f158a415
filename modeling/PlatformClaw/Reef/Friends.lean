import PlatformClaw.Library.Machine
import PlatformClaw.Library.ScriptMap
import PlatformClaw.Reef.PeerTrust

/-! # Friend operations

`ReefFriendManager` of any number of processes over one trust store and one
pairing list. An operation is cut at its awaits and at its calls on the two
stores; what it waits for next is its stage. The relay answers as it likes.
-/

namespace PlatformClaw.Reef

/-- `ReefPairingApproval`. -/
structure PairingApproval where
  entry : PairingEntry
  trustRevision : Nat
deriving DecidableEq

/-- One turn of the loop over the friendships, after the snapshot was taken. -/
structure ReconcileTurn where
  approvals : ScriptMap PairingApproval
  friend : RelayFriend
  /-- The friend's normalized handle. -/
  peer : String
  snapshot : ReefPeerState
  rest : List RelayFriend

/-- How far one of the two halves of a removal is. -/
inductive RevocationPart
  /-- Before `pairing.list()`, or before the relay's answer. -/
  | started
  /-- Entries of the pairing list yet to be looked at. -/
  | dropping (entries : List PairingEntry)
  /-- The relay has deleted the friendship; the trust is to be removed once more. -/
  | fencing
  /-- The trust was removed again, which left this revision. -/
  | fenced (revision : Nat)
  | settled
  | broken

inductive FriendStage
  -- `reconcile`
  | listing
  | listingApprovals (friends : List RelayFriend)
  | loading (friends : List RelayFriend) (approvals : ScriptMap PairingApproval)
      (entries : List PairingEntry)
  | discarding (friends : List RelayFriend) (approvals : ScriptMap PairingApproval)
      (entry : PairingEntry) (entries : List PairingEntry)
  | reconciling (approvals : ScriptMap PairingApproval) (rest : List RelayFriend)
  | discardingStale (turn : ReconcileTurn) (entry : PairingEntry)
  | marking (turn : ReconcileTurn)
  | forgettingRequest (turn : ReconcileTurn) (unneeded : Option PairingEntry)
  | discardingUnneeded (turn : ReconcileTurn) (entry : PairingEntry)
  | consuming (turn : ReconcileTurn) (entry : PairingEntry) (request : Option String)
  | responding (turn : ReconcileTurn) (consumed : PairingEntry) (request : Option String)
  | committing (turn : ReconcileTurn) (consumed : Option PairingEntry) (request : Option String)
  | rechecking (turn : ReconcileTurn)
  | severing (turn : ReconcileTurn)
  -- `request`
  | recording (peer : String)
  | asking (peer id : String)
  | rejecting (peer id : String)
  | checking (peer id : String) (asked : Bool)
  | undoing (peer : String)
  -- `remove`
  | removing (peer : String)
  | revoking (peer : String) (approvals relay : RevocationPart)
  | revoked (peer : String) (revision : Nat)
  -- `setAutonomy`
  | settingAutonomy (peer : String) (autonomy : ReefAutonomy)
  | done
  | failed

inductive FriendCall
  | reconcile
  | request (peer : String)
  | remove (peer : String)
  | setAutonomy (peer : String) (autonomy : ReefAutonomy)

/-- How what an operation waits for comes out. -/
inductive FriendInput
  /-- The relay or a store throws. -/
  | throws
  /-- The relay's friend list. -/
  | listed (friends : List RelayFriend)
  /-- The relay rejects a request: with a status from 400 to 499 other than 409. -/
  | rejected
  /-- It goes through; `id` is a fresh `randomUUID()` and `now` the clock. -/
  | goes (id : String) (now : Nat)

/-- A key pin, with what there was when it was made. -/
structure Pin where
  friend : RelayFriend
  /-- The trust revision that the commit found. -/
  revision : Nat
  hadTrust : Bool
  /-- The approval that this reconcile took out of the pairing list. -/
  consumed : Option PairingEntry
  /-- The outbound requests that the commit found. -/
  present : List String
deriving DecidableEq

/-- What happened for a peer since its last local removal. -/
structure Ledger where
  /-- The revision that the removal left. -/
  since : Nat
  /-- The outbound requests recorded. -/
  requests : List String
  /-- The approvals entered into the pairing list. -/
  approved : List PairingEntry
  pins : List Pin

def Ledger.blank (since : Nat) : Ledger where
  since := since
  requests := []
  approved := []
  pins := []

structure FriendWorld where
  peers : String → ReefPeerState
  pairing : List PairingEntry
  /-- The tokens shown to the owner so far. -/
  issued : List PairingToken
  operations : Nat → Option FriendStage
  ledgers : String → Ledger

inductive FriendEvent
  | begin (operation : Nat) (call : FriendCall)
  | advance (operation : Nat) (input : FriendInput)
  /-- A removal's work on the pairing list. -/
  | advanceApprovals (operation : Nat) (input : FriendInput)
  /-- `surfacePairingCandidates` shows a token, for a revision that it has read. -/
  | issue (friend : RelayFriend) (trustRevision : Nat)
  /-- The owner enters a token that was shown, or some other text. -/
  | approve (entry : PairingEntry)
  /-- An entry is taken out of the pairing list by somebody else. -/
  | withdraw (entry : PairingEntry)

/-- `keysChanged`. -/
def keysChanged (trust : ReefPeerTrust) (remote : RelayFriend) : Bool :=
  trust.keyEpoch ≠ remote.keyEpoch || trust.ed25519PublicKey ≠ remote.ed25519Pub ||
    trust.x25519PublicKey ≠ remote.x25519Pub

namespace ReconcileTurn

variable (turn : ReconcileTurn)

def next : FriendStage := .reconciling turn.approvals turn.rest

def changedKeys : Bool :=
  turn.snapshot.trust.any fun trust => keysChanged trust turn.friend

def unsafeNumber : Bool :=
  turn.snapshot.trust.any ReefPeerTrust.safetyNumberChanged

/-- The outbound request that lets this turn pin keys without an approval. -/
def selfInitiated : Option String :=
  if turn.friend.status = .active ∧ turn.snapshot.trust = none then turn.snapshot.firstRequest
  else none

/-- The relay waits for an answer. -/
def unanswered : Bool :=
  turn.friend.status = .pending || turn.friend.status = .reapproveRequired

def needsPin (approved : Bool) : Bool :=
  turn.selfInitiated.isSome || (approved && (turn.snapshot.trust.isNone || turn.changedKeys || turn.unsafeNumber ||
      turn.unanswered))

/-- The approval that a turn which pins nothing takes out of the list. -/
def unneeded (approval : Option PairingEntry) : Option PairingEntry :=
  if turn.snapshot.trust.isSome && !turn.changedKeys && !turn.unsafeNumber then approval else none

/-- The end of a turn that pins nothing, once the request is forgotten. -/
def tidy : Option PairingEntry → FriendStage
  | some entry => .discardingUnneeded turn entry
  | none => turn.next

/-- What the turn does with the approval that is current at its snapshot. -/
def decide (approval : Option PairingEntry) : FriendStage :=
  if turn.changedKeys && approval.isNone then
    if turn.unsafeNumber then turn.next else .marking turn
  else if !turn.needsPin approval.isSome then
    if turn.friend.status = .active ∧ turn.snapshot.trust.isSome ∧
        turn.snapshot.firstRequest.isSome then
      .forgettingRequest turn (turn.unneeded approval)
    else turn.tidy (turn.unneeded approval)
  else
    match approval with
    | some entry =>
      if turn.unanswered ∨ turn.friend.status = .active then
        .consuming turn entry turn.selfInitiated
      else turn.next
    | none =>
      if turn.friend.status = .active then .committing turn none turn.selfInitiated
      else turn.next

/-- After the approval was taken out of the list. -/
def consumed (entry : PairingEntry) (request : Option String) : FriendStage :=
  if turn.unanswered then .responding turn entry request else .committing turn (some entry) request

end ReconcileTurn

namespace FriendWorld

variable (identity : ReefIdentity) (world : FriendWorld)

def start : FriendWorld where
  peers := fun _ => .absent
  pairing := []
  issued := []
  operations := fun _ => none
  ledgers := fun _ => .blank 0

def setStage (operation : Nat) (stage : FriendStage) : FriendWorld :=
  { world with
    operations := fun other => if other = operation then some stage else world.operations other }

def setPeer (peer : String) (state : ReefPeerState) : FriendWorld :=
  { world with peers := fun other => if other = peer then state else world.peers other }

def setLedger (peer : String) (ledger : Ledger) : FriendWorld :=
  { world with ledgers := fun other => if other = peer then ledger else world.ledgers other }

/-- An update of the row of a peer; `none` writes nothing. -/
def updatePeer (peer : String) (next : Option ReefPeerState) : FriendWorld :=
  match next with
  | some state => world.setPeer peer state
  | none => world

/-- `trust.remove`; the ledger starts anew. -/
def removeTrust (peer : String) : FriendWorld :=
  (world.setPeer peer (world.peers peer).remove).setLedger peer (.blank (world.peers peer).remove.revision)

/-- `pairing.remove`: whether there was such an entry. -/
def removeEntry (entry : PairingEntry) : FriendWorld × Bool :=
  ({ world with pairing := world.pairing.filter fun other => other ≠ entry }, world.pairing.contains entry)

def lastFriend (friends : List RelayFriend) (peer : String) : Option RelayFriend :=
  friends.reverse.find? fun friend => friend.peer = peer

/-- The pairing entry is kept as an approval: it is the token for the listed friend now. -/
def usableApproval (friends : List RelayFriend) (entry : PairingEntry) : Option PairingToken :=
  match identity.parsePairingApproval entry with
  | none => none
  | some token =>
    match lastFriend friends token.peer with
    | none => none
    | some remote =>
      if remote.status = .blocked then none
      else if identity.matchesPairingApproval entry remote (world.peers token.peer).revision then
        some token
      else none

/-- One entry of the loop in `#loadPairingApprovals`. -/
def load (operation : Nat) (friends : List RelayFriend) (approvals : ScriptMap PairingApproval) :
    List PairingEntry → FriendWorld
  | [] => world.setStage operation (.reconciling approvals friends)
  | entry :: entries =>
    match world.usableApproval identity friends entry with
    | none => world.setStage operation (.discarding friends approvals entry entries)
    | some token =>
      world.setStage operation (.loading friends
        (approvals.set token.peer { entry, trustRevision := token.trustRevision }) entries)

/-- The start of a turn: the snapshot, and whether the loaded approval is current at it. -/
def takeTurn (operation : Nat) (approvals : ScriptMap PairingApproval) : List RelayFriend → FriendWorld
  | [] => world.setStage operation .done
  | friend :: rest =>
    if friend.status = .blocked then world.setStage operation (.reconciling approvals rest)
    else
      match identity.normalizeReefTarget friend.peer with
      | none => world.setStage operation .failed
      | some peer =>
        let turn : ReconcileTurn := { approvals, friend, peer, snapshot := world.peers peer, rest }
        match approvals.get friend.peer with
        | none => world.setStage operation (turn.decide none)
        | some loaded =>
          if loaded.trustRevision = turn.snapshot.revision then
            world.setStage operation (turn.decide (some loaded.entry))
          else world.setStage operation (.discardingStale turn loaded.entry)

/-- `commitPeerTrust`, with the pin that it makes. -/
def commit (operation : Nat) (turn : ReconcileTurn) (consumed : Option PairingEntry)
    (request : Option String) (now : Nat) : FriendWorld :=
  let current := world.peers turn.peer
  match current.commitPeerTrust turn.friend turn.snapshot.revision request now with
  | none => world.setStage operation (.rechecking turn)
  | some state =>
    let ledger := world.ledgers turn.peer
    let pin : Pin :=
      { friend := turn.friend, revision := current.revision, hadTrust := current.trust.isSome
        consumed, present := current.requestIds }
    ((world.setPeer turn.peer state).setLedger turn.peer
      { ledger with pins := ledger.pins ++ [pin] }).setStage operation turn.next

/-- `#removePairingApprovalsForPeer` takes this entry out. -/
def namesPeer (peer : String) (entry : PairingEntry) : Bool :=
  match entry with
  | .token _ _ => (identity.parsePairingApproval entry).map PairingToken.peer = some peer
  | .other text => identity.normalizeReefTarget text = some peer

def bothHalves (peer : String) : RevocationPart → RevocationPart → FriendStage
  | .settled, .fenced revision => .revoked peer revision
  | .settled, .broken => .failed
  | .broken, .fenced _ => .failed
  | .broken, .broken => .failed
  | approvals, relay => .revoking peer approvals relay

def revokeRelay (operation : Nat) (peer : String) (approvals : RevocationPart) : RevocationPart → FriendWorld
  | .started => world.setStage operation (bothHalves peer approvals .fencing)
  | .fencing =>
    (world.removeTrust peer).setStage operation
      (bothHalves peer approvals (.fenced (world.peers peer).remove.revision))
  | relay => world.setStage operation (bothHalves peer approvals relay)

/-- The pairing list's half of a removal. -/
def revokeApprovals (operation : Nat) (peer : String) (relay : RevocationPart) : RevocationPart → FriendWorld
  | .started => world.setStage operation (bothHalves peer (.dropping world.pairing) relay)
  | .dropping [] => world.setStage operation (bothHalves peer .settled relay)
  | .dropping (entry :: entries) =>
    if namesPeer identity peer entry then
      (world.removeEntry entry).1.setStage operation (bothHalves peer (.dropping entries) relay)
    else world.setStage operation (bothHalves peer (.dropping entries) relay)
  | approvals => world.setStage operation (bothHalves peer approvals relay)

/-- One step of an operation whose call goes through. -/
def proceed (operation : Nat) (id : String) (now : Nat) : FriendStage → FriendWorld
  | .listingApprovals friends =>
    world.setStage operation (.loading friends ScriptMap.empty world.pairing)
  | .loading friends approvals entries => world.load identity operation friends approvals entries
  | .discarding friends approvals entry entries =>
    (world.removeEntry entry).1.setStage operation (.loading friends approvals entries)
  | .reconciling approvals rest => world.takeTurn identity operation approvals rest
  | .discardingStale turn entry => (world.removeEntry entry).1.setStage operation (turn.decide none)
  | .marking turn =>
    (world.updatePeer turn.peer ((world.peers turn.peer).markSafetyNumberChanged
      turn.snapshot.revision)).setStage operation turn.next
  | .forgettingRequest turn unneeded =>
    (world.updatePeer turn.peer ((world.peers turn.peer).removeOutboundRequest none)).setStage
      operation (turn.tidy unneeded)
  | .discardingUnneeded turn entry => (world.removeEntry entry).1.setStage operation turn.next
  | .consuming turn entry request =>
    (world.removeEntry entry).1.setStage operation
      (if (world.removeEntry entry).2 then turn.consumed entry request else turn.next)
  | .responding turn entry request =>
    world.setStage operation (.committing turn (some entry) request)
  | .committing turn consumed request => world.commit operation turn consumed request now
  | .rechecking turn =>
    let current := world.peers turn.peer
    world.setStage operation (if turn.snapshot.revision < current.revision ∧ current.trust.isNone ∧
          current.outboundRequests.isEmpty then .severing turn
      else turn.next)
  | .severing turn => world.setStage operation turn.next
  | .recording peer =>
    let ledger := world.ledgers peer
    ((world.setPeer peer ((world.peers peer).recordOutboundRequest id now)).setLedger peer
      { ledger with requests := ledger.requests ++ [id] }).setStage operation (.asking peer id)
  | .asking peer id => world.setStage operation (.checking peer id true)
  | .rejecting peer id =>
    (world.updatePeer peer ((world.peers peer).removeOutboundRequest (some id))).setStage operation .failed
  | .checking peer id asked =>
    world.setStage operation (if (world.peers peer).outboundRequestStatus id = .revoked then .undoing peer
      else if asked then .done else .failed)
  | .undoing _ => world.setStage operation .failed
  | .removing peer =>
    (world.removeTrust peer).setStage operation (.revoking peer .started .started)
  | .revoking peer approvals relay => world.revokeRelay operation peer approvals relay
  | .settingAutonomy peer autonomy =>
    match (world.peers peer).setAutonomy autonomy with
    | none => world.setStage operation .failed
    | some state => (world.setPeer peer state).setStage operation .done
  | .listing => world
  | .revoked _ _ => world
  | .done => world
  | .failed => world

/-- A thrown error ends the operation, except where it is looked at first. -/
def throwing (operation : Nat) : FriendStage → FriendWorld
  | .asking peer id => world.setStage operation (.checking peer id false)
  | .revoking peer approvals _ => world.setStage operation (bothHalves peer approvals .broken)
  | .revoked _ _ => world
  | .done => world
  | _ => world.setStage operation .failed

def advance (operation : Nat) (input : FriendInput) : FriendWorld :=
  match world.operations operation with
  | none => world
  | some stage =>
    match input with
    | .throws => world.throwing operation stage
    | .listed friends =>
      match stage with
      | .listing => world.setStage operation (.listingApprovals friends)
      | _ => world
    | .rejected =>
      match stage with
      | .asking peer id => world.setStage operation (.rejecting peer id)
      | _ => world
    | .goes id now => world.proceed identity operation id now stage

def advanceApprovals (operation : Nat) (input : FriendInput) : FriendWorld :=
  match world.operations operation with
  | some (.revoking peer approvals relay) =>
    match input with
    | .throws => world.setStage operation (bothHalves peer .broken relay)
    | _ => world.revokeApprovals identity operation peer relay approvals
  | _ => world

/-- The first stage of a call; the handle is normalized at once. -/
def begin (operation : Nat) (call : FriendCall) : FriendWorld :=
  match world.operations operation with
  | some _ => world
  | none =>
    let stageFor (peer : String) (stage : String → FriendStage) : FriendStage :=
      ((identity.normalizeReefTarget peer).map stage).getD .failed
    world.setStage operation (match call with
      | .reconcile => .listing
      | .request peer => stageFor peer .recording
      | .remove peer => stageFor peer .removing
      | .setAutonomy peer autonomy => stageFor peer (.settingAutonomy · autonomy))

/-- A token is made for a revision that its peer has reached. -/
def issue (friend : RelayFriend) (trustRevision : Nat) : FriendWorld :=
  match identity.createPairingApproval friend trustRevision with
  | none => world
  | some token =>
    if trustRevision ≤ (world.peers token.peer).revision then
      { world with issued := world.issued ++ [token] }
    else world

/-- The owner's entry goes into the pairing list; a token is one that was shown before. -/
def approve : PairingEntry → FriendWorld
  | .other text => { world with pairing := world.pairing ++ [.other text] }
  | .token padding token =>
    if token ∈ world.issued then
      let entry := PairingEntry.token padding token
      let ledger := world.ledgers token.peer
      { world with pairing := world.pairing ++ [entry] }.setLedger token.peer
        { ledger with approved := ledger.approved ++ [entry] }
    else world

def step : FriendEvent → FriendWorld
  | .begin operation call => world.begin identity operation call
  | .advance operation input => world.advance identity operation input
  | .advanceApprovals operation input => world.advanceApprovals identity operation input
  | .issue friend trustRevision => world.issue identity friend trustRevision
  | .approve entry => world.approve entry
  | .withdraw entry => (world.removeEntry entry).1

def machine (identity : ReefIdentity) : Machine FriendWorld FriendEvent where
  step := step identity

end FriendWorld

end PlatformClaw.Reef
