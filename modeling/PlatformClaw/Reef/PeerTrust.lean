import PlatformClaw.Library.ScriptString

/-! # Peer trust

The trust a Reef identity has in one peer: pinned keys, the outbound requests of
the owner, and a revision that every local removal and every change of the keys
raises. The functions are those of `ReefTrustStore` on the state under one key;
`none` is an update that writes nothing.
-/

namespace PlatformClaw.Reef

inductive FriendStatus
  | pending
  | active
  | blocked
  | reapproveRequired
deriving DecidableEq, Repr

/-- `RelayFriend`: what the relay says about one friendship. -/
structure RelayFriend where
  peer : String
  status : FriendStatus
  initiatedBy : String
  ed25519Pub : String
  x25519Pub : String
  keyEpoch : Int
deriving DecidableEq, Repr

inductive ReefAutonomy
  | notifyOnly
  | bounded
  | extended
deriving DecidableEq, Repr

structure ReefPeerTrust where
  autonomy : ReefAutonomy
  ed25519PublicKey : String
  x25519PublicKey : String
  keyEpoch : Int
  safetyNumberChanged : Bool
  approvedAt : Nat
deriving DecidableEq, Repr

structure ReefRejectionNoticeState where
  lastRejectionAt : Nat
  lastResendAt : Option Nat
deriving DecidableEq, Repr

/-- `ReefPeerStateSnapshot`. A peer without a row is at revision 0. -/
structure ReefPeerState where
  revision : Nat
  trust : Option ReefPeerTrust
  /-- Request ids, with the times they were recorded at. -/
  outboundRequests : List (String × Nat)
  rejectionNotice : Option ReefRejectionNoticeState
deriving DecidableEq, Repr

inductive RequestStatus
  | current
  | superseded
  | revoked
deriving DecidableEq, Repr

namespace ReefPeerState

def absent : ReefPeerState where
  revision := 0
  trust := none
  outboundRequests := []
  rejectionNotice := none

def requestIds (state : ReefPeerState) : List String :=
  state.outboundRequests.map Prod.fst

/-- `remove`: a tombstone with the next revision. -/
def remove (state : ReefPeerState) : ReefPeerState :=
  { absent with revision := state.revision + 1 }

/-- `setAutonomy`. -/
def setAutonomy (state : ReefPeerState) (autonomy : ReefAutonomy) : Option ReefPeerState :=
  state.trust.map fun trust => { state with trust := some { trust with autonomy } }

/-- `markSafetyNumberChanged`. -/
def markSafetyNumberChanged (state : ReefPeerState) (expectedRevision : Nat) : Option ReefPeerState :=
  if state.revision ≠ expectedRevision then none
  else
    state.trust.map fun trust =>
      { state with
        revision := state.revision + 1
        trust := some { trust with safetyNumberChanged := true } }

/-- `commitPeerTrust`. -/
def commitPeerTrust (state : ReefPeerState) (friend : RelayFriend) (expectedRevision : Nat)
    (expectedOutboundRequestId : Option String) (approvedAt : Nat) : Option ReefPeerState :=
  if state.revision ≠ expectedRevision ∨
      ∃ id ∈ expectedOutboundRequestId, id ∉ state.requestIds then none
  else
    some
      { revision := state.revision + 1
        trust := some
          { autonomy := (state.trust.map ReefPeerTrust.autonomy).getD .bounded
            ed25519PublicKey := friend.ed25519Pub
            x25519PublicKey := friend.x25519Pub
            keyEpoch := friend.keyEpoch
            safetyNumberChanged := false
            approvedAt }
        outboundRequests := []
        rejectionNotice := state.rejectionNotice }

/-- `recordOutboundRequest`. -/
def recordOutboundRequest (state : ReefPeerState) (id : String) (requestedAt : Nat) : ReefPeerState :=
  { state with
    outboundRequests := state.outboundRequests.filter (fun request => request.1 ≠ id) ++
      [(id, requestedAt)] }

/-- `removeOutboundRequest`; without an id it removes all of them. -/
def removeOutboundRequest (state : ReefPeerState) (requestId : Option String) : Option ReefPeerState :=
  if state.outboundRequests.isEmpty then none
  else
    match requestId with
    | none => some { state with outboundRequests := [] }
    | some id =>
      if id ∉ state.requestIds then none
      else
        some { state with
          outboundRequests := state.outboundRequests.filter fun request => request.1 ≠ id }

/-- `outboundRequestStatus`. -/
def outboundRequestStatus (state : ReefPeerState) (requestId : String) : RequestStatus :=
  if requestId ∈ state.requestIds then .current
  else if state.trust.isSome ∨ ¬state.outboundRequests.isEmpty then .superseded
  else .revoked

def firstRequest (state : ReefPeerState) : Option String :=
  (ScriptString.toSorted state.requestIds).head?

/-- A change that neither pins keys nor records a request; the trust comes or goes only with a new
revision. -/
structure Quiet (before after : ReefPeerState) : Prop where
  revision : before.revision ≤ after.revision
  trust : after.revision = before.revision → after.trust.isSome = before.trust.isSome
  trusted : after.trust.isSome = true → before.trust.isSome = true
  requests : ∀ id ∈ after.requestIds, id ∈ before.requestIds

theorem setAutonomy_quiet {before after : ReefPeerState} {autonomy : ReefAutonomy}
    (done : before.setAutonomy autonomy = some after) : Quiet before after := by
  obtain ⟨trust, trusted, rfl⟩ := Option.map_eq_some_iff.mp done
  refine ⟨Nat.le_refl _, ?_, ?_, fun _ inRequests => inRequests⟩
  · intro _
    rw [trusted]
    rfl
  · intro _
    rw [trusted]
    rfl

theorem markSafetyNumberChanged_quiet {before after : ReefPeerState} {expectedRevision : Nat}
    (done : before.markSafetyNumberChanged expectedRevision = some after) : Quiet before after := by
  unfold markSafetyNumberChanged at done
  split at done
  · cases done
  · obtain ⟨trust, trusted, rfl⟩ := Option.map_eq_some_iff.mp done
    refine ⟨Nat.le_succ _, ?_, ?_, fun _ inRequests => inRequests⟩
    · intro same
      exact absurd same (Nat.succ_ne_self _)
    · intro _
      rw [trusted]
      rfl

theorem requestIds_filter {state : ReefPeerState} {keep : String × Nat → Bool} {id : String}
    (inRequests : id ∈ (state.outboundRequests.filter keep).map Prod.fst) : id ∈ state.requestIds := by
  obtain ⟨request, kept, rfl⟩ := List.mem_map.mp inRequests
  exact List.mem_map_of_mem (List.mem_filter.mp kept).1

theorem removeOutboundRequest_quiet {before after : ReefPeerState} {requestId : Option String}
    (done : before.removeOutboundRequest requestId = some after) : Quiet before after := by
  unfold removeOutboundRequest at done
  split at done
  · cases done
  · cases requestId with
    | none =>
      obtain rfl := Option.some.inj done
      refine ⟨Nat.le_refl _, fun _ => rfl, fun trusted => trusted, ?_⟩
      intro id inRequests
      cases inRequests
    | some id =>
      dsimp only at done
      split at done
      · cases done
      · obtain rfl := Option.some.inj done
        exact ⟨Nat.le_refl _, fun _ => rfl, fun trusted => trusted,
          fun _ inRequests => requestIds_filter inRequests⟩

theorem requestIds_record {state : ReefPeerState} {id other : String} {requestedAt : Nat}
    (inRequests : other ∈ (state.recordOutboundRequest id requestedAt).requestIds) :
    other ∈ state.requestIds ∨ other = id := by
  rw [requestIds, recordOutboundRequest, List.map_append] at inRequests
  cases List.mem_append.mp inRequests with
  | inl before => exact .inl (requestIds_filter before)
  | inr new => exact .inr (List.mem_singleton.mp new)

theorem commitPeerTrust_some {before after : ReefPeerState} {friend : RelayFriend}
    {expectedRevision approvedAt : Nat} {request : Option String}
    (done : before.commitPeerTrust friend expectedRevision request approvedAt = some after) :
    before.revision = expectedRevision ∧ (∀ id ∈ request, id ∈ before.requestIds) ∧
      after.revision = before.revision + 1 ∧ after.requestIds = [] := by
  unfold commitPeerTrust at done
  split at done
  · cases done
  · rename_i current
    obtain rfl := Option.some.inj done
    rw [not_or] at current
    refine ⟨Decidable.not_not.mp current.1, ?_, rfl, rfl⟩
    intro id isRequest
    exact Decidable.not_not.mp fun absent => current.2 ⟨id, isRequest, absent⟩

end ReefPeerState

/-- The fields of an approval token, which its text joins with colons. -/
structure PairingToken where
  identityScope : String
  peer : String
  keyEpoch : Int
  trustRevision : Nat
  keyDigest : String
deriving DecidableEq, Repr

/-- An entry of the pairing list: a token, in a text that may be padded with blanks, or anything
else. -/
inductive PairingEntry
  | token (padding : Nat) (token : PairingToken)
  | other (text : String)
deriving DecidableEq, Repr

/-- One Reef identity: the scope of its tokens, how handles are normalized, and the digest. -/
structure ReefIdentity where
  identityScope : String
  handle : String
  normalizeReefTarget : String → Option String
  sha256Hex : String → String

namespace ReefIdentity

variable (identity : ReefIdentity)

/-- `resolvePairingKeyDigest`. -/
def resolvePairingKeyDigest (friend : RelayFriend) (trustRevision : Nat) : String :=
  identity.sha256Hex (friend.peer ++ "\n" ++ toString friend.keyEpoch ++ "\n" ++
    toString trustRevision ++ "\n" ++ friend.ed25519Pub ++ "\n" ++ friend.x25519Pub)

/-- `createPairingApproval`; it throws for a peer that is no handle. -/
def createPairingApproval (friend : RelayFriend) (trustRevision : Nat) : Option PairingToken :=
  (identity.normalizeReefTarget friend.peer).map fun peer =>
    { identityScope := identity.identityScope, peer, keyEpoch := friend.keyEpoch, trustRevision
      keyDigest := identity.resolvePairingKeyDigest friend trustRevision }

/-- `parsePairingApproval`: the token, if it is one of this identity for a peer and an epoch. -/
def parsePairingApproval : PairingEntry → Option PairingToken
  | .other _ => none
  | .token _ token =>
    if token.identityScope ≠ identity.identityScope ∨
        identity.normalizeReefTarget token.peer ≠ some token.peer ∨
        token.keyEpoch < 1 ∨ 9007199254740991 < token.keyEpoch ∨
        9007199254740991 < token.trustRevision then none
    else some token

/-- The entry is the token for the keys and the epoch of `friend` at this revision. -/
def Names (entry : PairingEntry) (friend : RelayFriend) (trustRevision : Nat) : Prop :=
  ∃ padding token, entry = .token padding token ∧ identity.createPairingApproval friend trustRevision = some token

/-- `matchesPairingApproval`, at the current revision. -/
def matchesPairingApproval (entry : PairingEntry) (friend : RelayFriend) (trustRevision : Nat) : Bool :=
  match entry with
  | .other _ => false
  | .token _ token => identity.createPairingApproval friend trustRevision = some token

variable {identity}

theorem names_of_matches {entry : PairingEntry} {friend : RelayFriend} {trustRevision : Nat}
    (same : identity.matchesPairingApproval entry friend trustRevision = true) :
    identity.Names entry friend trustRevision := by
  cases entry with
  | other text => cases same
  | token padding token => exact ⟨padding, token, rfl, by simpa [matchesPairingApproval] using same⟩

theorem parse_eq_some {entry : PairingEntry} {token : PairingToken}
    (parsed : identity.parsePairingApproval entry = some token) :
    (∃ padding, entry = .token padding token) ∧ identity.normalizeReefTarget token.peer = some token.peer := by
  cases entry with
  | other text => cases parsed
  | token padding own =>
    dsimp only [parsePairingApproval] at parsed
    split at parsed
    · cases parsed
    · rename_i valid
      obtain rfl := Option.some.inj parsed
      simp only [not_or, Decidable.not_not] at valid
      exact ⟨⟨padding, rfl⟩, valid.2.1⟩

end ReefIdentity

end PlatformClaw.Reef
