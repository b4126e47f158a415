import PlatformClaw.Reef.Friends

/-! # Keys are pinned only with consent

Every pin is justified by an approval of exactly its keys that the reconcile
took out of the pairing list, or by an outbound request that the owner recorded
after the last removal. The relay can break this by one thing only: a friend
list that has a peer twice, under different keys.
-/

namespace PlatformClaw.Reef

/-- The owner has agreed to the pin since the last local removal of the peer. -/
def Pin.Justified (identity : ReefIdentity) (ledger : Ledger) (pin : Pin) : Prop :=
  (∃ entry, pin.consumed = some entry ∧ identity.Names entry pin.friend pin.revision ∧ entry ∈ ledger.approved) ∨
    (pin.hadTrust = false ∧ ∃ id ∈ pin.present, id ∈ ledger.requests)

structure Ledger.Grows (before now : Ledger) : Prop where
  since : now.since = before.since
  requests : ∀ id ∈ before.requests, id ∈ now.requests
  approved : ∀ entry ∈ before.approved, entry ∈ now.approved
  pins : before.pins ≠ [] → now.pins ≠ []

theorem Pin.Justified.mono {identity : ReefIdentity} {before now : Ledger} {pin : Pin}
    (justified : pin.Justified identity before) (grows : Ledger.Grows before now) :
    pin.Justified identity now := by
  cases justified with
  | inl approved =>
    obtain ⟨entry, consumed, names, inLedger⟩ := approved
    exact .inl ⟨entry, consumed, names, grows.approved entry inLedger⟩
  | inr requested =>
    obtain ⟨untrusted, id, present, recorded⟩ := requested
    exact .inr ⟨untrusted, id, present, grows.requests id recorded⟩

/-- The list has no peer under two sets of keys. -/
def ConsistentList (friends : List RelayFriend) : Prop :=
  ∀ one ∈ friends, ∀ other ∈ friends, one.peer = other.peer →
    one.ed25519Pub = other.ed25519Pub ∧ one.x25519Pub = other.x25519Pub ∧ one.keyEpoch = other.keyEpoch

theorem ReefIdentity.createPairingApproval_congr (identity : ReefIdentity) {one other : RelayFriend}
    (peer : one.peer = other.peer) (keys : one.ed25519Pub = other.ed25519Pub ∧
      one.x25519Pub = other.x25519Pub ∧ one.keyEpoch = other.keyEpoch) (trustRevision : Nat) :
    identity.createPairingApproval one trustRevision = identity.createPairingApproval other trustRevision := by
  obtain ⟨ed, x, epoch⟩ := keys
  simp only [ReefIdentity.createPairingApproval, ReefIdentity.resolvePairingKeyDigest, peer, ed, x, epoch]

namespace FriendWorld

variable {identity : ReefIdentity} {world after : FriendWorld}

/-- The entry was entered for a token that had been shown, since the last removal of its peer
unless the token is older than that. -/
def Entered (world : FriendWorld) (entry : PairingEntry) : Prop :=
  ∀ padding token, entry = .token padding token → token ∈ world.issued ∧
    ((world.ledgers token.peer).since ≤ token.trustRevision → entry ∈ (world.ledgers token.peer).approved)

/-- The state of the two stores, and what is known of its past. -/
structure Sound (identity : ReefIdentity) (world : FriendWorld) : Prop where
  issued : ∀ token ∈ world.issued, token.trustRevision ≤ (world.peers token.peer).revision
  pairing : ∀ entry ∈ world.pairing, world.Entered entry
  requests : ∀ peer, ∀ id ∈ (world.peers peer).requestIds, id ∈ (world.ledgers peer).requests
  since : ∀ peer, (world.ledgers peer).since ≤ (world.peers peer).revision
  pins : ∀ peer, ∀ pin ∈ (world.ledgers peer).pins, pin.Justified identity (world.ledgers peer)
  trusted : ∀ peer, (world.peers peer).trust.isSome = true → (world.ledgers peer).pins ≠ []

/-- What every step keeps for the operations under way. -/
structure Extends (world after : FriendWorld) : Prop where
  revision : ∀ peer, (world.peers peer).revision ≤ (after.peers peer).revision
  trust : ∀ peer, (after.peers peer).revision = (world.peers peer).revision →
    (after.peers peer).trust.isSome = (world.peers peer).trust.isSome
  entered : ∀ entry, world.Entered entry → after.Entered entry
  since : ∀ peer, (world.ledgers peer).since ≤ (after.ledgers peer).since

theorem Extends.refl (world : FriendWorld) : world.Extends world :=
  ⟨fun _ => Nat.le_refl _, fun _ _ => rfl, fun _ entered => entered, fun _ => Nat.le_refl _⟩

def ApprovalsName (identity : ReefIdentity) (world : FriendWorld)
    (approvals : ScriptMap PairingApproval) (friends : List RelayFriend) : Prop :=
  ∀ friend ∈ friends, ∀ approval, approvals.get friend.peer = some approval →
    identity.Names approval.entry friend approval.trustRevision ∧ world.Entered approval.entry

/-- A turn whose snapshot is not from the future. -/
structure TurnSound (identity : ReefIdentity) (world : FriendWorld) (turn : ReconcileTurn) : Prop where
  approvals : ApprovalsName identity world turn.approvals turn.rest
  peer : identity.normalizeReefTarget turn.friend.peer = some turn.peer
  revision : turn.snapshot.revision ≤ (world.peers turn.peer).revision
  trust : (world.peers turn.peer).revision = turn.snapshot.revision →
    (world.peers turn.peer).trust.isSome = turn.snapshot.trust.isSome

/-- The approval names the keys of the turn at the revision of its snapshot. -/
def Consents (identity : ReefIdentity) (world : FriendWorld) (turn : ReconcileTurn) (entry : PairingEntry) : Prop :=
  identity.Names entry turn.friend turn.snapshot.revision ∧ world.Entered entry

/-- What an operation relies on at each stage. -/
def StageSound (identity : ReefIdentity) (world : FriendWorld) : FriendStage → Prop
  | .listingApprovals friends => ConsistentList friends
  | .loading friends approvals entries =>
    ConsistentList friends ∧ ApprovalsName identity world approvals friends ∧ ∀ entry ∈ entries, world.Entered entry
  | .discarding friends approvals _ entries =>
    ConsistentList friends ∧ ApprovalsName identity world approvals friends ∧ ∀ entry ∈ entries, world.Entered entry
  | .reconciling approvals rest => ApprovalsName identity world approvals rest
  | .discardingStale turn _ => TurnSound identity world turn
  | .marking turn => TurnSound identity world turn
  | .forgettingRequest turn _ => TurnSound identity world turn
  | .discardingUnneeded turn _ => TurnSound identity world turn
  | .consuming turn entry _ => TurnSound identity world turn ∧ Consents identity world turn entry
  | .responding turn entry _ => TurnSound identity world turn ∧ Consents identity world turn entry
  | .committing turn (some entry) _ =>
    TurnSound identity world turn ∧ Consents identity world turn entry
  | .committing turn none request =>
    TurnSound identity world turn ∧ turn.snapshot.trust = none ∧ request.isSome = true
  | .rechecking turn => TurnSound identity world turn
  | .severing turn => TurnSound identity world turn
  | .revoking peer _ (.fenced revision) => revision ≤ (world.ledgers peer).since
  | .revoked peer revision => revision ≤ (world.ledgers peer).since
  | _ => True

theorem ApprovalsName.mono {approvals : ScriptMap PairingApproval} {friends : List RelayFriend}
    (names : ApprovalsName identity world approvals friends) (step : world.Extends after) :
    ApprovalsName identity after approvals friends := by
  intro friend inFriends approval found
  obtain ⟨named, entered⟩ := names friend inFriends approval found
  exact ⟨named, step.entered _ entered⟩

theorem TurnSound.mono {turn : ReconcileTurn} (sound : TurnSound identity world turn)
    (step : world.Extends after) : TurnSound identity after turn where
  approvals := sound.approvals.mono step
  peer := sound.peer
  revision := Nat.le_trans sound.revision (step.revision turn.peer)
  trust := by
    intro same
    have unchanged : (after.peers turn.peer).revision = (world.peers turn.peer).revision := by
      have lower := sound.revision
      have upper := step.revision turn.peer
      omega
    rw [step.trust turn.peer unchanged]
    exact sound.trust (unchanged.symm.trans same)

theorem Consents.mono {turn : ReconcileTurn} {entry : PairingEntry}
    (consents : Consents identity world turn entry) (step : world.Extends after) :
    Consents identity after turn entry :=
  ⟨consents.1, step.entered entry consents.2⟩

theorem StageSound.mono {stage : FriendStage} (sound : StageSound identity world stage)
    (step : world.Extends after) : StageSound identity after stage := by
  cases stage with
  | listingApprovals friends => exact sound
  | loading friends approvals entries | discarding friends approvals _ entries =>
    obtain ⟨consistent, names, entered⟩ := sound
    exact ⟨consistent, names.mono step, fun entry inEntries =>
      step.entered entry (entered entry inEntries)⟩
  | reconciling approvals rest => exact ApprovalsName.mono sound step
  | discardingStale turn _ | marking turn | forgettingRequest turn _ | discardingUnneeded turn _
  | rechecking turn | severing turn => exact TurnSound.mono sound step
  | consuming turn entry _ | responding turn entry _ =>
    exact ⟨sound.1.mono step, sound.2.mono step⟩
  | committing turn consumed request =>
    cases consumed with
    | some entry => exact ⟨sound.1.mono step, sound.2.mono step⟩
    | none => exact ⟨sound.1.mono step, sound.2⟩
  | revoking peer _ relay =>
    cases relay with
    | fenced revision => exact Nat.le_trans sound (step.since peer)
    | started | dropping | fencing | settled | broken => trivial
  | revoked peer revision => exact Nat.le_trans sound (step.since peer)
  | listing | recording | asking | rejecting | checking | undoing | removing | settingAutonomy | done
  | failed => trivial

/-- The stores are sound, and so is every operation under way. -/
structure Consenting (identity : ReefIdentity) (world : FriendWorld) : Prop where
  sound : world.Sound identity
  stages : ∀ operation stage, world.operations operation = some stage → StageSound identity world stage

theorem extends_setStage (world : FriendWorld) (operation : Nat) (stage : FriendStage) :
    world.Extends (world.setStage operation stage) :=
  ⟨fun _ => Nat.le_refl _, fun _ _ => rfl, fun _ entered => entered, fun _ => Nat.le_refl _⟩

theorem Sound.setStage (sound : world.Sound identity) (operation : Nat) (stage : FriendStage) :
    (world.setStage operation stage).Sound identity :=
  ⟨sound.issued, sound.pairing, sound.requests, sound.since, sound.pins, sound.trusted⟩

theorem Consenting.goOn (consenting : world.Consenting identity) (step : world.Extends after)
    (sound : after.Sound identity) (same : after.operations = world.operations) (operation : Nat)
    {stage : FriendStage} (own : StageSound identity after stage) :
    (after.setStage operation stage).Consenting identity where
  sound := sound.setStage operation stage
  stages := by
    intro other found isStage
    have onward := extends_setStage after operation stage
    unfold FriendWorld.setStage at isStage
    dsimp only at isStage
    split at isStage
    · obtain rfl := Option.some.inj isStage
      exact own.mono onward
    · rw [same] at isStage
      exact ((consenting.stages other found isStage).mono step).mono onward

theorem Consenting.stay (consenting : world.Consenting identity) (operation : Nat)
    {stage : FriendStage} (own : StageSound identity world stage) :
    (world.setStage operation stage).Consenting identity :=
  consenting.goOn (.refl world) consenting.sound rfl operation own

theorem removeEntry_extends (world : FriendWorld) (entry : PairingEntry) :
    world.Extends (world.removeEntry entry).1 :=
  ⟨fun _ => Nat.le_refl _, fun _ _ => rfl, fun _ entered => entered, fun _ => Nat.le_refl _⟩

theorem Sound.removeEntry (sound : world.Sound identity) (entry : PairingEntry) :
    (world.removeEntry entry).1.Sound identity where
  issued := sound.issued
  pairing := fun other inPairing => sound.pairing other (List.mem_filter.mp inPairing).1
  requests := sound.requests
  since := sound.since
  pins := sound.pins
  trusted := sound.trusted

theorem Consenting.removeEntry (consenting : world.Consenting identity) (entry : PairingEntry)
    (operation : Nat) {stage : FriendStage} (own : StageSound identity world stage) :
    ((world.removeEntry entry).1.setStage operation stage).Consenting identity :=
  consenting.goOn (removeEntry_extends world entry) (consenting.sound.removeEntry entry) rfl operation
    (own.mono (removeEntry_extends world entry))

theorem Consenting.withdraw (consenting : world.Consenting identity) (entry : PairingEntry) :
    (world.removeEntry entry).1.Consenting identity where
  sound := consenting.sound.removeEntry entry
  stages := fun operation stage isStage =>
    (consenting.stages operation stage isStage).mono (removeEntry_extends world entry)

theorem ledgers_setLedger (world : FriendWorld) (peer other : String) (ledger : Ledger) :
    (world.setLedger peer ledger).ledgers other =
      if other = peer then ledger else world.ledgers other := rfl

theorem extends_grow {peer : String} {ledger : Ledger} (grows : Ledger.Grows (world.ledgers peer) ledger) :
    world.Extends (world.setLedger peer ledger) := by
  refine ⟨fun _ => Nat.le_refl _, fun _ _ => rfl, ?_, ?_⟩
  · intro entry entered padding token isToken
    obtain ⟨issued, approved⟩ := entered padding token isToken
    refine ⟨issued, ?_⟩
    rw [ledgers_setLedger]
    split
    · rename_i same
      rw [grows.since, ← same]
      intro late
      exact grows.approved entry (same ▸ approved late)
    · exact approved
  · intro other
    rw [ledgers_setLedger]
    split
    · rename_i same
      subst same
      exact Nat.le_of_eq grows.since.symm
    · exact Nat.le_refl _

theorem Sound.grow (sound : world.Sound identity) {peer : String} {ledger : Ledger}
    (grows : Ledger.Grows (world.ledgers peer) ledger)
    (justified : ∀ pin ∈ ledger.pins, pin.Justified identity ledger) :
    (world.setLedger peer ledger).Sound identity where
  issued := sound.issued
  pairing := fun entry inPairing => (extends_grow grows).entered entry (sound.pairing entry inPairing)
  requests := by
    intro other id inRequests
    have recorded := sound.requests other id inRequests
    rw [ledgers_setLedger]
    split
    · rename_i same
      exact grows.requests id (same ▸ recorded)
    · exact recorded
  since := by
    intro other
    have since := sound.since other
    rw [ledgers_setLedger]
    split
    · rename_i same
      rw [grows.since, ← same]
      exact since
    · exact since
  pins := by
    intro other pin inPins
    rw [ledgers_setLedger] at inPins ⊢
    split
    · rename_i same
      rw [if_pos same] at inPins
      exact justified pin inPins
    · rename_i apart
      rw [if_neg apart] at inPins
      exact sound.pins other pin inPins
  trusted := by
    intro other isTrusted
    have pinned := sound.trusted other isTrusted
    rw [ledgers_setLedger]
    split
    · rename_i same
      exact grows.pins (same ▸ pinned)
    · exact pinned

theorem Sound.enter (sound : world.Sound identity) {entry : PairingEntry} (entered : world.Entered entry) :
    { world with pairing := world.pairing ++ [entry] }.Sound identity where
  issued := sound.issued
  pairing := by
    intro other inPairing
    cases List.mem_append.mp inPairing with
    | inl before => exact sound.pairing other before
    | inr new =>
      rw [List.mem_singleton.mp new]
      exact entered
  requests := sound.requests
  since := sound.since
  pins := sound.pins
  trusted := sound.trusted

theorem Consenting.outside (consenting : world.Consenting identity) (step : world.Extends after)
    (sound : after.Sound identity) (same : after.operations = world.operations) :
    after.Consenting identity where
  sound := sound
  stages := fun operation stage isStage =>
    (consenting.stages operation stage (same ▸ isStage)).mono step

theorem Consenting.approve (consenting : world.Consenting identity) (entry : PairingEntry) :
    (world.approve entry).Consenting identity := by
  have sound := consenting.sound
  cases entry with
  | other text =>
    have entered : world.Entered (.other text) := by
      intro padding token isToken
      cases isToken
    refine consenting.outside ?_ (sound.enter entered) rfl
    exact ⟨fun _ => Nat.le_refl _, fun _ _ => rfl, fun _ before => before, fun _ => Nat.le_refl _⟩
  | token padding token =>
    unfold FriendWorld.approve
    dsimp only
    split
    · rename_i shown
      let ledger : Ledger :=
        { world.ledgers token.peer with
          approved := (world.ledgers token.peer).approved ++ [PairingEntry.token padding token] }
      have grows : Ledger.Grows (world.ledgers token.peer) ledger :=
        ⟨rfl, fun _ recorded => recorded, fun _ before => List.mem_append_left _ before,
          fun pinned => pinned⟩
      have entered : (world.setLedger token.peer ledger).Entered (.token padding token) := by
        intro otherPadding other isToken
        cases isToken
        refine ⟨shown, ?_⟩
        intro _
        rw [ledgers_setLedger, if_pos rfl]
        exact List.mem_append_right _ (List.mem_singleton.mpr rfl)
      have grown := sound.grow grows fun pin inPins =>
        (sound.pins token.peer pin inPins).mono grows
      exact consenting.outside ⟨(extends_grow grows).revision, (extends_grow grows).trust,
        (extends_grow grows).entered, (extends_grow grows).since⟩ (grown.enter entered) rfl
    · exact consenting

theorem Consenting.issue (consenting : world.Consenting identity) (friend : RelayFriend)
    (trustRevision : Nat) : (world.issue identity friend trustRevision).Consenting identity := by
  unfold FriendWorld.issue
  split
  · exact consenting
  · rename_i token created
    split
    · rename_i reached
      have sound := consenting.sound
      have named : token.trustRevision = trustRevision := by
        obtain ⟨peer, _, rfl⟩ := Option.map_eq_some_iff.mp created
        rfl
      have step : world.Extends { world with issued := world.issued ++ [token] } := by
        refine ⟨fun _ => Nat.le_refl _, fun _ _ => rfl, ?_, fun _ => Nat.le_refl _⟩
        intro entry entered padding other isToken
        obtain ⟨issued, approved⟩ := entered padding other isToken
        exact ⟨List.mem_append_left _ issued, approved⟩
      apply consenting.outside step ⟨?_, ?_, sound.requests, sound.since, sound.pins, sound.trusted⟩ rfl
      · intro other inIssued
        cases List.mem_append.mp inIssued with
        | inl before => exact sound.issued other before
        | inr new =>
          rw [List.mem_singleton.mp new, named]
          exact reached
      · exact fun entry inPairing => step.entered entry (sound.pairing entry inPairing)
    · exact consenting

theorem peers_setPeer (world : FriendWorld) (peer other : String) (state : ReefPeerState) :
    (world.setPeer peer state).peers other = if other = peer then state else world.peers other := rfl

theorem extends_setPeer {peer : String} {state : ReefPeerState}
    (revision : (world.peers peer).revision ≤ state.revision)
    (trust : state.revision = (world.peers peer).revision → state.trust.isSome = (world.peers peer).trust.isSome) :
    world.Extends (world.setPeer peer state) := by
  refine ⟨?_, ?_, fun _ entered => entered, fun _ => Nat.le_refl _⟩
  · intro other
    rw [peers_setPeer]
    split
    · rename_i same
      exact same ▸ revision
    · exact Nat.le_refl _
  · intro other
    rw [peers_setPeer]
    split
    · rename_i same
      exact same ▸ trust
    · exact fun _ => rfl

theorem Sound.setPeer (sound : world.Sound identity) {peer : String} {state : ReefPeerState}
    (revision : (world.peers peer).revision ≤ state.revision)
    (requests : ∀ id ∈ state.requestIds, id ∈ (world.ledgers peer).requests)
    (trusted : state.trust.isSome = true → (world.ledgers peer).pins ≠ []) :
    (world.setPeer peer state).Sound identity where
  issued := by
    intro token inIssued
    have reached := sound.issued token inIssued
    rw [peers_setPeer]
    split
    · rename_i same
      exact Nat.le_trans (same ▸ reached) revision
    · exact reached
  pairing := sound.pairing
  requests := by
    intro other id
    rw [peers_setPeer]
    split
    · rename_i same
      rw [same]
      exact requests id
    · exact sound.requests other id
  since := by
    intro other
    have since := sound.since other
    rw [peers_setPeer]
    split
    · rename_i same
      exact Nat.le_trans since (same ▸ revision)
    · exact since
  pins := sound.pins
  trusted := by
    intro other
    rw [peers_setPeer]
    split
    · rename_i same
      rw [same]
      exact trusted
    · exact sound.trusted other

theorem Consenting.quiet (consenting : world.Consenting identity) {peer : String}
    {next : Option ReefPeerState}
    (quiet : ∀ state, next = some state → (world.peers peer).Quiet state) (operation : Nat)
    {stage : FriendStage} (own : StageSound identity world stage) :
    ((world.updatePeer peer next).setStage operation stage).Consenting identity := by
  cases next with
  | none => exact consenting.stay operation own
  | some state =>
    have change := quiet state rfl
    have step := extends_setPeer change.revision change.trust
    have sound := consenting.sound.setPeer change.revision
      (fun id inRequests => consenting.sound.requests peer id (change.requests id inRequests))
      (fun trusted => consenting.sound.trusted peer (change.trusted trusted))
    exact consenting.goOn step sound rfl operation (own.mono step)

/-- A removal starts a new ledger: no token that was shown reaches its revision. -/
theorem removeTrust_extends (sound : world.Sound identity) (peer : String) :
    world.Extends (world.removeTrust peer) := by
  refine ⟨?_, ?_, ?_, ?_⟩
  · intro other
    unfold removeTrust setLedger
    dsimp only
    rw [peers_setPeer]
    split
    · rename_i same
      rw [same]
      exact Nat.le_succ _
    · exact Nat.le_refl _
  · intro other
    unfold removeTrust setLedger
    dsimp only
    rw [peers_setPeer]
    split
    · rename_i same
      intro unchanged
      rw [same] at unchanged
      exact absurd unchanged (Nat.succ_ne_self _)
    · exact fun _ => rfl
  · intro entry entered padding token isToken
    obtain ⟨issued, approved⟩ := entered padding token isToken
    refine ⟨issued, ?_⟩
    unfold removeTrust
    rw [ledgers_setLedger]
    split
    · rename_i same
      intro late
      have reached := sound.issued token issued
      rw [same] at reached
      exact absurd (Nat.lt_of_lt_of_le (Nat.lt_succ_self _) (Nat.le_trans late reached)) (Nat.lt_irrefl _)
    · exact approved
  · intro other
    unfold removeTrust
    rw [ledgers_setLedger]
    split
    · rename_i same
      rw [same]
      exact Nat.le_succ_of_le (sound.since peer)
    · exact Nat.le_refl _

theorem Sound.removeTrust (sound : world.Sound identity) (peer : String) :
    (world.removeTrust peer).Sound identity where
  issued := fun token inIssued =>
    Nat.le_trans (sound.issued token inIssued) ((removeTrust_extends sound peer).revision token.peer)
  pairing := fun entry inPairing =>
    (removeTrust_extends sound peer).entered entry (sound.pairing entry inPairing)
  requests := by
    intro other id
    unfold FriendWorld.removeTrust
    rw [ledgers_setLedger]
    unfold setLedger
    dsimp only
    rw [peers_setPeer]
    split
    · intro inRequests
      cases inRequests
    · exact sound.requests other id
  since := by
    intro other
    unfold FriendWorld.removeTrust
    rw [ledgers_setLedger]
    unfold setLedger
    dsimp only
    rw [peers_setPeer]
    split
    · exact Nat.le_refl _
    · exact sound.since other
  pins := by
    intro other pin
    unfold FriendWorld.removeTrust
    rw [ledgers_setLedger]
    split
    · intro inPins
      cases inPins
    · exact sound.pins other pin
  trusted := by
    intro other
    unfold FriendWorld.removeTrust
    rw [ledgers_setLedger]
    unfold setLedger
    dsimp only
    rw [peers_setPeer]
    split
    · intro trusted
      cases trusted
    · exact sound.trusted other

theorem Consenting.removeTrust (consenting : world.Consenting identity) (peer : String)
    (operation : Nat) {stage : FriendStage}
    (own : StageSound identity (world.removeTrust peer) stage) :
    ((world.removeTrust peer).setStage operation stage).Consenting identity :=
  consenting.goOn (removeTrust_extends consenting.sound peer) (consenting.sound.removeTrust peer) rfl operation own

theorem Consenting.record (consenting : world.Consenting identity) (peer id : String) (now : Nat)
    (operation : Nat) : (world.proceed identity operation id now (.recording peer)).Consenting identity := by
  have sound := consenting.sound
  let ledger : Ledger :=
    { world.ledgers peer with requests := (world.ledgers peer).requests ++ [id] }
  have grows : Ledger.Grows (world.ledgers peer) ledger :=
    ⟨rfl, fun _ before => List.mem_append_left _ before, fun _ approved => approved,
      fun pinned => pinned⟩
  have grown := sound.grow grows fun pin inPins => (sound.pins peer pin inPins).mono grows
  have recorded : ∀ other ∈ ((world.peers peer).recordOutboundRequest id now).requestIds,
      other ∈ ((world.setLedger peer ledger).ledgers peer).requests := by
    intro other inRequests
    rw [ledgers_setLedger, if_pos rfl]
    cases ReefPeerState.requestIds_record inRequests with
    | inl before => exact grows.requests other (sound.requests peer other before)
    | inr new => exact List.mem_append_right _ (List.mem_singleton.mpr new)
  have pinned : ((world.peers peer).recordOutboundRequest id now).trust.isSome = true →
      ((world.setLedger peer ledger).ledgers peer).pins ≠ [] := by
    intro trusted
    rw [ledgers_setLedger, if_pos rfl]
    exact sound.trusted peer trusted
  have after := @Sound.setPeer _ _ grown peer
    ((world.peers peer).recordOutboundRequest id now) (Nat.le_refl _) recorded pinned
  have step := extends_grow grows
  have moved := @extends_setPeer world peer ((world.peers peer).recordOutboundRequest id now)
    (Nat.le_refl _) fun _ => rfl
  exact @Consenting.goOn _ _ ((world.setLedger peer ledger).setPeer peer
    ((world.peers peer).recordOutboundRequest id now)) consenting
    ⟨moved.revision, moved.trust, step.entered, step.since⟩ after rfl operation (.asking peer id) trivial

theorem Consents.token {turn : ReconcileTurn} {entry : PairingEntry}
    (sound : TurnSound identity world turn) (consents : Consents identity world turn entry) :
    ∃ padding token, entry = .token padding token ∧ token.peer = turn.peer ∧
      token.trustRevision = turn.snapshot.revision := by
  obtain ⟨padding, token, rfl, created⟩ := consents.1
  obtain ⟨peer, normalized, rfl⟩ := Option.map_eq_some_iff.mp created
  exact ⟨padding, _, rfl, Option.some.inj (normalized.symm.trans sound.peer), rfl⟩

theorem Consenting.commit (consenting : world.Consenting identity) (operation : Nat)
    {turn : ReconcileTurn} {consumed : Option PairingEntry} {request : Option String} (now : Nat)
    (own : StageSound identity world (.committing turn consumed request)) :
    (world.commit operation turn consumed request now).Consenting identity := by
  have sound := consenting.sound
  have turnSound : TurnSound identity world turn := by
    cases consumed with
    | some entry => exact own.1
    | none => exact own.1
  unfold FriendWorld.commit
  dsimp only
  split
  · exact consenting.stay operation turnSound
  · rename_i state done
    obtain ⟨current, present, next, cleared⟩ := ReefPeerState.commitPeerTrust_some done
    let pin : Pin :=
      { friend := turn.friend, revision := (world.peers turn.peer).revision
        hadTrust := (world.peers turn.peer).trust.isSome, consumed
        present := (world.peers turn.peer).requestIds }
    let ledger : Ledger :=
      { world.ledgers turn.peer with pins := (world.ledgers turn.peer).pins ++ [pin] }
    have grows : Ledger.Grows (world.ledgers turn.peer) ledger :=
      ⟨rfl, fun _ recorded => recorded, fun _ approved => approved, by simp [ledger]⟩
    have justified : pin.Justified identity ledger := by
      cases consumed with
      | some entry =>
        obtain ⟨padding, token, rfl, samePeer, sameRevision⟩ := Consents.token turnSound own.2
        have names : identity.Names (.token padding token) pin.friend pin.revision := by
          rw [show pin.revision = turn.snapshot.revision from current]
          exact own.2.1
        refine .inl ⟨_, rfl, names, ?_⟩
        have since := sound.since turn.peer
        rw [current, ← sameRevision] at since
        have approved := (own.2.2 padding token rfl).2
        rw [samePeer] at approved
        exact approved since
      | none =>
        obtain ⟨id, isRequest⟩ := Option.isSome_iff_exists.mp own.2.2
        have inRequests := present id isRequest
        refine .inr ⟨?_, id, inRequests, sound.requests turn.peer id inRequests⟩
        exact (turnSound.trust current).trans (by rw [own.2.1]; rfl)
    have grown := sound.grow grows (by
      intro other inPins
      cases List.mem_append.mp inPins with
      | inl before => exact (sound.pins turn.peer other before).mono grows
      | inr new => rw [List.mem_singleton.mp new]; exact justified)
    have later : (world.peers turn.peer).revision ≤ state.revision := by omega
    have after := @Sound.setPeer _ _ grown turn.peer state later
      (by rw [cleared]; intro id inRequests; cases inRequests)
      (by rw [ledgers_setLedger, if_pos rfl]; simp [ledger])
    have moved := @extends_setPeer world turn.peer state later fun same => by omega
    have step : world.Extends ((world.setLedger turn.peer ledger).setPeer turn.peer state) :=
      ⟨moved.revision, moved.trust, (extends_grow grows).entered, (extends_grow grows).since⟩
    exact consenting.goOn step after rfl operation (turnSound.approvals.mono step)

theorem next_sound {turn : ReconcileTurn} (sound : TurnSound identity world turn) :
    StageSound identity world turn.next := sound.approvals

theorem tidy_sound {turn : ReconcileTurn} (sound : TurnSound identity world turn)
    (unneeded : Option PairingEntry) : StageSound identity world (turn.tidy unneeded) := by
  cases unneeded with
  | none => exact next_sound sound
  | some entry => exact sound

theorem selfInitiated_some {turn : ReconcileTurn} (initiated : turn.selfInitiated.isSome = true) :
    turn.snapshot.trust = none := by
  unfold ReconcileTurn.selfInitiated at initiated
  split at initiated
  · rename_i unpinned
    exact unpinned.2
  · cases initiated

theorem decide_sound {turn : ReconcileTurn} (sound : TurnSound identity world turn)
    {approval : Option PairingEntry}
    (consents : ∀ entry, approval = some entry → Consents identity world turn entry) :
    StageSound identity world (turn.decide approval) := by
  unfold ReconcileTurn.decide
  split
  · split
    · exact next_sound sound
    · exact sound
  · split
    · split
      · exact sound
      · exact tidy_sound sound _
    · rename_i needed
      cases approval with
      | some entry =>
        dsimp only
        split
        · exact ⟨sound, consents entry rfl⟩
        · exact next_sound sound
      | none =>
        dsimp only
        split
        · have initiated : turn.selfInitiated.isSome = true := by
            simpa [ReconcileTurn.needsPin, Option.isSome_iff_ne_none] using needed
          exact ⟨sound, selfInitiated_some initiated, initiated⟩
        · exact next_sound sound

theorem consumed_sound {turn : ReconcileTurn} (sound : TurnSound identity world turn)
    {entry : PairingEntry} (consents : Consents identity world turn entry)
    (request : Option String) : StageSound identity world (turn.consumed entry request) := by
  unfold ReconcileTurn.consumed
  split
  · exact ⟨sound, consents⟩
  · exact ⟨sound, consents⟩

theorem lastFriend_some {friends : List RelayFriend} {peer : String} {remote : RelayFriend}
    (found : lastFriend friends peer = some remote) : remote ∈ friends ∧ remote.peer = peer :=
  ⟨List.mem_reverse.mp (List.mem_of_find?_eq_some found), by simpa using List.find?_some found⟩

theorem usableApproval_names {friends : List RelayFriend} (consistent : ConsistentList friends)
    {entry : PairingEntry} {token : PairingToken}
    (usable : world.usableApproval identity friends entry = some token) :
    ∀ friend ∈ friends, friend.peer = token.peer → identity.Names entry friend token.trustRevision := by
  intro friend inFriends samePeer
  unfold usableApproval at usable
  split at usable
  · cases usable
  · rename_i parsedToken parsed
    split at usable
    · cases usable
    · rename_i remote found
      split at usable
      · cases usable
      · split at usable
        · rename_i named
          obtain rfl := Option.some.inj usable
          obtain ⟨inList, remotePeer⟩ := lastFriend_some found
          obtain ⟨⟨padding, rfl⟩, _⟩ := ReefIdentity.parse_eq_some parsed
          obtain ⟨_, _, same, created⟩ := ReefIdentity.names_of_matches named
          obtain ⟨_, rfl⟩ := PairingEntry.token.inj same
          have reached : parsedToken.trustRevision = (world.peers parsedToken.peer).revision := by
            obtain ⟨_, _, isToken⟩ := Option.map_eq_some_iff.mp created
            exact (congrArg PairingToken.trustRevision isToken).symm
          refine ⟨padding, parsedToken, rfl, ?_⟩
          rw [reached, ← created]
          apply identity.createPairingApproval_congr (samePeer.trans remotePeer.symm)
          exact consistent friend inFriends remote inList (samePeer.trans remotePeer.symm)
        · cases usable

theorem Consenting.load (consenting : world.Consenting identity) (operation : Nat)
    {friends : List RelayFriend} {approvals : ScriptMap PairingApproval}
    {entries : List PairingEntry}
    (own : StageSound identity world (.loading friends approvals entries)) :
    (world.load identity operation friends approvals entries).Consenting identity := by
  obtain ⟨consistent, names, entered⟩ := own
  cases entries with
  | nil => exact consenting.stay operation names
  | cons entry entries =>
    obtain ⟨enteredFirst, enteredRest⟩ := List.forall_mem_cons.mp entered
    dsimp only [FriendWorld.load]
    split
    · exact consenting.stay operation ⟨consistent, names, enteredRest⟩
    · rename_i token usable
      refine consenting.stay operation ⟨consistent, ?_, enteredRest⟩
      intro friend inFriends approval found
      rw [ScriptMap.get_set] at found
      split at found
      · rename_i same
        obtain rfl := Option.some.inj found
        exact ⟨usableApproval_names consistent usable friend inFriends same.symm, enteredFirst⟩
      · exact names friend inFriends approval found

theorem Consenting.takeTurn (consenting : world.Consenting identity) (operation : Nat)
    {approvals : ScriptMap PairingApproval} {rest : List RelayFriend}
    (own : ApprovalsName identity world approvals rest) :
    (world.takeTurn identity operation approvals rest).Consenting identity := by
  cases rest with
  | nil => exact consenting.stay operation trivial
  | cons friend rest =>
    have names : ApprovalsName identity world approvals rest := fun other inRest =>
      own other (List.mem_cons_of_mem friend inRest)
    dsimp only [FriendWorld.takeTurn]
    split
    · exact consenting.stay operation names
    · split
      · exact consenting.stay operation trivial
      · rename_i peer normalized
        have sound : TurnSound identity world
            { approvals, friend, peer, snapshot := world.peers peer, rest } :=
          ⟨names, normalized, Nat.le_refl _, fun _ => rfl⟩
        split
        · exact consenting.stay operation (decide_sound sound (by intro entry same; cases same))
        · rename_i loaded found
          split
          · rename_i current
            refine consenting.stay operation (decide_sound sound ?_)
            intro entry same
            obtain rfl := Option.some.inj same
            obtain ⟨named, entered⟩ := own friend List.mem_cons_self loaded found
            exact ⟨current ▸ named, entered⟩
          · exact consenting.stay operation sound

theorem bothHalves_sound {peer : String} {approvals other relay : RevocationPart}
    (own : StageSound identity world (.revoking peer other relay)) :
    StageSound identity world (bothHalves peer approvals relay) := by
  cases relay with
  | fenced revision =>
    cases approvals with
    | settled | started | dropping | fencing | fenced => exact own
    | broken => trivial
  | started | dropping | fencing | settled | broken => cases approvals <;> trivial

theorem Consenting.proceed (consenting : world.Consenting identity) (operation : Nat) (id : String)
    (now : Nat) {stage : FriendStage} (own : StageSound identity world stage) :
    (world.proceed identity operation id now stage).Consenting identity := by
  cases stage with
  | listing | revoked | done | failed => exact consenting
  | listingApprovals friends =>
    refine consenting.stay operation ⟨own, ?_, consenting.sound.pairing⟩
    intro friend _ approval found
    cases found
  | loading friends approvals entries => exact consenting.load operation own
  | discarding friends approvals entry entries => exact consenting.removeEntry entry operation own
  | reconciling approvals rest => exact consenting.takeTurn operation own
  | discardingStale turn entry =>
    exact consenting.removeEntry entry operation (decide_sound own (by intro other same; cases same))
  | marking turn =>
    exact consenting.quiet (fun _ => ReefPeerState.markSafetyNumberChanged_quiet) operation
      (next_sound own)
  | forgettingRequest turn unneeded =>
    exact consenting.quiet (fun _ => ReefPeerState.removeOutboundRequest_quiet) operation
      (tidy_sound own unneeded)
  | discardingUnneeded turn entry =>
    exact consenting.removeEntry entry operation (next_sound own)
  | consuming turn entry request =>
    apply consenting.removeEntry entry operation
    split
    · exact consumed_sound own.1 own.2 request
    · exact next_sound own.1
  | responding turn entry request => exact consenting.stay operation own
  | committing turn consumed request => exact consenting.commit operation now own
  | rechecking turn =>
    apply consenting.stay operation
    split
    · exact own
    · exact next_sound own
  | severing turn => exact consenting.stay operation (next_sound own)
  | recording peer => exact consenting.record peer id now operation
  | asking peer id => exact consenting.stay operation trivial
  | rejecting peer id =>
    exact consenting.quiet (fun _ => ReefPeerState.removeOutboundRequest_quiet) operation trivial
  | checking peer id asked =>
    apply consenting.stay operation
    split
    · trivial
    · split <;> trivial
  | undoing peer => exact consenting.stay operation trivial
  | removing peer => exact consenting.removeTrust peer operation trivial
  | revoking peer approvals relay =>
    cases relay with
    | fencing =>
      have fenced : StageSound identity (world.removeTrust peer) (.revoking peer approvals
          (.fenced (world.peers peer).remove.revision)) := by
        show _ ≤ ((world.removeTrust peer).ledgers peer).since
        unfold FriendWorld.removeTrust
        rw [ledgers_setLedger, if_pos rfl]
        exact Nat.le_refl _
      exact consenting.removeTrust peer operation (bothHalves_sound fenced)
    | started => exact consenting.stay operation (@bothHalves_sound _ _ _ _ approvals _ trivial)
    | dropping | settled | broken | fenced =>
      exact consenting.stay operation (bothHalves_sound own)
  | settingAutonomy peer autonomy =>
    dsimp only [FriendWorld.proceed]
    split
    · exact consenting.stay operation trivial
    · rename_i state done
      have changed := ReefPeerState.setAutonomy_quiet done
      refine @Consenting.quiet _ _ consenting peer (some state) ?_ operation _ trivial
      intro other same
      obtain rfl := Option.some.inj same
      exact changed

theorem Consenting.throwing (consenting : world.Consenting identity) (operation : Nat)
    (stage : FriendStage) : (world.throwing operation stage).Consenting identity := by
  unfold FriendWorld.throwing
  split
  · exact consenting.stay operation trivial
  · exact consenting.stay operation (@bothHalves_sound _ _ _ _ .started .broken trivial)
  · exact consenting
  · exact consenting
  · exact consenting.stay operation trivial

def HonestList : FriendEvent → Prop
  | .advance _ (.listed friends) => ConsistentList friends
  | _ => True

theorem Consenting.advance (consenting : world.Consenting identity) (operation : Nat)
    (input : FriendInput) (honest : HonestList (.advance operation input)) :
    (world.advance identity operation input).Consenting identity := by
  unfold FriendWorld.advance
  split
  · exact consenting
  · rename_i stage isStage
    cases input with
    | throws => exact consenting.throwing operation stage
    | goes id now =>
      exact consenting.proceed operation id now (consenting.stages operation stage isStage)
    | listed friends =>
      dsimp only
      split
      · exact consenting.stay operation honest
      · exact consenting
    | rejected =>
      dsimp only
      split
      · exact consenting.stay operation trivial
      · exact consenting

theorem Consenting.revokeApprovals (consenting : world.Consenting identity) (operation : Nat)
    {peer : String} {relay approvals : RevocationPart}
    (own : StageSound identity world (.revoking peer approvals relay)) :
    (world.revokeApprovals identity operation peer relay approvals).Consenting identity := by
  cases approvals with
  | started | fencing | fenced | settled | broken =>
    exact consenting.stay operation (bothHalves_sound own)
  | dropping entries =>
    cases entries with
    | nil => exact consenting.stay operation (bothHalves_sound own)
    | cons entry entries =>
      dsimp only [FriendWorld.revokeApprovals]
      split
      · exact consenting.removeEntry entry operation (bothHalves_sound own)
      · exact consenting.stay operation (bothHalves_sound own)

theorem Consenting.begin (consenting : world.Consenting identity) (operation : Nat)
    (call : FriendCall) : (world.begin identity operation call).Consenting identity := by
  unfold FriendWorld.begin
  split
  · exact consenting
  · apply consenting.stay operation
    cases call with
    | reconcile => trivial
    | request peer | remove peer | setAutonomy peer autonomy =>
      dsimp only
      cases identity.normalizeReefTarget peer <;> trivial

theorem step_consenting (world : FriendWorld) (event : FriendEvent) (honest : HonestList event)
    (consenting : world.Consenting identity) :
    ((machine identity).step world event).Consenting identity := by
  cases event with
  | begin operation call => exact consenting.begin operation call
  | advance operation input => exact consenting.advance operation input honest
  | advanceApprovals operation input =>
    show (world.advanceApprovals identity operation input).Consenting identity
    unfold FriendWorld.advanceApprovals
    split
    · rename_i isStage
      have own := consenting.stages operation _ isStage
      split
      · exact consenting.stay operation (bothHalves_sound own)
      · exact consenting.revokeApprovals operation own
    · exact consenting
  | issue friend trustRevision => exact consenting.issue friend trustRevision
  | approve entry => exact consenting.approve entry
  | withdraw entry => exact consenting.withdraw entry

theorem start_consenting : start.Consenting identity where
  sound :=
    { issued := by intro token inIssued; cases inIssued
      pairing := by intro entry inPairing; cases inPairing
      requests := by intro peer id inRequests; cases inRequests
      since := fun _ => Nat.le_refl _
      pins := by intro peer pin inPins; cases inPins
      trusted := by intro peer trusted; cases trusted }
  stages := by
    intro operation stage isStage
    cases isStage

/-- The owner's consent, in one state. -/
structure PinnedWithConsent (identity : ReefIdentity) (world : FriendWorld) : Prop where
  /-- Every pin since the last removal of its peer is justified by what came after it. -/
  justified : ∀ peer, ∀ pin ∈ (world.ledgers peer).pins, pin.Justified identity (world.ledgers peer)
  /-- There is no trust without such a pin. -/
  pinned : ∀ peer, (world.peers peer).trust.isSome = true → (world.ledgers peer).pins ≠ []
  /-- The ledger of a peer starts after every removal that has completed. -/
  removed : ∀ operation peer revision, world.operations operation = some (.revoked peer revision) →
    revision ≤ (world.ledgers peer).since

end FriendWorld

open FriendWorld

/-- As long as no friend list of the relay has a peer twice under different keys, keys are pinned
only with the owner's consent. -/
theorem keys_pinned_with_consent (identity : ReefIdentity) (events : List FriendEvent)
    (honest : ∀ event ∈ events, HonestList event) :
    PinnedWithConsent identity ((machine identity).run start events) := by
  have consenting : ((machine identity).run start events).Consenting identity :=
    Machine.run_invariant_of (P := fun world : FriendWorld => world.Consenting identity)
      step_consenting start_consenting events honest
  exact ⟨consenting.sound.pins, consenting.sound.trusted,
    fun operation _ _ isStage => consenting.stages operation _ isStage⟩

/-- An identity whose handles are normal as they are and whose digest is the text itself. -/
def plainIdentity : ReefIdentity where
  identityScope := "scope"
  handle := "me"
  normalizeReefTarget := some
  sha256Hex := id

/-- The keys that the owner approves. -/
def approvedFriend : RelayFriend where
  peer := "ada"
  status := .active
  initiatedBy := "ada"
  ed25519Pub := "own-ed"
  x25519Pub := "own-x"
  keyEpoch := 1

/-- Other keys, listed under the same peer. -/
def substitutedFriend : RelayFriend :=
  { approvedFriend with ed25519Pub := "relay-ed", x25519Pub := "relay-x" }

def approvedToken : PairingToken where
  identityScope := "scope"
  peer := "ada"
  keyEpoch := 1
  trustRevision := 0
  keyDigest := plainIdentity.resolvePairingKeyDigest approvedFriend 0

/-- The owner approves the token that is shown, and a reconcile gets this list from the relay. -/
def approvedEvents (friends : List RelayFriend) : List FriendEvent :=
  [.issue approvedFriend 0, .approve (.token 0 approvedToken), .begin 0 .reconcile,
    .advance 0 (.listed friends), .advance 0 (.goes "" 0), .advance 0 (.goes "" 0),
    .advance 0 (.goes "" 0), .advance 0 (.goes "" 0), .advance 0 (.goes "" 0),
    .advance 0 (.goes "" 7)]

def approvedPin (friend : RelayFriend) : Pin where
  friend := friend
  revision := 0
  hadTrust := false
  consumed := some (.token 0 approvedToken)
  present := []

/-- The relay lists the approved keys last: the reconcile pins the keys listed first. -/
theorem substituted_keys_pinned : ¬PinnedWithConsent plainIdentity ((machine plainIdentity).run start
      (approvedEvents [substitutedFriend, approvedFriend])) := by
  intro consent
  have pinned : approvedPin substitutedFriend ∈ (((machine plainIdentity).run start
      (approvedEvents [substitutedFriend, approvedFriend])).ledgers "ada").pins := by
    decide +kernel
  have otherKeys : plainIdentity.createPairingApproval substitutedFriend 0 ≠ some approvedToken := by
    decide
  cases consent.justified "ada" _ pinned with
  | inl approved =>
    obtain ⟨entry, consumed, ⟨padding, token, rfl, named⟩, _⟩ := approved
    obtain ⟨-, rfl⟩ := PairingEntry.token.inj (Option.some.inj consumed)
    exact otherKeys named
  | inr requested =>
    obtain ⟨_, id, present, _⟩ := requested
    cases present

theorem keys_pinned_with_consent_approved : (∀ event ∈ approvedEvents [approvedFriend], HonestList event) ∧
      PinnedWithConsent plainIdentity ((machine plainIdentity).run start (approvedEvents [approvedFriend])) := by
  have honest : ∀ event ∈ approvedEvents [approvedFriend], HonestList event := by
    simp [approvedEvents, HonestList, ConsistentList]
  exact ⟨honest, keys_pinned_with_consent plainIdentity _ honest⟩

end PlatformClaw.Reef
