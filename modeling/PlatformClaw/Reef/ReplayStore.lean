import PlatformClaw.Reef.PluginState

/-! # The durable replay store

One record for each peer and message id. A claim takes the record for five
minutes, and its holder completes, consumes or releases it. Which owner token a
store instance holds for a key is remembered in the instance, the record itself
in the shared plugin state.
-/

namespace PlatformClaw.Reef

inductive ReceiptStatus
  | accepted
  | rejected
deriving DecidableEq, Repr

/-- `SignedReceipt`. -/
structure SignedReceipt where
  id : String
  bodyHash : String
  auditHead : String
  status : ReceiptStatus
  category : Option String
  signature : String
deriving DecidableEq, Repr

/-- `validateReplayCompletion`: an accepted receipt comes with a body, a rejected one without. -/
def completionValid {β : Type} (receipt : SignedReceipt) (body : Option β) : Prop :=
  receipt.status = .accepted ↔ body.isSome = true

instance {β : Type} (receipt : SignedReceipt) (body : Option β) :
    Decidable (completionValid receipt body) :=
  inferInstanceAs (Decidable (_ ↔ _))

/-- `ReefReplayRecord["state"]` with the fields that belong to each state. -/
inductive ReplayState (σ : Type)
  | available
  | inFlight (claimOwner claimExpiresAt : Nat)
  | completed (receipt : SignedReceipt) (body : Option σ)
  | consumed
deriving DecidableEq

/-- `ReefReplayRecord`. Bodies are stored sealed. -/
structure ReefReplayRecord (σ : Type) where
  peer : String
  id : String
  envelopeHash : String
  state : ReplayState σ
deriving DecidableEq

inductive ReplayClaim
  | new
  | duplicate
  | mismatch
  | inFlight
deriving DecidableEq, Repr

inductive ReplayError
  | receiptId
  | completion
  | notInFlight
  | store (error : PluginStateError)
deriving DecidableEq, Repr

def reefReplayClaimLeaseMs : Nat := 5 * 60000

/-- `REEF_REPLAY_TTL_MS`: a day more than the greatest age of an envelope. -/
def reefReplayTtlMs : Nat := (30 * 24 * 60 * 60 + 24 * 60 * 60) * 1000

/-- How the store's namespace is opened. -/
def replayOptions (maxEntries : Nat) : StoreOptions where
  maxEntries := maxEntries
  defaultTtlMs := some reefReplayTtlMs

theorem replayOptions_lasting (maxEntries : Nat) : ∀ ttlMs ∈ (replayOptions maxEntries).defaultTtlMs, 0 < ttlMs := by
  intro ttlMs isTtl
  cases isTtl
  decide

/-- `reefReplayStoreKey`; the digest stands for the pair it is taken of. -/
def reefReplayStoreKey (peer id : String) : String × String := (peer, id)

/-- The namespace that all store instances share. -/
abbrev ReplayRows (σ : Type) : Type := KeyedStore (String × String) (ReefReplayRecord σ)

/-- `#claimOwners` of one store instance. -/
abbrev ClaimOwners : Type := String × String → Option Nat

namespace ClaimOwners

def set (owners : ClaimOwners) (key : String × String) (owner : Nat) : ClaimOwners :=
  fun other => if other = key then some owner else owners other

/-- `Map.delete`. -/
def drop (owners : ClaimOwners) (key : String × String) : ClaimOwners :=
  fun other => if other = key then none else owners other

@[simp] theorem set_self (owners : ClaimOwners) (key : String × String) (owner : Nat) :
    owners.set key owner key = some owner := by simp [set]

theorem set_other {owners : ClaimOwners} {key other : String × String} {owner : Nat}
    (apart : other ≠ key) : owners.set key owner other = owners other := by simp [set, apart]

@[simp] theorem drop_self (owners : ClaimOwners) (key : String × String) :
    owners.drop key key = none := by simp [drop]

theorem drop_other {owners : ClaimOwners} {key other : String × String} (apart : other ≠ key) :
    owners.drop key other = owners other := by simp [drop, apart]

theorem of_drop {owners : ClaimOwners} {key other : String × String} {owner : Nat}
    (kept : owners.drop key other = some owner) : other ≠ key ∧ owners other = some owner := by
  unfold drop at kept
  split at kept
  · cases kept
  · exact ⟨‹_›, kept⟩

theorem drop_absent {owners : ClaimOwners} {key : String × String} (absent : owners key = none) :
    owners.drop key = owners := by
  funext other
  by_cases same : other = key
  · rw [same, drop_self, absent]
  · exact drop_other same

end ClaimOwners

/-- What one call leaves: the shared rows, the instance's memory, and its answer. -/
structure ReplayAnswer (σ α : Type) where
  rows : ReplayRows σ
  owners : ClaimOwners
  result : Except ReplayError α

namespace ReefSqliteReplayStore

variable {σ : Type}

/-- `#update`: an error of the store reaches the caller, with the rows as they were. -/
def update {α : Type} (maxEntries : Nat) (rows : ReplayRows σ) (moment : StoreMoment) (peer id : String)
    (updateValue : Option (ReefReplayRecord σ) → Option (ReefReplayRecord σ) × α) :
    ReplayRows σ × Except ReplayError α :=
  match KeyedStore.update (replayOptions maxEntries) rows moment (reefReplayStoreKey peer id)
      (fun current => .ok (updateValue current)) with
  | .ok (written, told) => (written, .ok told)
  | .error error => (rows, .error (.store error))

/-- The callback of `claim`. -/
def claimRecord (peer id envelopeHash : String) (owner claimExpiresAt now : Nat) :
    Option (ReefReplayRecord σ) → Option (ReefReplayRecord σ) × ReplayClaim
  | none =>
    (some { peer, id, envelopeHash, state := .inFlight owner claimExpiresAt }, .new)
  | some existing =>
    if existing.peer ≠ peer ∨ existing.id ≠ id ∨ existing.envelopeHash ≠ envelopeHash then
      (some existing, .mismatch)
    else
      match existing.state with
      | .completed _ _ => (some existing, .duplicate)
      | .consumed => (some existing, .duplicate)
      | .available => (some { existing with state := .inFlight owner claimExpiresAt }, .new)
      | .inFlight _ heldUntil =>
        if now < heldUntil then (some existing, .inFlight)
        else (some { existing with state := .inFlight owner claimExpiresAt }, .new)

/-- `claim`. `owner` is the fresh `randomUUID()`, `asked` the clock before the transaction. -/
def claim (maxEntries : Nat) (rows : ReplayRows σ) (owners : ClaimOwners)
    (moment : StoreMoment) (asked owner : Nat) (peer id envelopeHash : String) :
    ReplayAnswer σ ReplayClaim :=
  let key := reefReplayStoreKey peer id
  let (written, answer) := update maxEntries rows moment peer id
    (claimRecord peer id envelopeHash owner (asked + reefReplayClaimLeaseMs) moment.now)
  match answer with
  | .ok .new => { rows := written, owners := owners.set key owner, result := .ok .new }
  | .ok told => { rows := written, owners, result := .ok told }
  | .error error => { rows := written, owners, result := .error error }

def heldBy (owner : Option Nat) : Option (ReefReplayRecord σ) → Bool
  | some existing =>
    match existing.state with
    | .inFlight claimOwner _ => owner = some claimOwner
    | _ => false
  | none => false

/-- The callback of the calls that need the claim: `change` is applied to the held record. -/
def ifHeld (owner : Option Nat) (change : ReefReplayRecord σ → ReefReplayRecord σ)
    (existing : Option (ReefReplayRecord σ)) : Option (ReefReplayRecord σ) × Bool :=
  if heldBy owner existing then (existing.map change, true) else (existing, false)

/-- `refresh`. -/
def refresh (maxEntries : Nat) (rows : ReplayRows σ) (owners : ClaimOwners)
    (moment : StoreMoment) (peer id : String) : ReplayAnswer σ Unit :=
  let key := reefReplayStoreKey peer id
  match owners key with
  | none => { rows, owners := owners.drop key, result := .error .notInFlight }
  | some owner =>
    match update maxEntries rows moment peer id (ifHeld (some owner) fun existing =>
        { existing with state := .inFlight owner (moment.now + reefReplayClaimLeaseMs) }) with
    | (written, .ok true) => { rows := written, owners, result := .ok () }
    | (written, .ok false) =>
      { rows := written, owners := owners.drop key, result := .error .notInFlight }
    | (written, .error error) => { rows := written, owners, result := .error error }

/-- The end of `complete` and `consume`: the memory is given up once the record has changed. -/
def finish (maxEntries : Nat) (rows : ReplayRows σ) (owners : ClaimOwners)
    (moment : StoreMoment) (peer id : String) (state : ReplayState σ) : ReplayAnswer σ Unit :=
  let key := reefReplayStoreKey peer id
  match update maxEntries rows moment peer id
      (ifHeld (owners key) fun existing => { existing with state := state }) with
  | (written, .ok true) => { rows := written, owners := owners.drop key, result := .ok () }
  | (written, .ok false) => { rows := written, owners, result := .error .notInFlight }
  | (written, .error error) => { rows := written, owners, result := .error error }

/-- `complete`; `body` is sealed with `encryptReplayBody`. -/
def complete {β : Type} (encryptReplayBody : β → σ) (maxEntries : Nat) (rows : ReplayRows σ)
    (owners : ClaimOwners) (moment : StoreMoment) (peer id : String) (receipt : SignedReceipt)
    (body : Option β) : ReplayAnswer σ Unit :=
  if receipt.id ≠ id then { rows, owners, result := .error .receiptId }
  else if ¬completionValid receipt body then { rows, owners, result := .error .completion }
  else
    finish maxEntries rows owners moment peer id (.completed receipt (body.map encryptReplayBody))

/-- `consume`. -/
def consume (maxEntries : Nat) (rows : ReplayRows σ) (owners : ClaimOwners)
    (moment : StoreMoment) (peer id : String) : ReplayAnswer σ Unit :=
  finish maxEntries rows owners moment peer id .consumed

/-- `release`. -/
def release (maxEntries : Nat) (rows : ReplayRows σ) (owners : ClaimOwners)
    (moment : StoreMoment) (peer id : String) : ReplayAnswer σ Unit :=
  let key := reefReplayStoreKey peer id
  match update maxEntries rows moment peer id
      (ifHeld (owners key) fun existing => { existing with state := .available }) with
  | (written, .ok _) => { rows := written, owners := owners.drop key, result := .ok () }
  | (written, .error error) => { rows := written, owners, result := .error error }

/-- `completed`: the receipt and the body of a completed record. -/
def completed {β : Type} (decryptReplayBody : σ → β) (rows : ReplayRows σ) (now : Nat)
    (peer id : String) : Option (SignedReceipt × Option β) :=
  match rows.read (reefReplayStoreKey peer id) now with
  | none => none
  | some existing =>
    if existing.peer ≠ peer ∨ existing.id ≠ id then none
    else
      match existing.state with
      | .completed receipt body => some (receipt, body.map decryptReplayBody)
      | _ => none

variable {α : Type} {maxEntries : Nat} {rows : ReplayRows σ} {owners : ClaimOwners}
  {moment : StoreMoment} {peer id : String}

theorem update_cases (maxEntries : Nat) (rows : ReplayRows σ) (moment : StoreMoment)
    (peer id : String) (updateValue : Option (ReefReplayRecord σ) → Option (ReefReplayRecord σ) × α) :
    (∃ error, update maxEntries rows moment peer id updateValue = (rows, .error (.store error))) ∨
      ∃ next told, updateValue (rows.read (reefReplayStoreKey peer id) moment.now) = (next, told) ∧
        update maxEntries rows moment peer id updateValue =
          (rows.stored (replayOptions maxEntries) moment (reefReplayStoreKey peer id) next, .ok told) := by
  unfold update
  split
  · rename_i written told done
    obtain ⟨next, answered, rfl⟩ := KeyedStore.update_ok done
    exact .inr ⟨next, told, Except.ok.inj answered, rfl⟩
  · rename_i error _
    exact .inl ⟨error, rfl⟩

theorem heldBy_iff {owner : Option Nat} {existing : Option (ReefReplayRecord σ)} :
    heldBy owner existing = true ↔ ∃ record claimOwner claimExpiresAt, existing = some record ∧
      record.state = .inFlight claimOwner claimExpiresAt ∧ owner = some claimOwner := by
  cases existing with
  | none => simp [heldBy]
  | some record => cases held : record.state <;> simp [heldBy, held]

/-- What a call that needs a claim leaves of the rows and the memory. The calls that end a claim
have the state they leave the record in as their target. -/
inductive CallEffect (maxEntries : Nat) (rows : ReplayRows σ) (owners : ClaimOwners)
    (moment : StoreMoment) (key : String × String) (target : Option (ReplayState σ)) :
    ReplayRows σ → ClaimOwners → Prop
  /-- The call threw before the transaction, or in it. -/
  | nothing : CallEffect maxEntries rows owners moment key target rows owners
  /-- The record is not held by the instance's token and is written back. -/
  | notHeld {owners' : ClaimOwners} :
      heldBy (owners key) (rows.read key moment.now) = false →
      owners' = owners ∨ owners' = owners.drop key →
      CallEffect maxEntries rows owners moment key target
        (rows.stored (replayOptions maxEntries) moment key (rows.read key moment.now)) owners'
  | refreshed {record : ReefReplayRecord σ} {owner heldUntil renewedUntil : Nat} :
      rows.read key moment.now = some record → record.state = .inFlight owner heldUntil →
      owners key = some owner →
      CallEffect maxEntries rows owners moment key target (rows.stored (replayOptions maxEntries) moment key
          (some { record with state := .inFlight owner renewedUntil })) owners
  | ended {record : ReefReplayRecord σ} {owner heldUntil : Nat} {state : ReplayState σ} :
      rows.read key moment.now = some record → record.state = .inFlight owner heldUntil →
      owners key = some owner → target = some state →
      (∀ claimOwner expiresAt, state ≠ .inFlight claimOwner expiresAt) →
      CallEffect maxEntries rows owners moment key target
        (rows.stored (replayOptions maxEntries) moment key (some { record with state := state }))
        (owners.drop key)

theorem ifHeld_cases (owner : Option Nat)
    (change : ReefReplayRecord σ → ReefReplayRecord σ) (existing : Option (ReefReplayRecord σ)) :
    (heldBy owner existing = false ∧ ifHeld owner change existing = (existing, false)) ∨
      ∃ record claimOwner claimExpiresAt, existing = some record ∧
        record.state = .inFlight claimOwner claimExpiresAt ∧ owner = some claimOwner ∧
        ifHeld owner change existing = (some (change record), true) := by
  unfold ifHeld
  cases held : heldBy owner existing with
  | false => exact .inl ⟨rfl, rfl⟩
  | true =>
    obtain ⟨record, claimOwner, claimExpiresAt, rfl, inFlight, same⟩ := heldBy_iff.mp held
    exact .inr ⟨record, claimOwner, claimExpiresAt, rfl, inFlight, same, rfl⟩

theorem update_ifHeld_cases (maxEntries : Nat) (rows : ReplayRows σ) (moment : StoreMoment)
    (peer id : String) (owner : Option Nat) (change : ReefReplayRecord σ → ReefReplayRecord σ) :
    (∃ error, update maxEntries rows moment peer id (ifHeld owner change) = (rows, .error (.store error))) ∨
      (heldBy owner (rows.read (reefReplayStoreKey peer id) moment.now) = false ∧
        update maxEntries rows moment peer id (ifHeld owner change) =
          (rows.stored (replayOptions maxEntries) moment (reefReplayStoreKey peer id)
            (rows.read (reefReplayStoreKey peer id) moment.now), .ok false)) ∨
      ∃ record claimOwner claimExpiresAt, rows.read (reefReplayStoreKey peer id) moment.now = some record ∧
        record.state = .inFlight claimOwner claimExpiresAt ∧ owner = some claimOwner ∧
        update maxEntries rows moment peer id (ifHeld owner change) =
          (rows.stored (replayOptions maxEntries) moment (reefReplayStoreKey peer id)
            (some (change record)), .ok true) := by
  obtain failed | ⟨next, told, answered, done⟩ := update_cases maxEntries rows moment peer id (ifHeld owner change)
  · exact .inl failed
  · rw [done]
    obtain ⟨notHeld, same⟩ | ⟨record, claimOwner, expires, found, inFlight, token, same⟩ :=
      ifHeld_cases owner change (rows.read (reefReplayStoreKey peer id) moment.now)
    · obtain ⟨rfl, rfl⟩ := Prod.mk.inj (same.symm.trans answered)
      exact .inr (.inl ⟨notHeld, rfl⟩)
    · obtain ⟨rfl, rfl⟩ := Prod.mk.inj (same.symm.trans answered)
      exact .inr (.inr ⟨record, claimOwner, expires, found, inFlight, token, rfl⟩)

theorem refresh_effect (maxEntries : Nat) (rows : ReplayRows σ) (owners : ClaimOwners)
    (moment : StoreMoment) (peer id : String) :
    CallEffect maxEntries rows owners moment (reefReplayStoreKey peer id) none
      (refresh maxEntries rows owners moment peer id).rows
      (refresh maxEntries rows owners moment peer id).owners := by
  unfold refresh
  dsimp only
  split
  · rename_i absent
    rw [ClaimOwners.drop_absent absent]
    exact .nothing
  · rename_i owner token
    obtain ⟨error, done⟩ | ⟨notHeld, done⟩ | ⟨record, claimOwner, expires, found, inFlight, same, done⟩ :=
      update_ifHeld_cases maxEntries rows moment peer id (some owner) fun existing =>
        { existing with state := .inFlight owner (moment.now + reefReplayClaimLeaseMs) }
    · rw [done]
      exact .nothing
    · rw [done]
      exact .notHeld (token ▸ notHeld) (.inr rfl)
    · rw [done]
      cases same
      exact .refreshed found inFlight token

theorem finish_cases (maxEntries : Nat) (rows : ReplayRows σ) (owners : ClaimOwners)
    (moment : StoreMoment) (peer id : String) (state : ReplayState σ) :
    (∃ error, finish maxEntries rows owners moment peer id state =
        { rows, owners, result := .error error }) ∨
      (heldBy (owners (reefReplayStoreKey peer id)) (rows.read (reefReplayStoreKey peer id) moment.now) = false ∧
        finish maxEntries rows owners moment peer id state =
          { rows := rows.stored (replayOptions maxEntries) moment (reefReplayStoreKey peer id)
              (rows.read (reefReplayStoreKey peer id) moment.now)
            owners, result := .error .notInFlight }) ∨
      ∃ record owner heldUntil, rows.read (reefReplayStoreKey peer id) moment.now = some record ∧
        record.state = .inFlight owner heldUntil ∧
        owners (reefReplayStoreKey peer id) = some owner ∧
        finish maxEntries rows owners moment peer id state =
          { rows := rows.stored (replayOptions maxEntries) moment (reefReplayStoreKey peer id)
              (some { record with state := state })
            owners := owners.drop (reefReplayStoreKey peer id), result := .ok () } := by
  unfold finish
  dsimp only
  obtain ⟨error, done⟩ | ⟨notHeld, done⟩ | ⟨record, claimOwner, expires, found, inFlight, same, done⟩ :=
    update_ifHeld_cases maxEntries rows moment peer id (owners (reefReplayStoreKey peer id))
      fun existing => { existing with state := state }
  · rw [done]
    exact .inl ⟨_, rfl⟩
  · rw [done]
    exact .inr (.inl ⟨notHeld, rfl⟩)
  · rw [done]
    exact .inr (.inr ⟨record, claimOwner, expires, found, inFlight, same, rfl⟩)

theorem finish_effect (maxEntries : Nat) (rows : ReplayRows σ) (owners : ClaimOwners)
    (moment : StoreMoment) (peer id : String) {state : ReplayState σ}
    (final : ∀ claimOwner expiresAt, state ≠ .inFlight claimOwner expiresAt) :
    CallEffect maxEntries rows owners moment (reefReplayStoreKey peer id) (some state)
      (finish maxEntries rows owners moment peer id state).rows
      (finish maxEntries rows owners moment peer id state).owners := by
  obtain ⟨error, done⟩ | ⟨notHeld, done⟩ | ⟨record, owner, heldUntil, found, inFlight, token, done⟩ :=
    finish_cases maxEntries rows owners moment peer id state
  · rw [done]
    exact .nothing
  · rw [done]
    exact .notHeld notHeld (.inl rfl)
  · rw [done]
    exact .ended found inFlight token rfl final

theorem complete_effect {β : Type} (encryptReplayBody : β → σ) (maxEntries : Nat)
    (rows : ReplayRows σ) (owners : ClaimOwners) (moment : StoreMoment) (peer id : String)
    (receipt : SignedReceipt) (body : Option β) :
    CallEffect maxEntries rows owners moment (reefReplayStoreKey peer id)
      (some (.completed receipt (body.map encryptReplayBody)))
      (complete encryptReplayBody maxEntries rows owners moment peer id receipt body).rows
      (complete encryptReplayBody maxEntries rows owners moment peer id receipt body).owners := by
  unfold complete
  split
  · exact .nothing
  · split
    · exact .nothing
    · exact finish_effect maxEntries rows owners moment peer id (by intro _ _ same; cases same)

theorem release_effect (maxEntries : Nat) (rows : ReplayRows σ) (owners : ClaimOwners)
    (moment : StoreMoment) (peer id : String) :
    CallEffect maxEntries rows owners moment (reefReplayStoreKey peer id) (some .available)
      (release maxEntries rows owners moment peer id).rows
      (release maxEntries rows owners moment peer id).owners := by
  unfold release
  dsimp only
  obtain ⟨error, done⟩ | ⟨notHeld, done⟩ | ⟨record, claimOwner, expires, found, inFlight, same, done⟩ :=
    update_ifHeld_cases maxEntries rows moment peer id (owners (reefReplayStoreKey peer id))
      fun existing => { existing with state := .available }
  · rw [done]
    exact .nothing
  · rw [done]
    exact .notHeld notHeld (.inr rfl)
  · rw [done]
    exact .ended found inFlight same rfl (by intro _ _ same; cases same)

/-- The record may be taken by a claim for this hash. -/
def Claimable (peer id envelopeHash : String) (now : Nat) (existing : ReefReplayRecord σ) : Prop :=
  existing.peer = peer ∧ existing.id = id ∧ existing.envelopeHash = envelopeHash ∧ (existing.state = .available ∨
      ∃ owner heldUntil, existing.state = .inFlight owner heldUntil ∧ heldUntil ≤ now)

def RefusedAs (peer id envelopeHash : String) (now : Nat) (existing : ReefReplayRecord σ) : ReplayClaim → Prop
  | .new => False
  | .mismatch =>
    existing.peer ≠ peer ∨ existing.id ≠ id ∨ existing.envelopeHash ≠ envelopeHash
  | .duplicate =>
    (existing.peer = peer ∧ existing.id = id ∧ existing.envelopeHash = envelopeHash) ∧
      (existing.state = .consumed ∨ ∃ receipt body, existing.state = .completed receipt body)
  | .inFlight =>
    (existing.peer = peer ∧ existing.id = id ∧ existing.envelopeHash = envelopeHash) ∧
      ∃ owner heldUntil, existing.state = .inFlight owner heldUntil ∧ now < heldUntil

theorem claimRecord_cases (peer id envelopeHash : String) (owner claimExpiresAt now : Nat)
    (existing : Option (ReefReplayRecord σ)) :
    (claimRecord peer id envelopeHash owner claimExpiresAt now existing =
        (some { peer, id, envelopeHash, state := .inFlight owner claimExpiresAt }, .new) ∧
      ∀ old ∈ existing, Claimable peer id envelopeHash now old) ∨
    ∃ old told, existing = some old ∧ RefusedAs peer id envelopeHash now old told ∧
      claimRecord peer id envelopeHash owner claimExpiresAt now existing = (some old, told) := by
  cases existing with
  | none => exact .inl ⟨rfl, by simp⟩
  | some old =>
    by_cases apart : old.peer ≠ peer ∨ old.id ≠ id ∨ old.envelopeHash ≠ envelopeHash
    · exact .inr ⟨old, .mismatch, rfl, apart, by simp only [claimRecord, if_pos apart]⟩
    · obtain ⟨rfl, rfl, rfl⟩ : old.peer = peer ∧ old.id = id ∧ old.envelopeHash = envelopeHash := by
        simpa only [not_or, Decidable.not_not] using apart
      simp only [claimRecord, if_neg apart]
      obtain ⟨oldPeer, oldId, oldHash, state⟩ := old
      cases state with
      | available =>
        refine .inl ⟨rfl, ?_⟩
        intro other same
        cases same
        exact ⟨rfl, rfl, rfl, .inl rfl⟩
      | inFlight holder heldUntil =>
        dsimp only
        by_cases current : now < heldUntil
        · rw [if_pos current]
          exact .inr ⟨_, .inFlight, rfl, ⟨⟨rfl, rfl, rfl⟩, holder, heldUntil, rfl, current⟩, rfl⟩
        · rw [if_neg current]
          refine .inl ⟨rfl, ?_⟩
          intro other same
          cases same
          exact ⟨rfl, rfl, rfl, .inr ⟨holder, heldUntil, rfl, Nat.le_of_not_lt current⟩⟩
      | completed receipt body =>
        exact .inr ⟨_, .duplicate, rfl, ⟨⟨rfl, rfl, rfl⟩, .inr ⟨receipt, body, rfl⟩⟩, rfl⟩
      | consumed => exact .inr ⟨_, .duplicate, rfl, ⟨⟨rfl, rfl, rfl⟩, .inl rfl⟩, rfl⟩

inductive ClaimEffect (maxEntries : Nat) (rows : ReplayRows σ) (owners : ClaimOwners)
    (moment : StoreMoment) (asked owner : Nat) (peer id envelopeHash : String) :
    ReplayAnswer σ ReplayClaim → Prop
  | failed (error : ReplayError) :
      ClaimEffect maxEntries rows owners moment asked owner peer id envelopeHash
        { rows, owners, result := .error error }
  | refused {old : ReefReplayRecord σ} {told : ReplayClaim} :
      rows.read (reefReplayStoreKey peer id) moment.now = some old →
      RefusedAs peer id envelopeHash moment.now old told →
      ClaimEffect maxEntries rows owners moment asked owner peer id envelopeHash
        { rows := rows.stored (replayOptions maxEntries) moment (reefReplayStoreKey peer id)
            (rows.read (reefReplayStoreKey peer id) moment.now)
          owners, result := .ok told }
  | granted :
      (∀ old ∈ rows.read (reefReplayStoreKey peer id) moment.now, Claimable peer id envelopeHash moment.now old) →
      ClaimEffect maxEntries rows owners moment asked owner peer id envelopeHash
        { rows := rows.stored (replayOptions maxEntries) moment (reefReplayStoreKey peer id)
            (some { peer, id, envelopeHash
                    state := .inFlight owner (asked + reefReplayClaimLeaseMs) })
          owners := owners.set (reefReplayStoreKey peer id) owner, result := .ok .new }

theorem claim_effect (maxEntries : Nat) (rows : ReplayRows σ) (owners : ClaimOwners)
    (moment : StoreMoment) (asked owner : Nat) (peer id envelopeHash : String) :
    ClaimEffect maxEntries rows owners moment asked owner peer id envelopeHash
      (claim maxEntries rows owners moment asked owner peer id envelopeHash) := by
  unfold claim
  dsimp only
  obtain ⟨error, done⟩ | ⟨next, told, answered, done⟩ := update_cases maxEntries rows moment peer id
    (claimRecord peer id envelopeHash owner (asked + reefReplayClaimLeaseMs) moment.now)
  · rw [done]
    exact .failed _
  · rw [done]
    obtain ⟨taken, free⟩ | ⟨old, answer, found, refused, same⟩ :=
      claimRecord_cases peer id envelopeHash owner (asked + reefReplayClaimLeaseMs) moment.now
        (rows.read (reefReplayStoreKey peer id) moment.now)
    · obtain ⟨rfl, rfl⟩ := Prod.mk.inj (taken.symm.trans answered)
      exact .granted free
    · obtain ⟨rfl, rfl⟩ := Prod.mk.inj (same.symm.trans answered)
      rw [← found]
      cases answer with
      | new => exact refused.elim
      | duplicate | mismatch | inFlight => exact .refused found refused

theorem CallEffect.read_unchanged {key : String × String} {after : ReplayRows σ}
    {owners' : ClaimOwners} {target : Option (ReplayState σ)}
    (effect : CallEffect maxEntries rows owners moment key target after owners')
    (notHeld : heldBy (owners key) (rows.read key moment.now) = false) :
    after.read key moment.now = rows.read key moment.now := by
  cases effect with
  | nothing => rfl
  | notHeld => exact KeyedStore.read_stored_unchanged (replayOptions_lasting maxEntries)
  | refreshed live inFlight token | ended live inFlight token _ _ =>
    rw [heldBy_iff.mpr ⟨_, _, _, live, inFlight, token⟩] at notHeld
    cases notHeld

variable (maxEntries moment) in
theorem read_release_of_held {record : ReefReplayRecord σ} {owner heldUntil : Nat}
    (available : moment.available = true)
    (live : rows.read (reefReplayStoreKey peer id) moment.now = some record)
    (inFlight : record.state = .inFlight owner heldUntil)
    (token : owners (reefReplayStoreKey peer id) = some owner) :
    (release maxEntries rows owners moment peer id).rows.read (reefReplayStoreKey peer id)
      moment.now = some { record with state := .available } := by
  have held : heldBy (owners (reefReplayStoreKey peer id)) (some record) = true :=
    heldBy_iff.mpr ⟨record, owner, heldUntil, rfl, inFlight, token⟩
  have answered : ifHeld (owners (reefReplayStoreKey peer id))
      (fun existing => { existing with state := .available }) (some record) =
        (some { record with state := .available }, true) := by
    simp [ifHeld, held]
  unfold release update
  dsimp only
  rw [KeyedStore.update_live available live (congrArg Except.ok answered)]
  exact KeyedStore.read_stored_self (replayOptions_lasting maxEntries)

end ReefSqliteReplayStore

end PlatformClaw.Reef
