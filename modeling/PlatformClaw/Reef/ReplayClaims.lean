import PlatformClaw.Library.Machine
import PlatformClaw.Reef.ReplayStore

/-! # Who holds a replay claim

Store instances of any number of processes share the replay rows. An instance
remembers one owner token for each key, so a claimant whose lease has expired
still acts through whatever token its instance holds by then.
-/

namespace PlatformClaw.Reef

open ReefSqliteReplayStore

/-- A claim that came back `new`. Tokens are issued in increasing order. -/
structure ReplayGrant where
  instanceId : Nat
  peer : String
  id : String
  owner : Nat
deriving DecidableEq

def ReplayGrant.key (grant : ReplayGrant) : String × String :=
  reefReplayStoreKey grant.peer grant.id

/-- The calls that are made on behalf of a claimant. -/
inductive ReplayCall (β : Type)
  | refresh
  | complete (receipt : SignedReceipt) (body : Option β)
  | consume
  | release

structure ReplayWorld (σ : Type) where
  rows : ReplayRows σ
  instances : Nat → ClaimOwners
  nextOwner : Nat
  /-- The claims granted so far. -/
  grants : List ReplayGrant
  /-- The tokens whose claim was completed, consumed or released. -/
  ended : List Nat

inductive ReplayEvent (β : Type)
  | claim (instanceId asked : Nat) (moment : StoreMoment) (peer id envelopeHash : String)
  | call (instanceId : Nat) (moment : StoreMoment) (peer id : String) (call : ReplayCall β)
  /-- The sweep of expired rows. -/
  | sweep (now : Nat)

variable {β σ : Type}

namespace ReplayCall

/-- The call, made through a store instance with the memory `owners`. -/
def answer (encryptReplayBody : β → σ) (maxEntries : Nat) (rows : ReplayRows σ)
    (owners : ClaimOwners) (moment : StoreMoment) (peer id : String) :
    ReplayCall β → ReplayAnswer σ Unit
  | .refresh => ReefSqliteReplayStore.refresh maxEntries rows owners moment peer id
  | .complete receipt body =>
    ReefSqliteReplayStore.complete encryptReplayBody maxEntries rows owners moment peer id receipt body
  | .consume => ReefSqliteReplayStore.consume maxEntries rows owners moment peer id
  | .release => ReefSqliteReplayStore.release maxEntries rows owners moment peer id

def keepsClaim : ReplayCall β → Bool
  | .refresh => true
  | _ => false

end ReplayCall

namespace ReplayWorld

def empty : ReplayWorld σ where
  rows := Table.empty
  instances := fun _ _ => none
  nextOwner := 0
  grants := []
  ended := []

def setInstance (world : ReplayWorld σ) (instanceId : Nat) (owners : ClaimOwners) : Nat → ClaimOwners :=
  fun other => if other = instanceId then owners else world.instances other

/-- A claim draws a token, which counts if the claim is granted. -/
def claim (maxEntries : Nat) (world : ReplayWorld σ) (instanceId asked : Nat)
    (moment : StoreMoment) (peer id envelopeHash : String) : ReplayWorld σ :=
  let answer := ReefSqliteReplayStore.claim maxEntries world.rows (world.instances instanceId) moment
    asked world.nextOwner peer id envelopeHash
  { world with
    rows := answer.rows
    instances := world.setInstance instanceId answer.owners
    nextOwner := world.nextOwner + 1
    grants :=
      match answer.result with
      | .ok .new => world.grants ++ [{ instanceId, peer, id, owner := world.nextOwner }]
      | _ => world.grants }

/-- A call that finds the record held by the token it acts with ends that claim, unless it is a
refresh. -/
def call (encryptReplayBody : β → σ) (maxEntries : Nat) (world : ReplayWorld σ)
    (instanceId : Nat) (moment : StoreMoment) (peer id : String) (call : ReplayCall β) :
    ReplayWorld σ :=
  let key := reefReplayStoreKey peer id
  let owners := world.instances instanceId
  let answer := call.answer encryptReplayBody maxEntries world.rows owners moment peer id
  { world with
    rows := answer.rows
    instances := world.setInstance instanceId answer.owners
    ended :=
      if !call.keepsClaim && answer.result.isOk && heldBy (owners key) (world.rows.read key moment.now)
      then world.ended ++ (owners key).toList
      else world.ended }

def step (encryptReplayBody : β → σ) (maxEntries : Nat) (world : ReplayWorld σ) : ReplayEvent β → ReplayWorld σ
  | .claim instanceId asked moment peer id envelopeHash =>
    world.claim maxEntries instanceId asked moment peer id envelopeHash
  | .call instanceId moment peer id call =>
    world.call encryptReplayBody maxEntries instanceId moment peer id call
  | .sweep now => { world with rows := world.rows.expire now }

def machine (encryptReplayBody : β → σ) (maxEntries : Nat) : Machine (ReplayWorld σ) (ReplayEvent β) where
  step := step encryptReplayBody maxEntries

end ReplayWorld

namespace ReplayCall

theorem answer_effect (encryptReplayBody : β → σ) (maxEntries : Nat) (rows : ReplayRows σ)
    (owners : ClaimOwners) (moment : StoreMoment) (peer id : String) (call : ReplayCall β) :
    ∃ target, CallEffect maxEntries rows owners moment (reefReplayStoreKey peer id) target
      (call.answer encryptReplayBody maxEntries rows owners moment peer id).rows
      (call.answer encryptReplayBody maxEntries rows owners moment peer id).owners := by
  cases call with
  | refresh => exact ⟨_, refresh_effect maxEntries rows owners moment peer id⟩
  | complete receipt body =>
    exact ⟨_, complete_effect encryptReplayBody maxEntries rows owners moment peer id receipt body⟩
  | consume =>
    exact ⟨_, finish_effect maxEntries rows owners moment peer id (by intro _ _ same; cases same)⟩
  | release => exact ⟨_, release_effect maxEntries rows owners moment peer id⟩

end ReplayCall

namespace ReplayWorld

/-- The claims and the memories agree with the rows. -/
structure Coherent (world : ReplayWorld σ) : Prop where
  issued : ∀ grant ∈ world.grants, grant.owner < world.nextOwner
  distinct : ∀ grant ∈ world.grants, ∀ other ∈ world.grants, grant.owner = other.owner → grant = other
  remembered : ∀ instanceId key owner, world.instances instanceId key = some owner →
    ∃ grant ∈ world.grants, grant.owner = owner ∧ grant.instanceId = instanceId ∧ grant.key = key
  /-- The instance that the holder of a record claimed through holds its token. -/
  held : ∀ key row owner heldUntil, world.rows.lookup key = some row → row.value.state = .inFlight owner heldUntil →
    ∃ grant ∈ world.grants, grant.owner = owner ∧ grant.key = key ∧
      world.instances grant.instanceId key = some owner ∧
      ∀ other ∈ world.grants, other.key = key → other.owner ≤ owner

theorem empty_coherent : (empty : ReplayWorld σ).Coherent where
  issued := by
    intro grant inGrants
    cases inGrants
  distinct := by
    intro grant inGrants
    cases inGrants
  remembered := by
    intro _ _ _ found
    cases found
  held := by
    intro _ _ _ _ found
    cases found

theorem setInstance_self (world : ReplayWorld σ) (instanceId : Nat) (owners : ClaimOwners) :
    world.setInstance instanceId owners instanceId = owners := if_pos rfl

theorem setInstance_other {world : ReplayWorld σ} {instanceId other : Nat} {owners : ClaimOwners}
    (apart : other ≠ instanceId) : world.setInstance instanceId owners other = world.instances other :=
  if_neg apart

@[simp] theorem setInstance_same (world : ReplayWorld σ) (instanceId : Nat) :
    world.setInstance instanceId (world.instances instanceId) = world.instances := by
  funext other
  by_cases same : other = instanceId
  · rw [same, setInstance_self]
  · exact setInstance_other same

/-- Rows that each were there before keep the agreement, if no memory they rely on is lost. -/
theorem Coherent.of_rows {world after : ReplayWorld σ} (coherent : world.Coherent)
    (grants : after.grants = world.grants) (nextOwner : after.nextOwner = world.nextOwner)
    (memories : ∀ instanceId key owner, after.instances instanceId key = some owner →
      world.instances instanceId key = some owner)
    (rows : ∀ key row owner heldUntil, after.rows.lookup key = some row →
      row.value.state = .inFlight owner heldUntil →
      (∃ old heldBefore, world.rows.lookup key = some old ∧ old.value.state = .inFlight owner heldBefore) ∧
      ∀ instanceId, world.instances instanceId key = some owner →
        after.instances instanceId key = some owner) : after.Coherent where
  issued := by
    rw [grants, nextOwner]
    exact coherent.issued
  distinct := by
    rw [grants]
    exact coherent.distinct
  remembered := by
    intro instanceId key owner found
    rw [grants]
    exact coherent.remembered instanceId key owner (memories instanceId key owner found)
  held := by
    intro key row owner heldUntil found inFlight
    obtain ⟨⟨old, heldBefore, before, same⟩, kept⟩ := rows key row owner heldUntil found inFlight
    obtain ⟨grant, inGrants, token, keyed, memory, latest⟩ :=
      coherent.held key old owner heldBefore before same
    rw [grants]
    exact ⟨grant, inGrants, token, keyed, kept grant.instanceId memory, latest⟩

theorem sweep_coherent {world : ReplayWorld σ} (coherent : world.Coherent) (now : Nat) :
    { world with rows := world.rows.expire now }.Coherent := by
  refine coherent.of_rows rfl rfl (fun _ _ _ found => found) ?_
  intro key row owner heldUntil found inFlight
  exact ⟨⟨row, heldUntil, TimedTable.lookup_of_lookup_expire found, inFlight⟩, fun _ memory => memory⟩

theorem Coherent.writtenBack {world after : ReplayWorld σ} (coherent : world.Coherent)
    {maxEntries : Nat} {moment : StoreMoment} {key : String × String}
    (rows : after.rows = world.rows.stored (replayOptions maxEntries) moment key
      (world.rows.read key moment.now)) (instances : after.instances = world.instances)
    (grants : after.grants = world.grants) (nextOwner : after.nextOwner = world.nextOwner) :
    after.Coherent := by
  apply coherent.of_rows grants nextOwner
  · rw [instances]
    exact fun _ _ _ memory => memory
  · intro other row owner heldUntil found inFlight
    rw [rows] at found
    obtain ⟨old, before, value⟩ := KeyedStore.row_of_written_back found
    rw [instances]
    exact ⟨⟨old, heldUntil, before, value ▸ inFlight⟩, fun _ memory => memory⟩

theorem instances_setInstance {world : ReplayWorld σ} {instanceId other : Nat}
    {owners : ClaimOwners} {key : String × String} {owner : Nat}
    (found : world.setInstance instanceId owners other key = some owner) :
    (other = instanceId ∧ owners key = some owner) ∨
      (other ≠ instanceId ∧ world.instances other key = some owner) := by
  by_cases same : other = instanceId
  · rw [same, setInstance_self] at found
    exact .inl ⟨same, found⟩
  · rw [setInstance_other same] at found
    exact .inr ⟨same, found⟩

theorem memory_kept {world : ReplayWorld σ} {instanceId : Nat} {owners : ClaimOwners}
    (forgets : owners = world.instances instanceId ∨ owners = (world.instances instanceId).drop key)
    {other : String × String} {owner : Nat} (apart : other = key →
      world.instances instanceId key ≠ some owner) (holder : Nat)
    (memory : world.instances holder other = some owner) :
    world.setInstance instanceId owners holder other = some owner := by
  by_cases same : holder = instanceId
  · subst same
    rw [setInstance_self]
    cases forgets with
    | inl kept => rw [kept]; exact memory
    | inr dropped =>
      have different : other ≠ key := by
        intro sameKey
        exact apart sameKey (sameKey ▸ memory)
      rw [dropped, ClaimOwners.drop_other different]
      exact memory
  · rw [setInstance_other same]
    exact memory

theorem Coherent.effect {world after : ReplayWorld σ} (coherent : world.Coherent) {maxEntries : Nat}
    {instanceId : Nat} {moment : StoreMoment} {key : String × String} {rows : ReplayRows σ}
    {owners : ClaimOwners} {target : Option (ReplayState σ)} (effect : CallEffect maxEntries
      world.rows (world.instances instanceId) moment key target rows owners)
    (sameRows : after.rows = rows)
    (sameInstances : after.instances = world.setInstance instanceId owners)
    (grants : after.grants = world.grants) (nextOwner : after.nextOwner = world.nextOwner) :
    after.Coherent := by
  have forgets : owners = world.instances instanceId ∨ owners = (world.instances instanceId).drop key := by
    cases effect with
    | nothing | refreshed => exact .inl rfl
    | notHeld _ kept => exact kept
    | ended => exact .inr rfl
  refine coherent.of_rows grants nextOwner ?memories ?rows
  case memories =>
    intro holder other owner found
    rw [sameInstances] at found
    cases instances_setInstance found with
    | inl own =>
      obtain ⟨rfl, memory⟩ := own
      cases forgets with
      | inl kept => rwa [kept] at memory
      | inr dropped => exact (ClaimOwners.of_drop (dropped ▸ memory)).2
    | inr foreign => exact foreign.2
  case rows =>
    intro other row owner heldUntil found inFlight
    rw [sameRows] at found
    rw [sameInstances]
    cases effect with
    | nothing =>
      rw [setInstance_same]
      exact ⟨⟨row, heldUntil, found, inFlight⟩, fun _ memory => memory⟩
    | @notHeld owners notHeld kept =>
      by_cases same : key = other
      · subst same
        have live := KeyedStore.read_of_lookup_stored found
        obtain ⟨old, before, _, value⟩ := TimedTable.read_eq_some_iff.mp live
        refine ⟨⟨old, heldUntil, before, value ▸ inFlight⟩, ?_⟩
        refine memory_kept forgets ?_
        intro _ token
        rw [heldBy_iff.mpr ⟨row.value, owner, heldUntil, live, inFlight, token⟩] at notHeld
        cases notHeld
      · rw [KeyedStore.lookup_stored_other same] at found
        refine ⟨⟨row, heldUntil, (Option.filter_eq_some_iff.mp found).1, inFlight⟩, ?_⟩
        exact memory_kept forgets fun sameKey => absurd sameKey.symm same
    | @refreshed record claimOwner heldBefore renewedUntil live before token =>
      by_cases same : key = other
      · subst same
        rw [KeyedStore.lookup_stored_self] at found
        obtain rfl := Option.some.inj found
        obtain ⟨rfl, rfl⟩ := ReplayState.inFlight.inj inFlight
        obtain ⟨old, located, _, value⟩ := TimedTable.read_eq_some_iff.mp live
        rw [setInstance_same]
        exact ⟨⟨old, heldBefore, located, value ▸ before⟩, fun _ memory => memory⟩
      · rw [KeyedStore.lookup_stored_other same] at found
        refine ⟨⟨row, heldUntil, (Option.filter_eq_some_iff.mp found).1, inFlight⟩, ?_⟩
        exact memory_kept forgets fun sameKey => absurd sameKey.symm same
    | ended _ _ _ _ final =>
      by_cases same : key = other
      · subst same
        rw [KeyedStore.lookup_stored_self] at found
        obtain rfl := Option.some.inj found
        exact absurd inFlight (final owner heldUntil)
      · rw [KeyedStore.lookup_stored_other same] at found
        refine ⟨⟨row, heldUntil, (Option.filter_eq_some_iff.mp found).1, inFlight⟩, ?_⟩
        exact memory_kept forgets fun sameKey => absurd sameKey.symm same

theorem call_coherent {world : ReplayWorld σ} (coherent : world.Coherent)
    (encryptReplayBody : β → σ) (maxEntries instanceId : Nat) (moment : StoreMoment)
    (peer id : String) (call : ReplayCall β) :
    (world.call encryptReplayBody maxEntries instanceId moment peer id call).Coherent := by
  obtain ⟨target, effect⟩ := call.answer_effect encryptReplayBody maxEntries world.rows
    (world.instances instanceId) moment peer id
  exact coherent.effect effect rfl rfl rfl rfl

/-- A refused claim only leaves an unused token. -/
theorem Coherent.skip {world : ReplayWorld σ} (coherent : world.Coherent) :
    { world with nextOwner := world.nextOwner + 1 }.Coherent where
  issued := fun grant inGrants => Nat.lt_succ_of_lt (coherent.issued grant inGrants)
  distinct := coherent.distinct
  remembered := coherent.remembered
  held := coherent.held

theorem mem_grants {grants : List ReplayGrant} {grant new : ReplayGrant} :
    grant ∈ grants ++ [new] ↔ grant ∈ grants ∨ grant = new := by
  simp

theorem Coherent.grant {world after : ReplayWorld σ} (coherent : world.Coherent)
    {maxEntries instanceId : Nat} {moment : StoreMoment} {peer id : String}
    {record : ReefReplayRecord σ} {heldUntil : Nat}
    (held : record.state = .inFlight world.nextOwner heldUntil)
    (rows : after.rows = world.rows.stored (replayOptions maxEntries) moment
      (reefReplayStoreKey peer id) (some record))
    (instances : after.instances = world.setInstance instanceId
      ((world.instances instanceId).set (reefReplayStoreKey peer id) world.nextOwner))
    (nextOwner : after.nextOwner = world.nextOwner + 1)
    (grants : after.grants = world.grants ++ [{ instanceId, peer, id, owner := world.nextOwner }]) :
    after.Coherent where
  issued := by
    rw [grants, nextOwner]
    intro grant inGrants
    cases mem_grants.mp inGrants with
    | inl before => exact Nat.lt_succ_of_lt (coherent.issued grant before)
    | inr new => rw [new]; exact Nat.lt_succ_self _
  distinct := by
    rw [grants]
    intro grant inGrants other inOther same
    cases mem_grants.mp inGrants with
    | inl before =>
      cases mem_grants.mp inOther with
      | inl otherBefore => exact coherent.distinct grant before other otherBefore same
      | inr otherNew =>
        have issued := coherent.issued grant before
        rw [same, otherNew] at issued
        exact absurd issued (Nat.lt_irrefl _)
    | inr new =>
      cases mem_grants.mp inOther with
      | inl otherBefore =>
        have issued := coherent.issued other otherBefore
        rw [← same, new] at issued
        exact absurd issued (Nat.lt_irrefl _)
      | inr otherNew => exact new.trans otherNew.symm
  remembered := by
    intro holder key owner found
    rw [instances] at found
    rw [grants]
    have before : world.instances holder key = some owner → ∃ grant ∈ world.grants ++
        [{ instanceId, peer, id, owner := world.nextOwner }],
        grant.owner = owner ∧ grant.instanceId = holder ∧ grant.key = key := by
      intro memory
      obtain ⟨grant, inGrants, facts⟩ := coherent.remembered holder key owner memory
      exact ⟨grant, mem_grants.mpr (.inl inGrants), facts⟩
    cases instances_setInstance found with
    | inr foreign => exact before foreign.2
    | inl own =>
      obtain ⟨rfl, memory⟩ := own
      by_cases same : key = reefReplayStoreKey peer id
      · subst same
        rw [ClaimOwners.set_self] at memory
        exact ⟨_, mem_grants.mpr (.inr rfl), Option.some.inj memory, rfl, rfl⟩
      · rw [ClaimOwners.set_other same] at memory
        exact before memory
  held := by
    intro key row owner until_ found inFlight
    rw [rows] at found
    rw [grants, instances]
    by_cases same : reefReplayStoreKey peer id = key
    · subst same
      rw [KeyedStore.lookup_stored_self] at found
      obtain rfl := Option.some.inj found
      obtain ⟨rfl, _⟩ := ReplayState.inFlight.inj (held.symm.trans inFlight)
      refine ⟨_, mem_grants.mpr (.inr rfl), rfl, rfl, ?_, ?_⟩
      · rw [setInstance_self, ClaimOwners.set_self]
      · intro other inOther _
        cases mem_grants.mp inOther with
        | inl before => exact Nat.le_of_lt (coherent.issued other before)
        | inr new => exact Nat.le_of_eq (by rw [new])
    · rw [KeyedStore.lookup_stored_other same] at found
      obtain ⟨holder, inGrants, token, keyed, memory, latest⟩ :=
        coherent.held key row owner until_ (Option.filter_eq_some_iff.mp found).1 inFlight
      refine ⟨holder, mem_grants.mpr (.inl inGrants), token, keyed, ?_, ?_⟩
      · by_cases sameInstance : holder.instanceId = instanceId
        · rw [sameInstance, setInstance_self, ClaimOwners.set_other (Ne.symm same)]
          exact sameInstance ▸ memory
        · rwa [setInstance_other sameInstance]
      · intro other inOther sameKey
        cases mem_grants.mp inOther with
        | inl before => exact latest other before sameKey
        | inr new =>
          rw [new] at sameKey
          exact absurd sameKey same

theorem claim_coherent {world : ReplayWorld σ} (coherent : world.Coherent) (maxEntries instanceId
    asked : Nat) (moment : StoreMoment) (peer id envelopeHash : String) :
    (world.claim maxEntries instanceId asked moment peer id envelopeHash).Coherent := by
  have effect := claim_effect maxEntries world.rows (world.instances instanceId) moment asked
    world.nextOwner peer id envelopeHash
  unfold claim
  generalize ReefSqliteReplayStore.claim maxEntries world.rows (world.instances instanceId) moment
    asked world.nextOwner peer id envelopeHash = answer at effect
  cases effect with
  | failed error =>
    dsimp only
    rw [setInstance_same]
    exact coherent.skip
  | @refused old told live refused =>
    cases told with
    | new => exact refused.elim
    | duplicate | mismatch | inFlight =>
      exact coherent.skip.writtenBack rfl (setInstance_same world instanceId) rfl rfl
  | granted free => exact coherent.grant rfl rfl rfl rfl rfl

theorem step_coherent (encryptReplayBody : β → σ) (maxEntries : Nat) (world : ReplayWorld σ)
    (event : ReplayEvent β) (coherent : world.Coherent) :
    ((machine encryptReplayBody maxEntries).step world event).Coherent := by
  cases event with
  | claim instanceId asked moment peer id envelopeHash =>
    exact claim_coherent coherent maxEntries instanceId asked moment peer id envelopeHash
  | call instanceId moment peer id call =>
    exact call_coherent coherent encryptReplayBody maxEntries instanceId moment peer id call
  | sweep now => exact sweep_coherent coherent now

theorem run_coherent (encryptReplayBody : β → σ) (maxEntries : Nat) (events : List (ReplayEvent β)) :
    ((machine encryptReplayBody maxEntries).run empty events).Coherent :=
  Machine.run_invariant (step_coherent encryptReplayBody maxEntries) empty_coherent events

/-- The lease of `first` has run out without a call of its claimant having ended it, and `second`
has been granted on the same record since. -/
def Overtaken (world : ReplayWorld σ) (first second : ReplayGrant) : Prop :=
  first ∈ world.grants ∧ second ∈ world.grants ∧ second.key = first.key ∧
    first.owner < second.owner ∧ first.owner ∉ world.ended

/-- No call on behalf of an overtaken claimant changes the record, its lease included. -/
def ClaimsExclusive (encryptReplayBody : β → σ) (maxEntries : Nat) (world : ReplayWorld σ) : Prop :=
  ∀ first second, world.Overtaken first second → ∀ (moment : StoreMoment) (call : ReplayCall β),
    (world.call encryptReplayBody maxEntries first.instanceId moment first.peer first.id
      call).rows.read first.key moment.now = world.rows.read first.key moment.now

/-- The record is in flight under this claim. -/
def InFlightUnder (world : ReplayWorld σ) (grant : ReplayGrant) (now : Nat) : Prop :=
  ∃ record heldUntil, world.rows.read grant.key now = some record ∧ record.state = .inFlight grant.owner heldUntil

/-- A claim in flight was obtained through another store instance than those it overtook. -/
def HeldElsewhere (world : ReplayWorld σ) : Prop :=
  ∀ first second, world.Overtaken first second → ∀ now, world.InFlightUnder second now →
    second.instanceId ≠ first.instanceId

/-- The token that an instance acts with is that of a claim obtained through this instance. -/
theorem Coherent.holder {world : ReplayWorld σ} (coherent : world.Coherent) {instanceId : Nat}
    {key : String × String} {now : Nat}
    (held : heldBy (world.instances instanceId key) (world.rows.read key now) = true) :
    ∃ grant ∈ world.grants, grant.key = key ∧ grant.instanceId = instanceId ∧ world.InFlightUnder grant now ∧
      ∀ other ∈ world.grants, other.key = key → other.owner ≤ grant.owner := by
  obtain ⟨record, owner, heldUntil, live, inFlight, token⟩ := heldBy_iff.mp held
  obtain ⟨row, located, _, rfl⟩ := TimedTable.read_eq_some_iff.mp live
  obtain ⟨grant, inGrants, rfl, rfl, _, latest⟩ := coherent.held key row owner heldUntil located inFlight
  obtain ⟨other, inOther, sameOwner, rfl, _⟩ := coherent.remembered instanceId grant.key _ token
  obtain rfl := coherent.distinct other inOther grant inGrants sameOwner
  exact ⟨other, inOther, rfl, rfl, ⟨_, heldUntil, live, inFlight⟩, latest⟩

/-- Late calls are harmless exactly in the states in which the claim in flight was obtained through
another store instance. -/
theorem claims_exclusive_iff (encryptReplayBody : β → σ) (maxEntries : Nat) (events : List (ReplayEvent β)) :
    ((machine encryptReplayBody maxEntries).run empty events).ClaimsExclusive encryptReplayBody maxEntries ↔
      ((machine encryptReplayBody maxEntries).run empty events).HeldElsewhere := by
  have coherent := run_coherent encryptReplayBody maxEntries events
  generalize (machine encryptReplayBody maxEntries).run empty events = world at coherent
  constructor
  · intro exclusive first second overtaken now inFlight sameInstance
    have inSecond := overtaken.2.1
    have sameKey := overtaken.2.2.1
    obtain ⟨record, heldUntil, live, held⟩ := inFlight
    obtain ⟨row, located, _, rfl⟩ := TimedTable.read_eq_some_iff.mp live
    obtain ⟨holder, inHolder, sameOwner, _, memory, _⟩ :=
      coherent.held second.key row second.owner heldUntil located held
    obtain rfl := coherent.distinct holder inHolder second inSecond sameOwner
    rw [sameInstance, sameKey] at memory
    rw [sameKey] at live
    have released := read_release_of_held maxEntries
      { now, pluginHasRoom := true, available := true } rfl live held memory
    have unchanged := exclusive first holder overtaken
      { now, pluginHasRoom := true, available := true } .release
    have same := released.symm.trans (unchanged.trans live)
    rw [← Option.some.inj same] at held
    cases held
  · intro elsewhere first second overtaken moment call
    obtain ⟨target, effect⟩ := call.answer_effect encryptReplayBody maxEntries world.rows
      (world.instances first.instanceId) moment first.peer first.id
    apply effect.read_unchanged
    cases held : heldBy (world.instances first.instanceId first.key) (world.rows.read first.key moment.now) with
    | false => exact held
    | true =>
      obtain ⟨holder, inHolder, sameKey, sameInstance, inFlight, latest⟩ := coherent.holder held
      obtain ⟨inFirst, inSecond, secondKey, earlier, notEnded⟩ := overtaken
      have behind : first.owner < holder.owner :=
        Nat.lt_of_lt_of_le earlier (latest second inSecond secondKey)
      exact absurd sameInstance (elsewhere first holder
        ⟨inFirst, inHolder, sameKey, behind, notEnded⟩ moment.now inFlight)

/-- One process claims a record, and claims it again once the five minutes are over. -/
def reclaimed : ReplayWorld String :=
  (machine id 3000).run empty
    [.claim 0 0 { now := 0, pluginHasRoom := true, available := true } "peer" "message" "hash",
      .claim 0 300000 { now := 300000, pluginHasRoom := true, available := true } "peer" "message"
        "hash"]

/-- The first claimant's late release then gives up the second one's claim. -/
theorem reclaimed_not_exclusive : ¬reclaimed.ClaimsExclusive id 3000 := by
  intro exclusive
  have unchanged := exclusive { instanceId := 0, peer := "peer", id := "message", owner := 0 }
    { instanceId := 0, peer := "peer", id := "message", owner := 1 }
    ⟨by decide, by decide, rfl, by decide, by decide⟩
    { now := 300001, pluginHasRoom := true, available := true } .release
  exact absurd unchanged (by decide)

end ReplayWorld

end PlatformClaw.Reef
