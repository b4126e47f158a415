import PlatformClaw.Reef.ReplayContract

/-! # The two replay stores

The durable store and the store in memory, both as instances of the contract.
-/

namespace PlatformClaw.Reef

open ReefSqliteReplayStore

variable {β σ : Type}

/-- The shared rows, and what each instance remembers. -/
structure DurableReplay (σ : Type) where
  rows : ReplayRows σ
  instances : Nat → ClaimOwners
  nextOwner : Nat

namespace DurableReplay

def empty : DurableReplay σ where
  rows := Table.empty
  instances := fun _ _ => none
  nextOwner := 0

def after {α : Type} (state : DurableReplay σ) (instanceId : Nat) (answer : ReplayAnswer σ α) :
    DurableReplay σ × Except ReplayError α :=
  ({ state with
      rows := answer.rows
      instances := fun other => if other = instanceId then answer.owners else state.instances other },
    answer.result)

def claim (maxEntries : Nat) (state : DurableReplay σ) (site : CallSite) (peer id hash : String) :
    DurableReplay σ × Except ReplayError ReplayClaim :=
  { state with nextOwner := state.nextOwner + 1 }.after site.instanceId
    (ReefSqliteReplayStore.claim maxEntries state.rows (state.instances site.instanceId) site.moment
      site.asked state.nextOwner peer id hash)

def refresh (maxEntries : Nat) (state : DurableReplay σ) (site : CallSite) (peer id : String) :
    DurableReplay σ × Except ReplayError Unit :=
  state.after site.instanceId (ReefSqliteReplayStore.refresh maxEntries state.rows
    (state.instances site.instanceId) site.moment peer id)

def release (maxEntries : Nat) (state : DurableReplay σ) (site : CallSite) (peer id : String) :
    DurableReplay σ × Except ReplayError Unit :=
  state.after site.instanceId (ReefSqliteReplayStore.release maxEntries state.rows
    (state.instances site.instanceId) site.moment peer id)

def complete (encryptReplayBody : Nat → β → σ) (maxEntries : Nat) (state : DurableReplay σ)
    (site : CallSite) (peer id : String) (receipt : SignedReceipt) (body : Option β) :
    DurableReplay σ × Except ReplayError Unit :=
  state.after site.instanceId (ReefSqliteReplayStore.complete (encryptReplayBody site.nonce) maxEntries
    state.rows (state.instances site.instanceId) site.moment peer id receipt body)

def completed (decryptReplayBody : σ → β) (state : DurableReplay σ) (site : CallSite)
    (peer id : String) : Except ReplayError (Option (SignedReceipt × Option β)) :=
  if site.moment.available then
    .ok (ReefSqliteReplayStore.completed decryptReplayBody state.rows site.moment.now peer id)
  else .error (.store .unavailable)

/-- The store of one namespace of the plugin state. -/
def store (encryptReplayBody : Nat → β → σ) (decryptReplayBody : σ → β) (maxEntries : Nat) :
    ReplayStore β (DurableReplay σ) where
  claim := claim maxEntries
  refresh := refresh maxEntries
  complete := complete encryptReplayBody maxEntries
  release := release maxEntries
  completed := completed decryptReplayBody
  sweep state now := { state with rows := state.rows.expire now }

def bindingOf (decryptReplayBody : σ → β) (record : ReefReplayRecord σ) : Binding β where
  envelopeHash := record.envelopeHash
  state :=
    match record.state with
    | .available => .unfinished
    | .inFlight _ _ => .unfinished
    | .completed receipt body => .completed receipt (body.map decryptReplayBody)
    | .consumed => .consumed

def binding (decryptReplayBody : σ → β) (state : DurableReplay σ) (key : String × String) : Option (Binding β) :=
  (state.rows.lookup key).map fun row => bindingOf decryptReplayBody row.value

/-- The row under the key has not expired. -/
def Retains (state : DurableReplay σ) (now : Nat) (key : String × String) : Prop :=
  ∀ row, state.rows.lookup key = some row → row.live now = true

/-- Every record is stored under its own key. -/
def Valid (state : DurableReplay σ) : Prop :=
  ∀ key row, state.rows.lookup key = some row → (row.value.peer, row.value.id) = key

variable {state : DurableReplay σ} {key : String × String} {now : Nat} {maxEntries : Nat}
  {moment : StoreMoment} {decryptReplayBody : σ → β}

theorem Retains.read (retained : state.Retains now key) :
    state.rows.read key now = (state.rows.lookup key).map TimedRow.value := by
  cases found : state.rows.lookup key with
  | none => simp [TimedTable.read, found]
  | some row => rw [TimedTable.read, found, Option.filter_some, if_pos (retained row found)]

theorem Retains.binding (retained : state.Retains now key) : state.binding decryptReplayBody key =
      (state.rows.read key now).map (bindingOf decryptReplayBody) := by
  rw [retained.read, DurableReplay.binding, Option.map_map]
  rfl

theorem Retains.lookup_expire (retained : state.Retains now key) :
    (state.rows.lookup key).filter (fun row => row.live now) = state.rows.lookup key := by
  cases found : state.rows.lookup key with
  | none => rfl
  | some row => simp [retained row found]

theorem binding_other {rows : ReplayRows σ} {other : String × String}
    {next : Option (ReefReplayRecord σ)} {instances : Nat → ClaimOwners} {nextOwner : Nat}
    (apart : other ≠ key) (retained : state.Retains moment.now other)
    (stored : rows = state.rows.stored (replayOptions maxEntries) moment key next) :
    binding decryptReplayBody { rows, instances, nextOwner } other = state.binding decryptReplayBody other := by
  rw [binding, stored, KeyedStore.lookup_stored_other (Ne.symm apart), retained.lookup_expire]
  rfl

theorem binding_self {rows : ReplayRows σ} {record : ReefReplayRecord σ}
    {instances : Nat → ClaimOwners} {nextOwner : Nat}
    (stored : rows = state.rows.stored (replayOptions maxEntries) moment key (some record)) :
    binding decryptReplayBody { rows, instances, nextOwner } key = some (bindingOf decryptReplayBody record) := by
  rw [binding, stored, KeyedStore.lookup_stored_self]
  rfl

theorem binding_writtenBack {rows : ReplayRows σ} {other : String × String}
    {instances : Nat → ClaimOwners} {nextOwner : Nat}
    (stored : rows = state.rows.stored (replayOptions maxEntries) moment key
      (state.rows.read key moment.now)) (retained : state.Retains moment.now other) :
    binding decryptReplayBody { rows, instances, nextOwner } other = state.binding decryptReplayBody other := by
  by_cases same : other = key
  · subst same
    rw [retained.binding]
    cases live : state.rows.read other moment.now with
    | some record => exact binding_self (live ▸ stored)
    | none =>
      rw [live] at stored
      rw [binding, stored, KeyedStore.stored, Option.elim_none, TimedTable.lookup_expire, retained.lookup_expire]
      rw [retained.read] at live
      rw [Option.map_eq_none_iff.mp live]
      rfl
  · exact binding_other same retained stored

theorem Valid.of_rows {after : DurableReplay σ} (valid : state.Valid)
    (rows : ∀ key row, after.rows.lookup key = some row →
      (∃ old, state.rows.lookup key = some old ∧ old.value.peer = row.value.peer ∧
        old.value.id = row.value.id) ∨ (row.value.peer, row.value.id) = key) : after.Valid := by
  intro key row found
  cases rows key row found with
  | inl before =>
    obtain ⟨old, located, samePeer, sameId⟩ := before
    rw [← samePeer, ← sameId]
    exact valid key old located
  | inr own => exact own

theorem Valid.writtenBack {rows : ReplayRows σ} {instances : Nat → ClaimOwners} {nextOwner : Nat}
    (valid : state.Valid) (stored : rows = state.rows.stored (replayOptions maxEntries) moment key
      (state.rows.read key moment.now)) : Valid { rows, instances, nextOwner } := by
  apply valid.of_rows
  intro other row found
  rw [stored] at found
  obtain ⟨old, located, same⟩ := KeyedStore.row_of_written_back found
  exact .inl ⟨old, located, by rw [same], by rw [same]⟩

theorem Valid.written {rows : ReplayRows σ} {instances : Nat → ClaimOwners} {nextOwner : Nat}
    {record : ReefReplayRecord σ} (valid : state.Valid)
    (stored : rows = state.rows.stored (replayOptions maxEntries) moment key (some record))
    (own : (record.peer, record.id) = key) : Valid { rows, instances, nextOwner } := by
  apply valid.of_rows
  intro other row found
  rw [stored] at found
  cases KeyedStore.row_of_lookup_stored found with
  | inl before => exact .inl ⟨row, before, rfl, rfl⟩
  | inr new =>
    obtain ⟨sameKey, value, isRecord, rfl⟩ := new
    cases isRecord
    exact .inr (own.trans sameKey)

theorem Valid.read (valid : state.Valid) {record : ReefReplayRecord σ}
    (live : state.rows.read key now = some record) : (record.peer, record.id) = key := by
  obtain ⟨row, located, _, rfl⟩ := TimedTable.read_eq_some_iff.mp live
  exact valid key row located

theorem effect_keeps {rows : ReplayRows σ} {owners owners' : ClaimOwners}
    {instances : Nat → ClaimOwners} {nextOwner : Nat} {target : Option (ReplayState σ)}
    (valid : state.Valid)
    (effect : CallEffect maxEntries state.rows owners moment key target rows owners')
    (open_ : ∀ final ∈ target, final = .available) :
    Valid { rows, instances, nextOwner } ∧ ∀ other, state.Retains moment.now other →
      binding decryptReplayBody { rows, instances, nextOwner } other = state.binding decryptReplayBody other := by
  cases effect with
  | nothing => exact ⟨valid, fun _ _ => rfl⟩
  | notHeld _ _ =>
    exact ⟨valid.writtenBack rfl, fun other retained => binding_writtenBack rfl retained⟩
  | @refreshed record _ _ _ live inFlight _ =>
    have own : (record.peer, record.id) = key := valid.read live
    refine ⟨valid.written rfl own, ?_⟩
    intro other retained
    by_cases same : other = key
    · subst same
      rw [retained.binding, live, binding_self rfl, Option.map_some, bindingOf, bindingOf, inFlight]
    · exact binding_other same retained rfl
  | @ended record _ _ _ live inFlight _ aimed _ =>
    have own : (record.peer, record.id) = key := valid.read live
    refine ⟨valid.written rfl own, ?_⟩
    intro other retained
    by_cases same : other = key
    · subst same
      rw [open_ _ aimed, retained.binding, live, binding_self rfl, Option.map_some, bindingOf, bindingOf, inFlight]
    · exact binding_other same retained rfl

theorem claim_contract (maxEntries : Nat) (state : DurableReplay σ) (site : CallSite)
    (peer id hash : String) (valid : state.Valid) :
    (claim maxEntries state site peer id hash).1.Valid ∧
    (∀ key, key ≠ reefReplayStoreKey peer id → state.Retains site.moment.now key →
      (claim maxEntries state site peer id hash).1.binding decryptReplayBody key =
        state.binding decryptReplayBody key) ∧
    (state.Retains site.moment.now (reefReplayStoreKey peer id) → ClaimLaw hash
      (state.binding decryptReplayBody (reefReplayStoreKey peer id))
      (claim maxEntries state site peer id hash).2
      ((claim maxEntries state site peer id hash).1.binding decryptReplayBody (reefReplayStoreKey peer id))) := by
  have effect := claim_effect maxEntries state.rows (state.instances site.instanceId) site.moment
    site.asked state.nextOwner peer id hash
  unfold claim after
  dsimp only
  generalize ReefSqliteReplayStore.claim maxEntries state.rows (state.instances site.instanceId)
    site.moment site.asked state.nextOwner peer id hash = answer at effect
  cases effect with
  | failed error => exact ⟨valid, fun _ _ _ => rfl, fun _ => .failed error⟩
  | @refused old told live refused =>
    refine ⟨valid.writtenBack rfl, fun key _ retained => binding_writtenBack rfl retained, ?_⟩
    intro retained
    have bound : state.binding decryptReplayBody (reefReplayStoreKey peer id) =
        some (bindingOf decryptReplayBody old) := by
      rw [retained.binding, live]
      rfl
    rw [binding_writtenBack rfl retained, bound]
    cases told with
    | new => exact refused.elim
    | mismatch =>
      apply ClaimLaw.mismatch
      obtain ⟨samePeer, sameId⟩ := Prod.mk.inj (valid.read live)
      cases refused with
      | inl apart => exact absurd samePeer apart
      | inr others =>
        cases others with
        | inl apart => exact absurd sameId apart
        | inr apart => exact apart
    | inFlight =>
      obtain ⟨⟨_, _, rfl⟩, owner, heldUntil, held, _⟩ := refused
      rw [show bindingOf decryptReplayBody old = ⟨old.envelopeHash, .unfinished⟩ by
        rw [bindingOf, held]]
      exact .inFlight
    | duplicate =>
      obtain ⟨⟨_, _, rfl⟩, finished⟩ := refused
      apply ClaimLaw.duplicate
      cases finished with
      | inl consumed =>
        rw [consumed]
        intro same
        cases same
      | inr completed =>
        obtain ⟨receipt, body, completed⟩ := completed
        rw [completed]
        intro same
        cases same
  | granted free =>
    dsimp only
    refine ⟨valid.written rfl rfl, ?_, ?_⟩
    · intro key apart retained
      exact binding_other apart retained rfl
    intro retained
    rw [binding_self rfl, retained.binding]
    cases live : state.rows.read (reefReplayStoreKey peer id) site.moment.now with
    | none => exact .fresh
    | some old =>
      obtain ⟨_, _, rfl, claimable⟩ := free old live
      have before : bindingOf decryptReplayBody old = ⟨old.envelopeHash, .unfinished⟩ := by
        cases claimable with
        | inl available => rw [bindingOf, available]
        | inr lapsed =>
          obtain ⟨owner, heldUntil, held, _⟩ := lapsed
          rw [bindingOf, held]
      rw [Option.map_some, before]
      exact .again

theorem complete_contract (encryptReplayBody : Nat → β → σ)
    (decrypts : ∀ nonce body, decryptReplayBody (encryptReplayBody nonce body) = body)
    (maxEntries : Nat) (state : DurableReplay σ) (site : CallSite) (peer id : String)
    (receipt : SignedReceipt) (body : Option β) (valid : state.Valid) :
    (complete encryptReplayBody maxEntries state site peer id receipt body).1.Valid ∧
    (∀ key, key ≠ reefReplayStoreKey peer id → state.Retains site.moment.now key →
      (complete encryptReplayBody maxEntries state site peer id receipt body).1.binding
        decryptReplayBody key = state.binding decryptReplayBody key) ∧
    (state.Retains site.moment.now (reefReplayStoreKey peer id) → CompleteLaw receipt body
      (state.binding decryptReplayBody (reefReplayStoreKey peer id))
      (complete encryptReplayBody maxEntries state site peer id receipt body).2
      ((complete encryptReplayBody maxEntries state site peer id receipt body).1.binding
        decryptReplayBody (reefReplayStoreKey peer id))) := by
  unfold complete after ReefSqliteReplayStore.complete
  by_cases otherId : receipt.id ≠ id
  · simp only [if_pos otherId]
    exact ⟨valid, fun _ _ _ => rfl, fun _ => .failed _⟩
  · simp only [if_neg otherId]
    by_cases mismatched : ¬completionValid receipt body
    · simp only [if_pos mismatched]
      exact ⟨valid, fun _ _ _ => rfl, fun _ => .failed _⟩
    · simp only [if_neg mismatched]
      obtain ⟨error, done⟩ | ⟨_, done⟩ | ⟨record, owner, heldUntil, live, inFlight, _, done⟩ :=
        finish_cases maxEntries state.rows (state.instances site.instanceId) site.moment peer id
          (.completed receipt (body.map (encryptReplayBody site.nonce)))
      · rw [done]
        exact ⟨valid, fun _ _ _ => rfl, fun _ => .failed error⟩
      · rw [done]
        refine ⟨valid.writtenBack rfl, fun key _ retained => binding_writtenBack rfl retained, ?_⟩
        intro retained
        rw [binding_writtenBack rfl retained]
        exact .failed _
      · rw [done]
        dsimp only
        have own : (record.peer, record.id) = reefReplayStoreKey peer id := valid.read live
        refine ⟨valid.written rfl own, ?_, ?_⟩
        · intro key apart retained
          exact binding_other apart retained rfl
        · intro retained
          have before : bindingOf decryptReplayBody record = ⟨record.envelopeHash, .unfinished⟩ := by
            rw [bindingOf, inFlight]
          have stored : (body.map (encryptReplayBody site.nonce)).map decryptReplayBody = body := by
            cases body with
            | none => rfl
            | some body => exact congrArg some (decrypts site.nonce body)
          rw [binding_self rfl, retained.binding, live, Option.map_some, before, bindingOf]
          dsimp only
          rw [stored]
          exact .done record.envelopeHash

theorem completed_contract (state : DurableReplay σ) (site : CallSite)
    (peer id : String) (found : Option (SignedReceipt × Option β)) (valid : state.Valid)
    (retained : state.Retains site.moment.now (reefReplayStoreKey peer id))
    (done : completed decryptReplayBody state site peer id = .ok found) (receipt : SignedReceipt)
    (body : Option β) :
    found = some (receipt, body) ↔ ∃ hash, state.binding decryptReplayBody (reefReplayStoreKey peer id) =
      some ⟨hash, .completed receipt body⟩ := by
  unfold completed at done
  split at done
  · obtain rfl := Except.ok.inj done
    rw [retained.binding, ReefSqliteReplayStore.completed]
    cases live : state.rows.read (reefReplayStoreKey peer id) site.moment.now with
    | none => simp
    | some record =>
      obtain ⟨samePeer, sameId⟩ := Prod.mk.inj (valid.read live)
      cases held : record.state <;> simp [samePeer, sameId, bindingOf, held]
  · cases done

theorem store_contract (encryptReplayBody : Nat → β → σ) (decryptReplayBody : σ → β)
    (decrypts : ∀ nonce body, decryptReplayBody (encryptReplayBody nonce body) = body)
    (maxEntries : Nat) : (store encryptReplayBody decryptReplayBody maxEntries).Contract
      (binding decryptReplayBody) Retains Valid where
  claim := fun state site peer id hash valid =>
    claim_contract maxEntries state site peer id hash valid
  refresh := fun state site peer id valid =>
    effect_keeps valid (refresh_effect maxEntries state.rows (state.instances site.instanceId)
      site.moment peer id) (by simp)
  release := fun state site peer id valid =>
    effect_keeps valid (release_effect maxEntries state.rows (state.instances site.instanceId)
      site.moment peer id) (by simp)
  complete := fun state site peer id receipt body valid =>
    complete_contract encryptReplayBody decrypts maxEntries state site peer id receipt body valid
  completed := fun state site peer id found valid retained done =>
    completed_contract state site peer id found valid retained done
  sweep := by
    intro state now valid
    constructor
    · apply valid.of_rows
      intro key row found
      exact .inl ⟨row, TimedTable.lookup_of_lookup_expire found, rfl, rfl⟩
    · intro key retained
      simp only [binding, store, TimedTable.lookup_expire, retained.lookup_expire]

end DurableReplay

/-- `ReplayRecord["state"]` of the store in memory, with the fields of each state. -/
inductive MemoryState (β : Type)
  | available
  | inFlight
  | completed (receipt : SignedReceipt) (body : Option β)
  | consumed
deriving DecidableEq

/-- `ReplayRecord`. -/
structure ReplayRecord (β : Type) where
  envelopeHash : String
  state : MemoryState β
deriving DecidableEq

/-- The `#bindings` of a `MemoryReplayStore`, by peer and id. -/
abbrev MemoryReplay (β : Type) : Type := String × String → Option (ReplayRecord β)

namespace MemoryReplay

def empty : MemoryReplay β := fun _ => none

def set (bindings : MemoryReplay β) (key : String × String) (record : ReplayRecord β) : MemoryReplay β :=
  fun other => if other = key then some record else bindings other

def claim (bindings : MemoryReplay β) (_ : CallSite) (peer id envelopeHash : String) :
    MemoryReplay β × Except ReplayError ReplayClaim :=
  match bindings (peer, id) with
  | none => (bindings.set (peer, id) { envelopeHash, state := .inFlight }, .ok .new)
  | some existing =>
    if existing.envelopeHash ≠ envelopeHash then (bindings, .ok .mismatch)
    else
      match existing.state with
      | .completed _ _ => (bindings, .ok .duplicate)
      | .consumed => (bindings, .ok .duplicate)
      | .inFlight => (bindings, .ok .inFlight)
      | .available => (bindings.set (peer, id) { existing with state := .inFlight }, .ok .new)

def refresh (bindings : MemoryReplay β) (_ : CallSite) (_ _ : String) : MemoryReplay β × Except ReplayError Unit :=
  (bindings, .ok ())

def complete (bindings : MemoryReplay β) (_ : CallSite) (peer id : String) (receipt : SignedReceipt)
    (body : Option β) : MemoryReplay β × Except ReplayError Unit :=
  match bindings (peer, id) with
  | none => (bindings, .error .notInFlight)
  | some existing =>
    match existing.state with
    | .inFlight =>
      if receipt.id ≠ id then (bindings, .error .receiptId)
      else if ¬completionValid receipt body then (bindings, .error .completion)
      else (bindings.set (peer, id) { existing with state := .completed receipt body }, .ok ())
    | _ => (bindings, .error .notInFlight)

def release (bindings : MemoryReplay β) (_ : CallSite) (peer id : String) :
    MemoryReplay β × Except ReplayError Unit :=
  match bindings (peer, id) with
  | none => (bindings, .ok ())
  | some existing =>
    match existing.state with
    | .inFlight => (bindings.set (peer, id) { existing with state := .available }, .ok ())
    | _ => (bindings, .ok ())

def completed (bindings : MemoryReplay β) (_ : CallSite) (peer id : String) :
    Except ReplayError (Option (SignedReceipt × Option β)) :=
  match bindings (peer, id) with
  | none => .ok none
  | some existing =>
    match existing.state with
    | .completed receipt body => .ok (some (receipt, body))
    | _ => .ok none

/-- `MemoryReplayStore`: no leases, and no record is ever dropped. -/
def store : ReplayStore β (MemoryReplay β) where
  claim := claim
  refresh := refresh
  complete := complete
  release := release
  completed := completed
  sweep bindings _ := bindings

def bindingOf (record : ReplayRecord β) : Binding β where
  envelopeHash := record.envelopeHash
  state :=
    match record.state with
    | .available => .unfinished
    | .inFlight => .unfinished
    | .completed receipt body => .completed receipt body
    | .consumed => .consumed

def binding (bindings : MemoryReplay β) (key : String × String) : Option (Binding β) :=
  (bindings key).map bindingOf

variable {bindings : MemoryReplay β} {key : String × String} {record : ReplayRecord β}

theorem binding_set_self (bindings : MemoryReplay β) (key : String × String)
    (record : ReplayRecord β) : (bindings.set key record).binding key = some (bindingOf record) := by
  simp [binding, set]

theorem binding_set_other {other : String × String} (apart : other ≠ key) :
    (bindings.set key record).binding other = bindings.binding other := by
  simp [binding, set, apart]

theorem binding_of (found : bindings key = some record) : bindings.binding key = some (bindingOf record) := by
  rw [binding, found]
  rfl

theorem binding_set_same {next : ReplayRecord β} (found : bindings key = some record)
    (same : bindingOf next = bindingOf record) (other : String × String) :
    (bindings.set key next).binding other = bindings.binding other := by
  by_cases sameKey : other = key
  · rw [sameKey, binding_set_self, binding_of found, same]
  · exact binding_set_other sameKey

theorem claim_contract (bindings : MemoryReplay β) (site : CallSite) (peer id hash : String) :
    (∀ key, key ≠ (peer, id) → (claim bindings site peer id hash).1.binding key = bindings.binding key) ∧
    ClaimLaw hash (bindings.binding (peer, id)) (claim bindings site peer id hash).2
      ((claim bindings site peer id hash).1.binding (peer, id)) := by
  unfold claim
  cases found : bindings (peer, id) with
  | none =>
    dsimp only
    refine ⟨fun key apart => binding_set_other apart, ?_⟩
    rw [binding_set_self, binding, found]
    exact .fresh
  | some existing =>
    dsimp only
    rw [binding_of found]
    by_cases apart : existing.envelopeHash ≠ hash
    · rw [if_pos apart]
      refine ⟨fun _ _ => rfl, ?_⟩
      rw [binding_of found]
      exact .mismatch apart
    · rw [if_neg apart]
      obtain rfl : existing.envelopeHash = hash := Decidable.not_not.mp apart
      obtain ⟨envelopeHash, state⟩ := existing
      cases state with
      | available =>
        dsimp only
        refine ⟨fun key apart => binding_set_other apart, ?_⟩
        rw [binding_set_self]
        exact .again
      | inFlight =>
        refine ⟨fun _ _ => rfl, ?_⟩
        rw [binding_of found]
        exact .inFlight
      | completed receipt body | consumed =>
        refine ⟨fun _ _ => rfl, ?_⟩
        rw [binding_of found]
        apply ClaimLaw.duplicate
        intro same
        cases same

theorem complete_contract (bindings : MemoryReplay β) (site : CallSite) (peer id : String)
    (receipt : SignedReceipt) (body : Option β) :
    (∀ key, key ≠ (peer, id) → (complete bindings site peer id receipt body).1.binding key = bindings.binding key) ∧
    CompleteLaw receipt body (bindings.binding (peer, id)) (complete bindings site peer id receipt body).2
      ((complete bindings site peer id receipt body).1.binding (peer, id)) := by
  unfold complete
  cases found : bindings (peer, id) with
  | none => exact ⟨fun _ _ => rfl, .failed _⟩
  | some existing =>
    obtain ⟨envelopeHash, state⟩ := existing
    cases state with
    | available | completed _ _ | consumed => exact ⟨fun _ _ => rfl, .failed _⟩
    | inFlight =>
      dsimp only
      split
      · exact ⟨fun _ _ => rfl, .failed _⟩
      · split
        · exact ⟨fun _ _ => rfl, .failed _⟩
        · refine ⟨fun key apart => binding_set_other apart, ?_⟩
          rw [binding_set_self, binding_of found]
          exact .done envelopeHash

theorem release_contract (bindings : MemoryReplay β) (site : CallSite) (peer id : String) (key : String × String) :
    (release bindings site peer id).1.binding key = bindings.binding key := by
  unfold release
  cases found : bindings (peer, id) with
  | none => rfl
  | some existing =>
    obtain ⟨envelopeHash, state⟩ := existing
    cases state with
    | available | completed _ _ | consumed => rfl
    | inFlight =>
      have same : bindingOf (⟨envelopeHash, .available⟩ : ReplayRecord β) = bindingOf ⟨envelopeHash, .inFlight⟩ := rfl
      exact binding_set_same found same key

theorem completed_contract (site : CallSite) {peer id : String}
    {answer : Option (SignedReceipt × Option β)}
    (done : completed bindings site peer id = .ok answer) (receipt : SignedReceipt)
    (body : Option β) : answer = some (receipt, body) ↔
      ∃ hash, bindings.binding (peer, id) = some ⟨hash, .completed receipt body⟩ := by
  unfold completed at done
  cases found : bindings (peer, id) with
  | none =>
    rw [found] at done
    obtain rfl := Except.ok.inj done
    simp [binding, found]
  | some existing =>
    rw [found] at done
    obtain ⟨envelopeHash, state⟩ := existing
    cases state with
    | available | inFlight | consumed | completed _ _ =>
      obtain rfl := Except.ok.inj done
      simp [binding, bindingOf, found]

theorem store_contract : (store : ReplayStore β (MemoryReplay β)).Contract binding
    (fun _ _ _ => True) (fun _ => True) where
  claim := fun bindings site peer id hash _ =>
    ⟨trivial, fun key apart _ => (claim_contract bindings site peer id hash).1 key apart,
      fun _ => (claim_contract bindings site peer id hash).2⟩
  refresh := fun _ _ _ _ _ => ⟨trivial, fun _ _ => rfl⟩
  release := fun bindings site peer id _ =>
    ⟨trivial, fun key _ => release_contract bindings site peer id key⟩
  complete := fun bindings site peer id receipt body _ =>
    ⟨trivial, fun key apart _ => (complete_contract bindings site peer id receipt body).1 key apart,
      fun _ => (complete_contract bindings site peer id receipt body).2⟩
  completed := fun _ site _ _ _ _ _ done receipt body =>
    completed_contract site done receipt body
  sweep := fun _ _ _ => ⟨trivial, fun _ _ => rfl⟩

end MemoryReplay

end PlatformClaw.Reef
