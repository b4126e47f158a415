import PlatformClaw.Reef.ReplayStore

/-! # What a replay store promises

A replay store binds each (peer, message id) to one envelope hash, and a binding
is open until it is completed or consumed. The contract is stated once; the
durable store keeps it as long as its row has not expired, and the store in
memory keeps it throughout.
-/

namespace PlatformClaw.Reef

/-- How a call reaches a store: the instance it is made on, the clock before the transaction, the
random nonce it may draw, and what the transaction meets. -/
structure CallSite where
  instanceId : Nat
  asked : Nat
  nonce : Nat
  moment : StoreMoment
deriving DecidableEq, Repr

inductive BindingState (β : Type)
  | unfinished
  | completed (receipt : SignedReceipt) (body : Option β)
  | consumed
deriving DecidableEq

/-- The envelope hash that an id is bound to, and what became of it. -/
structure Binding (β : Type) where
  envelopeHash : String
  state : BindingState β
deriving DecidableEq

def Binding.completion {β : Type} (bound : Binding β) : Option (SignedReceipt × Option β) :=
  match bound.state with
  | .completed receipt body => some (receipt, body)
  | _ => none

theorem Binding.state_of_completion {β : Type} (bound : Binding β) {receipt : SignedReceipt}
    {body : Option β} (found : bound.completion = some (receipt, body)) :
    bound.state = .completed receipt body := by
  obtain ⟨hash, state⟩ := bound
  cases state with
  | unfinished | consumed => cases found
  | completed => cases found; rfl

/-- `ReplayStore`, over the state `S` of the store. -/
structure ReplayStore (β S : Type) where
  claim : S → CallSite → String → String → String → S × Except ReplayError ReplayClaim
  refresh : S → CallSite → String → String → S × Except ReplayError Unit
  complete : S → CallSite → String → String → SignedReceipt → Option β → S × Except ReplayError Unit
  release : S → CallSite → String → String → S × Except ReplayError Unit
  completed : S → CallSite → String → String → Except ReplayError (Option (SignedReceipt × Option β))
  /-- What the store does on its own as time passes. -/
  sweep : S → Nat → S

variable {β S : Type}

inductive ClaimLaw (hash : String) : Option (Binding β) → Except ReplayError ReplayClaim → Option (Binding β) → Prop
  | failed {before : Option (Binding β)} (error : ReplayError) :
      ClaimLaw hash before (.error error) before
  | fresh : ClaimLaw hash none (.ok .new) (some ⟨hash, .unfinished⟩)
  | again : ClaimLaw hash (some ⟨hash, .unfinished⟩) (.ok .new) (some ⟨hash, .unfinished⟩)
  | mismatch {bound : Binding β} : bound.envelopeHash ≠ hash →
      ClaimLaw hash (some bound) (.ok .mismatch) (some bound)
  | inFlight : ClaimLaw hash (some ⟨hash, .unfinished⟩) (.ok .inFlight) (some ⟨hash, .unfinished⟩)
  | duplicate {state : BindingState β} : state ≠ .unfinished →
      ClaimLaw hash (some ⟨hash, state⟩) (.ok .duplicate) (some ⟨hash, state⟩)

/-- A completion goes to an unfinished binding, and stores exactly what it is given. -/
inductive CompleteLaw (receipt : SignedReceipt) (body : Option β) :
    Option (Binding β) → Except ReplayError Unit → Option (Binding β) → Prop
  | failed {before : Option (Binding β)} (error : ReplayError) :
      CompleteLaw receipt body before (.error error) before
  | done (hash : String) :
      CompleteLaw receipt body (some ⟨hash, .unfinished⟩) (.ok ()) (some ⟨hash, .completed receipt body⟩)

/-- The contract, for the bindings of keys that the store retains at a call. -/
structure ReplayStore.Contract (store : ReplayStore β S)
    (binding : S → String × String → Option (Binding β))
    (retains : S → Nat → String × String → Prop) (valid : S → Prop) : Prop where
  claim : ∀ s site peer id hash, valid s → valid (store.claim s site peer id hash).1 ∧
    (∀ key, key ≠ (peer, id) → retains s site.moment.now key →
      binding (store.claim s site peer id hash).1 key = binding s key) ∧
    (retains s site.moment.now (peer, id) → ClaimLaw hash (binding s (peer, id))
      (store.claim s site peer id hash).2 (binding (store.claim s site peer id hash).1 (peer, id)))
  refresh : ∀ s site peer id, valid s → valid (store.refresh s site peer id).1 ∧
    ∀ key, retains s site.moment.now key → binding (store.refresh s site peer id).1 key = binding s key
  release : ∀ s site peer id, valid s → valid (store.release s site peer id).1 ∧
    ∀ key, retains s site.moment.now key → binding (store.release s site peer id).1 key = binding s key
  complete : ∀ s site peer id receipt body, valid s → valid (store.complete s site peer id receipt body).1 ∧
    (∀ key, key ≠ (peer, id) → retains s site.moment.now key →
      binding (store.complete s site peer id receipt body).1 key = binding s key) ∧
    (retains s site.moment.now (peer, id) → CompleteLaw receipt body (binding s (peer, id))
      (store.complete s site peer id receipt body).2
      (binding (store.complete s site peer id receipt body).1 (peer, id)))
  completed : ∀ s site peer id found, valid s → retains s site.moment.now (peer, id) →
    store.completed s site peer id = .ok found → ∀ receipt body, found = some (receipt, body) ↔
        ∃ hash, binding s (peer, id) = some ⟨hash, .completed receipt body⟩
  sweep : ∀ s now, valid s → valid (store.sweep s now) ∧
    ∀ key, retains s now key → binding (store.sweep s now) key = binding s key

end PlatformClaw.Reef
