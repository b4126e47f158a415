import PlatformClaw.Library.Machine
import PlatformClaw.Library.ScriptMap

/-! # One-shot credential grants

`OneShotCredentialGrantStore`: a token is handed out for a credential that is
resolved when the token is redeemed. Redeeming, revoking, clearing and the
expiry timer each take the grant out of the map and dispose it. Grants are
numbered in the order they are issued in; what is called of them is recorded.
-/

namespace PlatformClaw.Execution

/-- The options of a grant store, as its constructor checks them. -/
structure GrantLimits where
  ttlMs : Nat
  maxPendingGrants : Nat
  ttlLower : 1000 ≤ ttlMs
  ttlUpper : ttlMs ≤ 120000
  pendingLower : 1 ≤ maxPendingGrants
  pendingUpper : maxPendingGrants ≤ 4096

namespace GrantLimits

def defaults : GrantLimits where
  ttlMs := 30000
  maxPendingGrants := 256
  ttlLower := by decide
  ttlUpper := by decide
  pendingLower := by decide
  pendingUpper := by decide

end GrantLimits

structure CredentialBrokerGrant where
  token : String
  expiresAt : Nat
  deriving DecidableEq

/-- A grant in the map; its callbacks go by the number of the grant. -/
structure PendingGrant where
  grant : Nat
  expiresAt : Nat
  deriving DecidableEq

/-- A timer that was not cleared and has not gone off. -/
structure ExpiryTimer where
  grant : Nat
  hash : String
  deriving DecidableEq

inductive GrantCall where
  | resolve (grant : Nat) (token : String) (now : Nat)
  | dispose (grant : Nat)
  deriving DecidableEq

inductive GrantError where
  | state (message : String)
  | resolver
  | callback
  deriving DecidableEq

/-- What a resolver comes back with: bytes, if it is a buffer, and a revision, if it is an
    integer. -/
structure ResolvedCredential where
  password : Option (List UInt8)
  revision : Option Int
  deriving DecidableEq

structure GrantStore where
  pending : ScriptMap PendingGrant
  timers : List ExpiryTimer
  resolving : List Nat
  issued : List CredentialBrokerGrant
  calls : List GrantCall

/-- What a store is built with: the hash of tokens, and which callbacks raise. -/
structure GrantSetting where
  limits : GrantLimits
  tokenHash : String → String
  raises : Nat → Bool

def isTokenLetter (c : Char) : Bool :=
  ('A' ≤ c ∧ c ≤ 'Z') ∨ ('a' ≤ c ∧ c ≤ 'z') ∨ ('0' ≤ c ∧ c ≤ '9') ∨ c = '_' ∨ c = '-'

/-- `/^[A-Za-z0-9_-]{32,256}$/`. -/
def isToken (token : String) : Bool :=
  32 ≤ token.length ∧ token.length ≤ 256 ∧ token.toList.all isTokenLetter

namespace GrantStore

def fresh : GrantStore where
  pending := .empty
  timers := []
  resolving := []
  issued := []
  calls := []

def callDispose (store : GrantStore) (grant : Nat) : GrantStore :=
  { store with calls := store.calls ++ [.dispose grant] }

def callResolve (store : GrantStore) (grant : Nat) (token : String) (now : Nat) : GrantStore :=
  { store with
    resolving := store.resolving ++ [grant]
    calls := store.calls ++ [.resolve grant token now] }

/-- Put a new grant into the map, and set its timer. -/
def put (store : GrantStore) (hash : String) (issued : CredentialBrokerGrant) : GrantStore :=
  let grant := store.issued.length
  { store with
    pending := store.pending.set hash { grant, expiresAt := issued.expiresAt }
    timers := store.timers ++ [{ grant, hash }]
    issued := store.issued ++ [issued] }

/-- Take a grant out of the map, and clear its timer. -/
def take (store : GrantStore) (hash : String) (grant : Nat) : GrantStore :=
  { store with
    pending := store.pending.remove hash
    timers := store.timers.filter (·.grant ≠ grant) }

/-- The flag says whether the callback raised. -/
def disposePending (setting : GrantSetting) (store : GrantStore) (hash : String)
    (expected : Option Nat) : GrantStore × Bool :=
  match store.pending.get hash with
  | none => (store, false)
  | some grant =>
    if expected.any (· ≠ grant.grant) then (store, false)
    else ((store.take hash grant.grant).callDispose grant.grant, setting.raises grant.grant)

/-- A loop over entries of the map, which an exception ends. -/
def disposeAll (setting : GrantSetting) (store : GrantStore) : List (String × PendingGrant) → GrantStore × Bool
  | [] => (store, false)
  | entry :: rest =>
    let disposed := store.disposePending setting entry.1 (some entry.2.grant)
    if disposed.2 then (disposed.1, true) else disposed.1.disposeAll setting rest

def pruneExpired (setting : GrantSetting) (store : GrantStore) (now : Nat) : GrantStore × Bool :=
  store.disposeAll setting (store.pending.rows.filter fun entry => entry.2.expiresAt ≤ now)

def clear (setting : GrantSetting) (store : GrantStore) : GrantStore × Bool :=
  store.disposeAll setting store.pending.rows

/-- `token` is what the token factory returns. -/
def issue (setting : GrantSetting) (store : GrantStore) (now : Nat) (token : String) :
    GrantStore × Except GrantError CredentialBrokerGrant :=
  let pruned := store.pruneExpired setting now
  let store := pruned.1
  if pruned.2 then (store, .error .callback)
  else if setting.limits.maxPendingGrants ≤ store.pending.rows.length then
    (store, .error (.state "credential grant capacity reached"))
  else if isToken token = false then
    (store, .error (.state "credential grant token is invalid"))
  else
    let hash := setting.tokenHash token
    if store.pending.has hash then
      (store, .error (.state "credential grant token collision"))
    else
      let expiresAt := now + setting.limits.ttlMs
      (store.put hash { token, expiresAt }, .ok { token, expiresAt })

/-- Up to the call of the resolver; the result is the grant that is being resolved. -/
def redeem (setting : GrantSetting) (store : GrantStore) (token : String) (now : Nat) :
    GrantStore × Except GrantError Nat :=
  let hash := setting.tokenHash token
  match store.pending.get hash with
  | none => (store, .error (.state "credential grant is invalid or already used"))
  | some grant =>
    let taken := store.take hash grant.grant
    if grant.expiresAt ≤ now then
      (taken.callDispose grant.grant, .error (if setting.raises grant.grant then .callback
          else .state "credential grant is invalid or expired"))
    else
      (taken.callResolve grant.grant token now, .ok grant.grant)

/-- What a redemption returns after its resolver, which may have failed. -/
def redeemed (resolved : Option ResolvedCredential) : Except GrantError (List UInt8 × Int) :=
  match resolved with
  | none => .error .resolver
  | some resolved =>
    match resolved.password with
    | none => .error (.state "credential grant resolver returned invalid bytes")
    | some password =>
      if password.length = 0 then
        .error (.state "credential grant resolver returned invalid bytes")
      else
        match resolved.revision with
        | none => .error (.state "credential grant resolver returned invalid revision")
        | some revision =>
          if revision < 1 then
            .error (.state "credential grant resolver returned invalid revision")
          else .ok (password, revision)

/-- The rest of a redemption, once its resolver has come back. -/
def settle (setting : GrantSetting) (store : GrantStore) (grant : Nat)
    (resolved : Option ResolvedCredential) : GrantStore × Except GrantError (List UInt8 × Int) :=
  ({ store with resolving := store.resolving.erase grant }.callDispose grant,
    if setting.raises grant then .error .callback else redeemed resolved)

def revoke (setting : GrantSetting) (store : GrantStore) (token : String) : GrantStore :=
  let hash := setting.tokenHash token
  match store.pending.get hash with
  | none => store
  | some grant => (store.disposePending setting hash (some grant.grant)).1

def expire (setting : GrantSetting) (store : GrantStore) (timer : ExpiryTimer) : GrantStore :=
  ({ store with timers := store.timers.erase timer }.disposePending setting timer.hash none).1

end GrantStore

inductive GrantEvent where
  | issue (now : Nat) (token : String)
  | redeem (token : String) (now : Nat)
  | settle (grant : Nat) (resolved : Option ResolvedCredential)
  | revoke (token : String)
  | clear
  | expire (timer : ExpiryTimer)

def grantMachine (setting : GrantSetting) : Machine GrantStore GrantEvent where
  step store
    | .issue now token => (store.issue setting now token).1
    | .redeem token now => (store.redeem setting token now).1
    | .settle grant resolved =>
      if grant ∈ store.resolving then (store.settle setting grant resolved).1 else store
    | .revoke token => store.revoke setting token
    | .clear => (store.clear setting).1
    | .expire timer => if timer ∈ store.timers then store.expire setting timer else store

end PlatformClaw.Execution
