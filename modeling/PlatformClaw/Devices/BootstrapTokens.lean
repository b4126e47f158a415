import PlatformClaw.Devices.BootstrapProfile
import PlatformClaw.Library.Machine
import PlatformClaw.Library.ScriptMap
import PlatformClaw.Library.ScriptText

/-! # Bootstrap tokens

A bootstrap token lets one new device in. The first device that verifies the token is bound to it;
each handshake stages a profile until its roles and scopes are redeemed. All operations run under one
lock, each on the records that have not expired.
-/

namespace PlatformClaw.Devices

open ScriptString (trim)

/-- What pairing takes from cryptography: random tokens, and the canonical form of a public key. -/
structure PairingCrypto where
  /-- The tokens in the order in which they are drawn. -/
  generatePairingToken : Nat → String
  distinct : ∀ {first second : Nat}, generatePairingToken first = generatePairingToken second → first = second
  isToken : ∀ number, trim (generatePairingToken number) = generatePairingToken number ∧
      generatePairingToken number ≠ ""
  normalizeDevicePublicKeyBase64Url : String → Option String
  canonical : ∀ {key text : String}, normalizeDevicePublicKeyBase64Url key = some text →
    trim text = text ∧ text ≠ "" ∧ (normalizeDevicePublicKeyBase64Url text).getD text = text

def DEVICE_BOOTSTRAP_TOKEN_TTL_MS : Nat := 10 * 60 * 1000

structure DeviceBootstrapTokenRecord where
  token : String
  ts : Nat
  deviceId : Option String := none
  publicKey : Option String := none
  profile : Option DeviceBootstrapProfile := none
  redeemedProfile : Option DeviceBootstrapProfile := none
  pendingProfile : Option DeviceBootstrapProfile := none
  issuedAtMs : Nat
  lastUsedAtMs : Option Nat := none
deriving DecidableEq, Repr

abbrev DeviceBootstrapState : Type := ScriptMap DeviceBootstrapTokenRecord

namespace DeviceBootstrapTokenRecord

def resolvePersistedBootstrapProfile (record : DeviceBootstrapTokenRecord) : DeviceBootstrapProfile :=
  normalizeDeviceBootstrapProfile (record.profile.map DeviceBootstrapProfile.input)

def resolvePersistedRedeemedProfile (record : DeviceBootstrapTokenRecord) : DeviceBootstrapProfile :=
  normalizeDeviceBootstrapProfile (record.redeemedProfile.map DeviceBootstrapProfile.input)

def resolvePersistedPendingProfile (record : DeviceBootstrapTokenRecord) : Option DeviceBootstrapProfile :=
  record.pendingProfile.map DeviceBootstrapProfile.normalized

end DeviceBootstrapTokenRecord

def verifyPairingToken (provided expected : String) : Bool :=
  trim provided ≠ "" && trim expected ≠ "" && provided = expected

/-- A text that may be an encoding of the key other than the canonical one. -/
def mayBeEncoded (trimmed : String) : Bool :=
  ScriptText.includes (ScriptText.lit trimmed) (ScriptText.lit "BEGIN") ||
    trimmed.toList.any fun c => c = '+' || c = '/' || c = '='

def PairingCrypto.normalizeBootstrapPublicKey (crypto : PairingCrypto) (publicKey : String) : String :=
  if trim publicKey = "" then ""
  else if mayBeEncoded (trim publicKey) then
    (crypto.normalizeDevicePublicKeyBase64Url (trim publicKey)).getD (trim publicKey)
  else trim publicKey

namespace DeviceBootstrapState

/-- `loadState`: the records that have not expired. -/
def loadState (state : DeviceBootstrapState) (now : Nat) : DeviceBootstrapState :=
  state.delete fun entry => entry.2.ts + DEVICE_BOOTSTRAP_TOKEN_TTL_MS < now

def find (state : DeviceBootstrapState) (providedToken : String) : Option (String × DeviceBootstrapTokenRecord) :=
  state.rows.find? fun entry => verifyPairingToken providedToken entry.2.token

end DeviceBootstrapState

structure BootstrapRequest where
  token : String
  deviceId : String
  publicKey : String
  role : String
  scopes : List String
deriving DecidableEq, Repr

def issueDeviceBootstrapToken (state : DeviceBootstrapState) (now : Nat) (token : String)
    (profile : DeviceBootstrapProfile) : DeviceBootstrapState :=
  (state.loadState now).set token
    { token
      ts := now
      profile := some profile
      redeemedProfile := some (normalizeDeviceBootstrapProfile none)
      issuedAtMs := now }

def revokeDeviceBootstrapToken (state : DeviceBootstrapState) (now : Nat) (token : String) :
    Option (DeviceBootstrapState × DeviceBootstrapTokenRecord) :=
  if trim token = "" then none
  else
    ((state.loadState now).find (trim token)).map fun found =>
      ((state.loadState now).remove found.1, found.2)

def PairingCrypto.isBoundTo (crypto : PairingCrypto) (record : DeviceBootstrapTokenRecord)
    (deviceId publicKey : String) : Bool :=
  record.deviceId.map trim = some (trim deviceId) && record.publicKey.map crypto.normalizeBootstrapPublicKey =
      some (crypto.normalizeBootstrapPublicKey publicKey)

def PairingCrypto.revokeDeviceBootstrapTokensForDevice (crypto : PairingCrypto)
    (state : DeviceBootstrapState) (now : Nat) (deviceId publicKey : String) :
    DeviceBootstrapState :=
  if trim deviceId = "" ∨ crypto.normalizeBootstrapPublicKey publicKey = "" then state
  else if (state.loadState now).rows.any fun entry =>
      crypto.isBoundTo entry.2 deviceId publicKey then
    (state.loadState now).delete fun entry => crypto.isBoundTo entry.2 deviceId publicKey
  else state

def restoreDeviceBootstrapToken (state : DeviceBootstrapState) (now : Nat)
    (record : DeviceBootstrapTokenRecord) : DeviceBootstrapState :=
  (state.loadState now).set record.token record

def DeviceBootstrapTokenRecord.redeem (record : DeviceBootstrapTokenRecord) (leg : RoleScopes) :
    DeviceBootstrapProfile :=
  normalizeDeviceBootstrapProfile (some ⟨some (record.resolvePersistedRedeemedProfile.roles ++ [leg.role]),
        some (record.resolvePersistedRedeemedProfile.scopes ++
          resolveBootstrapProfileScopesForRole leg.role leg.scopes record.resolvePersistedBootstrapProfile.purpose),
        record.resolvePersistedBootstrapProfile.purpose⟩)

def DeviceBootstrapTokenRecord.redeemed (record : DeviceBootstrapTokenRecord) (leg : RoleScopes) :
    DeviceBootstrapTokenRecord :=
  { record with
    profile := some record.resolvePersistedBootstrapProfile
    redeemedProfile := some (record.redeem leg)
    pendingProfile := record.resolvePersistedPendingProfile.filter fun pending =>
      !bootstrapProfileSatisfiesProfile (record.redeem leg) pending }

/-- The state after it, and `fullyRedeemed`. -/
def redeemDeviceBootstrapTokenProfile (state : DeviceBootstrapState) (now : Nat) (token : String)
    (leg : RoleScopes) : Option (DeviceBootstrapState × Bool) :=
  if trim token = "" then none
  else
    ((state.loadState now).find (trim token)).map fun found =>
      ((state.loadState now).set found.1 (found.2.redeemed leg), bootstrapProfileSatisfiesProfile (found.2.redeem leg)
          found.2.resolvePersistedBootstrapProfile)

def exceedsProfile (allowedProfile : DeviceBootstrapProfile) (role : String) (scopes : List String) : Bool :=
  allowedProfile.roles.isEmpty || deviceBootstrapProfilesEqual allowedProfile CONTROL_UI_OWNER_BOOTSTRAP_PROFILE &&
      !deviceBootstrapProfilesEqual (resolveRequestedBootstrapProfile role scopes allowedProfile.purpose)
        CONTROL_UI_OWNER_BOOTSTRAP_PROFILE ||
    !bootstrapProfileAllowsRequest allowedProfile role scopes

/-- The record after a verification, or `none` when the record refuses it. -/
def PairingCrypto.verifyRecord (crypto : PairingCrypto) (record : DeviceBootstrapTokenRecord)
    (now : Nat) (request : BootstrapRequest) : Option DeviceBootstrapTokenRecord :=
  if trim request.deviceId = "" ∨ crypto.normalizeBootstrapPublicKey request.publicKey = "" ∨
      trim request.role = "" then none
  else if exceedsProfile record.resolvePersistedBootstrapProfile (trim request.role) request.scopes then none
  else if record.deviceId.any (trim · ≠ "") = true ∨
      record.publicKey.any (crypto.normalizeBootstrapPublicKey · ≠ "") = true then
    if record.deviceId.map trim ≠ some (trim request.deviceId) ∨
        record.publicKey.map crypto.normalizeBootstrapPublicKey ≠
          some (crypto.normalizeBootstrapPublicKey request.publicKey) then none
    else if record.resolvePersistedPendingProfile.any fun pending =>
        !deviceBootstrapProfilesEqual pending (resolveRequestedBootstrapProfile (trim request.role) request.scopes
            record.resolvePersistedBootstrapProfile.purpose) then none
    else
      some
        { record with
          profile := some record.resolvePersistedBootstrapProfile
          pendingProfile := some (record.resolvePersistedPendingProfile.getD
            (resolveRequestedBootstrapProfile (trim request.role) request.scopes
              record.resolvePersistedBootstrapProfile.purpose))
          deviceId := some (trim request.deviceId)
          publicKey := some (crypto.normalizeBootstrapPublicKey request.publicKey)
          lastUsedAtMs := some now }
  else
    some
      { record with
        profile := some record.resolvePersistedBootstrapProfile
        pendingProfile := some (resolveRequestedBootstrapProfile (trim request.role) request.scopes
            record.resolvePersistedBootstrapProfile.purpose)
        deviceId := some (trim request.deviceId)
        publicKey := some (crypto.normalizeBootstrapPublicKey request.publicKey)
        lastUsedAtMs := some now }

/-- The state after it, or `none` for `bootstrap_token_invalid`. -/
def PairingCrypto.verifyDeviceBootstrapToken (crypto : PairingCrypto) (state : DeviceBootstrapState)
    (now : Nat) (request : BootstrapRequest) : Option DeviceBootstrapState :=
  if trim request.token = "" then none
  else
    ((state.loadState now).find (trim request.token)).bind fun found =>
      (crypto.verifyRecord found.2 now request).map ((state.loadState now).set found.1)

/-- What happened to a token. -/
inductive BootstrapDeed
  | issued (issuedAtMs : Nat) (profile : DeviceBootstrapProfile)
  | verified (now : Nat) (request : BootstrapRequest)
  | redeemed (leg : RoleScopes) (fullyRedeemed : Bool)
deriving DecidableEq, Repr

structure BootstrapWorld where
  state : DeviceBootstrapState := ScriptMap.empty
  /-- How many tokens were drawn. -/
  drawn : Nat := 0
  /-- The records that revocations gave, until they are restored. -/
  revocations : List (Option DeviceBootstrapTokenRecord) := []
  log : List (String × BootstrapDeed) := []

inductive BootstrapEvent
  | issue (now : Nat) (profile : Option DeviceBootstrapProfileInput)
      (roles scopes : Option (List String))
  | verify (now : Nat) (request : BootstrapRequest)
  | redeem (now : Nat) (token : String) (leg : RoleScopes)
  | revoke (now : Nat) (token : String)
  | revokeForDevice (now : Nat) (deviceId publicKey : String)
  /-- Who revoked a token restores its record when the device was not told, once. -/
  | restore (now : Nat) (revocation : Nat)
  | clear
deriving DecidableEq, Repr

namespace BootstrapWorld

def note (world : BootstrapWorld) (token : String) (deed : BootstrapDeed) : BootstrapWorld :=
  { world with log := world.log ++ [(token, deed)] }

def step (crypto : PairingCrypto) (world : BootstrapWorld) : BootstrapEvent → BootstrapWorld
  | .issue now profile roles scopes =>
    { world with
      drawn := world.drawn + 1
      state := issueDeviceBootstrapToken world.state now (crypto.generatePairingToken world.drawn)
        (resolveIssuedBootstrapProfile profile roles scopes) }.note
      (crypto.generatePairingToken world.drawn)
      (.issued now (resolveIssuedBootstrapProfile profile roles scopes))
  | .verify now request =>
    (crypto.verifyDeviceBootstrapToken world.state now request).elim world fun state =>
      { world with state }.note (trim request.token) (.verified now request)
  | .redeem now token leg =>
    (redeemDeviceBootstrapTokenProfile world.state now token leg).elim world fun result =>
      { world with state := result.1 }.note (trim token) (.redeemed leg result.2)
  | .revoke now token =>
    (revokeDeviceBootstrapToken world.state now token).elim world fun result =>
      { world with
        state := result.1
        revocations := world.revocations ++ [some result.2] }
  | .revokeForDevice now deviceId publicKey =>
    { world with
      state := crypto.revokeDeviceBootstrapTokensForDevice world.state now deviceId publicKey }
  | .restore now revocation =>
    (world.revocations[revocation]?.join).elim world fun record =>
      { world with
        state := restoreDeviceBootstrapToken world.state now record
        revocations := world.revocations.set revocation none }
  | .clear => { world with state := ScriptMap.empty }

def machine (crypto : PairingCrypto) : Machine BootstrapWorld BootstrapEvent where
  step := step crypto

/-- What happened to a token, in order. -/
def history (world : BootstrapWorld) (token : String) : List BootstrapDeed :=
  (world.log.filter fun entry => entry.1 = token).map Prod.snd

end BootstrapWorld

end PlatformClaw.Devices
