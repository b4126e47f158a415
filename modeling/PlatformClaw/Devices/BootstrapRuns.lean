import PlatformClaw.Devices.BootstrapTokens

/-! # A bootstrap token serves one device

Every record of a token, in the store or in the hands of who revoked it, tracks what happened to the
token since it was issued, and there is at most one of them.
-/

namespace PlatformClaw.Devices

open ScriptString (trim trim_trim)

variable {crypto : PairingCrypto}

theorem PairingCrypto.normalizeBootstrapPublicKey_again (publicKey : String) :
    crypto.normalizeBootstrapPublicKey (crypto.normalizeBootstrapPublicKey publicKey) =
      crypto.normalizeBootstrapPublicKey publicKey := by
  unfold PairingCrypto.normalizeBootstrapPublicKey
  by_cases blank : trim publicKey = ""
  · rw [if_pos blank]
    rfl
  rw [if_neg blank]
  cases encoded : mayBeEncoded (trim publicKey) with
  | false =>
    simp only [Bool.false_eq_true, if_false]
    rw [trim_trim, if_neg blank, encoded]
    simp
  | true =>
    simp only [if_true]
    cases canonical : crypto.normalizeDevicePublicKeyBase64Url (trim publicKey) with
    | none =>
      rw [Option.getD_none, trim_trim, if_neg blank, encoded, if_pos rfl, canonical]
      rfl
    | some text =>
      obtain ⟨trimmed, nonempty, stable⟩ := crypto.canonical canonical
      rw [Option.getD_some, trimmed, if_neg nonempty, stable]
      split <;> rfl

/-- The profile that a verification asks for. -/
def requestedProfile (profile : DeviceBootstrapProfile) (request : BootstrapRequest) : DeviceBootstrapProfile :=
  resolveRequestedBootstrapProfile (trim request.role) request.scopes profile.purpose

def BootstrapDeed.leg? : BootstrapDeed → Option RoleScopes
  | .redeemed leg _ => some leg
  | .issued _ _ | .verified _ _ => none

/-- The roles and scopes redeemed so far. -/
def redemptions (deeds : List BootstrapDeed) : List RoleScopes :=
  deeds.filterMap BootstrapDeed.leg?

theorem redemptions_append (deeds more : List BootstrapDeed) :
    redemptions (deeds ++ more) = redemptions deeds ++ redemptions more :=
  List.filterMap_append

/-- What is promised of a deed, given the deeds since the issue before it. -/
def Promised (crypto : PairingCrypto) (issuedAtMs : Nat) (profile : DeviceBootstrapProfile)
    (before : List BootstrapDeed) : BootstrapDeed → Prop
  | .issued _ _ => False
  | .verified now request =>
    now ≤ issuedAtMs + DEVICE_BOOTSTRAP_TOKEN_TTL_MS ∧ trim request.role ∈ profile.roles ∧
      (∀ scope ∈ trimmedSet request.scopes, Covered (trim request.role) scope profile.scopes) ∧
      ∀ time earlier, .verified time earlier ∈ before → trim earlier.deviceId = trim request.deviceId ∧
          crypto.normalizeBootstrapPublicKey earlier.publicKey =
            crypto.normalizeBootstrapPublicKey request.publicKey ∧
          (requestedProfile profile earlier = requestedProfile profile request ∨
            CoversProfile (redemptions before) profile.purpose (requestedProfile profile earlier))
  | .redeemed leg fullyRedeemed =>
    fullyRedeemed = true ↔ CoversProfile (redemptions before ++ [leg]) profile.purpose profile

/-- The token served one device, within its profile. -/
def ServesOneDevice (crypto : PairingCrypto) (issuedAtMs : Nat) (profile : DeviceBootstrapProfile)
    (deeds : List BootstrapDeed) : Prop :=
  ∀ before deed after, deeds = before ++ deed :: after → Promised crypto issuedAtMs profile before deed

theorem ServesOneDevice.append {issuedAtMs : Nat} {profile : DeviceBootstrapProfile}
    {deeds : List BootstrapDeed} {deed : BootstrapDeed}
    (serves : ServesOneDevice crypto issuedAtMs profile deeds)
    (promised : Promised crypto issuedAtMs profile deeds deed) :
    ServesOneDevice crypto issuedAtMs profile (deeds ++ [deed]) := by
  intro before other after same
  rcases List.eq_nil_or_concat after with rfl | ⟨rest, last, rfl⟩
  · obtain ⟨rfl, isLast⟩ := List.append_inj' same rfl
    cases isLast
    exact promised
  · rw [List.concat_eq_append, ← List.cons_append, ← List.append_assoc] at same
    exact serves before other rest (List.append_inj' same rfl).1

structure Tracks (crypto : PairingCrypto) (record : DeviceBootstrapTokenRecord) (issuedAtMs : Nat)
    (profile : DeviceBootstrapProfile) (deeds : List BootstrapDeed) : Prop where
  issued : record.ts = issuedAtMs
  normal : profile.Normal
  allows : record.profile = some profile
  redeemed : ∃ actual, record.redeemedProfile = some actual ∧ Accumulates actual (redemptions deeds) profile.purpose
  pending : ∀ pending, record.pendingProfile = some pending → pending.Normal
  bound : ∀ now request, .verified now request ∈ deeds →
    trim request.deviceId ≠ "" ∧ record.deviceId = some (trim request.deviceId) ∧
      record.publicKey = some (crypto.normalizeBootstrapPublicKey request.publicKey)
  staged : ∀ now request, .verified now request ∈ deeds →
    record.pendingProfile = some (requestedProfile profile request) ∨
      CoversProfile (redemptions deeds) profile.purpose (requestedProfile profile request)

namespace Tracks

variable {record : DeviceBootstrapTokenRecord} {issuedAtMs : Nat} {profile : DeviceBootstrapProfile}
  {deeds : List BootstrapDeed}

theorem allowed (tracks : Tracks crypto record issuedAtMs profile deeds) :
    record.resolvePersistedBootstrapProfile = profile := by
  unfold DeviceBootstrapTokenRecord.resolvePersistedBootstrapProfile
  rw [tracks.allows]
  exact tracks.normal.normalized

theorem accumulates (tracks : Tracks crypto record issuedAtMs profile deeds) :
    Accumulates record.resolvePersistedRedeemedProfile (redemptions deeds) profile.purpose := by
  obtain ⟨actual, isRedeemed, accumulates⟩ := tracks.redeemed
  unfold DeviceBootstrapTokenRecord.resolvePersistedRedeemedProfile
  rw [isRedeemed]
  have same : normalizeDeviceBootstrapProfile ((some actual).map DeviceBootstrapProfile.input) =
      actual := accumulates.normal.normalized
  rw [same]
  exact accumulates

theorem pendingProfile (tracks : Tracks crypto record issuedAtMs profile deeds) :
    record.resolvePersistedPendingProfile = record.pendingProfile := by
  unfold DeviceBootstrapTokenRecord.resolvePersistedPendingProfile
  cases isPending : record.pendingProfile with
  | none => rfl
  | some pending => exact congrArg some (tracks.pending pending isPending).normalized

theorem redeem (tracks : Tracks crypto record issuedAtMs profile deeds) (leg : RoleScopes) :
    Accumulates (record.redeem leg) (redemptions deeds ++ [leg]) profile.purpose := by
  unfold DeviceBootstrapTokenRecord.redeem
  rw [tracks.allowed]
  exact tracks.accumulates.redeem leg

theorem redeemed_leg (tracks : Tracks crypto record issuedAtMs profile deeds) (leg : RoleScopes)
    (fullyRedeemed : Bool) :
    Tracks crypto (record.redeemed leg) issuedAtMs profile (deeds ++ [.redeemed leg fullyRedeemed]) := by
  have accumulates := tracks.redeem leg
  have legs : redemptions (deeds ++ [.redeemed leg fullyRedeemed]) = redemptions deeds ++ [leg] :=
    redemptions_append deeds _
  have earlier : ∀ now request, BootstrapDeed.verified now request ∈
      deeds ++ [.redeemed leg fullyRedeemed] → .verified now request ∈ deeds := by
    intro now request inDeeds
    cases List.mem_append.mp inDeeds with
    | inl before => exact before
    | inr new => cases List.mem_singleton.mp new
  constructor
  · exact tracks.issued
  · exact tracks.normal
  · exact congrArg some tracks.allowed
  · rw [legs]
    exact ⟨_, rfl, accumulates⟩
  · intro pending isPending
    obtain ⟨before, _⟩ := Option.filter_eq_some_iff.mp isPending
    rw [tracks.pendingProfile] at before
    exact tracks.pending pending before
  · intro now request inDeeds
    exact tracks.bound now request (earlier now request inDeeds)
  · intro now request inDeeds
    rw [legs]
    cases tracks.staged now request (earlier now request inDeeds) with
    | inr covers => exact .inr (covers.mono fun _ => List.mem_append_left _)
    | inl isPending =>
      have satisfied := accumulates.satisfies_iff (tracks.pending _ isPending)
      cases satisfies : bootstrapProfileSatisfiesProfile (record.redeem leg) (requestedProfile profile request) with
      | true => exact .inr (satisfied.mp satisfies)
      | false =>
        refine .inl (Option.filter_eq_some_iff.mpr ⟨?_, by rw [satisfies]; rfl⟩)
        rw [tracks.pendingProfile]
        exact isPending

theorem fullyRedeemed_iff (tracks : Tracks crypto record issuedAtMs profile deeds) (leg : RoleScopes) :
    bootstrapProfileSatisfiesProfile (record.redeem leg) record.resolvePersistedBootstrapProfile =
        true ↔ CoversProfile (redemptions deeds ++ [leg]) profile.purpose profile := by
  rw [tracks.allowed]
  exact (tracks.redeem leg).satisfies_iff tracks.normal

end Tracks

structure Admits (crypto : PairingCrypto) (record later : DeviceBootstrapTokenRecord) (now : Nat)
    (request : BootstrapRequest) : Prop where
  deviceId : trim request.deviceId ≠ ""
  within : exceedsProfile record.resolvePersistedBootstrapProfile (trim request.role) request.scopes = false
  device : ∀ bound, record.deviceId = some bound → trim bound ≠ "" →
    trim bound = trim request.deviceId ∧ record.publicKey.map crypto.normalizeBootstrapPublicKey =
        some (crypto.normalizeBootstrapPublicKey request.publicKey) ∧
      ∀ pending, record.resolvePersistedPendingProfile = some pending → deviceBootstrapProfilesEqual pending
          (resolveRequestedBootstrapProfile (trim request.role) request.scopes
            record.resolvePersistedBootstrapProfile.purpose) = true
  after : ∃ pending, later =
      { record with
        profile := some record.resolvePersistedBootstrapProfile
        pendingProfile := some pending
        deviceId := some (trim request.deviceId)
        publicKey := some (crypto.normalizeBootstrapPublicKey request.publicKey)
        lastUsedAtMs := some now } ∧
    deviceBootstrapProfilesEqual pending (resolveRequestedBootstrapProfile (trim request.role) request.scopes
        record.resolvePersistedBootstrapProfile.purpose) = true ∧
    (record.resolvePersistedPendingProfile = some pending ∨
      pending = resolveRequestedBootstrapProfile (trim request.role) request.scopes
        record.resolvePersistedBootstrapProfile.purpose)

theorem deviceBootstrapProfilesEqual_self (profile : DeviceBootstrapProfile) :
    deviceBootstrapProfilesEqual profile profile = true := by
  simp [deviceBootstrapProfilesEqual]

theorem verifyRecord_some {record later : DeviceBootstrapTokenRecord} {now : Nat}
    {request : BootstrapRequest} (admits : crypto.verifyRecord record now request = some later) :
    Admits crypto record later now request := by
  unfold PairingCrypto.verifyRecord at admits
  split at admits
  · cases admits
  rename_i present
  split at admits
  · cases admits
  rename_i within
  have deviceId : trim request.deviceId ≠ "" := fun blank => present (.inl blank)
  have inside := Bool.eq_false_iff.mpr within
  split at admits
  · split at admits
    · cases admits
    rename_i same
    rw [not_or, Decidable.not_not, Decidable.not_not] at same
    split at admits
    · cases admits
    rename_i staged
    cases admits
    refine ⟨deviceId, inside, fun bound isBound _ => ⟨?_, same.2, fun pending isPending => ?_⟩, ?_⟩
    · have here := same.1
      rw [isBound] at here
      exact Option.some.inj here
    · rw [isPending] at staged
      simpa using staged
    · refine ⟨_, rfl, ?_⟩
      cases isPending : record.resolvePersistedPendingProfile with
      | none => exact ⟨deviceBootstrapProfilesEqual_self _, .inr rfl⟩
      | some pending =>
        rw [isPending] at staged
        exact ⟨by simpa using staged, .inl rfl⟩
  · rename_i unbound
    cases admits
    refine ⟨deviceId, inside, fun bound isBound some => ?_, ⟨_, rfl, deviceBootstrapProfilesEqual_self _, .inr rfl⟩⟩
    rw [not_or] at unbound
    refine absurd ?_ unbound.1
    rw [isBound]
    exact decide_eq_true some

namespace Tracks

variable {record later : DeviceBootstrapTokenRecord} {issuedAtMs : Nat}
  {profile : DeviceBootstrapProfile} {deeds : List BootstrapDeed} {now : Nat}
  {request : BootstrapRequest}

theorem purpose (tracks : Tracks crypto record issuedAtMs profile deeds) (request : BootstrapRequest) :
    resolveRequestedBootstrapProfile (trim request.role) request.scopes
      record.resolvePersistedBootstrapProfile.purpose = requestedProfile profile request := by
  rw [tracks.allowed]
  rfl

theorem promised (tracks : Tracks crypto record issuedAtMs profile deeds)
    (admits : Admits crypto record later now request)
    (inTime : now ≤ record.ts + DEVICE_BOOTSTRAP_TOKEN_TTL_MS) :
    Promised crypto issuedAtMs profile deeds (.verified now request) := by
  have within := admits.within
  unfold exceedsProfile bootstrapProfileAllowsRequest at within
  rw [tracks.allowed, Bool.or_eq_false_iff, Bool.not_eq_false', Bool.and_eq_true,
    List.contains_iff_mem, roleScopesAllow_iff, trim_trim,
    rows_trimmedSet tracks.normal.scopes.distinct tracks.normal.scopes.trimmed] at within
  refine ⟨tracks.issued ▸ inTime, within.2.1, within.2.2, fun time earlier inDeeds => ?_⟩
  obtain ⟨some, isDevice, isKey⟩ := tracks.bound time earlier inDeeds
  obtain ⟨device, key, equal⟩ := admits.device _ isDevice (by rw [trim_trim]; exact some)
  rw [trim_trim] at device
  rw [isKey, Option.map_some, PairingCrypto.normalizeBootstrapPublicKey_again] at key
  refine ⟨device, Option.some.inj key, ?_⟩
  refine (tracks.staged time earlier inDeeds).imp_left fun isPending => ?_
  have same := equal _ (tracks.pendingProfile.trans isPending)
  rw [tracks.purpose] at same
  exact (deviceBootstrapProfilesEqual_iff (tracks.pending _ isPending)
    (normal_normalizeDeviceBootstrapProfile _)).mp same

theorem verified (tracks : Tracks crypto record issuedAtMs profile deeds)
    (admits : Admits crypto record later now request) :
    Tracks crypto later issuedAtMs profile (deeds ++ [.verified now request]) := by
  obtain ⟨pending, rfl, isRequested, isPending⟩ := admits.after
  rw [tracks.pendingProfile, tracks.purpose] at isPending
  rw [tracks.purpose] at isRequested
  have legs : redemptions (deeds ++ [.verified now request]) = redemptions deeds :=
    (redemptions_append deeds _).trans (List.append_nil _)
  have normal : pending.Normal := by
    cases isPending with
    | inl before => exact tracks.pending pending before
    | inr new =>
      rw [new]
      exact normal_normalizeDeviceBootstrapProfile _
  -- a profile that was staged before is this one, or is covered
  have before : ∀ time earlier, BootstrapDeed.verified time earlier ∈ deeds →
      trim earlier.deviceId = trim request.deviceId ∧ crypto.normalizeBootstrapPublicKey earlier.publicKey =
          crypto.normalizeBootstrapPublicKey request.publicKey ∧
        (pending = requestedProfile profile earlier ∨
          CoversProfile (redemptions deeds) profile.purpose (requestedProfile profile earlier)) := by
    intro time earlier inDeeds
    obtain ⟨some, isDevice, isKey⟩ := tracks.bound time earlier inDeeds
    obtain ⟨device, key, equal⟩ := admits.device _ isDevice (by rw [trim_trim]; exact some)
    rw [trim_trim] at device
    rw [isKey, Option.map_some, PairingCrypto.normalizeBootstrapPublicKey_again] at key
    refine ⟨device, Option.some.inj key, ?_⟩
    refine (tracks.staged time earlier inDeeds).imp_left fun wasPending => ?_
    cases isPending with
    | inl kept => exact Option.some.inj (kept.symm.trans wasPending)
    | inr new =>
      have same := equal _ (tracks.pendingProfile.trans wasPending)
      rw [tracks.purpose] at same
      rw [new]
      exact ((deviceBootstrapProfilesEqual_iff (tracks.pending _ wasPending)
        (normal_normalizeDeviceBootstrapProfile _)).mp same).symm
  -- the profile of this request is staged, because another one would have been refused
  have current : pending = requestedProfile profile request :=
    (deviceBootstrapProfilesEqual_iff normal (normal_normalizeDeviceBootstrapProfile _)).mp isRequested
  constructor
  · exact tracks.issued
  · exact tracks.normal
  · exact congrArg some tracks.allowed
  · rw [legs]
    exact tracks.redeemed
  · intro other isOther
    cases isOther
    exact normal
  · intro time other inDeeds
    cases List.mem_append.mp inDeeds with
    | inl earlier =>
      obtain ⟨device, key, _⟩ := before time other earlier
      refine ⟨?_, congrArg some device.symm, congrArg some key.symm⟩
      rw [device]
      exact admits.deviceId
    | inr new =>
      cases List.mem_singleton.mp new
      exact ⟨admits.deviceId, rfl, rfl⟩
  · intro time other inDeeds
    rw [legs]
    cases List.mem_append.mp inDeeds with
    | inl earlier => exact (before time other earlier).2.2.imp_left (congrArg some)
    | inr new =>
      cases List.mem_singleton.mp new
      exact .inl (congrArg some current)

end Tracks

namespace DeviceBootstrapState

variable {state : DeviceBootstrapState} {key : String} {record : DeviceBootstrapTokenRecord}
  {now : Nat}

theorem get_loadState (found : (state.loadState now).get key = some record) :
    state.get key = some record ∧ now ≤ record.ts + DEVICE_BOOTSTRAP_TOKEN_TTL_MS := by
  have inState := Table.mem_delete.mp (ScriptMap.get_eq_some_iff.mp found)
  refine ⟨ScriptMap.get_eq_some_iff.mpr inState.1, ?_⟩
  have kept := inState.2
  simpa using kept

theorem find_some {token : String} (found : state.find token = some (key, record)) :
    state.get key = some record ∧ token = record.token := by
  have matches_ := List.find?_some found
  simp only [verifyPairingToken, Bool.and_eq_true, decide_eq_true_eq] at matches_
  exact ⟨ScriptMap.get_eq_some_iff.mpr (List.mem_of_find?_eq_some found), matches_.2⟩

theorem get_delete {gone : String × DeviceBootstrapTokenRecord → Bool}
    (found : ScriptMap.get (Table.delete state gone) key = some record) :
    state.get key = some record :=
  ScriptMap.get_eq_some_iff.mpr (Table.mem_delete.mp (ScriptMap.get_eq_some_iff.mp found)).1

end DeviceBootstrapState

namespace BootstrapWorld

variable {world : BootstrapWorld}

theorem history_note (world : BootstrapWorld) (token other : String) (deed : BootstrapDeed) :
    (world.note token deed).history other = world.history other ++ if token = other then [deed] else [] := by
  unfold history
  change ((world.log ++ [(token, deed)]).filter _).map Prod.snd = _
  rw [List.filter_append, List.map_append]
  by_cases same : token = other <;> simp [same]

def Tracked (crypto : PairingCrypto) (world : BootstrapWorld) (record : DeviceBootstrapTokenRecord) : Prop :=
  ∃ issuedAtMs profile deeds, world.history record.token = .issued issuedAtMs profile :: deeds ∧
    Tracks crypto record issuedAtMs profile deeds

structure Sound (crypto : PairingCrypto) (world : BootstrapWorld) : Prop where
  drawn : ∀ entry ∈ world.log, ∃ number < world.drawn, crypto.generatePairingToken number = entry.1
  served : ∀ token, world.history token = [] ∨
    ∃ issuedAtMs profile deeds, world.history token = .issued issuedAtMs profile :: deeds ∧
      ServesOneDevice crypto issuedAtMs profile deeds
  stored : ∀ key record, world.state.get key = some record → key = record.token ∧ world.Tracked crypto record
  away : ∀ (index : Nat) record, world.revocations[index]? = some (some record) →
    world.state.get record.token = none ∧ world.Tracked crypto record
  apart : ∀ (first second : Nat) (one other : DeviceBootstrapTokenRecord),
    world.revocations[first]? = some (some one) → world.revocations[second]? = some (some other) →
      one.token = other.token → first = second

theorem sound_empty : Sound crypto {} where
  drawn _ inLog := (by cases inLog)
  served _ := .inl rfl
  stored _ _ found := (by cases found)
  away _ _ found := (by cases found)
  apart _ _ _ _ found := (by cases found)

theorem Sound.history_new (sound : Sound crypto world) :
    world.history (crypto.generatePairingToken world.drawn) = [] := by
  unfold history
  rw [List.map_eq_nil_iff, List.filter_eq_nil_iff]
  intro entry inLog same
  obtain ⟨number, before, isToken⟩ := sound.drawn entry inLog
  have isNew := crypto.distinct (isToken.trans (of_decide_eq_true same))
  omega

theorem Tracked.not_new (sound : Sound crypto world) {record : DeviceBootstrapTokenRecord}
    (tracked : world.Tracked crypto record) :
    record.token ≠ crypto.generatePairingToken world.drawn := by
  intro same
  obtain ⟨_, _, _, isHistory, _⟩ := tracked
  rw [same, sound.history_new] at isHistory
  cases isHistory

theorem Tracked.note {record : DeviceBootstrapTokenRecord} (tracked : world.Tracked crypto record)
    {later : BootstrapWorld} {token : String} {deed : BootstrapDeed} (log : later.log = world.log)
    (apart : token ≠ record.token) : (later.note token deed).Tracked crypto record := by
  obtain ⟨issuedAtMs, profile, deeds, isHistory, tracks⟩ := tracked
  refine ⟨issuedAtMs, profile, deeds, ?_, tracks⟩
  rw [history_note, if_neg apart, List.append_nil]
  unfold history at isHistory ⊢
  rw [log]
  exact isHistory

theorem Sound.shrink (sound : Sound crypto world) {state : DeviceBootstrapState}
    (kept : ∀ key record, state.get key = some record → world.state.get key = some record) :
    Sound crypto { world with state } where
  drawn := sound.drawn
  served := sound.served
  stored key record found := sound.stored key record (kept key record found)
  away index record isAway := by
    obtain ⟨absent, tracked⟩ := sound.away index record isAway
    refine ⟨?_, tracked⟩
    cases found : state.get record.token with
    | none => rfl
    | some other => cases absent.symm.trans (kept _ other found)
  apart := sound.apart

theorem Sound.advance (sound : Sound crypto world) {key : String}
    {record later : DeviceBootstrapTokenRecord} {deed : BootstrapDeed}
    {state : DeviceBootstrapState} (found : world.state.get key = some record)
    (sameToken : later.token = record.token)
    (keeps : ∀ issuedAtMs profile deeds, Tracks crypto record issuedAtMs profile deeds →
      Promised crypto issuedAtMs profile deeds deed ∧ Tracks crypto later issuedAtMs profile (deeds ++ [deed]))
    (located : ∀ other row, state.get other = some row →
      (key = other ∧ later = row) ∨ (key ≠ other ∧ world.state.get other = some row)) :
    Sound crypto ({ world with state }.note key deed) := by
  obtain ⟨isKey, issuedAtMs, profile, deeds, isHistory, tracks⟩ := sound.stored key record found
  obtain ⟨promised, tracksLater⟩ := keeps issuedAtMs profile deeds tracks
  have sameHistory : ∀ token, BootstrapWorld.history { world with state } token = world.history token := fun _ => rfl
  have here : ({ world with state }.note key deed).history key = .issued issuedAtMs profile :: (deeds ++ [deed]) := by
    rw [history_note, if_pos rfl, sameHistory, isKey, isHistory]
    rfl
  constructor
  · intro entry inLog
    cases List.mem_append.mp inLog with
    | inl before => exact sound.drawn entry before
    | inr new =>
      rw [List.mem_singleton.mp new]
      have logged : ∃ entry ∈ world.log, entry.1 = key := by
        have inHistory : BootstrapDeed.issued issuedAtMs profile ∈ world.history key := by
          rw [isKey, isHistory]
          exact List.mem_cons_self
        obtain ⟨entry, inFiltered, _⟩ := List.mem_map.mp inHistory
        obtain ⟨inLog, same⟩ := List.mem_filter.mp inFiltered
        exact ⟨entry, inLog, of_decide_eq_true same⟩
      obtain ⟨entry, inLog, same⟩ := logged
      exact same ▸ sound.drawn entry inLog
  · intro token
    by_cases same : key = token
    · subst same
      refine .inr ⟨issuedAtMs, profile, deeds ++ [deed], here, ?_⟩
      cases sound.served key with
      | inl none =>
        rw [isKey, isHistory] at none
        cases none
      | inr serves =>
        obtain ⟨issuedAtMs', profile', deeds', isHistory', serves⟩ := serves
        rw [isKey, isHistory] at isHistory'
        cases isHistory'
        exact serves.append promised
    · rw [history_note, if_neg same, List.append_nil, sameHistory]
      exact sound.served token
  · intro other row inState
    cases located other row inState with
    | inl isHere =>
      obtain ⟨rfl, rfl⟩ := isHere
      refine ⟨isKey.trans sameToken.symm, issuedAtMs, profile, deeds ++ [deed], ?_, tracksLater⟩
      rw [sameToken, ← isKey]
      exact here
    | inr elsewhere =>
      obtain ⟨isOther, tracked⟩ := sound.stored other row elsewhere.2
      exact ⟨isOther, tracked.note rfl (isOther ▸ elsewhere.1)⟩
  · intro index row isAway
    obtain ⟨absent, tracked⟩ := sound.away index row isAway
    have apart : key ≠ row.token := by
      intro same
      rw [← same, found] at absent
      cases absent
    refine ⟨?_, tracked.note rfl apart⟩
    cases inState : state.get row.token with
    | none => exact inState
    | some other =>
      cases located _ other inState with
      | inl isHere => exact absurd isHere.1 apart
      | inr elsewhere => cases absent.symm.trans elsewhere.2
  · exact sound.apart

theorem located_set {state : DeviceBootstrapState} {now : Nat} {key : String}
    {later : DeviceBootstrapTokenRecord} (other : String) (row : DeviceBootstrapTokenRecord)
    (found : ((state.loadState now).set key later).get other = some row) :
    (key = other ∧ later = row) ∨ (key ≠ other ∧ state.get other = some row) := by
  rw [ScriptMap.get_set] at found
  split at found
  · rename_i same
    exact .inl ⟨same, Option.some.inj found⟩
  · rename_i apart
    exact .inr ⟨apart, (DeviceBootstrapState.get_loadState found).1⟩

theorem Sound.issue (sound : Sound crypto world) (now : Nat) (profile : Option DeviceBootstrapProfileInput)
    (roles scopes : Option (List String)) :
    Sound crypto ((machine crypto).step world (.issue now profile roles scopes)) := by
  have normal := normal_resolveIssuedBootstrapProfile profile roles scopes
  have unknown := sound.history_new
  have here : ∀ state : DeviceBootstrapState, ({ world with drawn := world.drawn + 1, state }.note
        (crypto.generatePairingToken world.drawn)
        (.issued now (resolveIssuedBootstrapProfile profile roles scopes))).history
          (crypto.generatePairingToken world.drawn) =
        [.issued now (resolveIssuedBootstrapProfile profile roles scopes)] := by
    intro state
    rw [history_note, if_pos rfl]
    exact congrArg (· ++ _) unknown
  constructor
  · intro entry inLog
    cases List.mem_append.mp inLog with
    | inl before =>
      obtain ⟨number, less, same⟩ := sound.drawn entry before
      exact ⟨number, Nat.lt_succ_of_lt less, same⟩
    | inr new =>
      rw [List.mem_singleton.mp new]
      exact ⟨world.drawn, Nat.lt_succ_self _, rfl⟩
  · intro token
    by_cases same : crypto.generatePairingToken world.drawn = token
    · subst same
      refine .inr ⟨now, _, [], here _, ?_⟩
      intro before deed after impossible
      cases before <;> cases impossible
    · change history (note _ _ _) token = [] ∨ _
      rw [history_note, if_neg same, List.append_nil]
      exact (sound.served token).imp_right fun serves => by
        obtain ⟨issuedAtMs, profile, deeds, isHistory, serves⟩ := serves
        refine ⟨issuedAtMs, profile, deeds, ?_, serves⟩
        change history (note _ _ _) token = _
        rw [history_note, if_neg same, List.append_nil]
        exact isHistory
  · intro key record found
    cases located_set key record found with
    | inl isHere =>
      obtain ⟨rfl, rfl⟩ := isHere
      refine ⟨rfl, now, _, [], here _, ?_⟩
      exact
        { issued := rfl
          normal := normal
          allows := rfl
          redeemed := ⟨_, rfl, accumulates_nil _⟩
          pending := fun _ isPending => (by cases isPending)
          bound := fun _ _ inNone => (by cases inNone)
          staged := fun _ _ inNone => (by cases inNone) }
    | inr elsewhere =>
      obtain ⟨isKey, tracked⟩ := sound.stored key record elsewhere.2
      exact ⟨isKey, tracked.note rfl (tracked.not_new sound).symm⟩
  · intro index record isAway
    obtain ⟨absent, tracked⟩ := sound.away index record isAway
    refine ⟨?_, tracked.note rfl (tracked.not_new sound).symm⟩
    cases found : ((machine crypto).step world (.issue now profile roles scopes)).state.get record.token with
    | none => rfl
    | some other =>
      cases located_set _ other found with
      | inl isHere => exact absurd isHere.1.symm (tracked.not_new sound)
      | inr elsewhere => cases absent.symm.trans elsewhere.2
  · exact sound.apart

theorem Sound.revoke (sound : Sound crypto world) {now : Nat} {token : String}
    {state : DeviceBootstrapState} {record : DeviceBootstrapTokenRecord}
    (revoked : revokeDeviceBootstrapToken world.state now token = some (state, record)) :
    Sound crypto { world with state, revocations := world.revocations ++ [some record] } := by
  unfold revokeDeviceBootstrapToken at revoked
  split at revoked
  · cases revoked
  obtain ⟨⟨key, found⟩, located, same⟩ := Option.map_eq_some_iff.mp revoked
  obtain ⟨isState, isRecord⟩ := Prod.mk.inj same
  dsimp only at isState isRecord
  subst isState isRecord
  obtain ⟨inLoaded, _⟩ := DeviceBootstrapState.find_some located
  have inState := (DeviceBootstrapState.get_loadState inLoaded).1
  obtain ⟨isKey, tracked⟩ := sound.stored key found inState
  have kept : ∀ other row, ((world.state.loadState now).remove key).get other = some row →
      key ≠ other ∧ world.state.get other = some row := by
    intro other row there
    rw [ScriptMap.get_remove] at there
    split at there
    · cases there
    · rename_i apart
      exact ⟨apart, (DeviceBootstrapState.get_loadState there).1⟩
  have shrunk := sound.shrink fun other row there => (kept other row there).2
  have gone : ((world.state.loadState now).remove key).get found.token = none := by
    rw [ScriptMap.get_remove, if_pos isKey]
  -- the record that is handed out is not among those handed out before
  have unlisted : ∀ (index : Nat) row, world.revocations[index]? = some (some row) → row.token ≠ found.token := by
    intro index row isAway same
    have absent := (sound.away index row isAway).1
    rw [same, ← isKey, inState] at absent
    cases absent
  constructor
  · exact shrunk.drawn
  · exact shrunk.served
  · exact shrunk.stored
  · intro index row isAway
    rw [List.getElem?_append] at isAway
    split at isAway
    · exact shrunk.away index row isAway
    · have isLast := List.mem_singleton.mp (List.mem_of_getElem? isAway)
      cases isLast
      exact ⟨gone, tracked⟩
  · intro first second one other isFirst isSecond same
    dsimp only at isFirst isSecond
    rw [List.getElem?_append] at isFirst isSecond
    split at isFirst
    · split at isSecond
      · exact sound.apart first second one other isFirst isSecond same
      · cases List.mem_singleton.mp (List.mem_of_getElem? isSecond)
        exact absurd same (unlisted first one isFirst)
    · rename_i late
      cases List.mem_singleton.mp (List.mem_of_getElem? isFirst)
      split at isSecond
      · exact absurd same.symm (unlisted second other isSecond)
      · rename_i late'
        have one := (List.getElem?_eq_some_iff.mp isFirst).1
        have two := (List.getElem?_eq_some_iff.mp isSecond).1
        rw [List.length_singleton] at one two
        omega

theorem Sound.restore (sound : Sound crypto world) {now index : Nat}
    {record : DeviceBootstrapTokenRecord}
    (isAway : world.revocations[index]? = some (some record)) :
    Sound crypto
      { world with
        state := restoreDeviceBootstrapToken world.state now record
        revocations := world.revocations.set index none } := by
  obtain ⟨absent, tracked⟩ := sound.away index record isAway
  have others : ∀ (other : Nat) row, (world.revocations.set index none)[other]? = some (some row) →
      index ≠ other ∧ world.revocations[other]? = some (some row) := by
    intro other row found
    rw [List.getElem?_set] at found
    split at found
    · split at found
      · cases found
      · cases found
    · rename_i apart
      exact ⟨apart, found⟩
  constructor
  · exact sound.drawn
  · exact sound.served
  · intro key row found
    cases located_set key row found with
    | inl isHere =>
      obtain ⟨rfl, rfl⟩ := isHere
      exact ⟨rfl, tracked⟩
    | inr elsewhere => exact sound.stored key row elsewhere.2
  · intro other row found
    obtain ⟨apart, stillAway⟩ := others other row found
    obtain ⟨absent, tracked⟩ := sound.away other row stillAway
    refine ⟨?_, tracked⟩
    cases found : (restoreDeviceBootstrapToken world.state now record).get row.token with
    | none => rfl
    | some there =>
      cases located_set _ there found with
      | inl isHere =>
        exact absurd (sound.apart index other record row isAway stillAway isHere.1) apart
      | inr elsewhere => cases absent.symm.trans elsewhere.2
  · intro first second one other isFirst isSecond same
    exact sound.apart first second one other (others first one isFirst).2 (others second other isSecond).2 same

theorem Sound.step (sound : Sound crypto world) (event : BootstrapEvent) :
    Sound crypto ((machine crypto).step world event) := by
  cases event with
  | issue now profile roles scopes => exact sound.issue now profile roles scopes
  | verify now request =>
    change Sound crypto ((crypto.verifyDeviceBootstrapToken world.state now request).elim world _)
    cases done : crypto.verifyDeviceBootstrapToken world.state now request with
    | none => exact sound
    | some state =>
      unfold PairingCrypto.verifyDeviceBootstrapToken at done
      split at done
      · cases done
      obtain ⟨⟨key, record⟩, located, admitted⟩ := Option.bind_eq_some_iff.mp done
      obtain ⟨later, verified, rfl⟩ := Option.map_eq_some_iff.mp admitted
      obtain ⟨inLoaded, isToken⟩ := DeviceBootstrapState.find_some located
      obtain ⟨inState, inTime⟩ := DeviceBootstrapState.get_loadState inLoaded
      have isKey := (sound.stored key record inState).1
      have admits := verifyRecord_some verified
      have sameToken : later.token = record.token := by
        obtain ⟨_, rfl, _⟩ := admits.after
        rfl
      change Sound crypto (note _ (trim request.token) _)
      rw [isToken, ← isKey]
      exact sound.advance inState sameToken
        (fun _ _ _ tracks => ⟨tracks.promised admits inTime, tracks.verified admits⟩) located_set
  | redeem now token leg =>
    change Sound crypto ((redeemDeviceBootstrapTokenProfile world.state now token leg).elim world _)
    cases done : redeemDeviceBootstrapTokenProfile world.state now token leg with
    | none => exact sound
    | some result =>
      unfold redeemDeviceBootstrapTokenProfile at done
      split at done
      · cases done
      obtain ⟨⟨key, record⟩, located, rfl⟩ := Option.map_eq_some_iff.mp done
      obtain ⟨inLoaded, isToken⟩ := DeviceBootstrapState.find_some located
      obtain ⟨inState, _⟩ := DeviceBootstrapState.get_loadState inLoaded
      have isKey := (sound.stored key record inState).1
      change Sound crypto (note _ (trim token) _)
      rw [isToken, ← isKey]
      have sameToken : (record.redeemed leg).token = record.token := rfl
      exact sound.advance inState sameToken
        (fun _ _ _ tracks => ⟨tracks.fullyRedeemed_iff leg, tracks.redeemed_leg leg _⟩) located_set
  | revoke now token =>
    change Sound crypto ((revokeDeviceBootstrapToken world.state now token).elim world _)
    cases done : revokeDeviceBootstrapToken world.state now token with
    | none => exact sound
    | some result => exact sound.revoke done
  | revokeForDevice now deviceId publicKey =>
    apply sound.shrink
    intro key record found
    unfold PairingCrypto.revokeDeviceBootstrapTokensForDevice at found
    split at found
    · exact found
    split at found
    · exact (DeviceBootstrapState.get_loadState (DeviceBootstrapState.get_delete found)).1
    · exact found
  | restore now revocation =>
    change Sound crypto ((world.revocations[revocation]?.join).elim world _)
    cases isAway : world.revocations[revocation]?.join with
    | none => exact sound
    | some record => exact sound.restore (Option.join_eq_some_iff.mp isAway)
  | clear =>
    apply sound.shrink
    intro _ _ found
    cases found

end BootstrapWorld

end PlatformClaw.Devices
