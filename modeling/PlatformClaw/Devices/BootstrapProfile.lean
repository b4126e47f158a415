import PlatformClaw.Devices.OperatorScopes

/-! # Bootstrap profiles

The roles and scopes that a bootstrap token hands over. Only an operator gets scopes, and only those
that the purpose of the profile allows.
-/

namespace PlatformClaw.Devices

open ScriptString (trim toSorted)

inductive DeviceBootstrapPurpose
  | controlUi
  | controlUiOwner
  | mobileFull
  | voiceNode
deriving DecidableEq, Repr

structure DeviceBootstrapProfile where
  roles : List String
  scopes : List String
  purpose : Option DeviceBootstrapPurpose
deriving DecidableEq, Repr

structure DeviceBootstrapProfileInput where
  roles : Option (List String) := none
  scopes : Option (List String) := none
  purpose : Option DeviceBootstrapPurpose := none
deriving DecidableEq, Repr

def DeviceBootstrapProfile.input (profile : DeviceBootstrapProfile) : DeviceBootstrapProfileInput :=
  ⟨some profile.roles, some profile.scopes, profile.purpose⟩

def BOOTSTRAP_HANDOFF_OPERATOR_SCOPES : List String :=
  ["operator.approvals", "operator.questions", "operator.read", "operator.talk.secrets",
    "operator.write"]

def CONTROL_UI_OWNER_BOOTSTRAP_OPERATOR_SCOPES : List String :=
  ["operator.admin", "operator.approvals", "operator.pairing", "operator.questions",
    "operator.read", "operator.talk.secrets", "operator.write"]

def MOBILE_FULL_ACCESS_OPERATOR_SCOPES : List String :=
  "operator.admin" :: BOOTSTRAP_HANDOFF_OPERATOR_SCOPES

def VOICE_NODE_OPERATOR_SCOPES : List String :=
  ["operator.read", "operator.talk"]

def PAIRING_SETUP_BOOTSTRAP_PROFILE : DeviceBootstrapProfile where
  roles := ["node", "operator"]
  scopes := BOOTSTRAP_HANDOFF_OPERATOR_SCOPES
  purpose := none

def CONTROL_UI_OWNER_BOOTSTRAP_PROFILE : DeviceBootstrapProfile where
  roles := ["operator"]
  scopes := CONTROL_UI_OWNER_BOOTSTRAP_OPERATOR_SCOPES
  purpose := some .controlUiOwner

def normalizeBootstrapRoles (roles : List String) : List String :=
  toSorted (trimmedSet roles).rows

def normalizeDeviceBootstrapProfile (input : Option DeviceBootstrapProfileInput) : DeviceBootstrapProfile where
  roles := normalizeBootstrapRoles ((input.bind DeviceBootstrapProfileInput.roles).getD [])
  scopes := normalizeDeviceAuthScopes ((input.bind DeviceBootstrapProfileInput.scopes).getD [])
  purpose := input.bind DeviceBootstrapProfileInput.purpose

def DeviceBootstrapProfile.normalized (profile : DeviceBootstrapProfile) : DeviceBootstrapProfile :=
  normalizeDeviceBootstrapProfile (some profile.input)

def deviceBootstrapProfilesEqual (left right : DeviceBootstrapProfile) : Bool :=
  left.normalized.purpose = right.normalized.purpose &&
    left.normalized.roles = right.normalized.roles &&
    left.normalized.scopes = right.normalized.scopes

def allowedScopes : Option DeviceBootstrapPurpose → List String
  | some .controlUiOwner => CONTROL_UI_OWNER_BOOTSTRAP_OPERATOR_SCOPES
  | some .mobileFull => MOBILE_FULL_ACCESS_OPERATOR_SCOPES
  | some .voiceNode => VOICE_NODE_OPERATOR_SCOPES
  | some .controlUi | none => BOOTSTRAP_HANDOFF_OPERATOR_SCOPES

def resolveBootstrapProfileScopesForRole (role : String) (scopes : List String)
    (purpose : Option DeviceBootstrapPurpose) : List String :=
  if normalizeDeviceAuthRole role = "operator" then
    (normalizeDeviceAuthScopes scopes).filter (allowedScopes purpose).contains
  else []

def resolveBootstrapProfileScopesForRoles (roles scopes : List String)
    (purpose : Option DeviceBootstrapPurpose) : List String :=
  normalizeDeviceAuthScopes (roles.flatMap fun role => resolveBootstrapProfileScopesForRole role scopes purpose)

def normalizeDeviceBootstrapHandoffProfile (input : Option DeviceBootstrapProfileInput) : DeviceBootstrapProfile where
  roles := (normalizeDeviceBootstrapProfile input).roles
  scopes := resolveBootstrapProfileScopesForRoles (normalizeDeviceBootstrapProfile input).roles
    (normalizeDeviceBootstrapProfile input).scopes (normalizeDeviceBootstrapProfile input).purpose
  purpose := (normalizeDeviceBootstrapProfile input).purpose

def resolveIssuedBootstrapProfileInput (profile : Option DeviceBootstrapProfileInput)
    (roles scopes : Option (List String)) : Option DeviceBootstrapProfileInput :=
  if profile.isSome then profile
  else if roles.isSome || scopes.isSome then some { roles, scopes }
  else none

def resolveRequestedBootstrapProfile (role : String) (scopes : List String)
    (purpose : Option DeviceBootstrapPurpose) : DeviceBootstrapProfile :=
  normalizeDeviceBootstrapProfile
    (some ⟨some [role], some (resolveBootstrapProfileScopesForRole role scopes purpose), purpose⟩)

def resolveIssuedBootstrapProfile (profile : Option DeviceBootstrapProfileInput)
    (roles scopes : Option (List String)) : DeviceBootstrapProfile :=
  match resolveIssuedBootstrapProfileInput profile roles scopes with
  | some input => normalizeDeviceBootstrapHandoffProfile (some input)
  | none => PAIRING_SETUP_BOOTSTRAP_PROFILE

def bootstrapProfileAllowsRequest (allowedProfile : DeviceBootstrapProfile) (requestedRole : String)
    (requestedScopes : List String) : Bool :=
  allowedProfile.roles.contains requestedRole && roleScopesAllow requestedRole requestedScopes allowedProfile.scopes

def bootstrapProfileSatisfiesProfile (actualProfile requiredProfile : DeviceBootstrapProfile) : Bool :=
  requiredProfile.roles.all fun requiredRole =>
    actualProfile.roles.contains requiredRole &&
      ((resolveBootstrapProfileScopesForRole requiredRole requiredProfile.scopes requiredProfile.purpose).isEmpty ||
        bootstrapProfileAllowsRequest actualProfile requiredRole
          (resolveBootstrapProfileScopesForRole requiredRole requiredProfile.scopes requiredProfile.purpose))

structure NormalRoles (roles : List String) : Prop where
  sorted : toSorted roles = roles
  distinct : roles.Nodup
  trimmed : ∀ role ∈ roles, trim role = role ∧ role ≠ ""

/-- Normalizing the profile again changes nothing. -/
structure DeviceBootstrapProfile.Normal (profile : DeviceBootstrapProfile) : Prop where
  roles : NormalRoles profile.roles
  scopes : NormalScopes profile.scopes

theorem mem_normalizeBootstrapRoles {roles : List String} {role : String} :
    role ∈ normalizeBootstrapRoles roles ↔ role ∈ trimmedSet roles := by
  rw [normalizeBootstrapRoles, ScriptString.mem_toSorted]
  rfl

theorem normal_normalizeBootstrapRoles (roles : List String) : NormalRoles (normalizeBootstrapRoles roles) where
  sorted := ScriptString.toSorted_toSorted _
  distinct := nodup_toSorted
  trimmed _ inRoles := trim_of_mem (mem_normalizeBootstrapRoles.mp inRoles)

theorem NormalRoles.normalize {roles : List String} (normal : NormalRoles roles) :
    normalizeBootstrapRoles roles = roles := by
  rw [normalizeBootstrapRoles, rows_trimmedSet normal.distinct normal.trimmed, normal.sorted]

theorem normal_normalizeDeviceBootstrapProfile (input : Option DeviceBootstrapProfileInput) :
    (normalizeDeviceBootstrapProfile input).Normal :=
  ⟨normal_normalizeBootstrapRoles _, normal_normalizeDeviceAuthScopes _⟩

theorem DeviceBootstrapProfile.Normal.normalized {profile : DeviceBootstrapProfile}
    (normal : profile.Normal) : profile.normalized = profile := by
  have roles := normal.roles.normalize
  have scopes := normal.scopes.normalize
  unfold DeviceBootstrapProfile.normalized normalizeDeviceBootstrapProfile
  change DeviceBootstrapProfile.mk (normalizeBootstrapRoles profile.roles)
    (normalizeDeviceAuthScopes profile.scopes) profile.purpose = profile
  rw [roles, scopes]

theorem normal_handoff (input : Option DeviceBootstrapProfileInput) :
    (normalizeDeviceBootstrapHandoffProfile input).Normal :=
  ⟨normal_normalizeBootstrapRoles _, normal_normalizeDeviceAuthScopes _⟩

theorem normal_pairingSetup : PAIRING_SETUP_BOOTSTRAP_PROFILE.Normal where
  roles :=
    { sorted := List.mergeSort_of_pairwise (by decide +kernel)
      distinct := by decide
      trimmed := by decide +kernel }
  scopes :=
    { sorted := List.mergeSort_of_pairwise (by decide +kernel)
      distinct := by decide
      trimmed := by decide +kernel
      adminRead := by decide
      adminWrite := by decide
      writeRead := by decide }

theorem normal_resolveIssuedBootstrapProfile (profile : Option DeviceBootstrapProfileInput)
    (roles scopes : Option (List String)) :
    (resolveIssuedBootstrapProfile profile roles scopes).Normal := by
  unfold resolveIssuedBootstrapProfile
  split
  · exact normal_handoff _
  · exact normal_pairingSetup

theorem deviceBootstrapProfilesEqual_iff {left right : DeviceBootstrapProfile}
    (normalLeft : left.Normal) (normalRight : right.Normal) :
    deviceBootstrapProfilesEqual left right = true ↔ left = right := by
  unfold deviceBootstrapProfilesEqual
  rw [normalLeft.normalized, normalRight.normalized]
  simp only [Bool.and_eq_true, decide_eq_true_eq]
  constructor
  · rintro ⟨⟨purpose, roles⟩, scopes⟩
    obtain ⟨leftRoles, leftScopes, leftPurpose⟩ := left
    obtain ⟨rightRoles, rightScopes, rightPurpose⟩ := right
    dsimp only at purpose roles scopes
    rw [purpose, roles, scopes]
  · rintro rfl
    exact ⟨⟨rfl, rfl⟩, rfl⟩

structure RoleScopes where
  role : String
  scopes : List String
deriving DecidableEq, Repr

/-- What was redeemed, with the scopes that the purpose allows, has every role of the profile, and
grants every scope that the profile gives the role. -/
def CoversProfile (redeemed : List RoleScopes) (purpose : Option DeviceBootstrapPurpose)
    (profile : DeviceBootstrapProfile) : Prop :=
  ∀ role ∈ profile.roles, (∃ leg ∈ redeemed, trim leg.role = role) ∧
      ∀ scope ∈ resolveBootstrapProfileScopesForRole role profile.scopes profile.purpose,
        ∃ leg ∈ redeemed, ∃ held ∈ resolveBootstrapProfileScopesForRole leg.role leg.scopes purpose, Grants held scope

theorem CoversProfile.mono {redeemed more : List RoleScopes}
    {purpose : Option DeviceBootstrapPurpose} {profile : DeviceBootstrapProfile}
    (covers : CoversProfile redeemed purpose profile) (grows : ∀ leg ∈ redeemed, leg ∈ more) :
    CoversProfile more purpose profile := by
  intro role inRoles
  obtain ⟨⟨leg, inLegs, same⟩, scopes⟩ := covers role inRoles
  refine ⟨⟨leg, grows leg inLegs, same⟩, fun scope required => ?_⟩
  obtain ⟨leg, inLegs, held, gives, grants⟩ := scopes scope required
  exact ⟨leg, grows leg inLegs, held, gives, grants⟩

/-- The redeemed profile of a record has the roles that were redeemed and grants what their scopes
grant. -/
structure Accumulates (actual : DeviceBootstrapProfile) (redeemed : List RoleScopes)
    (purpose : Option DeviceBootstrapPurpose) : Prop where
  normal : actual.Normal
  roles : ∀ role, role ∈ actual.roles ↔ role ≠ "" ∧ ∃ leg ∈ redeemed, trim leg.role = role
  scopes : ∀ scope, (∃ held ∈ actual.scopes, Grants held scope) ↔
    ∃ leg ∈ redeemed, ∃ held ∈ resolveBootstrapProfileScopesForRole leg.role leg.scopes purpose, Grants held scope

theorem accumulates_nil (purpose : Option DeviceBootstrapPurpose) :
    Accumulates (normalizeDeviceBootstrapProfile none) [] purpose where
  normal := normal_normalizeDeviceBootstrapProfile none
  roles role := by
    change role ∈ normalizeBootstrapRoles [] ↔ _
    rw [mem_normalizeBootstrapRoles, mem_trimmedSet]
    simp
  scopes scope := by
    have none : ∀ held, held ∉ normalizeDeviceAuthScopes [] := by
      intro held inScopes
      rw [mem_normalizeDeviceAuthScopes, mem_withImpliedScopes] at inScopes
      simp at inScopes
    constructor
    · rintro ⟨held, inScopes, _⟩
      exact absurd inScopes (none held)
    · rintro ⟨leg, inNone, _⟩
      cases inNone

theorem trim_resolveScopes {role : String} {scopes : List String}
    {purpose : Option DeviceBootstrapPurpose} {scope : String}
    (resolved : scope ∈ resolveBootstrapProfileScopesForRole role scopes purpose) :
    trim scope = scope ∧ scope ≠ "" := by
  unfold resolveBootstrapProfileScopesForRole at resolved
  split at resolved
  · exact (normal_normalizeDeviceAuthScopes scopes).trimmed scope (List.mem_filter.mp resolved).1
  · cases resolved

theorem Accumulates.redeem {actual : DeviceBootstrapProfile} {redeemed : List RoleScopes}
    {purpose : Option DeviceBootstrapPurpose} (accumulates : Accumulates actual redeemed purpose)
    (leg : RoleScopes) :
    Accumulates (normalizeDeviceBootstrapProfile (some ⟨some (actual.roles ++ [leg.role]),
        some (actual.scopes ++ resolveBootstrapProfileScopesForRole leg.role leg.scopes purpose),
        purpose⟩))
      (redeemed ++ [leg]) purpose where
  normal := normal_normalizeDeviceBootstrapProfile _
  roles role := by
    change role ∈ normalizeBootstrapRoles (actual.roles ++ [leg.role]) ↔ _
    rw [mem_normalizeBootstrapRoles, mem_trimmedSet]
    constructor
    · rintro ⟨some, given, inRoles, rfl⟩
      refine ⟨some, ?_⟩
      cases List.mem_append.mp inRoles with
      | inl before =>
        obtain ⟨_, earlier, inLegs, same⟩ := (accumulates.roles given).mp before
        refine ⟨earlier, List.mem_append_left _ inLegs, ?_⟩
        rw [← same, ScriptString.trim_trim]
      | inr new => exact ⟨leg, by simp, by rw [List.mem_singleton.mp new]⟩
    · rintro ⟨some, given, inLegs, rfl⟩
      refine ⟨some, ?_⟩
      cases List.mem_append.mp inLegs with
      | inl before =>
        exact ⟨trim given.role, List.mem_append_left _ ((accumulates.roles _).mpr
          ⟨some, given, before, rfl⟩), ScriptString.trim_trim _⟩
      | inr new => exact ⟨leg.role, by simp, by rw [List.mem_singleton.mp new]⟩
  scopes scope := by
    have all : ∀ held, held ∈ trimmedSet (actual.scopes ++
        resolveBootstrapProfileScopesForRole leg.role leg.scopes purpose) ↔ held ∈ actual.scopes ∨
            held ∈ resolveBootstrapProfileScopesForRole leg.role leg.scopes purpose := by
      intro held
      rw [mem_trimmedSet]
      constructor
      · rintro ⟨_, given, inScopes, rfl⟩
        cases List.mem_append.mp inScopes with
        | inl before =>
          rw [(accumulates.normal.scopes.trimmed given before).1]
          exact .inl before
        | inr new =>
          rw [(trim_resolveScopes new).1]
          exact .inr new
      · rintro (before | new)
        · exact ⟨(accumulates.normal.scopes.trimmed held before).2, held,
            List.mem_append_left _ before, (accumulates.normal.scopes.trimmed held before).1⟩
        · exact ⟨(trim_resolveScopes new).2, held, List.mem_append_right _ new, (trim_resolveScopes new).1⟩
    have implied : (∃ held ∈ normalizeDeviceAuthScopes (actual.scopes ++
        resolveBootstrapProfileScopesForRole leg.role leg.scopes purpose), Grants held scope) ↔
          ∃ held ∈ trimmedSet (actual.scopes ++ resolveBootstrapProfileScopesForRole leg.role leg.scopes purpose),
              Grants held scope := by
      rw [← grants_withImpliedScopes]
      simp only [mem_normalizeDeviceAuthScopes]
    refine implied.trans ?_
    constructor
    · rintro ⟨held, inSet, grants⟩
      cases (all held).mp inSet with
      | inl before =>
        obtain ⟨earlier, inLegs, gives⟩ := (accumulates.scopes scope).mp ⟨held, before, grants⟩
        exact ⟨earlier, List.mem_append_left _ inLegs, gives⟩
      | inr new => exact ⟨leg, by simp, held, new, grants⟩
    · rintro ⟨given, inLegs, held, gives, grants⟩
      cases List.mem_append.mp inLegs with
      | inl before =>
        obtain ⟨held, inScopes, grants⟩ :=
          (accumulates.scopes scope).mpr ⟨given, before, held, gives, grants⟩
        exact ⟨held, (all held).mpr (.inl inScopes), grants⟩
      | inr new =>
        rw [List.mem_singleton.mp new] at gives
        exact ⟨held, (all held).mpr (.inr gives), grants⟩

theorem Accumulates.satisfies_iff {actual profile : DeviceBootstrapProfile}
    {redeemed : List RoleScopes} {purpose : Option DeviceBootstrapPurpose}
    (accumulates : Accumulates actual redeemed purpose) (normal : profile.Normal) :
    bootstrapProfileSatisfiesProfile actual profile = true ↔ CoversProfile redeemed purpose profile := by
  have allowed : ∀ role ∈ profile.roles, role ∈ actual.roles →
      (((resolveBootstrapProfileScopesForRole role profile.scopes profile.purpose).isEmpty = true ∨
        bootstrapProfileAllowsRequest actual role
          (resolveBootstrapProfileScopesForRole role profile.scopes profile.purpose) = true) ↔
        ∀ scope ∈ resolveBootstrapProfileScopesForRole role profile.scopes profile.purpose,
          ∃ held ∈ actual.scopes, Grants held scope) := by
    intro role inRoles held
    have trimmed := (normal.roles.trimmed role inRoles).1
    by_cases operator : role = "operator"
    · have same : ∀ scope, scope ∈ trimmedSet
          (resolveBootstrapProfileScopesForRole role profile.scopes profile.purpose) ↔
            scope ∈ resolveBootstrapProfileScopesForRole role profile.scopes profile.purpose := by
        intro scope
        rw [mem_trimmedSet]
        constructor
        · rintro ⟨_, given, resolved, rfl⟩
          rw [(trim_resolveScopes resolved).1]
          exact resolved
        · exact fun resolved => ⟨(trim_resolveScopes resolved).2, scope, resolved, (trim_resolveScopes resolved).1⟩
      have grants : ∀ scope, Covered "operator" scope (trimmedSet actual.scopes).rows ↔
          ∃ held ∈ actual.scopes, Grants held scope := by
        intro scope
        rw [rows_trimmedSet accumulates.normal.scopes.distinct accumulates.normal.scopes.trimmed]
        exact Iff.rfl
      have request : bootstrapProfileAllowsRequest actual role
          (resolveBootstrapProfileScopesForRole role profile.scopes profile.purpose) = true ↔
            ∀ scope ∈ resolveBootstrapProfileScopesForRole role profile.scopes profile.purpose,
              ∃ held ∈ actual.scopes, Grants held scope := by
        unfold bootstrapProfileAllowsRequest
        rw [Bool.and_eq_true, roleScopesAllow_iff, trimmed, operator]
        rw [operator] at same held
        simp only [same, grants, List.contains_iff_mem, held, true_and]
      rw [request]
      refine or_iff_right_of_imp fun empty scope resolved => ?_
      rw [List.isEmpty_iff.mp empty] at resolved
      cases resolved
    · have none : resolveBootstrapProfileScopesForRole role profile.scopes profile.purpose = [] := by
        unfold resolveBootstrapProfileScopesForRole normalizeDeviceAuthRole
        rw [trimmed, if_neg operator]
      rw [none]
      simp
  unfold bootstrapProfileSatisfiesProfile CoversProfile
  rw [List.all_eq_true]
  refine forall_congr' fun role => forall_congr' fun inRoles => ?_
  rw [Bool.and_eq_true, Bool.or_eq_true, List.contains_iff_mem]
  have redeemedRole := accumulates.roles role
  have nonempty := (normal.roles.trimmed role inRoles).2
  constructor
  · rintro ⟨held, scopes⟩
    refine ⟨((redeemedRole.mp held).2), fun scope resolved => ?_⟩
    exact (accumulates.scopes scope).mp ((allowed role inRoles held).mp scopes scope resolved)
  · rintro ⟨leg, scopes⟩
    have held := redeemedRole.mpr ⟨nonempty, leg⟩
    refine ⟨held, (allowed role inRoles held).mpr fun scope resolved => ?_⟩
    exact (accumulates.scopes scope).mpr (scopes scope resolved)

end PlatformClaw.Devices
