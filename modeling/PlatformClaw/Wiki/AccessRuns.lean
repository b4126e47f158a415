import PlatformClaw.Library.Machine
import PlatformClaw.Wiki.Capacity

/-! # Runs of vault operations

Every operation that changes who has access to a vault reconciles the connections before it commits. So no
connection outlives the access it was made for, in any order of operations on vaults and organizations.
-/

namespace PlatformClaw.Wiki

open Except (ensure bind_ok_iff ensure_ok_iff)
open Organization (OrganizationStore)

inductive VaultError where
  | authorization (message : String)
  | state (message : String)
  | wiki (error : WikiError)

/-- The vaults beside the tables of their access. -/
structure VaultStore where
  vaults : List String
  wiki : WikiStore

inductive VaultOperation where
  | createVault (userId id : String)
  | setMember (userId vaultId memberUserId : String) (role : KnowledgeVaultRole)
  | removeMember (userId vaultId memberUserId : String)
  | setOrganizationGrant (userId vaultId scopeId : String) (role : KnowledgeVaultRole)
  | removeOrganizationGrant (userId vaultId scopeId : String)
  | setConnection (userId vaultId : String) (connected : Bool)
  /-- Any change of the organization, which reconciles in its own transaction. -/
  | commitOrganizationMutation (organization : OrganizationStore)

/-- `INSERT … ON CONFLICT DO UPDATE`. -/
def putRow {ρ : Type} (same : ρ → ρ → Bool) (rows : List ρ) (row : ρ) : List ρ :=
  if rows.any (same row) then rows.map fun old => if same row old then row else old else rows ++ [row]

namespace VaultStore

def activeUser (store : VaultStore) (userId : String) : Except VaultError Unit :=
  ensure (store.wiki.organization.platformUsers.any (fun user => user.id = userId && user.status = .active) = true)
    (.authorization "Active employee required")

def access (store : VaultStore) (userId vaultId : String) (owner : Bool) : Except VaultError Unit := do
  store.activeUser userId
  ensure (vaultId ∈ store.vaults ∧ (((store.wiki.effectiveWikiRoles.get vaultId).bind
      fun members => ScriptMap.get members userId).any fun role => !owner || role = .owner) = true)
    (.authorization "Wiki or requested permission is unavailable")

/-- `reconcileWikiAccess` at the end of a transaction. -/
def commit (store : VaultStore) (wiki : WikiStore) (requireOwnerVaultId : Option String) : Except VaultError VaultStore :=
  match wiki.reconcileWikiAccess requireOwnerVaultId with
  | .ok wiki => .ok { store with wiki }
  | .error error => .error (.wiki error)

def execute (store : VaultStore) : VaultOperation → Except VaultError VaultStore
  | .createVault userId id => do
    store.activeUser userId
    ensure (id ∉ store.vaults) (.state "UNIQUE constraint failed: knowledge_vaults.id")
    commit { store with vaults := store.vaults ++ [id] }
      { store.wiki with members := store.wiki.members ++ [⟨id, userId, .owner⟩] } (some id)
  | .setMember userId vaultId memberUserId role => do
    store.access userId vaultId true
    store.activeUser memberUserId
    let members := putRow (fun row old => row.vaultId = old.vaultId && row.userId = old.userId) store.wiki.members
      ⟨vaultId, memberUserId, role⟩
    store.commit { store.wiki with members } (some vaultId)
  | .removeMember userId vaultId memberUserId => do
    store.access userId vaultId true
    let members := store.wiki.members.filter fun row => !(row.vaultId = vaultId && row.userId = memberUserId)
    store.commit { store.wiki with members } (some vaultId)
  | .setOrganizationGrant userId vaultId scopeId role => do
    store.access userId vaultId true
    ensure (store.wiki.organization.activeWikiOrganizations.any (·.id = scopeId) = true)
      (.state "Choose an active organization")
    let grants := putRow (fun row old => row.vaultId = old.vaultId && row.scopeId = old.scopeId) store.wiki.grants
      ⟨vaultId, scopeId, role⟩
    store.commit { store.wiki with grants } (some vaultId)
  | .removeOrganizationGrant userId vaultId scopeId => do
    store.access userId vaultId true
    let grants := store.wiki.grants.filter fun row => !(row.vaultId = vaultId && row.scopeId = scopeId)
    store.commit { store.wiki with grants } (some vaultId)
  | .setConnection userId vaultId connected => do
    store.access userId vaultId false
    match store.wiki.writeWikiEnabled userId vaultId connected false with
    | .ok wiki => return { store with wiki }
    | .error error => throw (.wiki error)
  | .commitOrganizationMutation organization => store.commit { store.wiki with organization } none

def machine : Machine VaultStore VaultOperation where
  step store operation :=
    match store.execute operation with
    | .ok after => after
    | .error _ => store

def empty (organization : OrganizationStore) : VaultStore :=
  ⟨[], { organization, members := [], grants := [], accessStates := .empty, connections := .empty
         enableOutcomes := .empty, selections := .empty }⟩

end VaultStore

/-- The vault that an operation must leave with an owner. -/
def VaultOperation.ownedVault : VaultOperation → Option String
  | .createVault _ vaultId | .setMember _ vaultId _ _ | .removeMember _ vaultId _
  | .setOrganizationGrant _ vaultId _ _ | .removeOrganizationGrant _ vaultId _ => some vaultId
  | .setConnection _ _ _ | .commitOrganizationMutation _ => none

/-- What an accepted operation does: a change of members, grants or the organization that is reconciled, or
    the choice of a user with access. -/
inductive VaultEffect (before after : WikiStore) (operation : VaultOperation) : Prop
  | reconciled (changed : WikiStore) (done : changed.reconcileWikiAccess operation.ownedVault = .ok after)
      (states : changed.accessStates = before.accessStates) (connections : changed.connections = before.connections)
  | chosen (userId vaultId : String) (connected : Bool) (isChoice : operation = .setConnection userId vaultId connected)
      (permitted : before.effectiveWikiRoles.has vaultId userId = true)
      (done : before.writeWikiEnabled userId vaultId connected false = .ok after)

theorem VaultStore.commit_ok {store after : VaultStore} {wiki : WikiStore} {required : Option String}
    (done : store.commit wiki required = .ok after) : wiki.reconcileWikiAccess required = .ok after.wiki := by
  unfold commit at done
  split at done
  · rename_i reconciled
    cases done
    exact reconciled
  · cases done

theorem VaultStore.effect_of_execute {store after : VaultStore} {operation : VaultOperation}
    (done : store.execute operation = .ok after) : VaultEffect store.wiki after.wiki operation := by
  cases operation with
  | createVault =>
    obtain ⟨_, -, done⟩ := bind_ok_iff.mp done
    obtain ⟨_, -, done⟩ := bind_ok_iff.mp done
    exact .reconciled _ (commit_ok done) rfl rfl
  | setMember | setOrganizationGrant =>
    obtain ⟨_, -, done⟩ := bind_ok_iff.mp done
    obtain ⟨_, -, done⟩ := bind_ok_iff.mp done
    exact .reconciled _ (commit_ok done) rfl rfl
  | removeMember | removeOrganizationGrant =>
    obtain ⟨_, -, done⟩ := bind_ok_iff.mp done
    exact .reconciled _ (commit_ok done) rfl rfl
  | setConnection userId vaultId connected =>
    obtain ⟨_, permitted, done⟩ := bind_ok_iff.mp done
    obtain ⟨_, -, permitted⟩ := bind_ok_iff.mp permitted
    obtain ⟨-, permitted⟩ := ensure_ok_iff.mp permitted
    have held : store.wiki.effectiveWikiRoles.has vaultId userId = true := by
      obtain ⟨role, found, -⟩ := (Option.any_eq_true _ _).mp permitted
      obtain ⟨members, inRoles, inMembers⟩ := Option.bind_eq_some_iff.mp found
      rw [WikiRoles.has, inRoles, Option.any_some, ScriptMap.has_iff]
      exact ⟨role, ScriptMap.get_eq_some_iff.mp inMembers⟩
    split at done
    · rename_i written
      cases done
      exact .chosen userId vaultId connected rfl held written
    · cases done
  | commitOrganizationMutation => exact .reconciled _ (@commit_ok store after _ _ done) rfl rfl

theorem mem_fillUp_of_ne {limit : Nat} {names : List String} {name other : String} (apart : other ≠ name) :
    other ∈ fillUp limit names name ↔ other ∈ names := by
  unfold fillUp
  split
  · rfl
  · simp [apart]

theorem length_fillUp_le {limit : Nat} {names : List String} {name : String} (fits : names.length ≤ limit) :
    (fillUp limit names name).length ≤ limit := by
  unfold fillUp
  split
  · exact fits
  · rename_i room
    rw [List.length_append, List.length_singleton]
    exact Nat.lt_of_not_le (not_or.mp room).2

namespace WikiStore

variable {before store after : WikiStore}

theorem writeWikiEnabled_frame {userId vaultId : String} {enabled automatic : Bool}
    (done : store.writeWikiEnabled userId vaultId enabled automatic = .ok after) :
    after.effectiveWikiRoles = store.effectiveWikiRoles ∧ after.accessStates = store.accessStates := by
  unfold writeWikiEnabled at done
  dsimp only at done
  split at done
  · split at done
    · cases done
      exact ⟨rfl, rfl⟩
    · cases done
  · split at done
    · cases done
      exact ⟨rfl, rfl⟩
    · split at done
      · cases done
        exact ⟨rfl, rfl⟩
      · cases done
        exact ⟨rfl, rfl⟩

/-- A choice that is accepted does what an automatic change would. -/
theorem writeWikiEnabled_manual {userId vaultId : String} {enabled : Bool}
    (done : store.writeWikiEnabled userId vaultId enabled false = .ok after) :
    store.writeWikiEnabled userId vaultId enabled true = .ok after := by
  unfold writeWikiEnabled at done ⊢
  dsimp only at done ⊢
  split
  · rename_i full
    rw [if_pos full, if_neg Bool.false_ne_true] at done
    cases done
  · rename_i room
    rwa [if_neg room] at done

theorem reconcileRow_prior {row : AccessStateRow} (done : before.reconcileRow store row = .ok after)
    (key : AccessStateRow) : after.effectiveWikiRoles = store.effectiveWikiRoles ∧
      after.prior key =
        if row.toVaultConnectionRow = key.toVaultConnectionRow ∧ before.prior row ≠ some row.accessible then
          some row.accessible
        else store.prior key := by
  unfold reconcileRow at done
  split at done
  · rename_i unchanged
    cases done
    exact ⟨rfl, (if_neg fun changed => changed.2 unchanged).symm⟩
  · rename_i changed
    obtain ⟨roles, states⟩ := writeWikiEnabled_frame done
    refine ⟨roles, ?_⟩
    rw [prior, states, Table.lookup_upsert]
    by_cases own : row.toVaultConnectionRow = key.toVaultConnectionRow
    · rw [if_pos own, if_pos ⟨own, changed⟩]
      cases store.accessStates.lookup key.toVaultConnectionRow <;> rfl
    · rw [if_neg own, if_neg fun both => own both.1]
      rfl

/-- Reconciling leaves the roles, and records the access of a key that only gains have. -/
theorem prior_of_reconcile {rows : List AccessStateRow} (done : rows.foldlM before.reconcileRow store = .ok after) :
    after.effectiveWikiRoles = store.effectiveWikiRoles ∧
      ∀ key : AccessStateRow,
        (∀ row ∈ rows, row.toVaultConnectionRow = key.toVaultConnectionRow → row.accessible = true) →
        (store.prior key = some true ∨ ∃ row ∈ rows,
          row.toVaultConnectionRow = key.toVaultConnectionRow ∧ before.prior row ≠ some true) →
        after.prior key = some true := by
  induction rows generalizing store with
  | nil =>
    cases done
    exact ⟨rfl, fun _ _ holds => holds.resolve_right fun ⟨_, none_, _⟩ => absurd none_ List.not_mem_nil⟩
  | cons row rest ih =>
    rw [List.foldlM_cons] at done
    obtain ⟨next, here, later⟩ := bind_ok_iff.mp done
    obtain ⟨rolesLater, states⟩ := ih later
    refine ⟨rolesLater.trans (reconcileRow_prior here row).1, fun key agree holds => ?_⟩
    obtain ⟨gain, gains⟩ := List.forall_mem_cons.mp agree
    refine states key gains ?_
    rw [(reconcileRow_prior here key).2]
    split
    · rename_i changed
      exact .inl (congrArg some (gain changed.1))
    · rename_i unchanged
      refine holds.imp_right fun ⟨other, inRows, own, changed⟩ => ⟨other, ?_, own, changed⟩
      refine (List.mem_cons.mp inRows).resolve_left ?_
      rintro rfl
      exact unchanged ⟨own, by rwa [gain own]⟩

theorem reconcileWikiAccess_ok {required : Option String} (done : store.reconcileWikiAccess required = .ok after) :
    (store.current ++ store.without).foldlM store.reconcileRow store = .ok after ∧
      ∀ vaultId, required = some vaultId → vaultId ≠ "" →
        (store.effectiveWikiRoles.get vaultId).any (fun members =>
          members.rows.any fun member => member.2 = .owner) = true := by
  unfold reconcileWikiAccess at done
  split at done
  · rename_i none_
    refine ⟨done, fun vaultId isRequired some_ => ?_⟩
    rw [isRequired, Option.filter_some, if_pos (decide_eq_true some_)] at none_
    cases none_
  · rename_i required' isRequired'
    obtain ⟨_, owned, done⟩ := bind_ok_iff.mp done
    refine ⟨done, fun vaultId isRequired some_ => ?_⟩
    rw [isRequired, Option.filter_some, if_pos (decide_eq_true some_)] at isRequired'
    cases isRequired'
    exact ensure_ok_iff.mp owned

theorem not_has_of_without {row : AccessStateRow} (isWithout : row ∈ store.without) :
    store.effectiveWikiRoles.has row.vaultId row.userId = false := by
  obtain ⟨known, inKnown, rfl⟩ := List.mem_map.mp isWithout
  simpa using (List.mem_filter.mp inKnown).2

/-- After reconciling, whoever has access is known to have it. -/
theorem known_of_reconcile {required : Option String} (done : store.reconcileWikiAccess required = .ok after) :
    after.effectiveWikiRoles = store.effectiveWikiRoles ∧
      ∀ userId vaultId, store.effectiveWikiRoles.has vaultId userId = true →
        after.prior ⟨⟨userId, vaultId⟩, true⟩ = some true := by
  obtain ⟨roles, states⟩ := prior_of_reconcile (reconcileWikiAccess_ok done).1
  refine ⟨roles, fun userId vaultId held => states _ ?_ ?_⟩
  · intro row inRows own
    rcases List.mem_append.mp inRows with isCurrent | isWithout
    · exact (mem_current.mp isCurrent).1
    · have lost := not_has_of_without isWithout
      rw [own] at lost
      cases lost.symm.trans held
  · by_cases known : store.prior ⟨⟨userId, vaultId⟩, true⟩ = some true
    · exact .inl known
    · exact .inr ⟨_, List.mem_append_left _ (mem_current.mpr ⟨rfl, held⟩), rfl, known⟩

theorem of_gained {userId vaultId : String} (gained : vaultId ∈ store.gainedVaults userId) :
    store.effectiveWikiRoles.has vaultId userId = true ∧ store.prior ⟨⟨userId, vaultId⟩, true⟩ ≠ some true := by
  obtain ⟨row, selected, rfl⟩ := List.mem_map.mp gained
  obtain ⟨isCurrent, own⟩ := List.mem_filter.mp selected
  obtain ⟨accessible, held⟩ := mem_current.mp isCurrent
  simp only [Bool.and_eq_true, decide_eq_true_eq] at own
  rw [own.1] at held
  rw [accessible] at own
  exact ⟨held, by simpa [prior, ← own.1] using own.2⟩

theorem mem_lostVaults {userId vaultId : String} (known : store.prior ⟨⟨userId, vaultId⟩, true⟩ = some true) :
    vaultId ∈ store.lostVaults userId ↔ store.effectiveWikiRoles.has vaultId userId = false := by
  constructor
  · intro lost
    obtain ⟨row, selected, rfl⟩ := List.mem_map.mp lost
    obtain ⟨isWithout, own⟩ := List.mem_filter.mp selected
    simp only [Bool.and_eq_true, decide_eq_true_eq] at own
    exact own.1 ▸ not_has_of_without isWithout
  · intro lost
    obtain ⟨row, found, accessible⟩ := Option.map_eq_some_iff.mp known
    obtain ⟨inTable, own⟩ := Table.lookup_eq_some_iff.mp found
    have prior : store.prior { row with accessible := false } = some true := by
      rw [prior, own, found, Option.map_some, accessible]
    refine List.mem_map.mpr ⟨{ row with accessible := false }, List.mem_filter.mpr ⟨List.mem_map.mpr
      ⟨row, List.mem_filter.mpr ⟨inTable, ?_⟩, rfl⟩, ?_⟩, congrArg VaultConnectionRow.vaultId own⟩
    · rw [own, lost]
      rfl
    · simp [prior, congrArg VaultConnectionRow.userId own]

/-- Nobody is connected to a vault without access to it, or to more vaults than the limit; who has access is known
    to have it. -/
structure AccessKept (store : WikiStore) : Prop where
  known : ∀ userId vaultId, store.effectiveWikiRoles.has vaultId userId = true →
    store.prior ⟨⟨userId, vaultId⟩, true⟩ = some true
  permitted : ∀ userId vaultId, vaultId ∈ store.connectedVaults userId →
    store.effectiveWikiRoles.has vaultId userId = true
  bounded : ∀ userId, (store.connectedVaults userId).length ≤ connectionLimit

/-- A change that is reconciled keeps the connections of those who have access before and after. -/
theorem AccessKept.reconciled (kept : before.AccessKept) {changed : WikiStore}
    (states : changed.accessStates = before.accessStates) (connections : changed.connections = before.connections)
    {required : Option String} (done : changed.reconcileWikiAccess required = .ok after) :
    after.AccessKept ∧ ∀ userId vaultId, before.effectiveWikiRoles.has vaultId userId = true →
      after.effectiveWikiRoles.has vaultId userId = true →
      (vaultId ∈ after.connectedVaults userId ↔ vaultId ∈ before.connectedVaults userId) := by
  obtain ⟨roles, known⟩ := known_of_reconcile done
  have same : changed.connectedVaults = before.connectedVaults := by
    funext userId
    rw [connectedVaults, connections]
    rfl
  have prior : ∀ row, changed.prior row = before.prior row := fun row => by rw [WikiStore.prior, states]; rfl
  have connected := connectedVaults_reconcile done
  rw [same] at connected
  refine ⟨⟨fun userId vaultId held => known userId vaultId (roles ▸ held), ?_, ?_⟩, ?_⟩
  · intro userId vaultId isIn
    rw [roles]
    rw [connected] at isIn
    rcases List.mem_append.mp isIn with old | new
    · obtain ⟨old, notLost⟩ := List.mem_filter.mp old
      have before' := kept.known userId vaultId (kept.permitted userId vaultId old)
      rw [← Bool.not_eq_false]
      exact fun lost => of_decide_eq_true notLost ((mem_lostVaults ((prior _).trans before')).mpr lost)
    · exact (of_gained (List.mem_filter.mp (List.mem_of_mem_take new)).1).1
  · intro userId
    have limit := kept.bounded userId
    have fewer := List.length_filter_le (fun vaultId => decide (vaultId ∉ changed.lostVaults userId))
      (before.connectedVaults userId)
    rw [connected, List.length_append, List.length_take]
    omega
  · intro userId vaultId held heldAfter
    rw [roles] at heldAfter
    have before' := (prior _).trans (kept.known userId vaultId held)
    rw [connected, List.mem_append]
    constructor
    · rintro (old | new)
      · exact (List.mem_filter.mp old).1
      · exact absurd before' (of_gained (List.mem_filter.mp (List.mem_of_mem_take new)).1).2
    · intro old
      refine .inl (List.mem_filter.mpr ⟨old, decide_eq_true fun lost => ?_⟩)
      cases ((mem_lostVaults before').mp lost).symm.trans heldAfter

/-- A choice of a user with access changes that one connection. -/
theorem AccessKept.chosen (kept : before.AccessKept) {userId vaultId : String} {enabled : Bool}
    (permitted : before.effectiveWikiRoles.has vaultId userId = true)
    (done : before.writeWikiEnabled userId vaultId enabled false = .ok after) :
    after.AccessKept ∧ ∀ user vault, (user, vault) ≠ (userId, vaultId) →
      (vault ∈ after.connectedVaults user ↔ vault ∈ before.connectedVaults user) := by
  obtain ⟨roles, states⟩ := writeWikiEnabled_frame done
  obtain ⟨after', written, connected⟩ := before.writeWikiEnabled_automatic userId vaultId enabled
  cases Except.ok.inj (written.symm.trans (writeWikiEnabled_manual done))
  have others : ∀ user vault, (user, vault) ≠ (userId, vaultId) →
      (vault ∈ after.connectedVaults user ↔ vault ∈ before.connectedVaults user) := by
    intro user vault other
    rw [connected]
    split
    · rename_i own
      subst own
      have different : vault ≠ vaultId := fun same => other (by rw [same])
      split
      · exact mem_fillUp_of_ne different
      · simp [different]
    · rfl
  refine ⟨⟨?_, ?_, ?_⟩, others⟩
  · intro user vault held
    rw [prior, states]
    exact kept.known user vault (roles ▸ held)
  · intro user vault isIn
    rw [roles]
    by_cases same : (user, vault) = (userId, vaultId)
    · cases same
      exact permitted
    · exact kept.permitted user vault ((others user vault same).mp isIn)
  · intro user
    have limit := kept.bounded user
    rw [connected]
    split
    · rename_i own
      subst own
      split
      · exact length_fillUp_le limit
      · exact Nat.le_trans (List.length_filter_le _ _) limit
    · exact limit

end WikiStore

theorem VaultEffect.kept {before after : WikiStore} {operation : VaultOperation} (kept : before.AccessKept)
    (effect : VaultEffect before after operation) : after.AccessKept := by
  cases effect with
  | reconciled changed done states connections => exact (kept.reconciled states connections done).1
  | chosen userId vaultId connected _ permitted done => exact (kept.chosen permitted done).1

namespace VaultStore

theorem accessKept_run (organization : OrganizationStore) (operations : List VaultOperation) :
    (machine.run (empty organization) operations).wiki.AccessKept := by
  apply Machine.run_invariant (P := fun store : VaultStore => store.wiki.AccessKept)
  · intro store operation kept
    simp only [machine]
    split
    · rename_i after done
      exact (effect_of_execute done).kept kept
    · exact kept
  · exact ⟨fun _ _ none_ => absurd none_ Bool.false_ne_true, fun _ _ none_ => absurd none_ List.not_mem_nil,
      fun _ => Nat.zero_le _⟩

/-- After every run of operations on vaults and the organization: nobody is connected to a vault without access to
    it or to more vaults than the limit, an operation on members or grants leaves an owner, and who has access
    before and after an operation stays connected or unconnected, unless the operation is that choice. -/
theorem wiki_access_of_run (organization : OrganizationStore) (operations : List VaultOperation) :
    let store := machine.run (empty organization) operations
    (∀ userId vaultId, vaultId ∈ store.wiki.connectedVaults userId →
      store.wiki.effectiveWikiRoles.has vaultId userId = true) ∧
    (∀ userId, (store.wiki.connectedVaults userId).length ≤ connectionLimit) ∧
    ∀ operation after, store.execute operation = .ok after →
      (∀ vaultId, operation.ownedVault = some vaultId → vaultId ≠ "" →
        (after.wiki.effectiveWikiRoles.get vaultId).any (fun members =>
          members.rows.any fun member => member.2 = .owner) = true) ∧
      ∀ userId vaultId, (∀ connected, operation ≠ .setConnection userId vaultId connected) →
        store.wiki.effectiveWikiRoles.has vaultId userId = true →
        after.wiki.effectiveWikiRoles.has vaultId userId = true →
        (vaultId ∈ after.wiki.connectedVaults userId ↔ vaultId ∈ store.wiki.connectedVaults userId) := by
  intro store
  have kept : store.wiki.AccessKept := accessKept_run organization operations
  refine ⟨kept.permitted, kept.bounded, fun operation after done => ?_⟩
  cases effect_of_execute done with
  | reconciled changed done states connections =>
    refine ⟨fun vaultId required some_ => ?_, fun userId vaultId _ => (kept.reconciled states connections done).2 _ _⟩
    rw [(WikiStore.known_of_reconcile done).1]
    exact (WikiStore.reconcileWikiAccess_ok done).2 vaultId required some_
  | chosen chooser chosenId connected isChoice permitted done =>
    refine ⟨fun vaultId required => ?_, fun userId vaultId other _ _ => ?_⟩
    · rw [isChoice] at required
      cases required
    · refine (kept.chosen permitted done).2 userId vaultId fun same => ?_
      cases same
      exact other connected isChoice

end VaultStore

end PlatformClaw.Wiki
