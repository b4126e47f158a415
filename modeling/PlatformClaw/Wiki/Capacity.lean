import PlatformClaw.Wiki.Access

/-! # The limit of connections

Gains and losses of one change are reconciled in one pass, the gains first. What a user gains takes the room that
is left before anything lost is given up.
-/

namespace PlatformClaw.Wiki

/-- A name is added to others where it is new and there is room for it. -/
def fillUp (limit : Nat) (names : List String) (name : String) : List String :=
  if name ∈ names ∨ limit ≤ names.length then names else names ++ [name]

theorem foldl_fillUp {limit : Nat} {gains : List String} (distinct : gains.Nodup) (names : List String) :
    gains.foldl (fillUp limit) names =
      names ++ (gains.filter fun name => name ∉ names).take (limit - names.length) := by
  induction gains generalizing names with
  | nil => simp
  | cons name rest ih =>
    obtain ⟨alone, others⟩ := List.nodup_cons.mp distinct
    rw [List.foldl_cons, ih others, fillUp]
    by_cases old : name ∈ names
    · rw [if_pos (.inl old), List.filter_cons_of_neg (by simpa using old)]
    · rw [List.filter_cons_of_pos (by simpa using old)]
      by_cases full : limit ≤ names.length
      · rw [if_pos (.inr full), Nat.sub_eq_zero_of_le full, List.take_zero, List.take_zero]
      · rw [if_neg (not_or.mpr ⟨old, full⟩)]
        have room : limit - names.length = limit - (names ++ [name]).length + 1 := by
          rw [List.length_append, List.length_singleton]
          omega
        have same : (rest.filter fun other => other ∉ names ++ [name]) = rest.filter fun other => other ∉ names := by
          apply List.filter_congr
          intro other inRest
          have different : other ≠ name := fun same => alone (same ▸ inRest)
          simp [different]
        rw [same, room, List.take_succ_cons, List.append_assoc]
        rfl

theorem left_out_iff {names news : List String} (distinct : news.Nodup) (apart : ∀ name ∈ news, name ∉ names)
    (room : Nat) : (∃ name ∈ news, name ∉ names ++ news.take room) ↔ room < news.length := by
  constructor
  · rintro ⟨name, isNew, out⟩
    apply Nat.lt_of_not_le
    intro fits
    rw [List.take_of_length_le fits] at out
    exact out (List.mem_append_right _ isNew)
  · intro less
    refine ⟨news[room], List.getElem_mem less, fun isIn => ?_⟩
    obtain old | early := List.mem_append.mp isIn
    · exact apart _ (List.getElem_mem less) old
    · obtain ⟨place, inside, same⟩ := List.getElem_of_mem early
      rw [List.length_take] at inside
      rw [List.getElem_take] at same
      have equal := (List.getElem_inj distinct).mp same
      omega

namespace WikiStore

variable {store : WikiStore}

theorem mem_connectedVaults {userId vaultId : String} :
    vaultId ∈ store.connectedVaults userId ↔ (store.connections.lookup ⟨userId, vaultId⟩).isSome = true := by
  rw [connectedVaults, List.mem_map, Option.isSome_iff_exists]
  constructor
  · rintro ⟨row, inRows, rfl⟩
    obtain ⟨inTable, same⟩ := List.mem_filter.mp inRows
    have own := of_decide_eq_true same
    refine ⟨row, Table.lookup_eq_some_iff.mpr ⟨inTable, ?_⟩⟩
    cases row
    cases own
    rfl
  · rintro ⟨row, found⟩
    obtain ⟨inTable, same⟩ := Table.lookup_eq_some_iff.mp found
    cases same
    exact ⟨_, List.mem_filter.mpr ⟨inTable, decide_eq_true rfl⟩, rfl⟩

theorem connectedVaults_insert {userId vaultId : String}
    (absent : store.connections.lookup ⟨userId, vaultId⟩ = none) (user : String) :
    { store with connections := store.connections.upsert ⟨userId, vaultId⟩ id fun _ => rfl }.connectedVaults user =
      if user = userId then store.connectedVaults userId ++ [vaultId] else store.connectedVaults user := by
  have absent' : store.connections.lookup (id ⟨userId, vaultId⟩) = none := absent
  obtain ⟨inserted, done⟩ := Option.isSome_iff_exists.mp (Table.insert?_isSome_iff.mpr absent')
  have rows : (store.connections.upsert ⟨userId, vaultId⟩ id fun _ => rfl).rows =
      store.connections.rows ++ [⟨userId, vaultId⟩] := by
    rw [Table.upsert, done, Option.getD_some, Table.insert?_rows done]
  rw [connectedVaults, rows, List.filter_append, List.map_append]
  by_cases same : user = userId
  · subst same
    simp [connectedVaults]
  · simp [same, Ne.symm same, connectedVaults]

theorem connectedVaults_delete (userId vaultId user : String) :
    { store with
        connections := store.connections.delete (· = (⟨userId, vaultId⟩ : VaultConnectionRow)) }.connectedVaults user =
      if user = userId then (store.connectedVaults userId).filter (· ≠ vaultId)
      else store.connectedVaults user := by
  have rows : (store.connections.delete (· = (⟨userId, vaultId⟩ : VaultConnectionRow))).rows =
      store.connections.rows.filter fun row => !decide (row = (⟨userId, vaultId⟩ : VaultConnectionRow)) := rfl
  rw [connectedVaults, rows, List.filter_filter]
  by_cases same : user = userId
  · subst same
    rw [if_pos rfl, connectedVaults, List.filter_map, List.filter_filter]
    congr 1
    apply List.filter_congr
    intro row _
    cases row with
    | mk ofUser ofVault =>
      by_cases own : ofUser = user
      · simp [own]
      · simp [own]
  · rw [if_neg same, connectedVaults]
    congr 1
    apply List.filter_congr
    intro row _
    by_cases own : row.userId = user
    · have other : row ≠ ⟨userId, vaultId⟩ := by
        rintro rfl
        exact same own.symm
      simp [own, other]
    · simp [own]

theorem writeWikiEnabled_automatic (store : WikiStore) (userId vaultId : String) (enabled : Bool) :
    ∃ after, store.writeWikiEnabled userId vaultId enabled true = .ok after ∧ ∀ user, after.connectedVaults user =
        if user = userId then
          if enabled then fillUp connectionLimit (store.connectedVaults userId) vaultId
          else (store.connectedVaults userId).filter (· ≠ vaultId)
        else store.connectedVaults user := by
  have here := @mem_connectedVaults store userId vaultId
  unfold writeWikiEnabled
  dsimp only
  split
  · rename_i full
    obtain ⟨isEnabled, -, limit⟩ := full
    have filled : fillUp connectionLimit (store.connectedVaults userId) vaultId = store.connectedVaults userId :=
      if_pos (.inr limit)
    refine ⟨_, rfl, fun user => ?_⟩
    change store.connectedVaults user = _
    rw [if_pos isEnabled, filled]
    split
    · rename_i same
      rw [same]
    · rfl
  · rename_i room
    split
    · rename_i kept
      refine ⟨_, rfl, fun user => ?_⟩
      change store.connectedVaults user = _
      rw [kept] at here
      cases enabled with
      | true =>
        have filled : fillUp connectionLimit (store.connectedVaults userId) vaultId =
            store.connectedVaults userId := if_pos (.inl (here.mpr rfl))
        rw [if_pos rfl, filled]
        split
        · rename_i same
          rw [same]
        · rfl
      | false =>
        have unchanged : (store.connectedVaults userId).filter (· ≠ vaultId) = store.connectedVaults userId := by
          rw [List.filter_eq_self]
          intro other isConnected
          have different : other ≠ vaultId := by
            rintro rfl
            cases here.mp isConnected
          simp [different]
        rw [if_neg Bool.false_ne_true, unchanged]
        split
        · rename_i same
          rw [same]
        · rfl
    · rename_i changed
      split
      · rename_i isEnabled
        have absent : store.connections.lookup ⟨userId, vaultId⟩ = none := by
          rw [isEnabled, Bool.not_eq_true] at changed
          exact Option.isNone_iff_eq_none.mp (Option.isSome_eq_false_iff.mp changed)
        refine ⟨_, rfl, fun user => ?_⟩
        have inserted := connectedVaults_insert absent user
        have fits : ¬ (vaultId ∈ store.connectedVaults userId ∨
            connectionLimit ≤ (store.connectedVaults userId).length) := by
          rintro (old | limit)
          · rw [here, absent] at old
            cases old
          · exact room ⟨isEnabled, by rw [absent]; rfl, limit⟩
        rw [fillUp, if_neg fits, ← inserted]
        rfl
      · rename_i disabled
        refine ⟨_, rfl, fun user => ?_⟩
        have deleted := @connectedVaults_delete store userId vaultId user
        rw [← deleted]
        rfl

def changedVaults (before : WikiStore) (rows : List AccessStateRow) (userId : String) : List String :=
  (rows.filter fun row => row.userId = userId && before.prior row ≠ some row.accessible).map (·.vaultId)

/-- What the user did not have access to before. -/
def gainedVaults (store : WikiStore) (userId : String) : List String :=
  store.changedVaults store.current userId

/-- What the user had access to before and has no more. -/
def lostVaults (store : WikiStore) (userId : String) : List String :=
  store.changedVaults store.without userId

theorem changedVaults_cons (before : WikiStore) (row : AccessStateRow) (rest : List AccessStateRow) (user : String) :
    before.changedVaults (row :: rest) user =
      (if user = row.userId ∧ before.prior row ≠ some row.accessible then [row.vaultId] else []) ++
        before.changedVaults rest user := by
  unfold changedVaults
  rw [List.filter_cons]
  by_cases changed : user = row.userId ∧ before.prior row ≠ some row.accessible
  · rw [if_pos changed]
    simp [changed.1.symm, changed.2]
  · rw [if_neg changed]
    split
    · rename_i selected
      simp only [Bool.and_eq_true, decide_eq_true_eq] at selected
      exact absurd ⟨selected.1.symm, selected.2⟩ changed
    · rfl

theorem reconcileRow_spec (before store : WikiStore) (row : AccessStateRow) :
    ∃ after, before.reconcileRow store row = .ok after ∧ ∀ user, after.connectedVaults user =
        if user = row.userId ∧ before.prior row ≠ some row.accessible then
          if row.accessible then fillUp connectionLimit (store.connectedVaults user) row.vaultId
          else (store.connectedVaults user).filter (· ≠ row.vaultId)
        else store.connectedVaults user := by
  unfold reconcileRow
  split
  · rename_i unchanged
    exact ⟨store, rfl, fun user => by rw [if_neg fun changed => changed.2 unchanged]⟩
  · rename_i changed
    obtain ⟨after, done, connected⟩ := writeWikiEnabled_automatic
      { store with
        accessStates := store.accessStates.upsert row
          (fun old => { old with accessible := row.accessible }) fun _ => rfl }
      row.userId row.vaultId row.accessible
    refine ⟨after, done, fun user => ?_⟩
    rw [connected]
    by_cases same : user = row.userId
    · subst same
      simp only [true_and, if_true, if_pos changed, ne_eq]
      rfl
    · simp only [same, false_and, if_false]
      rfl

theorem reconcile_gains {before store : WikiStore} {rows : List AccessStateRow}
    (gains : ∀ row ∈ rows, row.accessible = true) :
    ∃ after, rows.foldlM before.reconcileRow store = .ok after ∧ ∀ user, after.connectedVaults user =
        (before.changedVaults rows user).foldl (fillUp connectionLimit) (store.connectedVaults user) := by
  induction rows generalizing store with
  | nil => exact ⟨store, rfl, fun _ => rfl⟩
  | cons row rest ih =>
    obtain ⟨gain, others⟩ := List.forall_mem_cons.mp gains
    obtain ⟨next, here, connected⟩ := reconcileRow_spec before store row
    obtain ⟨after, later, kept⟩ := @ih next others
    refine ⟨after, ?_, fun user => ?_⟩
    · rw [List.foldlM_cons, here]
      exact later
    · rw [kept, connected, gain, changedVaults_cons, gain]
      split
      · rw [List.foldl_append]
        rfl
      · rfl

theorem reconcile_losses {before store : WikiStore} {rows : List AccessStateRow}
    (losses : ∀ row ∈ rows, row.accessible = false) :
    ∃ after, rows.foldlM before.reconcileRow store = .ok after ∧ ∀ user, after.connectedVaults user =
        (store.connectedVaults user).filter fun vaultId => vaultId ∉ before.changedVaults rows user := by
  induction rows generalizing store with
  | nil => exact ⟨store, rfl, fun _ => (List.filter_eq_self.mpr fun _ _ => by simp [changedVaults]).symm⟩
  | cons row rest ih =>
    obtain ⟨loss, others⟩ := List.forall_mem_cons.mp losses
    obtain ⟨next, here, connected⟩ := reconcileRow_spec before store row
    obtain ⟨after, later, kept⟩ := @ih next others
    refine ⟨after, ?_, fun user => ?_⟩
    · rw [List.foldlM_cons, here]
      exact later
    · rw [kept, connected, loss, changedVaults_cons, loss]
      split
      · rw [if_neg Bool.false_ne_true, List.filter_filter]
        apply List.filter_congr
        intro vaultId _
        by_cases own : vaultId = row.vaultId
        · simp [own]
        · simp [own]
      · rfl

theorem mem_current {row : AccessStateRow} : row ∈ store.current ↔
      row.accessible = true ∧ store.effectiveWikiRoles.has row.vaultId row.userId = true := by
  constructor
  · intro isCurrent
    obtain ⟨⟨vaultId, members⟩, inRoles, here⟩ := List.mem_flatMap.mp isCurrent
    obtain ⟨⟨userId, role⟩, inMembers, rfl⟩ := List.mem_map.mp here
    have found : store.effectiveWikiRoles.get vaultId = some members := ScriptMap.get_eq_some_iff.mpr inRoles
    have held : ScriptMap.has members userId = true := ScriptMap.has_iff.mpr ⟨role, inMembers⟩
    refine ⟨rfl, ?_⟩
    rw [WikiRoles.has, found]
    exact held
  · rintro ⟨isAccessible, held⟩
    rw [WikiRoles.has] at held
    cases found : store.effectiveWikiRoles.get row.vaultId with
    | none =>
      rw [found] at held
      cases held
    | some members =>
      rw [found] at held
      obtain ⟨role, inMembers⟩ := ScriptMap.has_iff.mp held
      have inRoles := ScriptMap.get_eq_some_iff.mp found
      apply List.mem_flatMap.mpr
      exact ⟨_, inRoles, List.mem_map.mpr ⟨_, inMembers, by rw [← isAccessible]⟩⟩

theorem current_keyed (store : WikiStore) :
    store.current.Pairwise fun a b => a.toVaultConnectionRow ≠ b.toVaultConnectionRow := by
  rw [current, List.pairwise_flatMap]
  constructor
  · intro vault inRoles
    rw [List.pairwise_map]
    apply vault.2.keyed.imp
    intro a b apart same
    exact apart (congrArg VaultConnectionRow.userId same)
  · apply store.effectiveWikiRoles.keyed.imp
    intro vault other apart row isHere another isThere same
    obtain ⟨_, _, rfl⟩ := List.mem_map.mp isHere
    obtain ⟨_, _, rfl⟩ := List.mem_map.mp isThere
    exact apart (congrArg VaultConnectionRow.vaultId same)

theorem changedVaults_nodup {rows : List AccessStateRow}
    (keyed : rows.Pairwise fun a b => a.toVaultConnectionRow ≠ b.toVaultConnectionRow)
    (userId : String) : (store.changedVaults rows userId).Nodup := by
  rw [changedVaults, List.Nodup, List.pairwise_map]
  apply List.Pairwise.imp_of_mem _ (keyed.filter _)
  intro a b isA isB apart same
  have ownA := (List.mem_filter.mp isA).2
  have ownB := (List.mem_filter.mp isB).2
  simp only [Bool.and_eq_true, decide_eq_true_eq] at ownA ownB
  apply apart
  rw [VaultConnectionRow.mk.injEq]
  exact ⟨ownA.1.trans ownB.1.symm, same⟩

theorem gained_not_lost {userId vaultId : String} (gained : vaultId ∈ store.gainedVaults userId) :
    vaultId ∉ store.lostVaults userId := by
  intro lost
  obtain ⟨row, selected, rfl⟩ := List.mem_map.mp gained
  obtain ⟨isCurrent, own⟩ := List.mem_filter.mp selected
  obtain ⟨other, isLost, same⟩ := List.mem_map.mp lost
  obtain ⟨isWithout, ownOther⟩ := List.mem_filter.mp isLost
  obtain ⟨known, inKnown, rfl⟩ := List.mem_map.mp isWithout
  have held := (mem_current.mp isCurrent).2
  have not := (List.mem_filter.mp inKnown).2
  simp only [Bool.and_eq_true, decide_eq_true_eq] at own ownOther
  rw [own.1, ← same] at held
  rw [← ownOther.1] at held
  simp [held] at not

/-- What a user gains and was not connected to. -/
def newVaults (store : WikiStore) (userId : String) : List String :=
  (store.gainedVaults userId).filter fun vaultId => vaultId ∉ store.connectedVaults userId

def lostConnections (store : WikiStore) (userId : String) : List String :=
  (store.connectedVaults userId).filter fun vaultId => vaultId ∈ store.lostVaults userId

theorem reconcileRows_spec (store : WikiStore) :
    ∃ after, (store.current ++ store.without).foldlM store.reconcileRow store = .ok after ∧ ∀ user,
      after.connectedVaults user =
        (store.connectedVaults user).filter (fun vaultId => vaultId ∉ store.lostVaults user) ++
          (store.newVaults user).take (connectionLimit - (store.connectedVaults user).length) := by
  obtain ⟨between, first, gained⟩ := @reconcile_gains store store store.current
    fun row isCurrent => (mem_current.mp isCurrent).1
  obtain ⟨after, second, lost⟩ := @reconcile_losses store between store.without <| by
    intro row isWithout
    obtain ⟨_, _, rfl⟩ := List.mem_map.mp isWithout
    rfl
  refine ⟨after, ?_, fun user => ?_⟩
  · rw [List.foldlM_append, first]
    exact second
  · have distinct := store.changedVaults_nodup store.current_keyed user
    rw [lost, gained, foldl_fillUp distinct, List.filter_append]
    congr 1
    apply List.filter_eq_self.mpr
    intro vaultId taken
    have isGained := (List.mem_filter.mp (List.mem_of_mem_take taken)).1
    exact decide_eq_true (gained_not_lost isGained)

theorem connectedVaults_reconcile {after : WikiStore} {requireOwnerVaultId : Option String}
    (done : store.reconcileWikiAccess requireOwnerVaultId = .ok after) (user : String) :
    after.connectedVaults user =
      (store.connectedVaults user).filter (fun vaultId => vaultId ∉ store.lostVaults user) ++
        (store.newVaults user).take (connectionLimit - (store.connectedVaults user).length) := by
  obtain ⟨reconciled, folded, connected⟩ := store.reconcileRows_spec
  have same : reconciled = after := by
    unfold reconcileWikiAccess at done
    rw [folded] at done
    split at done
    · exact Except.ok.inj done
    · obtain ⟨_, -, finished⟩ := Except.bind_ok_iff.mp done
      exact Except.ok.inj finished
  rw [← same, connected]

theorem length_connectedVaults (store : WikiStore) (user : String) :
    ((store.connectedVaults user).filter fun vaultId => vaultId ∉ store.lostVaults user).length +
        (store.lostConnections user).length =
      (store.connectedVaults user).length := by
  have parts := (store.connectedVaults user).length_eq_countP_add_countP fun vaultId =>
    decide (vaultId ∈ store.lostVaults user)
  simp only [List.countP_eq_length_filter, decide_eq_true_eq] at parts
  rw [parts, Nat.add_comm, lostConnections]

theorem newVaults_nodup (store : WikiStore) (user : String) : (store.newVaults user).Nodup :=
  (store.changedVaults_nodup store.current_keyed user).filter _

theorem gained_left_out_iff {after : WikiStore} {requireOwnerVaultId : Option String}
    (done : store.reconcileWikiAccess requireOwnerVaultId = .ok after) (user : String) :
    (∃ vaultId ∈ store.gainedVaults user, vaultId ∉ after.connectedVaults user) ↔
      connectionLimit - (store.connectedVaults user).length < (store.newVaults user).length := by
  have apart : ∀ vaultId ∈ store.newVaults user, vaultId ∉ store.connectedVaults user :=
    fun _ isNew => of_decide_eq_true (List.mem_filter.mp isNew).2
  rw [← left_out_iff (store.newVaults_nodup user) apart, connectedVaults_reconcile done]
  constructor
  · intro ⟨vaultId, gained, out⟩
    obtain ⟨dropped, untaken⟩ := not_or.mp (mt List.mem_append.mpr out)
    -- What is gained is not lost, so it was not connected before.
    have new : vaultId ∉ store.connectedVaults user := fun old =>
      dropped (List.mem_filter.mpr ⟨old, decide_eq_true (gained_not_lost gained)⟩)
    refine ⟨vaultId, List.mem_filter.mpr ⟨gained, decide_eq_true new⟩, fun isIn => ?_⟩
    exact (List.mem_append.mp isIn).elim new untaken
  · intro ⟨vaultId, isNew, out⟩
    refine ⟨vaultId, (List.mem_filter.mp isNew).1, fun isIn => out ?_⟩
    obtain kept | taken := List.mem_append.mp isIn
    · exact List.mem_append_left _ (List.mem_filter.mp kept).1
    · exact List.mem_append_right _ taken

/-- What is gained is left out for want of room alone, unless it is more than there was room for before what is
lost made any. -/
theorem left_out_only_at_limit_iff {after : WikiStore} {requireOwnerVaultId : Option String}
    (done : store.reconcileWikiAccess requireOwnerVaultId = .ok after) (userId : String) :
    (∀ vaultId ∈ store.gainedVaults userId, vaultId ∉ after.connectedVaults userId →
        connectionLimit ≤ (after.connectedVaults userId).length) ↔
      (store.newVaults userId).length ≤ connectionLimit - (store.connectedVaults userId).length ∨
        store.lostConnections userId = [] ∨
        connectionLimit + (store.lostConnections userId).length ≤ (store.connectedVaults userId).length := by
  have leftOut := gained_left_out_iff done userId
  have kept := store.length_connectedVaults userId
  have count := congrArg List.length (connectedVaults_reconcile done userId)
  rw [List.length_append, List.length_take] at count
  rw [← List.length_eq_zero_iff (l := store.lostConnections userId)]
  constructor
  · intro atLimit
    by_cases some_out : ∃ vaultId ∈ store.gainedVaults userId, vaultId ∉ after.connectedVaults userId
    · obtain ⟨vaultId, gained, out⟩ := some_out
      have full := atLimit vaultId gained out
      have short := leftOut.mp ⟨vaultId, gained, out⟩
      omega
    · have enough := mt leftOut.mpr some_out
      omega
  · intro room vaultId gained out
    have short := leftOut.mp ⟨vaultId, gained, out⟩
    omega

end WikiStore

def manyConnections (count : Nat) : List VaultConnectionRow :=
  (List.range count).map fun index => ⟨"user", String.ofList (List.replicate index 'v')⟩

theorem manyConnections_keyed (count : Nat) : (manyConnections count).Pairwise fun a b => id a ≠ id b := by
  rw [manyConnections, List.pairwise_map]
  apply List.nodup_range.imp
  intro index other apart same
  have names := congrArg (·.vaultId.toList.length) same
  simp only [id, String.toList_ofList, List.length_replicate] at names
  exact apart names

theorem manyStates_keyed (count : Nat) :
    ((manyConnections count).map fun row => (⟨row, true⟩ : AccessStateRow)).Pairwise
      fun a b => a.toVaultConnectionRow ≠ b.toVaultConnectionRow :=
  List.pairwise_map.mpr (manyConnections_keyed count)

/-- A user with access to one Wiki, and with the connections and states of others from before. -/
def movedStore (count : Nat) : WikiStore where
  organization := ⟨[⟨"user", "account", none, .active, .member⟩], [], [], []⟩
  members := [⟨"handbook", "user", .reader⟩]
  grants := []
  accessStates := ⟨_, manyStates_keyed count⟩
  connections := ⟨_, manyConnections_keyed count⟩
  enableOutcomes := .empty
  selections := .empty

theorem movedStore_current (count : Nat) : (movedStore count).current = [⟨⟨"user", "handbook"⟩, true⟩] := by
  rfl

theorem handbook_not_connected (count : Nat) :
    (⟨"user", "handbook"⟩ : VaultConnectionRow) ∉ manyConnections count := by
  intro connected
  obtain ⟨index, -, same⟩ := List.mem_map.mp connected
  have letters := congrArg (·.vaultId.toList) same
  have first : 'h' ∈ List.replicate index 'v' := by
    rw [← String.toList_ofList (l := List.replicate index 'v')]
    dsimp only at letters
    rw [letters]
    decide
  cases (List.eq_of_mem_replicate first)

theorem movedStore_connectedVaults (count : Nat) :
    (movedStore count).connectedVaults "user" = (manyConnections count).map (·.vaultId) := by
  rw [WikiStore.connectedVaults]
  congr 1
  apply List.filter_eq_self.mpr
  intro row isRow
  obtain ⟨_, _, rfl⟩ := List.mem_map.mp isRow
  rfl

theorem movedStore_gainedVaults (count : Nat) : (movedStore count).gainedVaults "user" = ["handbook"] := by
  have unknown : (movedStore count).accessStates.lookup ⟨"user", "handbook"⟩ = none := by
    apply Table.lookup_eq_none_iff.mpr
    intro row isRow same
    obtain ⟨_, inMany, rfl⟩ := List.mem_map.mp isRow
    exact handbook_not_connected count (same ▸ inMany)
  rw [WikiStore.gainedVaults, movedStore_current, WikiStore.changedVaults_cons, WikiStore.prior, unknown]
  rfl

theorem movedStore_lostVaults {count : Nat} {vaultId : String}
    (connected : vaultId ∈ (movedStore count).connectedVaults "user") :
    vaultId ∈ (movedStore count).lostVaults "user" := by
  have known : (⟨"user", vaultId⟩ : VaultConnectionRow) ∈ manyConnections count := by
    have found := WikiStore.mem_connectedVaults.mp connected
    obtain ⟨row, held⟩ := Option.isSome_iff_exists.mp found
    obtain ⟨inTable, same⟩ := Table.lookup_eq_some_iff.mp held
    rw [← same]
    exact inTable
  have state : (⟨⟨"user", vaultId⟩, true⟩ : AccessStateRow) ∈ (movedStore count).accessStates :=
    List.mem_map.mpr ⟨_, known, rfl⟩
  have none_now : (movedStore count).effectiveWikiRoles.has vaultId "user" ≠ true := by
    intro held
    have isCurrent : (⟨⟨"user", vaultId⟩, true⟩ : AccessStateRow) ∈ (movedStore count).current :=
      WikiStore.mem_current.mpr ⟨rfl, held⟩
    rw [movedStore_current, List.mem_singleton] at isCurrent
    cases isCurrent
    exact handbook_not_connected count known
  have before : (movedStore count).prior ⟨⟨"user", vaultId⟩, false⟩ = some true := by
    rw [WikiStore.prior, Table.lookup_key state]
    rfl
  have isWithout : (⟨⟨"user", vaultId⟩, false⟩ : AccessStateRow) ∈ (movedStore count).without := by
    apply List.mem_map.mpr
    exact ⟨_, List.mem_filter.mpr ⟨state, by simp [none_now]⟩, rfl⟩
  apply List.mem_map.mpr
  exact ⟨_, List.mem_filter.mpr ⟨isWithout, by simp [before]⟩, rfl⟩

/-- With nothing connected before there is room for what is gained. -/
theorem left_out_only_at_limit_joining : ∃ after, (movedStore 0).reconcileWikiAccess none = .ok after ∧
      ∀ vaultId ∈ (movedStore 0).gainedVaults "user", vaultId ∉ after.connectedVaults "user" →
        connectionLimit ≤ (after.connectedVaults "user").length := by
  obtain ⟨after, done, -⟩ := (movedStore 0).reconcileRows_spec
  have room : ((movedStore 0).newVaults "user").length ≤
      connectionLimit - ((movedStore 0).connectedVaults "user").length := by
    rw [WikiStore.newVaults, movedStore_gainedVaults, movedStore_connectedVaults]
    exact Nat.le_trans (List.length_filter_le _ _) (Nat.succ_pos _)
  have reconciled : (movedStore 0).reconcileWikiAccess none = .ok after := done
  exact ⟨after, reconciled, (WikiStore.left_out_only_at_limit_iff reconciled "user").mpr (.inl room)⟩

/-- A user at the limit who loses every Wiki and gains one is left with none, for want of room. -/
theorem gained_left_out_of_room : ∃ after, (movedStore connectionLimit).reconcileWikiAccess none = .ok after ∧
      "handbook" ∈ (movedStore connectionLimit).gainedVaults "user" ∧
      "handbook" ∉ after.connectedVaults "user" ∧
      (after.connectedVaults "user").length < connectionLimit := by
  obtain ⟨after, done, connected⟩ := (movedStore connectionLimit).reconcileRows_spec
  have full : ((movedStore connectionLimit).connectedVaults "user").length = connectionLimit := by
    rw [movedStore_connectedVaults, List.length_map, manyConnections, List.length_map, List.length_range]
  have nothing : after.connectedVaults "user" = [] := by
    rw [connected, full, Nat.sub_self, List.take_zero, List.append_nil, List.filter_eq_nil_iff]
    intro vaultId isConnected
    simpa using movedStore_lostVaults isConnected
  refine ⟨after, done, ?_, ?_, ?_⟩
  · rw [movedStore_gainedVaults]
    exact List.mem_singleton_self _
  · rw [nothing]
    exact List.not_mem_nil
  · rw [nothing]
    exact Nat.succ_pos _

end PlatformClaw.Wiki
