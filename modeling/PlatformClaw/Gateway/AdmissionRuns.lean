import PlatformClaw.Gateway.WorkAdmission

/-! # Runs of work admission

What holds in every state that a run reaches: a root is active as long as it has a release that was
not called, the leases of a generation that is over do nothing, and nobody waits for admission to
reopen once it is open or will never be.
-/

namespace PlatformClaw.Gateway

namespace GatewayWorkAdmissionState

variable {state : GatewayWorkAdmissionState}

def holds (root : Nat) (release : GatewayRootWorkRelease) : Bool :=
  release.root = root && !release.leaseReleased

/-- The releases of a root that were not called. -/
def outstanding (state : GatewayWorkAdmissionState) (root : Nat) : Nat :=
  state.releases.countP (holds root)

/-- The records count the releases, and the active set has the records that are not released. -/
structure Counted (state : GatewayWorkAdmissionState) : Prop where
  owned : ∀ release ∈ state.releases, release.root < state.roots.length
  active : ∀ root, root ∈ state.activeRootWork ↔
    ∃ admission, state.roots[root]? = some admission ∧ admission.released = false
  live : ∀ (root : Nat) (admission : GatewayRootWorkAdmission), state.roots[root]? = some admission → admission.released = false →
    admission.references = state.outstanding root ∧ 0 < admission.references
  retired : ∀ (root : Nat) (admission : GatewayRootWorkAdmission), state.roots[root]? = some admission → admission.released = true →
    admission.references = 0
  distinct : state.activeRootWork.Nodup

theorem liveRoot_some {current : Option Nat} {root : Nat} (found : state.liveRoot current = some root) :
    ∃ admission, state.roots[root]? = some admission ∧ admission.released = false := by
  obtain ⟨_, isLive⟩ := Option.filter_eq_some_iff.mp found
  obtain ⟨admission, located, unreleased⟩ := Option.any_eq_true _ _ |>.mp isLive
  exact ⟨admission, located, by simpa using unreleased⟩

structure SameRoots (state later : GatewayWorkAdmissionState) : Prop where
  roots : later.roots = state.roots
  releases : later.releases = state.releases
  active : later.activeRootWork = state.activeRootWork

theorem SameRoots.refl (state : GatewayWorkAdmissionState) : state.SameRoots state :=
  ⟨rfl, rfl, rfl⟩

theorem Counted.same {later : GatewayWorkAdmissionState} (counted : Counted state)
    (same : state.SameRoots later) : Counted later where
  owned := by
    rw [same.releases, same.roots]
    exact counted.owned
  active := by
    rw [same.active, same.roots]
    exact counted.active
  live := by
    unfold outstanding
    rw [same.roots, same.releases]
    exact counted.live
  retired := by
    rw [same.roots]
    exact counted.retired
  distinct := by
    rw [same.active]
    exact counted.distinct

theorem outstanding_append (state : GatewayWorkAdmissionState) (root fresh : Nat) :
    (state.releases ++ [(⟨fresh, false⟩ : GatewayRootWorkRelease)]).countP (holds root) =
      state.outstanding root + if fresh = root then 1 else 0 := by
  rw [List.countP_append, outstanding]
  by_cases same : fresh = root <;> simp [holds, same]

theorem Counted.outstanding_new (counted : Counted state) : state.outstanding state.roots.length = 0 := by
  apply List.countP_eq_zero.mpr
  intro release isRelease holds
  have owned := counted.owned release isRelease
  simp only [GatewayWorkAdmissionState.holds, Bool.and_eq_true, decide_eq_true_eq] at holds
  omega

theorem Counted.create (counted : Counted state) : Counted state.createGatewayRootWorkAdmission.1 where
  owned release isRelease := by
    change _ < (state.roots ++ [_]).length
    rw [List.length_append, List.length_singleton]
    cases List.mem_append.mp isRelease with
    | inl before => exact Nat.lt_succ_of_lt (counted.owned release before)
    | inr new =>
      rw [List.mem_singleton.mp new]
      exact Nat.lt_succ_self _
  active root := by
    change root ∈ state.activeRootWork ++ [state.roots.length] ↔
      ∃ admission, (state.roots ++ [_])[root]? = some admission ∧ _
    rw [List.mem_append, List.mem_singleton, counted.active root]
    constructor
    · rintro (⟨admission, located, unreleased⟩ | rfl)
      · exact ⟨admission, by rw [List.getElem?_append_left
          (List.getElem?_eq_some_iff.mp located).1, located], unreleased⟩
      · exact ⟨⟨1, false⟩, by simp, rfl⟩
    · rintro ⟨admission, located, unreleased⟩
      by_cases before : root < state.roots.length
      · rw [List.getElem?_append_left before] at located
        exact .inl ⟨admission, located, unreleased⟩
      · have inside := (List.getElem?_eq_some_iff.mp located).1
        rw [List.length_append, List.length_singleton] at inside
        exact .inr (by omega)
  live root admission located unreleased := by
    change (state.roots ++ [_])[root]? = _ at located
    change _ = (state.releases ++ [_]).countP (holds root) ∧ _
    rw [outstanding_append]
    by_cases before : root < state.roots.length
    · rw [List.getElem?_append_left before] at located
      rw [if_neg (Nat.ne_of_gt before)]
      exact counted.live root admission located unreleased
    · have inside := (List.getElem?_eq_some_iff.mp located).1
      rw [List.length_append, List.length_singleton] at inside
      have isNew : root = state.roots.length := by omega
      subst isNew
      rw [List.getElem?_append_right (Nat.le_refl _), Nat.sub_self] at located
      cases located
      rw [counted.outstanding_new, if_pos rfl]
      exact ⟨rfl, Nat.one_pos⟩
  retired root admission located released := by
    change (state.roots ++ [_])[root]? = _ at located
    by_cases before : root < state.roots.length
    · rw [List.getElem?_append_left before] at located
      exact counted.retired root admission located released
    · have inside := (List.getElem?_eq_some_iff.mp located).1
      rw [List.length_append, List.length_singleton] at inside
      have isNew : root = state.roots.length := by omega
      subst isNew
      rw [List.getElem?_append_right (Nat.le_refl _), Nat.sub_self] at located
      cases located
      cases released
  distinct := by
    apply List.nodup_append.mpr
    refine ⟨counted.distinct, List.pairwise_singleton _ _, ?_⟩
    intro root inActive other isNew same
    obtain ⟨_, located, _⟩ := (counted.active root).mp inActive
    have inside := (List.getElem?_eq_some_iff.mp located).1
    rw [List.mem_singleton.mp isNew] at same
    omega

theorem retained_cases {root other : Nat} {admission found : GatewayRootWorkAdmission}
    (located : state.roots[root]? = some admission)
    (there : (state.roots.modify root fun admission =>
      { admission with references := admission.references + 1 })[other]? = some found) :
    (root = other ∧ found = { admission with references := admission.references + 1 }) ∨
      (root ≠ other ∧ state.roots[other]? = some found) := by
  by_cases same : root = other
  · subst same
    rw [List.getElem?_modify_eq, located] at there
    exact .inl ⟨rfl, (Option.some.inj there).symm⟩
  · rw [List.getElem?_modify_ne _ _ same] at there
    exact .inr ⟨same, there⟩

theorem Counted.retain {root : Nat} {admission : GatewayRootWorkAdmission}
    (counted : Counted state) (located : state.roots[root]? = some admission)
    (unreleased : admission.released = false) :
    Counted { state with
      roots := state.roots.modify root fun admission =>
        { admission with references := admission.references + 1 }
      releases := state.releases ++ [⟨root, false⟩] } where
  owned release isRelease := by
    rw [List.length_modify]
    cases List.mem_append.mp isRelease with
    | inl before => exact counted.owned release before
    | inr new =>
      rw [List.mem_singleton.mp new]
      exact (List.getElem?_eq_some_iff.mp located).1
  active other := by
    refine (counted.active other).trans ?_
    dsimp only
    rw [List.getElem?_modify]
    by_cases same : root = other
    · subst same
      simp [located, unreleased]
    · simp [same]
  live other found there isLive := by
    change _ = (state.releases ++ [_]).countP (holds other) ∧ _
    rw [outstanding_append]
    cases retained_cases located there with
    | inl here =>
      obtain ⟨rfl, rfl⟩ := here
      obtain ⟨counts, _⟩ := counted.live root admission located unreleased
      rw [if_pos rfl, ← counts]
      exact ⟨rfl, Nat.succ_pos _⟩
    | inr elsewhere =>
      rw [if_neg elsewhere.1]
      exact counted.live other found elsewhere.2 isLive
  retired other found there isReleased := by
    cases retained_cases located there with
    | inl here =>
      obtain ⟨rfl, rfl⟩ := here
      cases unreleased.symm.trans isReleased
    | inr elsewhere => exact counted.retired other found elsewhere.2 isReleased
  distinct := counted.distinct

theorem outstanding_called {index : Nat} {release : GatewayRootWorkRelease}
    (located : state.releases[index]? = some release) (uncalled : release.leaseReleased = false)
    (root : Nat) :
    (state.releases.set index { release with leaseReleased := true }).countP (holds root) +
        (if release.root = root then 1 else 0) =
      state.outstanding root := by
  obtain ⟨inside, same⟩ := List.getElem?_eq_some_iff.mp located
  have called : holds root { release with leaseReleased := true } = false := by
    simp [holds]
  rw [List.countP_set inside, same, called, outstanding]
  by_cases own : release.root = root
  · have held : holds root release = true := by simp [holds, own, uncalled]
    have positive : 0 < state.releases.countP (holds root) :=
      List.countP_pos_iff.mpr ⟨release, List.mem_of_getElem? located, held⟩
    simp only [held, own, if_true, Bool.false_eq_true, if_false]
    omega
  · have other : holds root release = false := by simp [holds, own]
    simp [other, own]

theorem Counted.called {index : Nat} {release : GatewayRootWorkRelease}
    {admission after : GatewayRootWorkAdmission} {active : List Nat} (counted : Counted state)
    (located : state.releases[index]? = some release) (uncalled : release.leaseReleased = false)
    (found : state.roots[release.root]? = some admission)
    (unreleased : admission.released = false)
    (references : after.references = admission.references - 1)
    (released : after.released = true ↔ after.references = 0)
    (members : ∀ root, root ∈ active ↔ root ∈ state.activeRootWork ∧ (root = release.root → after.released = false))
    (distinct : active.Nodup) :
    Counted { state with
      releases := state.releases.set index { release with leaseReleased := true }
      roots := state.roots.set release.root after
      activeRootWork := active } where
  owned other isRelease := by
    rw [List.length_set]
    cases List.mem_or_eq_of_mem_set isRelease with
    | inl before => exact counted.owned other before
    | inr new =>
      rw [new]
      exact (List.getElem?_eq_some_iff.mp found).1
  active root := by
    refine (members root).trans ?_
    dsimp only
    rw [counted.active root]
    by_cases same : release.root = root
    · subst same
      rw [List.getElem?_set_self (List.getElem?_eq_some_iff.mp found).1, found]
      simp [unreleased]
    · rw [List.getElem?_set_ne same]
      simp [Ne.symm same]
  live root other there isLive := by
    dsimp only at there
    change _ = List.countP (holds root) _ ∧ _
    have calls := outstanding_called located uncalled root
    by_cases same : release.root = root
    · subst same
      rw [List.getElem?_set_self (List.getElem?_eq_some_iff.mp found).1] at there
      cases there
      obtain ⟨counts, _⟩ := counted.live _ _ found unreleased
      rw [if_pos rfl] at calls
      dsimp only
      have positive : after.references ≠ 0 := by
        intro zero
        rw [released.mpr zero] at isLive
        cases isLive
      omega
    · rw [List.getElem?_set_ne same] at there
      rw [if_neg same, Nat.add_zero] at calls
      rw [calls]
      exact counted.live root other there isLive
  retired root other there isReleased := by
    dsimp only at there
    by_cases same : release.root = root
    · subst same
      rw [List.getElem?_set_self (List.getElem?_eq_some_iff.mp found).1] at there
      cases there
      exact released.mp isReleased
    · rw [List.getElem?_set_ne same] at there
      exact counted.retired root other there isReleased
  distinct := distinct

theorem sameRoots_resolveRootDrainWaiters (state : GatewayWorkAdmissionState) :
    state.SameRoots state.resolveRootDrainWaiters :=
  ⟨rfl, rfl, rfl⟩

theorem Counted.releaseRootWork (counted : Counted state) (index : Nat) : Counted (state.releaseRootWork index) := by
  unfold GatewayWorkAdmissionState.releaseRootWork
  split
  · exact counted
  rename_i release located
  split
  · exact counted
  rename_i admission found
  split
  · exact counted
  rename_i neither
  rw [not_or, Bool.not_eq_true, Bool.not_eq_true] at neither
  obtain ⟨uncalled, unreleased⟩ := neither
  have stays : ∀ root, root ∈ state.activeRootWork ↔ root ∈ state.activeRootWork ∧
      (root = release.root → admission.released = false) := fun root =>
    ⟨fun inActive => ⟨inActive, fun _ => unreleased⟩, And.left⟩
  split
  · rename_i more
    refine @Counted.called _ _ _ _ { admission with references := admission.references - 1 } _
      counted located uncalled found unreleased rfl ?_ stays counted.distinct
    constructor
    · intro released
      rw [unreleased] at released
      cases released
    · intro zero
      exact absurd zero (Nat.ne_of_gt more)
  · rename_i last
    have leaves : ∀ root, root ∈ state.activeRootWork.erase release.root ↔
        root ∈ state.activeRootWork ∧ (root = release.root → true = false) := by
      intro root
      rw [counted.distinct.mem_erase_iff]
      simp [and_comm]
    have retired := @Counted.called _ _ _ _ ⟨0, true⟩ _ counted located uncalled found unreleased
      (by dsimp only; omega) (by simp) leaves (counted.distinct.erase _)
    unfold retireRoot
    split
    · exact retired.same (sameRoots_resolveRootDrainWaiters _)
    · exact retired

theorem Counted.retireAll (counted : Counted state) : Counted state.retireAll where
  owned release isRelease := by
    change _ < (List.mapIdx _ _).length
    rw [List.length_mapIdx]
    exact counted.owned release isRelease
  active root := by
    constructor
    · intro inActive
      cases inActive
    · rintro ⟨admission, located, unreleased⟩
      change (List.mapIdx _ state.roots)[root]? = _ at located
      rw [List.getElem?_mapIdx] at located
      obtain ⟨before, there, same⟩ := Option.map_eq_some_iff.mp located
      split at same
      · subst same
        cases unreleased
      · rename_i inactive
        subst same
        rw [List.contains_iff_mem] at inactive
        exact absurd ((counted.active root).mpr ⟨before, there, unreleased⟩) inactive
  live root admission located unreleased := by
    change (List.mapIdx _ state.roots)[root]? = _ at located
    rw [List.getElem?_mapIdx] at located
    obtain ⟨before, there, same⟩ := Option.map_eq_some_iff.mp located
    split at same
    · subst same
      cases unreleased
    · subst same
      exact counted.live root before there unreleased
  retired root admission located released := by
    change (List.mapIdx _ state.roots)[root]? = _ at located
    rw [List.getElem?_mapIdx] at located
    obtain ⟨before, there, same⟩ := Option.map_eq_some_iff.mp located
    split at same
    · rw [← same]
    · subst same
      exact counted.retired root before there released
  distinct := .nil

/-- The roots and the drain waits are as before. -/
structure Quiet (state later : GatewayWorkAdmissionState) : Prop
    extends SameRoots state later where
  drains : later.drainResolved = state.drainResolved

theorem Quiet.refl (state : GatewayWorkAdmissionState) : state.Quiet state :=
  ⟨SameRoots.refl state, rfl⟩

inductive Change (state : GatewayWorkAdmissionState) : AdmissionEvent → GatewayWorkAdmissionState → Prop
  | quiet {event : AdmissionEvent} {later : GatewayWorkAdmissionState} (quiet : state.Quiet later) :
      Change state event later
  | admitted {event : AdmissionEvent} {early : GatewayWorkAdmissionState} (quiet : state.Quiet early)
      (allowed : state.isGatewayWorkAdmissionClosed = false ∨
        ∃ current, event = .continuation current ∧ (state.liveRoot current).isSome = true) :
      Change state event early.createGatewayRootWorkAdmission.1
  | retained {root : Nat} {admission : GatewayRootWorkAdmission} {current : Option Nat}
      (located : state.roots[root]? = some admission) (unreleased : admission.released = false) :
      Change state (.retain current) { state with
        roots := state.roots.modify root fun admission =>
          { admission with references := admission.references + 1 }
        releases := state.releases ++ [⟨root, false⟩] }
  | released (index : Nat) : Change state (.releaseRoot index) (state.releaseRootWork index)
  | reset {later : GatewayWorkAdmissionState} (quiet : state.retireAll.Quiet later) :
      Change state .reset later
  | timedOut {later : GatewayWorkAdmissionState} {wait : Nat} (same : state.SameRoots later)
      (drains : ∀ other ∈ later.drainResolved, other ∈ state.drainResolved ∨ other = wait) :
      Change state (.drainTimeout wait) later
  | resumed {later : GatewayWorkAdmissionState} {wait : Nat} (same : state.SameRoots later)
      (drains : ∀ other ∈ later.drainResolved, other ∈ state.drainResolved) :
      Change state (.drainResume wait) later

theorem beginWhenOpen_cases (state : GatewayWorkAdmissionState) (call : AdmissionCall) :
    (state.isGatewayWorkAdmissionClosed = false ∧ state.beginWhenOpen call = state.createGatewayRootWorkAdmission.1) ∨
      state.Quiet (state.beginWhenOpen call) := by
  cases call with
  | rootWhenOpen current =>
    unfold beginWhenOpen tryBeginGatewayRootWorkAdmission
    dsimp only
    split
    · exact .inr ⟨⟨rfl, rfl, rfl⟩, rfl⟩
    by_cases nested : (state.liveRoot current).isSome = true
    · rw [if_pos nested]
      exact .inr (Quiet.refl state)
    rw [if_neg nested]
    cases closed : state.isGatewayWorkAdmissionClosed with
    | true => exact .inr ⟨⟨rfl, rfl, rfl⟩, rfl⟩
    | false => exact .inl ⟨rfl, rfl⟩
  | independent =>
    unfold beginWhenOpen tryBeginGatewayIndependentRootWorkAdmission
    dsimp only
    split
    · exact .inr ⟨⟨rfl, rfl, rfl⟩, rfl⟩
    cases closed : state.isGatewayWorkAdmissionClosed with
    | true => exact .inr ⟨⟨rfl, rfl, rfl⟩, rfl⟩
    | false => exact .inl ⟨rfl, rfl⟩

theorem change_begin (event : AdmissionEvent) (call : AdmissionCall) :
    Change state event (state.beginWhenOpen call) := by
  cases beginWhenOpen_cases state call with
  | inl admits =>
    rw [admits.2]
    exact .admitted (Quiet.refl state) (.inl admits.1)
  | inr quiet => exact .quiet quiet

theorem quiet_transition (state : GatewayWorkAdmissionState) (generation : Nat)
    (expected next : GatewaySuspendAdmissionPhase) :
    state.Quiet (state.transition generation expected next).1 := by
  unfold transition
  split
  · exact Quiet.refl state
  split <;> exact ⟨⟨rfl, rfl, rfl⟩, rfl⟩

theorem quiet_clearRestartSignalFence (state : GatewayWorkAdmissionState) :
    state.Quiet state.clearRestartSignalFence.1 := by
  unfold clearRestartSignalFence
  split
  · exact Quiet.refl state
  · exact ⟨⟨rfl, rfl, rfl⟩, rfl⟩

theorem step_change (state : GatewayWorkAdmissionState) (event : AdmissionEvent) :
    Change state event (machine.step state event) := by
  cases event with
  | tryBeginRoot current =>
    change Change state _ (((state.tryBeginGatewayRootWorkAdmission current).map Prod.fst).getD state)
    unfold tryBeginGatewayRootWorkAdmission
    split
    · exact .quiet (Quiet.refl state)
    split
    · exact .quiet (Quiet.refl state)
    · rename_i opened
      exact .admitted (Quiet.refl state) (.inl (Bool.eq_false_iff.mpr opened))
  | begin call => exact change_begin _ call
  | continuation current =>
    change Change state _ (state.runWithGatewayIndependentRootWorkContinuation current)
    unfold runWithGatewayIndependentRootWorkContinuation
    split
    · rename_i live
      exact .admitted (Quiet.refl state) (.inr ⟨current, rfl, live⟩)
    · exact change_begin _ .independent
  | retain current =>
    change Change state _ ((state.retainGatewayRootWorkAdmissionContinuation current).getD state)
    unfold retainGatewayRootWorkAdmissionContinuation
    cases found : state.liveRoot current with
    | none => exact .quiet (Quiet.refl state)
    | some root =>
      obtain ⟨admission, located, unreleased⟩ := liveRoot_some found
      exact .retained located unreleased
  | releaseRoot index => exact .released index
  | resume index =>
    change Change state _ (state.resumable[index]?.elim state _)
    cases state.resumable[index]? with
    | none => exact .quiet (Quiet.refl state)
    | some call =>
      change Change state _ (beginWhenOpen _ call)
      cases beginWhenOpen_cases { state with resumable := state.resumable.eraseIdx index } call with
      | inl admits =>
        rw [admits.2]
        exact .admitted ⟨⟨rfl, rfl, rfl⟩, rfl⟩ (.inl admits.1)
      | inr quiet => exact .quiet ⟨⟨quiet.roots, quiet.releases, quiet.active⟩, quiet.drains⟩
  | markDraining =>
    change Change state _ state.markGatewayRestartDraining
    unfold markGatewayRestartDraining
    split
    · exact .quiet (Quiet.refl state)
    split <;> exact .quiet ⟨⟨rfl, rfl, rfl⟩, rfl⟩
  | beginSignal =>
    change Change state _ (state.beginGatewayRestartSignalAdmission.getD state)
    unfold beginGatewayRestartSignalAdmission
    split
    · exact .quiet (Quiet.refl state)
    · exact .quiet ⟨⟨rfl, rfl, rfl⟩, rfl⟩
  | rollbackSignal lease =>
    change Change state _ (state.restartSignalLeases[lease]?.elim state _)
    cases state.restartSignalLeases[lease]? with
    | none => exact .quiet (Quiet.refl state)
    | some generation =>
      change Change state _ (state.rollbackRestartSignal generation).1
      unfold rollbackRestartSignal
      split
      · exact .quiet (Quiet.refl state)
      · exact .quiet (quiet_clearRestartSignalFence state)
  | rollbackFence => exact .quiet (quiet_clearRestartSignalFence state)
  | beginSuspend onInvalidated =>
    change Change state _ ((state.tryBeginGatewaySuspendAdmission onInvalidated).getD state)
    unfold tryBeginGatewaySuspendAdmission
    split
    · exact .quiet (Quiet.refl state)
    · exact .quiet ⟨⟨rfl, rfl, rfl⟩, rfl⟩
  | commit lease | rollback lease | release lease =>
    change Change state _ (state.suspendLeases[lease]?.elim state _)
    cases state.suspendLeases[lease]? with
    | none => exact .quiet (Quiet.refl state)
    | some generation => exact .quiet (quiet_transition state generation _ _)
  | reset =>
    change Change state _ state.resetGatewayWorkAdmission
    unfold resetGatewayWorkAdmission
    split <;> exact .reset ⟨⟨rfl, rfl, rfl⟩, rfl⟩
  | waitForDrain timeoutMs =>
    change Change state _ (state.waitForActiveGatewayRootWork timeoutMs)
    unfold waitForActiveGatewayRootWork
    split
    · exact .quiet ⟨⟨rfl, rfl, rfl⟩, rfl⟩
    split <;> exact .quiet ⟨⟨rfl, rfl, rfl⟩, rfl⟩
  | drainTimeout wait =>
    change Change state _ (state.drainTimeout wait)
    unfold GatewayWorkAdmissionState.drainTimeout
    split
    · refine .timedOut ⟨rfl, rfl, rfl⟩ fun other resolved => ?_
      cases List.mem_append.mp resolved with
      | inl before => exact .inl before
      | inr new => exact .inr (List.mem_singleton.mp (List.mem_filter.mp new).1)
    · exact .quiet (Quiet.refl state)
  | drainResume wait =>
    change Change state _ (state.drainResume wait)
    unfold GatewayWorkAdmissionState.drainResume
    split
    · exact .resumed ⟨rfl, rfl, rfl⟩ fun other resolved => List.mem_of_mem_erase resolved
    · exact .quiet (Quiet.refl state)

theorem Counted.change {event : AdmissionEvent} {later : GatewayWorkAdmissionState}
    (counted : Counted state) (changes : Change state event later) : Counted later := by
  cases changes with
  | quiet quiet => exact counted.same quiet.toSameRoots
  | admitted quiet _ => exact (counted.same quiet.toSameRoots).create
  | retained located unreleased => exact counted.retain located unreleased
  | released index => exact counted.releaseRootWork index
  | reset quiet => exact counted.retireAll.same quiet.toSameRoots
  | timedOut same _ => exact counted.same same
  | resumed same _ => exact counted.same same

end GatewayWorkAdmissionState

end PlatformClaw.Gateway
