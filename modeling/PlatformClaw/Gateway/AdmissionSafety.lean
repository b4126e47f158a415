import PlatformClaw.Gateway.AdmissionRuns

/-! # Work admission is safe

The fences, the leases on them and the waits for them to open, and with the roots the safety of
admission in every state that a run reaches.
-/

namespace PlatformClaw.Gateway

namespace GatewayWorkAdmissionState

open scoped List

variable {state later : GatewayWorkAdmissionState}

/-- The generations only grow, and leases are only added. -/
structure Ages (state later : GatewayWorkAdmissionState) : Prop where
  suspendGeneration : state.suspendGeneration ≤ later.suspendGeneration
  restartSignalGeneration : state.restartSignalGeneration ≤ later.restartSignalGeneration
  suspendLeases : state.suspendLeases <+: later.suspendLeases
  restartSignalLeases : state.restartSignalLeases <+: later.restartSignalLeases

theorem Ages.refl (state : GatewayWorkAdmissionState) : state.Ages state :=
  ⟨Nat.le_refl _, Nat.le_refl _, List.prefix_rfl, List.prefix_rfl⟩

theorem Ages.trans {last : GatewayWorkAdmissionState} (first : state.Ages later)
    (second : later.Ages last) : state.Ages last :=
  ⟨Nat.le_trans first.suspendGeneration second.suspendGeneration,
    Nat.le_trans first.restartSignalGeneration second.restartSignalGeneration,
    first.suspendLeases.trans second.suspendLeases,
    first.restartSignalLeases.trans second.restartSignalLeases⟩

/-- Nobody waits unless admission is closed for a reason that can end, and no lease is of a
generation to come. -/
structure Fenced (state : GatewayWorkAdmissionState) : Prop where
  waits : state.suspendOpenWaiters = [] ∨ state.isGatewayWorkAdmissionClosed = true ∧ state.restartDraining = false
  suspendLeases : ∀ generation ∈ state.suspendLeases, generation ≤ state.suspendGeneration
  restartSignalLeases : ∀ generation ∈ state.restartSignalLeases, generation ≤ state.restartSignalGeneration
  suspendOrder : state.suspendLeases.Pairwise (· < ·)
  restartSignalOrder : state.restartSignalLeases.Pairwise (· < ·)

/-- The fences, the leases and the waits are as before. -/
structure SameFence (state later : GatewayWorkAdmissionState) : Prop where
  restartDraining : later.restartDraining = state.restartDraining
  restartSignalPending : later.restartSignalPending = state.restartSignalPending
  suspendPhase : later.suspendPhase = state.suspendPhase
  suspendGeneration : later.suspendGeneration = state.suspendGeneration
  restartSignalGeneration : later.restartSignalGeneration = state.restartSignalGeneration
  suspendLeases : later.suspendLeases = state.suspendLeases
  restartSignalLeases : later.restartSignalLeases = state.restartSignalLeases
  suspendOpenWaiters : later.suspendOpenWaiters = state.suspendOpenWaiters

theorem SameFence.refl (state : GatewayWorkAdmissionState) : state.SameFence state :=
  ⟨rfl, rfl, rfl, rfl, rfl, rfl, rfl, rfl⟩

theorem SameFence.ages (same : state.SameFence later) : state.Ages later :=
  ⟨Nat.le_of_eq same.suspendGeneration.symm, Nat.le_of_eq same.restartSignalGeneration.symm,
    same.suspendLeases ▸ List.prefix_rfl, same.restartSignalLeases ▸ List.prefix_rfl⟩

theorem Fenced.same (fenced : Fenced state) (same : state.SameFence later) : Fenced later where
  waits := by
    unfold isGatewayWorkAdmissionClosed
    rw [same.suspendOpenWaiters, same.restartDraining, same.restartSignalPending, same.suspendPhase]
    exact fenced.waits
  suspendLeases := by
    rw [same.suspendLeases, same.suspendGeneration]
    exact fenced.suspendLeases
  restartSignalLeases := by
    rw [same.restartSignalLeases, same.restartSignalGeneration]
    exact fenced.restartSignalLeases
  suspendOrder := by
    rw [same.suspendLeases]
    exact fenced.suspendOrder
  restartSignalOrder := by
    rw [same.restartSignalLeases]
    exact fenced.restartSignalOrder

/-- A step of the fences: it makes the later state fenced and older. -/
structure Advances (state later : GatewayWorkAdmissionState) : Prop where
  ages : state.Ages later
  fenced : Fenced state → Fenced later

theorem SameFence.advances (same : state.SameFence later) : state.Advances later :=
  ⟨same.ages, fun fenced => fenced.same same⟩

theorem Advances.resolved (none : later.suspendOpenWaiters = [])
    (suspendGeneration : state.suspendGeneration ≤ later.suspendGeneration)
    (restartSignalGeneration : state.restartSignalGeneration ≤ later.restartSignalGeneration)
    (suspendLeases : later.suspendLeases = state.suspendLeases)
    (restartSignalLeases : later.restartSignalLeases = state.restartSignalLeases) :
    state.Advances later where
  ages := ⟨suspendGeneration, restartSignalGeneration, suspendLeases ▸ List.prefix_rfl,
    restartSignalLeases ▸ List.prefix_rfl⟩
  fenced before :=
    { waits := .inl none
      suspendLeases := fun generation isLease => by
        rw [suspendLeases] at isLease
        exact Nat.le_trans (before.suspendLeases generation isLease) suspendGeneration
      restartSignalLeases := fun generation isLease => by
        rw [restartSignalLeases] at isLease
        exact Nat.le_trans (before.restartSignalLeases generation isLease) restartSignalGeneration
      suspendOrder := by
        rw [suspendLeases]
        exact before.suspendOrder
      restartSignalOrder := by
        rw [restartSignalLeases]
        exact before.restartSignalOrder }

theorem order_append {leases : List Nat} {generation : Nat} (order : leases.Pairwise (· < ·))
    (past : ∀ lease ∈ leases, lease ≤ generation) :
    (leases ++ [generation + 1]).Pairwise (· < ·) := by
  apply List.pairwise_append.mpr ⟨order, List.pairwise_singleton _ _, ?_⟩
  intro lease isLease new isNew
  rw [List.mem_singleton.mp isNew]
  exact Nat.lt_succ_of_le (past lease isLease)

theorem advances_transition (state : GatewayWorkAdmissionState) (generation : Nat)
    (expected next : GatewaySuspendAdmissionPhase) :
    state.Advances (state.transition generation expected next).1 := by
  unfold transition
  split
  · exact (SameFence.refl state).advances
  rename_i current
  split
  · exact Advances.resolved rfl (Nat.le_refl _) (Nat.le_refl _) rfl rfl
  · rename_i stays
    refine ⟨⟨Nat.le_refl _, Nat.le_refl _, List.prefix_rfl, List.prefix_rfl⟩, fun fenced => ?_⟩
    refine { fenced with waits := fenced.waits.imp_right fun waits => ⟨?_, waits.2⟩ }
    simp [isGatewayWorkAdmissionClosed, stays]

theorem advances_clearRestartSignalFence (state : GatewayWorkAdmissionState) :
    state.Advances state.clearRestartSignalFence.1 := by
  unfold clearRestartSignalFence
  split
  · exact (SameFence.refl state).advances
  · exact Advances.resolved rfl (Nat.le_refl _) (Nat.le_succ _) rfl rfl

theorem advances_begin (state : GatewayWorkAdmissionState) (call : AdmissionCall) :
    state.Advances (state.beginWhenOpen call) := by
  have waiting : state.restartDraining = false → state.isGatewayWorkAdmissionClosed = true →
      state.Advances { state with suspendOpenWaiters := state.suspendOpenWaiters ++ [call] } :=
    fun running closed => ⟨⟨Nat.le_refl _, Nat.le_refl _, List.prefix_rfl, List.prefix_rfl⟩,
      fun fenced => { fenced with waits := .inr ⟨closed, running⟩ }⟩
  have fails : ∀ message, state.Advances { state with errors := state.errors ++ [message] } :=
    fun _ => SameFence.advances ⟨rfl, rfl, rfl, rfl, rfl, rfl, rfl, rfl⟩
  have admits : state.Advances state.createGatewayRootWorkAdmission.1 :=
    SameFence.advances ⟨rfl, rfl, rfl, rfl, rfl, rfl, rfl, rfl⟩
  cases call with
  | rootWhenOpen current =>
    unfold beginWhenOpen tryBeginGatewayRootWorkAdmission
    dsimp only
    split
    · exact fails _
    rename_i running
    by_cases nested : (state.liveRoot current).isSome = true
    · rw [if_pos nested]
      exact (SameFence.refl state).advances
    rw [if_neg nested]
    cases closed : state.isGatewayWorkAdmissionClosed with
    | true => exact waiting (Bool.eq_false_iff.mpr running) closed
    | false => exact admits
  | independent =>
    unfold beginWhenOpen tryBeginGatewayIndependentRootWorkAdmission
    dsimp only
    split
    · exact fails _
    rename_i running
    cases closed : state.isGatewayWorkAdmissionClosed with
    | true => exact waiting (Bool.eq_false_iff.mpr running) closed
    | false => exact admits

theorem sameFence_releaseRootWork (state : GatewayWorkAdmissionState) (index : Nat) :
    state.SameFence (state.releaseRootWork index) := by
  unfold releaseRootWork
  split
  · exact SameFence.refl state
  split
  · exact SameFence.refl state
  split
  · exact SameFence.refl state
  split
  · exact ⟨rfl, rfl, rfl, rfl, rfl, rfl, rfl, rfl⟩
  · unfold retireRoot
    split <;> exact ⟨rfl, rfl, rfl, rfl, rfl, rfl, rfl, rfl⟩

theorem step_advances (state : GatewayWorkAdmissionState) (event : AdmissionEvent) :
    state.Advances (machine.step state event) := by
  have unchanged := (SameFence.refl state).advances
  cases event with
  | tryBeginRoot current =>
    change state.Advances (((state.tryBeginGatewayRootWorkAdmission current).map Prod.fst).getD state)
    unfold tryBeginGatewayRootWorkAdmission
    split
    · exact unchanged
    split
    · exact unchanged
    · exact SameFence.advances ⟨rfl, rfl, rfl, rfl, rfl, rfl, rfl, rfl⟩
  | begin call => exact advances_begin state call
  | continuation current =>
    change state.Advances (state.runWithGatewayIndependentRootWorkContinuation current)
    unfold runWithGatewayIndependentRootWorkContinuation
    split
    · exact SameFence.advances ⟨rfl, rfl, rfl, rfl, rfl, rfl, rfl, rfl⟩
    · exact advances_begin state .independent
  | retain current =>
    change state.Advances ((state.retainGatewayRootWorkAdmissionContinuation current).getD state)
    unfold retainGatewayRootWorkAdmissionContinuation
    cases state.liveRoot current with
    | none => exact unchanged
    | some root => exact SameFence.advances ⟨rfl, rfl, rfl, rfl, rfl, rfl, rfl, rfl⟩
  | releaseRoot index => exact (sameFence_releaseRootWork state index).advances
  | resume index =>
    change state.Advances (state.resumable[index]?.elim state _)
    cases state.resumable[index]? with
    | none => exact unchanged
    | some call =>
      have taken : state.SameFence { state with resumable := state.resumable.eraseIdx index } :=
        ⟨rfl, rfl, rfl, rfl, rfl, rfl, rfl, rfl⟩
      have begins :=
        advances_begin { state with resumable := state.resumable.eraseIdx index } call
      exact ⟨taken.ages.trans begins.ages, fun fenced => begins.fenced (fenced.same taken)⟩
  | markDraining =>
    change state.Advances state.markGatewayRestartDraining
    unfold markGatewayRestartDraining
    split
    · exact unchanged
    split
    · exact Advances.resolved rfl (Nat.le_refl _) (Nat.le_succ _) rfl rfl
    · exact Advances.resolved rfl (Nat.le_succ _) (Nat.le_succ _) rfl rfl
  | beginSignal =>
    change state.Advances (state.beginGatewayRestartSignalAdmission.getD state)
    unfold beginGatewayRestartSignalAdmission
    split
    · exact unchanged
    · rename_i neither
      rw [not_or, Bool.not_eq_true, Bool.not_eq_true] at neither
      refine ⟨⟨Nat.le_refl _, Nat.le_succ _, List.prefix_rfl, List.prefix_append _ _⟩,
        fun fenced =>
          { suspendLeases := fenced.suspendLeases
            suspendOrder := fenced.suspendOrder
            waits := .inr ⟨by simp [isGatewayWorkAdmissionClosed], neither.1⟩
            restartSignalLeases := fun generation isLease => ?_
            restartSignalOrder :=
              order_append fenced.restartSignalOrder fenced.restartSignalLeases }⟩
      cases List.mem_append.mp isLease with
      | inl before => exact Nat.le_succ_of_le (fenced.restartSignalLeases generation before)
      | inr new => exact Nat.le_of_eq (List.mem_singleton.mp new)
  | rollbackSignal lease =>
    change state.Advances (state.restartSignalLeases[lease]?.elim state _)
    cases state.restartSignalLeases[lease]? with
    | none => exact unchanged
    | some generation =>
      change state.Advances (state.rollbackRestartSignal generation).1
      unfold rollbackRestartSignal
      split
      · exact unchanged
      · exact advances_clearRestartSignalFence state
  | rollbackFence => exact advances_clearRestartSignalFence state
  | beginSuspend onInvalidated =>
    change state.Advances ((state.tryBeginGatewaySuspendAdmission onInvalidated).getD state)
    unfold tryBeginGatewaySuspendAdmission
    split
    · exact unchanged
    · rename_i opened
      have running : state.restartDraining = false := by
        cases draining : state.restartDraining with
        | false => rfl
        | true => exact absurd (by simp [isGatewayWorkAdmissionClosed, draining]) opened
      refine ⟨⟨Nat.le_succ _, Nat.le_refl _, List.prefix_append _ _, List.prefix_rfl⟩,
        fun fenced =>
          { restartSignalLeases := fenced.restartSignalLeases
            restartSignalOrder := fenced.restartSignalOrder
            waits := .inr ⟨by simp [isGatewayWorkAdmissionClosed], running⟩
            suspendLeases := fun generation isLease => ?_
            suspendOrder := order_append fenced.suspendOrder fenced.suspendLeases }⟩
      cases List.mem_append.mp isLease with
      | inl before => exact Nat.le_succ_of_le (fenced.suspendLeases generation before)
      | inr new => exact Nat.le_of_eq (List.mem_singleton.mp new)
  | commit lease | rollback lease | release lease =>
    change state.Advances (state.suspendLeases[lease]?.elim state _)
    cases state.suspendLeases[lease]? with
    | none => exact unchanged
    | some generation => exact advances_transition state generation _ _
  | reset =>
    change state.Advances state.resetGatewayWorkAdmission
    unfold resetGatewayWorkAdmission
    split <;> exact Advances.resolved rfl (Nat.le_succ _) (Nat.le_succ _) rfl rfl
  | waitForDrain timeoutMs =>
    change state.Advances (state.waitForActiveGatewayRootWork timeoutMs)
    unfold waitForActiveGatewayRootWork
    split
    · exact SameFence.advances ⟨rfl, rfl, rfl, rfl, rfl, rfl, rfl, rfl⟩
    split <;> exact SameFence.advances ⟨rfl, rfl, rfl, rfl, rfl, rfl, rfl, rfl⟩
  | drainTimeout wait =>
    change state.Advances (state.drainTimeout wait)
    unfold GatewayWorkAdmissionState.drainTimeout
    split
    · exact SameFence.advances ⟨rfl, rfl, rfl, rfl, rfl, rfl, rfl, rfl⟩
    · exact unchanged
  | drainResume wait =>
    change state.Advances (state.drainResume wait)
    unfold GatewayWorkAdmissionState.drainResume
    split
    · exact SameFence.advances ⟨rfl, rfl, rfl, rfl, rfl, rfl, rfl, rfl⟩
    · exact unchanged

theorem run_ages (state : GatewayWorkAdmissionState) (events : List AdmissionEvent) :
    state.Ages (machine.run state events) :=
  Machine.run_related Ages.refl Ages.trans (fun before event => (step_advances before event).ages)
    state events

theorem getElem?_prefix {early late : List Nat} (extends_ : early <+: late) {lease generation : Nat}
    (located : early[lease]? = some generation) : late[lease]? = some generation := by
  obtain ⟨rest, rfl⟩ := extends_
  rw [List.getElem?_append_left (List.getElem?_eq_some_iff.mp located).1]
  exact located

/-- A lease is over when its generation is not the current one; then it does nothing, whatever comes.
Every lease but the newest is over, and a reset ends all of them, and a restart drain the suspension
that it invalidates. -/
structure Superseded (state : GatewayWorkAdmissionState) : Prop where
  suspend : ∀ lease generation, state.suspendLeases[lease]? = some generation →
    generation ≠ state.suspendGeneration → ∀ events,
      machine.step (machine.run state events) (.commit lease) = machine.run state events ∧
        machine.step (machine.run state events) (.rollback lease) = machine.run state events ∧
        machine.step (machine.run state events) (.release lease) = machine.run state events
  restartSignal : ∀ lease generation, state.restartSignalLeases[lease]? = some generation →
    generation ≠ state.restartSignalGeneration → ∀ events,
      machine.step (machine.run state events) (.rollbackSignal lease) = machine.run state events
  newestSuspend : ∀ lease, state.suspendLeases[lease]? = some state.suspendGeneration →
    lease + 1 = state.suspendLeases.length
  newestRestartSignal : ∀ lease, state.restartSignalLeases[lease]? = some state.restartSignalGeneration →
      lease + 1 = state.restartSignalLeases.length
  reset : (machine.step state .reset).suspendGeneration ∉ state.suspendLeases ∧
    (machine.step state .reset).restartSignalGeneration ∉ state.restartSignalLeases
  drain : state.restartDraining = false →
    (machine.step state .markDraining).restartSignalGeneration ∉ state.restartSignalLeases ∧
      (state.suspendPhase ≠ .accepting → (machine.step state .markDraining).suspendGeneration ∉ state.suspendLeases)

theorem newest_of_order {leases : List Nat} {lease generation : Nat}
    (order : leases.Pairwise (· < ·)) (past : ∀ other ∈ leases, other ≤ generation)
    (located : leases[lease]? = some generation) : lease + 1 = leases.length := by
  obtain ⟨inside, same⟩ := List.getElem?_eq_some_iff.mp located
  apply Nat.le_antisymm inside
  apply Nat.le_of_not_lt
  intro more
  have later := List.pairwise_iff_getElem.mp order lease (lease + 1) inside more (Nat.lt_succ_self _)
  have bounded : leases[lease + 1] ≤ generation := past _ (List.getElem_mem more)
  omega

theorem Fenced.superseded (fenced : Fenced state) : Superseded state where
  suspend lease generation located stale events := by
    have ages := run_ages state events
    have before := fenced.suspendLeases generation (List.mem_of_getElem? located)
    have stillThere := getElem?_prefix ages.suspendLeases located
    have apart : (machine.run state events).suspendGeneration ≠ generation := by
      have grown := ages.suspendGeneration
      omega
    have nothing : ∀ expected next, ((machine.run state events).transition generation expected next).1 =
          machine.run state events := by
      intro expected next
      unfold transition
      rw [if_pos (.inl apart)]
    have acts : ∀ expected next, (machine.run state events).suspendLeases[lease]?.elim
        (machine.run state events) (fun generation =>
          ((machine.run state events).transition generation expected next).1) = machine.run state events := by
      intro expected next
      rw [stillThere]
      exact nothing expected next
    exact ⟨acts _ _, acts _ _, acts _ _⟩
  restartSignal lease generation located stale events := by
    have ages := run_ages state events
    have before := fenced.restartSignalLeases generation (List.mem_of_getElem? located)
    have stillThere := getElem?_prefix ages.restartSignalLeases located
    have apart : (machine.run state events).restartSignalGeneration ≠ generation := by
      have grown := ages.restartSignalGeneration
      omega
    change (machine.run state events).restartSignalLeases[lease]?.elim _ _ = _
    rw [stillThere]
    change ((machine.run state events).rollbackRestartSignal generation).1 = _
    unfold rollbackRestartSignal
    rw [if_pos (.inr apart)]
  newestSuspend lease located :=
    newest_of_order fenced.suspendOrder fenced.suspendLeases located
  newestRestartSignal lease located :=
    newest_of_order fenced.restartSignalOrder fenced.restartSignalLeases located
  reset := by
    have grown : (machine.step state .reset).suspendGeneration = state.suspendGeneration + 1 ∧
        (machine.step state .reset).restartSignalGeneration = state.restartSignalGeneration + 1 := by
      change state.resetGatewayWorkAdmission.suspendGeneration = _ ∧
        state.resetGatewayWorkAdmission.restartSignalGeneration = _
      unfold resetGatewayWorkAdmission
      split <;> exact ⟨rfl, rfl⟩
    rw [grown.1, grown.2]
    exact ⟨fun isLease => Nat.not_succ_le_self _ (fenced.suspendLeases _ isLease),
      fun isLease => Nat.not_succ_le_self _ (fenced.restartSignalLeases _ isLease)⟩
  drain running := by
    have drains : (machine.step state .markDraining).restartSignalGeneration = state.restartSignalGeneration + 1 ∧
        (state.suspendPhase ≠ .accepting →
          (machine.step state .markDraining).suspendGeneration = state.suspendGeneration + 1) := by
      change state.markGatewayRestartDraining.restartSignalGeneration = _ ∧
        (_ → state.markGatewayRestartDraining.suspendGeneration = _)
      unfold markGatewayRestartDraining
      rw [running]
      split
      · rename_i impossible
        cases impossible
      split
      · rename_i accepting
        exact ⟨rfl, fun suspended => absurd accepting suspended⟩
      · exact ⟨rfl, fun _ => rfl⟩
    rw [drains.1]
    refine ⟨fun isLease => Nat.not_succ_le_self _ (fenced.restartSignalLeases _ isLease),
      fun suspended isLease => ?_⟩
    rw [drains.2 suspended] at isLease
    exact Nat.not_succ_le_self _ (fenced.suspendLeases _ isLease)

structure Safe (state : GatewayWorkAdmissionState) : Prop where
  /-- A new root comes through an open admission or continues a live root. -/
  admits : ∀ event, state.roots.length < (machine.step state event).roots.length →
    state.isGatewayWorkAdmissionClosed = false ∨
      ∃ current, event = .continuation current ∧ (state.liveRoot current).isSome = true
  superseded : Superseded state
  /-- A root is active as long as it has a release that was not called and no reset retired it. -/
  outstanding : ∀ root ∈ state.activeRootWork, 0 < state.outstanding root
  leaves : ∀ event, ∀ root ∈ state.activeRootWork, root ∉ (machine.step state event).activeRootWork →
    event = .reset ∨ (machine.step state event).outstanding root = 0
  references : ∀ (root : Nat) (admission : GatewayRootWorkAdmission), state.roots[root]? = some admission →
      (root ∈ state.activeRootWork ↔ 0 < admission.references) ∧
        (root ∈ state.activeRootWork → admission.references = state.outstanding root)
  distinct : state.activeRootWork.Nodup
  /-- A drain wait is resolved when no root is active, or by its timeout. -/
  drains : ∀ event wait, wait ∉ state.drainResolved → wait ∈ (machine.step state event).drainResolved →
      (machine.step state event).activeRootWork = [] ∨ event = .drainTimeout wait
  waits : state.isGatewayWorkAdmissionClosed = false ∨ state.restartDraining = true → state.suspendOpenWaiters = []

theorem length_releaseRootWork (state : GatewayWorkAdmissionState) (index : Nat) :
    (state.releaseRootWork index).roots.length = state.roots.length := by
  unfold releaseRootWork
  split
  · rfl
  split
  · rfl
  split
  · rfl
  split
  · exact List.length_set
  · unfold retireRoot
    split <;> exact List.length_set

theorem releaseRootWork_drains (state : GatewayWorkAdmissionState) (index : Nat) :
    (state.releaseRootWork index).drainResolved = state.drainResolved ∨
      (state.releaseRootWork index).activeRootWork = [] := by
  unfold releaseRootWork
  split
  · exact .inl rfl
  split
  · exact .inl rfl
  split
  · exact .inl rfl
  split
  · exact .inl rfl
  · unfold retireRoot
    split
    · rename_i empty
      exact .inr (List.isEmpty_iff.mp empty)
    · exact .inl rfl

theorem Counted.releaseRootWork_leaves {root : Nat} {index : Nat} (counted : Counted state)
    (active : root ∈ state.activeRootWork)
    (left : root ∉ (state.releaseRootWork index).activeRootWork) :
    (state.releaseRootWork index).outstanding root = 0 := by
  unfold GatewayWorkAdmissionState.releaseRootWork at left ⊢
  split at left
  · exact absurd active left
  rename_i release located
  split at left
  · exact absurd active left
  rename_i admission found
  split at left
  · exact absurd active left
  rename_i neither
  rw [not_or, Bool.not_eq_true, Bool.not_eq_true] at neither
  split at left
  · exact absurd active left
  rename_i last
  rw [if_neg (by rw [neither.1, neither.2]; decide), if_neg last]
  have isOwn : root = release.root := by
    by_cases same : root = release.root
    · exact same
    · have stays : root ∈ state.activeRootWork.erase release.root :=
        counted.distinct.mem_erase_iff.mpr ⟨same, active⟩
      unfold retireRoot at left
      split at left <;> exact absurd stays left
  subst isOwn
  have counts := (counted.live _ _ found neither.2).1
  have calls := outstanding_called located neither.1 release.root
  rw [if_pos rfl] at calls
  have none : (state.releases.set index { release with leaseReleased := true }).countP (holds release.root) = 0 := by
    omega
  unfold retireRoot
  split <;> exact none

theorem safe_of_invariants (counted : Counted state) (fenced : Fenced state) : Safe state where
  admits event more := by
    have change := step_change state event
    revert change more
    generalize machine.step state event = later
    intro more change
    cases change with
    | quiet quiet => exact absurd more (by rw [quiet.roots]; exact Nat.lt_irrefl _)
    | admitted _ allowed => exact allowed
    | retained =>
      rw [List.length_modify] at more
      exact absurd more (Nat.lt_irrefl _)
    | released index =>
      rw [length_releaseRootWork] at more
      exact absurd more (Nat.lt_irrefl _)
    | reset quiet =>
      rw [quiet.roots] at more
      change _ < (List.mapIdx _ _).length at more
      rw [List.length_mapIdx] at more
      exact absurd more (Nat.lt_irrefl _)
    | timedOut same _ => exact absurd more (by rw [same.roots]; exact Nat.lt_irrefl _)
    | resumed same _ => exact absurd more (by rw [same.roots]; exact Nat.lt_irrefl _)
  superseded := fenced.superseded
  outstanding root active := by
    obtain ⟨admission, located, unreleased⟩ := (counted.active root).mp active
    obtain ⟨counts, positive⟩ := counted.live root admission located unreleased
    rw [← counts]
    exact positive
  leaves event root active left := by
    have change := step_change state event
    revert change left
    generalize machine.step state event = later
    intro left change
    cases change with
    | quiet quiet => exact absurd (quiet.active ▸ active) left
    | admitted quiet _ => exact absurd (List.mem_append_left _ (quiet.active ▸ active)) left
    | retained => exact absurd active left
    | released index => exact .inr (counted.releaseRootWork_leaves active left)
    | reset _ => exact .inl rfl
    | timedOut same _ => exact absurd (same.active ▸ active) left
    | resumed same _ => exact absurd (same.active ▸ active) left
  references root admission located := by
    have members := counted.active root
    cases released : admission.released with
    | true =>
      have none := counted.retired root admission located released
      have inactive : root ∉ state.activeRootWork := by
        intro active
        obtain ⟨found, there, unreleased⟩ := members.mp active
        rw [located] at there
        cases there
        cases released.symm.trans unreleased
      rw [none]
      exact ⟨⟨fun active => absurd active inactive, fun positive => absurd positive (by decide)⟩,
        fun active => absurd active inactive⟩
    | false =>
      obtain ⟨counts, positive⟩ := counted.live root admission located released
      exact ⟨⟨fun _ => positive, fun _ => members.mpr ⟨admission, located, released⟩⟩,
        fun _ => counts⟩
  distinct := counted.distinct
  drains event wait unresolved resolved := by
    have change := step_change state event
    revert change resolved
    generalize machine.step state event = later
    intro resolved change
    cases change with
    | quiet quiet => exact absurd (quiet.drains ▸ resolved) unresolved
    | admitted quiet _ => exact absurd (quiet.drains ▸ resolved) unresolved
    | retained => exact absurd resolved unresolved
    | released index =>
      cases releaseRootWork_drains state index with
      | inl same => exact absurd (same ▸ resolved) unresolved
      | inr empty => exact .inl empty
    | reset quiet => exact .inl quiet.active
    | timedOut _ drains =>
      cases drains wait resolved with
      | inl before => exact absurd before unresolved
      | inr own => exact .inr (own ▸ rfl)
    | resumed _ drains => exact absurd (drains wait resolved) unresolved
  waits reason := by
    cases fenced.waits with
    | inl none => exact none
    | inr closed =>
      cases reason with
      | inl opened => cases opened.symm.trans closed.1
      | inr draining => cases draining.symm.trans closed.2

/-- Work admission is safe in every state that a run reaches. -/
theorem work_admission_is_safe (events : List AdmissionEvent) : Safe (machine.run {} events) := by
  have counted : Counted (machine.run {} events) := by
    refine Machine.run_invariant (fun before event counts => counts.change (step_change before event))
      ⟨fun _ isRelease => (by cases isRelease), fun root => ?_, fun _ _ located => (by cases located),
        fun _ _ located => (by cases located), .nil⟩ events
    constructor
    · intro active
      cases active
    · rintro ⟨_, located, _⟩
      cases located
  have fenced : Fenced (machine.run {} events) :=
    Machine.run_invariant (fun before event => (step_advances before event).fenced)
      ⟨.inl rfl, fun _ isLease => (by cases isLease), fun _ isLease => (by cases isLease), .nil, .nil⟩
      events
  exact safe_of_invariants counted fenced

end GatewayWorkAdmissionState

end PlatformClaw.Gateway
