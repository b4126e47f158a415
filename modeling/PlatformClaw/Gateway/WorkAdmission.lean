import PlatformClaw.Library.Machine

/-! # Admission of root work to the gateway

Every request and timer of the gateway runs under a root. New roots are refused while the process
drains for a restart, while a restart signal is pending, and while the host is suspended; the last two
can be taken back by whoever holds the lease of their generation.
-/

namespace PlatformClaw.Gateway

inductive GatewaySuspendAdmissionPhase
  | accepting
  | preparing
  | prepared
deriving DecidableEq, Repr

structure GatewayRootWorkAdmission where
  references : Nat
  released : Bool
deriving DecidableEq, Repr

/-- A release function: the number of its root, and whether it was called. -/
structure GatewayRootWorkRelease where
  root : Nat
  leaseReleased : Bool
deriving DecidableEq, Repr

inductive AdmissionCall
  /-- `beginGatewayRootWorkAdmissionWhenOpen`, in the chain of a root. -/
  | rootWhenOpen (current : Option Nat)
  /-- `runWithGatewayIndependentRootWorkAdmission`. -/
  | independent
deriving DecidableEq, Repr

inductive GatewayRootWorkAdmissionLease
  /-- `ownsRoot` is false. -/
  | nested
  /-- With the number of its release function. -/
  | root (release : Nat)
deriving DecidableEq, Repr

structure RootDrainResult where
  wait : Nat
  drained : Bool
  active : Nat
deriving DecidableEq, Repr

/-- Roots, release functions, leases and drain waits have the numbers of their creation. -/
structure GatewayWorkAdmissionState where
  restartDraining : Bool := false
  restartSignalPending : Bool := false
  restartSignalGeneration : Nat := 0
  suspendPhase : GatewaySuspendAdmissionPhase := .accepting
  suspendGeneration : Nat := 0
  suspendInvalidated : Option Nat := none
  roots : List GatewayRootWorkAdmission := []
  activeRootWork : List Nat := []
  releases : List GatewayRootWorkRelease := []
  /-- The generations of the leases. -/
  suspendLeases : List Nat := []
  restartSignalLeases : List Nat := []
  /-- The callbacks of suspensions that were invalidated. -/
  invalidated : List Nat := []
  suspendOpenWaiters : List AdmissionCall := []
  /-- Calls whose wait is resolved. -/
  resumable : List AdmissionCall := []
  /-- The messages of the errors that calls ended with. -/
  errors : List String := []
  drainWaits : Nat := 0
  rootDrainWaiters : List Nat := []
  drainTimers : List Nat := []
  /-- Drain waits whose promise is resolved. -/
  drainResolved : List Nat := []
  drainResults : List RootDrainResult := []
deriving DecidableEq, Repr

namespace GatewayWorkAdmissionState

/-- The root of the chain, unless it was released. -/
def liveRoot (state : GatewayWorkAdmissionState) (current : Option Nat) : Option Nat :=
  current.filter fun root => state.roots[root]?.any fun admission => !admission.released

def createGatewayRootWorkAdmission (state : GatewayWorkAdmissionState) :
    GatewayWorkAdmissionState × GatewayRootWorkAdmissionLease :=
  ({ state with
      roots := state.roots ++ [⟨1, false⟩]
      activeRootWork := state.activeRootWork ++ [state.roots.length]
      releases := state.releases ++ [⟨state.roots.length, false⟩] },
    .root state.releases.length)

def resolveRootDrainWaiters (state : GatewayWorkAdmissionState) : GatewayWorkAdmissionState :=
  { state with
    rootDrainWaiters := []
    drainResolved := state.drainResolved ++
      state.rootDrainWaiters.filter fun wait => !state.drainResolved.contains wait }

/-- The last reference of a root is gone. -/
def retireRoot (state : GatewayWorkAdmissionState) (root : Nat) : GatewayWorkAdmissionState :=
  if (state.activeRootWork.erase root).isEmpty then
    { state with
      roots := state.roots.set root ⟨0, true⟩
      activeRootWork := state.activeRootWork.erase root }.resolveRootDrainWaiters
  else
    { state with
      roots := state.roots.set root ⟨0, true⟩
      activeRootWork := state.activeRootWork.erase root }

/-- The function that `createGatewayRootWorkRelease` returns. -/
def releaseRootWork (state : GatewayWorkAdmissionState) (index : Nat) : GatewayWorkAdmissionState :=
  match state.releases[index]? with
  | none => state
  | some release =>
    match state.roots[release.root]? with
    | none => state
    | some admission =>
      if release.leaseReleased = true ∨ admission.released = true then state
      else if 0 < admission.references - 1 then
        { state with
          releases := state.releases.set index { release with leaseReleased := true }
          roots := state.roots.set release.root
            { admission with references := admission.references - 1 } }
      else
        { state with
          releases := state.releases.set index
            { release with leaseReleased := true } }.retireRoot release.root

def isGatewayWorkAdmissionClosed (state : GatewayWorkAdmissionState) : Bool :=
  state.restartDraining || state.restartSignalPending || state.suspendPhase != .accepting

def isGatewaySubordinateWorkAdmissionClosed (state : GatewayWorkAdmissionState) (current : Option Nat) : Bool :=
  if state.restartDraining || state.restartSignalPending then true
  else
    match current.bind (state.roots[·]?) with
    | some admission => admission.released
    | none => state.suspendPhase != .accepting

def resolveSuspendOpenWaiters (state : GatewayWorkAdmissionState) : GatewayWorkAdmissionState :=
  { state with
    suspendOpenWaiters := []
    resumable := state.resumable ++ state.suspendOpenWaiters }

def invalidateSuspendAdmission (state : GatewayWorkAdmissionState) : GatewayWorkAdmissionState :=
  { state with
    suspendInvalidated := none
    suspendPhase := .accepting
    suspendGeneration := state.suspendGeneration + 1
    invalidated := state.invalidated ++ state.suspendInvalidated.toList }.resolveSuspendOpenWaiters

def clearRestartSignalFence (state : GatewayWorkAdmissionState) : GatewayWorkAdmissionState × Bool :=
  if state.restartDraining = true ∨ state.restartSignalPending = false then (state, false)
  else
    ({ state with
        restartSignalPending := false
        restartSignalGeneration := state.restartSignalGeneration + 1 }.resolveSuspendOpenWaiters,
      true)

def markGatewayRestartDraining (state : GatewayWorkAdmissionState) : GatewayWorkAdmissionState :=
  if state.restartDraining then state
  else if state.suspendPhase = .accepting then
    { state with
      restartSignalPending := false
      restartSignalGeneration := state.restartSignalGeneration + 1
      restartDraining := true }.resolveSuspendOpenWaiters
  else
    { state with
      restartSignalPending := false
      restartSignalGeneration := state.restartSignalGeneration + 1
      restartDraining := true }.resolveSuspendOpenWaiters.invalidateSuspendAdmission

def beginGatewayRestartSignalAdmission (state : GatewayWorkAdmissionState) : Option GatewayWorkAdmissionState :=
  if state.restartDraining = true ∨ state.restartSignalPending = true then none
  else
    some
      { state with
        restartSignalPending := true
        restartSignalGeneration := state.restartSignalGeneration + 1
        restartSignalLeases := state.restartSignalLeases ++ [state.restartSignalGeneration + 1] }

def rollbackRestartSignal (state : GatewayWorkAdmissionState) (generation : Nat) : GatewayWorkAdmissionState × Bool :=
  if state.restartSignalPending = false ∨ state.restartSignalGeneration ≠ generation then
    (state, false)
  else state.clearRestartSignalFence

def tryBeginGatewaySuspendAdmission (state : GatewayWorkAdmissionState) (onInvalidated : Nat) :
    Option GatewayWorkAdmissionState :=
  if state.isGatewayWorkAdmissionClosed then none
  else
    some
      { state with
        suspendPhase := .preparing
        suspendGeneration := state.suspendGeneration + 1
        suspendInvalidated := some onInvalidated
        suspendLeases := state.suspendLeases ++ [state.suspendGeneration + 1] }

/-- `transition` of a suspend lease of the generation. -/
def transition (state : GatewayWorkAdmissionState) (generation : Nat)
    (expected next : GatewaySuspendAdmissionPhase) : GatewayWorkAdmissionState × Bool :=
  if state.suspendGeneration ≠ generation ∨ state.suspendPhase ≠ expected then (state, false)
  else if next = .accepting then
    ({ state with
        suspendPhase := .accepting
        suspendInvalidated := none }.resolveSuspendOpenWaiters, true)
  else ({ state with suspendPhase := next }, true)

def commit (state : GatewayWorkAdmissionState) (generation : Nat) : GatewayWorkAdmissionState × Bool :=
  state.transition generation .preparing .prepared

def rollback (state : GatewayWorkAdmissionState) (generation : Nat) : GatewayWorkAdmissionState × Bool :=
  state.transition generation .preparing .accepting

def release (state : GatewayWorkAdmissionState) (generation : Nat) : GatewayWorkAdmissionState × Bool :=
  state.transition generation .prepared .accepting

def retireAll (state : GatewayWorkAdmissionState) : GatewayWorkAdmissionState :=
  { state with
    roots := state.roots.mapIdx fun root admission =>
      if state.activeRootWork.contains root then ⟨0, true⟩ else admission
    activeRootWork := [] }.resolveRootDrainWaiters

def resetGatewayWorkAdmission (state : GatewayWorkAdmissionState) : GatewayWorkAdmissionState :=
  if state.suspendPhase = .accepting then
    { state.retireAll with
      restartDraining := false
      restartSignalPending := false
      restartSignalGeneration := state.restartSignalGeneration + 1
      suspendGeneration := state.suspendGeneration + 1
      suspendInvalidated := none }.resolveSuspendOpenWaiters
  else
    { state.retireAll with
      restartDraining := false
      restartSignalPending := false
      restartSignalGeneration :=
        state.restartSignalGeneration + 1 }.invalidateSuspendAdmission.resolveSuspendOpenWaiters

def tryBeginGatewayRootWorkAdmission (state : GatewayWorkAdmissionState) (current : Option Nat) :
    Option (GatewayWorkAdmissionState × GatewayRootWorkAdmissionLease) :=
  if (state.liveRoot current).isSome then some (state, .nested)
  else if state.isGatewayWorkAdmissionClosed then none
  else some state.createGatewayRootWorkAdmission

def tryBeginGatewayIndependentRootWorkAdmission (state : GatewayWorkAdmissionState) :
    Option (GatewayWorkAdmissionState × GatewayRootWorkAdmissionLease) :=
  if state.isGatewayWorkAdmissionClosed then none
  else some state.createGatewayRootWorkAdmission

/-- The loop of a call up to its next wait. -/
def beginWhenOpen (state : GatewayWorkAdmissionState) (call : AdmissionCall) : GatewayWorkAdmissionState :=
  match call with
  | .rootWhenOpen current =>
    if state.restartDraining then
      { state with
        errors := state.errors ++ ["Gateway is draining; new tasks are not accepted"] }
    else
      match state.tryBeginGatewayRootWorkAdmission current with
      | some (admitted, _) => admitted
      | none => { state with suspendOpenWaiters := state.suspendOpenWaiters ++ [call] }
  | .independent =>
    if state.restartDraining then
      { state with errors := state.errors ++ ["gateway is draining for restart"] }
    else
      match state.tryBeginGatewayIndependentRootWorkAdmission with
      | some (admitted, _) => admitted
      | none => { state with suspendOpenWaiters := state.suspendOpenWaiters ++ [call] }

def runWithGatewayIndependentRootWorkContinuation (state : GatewayWorkAdmissionState)
    (current : Option Nat) : GatewayWorkAdmissionState :=
  if (state.liveRoot current).isSome then state.createGatewayRootWorkAdmission.1
  else state.beginWhenOpen .independent

def retainGatewayRootWorkAdmissionContinuation (state : GatewayWorkAdmissionState)
    (current : Option Nat) : Option GatewayWorkAdmissionState :=
  (state.liveRoot current).map fun root =>
    { state with
      roots := state.roots.modify root fun admission =>
        { admission with references := admission.references + 1 }
      releases := state.releases ++ [⟨root, false⟩] }

def getActiveGatewayRootWorkCount (state : GatewayWorkAdmissionState) (current : Option Nat)
    (excludeCurrent : Bool) : Nat :=
  if excludeCurrent && (state.liveRoot current).any state.activeRootWork.contains then
    state.activeRootWork.length - 1
  else state.activeRootWork.length

/-- `waitForActiveGatewayRootWork` up to its wait. The timeout is a finite number without its
fraction. -/
def waitForActiveGatewayRootWork (state : GatewayWorkAdmissionState) (timeoutMs : Option Int) :
    GatewayWorkAdmissionState :=
  if state.activeRootWork.isEmpty then
    { state with
      drainWaits := state.drainWaits + 1
      drainResults := state.drainResults ++ [⟨state.drainWaits, true, 0⟩] }
  else if timeoutMs.any fun timeout => timeout ≤ 0 then
    { state with
      drainWaits := state.drainWaits + 1
      drainResults := state.drainResults ++ [⟨state.drainWaits, false, state.activeRootWork.length⟩] }
  else
    { state with
      drainWaits := state.drainWaits + 1
      rootDrainWaiters := state.rootDrainWaiters ++ [state.drainWaits]
      drainTimers := state.drainTimers ++ timeoutMs.toList.map fun _ => state.drainWaits }

def drainTimeout (state : GatewayWorkAdmissionState) (wait : Nat) : GatewayWorkAdmissionState :=
  if state.drainTimers.contains wait then
    { state with
      drainTimers := state.drainTimers.erase wait
      drainResolved := state.drainResolved ++
        [wait].filter fun wait => !state.drainResolved.contains wait }
  else state

def drainResume (state : GatewayWorkAdmissionState) (wait : Nat) : GatewayWorkAdmissionState :=
  if state.drainResolved.contains wait then
    { state with
      drainTimers := state.drainTimers.erase wait
      rootDrainWaiters := state.rootDrainWaiters.erase wait
      drainResolved := state.drainResolved.erase wait
      drainResults := state.drainResults ++
        [⟨wait, state.activeRootWork.isEmpty, state.activeRootWork.length⟩] }
  else state

end GatewayWorkAdmissionState

inductive AdmissionEvent
  | tryBeginRoot (current : Option Nat)
  | begin (call : AdmissionCall)
  | continuation (current : Option Nat)
  | retain (current : Option Nat)
  | releaseRoot (index : Nat)
  /-- A call whose wait is resolved goes on. -/
  | resume (index : Nat)
  | markDraining
  | beginSignal
  | rollbackSignal (lease : Nat)
  | rollbackFence
  | beginSuspend (onInvalidated : Nat)
  | commit (lease : Nat)
  | rollback (lease : Nat)
  | release (lease : Nat)
  | reset
  | waitForDrain (timeoutMs : Option Int)
  | drainTimeout (wait : Nat)
  | drainResume (wait : Nat)
deriving DecidableEq, Repr

namespace GatewayWorkAdmissionState

def step (state : GatewayWorkAdmissionState) : AdmissionEvent → GatewayWorkAdmissionState
  | .tryBeginRoot current => ((state.tryBeginGatewayRootWorkAdmission current).map Prod.fst).getD state
  | .begin call => state.beginWhenOpen call
  | .continuation current => state.runWithGatewayIndependentRootWorkContinuation current
  | .retain current => (state.retainGatewayRootWorkAdmissionContinuation current).getD state
  | .releaseRoot index => state.releaseRootWork index
  | .resume index =>
    state.resumable[index]?.elim state fun call =>
      { state with resumable := state.resumable.eraseIdx index }.beginWhenOpen call
  | .markDraining => state.markGatewayRestartDraining
  | .beginSignal => state.beginGatewayRestartSignalAdmission.getD state
  | .rollbackSignal lease =>
    state.restartSignalLeases[lease]?.elim state fun generation =>
      (state.rollbackRestartSignal generation).1
  | .rollbackFence => state.clearRestartSignalFence.1
  | .beginSuspend onInvalidated => (state.tryBeginGatewaySuspendAdmission onInvalidated).getD state
  | .commit lease =>
    state.suspendLeases[lease]?.elim state fun generation => (state.commit generation).1
  | .rollback lease =>
    state.suspendLeases[lease]?.elim state fun generation => (state.rollback generation).1
  | .release lease =>
    state.suspendLeases[lease]?.elim state fun generation => (state.release generation).1
  | .reset => state.resetGatewayWorkAdmission
  | .waitForDrain timeoutMs => state.waitForActiveGatewayRootWork timeoutMs
  | .drainTimeout wait => state.drainTimeout wait
  | .drainResume wait => state.drainResume wait

def machine : Machine GatewayWorkAdmissionState AdmissionEvent where
  step := step

end GatewayWorkAdmissionState

end PlatformClaw.Gateway
