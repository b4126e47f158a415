import PlatformClaw.Library.Machine

/-! # An SSH lease and its channels

`SafeConnectSshLease` of `ssh-lease-manager.ts`: sessions share one connection
and at most a few channels of it, further callers wait in a queue. A call is
written down between its awaits, so that aborts, releases and the end of the
lease can come in any order. The connection itself is part of the environment:
it gets ready or fails, and it is running or not.
-/

namespace PlatformClaw.Execution

/-- The checked options of a lease manager. -/
structure ChannelLimits where
  maxChannels : Nat
  maxQueuedChannels : Nat
  channels : 1 ≤ maxChannels ∧ maxChannels ≤ 8
  queued : 1 ≤ maxQueuedChannels ∧ maxQueuedChannels ≤ 4096

/-- The constructor of `SafeConnectSshLeaseManager`, its times apart. -/
def ChannelLimits.ofOptions (maxChannels : Int := 6) (maxQueuedChannels : Int := 256) : Except String ChannelLimits :=
  if channels : 1 ≤ maxChannels ∧ maxChannels ≤ 8 then
    if queued : 1 ≤ maxQueuedChannels ∧ maxQueuedChannels ≤ 4096 then
      .ok ⟨maxChannels.toNat, maxQueuedChannels.toNat, by omega, by omega⟩
    else .error "SafeConnect SSH queued channels must be 1 to 4096"
  else .error "SafeConnect SSH max channels must be 1 to 8"

/-- How a waiter was settled. -/
inductive Settlement where
  | granted
  | rejected
  deriving Repr, DecidableEq

/-- The release function of a call: not handed out, handed out, called. -/
inductive Channel where
  | none
  | held
  | released
  deriving Repr, DecidableEq

/-- The await that a call of `createSession` stands at. -/
inductive Phase where
  /-- Its waiter is in the queue, and it listens for its abort. -/
  | queued
  /-- Its channel was granted, and it has not gone on yet. -/
  | granted
  | connecting
  | opening
  /-- It was aborted while the session was created, and disposes of it. -/
  | discarding
  | opened
  | failed
  deriving Repr, DecidableEq

/-- A call of `createSession`. `waiter` has what its waiter was settled with, if it has one. -/
structure SessionCall where
  aborted : Bool
  waiter : Option (List Settlement)
  channel : Channel
  phase : Phase
  disposed : Bool
  deriving Repr, DecidableEq

/-- Calls are named by their position. -/
structure Lease where
  activeChannels : Nat
  waiters : List Nat
  retired : Bool
  closed : Bool
  /-- `closePromise` is set. -/
  closing : Bool
  idleTimer : Bool
  masterRunning : Bool
  calls : List SessionCall
  deriving Repr, DecidableEq

namespace SessionCall

/-- `waiter.resolve` with a new release function. -/
def takeChannel (call : SessionCall) : SessionCall :=
  { call with waiter := call.waiter.map (· ++ [.granted]), channel := .held, phase := .granted }

/-- `waiter.reject`. -/
def reject (call : SessionCall) : SessionCall :=
  { call with waiter := call.waiter.map (· ++ [.rejected]), phase := .failed }

end SessionCall

namespace Lease

def fresh : Lease where
  activeChannels := 0
  waiters := []
  retired := false
  closed := false
  closing := false
  idleTimer := false
  masterRunning := false
  calls := []

def modify (lease : Lease) (id : Nat) (change : SessionCall → SessionCall) : Lease :=
  { lease with calls := lease.calls.modify id change }

def isAvailable (lease : Lease) : Bool :=
  !lease.retired && !lease.closed

/-- `for (const waiter of this.waiters.splice(0)) waiter.reject(…)`. -/
def rejectWaiters (lease : Lease) : Lease :=
  lease.waiters.foldl (fun lease id => lease.modify id .reject) { lease with waiters := [] }

/-- `close` up to its first await. -/
def close (lease : Lease) : Lease :=
  if lease.closing then lease
  else rejectWaiters
    { lease with closing := true, closed := true, retired := true, idleTimer := false }

def retire (lease : Lease) : Lease :=
  if lease.retired then lease
  else (rejectWaiters { lease with retired := true }).close

def scheduleIdleClose (lease : Lease) : Lease :=
  if 0 < lease.activeChannels ∨ lease.masterRunning = false then lease
  else { lease with idleTimer := true }

def releaseChannel (lease : Lease) : Lease :=
  let lease := { lease with activeChannels := lease.activeChannels - 1 }
  match if lease.retired then none else lease.waiters.head? with
  | some waiter =>
    { lease with
      waiters := lease.waiters.tail
      activeChannels := lease.activeChannels + 1 }.modify waiter .takeChannel
  | none =>
    if lease.retired then
      if lease.activeChannels = 0 then lease.close else lease
    else lease.scheduleIdleClose

/-- A call of the release function; the second one does nothing. -/
def release (lease : Lease) (id : Nat) : Lease :=
  match lease.calls[id]? with
  | some call =>
    if call.channel = .held then
      (lease.modify id fun call => { call with channel := .released }).releaseChannel
    else lease
  | none => lease

/-- The catch clause of `createSession`. -/
def fail (lease : Lease) (id : Nat) : Lease :=
  (lease.modify id fun call => { call with phase := .failed }).release id

/-- `createSession` up to its first await, `aborted` being the state of its signal. -/
def createSession (lease : Lease) (limits : ChannelLimits) (aborted : Bool) : Lease :=
  let refused : SessionCall :=
    { aborted, waiter := none, channel := .none, phase := .failed, disposed := false }
  if aborted ∨ lease.retired ∨ lease.closed then { lease with calls := lease.calls ++ [refused] }
  else if lease.activeChannels < limits.maxChannels then
    { lease with
      idleTimer := false
      activeChannels := lease.activeChannels + 1
      calls := lease.calls ++ [{ refused with channel := .held, phase := .granted }] }
  else if limits.maxQueuedChannels ≤ lease.waiters.length then
    { lease with idleTimer := false, calls := lease.calls ++ [refused] }
  else
    { lease with
      idleTimer := false
      waiters := lease.waiters ++ [lease.calls.length]
      calls := lease.calls ++ [{ refused with waiter := some [], phase := .queued }] }

/-- The signal of a call fires, once; only a queued call listens. -/
def abort (lease : Lease) (id : Nat) : Lease :=
  match lease.calls[id]? with
  | some call =>
    let aborted := lease.modify id fun call => { call with aborted := true }
    if call.aborted = false ∧ call.phase = .queued then
      { aborted with waiters := aborted.waiters.erase id }.modify id .reject
    else aborted
  | none => lease

/-- An await of the call ends; `done` unless it ends with an error. -/
def resume (lease : Lease) (id : Nat) (done : Bool) : Lease :=
  match lease.calls[id]? with
  | some call =>
    match call.phase with
    | .granted =>
      if call.aborted then lease.fail id
      else lease.modify id fun call => { call with phase := .connecting }
    | .connecting =>
      if done = false ∨ call.aborted then lease.fail id
      else lease.modify id fun call => { call with phase := .opening }
    | .opening =>
      if done = false then lease.fail id
      else if call.aborted then lease.modify id fun call => { call with phase := .discarding }
      else lease.modify id fun call => { call with phase := .opened }
    | .discarding => lease.fail id
    | .queued | .opened | .failed => lease
  | none => lease

/-- `onDispose` of the session that the call returned. -/
def dispose (lease : Lease) (id : Nat) : Lease :=
  match lease.calls[id]? with
  | some call =>
    if call.phase = .opened ∧ call.disposed = false then
      (lease.modify id fun call => { call with disposed := true }).release id
    else lease
  | none => lease

end Lease

/-- What can happen next. -/
inductive LeaseEvent where
  | createSession (aborted : Bool)
  | abort (id : Nat)
  | resume (id : Nat) (done : Bool)
  | dispose (id : Nat)
  | retire
  | close
  | idleTimeout
  | master (running : Bool)
  deriving Repr, DecidableEq

def leaseMachine (limits : ChannelLimits) : Machine Lease LeaseEvent where
  step lease
    | .createSession aborted => lease.createSession limits aborted
    | .abort id => lease.abort id
    | .resume id done => lease.resume id done
    | .dispose id => lease.dispose id
    | .retire => lease.retire
    | .close => lease.close
    | .idleTimeout => if lease.idleTimer then lease.close else lease
    | .master masterRunning => { lease with masterRunning }

end PlatformClaw.Execution
