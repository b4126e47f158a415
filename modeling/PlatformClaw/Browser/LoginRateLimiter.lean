import PlatformClaw.Library.Machine
import PlatformClaw.Library.ScriptMap
import PlatformClaw.Library.ScriptString

/-! # Login attempts and their rate limit

`MemoryBrowserLoginRateLimiter` and what the login handler does with it: a
client is checked, its password is verified while other requests are served, and
a rejected one is recorded as a failure.
-/

namespace PlatformClaw.Browser

structure LoginRateEntry where
  failures : Nat
  windowStartedAt : Nat
  blockedUntil : Nat
  lastSeenAt : Nat
  deriving DecidableEq

/-- The options of the limiter, each a positive integer. -/
structure LoginRateLimits where
  failureLimit : Nat
  windowMs : Nat
  blockMs : Nat
  maxKeys : Nat
  limited : 0 < failureLimit
  windowed : 0 < windowMs
  blocking : 0 < blockMs
  capped : 0 < maxKeys

namespace LoginRateLimits

def defaults : LoginRateLimits where
  failureLimit := 5
  windowMs := 10 * 60 * 1000
  blockMs := 15 * 60 * 1000
  maxKeys := 10000
  limited := by decide
  windowed := by decide
  blocking := by decide
  capped := by decide

end LoginRateLimits

def LoginRateEntry.fail (limits : LoginRateLimits) (now : Nat) (entry : LoginRateEntry) : LoginRateEntry :=
  { entry with
    failures := entry.failures + 1
    lastSeenAt := now
    blockedUntil :=
      if limits.failureLimit ≤ entry.failures + 1 then now + limits.blockMs else entry.blockedUntil }

abbrev LoginRateEntries := ScriptMap LoginRateEntry

structure LoginRateDecision where
  allowed : Bool
  retryAfterMs : Nat
  deriving DecidableEq

namespace LoginRateEntries

def key (clientIp : Option String) (scope : String) : String :=
  let ip := (clientIp.map ScriptString.trim).getD ""
  scope ++ "\x00" ++ if ip = "" then "unknown" else ip

def check (limits : LoginRateLimits) (now : Nat) (clientIp : Option String) (scope : String)
    (entries : LoginRateEntries) : LoginRateDecision × LoginRateEntries :=
  match entries.get (key clientIp scope) with
  | none => ({ allowed := true, retryAfterMs := 0 }, entries)
  | some entry =>
    let seen := entries.set (key clientIp scope) { entry with lastSeenAt := now }
    if now < entry.blockedUntil then
      ({ allowed := false, retryAfterMs := entry.blockedUntil - now }, seen)
    else if limits.windowMs ≤ now - entry.windowStartedAt then
      ({ allowed := true, retryAfterMs := 0 }, seen.remove (key clientIp scope))
    else ({ allowed := true, retryAfterMs := 0 }, seen)

/-- The key that was not seen for the longest time, the first of several. -/
def oldestKey (entries : LoginRateEntries) : Option String :=
  (entries.rows.foldl (fun oldest entry =>
    match oldest with
    | none => some entry
    | some other => if entry.2.lastSeenAt < other.2.lastSeenAt then some entry else oldest)
    none).map Prod.fst

/-- The loop goes on while there are too many keys; each round takes one. -/
def evict (maxKeys : Nat) : Nat → LoginRateEntries → LoginRateEntries
  | 0, entries => entries
  | rounds + 1, entries =>
    if maxKeys < entries.rows.length then
      match entries.oldestKey with
      | none => entries
      | some oldest => if oldest = "" then entries else evict maxKeys rounds (entries.remove oldest)
    else entries

def evictOldestKeys (limits : LoginRateLimits) (entries : LoginRateEntries) : LoginRateEntries :=
  evict limits.maxKeys entries.rows.length entries

/-- The entry of the window that a failure counts in. -/
def currentEntry (limits : LoginRateLimits) (now : Nat) (current : Option LoginRateEntry) : LoginRateEntry :=
  match current with
  | none => { failures := 0, windowStartedAt := now, blockedUntil := 0, lastSeenAt := now }
  | some entry =>
    if limits.windowMs ≤ now - entry.windowStartedAt then
      { failures := 0, windowStartedAt := now, blockedUntil := 0, lastSeenAt := now }
    else entry

/-- A failure before keys are evicted. -/
def countFailure (limits : LoginRateLimits) (now : Nat) (clientIp : Option String) (scope : String)
    (entries : LoginRateEntries) : LoginRateEntries :=
  entries.set (key clientIp scope)
    (LoginRateEntry.fail limits now (currentEntry limits now (entries.get (key clientIp scope))))

def recordFailure (limits : LoginRateLimits) (now : Nat) (clientIp : Option String)
    (scope : String) (entries : LoginRateEntries) : LoginRateEntries :=
  (entries.countFailure limits now clientIp scope).evictOldestKeys limits

end LoginRateEntries

/-- The handler: what the limiter knows, and the clients whose password is being verified. -/
structure LoginHandler where
  entries : LoginRateEntries
  verifying : List (Option String)
  deriving DecidableEq

namespace LoginHandler

def fresh : LoginHandler := ⟨.empty, []⟩

def scope : String := "platformclaw-browser-login"

end LoginHandler

inductive LoginStep where
  | attempt (clientIp : Option String)
  | rejected (position : Nat)
  | finished (position : Nat)
  deriving DecidableEq

structure LoginEvent where
  now : Nat
  step : LoginStep
  deriving DecidableEq

namespace LoginHandler

/-- An attempt waits for its verification unless it is denied; one that was not rejected records
    nothing. -/
def step (limits : LoginRateLimits) (handler : LoginHandler) (event : LoginEvent) : LoginHandler :=
  match event.step with
  | .attempt clientIp =>
    let (decision, entries) := handler.entries.check limits event.now clientIp scope
    { entries
      verifying :=
        if decision.allowed then handler.verifying ++ [clientIp] else handler.verifying }
  | .rejected position =>
    match handler.verifying[position]? with
    | none => handler
    | some clientIp =>
      { entries := handler.entries.recordFailure limits event.now clientIp scope
        verifying := handler.verifying.eraseIdx position }
  | .finished position => { handler with verifying := handler.verifying.eraseIdx position }

end LoginHandler

def loginMachine (limits : LoginRateLimits) : Machine LoginHandler LoginEvent where
  step := LoginHandler.step limits

end PlatformClaw.Browser
