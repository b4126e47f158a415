import PlatformClaw.Organization.Database

/-! # Browser sessions

The sessions of `sqlite-store-auth.ts` and the accounts they belong to. A lookup
slides the idle expiry of the session it finds, up to the absolute one; a
disabled account loses its sessions. An error rolls the transaction back.
-/

namespace PlatformClaw.Browser

open Except (ensure orThrow)
open Organization (MutationError required)

structure BrowserSession where
  id : String
  userId : String
  tokenHash : String
  createdAt : Int
  lastSeenAt : Int
  idleExpiresAt : Int
  absoluteExpiresAt : Int
  revokedAt : Option Int
  deriving DecidableEq

structure SessionPolicy where
  idleTimeoutMs : Int
  absoluteTimeoutMs : Int
  maxConcurrentSessions : Nat

def browserSessionPolicy : SessionPolicy where
  idleTimeoutMs := 12 * 60 * 60 * 1000
  absoluteTimeoutMs := 7 * 24 * 60 * 60 * 1000
  maxConcurrentSessions := 3

inductive ExpiryReason where
  | idle
  | absolute
  deriving DecidableEq

inductive SessionResolution where
  | active (session : BrowserSession) (user : PlatformUserRow)
  | notFound
  | revoked (session : BrowserSession)
  | expired (reason : ExpiryReason) (session : BrowserSession)
  | userDisabled (session : BrowserSession) (user : PlatformUserRow)
  deriving DecidableEq

inductive SessionCreation where
  | created (session : BrowserSession)
  | limitReached (activeSessionCount : Nat)
  deriving DecidableEq

structure SessionDatabase where
  platformUsers : Table PlatformUserRow.id
  browserSessions : Table BrowserSession.id

/-- What the statements ask of a session: not revoked, and neither expiry has come. -/
def BrowserSession.isLive (session : BrowserSession) (now : Int) : Bool :=
  session.revokedAt = none ∧ now < session.idleExpiresAt ∧ now < session.absoluteExpiresAt

namespace SessionDatabase

def empty : SessionDatabase := ⟨Table.empty, Table.empty⟩

def requireUserRow (db : SessionDatabase) (userId : String) : Except MutationError PlatformUserRow :=
  orThrow (db.platformUsers.lookup userId) (.notFound "user" userId)

def requireAdmin (db : SessionDatabase) (userId : String) : Except MutationError PlatformUserRow := do
  let user ← db.requireUserRow userId
  ensure (user.globalRole = .admin ∧ user.status = .active)
    (.authorization "active administrator required")
  return user

def activeSessionCount (db : SessionDatabase) (userId : String) (now : Int) : Nat :=
  (db.browserSessions.rows.filter fun row => row.userId = userId ∧ row.isLive now).length

/-- An account of the employee directory signs in: a new one is active, a known one keeps its
    status. -/
def upsertPrincipal (db : SessionDatabase) (account : PlatformUserRow) : Except MutationError SessionDatabase := do
  ensure (∀ other ∈ db.platformUsers.rows, other.id = account.id ∨ other.accountId ≠ account.accountId) .constraint
  return { db with
    platformUsers := db.platformUsers.upsert { account with status := .active }
      (fun row => { row with displayName := account.displayName }) fun _ => rfl }

/-- Every change of a role, by whomever. -/
def setUserGlobalRole (db : SessionDatabase) (userId : String) (globalRole : GlobalRole) : SessionDatabase :=
  { db with
    platformUsers := db.platformUsers.update (fun row => row.id = userId)
      (fun row => { row with globalRole }) fun _ => rfl }

/-- `sessionId` is what the id factory returns. -/
def createBrowserSession (policy : SessionPolicy) (db : SessionDatabase)
    (userId tokenHash sessionId : String) (createdAt : Int) :
    Except MutationError (SessionCreation × SessionDatabase) := do
  let user ← db.requireUserRow userId
  ensure (user.status = .active)
    (.state ("cannot create session for disabled user: " ++ user.id))
  let tokenHash ← required tokenHash "tokenHash"
  ensure (∀ row ∈ db.browserSessions.rows, row.tokenHash ≠ tokenHash)
    (.conflict "session_token_conflict" "session token hash already exists")
  let activeSessionCount := db.activeSessionCount user.id createdAt
  if policy.maxConcurrentSessions ≤ activeSessionCount then
    return (.limitReached activeSessionCount, db)
  else
    let absoluteExpiresAt := createdAt + policy.absoluteTimeoutMs
    let row : BrowserSession :=
      { id := sessionId
        userId := user.id
        tokenHash
        createdAt
        lastSeenAt := createdAt
        idleExpiresAt := min (createdAt + policy.idleTimeoutMs) absoluteExpiresAt
        absoluteExpiresAt
        revokedAt := none }
    let browserSessions ← orThrow (db.browserSessions.insert? row) .constraint
    return (.created row, { db with browserSessions })

/-- A session that was seen: its idle expiry slides. -/
def touched (policy : SessionPolicy) (resolvedAt : Int) (row : BrowserSession) : BrowserSession :=
  { row with
    lastSeenAt := resolvedAt
    idleExpiresAt := min (resolvedAt + policy.idleTimeoutMs) row.absoluteExpiresAt }

def resolveBrowserSession (policy : SessionPolicy) (db : SessionDatabase) (tokenHash : String)
    (resolvedAt : Int) (touch : Bool) : Except MutationError (SessionResolution × SessionDatabase) :=
  match db.browserSessions.rows.find? fun row => row.tokenHash = tokenHash with
  | none => .ok (.notFound, db)
  | some row =>
    if row.revokedAt ≠ none then .ok (.revoked row, db)
    else if row.absoluteExpiresAt ≤ resolvedAt then .ok (.expired .absolute row, db)
    else if row.idleExpiresAt ≤ resolvedAt then .ok (.expired .idle row, db)
    else do
      let user ← db.requireUserRow row.userId
      if user.status ≠ .active then return (.userDisabled row user, db)
      else if touch then
        return (.active (touched policy resolvedAt row) user, { db with
          browserSessions := db.browserSessions.update (fun other => other.id = row.id)
            (touched policy resolvedAt) fun _ => rfl })
      else return (.active row user, db)

def revokeBrowserSession (db : SessionDatabase) (sessionId : String) (revokedAt : Int) : SessionDatabase :=
  { db with
    browserSessions := db.browserSessions.update (fun row => row.id = sessionId ∧ row.revokedAt = none)
      (fun row => { row with revokedAt := some revokedAt }) fun _ => rfl }

def setManagedUserStatus (db : SessionDatabase) (actorUserId targetUserId : String)
    (status : UserStatus) (changedAt : Int) : Except MutationError SessionDatabase := do
  let _ ← db.requireAdmin actorUserId
  let target ← db.requireUserRow targetUserId
  ensure (actorUserId ≠ targetUserId ∨ target.status = status)
    (.state "administrators cannot change their own status")
  if target.status = status then return db
  else
    let activeAdmins := (db.platformUsers.rows.filter fun row =>
      row.globalRole = .admin ∧ row.status = .active).length
    ensure (target.globalRole ≠ .admin ∨ status ≠ .disabled ∨ 1 < activeAdmins)
      (.state "cannot disable the last active administrator")
    let platformUsers := db.platformUsers.update (fun row => row.id = target.id)
      (fun row => { row with status }) fun _ => rfl
    if status = .disabled then
      return {
        platformUsers
        browserSessions := db.browserSessions.update (fun row => row.userId = target.id ∧ row.revokedAt = none)
          (fun row => { row with revokedAt := some changedAt }) fun _ => rfl }
    else return { db with platformUsers }

end SessionDatabase

inductive SessionOperation where
  | upsertPrincipal (account : PlatformUserRow)
  | setUserGlobalRole (userId : String) (globalRole : GlobalRole)
  | createBrowserSession (userId tokenHash sessionId : String) (createdAt : Int)
  | resolveBrowserSession (tokenHash : String) (resolvedAt : Int) (touch : Bool)
  | revokeBrowserSession (sessionId : String) (revokedAt : Int)
  | setManagedUserStatus (actorUserId targetUserId : String) (status : UserStatus) (changedAt : Int)

def SessionOperation.time? : SessionOperation → Option Int
  | .upsertPrincipal _ | .setUserGlobalRole .. => none
  | .createBrowserSession _ _ _ now | .resolveBrowserSession _ now _
  | .revokeBrowserSession _ now | .setManagedUserStatus _ _ _ now => some now

namespace SessionDatabase

def execute (policy : SessionPolicy) (db : SessionDatabase) : SessionOperation → Except MutationError SessionDatabase
  | .upsertPrincipal account => db.upsertPrincipal account
  | .setUserGlobalRole userId globalRole => .ok (db.setUserGlobalRole userId globalRole)
  | .createBrowserSession userId tokenHash sessionId createdAt =>
    (·.2) <$> db.createBrowserSession policy userId tokenHash sessionId createdAt
  | .resolveBrowserSession tokenHash resolvedAt touch =>
    (·.2) <$> db.resolveBrowserSession policy tokenHash resolvedAt touch
  | .revokeBrowserSession sessionId revokedAt => .ok (db.revokeBrowserSession sessionId revokedAt)
  | .setManagedUserStatus actorUserId targetUserId status changedAt =>
    db.setManagedUserStatus actorUserId targetUserId status changedAt

end SessionDatabase

def sessionMachine (policy : SessionPolicy) : Machine SessionDatabase SessionOperation where
  step db operation :=
    match db.execute policy operation with
    | .ok db' => db'
    | .error _ => db

end PlatformClaw.Browser
