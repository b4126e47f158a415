import PlatformClaw.Browser.Sessions

/-! # Sessions over whole runs

Every call changes a session in one of three ways, or makes a new one when there
is room. A session that is over stays over, and a disabled account has none.
-/

namespace PlatformClaw.Browser

open Except (ensure orThrow)
open Organization (MutationError)

variable {policy : SessionPolicy}

inductive SessionChange (policy : SessionPolicy) (time : Option Int) (row : BrowserSession) :
    BrowserSession → Prop where
  | same : SessionChange policy time row row
  | touched {now : Int} (at_ : time = some now) (live : row.isLive now = true) :
      SessionChange policy time row (SessionDatabase.touched policy now row)
  | revoked {now : Int} (at_ : time = some now) :
      SessionChange policy time row { row with revokedAt := some now }

namespace BrowserSession

theorem isLive_iff {session : BrowserSession} {now : Int} : session.isLive now = true ↔
    session.revokedAt = none ∧ now < session.idleExpiresAt ∧ now < session.absoluteExpiresAt := by
  simp [isLive]

/-- A session that is over stays over while time goes on. -/
theorem isLive_mono {session : BrowserSession} {past now : Int} (le : past ≤ now)
    (live : session.isLive now = true) : session.isLive past = true := by
  obtain ⟨valid, idle, absolute⟩ := isLive_iff.mp live
  exact isLive_iff.mpr ⟨valid, by omega, by omega⟩

end BrowserSession

namespace SessionChange

variable {time : Option Int} {row row' : BrowserSession}

theorem id_eq (change : SessionChange policy time row row') : row'.id = row.id := by
  cases change <;> rfl

theorem userId_eq (change : SessionChange policy time row row') : row'.userId = row.userId := by
  cases change <;> rfl

theorem live_before (change : SessionChange policy time row row') {now : Int}
    (past : ∀ t, time = some t → now ≤ t) (live : row'.isLive now = true) :
    row.isLive now = true := by
  cases change with
  | same => exact live
  | touched at_ before => exact BrowserSession.isLive_mono (past _ at_) before
  | revoked at_ => simp [BrowserSession.isLive] at live

theorem capped (change : SessionChange policy time row row') (before : row.idleExpiresAt ≤ row.absoluteExpiresAt) :
    row'.idleExpiresAt ≤ row'.absoluteExpiresAt := by
  cases change with
  | same => exact before
  | touched => exact Int.min_le_right _ _
  | revoked => exact before

theorem revoked_of (change : SessionChange policy time row row') (before : row.revokedAt ≠ none) :
    row'.revokedAt ≠ none := by
  cases change with
  | same => exact before
  | touched => exact before
  | revoked => simp

end SessionChange

namespace SessionDatabase

variable {db db' : SessionDatabase}

/-- What a call does to the table of sessions. -/
def SessionsStep (policy : SessionPolicy) (time : Option Int) (db db' : SessionDatabase) : Prop :=
  (∃ change : BrowserSession → BrowserSession, db'.browserSessions.rows = db.browserSessions.rows.map change ∧
      ∀ row ∈ db.browserSessions, SessionChange policy time row (change row)) ∨
  ∃ row, db'.browserSessions.rows = db.browserSessions.rows ++ [row] ∧ row.idleExpiresAt ≤ row.absoluteExpiresAt ∧
    (∃ user, db.platformUsers.lookup row.userId = some user ∧ user.status = .active) ∧
    time = some row.createdAt ∧
    db.activeSessionCount row.userId row.createdAt < policy.maxConcurrentSessions

theorem SessionsStep.unchanged {time : Option Int}
    (same : db'.browserSessions = db.browserSessions) : SessionsStep policy time db db' :=
  .inl ⟨fun row => row, by rw [same, List.map_id'], fun _ _ => .same⟩

theorem SessionsStep.update {time : Option Int} {selects : BrowserSession → Bool}
    {change : BrowserSession → BrowserSession}
    (rows : db'.browserSessions.rows = db.browserSessions.rows.map fun row => if selects row then change row else row)
    (changes : ∀ row ∈ db.browserSessions, selects row = true →
      SessionChange policy time row (change row)) : SessionsStep policy time db db' := by
  refine .inl ⟨fun row => if selects row then change row else row, rows, ?_⟩
  intro row there
  dsimp only
  split
  · rename_i selected
    exact changes row there selected
  · exact .same

theorem resolve_cases {tokenHash : String} {now : Int} {touch : Bool}
    {resolution : SessionResolution}
    (resolved : db.resolveBrowserSession policy tokenHash now touch = .ok (resolution, db')) :
    (db' = db ∧ ∀ session user, resolution ≠ .active session user) ∨
      ∃ row user, row ∈ db.browserSessions ∧ row.isLive now = true ∧
        db.platformUsers.lookup row.userId = some user ∧ user.status = .active ∧
        resolution = .active (if touch then touched policy now row else row) user ∧
        db' = if touch then
          { db with
            browserSessions := db.browserSessions.update (fun other => other.id = row.id)
              (touched policy now) fun _ => rfl }
          else db := by
  simp only [resolveBrowserSession] at resolved
  split at resolved
  · cases resolved
    exact .inl ⟨rfl, fun _ _ same => by cases same⟩
  rename_i row found
  split at resolved
  · cases resolved
    exact .inl ⟨rfl, fun _ _ same => by cases same⟩
  rename_i valid
  split at resolved
  · cases resolved
    exact .inl ⟨rfl, fun _ _ same => by cases same⟩
  rename_i absolute
  split at resolved
  · cases resolved
    exact .inl ⟨rfl, fun _ _ same => by cases same⟩
  rename_i idle
  obtain ⟨user, known, resolved⟩ := Except.bind_ok_iff.mp resolved
  split at resolved
  · cases resolved
    exact .inl ⟨rfl, fun _ _ same => by cases same⟩
  rename_i active
  refine .inr ⟨row, user, List.mem_of_find?_eq_some found, ?_, Except.orThrow_ok_iff.mp known,
    Decidable.not_not.mp active, ?_⟩
  · exact BrowserSession.isLive_iff.mpr ⟨Decidable.not_not.mp valid, by omega, by omega⟩
  · split at resolved <;> cases resolved <;> simp_all

theorem sessionsStep_of_execute {operation : SessionOperation} (done : db.execute policy operation = .ok db') :
    SessionsStep policy operation.time? db db' := by
  cases operation with
  | upsertPrincipal account =>
    simp only [execute, upsertPrincipal, Except.bind_ok_iff] at done
    obtain ⟨-, -, done⟩ := done
    cases done
    exact .unchanged rfl
  | setUserGlobalRole userId globalRole =>
    cases done
    exact .unchanged rfl
  | createBrowserSession userId tokenHash sessionId createdAt =>
    obtain ⟨⟨creation, after⟩, created, rfl⟩ := Except.map_ok_iff.mp done
    simp only [createBrowserSession, Except.bind_ok_iff, Except.ensure_ok_iff, requireUserRow,
      Except.orThrow_ok_iff] at created
    obtain ⟨user, found, -, active, token, -, -, -, created⟩ := created
    have own : user.id = userId := (Table.lookup_eq_some_iff.mp found).2
    split at created
    · cases created
      exact .unchanged rfl
    · rename_i room
      obtain ⟨browserSessions, inserted, created⟩ := Except.bind_ok_iff.mp created
      cases created
      refine .inr ⟨_, Table.insert?_rows (Except.orThrow_ok_iff.mp inserted), ?_, ?_, rfl, ?_⟩
      · exact Int.min_le_right _ _
      · exact ⟨user, own ▸ found, active⟩
      · exact Nat.not_le.mp room
  | resolveBrowserSession tokenHash resolvedAt touch =>
    obtain ⟨⟨resolution, after⟩, resolved, rfl⟩ := Except.map_ok_iff.mp done
    rcases resolve_cases resolved with ⟨rfl, -⟩ | ⟨row, user, there, live, -, -, -, seen⟩
    · exact .unchanged rfl
    · cases touch with
      | false => exact .unchanged (congrArg browserSessions seen)
      | true =>
        refine .update (congrArg (·.browserSessions.rows) seen) fun other inTable same => ?_
        obtain rfl := Table.unique inTable there (of_decide_eq_true same)
        exact .touched rfl live
  | revokeBrowserSession sessionId revokedAt =>
    cases done
    exact .update rfl fun _ _ _ => .revoked rfl
  | setManagedUserStatus actorUserId targetUserId status changedAt =>
    simp only [execute, setManagedUserStatus, Except.bind_ok_iff, Except.ensure_ok_iff] at done
    obtain ⟨_, -, target, -, -, -, done⟩ := done
    split at done
    · cases done
      exact .unchanged rfl
    · obtain ⟨-, -, done⟩ := Except.bind_ok_iff.mp done
      split at done
      · cases done
        exact .update rfl fun _ _ _ => .revoked rfl
      · cases done
        exact .unchanged rfl

/-- What holds of the database at a time no earlier than any call. -/
structure Valid (policy : SessionPolicy) (clock : Int) (db : SessionDatabase) : Prop where
  capped : ∀ row ∈ db.browserSessions, row.idleExpiresAt ≤ row.absoluteExpiresAt
  disabled : ∀ row ∈ db.browserSessions, ∀ user, db.platformUsers.lookup row.userId = some user →
    user.status ≠ .active → row.revokedAt ≠ none
  few : ∀ userId, db.activeSessionCount userId clock ≤ policy.maxConcurrentSessions

theorem valid_empty (policy : SessionPolicy) (clock : Int) : empty.Valid policy clock where
  capped := fun _ none => nomatch none
  disabled := fun _ none => nomatch none
  few := fun _ => Nat.zero_le _

theorem activeSessionCount_eq (db : SessionDatabase) (userId : String) (now : Int) :
    db.activeSessionCount userId now =
      db.browserSessions.rows.countP fun row => row.userId = userId ∧ row.isLive now :=
  List.countP_eq_length_filter.symm

theorem Valid.later {clock now : Int} (valid : db.Valid policy clock) (le : clock ≤ now) : db.Valid policy now := by
  refine { valid with few := fun userId => Nat.le_trans ?_ (valid.few userId) }
  rw [activeSessionCount_eq, activeSessionCount_eq]
  refine List.countP_mono_left fun row _ counted => ?_
  simp only [decide_eq_true_eq] at counted ⊢
  exact ⟨counted.1, BrowserSession.isLive_mono le counted.2⟩

theorem status_of_execute {operation : SessionOperation}
    (done : db.execute policy operation = .ok db') {userId : String} {user : PlatformUserRow}
    (known : db'.platformUsers.lookup userId = some user) (inactive : user.status ≠ .active) :
    (∃ before, db.platformUsers.lookup userId = some before ∧ before.status ≠ .active) ∨
      ∀ row ∈ db'.browserSessions, row.userId = userId → row.revokedAt ≠ none := by
  cases operation with
  | upsertPrincipal account =>
    simp only [SessionDatabase.execute, upsertPrincipal, Except.bind_ok_iff] at done
    obtain ⟨-, -, done⟩ := done
    cases done
    rw [Table.lookup_upsert] at known
    split at known
    · cases before : db.platformUsers.lookup userId with
      | none =>
        simp only [before, Option.map_none, Option.getD_none, Option.some.injEq] at known
        exact absurd (congrArg PlatformUserRow.status known).symm inactive
      | some old =>
        simp only [before, Option.map_some, Option.getD_some, Option.some.injEq] at known
        exact .inl ⟨old, rfl, fun active =>
          inactive ((congrArg PlatformUserRow.status known).symm.trans active)⟩
    · exact .inl ⟨user, known, inactive⟩
  | setUserGlobalRole changedId globalRole =>
    cases done
    rw [setUserGlobalRole, Table.lookup_update] at known
    obtain ⟨old, before, rfl⟩ := Option.map_eq_some_iff.mp known
    refine .inl ⟨old, before, ?_⟩
    split at inactive <;> exact inactive
  | createBrowserSession userId tokenHash sessionId createdAt =>
    obtain ⟨⟨creation, after⟩, created, rfl⟩ := Except.map_ok_iff.mp done
    simp only [createBrowserSession, Except.bind_ok_iff] at created
    obtain ⟨_, _, _, _, _, _, _, _, created⟩ := created
    split at created
    · cases created
      exact .inl ⟨user, known, inactive⟩
    · obtain ⟨browserSessions, -, created⟩ := Except.bind_ok_iff.mp created
      cases created
      exact .inl ⟨user, known, inactive⟩
  | resolveBrowserSession tokenHash resolvedAt touch =>
    obtain ⟨⟨resolution, after⟩, resolved, rfl⟩ := Except.map_ok_iff.mp done
    rcases resolve_cases resolved with ⟨rfl, -⟩ | ⟨row, found, -, -, -, -, -, seen⟩
    · exact .inl ⟨user, known, inactive⟩
    · refine .inl ⟨user, ?_, inactive⟩
      cases touch <;> exact (congrArg (·.platformUsers.lookup userId) seen).symm.trans known
  | revokeBrowserSession sessionId revokedAt =>
    cases done
    exact .inl ⟨user, known, inactive⟩
  | setManagedUserStatus actorUserId targetUserId status changedAt =>
    simp only [SessionDatabase.execute, setManagedUserStatus, Except.bind_ok_iff, Except.ensure_ok_iff] at done
    obtain ⟨_, -, target, -, -, -, done⟩ := done
    split at done
    · cases done
      exact .inl ⟨user, known, inactive⟩
    · obtain ⟨-, -, done⟩ := Except.bind_ok_iff.mp done
      have others (same : db'.platformUsers = db.platformUsers.update
          (fun row => row.id = target.id) (fun row => { row with status }) fun _ => rfl) :
          (userId = target.id ∧ user.status = status) ∨ db.platformUsers.lookup userId = some user := by
        rw [same, Table.lookup_update] at known
        obtain ⟨old, before, rfl⟩ := Option.map_eq_some_iff.mp known
        split
        · rename_i own
          refine .inl ⟨?_, rfl⟩
          exact (Table.lookup_eq_some_iff.mp before).2.symm.trans (of_decide_eq_true own)
        · exact .inr before
      split at done
      · cases done
        rcases others rfl with ⟨own, -⟩ | before
        · refine .inr fun row there same => ?_
          obtain ⟨before, inTable, rfl⟩ := List.mem_map.mp there
          split
          · simp
          · rename_i kept
            intro valid
            refine kept (decide_eq_true ⟨?_, ?_⟩)
            · simpa [kept, own] using same
            · simpa [kept] using valid
        · exact .inl ⟨user, before, inactive⟩
      · rename_i enabled
        cases done
        rcases others rfl with ⟨-, same⟩ | before
        · cases status with
          | active => exact absurd same inactive
          | disabled => exact absurd rfl enabled
        · exact .inl ⟨user, before, inactive⟩

theorem Valid.execute {clock : Int} (valid : db.Valid policy clock) {operation : SessionOperation}
    (at_ : ∀ t, operation.time? = some t → t = clock)
    (done : db.execute policy operation = .ok db') : db'.Valid policy clock := by
  rcases sessionsStep_of_execute done with ⟨change, rows, changes⟩ | ⟨row, rows, made⟩
  · have from_ (row : BrowserSession) (there : row ∈ db'.browserSessions) :
        ∃ before ∈ db.browserSessions, row = change before := by
      have there' : row ∈ db'.browserSessions.rows := there
      rw [rows] at there'
      obtain ⟨before, inTable, rfl⟩ := List.mem_map.mp there'
      exact ⟨before, inTable, rfl⟩
    refine { capped := ?_, disabled := ?_, few := ?_ }
    · intro row there
      obtain ⟨before, inTable, rfl⟩ := from_ row there
      exact (changes before inTable).capped (valid.capped before inTable)
    · intro row there user known inactive
      obtain ⟨before, inTable, rfl⟩ := from_ row there
      rcases status_of_execute done known inactive with ⟨old, known, inactive⟩ | all
      · rw [(changes before inTable).userId_eq] at known
        exact (changes before inTable).revoked_of (valid.disabled before inTable old known inactive)
      · exact all _ there rfl
    · intro userId
      refine Nat.le_trans ?_ (valid.few userId)
      rw [activeSessionCount_eq, activeSessionCount_eq, rows, List.countP_map]
      refine List.countP_mono_left fun row there counted => ?_
      simp only [Function.comp_apply, decide_eq_true_eq] at counted ⊢
      have change := changes row there
      exact ⟨change.userId_eq ▸ counted.1,
        change.live_before (fun t same => Int.le_of_eq (at_ t same).symm) counted.2⟩
  · obtain ⟨capped, ⟨user, known, active⟩, time, room⟩ := made
    have now : row.createdAt = clock := at_ _ time
    have from_ (other : BrowserSession) (there : other ∈ db'.browserSessions) :
        other ∈ db.browserSessions ∨ other = row := by
      have there' : other ∈ db'.browserSessions.rows := there
      rw [rows] at there'
      exact (List.mem_append.mp there').imp_right List.mem_singleton.mp
    refine { capped := ?_, disabled := ?_, few := ?_ }
    · intro other there
      rcases from_ other there with old | rfl
      · exact valid.capped other old
      · exact capped
    · intro other there user known' inactive
      rcases status_of_execute done known' inactive with ⟨before, old, inactive⟩ | all
      · rcases from_ other there with there | rfl
        · exact valid.disabled other there before old inactive
        · cases known.symm.trans old
          exact absurd active inactive
      · exact all other there rfl
    · intro userId
      have before := valid.few userId
      rw [activeSessionCount_eq] at before ⊢
      rw [activeSessionCount_eq] at room
      rw [rows, List.countP_append, List.countP_singleton]
      split
      · rename_i own
        obtain ⟨own, -⟩ := of_decide_eq_true own
        subst own
        rw [now] at room
        omega
      · exact before

theorem Valid.step {clock : Int} (valid : db.Valid policy clock) (operation : SessionOperation)
    (at_ : ∀ t, operation.time? = some t → t = clock) :
    ((sessionMachine policy).step db operation).Valid policy clock := by
  simp only [sessionMachine]
  split
  · rename_i done
    exact valid.execute at_ done
  · exact valid

theorem Valid.run {clock now : Int} {operations : List SessionOperation} (valid : db.Valid policy clock)
    (ordered : (clock :: (operations.filterMap SessionOperation.time? ++ [now])).Pairwise (· ≤ ·)) :
    ((sessionMachine policy).run db operations).Valid policy now := by
  induction operations generalizing db clock with
  | nil => exact valid.later (by simpa using ordered)
  | cons operation rest ih =>
    cases time : operation.time? with
    | none =>
      refine ih (valid.step operation fun t same => ?_) (by simpa [time] using ordered)
      cases time.symm.trans same
    | some t =>
      rw [List.filterMap_cons_some time] at ordered
      obtain ⟨first, later⟩ := List.pairwise_cons.mp ordered
      refine ih ((valid.later (first t List.mem_cons_self)).step operation fun t' same => ?_) later
      cases time.symm.trans same
      rfl

theorem valid_run {operations : List SessionOperation} {now : Int}
    (ordered : (operations.filterMap SessionOperation.time? ++ [now]).Pairwise (· ≤ ·)) :
    ((sessionMachine policy).run empty operations).Valid policy now := by
  cases times : operations.filterMap SessionOperation.time? with
  | nil =>
    refine (valid_empty policy now).run ?_
    simp [times]
  | cons first rest =>
    refine (valid_empty policy first).run (List.pairwise_cons.mpr ⟨?_, ordered⟩)
    rw [times] at ordered ⊢
    intro time later
    rcases List.mem_cons.mp later with rfl | later
    · exact Int.le_refl _
    · exact (List.pairwise_cons.mp ordered).1 time later

/-- The session is over at a time. -/
def Ended (db : SessionDatabase) (id : String) (past : Int) : Prop :=
  ∃ row ∈ db.browserSessions, row.id = id ∧ row.isLive past = false

theorem Ended.execute {id : String} {past : Int} (ended : db.Ended id past)
    {operation : SessionOperation} (later : ∀ t, operation.time? = some t → past ≤ t)
    (done : db.execute policy operation = .ok db') : db'.Ended id past := by
  obtain ⟨row, there, same, gone⟩ := ended
  rcases sessionsStep_of_execute done with ⟨change, rows, changes⟩ | ⟨made, rows, -⟩
  · refine ⟨change row, ?_, (changes row there).id_eq.trans same, ?_⟩
    · show change row ∈ db'.browserSessions.rows
      rw [rows]
      exact List.mem_map_of_mem there
    · refine Bool.eq_false_iff.mpr fun live => ?_
      cases gone.symm.trans ((changes row there).live_before later live)
  · refine ⟨row, ?_, same, gone⟩
    show row ∈ db'.browserSessions.rows
    rw [rows]
    exact List.mem_append_left _ there

theorem Ended.run {id : String} {past : Int} (ended : db.Ended id past)
    {operations : List SessionOperation}
    (later : ∀ operation ∈ operations, ∀ t, operation.time? = some t → past ≤ t) :
    ((sessionMachine policy).run db operations).Ended id past := by
  refine Machine.run_invariant_of (P := (Ended · id past)) ?_ ended operations later
  intro db operation later ended
  simp only [sessionMachine]
  split
  · rename_i done
    exact ended.execute later done
  · exact ended

theorem Ended.resolve {id tokenHash : String} {past now : Int} {touch : Bool}
    (ended : db.Ended id past) (le : past ≤ now) {session : BrowserSession} {user : PlatformUserRow}
    (resolved : db.resolveBrowserSession policy tokenHash now touch =
      .ok (.active session user, db')) : session.id ≠ id := by
  rintro rfl
  obtain ⟨row, there, same, gone⟩ := ended
  rcases resolve_cases resolved with ⟨-, inactive⟩ | ⟨found, user', inTable, live, -, -, active, -⟩
  · exact inactive session user rfl
  · have own : session.id = found.id := by
      cases active
      split <;> rfl
    obtain rfl := Table.unique there inTable (same.trans own)
    cases gone.symm.trans (BrowserSession.isLive_mono le live)

/-- Why a session is no longer valid: it was revoked, one of its expiries has come, or its user is
    disabled. -/
def Over (db : SessionDatabase) (session : BrowserSession) (past : Int) : Prop :=
  session.revokedAt ≠ none ∨ session.idleExpiresAt ≤ past ∨ session.absoluteExpiresAt ≤ past ∨
    ∃ user, db.platformUsers.lookup session.userId = some user ∧ user.status ≠ .active

theorem Valid.ended {clock past : Int} (valid : db.Valid policy clock) {session : BrowserSession}
    (there : session ∈ db.browserSessions) (gone : db.Over session past) :
    db.Ended session.id past := by
  refine ⟨session, there, rfl, Bool.eq_false_iff.mpr fun live => ?_⟩
  obtain ⟨unrevoked, idle, absolute⟩ := BrowserSession.isLive_iff.mp live
  rcases gone with revoked | idleOver | absoluteOver | ⟨user, known, inactive⟩
  · exact revoked unrevoked
  · omega
  · omega
  · exact valid.disabled session there user known inactive unrevoked

/-- In every run whose times do not go back: no idle expiry is after the absolute one, no user has
    more live sessions than allowed, and a session that is over at some time, for whatever reason,
    is never found active from then on. -/
theorem sessions_valid {early late : List SessionOperation} {past now : Int}
    (ordered : (early.filterMap SessionOperation.time? ++
      past :: (late.filterMap SessionOperation.time? ++ [now])).Pairwise (· ≤ ·)) :
    let before := (sessionMachine policy).run empty early
    let db := (sessionMachine policy).run before late
    (∀ session ∈ db.browserSessions, session.idleExpiresAt ≤ session.absoluteExpiresAt) ∧
    (∀ userId, db.activeSessionCount userId now ≤ policy.maxConcurrentSessions) ∧
    ∀ session ∈ before.browserSessions, before.Over session past → ∀ tokenHash touch found user after,
        db.resolveBrowserSession policy tokenHash now touch = .ok (.active found user, after) →
          found.id ≠ session.id := by
  intro before db
  have validBefore : before.Valid policy past := by
    refine valid_run (ordered.sublist (List.Sublist.append_left ?_ _))
    exact (List.nil_sublist _).cons_cons past
  have later : (past :: (late.filterMap SessionOperation.time? ++ [now])).Pairwise (· ≤ ·) :=
    (List.pairwise_append.mp ordered).2.1
  have valid : db.Valid policy now := validBefore.run later
  have bounds := (List.pairwise_cons.mp later).1
  refine ⟨valid.capped, valid.few, ?_⟩
  intro session there gone tokenHash touch found user after resolved
  have ended : db.Ended session.id past := by
    refine (validBefore.ended there gone).run fun operation inLate t time => ?_
    exact bounds t (List.mem_append_left _ (List.mem_filterMap.mpr ⟨operation, inLate, time⟩))
  exact ended.resolve (bounds now (List.mem_append_right _ (List.mem_singleton_self now))) resolved

/-- An employee signs in, looks around, and signs out. -/
def signInAndOut : List SessionOperation :=
  [.upsertPrincipal ⟨"user-1", "kim", none, .active, .member⟩,
    .createBrowserSession "user-1" "hash-1" "session-1" 0, .resolveBrowserSession "hash-1" 1000 true,
    .revokeBrowserSession "session-1" 2000]

theorem signInAndOut_valid :
    ((sessionMachine browserSessionPolicy).run empty signInAndOut).activeSessionCount "user-1" 3000 ≤ 3 ∧
      ∀ session ∈ ((sessionMachine browserSessionPolicy).run empty signInAndOut).browserSessions,
        session.idleExpiresAt ≤ session.absoluteExpiresAt := by
  have valid := @sessions_valid browserSessionPolicy signInAndOut [] 2000 3000 (by decide)
  exact ⟨valid.2.1 "user-1", valid.1⟩

end SessionDatabase

end PlatformClaw.Browser
