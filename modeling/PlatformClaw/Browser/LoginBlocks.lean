import PlatformClaw.Browser.LoginRateLimiter

/-! # How long a blocked login stays blocked

A running block is kept by every check and by every failure that counts in the
window the block came from. A failure that starts a new window forgets it.
-/

namespace PlatformClaw.Browser

open LoginRateEntries (key)

namespace LoginRateEntries

/-- The time until which a key is blocked, 0 for one that is not known. -/
def blockedUntil (entries : LoginRateEntries) (id : String) : Nat :=
  ((entries.get id).map (·.blockedUntil)).getD 0

def windowElapsed (limits : LoginRateLimits) (now : Nat) (entries : LoginRateEntries) (id : String) : Bool :=
  (entries.get id).all fun entry => limits.windowMs ≤ now - entry.windowStartedAt

variable {limits : LoginRateLimits} {now : Nat} {clientIp : Option String} {scope : String}
  {entries : LoginRateEntries} {id : String}

theorem check_denies : (entries.check limits now clientIp scope).1.allowed = false ↔
      now < entries.blockedUntil (key clientIp scope) := by
  simp only [check, blockedUntil]
  split
  · rename_i unknown
    simp [unknown]
  · rename_i entry found
    simp only [found, Option.map_some, Option.getD_some]
    split
    · rename_i running
      simpa using running
    · rename_i passed
      split <;> simpa using passed

theorem blockedUntil_check : (entries.check limits now clientIp scope).2.blockedUntil id = entries.blockedUntil id ∨
      entries.blockedUntil id ≤ now ∧ (entries.check limits now clientIp scope).2.blockedUntil id = 0 := by
  simp only [check]
  split
  · exact .inl rfl
  · rename_i entry found
    have seen : LoginRateEntries.blockedUntil (entries.set (key clientIp scope) { entry with lastSeenAt := now }) id =
          entries.blockedUntil id := by
      simp only [blockedUntil, ScriptMap.get_set]
      split
      · rename_i same
        simp [← same, found]
      · rfl
    split
    · exact .inl seen
    · rename_i passed
      split
      · by_cases same : key clientIp scope = id
        · refine .inr ⟨?_, ?_⟩
          · simpa [blockedUntil, ← same, found] using passed
          · simp [blockedUntil, same]
        · refine .inl (Eq.trans ?_ seen)
          simp [blockedUntil, same]
      · exact .inl seen

theorem blockedUntil_countFailure : (entries.countFailure limits now clientIp scope).blockedUntil id =
      if key clientIp scope = id then
        ((currentEntry limits now (entries.get id)).fail limits now).blockedUntil
      else entries.blockedUntil id := by
  simp only [countFailure, blockedUntil, ScriptMap.get_set]
  split
  · rename_i same
    simp [same]
  · rfl

theorem fail_keeps (going : entries.windowElapsed limits now id = false) :
    ((currentEntry limits now (entries.get id)).fail limits now).blockedUntil = now + limits.blockMs ∨
      ((currentEntry limits now (entries.get id)).fail limits now).blockedUntil = entries.blockedUntil id := by
  cases found : entries.get id with
  | none => simp [windowElapsed, found] at going
  | some entry =>
    have going : ¬limits.windowMs ≤ now - entry.windowStartedAt := by
      simpa [windowElapsed, found] using going
    simp only [currentEntry, if_neg going, LoginRateEntry.fail, blockedUntil, found]
    split
    · exact .inl rfl
    · exact .inr rfl

theorem fail_restarts (elapsed : entries.windowElapsed limits now id = true) :
    ((currentEntry limits now (entries.get id)).fail limits now).blockedUntil =
      if limits.failureLimit ≤ 1 then now + limits.blockMs else 0 := by
  cases found : entries.get id with
  | none => rfl
  | some entry =>
    have elapsed : limits.windowMs ≤ now - entry.windowStartedAt := by
      simpa [windowElapsed, found] using elapsed
    simp only [currentEntry, if_pos elapsed, LoginRateEntry.fail, Nat.zero_add]

theorem get_evict {maxKeys rounds : Nat} {entry : LoginRateEntry}
    (found : ScriptMap.get (evict maxKeys rounds entries) id = some entry) :
    entries.get id = some entry := by
  induction rounds generalizing entries with
  | zero => exact found
  | succ rounds ih =>
    simp only [evict] at found
    split at found
    · split at found
      · exact found
      · split at found
        · exact found
        · have kept := ih found
          rw [ScriptMap.get_remove] at kept
          split at kept
          · cases kept
          · exact kept
    · exact found

theorem evictOldestKeys_of_fits (fits : entries.rows.length ≤ limits.maxKeys) :
    entries.evictOldestKeys limits = entries := by
  have few : ¬limits.maxKeys < entries.rows.length := Nat.not_lt.mpr fits
  cases size : entries.rows.length with
  | zero => simp [evictOldestKeys, evict, size]
  | succ rounds => simp [evictOldestKeys, evict, size ▸ few, size]

theorem blockedUntil_recordFailure_le : (entries.recordFailure limits now clientIp scope).blockedUntil id ≤
      max (entries.blockedUntil id) (now + limits.blockMs) := by
  have counted : (entries.countFailure limits now clientIp scope).blockedUntil id ≤
      max (entries.blockedUntil id) (now + limits.blockMs) := by
    rw [blockedUntil_countFailure]
    split
    · cases elapsed : entries.windowElapsed limits now id with
      | true =>
        rw [fail_restarts elapsed]
        split <;> omega
      | false => rcases fail_keeps elapsed with extended | kept <;> omega
    · exact Nat.le_max_left _ _
  cases found : (entries.recordFailure limits now clientIp scope).get id with
  | none => simp [blockedUntil, found]
  | some entry =>
    have kept := get_evict found
    simpa [blockedUntil, found, kept] using counted

end LoginRateEntries

namespace LoginHandler

variable {limits : LoginRateLimits} {handler : LoginHandler} {event : LoginEvent} {id : String}
  {deadline : Nat}

/-- The client whose failure an event records. -/
def recorded (handler : LoginHandler) (event : LoginEvent) : Option (Option String) :=
  match event.step with
  | .rejected position => handler.verifying[position]?
  | _ => none

/-- No key has to be evicted for a failure. -/
def Fits (limits : LoginRateLimits) (handler : LoginHandler) (event : LoginEvent) : Prop :=
  ∀ clientIp, handler.recorded event = some clientIp →
    (handler.entries.countFailure limits event.now clientIp scope).rows.length ≤ limits.maxKeys

/-- A failure of a key that is still blocked starts a new window, which is not blocked yet. -/
def Forgets (limits : LoginRateLimits) (id : String) (deadline : Nat) (handler : LoginHandler)
    (event : LoginEvent) : Prop :=
  event.now < deadline ∧ 1 < limits.failureLimit ∧ handler.entries.windowElapsed limits event.now id = true ∧
      ∃ clientIp, handler.recorded event = some clientIp ∧ key clientIp scope = id

/-- No block is longer than one from now on. -/
def Bounded (limits : LoginRateLimits) (now : Nat) (handler : LoginHandler) : Prop :=
  ∀ id, handler.entries.blockedUntil id ≤ now + limits.blockMs

theorem step_cases (limits : LoginRateLimits) (handler : LoginHandler) (event : LoginEvent) :
    (handler.recorded event = none ∧ ((handler.step limits event).entries = handler.entries ∨
          ∃ clientIp, (handler.step limits event).entries =
            (handler.entries.check limits event.now clientIp scope).2)) ∨
      ∃ clientIp, handler.recorded event = some clientIp ∧ (handler.step limits event).entries =
          handler.entries.recordFailure limits event.now clientIp scope := by
  obtain ⟨now, step⟩ := event
  cases step with
  | attempt clientIp => exact .inl ⟨rfl, .inr ⟨clientIp, rfl⟩⟩
  | rejected position =>
    simp only [recorded, LoginHandler.step]
    split
    · rename_i unknown
      exact .inl ⟨unknown, .inl rfl⟩
    · rename_i clientIp found
      exact .inr ⟨clientIp, found, rfl⟩
  | finished position => exact .inl ⟨rfl, .inl rfl⟩

theorem Bounded.step {now : Nat} (bounded : handler.Bounded limits now) (past : event.now ≤ now) :
    (handler.step limits event).Bounded limits now := by
  intro id
  have before := bounded id
  rcases step_cases limits handler event with
    ⟨-, same | ⟨clientIp, checked⟩⟩ | ⟨clientIp, -, failed⟩
  · rw [same]
    exact before
  · rw [checked]
    rcases @LoginRateEntries.blockedUntil_check limits event.now clientIp scope handler.entries id
      with same | ⟨-, forgotten⟩ <;> omega
  · rw [failed]
    exact Nat.le_trans LoginRateEntries.blockedUntil_recordFailure_le (by omega)

theorem step_keeps (bounded : handler.Bounded limits event.now)
    (blocked : deadline ≤ handler.entries.blockedUntil id) (running : event.now < deadline)
    (fits : handler.Fits limits event) (remembers : ¬handler.Forgets limits id deadline event) :
    deadline ≤ (handler.step limits event).entries.blockedUntil id := by
  have latest := bounded id
  rcases step_cases limits handler event with
    ⟨-, same | ⟨clientIp, checked⟩⟩ | ⟨clientIp, recorded, failed⟩
  · rwa [same]
  · rw [checked]
    rcases @LoginRateEntries.blockedUntil_check limits event.now clientIp scope handler.entries id
      with same | ⟨passed, -⟩ <;> omega
  · rw [failed, LoginRateEntries.recordFailure, LoginRateEntries.evictOldestKeys_of_fits (fits clientIp recorded),
      LoginRateEntries.blockedUntil_countFailure]
    split
    · rename_i own
      cases elapsed : handler.entries.windowElapsed limits event.now id with
      | true =>
        rw [LoginRateEntries.fail_restarts elapsed, if_pos]
        · omega
        · refine Nat.not_lt.mp fun several => remembers ?_
          exact ⟨running, several, elapsed, clientIp, recorded, own⟩
      | false => rcases LoginRateEntries.fail_keeps elapsed with extended | kept <;> omega
    · exact blocked

theorem step_forgets (fits : handler.Fits limits event) (forgets : handler.Forgets limits id deadline event) :
    (handler.step limits event).entries.blockedUntil id = 0 := by
  obtain ⟨-, several, elapsed, clientIp, recorded, own⟩ := forgets
  rcases step_cases limits handler event with ⟨none, -⟩ | ⟨other, recorded', failed⟩
  · cases none.symm.trans recorded
  · cases recorded.symm.trans recorded'
    rw [failed, LoginRateEntries.recordFailure, LoginRateEntries.evictOldestKeys_of_fits (fits clientIp recorded),
      LoginRateEntries.blockedUntil_countFailure, if_pos own,
      LoginRateEntries.fail_restarts elapsed, if_neg (Nat.not_le.mpr several)]

theorem bounded_run {now : Nat} {events : List LoginEvent} (past : ∀ event ∈ events, event.now ≤ now) :
    ((loginMachine limits).run fresh events).Bounded limits now :=
  Machine.run_invariant_of (fun _ _ past bounded => bounded.step past)
    (fun _ => Nat.zero_le _) events past

/-- Every check of a client before the deadline is denied, after any part of the run. -/
def Denied (limits : LoginRateLimits) (clientIp : Option String) (deadline clock : Nat)
    (handler : LoginHandler) (events : List LoginEvent) : Prop :=
  ∀ early late, events = early ++ late → ∀ now, clock ≤ now → (∀ event ∈ early, event.now ≤ now) → now < deadline →
      (LoginRateEntries.check limits now clientIp scope
        ((loginMachine limits).run handler early).entries).1.allowed = false

theorem Bounded.mono {clock now : Nat} (bounded : handler.Bounded limits clock)
    (le : clock ≤ now) : handler.Bounded limits now :=
  fun id => Nat.le_trans (bounded id) (Nat.add_le_add_right le _)

theorem denied_cons {clientIp : Option String} {clock : Nat} {events : List LoginEvent} (first : clock ≤ event.now)
    (blocked : deadline ≤ handler.entries.blockedUntil (key clientIp scope)) :
    Denied limits clientIp deadline clock handler (event :: events) ↔
      Denied limits clientIp deadline event.now (handler.step limits event) events := by
  constructor
  · rintro denied early late rfl now start past soon
    exact denied (event :: early) late rfl now (Nat.le_trans first start)
      (List.forall_mem_cons.mpr ⟨start, past⟩) soon
  · intro denied early late split now start past soon
    cases early with
    | nil => exact LoginRateEntries.check_denies.mpr (Nat.lt_of_lt_of_le soon blocked)
    | cons event' early =>
      obtain ⟨rfl, rfl⟩ := List.cons.inj split
      obtain ⟨past, pastRest⟩ := List.forall_mem_cons.mp past
      exact denied early late rfl now past pastRest soon

theorem denied_iff {clientIp : Option String} {clock : Nat} {events : List LoginEvent}
    (bounded : handler.Bounded limits clock)
    (blocked : deadline ≤ handler.entries.blockedUntil (key clientIp scope))
    (later : ∀ event ∈ events, clock ≤ event.now)
    (ordered : (events.map LoginEvent.now).Pairwise (· ≤ ·))
    (fits : (loginMachine limits).Meets (Fits limits) handler events) :
    Denied limits clientIp deadline clock handler events ↔ (loginMachine limits).Meets
        (fun handler event => ¬handler.Forgets limits (key clientIp scope) deadline event)
        handler events := by
  induction events generalizing handler clock with
  | nil =>
    refine ⟨fun _ => trivial, ?_⟩
    rintro - early late split now - - soon
    obtain ⟨rfl, -⟩ := List.append_eq_nil_iff.mp split.symm
    exact LoginRateEntries.check_denies.mpr (Nat.lt_of_lt_of_le soon blocked)
  | cons event rest ih =>
    obtain ⟨first, -⟩ := List.forall_mem_cons.mp later
    obtain ⟨fitsFirst, fitsRest⟩ := fits
    have after (event' : LoginEvent) (inRest : event' ∈ rest) : event.now ≤ event'.now :=
      (List.pairwise_cons.mp ordered).1 _ (List.mem_map_of_mem inRest)
    have boundedNow : handler.Bounded limits event.now := bounded.mono first
    rw [denied_cons first blocked]
    by_cases running : event.now < deadline
    · by_cases forgets : handler.Forgets limits (key clientIp scope) deadline event
      · -- The next check is allowed although the deadline is ahead.
        refine iff_of_false (fun denied => ?_) fun meets => meets.1 forgets
        have next := denied [] rest rfl event.now (Nat.le_refl _) (fun _ none => nomatch none) running
        have open' := step_forgets fitsFirst forgets
        have still := LoginRateEntries.check_denies.mp next
        rw [Machine.run_nil] at still
        exact Nat.not_lt_zero _ (open' ▸ still)
      · have kept := step_keeps boundedNow blocked running fitsFirst forgets
        rw [ih (boundedNow.step (Nat.le_refl _)) kept after (List.pairwise_cons.mp ordered).2 fitsRest]
        exact ⟨fun meets => ⟨forgets, meets⟩, And.right⟩
    · refine iff_of_true ?_ (Machine.meets_of_forall ?_ _)
      · intro early late split now clock _ soon
        exact absurd (Nat.lt_of_le_of_lt clock soon) running
      · intro event' inEvents state forgets
        refine running (Nat.lt_of_le_of_lt ?_ forgets.1)
        rcases List.mem_cons.mp inEvents with rfl | inRest
        · exact Nat.le_refl _
        · exact after event' inRest

/-- While a key is blocked, every check of it is denied until the block ends, in exactly the runs
    in which no failure of the key forgets the block. -/
theorem blocked_denied_iff {earlier events : List LoginEvent} {clientIp : Option String}
    (blocked : deadline ≤ ((loginMachine limits).run fresh earlier).entries.blockedUntil (key clientIp scope))
    (ordered : ((earlier ++ events).map LoginEvent.now).Pairwise (· ≤ ·)) {clock : Nat}
    (past : ∀ event ∈ earlier, event.now ≤ clock) (later : ∀ event ∈ events, clock ≤ event.now)
    (fits : (loginMachine limits).Meets (Fits limits) ((loginMachine limits).run fresh earlier) events) :
    Denied limits clientIp deadline clock ((loginMachine limits).run fresh earlier) events ↔
      (loginMachine limits).Meets (fun handler event => ¬handler.Forgets limits (key clientIp scope) deadline event)
        ((loginMachine limits).run fresh earlier) events := by
  rw [List.map_append] at ordered
  exact denied_iff (bounded_run past) blocked later (List.pairwise_append.mp ordered).2.1 fits

/-- Four failures late in the window of a first one block the client; one attempt is still being
    verified. -/
def guessing : List LoginEvent :=
  [⟨0, .attempt none⟩, ⟨1000, .rejected 0⟩] ++ List.replicate 5 ⟨600000, .attempt none⟩ ++
    List.replicate 4 ⟨600999, .rejected 0⟩

theorem guessing_denied : Denied .defaults none 1500999 600999
    ((loginMachine .defaults).run fresh guessing) [⟨600999, .rejected 0⟩] := by
  refine (blocked_denied_iff (by decide) (by decide) (by decide) (by decide) ?_).mpr ⟨?_, trivial⟩
  · refine ⟨?_, trivial⟩
    intro clientIp found
    cases found
    decide
  · rintro ⟨-, -, elapsed, -⟩
    cases elapsed

/-- The fifth failure arrives in a new window and lets the client in, with the block running. -/
theorem late_failure_unblocks :
    ¬∀ (limits : LoginRateLimits) (earlier events : List LoginEvent) (clientIp : Option String)
        (deadline clock : Nat),
      deadline ≤ ((loginMachine limits).run fresh earlier).entries.blockedUntil (key clientIp scope) →
        ((earlier ++ events).map LoginEvent.now).Pairwise (· ≤ ·) →
        (∀ event ∈ earlier, event.now ≤ clock) → (∀ event ∈ events, clock ≤ event.now) →
        (loginMachine limits).Meets (Fits limits) ((loginMachine limits).run fresh earlier) events →
        Denied limits clientIp deadline clock ((loginMachine limits).run fresh earlier) events := by
  intro claim
  have denied := claim .defaults guessing [⟨601000, .rejected 0⟩] none 1500999 600999 (by decide)
    (by decide) (by decide) (by decide) ?_ [⟨601000, .rejected 0⟩] [] rfl 601001 (by decide)
    (by decide) (by decide)
  · revert denied
    decide
  · refine ⟨?_, trivial⟩
    intro clientIp found
    cases found
    decide

end LoginHandler

end PlatformClaw.Browser
