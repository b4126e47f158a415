import PlatformClaw.Browser.Agreement

/-! # The requests of a release

A released connection's subscriptions are taken back one after the other, each request awaiting its answer. A
request that fails ends the release with what is left of it.
-/

namespace PlatformClaw.Browser

def Keyed (maps : List (ScriptMap SubscriptionParams)) : Prop :=
  ∀ (subscriptions : Nat) (map : ScriptMap SubscriptionParams), maps[subscriptions]? = some map →
    ∀ entry ∈ map.rows, subscriptionId entry.2.session = entry.1

namespace Registry

variable {registry : Registry}

theorem keyed_addSubscription (keyed : Keyed registry.maps) (connectionId : String)
    (params : SubscriptionParams) : Keyed (registry.addSubscription connectionId params).maps := by
  simp only [addSubscription]
  split
  · intro current map found
    rw [List.getElem?_modify] at found
    obtain ⟨before, old, rfl⟩ := Option.map_eq_some_iff.mp found
    split
    · exact keyed_set (keyed current before old) params
    · exact keyed current before old
  · intro current map found
    rcases Positions.getElem?_concat found with old | ⟨-, rfl⟩
    · exact keyed current map old
    · exact keyed_set (fun _ inMap => absurd inMap List.not_mem_nil) params

theorem keyed_dropSubscription (keyed : Keyed registry.maps) (connectionId id : String)
    (subscriptions : Option Nat) : Keyed (registry.dropSubscription connectionId id subscriptions).maps := by
  rcases registry.dropSubscription_cases connectionId id subscriptions with
    ⟨-, dropped⟩ | ⟨current, -, dropped | ⟨-, dropped⟩⟩ <;> rw [dropped]
  · exact keyed
  · exact keyed_remove keyed current id
  · exact keyed_remove keyed current id

theorem maps_releaseNext (registry : Registry) (entries : List (String × SubscriptionParams)) :
    (registry.releaseNext entries).maps = registry.maps := by
  induction entries with
  | nil => rfl
  | cons entry rest ih =>
    simp only [releaseNext]
    split
    · exact ih
    · rfl

theorem keyed_start (keyed : Keyed registry.maps) (operation : Operation) :
    Keyed (registry.start operation).maps := by
  cases operation with
  | subscribe connectionId params =>
    simp only [start]
    split
    · exact keyed
    · exact keyed
  | unsubscribe connectionId session =>
    simp only [start]
    split
    · split
      · exact keyed_dropSubscription keyed _ _ _
      · exact keyed
    · exact keyed
  | release released =>
    rw [start, maps_releaseNext]
    exact keyed

theorem keyed_resume (keyed : Keyed registry.maps) (next : Continuation) : Keyed (registry.resume next).maps := by
  cases next with
  | subscribed connectionId params =>
    simp only [resume]
    split
    · exact @keyed_addSubscription { registry with running := none } keyed connectionId params
    · split
      · exact keyed
      · exact keyed
  | undone => exact keyed
  | unsubscribed connectionId id subscriptions =>
    exact @keyed_dropSubscription { registry with running := none } keyed connectionId id subscriptions
  | released rest =>
    rw [resume, maps_releaseNext]
    exact keyed

theorem keyed_step (registry : Registry) (event : RegistryEvent) (keyed : Keyed registry.maps) :
    Keyed (registryMachine.step registry event).maps := by
  cases event with
  | registerConnection connectionId =>
    simp only [registryMachine, registerConnection]
    split
    · exact keyed
    · exact keyed
  | subscribe connectionId params => exact keyed
  | unsubscribe connectionId session => exact keyed
  | releaseConnection connectionId =>
    simp only [registryMachine, releaseConnection]
    split
    · exact keyed
    · exact keyed
  | advance =>
    simp only [registryMachine, advance]
    split
    · split
      · exact keyed_resume keyed _
      · exact keyed
    · split
      · exact keyed
      · rename_i operation rest _
        exact @keyed_start { registry with queue := rest } keyed operation
  | fail => exact keyed

theorem keyed_run (events : List RegistryEvent) : Keyed (registryMachine.run fresh events).maps :=
  Machine.run_invariant keyed_step (fun _ _ found => by cases found) events

end Registry

/-- What a release has still to look at. -/
def Continuation.remaining : Continuation → List (String × SubscriptionParams)
  | .released rest => rest
  | _ => []

/-- The entries a release begins with. -/
def Registry.releasedEntries (registry : Registry) (released : Option Nat) : List (String × SubscriptionParams) :=
  ((released.bind (registry.maps[·]?)).map (·.rows)).getD []

/-- The sessions of the requests that are on their way as long as an operation runs. -/
def attempts : Registry → List RegistryEvent → List String
  | registry, [] =>
    match registry.running with
    | none => []
    | some flight => [flight.request.id]
  | registry, event :: rest =>
    match registry.running with
    | none => []
    | some flight => flight.request.id :: attempts (registryMachine.step registry event) rest

/-- The operation that runs comes to its end. -/
def Ends : Registry → List RegistryEvent → Prop
  | registry, [] => registry.running = none
  | registry, event :: rest => registry.running = none ∨ Ends (registryMachine.step registry event) rest

/-- When a request of the operation fails, nothing is left to it that is owed. -/
def FailsLate (owed : String → Bool) : Registry → List RegistryEvent → Prop
  | _, [] => True
  | registry, event :: rest =>
    match registry.running with
    | none => True
    | some flight =>
      (event = .fail → ∀ entry ∈ flight.next.remaining, owed entry.1 = false) ∧
        FailsLate owed (registryMachine.step registry event) rest

section Course

variable {registry : Registry}

theorem releaseNext_cases (registry : Registry) (entries : List (String × SubscriptionParams)) :
    ∃ passed, (∀ entry ∈ passed, registry.isDesiredElsewhere entry.1 none = true) ∧
      ((entries = passed ∧ registry.releaseNext entries = { registry with running := none }) ∨
        ∃ entry rest, entries = passed ++ entry :: rest ∧
          registry.releaseNext entries = registry.send (.unsubscribe entry.2.withdrawn) (.released rest)) := by
  induction entries with
  | nil => exact ⟨[], fun _ none => absurd none List.not_mem_nil, .inl ⟨rfl, rfl⟩⟩
  | cons entry rest ih =>
    rw [Registry.releaseNext]
    split
    · rename_i elsewhere
      obtain ⟨passed, desired, reached⟩ := ih
      refine ⟨entry :: passed, List.forall_mem_cons.mpr ⟨elsewhere, desired⟩, ?_⟩
      obtain ⟨rfl, ended⟩ | ⟨next, later, rfl, sent⟩ := reached
      · exact .inl ⟨rfl, ended⟩
      · exact .inr ⟨next, later, rfl, sent⟩
    · exact ⟨[], fun _ none => absurd none List.not_mem_nil, .inr ⟨entry, rest, rfl, rfl⟩⟩

theorem step_aside (registry : Registry) {event : RegistryEvent} (answers : event ≠ .advance)
    (stays : event ≠ .fail) :
    (registryMachine.step registry event).running = registry.running ∧
      ∀ id, registry.isDesiredElsewhere id none = false →
        (registryMachine.step registry event).isDesiredElsewhere id none = false := by
  cases event with
  | registerConnection connectionId =>
    simp only [registryMachine, Registry.registerConnection]
    split
    · exact ⟨rfl, fun _ unwanted => unwanted⟩
    · exact ⟨rfl, fun _ unwanted => unwanted⟩
  | subscribe connectionId params => exact ⟨rfl, fun _ unwanted => unwanted⟩
  | unsubscribe connectionId session => exact ⟨rfl, fun _ unwanted => unwanted⟩
  | releaseConnection connectionId =>
    simp only [registryMachine, Registry.releaseConnection]
    split
    · exact ⟨rfl, fun _ unwanted => unwanted⟩
    · refine ⟨rfl, fun id unwanted => ?_⟩
      rw [Bool.eq_false_iff] at unwanted ⊢
      intro wanted
      obtain ⟨other, different, desired⟩ := Registry.isDesiredElsewhere_iff.mp wanted
      obtain ⟨subscriptions, found, has⟩ := Registry.desires_iff.mp desired
      apply unwanted
      refine Registry.isDesiredElsewhere_iff.mpr ⟨other, different, Registry.desires_iff.mpr ⟨subscriptions, ?_, has⟩⟩
      change (registry.desired.remove connectionId).get other = some subscriptions at found
      rw [ScriptMap.get_remove] at found
      split at found
      · cases found
      · exact found
  | advance => exact absurd rfl answers
  | fail => exact absurd rfl stays

theorem attempts_idle (idle : registry.running = none) (events : List RegistryEvent) :
    attempts registry events = [] := by
  cases events <;> simp [attempts, idle]

theorem failsLate_idle (owed : String → Bool) (idle : registry.running = none) (events : List RegistryEvent) :
    FailsLate owed registry events := by
  cases events <;> simp [FailsLate, idle]

theorem mem_attempts {flight : Flight} (running : registry.running = some flight) (events : List RegistryEvent) :
    flight.request.id ∈ attempts registry events := by
  cases events <;> simp [attempts, running]

theorem releaseNext_attempts {owed : String → Bool} {entries : List (String × SubscriptionParams)}
    {events : List RegistryEvent}
    (unwanted : ∀ id, owed id = true → registry.isDesiredElsewhere id none = false)
    (keyed : ∀ entry ∈ entries, subscriptionId entry.2.session = entry.1)
    (sent : ∀ {entry : String × SubscriptionParams} {passed rest : List (String × SubscriptionParams)},
      entries = passed ++ entry :: rest →
        registry.releaseNext entries = registry.send (.unsubscribe entry.2.withdrawn) (.released rest) →
          ((∀ entry ∈ rest, owed entry.1 = true → entry.1 ∈ attempts (registry.releaseNext entries) events) ↔
            FailsLate owed (registry.releaseNext entries) events)) :
    (∀ entry ∈ entries, owed entry.1 = true → entry.1 ∈ attempts (registry.releaseNext entries) events) ↔
      FailsLate owed (registry.releaseNext entries) events := by
  obtain ⟨passed, desired, reached⟩ := releaseNext_cases registry entries
  have free : ∀ entry ∈ passed, owed entry.1 = false := by
    intro entry isPassed
    rw [Bool.eq_false_iff]
    intro isOwed
    have elsewhere := desired entry isPassed
    rw [unwanted entry.1 isOwed] at elsewhere
    cases elsewhere
  obtain ⟨rfl, ended⟩ | ⟨next, rest, parts, sending⟩ := reached
  · rw [ended]
    constructor
    · exact fun _ => failsLate_idle owed rfl events
    · intro _ entry inEntries isOwed
      rw [free entry inEntries] at isOwed
      cases isOwed
  · rw [← sent parts sending]
    have first : next.1 ∈ attempts (registry.releaseNext entries) events := by
      have named : (GatewayRequest.unsubscribe next.2.withdrawn).id = next.1 := by
        rw [GatewayRequest.id, next.2.withdrawn_eq]
        exact keyed next (by rw [parts]; exact List.mem_append_right _ List.mem_cons_self)
      rw [← named, sending]
      exact @mem_attempts (registry.send (.unsubscribe next.2.withdrawn) (.released rest))
        ⟨.unsubscribe next.2.withdrawn, false, .released rest⟩ rfl events
    constructor
    · intro all entry inRest isOwed
      exact all entry (by rw [parts]; exact List.mem_append_right _ (List.mem_cons_of_mem _ inRest)) isOwed
    · intro all entry inEntries isOwed
      rw [parts] at inEntries
      obtain isPassed | here := List.mem_append.mp inEntries
      · rw [free entry isPassed] at isOwed
        cases isOwed
      · obtain rfl | inRest := List.mem_cons.mp here
        · exact first
        · exact all entry inRest isOwed

theorem course {owed : String → Bool} {flight : Flight} {rest : List (String × SubscriptionParams)}
    {events : List RegistryEvent} (running : registry.running = some flight) (next : flight.next = .released rest)
    (distinct : (flight.request.id :: rest.map Prod.fst).Nodup)
    (keyed : ∀ entry ∈ rest, subscriptionId entry.2.session = entry.1)
    (unwanted : ∀ id, owed id = true → registry.isDesiredElsewhere id none = false)
    (ends : Ends registry events) :
    (∀ entry ∈ rest, owed entry.1 = true → entry.1 ∈ attempts registry events) ↔ FailsLate owed registry events := by
  induction events generalizing registry flight rest with
  | nil =>
    rw [Ends, running] at ends
    cases ends
  | cons event later ih =>
    have other : ∀ entry ∈ rest, entry.1 ≠ flight.request.id := by
      intro entry inRest same
      exact (List.nodup_cons.mp distinct).1 (same ▸ List.mem_map_of_mem inRest)
    have going : Ends (registryMachine.step registry event) later := by
      rw [Ends, running] at ends
      exact ends.resolve_left fun none => by cases none
    have further : (∀ entry ∈ rest, owed entry.1 = true → entry.1 ∈ attempts registry (event :: later)) ↔
        ∀ entry ∈ rest, owed entry.1 = true → entry.1 ∈ attempts (registryMachine.step registry event) later := by
      refine forall₂_congr fun entry inRest => imp_congr_right fun _ => ?_
      simp [attempts, running, other entry inRest]
    rw [further]
    simp only [FailsLate, running, next, Continuation.remaining]
    by_cases fails : event = .fail
    · subst fails
      have idle : (registryMachine.step registry .fail).running = none := rfl
      rw [attempts_idle idle]
      constructor
      · intro all
        refine ⟨fun _ entry inRest => Bool.eq_false_iff.mpr fun isOwed => ?_, failsLate_idle owed idle later⟩
        exact absurd (all entry inRest isOwed) List.not_mem_nil
      · rintro ⟨none, -⟩ entry inRest isOwed
        rw [none rfl entry inRest] at isOwed
        cases isOwed
    · rw [and_iff_right fun same => absurd same fails]
      by_cases answers : event = .advance
      · subst answers
        cases applied : flight.applied with
        | false =>
          have step : registryMachine.step registry .advance =
              { registry with
                upstream := flight.request.apply registry.upstream
                running := some { flight with applied := true } } := by
            simp [registryMachine, Registry.advance, running, applied]
          rw [step] at going ⊢
          exact ih rfl next distinct keyed unwanted going
        | true =>
          have step : registryMachine.step registry .advance = registry.releaseNext rest := by
            simp [registryMachine, Registry.advance, running, applied, next, Registry.resume]
          rw [step] at going ⊢
          refine releaseNext_attempts unwanted keyed fun {entry passed others} parts sending => ?_
          rw [sending] at going ⊢
          rw [parts] at keyed distinct
          have within := List.forall_mem_append.mp keyed
          have named : (GatewayRequest.unsubscribe entry.2.withdrawn).id = entry.1 := by
            rw [GatewayRequest.id, entry.2.withdrawn_eq]
            exact within.2 entry List.mem_cons_self
          refine ih rfl rfl ?_ (fun other inOthers => within.2 other (List.mem_cons_of_mem _ inOthers))
            unwanted going
          rw [named]
          rw [List.map_append, List.map_cons, List.nodup_cons] at distinct
          exact (List.nodup_append.mp distinct.2).2.1
      · obtain ⟨same, shrinks⟩ := step_aside registry answers fails
        exact ih (same.trans running) next distinct keyed (fun id isOwed => shrinks id (unwanted id isOwed)) going

end Course

theorem releasedEntries_spec {registry : Registry} (keyed : Keyed registry.maps) (released : Option Nat) :
    (∀ entry ∈ registry.releasedEntries released, subscriptionId entry.2.session = entry.1) ∧
      ((registry.releasedEntries released).map Prod.fst).Nodup := by
  unfold Registry.releasedEntries
  cases found : released.bind (registry.maps[·]?) with
  | none => exact ⟨fun _ none => absurd none List.not_mem_nil, List.nodup_nil⟩
  | some map =>
    obtain ⟨subscriptions, -, own⟩ := Option.bind_eq_some_iff.mp found
    exact ⟨keyed subscriptions map own, List.pairwise_map.mpr map.keyed⟩

theorem advance_idle {registry : Registry} (idle : registry.running = none) {operation : Operation}
    {waiting : List Operation} (queue : registry.queue = operation :: waiting) :
    registryMachine.step registry .advance = { registry with queue := waiting }.start operation := by
  simp [registryMachine, Registry.advance, idle, queue]

/-- A release asks to take back every session that its connection desired and nobody else does just when none of
them is left to it at a request that fails. -/
theorem release_is_complete_iff (earlier events : List RegistryEvent) (released : Option Nat)
    (waiting : List Operation)
    (idle : (registryMachine.run .fresh earlier).running = none)
    (queue : (registryMachine.run .fresh earlier).queue = .release released :: waiting)
    (ends : Ends (registryMachine.step (registryMachine.run .fresh earlier) .advance) events) :
    let registry := registryMachine.run .fresh earlier
    let begun := registryMachine.step registry .advance
    (∀ entry ∈ registry.releasedEntries released,
        registry.isDesiredElsewhere entry.1 none = false → entry.1 ∈ attempts begun events) ↔
      FailsLate (fun id => !registry.isDesiredElsewhere id none) begun events := by
  intro registry begun
  obtain ⟨keyed, distinct⟩ := releasedEntries_spec (Registry.keyed_run earlier) released
  have start : begun = { registry with queue := waiting }.releaseNext (registry.releasedEntries released) :=
    advance_idle idle queue
  have unwanted : ∀ id, (!registry.isDesiredElsewhere id none) = true →
      { registry with queue := waiting }.isDesiredElsewhere id none = false :=
    fun id isOwed => Bool.not_eq_true' _ ▸ isOwed
  have asked : ∀ entry ∈ registry.releasedEntries released,
      ((!registry.isDesiredElsewhere entry.1 none) = true ↔ registry.isDesiredElsewhere entry.1 none = false) :=
    fun entry _ => by rw [Bool.not_eq_true']
  change Ends begun events at ends
  rw [start] at ends ⊢
  rw [← releaseNext_attempts unwanted keyed]
  · exact forall₂_congr fun entry inEntries => by rw [asked entry inEntries]
  · intro entry passed rest parts sending
    rw [sending] at ends ⊢
    rw [parts] at keyed distinct
    have within := List.forall_mem_append.mp keyed
    have named : (GatewayRequest.unsubscribe entry.2.withdrawn).id = entry.1 := by
      rw [GatewayRequest.id, entry.2.withdrawn_eq]
      exact within.2 entry List.mem_cons_self
    have apart : ((GatewayRequest.unsubscribe entry.2.withdrawn).id :: rest.map Prod.fst).Nodup := by
      rw [List.map_append, List.map_cons] at distinct
      rw [named]
      exact (List.nodup_append.mp distinct).2.1
    exact @course ({ registry with queue := waiting }.send (.unsubscribe entry.2.withdrawn) (.released rest)) _
      ⟨.unsubscribe entry.2.withdrawn, false, .released rest⟩ rest events rfl rfl apart
      (fun other inOthers => within.2 other (List.mem_cons_of_mem _ inOthers)) unwanted ends

theorem no_agent : (none : Option String) ≠ some "" := fun same => Option.some_ne_none "" same.symm

def session (key : String) : SubscriptionParams where
  session := { key, agentId := none, named := no_agent }
  includeApprovals := false

/-- A connection subscribes to two sessions and is released. -/
def twoSessions : List RegistryEvent :=
  [.registerConnection "browser", .subscribe "browser" (session "a"), .advance, .advance, .advance,
    .subscribe "browser" (session "b"), .advance, .advance, .advance, .releaseConnection "browser"]

/-- The second request fails, with nothing after it. -/
theorem release_is_complete_last :
    let registry := registryMachine.run .fresh twoSessions
    let begun := registryMachine.step registry .advance
    (∀ entry ∈ registry.releasedEntries (some 0), registry.isDesiredElsewhere entry.1 none = false →
          entry.1 ∈ attempts begun [.advance, .advance, .fail]) ↔
      FailsLate (fun id => !registry.isDesiredElsewhere id none) begun [.advance, .advance, .fail] :=
  release_is_complete_iff twoSessions [.advance, .advance, .fail] (some 0) [] rfl rfl (.inr (.inr (.inr rfl)))

/-- The first request fails, and the other session stays with the Gateway. -/
theorem release_ends_early :
    ¬ ∀ (earlier events : List RegistryEvent) (released : Option Nat) (waiting : List Operation),
      (registryMachine.run .fresh earlier).running = none →
        (registryMachine.run .fresh earlier).queue = .release released :: waiting →
          Ends (registryMachine.step (registryMachine.run .fresh earlier) .advance) events →
            ∀ entry ∈ (registryMachine.run .fresh earlier).releasedEntries released,
              (registryMachine.run .fresh earlier).isDesiredElsewhere entry.1 none = false →
                entry.1 ∈ attempts (registryMachine.step (registryMachine.run .fresh earlier) .advance) events := by
  intro complete
  have asked := complete twoSessions [.fail] (some 0) [] rfl rfl (.inr rfl)
  revert asked
  decide +kernel

end PlatformClaw.Browser
