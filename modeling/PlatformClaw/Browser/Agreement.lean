import PlatformClaw.Browser.Subscriptions
import PlatformClaw.Library.Positions

/-! # Subscriptions agree with what browsers desire

While requests succeed, the Gateway sends the messages of every session that a
registered connection desires, and once the operations are through, of no other.
What it still sends without anybody desiring it is owed by an operation: by the
one that awaits an answer, or by a release that waits.
-/

namespace PlatformClaw.Browser

def GatewayRequest.id : GatewayRequest → String
  | .subscribe params => subscriptionId params.session
  | .unsubscribe session => subscriptionId session

/-- The agent of a request is not empty, so taking it back names the same session. -/
theorem SubscriptionParams.withdrawn_eq (params : SubscriptionParams) : params.withdrawn = params.session := by
  have named := params.session.named
  cases session : params.session with
  | mk key agentId _ =>
    rw [session] at named
    cases agentId with
    | none => simp [withdrawn, session]
    | some agent =>
      have nonempty : agent ≠ "" := fun empty => named (congrArg some empty)
      simp [withdrawn, session, Option.filter, nonempty]

section Maps

variable {maps : List (ScriptMap SubscriptionParams)}

theorem hasSubscription_set (subscriptions : Nat) (params : SubscriptionParams) (id : String)
    (other : Nat) (id' : String) :
    hasSubscription (maps.modify subscriptions fun map => map.set id params) other id' = true ↔
      hasSubscription maps other id' = true ∨ (other = subscriptions ∧ id' = id ∧ subscriptions < maps.length) := by
  simp only [hasSubscription, List.getElem?_modify, Option.map_eq_map]
  cases found : maps[other]? with
  | none =>
    have outside := List.getElem?_eq_none_iff.mp found
    simp
    omega
  | some map =>
    have inside := (List.getElem?_eq_some_iff.mp found).1
    by_cases same : subscriptions = other
    · simp only [same, if_true, Option.map_some, Option.any_some, ScriptMap.has_set,
        Bool.or_eq_true, decide_eq_true_eq]
      grind
    · simp [same, Ne.symm same]

theorem hasSubscription_remove (subscriptions : Nat) (id : String) (other : Nat) (id' : String) :
    hasSubscription (maps.modify subscriptions fun map => map.remove id) other id' = true ↔
      hasSubscription maps other id' = true ∧ ¬(other = subscriptions ∧ id' = id) := by
  simp only [hasSubscription, List.getElem?_modify, Option.map_eq_map]
  cases found : maps[other]? with
  | none => simp
  | some map =>
    by_cases same : subscriptions = other
    · simp only [same, if_true, Option.map_some, Option.any_some, ScriptMap.has_remove, Bool.and_eq_true]
      grind
    · simp [same, Ne.symm same]

theorem hasSubscription_new (params : SubscriptionParams) (id : String) (other : Nat) (id' : String) :
    hasSubscription (maps ++ [ScriptMap.empty.set id params]) other id' = true ↔
      hasSubscription maps other id' = true ∨ (other = maps.length ∧ id' = id) := by
  simp only [hasSubscription]
  rcases Nat.lt_trichotomy other maps.length with old | rfl | outside
  · rw [List.getElem?_append_left old]
    simp [Nat.ne_of_lt old]
  · have absent : maps[maps.length]? = none := List.getElem?_eq_none_iff.mpr (Nat.le_refl _)
    rw [List.getElem?_concat_length, absent, Option.any_some, ScriptMap.has_set]
    simp only [ScriptMap.has, ScriptMap.get_empty, Bool.or_eq_true, decide_eq_true_eq]
    grind
  · have absent : maps[other]? = none := List.getElem?_eq_none_iff.mpr (Nat.le_of_lt outside)
    have absent' : (maps ++ [ScriptMap.empty.set id params])[other]? = none := by
      refine List.getElem?_eq_none_iff.mpr ?_
      rw [List.length_append, List.length_singleton]
      exact outside
    rw [absent, absent']
    simp [Nat.ne_of_gt outside]

end Maps

namespace Registry

variable {registry : Registry} {connectionId id : String}

def desires (registry : Registry) (connectionId id : String) : Bool :=
  (registry.desired.get connectionId).any fun subscriptions =>
    hasSubscription registry.maps subscriptions id

theorem desires_iff : registry.desires connectionId id = true ↔ ∃ subscriptions,
    registry.desired.get connectionId = some subscriptions ∧
      hasSubscription registry.maps subscriptions id = true := by
  simp [desires, Option.any_eq_true]

theorem isDesiredElsewhere_iff {excluded : Option String} :
    registry.isDesiredElsewhere id excluded = true ↔ ∃ connectionId,
      some connectionId ≠ excluded ∧ registry.desires connectionId id = true := by
  simp only [isDesiredElsewhere, List.any_eq_true, Bool.and_eq_true, decide_eq_true_eq, desires_iff,
    ScriptMap.get_eq_some_iff]
  constructor
  · rintro ⟨⟨connectionId, subscriptions⟩, inDesired, other, has⟩
    exact ⟨connectionId, other, subscriptions, inDesired, has⟩
  · rintro ⟨connectionId, other, subscriptions, inDesired, has⟩
    exact ⟨⟨connectionId, subscriptions⟩, inDesired, other, has⟩

/-- A release that waits will look at the session. -/
def Queued (registry : Registry) (id : String) : Prop :=
  ∃ subscriptions, .release (some subscriptions) ∈ registry.queue ∧
    hasSubscription registry.maps subscriptions id = true

/-- Every registered connection has a map of its own, whose entries are named by their session. -/
structure Linked (registry : Registry) : Prop where
  registered : ∀ connectionId subscriptions, registry.desired.get connectionId = some subscriptions →
      connectionId ∈ registry.activeConnections
  allocated : ∀ connectionId subscriptions,
    registry.desired.get connectionId = some subscriptions → subscriptions < registry.maps.length
  separate : ∀ left right subscriptions, registry.desired.get left = some subscriptions →
    registry.desired.get right = some subscriptions → left = right
  keyed : ∀ (subscriptions : Nat) (map : ScriptMap SubscriptionParams), registry.maps[subscriptions]? = some map →
      ∀ entry ∈ map.rows, subscriptionId entry.2.session = entry.1

/-- The queue, the running operation and the Gateway do not matter to it. -/
theorem Linked.congr {later : Registry} (linked : registry.Linked)
    (active : ∀ other ∈ registry.activeConnections, other ∈ later.activeConnections)
    (desired : later.desired = registry.desired) (maps : later.maps = registry.maps) :
    later.Linked where
  registered := by
    rw [desired]
    exact fun other own found => active other (linked.registered other own found)
  allocated := by
    rw [desired, maps]
    exact linked.allocated
  separate := by
    rw [desired]
    exact linked.separate
  keyed := by
    rw [maps]
    exact linked.keyed

/-- The registry apart from the operation that runs: that one owes some sessions, and has freed
    one that its own connection still desires. -/
structure Steady (registry : Registry) (owed : String → Prop) (freed : String → String → Prop) :
    Prop where
  linked : registry.Linked
  covered : ∀ connectionId id, registry.desires connectionId id = true →
    id ∈ registry.upstream ∨ freed connectionId id
  handled : ∀ id ∈ registry.upstream,
    (∃ connectionId, registry.desires connectionId id = true) ∨ registry.Queued id ∨ owed id

end Registry

def Continuation.owes : Continuation → String → Prop
  | .subscribed _ params, id => subscriptionId params.session = id
  | .released rest, id => ∃ params, (id, params) ∈ rest
  | .undone, _ | .unsubscribed .., _ => False

namespace Flight

def owes (flight : Flight) (id : String) : Prop :=
  (flight.applied = false ∧ flight.request.id = id) ∨ flight.next.owes id

/-- The Gateway has taken back what the connection is about to drop. -/
def frees (flight : Flight) (connectionId id : String) : Prop :=
  flight.applied = true ∧ ∃ subscriptions, flight.next = .unsubscribed connectionId id subscriptions

/-- What holds while a request is on its way. -/
inductive Sound (registry : Registry) : Flight → Prop
  | subscribing {connectionId : String} {params : SubscriptionParams} {applied : Bool}
      (done : applied = true → subscriptionId params.session ∈ registry.upstream) :
      Sound registry ⟨.subscribe params, applied, .subscribed connectionId params⟩
  | undoing {session : SessionRef} {applied : Bool}
      (unwanted : ∀ other, registry.desires other (subscriptionId session) = false)
      (done : applied = true → subscriptionId session ∉ registry.upstream) :
      Sound registry ⟨.unsubscribe session, applied, .undone⟩
  | unsubscribing {connectionId : String} {session : SessionRef} {subscriptions : Option Nat}
      {applied : Bool}
      (own : ∀ other, registry.desires other (subscriptionId session) = true → other = connectionId)
      (captured : ∀ current, registry.desired.get connectionId = some current → subscriptions = some current)
      (done : applied = true → subscriptionId session ∉ registry.upstream) :
      Sound registry ⟨.unsubscribe session, applied,
        .unsubscribed connectionId (subscriptionId session) subscriptions⟩
  | releasing {session : SessionRef} {rest : List (String × SubscriptionParams)} {applied : Bool}
      (unwanted : ∀ other, registry.desires other (subscriptionId session) = false)
      (keyed : ∀ entry ∈ rest, subscriptionId entry.2.session = entry.1)
      (done : applied = true → subscriptionId session ∉ registry.upstream) :
      Sound registry ⟨.unsubscribe session, applied, .released rest⟩

end Flight

namespace Registry

variable {registry : Registry} {connectionId id : String}

/-- The registry with the operation that runs, if one does. -/
structure Agrees (registry : Registry) : Prop where
  steady : registry.Steady (fun id => ∃ flight, registry.running = some flight ∧ flight.owes id)
    (fun connectionId id => ∃ flight, registry.running = some flight ∧
      flight.frees connectionId id)
  sound : ∀ flight, registry.running = some flight → flight.Sound registry

/-- Nothing is owed and nothing is freed. -/
abbrev Settled (registry : Registry) : Prop :=
  registry.Steady (fun _ => False) fun _ _ => False

theorem Settled.agrees (settled : registry.Settled) (idle : registry.running = none) : registry.Agrees where
  steady :=
    { linked := settled.linked
      covered := fun connectionId id desired => (settled.covered connectionId id desired).imp_right False.elim
      handled := fun id sent => (settled.handled id sent).imp_right fun owed =>
        owed.imp_right False.elim }
  sound := fun _ running => nomatch idle.symm.trans running

theorem Agrees.settled (agrees : registry.Agrees) (idle : registry.running = none) : registry.Settled where
  linked := agrees.steady.linked
  covered := by
    intro connectionId id desired
    refine (agrees.steady.covered connectionId id desired).imp_right ?_
    rintro ⟨flight, running, -⟩
    cases idle.symm.trans running
  handled := by
    intro id sent
    refine (agrees.steady.handled id sent).imp_right fun owed => owed.imp_right ?_
    rintro ⟨flight, running, -⟩
    cases idle.symm.trans running

theorem agrees_fresh : fresh.Agrees :=
  Settled.agrees
    { linked :=
        { registered := fun _ _ found => nomatch found
          allocated := fun _ _ found => nomatch found
          separate := fun _ _ _ found => nomatch found
          keyed := fun _ _ found => nomatch found }
      covered := fun _ _ desired => nomatch desired
      handled := fun _ sent => nomatch sent } rfl

section Add

variable {freed : String → String → Prop} {params : SubscriptionParams}

theorem Linked.desires_addSubscription (linked : registry.Linked) (other id' : String) :
    (registry.addSubscription connectionId params).desires other id' = true ↔ registry.desires other id' = true ∨
        (other = connectionId ∧ id' = subscriptionId params.session) := by
  simp only [addSubscription]
  split
  · rename_i subscriptions found
    simp only [desires_iff, hasSubscription_set]
    constructor
    · rintro ⟨current, desired, has | ⟨rfl, rfl, -⟩⟩
      · exact .inl ⟨current, desired, has⟩
      · exact .inr ⟨linked.separate _ _ _ desired found, rfl⟩
    · rintro (⟨current, desired, has⟩ | ⟨rfl, rfl⟩)
      · exact ⟨current, desired, .inl has⟩
      · exact ⟨subscriptions, found, .inr ⟨rfl, rfl, linked.allocated _ _ found⟩⟩
  · rename_i absent
    simp only [desires_iff, hasSubscription_new, ScriptMap.get_set]
    constructor
    · rintro ⟨current, desired, has⟩
      split at desired
      · rename_i same
        cases desired
        rcases has with has | ⟨-, rfl⟩
        · simp [hasSubscription] at has
        · exact .inr ⟨same.symm, rfl⟩
      · rcases has with has | ⟨rfl, -⟩
        · exact .inl ⟨current, desired, has⟩
        · exact absurd (linked.allocated _ _ desired) (Nat.lt_irrefl _)
    · rintro (⟨current, desired, has⟩ | ⟨rfl, rfl⟩)
      · refine ⟨current, ?_, .inl has⟩
        rw [if_neg, desired]
        rintro rfl
        cases absent.symm.trans desired
      · exact ⟨registry.maps.length, if_pos rfl, .inr ⟨rfl, rfl⟩⟩

theorem Queued.addSubscription (queued : registry.Queued id) (connectionId : String)
    (params : SubscriptionParams) : (registry.addSubscription connectionId params).Queued id := by
  obtain ⟨subscriptions, waits, has⟩ := queued
  simp only [Registry.addSubscription]
  split
  · exact ⟨subscriptions, waits, (hasSubscription_set ..).mpr (.inl has)⟩
  · exact ⟨subscriptions, waits, (hasSubscription_new ..).mpr (.inl has)⟩

theorem keyed_set {map : ScriptMap SubscriptionParams}
    (keyed : ∀ entry ∈ map.rows, subscriptionId entry.2.session = entry.1)
    (params : SubscriptionParams) :
    ∀ entry ∈ (map.set (subscriptionId params.session) params).rows, subscriptionId entry.2.session = entry.1 := by
  rintro ⟨id, changed⟩ inMap
  have found := ScriptMap.get_eq_some_iff.mpr inMap
  rw [ScriptMap.get_set] at found
  split at found
  · rename_i same
    cases found
    exact same
  · exact keyed (id, changed) (ScriptMap.get_eq_some_iff.mp found)

theorem Linked.addSubscription (linked : registry.Linked)
    (active : connectionId ∈ registry.activeConnections) (params : SubscriptionParams) :
    (registry.addSubscription connectionId params).Linked := by
  simp only [Registry.addSubscription]
  split
  · refine { linked with allocated := ?_, keyed := ?_ }
    · intro other current desired
      rw [List.length_modify]
      exact linked.allocated other current desired
    · intro current map found
      rw [List.getElem?_modify] at found
      obtain ⟨before, old, rfl⟩ := Option.map_eq_some_iff.mp found
      have keyed := linked.keyed current before old
      split
      · exact keyed_set keyed params
      · exact keyed
  · refine { registered := ?_, allocated := ?_, separate := ?_, keyed := ?_ }
    · intro other current desired
      rw [ScriptMap.get_set] at desired
      split at desired
      · rename_i same
        exact same ▸ active
      · exact linked.registered other current desired
    · intro other current desired
      rw [ScriptMap.get_set] at desired
      rw [List.length_append, List.length_singleton]
      split at desired
      · cases desired
        exact Nat.lt_succ_self _
      · exact Nat.lt_succ_of_lt (linked.allocated other current desired)
    · intro left right current desiredLeft desiredRight
      rw [ScriptMap.get_set] at desiredLeft desiredRight
      split at desiredLeft <;> split at desiredRight
      · rename_i sameLeft sameRight
        exact sameLeft.symm.trans sameRight
      · cases desiredLeft
        exact absurd (linked.allocated _ _ desiredRight) (Nat.lt_irrefl _)
      · cases desiredRight
        exact absurd (linked.allocated _ _ desiredLeft) (Nat.lt_irrefl _)
      · exact linked.separate left right current desiredLeft desiredRight
    · intro current map found
      rcases Positions.getElem?_concat found with old | ⟨-, rfl⟩
      · exact linked.keyed current map old
      · exact keyed_set (fun _ inMap => absurd inMap List.not_mem_nil) params

theorem addSubscription_upstream (registry : Registry) (connectionId : String) (params : SubscriptionParams) :
    (registry.addSubscription connectionId params).upstream = registry.upstream := by
  simp only [Registry.addSubscription]
  split <;> rfl

theorem addSubscription_running (registry : Registry) (connectionId : String) (params : SubscriptionParams) :
    (registry.addSubscription connectionId params).running = registry.running := by
  simp only [Registry.addSubscription]
  split <;> rfl

theorem Steady.addSubscription (steady : registry.Steady (subscriptionId params.session = ·) freed)
    (unfreed : ∀ connectionId id, ¬freed connectionId id)
    (active : connectionId ∈ registry.activeConnections)
    (sent : subscriptionId params.session ∈ registry.upstream) :
    (registry.addSubscription connectionId params).Settled where
  linked := steady.linked.addSubscription active params
  covered := by
    intro other id desired
    rw [addSubscription_upstream]
    rcases (steady.linked.desires_addSubscription other id).mp desired with old | ⟨-, rfl⟩
    · exact .inl ((steady.covered other id old).resolve_right (unfreed other id))
    · exact .inl sent
  handled := by
    intro id there
    rw [addSubscription_upstream] at there
    rcases steady.handled id there with ⟨other, desired⟩ | waits | rfl
    · exact .inl ⟨other, (steady.linked.desires_addSubscription other id).mpr (.inl desired)⟩
    · exact .inr (.inl (waits.addSubscription connectionId params))
    · exact .inl ⟨connectionId, (steady.linked.desires_addSubscription _ _).mpr (.inr ⟨rfl, rfl⟩)⟩

end Add

section Drop

variable {owed : String → Prop} {subscriptions : Option Nat}

/-- What dropping a session changes: its entry goes, and the map with it if it is empty then. -/
theorem dropSubscription_cases (registry : Registry) (connectionId id : String) (subscriptions : Option Nat) :
    (subscriptions = none ∧ registry.dropSubscription connectionId id subscriptions = registry) ∨
      ∃ current, subscriptions = some current ∧ (registry.dropSubscription connectionId id subscriptions =
            { registry with maps := registry.maps.modify current fun map => map.remove id } ∨
          (∀ other, hasSubscription (registry.maps.modify current fun map => map.remove id) current other = false) ∧
            registry.dropSubscription connectionId id subscriptions =
              { registry with
                maps := registry.maps.modify current fun map => map.remove id
                desired := registry.desired.remove connectionId }) := by
  cases subscriptions with
  | none => exact .inl ⟨rfl, rfl⟩
  | some current =>
    refine .inr ⟨current, rfl, ?_⟩
    simp only [dropSubscription]
    split
    · rename_i empty
      refine .inr ⟨?_, rfl⟩
      intro other
      cases found : (registry.maps.modify current fun map => map.remove id)[current]? with
      | none => simp [hasSubscription, found]
      | some map =>
        simp only [found, Option.any_some, List.isEmpty_iff] at empty
        simp [hasSubscription, found, ScriptMap.has, ScriptMap.get, Table.lookup, empty]
    · exact .inl rfl

theorem desires_of_drop (captured : ∀ current, registry.desired.get connectionId = some current →
      subscriptions = some current) {other id' : String}
    (desired : (registry.dropSubscription connectionId id subscriptions).desires other id' = true) :
    registry.desires other id' = true ∧ ¬(other = connectionId ∧ id' = id) := by
  rcases registry.dropSubscription_cases connectionId id subscriptions with
    ⟨rfl, dropped⟩ | ⟨current, rfl, dropped | ⟨-, dropped⟩⟩ <;> rw [dropped, desires_iff] at desired
  · obtain ⟨own, found, has⟩ := desired
    refine ⟨desires_iff.mpr ⟨own, found, has⟩, ?_⟩
    rintro ⟨rfl, -⟩
    cases captured own found
  · obtain ⟨own, found, has⟩ := desired
    obtain ⟨has, apart⟩ := (hasSubscription_remove ..).mp has
    refine ⟨desires_iff.mpr ⟨own, found, has⟩, ?_⟩
    rintro ⟨rfl, rfl⟩
    exact apart ⟨(Option.some.inj (captured own found)).symm, rfl⟩
  · obtain ⟨own, found, has⟩ := desired
    obtain ⟨has, -⟩ := (hasSubscription_remove ..).mp has
    rw [ScriptMap.get_remove] at found
    split at found
    · cases found
    · rename_i different
      exact ⟨desires_iff.mpr ⟨own, found, has⟩, fun same => different same.1.symm⟩

theorem desires_drop (captured : ∀ current, registry.desired.get connectionId = some current →
      subscriptions = some current) {other id' : String}
    (desired : registry.desires other id' = true)
    (apart : id' ≠ id ∨ ∀ current, registry.desired.get other = some current → subscriptions ≠ some current) :
    (registry.dropSubscription connectionId id subscriptions).desires other id' = true := by
  obtain ⟨own, found, has⟩ := desires_iff.mp desired
  rcases registry.dropSubscription_cases connectionId id subscriptions with
    ⟨rfl, dropped⟩ | ⟨current, rfl, changed⟩
  · rwa [dropped]
  have kept : hasSubscription (registry.maps.modify current fun map => map.remove id) own id' = true := by
    refine (hasSubscription_remove ..).mpr ⟨has, ?_⟩
    rintro ⟨rfl, rfl⟩
    rcases apart with different | different
    · exact different rfl
    · exact different own found rfl
  rcases changed with dropped | ⟨empty, dropped⟩ <;> rw [dropped, desires_iff]
  · exact ⟨own, found, kept⟩
  · refine ⟨own, ?_, kept⟩
    rw [ScriptMap.get_remove, if_neg, found]
    rintro rfl
    cases captured own found
    cases (empty id').symm.trans kept

theorem Queued.drop (queued : registry.Queued id) {id' : String} (apart : id ≠ id')
    (connectionId : String) (subscriptions : Option Nat) :
    (registry.dropSubscription connectionId id' subscriptions).Queued id := by
  obtain ⟨own, waits, has⟩ := queued
  rcases registry.dropSubscription_cases connectionId id' subscriptions with
    ⟨-, dropped⟩ | ⟨current, -, dropped | ⟨-, dropped⟩⟩ <;> rw [dropped]
  · exact ⟨own, waits, has⟩
  · exact ⟨own, waits, (hasSubscription_remove ..).mpr ⟨has, fun same => apart same.2⟩⟩
  · exact ⟨own, waits, (hasSubscription_remove ..).mpr ⟨has, fun same => apart same.2⟩⟩

theorem dropSubscription_upstream (registry : Registry) (connectionId id : String) (subscriptions : Option Nat) :
    (registry.dropSubscription connectionId id subscriptions).upstream = registry.upstream ∧
      (registry.dropSubscription connectionId id subscriptions).running = registry.running := by
  rcases registry.dropSubscription_cases connectionId id subscriptions with
    ⟨-, dropped⟩ | ⟨current, -, dropped | ⟨-, dropped⟩⟩ <;> rw [dropped] <;> exact ⟨rfl, rfl⟩

theorem keyed_remove {maps : List (ScriptMap SubscriptionParams)}
    (keyed : ∀ (subscriptions : Nat) (map : ScriptMap SubscriptionParams),
      maps[subscriptions]? = some map → ∀ entry ∈ map.rows, subscriptionId entry.2.session = entry.1)
    (current : Nat) (id : String) (subscriptions : Nat) (map : ScriptMap SubscriptionParams)
    (found : (maps.modify current fun map => map.remove id)[subscriptions]? = some map) :
    ∀ entry ∈ map.rows, subscriptionId entry.2.session = entry.1 := by
  rw [List.getElem?_modify] at found
  obtain ⟨before, old, rfl⟩ := Option.map_eq_some_iff.mp found
  intro entry inMap
  refine keyed subscriptions before old entry ?_
  split at inMap
  · exact (Table.mem_delete.mp (Table.mem_rows.mp inMap)).1
  · exact inMap

theorem Linked.drop (linked : registry.Linked) (connectionId id : String) (subscriptions : Option Nat) :
    (registry.dropSubscription connectionId id subscriptions).Linked := by
  have length (current : Nat) :
      (registry.maps.modify current fun map => map.remove id).length = registry.maps.length :=
    List.length_modify ..
  rcases registry.dropSubscription_cases connectionId id subscriptions with
    ⟨-, dropped⟩ | ⟨current, -, dropped | ⟨-, dropped⟩⟩ <;> rw [dropped]
  · exact linked
  · refine { linked with allocated := ?_, keyed := keyed_remove linked.keyed current id }
    intro other own found
    rw [length]
    exact linked.allocated other own found
  · have old (other : String) (own : Nat) (found : (registry.desired.remove connectionId).get other = some own) :
        registry.desired.get other = some own := by
      rw [ScriptMap.get_remove] at found
      split at found
      · cases found
      · exact found
    exact
      { registered := fun other own found => linked.registered other own (old other own found)
        allocated := by
          intro other own found
          rw [length]
          exact linked.allocated other own (old other own found)
        separate := fun left right own inLeft inRight =>
          linked.separate left right own (old left own inLeft) (old right own inRight)
        keyed := keyed_remove linked.keyed current id }

end Drop

theorem Steady.send {owed : String → Prop} (steady : registry.Steady owed fun _ _ => False)
    (request : GatewayRequest) (next : Continuation)
    (takes : ∀ id, owed id → request.id = id ∨ next.owes id)
    (sound : Flight.Sound registry ⟨request, false, next⟩) :
    (registry.send request next).Agrees where
  steady :=
    { linked := steady.linked.congr (fun _ here => here) rfl rfl
      covered := fun connectionId id desired =>
        (steady.covered connectionId id desired).imp_right False.elim
      handled := by
        intro id there
        rcases steady.handled id there with desired | waits | owes
        · exact .inl desired
        · exact .inr (.inl waits)
        · exact .inr (.inr ⟨_, rfl, (takes id owes).imp_left fun same => ⟨rfl, same⟩⟩) }
  sound := by
    intro flight running
    cases running
    cases sound with
    | subscribing done => exact .subscribing done
    | undoing unwanted done => exact .undoing unwanted done
    | unsubscribing own captured done => exact .unsubscribing own captured done
    | releasing unwanted keyed done => exact .releasing unwanted keyed done

theorem not_desired (unwanted : registry.isDesiredElsewhere id none = false) (other : String) :
    registry.desires other id = false := by
  refine Bool.eq_false_iff.mpr fun desired => ?_
  have elsewhere := isDesiredElsewhere_iff.mpr ⟨other, Option.some_ne_none other, desired⟩
  cases elsewhere.symm.trans unwanted

theorem Steady.releaseNext {entries : List (String × SubscriptionParams)}
    (steady : registry.Steady (fun id => ∃ params, (id, params) ∈ entries) fun _ _ => False)
    (keyed : ∀ entry ∈ entries, subscriptionId entry.2.session = entry.1) :
    (registry.releaseNext entries).Agrees := by
  induction entries with
  | nil =>
    refine Settled.agrees
      { linked := steady.linked.congr (fun _ here => here) rfl rfl
        covered := steady.covered
        handled := ?_ } rfl
    intro id there
    refine (steady.handled id there).imp_right fun owed => owed.imp_right ?_
    rintro ⟨params, none⟩
    cases none
  | cons entry rest ih =>
    obtain ⟨named, later⟩ := List.forall_mem_cons.mp keyed
    simp only [Registry.releaseNext]
    split
    · rename_i elsewhere
      refine ih { steady with handled := ?_ } later
      intro id there
      rcases steady.handled id there with desired | waits | ⟨params, inEntries⟩
      · exact .inl desired
      · exact .inr (.inl waits)
      · cases inEntries with
        | head =>
          obtain ⟨other, -, desired⟩ := isDesiredElsewhere_iff.mp elsewhere
          exact .inl ⟨other, desired⟩
        | tail _ inRest => exact .inr (.inr ⟨params, inRest⟩)
    · rename_i unwanted
      have id : subscriptionId entry.2.withdrawn = entry.1 := by rw [entry.2.withdrawn_eq, named]
      refine steady.send _ _ ?_ (.releasing ?_ later fun applied => nomatch applied)
      · rintro other ⟨params, inEntries⟩
        cases inEntries with
        | head => exact .inl id
        | tail _ inRest => exact .inr ⟨params, inRest⟩
      · rw [id]
        exact not_desired (Bool.eq_false_iff.mpr unwanted)

theorem Settled.free (settled : registry.Settled) (freed : String → String → Prop) :
    registry.Steady (fun _ => False) freed where
  linked := settled.linked
  covered := fun connectionId id desired =>
    (settled.covered connectionId id desired).imp_right False.elim
  handled := settled.handled

/-- Dropping what is desired elsewhere, or what the Gateway has taken back. -/
theorem Settled.drop (settled : registry.Steady (fun _ => False) fun other id' =>
      other = connectionId ∧ id' = id) {subscriptions : Option Nat}
    (captured : ∀ current, registry.desired.get connectionId = some current → subscriptions = some current)
    (kept : id ∈ registry.upstream → ∃ other,
      (registry.dropSubscription connectionId id subscriptions).desires other id = true) :
    (registry.dropSubscription connectionId id subscriptions).Settled where
  linked := settled.linked.drop connectionId id subscriptions
  covered := by
    intro other id' desired
    obtain ⟨desired, apart⟩ := desires_of_drop captured desired
    rw [(registry.dropSubscription_upstream ..).1]
    exact .inl ((settled.covered other id' desired).resolve_right apart)
  handled := by
    intro id' there
    rw [(registry.dropSubscription_upstream ..).1] at there
    by_cases same : id' = id
    · exact .inl (same ▸ kept (same ▸ there))
    · rcases settled.handled id' there with ⟨other, desired⟩ | waits | none
      · exact .inl ⟨other, desires_drop captured desired (.inl same)⟩
      · exact .inr (.inl (waits.drop same connectionId subscriptions))
      · exact none.elim

theorem Settled.start (settled : registry.Settled) (idle : registry.running = none)
    {operation : Operation} {rest : List Operation} (queue : registry.queue = operation :: rest) :
    ({ registry with queue := rest }.start operation).Agrees := by
  have later (id : String) (waits : registry.Queued id) :
      { registry with queue := rest }.Queued id ∨ ∃ subscriptions, operation = .release (some subscriptions) ∧
          hasSubscription registry.maps subscriptions id = true := by
    obtain ⟨subscriptions, inQueue, has⟩ := waits
    rw [queue] at inQueue
    cases inQueue with
    | head => exact .inr ⟨subscriptions, rfl, has⟩
    | tail _ inRest => exact .inl ⟨subscriptions, inRest, has⟩
  have others (plain : ∀ released, operation ≠ .release released) :
      { registry with queue := rest }.Settled :=
    { linked := settled.linked.congr (fun _ here => here) rfl rfl
      covered := settled.covered
      handled := by
        intro id there
        rcases settled.handled id there with desired | waits | none
        · exact .inl desired
        · rcases later id waits with waits | ⟨subscriptions, release, -⟩
          · exact .inr (.inl waits)
          · exact absurd release (plain _)
        · exact none.elim }
  cases operation with
  | subscribe connectionId params =>
    have calm := others fun _ same => nomatch same
    simp only [Registry.start]
    split
    · exact calm.send _ _ (fun _ none => none.elim) (.subscribing fun applied => nomatch applied)
    · exact calm.agrees idle
  | unsubscribe connectionId session =>
    have calm := others fun _ same => nomatch same
    simp only [Registry.start]
    split
    · split
      · rename_i elsewhere
        obtain ⟨other, different, desired⟩ := isDesiredElsewhere_iff.mp elsewhere
        have captured : ∀ current,
            ({ registry with queue := rest } : Registry).desired.get connectionId = some current →
              registry.desired.get connectionId = some current := fun _ found => found
        have freed := calm.free fun other id => other = connectionId ∧ id = subscriptionId session
        refine Settled.agrees (Settled.drop freed captured fun _ => ⟨other, ?_⟩) ?_
        · refine desires_drop captured desired (.inr ?_)
          intro current found own
          exact different (congrArg some (settled.linked.separate _ _ current found own))
        · exact (dropSubscription_upstream ..).2.trans idle
      · rename_i unwanted
        refine calm.send _ _ (fun _ none => none.elim)
          (.unsubscribing ?_ (fun _ found => found) fun applied => nomatch applied)
        intro other desired
        refine Decidable.byContradiction fun different => unwanted ?_
        refine isDesiredElsewhere_iff.mpr ⟨other, ?_, desired⟩
        exact fun same => different (Option.some.inj same)
    · exact calm.agrees idle
  | release released =>
    refine Steady.releaseNext ?_ ?_
    · refine
        { linked := settled.linked.congr (fun _ here => here) rfl rfl
          covered := settled.covered
          handled := ?_ }
      intro id there
      rcases settled.handled id there with desired | waits | none
      · exact .inl desired
      · rcases later id waits with waits | ⟨subscriptions, release, has⟩
        · exact .inr (.inl waits)
        · cases release
          obtain ⟨map, found, has⟩ := (Option.any_eq_true _ _).mp has
          obtain ⟨params, inMap⟩ := ScriptMap.has_iff.mp has
          exact .inr (.inr ⟨params, by simpa [found] using inMap⟩)
      · exact none.elim
    · cases released with
      | none => exact fun _ none => nomatch none
      | some subscriptions =>
        intro entry inEntries
        cases found : registry.maps[subscriptions]? with
        | none => simp [found] at inEntries
        | some map => exact settled.linked.keyed _ map found entry (by simpa [found] using inEntries)

/-- The operation goes on with the answer to its request. -/
theorem Agrees.resume (agrees : registry.Agrees) {flight : Flight}
    (running : registry.running = some flight) (applied : flight.applied = true) :
    (registry.resume flight.next).Agrees := by
  have owed (id : String) (there : id ∈ registry.upstream) :
      (∃ other, registry.desires other id = true) ∨ registry.Queued id ∨ flight.next.owes id := by
    refine (agrees.steady.handled id there).imp_right fun owed => owed.imp_right ?_
    rintro ⟨_, same, owes⟩
    cases running.symm.trans same
    refine owes.resolve_left ?_
    rintro ⟨pending, -⟩
    cases applied.symm.trans pending
  have freed (other id : String) (desired : registry.desires other id = true) :
      id ∈ registry.upstream ∨ flight.frees other id := by
    refine (agrees.steady.covered other id desired).imp_right ?_
    rintro ⟨_, same, frees⟩
    cases running.symm.trans same
    exact frees
  have sound := agrees.sound flight running
  cases sound with
  | @subscribing connectionId params _ done =>
    have calm : { registry with running := none }.Steady (subscriptionId params.session = ·)
        fun _ _ => False :=
      { linked := agrees.steady.linked.congr (fun _ here => here) rfl rfl
        covered := fun other id desired =>
          .inl ((freed other id desired).resolve_right fun ⟨_, _, same⟩ => nomatch same)
        handled := owed }
    simp only [Registry.resume]
    split
    · rename_i active
      refine (calm.addSubscription (fun _ _ none => none) active (done applied)).agrees ?_
      exact addSubscription_running ..
    · split
      · rename_i elsewhere
        obtain ⟨other, -, desired⟩ := isDesiredElsewhere_iff.mp elsewhere
        refine Settled.agrees { calm with handled := ?_ } rfl
        intro id there
        rcases calm.handled id there with desired | waits | rfl
        · exact .inl desired
        · exact .inr (.inl waits)
        · exact .inl ⟨other, desired⟩
      · rename_i unwanted
        refine calm.send _ _ ?_ (.undoing ?_ fun applied => nomatch applied)
        · rintro id rfl
          exact .inl (congrArg subscriptionId params.withdrawn_eq)
        · rw [params.withdrawn_eq]
          exact not_desired (Bool.eq_false_iff.mpr unwanted)
  | undoing unwanted done =>
    refine Settled.agrees ?_ rfl
    exact
      { linked := agrees.steady.linked.congr (fun _ here => here) rfl rfl
        covered := fun other id desired =>
          .inl ((freed other id desired).resolve_right fun ⟨_, _, same⟩ => nomatch same)
        handled := owed }
  | @unsubscribing connectionId session subscriptions _ own captured done =>
    have calm : { registry with running := none }.Steady (fun _ => False)
        fun other id => other = connectionId ∧ id = subscriptionId session :=
      { linked := agrees.steady.linked.congr (fun _ here => here) rfl rfl
        covered := by
          intro other id desired
          refine (freed other id desired).imp_right ?_
          rintro ⟨-, _, same⟩
          cases same
          exact ⟨rfl, rfl⟩
        handled := owed }
    refine (Settled.drop calm captured fun there => absurd there (done applied)).agrees ?_
    exact (dropSubscription_upstream ..).2
  | releasing unwanted keyed done =>
    refine Steady.releaseNext ?_ keyed
    exact
      { linked := agrees.steady.linked
        covered := fun other id desired =>
          .inl ((freed other id desired).resolve_right fun ⟨_, _, same⟩ => nomatch same)
        handled := owed }

theorem mem_apply_unsubscribe {session : SessionRef} {upstream : List String} {id : String} :
    id ∈ (GatewayRequest.unsubscribe session).apply upstream ↔ id ∈ upstream ∧ id ≠ subscriptionId session := by
  simp [GatewayRequest.apply]

/-- The Gateway applies the request: it has what was subscribed, and has taken back only what
    nobody else desires. -/
theorem Agrees.applied (agrees : registry.Agrees) {flight : Flight}
    (running : registry.running = some flight) (pending : flight.applied = false) :
    { registry with
      upstream := flight.request.apply registry.upstream
      running := some { flight with applied := true } }.Agrees := by
  have covered (other id : String) (desired : registry.desires other id = true) : id ∈ registry.upstream := by
    refine (agrees.steady.covered other id desired).resolve_right ?_
    rintro ⟨_, same, applied, -⟩
    cases running.symm.trans same
    cases pending.symm.trans applied
  have linked (upstream : List String) (current : Option Flight) :
      { registry with upstream := upstream, running := current }.Linked :=
    agrees.steady.linked.congr (fun _ here => here) rfl rfl
  have handled (id : String) (there : id ∈ flight.request.apply registry.upstream) :
      (∃ other, registry.desires other id = true) ∨ registry.Queued id ∨
        flight.request.id = id ∨ flight.next.owes id := by
    by_cases own : flight.request.id = id
    · exact .inr (.inr (.inl own))
    · have before : id ∈ registry.upstream := by
        cases request : flight.request with
        | subscribe params =>
          rw [request] at there own
          exact (List.mem_cons.mp there).resolve_left fun same => own same.symm
        | unsubscribe session =>
          rw [request] at there
          exact (mem_apply_unsubscribe.mp there).1
      refine (agrees.steady.handled id before).imp_right fun owed => owed.imp_right ?_
      rintro ⟨_, same, owes⟩
      cases running.symm.trans same
      exact owes.imp_left And.right
  have sound := agrees.sound flight running
  cases sound with
  | @subscribing connectionId params _ done =>
    refine { steady := { linked := linked _ _, covered := ?_, handled := ?_ }, sound := ?_ }
    · exact fun other id desired => .inl (List.mem_cons_of_mem _ (covered other id desired))
    · intro id there
      refine (handled id there).imp_right fun owed => owed.imp_right fun owes => ?_
      exact ⟨_, rfl, .inr (owes.elim (fun own => own) fun own => own)⟩
    · intro current same
      cases same
      exact .subscribing fun _ => List.mem_cons_self
  | @undoing session _ unwanted done =>
    refine { steady := { linked := linked _ _, covered := ?_, handled := ?_ }, sound := ?_ }
    · intro other id desired
      refine .inl (mem_apply_unsubscribe.mpr ⟨covered other id desired, ?_⟩)
      rintro rfl
      cases (unwanted other).symm.trans desired
    · intro id there
      refine (handled id there).imp_right fun owed => owed.imp_right fun owes => ?_
      exact absurd (owes.resolve_right fun none => none).symm (mem_apply_unsubscribe.mp there).2
    · intro current same
      cases same
      exact .undoing unwanted fun _ there => (mem_apply_unsubscribe.mp there).2 rfl
  | @unsubscribing connectionId session subscriptions _ own captured done =>
    refine { steady := { linked := linked _ _, covered := ?_, handled := ?_ }, sound := ?_ }
    · intro other id desired
      by_cases same : id = subscriptionId session
      · subst same
        cases own other desired
        exact .inr ⟨_, rfl, rfl, subscriptions, rfl⟩
      · exact .inl (mem_apply_unsubscribe.mpr ⟨covered other id desired, same⟩)
    · intro id there
      refine (handled id there).imp_right fun owed => owed.imp_right fun owes => ?_
      exact absurd (owes.resolve_right fun none => none).symm (mem_apply_unsubscribe.mp there).2
    · intro current same
      cases same
      exact .unsubscribing own captured fun _ there => (mem_apply_unsubscribe.mp there).2 rfl
  | @releasing session rest _ unwanted keyed done =>
    refine { steady := { linked := linked _ _, covered := ?_, handled := ?_ }, sound := ?_ }
    · intro other id desired
      refine .inl (mem_apply_unsubscribe.mpr ⟨covered other id desired, ?_⟩)
      rintro rfl
      cases (unwanted other).symm.trans desired
    · intro id there
      refine (handled id there).imp_right fun owed => owed.imp_right fun owes => ?_
      refine ⟨_, rfl, .inr (owes.resolve_left fun same => ?_)⟩
      exact (mem_apply_unsubscribe.mp there).2 same.symm
    · intro current same
      cases same
      exact .releasing unwanted keyed fun _ there => (mem_apply_unsubscribe.mp there).2 rfl

theorem Agrees.frame (agrees : registry.Agrees) {later : Registry} (linked : later.Linked)
    (maps : later.maps = registry.maps) (upstream : later.upstream = registry.upstream)
    (running : later.running = registry.running)
    (desired : ∀ other current, later.desired.get other = some current → registry.desired.get other = some current)
    (kept : ∀ other id, registry.desires other id = true → later.desires other id = true ∨ later.Queued id)
    (waits : ∀ id, registry.Queued id → later.Queued id) : later.Agrees := by
  have old (other id : String) (wanted : later.desires other id = true) : registry.desires other id = true := by
    obtain ⟨current, found, has⟩ := desires_iff.mp wanted
    exact desires_iff.mpr ⟨current, desired other current found, maps ▸ has⟩
  have unwanted {id : String} (none : ∀ other, registry.desires other id = false) (other : String) :
      later.desires other id = false :=
    Bool.eq_false_iff.mpr fun wanted => Bool.eq_false_iff.mp (none other) (old other id wanted)
  refine { steady := { linked := linked, covered := ?_, handled := ?_ }, sound := ?_ }
  · intro other id wanted
    rw [upstream, running]
    exact agrees.steady.covered other id (old other id wanted)
  · intro id there
    rw [upstream] at there
    rw [running]
    rcases agrees.steady.handled id there with ⟨other, wanted⟩ | queued | owed
    · rcases kept other id wanted with wanted | queued
      · exact .inl ⟨other, wanted⟩
      · exact .inr (.inl queued)
    · exact .inr (.inl (waits id queued))
    · exact .inr (.inr owed)
  · intro flight current
    rw [running] at current
    cases agrees.sound flight current with
    | subscribing done => exact .subscribing (upstream ▸ done)
    | undoing none done => exact .undoing (unwanted none) (upstream ▸ done)
    | unsubscribing own captured done =>
      exact .unsubscribing (fun other wanted => own other (old other _ wanted))
        (fun current found => captured current (desired _ current found)) (upstream ▸ done)
    | releasing none keyed done => exact .releasing (unwanted none) keyed (upstream ▸ done)

theorem Agrees.enqueue (agrees : registry.Agrees) (operation : Operation) : (registry.enqueue operation).Agrees := by
  refine agrees.frame (agrees.steady.linked.congr (fun _ here => here) rfl rfl) rfl rfl rfl
    (fun _ _ found => found) (fun _ _ wanted => .inl wanted) ?_
  rintro id ⟨subscriptions, queued, has⟩
  exact ⟨subscriptions, List.mem_append_left _ queued, has⟩

theorem Agrees.registerConnection (agrees : registry.Agrees) (connectionId : String) :
    (registry.registerConnection connectionId).Agrees := by
  simp only [Registry.registerConnection]
  split
  · exact agrees
  · refine agrees.frame (agrees.steady.linked.congr ?_ rfl rfl) rfl rfl rfl
      (fun _ _ found => found) (fun _ _ wanted => .inl wanted) (fun _ queued => queued)
    exact fun other here => List.mem_append_left _ here

theorem Agrees.releaseConnection (agrees : registry.Agrees) (connectionId : String) :
    (registry.releaseConnection connectionId).Agrees := by
  have linked := agrees.steady.linked
  simp only [Registry.releaseConnection]
  split
  · exact agrees
  have desired (other : String) (current : Nat)
      (found : (registry.desired.remove connectionId).get other = some current) :
      other ≠ connectionId ∧ registry.desired.get other = some current := by
    rw [ScriptMap.get_remove] at found
    split at found
    · cases found
    · rename_i different
      exact ⟨Ne.symm different, found⟩
  refine agrees.frame ?_ rfl rfl rfl (fun other current found => (desired other current found).2)
    ?_ ?_
  · exact
      { registered := by
          intro other current found
          obtain ⟨different, found⟩ := desired other current found
          exact List.mem_filter.mpr ⟨linked.registered other current found, by simpa using different⟩
        allocated := fun other current found =>
          linked.allocated other current (desired other current found).2
        separate := fun left right current inLeft inRight =>
          linked.separate left right current (desired left current inLeft).2 (desired right current inRight).2
        keyed := linked.keyed }
  · intro other id wanted
    obtain ⟨current, found, has⟩ := desires_iff.mp wanted
    by_cases same : other = connectionId
    · subst same
      refine .inr ⟨current, List.mem_append_right _ ?_, has⟩
      rw [found]
      exact List.mem_singleton_self _
    · refine .inl (desires_iff.mpr ⟨current, ?_, has⟩)
      simp only [Registry.enqueue, ScriptMap.get_remove]
      rw [if_neg (Ne.symm same), found]
  · rintro id ⟨subscriptions, queued, has⟩
    exact ⟨subscriptions, List.mem_append_left _ queued, has⟩

theorem Agrees.advance (agrees : registry.Agrees) : registry.advance.Agrees := by
  simp only [Registry.advance]
  cases running : registry.running with
  | some flight =>
    simp only
    split
    · rename_i applied
      exact agrees.resume running applied
    · rename_i pending
      exact agrees.applied running (Bool.eq_false_iff.mpr pending)
  | none =>
    simp only
    split
    · exact agrees
    · rename_i operation rest queue
      simpa only [running] using (agrees.settled running).start running queue

theorem Agrees.step (agrees : registry.Agrees) {event : RegistryEvent} (succeeds : event ≠ .fail) :
    (registryMachine.step registry event).Agrees := by
  cases event with
  | registerConnection connectionId => exact agrees.registerConnection connectionId
  | subscribe connectionId params => exact agrees.enqueue _
  | unsubscribe connectionId session => exact agrees.enqueue _
  | releaseConnection connectionId => exact agrees.releaseConnection connectionId
  | advance => exact agrees.advance
  | fail => exact absurd rfl succeeds

theorem agrees_run {events : List RegistryEvent} (succeed : ∀ event ∈ events, event ≠ .fail) :
    (registryMachine.run fresh events).Agrees :=
  Machine.run_invariant_of (fun _ _ succeeds agrees => agrees.step succeeds) agrees_fresh events
    succeed

/-- A request on its way that takes a session back. -/
def withdraws (registry : Registry) (id : String) : Prop :=
  ∃ flight session, registry.running = some flight ∧ flight.request = .unsubscribe session ∧
    subscriptionId session = id

def dropping (registry : Registry) (connectionId id : String) : Prop :=
  ∃ flight subscriptions, registry.running = some flight ∧ flight.next = .unsubscribed connectionId id subscriptions

/-- While requests succeed, the Gateway sends the messages of what registered connections desire
    and, once all operations are through, of nothing else; at no time does it take back what a
    connection desires that is not dropping it. -/
theorem upstream_agrees {events : List RegistryEvent} (succeed : ∀ event ∈ events, event ≠ .fail) :
    let registry := registryMachine.run fresh events
    (registry.running = none → registry.queue = [] → ∀ id, id ∈ registry.upstream ↔
      ∃ connectionId ∈ registry.activeConnections, registry.desires connectionId id = true) ∧
    ∀ connectionId id, registry.desires connectionId id = true →
      ¬registry.dropping connectionId id → id ∈ registry.upstream ∧ ¬registry.withdraws id := by
  intro registry
  have agrees : registry.Agrees := agrees_run succeed
  refine ⟨?_, ?_⟩
  · intro idle empty id
    have settled := agrees.settled idle
    constructor
    · intro there
      rcases settled.handled id there with ⟨connectionId, desired⟩ | ⟨_, waits, -⟩ | none
      · obtain ⟨subscriptions, found, -⟩ := desires_iff.mp desired
        exact ⟨connectionId, settled.linked.registered _ _ found, desired⟩
      · rw [empty] at waits
        cases waits
      · exact none.elim
    · rintro ⟨connectionId, -, desired⟩
      exact (settled.covered connectionId id desired).resolve_right fun none => none
  · intro connectionId id desired keeps
    refine ⟨?_, ?_⟩
    · refine (agrees.steady.covered connectionId id desired).resolve_right ?_
      rintro ⟨flight, running, -, subscriptions, next⟩
      exact keeps ⟨flight, subscriptions, running, next⟩
    · rintro ⟨flight, session, running, request, rfl⟩
      cases agrees.sound flight running with
      | subscribing done => cases request
      | undoing unwanted done =>
        cases request
        cases (unwanted connectionId).symm.trans desired
      | unsubscribing own captured done =>
        cases request
        cases own connectionId desired
        exact keeps ⟨_, _, running, rfl⟩
      | releasing unwanted keyed done =>
        cases request
        cases (unwanted connectionId).symm.trans desired

/-- Two browsers look at one session, and the first one leaves. -/
def sharedSession : List RegistryEvent :=
  let params : SubscriptionParams := ⟨⟨"main", none, by simp⟩, false⟩
  [.registerConnection "first", .registerConnection "second", .subscribe "first" params,
    .subscribe "second" params] ++ List.replicate 6 .advance ++
    [.releaseConnection "first", .advance]

theorem sharedSession_upstream : (registryMachine.run fresh sharedSession).queue = [] ∧ ∀ id,
    id ∈ (registryMachine.run fresh sharedSession).upstream ↔
      ∃ connectionId ∈ (registryMachine.run fresh sharedSession).activeConnections,
        (registryMachine.run fresh sharedSession).desires connectionId id = true :=
  ⟨rfl, (@upstream_agrees sharedSession (by simp [sharedSession])).1 rfl rfl⟩

end Registry

end PlatformClaw.Browser
