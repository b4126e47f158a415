import PlatformClaw.Library.NumberedText
import PlatformClaw.Reef.NoticeRuns

/-! # The cooldown between two leaves

The cache of the peers is the only place that holds a leave from the notice on until the notice is
complete. As long as every state that is loaded into the cache holds the leaves of the last cooldown,
two leaves to a peer are a cooldown apart; a peer that is pushed out of the cache before its notice
is complete can be given leave again at once.
-/

namespace PlatformClaw.Reef

/-- The time of leave is `time` or later. -/
def covers (last : Option Nat) (time : Nat) : Bool :=
  last.any fun resend => time ≤ resend

theorem covers_iff {last : Option Nat} {time : Nat} :
    covers last time = true ↔ ∃ resend, last = some resend ∧ time ≤ resend := by
  cases last <;> simp [covers]

namespace ReefPeerNoticeState

/-- A state without a rejection has no leave either. -/
def Whole (state : ReefPeerNoticeState) : Prop :=
  state.lastRejectionAt = none → state.lastResendAt = none

theorem whole_loaded (persisted : Option ReefRejectionNoticeState) : (loaded persisted).Whole := by
  cases persisted with
  | none => exact fun _ => rfl
  | some persisted => exact fun absent => (by cases absent)

theorem whole_apply (target : ReefPeerNoticeState) (state : ReefRejectionNoticeState) : (target.apply state).Whole :=
  fun absent => (by cases absent)

theorem Whole.recovered {state : ReefPeerNoticeState} (whole : state.Whole)
    (reservations : List ReefRejectionNoticeState) : (reservations.foldl recover state).Whole := by
  induction reservations generalizing state with
  | nil => exact whole
  | cons reserved rest ih => exact ih (whole_apply state _)

theorem blocked_recovered (state : ReefPeerNoticeState) (reservations : List ReefRejectionNoticeState) :
    (reservations.foldl recover state).resendBlocked = state.resendBlocked := by
  induction reservations generalizing state with
  | nil => rfl
  | cons reserved rest ih => exact ih (state.recover reserved)

/-- The leave that a plan starts from. -/
theorem Whole.snapshot_resend {state : ReefPeerNoticeState} (whole : state.Whole) :
    state.snapshot.bind ReefRejectionNoticeState.lastResendAt = state.lastResendAt := by
  unfold snapshot
  cases rejected : state.lastRejectionAt with
  | none => exact (whole rejected).symm
  | some lastRejectionAt => rfl

end ReefPeerNoticeState

theorem covers_mergeStates {current : Option ReefRejectionNoticeState}
    {persisted : ReefRejectionNoticeState} {time : Nat}
    (covered : covers (current.bind ReefRejectionNoticeState.lastResendAt) time = true) :
    covers (mergeStates current persisted).lastResendAt time = true := by
  obtain ⟨resend, found, late⟩ := covers_iff.mp covered
  apply covers_iff.mpr
  refine ⟨max resend (persisted.lastResendAt.getD 0), ?_, ?_⟩
  · simp [mergeStates, laterResend, found]
  · omega

theorem ReefPeerNoticeState.Whole.covers_recovered {state : ReefPeerNoticeState}
    (whole : state.Whole) {time : Nat} (covered : covers state.lastResendAt time = true)
    (reservations : List ReefRejectionNoticeState) :
    covers (reservations.foldl recover state).lastResendAt time = true := by
  induction reservations generalizing state with
  | nil => exact covered
  | cons reserved rest ih =>
    apply ih (whole_apply state _)
    apply covers_mergeStates
    rw [whole.snapshot_resend]
    exact covered

theorem covers_planNotice {now time : Nat} {rejection : ReefDeliveryRejection}
    {previous reserved : Option ReefRejectionNoticeState} {resendBlocked : Bool}
    (past : time ≤ now)
    (covered : covers (previous.bind ReefRejectionNoticeState.lastResendAt) time = true) :
    covers (planNotice now rejection previous reserved resendBlocked).state.lastResendAt time = true := by
  cases reserved with
  | some reserved => exact covers_mergeStates covered
  | none =>
    simp only [planNotice]
    split
    · exact covers_iff.mpr ⟨now, rfl, past⟩
    · exact covered

theorem planNotice_allows {now : Nat} {rejection : ReefDeliveryRejection}
    {previous reserved : Option ReefRejectionNoticeState} {resendBlocked : Bool}
    (allows : (planNotice now rejection previous reserved resendBlocked).notice.allowResend = true) :
    resendBlocked = false ∧ coolingDown now (previous.bind ReefRejectionNoticeState.lastResendAt) = false ∧
      (planNotice now rejection previous reserved resendBlocked).state.lastResendAt = some now := by
  cases reserved with
  | some reserved => cases allows
  | none =>
    have given : allowsResend now rejection previous resendBlocked = true := allows
    refine ⟨?_, ?_, if_pos given⟩
    · simp only [allowsResend, Bool.and_eq_true, Bool.not_eq_true'] at given
      exact given.1.1.1.1
    · simp only [allowsResend, Bool.and_eq_true, Bool.not_eq_true'] at given
      exact given.2

theorem cooled_down {now time : Nat} {last : Option Nat} (cooled : coolingDown now last = false)
    (covered : covers last time = true) : time + REJECTION_RESEND_COOLDOWN_MS ≤ now := by
  obtain ⟨resend, rfl, late⟩ := covers_iff.mp covered
  unfold coolingDown at cooled
  rw [Option.any_some] at cooled
  have passed := Nat.le_of_not_lt (of_decide_eq_false cooled)
  exact Nat.le_trans (Nat.add_le_add_right late _) passed

namespace NoticeWorld

variable {world later : NoticeWorld} {peer id : String}

/-- A notice with leave to the peer, less than a cooldown ago. -/
structure Fresh (world : NoticeWorld) (peer : String) (notice : SentNotice) : Prop where
  sent : notice ∈ world.sent
  peer : notice.notice.peer = peer
  allows : notice.notice.allowResend = true
  recent : world.clock < notice.sentAt + REJECTION_RESEND_COOLDOWN_MS

/-- The state that is loaded for a peer holds each leave of the last cooldown. -/
def Informed (world : NoticeWorld) (peer : String) (reservations : List ReefRejectionNoticeState) : Prop :=
  ∀ notice ∈ world.sent, notice.notice.peer = peer → notice.notice.allowResend = true →
    world.clock < notice.sentAt + REJECTION_RESEND_COOLDOWN_MS →
      covers (reservations.foldl ReefPeerNoticeState.recover
        (.loaded (world.peers peer).rejectionNotice)).lastResendAt notice.sentAt = true

instance (world : NoticeWorld) (peer : String) (reservations : List ReefRejectionNoticeState) :
    Decidable (world.Informed peer reservations) :=
  inferInstanceAs (Decidable (∀ notice ∈ world.sent, _ → _ → _ → _))

def notifies (world : NoticeWorld) : NoticeTask → Bool
  | .notify rejection _ =>
    !world.completed.rows.contains rejection.key && !world.inFlight.rows.contains rejection.key
  | .renotify rejection _ => !world.aborted && !world.completed.rows.contains rejection.key
  | .recomplete _ _ _ => false

def loadsState (world : NoticeWorld) (peer : String) (moment : NoticeMoment) : Bool :=
  (world.dispatching peer).isNone && (world.peerQueues peer).head?.any world.notifies &&
    (world.peerStates.get peer).isNone && moment.loads

/-- The peers of a batch, one after the other. -/
def seeding (rejections : List ReefDeliveryRejection) (failing : List String) : Machine NoticeWorld String where
  step := seedPeer rejections failing

/-- A peer that is seeded is in the cache, cannot be loaded, or is loaded with its leaves. -/
def SeedsWell (rejections : List ReefDeliveryRejection) (failing : List String)
    (world : NoticeWorld) (peer : String) : Prop :=
  world.peerStates.get peer = none → failing.contains peer = false → world.Informed peer (recovered rejections peer)

instance (rejections : List ReefDeliveryRejection) (failing : List String) (world : NoticeWorld)
    (peer : String) : Decidable (SeedsWell rejections failing world peer) :=
  inferInstanceAs (Decidable (_ → _ → _))

/-- Every state that the step loads holds the leaves of the last cooldown. -/
def WellLoaded (world : NoticeWorld) : NoticeEvent → Prop
  | .batch now rejections failing =>
    (seeding rejections failing).Meets (SeedsWell rejections failing) (world.tick now) (recoveredPeers rejections)
  | .run peer moment =>
    world.loadsState peer moment = true → (world.tick moment.now).Informed peer []
  | _ => True

instance (world : NoticeWorld) (event : NoticeEvent) : Decidable (world.WellLoaded event) :=
  match event with
  | .batch now rejections failing =>
    inferInstanceAs (Decidable ((seeding rejections failing).Meets _ (world.tick now) _))
  | .run _ _ => inferInstanceAs (Decidable (_ → _))
  | .dispatched _ _ _ | .fired _ | .abort | .restart | .messageSent _ _ _ _ _ | .rejected _ _ _ _
  | .dropped _ _ | .pinned _ _ | .revoked _ => instDecidableTrue

def time (world : NoticeWorld) : NoticeEvent → Nat
  | .batch now _ _ | .rejected _ _ _ now => now
  | .run _ moment | .dispatched _ _ moment => moment.now
  | _ => world.clock

def InOrder (world : NoticeWorld) (event : NoticeEvent) : Prop :=
  world.clock ≤ world.time event

instance (world : NoticeWorld) (event : NoticeEvent) : Decidable (world.InOrder event) :=
  inferInstanceAs (Decidable (_ ≤ _))

/-- A process that starts with what the stores hold. -/
def boot (peers : String → ReefPeerState) (deliveries : String → String → DeliverySlot)
    (clock : Nat) : NoticeWorld where
  peers := peers
  deliveries := deliveries
  clock := clock

/-- The leave of a cached object once its dispatch is over. -/
def currentResend (world : NoticeWorld) (peer : String) (cached : CachedPeer) : Option Nat :=
  match world.dispatching peer with
  | some dispatch =>
    if dispatch.object = cached.object then dispatch.state.lastResendAt
    else cached.state.lastResendAt
  | none => cached.state.lastResendAt

/-- An entry of the cache knows the leaves of its peer, or is blocked. -/
structure Knows (world : NoticeWorld) (peer : String) (cached : CachedPeer) : Prop where
  made : cached.object < world.objects
  whole : cached.state.Whole
  covered : cached.state.resendBlocked = false → ∀ notice, world.Fresh peer notice →
    covers (world.currentResend peer cached) notice.sentAt = true

structure Cooled (world : NoticeWorld) : Prop where
  queued : ∀ peer, ∀ task ∈ world.peerQueues peer, task.rejection.peer = peer
  working : ∀ peer dispatch, world.dispatching peer = some dispatch →
    dispatch.rejection.peer = peer ∧ dispatch.object < world.objects
  cached : ∀ peer cached, world.peerStates.get peer = some cached → world.Knows peer cached
  spaced : world.sent.Pairwise fun earlier later =>
    earlier.notice.peer = later.notice.peer → earlier.notice.allowResend = true → later.notice.allowResend = true →
        earlier.sentAt + REJECTION_RESEND_COOLDOWN_MS ≤ later.sentAt
  past : ∀ notice ∈ world.sent, notice.sentAt ≤ world.clock

/-- The cache, the dispatches and the notices are as before. -/
structure Quiet (world later : NoticeWorld) : Prop where
  peerStates : later.peerStates = world.peerStates
  objects : later.objects = world.objects
  dispatching : later.dispatching = world.dispatching
  sent : later.sent = world.sent
  clock : world.clock ≤ later.clock
  queued : ∀ peer, ∀ task ∈ later.peerQueues peer, task ∈ world.peerQueues peer ∨ task.rejection.peer = peer

namespace Quiet

theorem trans {last : NoticeWorld} (first : world.Quiet later) (second : later.Quiet last) : world.Quiet last where
  peerStates := second.peerStates.trans first.peerStates
  objects := second.objects.trans first.objects
  dispatching := second.dispatching.trans first.dispatching
  sent := second.sent.trans first.sent
  clock := Nat.le_trans first.clock second.clock
  queued peer task inQueue := by
    cases second.queued peer task inQueue with
    | inl before => exact first.queued peer task before
    | inr own => exact .inr own

theorem of_same (peerStates : later.peerStates = world.peerStates)
    (objects : later.objects = world.objects) (dispatching : later.dispatching = world.dispatching)
    (sent : later.sent = world.sent) (clock : later.clock = world.clock)
    (queues : later.peerQueues = world.peerQueues) : world.Quiet later where
  peerStates := peerStates
  objects := objects
  dispatching := dispatching
  sent := sent
  clock := Nat.le_of_eq clock.symm
  queued peer task inQueue := .inl (by rwa [queues] at inQueue)

theorem refl (world : NoticeWorld) : world.Quiet world :=
  of_same rfl rfl rfl rfl rfl rfl

theorem tick {now : Nat} (inOrder : world.clock ≤ now) : world.Quiet (world.tick now) :=
  ⟨rfl, rfl, rfl, rfl, inOrder, fun _ _ => .inl⟩

theorem runForPeer (world : NoticeWorld) (task : NoticeTask) : world.Quiet (world.runForPeer task) where
  peerStates := rfl
  objects := rfl
  dispatching := rfl
  sent := rfl
  clock := Nat.le_refl _
  queued peer other inQueue := by
    change other ∈ if peer = task.rejection.peer then _ else _ at inQueue
    split at inQueue
    · rename_i same
      cases List.mem_append.mp inQueue with
      | inl before => exact .inl (same ▸ before)
      | inr new =>
        rw [List.mem_singleton.mp new]
        exact .inr same.symm
    · exact .inl inQueue

theorem proceed (world : NoticeWorld) (rest : List ReefDeliveryRejection) : world.Quiet (world.proceed rest) := by
  cases rest with
  | nil => exact refl world
  | cons rejection rest => exact runForPeer world (.notify rejection rest)

theorem popped {peer : String} {task : NoticeTask} {rest : List NoticeTask}
    (queue : world.peerQueues peer = task :: rest) : world.Quiet (world.setQueue peer rest) where
  peerStates := rfl
  objects := rfl
  dispatching := rfl
  sent := rfl
  clock := Nat.le_refl _
  queued other inner inQueue := by
    change inner ∈ if other = peer then rest else _ at inQueue
    split at inQueue
    · rename_i same
      rw [same, queue]
      exact .inl (List.mem_cons_of_mem _ inQueue)
    · exact .inl inQueue

theorem scheduleRetry (world : NoticeWorld) (task : NoticeTask) (retryAttempt : Nat)
    (schedules : Bool) : world.Quiet (world.scheduleRetry task retryAttempt schedules) := by
  unfold NoticeWorld.scheduleRetry
  split <;> exact of_same rfl rfl rfl rfl rfl rfl

theorem completeNotice (world : NoticeWorld) (rejection : ReefDeliveryRejection)
    (state : ReefRejectionNoticeState) (retryAttempt : Nat) (moment : NoticeMoment) :
    world.Quiet (world.completeNotice rejection state retryAttempt moment) := by
  have recorded : world.Quiet (world.recordNotice rejection.peer state) :=
    of_same rfl rfl rfl rfl rfl rfl
  unfold NoticeWorld.completeNotice
  split
  · exact scheduleRetry _ _ _ _
  split
  · exact recorded.trans (scheduleRetry _ _ _ _)
  split
  · exact recorded.trans (scheduleRetry _ _ _ _)
  · rename_i deleted done
    have deletes : world.Quiet deleted := by
      unfold deleteReservation at done
      split at done
      · split at done
        · cases done
          exact recorded.trans (of_same rfl rfl rfl rfl rfl rfl)
        · cases done
      · cases done
        exact recorded
      · cases done
        exact recorded
    exact deletes.trans (of_same rfl rfl rfl rfl rfl rfl)

end Quiet

theorem Fresh.before (fresh : later.Fresh peer notice) (sent : later.sent = world.sent)
    (clock : world.clock ≤ later.clock) : world.Fresh peer notice where
  sent := sent ▸ fresh.sent
  peer := fresh.peer
  allows := fresh.allows
  recent := Nat.lt_of_le_of_lt clock fresh.recent

theorem Knows.transfer {cached : CachedPeer} (knows : world.Knows peer cached)
    (objects : world.objects ≤ later.objects)
    (dispatching : later.dispatching peer = world.dispatching peer)
    (fresh : ∀ notice, later.Fresh peer notice → world.Fresh peer notice) :
    later.Knows peer cached where
  made := Nat.lt_of_lt_of_le knows.made objects
  whole := knows.whole
  covered unblocked notice isFresh := by
    unfold currentResend
    rw [dispatching]
    exact knows.covered unblocked notice (fresh notice isFresh)

theorem Cooled.quiet (cooled : Cooled world) (quiet : world.Quiet later) : Cooled later where
  queued peer task inQueue := by
    cases quiet.queued peer task inQueue with
    | inl before => exact cooled.queued peer task before
    | inr own => exact own
  working peer dispatch found := by
    rw [quiet.dispatching] at found
    rw [quiet.objects]
    exact cooled.working peer dispatch found
  cached peer cached found := by
    rw [quiet.peerStates] at found
    exact (cooled.cached peer cached found).transfer (Nat.le_of_eq quiet.objects.symm)
      (by rw [quiet.dispatching]) fun notice fresh => fresh.before quiet.sent quiet.clock
  spaced := by
    rw [quiet.sent]
    exact cooled.spaced
  past notice inSent := by
    rw [quiet.sent] at inSent
    exact Nat.le_trans (cooled.past notice inSent) quiet.clock

/-- An entry of the cache is new, the others stay or go. -/
structure Caches (world later : NoticeWorld) (peer : String) (cached : CachedPeer) : Prop where
  located : ∀ other found, later.peerStates.get other = some found →
    (peer = other ∧ cached = found) ∨ (peer ≠ other ∧ world.peerStates.get other = some found)
  present : later.peerStates.get peer = some cached
  objects : world.objects ≤ later.objects
  dispatching : later.dispatching = world.dispatching
  sent : later.sent = world.sent
  clock : later.clock = world.clock
  queues : later.peerQueues = world.peerQueues

theorem Cooled.caches {cached : CachedPeer} (cooled : Cooled world)
    (caches : world.Caches later peer cached) (knows : later.Knows peer cached) : Cooled later where
  queued := by
    rw [caches.queues]
    exact cooled.queued
  working other dispatch found := by
    rw [caches.dispatching] at found
    obtain ⟨own, made⟩ := cooled.working other dispatch found
    exact ⟨own, Nat.lt_of_lt_of_le made caches.objects⟩
  cached other found inCache := by
    cases caches.located other found inCache with
    | inl here =>
      obtain ⟨rfl, rfl⟩ := here
      exact knows
    | inr there =>
      exact (cooled.cached other found there.2).transfer caches.objects
        (by rw [caches.dispatching]) fun notice fresh =>
          fresh.before caches.sent (Nat.le_of_eq caches.clock.symm)
  spaced := by
    rw [caches.sent]
    exact cooled.spaced
  past := by
    rw [caches.sent, caches.clock]
    exact cooled.past

theorem caches_remember (world : NoticeWorld) (peer : String) (cached : CachedPeer) :
    world.Caches (world.rememberPeerState peer cached) peer cached where
  located _ _ found := ScriptMap.get_remember found
  present := ScriptMap.get_remember_self (by decide)
  objects := Nat.le_refl _
  dispatching := rfl
  sent := rfl
  clock := rfl
  queues := rfl

theorem caches_new (world : NoticeWorld) (peer : String) (state : ReefPeerNoticeState) :
    world.Caches (world.cacheNew peer state) peer ⟨world.objects, state⟩ where
  located _ _ found := ScriptMap.get_remember found
  present := ScriptMap.get_remember_self (by decide)
  objects := Nat.le_succ _
  dispatching := rfl
  sent := rfl
  clock := rfl
  queues := rfl

theorem Caches.again {first second : CachedPeer} (caches : world.Caches later peer first) :
    world.Caches (later.rememberPeerState peer second) peer second where
  located other found inCache := by
    cases ScriptMap.get_remember inCache with
    | inl here => exact .inl here
    | inr there =>
      cases caches.located other found there.2 with
      | inl here => exact absurd here.1 there.1
      | inr before => exact .inr before
  present := ScriptMap.get_remember_self (by decide)
  objects := caches.objects
  dispatching := caches.dispatching
  sent := caches.sent
  clock := caches.clock
  queues := caches.queues

theorem Cooled.knows_new {state : ReefPeerNoticeState} (cooled : Cooled world)
    (caches : world.Caches later peer ⟨world.objects, state⟩) (counted : world.objects < later.objects)
    (whole : state.Whole) (covered : state.resendBlocked = false → ∀ notice,
      world.Fresh peer notice → covers state.lastResendAt notice.sentAt = true) :
    later.Knows peer ⟨world.objects, state⟩ where
  made := counted
  whole := whole
  covered unblocked notice fresh := by
    have known := covered unblocked notice (fresh.before caches.sent (Nat.le_of_eq caches.clock.symm))
    unfold currentResend
    rw [caches.dispatching]
    cases busy : world.dispatching peer with
    | none => exact known
    | some dispatch =>
      have apart : dispatch.object ≠ world.objects :=
        Nat.ne_of_lt (cooled.working peer dispatch busy).2
      dsimp only
      rw [if_neg apart]
      exact known

theorem Informed.covered {reservations : List ReefRejectionNoticeState}
    (informed : world.Informed peer reservations) {notice : SentNotice}
    (fresh : world.Fresh peer notice) : covers (reservations.foldl ReefPeerNoticeState.recover
      (.loaded (world.peers peer).rejectionNotice)).lastResendAt notice.sentAt = true :=
  informed notice fresh.sent fresh.peer fresh.allows fresh.recent

theorem Cooled.touchPeerState {loads : Bool} {cached : CachedPeer} (cooled : Cooled world)
    (informed : world.peerStates.get peer = none → loads = true → world.Informed peer [])
    (touched : world.touchPeerState peer loads = some (later, cached)) :
    world.Caches later peer cached ∧ Cooled later := by
  unfold NoticeWorld.touchPeerState at touched
  split at touched
  · rename_i found
    cases touched
    have caches := caches_remember world peer cached
    exact ⟨caches, cooled.caches caches ((cooled.cached peer cached found).transfer
      (Nat.le_refl _) rfl fun _ fresh => fresh.before rfl (Nat.le_refl _))⟩
  · rename_i absent
    split at touched
    · rename_i isLoaded
      cases touched
      have caches := caches_new world peer (.loaded (world.peers peer).rejectionNotice)
      refine ⟨caches, cooled.caches caches (cooled.knows_new caches (Nat.lt_succ_self _)
        (ReefPeerNoticeState.whole_loaded _) fun _ notice fresh => ?_)⟩
      exact (informed absent isLoaded).covered fresh
    · cases touched

theorem Knows.recovered {cached : CachedPeer} (knows : world.Knows peer cached)
    (reservations : List ReefRejectionNoticeState) :
    world.Knows peer
      { cached with state := reservations.foldl ReefPeerNoticeState.recover cached.state } where
  made := knows.made
  whole := knows.whole.recovered reservations
  covered unblocked notice fresh := by
    dsimp only at unblocked
    rw [ReefPeerNoticeState.blocked_recovered] at unblocked
    have known := knows.covered unblocked notice fresh
    unfold currentResend at known ⊢
    cases busy : world.dispatching peer with
    | none =>
      rw [busy] at known
      exact knows.whole.covers_recovered known reservations
    | some dispatch =>
      rw [busy] at known
      dsimp only at known ⊢
      by_cases own : dispatch.object = cached.object
      · rw [if_pos own] at known ⊢
        exact known
      · rw [if_neg own] at known ⊢
        exact knows.whole.covers_recovered known reservations

theorem Cooled.seedPeer (cooled : Cooled world) (rejections : List ReefDeliveryRejection)
    (failing : List String) (well : SeedsWell rejections failing world peer) :
    Cooled (world.seedPeer rejections failing peer) := by
  unfold NoticeWorld.seedPeer NoticeWorld.touchPeerState
  cases found : world.peerStates.get peer with
  | some cached =>
    have caches := caches_remember world peer cached
    have knows := (cooled.cached peer cached found).recovered (recovered rejections peer)
    exact cooled.caches caches.again (knows.transfer (Nat.le_refl _) rfl
      fun _ fresh => fresh.before rfl (Nat.le_refl _))
  | none =>
    cases fails : failing.contains peer with
    | false =>
      have caches := @Caches.again _ _ _ _
        ⟨world.objects, (recovered rejections peer).foldl ReefPeerNoticeState.recover
          (.loaded (world.peers peer).rejectionNotice)⟩
        (caches_new world peer (.loaded (world.peers peer).rejectionNotice))
      refine cooled.caches caches (cooled.knows_new caches (Nat.lt_succ_self _)
        ((ReefPeerNoticeState.whole_loaded _).recovered _) fun _ notice fresh => ?_)
      exact (well found fails).covered fresh
    | true =>
      have caches := caches_new world peer ((recovered rejections peer).foldl
        ReefPeerNoticeState.recover { resendBlocked := true })
      have whole : ReefPeerNoticeState.Whole { resendBlocked := true } := fun _ => rfl
      apply cooled.caches caches (cooled.knows_new caches (Nat.lt_succ_self _) (whole.recovered _) _)
      intro unblocked
      rw [ReefPeerNoticeState.blocked_recovered] at unblocked
      cases unblocked

/-- An idle peer is given leave only when its last one has cooled down, and the object that the
dispatch goes on with has the new one. -/
theorem Cooled.dispatch {rejection : ReefDeliveryRejection} {retryAttempt : Nat}
    {rest : List ReefDeliveryRejection} {cached : CachedPeer} (cooled : Cooled world)
    (idle : world.dispatching rejection.peer = none)
    (found : world.peerStates.get rejection.peer = some cached)
    (isReserved : Bool) (reserved : Option ReefRejectionNoticeState) :
    Cooled (world.dispatch rejection retryAttempt rest cached.object isReserved world.clock
      (planNotice world.clock rejection cached.state.snapshot reserved cached.state.resendBlocked)) := by
  have knows := cooled.cached rejection.peer cached found
  have message := planNotice_message world.clock rejection cached.state.snapshot reserved cached.state.resendBlocked
  -- what the cached object held before, as a plan sees it
  have before : cached.state.resendBlocked = false → ∀ notice, world.Fresh rejection.peer notice →
      covers (cached.state.snapshot.bind ReefRejectionNoticeState.lastResendAt) notice.sentAt = true := by
    intro unblocked notice fresh
    have known := knows.covered unblocked notice fresh
    unfold currentResend at known
    rw [idle] at known
    rw [knows.whole.snapshot_resend]
    exact known
  constructor
  · exact cooled.queued
  · intro peer dispatch busy
    change (if peer = rejection.peer then _ else _) = _ at busy
    split at busy
    · rename_i same
      cases busy
      exact ⟨same.symm, knows.made⟩
    · exact cooled.working peer dispatch busy
  · intro peer other inCache
    by_cases same : peer = rejection.peer
    · subst same
      have isCached : cached = other := Option.some.inj (found.symm.trans inCache)
      subst isCached
      refine ⟨knows.made, knows.whole, fun unblocked notice fresh => ?_⟩
      have current : currentResend (world.dispatch rejection retryAttempt rest cached.object
          isReserved world.clock (planNotice world.clock rejection cached.state.snapshot reserved
            cached.state.resendBlocked)) rejection.peer cached =
          (planNotice world.clock rejection cached.state.snapshot reserved
            cached.state.resendBlocked).state.lastResendAt := by
        unfold currentResend
        simp [NoticeWorld.dispatch, setDispatching]
      rw [current]
      cases List.mem_append.mp fresh.sent with
      | inl earlier =>
        apply covers_planNotice (cooled.past notice earlier)
        exact before unblocked notice ⟨earlier, fresh.peer, fresh.allows, fresh.recent⟩
      | inr new =>
        have isNew := List.mem_singleton.mp new
        have allows := fresh.allows
        rw [isNew] at allows ⊢
        exact covers_iff.mpr ⟨world.clock, (planNotice_allows allows).2.2, Nat.le_refl _⟩
    · refine (cooled.cached peer other inCache).transfer (Nat.le_refl _) (if_neg same) ?_
      intro notice fresh
      cases List.mem_append.mp fresh.sent with
      | inl earlier => exact ⟨earlier, fresh.peer, fresh.allows, fresh.recent⟩
      | inr new =>
        have own := fresh.peer
        rw [List.mem_singleton.mp new] at own
        exact absurd (own.symm.trans message.1) same
  · apply List.pairwise_append.mpr ⟨cooled.spaced, List.pairwise_singleton _ _, ?_⟩
    intro earlier inSent last isLast samePeer earlierAllows lastAllows
    rw [List.mem_singleton.mp isLast] at samePeer lastAllows ⊢
    obtain ⟨unblocked, cooledDown, _⟩ := planNotice_allows lastAllows
    apply Nat.le_of_not_lt
    intro recent
    have covered := before unblocked earlier ⟨inSent, samePeer.trans message.1, earlierAllows, recent⟩
    exact Nat.not_le.mpr recent (cooled_down cooledDown covered)
  · intro notice inSent
    cases List.mem_append.mp inSent with
    | inl earlier => exact cooled.past notice earlier
    | inr new =>
      rw [List.mem_singleton.mp new]
      exact Nat.le_refl _

/-- Everything in memory is forgotten. -/
theorem Cooled.restart (cooled : Cooled world) : Cooled world.restart where
  queued _ _ inQueue := (by cases inQueue)
  working _ _ busy := (by cases busy)
  cached _ _ found := (by cases found)
  spaced := cooled.spaced
  past := cooled.past

theorem Cooled.notifyCached {rejection : ReefDeliveryRejection} {cached : CachedPeer}
    (cooled : Cooled world) (idle : world.dispatching rejection.peer = none)
    (found : world.peerStates.get rejection.peer = some cached) (retryAttempt : Nat)
    (rest : List ReefDeliveryRejection) (moment : NoticeMoment) (now : moment.now = world.clock) :
    Cooled (world.notifyCached rejection retryAttempt rest moment cached) := by
  unfold NoticeWorld.notifyCached
  split
  · exact cooled.quiet ((Quiet.scheduleRetry _ _ _ _).trans (Quiet.proceed _ _))
  rename_i reserved existing done
  obtain ⟨slot, _, rfl⟩ := reserve_some done
  have stored : Cooled (world.setDelivery rejection.peer rejection.id slot) :=
    cooled.quiet (Quiet.of_same rfl rfl rfl rfl rfl rfl)
  split
  · rw [now]
    exact stored.dispatch idle found _ _
  · exact stored.restart

theorem Cooled.notifyRejection {rejection : ReefDeliveryRejection} (cooled : Cooled world)
    (idle : world.dispatching rejection.peer = none) (retryAttempt : Nat)
    (rest : List ReefDeliveryRejection) (moment : NoticeMoment) (now : moment.now = world.clock)
    (informed : world.completed.rows.contains rejection.key = false →
      world.inFlight.rows.contains rejection.key = false →
        world.peerStates.get rejection.peer = none → moment.loads = true → world.Informed rejection.peer []) :
    Cooled (world.notifyRejection rejection retryAttempt rest moment) := by
  unfold NoticeWorld.notifyRejection
  split
  · exact cooled.quiet (Quiet.proceed _ _)
  rename_i neither
  have added : Cooled { world with inFlight := world.inFlight.add rejection.key } :=
    cooled.quiet (Quiet.of_same rfl rfl rfl rfl rfl rfl)
  split
  · exact added.quiet ((Quiet.scheduleRetry _ _ _ _).trans (Quiet.proceed _ _))
  · rename_i touched cached done
    rw [not_or, Bool.not_eq_true, Bool.not_eq_true] at neither
    obtain ⟨caches, cooledDown⟩ := added.touchPeerState (informed neither.1 neither.2) done
    apply cooledDown.notifyCached
    · rw [caches.dispatching]
      exact idle
    · exact caches.present
    · rw [caches.clock]
      exact now

theorem Cooled.applyState {dispatch : NoticeDispatch} (cooled : Cooled world)
    (busy : world.dispatching peer = some dispatch) :
    Cooled ((world.setDispatching peer none).applyState peer dispatch.object dispatch.state) := by
  have others : ∀ other, other ≠ peer →
      (world.setDispatching peer none).dispatching other = world.dispatching other :=
    fun other apart => if_neg apart
  have idle : (world.setDispatching peer none).dispatching peer = none := if_pos rfl
  -- every entry but the one of the object is as before
  have kept : ∀ other cached, world.peerStates.get other = some cached →
      (other = peer → cached.object ≠ dispatch.object) → (world.setDispatching peer none).Knows other cached := by
    intro other cached found apart
    have knows := cooled.cached other cached found
    by_cases same : other = peer
    · subst same
      refine ⟨knows.made, knows.whole, fun unblocked notice fresh => ?_⟩
      have known := knows.covered unblocked notice (fresh.before rfl (Nat.le_refl _))
      unfold currentResend at known ⊢
      rw [idle]
      rw [busy] at known
      dsimp only at known
      rw [if_neg (Ne.symm (apart rfl))] at known
      exact known
    · exact knows.transfer (Nat.le_refl _) (others other same)
        fun notice fresh => fresh.before rfl (Nat.le_refl _)
  have working : ∀ other found, (world.setDispatching peer none).dispatching other = some found →
      found.rejection.peer = other ∧ found.object < world.objects := by
    intro other found inWork
    by_cases same : other = peer
    · rw [same, idle] at inWork
      cases inWork
    · rw [others other same] at inWork
      exact cooled.working other found inWork
  unfold NoticeWorld.applyState
  cases found : (world.setDispatching peer none).peerStates.get peer with
  | none =>
    refine ⟨cooled.queued, working, fun other cached inCache => ?_, cooled.spaced, cooled.past⟩
    apply kept other cached inCache
    rintro rfl
    cases found.symm.trans inCache
  | some cached =>
    dsimp only
    split
    · rename_i own
      refine ⟨cooled.queued, working, fun other after inCache => ?_, cooled.spaced, cooled.past⟩
      dsimp only at inCache
      rw [ScriptMap.get_set] at inCache
      split at inCache
      · rename_i same
        subst same
        cases inCache
        have knows := cooled.cached peer cached found
        refine ⟨knows.made, ReefPeerNoticeState.whole_apply _ _, fun unblocked notice fresh => ?_⟩
        have known := knows.covered unblocked notice (fresh.before rfl (Nat.le_refl _))
        unfold currentResend at known ⊢
        dsimp only
        rw [idle]
        rw [busy] at known
        dsimp only at known
        rw [if_pos own.symm] at known
        exact known
      · rename_i apart
        exact (kept other after inCache fun same => absurd same.symm apart).transfer
          (Nat.le_refl _) rfl fun notice fresh => fresh.before rfl (Nat.le_refl _)
    · rename_i apart
      refine ⟨cooled.queued, working, fun other after inCache => ?_, cooled.spaced, cooled.past⟩
      apply kept other after inCache
      rintro rfl
      cases found.symm.trans inCache
      exact apart

theorem Cooled.startTask {task : NoticeTask} (cooled : Cooled world)
    (idle : world.dispatching task.rejection.peer = none) (moment : NoticeMoment)
    (now : moment.now = world.clock)
    (informed : world.notifies task = true → world.peerStates.get task.rejection.peer = none →
      moment.loads = true → world.Informed task.rejection.peer []) :
    Cooled (world.startTask moment task) := by
  cases task with
  | notify rejection rest =>
    apply cooled.notifyRejection idle 0 rest moment now
    intro notCompleted notInFlight absent loads
    refine informed ?_ absent loads
    change (!world.completed.rows.contains rejection.key && !world.inFlight.rows.contains rejection.key) = true
    exact Bool.and_eq_true_iff.mpr ⟨congrArg not notCompleted, congrArg not notInFlight⟩
  | renotify rejection retryAttempt =>
    have removed : Cooled { world with inFlight := world.inFlight.remove rejection.key } :=
      cooled.quiet (Quiet.of_same rfl rfl rfl rfl rfl rfl)
    change Cooled (if world.aborted then _ else _)
    split
    · exact removed
    · rename_i running
      apply removed.notifyRejection idle (retryAttempt + 1) [] moment now
      intro notCompleted _ absent loads
      refine informed ?_ absent loads
      simp only [notifies, Bool.eq_false_iff.mpr running, Bool.not_false, Bool.true_and]
      exact congrArg not notCompleted
  | recomplete rejection state retryAttempt =>
    change Cooled (if world.aborted then _ else _)
    split
    · exact cooled.quiet (Quiet.of_same rfl rfl rfl rfl rfl rfl)
    · exact cooled.quiet (Quiet.completeNotice _ _ _ _ _)

theorem Cooled.runTask (cooled : Cooled world) (moment : NoticeMoment) (now : moment.now = world.clock)
    (informed : world.loadsState peer moment = true → world.Informed peer []) :
    Cooled (world.runTask peer moment) := by
  unfold NoticeWorld.runTask
  split
  · rename_i task rest idle queue
    have own : task.rejection.peer = peer :=
      cooled.queued peer task (by rw [queue]; exact List.mem_cons_self)
    have popped := cooled.quiet (Quiet.popped queue)
    subst own
    apply popped.startTask idle moment now
    intro notifies absent loads
    apply informed
    have absent' : world.peerStates.get task.rejection.peer = none := absent
    have notifies' : world.notifies task = true := by
      cases task <;> exact notifies
    simp only [loadsState, idle, queue, absent', loads, List.head?_cons, Option.any_some, notifies',
      Option.isNone_none, Bool.and_self]
  · exact cooled

theorem Cooled.step (cooled : Cooled world) (event : NoticeEvent) (inOrder : world.InOrder event)
    (well : world.WellLoaded event) : Cooled (machine.step world event) := by
  cases event with
  | batch now rejections failing =>
    have ticked := cooled.quiet (Quiet.tick inOrder)
    have seeded : Cooled ((seeding rejections failing).run (world.tick now) (recoveredPeers rejections)) :=
      Machine.Meets.invariant (fun _ _ seeds before => before.seedPeer rejections failing seeds)
        ticked well
    exact seeded.quiet (Quiet.proceed _ _)
  | run peer moment =>
    have ticked := cooled.quiet (Quiet.tick inOrder)
    exact ticked.runTask moment rfl well
  | dispatched peer succeeds moment =>
    have ticked := cooled.quiet (Quiet.tick inOrder)
    change Cooled ((world.dispatching peer).elim _ _)
    cases busy : world.dispatching peer with
    | none => exact ticked
    | some dispatch =>
      have applied := @Cooled.applyState _ peer _ ticked busy
      change Cooled (endDispatch _ _ _ _ _)
      unfold endDispatch
      split
      · exact applied.quiet ((Quiet.completeNotice _ _ _ _ _).trans (Quiet.proceed _ _))
      · exact applied.quiet ((Quiet.scheduleRetry _ _ _ _).trans (Quiet.proceed _ _))
  | fired index =>
    change Cooled ((world.timers[index]?).elim _ _)
    cases world.timers[index]? with
    | none => exact cooled
    | some timer =>
      have erased : world.Quiet { world with timers := world.timers.eraseIdx index } :=
        Quiet.of_same rfl rfl rfl rfl rfl rfl
      exact cooled.quiet (erased.trans (Quiet.runForPeer _ _))
  | rejected peer id category now =>
    have ticked := cooled.quiet (Quiet.tick inOrder)
    exact ticked.quiet (Quiet.of_same rfl rfl rfl rfl rfl rfl)
  | restart => exact cooled.restart
  | abort | messageSent | dropped | pinned | revoked =>
    exact cooled.quiet (Quiet.of_same rfl rfl rfl rfl rfl rfl)

theorem cooled_boot (peers : String → ReefPeerState) (deliveries : String → String → DeliverySlot) (clock : Nat) :
    Cooled (boot peers deliveries clock) where
  queued _ _ inQueue := (by cases inQueue)
  working _ _ busy := (by cases busy)
  cached _ _ found := (by cases found)
  spaced := .nil
  past _ inSent := (by cases inSent)

theorem reserving_boot (peers : String → ReefPeerState) (deliveries : String → String → DeliverySlot) (clock : Nat) :
    Reserving (boot peers deliveries clock) where
  kept _ inSent := (by cases inSent)
  once := .nil
  forbids _ inSent := (by cases inSent)

/-- Two notices to a peer with leave are a cooldown apart. -/
def LeavesSpaced (world : NoticeWorld) : Prop :=
  world.sent.Pairwise fun earlier later =>
    earlier.notice.peer = later.notice.peer → earlier.notice.allowResend = true → later.notice.allowResend = true →
        earlier.sentAt + REJECTION_RESEND_COOLDOWN_MS ≤ later.sentAt

def OneLeavePerMessage (world : NoticeWorld) : Prop :=
  world.sent.Pairwise fun earlier later =>
    SameMessage earlier later → ¬ (earlier.notice.allowResend = true ∧ later.notice.allowResend = true)

/-- A notice of a message that had its reservation, or a notice before, gives no leave. -/
structure RetriesForbid (world : NoticeWorld) : Prop where
  reserved : ∀ notice ∈ world.sent, notice.reserved = true → notice.notice.allowResend = false
  again : world.sent.Pairwise fun earlier later =>
    SameMessage earlier later → later.notice.allowResend = false

/-- In every run a message is given leave once and its retries forbid it; and in every run whose
loaded states hold the leaves of the last cooldown, the leaves of a peer are a cooldown apart. -/
theorem resend_leave_is_bounded (peers : String → ReefPeerState)
    (deliveries : String → String → DeliverySlot) (clock : Nat) (events : List NoticeEvent) :
    (machine.run (boot peers deliveries clock) events).OneLeavePerMessage ∧
      (machine.run (boot peers deliveries clock) events).RetriesForbid ∧
      (machine.Meets (fun world event => world.InOrder event ∧ world.WellLoaded event)
          (boot peers deliveries clock) events →
        (machine.run (boot peers deliveries clock) events).LeavesSpaced) := by
  have reserving : Reserving (machine.run (boot peers deliveries clock) events) :=
    Machine.run_invariant (fun _ event before => before.step event)
      (reserving_boot peers deliveries clock) events
  refine ⟨?_, ⟨reserving.forbids, reserving.once⟩, fun meets => ?_⟩
  · apply reserving.once.imp
    intro earlier later forbids same both
    rw [forbids same] at both
    cases both.2
  · have cooled : Cooled (machine.run (boot peers deliveries clock) events) :=
      Machine.Meets.invariant (fun _ event met before => before.step event met.1 met.2)
        (cooled_boot peers deliveries clock) meets
    exact cooled.spaced

theorem seedPeer_frame (rejections : List ReefDeliveryRejection) (failing : List String)
    (world : NoticeWorld) (peer : String) :
    ∃ states objects, world.seedPeer rejections failing peer =
      { world with peerStates := states, objects := objects } := by
  unfold seedPeer touchPeerState
  cases world.peerStates.get peer with
  | some cached => exact ⟨_, _, rfl⟩
  | none =>
    cases failing.contains peer with
    | true => exact ⟨_, _, rfl⟩
    | false => exact ⟨_, _, rfl⟩

theorem seeding_frame (rejections : List ReefDeliveryRejection) (failing : List String)
    (peers : List String) (world : NoticeWorld) :
    ∃ states objects, (seeding rejections failing).run world peers =
      { world with peerStates := states, objects := objects } := by
  induction peers generalizing world with
  | nil => exact ⟨world.peerStates, world.objects, rfl⟩
  | cons peer rest ih =>
    obtain ⟨states, objects, seeded⟩ := seedPeer_frame rejections failing world peer
    obtain ⟨laterStates, laterObjects, after⟩ := ih (world.seedPeer rejections failing peer)
    refine ⟨laterStates, laterObjects, after.trans ?_⟩
    rw [seeded]

theorem ids_seedPeer (rejections : List ReefDeliveryRejection) (failing : List String)
    (fits : world.peerStates.ids.length ≤ MAX_REJECTION_TRACKED) :
    (world.seedPeer rejections failing peer).peerStates.ids =
      ScriptMap.pushId MAX_REJECTION_TRACKED world.peerStates.ids peer := by
  have twice : ∀ (first second : CachedPeer), ((world.peerStates.remember MAX_REJECTION_TRACKED peer first).remember
        MAX_REJECTION_TRACKED peer second).ids =
          ScriptMap.pushId MAX_REJECTION_TRACKED world.peerStates.ids peer := by
    intro first second
    rw [ScriptMap.ids_remember, ScriptMap.ids_remember, ScriptMap.pushId_again fits]
  unfold seedPeer touchPeerState
  cases world.peerStates.get peer with
  | some cached => exact twice _ _
  | none =>
    cases failing.contains peer with
    | true => exact ScriptMap.ids_remember _ _ _ _
    | false => exact twice _ _

theorem ids_seeding (rejections : List ReefDeliveryRejection) (failing peers : List String)
    (fits : world.peerStates.ids.length ≤ MAX_REJECTION_TRACKED) :
    ((seeding rejections failing).run world peers).peerStates.ids =
      peers.foldl (ScriptMap.pushId MAX_REJECTION_TRACKED) world.peerStates.ids := by
  induction peers generalizing world with
  | nil => rfl
  | cons peer rest ih =>
    have seeded := @ids_seedPeer world peer rejections failing fits
    have after := @ih (world.seedPeer rejections failing peer) (by rw [seeded]; exact ScriptMap.length_pushId fits)
    rw [seeded] at after
    exact after

theorem InMemory.batch (world : NoticeWorld) (now : Nat)
    (rejections : List ReefDeliveryRejection) (failing : List String) :
    (world.tick now).InMemory (machine.step world (.batch now rejections failing)) :=
  (InMemory.seedRecoveredStates (world.tick now) rejections failing).trans (InMemory.proceed _ rejections)

theorem peerStates_batch (world : NoticeWorld) (now : Nat)
    (rejections : List ReefDeliveryRejection) (failing : List String) :
    (machine.step world (.batch now rejections failing)).peerStates =
      ((world.tick now).seedRecoveredStates rejections failing).peerStates :=
  (Quiet.proceed _ rejections).peerStates

theorem seeded_out {rejections : List ReefDeliveryRejection} (failing : List String)
    (fits : world.peerStates.ids.length ≤ MAX_REJECTION_TRACKED)
    (many : (recoveredPeers rejections).length = MAX_REJECTION_TRACKED)
    (absent : peer ∉ recoveredPeers rejections) :
    (world.seedRecoveredStates rejections failing).peerStates.get peer = none := by
  apply ScriptMap.get_eq_none_iff.mpr
  have seeded := ids_seeding rejections failing (recoveredPeers rejections) fits
  change peer ∉ ((seeding rejections failing).run world (recoveredPeers rejections)).peerStates.ids
  rw [seeded]
  exact ScriptMap.pushed_out (ScriptSet.nodup _) many fits absent

theorem runTask_next {task : NoticeTask} {rest : List NoticeTask} (moment : NoticeMoment)
    (idle : world.dispatching peer = none) (queue : world.peerQueues peer = task :: rest) :
    world.runTask peer moment = (world.setQueue peer rest).startTask moment task := by
  unfold runTask
  rw [idle, queue]

theorem touchPeerState_absent (absent : world.peerStates.get peer = none) : world.touchPeerState peer true =
      some (world.cacheNew peer (.loaded (world.peers peer).rejectionNotice),
        ⟨world.objects, .loaded (world.peers peer).rejectionNotice⟩) := by
  unfold touchPeerState
  rw [absent]
  rfl

/-- A first rejection by the guard of a trusted peer. -/
structure Grantable (world : NoticeWorld) (rejection : ReefDeliveryRejection) : Prop where
  trusted : matchesReefPeerIdentity (world.peers rejection.peer).trust rejection.recipient = true
  unreserved : rejection.reservedNotice = none
  denied : rejection.category = some "guard_deny"
  hashed : rejection.textHash.isSome = true
  held : world.deliveries rejection.peer rejection.id =
    .held ⟨rejection.recipient, rejection.textHash, false, some ⟨rejection.category, none⟩⟩

/-- It is new to an idle peer that has no durable state. -/
structure Deniable (world : NoticeWorld) (rejection : ReefDeliveryRejection) : Prop
    extends Grantable world rejection where
  idle : world.dispatching rejection.peer = none
  empty : world.peerQueues rejection.peer = []
  durable : (world.peers rejection.peer).rejectionNotice = none
  notCompleted : world.completed.rows.contains rejection.key = false
  notInFlight : world.inFlight.rows.contains rejection.key = false

variable {rejection : ReefDeliveryRejection}

theorem Grantable.notifyCached (grantable : world.Grantable rejection) (object now : Nat) :
    (world.notifyCached rejection 0 [] { now } ⟨object, .loaded none⟩).sent =
      world.sent ++ [⟨buildNotice rejection true, now, false⟩] := by
  have plan : planNotice now rejection none none false = ⟨buildNotice rejection true, ⟨now, some now⟩⟩ := by
    simp [planNotice, allowsResend, grantable.denied, grantable.hashed, coolingDown]
  have reserved : (world.deliveries rejection.peer rejection.id).reserve rejection.recipient ⟨now, some now⟩ =
        some (.held ⟨rejection.recipient, rejection.textHash, false,
          some ⟨rejection.category, some ⟨now, some now⟩⟩⟩, none) := by
    rw [grantable.held]
    simp [DeliverySlot.reserve]
  unfold NoticeWorld.notifyCached
  simp only [ReefPeerNoticeState.loaded, ReefPeerNoticeState.snapshot, Option.map_none,
    Option.bind_none, grantable.unreserved, plan, reserve, grantable.trusted, reserved,
    Bool.true_eq_false, or_self, if_false, Option.map_some, Option.or_none, if_true]
  rfl

theorem Deniable.notifyRejection (deniable : world.Deniable rejection)
    (absent : world.peerStates.get rejection.peer = none) (now : Nat) :
    (world.notifyRejection rejection 0 [] { now }).sent =
      world.sent ++ [⟨buildNotice rejection true, now, false⟩] := by
  have neither : ¬ (world.completed.rows.contains rejection.key = true ∨
      world.inFlight.rows.contains rejection.key = true) := by
    rw [deniable.notCompleted, deniable.notInFlight]
    decide
  have touched := @touchPeerState_absent
    { world with inFlight := world.inFlight.add rejection.key } rejection.peer absent
  unfold NoticeWorld.notifyRejection
  rw [if_neg neither]
  dsimp only
  rw [touched]
  dsimp only
  rw [deniable.durable]
  have grantable : Grantable (cacheNew { world with inFlight := world.inFlight.add rejection.key }
      rejection.peer (.loaded none)) rejection :=
    ⟨deniable.trusted, deniable.unreserved, deniable.denied, deniable.hashed, deniable.held⟩
  exact grantable.notifyCached world.objects now

theorem Deniable.allows (deniable : world.Deniable rejection)
    (absent : world.peerStates.get rejection.peer = none) (now : Nat) :
    (machine.run world [.batch now [rejection] [], .run rejection.peer { now }]).sent =
      world.sent ++ [⟨buildNotice rejection true, now, false⟩] := by
  have unseeded : recoveredPeers [rejection] = [] := by
    simp [recoveredPeers, deniable.unreserved, ScriptSet.ofList, ScriptSet.addAll, Table.empty]
  have batched : machine.step world (.batch now [rejection] []) =
      (world.tick now).runForPeer (.notify rejection []) := by
    have seeded : (world.tick now).seedRecoveredStates [rejection] [] = world.tick now := by
      unfold seedRecoveredStates
      rw [unseeded]
      rfl
    change ((world.tick now).seedRecoveredStates [rejection] []).proceed [rejection] = _
    rw [seeded]
    rfl
  have queue : (((world.tick now).runForPeer (.notify rejection [])).tick now).peerQueues
      rejection.peer = [.notify rejection []] := by
    simp [runForPeer, setQueue, tick, NoticeTask.rejection, deniable.empty]
  have started := @runTask_next (((world.tick now).runForPeer (.notify rejection [])).tick now)
    rejection.peer _ _ { now } deniable.idle queue
  have popped : ((((world.tick now).runForPeer (.notify rejection [])).tick now).setQueue
      rejection.peer []).Deniable rejection :=
    { deniable with empty := if_pos rfl }
  rw [Machine.run_cons, Machine.run_cons, Machine.run_nil, batched]
  change (runTask _ rejection.peer { now }).sent = _
  rw [started]
  exact popped.notifyRejection absent now

theorem Deniable.proceed (deniable : world.Deniable rejection)
    {rest : List ReefDeliveryRejection} (apart : ∀ other ∈ rest, other.peer ≠ rejection.peer) :
    (world.proceed rest).Deniable rejection := by
  cases rest with
  | nil => exact deniable
  | cons other rest =>
    have elsewhere := apart other List.mem_cons_self
    exact { deniable with empty := (if_neg (Ne.symm elsewhere)).trans deniable.empty }

theorem Deniable.batch (deniable : world.Deniable rejection) (now : Nat)
    {rejections : List ReefDeliveryRejection} (failing : List String)
    (apart : ∀ other ∈ rejections, other.peer ≠ rejection.peer) :
    (machine.step world (.batch now rejections failing)).Deniable rejection := by
  obtain ⟨states, objects, seeded⟩ := seeding_frame rejections failing (recoveredPeers rejections) (world.tick now)
  have stepped : machine.step world (.batch now rejections failing) =
      NoticeWorld.proceed { world.tick now with peerStates := states, objects := objects } rejections :=
    congrArg (NoticeWorld.proceed · rejections) seeded
  rw [stepped]
  have after : Deniable { world.tick now with peerStates := states, objects := objects } rejection :=
    { deniable with }
  exact after.proceed apart

def crowdPeer (number : Nat) : String :=
  "peer" ++ number.repr

theorem crowdPeer_injective : Function.Injective crowdPeer := by
  intro a b same
  exact NumberedText.repr_injective ((String.append_right_inj "peer").mp same)

def crowdKeys : ReefPeerIdentity :=
  ⟨"ed25519", "x25519", 1⟩

def crowdTrust : ReefPeerTrust where
  autonomy := .extended
  ed25519PublicKey := "ed25519"
  x25519PublicKey := "x25519"
  keyEpoch := 1
  safetyNumberChanged := false
  approvedAt := 0

/-- Every peer is trusted; messages to the last one were denied by its guard, and so were resends to
the others. -/
def crowdWorld : NoticeWorld :=
  boot (fun _ => ⟨1, some crowdTrust, [], none⟩)
    (fun peer _ =>
      if peer = crowdPeer MAX_REJECTION_TRACKED then
        .held ⟨crowdKeys, some "hash", false, some ⟨some "guard_deny", none⟩⟩
      else .held ⟨crowdKeys, some "hash", true, some ⟨some "guard_deny", some ⟨0, none⟩⟩⟩)
    0

def deniedMessage (id : String) : ReefDeliveryRejection :=
  ⟨id, crowdPeer MAX_REJECTION_TRACKED, crowdKeys, some "hash", some "guard_deny", none⟩

def deniedResends (count : Nat) : List ReefDeliveryRejection :=
  (List.range count).map fun number =>
    ⟨"resend", crowdPeer number, crowdKeys, some "hash", some "guard_deny", some ⟨0, none⟩⟩

/-- The first message is given leave, and the agent fails to take the notice. -/
def crowdEvents : List NoticeEvent :=
  [.batch 1 [deniedMessage "first"] [], .run (crowdPeer MAX_REJECTION_TRACKED) { now := 1 },
    .dispatched (crowdPeer MAX_REJECTION_TRACKED) false { now := 2 }]

theorem recoveredPeers_deniedResends (count : Nat) :
    (recoveredPeers (deniedResends count)).Perm ((List.range count).map crowdPeer) := by
  have all : ((deniedResends count).filter fun rejection => rejection.reservedNotice.isSome).map
      ReefDeliveryRejection.peer = (List.range count).map crowdPeer := by
    have each : (deniedResends count).filter (fun rejection => rejection.reservedNotice.isSome) =
        deniedResends count := by
      apply List.filter_eq_self.mpr
      intro rejection isDenied
      obtain ⟨number, _, rfl⟩ := List.mem_map.mp isDenied
      rfl
    rw [each, deniedResends, List.map_map]
    rfl
  have distinct : ((List.range count).map crowdPeer).Nodup :=
    List.pairwise_map.mpr (List.nodup_range.imp fun apart same => apart (crowdPeer_injective same))
  unfold recoveredPeers
  rw [all]
  refine (List.perm_ext_iff_of_nodup (ScriptSet.nodup _) distinct).mpr fun peer => ?_
  exact ScriptSet.mem_ofList

theorem deniedResends_apart {count : Nat} : ∀ other ∈ deniedResends count, other.peer ≠ crowdPeer count := by
  intro other isDenied same
  obtain ⟨number, inRange, rfl⟩ := List.mem_map.mp isDenied
  have isCount := crowdPeer_injective same
  exact Nat.ne_of_lt (List.mem_range.mp inRange) isCount

theorem deniedResends_push_out (world : NoticeWorld)
    (fits : world.peerStates.ids.length ≤ MAX_REJECTION_TRACKED) (now : Nat) :
    (machine.step world (.batch now (deniedResends MAX_REJECTION_TRACKED) [])).peerStates.get
      (crowdPeer MAX_REJECTION_TRACKED) = none := by
  have members := recoveredPeers_deniedResends MAX_REJECTION_TRACKED
  have many : (recoveredPeers (deniedResends MAX_REJECTION_TRACKED)).length = MAX_REJECTION_TRACKED := by
    rw [members.length_eq, List.length_map, List.length_range]
  have absent : crowdPeer MAX_REJECTION_TRACKED ∉ recoveredPeers (deniedResends MAX_REJECTION_TRACKED) := by
    intro inCrowd
    obtain ⟨number, inRange, same⟩ := List.mem_map.mp (members.mem_iff.mp inCrowd)
    rw [crowdPeer_injective same] at inRange
    exact absurd (List.mem_range.mp inRange) (Nat.lt_irrefl _)
  rw [peerStates_batch]
  exact @seeded_out (world.tick now) _ _ [] fits many absent

theorem crowd_deniable :
    (machine.run crowdWorld crowdEvents).Deniable (deniedMessage "second") := by
  constructor
  · constructor <;> decide +kernel
  all_goals decide +kernel

/-- Two messages to a peer are given leave in less than a cooldown: the first notice is not taken by
the agent, and then so many other peers reject messages that the cache forgets the peer. -/
theorem leaves_not_spaced : ¬ ∀ (peers : String → ReefPeerState) (deliveries : String → String → DeliverySlot)
        (clock : Nat) (events : List NoticeEvent),
      machine.Meets InOrder (boot peers deliveries clock) events →
        (machine.run (boot peers deliveries clock) events).LeavesSpaced := by
  intro always
  have forgotten := deniedResends_push_out (machine.run crowdWorld crowdEvents) (by decide +kernel) 3
  have deniable := crowd_deniable.batch 3 [] deniedResends_apart
  have second := deniable.allows forgotten 4
  have crowded := InMemory.batch (machine.run crowdWorld crowdEvents) 3 (deniedResends MAX_REJECTION_TRACKED) []
  have inOrder : machine.Meets InOrder crowdWorld (crowdEvents ++
      [.batch 3 (deniedResends MAX_REJECTION_TRACKED) [], .batch 4 [deniedMessage "second"] [],
        .run (deniedMessage "second").peer { now := 4 }]) := by
    refine ⟨by decide, by decide +kernel, by decide +kernel, by decide +kernel, ?_, ?_, trivial⟩
    · exact Nat.le_trans (Nat.le_of_eq crowded.clock) (Nat.le_succ 3)
    · exact Nat.le_of_eq (InMemory.batch _ 4 _ _).clock
  have spaced := always _ _ 0 _ inOrder
  change LeavesSpaced (machine.run crowdWorld _) at spaced
  unfold LeavesSpaced at spaced
  rw [Machine.run_append, Machine.run_cons, second, crowded.sent] at spaced
  have first : ⟨buildNotice (deniedMessage "first") true, 1, false⟩ ∈
      (machine.run crowdWorld crowdEvents).sent := by
    decide +kernel
  have apart := (List.pairwise_append.mp spaced).2.2 _ first _ (List.mem_singleton_self _) rfl rfl
    rfl
  exact absurd apart (by decide)

/-- The agent takes both notices, and the second leave comes fifteen minutes after the first one. -/
def patientEvents : List NoticeEvent :=
  [.batch 1 [deniedMessage "first"] [], .run (crowdPeer MAX_REJECTION_TRACKED) { now := 1 },
    .dispatched (crowdPeer MAX_REJECTION_TRACKED) true { now := 2 },
    .restart, .batch 900001 [deniedMessage "second"] [],
    .run (crowdPeer MAX_REJECTION_TRACKED) { now := 900001 }]

theorem patient_leaves_spaced : (machine.run crowdWorld patientEvents).LeavesSpaced ∧
      (machine.run crowdWorld patientEvents).sent.countP (·.notice.allowResend) = 2 :=
  ⟨(resend_leave_is_bounded _ _ 0 patientEvents).2.2 (by decide +kernel), by decide +kernel⟩

end NoticeWorld

end PlatformClaw.Reef
