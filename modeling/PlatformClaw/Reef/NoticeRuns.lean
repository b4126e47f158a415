import PlatformClaw.Reef.RejectionNotices

/-! # Runs of the notifier

A notice goes out only when its reservation is stored, so no later notice of the same message gives
leave to resend.
-/

namespace PlatformClaw.Reef

namespace DeliverySlot

variable {slot : DeliverySlot}

/-- The record holds a reservation, or is gone for good. -/
def Reserved (slot : DeliverySlot) : Prop :=
  slot.notice.isSome = true ∨ slot = .gone

/-- What a record may become: a reservation stays until the record goes. -/
def Leads (slot later : DeliverySlot) : Prop :=
  (∀ notice ∈ slot.notice, later.notice = some notice ∨ later = .gone) ∧ (slot = .gone → later = .gone)

theorem Leads.refl (slot : DeliverySlot) : slot.Leads slot :=
  ⟨fun _ held => .inl held, id⟩

theorem Leads.reserved {later : DeliverySlot} (leads : slot.Leads later) (reserved : slot.Reserved) :
    later.Reserved := by
  cases reserved with
  | inl held =>
    obtain ⟨notice, held⟩ := Option.isSome_iff_exists.mp held
    cases leads.1 notice held with
    | inl still =>
      refine .inl ?_
      rw [still]
      rfl
    | inr gone => exact .inr gone
  | inr gone => exact .inr (leads.2 gone)

theorem record_leads (recipient : ReefPeerIdentity) (textHash : Option String)
    (resendDisabled : Bool) : slot.Leads (slot.record recipient textHash resendDisabled) := by
  cases slot with
  | unsent => exact ⟨fun _ held => (by cases held), fun gone => (by cases gone)⟩
  | held | gone => exact Leads.refl _

theorem reject_leads (category : Option String) (now : Nat) : slot.Leads (slot.reject category now) := by
  cases slot with
  | unsent | gone => exact Leads.refl _
  | held delivery =>
    obtain ⟨recipient, textHash, resendDisabled, rejection⟩ := delivery
    cases rejection with
    | none => exact ⟨fun _ held => (by cases held), fun gone => (by cases gone)⟩
    | some rejection => exact Leads.refl _

theorem gone_leads : slot.Leads .gone :=
  ⟨fun _ _ => .inr rfl, fun _ => rfl⟩

/-- What a reservation has found, and what it leaves. -/
theorem reserve_some {recipient : ReefPeerIdentity} {state : ReefRejectionNoticeState}
    {later : DeliverySlot} {existing : Option ReefRejectionNoticeState}
    (done : slot.reserve recipient state = some (later, existing)) :
    existing = slot.notice ∧ later.notice = some (existing.getD state) ∧ slot ≠ .gone := by
  cases slot with
  | unsent | gone => cases done
  | held delivery =>
    obtain ⟨pinned, textHash, resendDisabled, rejection⟩ := delivery
    cases rejection with
    | none => cases done
    | some rejection =>
      obtain ⟨category, notice⟩ := rejection
      simp only [reserve] at done
      split at done
      · cases done
      · cases notice with
        | some held =>
          cases done
          exact ⟨rfl, rfl, fun same => by cases same⟩
        | none =>
          cases done
          exact ⟨rfl, rfl, fun same => by cases same⟩

theorem reserve_leads {recipient : ReefPeerIdentity} {state : ReefRejectionNoticeState}
    {later : DeliverySlot} {existing : Option ReefRejectionNoticeState}
    (done : slot.reserve recipient state = some (later, existing)) : slot.Leads later := by
  obtain ⟨found, holds, present⟩ := reserve_some done
  refine ⟨fun notice held => .inl ?_, fun gone => absurd gone present⟩
  rw [holds, found, Option.mem_def.mp held]
  rfl

end DeliverySlot

namespace NoticeWorld

variable {world later : NoticeWorld} {peer id : String}

/-- The stores, the clock and the notices are as before. -/
structure InMemory (world later : NoticeWorld) : Prop where
  peers : later.peers = world.peers
  deliveries : later.deliveries = world.deliveries
  clock : later.clock = world.clock
  sent : later.sent = world.sent

namespace InMemory

theorem refl (world : NoticeWorld) : world.InMemory world :=
  ⟨rfl, rfl, rfl, rfl⟩

theorem trans {last : NoticeWorld} (first : world.InMemory later) (second : later.InMemory last) :
    world.InMemory last :=
  ⟨second.peers.trans first.peers, second.deliveries.trans first.deliveries,
    second.clock.trans first.clock, second.sent.trans first.sent⟩

theorem runForPeer (world : NoticeWorld) (task : NoticeTask) : world.InMemory (world.runForPeer task) :=
  ⟨rfl, rfl, rfl, rfl⟩

theorem proceed (world : NoticeWorld) (rest : List ReefDeliveryRejection) : world.InMemory (world.proceed rest) := by
  cases rest with
  | nil => exact refl world
  | cons rejection rest => exact runForPeer world (.notify rejection rest)

theorem rememberPeerState (world : NoticeWorld) (peer : String) (cached : CachedPeer) :
    world.InMemory (world.rememberPeerState peer cached) :=
  ⟨rfl, rfl, rfl, rfl⟩

theorem cacheNew (world : NoticeWorld) (peer : String) (state : ReefPeerNoticeState) :
    world.InMemory (world.cacheNew peer state) :=
  ⟨rfl, rfl, rfl, rfl⟩

theorem touchPeerState {loads : Bool} {cached : CachedPeer}
    (touched : world.touchPeerState peer loads = some (later, cached)) : world.InMemory later := by
  unfold NoticeWorld.touchPeerState at touched
  split at touched
  · cases touched
    exact rememberPeerState world peer _
  · split at touched
    · cases touched
      exact cacheNew world peer _
    · cases touched

theorem seedPeer (rejections : List ReefDeliveryRejection) (failing : List String)
    (world : NoticeWorld) (peer : String) :
    world.InMemory (world.seedPeer rejections failing peer) := by
  unfold NoticeWorld.seedPeer
  split
  · rename_i touched
    exact (touchPeerState touched).trans (rememberPeerState _ peer _)
  · exact cacheNew world peer _

theorem seedRecoveredStates (world : NoticeWorld) (rejections : List ReefDeliveryRejection)
    (failing : List String) : world.InMemory (world.seedRecoveredStates rejections failing) := by
  unfold NoticeWorld.seedRecoveredStates
  induction recoveredPeers rejections generalizing world with
  | nil => exact refl world
  | cons first rest ih => exact (seedPeer rejections failing world first).trans (ih _)

theorem scheduleRetry (world : NoticeWorld) (task : NoticeTask) (retryAttempt : Nat)
    (schedules : Bool) : world.InMemory (world.scheduleRetry task retryAttempt schedules) := by
  unfold NoticeWorld.scheduleRetry
  split <;> exact ⟨rfl, rfl, rfl, rfl⟩

theorem applyState (world : NoticeWorld) (peer : String) (object : Nat)
    (state : ReefRejectionNoticeState) : world.InMemory (world.applyState peer object state) := by
  unfold NoticeWorld.applyState
  split
  · split
    · exact ⟨rfl, rfl, rfl, rfl⟩
    · exact refl world
  · exact refl world

end InMemory

/-- Both notices are of one message. -/
def SameMessage (earlier later : SentNotice) : Prop :=
  earlier.notice.peer = later.notice.peer ∧ earlier.notice.messageId = later.notice.messageId

/-- Every message of a notice has its reservation, and a notice of a message that had one before is
without leave. -/
structure Reserving (world : NoticeWorld) : Prop where
  kept : ∀ notice ∈ world.sent, (world.deliveries notice.notice.peer notice.notice.messageId).Reserved
  once : world.sent.Pairwise fun earlier later =>
    SameMessage earlier later → later.notice.allowResend = false
  forbids : ∀ notice ∈ world.sent, notice.reserved = true → notice.notice.allowResend = false

theorem Reserving.inMemory (reserving : Reserving world) (memory : world.InMemory later) : Reserving later where
  kept := by
    rw [memory.sent, memory.deliveries]
    exact reserving.kept
  once := by
    rw [memory.sent]
    exact reserving.once
  forbids := by
    rw [memory.sent]
    exact reserving.forbids

theorem Reserving.leads (reserving : Reserving world) (sent : later.sent = world.sent)
    (leads : ∀ peer id, (world.deliveries peer id).Leads (later.deliveries peer id)) :
    Reserving later where
  kept notice inSent := by
    rw [sent] at inSent
    exact (leads _ _).reserved (reserving.kept notice inSent)
  once := by
    rw [sent]
    exact reserving.once
  forbids := by
    rw [sent]
    exact reserving.forbids

theorem leads_setDelivery {slot : DeliverySlot} (leads : (world.deliveries peer id).Leads slot)
    (otherPeer otherId : String) : (world.deliveries otherPeer otherId).Leads
      ((world.setDelivery peer id slot).deliveries otherPeer otherId) := by
  change DeliverySlot.Leads _ (if otherPeer = peer ∧ otherId = id then slot else _)
  split
  · rename_i same
    rw [same.1, same.2]
    exact leads
  · exact DeliverySlot.Leads.refl _

theorem Reserving.setDelivery (reserving : Reserving world) {slot : DeliverySlot}
    (leads : (world.deliveries peer id).Leads slot) : Reserving (world.setDelivery peer id slot) :=
  reserving.leads rfl (leads_setDelivery leads)

theorem Reserving.restart (reserving : Reserving world) : Reserving world.restart :=
  reserving.leads rfl fun _ _ => DeliverySlot.Leads.refl _

/-- What a reservation that goes through has found, and what it leaves. -/
theorem reserve_some {rejection : ReefDeliveryRejection} {state : ReefRejectionNoticeState}
    {reserves : Bool} {existing : Option ReefRejectionNoticeState}
    (done : world.reserve rejection state reserves = some (later, existing)) :
    ∃ slot, (world.deliveries rejection.peer rejection.id).reserve rejection.recipient state = some (slot, existing) ∧
      later = world.setDelivery rejection.peer rejection.id slot := by
  unfold reserve at done
  split at done
  · cases done
  · obtain ⟨⟨slot, found⟩, reserved, same⟩ := Option.map_eq_some_iff.mp done
    cases same
    exact ⟨slot, reserved, rfl⟩

theorem planNotice_reserved {now : Nat} {rejection : ReefDeliveryRejection}
    {previous reserved : Option ReefRejectionNoticeState} {resendBlocked : Bool}
    (isReserved : reserved.isSome = true) :
    (planNotice now rejection previous reserved resendBlocked).notice.allowResend = false := by
  obtain ⟨state, rfl⟩ := Option.isSome_iff_exists.mp isReserved
  rfl

theorem planNotice_message (now : Nat) (rejection : ReefDeliveryRejection)
    (previous reserved : Option ReefRejectionNoticeState) (resendBlocked : Bool) :
    (planNotice now rejection previous reserved resendBlocked).notice.peer = rejection.peer ∧
      (planNotice now rejection previous reserved resendBlocked).notice.messageId = rejection.id := by
  cases reserved <;> exact ⟨rfl, rfl⟩

theorem Reserving.notifyCached (reserving : Reserving world) (rejection : ReefDeliveryRejection)
    (retryAttempt : Nat) (rest : List ReefDeliveryRejection) (moment : NoticeMoment)
    (cached : CachedPeer) :
    Reserving (world.notifyCached rejection retryAttempt rest moment cached) := by
  unfold NoticeWorld.notifyCached
  split
  · exact reserving.inMemory ((InMemory.scheduleRetry _ _ _ _).trans (InMemory.proceed _ _))
  rename_i reserved existing done
  obtain ⟨slot, reserves, rfl⟩ := reserve_some done
  obtain ⟨found, holds, present⟩ := DeliverySlot.reserve_some reserves
  have stored := reserving.setDelivery (DeliverySlot.reserve_leads reserves)
  split
  · have message := planNotice_message moment.now rejection cached.state.snapshot
      (existing.or rejection.reservedNotice) cached.state.resendBlocked
    have forbidden : existing.isSome = true → (planNotice moment.now rejection cached.state.snapshot
          (existing.or rejection.reservedNotice) cached.state.resendBlocked).notice.allowResend = false := by
      intro isSome
      apply planNotice_reserved
      rw [Option.isSome_or, isSome]
      rfl
    refine ⟨?_, ?_, ?_⟩
    · intro notice inSent
      cases List.mem_append.mp inSent with
      | inl before => exact stored.kept notice before
      | inr new =>
        rw [List.mem_singleton.mp new]
        dsimp only
        rw [message.1, message.2]
        refine .inl ?_
        change (if _ ∧ _ then slot else _).notice.isSome = true
        rw [if_pos ⟨rfl, rfl⟩, holds]
        rfl
    · refine List.pairwise_append.mpr ⟨stored.once, List.pairwise_singleton _ _, ?_⟩
      intro earlier before notice isLast same
      rw [List.mem_singleton.mp isLast] at same ⊢
      have kept := reserving.kept earlier before
      rw [same.1, same.2] at kept
      dsimp only at kept
      rw [message.1, message.2] at kept
      cases kept with
      | inl held =>
        rw [← found] at held
        exact forbidden held
      | inr gone => exact absurd gone present
    · intro notice inSent wasReserved
      cases List.mem_append.mp inSent with
      | inl before => exact stored.forbids notice before wasReserved
      | inr new =>
        rw [List.mem_singleton.mp new] at wasReserved ⊢
        exact forbidden wasReserved
  · exact stored.restart

theorem Reserving.notifyRejection (reserving : Reserving world) (rejection : ReefDeliveryRejection)
    (retryAttempt : Nat) (rest : List ReefDeliveryRejection) (moment : NoticeMoment) :
    Reserving (world.notifyRejection rejection retryAttempt rest moment) := by
  unfold NoticeWorld.notifyRejection
  split
  · exact reserving.inMemory (InMemory.proceed _ _)
  have added : Reserving { world with inFlight := world.inFlight.add rejection.key } :=
    reserving.inMemory ⟨rfl, rfl, rfl, rfl⟩
  split
  · exact added.inMemory ((InMemory.scheduleRetry _ _ _ _).trans (InMemory.proceed _ _))
  · rename_i touched
    exact (added.inMemory (InMemory.touchPeerState touched)).notifyCached _ _ _ _ _

theorem Reserving.recordNotice (reserving : Reserving world) (peer : String)
    (state : ReefRejectionNoticeState) : Reserving (world.recordNotice peer state) :=
  reserving.leads rfl fun _ _ => DeliverySlot.Leads.refl _

theorem Reserving.completeNotice (reserving : Reserving world) (rejection : ReefDeliveryRejection)
    (state : ReefRejectionNoticeState) (retryAttempt : Nat) (moment : NoticeMoment) :
    Reserving (world.completeNotice rejection state retryAttempt moment) := by
  have recorded := reserving.recordNotice rejection.peer state
  unfold NoticeWorld.completeNotice
  split
  · exact reserving.inMemory (InMemory.scheduleRetry _ _ _ _)
  split
  · exact recorded.inMemory (InMemory.scheduleRetry _ _ _ _)
  split
  · exact recorded.inMemory (InMemory.scheduleRetry _ _ _ _)
  · rename_i deleted done
    have deletes : Reserving deleted := by
      unfold deleteReservation at done
      split at done
      · split at done
        · cases done
          exact recorded.setDelivery DeliverySlot.gone_leads
        · cases done
      · cases done
        exact recorded
      · cases done
        exact recorded
    exact deletes.inMemory ⟨rfl, rfl, rfl, rfl⟩

theorem Reserving.startTask (reserving : Reserving world) (moment : NoticeMoment)
    (task : NoticeTask) : Reserving (world.startTask moment task) := by
  cases task with
  | notify rejection rest => exact reserving.notifyRejection _ _ _ _
  | renotify rejection retryAttempt =>
    change Reserving (if world.aborted then _ else _)
    have removed : Reserving { world with inFlight := world.inFlight.remove rejection.key } :=
      reserving.inMemory ⟨rfl, rfl, rfl, rfl⟩
    split
    · exact removed
    · exact removed.notifyRejection _ _ _ _
  | recomplete rejection state retryAttempt =>
    change Reserving (if world.aborted then _ else _)
    split
    · exact reserving.inMemory ⟨rfl, rfl, rfl, rfl⟩
    · exact reserving.completeNotice _ _ _ _

theorem Reserving.step (reserving : Reserving world) (event : NoticeEvent) : Reserving (world.step event) := by
  have ticked : ∀ now, Reserving (world.tick now) := fun _ =>
    reserving.leads rfl fun _ _ => DeliverySlot.Leads.refl _
  cases event with
  | batch now rejections failing =>
    exact (ticked now).inMemory ((InMemory.seedRecoveredStates _ _ _).trans (InMemory.proceed _ _))
  | run peer moment =>
    change Reserving ((world.tick moment.now).runTask peer moment)
    unfold runTask
    split
    · have popped : ∀ rest, Reserving ((world.tick moment.now).setQueue peer rest) := fun _ =>
        (ticked moment.now).inMemory ⟨rfl, rfl, rfl, rfl⟩
      exact (popped _).startTask moment _
    · exact ticked moment.now
  | dispatched peer succeeds moment =>
    change Reserving ((world.dispatching peer).elim _ _)
    cases world.dispatching peer with
    | none => exact ticked moment.now
    | some dispatch =>
      have free : Reserving ((world.tick moment.now).setDispatching peer none) :=
        (ticked moment.now).inMemory ⟨rfl, rfl, rfl, rfl⟩
      have applied := free.inMemory (InMemory.applyState _ peer dispatch.object dispatch.state)
      change Reserving (endDispatch _ _ _ _ _)
      unfold endDispatch
      split
      · exact (applied.completeNotice _ _ _ _).inMemory (InMemory.proceed _ _)
      · exact applied.inMemory ((InMemory.scheduleRetry _ _ _ _).trans (InMemory.proceed _ _))
  | fired index =>
    change Reserving ((world.timers[index]?).elim _ _)
    cases world.timers[index]? with
    | none => exact reserving
    | some timer => exact reserving.inMemory ⟨rfl, rfl, rfl, rfl⟩
  | abort => exact reserving.inMemory ⟨rfl, rfl, rfl, rfl⟩
  | restart => exact reserving.restart
  | messageSent peer id recipient textHash resendDisabled =>
    exact reserving.setDelivery (DeliverySlot.record_leads recipient textHash resendDisabled)
  | rejected peer id category now =>
    exact (ticked now).setDelivery (DeliverySlot.reject_leads category now)
  | dropped peer id => exact reserving.setDelivery DeliverySlot.gone_leads
  | pinned peer trust => exact reserving.leads rfl fun _ _ => DeliverySlot.Leads.refl _
  | revoked peer => exact reserving.leads rfl fun _ _ => DeliverySlot.Leads.refl _

end NoticeWorld

end PlatformClaw.Reef
