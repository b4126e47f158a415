import PlatformClaw.Execution.Lease
import PlatformClaw.Library.Positions

/-! # Every channel is accounted for

The counter of a lease is the number of release functions that were handed out
and not called. The queue holds calls that wait and no others, it is empty while
a channel is free, and it is empty for good once the lease is retired.
-/

namespace PlatformClaw.Execution

open Positions (modifyAll)

/-- The call has a channel: it was granted, and not released yet. -/
def SessionCall.holds (call : SessionCall) : Bool :=
  call.channel = .held

@[simp] theorem SessionCall.holds_reject (call : SessionCall) : call.reject.holds = call.holds := rfl

def Phase.isCreating : Phase → Bool
  | .granted | .connecting | .opening | .discarding => true
  | .queued | .opened | .failed => false

/-- What a call holds and how its waiter stands, by the await it is at. -/
structure SessionCall.Consistent (call : SessionCall) : Prop where
  holds : call.holds = true ↔ call.phase.isCreating = true ∨ call.phase = .opened ∧ call.disposed = false
  queued : call.phase = .queued → call.waiter = some []
  settled : call.phase ≠ .queued → ∀ outcomes, call.waiter = some outcomes → outcomes.length = 1
  disposed : call.disposed = true → call.phase = .opened

theorem SessionCall.Consistent.not_queued {call : SessionCall} (consistent : call.Consistent)
    (holds : call.holds = true) : call.phase ≠ .queued := by
  rcases consistent.holds.mp holds with creating | ⟨opened, -⟩ <;> intro queued
  · rw [queued] at creating
    cases creating
  · cases opened.symm.trans queued

theorem SessionCall.Consistent.reject {call : SessionCall} (consistent : call.Consistent)
    (queued : call.phase = .queued) : call.reject.Consistent where
  holds := by
    rw [SessionCall.holds_reject, consistent.holds, queued]
    simp [SessionCall.reject, Phase.isCreating]
  queued := fun failed => nomatch failed
  settled := by
    intro _ outcomes settled
    simp only [SessionCall.reject, consistent.queued queued, Option.map_some] at settled
    cases settled
    rfl
  disposed := fun disposed => nomatch queued.symm.trans (consistent.disposed disposed)

theorem SessionCall.Consistent.takeChannel {call : SessionCall} (consistent : call.Consistent)
    (queued : call.phase = .queued) : call.takeChannel.Consistent where
  holds := by simp [SessionCall.takeChannel, SessionCall.holds, Phase.isCreating]
  queued := fun granted => nomatch granted
  settled := by
    intro _ outcomes settled
    simp only [SessionCall.takeChannel, consistent.queued queued, Option.map_some] at settled
    cases settled
    rfl
  disposed := fun disposed => nomatch queued.symm.trans (consistent.disposed disposed)

namespace Lease

/-- The sessions that were granted and not released yet. -/
def held (lease : Lease) : Nat :=
  lease.calls.countP SessionCall.holds

structure Accounted (limits : ChannelLimits) (lease : Lease) : Prop where
  counted : lease.activeChannels = lease.held
  bounded : lease.activeChannels ≤ limits.maxChannels
  full : lease.waiters ≠ [] → lease.activeChannels = limits.maxChannels
  distinct : lease.waiters.Nodup
  known : ∀ id ∈ lease.waiters, id < lease.calls.length
  calls : ∀ id (call : SessionCall), lease.calls[id]? = some call →
    call.Consistent ∧ (id ∈ lease.waiters ↔ call.phase = .queued)
  shut : lease.retired = true → lease.waiters = []
  retired : lease.closed = true → lease.retired = true

variable {limits : ChannelLimits} {lease : Lease} {id : Nat} {call : SessionCall}
  {change : SessionCall → SessionCall}

theorem accounted_fresh : fresh.Accounted limits where
  counted := rfl
  bounded := Nat.zero_le _
  full := fun waits => absurd rfl waits
  distinct := List.nodup_nil
  known := fun _ inWaiters => absurd inWaiters List.not_mem_nil
  calls := fun _ _ found => nomatch found
  shut := fun _ => rfl
  retired := fun closed => closed

@[simp] theorem modify_waiters (lease : Lease) (id : Nat) (change : SessionCall → SessionCall) :
    (lease.modify id change).waiters = lease.waiters := rfl

@[simp] theorem modify_length (lease : Lease) (id : Nat) (change : SessionCall → SessionCall) :
    (lease.modify id change).calls.length = lease.calls.length :=
  List.length_modify ..

theorem getElem?_modify (lease : Lease) (id : Nat) (change : SessionCall → SessionCall)
    (place : Nat) : (lease.modify id change).calls[place]? =
      lease.calls[place]?.map fun call => if id = place then change call else call :=
  List.getElem?_modify ..

theorem held_modify (found : lease.calls[id]? = some call) :
    (lease.modify id change).held + (if call.holds then 1 else 0) =
      lease.held + if (change call).holds then 1 else 0 :=
  Positions.countP_modify _ found

theorem Accounted.modify (accounted : lease.Accounted limits)
    (found : lease.calls[id]? = some call) (consistent : (change call).Consistent)
    (holds : (change call).holds = call.holds)
    (queued : (change call).phase = .queued ↔ call.phase = .queued) :
    (lease.modify id change).Accounted limits := by
  have held : (lease.modify id change).held = lease.held := by
    have counted : (lease.modify id change).held + _ = _ := held_modify found
    rw [holds] at counted
    omega
  refine { accounted with counted := ?_, known := ?_, calls := ?_ }
  · exact accounted.counted.trans held.symm
  · intro other waits
    rw [modify_length]
    exact accounted.known other waits
  · intro other changed located
    rw [getElem?_modify] at located
    obtain ⟨before, old, rfl⟩ := Option.map_eq_some_iff.mp located
    split
    · rename_i same
      cases found.symm.trans (same ▸ old)
      exact ⟨consistent, (accounted.calls other call old).2.trans queued.symm⟩
    · exact accounted.calls other before old

theorem foldl_reject (names : List Nat) (lease : Lease) :
    names.foldl (fun lease id => lease.modify id .reject) lease =
      { lease with calls := modifyAll .reject names lease.calls } := by
  induction names generalizing lease with
  | nil => rfl
  | cons id rest ih =>
    rw [List.foldl_cons, ih]
    rfl

theorem rejectWaiters_eq (lease : Lease) : lease.rejectWaiters =
    { lease with waiters := [], calls := modifyAll .reject lease.waiters lease.calls } := by
  rw [rejectWaiters, foldl_reject]

/-- All waiters are turned away, and none is let in again. -/
theorem Accounted.shut_down (accounted : lease.Accounted limits) (closed closing idleTimer : Bool) :
    (rejectWaiters { lease with retired := true, closed, closing, idleTimer }).Accounted limits := by
  rw [rejectWaiters_eq]
  refine
    { counted := ?_, bounded := accounted.bounded, full := ?_, distinct := List.nodup_nil
      known := ?_, calls := ?_, shut := fun _ => rfl, retired := fun _ => rfl }
  · have kept : (modifyAll .reject lease.waiters lease.calls).countP SessionCall.holds = lease.held :=
      Positions.countP_modifyAll SessionCall.holds SessionCall.holds_reject _
    exact accounted.counted.trans kept.symm
  · exact fun waits => absurd rfl waits
  · exact fun _ waits => absurd waits List.not_mem_nil
  · intro id changed located
    rw [Positions.getElem?_modifyAll accounted.distinct] at located
    obtain ⟨call, found, rfl⟩ := Option.map_eq_some_iff.mp located
    obtain ⟨consistent, waits⟩ := accounted.calls id call found
    split
    · rename_i waiting
      exact ⟨consistent.reject (waits.mp waiting), by simp [SessionCall.reject]⟩
    · rename_i going
      exact ⟨consistent, by simpa using mt waits.mpr going⟩

theorem Accounted.close (accounted : lease.Accounted limits) : lease.close.Accounted limits := by
  unfold Lease.close
  split
  · exact accounted
  · exact accounted.shut_down true true false

theorem Accounted.retire (accounted : lease.Accounted limits) : lease.retire.Accounted limits := by
  unfold Lease.retire
  split
  · exact accounted
  · exact (accounted.shut_down lease.closed lease.closing lease.idleTimer).close

theorem modify_modify (lease : Lease) (id : Nat) (first second : SessionCall → SessionCall) :
    (lease.modify id first).modify id second = lease.modify id fun call => second (first call) := by
  simp only [modify, List.modify_modify_eq]
  rfl

theorem Accounted.give_back (accounted : lease.Accounted limits)
    (found : lease.calls[id]? = some call) (holds : call.holds = true)
    (consistent : (change call).Consistent) (gone : (change call).holds = false)
    (queued : (change call).phase ≠ .queued) :
    (lease.modify id change).held + 1 = lease.activeChannels ∧
      ∀ other (changed : SessionCall), (lease.modify id change).calls[other]? = some changed →
        changed.Consistent ∧ (other ∈ lease.waiters ↔ changed.phase = .queued) := by
  have counted : (lease.modify id change).held + _ = _ := held_modify found
  rw [holds, gone, if_pos rfl, if_neg Bool.false_ne_true] at counted
  refine ⟨by rw [counted, accounted.counted, Nat.add_zero], ?_⟩
  intro other changed located
  rw [getElem?_modify] at located
  obtain ⟨before, old, rfl⟩ := Option.map_eq_some_iff.mp located
  split
  · rename_i same
    cases found.symm.trans (same ▸ old)
    obtain ⟨own, waits⟩ := accounted.calls other call old
    exact ⟨consistent, iff_of_false (mt waits.mp (own.not_queued holds)) queued⟩
  · exact accounted.calls other before old

theorem Accounted.scheduleIdleClose (accounted : lease.Accounted limits) :
    lease.scheduleIdleClose.Accounted limits := by
  unfold Lease.scheduleIdleClose
  split
  · exact accounted
  · exact { accounted with }

/-- The lease with one channel in use less. -/
def freed (lease : Lease) : Lease :=
  { lease with activeChannels := lease.activeChannels - 1 }

theorem releaseChannel_cases (lease : Lease) :
    (∃ waiter rest, lease.retired = false ∧ lease.waiters = waiter :: rest ∧
        lease.releaseChannel = { lease with
          waiters := rest
          activeChannels := lease.activeChannels - 1 + 1 }.modify waiter .takeChannel) ∨
      ((lease.retired = true ∨ lease.waiters = []) ∧
        (lease.releaseChannel = lease.freed ∨ lease.releaseChannel = lease.freed.close ∨
          lease.releaseChannel = lease.freed.scheduleIdleClose)) := by
  cases lease with
  | mk activeChannels waiters retired closed closing idleTimer masterRunning calls =>
    cases retired with
    | true =>
      refine .inr ⟨.inl rfl, ?_⟩
      simp only [releaseChannel, if_true, freed]
      split
      · exact .inr (.inl rfl)
      · exact .inl rfl
    | false =>
      cases waiters with
      | nil => exact .inr ⟨.inr rfl, .inr (.inr rfl)⟩
      | cons waiter rest => exact .inl ⟨waiter, rest, rfl, rfl, rfl⟩

theorem Accounted.hand_over (accounted : lease.Accounted limits) {calls : List SessionCall}
    {waiter : Nat} {rest : List Nat} (waiters : lease.waiters = waiter :: rest)
    (length : calls.length = lease.calls.length)
    (counted : calls.countP SessionCall.holds + 1 = lease.activeChannels)
    (standing : ∀ other (changed : SessionCall), calls[other]? = some changed →
      changed.Consistent ∧ (other ∈ lease.waiters ↔ changed.phase = .queued)) :
    ({ lease with calls, waiters := rest, activeChannels := lease.activeChannels - 1 + 1 }.modify
      waiter .takeChannel).Accounted limits := by
  have first : waiter ∈ lease.waiters := waiters ▸ List.mem_cons_self
  obtain ⟨fresh, distinct⟩ := List.nodup_cons.mp (waiters ▸ accounted.distinct)
  obtain ⟨call, found⟩ : ∃ call, calls[waiter]? = some call :=
    ⟨_, List.getElem?_eq_getElem (length ▸ accounted.known waiter first)⟩
  obtain ⟨consistent, waits⟩ := standing waiter call found
  have queued := waits.mp first
  have free : call.holds = false := by
    refine Bool.eq_false_iff.mpr ?_
    intro holds
    exact consistent.not_queued holds queued
  have admitted : (calls.modify waiter .takeChannel).countP SessionCall.holds + _ = _ :=
    Positions.countP_modify SessionCall.holds found
  have granted : call.takeChannel.holds = true := by simp [SessionCall.takeChannel, SessionCall.holds]
  rw [free, granted, if_neg Bool.false_ne_true, if_pos rfl] at admitted
  have all := accounted.full (List.ne_nil_of_mem first)
  exact
    { counted := by
        show lease.activeChannels - 1 + 1 = (calls.modify waiter .takeChannel).countP SessionCall.holds
        omega
      bounded := by
        have bounded := accounted.bounded
        show lease.activeChannels - 1 + 1 ≤ limits.maxChannels
        omega
      full := by
        intro _
        show lease.activeChannels - 1 + 1 = limits.maxChannels
        omega
      distinct := distinct
      known := by
        intro other later
        have known := accounted.known other (waiters ▸ List.mem_cons_of_mem _ later)
        show other < (calls.modify waiter .takeChannel).length
        rw [List.length_modify]
        omega
      calls := by
        intro other changed located
        rw [getElem?_modify] at located
        obtain ⟨before, old, rfl⟩ := Option.map_eq_some_iff.mp located
        split
        · rename_i same
          cases found.symm.trans (same ▸ old)
          exact ⟨consistent.takeChannel queued, by simp [SessionCall.takeChannel, ← same, fresh]⟩
        · rename_i different
          obtain ⟨own, waits⟩ := standing other before old
          refine ⟨own, ?_⟩
          rw [← waits, waiters]
          simp [Ne.symm different]
      shut := by
        intro retired
        cases waiters.symm.trans (accounted.shut retired)
      retired := accounted.retired }

theorem Accounted.releaseChannel (accounted : lease.Accounted limits)
    (found : lease.calls[id]? = some call) (holds : call.holds = true)
    (consistent : (change call).Consistent) (gone : (change call).holds = false)
    (queued : (change call).phase ≠ .queued) :
    (lease.modify id change).releaseChannel.Accounted limits := by
  obtain ⟨counted, calls⟩ := accounted.give_back found holds consistent gone queued
  have known : ∀ other ∈ lease.waiters, other < (lease.modify id change).calls.length := by
    intro other waits
    rw [modify_length]
    exact accounted.known other waits
  rcases (lease.modify id change).releaseChannel_cases with
    ⟨waiter, rest, -, waiters, next⟩ | ⟨nobody, cases⟩
  · rw [next]
    exact accounted.hand_over waiters (List.length_modify ..) counted calls
  · have empty : lease.waiters = [] := nobody.elim accounted.shut fun empty => empty
    have free : (lease.modify id change).freed.Accounted limits :=
      { counted := by
          show lease.activeChannels - 1 = (lease.modify id change).held
          omega
        bounded := Nat.le_trans (Nat.sub_le _ 1) accounted.bounded
        full := fun waits => absurd empty waits
        distinct := accounted.distinct
        known := known
        calls := calls
        shut := accounted.shut
        retired := accounted.retired }
    rcases cases with next | next | next <;> rw [next]
    · exact free
    · exact free.close
    · exact free.scheduleIdleClose

theorem release_of_holds (found : lease.calls[id]? = some call) (holds : call.holds = true) : lease.release id =
      (lease.modify id fun call => { call with channel := .released }).releaseChannel := by
  have held : call.channel = .held := of_decide_eq_true holds
  simp only [release, found, held, if_true]

theorem Accounted.modify_release (accounted : lease.Accounted limits)
    (found : lease.calls[id]? = some call) (holds : call.holds = true)
    (same : (change call).channel = call.channel)
    (consistent : SessionCall.Consistent { change call with channel := .released })
    (queued : (change call).phase ≠ .queued) :
    ((lease.modify id change).release id).Accounted limits := by
  have changed : (lease.modify id change).calls[id]? = some (change call) := by
    rw [getElem?_modify, found, Option.map_some, if_pos rfl]
  have still : (change call).holds = true := by
    rw [← holds, SessionCall.holds, SessionCall.holds, same]
  rw [release_of_holds changed still, modify_modify]
  exact accounted.releaseChannel found holds consistent (by simp [SessionCall.holds]) queued

theorem Accounted.fail (accounted : lease.Accounted limits) (found : lease.calls[id]? = some call)
    (creating : call.phase.isCreating = true) : (lease.fail id).Accounted limits := by
  obtain ⟨consistent, -⟩ := accounted.calls id call found
  have holds := consistent.holds.mpr (.inl creating)
  refine accounted.modify_release found holds rfl ?_ (by simp)
  exact
    { holds := by simp [SessionCall.holds, Phase.isCreating]
      queued := fun queued => nomatch queued
      settled := fun _ => consistent.settled (consistent.not_queued holds)
      disposed := fun disposed => by
        rw [consistent.disposed disposed] at creating
        cases creating }

theorem Accounted.dispose (accounted : lease.Accounted limits) (id : Nat) : (lease.dispose id).Accounted limits := by
  unfold Lease.dispose
  split
  · rename_i call found
    split
    · rename_i opened
      obtain ⟨consistent, -⟩ := accounted.calls id call found
      have holds := consistent.holds.mpr (.inr opened)
      refine accounted.modify_release found holds rfl ?_ (by simp [opened.1])
      exact
        { holds := by simp [SessionCall.holds, opened.1, Phase.isCreating]
          queued := fun queued => absurd (opened.1.symm.trans queued) (by simp)
          settled := consistent.settled
          disposed := fun _ => opened.1 }
    · exact accounted
  · exact accounted

theorem Accounted.proceed (accounted : lease.Accounted limits)
    (found : lease.calls[id]? = some call) (creating : call.phase.isCreating = true) {next : Phase}
    (proceeds : next.isCreating = true ∨ next = .opened) :
    (lease.modify id fun call => { call with phase := next }).Accounted limits := by
  obtain ⟨consistent, -⟩ := accounted.calls id call found
  have holds := consistent.holds.mpr (.inl creating)
  have undisposed : call.disposed = false := by
    refine Bool.eq_false_iff.mpr fun disposed => ?_
    rw [consistent.disposed disposed] at creating
    cases creating
  have queued : next ≠ .queued := by
    rintro rfl
    rcases proceeds with creating | opened
    · cases creating
    · cases opened
  refine accounted.modify found ?_ rfl (iff_of_false queued (consistent.not_queued holds))
  exact
    { holds := iff_of_true holds (proceeds.imp (fun more => more) fun opened => ⟨opened, undisposed⟩)
      queued := fun same => absurd same queued
      settled := fun _ => consistent.settled (consistent.not_queued holds)
      disposed := fun disposed => nomatch undisposed.symm.trans disposed }

theorem Accounted.resume (accounted : lease.Accounted limits) (id : Nat) (done : Bool) :
    (lease.resume id done).Accounted limits := by
  unfold Lease.resume
  split
  · rename_i call found
    have creating (phase : Phase) (stands : call.phase = phase) (more : phase.isCreating = true) :
        call.phase.isCreating = true := stands ▸ more
    split
    · rename_i granted
      split
      · exact accounted.fail found (creating _ granted rfl)
      · exact accounted.proceed found (creating _ granted rfl) (.inl rfl)
    · rename_i connecting
      split
      · exact accounted.fail found (creating _ connecting rfl)
      · exact accounted.proceed found (creating _ connecting rfl) (.inl rfl)
    · rename_i opening
      split
      · exact accounted.fail found (creating _ opening rfl)
      split
      · exact accounted.proceed found (creating _ opening rfl) (.inl rfl)
      · exact accounted.proceed found (creating _ opening rfl) (.inr rfl)
    · rename_i discarding
      exact accounted.fail found (creating _ discarding rfl)
    all_goals exact accounted
  · exact accounted

theorem Accounted.leave (accounted : lease.Accounted limits)
    (found : lease.calls[id]? = some call) (queued : call.phase = .queued) :
    ({ lease with waiters := lease.waiters.erase id }.modify id fun call =>
      SessionCall.reject { call with aborted := true }).Accounted limits := by
  obtain ⟨consistent, -⟩ := accounted.calls id call found
  have aborted : SessionCall.Consistent { call with aborted := true } := { consistent with }
  have held : (lease.calls.modify id fun call =>
      SessionCall.reject { call with aborted := true }).countP SessionCall.holds = lease.held :=
    Positions.countP_modify_same SessionCall.holds
      (fun call => SessionCall.holds_reject { call with aborted := true }) id
  exact
    { counted := accounted.counted.trans held.symm
      bounded := accounted.bounded
      full := fun waits => accounted.full (List.ne_nil_of_mem (List.mem_of_mem_erase (List.head_mem waits)))
      distinct := accounted.distinct.erase id
      known := by
        intro other waits
        rw [modify_length]
        exact accounted.known other (List.mem_of_mem_erase waits)
      calls := by
        intro other changed located
        rw [getElem?_modify] at located
        obtain ⟨before, old, rfl⟩ := Option.map_eq_some_iff.mp located
        have old' : lease.calls[other]? = some before := old
        split
        · rename_i same
          cases found.symm.trans (same ▸ old')
          refine ⟨aborted.reject queued, ?_⟩
          simp [accounted.distinct.mem_erase_iff, same, SessionCall.reject]
        · rename_i different
          obtain ⟨own, waits⟩ := accounted.calls other before old
          refine ⟨own, ?_⟩
          rw [← waits, modify_waiters, List.mem_erase_of_ne (Ne.symm different)]
      shut := by
        intro retired
        show lease.waiters.erase id = []
        rw [accounted.shut retired]
        rfl
      retired := accounted.retired }

theorem Accounted.abort (accounted : lease.Accounted limits) (id : Nat) : (lease.abort id).Accounted limits := by
  unfold Lease.abort
  split
  · rename_i call found
    obtain ⟨consistent, -⟩ := accounted.calls id call found
    dsimp only
    split
    · rename_i queued
      have left := accounted.leave found queued.2
      rw [← modify_modify { lease with waiters := lease.waiters.erase id } id
        (fun call => { call with aborted := true }) .reject] at left
      exact left
    · exact accounted.modify found { consistent with } rfl Iff.rfl
  · exact accounted

theorem Accounted.join (accounted : lease.Accounted limits) {waiters : List Nat}
    {activeChannels : Nat} (idleTimer : Bool) (consistent : call.Consistent)
    (counted : activeChannels = lease.activeChannels + if call.holds then 1 else 0)
    (bounded : activeChannels ≤ limits.maxChannels)
    (queue : waiters = lease.waiters ++ if call.phase = .queued then [lease.calls.length] else [])
    (full : waiters ≠ [] → activeChannels = limits.maxChannels)
    (shut : lease.retired = true → waiters = []) :
    { lease with activeChannels, waiters, idleTimer, calls := lease.calls ++ [call] }.Accounted limits := by
  have fresh : lease.calls.length ∉ lease.waiters := by
    intro waits
    have := accounted.known _ waits
    omega
  have old (id : Nat) (call : SessionCall) (found : lease.calls[id]? = some call) : id ≠ lease.calls.length := by
    have := (List.getElem?_eq_some_iff.mp found).1
    omega
  exact
    { counted := by
        show activeChannels = (lease.calls ++ [call]).countP SessionCall.holds
        rw [counted, accounted.counted, held, List.countP_append, List.countP_singleton]
      bounded := bounded
      full := full
      distinct := by
        show waiters.Nodup
        rw [queue]
        split
        · exact List.nodup_append.mpr ⟨accounted.distinct, by simp, by grind⟩
        · simpa using accounted.distinct
      known := by
        intro id waits
        have waits' : id ∈ waiters := waits
        rw [queue, List.mem_append] at waits'
        rw [List.length_append, List.length_singleton]
        rcases waits' with early | late
        · have := accounted.known id early
          omega
        · split at late
          · have := List.mem_singleton.mp late
            omega
          · cases late
      calls := by
        intro id found located
        show _ ∧ (id ∈ waiters ↔ _)
        rw [queue]
        rcases Positions.getElem?_concat located with before | ⟨rfl, rfl⟩
        · obtain ⟨own, waits⟩ := accounted.calls id found before
          refine ⟨own, ?_⟩
          have different := old id found before
          split <;> simp [waits, different]
        · refine ⟨consistent, ?_⟩
          split <;> simp [*]
      shut := shut
      retired := accounted.retired }

theorem Accounted.createSession (accounted : lease.Accounted limits) (aborted : Bool) :
    (lease.createSession limits aborted).Accounted limits := by
  have refused : SessionCall.Consistent
      { aborted, waiter := none, channel := .none, phase := .failed, disposed := false } :=
    { holds := by simp [SessionCall.holds, Phase.isCreating]
      queued := fun queued => nomatch queued
      settled := fun _ _ settled => nomatch settled
      disposed := fun disposed => nomatch disposed }
  unfold Lease.createSession
  dsimp only
  split
  · exact accounted.join lease.idleTimer refused (by simp [SessionCall.holds]) accounted.bounded
      (by simp) accounted.full accounted.shut
  rename_i available
  have unretired : lease.retired = false := by
    simp only [not_or] at available
    simpa using available.2.1
  split
  · rename_i room
    refine accounted.join false ?_ (by simp [SessionCall.holds]) room (by simp) ?_ accounted.shut
    · exact
        { holds := by simp [SessionCall.holds, Phase.isCreating]
          queued := fun queued => nomatch queued
          settled := fun _ _ settled => nomatch settled
          disposed := fun disposed => nomatch disposed }
    · intro waits
      have := accounted.full waits
      omega
  rename_i busy
  split
  · exact accounted.join false refused (by simp [SessionCall.holds]) accounted.bounded
      (by simp) accounted.full accounted.shut
  · refine accounted.join false ?_ (by simp [SessionCall.holds]) accounted.bounded (by simp) ?_ ?_
    · exact
        { holds := by simp [SessionCall.holds, Phase.isCreating]
          queued := fun _ => rfl
          settled := fun going => absurd rfl going
          disposed := fun disposed => nomatch disposed }
    · intro _
      have := accounted.bounded
      omega
    · intro retired
      cases unretired.symm.trans retired

theorem Accounted.step (accounted : lease.Accounted limits) (event : LeaseEvent) :
    ((leaseMachine limits).step lease event).Accounted limits := by
  cases event with
  | createSession aborted => exact accounted.createSession aborted
  | abort id => exact accounted.abort id
  | resume id done => exact accounted.resume id done
  | dispose id => exact accounted.dispose id
  | retire => exact accounted.retire
  | close => exact accounted.close
  | idleTimeout =>
    simp only [leaseMachine]
    split
    · exact accounted.close
    · exact accounted
  | master running => exact { accounted with }

theorem accounted_reachable (reached : (leaseMachine limits).Reachable fresh lease) : lease.Accounted limits :=
  reached.invariant (fun _ event accounted => accounted.step event) accounted_fresh

theorem Accounted.settled_once (accounted : lease.Accounted limits)
    (found : lease.calls[id]? = some call) {outcomes : List Settlement}
    (waiter : call.waiter = some outcomes) :
    (id ∈ lease.waiters ∧ outcomes = []) ∨ (id ∉ lease.waiters ∧ outcomes.length = 1) := by
  obtain ⟨consistent, waits⟩ := accounted.calls id call found
  by_cases queued : call.phase = .queued
  · exact .inl ⟨waits.mpr queued, Option.some.inj (waiter.symm.trans (consistent.queued queued))⟩
  · exact .inr ⟨mt waits.mp queued, consistent.settled queued outcomes waiter⟩

/-- Nobody is left in the queue when the last session is released. -/
theorem Accounted.idle (accounted : lease.Accounted limits) (idle : lease.activeChannels = 0) :
    lease.waiters = [] := by
  refine Decidable.byContradiction fun waits => ?_
  have full := accounted.full waits
  have some := limits.channels.1
  omega

/-- Channels, waiters and the end of a lease, whatever the order of events. -/
theorem accounting_of_lease (limits : ChannelLimits) (events : List LeaseEvent) :
    let lease := (leaseMachine limits).run fresh events
    -- The counter counts the calls that have a channel, and a channel is had
    -- while a session is being created or open.
    lease.activeChannels = lease.calls.countP (fun call => call.channel = .held) ∧
    (∀ call ∈ lease.calls, call.channel = .held ↔
      call.phase.isCreating = true ∨ call.phase = .opened ∧ call.disposed = false) ∧
    lease.activeChannels ≤ limits.maxChannels ∧
    (∀ id call outcomes, lease.calls[id]? = some call → call.waiter = some outcomes →
      (id ∈ lease.waiters ∧ outcomes = []) ∨ (id ∉ lease.waiters ∧ outcomes.length = 1)) ∧
    (lease.isAvailable = true → lease.waiters ≠ [] → lease.activeChannels = limits.maxChannels) ∧
    (lease.activeChannels = 0 → lease.waiters = []) ∧
    (lease.retired = true → lease.waiters = []) := by
  have accounted : ((leaseMachine limits).run fresh events).Accounted limits :=
    accounted_reachable ⟨events, rfl⟩
  refine ⟨accounted.counted, ?_, accounted.bounded, ?_, fun _ => accounted.full, accounted.idle, accounted.shut⟩
  · intro call inCalls
    obtain ⟨id, found⟩ := List.mem_iff_getElem?.mp inCalls
    have holds := (accounted.calls id call found).1.holds
    simpa [SessionCall.holds] using holds
  · intro id call outcomes found waiter
    exact accounted.settled_once found waiter

end Lease

end PlatformClaw.Execution
