import PlatformClaw.Reef.InboxRuns

/-! # Delivery of the inbox

The events of the sockets, of the relay and of the loop keep what holds between any two events, and
so the entries are handed out in order and once.
-/

namespace PlatformClaw.Reef.Inbox

open scoped List

variable {initial : Int} {inbox : Inbox} {k : Nat}

theorem setSocket_setSocket (first second : InboxSocket) :
    (inbox.setSocket k first).setSocket k second = inbox.setSocket k second := by
  unfold Inbox.setSocket
  congr 1
  funext other
  dsimp only
  split <;> rfl

theorem setSocket_self : inbox.setSocket k (inbox.sockets k) = inbox := by
  unfold Inbox.setSocket
  congr 1
  funext other
  split
  · rename_i same
    rw [same]
  · rfl

/-- What a socket may change while it stays connected. -/
structure Continues (inbox : Inbox) (before after : InboxSocket) : Prop where
  connected : before.disconnected = false
  coming : after.bufferedEntries ++ inbox.feed after = before.bufferedEntries ++ inbox.feed before
  unfed : after.fed = none → after.opened = false ∧ after.bufferedEntries = []
  within : ∀ position ∈ after.fed, position ≤ inbox.stored.length
  quiet : after.opened = true → after.catchUpPending = false → after.pump ≠ .ended true →
    before.opened = true ∧ before.catchUpPending = false ∧ before.pump ≠ .ended true

/-- What a socket may change at any time. -/
structure Allowed (before after : InboxSocket) : Prop where
  pump : before.pump = .scheduled → after.pump = .scheduled
  opened : before.opened = true → after.opened = true
  pending : before.opened = true → after.catchUpPending = before.catchUpPending

theorem Follows.continues {before after : InboxSocket} {hand : List InboxEntry} {busy : Prop}
    (follows : inbox.Follows before hand busy) (continues : inbox.Continues before after) :
    inbox.Follows after hand busy where
  last := by
    rw [List.append_assoc, continues.coming, ← List.append_assoc]
    exact follows.last
  unfed := continues.unfed
  within := continues.within
  caughtUp opened pending ended idle := by
    rw [List.append_assoc, continues.coming, ← List.append_assoc]
    obtain ⟨wasOpened, wasPending, wasEnded⟩ := continues.quiet opened pending ended
    exact follows.caughtUp wasOpened wasPending wasEnded idle

theorem Sound.setSocket (sound : Sound initial inbox) (socket : InboxSocket)
    (allowed : Allowed (inbox.sockets k) socket)
    (off : socket.finished = true ∨ socket.aborting = true → socket.disconnected = true)
    (continues : socket.disconnected = false → inbox.Continues (inbox.sockets k) socket) :
    Sound initial (inbox.setSocket k socket) where
  toKept := sound.toKept.setSocket allowed.pump allowed.opened off
  head := by
    change (inbox.setSocket k socket).HeadOk inbox.tail
    have head := sound.head
    cases tail : inbox.tail with
    | nil =>
      rw [tail] at head
      exact head
    | cons task rest =>
      obtain ⟨j, stage⟩ := task
      rw [tail] at head
      have opened := sound.opened tail
      cases stage with
      | waiting => exact head
      | pulling after seen =>
        obtain ⟨settled, current, later⟩ := head
        by_cases same : j = k
        · subst same
          refine ⟨?_, current, fun connected => ?_⟩
          · rw [setSocket_same]
            exact (allowed.pending opened).trans settled
          · rw [setSocket_same] at connected ⊢
            have continues := continues connected
            change _ <:+ socket.bufferedEntries ++ inbox.feed socket
            rw [continues.coming]
            exact later continues.connected
        · refine ⟨?_, current, ?_⟩
          · rw [setSocket_other _ same]
            exact settled
          · rw [setSocket_other _ same]
            exact later
      | dispatching entry others source =>
        obtain ⟨settled, unread, ready, earlier⟩ := head
        refine ⟨?_, unread, ⟨ready.stored, ready.sorted, ready.whole⟩, earlier⟩
        by_cases same : j = k
        · subst same
          rw [setSocket_same]
          exact (allowed.pending opened).trans settled
        · rw [setSocket_other _ same]
          exact settled
  sockets j connected := by
    suffices follows : inbox.Follows ((inbox.setSocket k socket).sockets j) (inHand inbox.tail j)
        (Draining inbox.tail j) from follows.transfer rfl rfl rfl
    by_cases same : j = k
    · subst same
      rw [setSocket_same] at connected ⊢
      have continues := continues connected
      exact (sound.sockets j continues.connected).continues continues
    · rw [setSocket_other _ same] at connected ⊢
      exact sound.sockets j connected

theorem HeadOk.transfer {later : Inbox} {tasks : List InboxTask} (head : inbox.HeadOk tasks)
    (stored : later.stored = inbox.stored) (expired : later.expired = inbox.expired)
    (cursor : later.cursor = inbox.cursor)
    (sockets : ∀ task ∈ tasks, later.sockets task.socket = inbox.sockets task.socket) :
    later.HeadOk tasks := by
  cases tasks with
  | nil => trivial
  | cons task rest =>
    obtain ⟨j, stage⟩ := task
    have same : later.sockets j = inbox.sockets j := sockets ⟨j, stage⟩ List.mem_cons_self
    cases stage with
    | waiting => trivial
    | pulling after seen =>
      refine ⟨?_, ?_, ?_⟩
      · rw [same]
        exact head.settled
      · rw [cursor]
        exact head.current
      · rw [same, stored, feed, stored]
        exact head.later
    | dispatching entry others source =>
      have ready := head.ready
      refine ⟨?_, ?_, ⟨?_, ready.sorted, ?_⟩, ?_⟩
      · rw [same]
        exact head.settled
      · rw [cursor]
        exact head.unread
      · rw [stored]
        exact ready.stored
      · intro other unread
        rw [Unread, Retained, stored, expired, cursor] at unread
        exact ready.whole other unread
      · rw [cursor]
        exact head.earlier

theorem Sound.control (sound : Sound initial inbox) (loop : InboxLoop) (stopped aborted : Bool)
    {made : Nat} (more : inbox.made ≤ made) :
    Sound initial { inbox with loop, stopped, aborted, made } where
  waiting := sound.waiting
  scheduled task inTail := by
    obtain ⟨isMade, scheduled⟩ := sound.scheduled task inTail
    exact ⟨Nat.lt_of_lt_of_le isMade more, scheduled⟩
  distinct := sound.distinct
  off := sound.off
  growing := sound.growing
  bounded := sound.bounded
  passed := sound.passed
  head := sound.head.transfer rfl rfl rfl fun _ _ => rfl
  sockets j connected := (sound.sockets j connected).transfer rfl rfl rfl

theorem Sound.dead (sound : Sound initial inbox) (socket : InboxSocket)
    (allowed : Allowed (inbox.sockets k) socket) (dead : socket.disconnected = true) :
    Sound initial (inbox.setSocket k socket) := by
  refine sound.setSocket socket allowed (fun _ => dead) fun connected => ?_
  rw [dead] at connected
  cases connected

theorem Sound.markDisconnected (sound : Sound initial inbox) (socket : InboxSocket)
    (allowed : Allowed (inbox.sockets k) socket) :
    Sound initial ((inbox.setSocket k socket).markDisconnected k) ∧
      (((inbox.setSocket k socket).markDisconnected k).sockets k).disconnected = true := by
  unfold Inbox.markDisconnected
  rw [setSocket_same]
  split
  · rename_i dead
    rw [setSocket_same]
    exact ⟨sound.dead socket allowed dead, dead⟩
  · rw [setSocket_setSocket, setSocket_same]
    exact ⟨sound.dead { socket with disconnected := true, bufferedEntries := [] }
      ⟨allowed.pump, allowed.opened, allowed.pending⟩ rfl, rfl⟩

theorem Sound.finish (sound : Sound initial inbox)
    (dead : (inbox.sockets k).disconnected = true) : Sound initial (inbox.finish k) := by
  unfold Inbox.finish
  split
  · exact sound
  · have finished := sound.dead { inbox.sockets k with finished := true } ⟨id, id, fun _ => rfl⟩ dead
    exact finished.control .pausing inbox.stopped inbox.aborted (Nat.le_refl _)

theorem Sound.disconnect (sound : Sound initial inbox) (socket : InboxSocket)
    (allowed : Allowed (inbox.sockets k) socket)
    (off : socket.finished = true ∨ socket.aborting = true → socket.disconnected = true) :
    Sound initial ((inbox.setSocket k socket).disconnect k) := by
  unfold Inbox.disconnect
  rw [setSocket_same]
  obtain ⟨marked, dead⟩ := sound.markDisconnected socket allowed
  split
  · rename_i finished
    exact sound.dead socket allowed (off (.inl finished))
  split
  · exact marked
  · exact marked.finish dead

theorem Sound.disconnected (sound : Sound initial inbox) (k : Nat) : Sound initial (inbox.disconnect k) := by
  have done := sound.disconnect (inbox.sockets k) ⟨id, id, fun _ => rfl⟩ (sound.off k)
  rw [setSocket_self] at done
  exact done

theorem inHand_append (tasks : List InboxTask) (j : Nat) : inHand (tasks ++ [⟨k, .waiting⟩]) j = inHand tasks j := by
  cases tasks with
  | nil => rfl
  | cons task rest =>
    obtain ⟨socket, stage⟩ := task
    cases stage with
    | waiting | pulling => rfl
    | dispatching entry others source => cases source <;> rfl

theorem draining_append (tasks : List InboxTask) (j : Nat) :
    Draining (tasks ++ [⟨k, .waiting⟩]) j = Draining tasks j := by
  cases tasks with
  | nil => rfl
  | cons task rest =>
    obtain ⟨socket, stage⟩ := task
    cases stage with
    | waiting | pulling => rfl
    | dispatching entry others source => cases source <;> rfl

theorem Sound.schedule (sound : Sound initial inbox) (made : k < inbox.made)
    (opened : (inbox.sockets k).opened = true) (idle : (inbox.sockets k).pump = .idle) :
    Sound initial { inbox.setSocket k { inbox.sockets k with pump := .scheduled } with
      tail := inbox.tail ++ [⟨k, .waiting⟩] } := by
  have set : Sound initial (inbox.setSocket k { inbox.sockets k with pump := .scheduled }) := by
    apply sound.setSocket
    · refine ⟨fun _ => rfl, id, fun _ => rfl⟩
    · exact sound.off k
    · intro connected
      have follows := sound.sockets k connected
      refine ⟨connected, rfl, follows.unfed, follows.within, fun opened pending _ => ?_⟩
      refine ⟨opened, pending, ?_⟩
      rw [idle]
      intro same
      cases same
  have absent : k ∉ inbox.tail.map InboxTask.socket := by
    intro inSockets
    obtain ⟨task, inTail, rfl⟩ := List.mem_map.mp inSockets
    have scheduled := (sound.scheduled task inTail).2.1
    rw [idle] at scheduled
    cases scheduled
  refine ⟨⟨?_, ?_, ?_, set.off, set.growing, set.bounded, set.passed⟩, ?_, ?_⟩
  · intro task inTail
    change task ∈ (inbox.tail ++ [_]).tail at inTail
    cases tail : inbox.tail with
    | nil =>
      rw [tail] at inTail
      cases inTail
    | cons first rest =>
      rw [tail] at inTail
      cases List.mem_append.mp inTail with
      | inl inRest =>
        exact sound.waiting task (by rw [tail]; exact inRest)
      | inr isLast =>
        rw [List.mem_singleton.mp isLast]
  · intro task inTail
    cases List.mem_append.mp inTail with
    | inl inTail => exact set.scheduled task inTail
    | inr isLast =>
      rw [List.mem_singleton.mp isLast]
      change k < inbox.made ∧ ((inbox.setSocket k _).sockets k).pump = _ ∧
        ((inbox.setSocket k _).sockets k).opened = true
      rw [setSocket_same]
      exact ⟨made, rfl, opened⟩
  · rw [List.map_append, List.map_singleton]
    refine List.nodup_append.mpr ⟨sound.distinct, List.pairwise_singleton _ _, ?_⟩
    intro socket inTail other isLast same
    rw [same, List.mem_singleton.mp isLast] at inTail
    exact absent inTail
  · have head : (inbox.setSocket k { inbox.sockets k with pump := .scheduled }).HeadOk
        (inbox.tail ++ [⟨k, .waiting⟩]) := by
      have head := set.head
      change HeadOk _ inbox.tail at head
      cases tail : inbox.tail with
      | nil =>
        rw [tail] at head
        exact head
      | cons task rest =>
        obtain ⟨j, stage⟩ := task
        rw [tail] at head
        cases stage with
        | waiting | pulling | dispatching => exact head
    exact head.transfer rfl rfl rfl fun _ _ => rfl
  · intro j connected
    have follows := set.sockets j connected
    change Follows _ _ (inHand (inbox.tail ++ [_]) j) (Draining (inbox.tail ++ [_]) j)
    rw [inHand_append, draining_append]
    exact follows.transfer rfl rfl rfl

theorem Sound.pump (sound : Sound initial inbox) (made : k < inbox.made) : Sound initial (inbox.pump k) := by
  unfold Inbox.pump
  split
  · exact sound
  · rename_i due
    simp only [not_or, Bool.not_eq_true, Bool.not_eq_false, ne_eq, Decidable.not_not] at due
    exact sound.schedule made due.2.1 due.2.2.1

theorem Sound.openedEvent (sound : Sound initial inbox) (made : k < inbox.made)
    (fed : (inbox.sockets k).fed.isSome = true) (once : (inbox.sockets k).opened = false) :
    Sound initial (inbox.opened k) := by
  unfold Inbox.opened
  split
  · exact sound
  rename_i disconnected
  have connected : (inbox.sockets k).disconnected = false := by simpa using disconnected
  have set : Sound initial (inbox.setSocket k
      { inbox.sockets k with opened := true, catchUpPending := true }) := by
    apply sound.setSocket
    · refine ⟨id, fun _ => rfl, fun opened => ?_⟩
      rw [once] at opened
      cases opened
    · exact sound.off k
    · intro _
      refine ⟨connected, rfl, fun unfed => ?_, (sound.sockets k connected).within,
        fun _ pending => (by cases pending)⟩
      change (inbox.sockets k).fed = none at unfed
      rw [unfed] at fed
      cases fed
  exact set.pump made

theorem Sound.upgraded (sound : Sound initial inbox) (unfed : (inbox.sockets k).fed = none) :
    Sound initial (inbox.setSocket k { inbox.sockets k with fed := some inbox.stored.length }) := by
  apply sound.setSocket
  · exact ⟨id, id, fun _ => rfl⟩
  · exact sound.off k
  · intro connected
    refine ⟨connected, ?_, fun none => (by cases none), ?_, fun opened pending ended =>
      ⟨opened, pending, ended⟩⟩
    · have nothing : inbox.feed (inbox.sockets k) = [] := by
        rw [feed, unfed]
        rfl
      rw [nothing]
      change _ ++ inbox.stored.drop inbox.stored.length = _
      rw [List.drop_length]
    · intro position isLength
      exact Nat.le_of_eq (Option.some.inj isLength).symm

theorem Sound.message (sound : Sound initial inbox) (made : k < inbox.made) {frame : InboxFrame}
    (honest : inbox.TrueFrame k frame) : Sound initial ((inbox.send k frame).message k frame) := by
  cases frame with
  | other => exact sound
  | malformed => exact sound.disconnected k
  | entry entry =>
    obtain ⟨position, fed, next⟩ := Option.bind_eq_some_iff.mp honest
    dsimp only [Inbox.send, Inbox.message]
    split
    · apply sound.disconnect
      · exact ⟨id, id, fun _ => rfl⟩
      · exact sound.off k
    · rw [setSocket_setSocket, setSocket_same]
      refine Sound.pump ?_ made
      apply sound.setSocket
      · exact ⟨id, id, fun _ => rfl⟩
      · exact sound.off k
      · intro connected
        obtain ⟨within, here⟩ := List.getElem?_eq_some_iff.mp next
        have more : inbox.stored.drop position = entry :: inbox.stored.drop (position + 1) := by
          rw [List.drop_eq_getElem_cons within, here]
        refine ⟨connected, ?_, fun none => ?_, ?_, fun opened pending ended =>
          ⟨opened, pending, ended⟩⟩
        · dsimp only [feed]
          rw [fed]
          dsimp only [Option.map_some, Option.elim_some]
          rw [more, List.append_assoc]
          rfl
        · dsimp only at none
          rw [fed] at none
          cases none
        · dsimp only
          rw [fed]
          intro after isNext
          exact Option.some.inj isNext ▸ within

theorem Sound.settledEvent (sound : Sound initial inbox) (made : k < inbox.made) :
    Sound initial (inbox.settled k) := by
  unfold Inbox.settled
  cases ended : (inbox.sockets k).pump with
  | idle | scheduled => exact sound
  | ended failed =>
    dsimp only
    have allowed : Allowed (inbox.sockets k) { inbox.sockets k with pump := .idle } := by
      refine ⟨fun scheduled => ?_, id, fun _ => rfl⟩
      rw [ended] at scheduled
      cases scheduled
    unfold reacted
    cases failed with
    | true =>
      rw [if_neg (by decide), setSocket_same]
      split
      · rename_i dead
        exact sound.dead _ allowed dead
      · exact sound.disconnect _ allowed (sound.off k)
    | false =>
      rw [if_pos rfl]
      refine Sound.pump ?_ made
      apply sound.setSocket _ allowed (sound.off k)
      intro connected
      have follows := sound.sockets k connected
      refine ⟨connected, rfl, follows.unfed, follows.within, fun opened pending _ => ?_⟩
      refine ⟨opened, pending, ?_⟩
      rw [ended]
      intro same
      cases same

theorem Sound.socketEvent (sound : Sound initial inbox) (made : k < inbox.made)
    {event : SocketEvent} (honest : inbox.TrueSocketEvent k event) :
    Sound initial (inbox.socketEvent k event) := by
  cases event with
  | upgraded => exact sound.upgraded honest
  | opened => exact sound.openedEvent made honest.1 honest.2
  | frame frame => exact sound.message made honest
  | closed =>
    change Sound initial (inbox.closed k)
    unfold Inbox.closed
    split
    · exact sound
    · exact sound.disconnected k
  | settled => exact sound.settledEvent made

theorem Sound.inHand_unfed (sound : Sound initial inbox) {j : Nat}
    (closed : (inbox.sockets j).opened = false) : inHand inbox.tail j = [] := by
  cases tail : inbox.tail with
  | nil => rfl
  | cons task rest =>
    obtain ⟨socket, stage⟩ := task
    apply inHand_other
    rintro rfl
    have opened := sound.opened tail
    rw [closed] at opened
    cases opened

theorem suffix_append_right {left right : List InboxEntry} (entry : InboxEntry)
    (suffix : left <:+ right) : left ++ [entry] <:+ right ++ [entry] := by
  obtain ⟨before, split⟩ := suffix
  exact ⟨before, by rw [← split, List.append_assoc]⟩

theorem unread_stored {entry other : InboxEntry}
    (unread : { inbox with stored := inbox.stored ++ [entry] }.Unread other) :
    inbox.Unread other ∨ other = entry := by
  obtain ⟨⟨inStored, held⟩, unread⟩ := unread
  cases List.mem_append.mp inStored with
  | inl before => exact .inl ⟨⟨before, held⟩, unread⟩
  | inr new => exact .inr (List.mem_singleton.mp new)

theorem feed_stored {socket : InboxSocket} {position : Nat} (fed : socket.fed = some position)
    (within : position ≤ inbox.stored.length) (entry : InboxEntry) :
    { inbox with stored := inbox.stored ++ [entry] }.feed socket = inbox.feed socket ++ [entry] := by
  unfold feed
  rw [fed]
  exact List.drop_append_of_le_length within

theorem Follows.stored {socket : InboxSocket} {hand : List InboxEntry} {busy : Prop}
    (follows : inbox.Follows socket hand busy) (empty : socket.opened = false → hand = [])
    (entry : InboxEntry) :
    { inbox with stored := inbox.stored ++ [entry] }.Follows socket hand busy := by
  cases fed : socket.fed with
  | none =>
    obtain ⟨closed, nothing⟩ := follows.unfed fed
    refine ⟨?_, follows.unfed, ?_, fun opened => ?_⟩
    · rw [empty closed, nothing, feed, fed]
      exact List.nil_suffix
    · intro position isFed
      rw [fed] at isFed
      cases isFed
    · rw [closed] at opened
      cases opened
  | some position =>
    have within := follows.within position fed
    have coming := feed_stored fed within entry
    refine ⟨?_, follows.unfed, ?_, ?_⟩
    · rw [coming, ← List.append_assoc]
      exact suffix_append_right entry follows.last
    · intro other isFed
      rw [fed] at isFed
      rw [← Option.some.inj isFed, List.length_append]
      exact Nat.le_add_right_of_le within
    · intro opened pending ended idle other unread
      rw [coming, ← List.append_assoc, List.mem_append]
      cases unread_stored unread with
      | inl before => exact .inl (follows.caughtUp opened pending ended idle other before)
      | inr new => exact .inr (List.mem_singleton.mpr new)

theorem Sound.stored (sound : Sound initial inbox) {entry : InboxEntry}
    (growing : ∀ earlier ∈ inbox.stored, earlier.seq < entry.seq) :
    Sound initial { inbox with stored := inbox.stored ++ [entry] } where
  waiting := sound.waiting
  scheduled := sound.scheduled
  distinct := sound.distinct
  off := sound.off
  growing := by
    rw [List.pairwise_append]
    refine ⟨sound.growing, List.pairwise_singleton _ _, ?_⟩
    intro earlier inStored later isLast
    rw [List.mem_singleton.mp isLast]
    exact growing earlier inStored
  bounded := sound.bounded.imp_right fun ⟨other, inStored, bound⟩ =>
    ⟨other, List.mem_append_left _ inStored, bound⟩
  passed other retained after before := by
    obtain ⟨inStored, held⟩ := retained
    cases List.mem_append.mp inStored with
    | inl earlier => exact sound.passed other ⟨earlier, held⟩ after before
    | inr new =>
      obtain rfl := List.mem_singleton.mp new
      change other.seq ≤ inbox.cursor at before
      cases sound.bounded with
      | inl fresh => omega
      | inr bound =>
        obtain ⟨last, inStored, bound⟩ := bound
        have less := growing last inStored
        omega
  head := by
    change HeadOk _ inbox.tail
    have head := sound.head
    cases tail : inbox.tail with
    | nil =>
      rw [tail] at head
      exact head
    | cons task rest =>
      obtain ⟨j, stage⟩ := task
      rw [tail] at head
      have opened := sound.opened tail
      cases stage with
      | waiting => exact head
      | pulling after seen =>
        refine ⟨head.settled, head.current, fun connected => ?_⟩
        have later := head.later connected
        have follows := sound.sockets j connected
        change (inbox.stored ++ [entry]).drop seen <:+ (inbox.sockets j).bufferedEntries ++
          { inbox with stored := inbox.stored ++ [entry] }.feed (inbox.sockets j)
        cases fed : (inbox.sockets j).fed with
        | none =>
          have closed := (follows.unfed fed).1
          rw [opened] at closed
          cases closed
        | some position =>
          rw [feed_stored fed (follows.within position fed), ← List.append_assoc]
          by_cases known : seen ≤ inbox.stored.length
          · rw [List.drop_append_of_le_length known]
            exact suffix_append_right entry later
          · have short : (inbox.stored ++ [entry]).length ≤ seen := by
              rw [List.length_append, List.length_singleton]
              omega
            rw [List.drop_eq_nil_of_le short]
            exact List.nil_suffix
      | dispatching other others source =>
        obtain ⟨settled, unread, ready, earlier⟩ := head
        refine ⟨settled, unread, ⟨?_, ready.sorted, ?_⟩, earlier⟩
        · intro first inList
          exact List.mem_append_left _ (ready.stored first inList)
        · intro later isUnread
          cases unread_stored isUnread with
          | inl before => exact ready.whole later before
          | inr new =>
            subst new
            exact .inr fun first inList => growing first (ready.stored first inList)
  sockets j connected := (sound.sockets j connected).stored sound.inHand_unfed entry

theorem Sound.expired (sound : Sound initial inbox) (entry : InboxEntry) :
    Sound initial { inbox with expired := entry :: inbox.expired } where
  waiting := sound.waiting
  scheduled := sound.scheduled
  distinct := sound.distinct
  off := sound.off
  growing := sound.growing
  bounded := sound.bounded
  passed other retained :=
    sound.passed other ⟨retained.1, fun gone => retained.2 (List.mem_cons_of_mem _ gone)⟩
  head := by
    change HeadOk _ inbox.tail
    have head := sound.head
    cases tail : inbox.tail with
    | nil =>
      rw [tail] at head
      exact head
    | cons task rest =>
      obtain ⟨j, stage⟩ := task
      rw [tail] at head
      cases stage with
      | waiting => exact head
      | pulling after seen => exact ⟨head.settled, head.current, head.later⟩
      | dispatching other others source =>
        obtain ⟨settled, unread, ready, earlier⟩ := head
        refine ⟨settled, unread, ⟨ready.stored, ready.sorted, ?_⟩, earlier⟩
        intro later isUnread
        exact ready.whole later ⟨⟨isUnread.1.1, fun gone =>
          isUnread.1.2 (List.mem_cons_of_mem _ gone)⟩, isUnread.2⟩
  sockets j connected := by
    have follows := sound.sockets j connected
    refine ⟨follows.last, follows.unfed, follows.within, ?_⟩
    intro opened pending ended idle other unread
    exact follows.caughtUp opened pending ended idle other ⟨⟨unread.1.1, fun gone =>
      unread.1.2 (List.mem_cons_of_mem _ gone)⟩, unread.2⟩

theorem Sound.connect (sound : Sound initial inbox) :
    Sound initial { inbox.setSocket inbox.made {} with
      made := inbox.made + 1, loop := .live inbox.made } := by
  have absent : ∀ task ∈ inbox.tail, task.socket ≠ inbox.made := fun task inTail =>
    Nat.ne_of_lt (sound.scheduled task inTail).1
  refine ⟨⟨sound.waiting, ?_, sound.distinct, ?_, sound.growing, sound.bounded, sound.passed⟩, ?_, ?_⟩
  · intro task inTail
    change _ ∧ ((inbox.setSocket _ _).sockets task.socket).pump = _ ∧
      ((inbox.setSocket _ _).sockets task.socket).opened = _
    rw [setSocket_other _ (absent task inTail)]
    exact ⟨Nat.lt_succ_of_lt (sound.scheduled task inTail).1, (sound.scheduled task inTail).2⟩
  · intro j ended
    change ((inbox.setSocket _ _).sockets j).disconnected = true
    change ((inbox.setSocket _ _).sockets j).finished = true ∨
      ((inbox.setSocket _ _).sockets j).aborting = true at ended
    by_cases same : j = inbox.made
    · rw [same, setSocket_same] at ended
      cases ended with
      | inl finished => cases finished
      | inr aborting => cases aborting
    · rw [setSocket_other _ same] at ended ⊢
      exact sound.off j ended
  · refine sound.head.transfer rfl rfl rfl fun task inTail => ?_
    change (inbox.setSocket _ _).sockets task.socket = _
    exact setSocket_other _ (absent task inTail)
  · intro j connected
    suffices follows : inbox.Follows ((inbox.setSocket inbox.made {}).sockets j)
        (inHand inbox.tail j) (Draining inbox.tail j) from follows.transfer rfl rfl rfl
    change ((inbox.setSocket _ _).sockets j).disconnected = false at connected
    by_cases same : j = inbox.made
    · have empty : inHand inbox.tail j = [] := by
        cases tail : inbox.tail with
        | nil => rfl
        | cons task rest =>
          obtain ⟨socket, stage⟩ := task
          apply inHand_other
          rw [same]
          exact Ne.symm (absent ⟨socket, stage⟩ (tail ▸ List.mem_cons_self))
      rw [same, setSocket_same, ← same, empty]
      refine ⟨List.nil_suffix, fun _ => ⟨rfl, rfl⟩, fun _ isFed => (by cases isFed), fun opened => ?_⟩
      cases opened
    · rw [setSocket_other _ same] at connected ⊢
      exact sound.sockets j connected

theorem Sound.iterate (sound : Sound initial inbox) (connects : Bool) : Sound initial (inbox.iterate connects) := by
  unfold Inbox.iterate
  split
  · exact sound
  split
  · exact sound.control .closing inbox.stopped inbox.aborted (Nat.le_refl _)
  split
  · exact sound.connect
  · exact sound

theorem Sound.abort (sound : Sound initial inbox) : Sound initial inbox.abort := by
  unfold Inbox.abort
  have aborted := sound.control inbox.loop inbox.stopped true (Nat.le_refl _)
  split
  · unfold abortListener
    split
    · exact aborted
    · refine (aborted.markDisconnected { inbox.sockets _ with aborting := true } ?_).1
      exact ⟨id, id, fun _ => rfl⟩
  · exact aborted
  · exact aborted
  · exact aborted

theorem Sound.quiet (sound : Sound initial inbox) : Sound initial inbox.quiet := by
  unfold Inbox.quiet
  split
  · split
    · rename_i aborting
      exact sound.finish (sound.off _ (.inr aborting))
    · exact sound
  · exact sound.control .returned inbox.stopped inbox.aborted (Nat.le_refl _)
  · exact sound

theorem Sound.start (initialCursor : Int) : Sound initialCursor (start initialCursor) where
  waiting _ inTail := by cases inTail
  scheduled _ inTail := by cases inTail
  distinct := List.Pairwise.nil
  off k ended := by
    cases ended with
    | inl finished => cases finished
    | inr aborting => cases aborting
  growing := List.Pairwise.nil
  bounded := .inl rfl
  passed _ retained := by cases retained.1
  head := trivial
  sockets _ _ := ⟨List.nil_suffix, fun _ => ⟨rfl, rfl⟩, fun _ isFed => (by cases isFed),
    fun opened => (by cases opened)⟩

theorem Sound.step (sound : Sound initial inbox) {event : InboxEvent}
    (honest : inbox.TrueEvent event) (persists : event.persists = true) :
    Sound initial (inbox.step event) := by
  cases event with
  | iterate connects => exact sound.iterate connects
  | socket k event =>
    change Sound initial (if k < inbox.made then _ else _)
    split
    · rename_i made
      exact sound.socketEvent made honest
    · exact sound
  | stored entry => exact sound.stored honest
  | expired entry => exact sound.expired entry
  | turn =>
    change Sound initial inbox.turn
    unfold Inbox.turn
    split
    · rename_i tail
      exact sound.begin tail
    · exact sound
  | pulled page persisted =>
    change persisted = true at persists
    subst persists
    change Sound initial (inbox.pulled page true)
    unfold Inbox.pulled
    split
    · rename_i tail
      exact (sound.running tail).endTask fun same => by cases same
    · rename_i tail
      change TruePulled inbox _ inbox.tail at honest
      rw [tail] at honest
      exact sound.readPage tail honest
    · exact sound
  | handled completes persisted =>
    change persisted = true at persists
    subst persists
    change Sound initial (inbox.handled completes true)
    unfold Inbox.handled
    split
    · rename_i tail
      split
      · exact sound.complete tail
      · exact sound.fail tail
    · exact sound
  | stop => exact sound.control inbox.loop true inbox.aborted (Nat.le_refl _)
  | abort => exact sound.abort
  | quiet => exact sound.quiet

def completed? : InboxMark → Option InboxEntry
  | .completed entry => some entry
  | .dispatched _ | .failed _ | .persisted _ => none

/-- The entries whose handler completed, in the order of completion. -/
def completed (inbox : Inbox) : List InboxEntry :=
  inbox.marks.filterMap completed?

def persisted (inbox : Inbox) : List Int :=
  inbox.marks.filterMap InboxMark.cursor?

/-- The entries are handed to the handler one at a time, in order and once. -/
structure InOrderOnce (initial : Int) (inbox : Inbox) : Prop where
  increasing : inbox.completed.Pairwise fun earlier later => earlier.seq < later.seq
  /-- An entry that is handed out comes after every entry that was completed before. -/
  notAgain : inbox.marks.Pairwise fun earlier later => ∀ entry other,
    earlier = .completed entry → later = .dispatched other → entry.seq < other.seq
  oneAtATime : inbox.marks.countP isDispatched ≤ inbox.marks.countP isFinished + 1
  cursorGrows : inbox.persisted.Pairwise (· < ·)
  cursorPersisted : inbox.persisted.getLastD initial = inbox.cursor

/-- The cursor has passed no entry of the relay that was not completed. -/
def NotPassed (initial : Int) (inbox : Inbox) : Prop :=
  ∀ entry, inbox.Retained entry → initial < entry.seq → entry.seq ≤ inbox.cursor → entry ∈ inbox.completed

theorem mem_completed {entry : InboxEntry} : entry ∈ inbox.completed ↔ .completed entry ∈ inbox.marks := by
  rw [completed, List.mem_filterMap]
  constructor
  · rintro ⟨mark, inMarks, isCompleted⟩
    cases mark with
    | completed other =>
      obtain rfl := Option.some.inj isCompleted
      exact inMarks
    | dispatched | failed | persisted => cases isCompleted
  · intro inMarks
    exact ⟨_, inMarks, rfl⟩

theorem Serial.inOrderOnce (serial : Serial initial inbox) : InOrderOnce initial inbox where
  increasing := by
    rw [completed, List.pairwise_filterMap]
    refine serial.trail.ordered.imp fun {earlier later} before entry isEntry other isOther => ?_
    cases earlier with
    | completed first =>
      obtain rfl := Option.some.inj isEntry
      cases later with
      | completed second =>
        obtain rfl := Option.some.inj isOther
        exact before
      | dispatched | failed | persisted => cases isOther
    | dispatched | failed | persisted => cases isEntry
  notAgain := by
    refine serial.trail.ordered.imp fun {earlier later} before entry other isEntry isOther => ?_
    subst isEntry isOther
    exact before
  oneAtATime := by
    have handling := serial.handling
    unfold Handling at handling
    split at handling
    · exact Nat.le_of_eq handling.1
    · rw [handling]
      exact Nat.le_succ _
  cursorGrows := by
    rw [persisted, List.pairwise_filterMap]
    refine serial.trail.ordered.imp fun {earlier later} before cursor isCursor other isOther => ?_
    cases earlier with
    | persisted first =>
      obtain rfl := Option.some.inj isCursor
      cases later with
      | persisted second =>
        obtain rfl := Option.some.inj isOther
        exact before
      | dispatched | failed | completed => cases isOther
    | dispatched | failed | completed => cases isCursor
  cursorPersisted := serial.trail.kept

theorem Serial.run (serial : Serial initial inbox) {events : List InboxEvent}
    (persists : ∀ event ∈ events, event.persists = true) :
    Serial initial (machine.run inbox events) :=
  Machine.run_invariant_of (fun _ _ persists serial => serial.step persists) serial events persists

theorem Sound.run (sound : Sound initial inbox) {events : List InboxEvent}
    (persists : ∀ event ∈ events, event.persists = true)
    (honest : machine.Meets TrueEvent inbox events) : Sound initial (machine.run inbox events) := by
  induction events generalizing inbox with
  | nil => exact sound
  | cons event rest ih =>
    obtain ⟨first, later⟩ := List.forall_mem_cons.mp persists
    exact ih (sound.step honest.1 first) later honest.2

/-- After any events, as long as every cursor can be persisted. What the relay promises is needed
only for what the cursor has passed. -/
theorem inbox_delivers_in_order_once (initialCursor : Int) (events : List InboxEvent)
    (persists : ∀ event ∈ events, event.persists = true) :
    InOrderOnce initialCursor (machine.run (Inbox.start initialCursor) events) ∧
      (machine.Meets TrueEvent (Inbox.start initialCursor) events →
        NotPassed initialCursor (machine.run (Inbox.start initialCursor) events)) := by
  refine ⟨((Serial.start initialCursor).run persists).inOrderOnce, ?_⟩
  intro honest entry retained after before
  have sound := (Sound.start initialCursor).run persists honest
  exact mem_completed.mpr (sound.passed entry retained after before)

/-- The first of two entries comes with the catch-up, the second as a frame during it. -/
def overlap : List InboxEvent :=
  [.stored ⟨1, "alice", "first"⟩, .iterate true, .socket 0 .upgraded, .socket 0 .opened, .turn,
    .pulled (some ⟨[⟨1, "alice", "first"⟩], 1⟩) true, .handled true true,
    .stored ⟨2, "alice", "second"⟩, .socket 0 (.frame (.entry ⟨2, "alice", "second"⟩)),
    .pulled (some ⟨[], 1⟩) true, .handled true true, .socket 0 .settled]

theorem overlap_delivered : InOrderOnce 0 (machine.run (Inbox.start 0) overlap) ∧
      NotPassed 0 (machine.run (Inbox.start 0) overlap) ∧
      (machine.run (Inbox.start 0) overlap).completed =
        [⟨1, "alice", "first"⟩, ⟨2, "alice", "second"⟩] := by
  have delivered := inbox_delivers_in_order_once 0 overlap (by decide)
  exact ⟨delivered.1, delivered.2 (by decide +kernel), by decide +kernel⟩

end PlatformClaw.Reef.Inbox
