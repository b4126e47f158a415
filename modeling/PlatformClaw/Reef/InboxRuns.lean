import PlatformClaw.Library.KeyedRows
import PlatformClaw.Reef.InboxOrder

/-! # Runs of the inbox

What holds between any two events when the relay keeps its promises.
-/

namespace PlatformClaw.Reef

open scoped List

namespace Inbox

variable {initial : Int} {inbox : Inbox} {k : Nat}

/-- The relay holds the entry and the cursor is still before it. -/
def Unread (inbox : Inbox) (entry : InboxEntry) : Prop :=
  inbox.Retained entry ∧ inbox.cursor < entry.seq

def feed (inbox : Inbox) (socket : InboxSocket) : List InboxEntry :=
  socket.fed.elim [] fun position => inbox.stored.drop position

/-- What a list of entries is that can be handed out next. -/
structure Ready (inbox : Inbox) (entries : List InboxEntry) : Prop where
  stored : ∀ entry ∈ entries, entry ∈ inbox.stored
  sorted : entries.Pairwise fun left right => left.seq ≤ right.seq
  whole : ∀ entry, inbox.Unread entry → entry ∈ entries ∨ ∀ other ∈ entries, other.seq < entry.seq

/-- The entries that a connected socket holds, after those in `hand`, and that its feed brings are the
last ones of the relay; unless a catch-up is due or under way they are all that is unread. -/
structure Follows (inbox : Inbox) (socket : InboxSocket) (hand : List InboxEntry) (busy : Prop) :
    Prop where
  last : hand ++ socket.bufferedEntries ++ inbox.feed socket <:+ inbox.stored
  unfed : socket.fed = none → socket.opened = false ∧ socket.bufferedEntries = []
  within : ∀ position ∈ socket.fed, position ≤ inbox.stored.length
  caughtUp : socket.opened = true → socket.catchUpPending = false → socket.pump ≠ .ended true →
    ¬busy → ∀ entry, inbox.Unread entry → entry ∈ hand ++ socket.bufferedEntries ++ inbox.feed socket

/-- What holds whatever the first task does. -/
structure Kept (initial : Int) (inbox : Inbox) : Prop where
  waiting : ∀ task ∈ inbox.tail.tail, task.stage = .waiting
  scheduled : ∀ task ∈ inbox.tail, task.socket < inbox.made ∧
    (inbox.sockets task.socket).pump = .scheduled ∧ (inbox.sockets task.socket).opened = true
  distinct : (inbox.tail.map InboxTask.socket).Nodup
  off : ∀ k, (inbox.sockets k).finished = true ∨ (inbox.sockets k).aborting = true →
    (inbox.sockets k).disconnected = true
  growing : inbox.stored.Pairwise fun earlier later => earlier.seq < later.seq
  bounded : inbox.cursor = initial ∨ ∃ entry ∈ inbox.stored, inbox.cursor ≤ entry.seq
  passed : ∀ entry, inbox.Retained entry → initial < entry.seq → entry.seq ≤ inbox.cursor →
    .completed entry ∈ inbox.marks

/-- The first task is that of the socket `k` and waits for nothing. -/
structure Running (initial : Int) (inbox : Inbox) (k : Nat) : Prop extends Kept initial inbox where
  first : ∃ stage rest, inbox.tail = ⟨k, stage⟩ :: rest
  sockets : ∀ j, (inbox.sockets j).disconnected = false → inbox.Follows (inbox.sockets j) [] (j = k)

def inHand : List InboxTask → Nat → List InboxEntry
  | ⟨j, .dispatching entry _ .live⟩ :: _, k => if j = k then [entry] else []
  | _, _ => []

/-- The first task is in the catch-up of the socket. -/
def Draining : List InboxTask → Nat → Prop
  | ⟨j, .pulling _ _⟩ :: _, k => j = k
  | ⟨j, .dispatching _ _ (.page _)⟩ :: _, k => j = k
  | _, _ => False

structure Dispatching (inbox : Inbox) (k : Nat) (entry : InboxEntry) (rest : List InboxEntry)
    (source : EntrySource) : Prop where
  settled : (inbox.sockets k).catchUpPending = false
  unread : inbox.cursor < entry.seq
  ready : inbox.Ready (entry :: rest)
  earlier : ∀ previous, source = .page previous → previous ≤ inbox.cursor

structure Pulling (inbox : Inbox) (k : Nat) (after : Int) (seen : Nat) : Prop where
  settled : (inbox.sockets k).catchUpPending = false
  current : after = inbox.cursor
  later : (inbox.sockets k).disconnected = false →
    inbox.stored.drop seen <:+ (inbox.sockets k).bufferedEntries ++ inbox.feed (inbox.sockets k)

def HeadOk (inbox : Inbox) : List InboxTask → Prop
  | [] => True
  | ⟨_, .waiting⟩ :: _ => True
  | ⟨k, .pulling after seen⟩ :: _ => inbox.Pulling k after seen
  | ⟨k, .dispatching entry rest source⟩ :: _ => inbox.Dispatching k entry rest source

structure Sound (initial : Int) (inbox : Inbox) : Prop extends Kept initial inbox where
  head : inbox.HeadOk inbox.tail
  sockets : ∀ j, (inbox.sockets j).disconnected = false →
    inbox.Follows (inbox.sockets j) (inHand inbox.tail j) (Draining inbox.tail j)

@[simp] theorem setSocket_same (socket : InboxSocket) : (inbox.setSocket k socket).sockets k = socket :=
  if_pos rfl

theorem setSocket_other {j : Nat} (socket : InboxSocket) (apart : j ≠ k) :
    (inbox.setSocket k socket).sockets j = inbox.sockets j :=
  if_neg apart

section Waiting

variable {tasks : List InboxTask} (waiting : ∀ task ∈ tasks, task.stage = .waiting)
include waiting

theorem inHand_waiting (j : Nat) : inHand tasks j = [] := by
  cases tasks with
  | nil => rfl
  | cons task rest =>
    obtain ⟨socket, stage⟩ := task
    obtain rfl := waiting _ List.mem_cons_self
    rfl

theorem headOk_waiting : inbox.HeadOk tasks := by
  cases tasks with
  | nil => trivial
  | cons task rest =>
    obtain ⟨socket, stage⟩ := task
    obtain rfl := waiting _ List.mem_cons_self
    trivial

end Waiting

theorem inHand_other {stage : InboxStage} {tasks : List InboxTask} {j : Nat} (apart : j ≠ k) :
    inHand (⟨k, stage⟩ :: tasks) j = [] := by
  cases stage with
  | waiting | pulling => rfl
  | dispatching entry rest source =>
    cases source with
    | live => exact if_neg (Ne.symm apart)
    | page previous => rfl

theorem draining_head {stage : InboxStage} {tasks : List InboxTask} {j : Nat}
    (draining : Draining (⟨k, stage⟩ :: tasks) j) : j = k := by
  cases stage with
  | waiting => exact absurd draining id
  | pulling => exact Eq.symm draining
  | dispatching entry rest source =>
    cases source with
    | live => exact absurd draining id
    | page previous => exact Eq.symm draining

theorem Kept.setSocket (kept : Kept initial inbox) {socket : InboxSocket}
    (pump : (inbox.sockets k).pump = .scheduled → socket.pump = .scheduled)
    (opened : (inbox.sockets k).opened = true → socket.opened = true)
    (off : socket.finished = true ∨ socket.aborting = true → socket.disconnected = true) :
    Kept initial (inbox.setSocket k socket) where
  waiting := kept.waiting
  scheduled task inTail := by
    obtain ⟨made, scheduled, isOpened⟩ := kept.scheduled task inTail
    by_cases same : task.socket = k
    · rw [same] at scheduled isOpened made ⊢
      rw [setSocket_same]
      exact ⟨made, pump scheduled, opened isOpened⟩
    · rw [setSocket_other socket same]
      exact ⟨made, scheduled, isOpened⟩
  distinct := kept.distinct
  off j ended := by
    by_cases same : j = k
    · rw [same, setSocket_same] at ended ⊢
      exact off ended
    · rw [setSocket_other socket same] at ended ⊢
      exact kept.off j ended
  growing := kept.growing
  bounded := kept.bounded
  passed := kept.passed

theorem Kept.setHead (kept : Kept initial inbox)
    (first : ∃ stage rest, inbox.tail = ⟨k, stage⟩ :: rest) (stage : InboxStage) :
    Kept initial (inbox.setHead ⟨k, stage⟩) where
  waiting := kept.waiting
  scheduled task inTail := by
    obtain ⟨before, rest, tail⟩ := first
    cases inTail with
    | head => exact kept.scheduled ⟨k, before⟩ (tail ▸ List.mem_cons_self)
    | tail _ inRest => exact kept.scheduled task (List.mem_of_mem_tail inRest)
  distinct := by
    obtain ⟨before, rest, tail⟩ := first
    have distinct := kept.distinct
    rw [tail] at distinct
    rw [Inbox.setHead, tail]
    exact distinct
  off := kept.off
  growing := kept.growing
  bounded := kept.bounded
  passed := kept.passed

theorem Kept.endTask (kept : Kept initial inbox)
    (first : ∃ stage rest, inbox.tail = ⟨k, stage⟩ :: rest) (failed : Bool) :
    Kept initial (inbox.endTask k failed) where
  waiting task inTail := kept.waiting task (List.mem_of_mem_tail inTail)
  scheduled task inTail := by
    obtain ⟨stage, rest, tail⟩ := first
    have distinct := kept.distinct
    rw [tail, List.map_cons, List.nodup_cons] at distinct
    have inRest : task ∈ rest := by
      rw [Inbox.endTask, tail] at inTail
      exact inTail
    have apart : task.socket ≠ k := by
      intro same
      exact distinct.1 (List.mem_map.mpr ⟨task, inRest, same⟩)
    have scheduled := kept.scheduled task (tail ▸ List.mem_cons_of_mem _ inRest)
    refine ⟨scheduled.1, ?_⟩
    change ((inbox.setSocket k _).sockets task.socket).pump = _ ∧
      ((inbox.setSocket k _).sockets task.socket).opened = _
    rw [setSocket_other _ apart]
    exact scheduled.2
  distinct := by
    have distinct := kept.distinct
    obtain ⟨stage, rest, tail⟩ := first
    rw [tail, List.map_cons, List.nodup_cons] at distinct
    rw [Inbox.endTask, tail]
    exact distinct.2
  off j ended := by
    change ((inbox.setSocket k _).sockets j).disconnected = true
    change ((inbox.setSocket k _).sockets j).finished = true ∨
      ((inbox.setSocket k _).sockets j).aborting = true at ended
    by_cases same : j = k
    · rw [same, setSocket_same] at ended ⊢
      exact kept.off k ended
    · rw [setSocket_other _ same] at ended ⊢
      exact kept.off j ended
  growing := kept.growing
  bounded := kept.bounded
  passed := kept.passed

/-- A follower that has nothing in hand and no catch-up follows whatever is said of its busyness. -/
theorem Follows.weaken {socket : InboxSocket} {busy later : Prop}
    (follows : inbox.Follows socket [] busy) (weaker : busy → later) :
    inbox.Follows socket [] later where
  last := follows.last
  unfed := follows.unfed
  within := follows.within
  caughtUp opened pending ended idle := follows.caughtUp opened pending ended fun busy =>
    idle (weaker busy)

theorem Follows.transfer {later : Inbox} {socket : InboxSocket} {hand : List InboxEntry} {busy : Prop}
    (follows : inbox.Follows socket hand busy) (stored : later.stored = inbox.stored)
    (expired : later.expired = inbox.expired) (cursor : later.cursor = inbox.cursor) :
    later.Follows socket hand busy where
  last := by
    rw [feed, stored]
    exact follows.last
  unfed := follows.unfed
  within := by
    rw [stored]
    exact follows.within
  caughtUp opened pending ended idle entry unread := by
    rw [Unread, Retained, stored, expired, cursor] at unread
    rw [feed, stored]
    exact follows.caughtUp opened pending ended idle entry unread

theorem Running.endTask (running : Running initial inbox k) {failed : Bool}
    (caught : failed = false → (inbox.sockets k).disconnected = false →
      inbox.Follows (inbox.sockets k) [] False) : Sound initial (inbox.endTask k failed) where
  toKept := running.toKept.endTask running.first failed
  head := headOk_waiting running.waiting
  sockets j connected := by
    suffices follows : inbox.Follows ((inbox.endTask k failed).sockets j)
        (inHand inbox.tail.tail j) (Draining inbox.tail.tail j) from follows.transfer rfl rfl rfl
    change inbox.Follows ((inbox.setSocket k _).sockets j) _ _
    change ((inbox.setSocket k _).sockets j).disconnected = false at connected
    rw [inHand_waiting running.waiting]
    by_cases same : j = k
    · subst same
      rw [setSocket_same] at connected ⊢
      have before := running.sockets j connected
      refine ⟨before.last, before.unfed, before.within, ?_⟩
      intro opened pending ended _
      cases failed with
      | true => exact absurd rfl ended
      | false =>
        have scheduled : (inbox.sockets j).pump = .scheduled := by
          obtain ⟨stage, rest, tail⟩ := running.first
          exact (running.scheduled ⟨j, stage⟩ (tail ▸ List.mem_cons_self)).2.1
        exact (caught rfl connected).caughtUp opened pending (by rw [scheduled]; intro same; cases same) id
    · rw [setSocket_other _ same] at connected ⊢
      exact (running.sockets j connected).weaken fun isFirst => absurd isFirst same

theorem Running.pull (running : Running initial inbox k)
    (settled : (inbox.sockets k).catchUpPending = false) : Sound initial (inbox.pull k) := by
  unfold Inbox.pull
  split
  · exact running.endTask fun same => by cases same
  · refine ⟨running.toKept.setHead running.first _, ?_, ?_⟩
    · refine ⟨settled, rfl, ?_⟩
      intro connected
      change inbox.stored.drop inbox.stored.length <:+ _
      rw [List.drop_length]
      exact List.nil_suffix
    · intro j connected
      exact ((running.sockets j connected).weaken Eq.symm).transfer rfl rfl rfl

theorem Kept.dispatch (kept : Kept initial inbox) (first : ∃ stage rest, inbox.tail = ⟨k, stage⟩ :: rest)
    (settled : (inbox.sockets k).catchUpPending = false)
    {entry : InboxEntry} {rest : List InboxEntry} {source : EntrySource}
    (unread : inbox.cursor < entry.seq) (ready : inbox.Ready (entry :: rest))
    (earlier : ∀ previous, source = .page previous → previous ≤ inbox.cursor)
    (sockets : ∀ j, (inbox.sockets j).disconnected = false →
      inbox.Follows (inbox.sockets j) (inHand [⟨k, .dispatching entry rest source⟩] j)
        (Draining [⟨k, .dispatching entry rest source⟩] j)) :
    Sound initial (inbox.dispatch k entry rest source) where
  toKept :=
    let moved := kept.setHead first (.dispatching entry rest source)
    { moved with
      passed := fun other retained after before =>
        List.mem_append_left _ (kept.passed other retained after before) }
  head := ⟨settled, unread, ⟨ready.stored, ready.sorted, ready.whole⟩, earlier⟩
  sockets j connected := by
    have follows := sockets j connected
    cases source with
    | live => exact follows.transfer rfl rfl rfl
    | page previous => exact follows.transfer rfl rfl rfl

theorem Running.setSocket (running : Running initial inbox k) (socket : InboxSocket)
    (pump : (inbox.sockets k).pump = .scheduled → socket.pump = .scheduled)
    (opened : (inbox.sockets k).opened = true → socket.opened = true)
    (off : socket.finished = true ∨ socket.aborting = true → socket.disconnected = true)
    (last : socket.disconnected = false → socket.bufferedEntries ++ inbox.feed socket <:+ inbox.stored)
    (unfed : socket.disconnected = false → socket.fed = none → socket.opened = false ∧ socket.bufferedEntries = [])
    (within : socket.disconnected = false → ∀ position ∈ socket.fed, position ≤ inbox.stored.length) :
    Running initial (inbox.setSocket k socket) k where
  toKept := running.toKept.setSocket pump opened off
  first := running.first
  sockets j connected := by
    suffices follows : inbox.Follows ((inbox.setSocket k socket).sockets j) [] (j = k) from
      follows.transfer rfl rfl rfl
    by_cases same : j = k
    · subst same
      rw [setSocket_same] at connected ⊢
      exact ⟨last connected, unfed connected, within connected,
        fun _ _ _ busy => absurd rfl busy⟩
    · rw [setSocket_other _ same] at connected ⊢
      exact running.sockets j connected

theorem Running.setBuffered (running : Running initial inbox k) {left : List InboxEntry}
    (fewer : left <:+ (inbox.sockets k).bufferedEntries) :
    Running initial (inbox.setBuffered k left) k := by
  apply running.setSocket { inbox.sockets k with bufferedEntries := left } id id (running.off k)
  · intro connected
    obtain ⟨skipped, split⟩ := fewer
    have last := (running.sockets k connected).last
    rw [← split, List.nil_append, List.append_assoc] at last
    exact (List.suffix_append skipped _).trans last
  · intro connected unfed
    obtain ⟨closed, empty⟩ := (running.sockets k connected).unfed unfed
    rw [empty] at fewer
    exact ⟨closed, List.suffix_nil.mp fewer⟩
  · intro connected
    exact (running.sockets k connected).within

/-- The first of the entries that are still to come is the next one to hand out. -/
theorem ready_of_last {entry : InboxEntry} {later : List InboxEntry}
    (growing : inbox.stored.Pairwise fun earlier later => earlier.seq < later.seq)
    (last : entry :: later <:+ inbox.stored)
    (all : ∀ other, inbox.Unread other → other ∈ entry :: later) : inbox.Ready [entry] where
  stored other inList := by
    rw [List.mem_singleton.mp inList]
    exact last.mem List.mem_cons_self
  sorted := List.pairwise_singleton _ _
  whole other unread := by
    have ordered := List.pairwise_cons.mp (growing.sublist last.sublist)
    cases all other unread with
    | head => exact .inl List.mem_cons_self
    | tail _ inLater =>
      refine .inr fun first isFirst => ?_
      rw [List.mem_singleton.mp isFirst]
      exact ordered.1 other inLater

theorem Running.liveLoop (running : Running initial inbox k)
    (caught : (inbox.sockets k).disconnected = false → inbox.Follows (inbox.sockets k) [] False)
    (opened : (inbox.sockets k).opened = true)
    (settled : (inbox.sockets k).catchUpPending = false) :
    Sound initial (inbox.liveLoop k) := by
  unfold Inbox.liveLoop
  split
  · rename_i disconnected
    refine running.endTask fun _ connected => ?_
    rw [disconnected] at connected
    cases connected
  rename_i disconnected
  have connected : (inbox.sockets k).disconnected = false := by simpa using disconnected
  have follows := caught connected
  have scheduled : (inbox.sockets k).pump ≠ .ended true := by
    obtain ⟨stage, rest, tail⟩ := running.first
    have scheduled := (running.scheduled ⟨k, stage⟩ (tail ▸ List.mem_cons_self)).2.1
    intro same
    rw [same] at scheduled
    cases scheduled
  have all := follows.caughtUp opened settled scheduled id
  obtain ⟨done, invalid, dispatch⟩ :=
    nextLive_spec inbox.cursor (inbox.sockets k).bufferedEntries
  cases next : nextLive inbox.cursor (inbox.sockets k).bufferedEntries with
  | done =>
    refine (running.setBuffered List.nil_suffix).endTask fun _ _ => ?_
    suffices caught : inbox.Follows ((inbox.setBuffered k []).sockets k) [] False from caught.transfer rfl rfl rfl
    rw [Inbox.setBuffered, setSocket_same]
    refine ⟨?_, fun unfed => ⟨(follows.unfed unfed).1, rfl⟩, follows.within, ?_⟩
    · exact (List.suffix_append _ _).trans follows.last
    · intro _ _ _ _ entry unread
      cases List.mem_append.mp (all entry unread) with
      | inl buffered => exact absurd unread.2 (Int.not_lt.mpr (done next entry buffered))
      | inr coming => exact coming
  | invalid left =>
    exact (running.setBuffered (invalid left next)).endTask fun same => by cases same
  | dispatch entry left =>
    obtain ⟨unread, skipped, buffered, skips⟩ := dispatch entry left next
    have last : entry :: (left ++ inbox.feed (inbox.sockets k)) <:+ inbox.stored := by
      have last := follows.last
      rw [buffered, List.nil_append, List.append_assoc] at last
      exact (List.suffix_append _ _).trans last
    have coming : ∀ other, inbox.Unread other → other ∈ entry :: (left ++ inbox.feed (inbox.sockets k)) := by
      intro other isUnread
      have inAll := all other isUnread
      rw [buffered, List.nil_append, List.append_assoc, List.mem_append] at inAll
      cases inAll with
      | inl skippedOver => exact absurd isUnread.2 (Int.not_lt.mpr (skips other skippedOver))
      | inr later => exact later
    have shorter : left <:+ (inbox.sockets k).bufferedEntries := by
      rw [buffered]
      exact (List.suffix_cons entry left).trans (List.suffix_append _ _)
    have fewer := running.setBuffered shorter
    have ready := ready_of_last running.growing last coming
    have unpending : ((inbox.setBuffered k left).sockets k).catchUpPending = false := by
      rw [Inbox.setBuffered, setSocket_same]
      exact settled
    apply fewer.toKept.dispatch fewer.first unpending unread
    · exact ⟨ready.stored, ready.sorted, ready.whole⟩
    · intro previous same
      cases same
    · intro j isConnected
      by_cases same : j = k
      · subst same
        suffices holds : inbox.Follows ((inbox.setBuffered j left).sockets j) [entry] False by
          have inHand : inHand [⟨j, .dispatching entry [] .live⟩] j = [entry] := if_pos rfl
          rw [inHand]
          exact holds.transfer rfl rfl rfl
        rw [Inbox.setBuffered, setSocket_same]
        refine ⟨last, ?_, follows.within, fun _ _ _ _ => coming⟩
        intro unfed
        have closed := (follows.unfed unfed).1
        rw [opened] at closed
        cases closed
      · have inHand : inHand [⟨k, .dispatching entry [] .live⟩] j = [] := if_neg (Ne.symm same)
        rw [inHand]
        exact (fewer.sockets j isConnected).weaken fun isFirst => same isFirst

theorem Ready.dropWhile {entries : List InboxEntry} (ready : inbox.Ready entries) :
    inbox.Ready (entries.dropWhile fun entry => entry.seq ≤ inbox.cursor) where
  stored entry inList := ready.stored entry ((List.dropWhile_sublist _).mem inList)
  sorted := ready.sorted.sublist (List.dropWhile_sublist _)
  whole entry unread := by
    cases ready.whole entry unread with
    | inl inEntries =>
      rw [← List.takeWhile_append_dropWhile (p := fun entry => entry.seq ≤ inbox.cursor)
        (l := entries), List.mem_append] at inEntries
      cases inEntries with
      | inl skipped =>
        have read := List.mem_takeWhile_imp skipped
        exact absurd unread.2 (Int.not_lt.mpr (of_decide_eq_true read))
      | inr left => exact .inl left
    | inr above => exact .inr fun other left => above other ((List.dropWhile_sublist _).mem left)

theorem Running.dispatchFresh (running : Running initial inbox k) {previous : Int}
    {fresh : List InboxEntry} (ready : inbox.Ready fresh) (earlier : previous ≤ inbox.cursor)
    (settled : (inbox.sockets k).catchUpPending = false)
    (moved : (∀ entry ∈ fresh, entry.seq ≤ inbox.cursor) → inbox.cursor ≠ previous) :
    Sound initial (inbox.dispatchFresh k previous fresh) := by
  unfold Inbox.dispatchFresh
  have left := ready.dropWhile
  cases next : fresh.dropWhile fun entry => entry.seq ≤ inbox.cursor with
  | nil =>
    have read : ∀ entry ∈ fresh, entry.seq ≤ inbox.cursor := by
      intro entry inFresh
      exact of_decide_eq_true (List.dropWhile_eq_nil_iff.mp next entry inFresh)
    dsimp only
    rw [if_neg (moved read)]
    exact running.pull settled
  | cons entry rest =>
    dsimp only
    split
    · exact running.endTask fun same => by cases same
    rw [next] at left
    have unread := unread_of_dropWhile next
    apply running.toKept.dispatch running.first settled unread left
    · intro earlierCursor same
      cases same
      exact earlier
    · intro j connected
      exact (running.sockets j connected).weaken Eq.symm

theorem Follows.advance {later : Inbox} {socket : InboxSocket} {hand : List InboxEntry} {busy : Prop}
    (follows : inbox.Follows socket hand busy) (stored : later.stored = inbox.stored)
    (expired : later.expired = inbox.expired) (grows : inbox.cursor ≤ later.cursor)
    (read : ∀ entry ∈ hand, entry.seq ≤ later.cursor) : later.Follows socket [] busy where
  last := by
    have last := follows.last
    rw [List.append_assoc] at last
    rw [feed, stored]
    exact (List.suffix_append _ _).trans last
  unfed := follows.unfed
  within := by
    rw [stored]
    exact follows.within
  caughtUp opened pending ended idle entry unread := by
    rw [Unread, Retained, stored, expired] at unread
    rw [feed, stored]
    have inAll := follows.caughtUp opened pending ended idle entry ⟨unread.1, Int.lt_of_le_of_lt grows unread.2⟩
    rw [List.append_assoc, List.mem_append] at inAll
    cases inAll with
    | inl inHand => exact absurd unread.2 (Int.not_lt.mpr (read entry inHand))
    | inr coming => exact coming

/-- Entries of the relay with one number are the same. -/
theorem Kept.same_of_seq (kept : Kept initial inbox) {entry other : InboxEntry}
    (stored : entry ∈ inbox.stored) (alsoStored : other ∈ inbox.stored)
    (same : entry.seq = other.seq) : entry = other := by
  have apart : inbox.stored.Pairwise fun a b => a.seq ≠ b.seq := kept.growing.imp Int.ne_of_lt
  exact KeyedRows.unique apart stored alsoStored same

theorem Sound.follows (sound : Sound initial inbox) {stage : InboxStage} {tasks : List InboxTask}
    (tail : inbox.tail = ⟨k, stage⟩ :: tasks) (j : Nat)
    (connected : (inbox.sockets j).disconnected = false) :
    inbox.Follows (inbox.sockets j) [] (j = k) := by
  have follows := sound.sockets j connected
  rw [tail] at follows
  by_cases same : j = k
  · refine ⟨?_, follows.unfed, follows.within, fun _ _ _ busy => absurd same busy⟩
    have last := follows.last
    rw [List.append_assoc] at last
    exact (List.suffix_append _ _).trans last
  · rw [inHand_other same] at follows
    exact follows.weaken draining_head

theorem Sound.running (sound : Sound initial inbox) {stage : InboxStage} {tasks : List InboxTask}
    (tail : inbox.tail = ⟨k, stage⟩ :: tasks) : Running initial inbox k where
  toKept := sound.toKept
  first := ⟨stage, tasks, tail⟩
  sockets := sound.follows tail

theorem Kept.consumed (kept : Kept initial inbox) {entry : InboxEntry} {rest : List InboxEntry}
    (ready : inbox.Ready (entry :: rest)) :
    Kept initial (inbox.consumed entry) where
  waiting := kept.waiting
  scheduled := kept.scheduled
  distinct := kept.distinct
  off := kept.off
  growing := kept.growing
  bounded := .inr ⟨entry, ready.stored entry List.mem_cons_self, Int.le_refl _⟩
  passed other retained after before := by
    apply List.mem_append_left
    rw [Inbox.record, List.mem_append, List.mem_singleton]
    by_cases read : other.seq ≤ inbox.cursor
    · exact .inl (kept.passed other retained after read)
    · cases ready.whole other ⟨retained, Int.not_le.mp read⟩ with
      | inr above => exact absurd before (Int.not_le.mpr (above entry List.mem_cons_self))
      | inl inList =>
        have least : entry.seq ≤ other.seq := by
          cases inList with
          | head => exact Int.le_refl _
          | tail _ inRest => exact (List.pairwise_cons.mp ready.sorted).1 other inRest
        have same := kept.same_of_seq retained.1 (ready.stored entry List.mem_cons_self)
          (Int.le_antisymm before least)
        exact .inr (congrArg InboxMark.completed same)

theorem Sound.consumed (sound : Sound initial inbox) {entry : InboxEntry} {rest : List InboxEntry}
    {source : EntrySource} {tasks : List InboxTask}
    (tail : inbox.tail = ⟨k, .dispatching entry rest source⟩ :: tasks) :
    Running initial (inbox.consumed entry) k ∧ (inbox.consumed entry).Ready rest := by
  have head := sound.head
  rw [tail] at head
  obtain ⟨_, unread, ready, earlier⟩ := head
  refine ⟨⟨sound.toKept.consumed ready, ⟨_, tasks, tail⟩, ?_⟩, ?_⟩
  · intro j connected
    have none : ∀ other ∈ ([] : List InboxEntry), other.seq ≤ entry.seq := fun _ none => by cases none
    exact (sound.follows tail j connected).advance rfl rfl (Int.le_of_lt unread) none
  · refine ⟨fun other inRest => ready.stored other (List.mem_cons_of_mem _ inRest),
      (List.pairwise_cons.mp ready.sorted).2, ?_⟩
    intro other isUnread
    cases ready.whole other ⟨isUnread.1, Int.lt_trans unread isUnread.2⟩ with
    | inr above => exact .inr fun later inRest => above later (List.mem_cons_of_mem _ inRest)
    | inl inList =>
      cases inList with
      | head => exact absurd isUnread.2 (Int.lt_irrefl _)
      | tail _ inRest => exact .inl inRest

theorem Sound.opened (sound : Sound initial inbox) {task : InboxTask} {tasks : List InboxTask}
    (tail : inbox.tail = task :: tasks) : (inbox.sockets task.socket).opened = true :=
  (sound.scheduled task (tail ▸ List.mem_cons_self)).2.2

theorem Sound.complete (sound : Sound initial inbox) {entry : InboxEntry} {rest : List InboxEntry}
    {source : EntrySource} {tasks : List InboxTask}
    (tail : inbox.tail = ⟨k, .dispatching entry rest source⟩ :: tasks) :
    Sound initial (inbox.complete k entry rest source true) := by
  obtain ⟨running, ready⟩ := sound.consumed tail
  have head := sound.head
  rw [tail] at head
  obtain ⟨settled, unread, _, earlier⟩ := head
  unfold Inbox.complete
  rw [advanceCursor_completed unread]
  cases source with
  | page previous =>
    apply running.dispatchFresh ready _ settled
    · intro _
      exact Ne.symm (Int.ne_of_lt (Int.lt_of_le_of_lt (earlier previous rfl) unread))
    · exact Int.le_trans (earlier previous rfl) (Int.le_of_lt unread)
  | live =>
    refine running.liveLoop (fun connected => ?_) (sound.opened tail) settled
    have follows := sound.sockets k connected
    rw [tail] at follows
    have inHand : inHand (⟨k, .dispatching entry rest .live⟩ :: tasks) k = [entry] := if_pos rfl
    rw [inHand] at follows
    refine follows.advance rfl rfl (Int.le_of_lt unread) fun other isEntry => ?_
    rw [List.mem_singleton.mp isEntry]
    exact Int.le_refl _

theorem Sound.fail (sound : Sound initial inbox) {entry : InboxEntry} {rest : List InboxEntry}
    {source : EntrySource} {tasks : List InboxTask}
    (tail : inbox.tail = ⟨k, .dispatching entry rest source⟩ :: tasks) :
    Sound initial (inbox.fail k entry) := by
  have failed : Kept initial (inbox.record (.failed entry)) :=
    { sound.toKept with
      passed := fun other retained after before =>
        List.mem_append_left _ (sound.passed other retained after before) }
  refine Running.endTask ⟨failed, ⟨_, tasks, tail⟩, ?_⟩ fun same => by cases same
  intro j connected
  exact (sound.follows tail j connected).transfer rfl rfl rfl

theorem Sound.begin (sound : Sound initial inbox) {tasks : List InboxTask}
    (tail : inbox.tail = ⟨k, .waiting⟩ :: tasks) : Sound initial (inbox.begin k) := by
  have running := sound.running tail
  unfold Inbox.begin
  split
  · rename_i disconnected
    refine running.endTask fun _ connected => ?_
    rw [disconnected] at connected
    cases connected
  split
  · have started : Running initial (inbox.setSocket k
        { inbox.sockets k with catchUpPending := false }) k := by
      apply running.setSocket { inbox.sockets k with catchUpPending := false } id id (running.off k)
      · intro connected
        exact (running.sockets k connected).last
      · intro connected
        exact (running.sockets k connected).unfed
      · intro connected
        exact (running.sockets k connected).within
    apply started.pull
    rw [setSocket_same]
  · rename_i disconnected pending
    refine running.liveLoop (fun connected => ?_) (sound.opened tail) (by simpa using pending)
    have follows := sound.sockets k connected
    rw [tail] at follows
    exact follows

theorem highestSequence_ge (page : InboxPage) {entry : InboxEntry} (inPage : entry ∈ page.entries) :
    entry.seq ≤ page.highestSequence := by
  have fold : ∀ (entries : List InboxEntry) (highest : Int),
      highest ≤ entries.foldl (fun highest entry => max highest entry.seq) highest ∧
        ∀ entry ∈ entries, entry.seq ≤ entries.foldl (fun highest entry => max highest entry.seq) highest := by
    intro entries
    induction entries with
    | nil => exact fun highest => ⟨Int.le_refl _, fun _ none => by cases none⟩
    | cons first rest ih =>
      intro highest
      obtain ⟨above, each⟩ := ih (max highest first.seq)
      refine ⟨Int.le_trans (Int.le_max_left _ _) above, List.forall_mem_cons.mpr ⟨?_, each⟩⟩
      exact Int.le_trans (Int.le_max_right _ _) above
  exact (fold page.entries 0).2 entry inPage

theorem Sound.readPage (sound : Sound initial inbox) {after : Int} {seen : Nat}
    {tasks : List InboxTask} (tail : inbox.tail = ⟨k, .pulling after seen⟩ :: tasks)
    {page : InboxPage} (honest : inbox.TruePage after seen page) :
    Sound initial (inbox.readPage k page true) := by
  have head := sound.head
  rw [tail] at head
  obtain ⟨settled, rfl, later⟩ := head
  have running := sound.running tail
  unfold Inbox.readPage
  split
  · exact running.endTask fun same => by cases same
  rename_i valid
  rw [not_or] at valid
  obtain ⟨_, valid⟩ := valid
  simp only [InboxPage.valid, Bool.and_eq_true, Bool.not_eq_false, Bool.or_eq_true, beq_iff_eq,
    decide_eq_true_eq] at valid
  obtain ⟨⟨⟨_, grows⟩, _⟩, highest⟩ := valid
  split
  · rename_i empty
    rw [List.isEmpty_iff] at empty
    have caught : ∀ next : Inbox, next.stored = inbox.stored → next.expired = inbox.expired →
        next.cursor = page.cursor → (inbox.sockets k).disconnected = false →
        next.Follows (inbox.sockets k) [] False := by
      intro next stored expired cursor connected
      have follows := running.sockets k connected
      refine ⟨?_, follows.unfed, by rw [stored]; exact follows.within, ?_⟩
      · rw [feed, stored]
        exact follows.last
      · intro _ _ _ _ entry unread
        rw [Unread, Retained, stored, expired, cursor] at unread
        obtain ⟨⟨inStored, held⟩, unread⟩ := unread
        rw [feed, stored]
        rw [← List.take_append_drop seen inbox.stored, List.mem_append] at inStored
        cases inStored with
        | inl early => exact absurd unread (Int.not_lt.mpr (honest.last empty entry early held))
        | inr late => exact (later connected).mem late
    by_cases stays : page.cursor ≤ inbox.cursor
    · rw [advanceCursor_stays stays]
      exact running.liveLoop (caught inbox rfl rfl (Int.le_antisymm grows stays)) (sound.opened tail) settled
    · have grows := Int.not_le.mp stays
      rw [advanceCursor_grows grows]
      have advanced : Running initial
          { inbox.record (.persisted page.cursor) with cursor := page.cursor } k := by
        refine ⟨⟨running.waiting, running.scheduled, running.distinct, running.off,
          running.growing, ?_, ?_⟩, running.first, ?_⟩
        · cases honest.bounded with
          | inl same => exact absurd same.symm (Int.ne_of_lt grows)
          | inr bound => exact .inr bound
        · intro entry retained after before
          apply List.mem_append_left
          by_cases read : entry.seq ≤ inbox.cursor
          · exact running.passed entry retained after read
          · have inPage := honest.whole entry retained.1 retained.2 (Int.not_le.mp read) before
            rw [empty] at inPage
            cases inPage
        · intro j connected
          have none : ∀ other ∈ ([] : List InboxEntry), other.seq ≤ page.cursor :=
            fun _ none => by cases none
          exact (running.sockets j connected).advance rfl rfl (Int.le_of_lt grows) none
      exact advanced.liveLoop (caught _ rfl rfl rfl) (sound.opened tail) settled
  · rename_i nonempty
    have highest : page.cursor = page.highestSequence :=
      highest.resolve_left fun empty => nonempty empty
    have fresh : ∀ entry, entry ∈ page.fresh ↔ entry ∈ page.entries := fun _ =>
      List.mem_mergeSort
    apply running.dispatchFresh _ (Int.le_refl _) settled
    · intro read
      obtain ⟨entry, inPage⟩ : ∃ entry, entry ∈ page.entries := by
        cases entries : page.entries with
        | nil => exact absurd (by rw [entries]; rfl) nonempty
        | cons first rest => exact ⟨first, List.mem_cons_self⟩
      exact absurd (honest.entries entry inPage).2 (Int.not_lt.mpr (read entry ((fresh entry).mpr inPage)))
    · refine ⟨fun entry inFresh => (honest.entries entry ((fresh entry).mp inFresh)).1, ?_, ?_⟩
      · have sorted := @List.pairwise_mergeSort _ (fun left right : InboxEntry => decide (left.seq ≤ right.seq))
          (fun a b c ab bc => by simp only [decide_eq_true_eq] at *; omega)
          (fun a b => by simp only [Bool.or_eq_true, decide_eq_true_eq]; omega) page.entries
        exact sorted.imp fun ordered => of_decide_eq_true ordered
      · intro entry unread
        by_cases within : entry.seq ≤ page.cursor
        · exact .inl ((fresh entry).mpr (honest.whole entry unread.1.1 unread.1.2 unread.2 within))
        · refine .inr fun other inFresh => ?_
          have below := highestSequence_ge page ((fresh other).mp inFresh)
          omega

end Inbox

end PlatformClaw.Reef
