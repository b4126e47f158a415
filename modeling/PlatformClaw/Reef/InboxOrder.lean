import Mathlib.Data.List.TakeWhile
import PlatformClaw.Reef.Inbox

/-! # The order of the inbox

Whatever the relay and the sockets do, one handler runs at a time, and the entries that are handed
out, those that are completed and the cursors that are persisted go up.
-/

namespace PlatformClaw.Reef

open scoped List

theorem nextLive_spec (cursor : Int) (entries : List InboxEntry) :
    (nextLive cursor entries = .done → ∀ entry ∈ entries, entry.seq ≤ cursor) ∧
      (∀ left, nextLive cursor entries = .invalid left → left <:+ entries) ∧
      ∀ entry left, nextLive cursor entries = .dispatch entry left →
        cursor < entry.seq ∧ ∃ skipped, entries = skipped ++ entry :: left ∧
          ∀ earlier ∈ skipped, earlier.seq ≤ cursor := by
  induction entries with
  | nil => simp [nextLive]
  | cons first rest ih =>
    obtain ⟨done, invalid, dispatch⟩ := ih
    unfold nextLive
    split
    · refine ⟨fun same => (by cases same), ?_, fun _ _ same => (by cases same)⟩
      intro left same
      cases same
      exact List.suffix_cons first rest
    · split
      · rename_i read
        refine ⟨?_, ?_, ?_⟩
        · intro same
          exact List.forall_mem_cons.mpr ⟨read, done same⟩
        · intro left same
          exact (invalid left same).trans (List.suffix_cons first rest)
        · intro entry left same
          obtain ⟨unread, skipped, split, skips⟩ := dispatch entry left same
          exact ⟨unread, first :: skipped, by rw [split]; rfl,
            List.forall_mem_cons.mpr ⟨read, skips⟩⟩
      · rename_i unread
        refine ⟨fun same => (by cases same), fun _ same => (by cases same), ?_⟩
        intro entry left same
        cases same
        exact ⟨Int.not_le.mp unread, [], rfl, fun _ none => (by cases none)⟩

/-- How an earlier mark and a later one go together. -/
def InboxMark.Before : InboxMark → InboxMark → Prop
  | .completed entry, .dispatched later => entry.seq < later.seq
  | .completed entry, .completed later => entry.seq < later.seq
  | .persisted cursor, .persisted later => cursor < later
  | _, _ => True

def InboxMark.cursor? : InboxMark → Option Int
  | .persisted cursor => some cursor
  | _ => none

/-- The marks of a connection that started at `initial` and is at `cursor`. -/
structure Trail (initial cursor : Int) (marks : List InboxMark) : Prop where
  started : initial ≤ cursor
  completed : ∀ entry, .completed entry ∈ marks → entry.seq ≤ cursor
  persisted : ∀ stored, .persisted stored ∈ marks → stored ≤ cursor
  ordered : marks.Pairwise InboxMark.Before
  kept : (marks.filterMap InboxMark.cursor?).getLastD initial = cursor

namespace Trail

variable {initial cursor : Int} {marks : List InboxMark} {entry : InboxEntry}

theorem dispatched (trail : Trail initial cursor marks) (unread : cursor < entry.seq) :
    Trail initial cursor (marks ++ [.dispatched entry]) where
  started := trail.started
  completed other inMarks := by
    rw [List.mem_append, List.mem_singleton] at inMarks
    exact inMarks.elim (trail.completed other) fun same => by cases same
  persisted stored inMarks := by
    rw [List.mem_append, List.mem_singleton] at inMarks
    exact inMarks.elim (trail.persisted stored) fun same => by cases same
  ordered := by
    rw [List.pairwise_append]
    refine ⟨trail.ordered, List.pairwise_singleton _ _, ?_⟩
    intro mark inMarks later isLast
    obtain rfl := List.mem_singleton.mp isLast
    cases mark with
    | completed other => exact Int.lt_of_le_of_lt (trail.completed other inMarks) unread
    | dispatched | failed | persisted => trivial
  kept := by
    rw [List.filterMap_append]
    simpa [InboxMark.cursor?] using trail.kept

theorem failed (trail : Trail initial cursor marks) : Trail initial cursor (marks ++ [.failed entry]) where
  started := trail.started
  completed other inMarks := by
    rw [List.mem_append, List.mem_singleton] at inMarks
    exact inMarks.elim (trail.completed other) fun same => by cases same
  persisted stored inMarks := by
    rw [List.mem_append, List.mem_singleton] at inMarks
    exact inMarks.elim (trail.persisted stored) fun same => by cases same
  ordered := by
    rw [List.pairwise_append]
    refine ⟨trail.ordered, List.pairwise_singleton _ _, ?_⟩
    intro mark inMarks later isLast
    obtain rfl := List.mem_singleton.mp isLast
    cases mark <;> trivial
  kept := by
    rw [List.filterMap_append]
    simpa [InboxMark.cursor?] using trail.kept

theorem advanced {next : Int} (trail : Trail initial cursor marks) (grows : cursor < next) :
    Trail initial next (marks ++ [.persisted next]) where
  started := Int.le_trans trail.started (Int.le_of_lt grows)
  completed other inMarks := by
    rw [List.mem_append, List.mem_singleton] at inMarks
    cases inMarks with
    | inl before => exact Int.le_trans (trail.completed other before) (Int.le_of_lt grows)
    | inr new => cases new
  persisted stored inMarks := by
    rw [List.mem_append, List.mem_singleton] at inMarks
    cases inMarks with
    | inl before => exact Int.le_trans (trail.persisted stored before) (Int.le_of_lt grows)
    | inr new =>
      cases new
      exact Int.le_refl _
  ordered := by
    rw [List.pairwise_append]
    refine ⟨trail.ordered, List.pairwise_singleton _ _, ?_⟩
    intro mark inMarks later isLast
    obtain rfl := List.mem_singleton.mp isLast
    cases mark with
    | persisted stored => exact Int.lt_of_le_of_lt (trail.persisted stored inMarks) grows
    | dispatched | completed | failed => trivial
  kept := by
    rw [List.filterMap_append]
    simp [InboxMark.cursor?]

theorem finished (trail : Trail initial cursor marks) (unread : cursor < entry.seq) :
    Trail initial entry.seq (marks ++ [.completed entry] ++ [.persisted entry.seq]) := by
  have grown := trail.advanced unread
  refine ⟨grown.started, ?_, ?_, ?_, ?_⟩
  · intro other inMarks
    simp only [List.mem_append, List.mem_singleton, or_assoc] at inMarks
    rcases inMarks with before | same | other
    · exact Int.le_trans (trail.completed other before) (Int.le_of_lt unread)
    · cases same
      exact Int.le_refl _
    · cases other
  · intro stored inMarks
    apply grown.persisted stored
    simp only [List.mem_append, List.mem_singleton, or_assoc] at inMarks ⊢
    rcases inMarks with before | same | last
    · exact .inl before
    · cases same
    · exact .inr last
  · rw [List.append_assoc, List.pairwise_append]
    refine ⟨trail.ordered, ?_, ?_⟩
    · rw [List.singleton_append, List.pairwise_pair]
      trivial
    · intro mark inMarks later isLast
      simp only [List.singleton_append, List.mem_cons, List.not_mem_nil, or_false] at isLast
      rcases isLast with rfl | rfl
      · cases mark with
        | completed other => exact Int.lt_of_le_of_lt (trail.completed other inMarks) unread
        | dispatched | failed | persisted => trivial
      · exact (List.pairwise_append.mp grown.ordered).2.2 mark inMarks _ (List.mem_singleton_self _)
  · rw [List.filterMap_append]
    simp [InboxMark.cursor?]

end Trail

namespace Inbox

variable {initial : Int} {inbox : Inbox} {k : Nat}

def isDispatched : InboxMark → Bool
  | .dispatched _ => true
  | .completed _ | .failed _ | .persisted _ => false

def isFinished : InboxMark → Bool
  | .completed _ | .failed _ => true
  | .dispatched _ | .persisted _ => false

/-- How many handlers have started and not ended. -/
def Busy (inbox : Inbox) (handlers : Nat) : Prop :=
  inbox.marks.countP isDispatched = inbox.marks.countP isFinished + handlers

/-- Only the first task can have an entry under its handler, one that the cursor has not reached. -/
def Handling (inbox : Inbox) : List InboxTask → Prop
  | ⟨_, .dispatching entry _ _⟩ :: _ => inbox.Busy 1 ∧ inbox.cursor < entry.seq
  | _ => inbox.Busy 0

structure Serial (initial : Int) (inbox : Inbox) : Prop where
  waiting : ∀ task ∈ inbox.tail.tail, task.stage = .waiting
  trail : Trail initial inbox.cursor inbox.marks
  handling : inbox.Handling inbox.tail

/-- The first task is between two of its waits. -/
structure Between (initial : Int) (inbox : Inbox) : Prop where
  waiting : ∀ task ∈ inbox.tail.tail, task.stage = .waiting
  trail : Trail initial inbox.cursor inbox.marks
  idle : inbox.Busy 0

theorem handling_waiting {tasks : List InboxTask} (waiting : ∀ task ∈ tasks, task.stage = .waiting)
    (idle : inbox.Busy 0) : inbox.Handling tasks := by
  cases tasks with
  | nil => exact idle
  | cons task rest =>
    obtain ⟨socket, stage⟩ := task
    obtain rfl := waiting _ List.mem_cons_self
    exact idle

theorem Serial.of_same (serial : Serial initial inbox) {later : Inbox}
    (tail : later.tail = inbox.tail) (cursor : later.cursor = inbox.cursor)
    (marks : later.marks = inbox.marks) : Serial initial later where
  waiting := by
    rw [tail]
    exact serial.waiting
  trail := by
    rw [cursor, marks]
    exact serial.trail
  handling := by
    have handling := serial.handling
    rw [tail]
    unfold Handling Busy at handling ⊢
    rw [cursor, marks]
    exact handling

theorem Between.endTask (between : Between initial inbox) (k : Nat) (failed : Bool) :
    Serial initial (inbox.endTask k failed) where
  waiting task inTail := between.waiting task (List.mem_of_mem_tail inTail)
  trail := between.trail
  handling := handling_waiting between.waiting between.idle

theorem Between.pull (between : Between initial inbox) (k : Nat) : Serial initial (inbox.pull k) := by
  unfold Inbox.pull
  split
  · exact between.endTask k true
  · exact ⟨between.waiting, between.trail, between.idle⟩

theorem Between.dispatch (between : Between initial inbox) (k : Nat) {entry : InboxEntry}
    (rest : List InboxEntry) (source : EntrySource) (unread : inbox.cursor < entry.seq) :
    Serial initial (inbox.dispatch k entry rest source) where
  waiting := between.waiting
  trail := between.trail.dispatched unread
  handling := by
    refine ⟨?_, unread⟩
    change (inbox.marks ++ [InboxMark.dispatched entry]).countP _ = (inbox.marks ++ [_]).countP _ + 1
    have balanced : inbox.marks.countP isDispatched = inbox.marks.countP isFinished :=
      between.idle
    rw [List.countP_append, List.countP_append, balanced]
    rfl

theorem Between.liveLoop (between : Between initial inbox) (k : Nat) : Serial initial (inbox.liveLoop k) := by
  have buffered : ∀ left, Between initial (inbox.setBuffered k left) := fun _ =>
    ⟨between.waiting, between.trail, between.idle⟩
  unfold Inbox.liveLoop
  split
  · exact between.endTask k false
  cases next : nextLive inbox.cursor (inbox.sockets k).bufferedEntries with
  | done => exact (buffered []).endTask k false
  | invalid left => exact (buffered left).endTask k true
  | dispatch entry left =>
    have spec := (nextLive_spec inbox.cursor (inbox.sockets k).bufferedEntries).2.2
    exact (buffered left).dispatch k [] .live (spec entry left next).1

theorem unread_of_dropWhile {cursor : Int} {entries rest : List InboxEntry} {entry : InboxEntry}
    (next : entries.dropWhile (fun entry => entry.seq ≤ cursor) = entry :: rest) :
    cursor < entry.seq := by
  have stops := List.head?_dropWhile_not (fun entry : InboxEntry => decide (entry.seq ≤ cursor))
    entries
  rw [next] at stops
  simpa using stops

theorem Between.dispatchFresh (between : Between initial inbox) (k : Nat) (previous : Int)
    (fresh : List InboxEntry) : Serial initial (inbox.dispatchFresh k previous fresh) := by
  unfold Inbox.dispatchFresh
  split
  · split
    · exact between.liveLoop k
    · exact between.pull k
  · rename_i next
    split
    · exact between.endTask k true
    · exact between.dispatch k _ _ (unread_of_dropWhile next)

theorem Between.begin (between : Between initial inbox) (k : Nat) : Serial initial (inbox.begin k) := by
  unfold Inbox.begin
  split
  · exact between.endTask k false
  split
  · apply Between.pull
    exact ⟨between.waiting, between.trail, between.idle⟩
  · exact between.liveLoop k

theorem advanceCursor_grows {cursor : Int} (grows : inbox.cursor < cursor) :
    inbox.advanceCursor cursor true = some { inbox.record (.persisted cursor) with cursor := cursor } := by
  rw [advanceCursor, if_neg (Int.not_le.mpr grows), if_pos rfl]

theorem advanceCursor_stays {cursor : Int} (stays : cursor ≤ inbox.cursor) (persists : Bool) :
    inbox.advanceCursor cursor persists = some inbox :=
  if_pos stays

theorem Between.advanced (between : Between initial inbox) {cursor : Int} (grows : inbox.cursor < cursor) :
    Between initial { inbox.record (.persisted cursor) with cursor := cursor } where
  waiting := between.waiting
  trail := between.trail.advanced grows
  idle := by
    change (inbox.marks ++ [InboxMark.persisted cursor]).countP _ =
      (inbox.marks ++ [InboxMark.persisted cursor]).countP _ + 0
    have balanced : inbox.marks.countP isDispatched = inbox.marks.countP isFinished :=
      between.idle
    rw [List.countP_append, List.countP_append, balanced]
    rfl

theorem Between.readPage (between : Between initial inbox) (k : Nat) (page : InboxPage)
    (persists : Bool) : Serial initial (inbox.readPage k page persists) := by
  unfold Inbox.readPage
  split
  · exact between.endTask k true
  split
  · unfold advanceCursor
    split
    · rename_i none
      exact between.endTask k true
    · rename_i advanced some_
      split at some_
      · obtain rfl := Option.some.inj some_
        exact between.liveLoop k
      · rename_i grows
        split at some_
        · obtain rfl := Option.some.inj some_
          exact (between.advanced (Int.not_le.mp grows)).liveLoop k
        · cases some_
  · exact between.dispatchFresh k _ _

/-- The connection after an entry is completed and persisted. -/
def consumed (inbox : Inbox) (entry : InboxEntry) : Inbox :=
  { (inbox.record (.completed entry)).record (.persisted entry.seq) with cursor := entry.seq }

theorem advanceCursor_completed {entry : InboxEntry} (unread : inbox.cursor < entry.seq) :
    (inbox.record (.completed entry)).advanceCursor entry.seq true = some (inbox.consumed entry) :=
  advanceCursor_grows unread

theorem Serial.complete (serial : Serial initial inbox) {entry : InboxEntry}
    {rest : List InboxEntry} {source : EntrySource} {tasks : List InboxTask}
    (tail : inbox.tail = ⟨k, .dispatching entry rest source⟩ :: tasks) :
    Serial initial (inbox.complete k entry rest source true) := by
  have handling := serial.handling
  rw [tail] at handling
  obtain ⟨busy, unread⟩ := handling
  have between : Between initial (inbox.consumed entry) := by
    refine ⟨serial.waiting, serial.trail.finished unread, ?_⟩
    change (inbox.marks ++ [InboxMark.completed entry] ++ [InboxMark.persisted entry.seq]).countP _ =
      (inbox.marks ++ [InboxMark.completed entry] ++ [InboxMark.persisted entry.seq]).countP _ + 0
    have one : inbox.marks.countP isDispatched = inbox.marks.countP isFinished + 1 := busy
    rw [List.countP_append, List.countP_append, List.countP_append, List.countP_append, one]
    rfl
  unfold Inbox.complete
  rw [advanceCursor_completed unread]
  cases source with
  | live => exact between.liveLoop k
  | page previous => exact between.dispatchFresh k previous rest

theorem Serial.fail (serial : Serial initial inbox) {entry : InboxEntry} {rest : List InboxEntry}
    {source : EntrySource} {tasks : List InboxTask}
    (tail : inbox.tail = ⟨k, .dispatching entry rest source⟩ :: tasks) :
    Serial initial (inbox.fail k entry) := by
  have handling := serial.handling
  rw [tail] at handling
  apply Between.endTask
  refine ⟨serial.waiting, serial.trail.failed, ?_⟩
  change (inbox.marks ++ [InboxMark.failed entry]).countP _ = (inbox.marks ++ [InboxMark.failed entry]).countP _ + 0
  have one : inbox.marks.countP isDispatched = inbox.marks.countP isFinished + 1 := handling.1
  rw [List.countP_append, List.countP_append, one]
  rfl

theorem Serial.pump (serial : Serial initial inbox) (k : Nat) : Serial initial (inbox.pump k) := by
  unfold Inbox.pump
  split
  · exact serial
  · refine ⟨?_, serial.trail, ?_⟩
    · intro task inTail
      change task ∈ (inbox.tail ++ [_]).tail at inTail
      cases tail : inbox.tail with
      | nil =>
        rw [tail] at inTail
        cases inTail
      | cons first rest =>
        rw [tail] at inTail
        cases List.mem_append.mp inTail with
        | inl inRest => exact serial.waiting task (by rw [tail]; exact inRest)
        | inr isLast => rw [List.mem_singleton.mp isLast]
    · change Handling _ (inbox.tail ++ [_])
      have handling := serial.handling
      cases tail : inbox.tail with
      | nil =>
        rw [tail] at handling
        exact handling
      | cons first rest =>
        rw [tail] at handling
        obtain ⟨socket, stage⟩ := first
        cases stage with
        | waiting | pulling | dispatching => exact handling

theorem markDisconnected_same (inbox : Inbox) (k : Nat) : (inbox.markDisconnected k).tail = inbox.tail ∧
      (inbox.markDisconnected k).cursor = inbox.cursor ∧
      (inbox.markDisconnected k).marks = inbox.marks := by
  unfold markDisconnected
  split <;> exact ⟨rfl, rfl, rfl⟩

theorem finish_same (inbox : Inbox) (k : Nat) :
    (inbox.finish k).tail = inbox.tail ∧ (inbox.finish k).cursor = inbox.cursor ∧
      (inbox.finish k).marks = inbox.marks := by
  unfold finish
  split <;> exact ⟨rfl, rfl, rfl⟩

theorem Serial.markDisconnected (serial : Serial initial inbox) (k : Nat) :
    Serial initial (inbox.markDisconnected k) := by
  obtain ⟨tail, cursor, marks⟩ := markDisconnected_same inbox k
  exact serial.of_same tail cursor marks

theorem Serial.finish (serial : Serial initial inbox) (k : Nat) : Serial initial (inbox.finish k) := by
  obtain ⟨tail, cursor, marks⟩ := finish_same inbox k
  exact serial.of_same tail cursor marks

theorem Serial.disconnect (serial : Serial initial inbox) (k : Nat) : Serial initial (inbox.disconnect k) := by
  unfold Inbox.disconnect
  split
  · exact serial
  split
  · exact serial.markDisconnected k
  · exact (serial.markDisconnected k).finish k

theorem Serial.setSocket (serial : Serial initial inbox) (k : Nat) (socket : InboxSocket) :
    Serial initial (inbox.setSocket k socket) :=
  serial.of_same rfl rfl rfl

theorem Serial.socketEvent (serial : Serial initial inbox) (k : Nat) (event : SocketEvent) :
    Serial initial (inbox.socketEvent k event) := by
  cases event with
  | upgraded => exact serial.setSocket k _
  | opened =>
    change Serial initial (inbox.opened k)
    unfold Inbox.opened
    split
    · exact serial
    · exact (serial.setSocket k _).pump k
  | frame frame =>
    cases frame with
    | other => exact serial
    | malformed => exact serial.disconnect k
    | entry entry =>
      change Serial initial (if _ then _ else _)
      split
      · exact (serial.setSocket k _).disconnect k
      · exact ((serial.setSocket k _).setSocket k _).pump k
  | closed =>
    change Serial initial (inbox.closed k)
    unfold Inbox.closed
    split
    · exact serial
    · exact serial.disconnect k
  | settled =>
    change Serial initial (inbox.settled k)
    unfold Inbox.settled
    split
    · unfold reacted
      split
      · exact (serial.setSocket k _).pump k
      split
      · exact serial.setSocket k _
      · exact (serial.setSocket k _).disconnect k
    · exact serial
    · exact serial

theorem Serial.step (serial : Serial initial inbox) {event : InboxEvent}
    (persists : event.persists = true) : Serial initial (inbox.step event) := by
  cases event with
  | iterate connects =>
    change Serial initial (inbox.iterate connects)
    unfold Inbox.iterate
    split
    · exact serial
    split
    · exact serial.of_same rfl rfl rfl
    split
    · exact serial.of_same rfl rfl rfl
    · exact serial
  | socket k event =>
    change Serial initial (if k < inbox.made then _ else _)
    split
    · exact serial.socketEvent k event
    · exact serial
  | stored entry => exact serial.of_same rfl rfl rfl
  | expired entry => exact serial.of_same rfl rfl rfl
  | turn =>
    change Serial initial inbox.turn
    unfold Inbox.turn
    split
    · rename_i tail
      have idle := serial.handling
      rw [tail] at idle
      exact Between.begin ⟨serial.waiting, serial.trail, idle⟩ _
    · exact serial
  | pulled page persisted =>
    change Serial initial (inbox.pulled page persisted)
    unfold Inbox.pulled
    split
    · rename_i tail
      have idle := serial.handling
      rw [tail] at idle
      exact Between.endTask ⟨serial.waiting, serial.trail, idle⟩ _ _
    · rename_i tail
      have idle := serial.handling
      rw [tail] at idle
      exact Between.readPage ⟨serial.waiting, serial.trail, idle⟩ _ _ _
    · exact serial
  | handled completes persisted =>
    change persisted = true at persists
    subst persists
    change Serial initial (inbox.handled completes true)
    unfold Inbox.handled
    split
    · rename_i tail
      split
      · exact serial.complete tail
      · exact serial.fail tail
    · exact serial
  | stop => exact serial.of_same rfl rfl rfl
  | abort =>
    change Serial initial inbox.abort
    unfold Inbox.abort
    have aborted : Serial initial { inbox with aborted := true } := serial.of_same rfl rfl rfl
    split
    · unfold abortListener
      split
      · exact aborted
      · exact (aborted.setSocket _ _).markDisconnected _
    · exact aborted
    · exact aborted
    · exact aborted
  | quiet =>
    change Serial initial inbox.quiet
    unfold Inbox.quiet
    split
    · split
      · exact serial.finish _
      · exact serial
    · exact serial.of_same rfl rfl rfl
    · exact serial

theorem Serial.start (initialCursor : Int) : Serial initialCursor (start initialCursor) where
  waiting _ inTail := by cases inTail
  trail := ⟨Int.le_refl _, fun _ inMarks => (by cases inMarks), fun _ inMarks => (by cases inMarks),
    List.Pairwise.nil, rfl⟩
  handling := rfl

end Inbox

end PlatformClaw.Reef
