import PlatformClaw.Library.Machine
import PlatformClaw.Library.ScriptNumber

/-! # The Reef inbox

The relay keeps the entries of a claw under increasing sequence numbers. They reach it as live
frames of a socket and as pages of a REST catch-up; `ReefInboxConnection` hands both to one handler,
over one cursor and one serial tail of tasks. A socket that fails is replaced, and what its tasks
still do overlaps with the life of its replacement.
-/

namespace PlatformClaw.Reef

open ScriptNumber (isSafeInteger)

/-- `InboxEntry`. A sequence number that is no safe integer stands for anything else the relay may
send there. -/
structure InboxEntry where
  seq : Int
  peer : String
  id : String
deriving DecidableEq, Repr

/-- The answer of `pull`. -/
structure InboxPage where
  entries : List InboxEntry
  cursor : Int
deriving DecidableEq, Repr

/-- The data of a socket message. -/
inductive InboxFrame
  | entry (entry : InboxEntry)
  /-- JSON of another type, or without an entry. -/
  | other
  /-- What `JSON.parse` or the reading of its fields throws on. -/
  | malformed
deriving DecidableEq, Repr

def REEF_INBOX_LIVE_BUFFER_MAX_ENTRIES : Nat := 256

/-- Where the entry under the handler comes from; a page remembers the cursor it was asked at. -/
inductive EntrySource
  | live
  | page (previous : Int)
deriving DecidableEq, Repr

/-- What a task of the serial tail waits for. -/
inductive InboxStage
  /-- The tasks before it. -/
  | waiting
  /-- The page after a cursor; the relay had `seen` entries when it was asked. -/
  | pulling (after : Int) (seen : Nat)
  /-- The handler of an entry; `rest` comes after it. -/
  | dispatching (entry : InboxEntry) (rest : List InboxEntry) (source : EntrySource)
deriving DecidableEq, Repr

/-- A task of the serial tail, with the socket whose pump scheduled it. -/
structure InboxTask where
  socket : Nat
  stage : InboxStage
deriving DecidableEq, Repr

/-- `pumpScheduled`: it stays set until the reaction to the end of the task has run. -/
inductive PumpState
  | idle
  | scheduled
  | ended (failed : Bool)
deriving DecidableEq, Repr

/-- The variables of one call of `live`. -/
structure InboxSocket where
  /-- The relay has opened its feed, and has sent the stored entries below this position or started
  behind them. -/
  fed : Option Nat := none
  opened : Bool := false
  catchUpPending : Bool := false
  /-- `workAbort` is aborted at the same time. -/
  disconnected : Bool := false
  aborting : Bool := false
  finished : Bool := false
  pump : PumpState := .idle
  bufferedEntries : List InboxEntry := []
deriving DecidableEq, Repr

/-- Where the loop of `start` is. -/
inductive InboxLoop
  /-- Before its next iteration, after an error only once it has slept. -/
  | pausing
  | live (socket : Nat)
  /-- It waits for the serial tail before it returns. -/
  | closing
  | returned
deriving DecidableEq, Repr

inductive InboxMark
  | dispatched (entry : InboxEntry)
  | completed (entry : InboxEntry)
  | failed (entry : InboxEntry)
  | persisted (cursor : Int)
deriving DecidableEq, Repr

/-- The connection, with the mailbox of the relay and what was done in order. -/
structure Inbox where
  cursor : Int
  loop : InboxLoop := .pausing
  stopped : Bool := false
  /-- The signal of `start`. -/
  aborted : Bool := false
  made : Nat := 0
  sockets : Nat → InboxSocket := fun _ => {}
  tail : List InboxTask := []
  /-- Every entry that the relay has stored. -/
  stored : List InboxEntry := []
  /-- Those that it holds no longer. -/
  expired : List InboxEntry := []
  marks : List InboxMark := []

inductive SocketEvent
  /-- The relay opens the feed of the socket. -/
  | upgraded
  | opened
  | frame (frame : InboxFrame)
  /-- A close or an error of the socket. -/
  | closed
  /-- The reaction to the end of the socket's task. -/
  | settled
deriving DecidableEq, Repr

inductive InboxEvent
  /-- The next iteration of the loop; `connects` unless making the socket throws. -/
  | iterate (connects : Bool)
  | socket (socket : Nat) (event : SocketEvent)
  /-- The relay stores an entry. -/
  | stored (entry : InboxEntry)
  | expired (entry : InboxEntry)
  /-- The first task of the serial tail starts. -/
  | turn
  /-- The answer to the pull, if it has one; `persists` unless `persistCursor` throws. -/
  | pulled (page : Option InboxPage) (persists : Bool)
  /-- The handler completes or throws. -/
  | handled (completes : Bool) (persists : Bool)
  | stop
  | abort
  /-- What waits for the end of the serial tail goes on. -/
  | quiet
deriving DecidableEq, Repr

namespace InboxEntry

def valid (entry : InboxEntry) : Bool :=
  isSafeInteger entry.seq && 1 ≤ entry.seq

end InboxEntry

namespace InboxPage

def highestSequence (page : InboxPage) : Int :=
  page.entries.foldl (fun highest entry => max highest entry.seq) 0

/-- What `drain` and `processEntries` check of a page. -/
def valid (page : InboxPage) (cursor : Int) : Bool :=
  isSafeInteger page.cursor && cursor ≤ page.cursor && page.entries.all InboxEntry.valid &&
    (page.entries.isEmpty || page.cursor == page.highestSequence)

/-- `entries.toSorted`. -/
def fresh (page : InboxPage) : List InboxEntry :=
  page.entries.mergeSort fun left right => left.seq ≤ right.seq

end InboxPage

/-- How the loop over the buffered entries goes on. -/
inductive LiveTurn
  | done
  | invalid (left : List InboxEntry)
  | dispatch (entry : InboxEntry) (left : List InboxEntry)
deriving DecidableEq, Repr

def nextLive (cursor : Int) : List InboxEntry → LiveTurn
  | [] => .done
  | entry :: left =>
    if entry.valid = false then .invalid left
    else if entry.seq ≤ cursor then nextLive cursor left
    else .dispatch entry left

namespace Inbox

def start (initialCursor : Int) : Inbox where
  cursor := initialCursor

def setSocket (inbox : Inbox) (k : Nat) (socket : InboxSocket) : Inbox :=
  { inbox with sockets := fun other => if other = k then socket else inbox.sockets other }

def setHead (inbox : Inbox) (task : InboxTask) : Inbox :=
  { inbox with tail := task :: inbox.tail.tail }

def record (inbox : Inbox) (mark : InboxMark) : Inbox :=
  { inbox with marks := inbox.marks ++ [mark] }

def markDisconnected (inbox : Inbox) (k : Nat) : Inbox :=
  if (inbox.sockets k).disconnected then inbox
  else
    inbox.setSocket k { inbox.sockets k with disconnected := true, bufferedEntries := [] }

def finish (inbox : Inbox) (k : Nat) : Inbox :=
  if (inbox.sockets k).finished then inbox
  else
    { inbox.setSocket k { inbox.sockets k with finished := true } with loop := .pausing }

def disconnect (inbox : Inbox) (k : Nat) : Inbox :=
  if (inbox.sockets k).finished then inbox
  else if (inbox.sockets k).aborting then inbox.markDisconnected k
  else (inbox.markDisconnected k).finish k

def pump (inbox : Inbox) (k : Nat) : Inbox :=
  if (inbox.sockets k).disconnected = true ∨ (inbox.sockets k).opened = false ∨
      (inbox.sockets k).pump ≠ .idle ∨
      ((inbox.sockets k).catchUpPending = false ∧ (inbox.sockets k).bufferedEntries = []) then inbox
  else
    { inbox.setSocket k { inbox.sockets k with pump := .scheduled } with
      tail := inbox.tail ++ [⟨k, .waiting⟩] }

def opened (inbox : Inbox) (k : Nat) : Inbox :=
  if (inbox.sockets k).disconnected then inbox
  else
    (inbox.setSocket k { inbox.sockets k with opened := true, catchUpPending := true }).pump k

def message (inbox : Inbox) (k : Nat) : InboxFrame → Inbox
  | .other => inbox
  | .malformed => inbox.disconnect k
  | .entry entry =>
    if REEF_INBOX_LIVE_BUFFER_MAX_ENTRIES ≤ (inbox.sockets k).bufferedEntries.length then
      inbox.disconnect k
    else
      (inbox.setSocket k { inbox.sockets k with
        bufferedEntries := (inbox.sockets k).bufferedEntries ++ [entry] }).pump k

def send (inbox : Inbox) (k : Nat) : InboxFrame → Inbox
  | .entry _ =>
    inbox.setSocket k { inbox.sockets k with fed := (inbox.sockets k).fed.map (· + 1) }
  | .other | .malformed => inbox

def closed (inbox : Inbox) (k : Nat) : Inbox :=
  if (inbox.sockets k).aborting = true ∨ (inbox.sockets k).finished = true then inbox
  else inbox.disconnect k

def reacted (inbox : Inbox) (k : Nat) (failed : Bool) : Inbox :=
  if failed = false then inbox.pump k
  else if (inbox.sockets k).disconnected then inbox
  else inbox.disconnect k

def settled (inbox : Inbox) (k : Nat) : Inbox :=
  match (inbox.sockets k).pump with
  | .ended failed =>
    (inbox.setSocket k { inbox.sockets k with pump := .idle }).reacted k failed
  | .idle | .scheduled => inbox

def socketEvent (inbox : Inbox) (k : Nat) : SocketEvent → Inbox
  | .upgraded =>
    inbox.setSocket k { inbox.sockets k with fed := some inbox.stored.length }
  | .opened => inbox.opened k
  | .frame frame => (inbox.send k frame).message k frame
  | .closed => inbox.closed k
  | .settled => inbox.settled k

/-- The task of the socket is over. -/
def endTask (inbox : Inbox) (k : Nat) (failed : Bool) : Inbox :=
  { inbox.setSocket k { inbox.sockets k with pump := .ended failed } with tail := inbox.tail.tail }

def dispatch (inbox : Inbox) (k : Nat) (entry : InboxEntry) (rest : List InboxEntry) (source : EntrySource) : Inbox :=
  (inbox.setHead ⟨k, .dispatching entry rest source⟩).record (.dispatched entry)

def setBuffered (inbox : Inbox) (k : Nat) (entries : List InboxEntry) : Inbox :=
  inbox.setSocket k { inbox.sockets k with bufferedEntries := entries }

/-- The loop over the buffered entries. -/
def liveLoop (inbox : Inbox) (k : Nat) : Inbox :=
  if (inbox.sockets k).disconnected then inbox.endTask k false
  else
    match nextLive inbox.cursor (inbox.sockets k).bufferedEntries with
    | .done => (inbox.setBuffered k []).endTask k false
    | .invalid left => (inbox.setBuffered k left).endTask k true
    | .dispatch entry left => (inbox.setBuffered k left).dispatch k entry [] .live

/-- An iteration of `drain`. -/
def pull (inbox : Inbox) (k : Nat) : Inbox :=
  if (inbox.sockets k).disconnected then inbox.endTask k true
  else inbox.setHead ⟨k, .pulling inbox.cursor inbox.stored.length⟩

/-- The loop of `processEntries` over the entries of a page, and what `drain` does after it. -/
def dispatchFresh (inbox : Inbox) (k : Nat) (previous : Int) (fresh : List InboxEntry) : Inbox :=
  match fresh.dropWhile fun entry => entry.seq ≤ inbox.cursor with
  | [] => if inbox.cursor = previous then inbox.liveLoop k else inbox.pull k
  | entry :: rest =>
    if (inbox.sockets k).disconnected then inbox.endTask k true
    else inbox.dispatch k entry rest (.page previous)

/-- `none` when `persistCursor` throws. -/
def advanceCursor (inbox : Inbox) (cursor : Int) (persists : Bool) : Option Inbox :=
  if cursor ≤ inbox.cursor then some inbox
  else if persists then
    some { inbox.record (.persisted cursor) with cursor := cursor }
  else none

/-- The task of the socket starts. -/
def begin (inbox : Inbox) (k : Nat) : Inbox :=
  if (inbox.sockets k).disconnected then inbox.endTask k false
  else if (inbox.sockets k).catchUpPending then
    (inbox.setSocket k { inbox.sockets k with catchUpPending := false }).pull k
  else inbox.liveLoop k

/-- A page arrives: `onReady` and the live loop follow an empty one. -/
def readPage (inbox : Inbox) (k : Nat) (page : InboxPage) (persists : Bool) : Inbox :=
  if (inbox.sockets k).disconnected = true ∨ page.valid inbox.cursor = false then
    inbox.endTask k true
  else if page.entries.isEmpty then
    match inbox.advanceCursor page.cursor persists with
    | none => inbox.endTask k true
    | some advanced => advanced.liveLoop k
  else inbox.dispatchFresh k inbox.cursor page.fresh

def proceed (inbox : Inbox) (k : Nat) (rest : List InboxEntry) : EntrySource → Inbox
  | .live => inbox.liveLoop k
  | .page previous => inbox.dispatchFresh k previous rest

def complete (inbox : Inbox) (k : Nat) (entry : InboxEntry) (rest : List InboxEntry)
    (source : EntrySource) (persists : Bool) : Inbox :=
  match (inbox.record (.completed entry)).advanceCursor entry.seq persists with
  | none => (inbox.record (.completed entry)).endTask k true
  | some advanced => advanced.proceed k rest source

def fail (inbox : Inbox) (k : Nat) (entry : InboxEntry) : Inbox :=
  (inbox.record (.failed entry)).endTask k true

def turn (inbox : Inbox) : Inbox :=
  match inbox.tail with
  | ⟨k, .waiting⟩ :: _ => inbox.begin k
  | _ => inbox

def pulled (inbox : Inbox) (page : Option InboxPage) (persists : Bool) : Inbox :=
  match inbox.tail, page with
  | ⟨k, .pulling _ _⟩ :: _, none => inbox.endTask k true
  | ⟨k, .pulling _ _⟩ :: _, some page => inbox.readPage k page persists
  | _, _ => inbox

def handled (inbox : Inbox) (completes persists : Bool) : Inbox :=
  match inbox.tail with
  | ⟨k, .dispatching entry rest source⟩ :: _ =>
    if completes then inbox.complete k entry rest source persists else inbox.fail k entry
  | _ => inbox

def iterate (inbox : Inbox) (connects : Bool) : Inbox :=
  if inbox.loop ≠ .pausing then inbox
  else if inbox.stopped = true ∨ inbox.aborted = true then { inbox with loop := .closing }
  else if connects then
    { inbox.setSocket inbox.made {} with made := inbox.made + 1, loop := .live inbox.made }
  else inbox

/-- `abortListener`. -/
def abortListener (inbox : Inbox) (k : Nat) : Inbox :=
  if (inbox.sockets k).finished then inbox
  else (inbox.setSocket k { inbox.sockets k with aborting := true }).markDisconnected k

def abort (inbox : Inbox) : Inbox :=
  match inbox.loop with
  | .live k => { inbox with aborted := true }.abortListener k
  | .pausing | .closing | .returned => { inbox with aborted := true }

def quiet (inbox : Inbox) : Inbox :=
  match inbox.tail, inbox.loop with
  | [], .live k => if (inbox.sockets k).aborting then inbox.finish k else inbox
  | [], .closing => { inbox with loop := .returned }
  | _, _ => inbox

def step (inbox : Inbox) : InboxEvent → Inbox
  | .iterate connects => inbox.iterate connects
  | .socket k event => if k < inbox.made then inbox.socketEvent k event else inbox
  | .stored entry => { inbox with stored := inbox.stored ++ [entry] }
  | .expired entry => { inbox with expired := entry :: inbox.expired }
  | .turn => inbox.turn
  | .pulled page persists => inbox.pulled page persists
  | .handled completes persists => inbox.handled completes persists
  | .stop => { inbox with stopped := true }
  | .abort => inbox.abort
  | .quiet => inbox.quiet

def machine : Machine Inbox InboxEvent where
  step := step

/-- The relay holds the entry. -/
def Retained (inbox : Inbox) (entry : InboxEntry) : Prop :=
  entry ∈ inbox.stored ∧ entry ∉ inbox.expired

/-- A page is the retained entries after the cursor of the request up to its own cursor, which is
not beyond what was stored. An empty one is given when the request found no more of them. -/
structure TruePage (inbox : Inbox) (after : Int) (seen : Nat) (page : InboxPage) : Prop where
  entries : ∀ entry ∈ page.entries, entry ∈ inbox.stored ∧ after < entry.seq
  whole : ∀ entry ∈ inbox.stored, entry ∉ inbox.expired → after < entry.seq →
    entry.seq ≤ page.cursor → entry ∈ page.entries
  bounded : page.cursor = after ∨ ∃ entry ∈ inbox.stored, page.cursor ≤ entry.seq
  last : page.entries = [] → ∀ entry ∈ inbox.stored.take seen, entry ∉ inbox.expired → entry.seq ≤ page.cursor

def TruePulled (inbox : Inbox) (page : InboxPage) : List InboxTask → Prop
  | ⟨_, .pulling after seen⟩ :: _ => TruePage inbox after seen page
  | _ => True

def TrueFrame (inbox : Inbox) (k : Nat) : InboxFrame → Prop
  | .entry entry => ((inbox.sockets k).fed.bind fun position => inbox.stored[position]?) = some entry
  | .other | .malformed => True

def TrueSocketEvent (inbox : Inbox) (k : Nat) : SocketEvent → Prop
  | .upgraded => (inbox.sockets k).fed = none
  | .opened => (inbox.sockets k).fed.isSome = true ∧ (inbox.sockets k).opened = false
  | .frame frame => inbox.TrueFrame k frame
  | .closed | .settled => True

/-- What the relay promises: growing sequence numbers, a feed for each socket that opens before the
socket does and carries every later entry in order, and true pages. -/
def TrueEvent (inbox : Inbox) : InboxEvent → Prop
  | .stored entry => ∀ earlier ∈ inbox.stored, earlier.seq < entry.seq
  | .socket k event => inbox.TrueSocketEvent k event
  | .pulled (some page) _ => TruePulled inbox page inbox.tail
  | _ => True

instance (inbox : Inbox) (after : Int) (seen : Nat) (page : InboxPage) :
    Decidable (TruePage inbox after seen page) :=
  decidable_of_iff ((∀ entry ∈ page.entries, entry ∈ inbox.stored ∧ after < entry.seq) ∧
      (∀ entry ∈ inbox.stored, entry ∉ inbox.expired → after < entry.seq →
        entry.seq ≤ page.cursor → entry ∈ page.entries) ∧
      (page.cursor = after ∨ ∃ entry ∈ inbox.stored, page.cursor ≤ entry.seq) ∧
      (page.entries = [] → ∀ entry ∈ inbox.stored.take seen, entry ∉ inbox.expired → entry.seq ≤ page.cursor))
    ⟨fun ⟨entries, whole, bounded, last⟩ => ⟨entries, whole, bounded, last⟩,
      fun ⟨entries, whole, bounded, last⟩ => ⟨entries, whole, bounded, last⟩⟩

instance (inbox : Inbox) (page : InboxPage) :
    (tasks : List InboxTask) → Decidable (TruePulled inbox page tasks)
  | ⟨_, .pulling after seen⟩ :: _ => inferInstanceAs (Decidable (TruePage inbox after seen page))
  | [] | ⟨_, .waiting⟩ :: _ | ⟨_, .dispatching _ _ _⟩ :: _ => instDecidableTrue

instance (inbox : Inbox) (k : Nat) : (frame : InboxFrame) → Decidable (inbox.TrueFrame k frame)
  | .entry _ => inferInstanceAs (Decidable (_ = _))
  | .other | .malformed => instDecidableTrue

instance (inbox : Inbox) (k : Nat) :
    (event : SocketEvent) → Decidable (inbox.TrueSocketEvent k event)
  | .upgraded => inferInstanceAs (Decidable (_ = _))
  | .opened => inferInstanceAs (Decidable (_ ∧ _))
  | .frame frame => inferInstanceAs (Decidable (inbox.TrueFrame k frame))
  | .closed | .settled => instDecidableTrue

instance (inbox : Inbox) : (event : InboxEvent) → Decidable (inbox.TrueEvent event)
  | .stored entry => inferInstanceAs (Decidable (∀ earlier ∈ inbox.stored, earlier.seq < entry.seq))
  | .socket k event => inferInstanceAs (Decidable (inbox.TrueSocketEvent k event))
  | .pulled (some page) _ => inferInstanceAs (Decidable (TruePulled inbox page inbox.tail))
  | .pulled none _ | .iterate _ | .expired _ | .turn | .handled _ _ | .stop | .abort | .quiet =>
    instDecidableTrue

end Inbox

/-- `persistCursor` does not throw. -/
def InboxEvent.persists : InboxEvent → Bool
  | .pulled _ persists => persists
  | .handled _ persists => persists
  | _ => true

end PlatformClaw.Reef
