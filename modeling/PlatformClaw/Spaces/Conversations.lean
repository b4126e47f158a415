import PlatformClaw.Library.NumberedText
import PlatformClaw.Spaces.Content

/-! # Conversations of a Space

`sqlite-space-conversations.ts`, as far as conversations are made, renamed and
read by their owner. A conversation is made once for each request of its owner:
what a request asked for is the title, or a receipt once the title is another.
-/

namespace PlatformClaw.Spaces

open Except (ensure orThrow)

structure SpaceConversationRow where
  id : String
  spaceId : String
  pageId : String
  title : String
  ownerId : String
  ownerName : String
  agentId : String
  sessionKey : String
  requestId : String
  createdAt : Int
  deriving DecidableEq

abbrev SpaceConversationRow.key (row : SpaceConversationRow) : String := row.id

/-- The columns a mutation reads. -/
def SpaceConversationRow.registered (row : SpaceConversationRow) : ConversationRow :=
  { id := row.id, spaceId := row.spaceId, pageId := row.pageId, ownerId := row.ownerId,
    agentId := row.agentId, sessionKey := row.sessionKey }

/-- What a request asked for, where the title does not say it. -/
structure ConversationTitleRow where
  conversationId : String
  requestedTitle : String
  deriving DecidableEq

abbrev ConversationTitleRow.key (row : ConversationTitleRow) : String := row.conversationId

/-- The tables of this writer, over the memberships, pages and bindings it reads. -/
structure ConversationStore where
  content : ContentStore
  conversations : Table SpaceConversationRow.key
  titles : Table ConversationTitleRow.key
  deriving DecidableEq

/-- Nobody has made a conversation yet. -/
def ConversationStore.fresh (content : ContentStore) : ConversationStore where
  content := { content with conversations := Table.empty }
  conversations := Table.empty
  titles := Table.empty

structure PersonalBinding where
  agentId : String
  displayName : Option String
  accountId : String
  deriving DecidableEq

/-- A conversation as its reader sees it. -/
structure SpaceConversation where
  id : String
  spaceId : String
  pageId : String
  title : String
  ownerId : String
  ownerName : String
  agentId : String
  sessionKey : String
  createdAt : Int
  canWrite : Bool
  deriving DecidableEq

structure NewConversation where
  pageId : String
  title : String
  requestId : String
  deriving DecidableEq

def conversationChanged (message : String) : SpaceError := .conflict "space_changed" message

def conversationUnavailable : SpaceError := .authorization "Space conversation unavailable"

/-- `agent:<id>:space-session:`. -/
def spaceConversationSessionPrefix (agentId : String) : String :=
  "agent:" ++ agentId ++ ":space-session:"

def projectConversation (row : SpaceConversationRow) (canWrite : Bool) : SpaceConversation :=
  { id := row.id, spaceId := row.spaceId, pageId := row.pageId, title := row.title,
    ownerId := row.ownerId, ownerName := row.ownerName, agentId := row.agentId,
    sessionKey := row.sessionKey, createdAt := row.createdAt, canWrite }

/-- The beginning of a title that gets a number of so many digits behind it. -/
def shortened (baseTitle : String) (digits : Nat) : String :=
  BoundedText.truncateUtf16Safe baseTitle (240 - digits)

namespace ConversationStore

def personalBinding (store : ConversationStore) (userId : String) : Option PersonalBinding := do
  let binding ← store.content.personalBindings.rows.find? fun binding => binding.userId = userId
  let owner ← store.content.spaces.platformUsers.find? fun user =>
    user.id = userId ∧ user.status = .active
  return { agentId := binding.agentId, displayName := owner.displayName,
           accountId := owner.accountId }

def projectAccess (store : ConversationStore) (userId : String) (role : SpaceRole)
    (row : SpaceConversationRow) (write : Bool) : Except SpaceError SpaceConversation := do
  let canWrite := decide (userId = row.ownerId ∧ role ≠ .viewer ∧
    (store.personalBinding userId).map (·.agentId) = some row.agentId)
  ensure (write = false ∨ canWrite = true) (.authorization "Space conversation is read-only")
  return projectConversation row canWrite

/-- `get` in the scope of the owner. -/
def get (store : ConversationStore) (userId spaceId conversationId : String)
    (write : Bool := false) : Except SpaceError SpaceConversation := do
  let space ← store.content.spaces.access userId spaceId
  let row ← orThrow ((store.conversations.lookup conversationId).filter fun row =>
    row.spaceId = spaceId ∧ row.ownerId = userId) conversationUnavailable
  store.projectAccess userId space.role row write

/-- The titles a new one must differ from; a conversation that is renamed does not count. -/
def ownTitles (store : ConversationStore) (userId pageId : String) (renamed : Option String) : List String :=
  (store.conversations.rows.filter fun row =>
    row.ownerId = userId ∧ row.pageId = pageId ∧ some row.id ≠ renamed).map (·.title)

/-- The loop ends by its own condition: that is what `allocateTitle_searched` says. -/
def allocateTitle (store : ConversationStore) (userId pageId requestedTitle : String)
    (renamed : Option String) : String :=
  let titles := store.ownTitles userId pageId renamed
  let baseTitle := ScriptString.trim requestedTitle
  NumberedText.search (NumberedText.numbered (shortened baseTitle)) titles
    (NumberedText.enoughRounds titles) 2 baseTitle

/-- `coalesce(receipt.requested_title, conversation.title)`. -/
def requestedTitle (store : ConversationStore) (row : SpaceConversationRow) : String :=
  ((store.titles.lookup row.id).map (·.requestedTitle)).getD row.title

/-- The row of a new conversation; `id` is the random identifier the call draws. -/
def newRow (store : ConversationStore) (binding : PersonalBinding) (userId spaceId : String)
    (params : NewConversation) (id : String) (now : Int) : SpaceConversationRow :=
  { id, spaceId, pageId := params.pageId
    title := store.allocateTitle userId params.pageId params.title none
    ownerId := userId
    ownerName := (binding.displayName.filter (· ≠ "")).getD binding.accountId
    agentId := binding.agentId
    sessionKey := spaceConversationSessionPrefix binding.agentId ++ id
    requestId := params.requestId, createdAt := now }

def prior? (store : ConversationStore) (userId requestId : String) : Option SpaceConversationRow :=
  store.conversations.rows.find? fun row => row.ownerId = userId ∧ row.requestId = requestId

/-- Identifiers and session keys are unique columns. -/
def insertConversation (store : ConversationStore) (row : SpaceConversationRow) :
    Except SpaceError ConversationStore := do
  let conversations ← orThrow (store.conversations.insert? row) .constraint
  let registered ← orThrow (store.content.conversations.insert? row.registered) .constraint
  return { store with conversations, content := { store.content with conversations := registered } }

/-- An unchanged title is its own receipt. -/
def insertTitle (store : ConversationStore) (row : SpaceConversationRow) (requestedTitle : String) :
    Except SpaceError ConversationStore :=
  if row.title = requestedTitle then .ok store
  else do
    let titles ← orThrow (store.titles.insert? { conversationId := row.id, requestedTitle }) .constraint
    return { store with titles }

/-- The receipt that is there stays. -/
def keepTitle (store : ConversationStore) (conversationId requestedTitle : String) : ConversationStore :=
  { store with titles := store.titles.upsert { conversationId, requestedTitle } id fun _ => rfl }

def setTitle (store : ConversationStore) (conversationId title : String) : ConversationStore :=
  { store with
    conversations := store.conversations.update (fun row => row.id = conversationId)
      (fun row => { row with title }) fun _ => rfl }

def create (store : ConversationStore) (userId spaceId : String) (params : NewConversation)
    (id : String) (now : Int) : Except SpaceError (SpaceConversation × ConversationStore) := do
  let _ ← store.content.page userId spaceId params.pageId .editor
  let binding ← orThrow (store.personalBinding userId)
    (.authorization "Active personal agent required")
  match store.prior? userId params.requestId with
  | some prior =>
    ensure (prior.spaceId = spaceId ∧ prior.pageId = params.pageId ∧ store.requestedTitle prior = params.title)
      (conversationChanged "Conversation request changed; start a new request")
    let conversation ← store.get userId spaceId prior.id true
    return (conversation, store)
  | none =>
    ensure ((store.conversations.rows.filter fun row => row.spaceId = spaceId).length < 200)
      (.state "Space conversation limit reached")
    let row := store.newRow binding userId spaceId params id now
    let inserted ← store.insertConversation row
    let receipted ← inserted.insertTitle row params.title
    return (projectConversation row true, receipted)

def rename (store : ConversationStore) (userId spaceId conversationId requestedTitle : String)
    (revision : Nat) (expectedTitle : String) :
    Except SpaceError (SpaceConversation × ConversationStore) := do
  let conversation ← store.get userId spaceId conversationId true
  let space ← store.content.spaces.access userId spaceId .editor
  ensure (space.revision = revision)
    (conversationChanged "Space changed; reload before retrying")
  ensure (conversation.title = expectedTitle)
    (conversationChanged "Conversation changed; reload before renaming")
  let title := store.allocateTitle userId conversation.pageId requestedTitle (some conversationId)
  if title = conversation.title then return (conversation, store)
  else
    return ({ conversation with title },
      (store.keepTitle conversationId conversation.title).setTitle conversationId title)

end ConversationStore

inductive ConversationCall where
  | create (userId spaceId : String) (params : NewConversation) (id : String) (now : Int)
  | rename (userId spaceId conversationId requestedTitle : String) (revision : Nat)
      (expectedTitle : String)
  deriving DecidableEq

def ConversationStore.execute (store : ConversationStore) : ConversationCall → Except SpaceError ConversationStore
  | .create userId spaceId params id now =>
    (·.2) <$> store.create userId spaceId params id now
  | .rename userId spaceId conversationId requestedTitle revision expectedTitle =>
    (·.2) <$> store.rename userId spaceId conversationId requestedTitle revision expectedTitle

def conversationMachine : Machine ConversationStore ConversationCall where
  step store call :=
    match store.execute call with
    | .ok changed => changed
    | .error _ => store

end PlatformClaw.Spaces
