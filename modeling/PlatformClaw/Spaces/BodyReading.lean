import PlatformClaw.Library.ContinuedReading
import PlatformClaw.Library.LongestCut
import PlatformClaw.Spaces.QuestionPages

/-! # Reading bodies piece by piece

`getQa` of `sqlite-space-content.ts` and the page reads of `space-recall-projection.ts`. An answer holds as much of
a body as its budget allows, and names the offset to go on from.
-/

namespace PlatformClaw.Spaces

open BoundedText (boundedText truncateUtf16Safe)
open Except (ensure orThrow)

/-- An offset has to stand between two characters. -/
def assertSpaceTextOffset (text : String) (offset : Nat) : Except SpaceError Unit :=
  ensure (ScriptString.length (truncateUtf16Safe text offset) = offset)
    (.state "Text offset splits a Unicode character; use the returned continuation offset")

/-- Offsets and limits are whole numbers; others are refused as an offset behind the body is. -/
def ContentStore.getQa (store : ContentStore) (userId spaceId pageId postId : String) (bodyOffset : Nat := 0)
    (bodyLimitBytes : Nat := 4000) : Except SpaceError SpaceQaPost := do
  let _ ← store.page userId spaceId pageId
  let post ← orThrow ((store.qaPosts.lookup postId).filter fun post => post.spaceId = spaceId ∧ post.pageId = pageId)
    (.authorization "Q&A post unavailable")
  ensure (bodyOffset ≤ ScriptString.length post.body ∧ 64 ≤ bodyLimitBytes ∧ bodyLimitBytes ≤ 8000)
    (.state "Invalid Q&A text window; use the returned continuation offset")
  assertSpaceTextOffset post.body bodyOffset
  return projectPost post bodyOffset bodyLimitBytes

/-- A page with the piece of its body that is shown. -/
structure ProjectedPage where
  page : PageRow
  body : String
  bodyOffset : Nat
  nextBodyOffset : Option Nat
  truncated : Bool
  deriving Repr, DecidableEq

def projectSpacePage (page : PageRow) (bodyOffset pageRevision : Option Nat := none) :
    Except SpaceError ProjectedPage := do
  let bodyOffset := bodyOffset.getD 0
  ensure (pageRevision.all (· = page.revision))
    (.conflict "space_changed" "Page changed; read from bodyOffset 0 before continuing")
  ensure (bodyOffset = 0 ∨ pageRevision.isSome) (.state "A continuation requires the returned page revision")
  ensure (bodyOffset ≤ ScriptString.length page.body)
    (.state "Invalid page offset; read from bodyOffset 0")
  assertSpaceTextOffset page.body bodyOffset
  let body := truncateUtf16Safe (.ofList (dropUnits page.body.toList bodyOffset)) 8000
  let shown := bodyOffset + ScriptString.length body
  let nextBodyOffset := if shown < ScriptString.length page.body then some shown else none
  return { page, body, bodyOffset, nextBodyOffset, truncated := nextBodyOffset.isSome }

structure SpaceRecallWindow where
  limit : Option Nat := none
  messageId : Option String := none
  messageOffset : Option Nat := none
  bodyLimitBytes : Option Nat := none
  deriving Repr, DecidableEq

/-- The window of a read; a search has another. -/
def validateSpaceRecallWindow (params : SpaceRecallWindow) : Except SpaceError Unit :=
  ensure (params.limit.all (fun limit => 1 ≤ limit && limit ≤ 8) ∧
      params.bodyLimitBytes.all (fun bytes => 64 ≤ bytes && bytes ≤ 8000) ∧
      params.messageOffset.all fun offset => (params.messageId.getD "") != "" && offset ≤ 16000)
    (.state "Invalid Space recall window")

inductive SpaceMessageRole where
  | user
  | assistant
  deriving Repr, DecidableEq

/-- A message of the conversation behind a page; times are whole milliseconds. -/
structure SpaceMessage where
  id : String
  role : SpaceMessageRole
  text : String
  timestamp : Option Int
  authorId : Option String
  authorName : Option String
  deriving Repr, DecidableEq

structure RecallMessage where
  message : SpaceMessage
  messageOffset : Nat
  nextMessageOffset : Option Nat
  truncated : Bool
  deriving Repr, DecidableEq

structure RecallConversation where
  id : String
  title : String
  ownerId : Option String := none
  ownerName : Option String := none
  deriving Repr, DecidableEq

/-- What is recalled beside the page. -/
structure SpaceRecallSource where
  spaceName : Option String := none
  sharedQaRevision : Option Nat := none
  conversation : Option RecallConversation := none
  messages : Option (List SpaceMessage) := none
  deriving Repr, DecidableEq

structure SpaceRecallResult where
  source : SpaceRecallSource
  page : ProjectedPage
  messages : List RecallMessage
  moreAvailable : Bool
  deriving Repr, DecidableEq

/-- The `boundedText` of the projection, which leaves a text that fits as it is. -/
def recallText (value : String) (bytes : Nat) : String :=
  if BoundedText.jsonBytes value ≤ bytes then value else boundedText value bytes

def projectRecallMessage (params : SpaceRecallWindow) (message : SpaceMessage) : Except SpaceError RecallMessage := do
  let original := message.text
  let offset := if params.messageId = some message.id then params.messageOffset.getD 0 else 0
  ensure (offset ≤ ScriptString.length original) (.state "Message offset exceeds the bounded source excerpt")
  assertSpaceTextOffset original offset
  let text := recallText (.ofList (dropUnits original.toList offset)) 800
  let shown := offset + ScriptString.length text
  let nextMessageOffset := if shown < ScriptString.length original then some shown else none
  return {
    message := { message with text, authorName := message.authorName.map (recallText · 256) }
    messageOffset := offset, nextMessageOffset, truncated := nextMessageOffset.isSome || 0 < offset }

/-- The messages that a read shows: around the one it names, or the last ones. -/
def selectMessages (all : List SpaceMessage) (params : SpaceRecallWindow) : Except SpaceError (List SpaceMessage) := do
  let limit := params.limit.getD 5
  let named := params.messageId.filter (· ≠ "")
  let anchor := named.bind fun id => all.findIdx? (·.id = id)
  ensure (named.isNone ∨ anchor.isSome)
    (.state "Requested source message is unavailable; narrow the search or read another source")
  let start := match anchor with
    | none => all.length - limit
    | some anchor => anchor - limit / 2
  return if params.messageOffset.isSome then (anchor.bind (all[·]?)).toList else (all.drop start).take limit

def recallMessages (source : SpaceRecallSource) (params : SpaceRecallWindow) :
    Except SpaceError (List RecallMessage) := do
  let selected ← selectMessages (source.messages.getD []) params
  selected.mapM (projectRecallMessage params)

/-- The page cut once more, to the bytes that the read asks for. -/
def boundPage (page : ProjectedPage) (bytes : Nat) : ProjectedPage :=
  let body := recallText page.body bytes
  if ScriptString.length body < ScriptString.length page.body then
    { page with body, nextBodyOffset := some (page.bodyOffset + ScriptString.length body), truncated := true }
  else { page with body }

section Size

open ScriptJson

def ProjectedPage.json (page : ProjectedPage) : List Char :=
  object
    [("id", string page.page.id), ("spaceId", string page.page.spaceId),
     ("parentId", optional string page.page.parentId), ("title", string page.page.title),
     ("body", string page.body), ("revision", natural page.page.revision),
     ("createdBy", string page.page.creatorId), ("updatedAt", integer page.page.updatedAt),
     ("bodyOffset", natural page.bodyOffset), ("nextBodyOffset", optional natural page.nextBodyOffset),
     ("truncated", boolean page.truncated)]

def SpaceMessageRole.text : SpaceMessageRole → String
  | .user => "user"
  | .assistant => "assistant"

def RecallMessage.json (entry : RecallMessage) : List Char :=
  object
    [("id", string entry.message.id), ("role", string entry.message.role.text),
     ("text", string entry.message.text), ("timestamp", optional integer entry.message.timestamp),
     ("authorId", optional string entry.message.authorId),
     ("authorName", optional string entry.message.authorName),
     ("messageOffset", natural entry.messageOffset),
     ("nextMessageOffset", optional natural entry.nextMessageOffset), ("truncated", boolean entry.truncated)]

/-- A member that may be missing. -/
def member (key : String) (write : α → List Char) (value : Option α) : List (String × List Char) :=
  (value.map fun value => (key, write value)).toList

def RecallConversation.json (conversation : RecallConversation) : List Char :=
  object
    ([("id", string conversation.id), ("title", string conversation.title)] ++
      member "ownerId" string conversation.ownerId ++
      member "ownerName" string (conversation.ownerName.map (recallText · 256)))

def SpaceRecallResult.json (result : SpaceRecallResult) : List Char :=
  object
    (member "spaceName" string result.source.spaceName ++ [("page", result.page.json)] ++
      member "sharedQaRevision" natural result.source.sharedQaRevision ++
      member "conversation" RecallConversation.json result.source.conversation ++
      member "messages" (fun messages => array (messages.map RecallMessage.json))
        (result.source.messages.map fun _ => result.messages) ++
      [("moreAvailable", boolean result.moreAvailable),
       ("sourceWindow", object [("maxMessages", natural 100), ("maxTextChars", natural 16000)])])

end Size

def recallBudgetExceeded : SpaceError :=
  .state "Space source metadata exceeds the recall budget; narrow the source request"

/-- The answer to a read; one that is too large is refused as a whole. -/
def projectSpaceRecallResult (source : SpaceRecallSource) (page : ProjectedPage) (params : SpaceRecallWindow) :
    Except SpaceError SpaceRecallResult := do
  let limit := params.limit.getD 5
  let bodyLimitBytes := params.bodyLimitBytes.getD 4000
  let page := boundPage page bodyLimitBytes
  let messages ← recallMessages source params
  let result : SpaceRecallResult :=
    { source, page, messages
      moreAvailable := decide (messages.length < (source.messages.getD []).length) ||
        messages.any (·.truncated) || page.truncated }
  let maxBytes := if 5 < limit ∨ 4000 < bodyLimitBytes then 24 * 1024 else 16 * 1024
  ensure (ScriptJson.byteLength result.json ≤ maxBytes) recallBudgetExceeded
  return result

/-- A read of a page from an offset, at the revision the reader has seen. -/
def recallPage (page : PageRow) (source : SpaceRecallSource) (params : SpaceRecallWindow) (bodyOffset : Nat) :
    Except SpaceError SpaceRecallResult := do
  validateSpaceRecallWindow params
  let projected ← projectSpacePage page (some bodyOffset) (some page.revision)
  projectSpaceRecallResult source projected params

end PlatformClaw.Spaces
