import PlatformClaw.Library.Base64Url
import PlatformClaw.Library.ScriptJson
import PlatformClaw.Library.ScriptNumber
import PlatformClaw.Spaces.Content

/-! # Reading the questions of a page

The reader of `sqlite-space-content.ts`: posts in descending order, cut by a
number and by the bytes of the response, with a cursor that names the snapshot
and the last post returned.
-/

namespace PlatformClaw.Spaces

open Except (ensure orThrow)

structure SpaceQaPost where
  id : String
  spaceId : String
  pageId : String
  revision : Nat
  body : String
  authorId : String
  authorName : String
  agentId : String
  createdAt : Int
  bodyOffset : Nat
  nextBodyOffset : Option Nat
  truncated : Bool
  deriving Repr, DecidableEq

structure SpaceQaList where
  posts : List SpaceQaPost
  revision : Nat
  nextCursor : Option String
  hasMore : Bool
  deriving Repr, DecidableEq

/-- A list that is refused, or that reads the last post of an empty response. -/
inductive QaListError where
  | refused (error : SpaceError)
  | missingPost
  deriving Repr, DecidableEq

def SpaceQaPost.json (post : SpaceQaPost) : List Char :=
  ScriptJson.object
    [("id", ScriptJson.string post.id),
     ("spaceId", ScriptJson.string post.spaceId),
     ("pageId", ScriptJson.string post.pageId),
     ("revision", ScriptJson.natural post.revision),
     ("body", ScriptJson.string post.body),
     ("authorId", ScriptJson.string post.authorId),
     ("authorName", ScriptJson.string post.authorName),
     ("agentId", ScriptJson.string post.agentId),
     ("createdAt", ScriptJson.integer post.createdAt),
     ("bodyOffset", ScriptJson.natural post.bodyOffset),
     ("nextBodyOffset", ScriptJson.optional ScriptJson.natural post.nextBodyOffset),
     ("truncated", ScriptJson.boolean post.truncated)]

def SpaceQaList.json (list : SpaceQaList) : List Char :=
  ScriptJson.object
    [("posts", ScriptJson.array (list.posts.map SpaceQaPost.json)),
     ("revision", ScriptJson.natural list.revision),
     ("nextCursor", ScriptJson.optional ScriptJson.string list.nextCursor),
     ("hasMore", ScriptJson.boolean list.hasMore)]

/-- `slice` from an offset that stands between two characters. -/
def dropUnits : List Char → Nat → List Char
  | text, 0 => text
  | [], _ => []
  | c :: rest, offset => dropUnits rest (offset - (ScriptString.charUnits c).length)

def projectPost (row : QaPostRow) (offset bytes : Nat) : SpaceQaPost :=
  let body := BoundedText.boundedText (.ofList (dropUnits row.body.toList offset)) bytes
  let shown := offset + ScriptString.length body
  let nextBodyOffset := if shown < ScriptString.length row.body then some shown else none
  { id := row.id, spaceId := row.spaceId, pageId := row.pageId, revision := row.revision, body
    authorId := row.actorUserId, authorName := row.authorName, agentId := row.agentId
    createdAt := row.createdAt, bodyOffset := offset, nextBodyOffset
    truncated := nextBodyOffset.isSome }

/-- The JSON text of a cursor in UTF-8. -/
def cursorBytes (pageId : String) (snapshot before : Nat) : ByteArray :=
  (String.ofList (ScriptJson.array
    [ScriptJson.string pageId, ScriptJson.natural snapshot, ScriptJson.natural before])).toUTF8

def writeCursor (pageId : String) (snapshot before : Nat) : String :=
  .ofList (Base64Url.encode (cursorBytes pageId snapshot before).data.toList)

/-- The snapshot of a cursor, and the revision it goes on below. Bytes that are no text would be
    read with replacement characters, which no cursor of a page holds. -/
def readCursor (pageId cursor : String) (revision : Nat) : Option (Nat × Nat) := do
  if 512 < ScriptString.length cursor ∨ Base64Url.isText cursor.toList = false then none
  let text ← (ByteArray.mk (Base64Url.decode cursor.toList).toArray).utf8Decode?
  match ← ScriptJson.parse text.toList with
  | .array [.string units, second, third] =>
    let snapshot ← second.integer?
    let before ← third.integer?
    if units = ScriptString.codeUnits pageId ∧
        ScriptNumber.isSafeInteger snapshot ∧ 1 ≤ snapshot ∧ snapshot ≤ revision ∧
        ScriptNumber.isSafeInteger before ∧ 2 ≤ before ∧ before ≤ snapshot then
      return (snapshot.toNat, before.toNat)
    else none
  | _ => none

namespace ContentStore

/-- The posts of a snapshot below a revision, the latest first. -/
def postsBefore (store : ContentStore) (spaceId pageId : String) (snapshot before : Nat) : List QaPostRow :=
  (store.qaPosts.rows.filter fun post => post.spaceId = spaceId ∧ post.pageId = pageId ∧
    post.revision ≤ snapshot ∧ post.revision < before).mergeSort
      fun left right => right.revision ≤ left.revision

/-- The loop that adds posts while the response stays within its budget. -/
def fillPosts (snapshot budget : Nat) : List SpaceQaPost → List QaPostRow → List SpaceQaPost
  | posts, [] => posts
  | posts, row :: rest =>
    let extended := posts ++ [projectPost row 0 1000]
    let response : SpaceQaList :=
      { posts := extended, revision := snapshot, nextCursor := none, hasMore := false }
    if budget < ScriptJson.byteLength response.json then posts
    else fillPosts snapshot budget extended rest

/-- The snapshot of a call and the revision it starts below. -/
def qaStart (store : ContentStore) (pageId : String) : Option String → Option (Nat × Nat)
  | none => some (store.head pageId, store.head pageId + 1)
  | some cursor => readCursor pageId cursor (store.head pageId)

def listQa (store : ContentStore) (userId spaceId pageId : String) (cursor : Option String)
    (limit : Nat := 20) (responseLimitBytes : Nat := 32000) : Except QaListError SpaceQaList := do
  let _ ← (store.page userId spaceId pageId).mapError .refused
  ensure (1 ≤ limit ∧ limit ≤ 20) (.refused (.state "Q&A list limit must be between 1 and 20"))
  let (snapshot, before) ← orThrow (store.qaStart pageId cursor)
    (.refused (.state "Invalid Q&A cursor; reload the first page"))
  let rows := (store.postsBefore spaceId pageId snapshot before).take (limit + 1)
  let posts := fillPosts snapshot (responseLimitBytes - 1024) [] (rows.take limit)
  if posts.length < rows.length then
    let last ← orThrow posts.getLast? .missingPost
    return { posts, revision := snapshot, hasMore := true
             nextCursor := some (writeCursor pageId snapshot last.revision) }
  else return { posts, revision := snapshot, nextCursor := none, hasMore := false }

end ContentStore

end PlatformClaw.Spaces
