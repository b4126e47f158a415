import PlatformClaw.Library.BoundedText
import PlatformClaw.Library.Scanning
import PlatformClaw.Library.Table
import PlatformClaw.Spaces.Model

/-! # Pages, runs and shared questions of a Space

The rest of `sqlite-spaces.ts` and the writer of `sqlite-space-content.ts`, over
the store of memberships: page edits, admitted runs, and the mutations that an
agent makes on behalf of its employee. Random identifiers and the clock are
arguments of the call that draws them.
-/

namespace PlatformClaw.Spaces

open Except (ensure orThrow)

structure PageRow where
  id : String
  spaceId : String
  parentId : Option String
  title : String
  body : String
  revision : Nat
  creatorId : String
  requestId : String
  updatedAt : Int
  deriving Repr, DecidableEq

/-- The columns of a run that a retry is compared with. -/
structure RunAdmissionRow where
  runId : String
  pageId : String
  contentHash : String
  deriving Repr, DecidableEq

/-- A conversation with the columns a mutation reads. -/
structure ConversationRow where
  id : String
  spaceId : String
  pageId : String
  ownerId : String
  agentId : String
  sessionKey : String
  deriving Repr, DecidableEq

structure PersonalBindingRow where
  agentId : String
  userId : String
  deriving Repr, DecidableEq

structure QaHeadRow where
  pageId : String
  revision : Nat
  deriving Repr, DecidableEq

structure QaPostRow where
  id : String
  spaceId : String
  pageId : String
  revision : Nat
  body : String
  actorUserId : String
  authorName : String
  agentId : String
  sourceConversationId : String
  createdAt : Int
  deriving Repr, DecidableEq

inductive ContentOperation where
  | qaAppend
  | noteAppend
  | noteReplace
  deriving Repr, DecidableEq

structure ReceiptRow where
  id : String
  actorUserId : String
  requestId : String
  operation : ContentOperation
  spaceId : String
  pageId : String
  sourceConversationId : String
  agentId : String
  sessionKey : String
  runtimeRunId : String
  admissionRunId : String
  payloadHash : String
  previousRevision : Nat
  revision : Nat
  postId : Option String
  createdAt : Int
  deriving Repr, DecidableEq

abbrev PageRow.key (row : PageRow) : String := row.id

abbrev RunAdmissionRow.key (row : RunAdmissionRow) : String := row.runId

abbrev ConversationRow.key (row : ConversationRow) : String := row.sessionKey

abbrev PersonalBindingRow.key (row : PersonalBindingRow) : String := row.agentId

abbrev QaHeadRow.key (row : QaHeadRow) : String := row.pageId

abbrev QaPostRow.key (row : QaPostRow) : String := row.id

/-- Receipts are unique by actor and request. -/
abbrev ReceiptRow.key (row : ReceiptRow) : String × String := (row.actorUserId, row.requestId)

structure ContentStore where
  spaces : SpaceStore
  pages : Table PageRow.key
  runAdmissions : Table RunAdmissionRow.key
  conversations : Table ConversationRow.key
  personalBindings : Table PersonalBindingRow.key
  qaHeads : Table QaHeadRow.key
  qaPosts : Table QaPostRow.key
  receipts : Table ReceiptRow.key
  deriving DecidableEq

def ContentStore.empty : ContentStore where
  spaces := .empty
  pages := Table.empty
  runAdmissions := Table.empty
  conversations := Table.empty
  personalBindings := Table.empty
  qaHeads := Table.empty
  qaPosts := Table.empty
  receipts := Table.empty

structure NewPage where
  parentId : Option String
  title : String
  body : String
  requestId : String
  deriving Repr, DecidableEq

/-- Only the gateway's proof verifier supplies this context. -/
structure SpaceContentRunContext where
  agentId : String
  sessionKey : String
  runtimeRunId : String
  admissionRunId : String
  deriving Repr, DecidableEq

inductive ContentChange where
  | qaAppend (body : String)
  | noteAppend (text : String)
  | noteReplace (oldText newText : String)
  deriving Repr, DecidableEq

structure SpaceContentMutation where
  spaceId : Option String
  pageId : Option String
  expectedRevision : Nat
  requestId : String
  change : ContentChange
  deriving Repr, DecidableEq

def ContentChange.operation : ContentChange → ContentOperation
  | .qaAppend _ => .qaAppend
  | .noteAppend _ => .noteAppend
  | .noteReplace _ _ => .noteReplace

/-- `spaceContentFields`. -/
def ContentChange.fields : ContentChange → List String
  | .qaAppend body => [body]
  | .noteAppend text => [text]
  | .noteReplace oldText newText => [oldText, newText]

/-- What the payload hash of a mutation is taken of. -/
structure MutationPayload where
  operation : ContentOperation
  spaceId : String
  pageId : String
  sourceId : String
  expectedRevision : Nat
  fields : List String
  deriving Repr, DecidableEq

structure MutationDraws where
  postId : String
  receiptId : String
  deriving Repr, DecidableEq

def maxSafeInteger : Nat := 2 ^ 53 - 1

def pageConflict : SpaceError := .conflict "space_changed" "Space changed; reload before retrying"

def contentConflict (message : String) : SpaceError := .conflict "space_changed" message

def spaceTextOrEmpty (value label : String) (max : Nat) : Except SpaceError Unit :=
  ensure (ScriptString.length value ≤ max) (.state ("Invalid " ++ label))

/-- One text of a mutation. Texts are valid Unicode here. -/
def contentText (text : String) (allowEmpty : Bool) : Except SpaceError Unit :=
  ensure ((allowEmpty ∨ ScriptString.isBlank text = false) ∧ text.utf8ByteSize ≤ 8192)
    (.state "Content text must be valid Unicode, nonempty and at most 8192 UTF-8 bytes")

def contentTarget (target : Option String) : Except SpaceError Unit :=
  ensure (target.all fun id => id ≠ "" ∧ ScriptString.length id ≤ 128)
    (.state "Invalid content target")

def validateMutation (mutation : SpaceContentMutation) : Except SpaceError Unit := do
  ensure (1 ≤ mutation.expectedRevision ∧ mutation.expectedRevision ≤ maxSafeInteger ∧
      ScriptString.isBlank mutation.requestId = false ∧
      ScriptString.length mutation.requestId ≤ 128)
    (.state "Invalid content revision or request ID")
  contentTarget mutation.spaceId
  contentTarget mutation.pageId
  match mutation.change with
  | .qaAppend body => contentText body false
  | .noteAppend text => contentText text false
  | .noteReplace oldText newText => do
      contentText oldText false
      contentText newText true

/-- The body with the one occurrence of `oldText` replaced; overlapping occurrences count. -/
def replaceOnce (body oldText newText : String) : Except SpaceError String :=
  let mismatch := contentConflict
    "Replacement text must match exactly once; read the current note before a new request"
  match Scanning.indexOf? body.toList oldText.toList 0 with
  | none => .error mismatch
  | some offset =>
    if (Scanning.indexOf? body.toList oldText.toList (offset + 1)).isSome then .error mismatch
    else
      .ok (.ofList (body.toList.take offset ++ newText.toList ++ body.toList.drop (offset + oldText.toList.length)))

namespace ContentStore

def page (store : ContentStore) (userId spaceId pageId : String) (role : SpaceRole := .viewer) :
    Except SpaceError PageRow := do
  let _ ← store.spaces.access userId spaceId role
  orThrow ((store.pages.lookup pageId).filter fun page => page.spaceId = spaceId) unavailable

/-- The loop over the parents of a new page; it stops at the twentieth. -/
def checkNesting (store : ContentStore) (userId spaceId : String) : Nat → PageRow → Except SpaceError Unit
  | 0, _ => .error (.state "Page nesting limit reached; create a sibling issue")
  | fuel + 1, parent =>
    match parent.parentId.filter (· ≠ "") with
    | none => .ok ()
    | some parentId => do
        let next ← store.page userId spaceId parentId
        store.checkNesting userId spaceId fuel next

/-- The parent a new page names, checked. -/
def checkParent (store : ContentStore) (userId spaceId : String) (parentId : Option String) :
    Except SpaceError Unit :=
  match parentId.filter (· ≠ "") with
  | none => .ok ()
  | some parentId => do
      let parent ← store.page userId spaceId parentId
      store.checkNesting userId spaceId 19 parent

/-- The revision of the questions of a page; without a post it is one. -/
def head (store : ContentStore) (pageId : String) : Nat :=
  ((store.qaHeads.lookup pageId).map (·.revision)).getD 1

def spaceForAgent (store : ContentStore) (agentId : String) : Option SpaceRow :=
  store.spaces.collaborationSpaces.find? fun space => space.agentId = agentId

def run? (store : ContentStore) (runId : String) : Option SpaceRunRow :=
  store.spaces.collaborationSpaceRuns.find? fun run => run.runId = runId

/-- The employee an agent acts for. -/
def userForAgent (store : ContentStore) (agentId : String) : Except SpaceError String := do
  let binding ← orThrow (store.personalBindings.lookup agentId) unavailable
  store.spaces.activeUser binding.userId
  return binding.userId

/-- The agent an active employee is bound to. -/
def personalAgent (store : ContentStore) (userId : String) : Option String :=
  (store.personalBindings.rows.find? fun binding =>
    binding.userId = userId ∧ store.spaces.isActiveUser userId).map (·.agentId)

/-- `bySession` for writing. -/
def conversationForSession (store : ContentStore) (userId sessionKey : String) :
    Except SpaceError ConversationRow := do
  let conversation ← orThrow ((store.conversations.lookup sessionKey).filter fun conversation =>
    conversation.ownerId = userId) (.authorization "Space conversation unavailable")
  let space ← store.spaces.access userId conversation.spaceId
  ensure (space.role ≠ .viewer ∧ store.personalAgent userId = some conversation.agentId)
    (.authorization "Space conversation is read-only")
  return conversation

def setBody (store : ContentStore) (pageId body : String) (revision : Nat) (now : Int) : ContentStore :=
  { store with
    pages := store.pages.update (fun page => page.id = pageId)
      (fun page => { page with body, revision, updatedAt := now }) fun _ => rfl }

def setTitle (store : ContentStore) (pageId title : String) : ContentStore :=
  { store with
    pages := store.pages.update (fun page => page.id = pageId)
      (fun page => { page with title }) fun _ => rfl }

/-- The answer for a creation request that has made a page before. -/
def priorPage (store : ContentStore) (userId requestId : String) : Option PageRow :=
  store.pages.rows.find? fun page => page.creatorId = userId ∧ page.requestId = requestId

def createPage (store : ContentStore) (userId spaceId : String) (params : NewPage) (id : String)
    (now : Int) : Except SpaceError (PageRow × ContentStore) := do
  let _ ← store.spaces.access userId spaceId .editor
  spaceText params.title "page title" 240
  spaceTextOrEmpty params.body "page body" 32000
  spaceText params.requestId "request id" 128
  store.checkParent userId spaceId params.parentId
  match store.priorPage userId params.requestId with
  | some prior =>
    ensure (prior.spaceId = spaceId ∧ prior.title = params.title ∧ prior.body = params.body ∧
      prior.parentId = params.parentId) pageConflict
    return (prior, store)
  | none =>
    ensure ((store.pages.rows.filter fun page => page.spaceId = spaceId).length < 200)
      (.state "Space page limit reached")
    ensure (params.parentId.all fun parentId => (store.pages.lookup parentId).isSome) .constraint
    let row : PageRow :=
      { id, spaceId, parentId := params.parentId, title := params.title, body := params.body
        revision := 1, creatorId := userId, requestId := params.requestId, updatedAt := now }
    let pages ← orThrow (store.pages.insert? row) .constraint
    return (row, { store with pages })

def savePage (store : ContentStore) (userId spaceId pageId title body : String) (revision : Nat)
    (now : Int) : Except SpaceError (PageRow × ContentStore) := do
  let page ← store.page userId spaceId pageId .editor
  spaceText title "page title" 240
  spaceTextOrEmpty body "page body" 32000
  ensure (page.revision = revision) pageConflict
  let saved := (store.setTitle pageId title).setBody pageId body (revision + 1) now
  let row ← saved.page userId spaceId pageId
  return (row, saved)

def setRunState (store : ContentStore) (selects : SpaceRunRow → Bool) (state : RunState) : ContentStore :=
  { store with spaces := { store.spaces with
      collaborationSpaceRuns := store.spaces.collaborationSpaceRuns.map fun run =>
        if selects run then { run with state } else run } }

/-- Whether the run was finished before, and the store with the run admitted. `digest` is the
    SHA-256 of a message in hexadecimal. -/
def beginRun (store : ContentStore) (digest : String → String)
    (userId spaceId pageId runId message : String) : Except SpaceError (Bool × ContentStore) := do
  let _ ← store.page userId spaceId pageId .editor
  let tooMany := SpaceError.state "Space has too many pending messages; wait and retry"
  let pending := store.spaces.collaborationSpaceRuns.filter fun run =>
    run.spaceId = spaceId ∧ run.state = .active
  match store.run? runId with
  | some prior =>
    let admission ← orThrow (store.runAdmissions.lookup runId) .constraint
    ensure (prior.userId = userId ∧ admission.pageId = pageId ∧
      admission.contentHash = digest message ∧ prior.state ≠ .revoked) pageConflict
    if prior.state ≠ .failed then return (decide (prior.state = .finished), store)
    else
      ensure (pending.length < 200) tooMany
      return (false, store.setRunState (fun run => run.runId = runId) .active)
  | none =>
    ensure (pending.length < 200) tooMany
    let runAdmissions ← orThrow (store.runAdmissions.insert?
      { runId, pageId, contentHash := digest message }) .constraint
    return (false, { store with
      runAdmissions
      spaces := { store.spaces with
        collaborationSpaceRuns := store.spaces.collaborationSpaceRuns ++
          [{ runId, spaceId, userId, state := .active }] } })

/-- Without a page, or with an empty one, every page matches. -/
def finishRun (store : ContentStore) (runId : String) (pageId : Option String) : ContentStore :=
  store.setRunState (fun run =>
    run.runId = runId ∧ (run.state = .active ∨ run.state = .revoked) ∧
      (pageId.filter (· ≠ "")).all fun page =>
        (store.runAdmissions.lookup runId).any fun admission => admission.pageId = page) .finished

def failRun (store : ContentStore) (runId : String) : ContentStore :=
  store.setRunState (fun run => run.runId = runId ∧ run.state = .active) .failed

/-- The run may go on: it is active, on this page, and its employee may still edit it. -/
def assertRun (store : ContentStore) (agentId : String) (runId pageId : Option String) : Except SpaceError Unit := do
  let run ← orThrow ((runId.filter (· ≠ "")).bind store.run?) unavailable
  let admission ← orThrow (store.runAdmissions.lookup run.runId) .constraint
  ensure ((store.spaceForAgent agentId).map (·.id) = some run.spaceId ∧ run.state = .active ∧
    (pageId.filter (· ≠ "")).all (admission.pageId = ·)) unavailable
  let _ ← store.page run.userId run.spaceId admission.pageId .editor

/-- The name a post is published under. -/
def authorName (store : ContentStore) (userId : String) : String :=
  let named := (store.spaces.platformUsers.find? fun user => user.id = userId).map fun user =>
    (user.displayName.filter (· ≠ "")).getD user.accountId
  BoundedText.boundedText (named.getD "") 1000

def appendPost (store : ContentStore) (post : QaPostRow) : Except SpaceError ContentStore := do
  ensure (∀ other ∈ store.qaPosts.rows, ¬(other.pageId = post.pageId ∧ other.revision = post.revision)) .constraint
  let qaPosts ← orThrow (store.qaPosts.insert? post) .constraint
  return { store with
    qaPosts
    qaHeads := store.qaHeads.upsert { pageId := post.pageId, revision := post.revision }
      (fun head => { head with revision := post.revision }) fun _ => rfl }

def writeNote (store : ContentStore) (pageId body : String) (revision : Nat) (now : Int) :
    Except SpaceError ContentStore := do
  ensure (ScriptString.length body ≤ 32000)
    (.state "Note body exceeds 32000 UTF-16 characters; use a smaller patch")
  return store.setBody pageId body revision now

def contentRevision (store : ContentStore) (page : PageRow) : ContentChange → Nat
  | .qaAppend _ => store.head page.id
  | _ => page.revision

/-- The write of an accepted mutation, before its receipt. -/
def applyChange (store : ContentStore) (userId agentId sourceId postId : String) (page : PageRow)
    (revision : Nat) (now : Int) (change : ContentChange) : Except SpaceError ContentStore :=
  match change with
  | .qaAppend body =>
    store.appendPost
      { id := postId, spaceId := page.spaceId, pageId := page.id, revision, body
        actorUserId := userId, authorName := store.authorName userId, agentId
        sourceConversationId := sourceId, createdAt := now }
  | .noteAppend text => store.writeNote page.id (page.body ++ text) revision now
  | .noteReplace oldText newText => do
      let body ← replaceOnce page.body oldText newText
      store.writeNote page.id body revision now

/-- `payloadHash` is the SHA-256 of the JSON text of the payload. -/
def mutate (store : ContentStore) (payloadHash : MutationPayload → String)
    (context : SpaceContentRunContext) (mutation : SpaceContentMutation) (drawn : MutationDraws)
    (now : Int) : Except SpaceError (ReceiptRow × ContentStore) := do
  validateMutation mutation
  -- Authorization precedes the receipt, so an earlier success never bypasses it.
  let userId ← store.userForAgent context.agentId
  let source ← store.conversationForSession userId context.sessionKey
  ensure (source.agentId = context.agentId ∧ source.sessionKey = context.sessionKey)
    (.authorization "Space conversation unavailable")
  let _ ← store.page userId source.spaceId source.pageId .editor
  let spaceId := mutation.spaceId.getD source.spaceId
  ensure (spaceId = source.spaceId) (.authorization "Content writes must stay in the current Space")
  let pageId := mutation.pageId.getD source.pageId
  let page ← store.page userId spaceId pageId .editor
  let hash := payloadHash
    { operation := mutation.change.operation, spaceId, pageId, sourceId := source.id
      expectedRevision := mutation.expectedRevision, fields := mutation.change.fields }
  match store.receipts.lookup (userId, mutation.requestId) with
  | some prior =>
    ensure (prior.payloadHash = hash) (contentConflict
      "Request ID was used for different content; use a new request ID")
    return (prior, store)
  | none =>
    let previousRevision := store.contentRevision page mutation.change
    ensure (previousRevision = mutation.expectedRevision) (contentConflict
      "Content changed; read the current revision before a new request")
    let changed ← store.applyChange userId context.agentId source.id drawn.postId page
      (previousRevision + 1) now mutation.change
    let receipt : ReceiptRow :=
      { id := drawn.receiptId, actorUserId := userId, requestId := mutation.requestId
        operation := mutation.change.operation, spaceId, pageId
        sourceConversationId := source.id, agentId := context.agentId
        sessionKey := context.sessionKey, runtimeRunId := context.runtimeRunId
        admissionRunId := context.admissionRunId, payloadHash := hash, previousRevision
        revision := previousRevision + 1
        postId := if mutation.change.operation = .qaAppend then some drawn.postId else none
        createdAt := now }
    ensure (∀ other ∈ store.receipts.rows, other.id ≠ receipt.id) .constraint
    let receipts ← orThrow (changed.receipts.insert? receipt) .constraint
    return (receipt, { changed with receipts })

/-- Registry removal: the foreign keys take everything of the Space along. -/
def deleteSpace (store : ContentStore) (userId spaceId : String) : ContentStore :=
  let here (pageId : String) : Bool :=
    (store.pages.lookup pageId).any fun page => page.spaceId = spaceId
  { spaces := store.spaces.finishDelete userId spaceId
    pages := store.pages.delete fun page => page.spaceId = spaceId
    runAdmissions := store.runAdmissions.delete fun admission => here admission.pageId
    conversations := store.conversations.delete fun conversation => conversation.spaceId = spaceId
    personalBindings := store.personalBindings
    qaHeads := store.qaHeads.delete fun head => here head.pageId
    qaPosts := store.qaPosts.delete fun post => post.spaceId = spaceId
    receipts := store.receipts.delete fun receipt => receipt.spaceId = spaceId }

/-- A call on memberships and lifecycle. `purgeSpace` removes a Space only with the deletion
    that `beginDelete` answered with, and no call takes a deletion back. -/
def executeSpace (store : ContentStore) : SpaceOperation → Except SpaceError ContentStore
  | .finishDelete userId spaceId => do
      ensure (store.spaces.deleting spaceId) unavailable
      return store.deleteSpace userId spaceId
  | operation => do
      let spaces ← store.spaces.execute operation
      return { store with spaces }

end ContentStore

/-- One call on the store. -/
inductive ContentCall where
  | space (operation : SpaceOperation)
  | createPage (userId spaceId : String) (params : NewPage) (id : String) (now : Int)
  | savePage (userId spaceId pageId title body : String) (revision : Nat) (now : Int)
  | beginRun (userId spaceId pageId runId message : String)
  | finishRun (runId : String) (pageId : Option String)
  | failRun (runId : String)
  | mutate (context : SpaceContentRunContext) (mutation : SpaceContentMutation)
      (drawn : MutationDraws) (now : Int)
  /-- Whatever the writers of conversations and agent bindings do. -/
  | others (conversations : Table ConversationRow.key)
      (personalBindings : Table PersonalBindingRow.key)

/-- The two digests the store takes. -/
structure Digests where
  digest : String → String
  payloadHash : MutationPayload → String

namespace ContentStore

def execute (store : ContentStore) (digests : Digests) : ContentCall → Except SpaceError ContentStore
  | .space operation => store.executeSpace operation
  | .createPage userId spaceId params id now =>
    (·.2) <$> store.createPage userId spaceId params id now
  | .savePage userId spaceId pageId title body revision now =>
    (·.2) <$> store.savePage userId spaceId pageId title body revision now
  | .beginRun userId spaceId pageId runId message =>
    (·.2) <$> store.beginRun digests.digest userId spaceId pageId runId message
  | .finishRun runId pageId => .ok (store.finishRun runId pageId)
  | .failRun runId => .ok (store.failRun runId)
  | .mutate context mutation drawn now =>
    (·.2) <$> store.mutate digests.payloadHash context mutation drawn now
  | .others conversations personalBindings => .ok { store with conversations, personalBindings }

end ContentStore

def contentMachine (digests : Digests) : Machine ContentStore ContentCall where
  step store call :=
    match store.execute digests call with
    | .ok changed => changed
    | .error _ => store

end PlatformClaw.Spaces
