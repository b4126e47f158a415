import PlatformClaw.Spaces.Content

/-! # What one call does to the contents

One lemma for each writer of pages, runs and posts: what an accepted call has
read, and the store it leaves.
-/

namespace PlatformClaw.Spaces

open Except (bind_ok_iff)

/-- What a mutation asks for, once its conversation is known. -/
def SpaceContentMutation.payload (mutation : SpaceContentMutation) (source : ConversationRow) : MutationPayload where
  operation := mutation.change.operation
  spaceId := mutation.spaceId.getD source.spaceId
  pageId := mutation.pageId.getD source.pageId
  sourceId := source.id
  expectedRevision := mutation.expectedRevision
  fields := mutation.change.fields

namespace ContentStore

variable {store after : ContentStore} {userId spaceId pageId : String}

theorem page_ok {page : PageRow} {role : SpaceRole} (read : store.page userId spaceId pageId role = .ok page) :
    (∃ space, store.spaces.access userId spaceId role = .ok space) ∧
      store.pages.lookup pageId = some page ∧ page.spaceId = spaceId := by
  simp only [ContentStore.page, bind_ok_iff, Except.orThrow_ok_iff, Option.filter_eq_some_iff,
    decide_eq_true_eq] at read
  obtain ⟨space, granted, found, here⟩ := read
  exact ⟨⟨space, granted⟩, found, here⟩

theorem setBody_lookup (store : ContentStore) (pageId body id : String) (revision : Nat)
    (now : Int) : (store.setBody pageId body revision now).pages.lookup id = (store.pages.lookup id).map fun page =>
        if page.id = pageId then { page with body, revision, updatedAt := now } else page := by
  simp only [setBody, Table.lookup_update, decide_eq_true_eq]

theorem setTitle_lookup (store : ContentStore) (pageId title id : String) :
    (store.setTitle pageId title).pages.lookup id = (store.pages.lookup id).map fun page =>
        if page.id = pageId then { page with title } else page := by
  simp only [setTitle, Table.lookup_update, decide_eq_true_eq]

theorem createPage_ok {params : NewPage} {id : String} {now : Int} {row : PageRow}
    (accepted : store.createPage userId spaceId params id now = .ok (row, after)) :
    (store.priorPage userId params.requestId = some row ∧ after = store ∧ row.spaceId = spaceId ∧
        row.title = params.title ∧ row.body = params.body ∧ row.parentId = params.parentId) ∨
      (store.priorPage userId params.requestId = none ∧
        row = { id, spaceId, parentId := params.parentId, title := params.title,
                body := params.body, revision := 1, creatorId := userId,
                requestId := params.requestId, updatedAt := now } ∧
        ∃ pages, store.pages.insert? row = some pages ∧ after = { store with pages }) := by
  simp only [createPage, bind_ok_iff] at accepted
  obtain ⟨-, -, -, -, -, -, -, -, -, -, taken⟩ := accepted
  split at taken
  · rename_i prior found
    simp only [bind_ok_iff, Except.ensure_ok_iff, Except.pure_ok_iff, Prod.mk.injEq] at taken
    obtain ⟨-, same, rfl, rfl⟩ := taken
    exact .inl ⟨found, rfl, same⟩
  · rename_i absent
    simp only [bind_ok_iff, Except.orThrow_ok_iff, Except.pure_ok_iff, Prod.mk.injEq] at taken
    obtain ⟨-, -, -, -, pages, inserted, rfl, rfl⟩ := taken
    exact .inr ⟨absent, rfl, pages, inserted, rfl⟩

theorem savePage_ok {title body : String} {revision : Nat} {now : Int} {row : PageRow}
    (accepted : store.savePage userId spaceId pageId title body revision now = .ok (row, after)) :
    ∃ page, store.pages.lookup pageId = some page ∧ page.spaceId = spaceId ∧ page.revision = revision ∧
      after = (store.setTitle pageId title).setBody pageId body (revision + 1) now := by
  simp only [savePage, bind_ok_iff, Except.ensure_ok_iff, Except.pure_ok_iff, Prod.mk.injEq]
    at accepted
  obtain ⟨page, read, -, -, -, -, -, current, -, -, -, rfl⟩ := accepted
  obtain ⟨-, found, here⟩ := page_ok read
  exact ⟨page, found, here, current, rfl⟩

theorem beginRun_ok {digest : String → String} {runId message : String} {finished : Bool}
    (accepted : store.beginRun digest userId spaceId pageId runId message = .ok (finished, after)) :
    (∃ space, store.spaces.access userId spaceId .editor = .ok space) ∧
      (∃ page, store.pages.lookup pageId = some page ∧ page.spaceId = spaceId) ∧
      (after = store ∨ (∃ prior admission, store.run? runId = some prior ∧
          store.runAdmissions.lookup runId = some admission ∧ prior.userId = userId ∧
          admission.pageId = pageId ∧
          after = store.setRunState (fun run => run.runId = runId) .active) ∨
        (store.run? runId = none ∧ ∃ runAdmissions,
          store.runAdmissions.insert? { runId, pageId, contentHash := digest message } = some runAdmissions ∧
          after = { store with
            runAdmissions
            spaces := { store.spaces with
              collaborationSpaceRuns := store.spaces.collaborationSpaceRuns ++
                [{ runId, spaceId, userId, state := .active }] } })) := by
  simp only [beginRun, bind_ok_iff] at accepted
  obtain ⟨page, read, taken⟩ := accepted
  obtain ⟨granted, found, here⟩ := page_ok read
  refine ⟨granted, ⟨page, found, here⟩, ?_⟩
  split at taken
  · rename_i prior known
    simp only [bind_ok_iff, Except.orThrow_ok_iff, Except.ensure_ok_iff] at taken
    obtain ⟨admission, admitted, -, same, taken⟩ := taken
    split at taken
    · simp only [Except.pure_ok_iff, Prod.mk.injEq] at taken
      exact .inl taken.2.symm
    · simp only [bind_ok_iff, Except.pure_ok_iff, Prod.mk.injEq] at taken
      obtain ⟨-, -, -, rfl⟩ := taken
      exact .inr (.inl ⟨prior, admission, known, admitted, same.1, same.2.1, rfl⟩)
  · rename_i absent
    simp only [bind_ok_iff, Except.orThrow_ok_iff, Except.pure_ok_iff, Prod.mk.injEq] at taken
    obtain ⟨-, -, runAdmissions, inserted, -, rfl⟩ := taken
    exact .inr (.inr ⟨absent, runAdmissions, inserted, rfl⟩)

theorem appendPost_ok {post : QaPostRow} (accepted : store.appendPost post = .ok after) :
    (∀ other ∈ store.qaPosts, ¬(other.pageId = post.pageId ∧ other.revision = post.revision)) ∧
      ∃ qaPosts, store.qaPosts.insert? post = some qaPosts ∧
        after = { store with
          qaPosts
          qaHeads := store.qaHeads.upsert { pageId := post.pageId, revision := post.revision }
            (fun head => { head with revision := post.revision }) fun _ => rfl } := by
  simp only [appendPost, bind_ok_iff, Except.ensure_ok_iff, Except.orThrow_ok_iff, Except.pure_ok_iff] at accepted
  obtain ⟨-, fresh, qaPosts, inserted, rfl⟩ := accepted
  exact ⟨fresh, qaPosts, inserted, rfl⟩

theorem applyChange_ok {agentId sourceId postId : String} {page : PageRow} {revision : Nat}
    {now : Int} {change : ContentChange}
    (accepted : store.applyChange userId agentId sourceId postId page revision now change = .ok after) :
    (change.operation = .qaAppend ∧ ∃ post : QaPostRow, post.id = postId ∧
        post.pageId = page.id ∧ post.spaceId = page.spaceId ∧ post.revision = revision ∧
        store.appendPost post = .ok after) ∨
      (change.operation ≠ .qaAppend ∧ ∃ body, after = store.setBody page.id body revision now) := by
  cases change with
  | qaAppend body => exact .inl ⟨rfl, _, rfl, rfl, rfl, rfl, accepted⟩
  | noteAppend text =>
    simp only [applyChange, writeNote, bind_ok_iff, Except.pure_ok_iff] at accepted
    obtain ⟨-, -, rfl⟩ := accepted
    exact .inr ⟨by simp [ContentChange.operation], _, rfl⟩
  | noteReplace oldText newText =>
    simp only [applyChange, writeNote, bind_ok_iff, Except.pure_ok_iff] at accepted
    obtain ⟨body, -, -, -, rfl⟩ := accepted
    exact .inr ⟨by simp [ContentChange.operation], body, rfl⟩

/-- Who may make the mutation, checked before any receipt is read. -/
structure MutationAllowed (store : ContentStore) (context : SpaceContentRunContext)
    (mutation : SpaceContentMutation) (userId : String) (source : ConversationRow)
    (page : PageRow) : Prop where
  valid : validateMutation mutation = .ok ()
  actor : store.userForAgent context.agentId = .ok userId
  conversation : store.conversationForSession userId context.sessionKey = .ok source
  own : source.agentId = context.agentId ∧ source.sessionKey = context.sessionKey
  sourcePage : ∃ page, store.page userId source.spaceId source.pageId .editor = .ok page
  sameSpace : mutation.spaceId.getD source.spaceId = source.spaceId
  page : store.page userId (mutation.payload source).spaceId (mutation.payload source).pageId .editor = .ok page

section Mutate

variable {payloadHash : MutationPayload → String} {context : SpaceContentRunContext}
  {mutation : SpaceContentMutation} {drawn : MutationDraws} {now : Int} {receipt : ReceiptRow}

/-- An accepted mutation answers with the receipt of its request, or counts on the current
    revision, changes the content and records a receipt. -/
theorem mutate_ok (accepted : store.mutate payloadHash context mutation drawn now = .ok (receipt, after)) :
    ∃ userId source page, store.MutationAllowed context mutation userId source page ∧
      receipt.key = (userId, mutation.requestId) ∧
      receipt.payloadHash = payloadHash (mutation.payload source) ∧
      ((store.receipts.lookup receipt.key = some receipt ∧ after = store) ∨
        (store.receipts.lookup receipt.key = none ∧
          store.contentRevision page mutation.change = mutation.expectedRevision ∧
          receipt.operation = mutation.change.operation ∧
          receipt.pageId = (mutation.payload source).pageId ∧
          receipt.previousRevision = mutation.expectedRevision ∧
          ∃ changed receipts, store.applyChange userId context.agentId source.id drawn.postId page
              (mutation.expectedRevision + 1) now mutation.change = .ok changed ∧
            changed.receipts.insert? receipt = some receipts ∧
            after = { changed with receipts })) := by
  simp only [mutate, bind_ok_iff, Except.ensure_ok_iff] at accepted
  obtain ⟨_, valid, userId, actor, source, conversation, -, own, sourcePage, sourceRead, -,
    sameSpace, page, read, taken⟩ := accepted
  refine ⟨userId, source, page, ⟨valid, actor, conversation, own, ⟨sourcePage, sourceRead⟩, sameSpace, read⟩, ?_⟩
  split at taken
  · rename_i prior known
    simp only [bind_ok_iff, Except.ensure_ok_iff, Except.pure_ok_iff, Prod.mk.injEq] at taken
    obtain ⟨-, same, rfl, rfl⟩ := taken
    have key := (Table.lookup_eq_some_iff.mp known).2
    exact ⟨key, same, .inl ⟨key ▸ known, rfl⟩⟩
  · rename_i absent
    simp only [bind_ok_iff, Except.ensure_ok_iff, Except.orThrow_ok_iff, Except.pure_ok_iff, Prod.mk.injEq] at taken
    obtain ⟨-, current, changed, applied, -, -, receipts, inserted, rfl, rfl⟩ := taken
    exact ⟨rfl, rfl, .inr ⟨absent, current, rfl, rfl, current, changed, receipts, current ▸ applied, inserted, rfl⟩⟩

theorem mutate_replayed {userId : String} {source : ConversationRow} {page : PageRow}
    (allowed : store.MutationAllowed context mutation userId source page)
    (known : store.receipts.lookup (userId, mutation.requestId) = some receipt)
    (same : receipt.payloadHash = payloadHash (mutation.payload source)) :
    store.mutate payloadHash context mutation drawn now = .ok (receipt, store) := by
  obtain ⟨sourcePage, sourceRead⟩ := allowed.sourcePage
  simp only [mutate, bind_ok_iff, Except.ensure_ok_iff]
  refine ⟨(), allowed.valid, userId, allowed.actor, source, allowed.conversation, (), allowed.own,
    sourcePage, sourceRead, (), allowed.sameSpace, page, allowed.page, ?_⟩
  rw [known]
  exact bind_ok_iff.mpr ⟨(), Except.ensure_ok_iff.mpr same, rfl⟩

end Mutate

end ContentStore

end PlatformClaw.Spaces
