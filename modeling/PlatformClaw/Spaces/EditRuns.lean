import PlatformClaw.Spaces.Edits
import PlatformClaw.Spaces.Posts

/-! # Requests that are repeated

A mutation is answered from its receipt when it is asked for again, however many
edits came between. The creation of a page has no receipt: asked for again, it
answers with the page only while the page is what the request says.
-/

namespace PlatformClaw.Spaces

open Except (bind_ok_iff)

def ContentCall.writesContent : ContentCall → Bool
  | .createPage .. | .savePage .. | .mutate .. => true
  | _ => false

namespace ContentStore

variable {store after : ContentStore}

/-- What calls that write contents leave as it is, or only add to. -/
structure Grows (store after : ContentStore) : Prop where
  spaces : after.spaces = store.spaces
  conversations : after.conversations = store.conversations
  personalBindings : after.personalBindings = store.personalBindings
  pages : ∀ pageId page, store.pages.lookup pageId = some page →
    ∃ later, after.pages.lookup pageId = some later ∧ later.spaceId = page.spaceId ∧
      later.creatorId = page.creatorId ∧ later.requestId = page.requestId
  receipts : ∀ key receipt, store.receipts.lookup key = some receipt → after.receipts.lookup key = some receipt

theorem Grows.refl (store : ContentStore) : store.Grows store where
  spaces := rfl
  conversations := rfl
  personalBindings := rfl
  pages := fun _ page found => ⟨page, found, rfl, rfl, rfl⟩
  receipts := fun _ _ found => found

theorem Grows.trans {middle : ContentStore} (early : store.Grows middle)
    (late : middle.Grows after) : store.Grows after where
  spaces := late.spaces.trans early.spaces
  conversations := late.conversations.trans early.conversations
  personalBindings := late.personalBindings.trans early.personalBindings
  pages := by
    intro pageId page found
    obtain ⟨between, kept, space, creator, request⟩ := early.pages pageId page found
    obtain ⟨later, kept', space', creator', request'⟩ := late.pages pageId between kept
    exact ⟨later, kept', space'.trans space, creator'.trans creator, request'.trans request⟩
  receipts := fun key receipt found => late.receipts key receipt (early.receipts key receipt found)

theorem setBody_grows (store : ContentStore) (pageId body : String) (revision : Nat) (now : Int) :
    store.Grows (store.setBody pageId body revision now) where
  spaces := rfl
  conversations := rfl
  personalBindings := rfl
  pages := by
    intro id page found
    refine ⟨_, (setBody_lookup ..).trans (congrArg _ found), ?_⟩
    dsimp only
    split <;> exact ⟨rfl, rfl, rfl⟩
  receipts := fun _ _ found => found

theorem setTitle_grows (store : ContentStore) (pageId title : String) :
    store.Grows (store.setTitle pageId title) where
  spaces := rfl
  conversations := rfl
  personalBindings := rfl
  pages := by
    intro id page found
    refine ⟨_, (setTitle_lookup ..).trans (congrArg _ found), ?_⟩
    dsimp only
    split <;> exact ⟨rfl, rfl, rfl⟩
  receipts := fun _ _ found => found

theorem createPage_grows {userId spaceId id : String} {params : NewPage} {now : Int}
    {row : PageRow} (accepted : store.createPage userId spaceId params id now = .ok (row, after)) :
    store.Grows after := by
  obtain ⟨-, rfl, -⟩ | ⟨-, -, pages, inserted, rfl⟩ := createPage_ok accepted
  · exact .refl _
  · refine { Grows.refl store with pages := ?_ }
    intro pageId page found
    refine ⟨page, ?_, rfl, rfl, rfl⟩
    rw [Table.lookup_insert? inserted, if_neg, found]
    rintro rfl
    rw [Table.insert?_absent inserted] at found
    cases found

theorem savePage_grows {userId spaceId pageId title body : String} {revision : Nat} {now : Int}
    {row : PageRow}
    (accepted : store.savePage userId spaceId pageId title body revision now = .ok (row, after)) :
    store.Grows after := by
  obtain ⟨page, -, -, -, rfl⟩ := savePage_ok accepted
  exact (setTitle_grows store pageId title).trans (setBody_grows _ _ _ _ _)

theorem applyChange_grows {userId agentId sourceId postId : String} {page : PageRow}
    {revision : Nat} {now : Int} {change : ContentChange}
    (accepted : store.applyChange userId agentId sourceId postId page revision now change =
      .ok after) : store.Grows after := by
  obtain ⟨-, post, -, -, -, -, appended⟩ | ⟨-, body, rfl⟩ := applyChange_ok accepted
  · obtain ⟨-, qaPosts, -, rfl⟩ := appendPost_ok appended
    exact { Grows.refl store with }
  · exact setBody_grows store page.id body revision now

section Mutate

variable {payloadHash : MutationPayload → String} {context : SpaceContentRunContext}
  {mutation : SpaceContentMutation} {drawn : MutationDraws} {now : Int} {receipt : ReceiptRow}

theorem mutate_grows (accepted : store.mutate payloadHash context mutation drawn now = .ok (receipt, after)) :
    store.Grows after := by
  obtain ⟨userId, source, page, -, -, -, ⟨-, rfl⟩ | ⟨-, -, -, -, -, changed, receipts, applied,
    inserted, rfl⟩⟩ := mutate_ok accepted
  · exact .refl _
  · have grown := applyChange_grows applied
    refine grown.trans { Grows.refl changed with receipts := ?_ }
    intro key earlier found
    rw [Table.lookup_insert? inserted, if_neg, found]
    rintro rfl
    rw [Table.insert?_absent inserted] at found
    cases found

theorem mutate_recorded (accepted : store.mutate payloadHash context mutation drawn now = .ok (receipt, after)) :
    after.receipts.lookup receipt.key = some receipt := by
  obtain ⟨userId, source, page, -, -, -, ⟨known, rfl⟩ | ⟨-, -, -, -, -, changed, receipts, -,
    inserted, rfl⟩⟩ := mutate_ok accepted
  · exact known
  · exact (Table.lookup_insert? inserted receipt.key).trans (if_pos rfl)

end Mutate

theorem step_grows (digests : Digests) (store : ContentStore) {call : ContentCall}
    (writes : call.writesContent = true) :
    store.Grows ((contentMachine digests).step store call) := by
  simp only [contentMachine]
  split
  · rename_i accepted
    cases call with
    | createPage userId spaceId params id now =>
      obtain ⟨⟨row, _⟩, created, rfl⟩ := Except.map_ok_iff.mp accepted
      exact createPage_grows created
    | savePage userId spaceId pageId title body revision now =>
      obtain ⟨⟨row, _⟩, saved, rfl⟩ := Except.map_ok_iff.mp accepted
      exact savePage_grows saved
    | mutate context mutation drawn now =>
      obtain ⟨⟨receipt, _⟩, mutated, rfl⟩ := Except.map_ok_iff.mp accepted
      exact mutate_grows mutated
    | space | beginRun | finishRun | failRun | others => cases writes
  · exact .refl _

theorem run_grows (digests : Digests) (store : ContentStore) {calls : List ContentCall}
    (writes : ∀ call ∈ calls, call.writesContent = true) :
    store.Grows ((contentMachine digests).run store calls) := by
  induction calls generalizing store with
  | nil => exact .refl store
  | cons call rest ih =>
    have stepped := step_grows digests store (writes call List.mem_cons_self)
    exact stepped.trans (ih _ fun later inRest => writes later (List.mem_cons_of_mem _ inRest))

theorem Grows.page (grown : store.Grows after) {userId spaceId pageId : String} {role : SpaceRole}
    {page : PageRow} (read : store.page userId spaceId pageId role = .ok page) :
    ∃ later, after.page userId spaceId pageId role = .ok later := by
  obtain ⟨⟨space, granted⟩, found, here⟩ := page_ok read
  obtain ⟨later, kept, same, -⟩ := grown.pages pageId page found
  refine ⟨later, bind_ok_iff.mpr ⟨space, by rwa [grown.spaces], ?_⟩⟩
  rw [kept, Except.orThrow_ok_iff, Option.filter_eq_some_iff]
  exact ⟨rfl, by simpa using same.trans here⟩

theorem conversationForSession_congr (spaces : after.spaces = store.spaces)
    (conversations : after.conversations = store.conversations)
    (bindings : after.personalBindings = store.personalBindings) :
    after.conversationForSession = store.conversationForSession := by
  cases store
  cases after
  cases spaces
  cases conversations
  cases bindings
  rfl

theorem Grows.allowed (grown : store.Grows after) {context : SpaceContentRunContext}
    {mutation : SpaceContentMutation} {userId : String} {source : ConversationRow} {page : PageRow}
    (allowed : store.MutationAllowed context mutation userId source page) :
    ∃ later, after.MutationAllowed context mutation userId source later := by
  obtain ⟨sourcePage, sourceRead⟩ := allowed.sourcePage
  obtain ⟨later, read⟩ := grown.page allowed.page
  refine ⟨later, allowed.valid, ?_, ?_, allowed.own, grown.page sourceRead, allowed.sameSpace, read⟩
  · rw [← allowed.actor]
    simp only [userForAgent, grown.personalBindings, grown.spaces]
  · rw [← allowed.conversation, conversationForSession_congr grown.spaces grown.conversations grown.personalBindings]

section Replay

variable {payloadHash : MutationPayload → String} {context : SpaceContentRunContext}
  {mutation : SpaceContentMutation} {drawn : MutationDraws} {now : Int} {receipt : ReceiptRow}

theorem mutate_again {reached : ContentStore}
    (accepted : store.mutate payloadHash context mutation drawn now = .ok (receipt, after))
    (grown : after.Grows reached) (again : MutationDraws) (later : Int) :
    reached.mutate payloadHash context mutation again later = .ok (receipt, reached) := by
  have recorded := grown.receipts _ _ (mutate_recorded accepted)
  have before := mutate_grows accepted
  obtain ⟨userId, source, page, allowed, key, hash, -⟩ := mutate_ok accepted
  obtain ⟨current, stillAllowed⟩ := (before.trans grown).allowed allowed
  exact mutate_replayed stillAllowed (key ▸ recorded) hash

theorem mutate_hash {recorded : ReceiptRow} {userId : String} {source : ConversationRow}
    (known : store.receipts.lookup (userId, mutation.requestId) = some recorded)
    (actor : store.userForAgent context.agentId = .ok userId)
    (conversation : store.conversationForSession userId context.sessionKey = .ok source)
    (accepted : store.mutate payloadHash context mutation drawn now = .ok (receipt, after)) :
    recorded.payloadHash = payloadHash (mutation.payload source) := by
  obtain ⟨userId', source', page, allowed, key, hash, ⟨found, -⟩ | ⟨absent, -⟩⟩ :=
    mutate_ok accepted
  · cases actor.symm.trans allowed.actor
    cases conversation.symm.trans allowed.conversation
    rw [key, known] at found
    cases found
    exact hash
  · cases actor.symm.trans allowed.actor
    rw [key, known] at absent
    cases absent

end Replay

/-- A creation request of an employee has made at most one page. -/
def RequestedOnce (store : ContentStore) : Prop :=
  store.pages.rows.Pairwise fun a b => ¬(a.creatorId = b.creatorId ∧ a.requestId = b.requestId)

theorem priorPage_some {userId requestId : String} {page : PageRow}
    (found : store.priorPage userId requestId = some page) :
    page ∈ store.pages ∧ page.creatorId = userId ∧ page.requestId = requestId :=
  ⟨List.mem_of_find?_eq_some found, by simpa using List.find?_some found⟩

theorem RequestedOnce.unique (once : store.RequestedOnce) {a b : PageRow} (inA : a ∈ store.pages)
    (inB : b ∈ store.pages) (creator : a.creatorId = b.creatorId)
    (request : a.requestId = b.requestId) : a = b :=
  @KeyedRows.unique PageRow (String × String) (fun page => (page.creatorId, page.requestId)) _
    (once.imp fun apart same => apart (by simpa using same)) _ _ inA inB (by rw [creator, request])

theorem setBody_requestedOnce (once : store.RequestedOnce) (pageId body : String) (revision : Nat)
    (now : Int) : (store.setBody pageId body revision now).RequestedOnce := by
  refine List.pairwise_map.mpr (once.imp ?_)
  intro a b apart
  split <;> split <;> exact apart

theorem setTitle_requestedOnce (once : store.RequestedOnce) (pageId title : String) :
    (store.setTitle pageId title).RequestedOnce := by
  refine List.pairwise_map.mpr (once.imp ?_)
  intro a b apart
  split <;> split <;> exact apart

theorem createPage_requestedOnce (once : store.RequestedOnce) {userId spaceId id : String}
    {params : NewPage} {now : Int} {row : PageRow}
    (accepted : store.createPage userId spaceId params id now = .ok (row, after)) :
    after.RequestedOnce := by
  obtain ⟨-, rfl, -⟩ | ⟨absent, rfl, pages, inserted, rfl⟩ := createPage_ok accepted
  · exact once
  · have missing : ∀ page ∈ store.pages.rows, ¬(page.creatorId = userId ∧ page.requestId = params.requestId) := by
      simpa [priorPage] using absent
    rw [RequestedOnce, Table.insert?_rows inserted]
    refine List.pairwise_append.mpr ⟨once, List.pairwise_singleton _ _, ?_⟩
    intro page inTable created isNew
    rw [List.mem_singleton.mp isNew]
    exact missing page inTable

theorem execute_requestedOnce (once : store.RequestedOnce) {digests : Digests} {call : ContentCall}
    (accepted : store.execute digests call = .ok after) : after.RequestedOnce := by
  cases call with
  | space operation =>
    obtain ⟨spaces, -, -, rfl⟩ | ⟨userId, spaceId, -, -, rfl⟩ := executeSpace_ok accepted
    · exact once
    · exact once.filter _
  | createPage userId spaceId params id now =>
    obtain ⟨⟨row, _⟩, created, rfl⟩ := Except.map_ok_iff.mp accepted
    exact createPage_requestedOnce once created
  | savePage userId spaceId pageId title body revision now =>
    obtain ⟨⟨row, _⟩, saved, rfl⟩ := Except.map_ok_iff.mp accepted
    obtain ⟨page, -, -, -, rfl⟩ := savePage_ok saved
    exact setBody_requestedOnce (setTitle_requestedOnce once pageId title) _ _ _ _
  | beginRun userId spaceId pageId runId message =>
    obtain ⟨⟨finished, _⟩, begun, rfl⟩ := Except.map_ok_iff.mp accepted
    obtain ⟨-, -, rfl | ⟨-, -, -, -, -, -, rfl⟩ | ⟨-, -, -, rfl⟩⟩ := beginRun_ok begun
    · exact once
    · exact once
    · exact once
  | finishRun | failRun | others =>
    cases accepted
    exact once
  | mutate context mutation drawn now =>
    obtain ⟨⟨receipt, _⟩, mutated, rfl⟩ := Except.map_ok_iff.mp accepted
    obtain ⟨userId, source, page, -, -, -, ⟨-, rfl⟩ | ⟨-, -, -, -, -, changed, receipts, applied,
      -, rfl⟩⟩ := mutate_ok mutated
    · exact once
    · obtain ⟨-, post, -, -, -, -, appended⟩ | ⟨-, body, rfl⟩ := applyChange_ok applied
      · obtain ⟨-, qaPosts, -, rfl⟩ := appendPost_ok appended
        exact once
      · exact setBody_requestedOnce once _ _ _ _

theorem requestedOnce_reachable (digests : Digests) (calls : List ContentCall) :
    ((contentMachine digests).run .empty calls).RequestedOnce := by
  have initial : ContentStore.empty.RequestedOnce := .nil
  exact Machine.run_invariant
    (step_preserves fun _ _ _ once accepted => execute_requestedOnce once accepted) initial calls

theorem createPage_recorded {userId spaceId id : String} {params : NewPage} {now : Int}
    {row : PageRow} (accepted : store.createPage userId spaceId params id now = .ok (row, after)) :
    after.pages.lookup row.id = some row ∧ row.creatorId = userId ∧ row.requestId = params.requestId := by
  obtain ⟨known, rfl, -⟩ | ⟨-, rfl, pages, inserted, rfl⟩ := createPage_ok accepted
  · obtain ⟨inTable, creator, request⟩ := priorPage_some known
    exact ⟨Table.lookup_key inTable, creator, request⟩
  · exact ⟨(Table.lookup_insert? inserted id).trans (if_pos rfl), rfl, rfl⟩

/-- A request that has made a page makes no other: it answers with the page as it is now, if
    that is what the request says, and leaves the store as it is. -/
theorem createPage_again (once : store.RequestedOnce) {userId spaceId id pageId : String}
    {params : NewPage} {now : Int} {answer page : PageRow}
    (known : store.pages.lookup pageId = some page) (creator : page.creatorId = userId)
    (request : page.requestId = params.requestId)
    (accepted : store.createPage userId spaceId params id now = .ok (answer, after)) :
    after = store ∧ answer = page ∧ page.spaceId = spaceId ∧ page.title = params.title ∧
      page.body = params.body ∧ page.parentId = params.parentId := by
  obtain ⟨inTable, -⟩ := Table.lookup_eq_some_iff.mp known
  obtain ⟨found, rfl, same⟩ | ⟨absent, -⟩ := createPage_ok accepted
  · obtain ⟨inAnswer, creator', request'⟩ := priorPage_some found
    have only := once.unique inAnswer inTable (creator'.trans creator.symm) (request'.trans request.symm)
    exact ⟨rfl, only, only ▸ same⟩
  · have missing : ∀ page ∈ store.pages.rows, ¬(page.creatorId = userId ∧ page.requestId = params.requestId) := by
      simpa [priorPage] using absent
    exact absurd ⟨creator, request⟩ (missing page inTable)

theorem step_mutate_rejected {digests : Digests} {context : SpaceContentRunContext}
    {mutation : SpaceContentMutation} {drawn : MutationDraws} {now : Int} {error : SpaceError}
    (rejected : store.mutate digests.payloadHash context mutation drawn now = .error error) :
    (contentMachine digests).step store (.mutate context mutation drawn now) = store := by
  have refused : store.execute digests (.mutate context mutation drawn now) = .error error := by
    simp only [execute, rejected]
    rfl
  exact step_of_error refused

theorem mutate_other {payloadHash : MutationPayload → String} {context : SpaceContentRunContext}
    {mutation : SpaceContentMutation} {recorded : ReceiptRow} {source : ConversationRow}
    (known : store.receipts.lookup recorded.key = some recorded)
    (request : mutation.requestId = recorded.requestId)
    (actor : store.userForAgent context.agentId = .ok recorded.actorUserId)
    (conversation : store.conversationForSession recorded.actorUserId context.sessionKey = .ok source)
    (other : payloadHash (mutation.payload source) ≠ recorded.payloadHash)
    (drawn : MutationDraws) (now : Int) :
    ∃ error, store.mutate payloadHash context mutation drawn now = .error error := by
  cases taken : store.mutate payloadHash context mutation drawn now with
  | error error => exact ⟨error, rfl⟩
  | ok result => exact absurd (mutate_hash (request ▸ known) actor conversation taken).symm other

theorem mutate_current {payloadHash : MutationPayload → String} {context : SpaceContentRunContext}
    {mutation : SpaceContentMutation} {drawn : MutationDraws} {now : Int} {receipt : ReceiptRow}
    (accepted : store.mutate payloadHash context mutation drawn now = .ok (receipt, after))
    (applied : store.receipts.lookup receipt.key = none) :
    ∃ page, store.pages.lookup receipt.pageId = some page ∧
      store.contentRevision page mutation.change = mutation.expectedRevision := by
  obtain ⟨userId, source, page, allowed, -, -, ⟨known, -⟩ | ⟨-, current, -, target, -⟩⟩ :=
    mutate_ok accepted
  · rw [applied] at known
    cases known
  · exact ⟨page, target ▸ (page_ok allowed.page).2.1, current⟩

/-- Pages count their edits, questions their posts, and a request is applied once. -/
theorem edits_of_run (digests : Digests) (calls : List ContentCall) :
    let machine := contentMachine digests
    let store := machine.run .empty calls
    -- Revisions are exact, and nothing is based on a stale one.
    (∀ page ∈ store.pages, page.revision = 1 + editCount digests page.id .empty 0 calls) ∧
    (∀ call pageId base, store.edit? digests call = some (pageId, base) →
      ∃ page, store.pages.lookup pageId = some page ∧ page.revision = base) ∧
    (∀ context mutation drawn now receipt after,
      store.mutate digests.payloadHash context mutation drawn now = .ok (receipt, after) →
      store.receipts.lookup receipt.key = none →
      ∃ page, store.pages.lookup receipt.pageId = some page ∧
        store.contentRevision page mutation.change = mutation.expectedRevision) ∧
    (∀ pageId, (store.postsOn pageId).map (·.revision) = List.range' 2 (store.head pageId - 1)) ∧
    -- A mutation is applied once, and its request serves no other payload.
    (∀ context mutation drawn now receipt after,
      store.mutate digests.payloadHash context mutation drawn now = .ok (receipt, after) →
      ∀ later, (∀ call ∈ later, call.writesContent = true) →
        let reached := machine.run after later
        (∀ again then', reached.mutate digests.payloadHash context mutation again then' = .ok (receipt, reached)) ∧
        ∀ context' mutation' source', mutation'.requestId = mutation.requestId →
          reached.userForAgent context'.agentId = .ok receipt.actorUserId →
          reached.conversationForSession receipt.actorUserId context'.sessionKey = .ok source' →
          digests.payloadHash (mutation'.payload source') ≠ receipt.payloadHash →
          ∀ again then', (∃ error, reached.mutate digests.payloadHash context' mutation' again then' = .error error) ∧
            machine.step reached (.mutate context' mutation' again then') = reached) ∧
    -- A creation request makes one page and nothing else.
    ∀ userId spaceId params id now row after, store.createPage userId spaceId params id now = .ok (row, after) →
      ∀ later, (∀ call ∈ later, call.writesContent = true) →
        let reached := machine.run after later
        ∃ page, reached.pages.lookup row.id = some page ∧
          ∀ spaceId' params' id' then' answer changed, params'.requestId = params.requestId →
            reached.createPage userId spaceId' params' id' then' = .ok (answer, changed) →
            changed = reached ∧ answer = page ∧ page.spaceId = spaceId' ∧
              page.title = params'.title ∧ page.body = params'.body ∧
              page.parentId = params'.parentId := by
  refine ⟨?_, fun call pageId base => edit?_current, ?_, ?_, ?_, ?_⟩
  · intro page inTable
    have absent : ∀ earlier, ContentStore.empty.pages.lookup page.id = some earlier → earlier.revision = 1 + 0 := by
      intro earlier found
      cases found
    exact revision_counts digests page.id calls absent page (Table.lookup_key inTable)
  · intro context mutation drawn now receipt after accepted applied
    exact mutate_current accepted applied
  · exact (numbered_reachable digests calls).consecutive
  · intro context mutation drawn now receipt after accepted later writes
    have grown := run_grows digests after writes
    refine ⟨mutate_again accepted grown, ?_⟩
    intro context' mutation' source' request actor conversation other again then'
    have recorded := grown.receipts _ _ (mutate_recorded accepted)
    obtain ⟨userId, source, page, -, key, -⟩ := mutate_ok accepted
    have same : mutation'.requestId = receipt.requestId :=
      request.trans (Prod.mk.inj key).2.symm
    have rejected := mutate_other recorded same actor conversation other again then'
    obtain ⟨error, refused⟩ := rejected
    exact ⟨⟨error, refused⟩, step_mutate_rejected refused⟩
  · intro userId spaceId params id now row after accepted later writes
    have grown := run_grows digests after writes
    obtain ⟨recorded, creator, request⟩ := createPage_recorded accepted
    obtain ⟨page, known, -, creator', request'⟩ := grown.pages _ _ recorded
    refine ⟨page, known, ?_⟩
    intro spaceId' params' id' then' answer changed same again
    -- The stores after the creation are reachable too.
    have created : (contentMachine digests).step ((contentMachine digests).run .empty calls)
        (.createPage userId spaceId params id now) = after :=
      step_of_ok (Except.map_ok_iff.mpr ⟨(row, after), accepted, rfl⟩)
    have once := requestedOnce_reachable digests (calls ++ .createPage userId spaceId params id now :: later)
    rw [Machine.run_append, Machine.run_cons, created] at once
    exact createPage_again once known (creator'.trans creator) ((request'.trans request).trans same.symm) again

end ContentStore

namespace SavedPage

def alice : PlatformUserRow := ⟨"alice", "alice", none, .active, .member⟩

def params : NewPage := ⟨none, "Notes", "", "request"⟩

def digests : Digests := ⟨id, fun _ => ""⟩

/-- The Space before the page is created. -/
def store : ContentStore :=
  (contentMachine digests).run .empty
    [.space (.createUser alice), .space (.create "alice" "Space" "request" "space" 0)]

def page : PageRow := ⟨"page", "space", none, "Notes", "", 1, "alice", "request", 0⟩

def created : ContentStore :=
  (contentMachine digests).step store (.createPage "alice" "space" params "page" 0)

def saved : ContentCall := .savePage "alice" "space" "page" "Notes" "Changed" 1 0

theorem created_ok : store.createPage "alice" "space" params "page" 0 = .ok (page, created) := by
  rfl

theorem replay_rejected :
    ((contentMachine digests).step created saved).createPage "alice" "space" params "again" 0 =
      .error pageConflict := by
  rfl

end SavedPage

/-- After a save the creation request of a page is refused. -/
theorem savedPage_refuses_creation : ¬∀ (digests : Digests) (calls later : List ContentCall) (userId spaceId : String)
      (params : NewPage) (id id' : String) (now now' : Int) (row : PageRow) (after : ContentStore),
      ((contentMachine digests).run .empty calls).createPage userId spaceId params id now = .ok (row, after) →
      (∀ call ∈ later, call.writesContent = true) →
      let reached := (contentMachine digests).run after later
      ∃ answer, reached.createPage userId spaceId params id' now' = .ok (answer, reached) := by
  intro answered
  obtain ⟨answer, again⟩ := answered SavedPage.digests _ [SavedPage.saved] "alice" "space"
    SavedPage.params "page" "again" 0 0 SavedPage.page SavedPage.created SavedPage.created_ok
    (by simp [SavedPage.saved, ContentCall.writesContent])
  cases SavedPage.replay_rejected.symm.trans again

end PlatformClaw.Spaces
