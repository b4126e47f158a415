import PlatformClaw.Spaces.AdmittedRuns

/-! # The posts of a page

Questions are numbered by page: the posts on a page have the revisions from two up
to the head of the page, in the order in which they were inserted. Registry
removal takes all of them or none.
-/

namespace PlatformClaw.Spaces.ContentStore

open Except (bind_ok_iff)

variable {store after : ContentStore}

def postsOn (store : ContentStore) (pageId : String) : List QaPostRow :=
  store.qaPosts.rows.filter fun post => post.pageId = pageId

/-- Posts and heads belong to pages, and the posts on a page are numbered up to its head. -/
structure Numbered (store : ContentStore) : Prop where
  placed : ∀ post ∈ store.qaPosts, ∃ page, store.pages.lookup post.pageId = some page ∧ page.spaceId = post.spaceId
  headed : ∀ pageId head, store.qaHeads.lookup pageId = some head → ∃ page, store.pages.lookup pageId = some page
  positive : ∀ pageId, 1 ≤ store.head pageId
  consecutive : ∀ pageId, (store.postsOn pageId).map (·.revision) = List.range' 2 (store.head pageId - 1)

theorem Numbered.empty : ContentStore.empty.Numbered where
  placed := fun post inTable => absurd inTable (Table.not_mem_empty post)
  headed := fun _ _ found => nomatch found
  positive := fun _ => Nat.le_refl 1
  consecutive := fun _ => rfl

theorem Numbered.of_pages (numbered : store.Numbered) (posts : after.qaPosts = store.qaPosts)
    (heads : after.qaHeads = store.qaHeads) (pages : store.KeepsPages after) : after.Numbered where
  placed := by
    rw [posts]
    intro post inTable
    obtain ⟨page, found, here⟩ := numbered.placed post inTable
    obtain ⟨later, kept, same⟩ := pages post.pageId page found
    exact ⟨later, kept, same.trans here⟩
  headed := by
    rw [heads]
    intro pageId head counted
    obtain ⟨page, found⟩ := numbered.headed pageId head counted
    obtain ⟨later, kept, -⟩ := pages pageId page found
    exact ⟨later, kept⟩
  positive := by
    simp only [head, heads]
    exact numbered.positive
  consecutive := by
    simp only [postsOn, head, posts, heads]
    exact numbered.consecutive

theorem appendPost_posts {post : QaPostRow} (accepted : store.appendPost post = .ok after)
    (pageId : String) : after.postsOn pageId =
      store.postsOn pageId ++ if post.pageId = pageId then [post] else [] := by
  obtain ⟨-, qaPosts, inserted, rfl⟩ := appendPost_ok accepted
  simp only [postsOn, Table.insert?_rows inserted, List.filter_append, List.filter_cons,
    List.filter_nil, decide_eq_true_eq]

theorem appendPost_head {post : QaPostRow} (accepted : store.appendPost post = .ok after) (pageId : String) :
    after.head pageId = if post.pageId = pageId then post.revision else store.head pageId := by
  obtain ⟨-, qaPosts, -, rfl⟩ := appendPost_ok accepted
  simp only [head, Table.lookup_upsert]
  split
  · cases store.qaHeads.lookup pageId <;> rfl
  · rfl

theorem Numbered.appendPost (numbered : store.Numbered) {post : QaPostRow} {page : PageRow}
    (found : store.pages.lookup post.pageId = some page) (here : page.spaceId = post.spaceId)
    (next : post.revision = store.head post.pageId + 1)
    (accepted : store.appendPost post = .ok after) : after.Numbered := by
  have posts := appendPost_posts accepted
  have heads := appendPost_head accepted
  obtain ⟨-, qaPosts, inserted, rfl⟩ := appendPost_ok accepted
  exact
    { placed := by
        intro other inTable
        rcases (Table.mem_insert? inserted).mp inTable with old | rfl
        · exact numbered.placed other old
        · exact ⟨page, found, here⟩
      headed := by
        intro pageId head counted
        rw [Table.lookup_upsert] at counted
        split at counted
        · rename_i same
          exact ⟨page, same ▸ found⟩
        · exact numbered.headed pageId head counted
      positive := by
        intro pageId
        rw [heads]
        split
        · omega
        · exact numbered.positive pageId
      consecutive := by
        intro pageId
        rw [posts, heads, List.map_append, numbered.consecutive]
        split
        · rename_i same
          have positive := numbered.positive pageId
          -- The range grows by the new head at its end.
          have grown : store.head pageId + 1 - 1 = store.head pageId - 1 + 1 := by omega
          have last : 2 + 1 * (store.head pageId - 1) = store.head pageId + 1 := by omega
          rw [next, same, grown, List.range'_concat, last]
          simp [next, same]
        · simp }

theorem deleteSpace_page {userId spaceId pageId : String} {page : PageRow}
    (found : store.pages.lookup pageId = some page) (elsewhere : page.spaceId ≠ spaceId) :
    (store.deleteSpace userId spaceId).pages.lookup pageId = some page := by
  simp [deleteSpace, found, elsewhere]

def pageIn (store : ContentStore) (spaceId pageId : String) : Bool :=
  (store.pages.lookup pageId).any fun page => page.spaceId = spaceId

theorem deleteSpace_head (store : ContentStore) (userId spaceId pageId : String) :
    (store.deleteSpace userId spaceId).head pageId =
      if store.pageIn spaceId pageId then 1 else store.head pageId := by
  have deleted : (store.deleteSpace userId spaceId).qaHeads.lookup pageId =
      (store.qaHeads.lookup pageId).filter fun head => !store.pageIn spaceId head.pageId :=
    Table.lookup_delete ..
  simp only [head, deleted]
  cases counted : store.qaHeads.lookup pageId with
  | none => simp
  | some head =>
    have id : head.pageId = pageId := (Table.lookup_eq_some_iff.mp counted).2
    rw [Option.filter_some, id]
    cases store.pageIn spaceId pageId <;> rfl

theorem Numbered.deleteSpace_posts (numbered : store.Numbered) (userId spaceId pageId : String) :
    (store.deleteSpace userId spaceId).postsOn pageId =
      if store.pageIn spaceId pageId then [] else store.postsOn pageId := by
  have rows : (store.deleteSpace userId spaceId).qaPosts.rows =
      store.qaPosts.rows.filter fun post => !decide (post.spaceId = spaceId) := rfl
  have together : ∀ post ∈ store.qaPosts.rows, post.pageId = pageId →
      decide (post.spaceId = spaceId) = store.pageIn spaceId pageId := by
    rintro post inTable rfl
    obtain ⟨page, found, here⟩ := numbered.placed post inTable
    simp [pageIn, found, here]
  rw [postsOn, rows, List.filter_filter]
  split
  · rename_i goes
    refine List.filter_eq_nil_iff.mpr ?_
    intro post inTable kept
    obtain ⟨here, stays⟩ : post.pageId = pageId ∧ ¬post.spaceId = spaceId := by simpa using kept
    exact stays (by simpa [goes] using together post inTable here)
  · rename_i stays
    refine List.filter_congr ?_
    intro post inTable
    by_cases here : post.pageId = pageId
    · simp [together post inTable here, stays]
    · simp [here]

theorem Numbered.deleteSpace (numbered : store.Numbered) (userId spaceId : String) :
    (store.deleteSpace userId spaceId).Numbered where
  placed := by
    intro post inTable
    obtain ⟨old, stays⟩ := Table.mem_delete.mp inTable
    obtain ⟨page, found, here⟩ := numbered.placed post old
    refine ⟨page, deleteSpace_page found ?_, here⟩
    simpa [here] using stays
  headed := by
    intro pageId head counted
    have kept := (Table.lookup_delete ..).symm.trans counted
    obtain ⟨old, stays⟩ := Option.filter_eq_some_iff.mp kept
    obtain ⟨page, found⟩ := numbered.headed pageId head old
    have id : head.pageId = pageId := (Table.lookup_eq_some_iff.mp old).2
    exact ⟨page, deleteSpace_page found (by simpa [id, found] using stays)⟩
  positive := by
    intro pageId
    rw [deleteSpace_head]
    split
    · exact Nat.le_refl 1
    · exact numbered.positive pageId
  consecutive := by
    intro pageId
    rw [deleteSpace_head, numbered.deleteSpace_posts]
    split
    · rfl
    · exact numbered.consecutive pageId

theorem contentRevision_post {page : PageRow} {change : ContentChange}
    (asked : change.operation = .qaAppend) : store.contentRevision page change = store.head page.id := by
  cases change with
  | qaAppend body => rfl
  | noteAppend | noteReplace => cases asked

theorem Numbered.mutate (numbered : store.Numbered) {payloadHash : MutationPayload → String}
    {context : SpaceContentRunContext} {mutation : SpaceContentMutation} {drawn : MutationDraws}
    {now : Int} {receipt : ReceiptRow}
    (accepted : store.mutate payloadHash context mutation drawn now = .ok (receipt, after)) :
    after.Numbered := by
  obtain ⟨userId, source, page, allowed, -, -, ⟨-, rfl⟩ | ⟨-, current, -, -, -, changed, receipts,
    applied, -, rfl⟩⟩ := mutate_ok accepted
  · exact numbered
  · have changedNumbered : changed.Numbered := by
      obtain ⟨asked, post, -, onPage, inSpace, next, appended⟩ | ⟨-, body, rfl⟩ :=
        applyChange_ok applied
      · have found := (page_ok allowed.page).2.1
        have id : page.id = (mutation.payload source).pageId := (Table.lookup_eq_some_iff.mp found).2
        rw [contentRevision_post asked] at current
        refine numbered.appendPost ?_ inSpace.symm ?_ appended
        · rwa [onPage, id]
        · rw [next, onPage, current]
      · exact numbered.of_pages rfl rfl (setBody_keepsPages _ _ _ _ _)
    exact changedNumbered.of_pages rfl rfl (.refl _)

theorem Numbered.execute (numbered : store.Numbered) {digests : Digests} {call : ContentCall}
    (accepted : store.execute digests call = .ok after) : after.Numbered := by
  cases call with
  | space operation =>
    obtain ⟨spaces, -, -, rfl⟩ | ⟨userId, spaceId, -, -, rfl⟩ := executeSpace_ok accepted
    · exact numbered.of_pages rfl rfl (.refl _)
    · exact numbered.deleteSpace userId spaceId
  | createPage userId spaceId params id now =>
    obtain ⟨⟨row, _⟩, created, rfl⟩ := Except.map_ok_iff.mp accepted
    have edited := createPage_edits created
    obtain ⟨-, rfl, -⟩ | ⟨-, -, pages, -, rfl⟩ := createPage_ok created
    · exact numbered
    · exact numbered.of_pages rfl rfl edited.pages
  | savePage userId spaceId pageId title body revision now =>
    obtain ⟨⟨row, _⟩, saved, rfl⟩ := Except.map_ok_iff.mp accepted
    have edited := savePage_edits saved
    obtain ⟨page, -, -, -, rfl⟩ := savePage_ok saved
    exact numbered.of_pages rfl rfl edited.pages
  | beginRun userId spaceId pageId runId message =>
    obtain ⟨⟨finished, _⟩, begun, rfl⟩ := Except.map_ok_iff.mp accepted
    obtain ⟨-, -, rfl | ⟨-, -, -, -, -, -, rfl⟩ | ⟨-, -, -, rfl⟩⟩ := beginRun_ok begun
    · exact numbered
    · exact numbered.of_pages rfl rfl (.refl _)
    · exact numbered.of_pages rfl rfl (.refl _)
  | finishRun | failRun | others =>
    cases accepted
    exact numbered.of_pages rfl rfl (.refl _)
  | mutate context mutation drawn now =>
    obtain ⟨⟨receipt, _⟩, mutated, rfl⟩ := Except.map_ok_iff.mp accepted
    exact numbered.mutate mutated

theorem numbered_reachable (digests : Digests) (calls : List ContentCall) :
    ((contentMachine digests).run .empty calls).Numbered :=
  Machine.run_invariant (step_preserves fun _ _ _ numbered accepted => numbered.execute accepted) .empty calls

end PlatformClaw.Spaces.ContentStore
