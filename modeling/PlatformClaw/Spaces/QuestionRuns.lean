import PlatformClaw.Spaces.QuestionReading

/-! # Reading all questions of a page

A reader follows the cursors from a first page while others write. The answers
are consecutive pieces of what the page held at the first call, each post is in
one of them, and the last answer comes after at most as many calls as posts.
-/

namespace PlatformClaw.Spaces

open Except (bind_ok_iff)
open BoundedText (jsonBytes)

/-- A call for a page of posts, and what is written before the next one. -/
structure ListRequest where
  limit : Nat
  responseLimitBytes : Nat
  later : List ContentCall

/-- Requests as the gateway and the Space tool make them. -/
structure ListRequest.Regular (request : ListRequest) : Prop where
  limited : 1 ≤ request.limit ∧ request.limit ≤ 20
  room : 8192 ≤ request.responseLimitBytes
  writes : ∀ call ∈ request.later, call.writesContent = true

namespace ContentStore

variable {store after : ContentStore} {pageId : String}

def follow (digests : Digests) (userId spaceId pageId : String) :
    ContentStore → Option String → List ListRequest → Except QaListError (List SpaceQaList)
  | _, _, [] => .ok []
  | store, cursor, request :: rest => do
      let answer ← store.listQa userId spaceId pageId cursor request.limit request.responseLimitBytes
      match answer.nextCursor with
      | none => return [answer]
      | some next => do
          let answers ← follow digests userId spaceId pageId
            ((contentMachine digests).run store request.later) (some next) rest
          return answer :: answers

/-- Posts carry the bounded name of their author. -/
def NamesBounded (store : ContentStore) : Prop :=
  ∀ post ∈ store.qaPosts, jsonBytes post.authorName ≤ 1000

theorem NamesBounded.applyChange (bounded : store.NamesBounded)
    {userId agentId sourceId postId : String} {page : PageRow} {revision : Nat} {now : Int}
    {change : ContentChange}
    (accepted : store.applyChange userId agentId sourceId postId page revision now change =
      .ok after) : after.NamesBounded := by
  cases change with
  | qaAppend body =>
    obtain ⟨-, qaPosts, inserted, rfl⟩ := appendPost_ok accepted
    intro post inTable
    rcases (Table.mem_insert? inserted).mp inTable with old | rfl
    · exact bounded post old
    · exact BoundedText.jsonBytes_boundedText _ (by decide)
  | noteAppend | noteReplace =>
    obtain ⟨asked, -⟩ | ⟨-, body, rfl⟩ := applyChange_ok accepted
    · cases asked
    · exact bounded

theorem NamesBounded.execute (bounded : store.NamesBounded) {digests : Digests} {call : ContentCall}
    (accepted : store.execute digests call = .ok after) : after.NamesBounded := by
  cases call with
  | space operation =>
    obtain ⟨spaces, -, -, rfl⟩ | ⟨userId, spaceId, -, -, rfl⟩ := executeSpace_ok accepted
    · exact bounded
    · exact fun post inTable => bounded post (Table.mem_delete.mp inTable).1
  | createPage userId spaceId params id now =>
    obtain ⟨⟨row, _⟩, created, rfl⟩ := Except.map_ok_iff.mp accepted
    obtain ⟨-, rfl, -⟩ | ⟨-, -, pages, -, rfl⟩ := createPage_ok created <;> exact bounded
  | savePage userId spaceId pageId title body revision now =>
    obtain ⟨⟨row, _⟩, saved, rfl⟩ := Except.map_ok_iff.mp accepted
    obtain ⟨page, -, -, -, rfl⟩ := savePage_ok saved
    exact bounded
  | beginRun userId spaceId pageId runId message =>
    obtain ⟨⟨finished, _⟩, begun, rfl⟩ := Except.map_ok_iff.mp accepted
    obtain ⟨-, -, rfl | ⟨-, -, -, -, -, -, rfl⟩ | ⟨-, -, -, rfl⟩⟩ := beginRun_ok begun <;>
      exact bounded
  | finishRun | failRun | others =>
    cases accepted
    exact bounded
  | mutate context mutation drawn now =>
    obtain ⟨⟨receipt, _⟩, mutated, rfl⟩ := Except.map_ok_iff.mp accepted
    obtain ⟨userId, source, page, -, -, -, ⟨-, rfl⟩ | ⟨-, -, -, -, -, changed, receipts, applied,
      -, rfl⟩⟩ := mutate_ok mutated
    · exact bounded
    · have named : changed.NamesBounded := bounded.applyChange applied
      exact named

theorem step_extends (digests : Digests) (store : ContentStore) {call : ContentCall}
    (writes : call.writesContent = true) (pageId : String) :
    store.postsOn pageId <+: ((contentMachine digests).step store call).postsOn pageId := by
  simp only [contentMachine]
  split
  · rename_i accepted
    cases call with
    | createPage userId spaceId params id now =>
      obtain ⟨⟨row, _⟩, created, rfl⟩ := Except.map_ok_iff.mp accepted
      obtain ⟨-, rfl, -⟩ | ⟨-, -, pages, -, rfl⟩ := createPage_ok created <;>
        exact List.prefix_rfl
    | savePage userId spaceId pageId title body revision now =>
      obtain ⟨⟨row, _⟩, saved, rfl⟩ := Except.map_ok_iff.mp accepted
      obtain ⟨page, -, -, -, rfl⟩ := savePage_ok saved
      exact List.prefix_rfl
    | mutate context mutation drawn now =>
      obtain ⟨⟨receipt, _⟩, mutated, rfl⟩ := Except.map_ok_iff.mp accepted
      obtain ⟨userId, source, page, -, -, -, ⟨-, rfl⟩ | ⟨-, -, -, -, -, changed, receipts,
        applied, -, rfl⟩⟩ := mutate_ok mutated
      · exact List.prefix_rfl
      · obtain ⟨-, post, -, -, -, -, appended⟩ | ⟨-, body, rfl⟩ := applyChange_ok applied
        · exact ⟨_, (appendPost_posts appended pageId).symm⟩
        · exact List.prefix_rfl
    | space | beginRun | finishRun | failRun | others => cases writes
  · exact List.prefix_rfl

theorem run_extends (digests : Digests) (store : ContentStore) {calls : List ContentCall}
    (writes : ∀ call ∈ calls, call.writesContent = true) (pageId : String) :
    store.postsOn pageId <+: ((contentMachine digests).run store calls).postsOn pageId := by
  induction calls generalizing store with
  | nil => exact List.prefix_rfl
  | cons call rest ih =>
    have stepped := step_extends digests store (writes call List.mem_cons_self) pageId
    exact stepped.trans (ih _ fun later inRest => writes later (List.mem_cons_of_mem _ inRest))

theorem Numbered.remaining_extends (numbered : store.Numbered) (later : after.Numbered)
    (extended : store.postsOn pageId <+: after.postsOn pageId) {before : Nat}
    (below : before ≤ store.head pageId + 1) :
    store.head pageId ≤ after.head pageId ∧ after.remaining pageId before = store.remaining pageId before := by
  have count : (store.postsOn pageId).length = store.head pageId - 1 := by
    simpa using congrArg List.length (numbered.consecutive pageId)
  have count' : (after.postsOn pageId).length = after.head pageId - 1 := by
    simpa using congrArg List.length (later.consecutive pageId)
  have positive := numbered.positive pageId
  have positive' := later.positive pageId
  have more := extended.length_le
  obtain ⟨added, whole⟩ := extended
  refine ⟨by omega, ?_⟩
  rw [remaining, remaining, ← whole, List.take_append_of_le_length (by omega)]

/-- Answers to requests on the posts of a snapshot: in order and without a repetition, without a
    gap when the last answer has no cursor, and never more of them than posts. -/
structure Exact (snapshot : Nat) (posts : List SpaceQaPost) (requests : List ListRequest)
    (answers : List SpaceQaList) : Prop where
  revision : ∀ answer ∈ answers, answer.revision = snapshot
  once : answers.flatMap (·.posts) <+: posts
  whole : ∀ last, answers.getLast? = some last → last.nextCursor = none → answers.flatMap (·.posts) = posts
  ends : requests ≠ [] → posts.length ≤ requests.length →
    ∃ last, answers.getLast? = some last ∧ last.nextCursor = none

theorem Exact.nil (snapshot : Nat) (posts : List SpaceQaPost) : Exact snapshot posts [] [] where
  revision := fun _ inAnswers => absurd inAnswers List.not_mem_nil
  once := List.nil_prefix
  whole := fun _ last => nomatch last
  ends := fun some => absurd rfl some

theorem Exact.last {answer : SpaceQaList} (requests : List ListRequest)
    (final : answer.nextCursor = none) : Exact answer.revision answer.posts requests [answer] where
  revision := by simp
  once := by simp
  whole := by simp
  ends := fun _ _ => ⟨answer, rfl, final⟩

theorem Exact.cons {answer : SpaceQaList} {request : ListRequest} {rest : List ListRequest}
    {others : List SpaceQaPost} {answers : List SpaceQaList} {next : String}
    (exact : Exact answer.revision others rest answers) (more : answer.nextCursor = some next)
    (some : answer.posts ≠ []) (left : others ≠ []) :
    Exact answer.revision (answer.posts ++ others) (request :: rest) (answer :: answers) where
  revision := List.forall_mem_cons.mpr ⟨rfl, exact.revision⟩
  once := by
    rw [List.flatMap_cons]
    exact (List.prefix_append_right_inj _).mpr exact.once
  whole := by
    intro last found final
    cases answers with
    | nil =>
      have same : answer = last := Option.some.inj found
      cases more.symm.trans (same ▸ final)
    | cons second later =>
      rw [List.getLast?_cons_cons] at found
      rw [List.flatMap_cons, exact.whole last found final]
  ends := by
    intro _ enough
    have positive := List.length_pos_iff.mpr some
    have positive' := List.length_pos_iff.mpr left
    simp only [List.length_append, List.length_cons] at enough
    obtain ⟨last, found, final⟩ := exact.ends (List.ne_nil_of_length_pos (by omega)) (by omega)
    refine ⟨last, ?_, final⟩
    cases answers with
    | nil => cases found
    | cons second later => rwa [List.getLast?_cons_cons]

/-- What one call of a sequence can rely on. -/
structure Readable (store : ContentStore) (userId spaceId pageId : String) (snapshot before : Nat) :
    Prop where
  numbered : store.Numbered
  named : store.NamesBounded
  access : ∃ page, store.page userId spaceId pageId = .ok page
  current : snapshot ≤ store.head pageId
  below : before ≤ snapshot + 1
  short : ∀ row ∈ store.remaining pageId before, row.Short

theorem Readable.listQa {userId spaceId : String} {snapshot before : Nat}
    (readable : store.Readable userId spaceId pageId snapshot before)
    (safe : snapshot ≤ maxSafeInteger) {cursor : Option String}
    (start : store.qaStart pageId cursor = some (snapshot, before)) {request : ListRequest}
    (regular : request.Regular) :
    ∃ answer count, store.listQa userId spaceId pageId cursor request.limit request.responseLimitBytes =
        .ok answer ∧ answer.revision = snapshot ∧
      answer.posts = ((store.remaining pageId before).take count).map (projectPost · 0 1000) ∧
      ((before - 2 ≤ count ∧ answer.nextCursor = none) ∨ (1 ≤ count ∧ count < before - 2 ∧
          answer.nextCursor = some (writeCursor pageId snapshot (before - count)))) := by
  obtain ⟨page, access⟩ := readable.access
  refine listQa_ok readable.numbered access start readable.current readable.below safe regular.limited regular.room ?_
  intro row left
  have inTable : row ∈ store.qaPosts :=
    (List.mem_filter.mp (List.mem_of_mem_take (List.mem_reverse.mp left))).1
  exact ⟨readable.short row left, readable.named row inTable⟩

theorem Readable.next {userId spaceId : String} {snapshot before : Nat}
    (readable : store.Readable userId spaceId pageId snapshot before) (digests : Digests)
    {later : List ContentCall} (writes : ∀ call ∈ later, call.writesContent = true) (count : Nat) :
    ((contentMachine digests).run store later).Readable userId spaceId pageId snapshot (before - count) ∧
      ((contentMachine digests).run store later).remaining pageId (before - count) =
        (store.remaining pageId before).drop count := by
  have bound : before ≤ store.head pageId + 1 :=
    Nat.le_trans readable.below (Nat.succ_le_succ readable.current)
  have numbered : ((contentMachine digests).run store later).Numbered :=
    Machine.run_invariant
      (step_preserves fun _ _ _ numbered accepted => numbered.execute accepted) readable.numbered later
  have named : ((contentMachine digests).run store later).NamesBounded :=
    Machine.run_invariant (step_preserves fun _ _ _ named accepted => named.execute accepted) readable.named later
  obtain ⟨page, access⟩ := readable.access
  have bound' : before - count ≤ store.head pageId + 1 := by omega
  obtain ⟨grown, same⟩ := readable.numbered.remaining_extends numbered
    (run_extends digests store writes pageId) bound'
  have dropped := same.trans (readable.numbered.remaining_drop bound count).symm
  refine ⟨⟨numbered, named, (run_grows digests store writes).page access,
    Nat.le_trans readable.current grown, Nat.le_trans (Nat.sub_le before count) readable.below, ?_⟩,
    dropped⟩
  rw [dropped]
  exact fun row left => readable.short row (List.mem_of_mem_drop left)

theorem qaStart_writeCursor {snapshot before : Nat} (short : isShort pageId)
    (safe : snapshot ≤ maxSafeInteger) (current : snapshot ≤ store.head pageId) (least : 2 ≤ before)
    (below : before ≤ snapshot) :
    store.qaStart pageId (some (writeCursor pageId snapshot before)) = some (snapshot, before) := by
  rw [qaStart]
  exact readCursor_writeCursor short safe current least below

theorem Readable.follow {userId spaceId : String} {snapshot before : Nat} {cursor : Option String}
    {requests : List ListRequest} (readable : store.Readable userId spaceId pageId snapshot before)
    (short : isShort pageId) (safe : snapshot ≤ maxSafeInteger)
    (start : store.qaStart pageId cursor = some (snapshot, before)) (digests : Digests)
    (regular : ∀ request ∈ requests, request.Regular) :
    ∃ answers, ContentStore.follow digests userId spaceId pageId store cursor requests = .ok answers ∧
      Exact snapshot ((store.remaining pageId before).map (projectPost · 0 1000)) requests answers := by
  induction requests generalizing store cursor before with
  | nil => exact ⟨[], rfl, .nil _ _⟩
  | cons request rest ih =>
    obtain ⟨first, others⟩ := List.forall_mem_cons.mp regular
    obtain ⟨answer, count, answered, rfl, posts, cases⟩ := readable.listQa safe start first
    have length := readable.numbered.remaining_length
      (Nat.le_trans readable.below (Nat.succ_le_succ readable.current))
    rcases cases with ⟨whole, final⟩ | ⟨some, more, next⟩
    · refine ⟨[answer], bind_ok_iff.mpr ⟨answer, answered, by rw [final]; rfl⟩, ?_⟩
      rw [List.take_of_length_le (by omega)] at posts
      exact posts ▸ .last _ final
    · obtain ⟨later, dropped⟩ := readable.next digests first.writes count
      have below := readable.below
      have least : 2 ≤ before - count := by omega
      have started := qaStart_writeCursor short safe later.current least (by omega)
      obtain ⟨answers, followed, exact⟩ := ih later started others
      refine ⟨answer :: answers, bind_ok_iff.mpr ⟨answer, answered, ?_⟩, ?_⟩
      · rw [next]
        exact bind_ok_iff.mpr ⟨answers, followed, rfl⟩
      · rw [dropped] at exact
        have split := congrArg (List.map (projectPost · 0 1000))
          (List.take_append_drop count (store.remaining pageId before))
        rw [List.map_append, ← posts] at split
        rw [← split]
        refine exact.cons next ?_ ?_
        · rw [posts]
          refine List.ne_nil_of_length_pos ?_
          rw [List.length_map, List.length_take, length]
          omega
        · refine List.ne_nil_of_length_pos ?_
          rw [List.length_map, List.length_drop, length]
          omega

theorem Numbered.length_postsOn (numbered : store.Numbered) (pageId : String) :
    (store.postsOn pageId).length = store.head pageId - 1 := by
  simpa using congrArg List.length (numbered.consecutive pageId)

theorem Numbered.remaining_all (numbered : store.Numbered) (pageId : String) :
    store.remaining pageId (store.head pageId + 1) = (store.postsOn pageId).reverse := by
  have length := numbered.length_postsOn pageId
  rw [remaining, List.take_of_length_le (by omega)]

theorem Numbered.snapshot (numbered : store.Numbered) (digests : Digests)
    {later : List ContentCall} (writes : ∀ call ∈ later, call.writesContent = true)
    (pageId : String) :
    (((contentMachine digests).run store later).postsOn pageId).filter
      (fun post => post.revision < store.head pageId + 1) = store.postsOn pageId := by
  have after : ((contentMachine digests).run store later).Numbered :=
    Machine.run_invariant (step_preserves fun _ _ _ numbered accepted => numbered.execute accepted) numbered later
  have length := numbered.length_postsOn pageId
  obtain ⟨added, whole⟩ := run_extends digests store writes pageId
  rw [filter_numbered (after.consecutive pageId), ← whole, List.take_left' (by omega)]

theorem projected_descending {rows : List QaPostRow}
    (growing : rows.Pairwise fun early late => early.revision < late.revision) :
    (rows.reverse.map (projectPost · 0 1000)).Pairwise
      fun early late => late.revision < early.revision :=
  List.pairwise_map.mpr (List.pairwise_reverse.mpr growing)

/-- Following the cursors from a first page gives the posts of its snapshot, each once and the
    latest first, and ends. Identifiers are drawn short, and the store reads safe integers only. -/
theorem follow_exact {digests : Digests}
    (reached : (contentMachine digests).Reachable .empty store) {userId spaceId : String}
    {page : PageRow} (access : store.page userId spaceId pageId = .ok page) (short : isShort pageId)
    (drawn : ∀ post ∈ store.postsOn pageId, post.Short) (safe : store.head pageId ≤ maxSafeInteger)
    {requests : List ListRequest} (regular : ∀ request ∈ requests, request.Regular) :
    (∃ answers, follow digests userId spaceId pageId store none requests = .ok answers ∧
      Exact (store.head pageId) ((store.postsOn pageId).reverse.map (projectPost · 0 1000)) requests answers ∧
      (answers.flatMap (·.posts)).Pairwise fun early late => late.revision < early.revision) ∧
    ∀ later, (∀ call ∈ later, call.writesContent = true) →
      (((contentMachine digests).run store later).postsOn pageId).filter
        (fun post => post.revision < store.head pageId + 1) = store.postsOn pageId := by
  obtain ⟨calls, rfl⟩ := reached
  have numbered := numbered_reachable digests calls
  have named : ((contentMachine digests).run .empty calls).NamesBounded :=
    Machine.run_invariant (step_preserves fun _ _ _ named accepted => named.execute accepted)
      (fun post inTable => absurd inTable (Table.not_mem_empty post)) calls
  refine ⟨?_, fun later writes => numbered.snapshot digests writes pageId⟩
  have all := numbered.remaining_all pageId
  have readable : ((contentMachine digests).run .empty calls).Readable userId spaceId pageId _ _ :=
    ⟨numbered, named, ⟨page, access⟩, Nat.le_refl _, Nat.le_refl _, by
      rw [all]
      exact fun row left => drawn row (List.mem_reverse.mp left)⟩
  have start : ((contentMachine digests).run .empty calls).qaStart pageId none = some (_, _) := rfl
  obtain ⟨answers, followed, exact⟩ := readable.follow short safe start digests regular
  rw [all] at exact
  exact ⟨answers, followed, exact, (projected_descending (numbered.growing pageId)).sublist exact.once.sublist⟩

end ContentStore

namespace AskedPage

open SavedPage (alice params digests)

def conversations : Table ConversationRow.key :=
  ⟨[⟨"conversation", "space", "page", "alice", "agent", "session"⟩], by decide⟩

def personalBindings : Table PersonalBindingRow.key :=
  ⟨[⟨"agent", "alice"⟩], by decide⟩

def question (revision : Nat) (body : String) : ContentCall :=
  .mutate ⟨"agent", "session", "run", "admission"⟩ ⟨none, none, revision, body, .qaAppend body⟩
    ⟨"post " ++ body, "receipt " ++ body⟩ 0

def calls : List ContentCall :=
  [.space (.createUser alice), .space (.create "alice" "Space" "request" "space" 0),
    .createPage "alice" "space" params "page" 0, .others conversations personalBindings,
    question 1 "first", question 2 "second"]

def store : ContentStore :=
  (contentMachine digests).run .empty calls

def post (revision : Nat) (body : String) : QaPostRow :=
  ⟨"post " ++ body, "space", "page", revision, body, "alice", "alice", "agent", "conversation", 0⟩

theorem posts_eq : store.postsOn "page" = [post 2 "first", post 3 "second"] := by
  rfl

theorem posts_short : ∀ row ∈ [post 2 "first", post 3 "second"], row.Short := by
  have texts : isShort "post first" ∧ isShort "post second" ∧ isShort "space" ∧ isShort "page" ∧
      isShort "alice" ∧ isShort "agent" := by
    simp only [isShort]
    decide
  obtain ⟨first, second, space, page, alice, agent⟩ := texts
  intro row found
  simp only [List.mem_cons, List.not_mem_nil, or_false] at found
  rcases found with rfl | rfl
  · exact ⟨first, space, page, alice, agent, by decide⟩
  · exact ⟨second, space, page, alice, agent, by decide⟩

/-- Two requests for one post each, while a third question is asked. -/
def requests : List ListRequest :=
  [⟨1, 8192, [question 3 "third"]⟩, ⟨1, 8192, []⟩]

theorem requests_regular : ∀ request ∈ requests, request.Regular := by
  intro request found
  simp only [requests, List.mem_cons, List.not_mem_nil, or_false] at found
  rcases found with rfl | rfl
  · exact ⟨by decide, by decide, by simp [question, ContentCall.writesContent]⟩
  · exact ⟨by decide, by decide, by simp⟩

end AskedPage

open AskedPage in
/-- Both posts of the snapshot are returned, and the third one is not. -/
theorem askedPage_followed :
    ∃ answers, store.follow SavedPage.digests "alice" "space" "page" none requests = .ok answers ∧
      answers.flatMap (·.posts) = [projectPost (post 3 "second") 0 1000,
        projectPost (post 2 "first") 0 1000] := by
  have access : store.page "alice" "space" "page" = .ok SavedPage.page := by rfl
  have reached : (contentMachine SavedPage.digests).Reachable .empty store := ⟨calls, rfl⟩
  obtain ⟨⟨answers, followed, exact, -⟩, -⟩ := ContentStore.follow_exact reached access
    (posts_short _ List.mem_cons_self).page (posts_eq ▸ posts_short) (by decide) requests_regular
  rw [posts_eq] at exact
  obtain ⟨last, found, final⟩ := exact.ends (List.cons_ne_nil _ _) (by decide)
  exact ⟨answers, followed, exact.whole last found final⟩

end PlatformClaw.Spaces
