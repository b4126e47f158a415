import PlatformClaw.Spaces.BodyReading

/-! # The pieces of a body

Whoever follows the offsets of the answers from the beginning reads the body, in pieces that are each as long as the
budget lets them be.
-/

namespace PlatformClaw.Spaces

open BoundedText (Longest WholePairs boundedText takeUnits truncateUtf16Safe)
open ContinuedReading (CutsUp Reads)
open Except (bind_ok_iff)
open ScriptString (charUnits)

section Places

variable {before after piece : List Char} {body : String} {bytes : Nat}

theorem dropUnits_zero (text : List Char) : dropUnits text 0 = text := by
  cases text <;> rfl

theorem dropUnits_append (before after : List Char) :
    dropUnits (before ++ after) (before.flatMap charUnits).length = after := by
  induction before with
  | nil => exact dropUnits_zero after
  | cons c rest ih =>
    have positive := BoundedText.charUnits_pos c
    have step : ∀ offset text, 0 < offset →
        dropUnits (c :: text) offset = dropUnits text (offset - (charUnits c).length) := by
      intro offset text some_
      cases offset with
      | zero => cases some_
      | succ offset => rfl
    rw [List.cons_append, List.flatMap_cons, List.length_append, step _ _ (by omega), Nat.add_sub_cancel_left, ih]

theorem length_split (whole : body.toList = before ++ after) :
    ScriptString.length body = (before.flatMap charUnits).length + (after.flatMap charUnits).length := by
  rw [ScriptString.length, ScriptString.codeUnits, whole, List.flatMap_append, List.length_append]

theorem assertSpaceTextOffset_between (whole : body.toList = before ++ after) :
    assertSpaceTextOffset body (before.flatMap charUnits).length = .ok () := by
  unfold assertSpaceTextOffset
  rw [Except.ensure_ok_iff, truncateUtf16Safe, whole, BoundedText.takeUnits_append, ScriptString.length,
    ScriptString.codeUnits, String.toList_ofList]

/-- Where the next answer begins, if anything is left. -/
def nextOffset (body : String) (shown : Nat) : Option Nat :=
  if shown < ScriptString.length body then some shown else none

theorem reads_body {ε : Type} {answer : Nat → Except ε (List Char × Option Nat)} {refusal : ε → Prop}
    (room : 8 ≤ bytes)
    (answers : ∀ before after, body.toList = before ++ after →
      (∃ error, answer (before.flatMap charUnits).length = .error error ∧ refusal error) ∨
      ∃ piece, Longest bytes piece after ∧ answer (before.flatMap charUnits).length =
        .ok (piece, nextOffset body ((before.flatMap charUnits).length + (piece.flatMap charUnits).length))) :
    ∃ pieces error, Reads answer 0 pieces error ∧
      ((error = none ∧ CutsUp (Longest bytes) body.toList pieces) ∨ ∃ refused, error = some refused ∧ refusal refused) := by
  have reading := @ContinuedReading.reads_of_progress ε Nat Char answer
    (fun place => ∃ before after, body.toList = before ++ after ∧ place = (before.flatMap charUnits).length)
    (dropUnits body.toList) (Longest bytes) refusal
  rw [← dropUnits_zero body.toList]
  apply reading _ ⟨[], body.toList, rfl, rfl⟩
  rintro _ ⟨before, after, whole, rfl⟩
  have left : dropUnits body.toList (before.flatMap charUnits).length = after := by
    rw [whole, dropUnits_append]
  rw [left]
  obtain refused | ⟨piece, longest, answered⟩ := answers before after whole
  · exact .inl refused
  · obtain ⟨rest, rfl⟩ := longest.1
    have size := length_split whole
    rw [List.flatMap_append, List.length_append] at size
    cases rest with
    | nil =>
      rw [List.append_nil] at longest ⊢
      refine .inr (.inl ⟨?_, longest⟩)
      rw [answered, nextOffset, if_neg (by simp only [List.flatMap_nil, List.length_nil] at size; omega)]
    | cons c others =>
      have positive := BoundedText.charUnits_pos c
      rw [List.flatMap_cons, List.length_append] at size
      refine .inr (.inr ⟨piece, _, ?_, ⟨before ++ piece, c :: others, ?_, rfl⟩, ?_, ?_, longest⟩)
      · rw [answered, nextOffset, if_pos (by omega), List.flatMap_append, List.length_append]
      · rw [whole, List.append_assoc]
      · exact longest.some room (by simp)
      · rw [whole, ← List.append_assoc, dropUnits_append]

end Places

/-- What an answer about a post shows of its body, and where to go on. -/
def qaPieces (store : ContentStore) (userId spaceId pageId postId : String) (bytes offset : Nat) :
    Except SpaceError (List Char × Option Nat) :=
  (store.getQa userId spaceId pageId postId offset bytes).map fun post => (post.body.toList, post.nextBodyOffset)

theorem getQa_between {store : ContentStore} {userId spaceId pageId postId : String} {page : PageRow} {row : QaPostRow}
    {bytes : Nat} {before after : List Char} (readable : store.page userId spaceId pageId = .ok page)
    (stored : store.qaPosts.lookup postId = some row) (onPage : row.spaceId = spaceId ∧ row.pageId = pageId)
    (least : 64 ≤ bytes) (most : bytes ≤ 8000) (whole : row.body.toList = before ++ after) :
    store.getQa userId spaceId pageId postId (before.flatMap charUnits).length bytes =
      .ok (projectPost row (before.flatMap charUnits).length bytes) := by
  have size := length_split whole
  have place : (before.flatMap charUnits).length ≤ ScriptString.length row.body := by omega
  have between := assertSpaceTextOffset_between whole
  have found : (some row).filter (fun post => post.spaceId = spaceId ∧ post.pageId = pageId) = some row := by
    simp [Option.filter, onPage]
  simp only [ContentStore.getQa, readable, stored, found, Except.orThrow, Except.ensure, bind, Except.bind, place,
    least, most, and_true, if_true, between]
  rfl

def recallPieces (page : PageRow) (source : SpaceRecallSource) (params : SpaceRecallWindow) (offset : Nat) :
    Except SpaceError (List Char × Option Nat) :=
  (recallPage page source params offset).map fun result => (result.page.body.toList, result.page.nextBodyOffset)

/-- The errors with which a read of a page may be refused, whatever the offset: its window, the messages it asks for,
or the size of the whole answer. -/
def RecallRefusal (source : SpaceRecallSource) (params : SpaceRecallWindow) (error : SpaceError) : Prop :=
  validateSpaceRecallWindow params = .error error ∨ recallMessages source params = .error error ∨
    error = recallBudgetExceeded

section Recall

variable {before after piece : List Char} {page : PageRow} {bytes : Nat}

theorem recallText_longest (text : String) (room : 2 ≤ bytes) :
    Longest bytes (recallText text bytes).toList text.toList := by
  unfold recallText
  split
  · rename_i fits
    refine ⟨List.prefix_rfl, ?_, fun other begins _ => begins⟩
    rw [String.ofList_toList]
    exact fits
  · exact BoundedText.boundedText_longest text room

theorem longest_of_cut (longest : Longest bytes piece (takeUnits after 8000)) (most : bytes ≤ 8000) :
    Longest bytes piece after := by
  refine ⟨longest.1.trans (BoundedText.takeUnits_prefix _ _), longest.2.1, fun other begins fits => ?_⟩
  apply longest.2.2 other _ fits
  obtain ⟨rest, rfl⟩ := begins
  have units := BoundedText.length_add_two_le_jsonBytes (.ofList other)
  rw [ScriptString.length, ScriptString.codeUnits, String.toList_ofList] at units
  have room : (other.flatMap charUnits).length ≤ 8000 := by omega
  have wider := BoundedText.takeUnits_mono (other ++ rest) room
  rw [BoundedText.takeUnits_append] at wider
  exact wider

theorem projectSpacePage_between (whole : page.body.toList = before ++ after) :
    ∃ projected, projectSpacePage page (some (before.flatMap charUnits).length) (some page.revision) = .ok projected ∧
      projected.body = .ofList (takeUnits after 8000) ∧ projected.bodyOffset = (before.flatMap charUnits).length ∧
      projected.nextBodyOffset = nextOffset page.body
        ((before.flatMap charUnits).length + ((takeUnits after 8000).flatMap charUnits).length) := by
  have size := length_split whole
  have place : (before.flatMap charUnits).length ≤ ScriptString.length page.body := by omega
  have rest : dropUnits page.body.toList (before.flatMap charUnits).length = after := by
    rw [whole, dropUnits_append]
  have between := assertSpaceTextOffset_between whole
  have units : ScriptString.length (.ofList (takeUnits after 8000)) =
      ((takeUnits after 8000).flatMap charUnits).length := by
    rw [ScriptString.length, ScriptString.codeUnits, String.toList_ofList]
  simp only [projectSpacePage, Except.ensure, Option.getD_some, Option.all_some, decide_true, Option.isSome_some,
    or_true, place, between, rest, truncateUtf16Safe, String.toList_ofList, units]
  exact ⟨_, rfl, rfl, rfl, rfl⟩

theorem boundPage_between {projected : ProjectedPage} (whole : page.body.toList = before ++ after)
    (cut : projected.body = .ofList (takeUnits after 8000)) (place : projected.bodyOffset = (before.flatMap charUnits).length)
    (next : projected.nextBodyOffset = nextOffset page.body
      ((before.flatMap charUnits).length + ((takeUnits after 8000).flatMap charUnits).length))
    (least : 2 ≤ bytes) (most : bytes ≤ 8000) :
    Longest bytes (boundPage projected bytes).body.toList after ∧
      (boundPage projected bytes).nextBodyOffset = nextOffset page.body
        ((before.flatMap charUnits).length + ((boundPage projected bytes).body.toList.flatMap charUnits).length) := by
  have longest := recallText_longest projected.body least
  rw [cut, String.toList_ofList] at longest
  have inside := length_split whole
  obtain ⟨rest, split⟩ := BoundedText.takeUnits_prefix after 8000
  have part := congrArg (fun chars => (chars.flatMap charUnits).length) split
  simp only [List.flatMap_append, List.length_append] at part
  unfold boundPage
  dsimp only
  rw [cut]
  split
  · rename_i shorter
    refine ⟨longest_of_cut longest most, ?_⟩
    rw [ScriptString.length, ScriptString.length, ScriptString.codeUnits, ScriptString.codeUnits,
      String.toList_ofList] at shorter
    rw [place]
    dsimp only
    rw [nextOffset, if_pos (by omega)]
    rfl
  · rename_i complete
    refine ⟨longest_of_cut longest most, ?_⟩
    obtain ⟨others, more⟩ := longest.1
    have units := congrArg (fun chars => (chars.flatMap charUnits).length) more
    simp only [List.flatMap_append, List.length_append] at units
    rw [ScriptString.length, ScriptString.length, ScriptString.codeUnits, ScriptString.codeUnits,
      String.toList_ofList] at complete
    have same : ((recallText (.ofList (takeUnits after 8000)) bytes).toList.flatMap charUnits).length =
        ((takeUnits after 8000).flatMap charUnits).length := by omega
    rw [next, same]

theorem budget_of_valid {params : SpaceRecallWindow} {done : Unit}
    (valid : validateSpaceRecallWindow params = .ok done) :
    64 ≤ params.bodyLimitBytes.getD 4000 ∧ params.bodyLimitBytes.getD 4000 ≤ 8000 := by
  have range := (Except.ensure_ok_iff.mp valid).2.1
  cases given : params.bodyLimitBytes with
  | none => decide
  | some bytes =>
    rw [given] at range
    simpa using range

theorem projectSpaceRecallResult_cases (source : SpaceRecallSource) (projected : ProjectedPage)
    (params : SpaceRecallWindow) :
    (∃ error, projectSpaceRecallResult source projected params = .error error ∧
      (recallMessages source params = .error error ∨ error = recallBudgetExceeded)) ∨
    ∃ result, projectSpaceRecallResult source projected params = .ok result ∧
      result.page = boundPage projected (params.bodyLimitBytes.getD 4000) := by
  cases messages : recallMessages source params with
  | error error =>
    refine .inl ⟨error, ?_, .inl rfl⟩
    simp only [projectSpaceRecallResult, messages]
    rfl
  | ok shown =>
    simp only [projectSpaceRecallResult, messages, bind, Except.bind]
    split
    · rename_i refused
      exact .inl ⟨_, rfl, .inr (Except.ensure_error refused)⟩
    · exact .inr ⟨_, rfl, rfl⟩

theorem recallPieces_between (source : SpaceRecallSource) (params : SpaceRecallWindow)
    (whole : page.body.toList = before ++ after) :
    (∃ error, recallPieces page source params (before.flatMap charUnits).length = .error error ∧
      RecallRefusal source params error) ∨
    ∃ piece, Longest (params.bodyLimitBytes.getD 4000) piece after ∧
      recallPieces page source params (before.flatMap charUnits).length =
        .ok (piece, nextOffset page.body ((before.flatMap charUnits).length + (piece.flatMap charUnits).length)) := by
  cases valid : validateSpaceRecallWindow params with
  | error error =>
    refine .inl ⟨error, ?_, .inl valid⟩
    simp only [recallPieces, recallPage, valid]
    rfl
  | ok _ =>
    have budget := budget_of_valid valid
    obtain ⟨projected, between, cut, place, further⟩ := projectSpacePage_between whole
    have answer : recallPage page source params (before.flatMap charUnits).length =
        projectSpaceRecallResult source projected params := by
      simp only [recallPage, valid, between]
      rfl
    unfold recallPieces
    rw [answer]
    obtain ⟨error, refused, why⟩ | ⟨result, done, bounded⟩ := projectSpaceRecallResult_cases source projected params
    · rw [refused]
      exact .inl ⟨error, rfl, .inr why⟩
    · rw [done]
      obtain ⟨longest, next⟩ := boundPage_between whole cut place further (by omega) budget.2
      refine .inr ⟨_, longest, ?_⟩
      rw [← next, ← bounded]
      rfl

end Recall

/-- The pieces are the body, each is as long as the budget lets it be, and none splits a surrogate pair. -/
structure Reconstructs (bytes : Nat) (body : String) (pieces : List (List Char)) : Prop extends
    CutsUp (Longest bytes) body.toList pieces where
  pairs : ∀ piece ∈ pieces, WholePairs (piece.flatMap charUnits)

def postedPage : ContentStore :=
  let user : PlatformUserRow := ⟨"alice", "alice", none, .active, .member⟩
  { ContentStore.empty with
    spaces := { SpaceStore.empty with
      platformUsers := [user]
      collaborationSpaces := [⟨"team", "Team", "space-team", "alice", "r0", 1, 0⟩]
      collaborationSpaceMembers := [⟨"team", "alice", .viewer⟩] }
    pages := ⟨[⟨"page", "team", none, "Page", "Question", 1, "alice", "r1", 0⟩], List.pairwise_singleton _ _⟩
    qaPosts := ⟨[⟨"post", "team", "page", 2, "Answer", "alice", "Alice", "claw", "c1", 0⟩],
      List.pairwise_singleton _ _⟩ }

/-- A page whose conversation has one message. -/
def messageSource (id : String) : SpaceRecallSource :=
  { messages := some [⟨id, .user, "Hello", none, none, none⟩] }

theorem recallPieces_of_long {id : String} (long : 16 * 1024 ≤ ScriptString.length id) :
    recallPieces ⟨"page", "team", none, "Page", "Question", 1, "alice", "r1", 0⟩ (messageSource id) {} 0 =
      .error recallBudgetExceeded := by
  have start : assertSpaceTextOffset "Hello" 0 = .ok () := @assertSpaceTextOffset_between [] _ "Hello" rfl
  have text : recallText (.ofList (dropUnits ['H', 'e', 'l', 'l', 'o'] 0)) 800 = "Hello" := by decide +kernel
  have length : ScriptString.length "Hello" = 5 := by decide +kernel
  have messages : recallMessages (messageSource id) {} =
      .ok [⟨⟨id, .user, "Hello", none, none, none⟩, 0, none, false⟩] := by
    simp [recallMessages, selectMessages, messageSource, projectRecallMessage, start, text, length, Except.ensure,
      bind, Except.bind, pure, Except.pure]
  have valid : validateSpaceRecallWindow {} = .ok () := rfl
  have between : ∃ projected, projectSpacePage
      ⟨"page", "team", none, "Page", "Question", 1, "alice", "r1", 0⟩ (some 0) (some 1) = .ok projected := by
    obtain ⟨projected, shown, -⟩ := @projectSpacePage_between [] "Question".toList
      ⟨"page", "team", none, "Page", "Question", 1, "alice", "r1", 0⟩ rfl
    exact ⟨projected, shown⟩
  obtain ⟨projected, between⟩ := between
  have units := BoundedText.length_add_two_le_jsonBytes id
  have size (page : ProjectedPage) (more : Bool) : 16 * 1024 < ScriptJson.byteLength (SpaceRecallResult.json
      ⟨messageSource id, page, [⟨⟨id, .user, "Hello", none, none, none⟩, 0, none, false⟩], more⟩) := by
    simp [SpaceRecallResult.json, RecallMessage.json, member, messageSource]
    omega
  unfold recallPieces recallPage
  simp only [valid, between, bind, Except.bind, projectSpaceRecallResult, messages, Except.ensure]
  rw [if_neg]
  · rfl
  · exact Nat.not_le.mpr (size _ _)

end PlatformClaw.Spaces
