import Mathlib.Data.List.Nodup
import PlatformClaw.Spaces.EditRuns
import PlatformClaw.Spaces.QuestionPages

/-! # One answer of the question reader

The cursor of an answer is read back as it was written, one post always fits, and
so an answer is the next piece of the posts that its snapshot has left.
-/

namespace PlatformClaw.Spaces

open Except (bind_ok_iff)
open BoundedText (jsonBytes)

/-- Identifiers are drawn at random, or name accounts: they stay below 128 bytes. -/
def isShort (id : String) : Prop :=
  jsonBytes id ≤ 130

theorem integer?_natural (number : Nat) : (ScriptJson.Value.number number 0).integer? = some (number : Int) := by
  simp [ScriptJson.Value.integer?]

theorem isSafeInteger_natural {number : Nat} (readable : number ≤ maxSafeInteger) :
    ScriptNumber.isSafeInteger number = true := by
  have small : (number : Int) ≤ ScriptNumber.maxSafeInteger := by
    simp only [maxSafeInteger] at readable
    simp only [ScriptNumber.maxSafeInteger]
    omega
  have large : -ScriptNumber.maxSafeInteger ≤ (number : Int) := by
    simp only [ScriptNumber.maxSafeInteger]
    omega
  simp [ScriptNumber.isSafeInteger, small, large]

theorem byteLength_revision {number : Nat} (readable : number ≤ maxSafeInteger) :
    ScriptJson.byteLength (ScriptJson.natural number) ≤ 16 := by
  have large : maxSafeInteger < 10 ^ 16 := by decide
  exact ScriptJson.byteLength_natural (by decide) (by omega)

theorem cursorBytes_size {pageId : String} {snapshot before : Nat} (short : isShort pageId)
    (readable : snapshot ≤ maxSafeInteger) (below : before ≤ snapshot) :
    (cursorBytes pageId snapshot before).size ≤ 170 := by
  have first := byteLength_revision readable
  have second := byteLength_revision (Nat.le_trans below readable)
  rw [cursorBytes, ScriptJson.size_toUTF8]
  simp [isShort] at short ⊢
  omega

theorem cursorBytes_ne_nil (pageId : String) (snapshot before : Nat) :
    (cursorBytes pageId snapshot before).data.toList ≠ [] := by
  have size : (cursorBytes pageId snapshot before).size ≠ 0 := by
    rw [cursorBytes, ScriptJson.size_toUTF8, ScriptJson.byteLength_array]
    omega
  intro empty
  rw [← ByteArray.size_data, ← Array.length_toList, empty] at size
  exact size rfl

theorem writeCursor_text {pageId : String} {snapshot before : Nat} (short : isShort pageId)
    (readable : snapshot ≤ maxSafeInteger) (below : before ≤ snapshot) :
    ScriptString.length (writeCursor pageId snapshot before) ≤ 512 ∧
      Base64Url.isText (writeCursor pageId snapshot before).toList = true := by
  have size := cursorBytes_size short readable below
  have letters := Base64Url.length_encode (cursorBytes pageId snapshot before).data.toList
  have bytes : (cursorBytes pageId snapshot before).data.toList.length =
      (cursorBytes pageId snapshot before).size := by
    rw [Array.length_toList, ByteArray.size_data]
  rw [writeCursor, String.toList_ofList]
  refine ⟨?_, ?_⟩
  · rw [ScriptString.length, ScriptString.codeUnits, String.toList_ofList,
      ScriptString.length_flatMap_ascii fun c inText => Base64Url.encode_ascii inText]
    omega
  · have some := cursorBytes_ne_nil pageId snapshot before
    simp [Base64Url.isText, Base64Url.encode_letters, Base64Url.encode_ne_nil some]

theorem readCursor_writeCursor {pageId : String} {snapshot before revision : Nat}
    (short : isShort pageId) (readable : snapshot ≤ maxSafeInteger) (current : snapshot ≤ revision)
    (least : 2 ≤ before) (below : before ≤ snapshot) :
    readCursor pageId (writeCursor pageId snapshot before) revision = some (snapshot, before) := by
  obtain ⟨size, letters⟩ := writeCursor_text short readable below
  have decoded : (ByteArray.mk (Base64Url.decode (writeCursor pageId snapshot before).toList).toArray).utf8Decode? =
        some (ScriptJson.array [ScriptJson.string pageId, ScriptJson.natural snapshot,
          ScriptJson.natural before]).toArray := by
    rw [writeCursor, String.toList_ofList, Base64Url.decode_encode, Array.toArray_toList]
    have bytes : ByteArray.mk (cursorBytes pageId snapshot before).data =
        (ScriptJson.array [ScriptJson.string pageId, ScriptJson.natural snapshot,
          ScriptJson.natural before]).utf8Encode := by
      rw [cursorBytes, String.toUTF8_eq_toByteArray, String.toByteArray_ofList]
    rw [bytes, List.utf8Decode?_utf8Encode]
  have safe := isSafeInteger_natural readable
  have safeBefore := isSafeInteger_natural (Nat.le_trans below readable)
  have positive : (1 : Int) ≤ snapshot := by omega
  have least' : (2 : Int) ≤ before := by omega
  simp [readCursor, decoded, Nat.not_lt.mpr size, letters, ScriptJson.parse_array, integer?_natural,
    safe, safeBefore, positive, current, least', below]

/-- What a post has drawn, or was named by, is short: its identifiers and its time. -/
structure QaPostRow.Short (row : QaPostRow) : Prop where
  id : isShort row.id
  space : isShort row.spaceId
  page : isShort row.pageId
  actor : isShort row.actorUserId
  agent : isShort row.agentId
  createdAt : row.createdAt.natAbs < 10 ^ 16

theorem jsonBytes_keys :
    jsonBytes "id" = 4 ∧ jsonBytes "spaceId" = 9 ∧ jsonBytes "pageId" = 8 ∧
      jsonBytes "revision" = 10 ∧ jsonBytes "body" = 6 ∧ jsonBytes "authorId" = 10 ∧
      jsonBytes "authorName" = 12 ∧ jsonBytes "agentId" = 9 ∧ jsonBytes "createdAt" = 11 ∧
      jsonBytes "bodyOffset" = 12 ∧ jsonBytes "nextBodyOffset" = 16 ∧ jsonBytes "truncated" = 11 ∧
      jsonBytes "posts" = 7 ∧ jsonBytes "nextCursor" = 12 ∧ jsonBytes "hasMore" = 9 := by
  decide

theorem byteLength_boolean (flag : Bool) : ScriptJson.byteLength (ScriptJson.boolean flag) ≤ 5 := by
  cases flag <;> decide

theorem projectPost_offset (row : QaPostRow) : ScriptJson.byteLength (ScriptJson.optional ScriptJson.natural
      (projectPost row 0 1000).nextBodyOffset) ≤ 4 := by
  have bounded : jsonBytes (BoundedText.boundedText (.ofList (dropUnits row.body.toList 0)) 1000) ≤
      1000 := BoundedText.jsonBytes_boundedText _ (by decide)
  have units := BoundedText.length_add_two_le_jsonBytes
    (BoundedText.boundedText (.ofList (dropUnits row.body.toList 0)) 1000)
  simp only [projectPost]
  split
  · exact ScriptJson.byteLength_natural (by decide) (by omega)
  · decide

theorem byteLength_projectPost {row : QaPostRow} (short : row.Short)
    (named : jsonBytes row.authorName ≤ 1000) (readable : row.revision ≤ maxSafeInteger) :
    ScriptJson.byteLength (projectPost row 0 1000).json ≤ 3000 := by
  have body : jsonBytes (BoundedText.boundedText (.ofList (dropUnits row.body.toList 0)) 1000) ≤
      1000 := BoundedText.jsonBytes_boundedText _ (by decide)
  have revision := byteLength_revision readable
  have createdAt := ScriptJson.byteLength_integer (by decide) short.createdAt
  have offset := projectPost_offset row
  have truncated := byteLength_boolean (projectPost row 0 1000).truncated
  have zero : ScriptJson.byteLength (ScriptJson.natural 0) = 1 := by decide
  obtain ⟨id, space, page, actor, agent, -⟩ := short
  simp only [isShort] at id space page actor agent
  simp only [projectPost] at offset truncated
  simp only [SpaceQaPost.json, projectPost, ScriptJson.byteLength_object, jsonBytes_keys,
    ScriptJson.byteLength_string, List.map_cons, List.map_nil, List.sum_cons, List.sum_nil,
    List.length_cons, List.length_nil, zero]
  omega

/-- One post stays within what every caller leaves for the posts of a response. -/
theorem byteLength_single {row : QaPostRow} {snapshot budget : Nat} (short : row.Short)
    (named : jsonBytes row.authorName ≤ 1000) (revision : row.revision ≤ snapshot)
    (readable : snapshot ≤ maxSafeInteger) (budget_le : 8192 ≤ budget) :
    ScriptJson.byteLength (SpaceQaList.json
      { posts := [projectPost row 0 1000], revision := snapshot, nextCursor := none,
        hasMore := false }) ≤ budget - 1024 := by
  have post := byteLength_projectPost short named (Nat.le_trans revision readable)
  have number := byteLength_revision readable
  have none : ScriptJson.byteLength (ScriptJson.optional ScriptJson.string none) = 4 := by decide
  have flag := byteLength_boolean false
  simp only [SpaceQaList.json, ScriptJson.byteLength_object, ScriptJson.byteLength_array,
    jsonBytes_keys, List.map_cons, List.map_nil, List.sum_cons, List.sum_nil, List.length_cons,
    List.length_nil, none]
  omega

namespace ContentStore

variable {store after : ContentStore} {spaceId pageId : String} {snapshot before : Nat}

/-- The posts on a page below a revision, the latest first. -/
def remaining (store : ContentStore) (pageId : String) (before : Nat) : List QaPostRow :=
  ((store.postsOn pageId).take (before - 2)).reverse

theorem filter_numbered {rows : List QaPostRow} {first count : Nat}
    (numbered : rows.map (·.revision) = List.range' first count) (before : Nat) :
    (rows.filter fun row => row.revision < before) = rows.take (before - first) := by
  induction rows generalizing first count with
  | nil => simp
  | cons row rest ih =>
    cases count with
    | zero => cases numbered
    | succ count =>
      have revision : row.revision = first := (List.cons.inj numbered).1
      have later := (List.cons.inj numbered).2
      by_cases below : row.revision < before
      · obtain ⟨more, same⟩ : ∃ more, before - first = more + 1 :=
          ⟨before - first - 1, by omega⟩
        have rest' : before - (first + 1) = more := by omega
        rw [List.filter_cons_of_pos (by simpa using below), same, List.take_succ_cons, ih later, rest']
      · have none : before - first = 0 := by omega
        have none' : before - (first + 1) = 0 := by omega
        rw [List.filter_cons_of_neg (by simpa using below), none, ih later, none', List.take_zero, List.take_zero]

theorem mergeSort_growing {rows : List QaPostRow}
    (growing : rows.Pairwise fun early late => early.revision < late.revision) :
    rows.mergeSort (fun left right => right.revision ≤ left.revision) = rows.reverse := by
  have distinct : (rows.map (·.revision)).Nodup :=
    List.pairwise_map.mpr (growing.imp fun less => Nat.ne_of_lt less)
  refine @List.Perm.eq_of_pairwise _ (fun left right => right.revision ≤ left.revision) _ _
    ?_ ?_ ?_ ?_
  · intro left right inSorted inReverse down up
    exact List.inj_on_of_nodup_map distinct (List.mem_mergeSort.mp inSorted)
      (List.mem_reverse.mp inReverse) (Nat.le_antisymm up down)
  · refine (List.pairwise_mergeSort ?_ ?_ rows).imp of_decide_eq_true
    · simp only [decide_eq_true_eq]
      omega
    · simp only [Bool.or_eq_true, decide_eq_true_eq]
      omega
  · exact List.pairwise_reverse.mpr (growing.imp fun less => Nat.le_of_lt less)
  · exact (List.mergeSort_perm rows _).trans (List.reverse_perm rows).symm

theorem Numbered.growing (numbered : store.Numbered) (pageId : String) :
    (store.postsOn pageId).Pairwise fun early late => early.revision < late.revision := by
  refine List.pairwise_map.mp ?_
  rw [numbered.consecutive pageId]
  exact List.pairwise_lt_range'

theorem Numbered.postsBefore (numbered : store.Numbered) {page : PageRow}
    (found : store.pages.lookup pageId = some page) (here : page.spaceId = spaceId)
    (below : before ≤ snapshot + 1) :
    store.postsBefore spaceId pageId snapshot before = store.remaining pageId before := by
  have rows : (store.qaPosts.rows.filter fun post => post.spaceId = spaceId ∧
      post.pageId = pageId ∧ post.revision ≤ snapshot ∧ post.revision < before) =
        (store.postsOn pageId).take (before - 2) := by
    rw [← filter_numbered (numbered.consecutive pageId) before, postsOn, List.filter_filter]
    refine List.filter_congr ?_
    intro post inTable
    obtain ⟨other, owns, placed⟩ := numbered.placed post inTable
    grind
  rw [ContentStore.postsBefore, rows, remaining]
  exact mergeSort_growing ((numbered.growing pageId).sublist (List.take_sublist _ _))

theorem Numbered.remaining_revisions (numbered : store.Numbered) (below : before ≤ store.head pageId + 1) :
    (store.remaining pageId before).map (·.revision) = (List.range' 2 (before - 2)).reverse := by
  have enough : store.head pageId - 1 ≥ before - 2 := by omega
  rw [remaining, List.map_reverse, List.map_take, numbered.consecutive pageId, List.take_range'_of_length_ge enough]

theorem Numbered.remaining_length (numbered : store.Numbered) (below : before ≤ store.head pageId + 1) :
    (store.remaining pageId before).length = before - 2 := by
  simpa using congrArg List.length (numbered.remaining_revisions below)

theorem Numbered.remaining_le (numbered : store.Numbered) (bound : before ≤ store.head pageId + 1) {row : QaPostRow}
    (left : row ∈ store.remaining pageId before) (below : before ≤ snapshot + 1) :
    row.revision ≤ snapshot := by
  have inRange : row.revision ∈ (List.range' 2 (before - 2)).reverse :=
    numbered.remaining_revisions bound ▸ List.mem_map_of_mem left
  rw [List.mem_reverse, List.mem_range'_1] at inRange
  omega

theorem Numbered.remaining_drop (numbered : store.Numbered) (below : before ≤ store.head pageId + 1) (count : Nat) :
    (store.remaining pageId before).drop count = store.remaining pageId (before - count) := by
  have length := numbered.remaining_length below
  simp only [remaining, List.length_reverse] at length ⊢
  have rest : min (before - 2 - count) (before - 2) = before - count - 2 := by omega
  rw [List.drop_reverse, length, List.take_take, rest]

theorem Numbered.remaining_last (numbered : store.Numbered)
    (below : before ≤ store.head pageId + 1) {count : Nat} {row : QaPostRow}
    (some : 1 ≤ count) (many : count ≤ before - 2)
    (last : ((store.remaining pageId before).take count).getLast? = Option.some row) :
    row.revision = before - count := by
  have place : (store.remaining pageId before)[count - 1]? = Option.some row := by
    have length := numbered.remaining_length below
    rwa [List.getLast?_eq_getElem?, List.length_take, length, Nat.min_eq_left many,
      List.getElem?_take_of_lt (by omega)] at last
  have revision := congrArg (·[count - 1]?) (numbered.remaining_revisions below)
  have mirrored : count - 1 + (before - 2 - count) + 1 = (List.range' 2 (before - 2)).length := by
    rw [List.length_range']
    omega
  simp only [List.getElem?_map, place, List.getElem?_reverse' mirrored, Option.map_some] at revision
  rw [List.getElem?_range' (by omega)] at revision
  have same := Option.some.inj revision
  omega

theorem fillPosts_take (snapshot budget : Nat) (posts : List SpaceQaPost) (rows : List QaPostRow) :
    ∃ count, fillPosts snapshot budget posts rows = posts ++ (rows.take count).map (projectPost · 0 1000) := by
  induction rows generalizing posts with
  | nil => exact ⟨0, (List.append_nil posts).symm⟩
  | cons row rest ih =>
    unfold fillPosts
    dsimp only
    split
    · exact ⟨0, (List.append_nil posts).symm⟩
    · obtain ⟨count, filled⟩ := ih (posts ++ [projectPost row 0 1000])
      exact ⟨count + 1, by simp [filled]⟩

theorem fillPosts_some {snapshot budget : Nat} {rows : List QaPostRow}
    (short : ∀ row ∈ rows, row.Short ∧ jsonBytes row.authorName ≤ 1000 ∧ row.revision ≤ snapshot)
    (readable : snapshot ≤ maxSafeInteger) (room : 8192 ≤ budget) :
    ∃ count, 1 ≤ count ∧ fillPosts snapshot (budget - 1024) [] rows =
      (rows.take count).map (projectPost · 0 1000) := by
  cases rows with
  | nil => exact ⟨1, Nat.le_refl 1, rfl⟩
  | cons row rest =>
    obtain ⟨first, named, revision⟩ := short row List.mem_cons_self
    have fits := byteLength_single first named revision readable room
    obtain ⟨count, filled⟩ := fillPosts_take snapshot (budget - 1024) [projectPost row 0 1000] rest
    refine ⟨count + 1, Nat.le_add_left 1 count, ?_⟩
    unfold fillPosts
    dsimp only [List.nil_append]
    rw [if_neg (Nat.not_lt.mpr fits), filled]
    rfl

theorem listQa_ok (numbered : store.Numbered) {userId : String} {page : PageRow}
    (access : store.page userId spaceId pageId = .ok page) {cursor : Option String}
    (start : store.qaStart pageId cursor = some (snapshot, before))
    (current : snapshot ≤ store.head pageId) (below : before ≤ snapshot + 1)
    (readable : snapshot ≤ maxSafeInteger) {limit responseLimitBytes : Nat}
    (limited : 1 ≤ limit ∧ limit ≤ 20) (room : 8192 ≤ responseLimitBytes)
    (posts : ∀ row ∈ store.remaining pageId before, row.Short ∧ jsonBytes row.authorName ≤ 1000) :
    ∃ answer count, store.listQa userId spaceId pageId cursor limit responseLimitBytes = .ok answer ∧
      answer.revision = snapshot ∧
      answer.posts = ((store.remaining pageId before).take count).map (projectPost · 0 1000) ∧
      ((before - 2 ≤ count ∧ answer.nextCursor = none) ∨ (1 ≤ count ∧ count < before - 2 ∧
          answer.nextCursor = some (writeCursor pageId snapshot (before - count)))) := by
  obtain ⟨-, found, here⟩ := page_ok access
  have bound : before ≤ store.head pageId + 1 := by omega
  have length := numbered.remaining_length bound
  have rows := numbered.postsBefore found here below
  have fits : ∀ row ∈ ((store.remaining pageId before).take (limit + 1)).take limit,
      row.Short ∧ jsonBytes row.authorName ≤ 1000 ∧ row.revision ≤ snapshot := by
    intro row inRows
    have left := List.mem_of_mem_take (List.mem_of_mem_take inRows)
    obtain ⟨short, named⟩ := posts row left
    exact ⟨short, named, numbered.remaining_le bound left below⟩
  obtain ⟨filled, positive, filling⟩ := fillPosts_some fits readable room
  have allowed : (store.page userId spaceId pageId).mapError QaListError.refused = .ok page := by
    rw [access]
    rfl
  -- Both the number and the bytes of the response end the first part of what is left.
  obtain ⟨count, counted⟩ : ∃ count, count = min filled limit := ⟨_, rfl⟩
  have taken : (((store.remaining pageId before).take (limit + 1)).take limit).take filled =
      (store.remaining pageId before).take count := by
    have cut : min (min filled limit) (limit + 1) = count := by omega
    rw [List.take_take, List.take_take, cut]
  rw [taken] at filling
  have shown : (((store.remaining pageId before).take count).map (projectPost · 0 1000)).length =
      min count (before - 2) := by
    rw [List.length_map, List.length_take, length]
  have read : ((store.remaining pageId before).take (limit + 1)).length = min (limit + 1) (before - 2) := by
    rw [List.length_take, length]
  by_cases more : count < before - 2
  · have nonempty : (store.remaining pageId before).take count ≠ [] := by
      refine List.ne_nil_of_length_pos ?_
      rw [List.length_take, length]
      omega
    have last := List.getLast?_eq_some_getLast nonempty
    have revision := numbered.remaining_last bound (by omega) (by omega) last
    refine ⟨⟨((store.remaining pageId before).take count).map (projectPost · 0 1000), snapshot,
      some (writeCursor pageId snapshot (before - count)), true⟩, count, ?_, rfl, rfl,
      .inr ⟨by omega, more, rfl⟩⟩
    have longer : min count (before - 2) < min (limit + 1) (before - 2) := by omega
    simp only [listQa, bind_ok_iff, Except.ensure_ok_iff, Except.orThrow_ok_iff]
    refine ⟨page, allowed, (), limited, (snapshot, before), start, ?_⟩
    simp only [rows, filling, shown, read, if_pos longer, List.getLast?_map, last, Option.map_some,
      bind_ok_iff, Except.orThrow_ok_iff]
    refine ⟨_, rfl, ?_⟩
    simp only [projectPost, revision]
    rfl
  · refine ⟨⟨((store.remaining pageId before).take count).map (projectPost · 0 1000), snapshot, none,
      false⟩, count, ?_, rfl, rfl, .inl ⟨by omega, rfl⟩⟩
    have whole : ¬min count (before - 2) < min (limit + 1) (before - 2) := by omega
    simp only [listQa, bind_ok_iff, Except.ensure_ok_iff, Except.orThrow_ok_iff]
    refine ⟨page, allowed, (), limited, (snapshot, before), start, ?_⟩
    simp only [rows, filling, shown, read, if_neg whole]
    rfl

end ContentStore

end PlatformClaw.Spaces
