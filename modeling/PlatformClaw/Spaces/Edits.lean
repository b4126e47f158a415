import PlatformClaw.Spaces.AdmittedRuns

/-! # Edits of pages and posts on them

A page counts its saves and note mutations in its revision, and the questions on
it count their posts in a head of their own. Both counters are exact in every
reachable store: no edit is counted twice, and none is based on a stale revision.
-/

namespace PlatformClaw.Spaces.ContentStore

open Except (bind_ok_iff)

variable {store after : ContentStore} {pageId : String}

/-- The page that a call edits, with the revision the edit is based on: an accepted save, or an
    accepted note mutation whose request has no receipt yet. -/
def edit? (store : ContentStore) (digests : Digests) : ContentCall → Option (String × Nat)
  | .savePage userId spaceId pageId title body revision now =>
    match store.savePage userId spaceId pageId title body revision now with
    | .ok _ => some (pageId, revision)
    | .error _ => none
  | .mutate context mutation drawn now =>
    match store.mutate digests.payloadHash context mutation drawn now with
    | .ok (receipt, _) =>
      if store.receipts.lookup receipt.key = none ∧ receipt.operation ≠ .qaAppend then
        some (receipt.pageId, receipt.previousRevision)
      else none
    | .error _ => none
  | _ => none

/-- How often a call edits a page. -/
def edits (store : ContentStore) (digests : Digests) (call : ContentCall) (pageId : String) : Nat :=
  if (store.edit? digests call).map (·.1) = some pageId then 1 else 0

/-- The accepted edits of a page in a run, counted from when the page came into being. -/
def editCount (digests : Digests) (pageId : String) : ContentStore → Nat → List ContentCall → Nat
  | _, count, [] => count
  | store, count, call :: rest =>
    let counted :=
      if store.pages.lookup pageId = none then 0 else count + store.edits digests call pageId
    editCount digests pageId ((contentMachine digests).step store call) counted rest

/-- A page that is there afterwards has counted the edits of the call, or is new. -/
def Revises (store after : ContentStore) (pageId : String) (edits : Nat) : Prop :=
  ∀ later, after.pages.lookup pageId = some later →
    (∃ page, store.pages.lookup pageId = some page ∧ later.revision = page.revision + edits) ∨
      (store.pages.lookup pageId = none ∧ later.revision = 1)

theorem Revises.of_lookup (kept : ∀ page, after.pages.lookup pageId = some page →
    store.pages.lookup pageId = some page) : Revises store after pageId 0 :=
  fun later found => .inl ⟨later, kept later found, rfl⟩

theorem Revises.of_pages (pages : after.pages = store.pages) : Revises store after pageId 0 :=
  .of_lookup fun _ found => pages ▸ found

theorem setBody_revises {page : PageRow} (found : store.pages.lookup page.id = some page)
    (body : String) (now : Int) (pageId : String) :
    Revises store (store.setBody page.id body (page.revision + 1) now) pageId
      (if page.id = pageId then 1 else 0) := by
  intro later known
  rw [setBody_lookup] at known
  obtain ⟨old, before, rfl⟩ := Option.map_eq_some_iff.mp known
  refine .inl ⟨old, before, ?_⟩
  have id : old.id = pageId := (Table.lookup_eq_some_iff.mp before).2
  by_cases same : page.id = pageId
  · cases (same ▸ found).symm.trans before
    rw [if_pos rfl, if_pos same]
  · rw [if_neg fun named => same (named.symm.trans id), if_neg same, Nat.add_zero]

theorem createPage_revises {userId spaceId id : String} {params : NewPage} {now : Int}
    {row : PageRow} (accepted : store.createPage userId spaceId params id now = .ok (row, after)) :
    Revises store after pageId 0 := by
  obtain ⟨-, rfl, -⟩ | ⟨-, rfl, pages, inserted, rfl⟩ := createPage_ok accepted
  · exact .of_pages rfl
  · intro later found
    have absent := Table.insert?_absent inserted
    rw [Table.lookup_insert? inserted] at found
    split at found
    · rename_i same
      cases found
      exact .inr ⟨same ▸ absent, rfl⟩
    · exact .inl ⟨later, found, rfl⟩

theorem Revises.of_titled {edited title : String} {edits : Nat}
    (revised : Revises (store.setTitle edited title) after pageId edits) :
    Revises store after pageId edits := by
  intro later known
  have titled := setTitle_lookup store edited title pageId
  obtain ⟨page, found, counted⟩ | ⟨absent, first⟩ := revised later known
  · obtain ⟨old, before, rfl⟩ := Option.map_eq_some_iff.mp (titled.symm.trans found)
    refine .inl ⟨old, before, counted.trans ?_⟩
    split <;> rfl
  · exact .inr ⟨Option.map_eq_none_iff.mp (titled.symm.trans absent), first⟩

theorem savePage_revises {userId spaceId edited title body : String} {revision : Nat} {now : Int}
    {row : PageRow}
    (accepted : store.savePage userId spaceId edited title body revision now = .ok (row, after))
    (pageId : String) : Revises store after pageId (if edited = pageId then 1 else 0) := by
  obtain ⟨page, found, -, rfl, rfl⟩ := savePage_ok accepted
  have id : page.id = edited := (Table.lookup_eq_some_iff.mp found).2
  subst id
  have titled : (store.setTitle page.id title).pages.lookup page.id = some { page with title } := by
    rw [setTitle_lookup, found, Option.map_some, if_pos rfl]
  exact Revises.of_titled (@setBody_revises _ { page with title } titled body now pageId)

theorem contentRevision_note {page : PageRow} {change : ContentChange}
    (note : change.operation ≠ .qaAppend) : store.contentRevision page change = page.revision := by
  cases change with
  | qaAppend body => exact absurd rfl note
  | noteAppend | noteReplace => rfl

theorem mutate_revises {payloadHash : MutationPayload → String} {context : SpaceContentRunContext}
    {mutation : SpaceContentMutation} {drawn : MutationDraws} {now : Int} {receipt : ReceiptRow}
    (accepted : store.mutate payloadHash context mutation drawn now = .ok (receipt, after))
    (pageId : String) :
    Revises store after pageId (if (store.receipts.lookup receipt.key = none ∧ receipt.operation ≠ .qaAppend) ∧
        receipt.pageId = pageId then 1 else 0) := by
  obtain ⟨userId, source, page, allowed, key, -, ⟨known, rfl⟩ | ⟨absent, current, operation, target,
    -, changed, receipts, applied, -, rfl⟩⟩ := mutate_ok accepted
  · rw [if_neg (by simp [known])]
    exact .of_pages rfl
  · obtain ⟨asked, post, -, -, -, -, appended⟩ | ⟨note, body, rfl⟩ := applyChange_ok applied
    · obtain ⟨-, qaPosts, -, rfl⟩ := appendPost_ok appended
      rw [if_neg (by simp [operation, asked])]
      exact .of_pages rfl
    · have found := (page_ok allowed.page).2.1
      have id : page.id = (mutation.payload source).pageId := (Table.lookup_eq_some_iff.mp found).2
      rw [contentRevision_note note] at current
      have revised := setBody_revises (id ▸ found) body now pageId
      have counts : ((store.receipts.lookup receipt.key = none ∧ receipt.operation ≠ .qaAppend) ∧
          receipt.pageId = pageId) ↔ page.id = pageId := by
        simp [absent, operation, note, target, id]
      rw [current] at revised
      simp only [counts]
      exact revised

theorem execute_revises {digests : Digests} {call : ContentCall}
    (accepted : store.execute digests call = .ok after) (pageId : String) :
    Revises store after pageId (store.edits digests call pageId) := by
  cases call with
  | space operation =>
    refine .of_lookup ?_
    intro page found
    obtain ⟨spaces, -, -, rfl⟩ | ⟨userId, spaceId, -, -, rfl⟩ := executeSpace_ok accepted
    · exact found
    · have kept := (Table.lookup_delete ..).symm.trans found
      exact (Option.filter_eq_some_iff.mp kept).1
  | createPage userId spaceId params id now =>
    obtain ⟨⟨row, _⟩, created, rfl⟩ := Except.map_ok_iff.mp accepted
    exact createPage_revises created
  | savePage userId spaceId edited title body revision now =>
    obtain ⟨⟨row, _⟩, saved, rfl⟩ := Except.map_ok_iff.mp accepted
    simpa [edits, edit?, saved] using savePage_revises saved pageId
  | beginRun userId spaceId edited runId message =>
    obtain ⟨⟨finished, _⟩, begun, rfl⟩ := Except.map_ok_iff.mp accepted
    obtain ⟨-, -, rfl | ⟨-, -, -, -, -, -, rfl⟩ | ⟨-, -, -, rfl⟩⟩ := beginRun_ok begun
    · exact .of_pages rfl
    · exact .of_pages rfl
    · exact .of_pages rfl
  | finishRun | failRun | others =>
    cases accepted
    exact .of_pages rfl
  | mutate context mutation drawn now =>
    obtain ⟨⟨receipt, _⟩, mutated, rfl⟩ := Except.map_ok_iff.mp accepted
    refine cast (congrArg (Revises store _ pageId) ?_) (mutate_revises mutated pageId)
    simp only [edits, edit?, mutated]
    by_cases edited : store.receipts.lookup receipt.key = none ∧ receipt.operation ≠ .qaAppend
    · simp [edited]
    · simp [edited]

theorem edit?_current {digests : Digests} {call : ContentCall} {base : Nat}
    (edited : store.edit? digests call = some (pageId, base)) :
    ∃ page, store.pages.lookup pageId = some page ∧ page.revision = base := by
  cases call with
  | savePage userId spaceId saved title body revision now =>
    simp only [edit?] at edited
    split at edited
    · rename_i result accepted
      obtain ⟨page, found, -, current, -⟩ := savePage_ok accepted
      cases edited
      exact ⟨page, found, current⟩
    · cases edited
  | mutate context mutation drawn now =>
    simp only [edit?] at edited
    split at edited
    · rename_i receipt changed accepted
      split at edited
      · rename_i counts
        obtain ⟨userId, source, page, allowed, -, -, ⟨known, -⟩ | ⟨-, current, operation, target,
          based, -⟩⟩ := mutate_ok accepted
        · rw [counts.1] at known
          cases known
        · rw [operation] at counts
          rw [contentRevision_note counts.2] at current
          cases edited
          exact ⟨page, target ▸ (page_ok allowed.page).2.1, current.trans based.symm⟩
      · cases edited
    · cases edited
  | space | createPage | beginRun | finishRun | failRun | others => cases edited

theorem edits_rejected {digests : Digests} {call : ContentCall} {error : SpaceError}
    (rejected : store.execute digests call = .error error) (pageId : String) :
    store.edits digests call pageId = 0 := by
  have none : store.edit? digests call = none := by
    cases call with
    | savePage userId spaceId saved title body revision now =>
      simp only [edit?]
      split
      · rename_i accepted
        simp only [execute, accepted] at rejected
        cases rejected
      · rfl
    | mutate context mutation drawn now =>
      simp only [edit?]
      split
      · rename_i accepted
        simp only [execute, accepted] at rejected
        cases rejected
      · rfl
    | space | createPage | beginRun | finishRun | failRun | others => rfl
  rw [edits, none]
  rfl

theorem step_revises (digests : Digests) (store : ContentStore) (call : ContentCall) (pageId : String) :
    Revises store ((contentMachine digests).step store call) pageId (store.edits digests call pageId) := by
  simp only [contentMachine]
  split
  · rename_i accepted
    exact execute_revises accepted pageId
  · rename_i rejected
    rw [edits_rejected rejected]
    exact .of_pages rfl

theorem revision_counts (digests : Digests) (pageId : String) (calls : List ContentCall)
    {store : ContentStore} {count : Nat}
    (counted : ∀ page, store.pages.lookup pageId = some page → page.revision = 1 + count) :
    ∀ page, ((contentMachine digests).run store calls).pages.lookup pageId = some page →
      page.revision = 1 + editCount digests pageId store count calls := by
  induction calls generalizing store count with
  | nil => exact counted
  | cons call rest ih =>
    refine ih ?_
    intro page found
    obtain ⟨earlier, before, revised⟩ | ⟨absent, first⟩ := step_revises digests store call pageId page found
    · rw [revised, counted earlier before, if_neg (by simp [before]), Nat.add_assoc]
    · rw [first, if_pos absent]

end PlatformClaw.Spaces.ContentStore
