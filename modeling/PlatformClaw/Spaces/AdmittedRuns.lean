import PlatformClaw.Spaces.ContentEffects
import PlatformClaw.Spaces.Effects

/-! # Who may have an active run

Role changes, departures, deletions and run starts each write another table. The
invariant below ties the tables together, and every accepted call restores it.
-/

namespace PlatformClaw.Spaces

open Except (bind_ok_iff)

namespace SpaceStore

variable {store after : SpaceStore} {spaceId userId : String}

def MayEdit (store : SpaceStore) (spaceId userId : String) : Prop :=
  store.deleting spaceId = false ∧ ∃ member, store.member? spaceId userId = some member ∧
      SpaceRole.editor.rank ≤ member.role.rank

/-- What ties runs and departures to the memberships. -/
structure Admitted (store : SpaceStore) : Prop where
  runs : ∀ run ∈ store.collaborationSpaceRuns, run.state = .active → store.MayEdit run.spaceId run.userId
  departed : ∀ spaceId userId departure, store.departure? spaceId userId = some departure →
    departure.pending = true → store.member? spaceId userId = none
  /-- A departure counted as a revision of its Space. -/
  counted : ∀ spaceId userId departure, store.departure? spaceId userId = some departure →
    ∃ space, store.space? spaceId = some space ∧ departure.revision < space.revision
  placed : ∀ spaceId userId, store.member? spaceId userId ≠ none → store.space? spaceId ≠ none

theorem Admitted.empty : SpaceStore.empty.Admitted where
  runs := by simp [SpaceStore.empty]
  departed := fun _ _ _ found => nomatch found
  counted := fun _ _ _ found => nomatch found
  placed := fun _ _ given => absurd rfl given

theorem Admitted.changeMember_runs (admitted : store.Admitted) (space : SpaceRow)
    (memberId : String) (role : Option SpaceRole) :
    ∀ run ∈ (store.changeMember space memberId role).collaborationSpaceRuns, run.state = .active →
      (store.changeMember space memberId role).MayEdit run.spaceId run.userId := by
  intro run inRuns active
  rw [SpaceStore.changeMember_runs] at inRuns
  obtain ⟨inTable, unconcerned⟩ := active_of_revokeRuns inRuns active
  obtain ⟨kept, member, found, rank⟩ := admitted.runs run inTable active
  refine ⟨by rwa [(changeMember_frame store space memberId role).1], ?_⟩
  rw [changeMember_member?]
  split
  · rename_i here
    have writes : withoutRuns role = false := by simpa [here] using unconcerned
    cases role with
    | none => cases writes
    | some role =>
      refine ⟨_, rfl, ?_⟩
      cases role with
      | viewer => cases writes
      | editor => exact Nat.le_refl _
      | owner => exact Nat.le_succ _
  · exact ⟨member, found, rank⟩

theorem Admitted.changeMember_departed (admitted : store.Admitted) (space : SpaceRow)
    (memberId : String) (role : Option SpaceRole) {departure : SpaceDepartureRow}
    (found : store.departure? spaceId userId = some departure) (pending : departure.pending = true)
    (settled : role ≠ none → (store.departure? space.id memberId).all fun departure => departure.pending = false) :
    (store.changeMember space memberId role).member? spaceId userId = none := by
  rw [changeMember_member?]
  split
  · rename_i here
    obtain ⟨rfl, rfl⟩ := here
    cases role with
    | none => rfl
    | some role =>
      have finished : departure.pending = false := by simpa [found] using settled
      rw [pending] at finished
      cases finished
  · exact admitted.departed spaceId userId departure found pending

theorem Admitted.changeMember_placed (admitted : store.Admitted) {space : SpaceRow}
    (here : store.space? space.id = some space) (memberId : String) (role : Option SpaceRole)
    (given : (store.changeMember space memberId role).member? spaceId userId ≠ none) :
    (store.changeMember space memberId role).space? spaceId ≠ none := by
  rw [changeMember_space?, ne_eq, Option.map_eq_none_iff]
  rw [changeMember_member?] at given
  split at given
  · rename_i both
    rw [both.1, here]
    exact Option.some_ne_none space
  · exact admitted.placed spaceId userId given

theorem Admitted.created (admitted : store.Admitted) {space : SpaceRow} (fresh : store.space? space.id = none) :
    (store.addSpace space).Admitted where
  runs := by
    intro run inRuns active
    obtain ⟨kept, member, found, rank⟩ := admitted.runs run inRuns active
    exact ⟨kept, member, by rw [addSpace_member?, found, Option.some_or], rank⟩
  departed := by
    intro spaceId userId departure found pending
    obtain ⟨row, here, -⟩ := admitted.counted spaceId userId departure found
    have apart : space.id ≠ spaceId := by
      rintro rfl
      rw [here] at fresh
      cases fresh
    rw [addSpace_member?, if_neg fun same => apart same.1, Option.or_none]
    exact admitted.departed spaceId userId departure found pending
  counted := by
    intro spaceId userId departure found
    obtain ⟨row, here, less⟩ := admitted.counted spaceId userId departure found
    exact ⟨row, by rw [addSpace_space?, here, Option.some_or], less⟩
  placed := by
    intro spaceId userId given missing
    rw [addSpace_space?, Option.or_eq_none_iff] at missing
    rw [addSpace_member?, if_neg fun same => by simp [same.1] at missing, Option.or_none] at given
    exact admitted.placed spaceId userId given missing.1

theorem Admitted.effect (admitted : store.Admitted) (effect : Effect store after) : after.Admitted := by
  have counted : ∀ spaceId userId departure, store.departure? spaceId userId = some departure →
      ∃ space, after.space? spaceId = some space ∧ departure.revision < space.revision := by
    intro spaceId userId departure found
    obtain ⟨space, here, less⟩ := admitted.counted spaceId userId departure found
    obtain ⟨later, kept, atLeast, -⟩ := effect.revisions here
    exact ⟨later, kept, Nat.lt_of_lt_of_le less atLeast⟩
  cases effect with
  | accounts platformUsers =>
    exact ⟨admitted.runs, admitted.departed, counted, admitted.placed⟩
  | created space fresh => exact admitted.created fresh
  | memberSet space memberId role here settled =>
    have departures := (changeMember_frame store space memberId role).2
    exact
      { runs := admitted.changeMember_runs space memberId role
        departed := by
          rw [departures]
          intro spaceId userId departure found pending
          exact admitted.changeMember_departed space memberId role found pending fun _ => settled
        counted := by rwa [departures]
        placed := fun spaceId userId => admitted.changeMember_placed here memberId role }
  | departed space leaver here =>
    obtain ⟨departures, same⟩ := upsertDeparture_frame
      (store.changeMember space leaver none) space.id leaver space.revision
    have written := fun inSpace user => departure?_upsertDeparture
      (store.changeMember space leaver none) space.id leaver inSpace user space.revision
    rw [same] at counted written ⊢
    rw [(changeMember_frame store space leaver none).2] at written
    exact
      { runs := admitted.changeMember_runs space leaver none
        departed := by
          intro spaceId userId departure found pending
          rw [written] at found
          split at found
          · rename_i both
            exact (changeMember_member? ..).trans (if_pos both)
          · exact admitted.changeMember_departed space leaver none found pending
              fun given => absurd rfl given
        counted := by
          intro spaceId userId departure found
          rw [written] at found
          split at found
          · rename_i both
            cases found
            refine ⟨_, (changeMember_space? ..).trans (congrArg _ (both.1 ▸ here)), ?_⟩
            rw [revise_counts here here, if_pos rfl]
            exact Nat.lt_succ_self _
          · exact counted spaceId userId departure found
        placed := fun spaceId userId => admitted.changeMember_placed here leaver none }
  | departureFinished leaver inSpace revision =>
    have finished : ∀ spaceId userId departure,
        (store.finishLeave leaver inSpace revision).departure? spaceId userId = some departure →
          ∃ earlier, store.departure? spaceId userId = some earlier ∧ departure.revision = earlier.revision ∧
            (departure.pending = true → earlier.pending = true) := by
      intro spaceId userId departure found
      rw [departure?_finishLeave] at found
      obtain ⟨earlier, known, rfl⟩ := Option.map_eq_some_iff.mp found
      refine ⟨earlier, known, ?_⟩
      split
      · exact ⟨rfl, fun pending => nomatch pending⟩
      · exact ⟨rfl, id⟩
    exact
      { runs := admitted.runs
        departed := by
          intro spaceId userId departure found pending
          obtain ⟨earlier, known, -, stillPending⟩ := finished spaceId userId departure found
          exact admitted.departed spaceId userId earlier known (stillPending pending)
        counted := by
          intro spaceId userId departure found
          obtain ⟨earlier, known, same, -⟩ := finished spaceId userId departure found
          exact same ▸ counted spaceId userId earlier known
        placed := admitted.placed }
  | deletionBegun space deletion here same =>
    exact
      { runs := by
          intro run inRuns active
          obtain ⟨inTable, elsewhere⟩ := active_of_revokeRuns inRuns active
          obtain ⟨kept, member, found, rank⟩ := admitted.runs run inTable active
          refine ⟨?_, member, found, rank⟩
          have apart : deletion.spaceId ≠ run.spaceId := by
            rw [same]
            exact fun named => by simp [named] at elsewhere
          exact (List.any_append ..).trans (by rw [← deleting, kept]; simp [apart])
        departed := admitted.departed
        counted := counted
        placed := by
          intro spaceId userId given
          have revised := space?_setRevision store space.id spaceId (space.revision + 1)
          refine fun missing => admitted.placed spaceId userId given ?_
          exact Option.map_eq_none_iff.mp (revised.symm.trans missing) }

theorem mayEdit_of_access {space : Space}
    (granted : store.access userId spaceId .editor = .ok space) : store.MayEdit spaceId userId := by
  obtain ⟨-, rank, member, found, role⟩ := access_ok granted
  exact ⟨(access_reads granted).1, member, found, role ▸ rank⟩

theorem Admitted.withRuns (admitted : store.Admitted) {runs : List SpaceRunRow}
    (allowed : ∀ run ∈ runs, run.state = .active → store.MayEdit run.spaceId run.userId) :
    ({ store with collaborationSpaceRuns := runs } : SpaceStore).Admitted where
  runs := allowed
  departed := admitted.departed
  counted := admitted.counted
  placed := admitted.placed

theorem Admitted.finishDelete (admitted : store.Admitted) (deleter deleted : String) :
    (store.finishDelete deleter deleted).Admitted where
  runs := by
    intro run inRuns active
    obtain ⟨inTable, elsewhere⟩ := List.mem_filter.mp inRuns
    obtain ⟨kept, member, found, rank⟩ := admitted.runs run inTable active
    refine ⟨by rwa [finishDelete_deleting], member, ?_, rank⟩
    rwa [finishDelete_member?, if_neg (by simpa using elsewhere)]
  departed := by
    intro spaceId userId departure found pending
    rw [finishDelete_departure?] at found
    rw [finishDelete_member?]
    split at found
    · cases found
    · rename_i elsewhere
      rw [if_neg elsewhere]
      exact admitted.departed spaceId userId departure found pending
  counted := by
    intro spaceId userId departure found
    rw [finishDelete_departure?] at found
    rw [finishDelete_space?]
    split at found
    · cases found
    · rename_i elsewhere
      rw [if_neg elsewhere]
      exact admitted.counted spaceId userId departure found
  placed := by
    intro spaceId userId given
    rw [finishDelete_member?] at given
    rw [finishDelete_space?]
    split at given
    · exact absurd rfl given
    · rename_i elsewhere
      rw [if_neg elsewhere]
      exact admitted.placed spaceId userId given

/-- Only registry removal takes runs out of the table, and every other call keeps what
    identifies them. -/
theorem Effect.runs_mapped (effect : Effect store after) : ∃ change : SpaceRunRow → SpaceRunRow,
    after.collaborationSpaceRuns = store.collaborationSpaceRuns.map change ∧
      ∀ run, (change run).runId = run.runId ∧ (change run).spaceId = run.spaceId := by
  have revoked (concerned : SpaceRunRow → Bool) (run : SpaceRunRow) :
      (if concerned run ∧ run.state = .active then { run with state := .revoked } else run).runId = run.runId ∧
        (if concerned run ∧ run.state = .active then { run with state := .revoked }
          else run).spaceId = run.spaceId := by
    split <;> exact ⟨rfl, rfl⟩
  cases effect with
  | accounts | created | departureFinished =>
    exact ⟨id, (List.map_id _).symm, fun run => ⟨rfl, rfl⟩⟩
  | memberSet space memberId role =>
    exact ⟨_, changeMember_runs store space memberId role, revoked _⟩
  | departed space leaver =>
    obtain ⟨departures, same⟩ := upsertDeparture_frame
      (store.changeMember space leaver none) space.id leaver space.revision
    rw [same]
    exact ⟨_, changeMember_runs store space leaver none, revoked _⟩
  | deletionBegun space deletion => exact ⟨_, rfl, revoked _⟩

end SpaceStore

namespace ContentStore

variable {store after : ContentStore}

/-- Runs have distinct ids, and each was admitted for a page of its Space. -/
structure RunsPlaced (store : ContentStore) : Prop where
  keyed : store.spaces.collaborationSpaceRuns.Pairwise fun a b => a.runId ≠ b.runId
  admissions : ∀ run ∈ store.spaces.collaborationSpaceRuns, ∃ admission page,
    store.runAdmissions.lookup run.runId = some admission ∧
      store.pages.lookup admission.pageId = some page ∧ page.spaceId = run.spaceId

theorem RunsPlaced.empty : ContentStore.empty.RunsPlaced where
  keyed := .nil
  admissions := by simp [ContentStore.empty, SpaceStore.empty]

/-- Every page is still there, in the same Space. -/
def KeepsPages (store after : ContentStore) : Prop :=
  ∀ pageId page, store.pages.lookup pageId = some page →
    ∃ later, after.pages.lookup pageId = some later ∧ later.spaceId = page.spaceId

theorem RunsPlaced.map_runs (placed : store.RunsPlaced) {change : SpaceRunRow → SpaceRunRow}
    (keeps : ∀ run, (change run).runId = run.runId ∧ (change run).spaceId = run.spaceId)
    (runs : after.spaces.collaborationSpaceRuns = store.spaces.collaborationSpaceRuns.map change)
    (admissions : after.runAdmissions = store.runAdmissions) (pages : store.KeepsPages after) :
    after.RunsPlaced where
  keyed := by
    rw [runs]
    refine List.pairwise_map.mpr (placed.keyed.imp fun {a b} apart => ?_)
    rwa [(keeps a).1, (keeps b).1]
  admissions := by
    rw [runs, admissions]
    intro run inRuns
    obtain ⟨old, inTable, rfl⟩ := List.mem_map.mp inRuns
    obtain ⟨admission, page, admitted, found, here⟩ := placed.admissions old inTable
    obtain ⟨later, kept, same⟩ := pages admission.pageId page found
    rw [(keeps old).1, (keeps old).2]
    exact ⟨admission, later, admitted, kept, same.trans here⟩

theorem KeepsPages.refl (store : ContentStore) : store.KeepsPages store :=
  fun _ page found => ⟨page, found, rfl⟩

theorem RunsPlaced.of_pages (placed : store.RunsPlaced) (spaces : after.spaces = store.spaces)
    (admissions : after.runAdmissions = store.runAdmissions) (pages : store.KeepsPages after) :
    after.RunsPlaced := by
  have same : after.spaces.collaborationSpaceRuns = store.spaces.collaborationSpaceRuns.map id := by
    rw [List.map_id, spaces]
  exact placed.map_runs (fun run => ⟨rfl, rfl⟩) same admissions pages

theorem KeepsPages.trans {middle : ContentStore} (early : store.KeepsPages middle)
    (late : middle.KeepsPages after) : store.KeepsPages after := by
  intro pageId page found
  obtain ⟨between, kept, same⟩ := early pageId page found
  obtain ⟨later, kept', same'⟩ := late pageId between kept
  exact ⟨later, kept', same'.trans same⟩

theorem setBody_keepsPages (store : ContentStore) (pageId body : String) (revision : Nat)
    (now : Int) : store.KeepsPages (store.setBody pageId body revision now) := by
  intro id page found
  refine ⟨_, (setBody_lookup ..).trans (congrArg _ found), ?_⟩
  dsimp only
  split <;> rfl

theorem setTitle_keepsPages (store : ContentStore) (pageId title : String) :
    store.KeepsPages (store.setTitle pageId title) := by
  intro id page found
  refine ⟨_, (setTitle_lookup ..).trans (congrArg _ found), ?_⟩
  dsimp only
  split <;> rfl

theorem insertPage_keepsPages {row : PageRow} {pages : Table PageRow.key}
    (inserted : store.pages.insert? row = some pages) : store.KeepsPages { store with pages } := by
  intro pageId page found
  refine ⟨page, ?_, rfl⟩
  rw [Table.lookup_insert? inserted, if_neg, found]
  rintro rfl
  rw [Table.insert?_absent inserted] at found
  cases found

/-- A change of contents: memberships and runs stay, and so do the pages. -/
structure EditsContent (store after : ContentStore) : Prop where
  spaces : after.spaces = store.spaces
  runAdmissions : after.runAdmissions = store.runAdmissions
  pages : store.KeepsPages after

theorem EditsContent.refl (store : ContentStore) : EditsContent store store :=
  ⟨rfl, rfl, .refl store⟩

theorem createPage_edits {userId spaceId id : String} {params : NewPage} {now : Int}
    {row : PageRow} (accepted : store.createPage userId spaceId params id now = .ok (row, after)) :
    EditsContent store after := by
  obtain ⟨-, rfl, -⟩ | ⟨-, -, pages, inserted, rfl⟩ := createPage_ok accepted
  · exact .refl _
  · exact ⟨rfl, rfl, insertPage_keepsPages inserted⟩

theorem savePage_edits {userId spaceId pageId title body : String} {revision : Nat} {now : Int}
    {row : PageRow}
    (accepted : store.savePage userId spaceId pageId title body revision now = .ok (row, after)) :
    EditsContent store after := by
  obtain ⟨page, -, -, -, rfl⟩ := savePage_ok accepted
  exact ⟨rfl, rfl, (setTitle_keepsPages store pageId title).trans (setBody_keepsPages _ _ _ _ _)⟩

theorem applyChange_edits {userId agentId sourceId postId : String} {page : PageRow}
    {revision : Nat} {now : Int} {change : ContentChange}
    (accepted : store.applyChange userId agentId sourceId postId page revision now change =
      .ok after) : EditsContent store after := by
  obtain ⟨-, post, -, -, -, -, appended⟩ | ⟨-, body, rfl⟩ := applyChange_ok accepted
  · obtain ⟨-, qaPosts, -, rfl⟩ := appendPost_ok appended
    exact ⟨rfl, rfl, .refl store⟩
  · exact ⟨rfl, rfl, setBody_keepsPages _ _ _ _ _⟩

theorem mutate_edits {payloadHash : MutationPayload → String} {context : SpaceContentRunContext}
    {mutation : SpaceContentMutation} {drawn : MutationDraws} {now : Int} {receipt : ReceiptRow}
    (accepted : store.mutate payloadHash context mutation drawn now = .ok (receipt, after)) :
    EditsContent store after := by
  obtain ⟨userId, source, page, -, -, -, ⟨-, rfl⟩ | ⟨-, -, -, -, -, changed, receipts, applied, -,
    rfl⟩⟩ := mutate_ok accepted
  · exact .refl _
  · have edited := applyChange_edits applied
    exact ⟨edited.spaces, edited.runAdmissions, edited.pages⟩

theorem setRunState_keeps (selects : SpaceRunRow → Bool) (state : RunState) (run : SpaceRunRow) :
    (if selects run then { run with state } else run).runId = run.runId ∧
      (if selects run then { run with state } else run).spaceId = run.spaceId := by
  split <;> exact ⟨rfl, rfl⟩

theorem RunsPlaced.setRunState (placed : store.RunsPlaced) (selects : SpaceRunRow → Bool)
    (state : RunState) : (store.setRunState selects state).RunsPlaced :=
  placed.map_runs (setRunState_keeps selects state) rfl rfl (.refl store)

theorem RunsPlaced.run?_unique (placed : store.RunsPlaced) {run prior : SpaceRunRow}
    (found : store.run? run.runId = some prior)
    (inRuns : run ∈ store.spaces.collaborationSpaceRuns) : run = prior :=
  KeyedRows.unique placed.keyed inRuns (List.mem_of_find?_eq_some found)
    (by simpa [eq_comm] using List.find?_some found)

theorem RunsPlaced.beginRun (placed : store.RunsPlaced) {digest : String → String}
    {userId spaceId pageId runId message : String} {finished : Bool}
    (accepted : store.beginRun digest userId spaceId pageId runId message =
      .ok (finished, after)) : after.RunsPlaced := by
  obtain ⟨-, ⟨page, found, here⟩, rfl | ⟨prior, admission, -, -, -, -, rfl⟩ |
    ⟨absent, runAdmissions, inserted, rfl⟩⟩ := beginRun_ok accepted
  · exact placed
  · exact placed.setRunState _ _
  · have others : ∀ run ∈ store.spaces.collaborationSpaceRuns, run.runId ≠ runId := by
      simpa [run?] using absent
    exact
      { keyed := by
          refine List.pairwise_append.mpr ⟨placed.keyed, List.pairwise_singleton _ _, ?_⟩
          intro run inTable started isNew
          rw [List.mem_singleton.mp isNew]
          exact others run inTable
        admissions := by
          intro run inRuns
          rcases List.mem_append.mp inRuns with inTable | isNew
          · obtain ⟨admission, page, admitted, kept⟩ := placed.admissions run inTable
            refine ⟨admission, page, ?_, kept⟩
            rw [Table.lookup_insert? inserted, if_neg (others run inTable).symm]
            exact admitted
          · cases List.mem_singleton.mp isNew
            exact ⟨_, page, (Table.lookup_insert? inserted runId).trans (if_pos rfl), found, here⟩ }

theorem RunsPlaced.deleteSpace (placed : store.RunsPlaced) (userId spaceId : String) :
    (store.deleteSpace userId spaceId).RunsPlaced where
  keyed := placed.keyed.filter _
  admissions := by
    intro run inRuns
    obtain ⟨inTable, elsewhere⟩ := List.mem_filter.mp inRuns
    obtain ⟨admission, page, admitted, found, here⟩ := placed.admissions run inTable
    have apart : page.spaceId ≠ spaceId := by
      rw [here]
      simpa using elsewhere
    refine ⟨admission, page, ?_, ?_, here⟩
    · simp [ContentStore.deleteSpace, admitted, found, apart]
    · simp [ContentStore.deleteSpace, found, apart]

/-- Memberships, departures and runs agree. -/
structure Admitted (store : ContentStore) : Prop extends store.RunsPlaced where
  spaces : store.spaces.Admitted

theorem Admitted.empty : ContentStore.empty.Admitted where
  toRunsPlaced := .empty
  spaces := .empty

theorem Admitted.edited (admitted : store.Admitted) (edited : EditsContent store after) : after.Admitted where
  toRunsPlaced := admitted.of_pages edited.spaces edited.runAdmissions edited.pages
  spaces := edited.spaces ▸ admitted.spaces

theorem Admitted.settled (admitted : store.Admitted) (selects : SpaceRunRow → Bool)
    {state : RunState} (ended : state ≠ .active) : (store.setRunState selects state).Admitted where
  toRunsPlaced := admitted.setRunState selects state
  spaces := by
    refine admitted.spaces.withRuns ?_
    intro run inRuns active
    obtain ⟨old, inTable, rfl⟩ := List.mem_map.mp inRuns
    split at active
    · exact absurd active ended
    · rename_i kept
      rw [if_neg kept]
      exact admitted.spaces.runs old inTable active

theorem Admitted.beginRun (admitted : store.Admitted) {digest : String → String}
    {userId spaceId pageId runId message : String} {finished : Bool}
    (accepted : store.beginRun digest userId spaceId pageId runId message =
      .ok (finished, after)) : after.Admitted where
  toRunsPlaced := admitted.toRunsPlaced.beginRun accepted
  spaces := by
    obtain ⟨⟨space, granted⟩, ⟨page, found, here⟩, rfl | ⟨prior, admission, known, old, owner,
      same, rfl⟩ | ⟨absent, runAdmissions, inserted, rfl⟩⟩ := beginRun_ok accepted
    · exact admitted.spaces
    · refine admitted.spaces.withRuns ?_
      intro run inRuns active
      obtain ⟨earlier, inTable, rfl⟩ := List.mem_map.mp inRuns
      split at active
      · -- The retried run is the prior one, admitted for this page and so for this Space.
        rename_i selected
        have runId' : earlier.runId = runId := by simpa using selected
        have only := admitted.run?_unique (runId' ▸ known) inTable
        obtain ⟨admission', page', admitted', found', here'⟩ :=
          admitted.admissions earlier inTable
        rw [runId', old] at admitted'
        cases admitted'
        rw [same, found] at found'
        cases found'
        rw [if_pos selected, ← here', here, only, owner]
        exact SpaceStore.mayEdit_of_access granted
      · rename_i kept
        rw [if_neg kept]
        exact admitted.spaces.runs earlier inTable active
    · refine admitted.spaces.withRuns ?_
      intro run inRuns active
      rcases List.mem_append.mp inRuns with inTable | isNew
      · exact admitted.spaces.runs run inTable active
      · rw [List.mem_singleton.mp isNew]
        exact SpaceStore.mayEdit_of_access granted

theorem executeSpace_ok {operation : SpaceOperation} (accepted : store.executeSpace operation = .ok after) :
    (∃ spaces, SpaceStore.Effect store.spaces spaces ∧
        store.spaces.execute operation = .ok spaces ∧ after = { store with spaces }) ∨
      ∃ userId spaceId, operation = .finishDelete userId spaceId ∧
        store.spaces.deleting spaceId = true ∧ after = store.deleteSpace userId spaceId := by
  cases operation with
  | finishDelete userId spaceId =>
    simp only [executeSpace, bind_ok_iff, Except.ensure_ok_iff, Except.pure_ok_iff] at accepted
    obtain ⟨-, deleted, rfl⟩ := accepted
    exact .inr ⟨userId, spaceId, rfl, deleted, rfl⟩
  | _ =>
    simp only [executeSpace, bind_ok_iff, Except.pure_ok_iff] at accepted
    obtain ⟨spaces, executed, rfl⟩ := accepted
    refine .inl ⟨spaces, SpaceStore.execute_effect ?_ executed, executed, rfl⟩
    intro userId spaceId same
    cases same

theorem Admitted.executeSpace (admitted : store.Admitted) {operation : SpaceOperation}
    (accepted : store.executeSpace operation = .ok after) : after.Admitted := by
  obtain ⟨spaces, effect, -, rfl⟩ | ⟨userId, spaceId, -, -, rfl⟩ := executeSpace_ok accepted
  · obtain ⟨change, runs, keeps⟩ := effect.runs_mapped
    exact
      { toRunsPlaced := admitted.map_runs keeps runs rfl (.refl store)
        spaces := admitted.spaces.effect effect }
  · exact
      { toRunsPlaced := admitted.deleteSpace userId spaceId
        spaces := admitted.spaces.finishDelete userId spaceId }

theorem Admitted.execute (admitted : store.Admitted) {digests : Digests} {call : ContentCall}
    (accepted : store.execute digests call = .ok after) : after.Admitted := by
  cases call with
  | space operation => exact admitted.executeSpace accepted
  | createPage userId spaceId params id now =>
    obtain ⟨⟨row, _⟩, created, rfl⟩ := Except.map_ok_iff.mp accepted
    exact admitted.edited (createPage_edits created)
  | savePage userId spaceId pageId title body revision now =>
    obtain ⟨⟨row, _⟩, saved, rfl⟩ := Except.map_ok_iff.mp accepted
    exact admitted.edited (savePage_edits saved)
  | beginRun userId spaceId pageId runId message =>
    obtain ⟨⟨finished, _⟩, begun, rfl⟩ := Except.map_ok_iff.mp accepted
    exact admitted.beginRun begun
  | finishRun runId pageId =>
    cases accepted
    exact admitted.settled _ (by simp)
  | failRun runId =>
    cases accepted
    exact admitted.settled _ (by simp)
  | mutate context mutation drawn now =>
    obtain ⟨⟨receipt, _⟩, mutated, rfl⟩ := Except.map_ok_iff.mp accepted
    exact admitted.edited (mutate_edits mutated)
  | others conversations personalBindings =>
    cases accepted
    exact admitted.edited ⟨rfl, rfl, .refl store⟩

theorem step_of_ok {digests : Digests} {call : ContentCall} (accepted : store.execute digests call = .ok after) :
    (contentMachine digests).step store call = after := by
  simp only [contentMachine, accepted]

theorem step_of_error {digests : Digests} {call : ContentCall} {error : SpaceError}
    (rejected : store.execute digests call = .error error) :
    (contentMachine digests).step store call = store := by
  simp only [contentMachine, rejected]

theorem step_preserves {P : ContentStore → Prop} {digests : Digests}
    (preserved : ∀ store call after, P store → store.execute digests call = .ok after → P after)
    (store : ContentStore) (call : ContentCall) (given : P store) :
    P ((contentMachine digests).step store call) := by
  simp only [contentMachine]
  split
  · rename_i accepted
    exact preserved store call _ given accepted
  · exact given

theorem admitted_reachable (digests : Digests) (calls : List ContentCall) :
    ((contentMachine digests).run .empty calls).Admitted :=
  Machine.run_invariant (step_preserves fun _ _ _ admitted accepted => admitted.execute accepted) .empty calls

end ContentStore

end PlatformClaw.Spaces
