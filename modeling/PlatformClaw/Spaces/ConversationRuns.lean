import PlatformClaw.Spaces.Conversations

/-! # Conversations over whole runs

Titles stay apart, and a request that has made a conversation finds it again: its
receipt is the title itself, until a suffix or the first rename writes it down.
-/

namespace PlatformClaw.Spaces

open Except (ensure orThrow)

namespace ConversationStore

variable {store store' : ConversationStore}

theorem allocateTitle_searched (store : ConversationStore) (userId pageId requestedTitle : String)
    (renamed : Option String) :
    NumberedText.Searched (NumberedText.numbered (shortened (ScriptString.trim requestedTitle)))
      (store.ownTitles userId pageId renamed) 2 (ScriptString.trim requestedTitle)
      (store.allocateTitle userId pageId requestedTitle renamed) :=
  NumberedText.searched_numbered _ _ _

theorem allocateTitle_free (store : ConversationStore) (userId pageId requestedTitle : String)
    (renamed : Option String) : store.allocateTitle userId pageId requestedTitle renamed ∉
      store.ownTitles userId pageId renamed :=
  (store.allocateTitle_searched userId pageId requestedTitle renamed).not_taken

theorem ne_of_not_mem_ownTitles {userId pageId title : String} {renamed : Option String}
    (free : title ∉ store.ownTitles userId pageId renamed) {row : SpaceConversationRow}
    (inTable : row ∈ store.conversations) (owner : row.ownerId = userId) (page : row.pageId = pageId)
    (other : some row.id ≠ renamed) : row.title ≠ title := by
  intro same
  refine free (List.mem_map.mpr ⟨row, List.mem_filter.mpr ⟨inTable, ?_⟩, same⟩)
  simp [owner, page, other]

theorem prior?_eq_none_iff {userId requestId : String} : store.prior? userId requestId = none ↔
    ∀ row ∈ store.conversations, ¬(row.ownerId = userId ∧ row.requestId = requestId) := by
  simp [prior?, List.find?_eq_none]

theorem prior?_some {userId requestId : String} {row : SpaceConversationRow}
    (found : store.prior? userId requestId = some row) :
    row ∈ store.conversations ∧ row.ownerId = userId ∧ row.requestId = requestId :=
  ⟨List.mem_of_find?_eq_some found, by simpa using List.find?_some found⟩

/-- An accepted call on the tables of this writer. -/
inductive Changed (store : ConversationStore) : ConversationStore → Prop where
  | same : Changed store store
  | created {row : SpaceConversationRow} {requested : String} {inserted store' : ConversationStore}
      (unused : store.prior? row.ownerId row.requestId = none)
      (free : row.title ∉ store.ownTitles row.ownerId row.pageId none)
      (insert : store.insertConversation row = .ok inserted)
      (receipt : inserted.insertTitle row requested = .ok store') : Changed store store'
  | renamed {row : SpaceConversationRow} {title : String} (inTable : row ∈ store.conversations)
      (free : title ∉ store.ownTitles row.ownerId row.pageId (some row.id)) :
      Changed store ((store.keepTitle row.id row.title).setTitle row.id title)

theorem get_ok {userId spaceId conversationId : String} {write : Bool}
    {conversation : SpaceConversation}
    (got : store.get userId spaceId conversationId write = .ok conversation) :
    ∃ row ∈ store.conversations, row.id = conversationId ∧ row.spaceId = spaceId ∧ row.ownerId = userId ∧
      (write = true → (store.personalBinding userId).map (·.agentId) = some row.agentId) ∧
      conversation = projectConversation row conversation.canWrite := by
  obtain ⟨space, -, got⟩ := Except.bind_ok_iff.mp got
  obtain ⟨row, found, got⟩ := Except.bind_ok_iff.mp got
  obtain ⟨looked, here⟩ := Option.filter_eq_some_iff.mp (Except.orThrow_ok_iff.mp found)
  obtain ⟨inTable, id⟩ := Table.lookup_eq_some_iff.mp looked
  simp only [decide_eq_true_eq] at here
  obtain ⟨_, allowed, got⟩ := Except.bind_ok_iff.mp got
  rw [Except.ensure_ok_iff] at allowed
  obtain rfl := Except.pure_ok_iff.mp got
  refine ⟨row, inTable, id, here.1, here.2, ?_, rfl⟩
  intro writes
  simp only [writes, Bool.true_eq_false, false_or, decide_eq_true_eq] at allowed
  exact allowed.2.2

theorem create_ok {userId spaceId id : String} {params : NewConversation} {now : Int}
    {conversation : SpaceConversation}
    (created : store.create userId spaceId params id now = .ok (conversation, store')) :
    ∃ page binding, store.content.page userId spaceId params.pageId .editor = .ok page ∧
      store.personalBinding userId = some binding ∧
      ((∃ prior, store.prior? userId params.requestId = some prior ∧
          (prior.spaceId = spaceId ∧ prior.pageId = params.pageId ∧ store.requestedTitle prior = params.title) ∧
          store.get userId spaceId prior.id true = .ok conversation ∧ store' = store) ∨
        store.prior? userId params.requestId = none ∧ conversation = projectConversation
            (store.newRow binding userId spaceId params id now) true ∧
          ∃ inserted, store.insertConversation (store.newRow binding userId spaceId params id now) = .ok inserted ∧
            inserted.insertTitle (store.newRow binding userId spaceId params id now) params.title = .ok store') := by
  obtain ⟨page, visible, created⟩ := Except.bind_ok_iff.mp created
  obtain ⟨binding, bound, created⟩ := Except.bind_ok_iff.mp created
  refine ⟨page, binding, visible, Except.orThrow_ok_iff.mp bound, ?_⟩
  cases found : store.prior? userId params.requestId with
  | some prior =>
    simp only [found] at created
    obtain ⟨_, same, created⟩ := Except.bind_ok_iff.mp created
    obtain ⟨again, got, created⟩ := Except.bind_ok_iff.mp created
    cases Except.pure_ok_iff.mp created
    exact .inl ⟨prior, rfl, Except.ensure_ok_iff.mp same, got, rfl⟩
  | none =>
    simp only [found] at created
    obtain ⟨_, -, created⟩ := Except.bind_ok_iff.mp created
    obtain ⟨inserted, insert, created⟩ := Except.bind_ok_iff.mp created
    obtain ⟨receipted, receipt, created⟩ := Except.bind_ok_iff.mp created
    cases Except.pure_ok_iff.mp created
    exact .inr ⟨rfl, rfl, inserted, insert, receipt⟩

theorem create_changed {userId spaceId id : String} {params : NewConversation} {now : Int}
    {conversation : SpaceConversation}
    (created : store.create userId spaceId params id now = .ok (conversation, store')) :
    store.Changed store' := by
  obtain ⟨page, binding, -, -, ⟨prior, -, -, -, rfl⟩ | ⟨unused, -, inserted, insert, receipt⟩⟩ :=
    create_ok created
  · exact .same
  · exact .created unused (store.allocateTitle_free userId params.pageId params.title none) insert receipt

theorem rename_changed {userId spaceId conversationId requested expected : String} {revision : Nat}
    {conversation : SpaceConversation}
    (renamed : store.rename userId spaceId conversationId requested revision expected =
      .ok (conversation, store')) : store.Changed store' := by
  obtain ⟨current, got, renamed⟩ := Except.bind_ok_iff.mp renamed
  obtain ⟨space, -, renamed⟩ := Except.bind_ok_iff.mp renamed
  obtain ⟨_, -, renamed⟩ := Except.bind_ok_iff.mp renamed
  obtain ⟨_, -, renamed⟩ := Except.bind_ok_iff.mp renamed
  obtain ⟨row, inTable, rfl, -, rfl, -, shown⟩ := get_ok got
  rcases Except.ite_ok_iff.mp renamed with ⟨-, kept⟩ | ⟨-, moved⟩
  · cases Except.pure_ok_iff.mp kept
    exact .same
  · cases Except.pure_ok_iff.mp moved
    rw [shown]
    exact .renamed inTable (store.allocateTitle_free _ _ _ _)

theorem execute_changed {call : ConversationCall} (executed : store.execute call = .ok store') :
    store.Changed store' := by
  cases call with
  | create =>
    obtain ⟨⟨conversation, changed⟩, created, rfl⟩ := Except.map_ok_iff.mp executed
    exact create_changed created
  | rename =>
    obtain ⟨⟨conversation, changed⟩, renamed, rfl⟩ := Except.map_ok_iff.mp executed
    exact rename_changed renamed

theorem step_changed (store : ConversationStore) (call : ConversationCall) :
    store.Changed (conversationMachine.step store call) := by
  simp only [conversationMachine]
  split
  · rename_i executed
    exact execute_changed executed
  · exact .same

/-- The memberships, pages and bindings are those of before. -/
def SameSurroundings (store store' : ConversationStore) : Prop :=
  ∃ conversations, store'.content = { store.content with conversations }

theorem SameSurroundings.refl (store : ConversationStore) : store.SameSurroundings store :=
  ⟨store.content.conversations, rfl⟩

theorem created_tables {row : SpaceConversationRow} {requested : String}
    {inserted : ConversationStore} (insert : store.insertConversation row = .ok inserted)
    (receipt : inserted.insertTitle row requested = .ok store') :
    store.conversations.insert? row = some store'.conversations ∧
      (row.title = requested ∧ store'.titles = store.titles ∨
        store.titles.insert? { conversationId := row.id, requestedTitle := requested } = some store'.titles) ∧
      store.SameSurroundings store' := by
  obtain ⟨conversations, new, insert⟩ := Except.bind_ok_iff.mp insert
  obtain ⟨registered, -, insert⟩ := Except.bind_ok_iff.mp insert
  cases Except.pure_ok_iff.mp insert
  rcases Except.ite_ok_iff.mp receipt with ⟨same, kept⟩ | ⟨-, written⟩
  · cases kept
    exact ⟨Except.orThrow_ok_iff.mp new, .inl ⟨same, rfl⟩, registered, rfl⟩
  · obtain ⟨titles, newTitle, written⟩ := Except.bind_ok_iff.mp written
    cases Except.pure_ok_iff.mp written
    exact ⟨Except.orThrow_ok_iff.mp new, .inr (Except.orThrow_ok_iff.mp newTitle), registered, rfl⟩

theorem Changed.surroundings (changed : store.Changed store') : store.SameSurroundings store' := by
  cases changed with
  | same => exact .refl store
  | created _ _ insert receipt => exact (created_tables insert receipt).2.2
  | renamed => exact .refl store

/-- What every run keeps. -/
structure Valid (store : ConversationStore) : Prop where
  distinct : ∀ a ∈ store.conversations, ∀ b ∈ store.conversations,
    a.ownerId = b.ownerId → a.pageId = b.pageId → a.title = b.title → a = b
  once : ∀ a ∈ store.conversations, ∀ b ∈ store.conversations,
    a.ownerId = b.ownerId → a.requestId = b.requestId → a = b
  receipts : ∀ receipt ∈ store.titles, ∃ row ∈ store.conversations, row.id = receipt.conversationId

theorem valid_fresh (content : ContentStore) : (fresh content).Valid where
  distinct _ inTable := absurd inTable (Table.not_mem_empty _)
  once _ inTable := absurd inTable (Table.not_mem_empty _)
  receipts _ inTable := absurd inTable (Table.not_mem_empty _)

theorem mem_setTitle {conversationId title : String} {row : SpaceConversationRow} :
    row ∈ (store.setTitle conversationId title).conversations ↔ ∃ old ∈ store.conversations,
        row = if old.id = conversationId then { old with title } else old := by
  simp only [setTitle, Table.mem_update, decide_eq_true_eq]

theorem Valid.created (valid : store.Valid) {row : SpaceConversationRow} {requested : String}
    {inserted : ConversationStore} (unused : store.prior? row.ownerId row.requestId = none)
    (free : row.title ∉ store.ownTitles row.ownerId row.pageId none)
    (insert : store.insertConversation row = .ok inserted)
    (receipt : inserted.insertTitle row requested = .ok store') : store'.Valid := by
  obtain ⟨conversations, titles, -⟩ := created_tables insert receipt
  have apart := prior?_eq_none_iff.mp unused
  have different (other : SpaceConversationRow) (there : other ∈ store.conversations)
      (owner : other.ownerId = row.ownerId) (page : other.pageId = row.pageId) :
      other.title ≠ row.title :=
    ne_of_not_mem_ownTitles free there owner page (by simp)
  refine ⟨?_, ?_, ?_⟩
  · intro a inA b inB owner page same
    rcases (Table.mem_insert? conversations).mp inA with oldA | rfl <;>
      rcases (Table.mem_insert? conversations).mp inB with oldB | rfl
    · exact valid.distinct a oldA b oldB owner page same
    · exact absurd same (different a oldA owner page)
    · exact absurd same.symm (different b oldB owner.symm page.symm)
    · rfl
  · intro a inA b inB owner request
    rcases (Table.mem_insert? conversations).mp inA with oldA | rfl <;>
      rcases (Table.mem_insert? conversations).mp inB with oldB | rfl
    · exact valid.once a oldA b oldB owner request
    · exact absurd ⟨owner, request⟩ (apart a oldA)
    · exact absurd ⟨owner.symm, request.symm⟩ (apart b oldB)
    · rfl
  · have known (other : ConversationTitleRow) (there : other ∈ store.titles) :
        ∃ row ∈ store'.conversations, row.id = other.conversationId := by
      obtain ⟨old, inTable, same⟩ := valid.receipts other there
      exact ⟨old, (Table.mem_insert? conversations).mpr (.inl inTable), same⟩
    rcases titles with ⟨-, same⟩ | written
    · rw [same]
      exact known
    · intro other inTitles
      rcases (Table.mem_insert? written).mp inTitles with old | rfl
      · exact known other old
      · exact ⟨row, (Table.mem_insert? conversations).mpr (.inr rfl), rfl⟩

theorem mem_keepTitle {conversationId title : String} {receipt : ConversationTitleRow}
    (there : receipt ∈ (store.keepTitle conversationId title).titles) :
    receipt ∈ store.titles ∨ receipt.conversationId = conversationId := by
  have found := Table.lookup_key there
  simp only [keepTitle, Table.lookup_upsert] at found
  split at found
  · rename_i same
    exact .inr same.symm
  · exact .inl (Table.lookup_eq_some_iff.mp found).1

theorem Valid.renamed (valid : store.Valid) {row : SpaceConversationRow} {title : String}
    (inTable : row ∈ store.conversations)
    (free : title ∉ store.ownTitles row.ownerId row.pageId (some row.id)) :
    ((store.keepTitle row.id row.title).setTitle row.id title).Valid := by
  have itself (other : SpaceConversationRow) (there : other ∈ store.conversations)
      (same : other.id = row.id) : other = row :=
    Table.unique there inTable same
  have different (other : SpaceConversationRow) (there : other ∈ store.conversations)
      (owner : other.ownerId = row.ownerId) (page : other.pageId = row.pageId)
      (apart : other.id ≠ row.id) : other.title ≠ title :=
    ne_of_not_mem_ownTitles free there owner page (by simpa using apart)
  refine ⟨?_, ?_, ?_⟩
  · intro a inA b inB
    obtain ⟨oldA, thereA, rfl⟩ := mem_setTitle.mp inA
    obtain ⟨oldB, thereB, rfl⟩ := mem_setTitle.mp inB
    split <;> split <;> intro owner page same
    · rename_i sameA sameB
      rw [itself oldA thereA sameA, itself oldB thereB sameB]
    · rename_i sameA otherB
      obtain rfl := itself oldA thereA sameA
      exact absurd same.symm (different oldB thereB owner.symm page.symm otherB)
    · rename_i otherA sameB
      obtain rfl := itself oldB thereB sameB
      exact absurd same (different oldA thereA owner page otherA)
    · exact valid.distinct oldA thereA oldB thereB owner page same
  · intro a inA b inB
    obtain ⟨oldA, thereA, rfl⟩ := mem_setTitle.mp inA
    obtain ⟨oldB, thereB, rfl⟩ := mem_setTitle.mp inB
    intro owner request
    have same : oldA = oldB := by
      refine valid.once oldA thereA oldB thereB ?_ ?_
      · split at owner <;> split at owner <;> exact owner
      · split at request <;> split at request <;> exact request
    rw [same]
  · intro receipt inTitles
    have known : ∃ old ∈ store.conversations, old.id = receipt.conversationId := by
      rcases mem_keepTitle inTitles with old | same
      · exact valid.receipts receipt old
      · exact ⟨row, inTable, same.symm⟩
    obtain ⟨old, there, same⟩ := known
    refine ⟨_, mem_setTitle.mpr ⟨old, there, rfl⟩, ?_⟩
    split <;> exact same

theorem Valid.changed (valid : store.Valid) (changed : store.Changed store') : store'.Valid := by
  cases changed with
  | same => exact valid
  | created unused free insert receipt => exact valid.created unused free insert receipt
  | renamed inTable free => exact valid.renamed inTable free

theorem valid_run (content : ContentStore) (calls : List ConversationCall) :
    (conversationMachine.run (fresh content) calls).Valid :=
  Machine.run_invariant (fun store call valid => valid.changed (store.step_changed call))
    (valid_fresh content) calls

/-- The conversation `row` is there, under whatever title, and was requested as `requested`. -/
def Made (store : ConversationStore) (row : SpaceConversationRow) (requested : String) : Prop :=
  ∃ title, { row with title } ∈ store.conversations ∧ store.requestedTitle { row with title } = requested

theorem Made.created {made row : SpaceConversationRow} {requested wanted : String}
    {inserted : ConversationStore} (known : store.Made made wanted)
    (insert : store.insertConversation row = .ok inserted)
    (receipt : inserted.insertTitle row requested = .ok store') : store'.Made made wanted := by
  obtain ⟨title, inTable, asked⟩ := known
  obtain ⟨conversations, titles, -⟩ := created_tables insert receipt
  refine ⟨title, (Table.mem_insert? conversations).mpr (.inl inTable), ?_⟩
  rcases titles with ⟨-, same⟩ | written
  · rw [requestedTitle, same]
    exact asked
  · have other : row.id ≠ made.id := fun same =>
      Table.lookup_eq_none_iff.mp (Table.insert?_absent conversations) _ inTable same.symm
    rw [requestedTitle, Table.lookup_insert? written, if_neg other]
    exact asked

theorem Made.renamed {made row : SpaceConversationRow} {wanted title : String}
    (known : store.Made made wanted) (inTable : row ∈ store.conversations) :
    ((store.keepTitle row.id row.title).setTitle row.id title).Made made wanted := by
  obtain ⟨current, there, asked⟩ := known
  by_cases same : made.id = row.id
  · obtain rfl : { made with title := current } = row := Table.unique there inTable same
    refine ⟨title, mem_setTitle.mpr ⟨_, there, (if_pos rfl).symm⟩, ?_⟩
    simp only [requestedTitle, setTitle, keepTitle, Table.lookup_upsert] at asked ⊢
    cases found : store.titles.lookup made.id with
    | none => simpa [found] using asked
    | some receipt => simpa [found] using asked
  · refine ⟨current, mem_setTitle.mpr ⟨_, there, (if_neg same).symm⟩, ?_⟩
    simp only [requestedTitle, setTitle, keepTitle, Table.lookup_upsert, if_neg (Ne.symm same)]
    exact asked

theorem Made.changed {made : SpaceConversationRow} {wanted : String}
    (known : store.Made made wanted) (changed : store.Changed store') :
    store'.Made made wanted := by
  cases changed with
  | same => exact known
  | created _ _ insert receipt => exact known.created insert receipt
  | renamed inTable => exact known.renamed inTable

theorem Valid.requestedTitle_created (valid : store.Valid) {row : SpaceConversationRow}
    {requested : String} {inserted : ConversationStore}
    (insert : store.insertConversation row = .ok inserted)
    (receipt : inserted.insertTitle row requested = .ok store') : store'.Made row requested := by
  obtain ⟨conversations, titles, -⟩ := created_tables insert receipt
  refine ⟨row.title, (Table.mem_insert? conversations).mpr (.inr rfl), ?_⟩
  rcases titles with ⟨same, kept⟩ | written
  · have absent : store.titles.lookup row.id = none := by
      refine Table.lookup_eq_none_iff.mpr fun receipt inTitles same => ?_
      obtain ⟨other, inTable, owned⟩ := valid.receipts receipt inTitles
      exact Table.lookup_eq_none_iff.mp (Table.insert?_absent conversations) other inTable (owned.trans same)
    simp [requestedTitle, kept, absent, same]
  · simp [requestedTitle, Table.lookup_insert? written]

theorem Valid.made_of_create (valid : store.Valid) {userId spaceId id : String}
    {params : NewConversation} {now : Int} {conversation : SpaceConversation}
    (created : store.create userId spaceId params id now = .ok (conversation, store')) :
    ∃ row, store'.Made row params.title ∧
      (row.ownerId = userId ∧ row.requestId = params.requestId ∧ row.spaceId = spaceId ∧ row.pageId = params.pageId) ∧
      (store.personalBinding userId).map (·.agentId) = some row.agentId ∧
      conversation = projectConversation row conversation.canWrite := by
  obtain ⟨page, binding, -, bound, ⟨prior, found, ⟨space, onPage, asked⟩, got, rfl⟩ |
    ⟨-, rfl, inserted, insert, receipt⟩⟩ := create_ok created
  · obtain ⟨inTable, owner, request⟩ := prior?_some found
    obtain ⟨row, there, same, -, -, writes, shown⟩ := get_ok got
    obtain rfl := Table.unique there inTable same
    exact ⟨row, ⟨row.title, inTable, asked⟩, ⟨owner, request, space, onPage⟩, writes rfl, shown⟩
  · exact ⟨_, valid.requestedTitle_created insert receipt, ⟨rfl, rfl, rfl, rfl⟩,
      congrArg (Option.map (·.agentId)) bound, rfl⟩

theorem access_of_editor {spaces : SpaceStore} {userId spaceId : String} {space : Space}
    (accessed : spaces.access userId spaceId .editor = .ok space) :
    spaces.access userId spaceId = .ok space ∧ space.role ≠ .viewer := by
  obtain ⟨_, active, accessed⟩ := Except.bind_ok_iff.mp accessed
  obtain ⟨_, present, accessed⟩ := Except.bind_ok_iff.mp accessed
  obtain ⟨row, found, accessed⟩ := Except.bind_ok_iff.mp accessed
  obtain ⟨member, joined, accessed⟩ := Except.bind_ok_iff.mp accessed
  obtain ⟨_, ranked, accessed⟩ := Except.bind_ok_iff.mp accessed
  obtain rfl := Except.pure_ok_iff.mp accessed
  have rank : SpaceRole.rank .editor ≤ member.role.rank := Except.ensure_ok_iff.mp ranked
  constructor
  · refine Except.bind_ok_iff.mpr ⟨_, active, Except.bind_ok_iff.mpr ⟨_, present,
      Except.bind_ok_iff.mpr ⟨row, found, Except.bind_ok_iff.mpr ⟨member, joined,
        Except.bind_ok_iff.mpr ⟨(), ?_, rfl⟩⟩⟩⟩⟩
    refine Except.ensure_ok_iff.mpr (Nat.le_trans ?_ rank)
    decide
  · intro viewer
    have role : member.role = .viewer := viewer
    rw [role] at rank
    exact absurd rank (by decide)

theorem page_access {content : ContentStore} {userId spaceId pageId : String} {role : SpaceRole}
    {page : PageRow} (visible : content.page userId spaceId pageId role = .ok page) :
    ∃ space, content.spaces.access userId spaceId role = .ok space := by
  obtain ⟨space, accessed, -⟩ := Except.bind_ok_iff.mp visible
  exact ⟨space, accessed⟩

theorem step_of_error {call : ConversationCall} {error : SpaceError}
    (rejected : store.execute call = .error error) : conversationMachine.step store call = store := by
  simp only [conversationMachine, rejected]

/-- What a request needs to be answered again: its page is still open to an editor, and the agent
    is the same. -/
structure Answerable (store : ConversationStore) (userId requestId : String)
    (row : SpaceConversationRow) (requested : String) : Prop where
  valid : store.Valid
  made : store.Made row requested
  owner : row.ownerId = userId
  request : row.requestId = requestId
  page : ∃ page, store.content.page userId row.spaceId row.pageId .editor = .ok page
  agent : (store.personalBinding userId).map (·.agentId) = some row.agentId

theorem SameSurroundings.personalBinding_eq (same : store.SameSurroundings store')
    (userId : String) : store'.personalBinding userId = store.personalBinding userId := by
  obtain ⟨conversations, content⟩ := same
  rw [personalBinding, content]
  rfl

theorem SameSurroundings.page_eq (same : store.SameSurroundings store')
    (userId spaceId pageId : String) (role : SpaceRole) :
    store'.content.page userId spaceId pageId role = store.content.page userId spaceId pageId role := by
  obtain ⟨conversations, content⟩ := same
  rw [content]
  rfl

theorem Answerable.changed {userId requestId requested : String} {row : SpaceConversationRow}
    (known : store.Answerable userId requestId row requested) (changed : store.Changed store') :
    store'.Answerable userId requestId row requested where
  valid := known.valid.changed changed
  made := known.made.changed changed
  owner := known.owner
  request := known.request
  page := by
    rw [changed.surroundings.page_eq]
    exact known.page
  agent := by
    rw [changed.surroundings.personalBinding_eq]
    exact known.agent

theorem projectAccess_owner {userId : String} {role : SpaceRole} {row : SpaceConversationRow}
    (owner : userId = row.ownerId) (edits : role ≠ .viewer)
    (agent : (store.personalBinding userId).map (·.agentId) = some row.agentId) :
    store.projectAccess userId role row true = .ok (projectConversation row true) := by
  have canWrite : decide (userId = row.ownerId ∧ role ≠ .viewer ∧
      (store.personalBinding userId).map (·.agentId) = some row.agentId) = true :=
    decide_eq_true ⟨owner, edits, agent⟩
  simp only [projectAccess, canWrite, or_true, ensure, if_true]
  rfl

theorem Answerable.get {userId requestId requested : String} {row : SpaceConversationRow}
    (known : store.Answerable userId requestId row requested) :
    ∃ title, store.prior? userId requestId = some { row with title } ∧
      store.requestedTitle { row with title } = requested ∧
      store.get userId row.spaceId row.id true = .ok (projectConversation { row with title } true) := by
  obtain ⟨title, inTable, asked⟩ := known.made
  obtain ⟨page, visible⟩ := known.page
  obtain ⟨space, accessed⟩ := page_access visible
  obtain ⟨reads, edits⟩ := access_of_editor accessed
  refine ⟨title, ?_, asked, ?_⟩
  · cases found : store.prior? userId requestId with
    | none => exact absurd ⟨known.owner, known.request⟩ (prior?_eq_none_iff.mp found _ inTable)
    | some prior =>
      obtain ⟨there, owner, request⟩ := prior?_some found
      rw [known.valid.once prior there _ inTable (owner.trans known.owner.symm) (request.trans known.request.symm)]
  · have looked : store.conversations.lookup row.id = some { row with title } :=
      Table.lookup_key inTable
    have shown : store.projectAccess userId space.role { row with title } true =
        .ok (projectConversation { row with title } true) :=
      projectAccess_owner known.owner.symm edits known.agent
    have kept : (some { row with title }).filter (fun other : SpaceConversationRow =>
        other.spaceId = row.spaceId ∧ other.ownerId = userId) = some { row with title } := by
      simp [known.owner]
    refine Except.bind_ok_iff.mpr ⟨space, reads, Except.bind_ok_iff.mpr ⟨{ row with title }, ?_, shown⟩⟩
    rw [looked, kept]
    rfl

theorem Answerable.create {userId requestId requested : String} {row : SpaceConversationRow}
    (known : store.Answerable userId requestId row requested) (id : String) (now : Int) :
    ∃ title, store.get userId row.spaceId row.id true = .ok (projectConversation { row with title } true) ∧
      store.create userId row.spaceId { pageId := row.pageId, title := requested, requestId } id
        now = .ok (projectConversation { row with title } true, store) := by
  obtain ⟨title, found, asked, got⟩ := known.get
  obtain ⟨page, visible⟩ := known.page
  obtain ⟨binding, bound, -⟩ := Option.map_eq_some_iff.mp known.agent
  refine ⟨title, got, Except.bind_ok_iff.mpr ⟨page, visible, Except.bind_ok_iff.mpr
    ⟨binding, Except.orThrow_ok_iff.mpr bound, ?_⟩⟩⟩
  simp only [found]
  exact Except.bind_ok_iff.mpr ⟨(), Except.ensure_ok_iff.mpr ⟨trivial, trivial, asked⟩,
    Except.bind_ok_iff.mpr ⟨_, got, rfl⟩⟩

theorem Answerable.rejected {userId requestId requested : String} {row : SpaceConversationRow}
    (known : store.Answerable userId requestId row requested) {spaceId id : String}
    {params : NewConversation} {now : Int} (request : params.requestId = requestId)
    (different : ¬(spaceId = row.spaceId ∧ params.pageId = row.pageId ∧ params.title = requested)) :
    ∃ error, store.create userId spaceId params id now = .error error := by
  obtain ⟨title, found, asked, -⟩ := known.get
  cases result : store.create userId spaceId params id now with
  | error error => exact ⟨error, rfl⟩
  | ok accepted =>
    obtain ⟨conversation, store'⟩ := accepted
    subst request
    obtain ⟨_, _, -, -, ⟨prior, prior?, ⟨space, page, same⟩, -⟩ | ⟨unused, -⟩⟩ := create_ok result
    · obtain rfl := Option.some.inj (found.symm.trans prior?)
      exact absurd ⟨space.symm, page.symm, same.symm.trans asked⟩ different
    · rw [found] at unused
      cases unused

theorem Valid.answerable (valid : store.Valid) {userId spaceId id : String}
    {params : NewConversation} {now : Int} {conversation : SpaceConversation}
    (created : store.create userId spaceId params id now = .ok (conversation, store')) :
    ∃ row, store'.Answerable userId params.requestId row params.title ∧
      row.spaceId = spaceId ∧ row.pageId = params.pageId ∧
      conversation = projectConversation row conversation.canWrite := by
  have changed := create_changed created
  obtain ⟨row, made, ⟨owner, request, space, onPage⟩, agent, shown⟩ := valid.made_of_create created
  obtain ⟨page, -, visible, -⟩ := create_ok created
  refine ⟨row, ⟨valid.changed changed, made, owner, request, ⟨page, ?_⟩, ?_⟩, space, onPage, shown⟩
  · rw [changed.surroundings.page_eq, space, onPage]
    exact visible
  · rw [changed.surroundings.personalBinding_eq]
    exact agent

/-- An employee with an agent who edits the only page of a Space. -/
def onePage : ContentStore :=
  let user : PlatformUserRow := ⟨"alice", "alice", none, .active, .member⟩
  { ContentStore.empty with
    spaces := { SpaceStore.empty with
      platformUsers := [user]
      collaborationSpaces := [⟨"team", "Team", "space-team", "alice", "r0", 1, 0⟩]
      collaborationSpaceMembers := [⟨"team", "alice", .editor⟩] }
    pages := ⟨[⟨"page", "team", none, "Page", "", 1, "alice", "r1", 0⟩], List.pairwise_singleton _ _⟩
    personalBindings := ⟨[⟨"claw", "alice"⟩], List.pairwise_singleton _ _⟩ }

end ConversationStore

end PlatformClaw.Spaces
