import PlatformClaw.Skills.Effects

/-! # Runs of the skill catalog

A pending publication pins its skill: until it is completed or cancelled nothing
else changes the revision of the skill or takes it away.
-/

namespace PlatformClaw.Skills

open Except (bind_ok_iff ensure_ok_iff orThrow_ok_iff pure_ok_iff)

namespace Catalog

variable {before after : Catalog} {id other : String} {row : SkillHubCatalogRow}
  {change : SkillHubCatalogRow → SkillHubCatalogRow}

theorem Rewrites.here (rewrites : before.Rewrites after row.id change)
    (found : before.skills.lookup row.id = some row) :
    after.skills.lookup row.id = some (change row) := by
  rw [rewrites, found]
  simp

theorem Rewrites.elsewhere (rewrites : before.Rewrites after id change) (apart : other ≠ id) :
    after.skills.lookup other = before.skills.lookup other := by
  rw [rewrites]
  cases found : before.skills.lookup other with
  | none => rfl
  | some row =>
    have named : row.id ≠ id := (Table.lookup_eq_some_iff.mp found).2 ▸ apart
    simp [named]

theorem Rewrites.origin (rewrites : before.Rewrites after row.id change)
    (found : before.skills.lookup row.id = some row) {new : SkillHubCatalogRow}
    (there : after.skills.lookup id = some new) :
    (id = row.id ∧ new = change row) ∨ (id ≠ row.id ∧ before.skills.lookup id = some new) := by
  by_cases same : id = row.id
  · rw [same, rewrites.here found] at there
    exact .inl ⟨same, (Option.some.inj there).symm⟩
  · rw [rewrites.elsewhere same] at there
    exact .inr ⟨same, there⟩

theorem mem_setPublication {operationId : String} {state : PublicationState} {now : Int}
    {publication : SkillHubCatalogPublicationRow} :
    publication ∈ (before.setPublication operationId state now).publications ↔ ∃ old ∈ before.publications,
        publication = if old.operationId = operationId then { old with state, updatedAt := now } else old := by
  rw [setPublication, Table.mem_update]
  simp

theorem mem_pendingOf {publication : SkillHubCatalogPublicationRow} :
    publication ∈ before.pendingOf id ↔ publication ∈ before.publications ∧
      publication.skillId = id ∧ publication.state = .pending := by
  unfold pendingOf
  rw [List.mem_filter]
  simp

end Catalog

/-- What holds between two operations. -/
structure Consistent (hub : SkillHub) : Prop where
  unique : ∀ {first second}, first ∈ hub.catalog.publications → second ∈ hub.catalog.publications →
    first.state = .pending → second.state = .pending → first.skillId = second.skillId → first = second
  current : ∀ {publication}, publication ∈ hub.catalog.publications → publication.state = .pending →
    ∃ row, hub.catalog.skills.lookup publication.skillId = some row ∧ row.Available ∧
      row.revision = publication.expectedRevision
  housed : ∀ {publication}, publication ∈ hub.catalog.publications →
    hub.catalog.skills.lookup publication.skillId ≠ none
  once : ∀ {publication}, publication ∈ hub.catalog.publications →
    hub.published.countP (fun done => done.operationId = publication.operationId) =
      if publication.state = .completed then 1 else 0
  known : ∀ {done}, done ∈ hub.published → ∃ publication ∈ hub.catalog.publications,
    publication.operationId = done.operationId ∧ publication.skillId = done.skillId ∧
      publication.version = done.version ∧ publication.state = .completed
  newest : ∀ {id row last}, hub.catalog.skills.lookup id = some row → row.purgedAt = none →
    (hub.published.filter fun done => done.skillId = id).getLast? = some last → row.currentVersion = some last.version

namespace Consistent

open Catalog

variable {before after : SkillHub}

theorem apart_of_edited (consistent : Consistent before) {row : SkillHubCatalogRow}
    (found : before.catalog.skills.lookup row.id = some row)
    (idle : before.catalog.pendingOf row.id = [] ∨ ¬ row.Available)
    {publication : SkillHubCatalogPublicationRow} (known : publication ∈ before.catalog.publications)
    (pending : publication.state = .pending) : publication.skillId ≠ row.id := by
  intro same
  rcases idle with none_ | gone
  · have isPending := mem_pendingOf.mpr ⟨known, same, pending⟩
    rw [none_] at isPending
    cases isPending
  · obtain ⟨there, located, available, _⟩ := consistent.current known pending
    rw [same, found] at located
    cases located
    exact gone available

theorem pending_elsewhere (consistent : Consistent before)
    {publication : SkillHubCatalogPublicationRow} {now : Int} {state : PublicationState}
    (known : before.catalog.publications.lookup publication.operationId = some publication)
    (pending : publication.state = .pending) (closing : state ≠ .pending)
    {other : SkillHubCatalogPublicationRow}
    (isOther : other ∈ (before.catalog.setPublication publication.operationId state now).publications)
    (otherPending : other.state = .pending) :
    other ∈ before.catalog.publications ∧ other.skillId ≠ publication.skillId := by
  obtain ⟨old, isOld, rfl⟩ := mem_setPublication.mp isOther
  by_cases same : old.operationId = publication.operationId
  · rw [if_pos same] at otherPending
    exact absurd otherPending closing
  · rw [if_neg same] at otherPending ⊢
    refine ⟨isOld, ?_⟩
    intro sameSkill
    have inTable := (Table.lookup_eq_some_iff.mp known).1
    exact same (congrArg SkillHubCatalogPublicationRow.operationId
      (consistent.unique isOld inTable otherPending pending sameSkill))

theorem completed_stays {publication : SkillHubCatalogPublicationRow} {now : Int}
    {state : PublicationState}
    (known : before.catalog.publications.lookup publication.operationId = some publication)
    (pending : publication.state = .pending) {other : SkillHubCatalogPublicationRow}
    (isOther : other ∈ before.catalog.publications) (closed : other.state ≠ .pending) :
    other ∈ (before.catalog.setPublication publication.operationId state now).publications := by
  apply mem_setPublication.mpr
  refine ⟨other, isOther, (if_neg ?_).symm⟩
  intro same
  have inTable := (Table.lookup_eq_some_iff.mp known).1
  rw [before.catalog.publications.unique isOther inTable same] at closed
  exact closed pending

theorem effect (effect : Effect before after) (consistent : Consistent before) : Consistent after := by
  cases effect with
  | elsewhere skills publications published =>
    constructor
    · rw [publications]
      exact consistent.unique
    · rw [publications, skills]
      exact consistent.current
    · rw [publications, skills]
      exact consistent.housed
    · rw [publications, published]
      exact consistent.once
    · rw [publications, published]
      exact consistent.known
    · rw [skills, published]
      exact consistent.newest
  | @bound row found unbound registryId skills publications published =>
    constructor
    · rw [publications]
      exact consistent.unique
    · rw [publications]
      intro publication known pending
      obtain ⟨there, located, available, revision⟩ := consistent.current known pending
      by_cases same : publication.skillId = row.id
      · rw [same, found] at located
        cases located
        rw [same]
        exact ⟨_, skills.here found, available, revision⟩
      · exact ⟨there, (skills.elsewhere same).trans located, available, revision⟩
    · rw [publications]
      intro publication known missing
      rw [skills, Option.map_eq_none_iff] at missing
      exact consistent.housed known missing
    · rw [publications, published]
      exact consistent.once
    · rw [publications, published]
      exact consistent.known
    · rw [published]
      intro id new last there unpurged isLast
      rcases skills.origin found there with ⟨same, rfl⟩ | ⟨_, old⟩
      · rw [← same] at found
        have kept : row.currentVersion = some last.version :=
          consistent.newest found unpurged isLast
        exact kept
      · exact consistent.newest old unpurged isLast
  | @edited row found idle change keepsId registry version purged purge skills publications published =>
    constructor
    · rw [publications]
      exact consistent.unique
    · rw [publications]
      intro publication known pending
      have apart := consistent.apart_of_edited found idle known pending
      obtain ⟨there, located, available, revision⟩ := consistent.current known pending
      exact ⟨there, (skills.elsewhere apart).trans located, available, revision⟩
    · rw [publications]
      intro publication known missing
      rw [skills, Option.map_eq_none_iff] at missing
      exact consistent.housed known missing
    · rw [publications, published]
      exact consistent.once
    · rw [publications, published]
      exact consistent.known
    · rw [published]
      intro id new last there unpurged isLast
      rcases skills.origin found there with ⟨same, rfl⟩ | ⟨_, old⟩
      · have before_ : row.purgedAt = none := by
          cases wasPurged : row.purgedAt with
          | none => rfl
          | some time => exact absurd unpurged (purged (by simp [wasPurged]))
        rw [version.resolve_right (fun gone => gone unpurged)]
        exact consistent.newest (same ▸ found) before_ isLast
      · exact consistent.newest old unpurged isLast
  | @reserved row publication known available skill revision pending idle publications published =>
    -- skills that were there are still there, and the new publication has its skill
    have kept : ∀ id found, before.catalog.skills.lookup id = some found →
        after.catalog.skills.lookup id = some found := by
      intro id found located
      rcases known with ⟨_, same⟩ | ⟨_, _, inserted⟩
      · rw [same, located]
      · rw [Table.lookup_insert? inserted, if_neg, located]
        intro same
        have absent := Table.insert?_absent inserted
        rw [same, located] at absent
        cases absent
    have own : after.catalog.skills.lookup row.id = some row := by
      rcases known with ⟨found, same⟩ | ⟨_, _, inserted⟩
      · rw [same, found]
      · rw [Table.lookup_insert? inserted, if_pos rfl]
    have fresh : ∀ old ∈ before.catalog.publications, old.operationId ≠ publication.operationId :=
      Table.lookup_eq_none_iff.mp (Table.insert?_absent publications)
    constructor
    · intro first second isFirst isSecond firstPending secondPending same
      have none_ : ∀ old ∈ before.catalog.publications, old.state = .pending → old.skillId ≠ row.id := by
        intro old isOld oldPending isRow
        have isPending := mem_pendingOf.mpr ⟨isOld, isRow, oldPending⟩
        rw [idle] at isPending
        cases isPending
      rcases (Table.mem_insert? publications).mp isFirst with oldFirst | rfl
      · rcases (Table.mem_insert? publications).mp isSecond with oldSecond | rfl
        · exact consistent.unique oldFirst oldSecond firstPending secondPending same
        · exact absurd (same.trans skill) (none_ first oldFirst firstPending)
      · rcases (Table.mem_insert? publications).mp isSecond with oldSecond | rfl
        · exact absurd (same.symm.trans skill) (none_ second oldSecond secondPending)
        · rfl
    · intro other isOther otherPending
      rcases (Table.mem_insert? publications).mp isOther with old | rfl
      · obtain ⟨there, located, rest⟩ := consistent.current old otherPending
        exact ⟨there, kept _ _ located, rest⟩
      · rw [skill]
        exact ⟨row, own, available, revision.symm⟩
    · intro other isOther
      rcases (Table.mem_insert? publications).mp isOther with old | rfl
      · obtain ⟨there, located⟩ := Option.ne_none_iff_exists'.mp (consistent.housed old)
        rw [kept _ _ located]
        exact Option.some_ne_none there
      · rw [skill, own]
        exact Option.some_ne_none row
    · intro other isOther
      rw [published]
      rcases (Table.mem_insert? publications).mp isOther with old | rfl
      · exact consistent.once old
      · rw [pending]
        apply List.countP_eq_zero.mpr
        intro done isDone same
        obtain ⟨old, isOld, named, _⟩ := consistent.known isDone
        exact fresh old isOld (named.trans (of_decide_eq_true same))
    · rw [published]
      intro done isDone
      obtain ⟨old, isOld, rest⟩ := consistent.known isDone
      exact ⟨old, (Table.mem_insert? publications).mpr (.inl isOld), rest⟩
    · rw [published]
      intro id new last there unpurged isLast
      rcases known with ⟨_, same⟩ | ⟨_, _, inserted⟩
      · rw [same] at there
        exact consistent.newest there unpurged isLast
      · rw [Table.lookup_insert? inserted] at there
        split at there
        · rename_i isNew
          -- the skill is new, so nothing of it was published before
          have isDone := List.mem_filter.mp (List.mem_of_getLast? isLast)
          obtain ⟨old, isOld, _, sameSkill, _⟩ := consistent.known isDone.1
          have missing := Table.insert?_absent inserted
          rw [isNew, ← of_decide_eq_true isDone.2, ← sameSkill] at missing
          exact absurd missing (consistent.housed isOld)
        · exact consistent.newest there unpurged isLast
  | @completed row publication found available skill pending known registryId now registry skills
      publications published =>
      have inTable := (Table.lookup_eq_some_iff.mp known).1
      constructor
      · rw [publications]
        intro first second isFirst isSecond firstPending secondPending same
        have oldFirst := (consistent.pending_elsewhere known pending (by simp) isFirst firstPending).1
        have oldSecond := (consistent.pending_elsewhere known pending (by simp) isSecond secondPending).1
        exact consistent.unique oldFirst oldSecond firstPending secondPending same
      · rw [publications]
        intro other isOther otherPending
        obtain ⟨old, apart⟩ := consistent.pending_elsewhere known pending (by simp) isOther otherPending
        obtain ⟨there, located, rest⟩ := consistent.current old otherPending
        rw [skill] at apart
        exact ⟨there, (skills.elsewhere apart).trans located, rest⟩
      · rw [publications]
        intro other isOther missing
        obtain ⟨old, isOld, rfl⟩ := mem_setPublication.mp isOther
        have sameSkill : (if old.operationId = publication.operationId then
            { old with state := .completed, updatedAt := now } else old).skillId = old.skillId := by
          split <;> rfl
        rw [sameSkill, skills, Option.map_eq_none_iff] at missing
        exact consistent.housed isOld missing
      · rw [publications, published]
        intro other isOther
        obtain ⟨old, isOld, rfl⟩ := mem_setPublication.mp isOther
        have counted := consistent.once isOld
        rw [List.countP_append, List.countP_singleton]
        by_cases same : old.operationId = publication.operationId
        · have isPublication := before.catalog.publications.unique isOld inTable same
          rw [isPublication, pending] at counted
          rw [isPublication, if_pos rfl]
          simpa using counted
        · rw [if_neg same]
          simpa [Ne.symm same] using counted
      · rw [publications, published]
        intro done isDone
        rcases List.mem_append.mp isDone with old | new
        · obtain ⟨there, isThere, named, sameSkill, sameVersion, completed⟩ := consistent.known old
          refine ⟨there, completed_stays known pending isThere ?_, named, sameSkill, sameVersion, completed⟩
          rw [completed]
          simp
        · rw [List.mem_singleton.mp new]
          exact ⟨{ publication with state := .completed, updatedAt := now },
            mem_setPublication.mpr ⟨publication, inTable, (if_pos rfl).symm⟩, rfl, rfl, rfl, rfl⟩
      · rw [published]
        intro id new last there unpurged isLast
        rw [List.filter_append] at isLast
        rcases skills.origin found there with ⟨same, rfl⟩ | ⟨apart, old⟩
        · have single : [publication].filter (fun done => decide (done.skillId = id)) = [publication] := by
            simp [skill, same]
          rw [single, List.getLast?_append] at isLast
          cases isLast
          rfl
        · have none_ : [publication].filter (fun done => decide (done.skillId = id)) = [] := by
            simp [skill, Ne.symm apart]
          rw [none_, List.append_nil] at isLast
          exact consistent.newest old unpurged isLast
  | @cancelled row publication found skill pending known now change keepsId registry version purged
      pendingPurge skills publications published =>
      have inTable := (Table.lookup_eq_some_iff.mp known).1
      constructor
      · rw [publications]
        intro first second isFirst isSecond firstPending secondPending same
        have oldFirst := (consistent.pending_elsewhere known pending (by simp) isFirst firstPending).1
        have oldSecond := (consistent.pending_elsewhere known pending (by simp) isSecond secondPending).1
        exact consistent.unique oldFirst oldSecond firstPending secondPending same
      · rw [publications]
        intro other isOther otherPending
        obtain ⟨old, apart⟩ := consistent.pending_elsewhere known pending (by simp) isOther otherPending
        obtain ⟨there, located, rest⟩ := consistent.current old otherPending
        rw [skill] at apart
        exact ⟨there, (skills.elsewhere apart).trans located, rest⟩
      · rw [publications]
        intro other isOther missing
        obtain ⟨old, isOld, rfl⟩ := mem_setPublication.mp isOther
        have sameSkill : (if old.operationId = publication.operationId then
            { old with state := .cancelled, updatedAt := now } else old).skillId = old.skillId := by
          split <;> rfl
        rw [sameSkill, skills, Option.map_eq_none_iff] at missing
        exact consistent.housed isOld missing
      · rw [publications, published]
        intro other isOther
        obtain ⟨old, isOld, rfl⟩ := mem_setPublication.mp isOther
        have counted := consistent.once isOld
        by_cases same : old.operationId = publication.operationId
        · have isPublication := before.catalog.publications.unique isOld inTable same
          rw [isPublication, pending] at counted
          rw [isPublication, if_pos rfl]
          exact counted
        · rw [if_neg same]
          exact counted
      · rw [publications, published]
        intro done isDone
        obtain ⟨there, isThere, named, sameSkill, sameVersion, completed⟩ := consistent.known isDone
        refine ⟨there, completed_stays known pending isThere ?_, named, sameSkill, sameVersion, completed⟩
        rw [completed]
        simp
      · rw [published]
        intro id new last there unpurged isLast
        rcases skills.origin found there with ⟨same, rfl⟩ | ⟨_, old⟩
        · rw [version]
          exact consistent.newest (same ▸ found) (purged ▸ unpurged) isLast
        · exact consistent.newest old unpurged isLast

theorem opening (catalog : Catalog) : Consistent (SkillHub.opening catalog) := by
  constructor
  · exact fun none_ => absurd none_ (Table.not_mem_empty _)
  · exact fun none_ => absurd none_ (Table.not_mem_empty _)
  · exact fun none_ => absurd none_ (Table.not_mem_empty _)
  · exact fun none_ => absurd none_ (Table.not_mem_empty _)
  · exact fun none_ => absurd none_ List.not_mem_nil
  · exact fun _ _ isLast => absurd isLast (Option.some_ne_none _).symm

theorem run {hub : SkillHub} (consistent : Consistent hub) (operations : List CatalogOperation) :
    Consistent (SkillHub.machine.run hub operations) :=
  Machine.run_invariant (fun hub operation holds => holds.effect (hub.step_effect operation)) consistent
    operations

end Consistent

/-- Closed publications, registry identities and deletions for good are kept. -/
structure Keeps (before after : SkillHub) : Prop where
  closed : ∀ publication ∈ before.catalog.publications, publication.state ≠ .pending →
    publication ∈ after.catalog.publications
  registry : ∀ id row registryId, before.catalog.skills.lookup id = some row → row.registryId = some registryId →
      ∃ new, after.catalog.skills.lookup id = some new ∧ new.registryId = some registryId
  purge : ∀ id row, before.catalog.skills.lookup id = some row → row.InPurge →
    ∃ new, after.catalog.skills.lookup id = some new ∧ new.InPurge

namespace Keeps

open Catalog Consistent

theorem refl (hub : SkillHub) : Keeps hub hub where
  closed _ known _ := known
  registry _ row _ found bound := ⟨row, found, bound⟩
  purge _ row found inPurge := ⟨row, found, inPurge⟩

theorem trans {early middle late : SkillHub} (first : Keeps early middle) (second : Keeps middle late) :
    Keeps early late where
  closed publication known closed := second.closed publication (first.closed publication known closed) closed
  registry id row registryId found bound := by
    obtain ⟨new, there, kept⟩ := first.registry id row registryId found bound
    exact second.registry id new registryId there kept
  purge id row found inPurge := by
    obtain ⟨new, there, kept⟩ := first.purge id row found inPurge
    exact second.purge id new there kept

theorem rewritten {before after : Catalog} {row : SkillHubCatalogRow}
    {change : SkillHubCatalogRow → SkillHubCatalogRow} (rewrites : before.Rewrites after row.id change)
    (found : before.skills.lookup row.id = some row) {P : SkillHubCatalogRow → Prop}
    (kept : P row → P (change row)) {id : String} {old : SkillHubCatalogRow}
    (located : before.skills.lookup id = some old) (holds : P old) :
    ∃ new, after.skills.lookup id = some new ∧ P new := by
  by_cases same : id = row.id
  · rw [same, found] at located
    cases located
    rw [same]
    exact ⟨change row, rewrites.here found, kept holds⟩
  · exact ⟨old, (rewrites.elsewhere same).trans located, holds⟩

theorem effect {before after : SkillHub} (effect : Effect before after) : Keeps before after := by
  cases effect with
  | elsewhere skills publications published =>
    constructor
    · rw [publications]
      exact fun _ known _ => known
    · rw [skills]
      exact fun _ row _ found bound => ⟨row, found, bound⟩
    · rw [skills]
      exact fun _ row found inPurge => ⟨row, found, inPurge⟩
  | @bound row found unbound registryId skills publications published =>
    constructor
    · rw [publications]
      exact fun _ known _ => known
    · intro id old other located bound
      refine rewritten skills found (P := fun row => row.registryId = some other) ?_ located bound
      rw [unbound]
      exact fun none_ => absurd none_ (Option.some_ne_none other).symm
    · exact fun id old located inPurge => rewritten skills found (P := fun row => row.InPurge)
        (fun inPurge => inPurge) located inPurge
  | @edited row found idle change keepsId registry version purged purge skills publications published =>
    constructor
    · rw [publications]
      exact fun _ known _ => known
    · exact fun id old other located bound => rewritten skills found
        (P := fun row => row.registryId = some other) (fun bound => registry.trans bound) located bound
    · exact fun id old located inPurge => rewritten skills found (P := fun row => row.InPurge) purge located inPurge
  | @reserved row publication known available skill revision pending idle publications published =>
    have kept : ∀ id found, before.catalog.skills.lookup id = some found →
        after.catalog.skills.lookup id = some found := by
      intro id found located
      rcases known with ⟨_, same⟩ | ⟨_, _, inserted⟩
      · rw [same, located]
      · rw [Table.lookup_insert? inserted, if_neg, located]
        intro same
        have absent := Table.insert?_absent inserted
        rw [same, located] at absent
        cases absent
    constructor
    · exact fun _ isOld _ => (Table.mem_insert? publications).mpr (.inl isOld)
    · exact fun id row _ located bound => ⟨row, kept id row located, bound⟩
    · exact fun id row located inPurge => ⟨row, kept id row located, inPurge⟩
  | @completed row publication found available skill pending known registryId now registry skills
      publications published =>
      constructor
      · rw [publications]
        exact fun other isOther closed => completed_stays known pending isOther closed
      · intro id old other located bound
        refine rewritten skills found (P := fun row => row.registryId = some other) ?_ located bound
        intro isOther
        rcases registry with unbound | same
        · rw [unbound] at isOther
          exact absurd isOther (Option.some_ne_none other).symm
        · exact same.symm.trans isOther
      · exact fun id old located inPurge => rewritten skills found (P := fun row => row.InPurge)
          (fun inPurge => inPurge) located inPurge
  | @cancelled row publication found skill pending known now change keepsId registry version purged
      pendingPurge skills publications published =>
      constructor
      · rw [publications]
        exact fun other isOther closed => completed_stays known pending isOther closed
      · exact fun id old other located bound => rewritten skills found
          (P := fun row => row.registryId = some other) (fun bound => registry.trans bound) located bound
      · intro id old located inPurge
        refine rewritten skills found (P := fun row => row.InPurge) ?_ located inPurge
        intro inPurge
        unfold SkillHubCatalogRow.InPurge
        rw [pendingPurge, purged]
        exact inPurge

theorem run (hub : SkillHub) (operations : List CatalogOperation) : Keeps hub (SkillHub.machine.run hub operations) :=
  Machine.run_related refl (fun first second => first.trans second)
    (fun hub operation => effect (hub.step_effect operation)) hub operations

end Keeps

end PlatformClaw.Skills
