/-! # Walking parent keys

Records that name their parent by key, and a lookup of keys. A walk follows the
parents up to a record without one and gives up at a missing record or a record
met before. `Ancestry` says what the walk should return; ranks that decrease
towards the root make it total.
-/

namespace ParentWalk

variable {α β κ : Type}

/-- Collect `current` and its ancestors. Nothing is returned for a dangling parent
    key or a cycle; `fuel` bounds the records visited. -/
def walk [DecidableEq κ] (key : α → κ) (parentKey : α → Option κ) (get : κ → Option α) :
    Nat → List κ → List α → α → List α
  | 0, _, _, _ => []
  | fuel + 1, seen, lineage, current =>
    if key current ∈ seen then []
    else
      match parentKey current with
      | none => lineage ++ [current]
      | some parent =>
        match get parent with
        | none => []
        | some next =>
          walk key parentKey get fuel (key current :: seen) (lineage ++ [current]) next

/-- `lineage` is the record and all its ancestors, nearest first. -/
inductive Ancestry (parentKey : α → Option κ) (get : κ → Option α) : α → List α → Prop where
  | root {record : α} (orphan : parentKey record = none) : Ancestry parentKey get record [record]
  | child {record parent : α} {k : κ} {lineage : List α} (named : parentKey record = some k)
      (found : get k = some parent) (rest : Ancestry parentKey get parent lineage) :
      Ancestry parentKey get record (record :: lineage)

variable {key : α → κ} {parentKey : α → Option κ} {get : κ → Option α}

namespace Ancestry

theorem head_mem {record : α} {lineage : List α} (chain : Ancestry parentKey get record lineage) :
    record ∈ lineage := by
  cases chain with
  | root orphan => exact List.mem_cons_self
  | child named found rest => exact List.mem_cons_self

theorem unique {record : α} {first second : List α} (left : Ancestry parentKey get record first)
    (right : Ancestry parentKey get record second) : first = second := by
  induction left generalizing second with
  | root orphan =>
    cases right with
    | root _ => rfl
    | child named _ _ => rw [orphan] at named; cases named
  | child named found rest ih =>
    cases right with
    | root orphan => rw [orphan] at named; cases named
    | child named' found' rest' =>
      rw [named] at named'
      cases named'
      rw [found] at found'
      cases found'
      rw [ih rest']

theorem walk_eq [DecidableEq κ] {record : α} {lineage : List α} (chain : Ancestry parentKey get record lineage)
    (distinct : lineage.Pairwise fun a b => key a ≠ key b) {fuel : Nat} {seen : List κ}
    (fresh : ∀ ancestor ∈ lineage, key ancestor ∉ seen) (enough : lineage.length ≤ fuel)
    (collected : List α) :
    walk key parentKey get fuel seen collected record = collected ++ lineage := by
  induction chain generalizing fuel seen collected with
  | root orphan =>
    cases fuel with
    | zero => cases enough
    | succ fuel => rw [walk, if_neg (fresh _ List.mem_cons_self), orphan]
  | @child record parent k lineage named found rest ih =>
    cases fuel with
    | zero => cases enough
    | succ fuel =>
      have apart := List.pairwise_cons.mp distinct
      rw [walk, if_neg (fresh _ List.mem_cons_self), named]
      simp only [found]
      rw [ih apart.2 ?_ (by simpa using enough), List.append_assoc, List.singleton_append]
      intro ancestor inRest inSeen
      cases List.mem_cons.mp inSeen with
      | inl same => exact apart.1 ancestor inRest same.symm
      | inr earlier => exact fresh ancestor (List.mem_cons_of_mem _ inRest) earlier

theorem map {parentKey' : β → Option κ} {get' : κ → Option β} {f : α → β} {record : α}
    {lineage : List α} (chain : Ancestry parentKey get record lineage)
    (parents : ∀ ancestor ∈ lineage, parentKey' (f ancestor) = parentKey ancestor)
    (lookups : ∀ ancestor ∈ lineage, ∀ k, get k = some ancestor → get' k = some (f ancestor)) :
    Ancestry parentKey' get' (f record) (lineage.map f) := by
  induction chain with
  | root orphan => exact .root ((parents _ List.mem_cons_self).trans orphan)
  | child named found rest ih =>
    refine .child ((parents _ List.mem_cons_self).trans named)
      (lookups _ (List.mem_cons_of_mem _ rest.head_mem) _ found) (ih ?_ ?_)
    · exact fun ancestor inRest => parents ancestor (List.mem_cons_of_mem _ inRest)
    · exact fun ancestor inRest => lookups ancestor (List.mem_cons_of_mem _ inRest)

theorem of_walk [DecidableEq κ] {fuel : Nat} {seen : List κ} {collected : List α} {record : α}
    (found : walk key parentKey get fuel seen collected record ≠ []) :
    ∃ lineage, walk key parentKey get fuel seen collected record = collected ++ lineage ∧
      Ancestry parentKey get record lineage ∧
      (lineage.Pairwise fun a b => key a ≠ key b) ∧
      (∀ ancestor ∈ lineage, key ancestor ∉ seen) ∧ lineage.length ≤ fuel := by
  induction fuel generalizing seen collected record with
  | zero => exact absurd rfl found
  | succ fuel ih =>
    rw [walk] at found ⊢
    by_cases met : key record ∈ seen
    · rw [if_pos met] at found
      exact absurd rfl found
    · rw [if_neg met] at found ⊢
      cases named : parentKey record with
      | none =>
        refine ⟨[record], rfl, .root named, List.pairwise_singleton _ _, ?_, by simp⟩
        intro ancestor same
        rwa [List.mem_singleton.mp same]
      | some k =>
        simp only [named] at found ⊢
        cases resolved : get k with
        | none =>
          simp only [resolved] at found
          exact absurd rfl found
        | some parent =>
          simp only [resolved] at found ⊢
          obtain ⟨rest, result, chain, distinct, fresh, short⟩ := ih found
          refine ⟨record :: rest, ?_, .child named resolved chain, ?_, ?_, ?_⟩
          · rw [result, List.append_assoc, List.singleton_append]
          · refine List.pairwise_cons.mpr ⟨?_, distinct⟩
            intro ancestor inRest same
            exact fresh ancestor inRest (same ▸ List.mem_cons_self)
          · intro ancestor inLineage
            cases List.mem_cons.mp inLineage with
            | inl same => rwa [same]
            | inr later =>
              exact fun inSeen => fresh ancestor later (List.mem_cons_of_mem _ inSeen)
          · simpa using short

theorem suffix {record ancestor : α} {lineage : List α}
    (chain : Ancestry parentKey get record lineage) (inLineage : ancestor ∈ lineage) :
    ∃ rest, Ancestry parentKey get ancestor rest ∧ rest <:+ lineage := by
  induction chain with
  | root orphan =>
    cases List.mem_singleton.mp inLineage
    exact ⟨_, .root orphan, List.suffix_refl _⟩
  | child named found rest ih =>
    cases List.mem_cons.mp inLineage with
    | inl same =>
      rw [same]
      exact ⟨_, .child named found rest, List.suffix_refl _⟩
    | inr later =>
      obtain ⟨tail, chain, shorter⟩ := ih later
      exact ⟨tail, chain, shorter.trans (List.suffix_cons _ _)⟩

/-- Every member but the first was looked up. -/
theorem found_mem {record ancestor : α} {lineage : List α}
    (chain : Ancestry parentKey get record lineage) (inLineage : ancestor ∈ lineage) :
    ancestor = record ∨ ∃ k, get k = some ancestor := by
  induction chain with
  | root orphan => exact .inl (List.mem_singleton.mp inLineage)
  | child named found rest ih =>
    cases List.mem_cons.mp inLineage with
    | inl same => exact .inl same
    | inr later =>
      cases ih later with
      | inl same => exact .inr ⟨_, same ▸ found⟩
      | inr resolved => exact .inr resolved

variable {P : α → Prop} {rank : α → Nat} (descends : ∀ record, P record → ∀ k parent,
  parentKey record = some k → get k = some parent → P parent ∧ rank parent < rank record)

include descends in
theorem forall_mem {record : α} {lineage : List α} (chain : Ancestry parentKey get record lineage)
    (start : P record) : ∀ ancestor ∈ lineage, P ancestor ∧ rank ancestor ≤ rank record := by
  induction chain with
  | root orphan =>
    intro ancestor inLineage
    rw [List.mem_singleton.mp inLineage]
    exact ⟨start, Nat.le_refl _⟩
  | child named found rest ih =>
    obtain ⟨holds, smaller⟩ := descends _ start _ _ named found
    intro ancestor inLineage
    cases List.mem_cons.mp inLineage with
    | inl same => rw [same]; exact ⟨start, Nat.le_refl _⟩
    | inr later =>
      have below := ih holds ancestor later
      exact ⟨below.1, by omega⟩

include descends in
theorem ranks_decrease {record : α} {lineage : List α}
    (chain : Ancestry parentKey get record lineage) (start : P record) :
    lineage.Pairwise fun a b => rank b < rank a := by
  induction chain with
  | root orphan => exact List.pairwise_singleton _ _
  | child named found rest ih =>
    obtain ⟨holds, smaller⟩ := descends _ start _ _ named found
    apply List.pairwise_cons.mpr
    refine ⟨?_, ih holds⟩
    intro ancestor inRest
    have below := forall_mem descends rest holds ancestor inRest
    omega

include descends in
theorem length_le {record : α} {lineage : List α} (chain : Ancestry parentKey get record lineage)
    (start : P record) : lineage.length ≤ rank record + 1 := by
  induction chain with
  | root orphan => simp
  | child named found rest ih =>
    obtain ⟨holds, smaller⟩ := descends _ start _ _ named found
    have shorter := ih holds
    simp only [List.length_cons]
    omega

include descends in
theorem exists_of_resolves (resolves : ∀ record, P record → ∀ k, parentKey record = some k →
    ∃ parent, get k = some parent) {record : α} (start : P record) :
    ∃ lineage, Ancestry parentKey get record lineage := by
  generalize bound : rank record = n
  induction n using Nat.strongRecOn generalizing record with
  | ind n ih =>
    cases named : parentKey record with
    | none => exact ⟨_, .root named⟩
    | some k =>
      obtain ⟨parent, found⟩ := resolves record start k named
      obtain ⟨holds, smaller⟩ := descends _ start _ _ named found
      obtain ⟨lineage, rest⟩ := ih (rank parent) (by omega) holds rfl
      exact ⟨_, .child named found rest⟩

end Ancestry

end ParentWalk
