import Mathlib.Data.String.Basic
import PlatformClaw.Library.Turns
import PlatformClaw.Skills.Effects

/-! # Turns of maintenance

Maintenance claims pending publications, and skills that are due for purge, in batches that go around:
each batch begins behind the one before it, whatever the cursor was at first.
-/

namespace PlatformClaw.Skills

open Except (bind_ok_iff ensure_ok_iff)

inductive MaintenanceClaim
  | publications
  | purge (now : Int)
deriving DecidableEq, Repr

def MaintenanceClaim.kind : MaintenanceClaim → CursorKind
  | .publications => .publication
  | .purge _ => .purge

namespace Catalog

def claimable (catalog : Catalog) : MaintenanceClaim → List String
  | .publications =>
    (catalog.publications.rows.filter fun publication => publication.state = .pending).map
      SkillHubCatalogPublicationRow.operationId
  | .purge now =>
    (catalog.skills.rows.filter fun row => overdue row now && row.purgedAt = none).map SkillHubCatalogRow.id

/-- The ids that a claim returns. -/
def claimed (catalog : Catalog) (claim : MaintenanceClaim) (limit : Int) : List String :=
  rotation (catalog.maintenanceCursor claim.kind) limit.toNat (catalog.claimable claim)

def claim (catalog : Catalog) (limit : Int) : MaintenanceClaim → Except CatalogError Catalog
  | .publications => catalog.claimPendingPublications limit
  | .purge now => catalog.claimPurgeDue now limit

/-- What successive claims return. -/
def batches (catalog : Catalog) (limit : Int) : List MaintenanceClaim → List (List String)
  | [] => []
  | claim :: rest =>
    match catalog.claim limit claim with
    | .ok after => catalog.claimed claim limit :: after.batches limit rest
    | .error _ => []

variable {catalog : Catalog} {limit : Int}

theorem claim_eq (valid : isRegistryId limit = true) (claim : MaintenanceClaim) : catalog.claim limit claim =
      .ok (catalog.advanceMaintenanceCursor claim.kind (catalog.claimed claim limit).getLast?) := by
  cases claim with
  | publications => exact bind_ok_iff.mpr ⟨(), ensure_ok_iff.mpr valid, rfl⟩
  | purge now => exact bind_ok_iff.mpr ⟨(), ensure_ok_iff.mpr valid, rfl⟩

theorem claimable_advance (kind : CursorKind) (afterId : Option String) (claim : MaintenanceClaim) :
    (catalog.advanceMaintenanceCursor kind afterId).claimable claim = catalog.claimable claim := by
  cases afterId <;> cases claim <;> rfl

theorem maintenanceCursor_advance (kind : CursorKind) (afterId : Option String) :
    (catalog.advanceMaintenanceCursor kind afterId).maintenanceCursor kind = afterId := by
  cases afterId with
  | none =>
    simp only [advanceMaintenanceCursor, maintenanceCursor, Table.lookup_delete]
    cases found : catalog.cursors.lookup kind with
    | none => rfl
    | some row => simp [(Table.lookup_eq_some_iff.mp found).2]
  | some afterId =>
    simp only [advanceMaintenanceCursor, maintenanceCursor, Table.lookup_upsert, if_true]
    cases catalog.cursors.lookup kind <;> rfl

def orderedIds (ids : List String) : List String := ids.mergeSort fun a b => decide (a ≤ b)

theorem orderedIds_perm (ids : List String) : (orderedIds ids).Perm ids := List.mergeSort_perm _ _

theorem orderedIds_sorted {ids : List String} (distinct : ids.Nodup) : (orderedIds ids).Pairwise (· < ·) := by
  have upTo : (orderedIds ids).Pairwise fun a b => decide (a ≤ b) = true := by
    apply List.pairwise_mergeSort
    · intro a b c first second
      exact decide_eq_true (le_trans (of_decide_eq_true first) (of_decide_eq_true second))
    · intro a b
      rcases le_total a b with less | more
      · simp [less]
      · simp [more]
  have apart := (orderedIds_perm ids).nodup_iff.mpr distinct
  refine (upTo.and apart).imp ?_
  rintro a b ⟨less, different⟩
  exact lt_of_le_of_ne (of_decide_eq_true less) different

theorem orderedIds_eq_of_perm {ids others : List String} (distinct : ids.Nodup)
    (same : others.Perm ids) : orderedIds others = orderedIds ids := by
  apply List.Perm.eq_of_pairwise _ (orderedIds_sorted (same.nodup_iff.mpr distinct)) (orderedIds_sorted distinct)
  · exact (orderedIds_perm others).trans (same.trans (orderedIds_perm ids).symm)
  · intro a b _ _ less more
    exact absurd (lt_trans less more) (lt_irrefl a)

theorem rotation_eq (cursor : Option String) (count : Nat) (ids : List String) :
    rotation cursor count ids = (Turns.ring cursor (orderedIds ids)).take count := by
  cases cursor with
  | none => rfl
  | some cursor =>
    have enough : ∀ items : List String, count - (items.take count).length = count - items.length := by
      intro items
      rw [List.length_take]
      omega
    unfold rotation Turns.ring
    dsimp only
    rw [List.take_append, enough]
    rfl

theorem batches_eq (valid : isRegistryId limit = true) {kind : CursorKind} {ids : List String}
    (distinct : ids.Nodup) {claims : List MaintenanceClaim} (catalog : Catalog)
    (fixed : ∀ claim ∈ claims, claim.kind = kind ∧ (catalog.claimable claim).Perm ids) :
    catalog.batches limit claims = Turns.turns limit.toNat claims.length
      (Turns.ring (catalog.maintenanceCursor kind) (orderedIds ids)) := by
  have positive : 0 < limit.toNat := by
    unfold isRegistryId at valid
    simp only [Bool.and_eq_true, decide_eq_true_eq] at valid
    omega
  induction claims generalizing catalog with
  | nil => rfl
  | cons claim rest ih =>
    obtain ⟨⟨ofKind, same⟩, later⟩ := List.forall_mem_cons.mp fixed
    have batch : catalog.claimed claim limit =
        (Turns.ring (catalog.maintenanceCursor kind) (orderedIds ids)).take limit.toNat := by
      rw [claimed, rotation_eq, orderedIds_eq_of_perm distinct same, ofKind]
    have next := ih (catalog.advanceMaintenanceCursor kind (catalog.claimed claim limit).getLast?)
      fun other inRest => by
        rw [claimable_advance]
        exact later other inRest
    rw [maintenanceCursor_advance] at next
    rw [batches, claim_eq valid, ofKind]
    dsimp only
    rw [next, batch, Turns.ring_after_batch (orderedIds_sorted distinct) positive]
    rfl

/-- Claims on a fixed set of ids are fair: each returns as many distinct ids as it may, and as soon as
there were claims enough, each id was returned, wherever the cursor was at first. -/
theorem maintenance_claims_are_fair (catalog : Catalog) (valid : isRegistryId limit = true)
    (kind : CursorKind) (ids : List String) (distinct : ids.Nodup) (claims : List MaintenanceClaim)
    (fixed : ∀ claim ∈ claims, claim.kind = kind ∧ (catalog.claimable claim).Perm ids) :
    (catalog.batches limit claims).length = claims.length ∧ (∀ batch ∈ catalog.batches limit claims,
        batch.Nodup ∧ batch.length = min ids.length limit.toNat ∧ ∀ id ∈ batch, id ∈ ids) ∧
      (ids.length ≤ claims.length * limit.toNat →
        ∀ id ∈ ids, ∃ batch ∈ catalog.batches limit claims, id ∈ batch) := by
  rw [batches_eq valid distinct catalog fixed]
  have perm := (Turns.ring_perm (catalog.maintenanceCursor kind)
    (orderedIds_sorted distinct)).trans (orderedIds_perm ids)
  refine ⟨Turns.length_turns _ _ _, fun batch inTurns => ?_, fun enough id inIds => ?_⟩
  · obtain ⟨turned, same, rfl⟩ := Turns.mem_batch inTurns
    have all := same.trans perm
    refine ⟨(all.nodup_iff.mpr distinct).sublist (List.take_sublist _ _), ?_, fun id inBatch => ?_⟩
    · rw [List.length_take, all.length_eq, Nat.min_comm]
    · exact all.mem_iff.mp (List.mem_of_mem_take inBatch)
  · apply Turns.served
    rw [List.take_of_length_le (by rw [perm.length_eq]; exact enough)]
    exact perm.mem_iff.mpr inIds

/-- Two pending publications, and a cursor at one that is gone. -/
def twoPending : Catalog where
  platformUsers := Table.empty
  managedScopes := Table.empty
  skills := Table.empty
  publications :=
    { rows :=
        [⟨"b", "skill-b", "owner", "1.0.0", "f1", 1, .pending, 0, 0⟩,
          ⟨"d", "skill-d", "owner", "1.0.0", "f2", 1, .pending, 0, 0⟩]
      keyed := by decide }
  coordinates := Table.empty
  recipients := Table.empty
  icons := Table.empty
  history := []
  cursors := { rows := [⟨.publication, "c"⟩], keyed := by decide }

theorem maintenance_claims_are_fair_two :
    (∃ batch ∈ twoPending.batches 1 [.publications, .publications], "b" ∈ batch) ∧
      ∃ batch ∈ twoPending.batches 1 [.publications, .publications], "d" ∈ batch := by
  have fair := maintenance_claims_are_fair twoPending (by decide : isRegistryId 1 = true)
    .publication ["b", "d"] (by decide) [.publications, .publications] (by decide)
  exact ⟨fair.2.2 (by decide) "b" (by decide), fair.2.2 (by decide) "d" (by decide)⟩

end Catalog

end PlatformClaw.Skills
