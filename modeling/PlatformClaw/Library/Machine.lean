/-! # Runs of a machine

A store is modelled as a total step function: a rejected operation is a step
that leaves the state where it was. The rules below lift what one step preserves
to whole runs, once for unrestricted runs and once for runs whose operations
carry non-decreasing times.
-/

/-- A state machine, given by what one operation does. -/
structure Machine (σ : Type u) (ω : Type v) where
  step : σ → ω → σ

namespace Machine

variable {σ : Type u} {ω : Type v} (machine : Machine σ ω)

def run (start : σ) (operations : List ω) : σ :=
  operations.foldl machine.step start

@[simp] theorem run_nil (start : σ) : machine.run start [] = start := rfl

@[simp] theorem run_cons (start : σ) (operation : ω) (rest : List ω) :
    machine.run start (operation :: rest) = machine.run (machine.step start operation) rest := rfl

theorem run_append (start : σ) (early late : List ω) :
    machine.run start (early ++ late) = machine.run (machine.run start early) late := by
  simp only [run, List.foldl_append]

/-- The states that some run from `start` ends in. -/
def Reachable (start state : σ) : Prop :=
  ∃ operations, machine.run start operations = state

variable {machine}

theorem run_invariant {P : σ → Prop} (preserved : ∀ state operation, P state →
    P (machine.step state operation)) {start : σ} (initial : P start) (operations : List ω) :
    P (machine.run start operations) := by
  induction operations generalizing start with
  | nil => exact initial
  | cons operation rest ih => exact ih (preserved start operation initial)

theorem run_invariant_of {P : σ → Prop} {admitted : ω → Prop} (preserved : ∀ state operation,
    admitted operation → P state → P (machine.step state operation)) {start : σ}
    (initial : P start) (operations : List ω)
    (all : ∀ operation ∈ operations, admitted operation) : P (machine.run start operations) := by
  induction operations generalizing start with
  | nil => exact initial
  | cons operation rest ih =>
    obtain ⟨first, later⟩ := List.forall_mem_cons.mp all
    exact ih (preserved start operation first initial) later

def Meets (machine : Machine σ ω) (condition : σ → ω → Prop) : σ → List ω → Prop
  | _, [] => True
  | state, operation :: rest =>
    condition state operation ∧ machine.Meets condition (machine.step state operation) rest

instance Meets.decidable {machine : Machine σ ω} {condition : σ → ω → Prop}
    [∀ state operation, Decidable (condition state operation)] :
    ∀ (start : σ) (operations : List ω), Decidable (machine.Meets condition start operations)
  | _, [] => instDecidableTrue
  | start, operation :: rest =>
    have : Decidable (machine.Meets condition (machine.step start operation) rest) :=
      Meets.decidable (machine.step start operation) rest
    inferInstanceAs (Decidable (_ ∧ _))

theorem meets_of_forall {condition : σ → ω → Prop} {operations : List ω}
    (always : ∀ operation ∈ operations, ∀ state, condition state operation) (start : σ) :
    machine.Meets condition start operations := by
  induction operations generalizing start with
  | nil => trivial
  | cons operation rest ih =>
    obtain ⟨first, later⟩ := List.forall_mem_cons.mp always
    exact ⟨first start, ih later (machine.step start operation)⟩

theorem Meets.invariant {condition : σ → ω → Prop} {P : σ → Prop}
    (preserved : ∀ state operation, condition state operation → P state →
      P (machine.step state operation)) {start : σ} (initial : P start) {operations : List ω}
    (meets : machine.Meets condition start operations) : P (machine.run start operations) := by
  induction operations generalizing start with
  | nil => exact initial
  | cons operation rest ih => exact ih (preserved start operation meets.1 initial) meets.2

theorem run_related {R : σ → σ → Prop} (refl : ∀ state, R state state)
    (trans : ∀ {early middle late}, R early middle → R middle late → R early late)
    (step : ∀ state operation, R state (machine.step state operation)) (start : σ)
    (operations : List ω) : R start (machine.run start operations) := by
  induction operations generalizing start with
  | nil => exact refl start
  | cons operation rest ih => exact trans (step start operation) (ih (machine.step start operation))

theorem Reachable.invariant {P : σ → Prop} (preserved : ∀ state operation, P state →
    P (machine.step state operation)) {start state : σ} (initial : P start)
    (reached : machine.Reachable start state) : P state := by
  obtain ⟨operations, rfl⟩ := reached
  exact run_invariant preserved initial operations

end Machine
