/-! # Guarded results

Fallible code is translated to `Except`. The lemmas below read a successful
result backwards: a sequence succeeded, so each of its steps did, and every
guard on the way was satisfied. Invariant proofs use them in place of unfolding
the code once more.
-/

namespace Except

/-- Throw `error` unless the condition holds. -/
def ensure {ε : Type u} (condition : Prop) [Decidable condition] (error : ε) : Except ε Unit :=
  if condition then .ok () else .error error

def orThrow {ε : Type u} {α : Type v} (value : Option α) (error : ε) : Except ε α :=
  match value with
  | some a => .ok a
  | none => .error error

def refuse {ε : Type u} (error : Option ε) : Except ε Unit :=
  match error with
  | some error => .error error
  | none => .ok ()

@[simp] theorem ensure_ok_iff {ε : Type u} {condition : Prop} [Decidable condition] {error : ε}
    {done : Unit} : ensure condition error = .ok done ↔ condition := by
  cases done
  unfold ensure
  split <;> simp_all

theorem ensure_error {ε : Type u} {condition : Prop} [Decidable condition] {error other : ε}
    (refused : ensure condition error = .error other) : other = error := by
  unfold ensure at refused
  split at refused
  · cases refused
  · cases refused
    rfl

@[simp] theorem orThrow_ok_iff {ε : Type u} {α : Type v} {value : Option α} {error : ε} {a : α} :
    orThrow value error = .ok a ↔ value = some a := by
  cases value <;> simp [orThrow]

/-- A sequence succeeds exactly when its two parts do, one after the other. -/
theorem bind_ok_iff {ε : Type u} {α β : Type v} {first : Except ε α} {next : α → Except ε β} {b : β} :
    (first >>= next) = .ok b ↔ ∃ a, first = .ok a ∧ next a = .ok b := by
  cases first with
  | error e => simp [bind, Except.bind]
  | ok a => simp [bind, Except.bind]

theorem map_ok_iff {ε : Type u} {α β : Type v} {f : α → β} {value : Except ε α} {b : β} :
    (f <$> value) = .ok b ↔ ∃ a, value = .ok a ∧ f a = b := by
  cases value with
  | error e => simp [Functor.map, Except.map]
  | ok a => simp [Functor.map, Except.map]

@[simp] theorem pure_ok_iff {ε : Type u} {α : Type v} {a b : α} :
    (pure a : Except ε α) = .ok b ↔ a = b := by
  simp [pure, Except.pure]

@[simp] theorem ite_ok_iff {ε : Type u} {α : Type v} {condition : Prop} [Decidable condition]
    {yes no : Except ε α} {b : α} :
    (if condition then yes else no) = .ok b ↔ (condition ∧ yes = .ok b) ∨ (¬condition ∧ no = .ok b) := by
  split <;> simp_all

theorem ok_of_toOption {ε : Type u} {α : Type v} {value : Except ε α} {a : α}
    (done : value.toOption = some a) : value = .ok a := by
  cases value with
  | error e => exact absurd done (Option.some_ne_none a).symm
  | ok b => exact congrArg Except.ok (Option.some.inj done)

end Except
