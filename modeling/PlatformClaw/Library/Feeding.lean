/-! # Readers fed in chunks

A reader is given a text in chunks until it has read enough; what it has not read of its last chunk and the chunks
behind it are left over. A reader that keeps what it needs of a chunk reads the same of the whole text at once.
-/

namespace Feeding

variable {σ α β : Type}

/-- What is left over, if the reader gets to an end. -/
def feed (step : σ → List α → Option (List α) × σ) : σ → List (List α) → Option (List α)
  | _, [] => none
  | state, chunk :: rest =>
    match step state chunk with
    | (some suffix, _) => some (suffix ++ rest.flatten)
    | (none, next) => feed step next rest

variable {step : σ → List α → Option (List α) × σ} {inv : σ → Prop}

theorem feed_done {state next : σ} {chunk suffix : List α} {rest : List (List α)}
    (done : step state chunk = (some suffix, next)) :
    feed step state (chunk :: rest) = some (suffix ++ rest.flatten) := by
  rw [feed, done]

theorem feed_waits {state next : σ} {chunk : List α} {rest : List (List α)}
    (waits : step state chunk = (none, next)) : feed step state (chunk :: rest) = feed step next rest := by
  rw [feed, waits]

theorem feed_view {view : List α → β}
    (keeps : ∀ state chunk next, inv state → step state chunk = (none, next) → inv next)
    (waits : ∀ state chunk next more, inv state → step state chunk = (none, next) →
      (step next more).1.map view = (step state (chunk ++ more)).1.map view)
    (ends : ∀ state chunk suffix next more, inv state → step state chunk = (some suffix, next) →
      (step state (chunk ++ more)).1.map view = some (view (suffix ++ more)))
    {state : σ} (holds : inv state) (chunk : List α) (chunks : List (List α)) :
    (feed step state (chunk :: chunks)).map view = (step state (chunk :: chunks).flatten).1.map view := by
  induction chunks generalizing state chunk with
  | nil =>
    rw [List.flatten_cons, List.flatten_nil, List.append_nil]
    cases read : step state chunk with
    | mk result next =>
      cases result with
      | none => rw [feed_waits read]; rfl
      | some suffix => rw [feed_done read, List.flatten_nil, List.append_nil]
  | cons following rest ih =>
    rw [List.flatten_cons]
    cases read : step state chunk with
    | mk result next =>
      cases result with
      | none =>
        rw [feed_waits read, ih (keeps state chunk next holds read), waits state chunk next _ holds read]
      | some suffix =>
        rw [feed_done read, ends state chunk suffix next _ holds read]
        rfl

theorem feed_cases (waits : ∀ state chunk next more, step state chunk = (none, next) →
      (step next more).1 = (step state (chunk ++ more)).1)
    (state : σ) (chunk : List α) (chunks : List (List α)) :
    (feed step state (chunk :: chunks) = none ∧ (step state (chunk :: chunks).flatten).1 = none) ∨
      ∃ before part rest suffix, chunk :: chunks = before ++ part :: rest ∧
        (step state (before.flatten ++ part)).1 = some suffix ∧
        (before ≠ [] → (step state before.flatten).1 = none) ∧
        feed step state (chunk :: chunks) = some (suffix ++ rest.flatten) := by
  induction chunks generalizing state chunk with
  | nil =>
    rw [List.flatten_cons, List.flatten_nil, List.append_nil]
    cases read : step state chunk with
    | mk result next =>
      cases result with
      | none => exact .inl ⟨feed_waits read, rfl⟩
      | some suffix =>
        refine .inr ⟨[], chunk, [], suffix, rfl, ?_, fun any => absurd rfl any, feed_done read⟩
        rw [List.flatten_nil, List.nil_append, read]
  | cons following rest ih =>
    cases read : step state chunk with
    | mk result next =>
      cases result with
      | some suffix =>
        refine .inr ⟨[], chunk, following :: rest, suffix, rfl, ?_, fun any => absurd rfl any, feed_done read⟩
        rw [List.flatten_nil, List.nil_append, read]
      | none =>
        rw [feed_waits read, List.flatten_cons, ← waits state chunk next _ read]
        obtain nothing | ⟨before, part, behind, suffix, split, ended, waited, left⟩ := ih next following
        · exact .inl nothing
        · refine .inr ⟨chunk :: before, part, behind, suffix, congrArg _ split, ?_, fun _ => ?_, left⟩
          · rw [List.flatten_cons, List.append_assoc, ← waits state chunk next _ read]
            exact ended
          · rw [List.flatten_cons, ← waits state chunk next _ read]
            cases before with
            | nil =>
              rw [List.flatten_nil, waits state chunk next _ read, List.append_nil, read]
            | cons first others => exact waited (List.cons_ne_nil _ _)

end Feeding
