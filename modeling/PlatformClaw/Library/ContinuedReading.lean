/-! # Reading on from where an answer stopped

A reader that gets a piece of a text with each answer, and where to go on. If every answer is a piece of what is left
and every place to go on leaves less, the reading ends, and the pieces are the text.
-/

namespace ContinuedReading

variable {ε σ α : Type}

/-- The pieces that are read from a place on, and the error that stopped the reading, if one did. -/
inductive Reads (answer : σ → Except ε (List α × Option σ)) : σ → List (List α) → Option ε → Prop
  | ends {place : σ} {piece : List α} (last : answer place = .ok (piece, none)) : Reads answer place [piece] none
  | stopped {place : σ} {error : ε} (refused : answer place = .error error) : Reads answer place [] (some error)
  | goesOn {place next : σ} {piece : List α} {pieces : List (List α)} {error : Option ε}
      (more : answer place = .ok (piece, some next)) (later : Reads answer next pieces error) :
      Reads answer place (piece :: pieces) error

/-- Pieces of a text, each of them good for what was left when it was taken. -/
structure CutsUp (good : List α → List α → Prop) (text : List α) (pieces : List (List α)) : Prop where
  whole : pieces.flatten = text
  each : ∀ before piece after, pieces = before ++ piece :: after → good piece (piece :: after).flatten

theorem CutsUp.cons {good : List α → List α → Prop} {piece rest : List α} {pieces : List (List α)}
    (taken : good piece (piece ++ rest)) (later : CutsUp good rest pieces) :
    CutsUp good (piece ++ rest) (piece :: pieces) where
  whole := by rw [List.flatten_cons, later.whole]
  each before other after split := by
    cases before with
    | nil =>
      cases split
      rw [List.flatten_cons, later.whole]
      exact taken
    | cons first others =>
      cases split
      exact later.each others other after rfl

theorem reads_of_progress {answer : σ → Except ε (List α × Option σ)} {inv : σ → Prop} {left : σ → List α}
    {good : List α → List α → Prop} {refusal : ε → Prop}
    (step : ∀ place, inv place → (∃ error, answer place = .error error ∧ refusal error) ∨
      (answer place = .ok (left place, none) ∧ good (left place) (left place)) ∨
      ∃ piece next, answer place = .ok (piece, some next) ∧ inv next ∧ piece ≠ [] ∧
        left place = piece ++ left next ∧ good piece (left place))
    {place : σ} (holds : inv place) :
    ∃ pieces error, Reads answer place pieces error ∧
      ((error = none ∧ CutsUp good (left place) pieces) ∨ ∃ refused, error = some refused ∧ refusal refused) := by
  generalize size : (left place).length = length
  induction length using Nat.strongRecOn generalizing place with
  | _ length ih =>
    obtain ⟨error, refused, isRefusal⟩ | ⟨last, taken⟩ | ⟨piece, next, more, kept, some_, split, taken⟩ :=
      step place holds
    · exact ⟨[], some error, .stopped refused, .inr ⟨error, rfl, isRefusal⟩⟩
    · have nothing : CutsUp good ([] : List α) [] := ⟨rfl, fun before _ _ none_ => by cases before <;> cases none_⟩
      have only := @CutsUp.cons α good (left place) [] [] (by rwa [List.append_nil]) nothing
      rw [List.append_nil] at only
      exact ⟨[left place], none, .ends last, .inl ⟨rfl, only⟩⟩
    · have shorter : (left next).length < length := by
        have positive := List.length_pos_iff.mpr some_
        rw [← size, split, List.length_append]
        omega
      obtain ⟨pieces, error, later, outcome⟩ := ih _ shorter kept rfl
      refine ⟨piece :: pieces, error, .goesOn more later, ?_⟩
      obtain ⟨none_, cuts⟩ | refused := outcome
      · rw [split] at taken ⊢
        exact .inl ⟨none_, cuts.cons taken⟩
      · exact .inr refused

end ContinuedReading
