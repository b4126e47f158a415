import PlatformClaw.Library.ScriptText

/-! # Lines of a text

Splitting at line breaks, with or without a carriage return in front of them,
and joining with line feeds. The two are inverse up to the carriage returns. What
follows the last break of a text is not a line unless something is there.
-/

namespace TextLines

open ScriptText

def lf : Nat := 10

def cr : Nat := 13

def dropCr (line : Text) : Text := if line.getLast? = some cr then line.dropLast else line

/-- Every line but the last one loses the carriage return in front of its break. -/
def dropCrs : List Text → List Text
  | [] => []
  | [last] => [last]
  | line :: next :: rest => dropCr line :: dropCrs (next :: rest)

/-- `text.split(/\r?\n/)`. -/
def split (text : Text) : List Text := dropCrs (text.splitOn lf)

def joined (lines : List Text) : Text := join [lf] lines

/-- The lines of a text that was split: an empty rest after the last break is none. -/
def present (lines : List Text) : List Text :=
  if lines.getLast? = some [] then lines.dropLast else lines

/-- The lines that joining keeps: a lone empty line joins to nothing. -/
def kept (lines : List Text) : List Text := if lines = [[]] then [] else lines

theorem mem_dropLast_append (left : List Text) {right : List Text} {line : Text}
    (inside : line ∈ (left ++ right).dropLast) : line ∈ left ∨ line ∈ right.dropLast := by
  cases right with
  | nil => exact .inl (List.dropLast_subset left (by simpa using inside))
  | cons next right =>
    rw [List.dropLast_append_of_ne_nil (List.cons_ne_nil next right)] at inside
    exact List.mem_append.mp inside

theorem mem_dropLast_of_suffix {part lines : List Text} {line : Text} (suffix : part <:+ lines)
    (inside : line ∈ part.dropLast) : line ∈ lines.dropLast := by
  obtain ⟨front, rfl⟩ := suffix
  have more : part ≠ [] := by
    rintro rfl
    simp at inside
  rw [List.dropLast_append_of_ne_nil more]
  exact List.mem_append_right front inside

theorem mem_of_mem_kept {lines : List Text} {line : Text} (inside : line ∈ kept lines) : line ∈ lines := by
  unfold kept at inside
  split at inside
  · simp at inside
  · exact inside

theorem mem_dropLast_of_kept {lines : List Text} {line : Text} (inside : line ∈ (kept lines).dropLast) :
    line ∈ lines.dropLast := by
  unfold kept at inside
  split at inside
  · simp at inside
  · exact inside

@[simp] theorem joined_nil : joined [] = [] := rfl

@[simp] theorem joined_singleton (line : Text) : joined [line] = line := by
  simp [joined, join]

theorem joined_cons {line : Text} {rest : List Text} (more : rest ≠ []) :
    joined (line :: rest) = line ++ lf :: joined rest := by
  simp [joined, join, List.intercalate_cons_of_ne_nil more]

theorem joined_append {left right : List Text} (more : right ≠ []) (some : left ≠ []) :
    joined (left ++ right) = joined left ++ lf :: joined right := by
  induction left with
  | nil => exact absurd rfl some
  | cons line rest ih =>
    cases rest with
    | nil => simp [joined_cons more]
    | cons next rest =>
      have first : joined (line :: next :: rest) = line ++ lf :: joined (next :: rest) :=
        joined_cons (List.cons_ne_nil next rest)
      rw [List.cons_append, joined_cons (by simp), ih (List.cons_ne_nil next rest), first,
        List.append_assoc, List.cons_append]

theorem joined_eq_nil_iff (lines : List Text) : joined lines = [] ↔ kept lines = [] := by
  unfold kept
  cases lines with
  | nil => simp
  | cons line rest =>
    cases rest with
    | nil => simp
    | cons next rest => simp [joined_cons]

theorem joined_flatten {parts : List (List Text)} (each : ∀ part ∈ parts, part ≠ []) :
    joined (parts.map joined) = joined parts.flatten := by
  induction parts with
  | nil => rfl
  | cons part rest ih =>
    have rest_each : ∀ part ∈ rest, part ≠ [] := fun part inRest => each part (.tail _ inRest)
    cases rest with
    | nil => simp
    | cons next rest =>
      have more : (next :: rest).flatten ≠ [] := by
        simp [each next (.tail _ (.head _))]
      have all : (part :: next :: rest).flatten = part ++ (next :: rest).flatten := rfl
      rw [List.map_cons, joined_cons (by simp), ih rest_each, all, joined_append more (each part (.head _))]

theorem dropCrs_append {left : List Text} (right : List Text) (plain : ∀ line ∈ left, line.getLast? ≠ some cr) :
    dropCrs (left ++ right) = left ++ dropCrs right := by
  induction left with
  | nil => rfl
  | cons line rest ih =>
    have tail := ih fun other inRest => plain other (.tail _ inRest)
    have first : dropCr line = line := if_neg (plain line (.head _))
    cases rest with
    | nil =>
      cases right with
      | nil => rfl
      | cons next right => rw [List.singleton_append, dropCrs, first]; rfl
    | cons next rest =>
      rw [List.cons_append, List.cons_append, dropCrs, first]
      exact congrArg (line :: ·) tail

theorem dropCrs_eq {lines : List Text} (plain : ∀ line ∈ lines.dropLast, line.getLast? ≠ some cr) :
    dropCrs lines = lines := by
  rcases List.eq_nil_or_concat lines with rfl | ⟨front, last, rfl⟩
  · rfl
  · rw [List.concat_eq_append, List.dropLast_concat] at plain
    rw [List.concat_eq_append, dropCrs_append _ plain]
    rfl

theorem splitOn_joined {lines : List Text} (some : lines ≠ []) (free : ∀ line ∈ lines, lf ∉ line) :
    (joined lines).splitOn lf = lines :=
  List.splitOn_intercalate lf free some

theorem split_joined {lines : List Text} (some : lines ≠ []) (free : ∀ line ∈ lines, lf ∉ line) :
    split (joined lines) = dropCrs lines := by
  rw [split, splitOn_joined some free]

theorem not_mem_of_mem_splitOn {text line : Text} (piece : line ∈ text.splitOn lf) : lf ∉ line := by
  induction text generalizing line with
  | nil =>
    simp only [List.splitOn_nil, List.mem_singleton] at piece
    simp [piece]
  | cons unit rest ih =>
    rw [List.splitOn_cons_eq_if_modifyHead] at piece
    split at piece
    · rcases List.mem_cons.mp piece with rfl | later
      · simp
      · exact ih later
    · rename_i other
      obtain ⟨first, later, parts⟩ := List.exists_cons_of_ne_nil (List.splitOn_ne_nil lf rest)
      rw [parts, List.modifyHead_cons] at piece
      rcases List.mem_cons.mp piece with rfl | inLater
      · have free := ih (parts ▸ List.mem_cons_self : first ∈ rest.splitOn lf)
        simp only [beq_iff_eq] at other
        simp [free, Ne.symm other]
      · exact ih (parts ▸ List.mem_cons_of_mem _ inLater)

theorem mem_dropCrs {lines : List Text} {line : Text} (inLines : line ∈ dropCrs lines) :
    ∃ original ∈ lines, line <+: original := by
  induction lines using dropCrs.induct with
  | case1 => simp [dropCrs] at inLines
  | case2 last => exact ⟨last, .head _, by simp_all [dropCrs]⟩
  | case3 first next rest ih =>
    rcases List.mem_cons.mp inLines with rfl | later
    · refine ⟨first, .head _, ?_⟩
      unfold dropCr
      split
      · exact List.dropLast_prefix first
      · exact List.prefix_rfl
    · obtain ⟨original, inRest, shorter⟩ := ih later
      exact ⟨original, .tail _ inRest, shorter⟩

theorem lf_not_mem_split {text line : Text} (inLines : line ∈ split text) : lf ∉ line := by
  obtain ⟨original, piece, shorter⟩ := mem_dropCrs inLines
  exact fun inLine => not_mem_of_mem_splitOn piece (shorter.subset inLine)

end TextLines
