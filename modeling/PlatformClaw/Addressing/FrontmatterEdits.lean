import PlatformClaw.Addressing.Markdown

/-! # What an edit of the frontmatter keeps

The writer escapes as JSON does, the reader only strips quotes, and the file is
put together from what the reader recognised. A value is read back, and the
other lines are still there, exactly when none of the differences is met.
-/

namespace PlatformClaw.Addressing

open ScriptText TextLines
open scoped List

/-- What is read from a written value. -/
def reread (written : Text) : Option Text :=
  if (trimStart written).any isLineTerminator = false then
    some (unquote (trim (trimStart written)))
  else none

/-- A value the reader gives back as the writer got it. In quotes nothing may need an escape,
    without them nothing may be trimmed or stripped. -/
def Survives (value : Text) : Prop :=
  value.any isLineTerminator = false ∧
    if value.any isStructural then needsEscape value = false
    else trim value = value ∧ isQuotedValue value = false

theorem length_unquote_le (value : Text) : (unquote value).length ≤ value.length := by
  unfold unquote
  split
  · rw [length_inner]
    exact Nat.sub_le _ _
  · exact Nat.le_refl _

theorem unquote_eq_self {value : Text} (kept : value.length ≤ (unquote value).length) :
    isQuotedValue value = false := by
  cases quotes : isQuotedValue value with
  | false => rfl
  | true =>
    rw [unquote, if_pos quotes, length_inner] at kept
    simp only [isQuotedValue, Bool.and_eq_true, decide_eq_true_eq] at quotes
    omega

theorem reread_stringify (value : Text) : reread (stringify value) =
      if (escape value).any isLineTerminator = false then some (escape value) else none := by
  have quote : isWhitespace '"'.toNat = false := by decide
  have plain : isLineTerminator 34 = false := by decide
  have quotes : isQuotedValue ('"'.toNat :: (escape value ++ ['"'.toNat])) = true := by
    have last : ('"'.toNat :: (escape value ++ ['"'.toNat])).getLast? = some '"'.toNat := by
      rw [← List.cons_append, List.getLast?_concat]
    rw [isQuotedValue, last]
    simp
  unfold reread stringify
  rw [trimStart_cons quote, trim_between quote quote, unquote, if_pos quotes, inner_between]
  simp [plain]

/-- The reader inverts the writer exactly on the values that survive. -/
theorem reread_format_iff (value : Text) : reread (formatFrontmatterValue value) = some value ↔ Survives value := by
  unfold formatFrontmatterValue
  by_cases empty : value = []
  · subst empty
    exact iff_of_true (by decide) ⟨rfl, by decide⟩
  rw [if_neg empty]
  unfold Survives
  split
  · rw [reread_stringify, ← escape_eq_iff]
    constructor
    · intro read
      split at read
      · rename_i oneLine
        have same : escape value = value := Option.some.inj read
        exact ⟨same ▸ oneLine, same⟩
      · exact absurd read (Option.some_ne_none value).symm
    · rintro ⟨oneLine, same⟩
      rw [same, if_pos oneLine]
  · constructor
    · intro read
      unfold reread at read
      split at read
      · rename_i oneLine
        have same : unquote (trim (trimStart value)) = value := Option.some.inj read
        have long := length_unquote_le (trim (trimStart value))
        rw [same] at long
        have trimmedShorter := length_trim_le (trimStart value)
        have startShorter := (trimStart_suffix (trimStart value)).length_le
        have shorter := (trimStart_suffix value).length_le
        have start : trimStart value = value :=
          (trimStart_suffix value).eq_of_length (Nat.le_antisymm shorter (by omega))
        rw [start] at oneLine same long
        have trimmed := trim_eq_self long
        rw [trimmed] at same
        exact ⟨oneLine, trimmed, unquote_eq_self (Nat.le_of_eq (congrArg List.length same).symm)⟩
      · exact absurd read (Option.some_ne_none value).symm
    · rintro ⟨oneLine, trimmed, unquoted⟩
      have start : trimStart value = value :=
        trimStart_eq_self (Nat.le_of_eq (congrArg List.length trimmed).symm)
      unfold reread
      rw [start, trimmed, if_pos oneLine, unquote, if_neg (by simp [unquoted])]

/-- A key the reader recognises. -/
def ValidKey (key : Text) : Prop :=
  (∀ unit ∈ key, isKeyUnit unit = true) ∧ key.head?.any isKeyStart = true

theorem readEntry_valid {line key value : Text} (read : readEntry line = some (key, value)) : ValidKey key := by
  unfold readEntry matchEntry at read
  dsimp only at read
  split at read
  · rename_i matched
    simp only [Option.map_some, Option.some.injEq, Prod.mk.injEq] at read
    obtain ⟨rfl, _⟩ := read
    exact ⟨fun unit inKey => List.all_eq_true.mp List.all_takeWhile unit inKey, matched.1⟩
  · simp at read

theorem readEntry_entryLine {key : Text} (valid : ValidKey key) (value : Text) : readEntry (entryLine key value) =
      (reread (formatFrontmatterValue value)).map fun read => (key, read) := by
  have separator : lit ": " = [58, 32] := by decide
  have taken : (entryLine key value).takeWhile isKeyUnit = key := by
    rw [entryLine, separator, List.append_assoc, List.takeWhile_append_of_pos valid.1,
      List.cons_append, List.takeWhile_cons_of_neg (by decide), List.append_nil]
  have left : (entryLine key value).dropWhile isKeyUnit = 58 :: 32 :: formatFrontmatterValue value := by
    rw [entryLine, separator, List.append_assoc, List.dropWhile_append_of_pos valid.1,
      List.cons_append, List.dropWhile_cons_of_neg (by decide), List.cons_append, List.nil_append]
  have colon : trimStart (58 :: 32 :: formatFrontmatterValue value) =
      58 :: 32 :: formatFrontmatterValue value := trimStart_cons (by decide) _
  have blank : trimStart (32 :: formatFrontmatterValue value) =
      trimStart (formatFrontmatterValue value) := List.dropWhile_cons_of_pos (by decide)
  unfold readEntry matchEntry reread
  simp only [taken, left, colon, List.drop_succ_cons, List.drop_zero, blank, valid.2, List.head?_cons, true_and]
  split <;> simp_all

/-- A line as the writer would write it. -/
def InForm (line : Text) : Prop :=
  ∃ key value, readEntry line = some (key, value) ∧ line = entryLine key value

def writtenLine (entry : Text × Text) : Text := entryLine entry.1 entry.2

theorem map_writtenLine_readEntry {lines : List Text} (inForm : ∀ line ∈ lines, InForm line) :
    (lines.filterMap readEntry).map writtenLine = lines := by
  induction lines with
  | nil => rfl
  | cons line rest ih =>
    obtain ⟨key, value, read, written⟩ := inForm line (.head _)
    rw [List.filterMap_cons_some read, List.map_cons, ih fun other inRest => inForm other (.tail _ inRest)]
    exact congrArg (· :: rest) written.symm

theorem filterMap_writtenLine_iff {entries : List (Text × Text)} (valid : ∀ entry ∈ entries, ValidKey entry.1) :
    (entries.map writtenLine).filterMap readEntry = entries ↔ ∀ entry ∈ entries, Survives entry.2 := by
  have step : ∀ entry ∈ entries, readEntry (writtenLine entry) =
      (reread (formatFrontmatterValue entry.2)).map fun read => (entry.1, read) :=
    fun entry inEntries => readEntry_entryLine (valid entry inEntries) entry.2
  clear valid
  induction entries with
  | nil => simp
  | cons entry rest ih =>
    have later := ih fun other inRest => step other (.tail _ inRest)
    have first := step entry (.head _)
    have bound : ((rest.map writtenLine).filterMap readEntry).length ≤ rest.length := by
      have := List.length_filterMap_le readEntry (rest.map writtenLine)
      rwa [List.length_map] at this
    rw [List.map_cons, List.forall_mem_cons]
    refine Iff.trans ?_ (and_congr (reread_format_iff entry.2) later)
    cases read : reread (formatFrontmatterValue entry.2) with
    | none =>
      rw [read, Option.map_none] at first
      rw [List.filterMap_cons_none first]
      refine iff_of_false (fun same => ?_) (fun both => Option.some_ne_none _ both.1.symm)
      rw [same] at bound
      exact Nat.not_succ_le_self _ bound
    | some value =>
      rw [read, Option.map_some] at first
      rw [List.filterMap_cons_some first, List.cons.injEq, Option.some.injEq]
      refine and_congr_left fun _ => ⟨fun same => ?_, fun same => ?_⟩
      · rw [← same]
      · rw [same]

def FrontmatterEntry.pair (entry : FrontmatterEntry) : Text × Text := (entry.key, entry.value)

def entriesOf (ast : MdAst) : List (Text × Text) := ast.frontmatter.map FrontmatterEntry.pair

theorem map_pair_readEntries (number : Nat) (lines : List Text) :
    (readEntries number lines).map FrontmatterEntry.pair = lines.filterMap readEntry := by
  induction lines generalizing number with
  | nil => rfl
  | cons line rest ih =>
    unfold readEntries
    cases read : readEntry line with
    | none => rw [List.filterMap_cons_none read]; exact ih (number + 1)
    | some entry => rw [List.filterMap_cons_some read]; exact congrArg (entry :: ·) (ih (number + 1))

theorem readEntries_place {number idx : Nat} {lines : List Text} {entry : FrontmatterEntry}
    (found : (readEntries number lines)[idx]? = some entry) :
    ∃ before line after, lines = before ++ line :: after ∧ entry.line = number + before.length ∧
      readEntry line = some entry.pair ∧ (before.filterMap readEntry).length = idx := by
  induction lines generalizing number idx with
  | nil => simp [readEntries] at found
  | cons line rest ih =>
    have skip {idx : Nat} (found : (readEntries (number + 1) rest)[idx]? = some entry) :
        ∃ before line' after, line :: rest = (line :: before) ++ line' :: after ∧
          entry.line = number + (line :: before).length ∧ readEntry line' = some entry.pair ∧
            (before.filterMap readEntry).length = idx := by
      obtain ⟨before, line', after, parts, place, read, count⟩ := ih found
      exact ⟨before, line', after, congrArg (line :: ·) parts,
        place.trans (by rw [List.length_cons]; omega), read, count⟩
    unfold readEntries at found
    cases read : readEntry line with
    | none =>
      rw [read] at found
      obtain ⟨before, line', after, parts, place, read', count⟩ := skip found
      exact ⟨line :: before, line', after, parts, place, read', by
        rw [List.filterMap_cons_none read, count]⟩
    | some first =>
      rw [read] at found
      cases idx with
      | zero =>
        obtain rfl := Option.some.inj found
        exact ⟨[], line, rest, rfl, rfl, read, rfl⟩
      | succ idx =>
        obtain ⟨before, line', after, parts, place, read', count⟩ := skip found
        exact ⟨line :: before, line', after, parts, place, read', by
          rw [List.filterMap_cons_some read, List.length_cons, count]⟩

/-- The addressed line is replaced, the others are written anew from their entries: everything is
    read back, and the other lines are still there, exactly when the value survives and the other
    lines are in the writer's form. -/
theorem lines_kept_iff (before after : List Text) (value : Text) {line key old : Text}
    (read : readEntry line = some (key, old)) :
    ((((before ++ line :: after).filterMap readEntry).set (before.filterMap readEntry).length
          (key, value)).map writtenLine).filterMap readEntry =
        ((before ++ line :: after).filterMap readEntry).set (before.filterMap readEntry).length (key, value) ∧
      before ++ after <+ (((before ++ line :: after).filterMap readEntry).set
        (before.filterMap readEntry).length (key, value)).map writtenLine ↔
    Survives value ∧ ∀ other ∈ before ++ after, InForm other := by
  have written : ((before ++ line :: after).filterMap readEntry).set
      (before.filterMap readEntry).length (key, value) =
        before.filterMap readEntry ++ (key, value) :: after.filterMap readEntry := by
    rw [List.filterMap_append, List.filterMap_cons_some read, List.set_append_right _ _ (Nat.le_refl _),
      Nat.sub_self, List.set_cons_zero]
  have validOf : ∀ lines : List Text, ∀ entry ∈ lines.filterMap readEntry, ValidKey entry.1 := by
    intro lines entry inEntries
    obtain ⟨source, _, readSource⟩ := List.mem_filterMap.mp inEntries
    exact readEntry_valid readSource
  have valid : ∀ entry ∈ before.filterMap readEntry ++ (key, value) :: after.filterMap readEntry,
      ValidKey entry.1 := by
    intro entry inEntries
    rcases List.mem_append.mp inEntries with early | late
    · exact validOf before entry early
    · rcases List.mem_cons.mp late with rfl | late
      · exact readEntry_valid read
      · exact validOf after entry late
  rw [written, filterMap_writtenLine_iff valid]
  constructor
  · rintro ⟨survive, there⟩
    refine ⟨survive (key, value) (by simp), fun other inLines => ?_⟩
    obtain ⟨entry, inEntries, rfl⟩ := List.mem_map.mp (there.subset inLines)
    refine ⟨entry.1, entry.2, ?_, rfl⟩
    rw [writtenLine, readEntry_entryLine (valid entry inEntries),
      (reread_format_iff entry.2).mpr (survive entry inEntries), Option.map_some]
  · rintro ⟨survives, inForm⟩
    have survive : ∀ lines : List Text, (∀ other ∈ lines, InForm other) →
        ∀ entry ∈ lines.filterMap readEntry, Survives entry.2 := by
      intro lines inForm
      apply (filterMap_writtenLine_iff (validOf lines)).mp
      rw [map_writtenLine_readEntry inForm]
    have formBefore := fun other inBefore => inForm other (List.mem_append_left after inBefore)
    have formAfter := fun other inAfter => inForm other (List.mem_append_right before inAfter)
    constructor
    · intro entry inEntries
      rcases List.mem_append.mp inEntries with early | late
      · exact survive before formBefore entry early
      · rcases List.mem_cons.mp late with rfl | late
        · exact survives
        · exact survive after formAfter entry late
    · rw [List.map_append, List.map_cons, map_writtenLine_readEntry formBefore, map_writtenLine_readEntry formAfter]
      exact List.Sublist.append (List.Sublist.refl _) (List.sublist_cons_self _ _)

/-- What is relied on of the tokenizer: headings stand on lines further and further down, a heading
    is one line, and without carriage returns inside lines it stands on a line of the body that is
    not empty. -/
structure LawfulHeadings (headings : Text → List Heading) : Prop where
  increasing : ∀ body, ((headings body).map Heading.lineIdx).Pairwise (· < ·)
  oneLine : ∀ body, ∀ heading ∈ headings body, lf ∉ heading.text ∧ cr ∉ heading.text
  marked : ∀ lines : List Text, (∀ line ∈ lines, lf ∉ line ∧ cr ∉ line) →
    ∀ heading ∈ headings (joined lines), ∃ line, lines[heading.lineIdx]? = some line ∧ line ≠ []

def headingLine (heading : Heading) : Text := lit "## " ++ heading.text

/-- The line a heading begins or the body ends at. -/
def nextStop (body : List Text) (h2 : List Heading) : Nat :=
  (h2.head?.map Heading.lineIdx).getD body.length

def blockLines (body : List Text) : List Heading → List Text
  | [] => []
  | heading :: rest =>
    [] :: headingLine heading ::
      (kept ((body.take (nextStop body rest)).drop (heading.lineIdx + 1)) ++ blockLines body rest)

def preambleLines (lines : List Text) : List Text :=
  if kept lines = [] then [] else [] :: kept lines

/-- The lines written behind the closing fence. -/
def writtenBody (body : List Text) (h2 : List Heading) : List Text :=
  preambleLines (body.take (nextStop body h2)) ++ blockLines body h2

/-- Every heading is written as it stands there, no line but the last ends with a carriage return. -/
structure BodyInForm (body : List Text) (h2 : List Heading) : Prop where
  headings : ∀ heading ∈ h2, body[heading.lineIdx]? = some (headingLine heading)
  breaks : ∀ line ∈ body.dropLast, line.getLast? ≠ some cr

section Body

variable {body : List Text}

theorem present_append (left : List Text) {right : List Text} (more : right ≠ []) :
    present (left ++ right) = left ++ present right := by
  unfold present
  rw [List.getLast?_append, List.getLast?_eq_some_getLast more, Option.some_or]
  split
  · rw [List.dropLast_append_of_ne_nil more]
  · rfl

theorem present_sublist_kept (lines : List Text) : present lines <+ kept lines := by
  unfold present kept
  split
  · split
    · rename_i lone
      rw [lone]
      exact List.Sublist.refl _
    · exact List.dropLast_sublist lines
  · split
    · rename_i last lone
      rw [lone] at last
      exact absurd rfl last
    · exact List.Sublist.refl _

theorem sublist_kept (lines : List Text) : lines <+ kept lines ++ [[]] := by
  unfold kept
  split
  · rename_i lone
    rw [lone]
    exact List.Sublist.refl _
  · exact List.sublist_append_left _ _

theorem present_cons {line : Text} (there : line ≠ []) (rest : List Text) :
    present (line :: rest) = line :: present rest := by
  cases rest with
  | nil => simp [present, there]
  | cons next rest => exact present_append [line] (List.cons_ne_nil next rest)

theorem drop_at {start stop : Nat} {line : Text} (order : start ≤ stop) (found : body[stop]? = some line) :
    body.drop start = (body.take stop).drop start ++ line :: body.drop (stop + 1) := by
  obtain ⟨inside, isLine⟩ := List.getElem?_eq_some_iff.mp found
  have tail : body.drop stop = line :: body.drop (stop + 1) := by
    rw [List.drop_eq_getElem_cons inside, isLine]
  have same := List.take_append_drop (stop - start) (body.drop start)
  rw [← same, List.drop_drop, Nat.add_sub_cancel' order, tail, List.drop_take]

theorem headingLine_ne_nil (heading : Heading) : headingLine heading ≠ [] := by
  have marker : lit "## " ≠ [] := by decide
  simp [headingLine, marker]

theorem present_sublist_blockLines {h2 : List Heading} {start : Nat}
    (increasing : (h2.map Heading.lineIdx).Pairwise (· < ·)) (first : start ≤ nextStop body h2)
    (inForm : ∀ heading ∈ h2, body[heading.lineIdx]? = some (headingLine heading)) :
    present (body.drop start) <+ kept ((body.take (nextStop body h2)).drop start) ++ blockLines body h2 := by
  induction h2 generalizing start with
  | nil =>
    simp only [nextStop, List.head?_nil, Option.map_none, Option.getD_none, List.take_length,
      blockLines, List.append_nil]
    exact present_sublist_kept _
  | cons heading rest ih =>
    have stop : nextStop body (heading :: rest) = heading.lineIdx := rfl
    rw [stop] at first ⊢
    have found := inForm heading (.head _)
    rw [List.map_cons, List.pairwise_cons] at increasing
    have inside := (List.getElem?_eq_some_iff.mp found).1
    have next : heading.lineIdx + 1 ≤ nextStop body rest := by
      cases rest with
      | nil => exact inside
      | cons other rest => exact increasing.1 other.lineIdx (by simp)
    have later := ih increasing.2 next fun other inRest => inForm other (.tail _ inRest)
    rw [drop_at first found, present_append _ (List.cons_ne_nil _ _),
      present_cons (headingLine_ne_nil heading), blockLines]
    have front := sublist_kept ((body.take heading.lineIdx).drop start)
    have both := front.append (later.cons_cons (headingLine heading))
    rwa [List.append_assoc, List.singleton_append] at both

/-- The lines written in place of those of the body, empty lines apart. -/
def replaced (body : List Text) (start : Nat) : List Heading → List Text
  | [] => body.drop start
  | heading :: rest =>
    (body.take heading.lineIdx).drop start ++ headingLine heading :: replaced body (heading.lineIdx + 1) rest

def isThere (line : Text) : Bool := !line.isEmpty

theorem filter_kept (lines : List Text) : (kept lines).filter isThere = lines.filter isThere := by
  unfold kept
  split
  · rename_i lone
    rw [lone]
    rfl
  · rfl

theorem filter_present (lines : List Text) : (present lines).filter isThere = lines.filter isThere := by
  unfold present
  split
  · rename_i empty
    obtain ⟨front, rfl⟩ := List.getLast?_eq_some_iff.mp empty
    rw [List.dropLast_concat, List.filter_append]
    simp [isThere]
  · rfl

theorem filter_blockLines (body : List Text) (h2 : List Heading) (start : Nat) :
    (kept ((body.take (nextStop body h2)).drop start) ++ blockLines body h2).filter isThere =
      (replaced body start h2).filter isThere := by
  induction h2 generalizing start with
  | nil =>
    simp [nextStop, blockLines, replaced, filter_kept]
  | cons heading rest ih =>
    have stop : nextStop body (heading :: rest) = heading.lineIdx := rfl
    have empty : isThere [] = false := rfl
    rw [stop, blockLines, replaced, List.filter_append, filter_kept, List.filter_append,
      List.filter_cons_of_neg (by simp [empty]), List.filter_cons, List.filter_cons, ih]

theorem headings_of_filter {h2 : List Heading} {start : Nat}
    (increasing : (h2.map Heading.lineIdx).Pairwise (· < ·)) (first : start ≤ nextStop body h2)
    (marked : ∀ heading ∈ h2, ∃ line, body[heading.lineIdx]? = some line ∧ line ≠ [])
    (same : (body.drop start).filter isThere = (replaced body start h2).filter isThere) :
    ∀ heading ∈ h2, body[heading.lineIdx]? = some (headingLine heading) := by
  induction h2 generalizing start with
  | nil => simp
  | cons heading rest ih =>
    have stop : nextStop body (heading :: rest) = heading.lineIdx := rfl
    rw [stop] at first
    obtain ⟨line, found, there⟩ := marked heading (.head _)
    rw [List.map_cons, List.pairwise_cons] at increasing
    have inside := (List.getElem?_eq_some_iff.mp found).1
    have next : heading.lineIdx + 1 ≤ nextStop body rest := by
      cases rest with
      | nil => exact inside
      | cons other rest => exact increasing.1 other.lineIdx (by simp)
    have lineThere : isThere line = true := by simp [isThere, there]
    have headingThere : isThere (headingLine heading) = true := by
      simp [isThere, headingLine_ne_nil heading]
    rw [drop_at first found, replaced, List.filter_append, List.filter_append,
      List.append_cancel_left_eq, List.filter_cons_of_pos lineThere,
      List.filter_cons_of_pos headingThere, List.cons.injEq] at same
    rw [List.forall_mem_cons]
    exact ⟨found.trans (congrArg some same.1),
      ih increasing.2 next (fun other inRest => marked other (.tail _ inRest)) same.2⟩

/-- As many lines are there as before. -/
theorem length_filter_replaced {h2 : List Heading} {start : Nat}
    (increasing : (h2.map Heading.lineIdx).Pairwise (· < ·)) (first : start ≤ nextStop body h2)
    (marked : ∀ heading ∈ h2, ∃ line, body[heading.lineIdx]? = some line ∧ line ≠ []) :
    ((replaced body start h2).filter isThere).length = ((body.drop start).filter isThere).length := by
  induction h2 generalizing start with
  | nil => rfl
  | cons heading rest ih =>
    have stop : nextStop body (heading :: rest) = heading.lineIdx := rfl
    rw [stop] at first
    obtain ⟨line, found, there⟩ := marked heading (.head _)
    rw [List.map_cons, List.pairwise_cons] at increasing
    have inside := (List.getElem?_eq_some_iff.mp found).1
    have next : heading.lineIdx + 1 ≤ nextStop body rest := by
      cases rest with
      | nil => exact inside
      | cons other rest => exact increasing.1 other.lineIdx (by simp)
    have lineThere : isThere line = true := by simp [isThere, there]
    have headingThere : isThere (headingLine heading) = true := by
      simp [isThere, headingLine_ne_nil heading]
    have later := ih increasing.2 next fun other inRest => marked other (.tail _ inRest)
    rw [drop_at first found, replaced, List.filter_append, List.filter_append,
      List.filter_cons_of_pos lineThere, List.filter_cons_of_pos headingThere, List.length_append,
      List.length_append, List.length_cons, List.length_cons, later]

theorem writtenBody_breaks {h2 : List Heading} (breaks : ∀ line ∈ body.dropLast, line.getLast? ≠ some cr)
    (inside : ∀ heading ∈ h2, heading.lineIdx < body.length ∧ cr ∉ heading.text) :
    ∀ line ∈ (writtenBody body h2).dropLast, line.getLast? ≠ some cr := by
  have empty : ([] : Text).getLast? ≠ some cr := by simp
  have ofSection : ∀ stop start line, stop < body.length →
      line ∈ kept ((body.take stop).drop start) → line.getLast? ≠ some cr := by
    intro stop start line short inSection
    have prefixed : body.take stop <+: body.dropLast := by
      rw [List.dropLast_eq_take]
      exact List.take_prefix_take_left (by omega)
    exact breaks line (prefixed.subset (List.mem_of_mem_drop (mem_of_mem_kept inSection)))
  have lines : ∀ start, ∀ line ∈ (kept ((body.take (nextStop body h2)).drop start) ++ blockLines body h2).dropLast,
      line.getLast? ≠ some cr := by
    induction h2 with
    | nil =>
      intro start line inLines
      simp only [nextStop, List.head?_nil, Option.map_none, Option.getD_none, List.take_length,
        blockLines, List.append_nil] at inLines
      exact breaks line (mem_dropLast_of_suffix (List.drop_suffix start body) (mem_dropLast_of_kept inLines))
    | cons heading rest ih =>
      intro start line inLines
      have later := ih (fun other inRest => inside other (.tail _ inRest)) (heading.lineIdx + 1)
      have here := inside heading (.head _)
      rcases mem_dropLast_append _ inLines with early | late
      · exact ofSection heading.lineIdx start line here.1 early
      · rw [blockLines, List.dropLast_cons_of_ne_nil (List.cons_ne_nil _ _)] at late
        rcases List.mem_cons.mp late with rfl | late
        · exact empty
        · rcases mem_dropLast_append [headingLine heading] late with marker | late
          · rw [List.mem_singleton.mp marker]
            intro last
            have free : cr ∉ lit "## " := by decide
            exact (List.mem_append.mp (List.mem_of_getLast? last)).elim free here.2
          · exact later line late
  intro line inLines
  unfold writtenBody preambleLines at inLines
  split at inLines
  · rename_i noPreamble
    have whole := lines 0 line
    rw [List.drop_zero, noPreamble] at whole
    exact whole inLines
  · have whole := lines 0 line
    rw [List.drop_zero] at whole
    rcases mem_dropLast_append [[]] inLines with first | rest
    · rw [List.mem_singleton.mp first]
      exact empty
    · exact whole rest

end Body

section Body

variable {body : List Text} {h2 : List Heading}

theorem BodyInForm.kept (inForm : BodyInForm body h2) (increasing : (h2.map Heading.lineIdx).Pairwise (· < ·))
    (oneLine : ∀ heading ∈ h2, lf ∉ heading.text ∧ cr ∉ heading.text) :
    present body <+ dropCrs (writtenBody body h2) := by
  have inside : ∀ heading ∈ h2, heading.lineIdx < body.length ∧ cr ∉ heading.text :=
    fun heading inH2 => ⟨(List.getElem?_eq_some_iff.mp (inForm.headings heading inH2)).1,
      (oneLine heading inH2).2⟩
  have written := present_sublist_blockLines increasing (Nat.zero_le _) inForm.headings
  rw [List.drop_zero, List.drop_zero] at written
  rw [dropCrs_eq (writtenBody_breaks inForm.breaks inside)]
  refine written.trans (List.Sublist.append ?_ (List.Sublist.refl _))
  unfold preambleLines
  split
  · rename_i nothing
    exact nothing ▸ List.Sublist.refl _
  · exact List.sublist_cons_self _ _

theorem bodyInForm_of_kept (increasing : (h2.map Heading.lineIdx).Pairwise (· < ·))
    (oneLine : ∀ heading ∈ h2, lf ∉ heading.text ∧ cr ∉ heading.text)
    (marked : ∀ heading ∈ h2, ∃ line, body[heading.lineIdx]? = some line ∧ line ≠ [])
    (noCr : ∀ line ∈ body, cr ∉ line) (there : present body <+ dropCrs (writtenBody body h2)) :
    BodyInForm body h2 := by
  have breaks : ∀ line ∈ body.dropLast, line.getLast? ≠ some cr := fun line inBody last =>
    noCr line (List.dropLast_subset body inBody) (List.mem_of_getLast? last)
  have inside : ∀ heading ∈ h2, heading.lineIdx < body.length ∧ cr ∉ heading.text := by
    intro heading inH2
    obtain ⟨line, found, _⟩ := marked heading inH2
    exact ⟨(List.getElem?_eq_some_iff.mp found).1, (oneLine heading inH2).2⟩
  have ordered : 0 ≤ nextStop body h2 := Nat.zero_le _
  rw [dropCrs_eq (writtenBody_breaks breaks inside)] at there
  have filtered := there.filter isThere
  have preamble : (preambleLines (body.take (nextStop body h2))).filter isThere =
      (TextLines.kept (body.take (nextStop body h2))).filter isThere := by
    unfold preambleLines
    split
    · rename_i nothing
      rw [nothing]
    · rfl
  have written := filter_blockLines body h2 0
  rw [List.drop_zero, List.filter_append] at written
  rw [filter_present, writtenBody, List.filter_append, preamble, written] at filtered
  have count := length_filter_replaced increasing ordered marked
  have same := filtered.eq_of_length (by rw [count, List.drop_zero])
  refine ⟨headings_of_filter increasing ordered marked ?_, breaks⟩
  rw [List.drop_zero]
  exact same

end Body

def blockParts (body : List Text) : List Heading → List (List Text)
  | [] => []
  | heading :: rest =>
    let lines := (body.take (nextStop body rest)).drop (heading.lineIdx + 1)
    [[]] :: [headingLine heading] :: ((if kept lines = [] then [] else [lines]) ++ blockParts body rest)

def preambleParts (lines : List Text) : List (List Text) :=
  if kept lines = [] then [] else [[[]], lines]

theorem kept_eq_self {lines : List Text} (some : kept lines ≠ []) : kept lines = lines := by
  unfold kept at some ⊢
  split
  · rename_i lone
    rw [if_pos lone] at some
    exact absurd rfl some
  · rfl

theorem flatten_section (lines : List Text) : (if kept lines = [] then [] else [lines]).flatten = kept lines := by
  split
  · rename_i nothing
    exact nothing.symm
  · rename_i some
    rw [List.flatten_singleton, kept_eq_self some]

theorem flatten_blockParts (body : List Text) (h2 : List Heading) :
    (blockParts body h2).flatten = blockLines body h2 := by
  induction h2 with
  | nil => rfl
  | cons heading rest ih =>
    rw [blockParts, List.flatten_cons, List.flatten_cons, List.flatten_append, ih, flatten_section]
    rfl

theorem flatten_preambleParts (lines : List Text) : (preambleParts lines).flatten = preambleLines lines := by
  unfold preambleParts preambleLines
  split
  · rfl
  · rename_i some
    rw [kept_eq_self some]
    simp

theorem foldl_addBlock {parts : List Text} (some : parts ≠ []) (body : List Text) (h2 : List Heading) :
    (blocksFrom body h2).foldl addBlock parts = parts ++ (blockParts body h2).map joined := by
  induction h2 generalizing parts with
  | nil => simp [blocksFrom, blockParts]
  | cons heading rest ih =>
    have grown (block : AstBlock) : addBlock parts block ≠ [] := by
      unfold addBlock
      simp
    rw [blocksFrom, List.foldl_cons, ih (grown _), addBlock, apart, if_neg some, blockParts]
    unfold nextStop
    dsimp only
    by_cases nothing : kept ((body.take ((rest.head?.map Heading.lineIdx).getD body.length)).drop
        (heading.lineIdx + 1)) = []
    · rw [if_pos nothing, if_pos ((joined_eq_nil_iff _).mpr nothing)]
      simp [headingLine]
    · rw [if_neg nothing, if_neg fun empty => nothing ((joined_eq_nil_iff _).mp empty)]
      simp [headingLine]

def writtenLines (entries : List (Text × Text)) (body : List Text) (h2 : List Heading) : List Text :=
  FENCE :: (entries.map writtenLine ++ FENCE :: writtenBody body h2)

/-- The parts in front of the preamble, each as its lines. -/
def fencedParts (entries : List (Text × Text)) : List (List Text) :=
  [FENCE] :: (entries.map fun entry => [writtenLine entry]) ++ [[FENCE]]

theorem frontmatterParts_eq {entries : List FrontmatterEntry} (some : entries ≠ []) :
    frontmatterParts entries = (fencedParts (entries.map FrontmatterEntry.pair)).map joined := by
  rw [frontmatterParts, if_neg some]
  simp [fencedParts, FrontmatterEntry.pair, writtenLine, Function.comp_def]

theorem addPreamble_eq {parts : List Text} (some : parts ≠ []) (lines : List Text) :
    addPreamble parts (joined lines) = parts ++ (preambleParts lines).map joined := by
  unfold addPreamble preambleParts
  by_cases nothing : kept lines = []
  · rw [if_pos nothing, if_pos ((joined_eq_nil_iff _).mpr nothing)]
    simp
  · rw [if_neg nothing, if_neg fun empty => nothing ((joined_eq_nil_iff _).mp empty)]
    simp [apart, some]

theorem flatten_fencedParts (entries : List (Text × Text)) :
    (fencedParts entries).flatten = FENCE :: (entries.map writtenLine ++ [FENCE]) := by
  have singles : (entries.map fun entry => [writtenLine entry]).flatten = entries.map writtenLine := by
    induction entries with
    | nil => rfl
    | cons entry rest ih => rw [List.map_cons, List.flatten_cons, ih]; rfl
  rw [fencedParts, List.flatten_append, List.flatten_cons, singles]
  simp

theorem blockParts_ne_nil {body : List Text} {h2 : List Heading} : ∀ part ∈ blockParts body h2, part ≠ [] := by
  induction h2 with
  | nil => simp [blockParts]
  | cons heading rest ih =>
    intro part inParts
    simp only [blockParts, List.mem_cons, List.mem_append] at inParts
    rcases inParts with rfl | rfl | inSection | later
    · simp
    · simp
    · split at inSection
      · simp at inSection
      · rename_i some
        rw [List.mem_singleton.mp inSection, ← kept_eq_self some]
        exact some
    · exact ih part later

theorem preambleParts_ne_nil {lines : List Text} : ∀ part ∈ preambleParts lines, part ≠ [] := by
  intro part inParts
  unfold preambleParts at inParts
  split at inParts
  · simp at inParts
  · rename_i some
    simp only [List.mem_cons, List.not_mem_nil, or_false] at inParts
    rcases inParts with rfl | rfl
    · simp
    · rw [← kept_eq_self some]
      exact some

theorem fencedParts_ne_nil {entries : List (Text × Text)} : ∀ part ∈ fencedParts entries, part ≠ [] := by
  intro part inParts
  simp only [fencedParts, List.cons_append, List.mem_cons, List.mem_append, List.mem_map,
    List.not_mem_nil, or_false] at inParts
  rcases inParts with rfl | ⟨entry, _, rfl⟩ | rfl <;> simp

theorem joined_finalizeParts {ast : MdAst} {body : List Text} {h2 : List Heading}
    (some : ast.frontmatter ≠ []) (preamble : ast.preamble = joined (body.take (nextStop body h2)))
    (blocks : ast.blocks = blocksFrom body h2) :
    joined (finalizeParts ast) = joined (writtenLines (entriesOf ast) body h2) := by
  have fences : (fencedParts (ast.frontmatter.map FrontmatterEntry.pair)).map joined ≠ [] := by
    simp [fencedParts]
  have more : (fencedParts (ast.frontmatter.map FrontmatterEntry.pair)).map joined ++
      (preambleParts (body.take (nextStop body h2))).map joined ≠ [] := by
    simp [fencedParts]
  unfold finalizeParts
  rw [frontmatterParts_eq some, preamble, addPreamble_eq fences, blocks, foldl_addBlock more,
    ← List.map_append, ← List.map_append, joined_flatten]
  · rw [List.flatten_append, List.flatten_append, flatten_fencedParts, flatten_preambleParts,
      flatten_blockParts, writtenLines, writtenBody]
    simp [entriesOf]
  · intro part inParts
    rcases List.mem_append.mp inParts with inFront | inBlocks
    · rcases List.mem_append.mp inFront with inFences | inPreamble
      · exact fencedParts_ne_nil part inFences
      · exact preambleParts_ne_nil part inPreamble
    · exact blockParts_ne_nil part inBlocks

theorem isKeyUnit_not_break {unit : Nat} (inKey : isKeyUnit unit = true) : unit ≠ lf ∧ unit ≠ cr := by
  constructor <;> rintro rfl <;> exact absurd inKey (by decide)

theorem formatFrontmatterValue_oneLine (value : Text) :
    ∀ unit ∈ formatFrontmatterValue value, unit ≠ lf ∧ unit ≠ cr := by
  intro unit inValue
  unfold formatFrontmatterValue at inValue
  split at inValue
  · have quotes : ∀ unit ∈ lit "\"\"", unit ≠ lf ∧ unit ≠ cr := by decide
    exact quotes unit inValue
  · split at inValue
    · have printable := stringify_printable value unit inValue
      unfold lf cr
      omega
    · rename_i plain
      have breaks : isStructural lf = true ∧ isStructural cr = true := by decide
      constructor <;> rintro rfl
      · exact plain (List.any_eq_true.mpr ⟨lf, inValue, breaks.1⟩)
      · exact plain (List.any_eq_true.mpr ⟨cr, inValue, breaks.2⟩)

theorem writtenLine_oneLine {entry : Text × Text} (valid : ValidKey entry.1) :
    ∀ unit ∈ writtenLine entry, unit ≠ lf ∧ unit ≠ cr := by
  intro unit inLine
  have separator : ∀ unit ∈ lit ": ", unit ≠ lf ∧ unit ≠ cr := by decide
  unfold writtenLine entryLine at inLine
  rcases List.mem_append.mp inLine with inFront | inValue
  · rcases List.mem_append.mp inFront with inKey | inSeparator
    · exact isKeyUnit_not_break (valid.1 unit inKey)
    · exact separator unit inSeparator
  · exact formatFrontmatterValue_oneLine entry.2 unit inValue

theorem writtenLine_ne_fence {entry : Text × Text} (valid : ValidKey entry.1) : writtenLine entry ≠ FENCE := by
  intro same
  obtain ⟨key, value⟩ := entry
  cases key with
  | nil => exact absurd valid.2 (by simp)
  | cons unit key =>
    have first := congrArg List.head? same
    have dash : FENCE.head? = some '-'.toNat := by decide
    rw [dash] at first
    obtain rfl : unit = '-'.toNat := Option.some.inj first
    have starts : isKeyStart '-'.toNat = true := valid.2
    exact absurd starts (by decide)

theorem fenced_writtenLines {entries : List (Text × Text)} (valid : ∀ entry ∈ entries, ValidKey entry.1)
    (rest : List Text) :
    fenced (FENCE :: (entries.map writtenLine ++ FENCE :: rest)) = some (entries.map writtenLine, rest) := by
  have free : FENCE ∉ entries.map writtenLine := by
    intro inEntries
    obtain ⟨entry, there, same⟩ := List.mem_map.mp inEntries
    exact writtenLine_ne_fence (valid entry there) same
  have place : (entries.map writtenLine ++ FENCE :: rest).idxOf FENCE = (entries.map writtenLine).length := by
    rw [List.idxOf_append, if_neg free, List.idxOf_cons_self, Nat.zero_add]
  rw [fenced, if_pos ⟨rfl, by simp⟩, place, List.take_left, ← List.drop_drop, List.drop_left]
  rfl

section Edited

variable {headings : Text → List Heading} {raw : Text} {entries : List (Text × Text)}
  {h2 : List Heading}

theorem mem_bodyLines {line : Text} (inBody : line ∈ bodyLines raw) : lf ∉ line := by
  have ofFile : ∀ line ∈ fileLines raw, lf ∉ line := fun line inFile => lf_not_mem_split inFile
  unfold bodyLines at inBody
  split at inBody
  · rename_i lines body parts
    unfold fenced at parts
    split at parts
    · exact absurd parts (Option.some_ne_none _).symm
    · rename_i first rest isFile
      split at parts
      · obtain ⟨_, rfl⟩ := Prod.mk.inj (Option.some.inj parts)
        exact ofFile line (isFile ▸ List.mem_cons_of_mem _ (List.mem_of_mem_drop inBody))
      · exact absurd parts (Option.some_ne_none _).symm
  · exact ofFile line inBody

theorem writtenBody_oneLine {body : List Text} (free : ∀ line ∈ body, lf ∉ line)
    (oneLine : ∀ heading ∈ h2, lf ∉ heading.text) : ∀ line ∈ writtenBody body h2, lf ∉ line := by
  have ofSection : ∀ stop start line, line ∈ kept ((body.take stop).drop start) → lf ∉ line :=
    fun stop start line inSection => free line
      (List.mem_of_mem_take (List.mem_of_mem_drop (mem_of_mem_kept inSection)))
  have ofBlocks : ∀ line ∈ blockLines body h2, lf ∉ line := by
    induction h2 with
    | nil => simp [blockLines]
    | cons heading rest ih =>
      intro line inLines
      simp only [blockLines, List.mem_cons, List.mem_append] at inLines
      rcases inLines with rfl | rfl | inSection | later
      · simp
      · have marker : lf ∉ lit "## " := by decide
        intro inHeading
        exact (List.mem_append.mp inHeading).elim marker (oneLine heading (.head _))
      · exact ofSection _ _ line inSection
      · exact ih (fun other inRest => oneLine other (.tail _ inRest)) line later
  intro line inLines
  rcases List.mem_append.mp inLines with inPreamble | inBlocks
  · unfold preambleLines at inPreamble
    split at inPreamble
    · simp at inPreamble
    · rcases List.mem_cons.mp inPreamble with rfl | inSection
      · simp
      · exact ofSection _ 0 line (by rwa [List.drop_zero])
  · exact ofBlocks line inBlocks

theorem fileLines_written (valid : ∀ entry ∈ entries, ValidKey entry.1) {body : List Text}
    (free : ∀ line ∈ body, lf ∉ line) (oneLine : ∀ heading ∈ h2, lf ∉ heading.text) :
    fileLines (joined (writtenLines entries body h2)) =
      FENCE :: (entries.map writtenLine ++ FENCE :: dropCrs (writtenBody body h2)) := by
  have noBreak : ∀ line ∈ writtenLines entries body h2, lf ∉ line := by
    have ofFence : lf ∉ FENCE := by decide
    intro line inLines
    rcases List.mem_cons.mp inLines with rfl | inLines
    · exact ofFence
    · rcases List.mem_append.mp inLines with inEntries | inLines
      · obtain ⟨entry, there, rfl⟩ := List.mem_map.mp inEntries
        exact fun inLine => (writtenLine_oneLine (valid entry there) lf inLine).1 rfl
      · rcases List.mem_cons.mp inLines with rfl | inBody
        · exact ofFence
        · exact writtenBody_oneLine free oneLine line inBody
  have noBom : (joined (writtenLines entries body h2)).head? ≠ some BOM := by
    have first : FENCE.head? = some '-'.toNat := by decide
    have apart : '-'.toNat ≠ BOM := by decide
    unfold writtenLines
    rw [joined_cons (by simp), List.head?_append, first, Option.some_or]
    exact fun same => apart (Option.some.inj same)
  have plain : ∀ line ∈ FENCE :: (entries.map writtenLine ++ [FENCE]), line.getLast? ≠ some cr := by
    intro line inLines last
    have inLine := List.mem_of_getLast? last
    have ofFence : cr ∉ FENCE := by decide
    simp only [List.mem_cons, List.mem_append, List.mem_map, List.not_mem_nil, or_false] at inLines
    rcases inLines with rfl | ⟨entry, there, rfl⟩ | rfl
    · exact ofFence inLine
    · exact (writtenLine_oneLine (valid entry there) cr inLine).2 rfl
    · exact ofFence inLine
  have parts : writtenLines entries body h2 =
      (FENCE :: (entries.map writtenLine ++ [FENCE])) ++ writtenBody body h2 := by
    simp [writtenLines]
  have some : writtenLines entries body h2 ≠ [] := List.cons_ne_nil _ _
  rw [fileLines, if_neg noBom, split_joined some noBreak, parts, dropCrs_append _ plain]
  simp

end Edited

def addressedKey (path : OcPath) : Option Text := path.item <|> path.field

/-- Where the addressed entry stands among the lines between the fences. -/
def addressedLine (ast : MdAst) (key : Text) : Nat :=
  ((ast.frontmatter.find? fun entry => entry.key = key).map FrontmatterEntry.line).getD 2 - 2

/-- The edited file reads as the value for the key and the same for the other entries, in order, and
    the other lines of the frontmatter and those of the body are all there, in order. -/
structure Faithful (headings : Text → List Heading) (raw key value : Text) (edited : MdAst) : Prop where
  entries : entriesOf (parseMd headings edited.raw) = (entriesOf (parseMd headings raw)).set
      ((entriesOf (parseMd headings raw)).findIdx fun entry => entry.1 = key) (key, value)
  frontmatter : (frontmatterLines raw).eraseIdx (addressedLine (parseMd headings raw) key) <+
    frontmatterLines edited.raw
  body : present (bodyLines raw) <+ bodyLines edited.raw

/-- The value survives, the other lines are in the writer's form, and so is the body. -/
structure EditSafe (headings : Text → List Heading) (raw key value : Text) : Prop where
  value : Survives value
  lines : ∀ line ∈ (frontmatterLines raw).eraseIdx (addressedLine (parseMd headings raw) key), InForm line
  body : BodyInForm (bodyLines raw) (headings (joined (bodyLines raw)))

section Edits

variable {headings : Text → List Heading} {raw key value : Text} {path : OcPath} {edited : MdAst}

theorem setFrontmatter_cases {ast : MdAst} (addressed : addressedKey path = some key)
    (done : setFrontmatter ast path value = .ok (some edited)) :
    ∃ idx entry, ast.frontmatter[idx]? = some entry ∧ entry.key = key ∧
      ast.frontmatter.find? (fun entry => entry.key = key) = some entry ∧
      ((entriesOf ast).findIdx fun entry => entry.1 = key) = idx ∧
      edited = finalize { ast with
        frontmatter := ast.frontmatter.modify idx fun existing => { existing with value } } := by
  unfold setFrontmatter at done
  obtain ⟨ocPath, _, done⟩ := Except.bind_ok_iff.mp done
  obtain ⟨_, _, done⟩ := Except.bind_ok_iff.mp done
  have item : (path.item <|> path.field) = some key := addressed
  rw [item] at done
  dsimp only at done
  cases place : ast.frontmatter.findIdx? fun entry => decide (entry.key = key) with
  | none =>
    simp only [place] at done
    exact absurd (Except.pure_ok_iff.mp done) (Option.some_ne_none _).symm
  | some idx =>
    simp only [place] at done
    have result := Option.some.inj (Except.pure_ok_iff.mp done)
    obtain ⟨inside, isKey, before⟩ := List.findIdx?_eq_some_iff_getElem.mp place
    refine ⟨idx, ast.frontmatter[idx], List.getElem?_eq_getElem inside, of_decide_eq_true isKey, ?_, ?_, result.symm⟩
    · exact List.find?_eq_some_iff_getElem.mpr ⟨isKey, idx, inside, rfl,
        fun earlier order => by simpa using before earlier order⟩
    · have mapped : ((entriesOf ast).findIdx fun entry => decide (entry.1 = key)) =
          ast.frontmatter.findIdx fun entry => decide (entry.key = key) := List.findIdx_map ..
      rw [mapped]
      exact (List.findIdx?_eq_some_iff_findIdx_eq.mp place).2

theorem entriesOf_modify (value : Text) {ast : MdAst} {idx : Nat} {entry : FrontmatterEntry}
    (found : ast.frontmatter[idx]? = some entry) :
    (ast.frontmatter.modify idx fun existing => { existing with value }).map FrontmatterEntry.pair =
      (entriesOf ast).set idx (entry.key, value) := by
  apply List.ext_getElem?
  intro place
  rw [List.getElem?_map, List.getElem?_modify, List.getElem?_set, entriesOf, List.getElem?_map, List.length_map]
  by_cases same : idx = place
  · subst same
    obtain ⟨inside, isEntry⟩ := List.getElem?_eq_some_iff.mp found
    simp [inside, isEntry, FrontmatterEntry.pair]
  · simp [same]

theorem edited_lines (value : Text) {idx : Nat} {entry : FrontmatterEntry} (lawful : LawfulHeadings headings)
    (found : (parseMd headings raw).frontmatter[idx]? = some entry) :
    fenced (fileLines (finalize { parseMd headings raw with
      frontmatter := (parseMd headings raw).frontmatter.modify idx fun existing =>
        { existing with value } }).raw) =
      some ((((frontmatterLines raw).filterMap readEntry).set idx (entry.key, value)).map writtenLine,
        dropCrs (writtenBody (bodyLines raw) (headings (joined (bodyLines raw))))) := by
  have old : entriesOf (parseMd headings raw) = (frontmatterLines raw).filterMap readEntry :=
    map_pair_readEntries 2 _
  have entries := entriesOf_modify value found
  rw [old] at entries
  have some : (parseMd headings raw).frontmatter.modify idx (fun existing =>
      { existing with value }) ≠ [] := by
    intro nothing
    have none : (parseMd headings raw).frontmatter = [] := by simpa using congrArg List.length nothing
    rw [none] at found
    simp at found
  have text := @joined_finalizeParts { parseMd headings raw with
    frontmatter := (parseMd headings raw).frontmatter.modify idx fun existing =>
      { existing with value } } (bodyLines raw) (headings (joined (bodyLines raw))) some rfl rfl
  rw [entriesOf, entries] at text
  have atKey : (entry.key, entry.value) ∈ (frontmatterLines raw).filterMap readEntry := by
    rw [← old]
    exact List.mem_map.mpr ⟨entry, List.mem_of_getElem? found, rfl⟩
  have validOld : ∀ written ∈ (frontmatterLines raw).filterMap readEntry, ValidKey written.1 := by
    intro written inOld
    obtain ⟨source, _, readSource⟩ := List.mem_filterMap.mp inOld
    exact readEntry_valid readSource
  have valid : ∀ written ∈ ((frontmatterLines raw).filterMap readEntry).set idx (entry.key, value),
      ValidKey written.1 := by
    intro written inNew
    rcases List.mem_or_eq_of_mem_set inNew with inOld | rfl
    · exact validOld written inOld
    · exact validOld (entry.key, entry.value) atKey
  rw [finalize, text, fileLines_written valid (fun line => mem_bodyLines)
    fun heading inH2 => (lawful.oneLine _ heading inH2).1, fenced_writtenLines valid]

/-- Setting a frontmatter value is faithful when the value and the file are in the writer's form, and
    in a file without stray carriage returns only then. -/
theorem frontmatter_edit_faithful_iff (lawful : LawfulHeadings headings) (addressed : addressedKey path = some key)
    (done : setFrontmatter (parseMd headings raw) path value = .ok (some edited)) :
    (EditSafe headings raw key value → Faithful headings raw key value edited) ∧
      ((∀ line ∈ bodyLines raw, cr ∉ line) →
        Faithful headings raw key value edited → EditSafe headings raw key value) := by
  obtain ⟨idx, entry, found, rfl, isFirst, place, rfl⟩ := setFrontmatter_cases addressed done
  obtain ⟨before, line, after, parts, number, read, rfl⟩ := readEntries_place found
  have parsed := edited_lines value lawful found
  generalize finalize _ = written at parsed ⊢
  have old : entriesOf (parseMd headings raw) = (frontmatterLines raw).filterMap readEntry :=
    map_pair_readEntries 2 _
  have new : entriesOf (parseMd headings written.raw) =
      (frontmatterLines written.raw).filterMap readEntry := map_pair_readEntries 2 _
  have newLines : frontmatterLines written.raw = (((frontmatterLines raw).filterMap readEntry).set
      (before.filterMap readEntry).length (entry.key, value)).map writtenLine := by
    rw [frontmatterLines, parsed]
  have newBody : bodyLines written.raw =
      dropCrs (writtenBody (bodyLines raw) (headings (joined (bodyLines raw)))) := by
    rw [bodyLines, parsed]
  have atLine : addressedLine (parseMd headings raw) entry.key = before.length := by
    rw [addressedLine, isFirst, Option.map_some, Option.getD_some, number, Nat.add_sub_cancel_left]
  have others : (frontmatterLines raw).eraseIdx before.length = before ++ after := by
    rw [parts, List.eraseIdx_append_of_length_le (Nat.le_refl _), Nat.sub_self]
    rfl
  have increasing := lawful.increasing (joined (bodyLines raw))
  have oneLine := lawful.oneLine (joined (bodyLines raw))
  have kept := lines_kept_iff before after value read
  constructor
  · intro safe
    have inForm := safe.lines
    rw [atLine, others] at inForm
    obtain ⟨readBack, there⟩ := kept.mpr ⟨safe.value, inForm⟩
    constructor
    · rw [new, newLines, place, old, parts]
      exact readBack
    · rw [atLine, others, newLines, parts]
      exact there
    · rw [newBody]
      exact safe.body.kept increasing oneLine
  · intro noCr faithful
    have readBack := faithful.entries
    rw [new, newLines, place, old, parts] at readBack
    have there := faithful.frontmatter
    rw [atLine, others, newLines, parts] at there
    have bodyThere := faithful.body
    rw [newBody] at bodyThere
    obtain ⟨survives, inForm⟩ := kept.mp ⟨readBack, there⟩
    have plain : ∀ line ∈ bodyLines raw, lf ∉ line ∧ cr ∉ line :=
      fun line inBody => ⟨mem_bodyLines inBody, noCr line inBody⟩
    constructor
    · exact survives
    · rw [atLine, others]
      exact inForm
    · exact bodyInForm_of_kept increasing oneLine (lawful.marked _ plain) noCr bodyThere

end Edits

/-! The writer escapes a quote, and the reader leaves the escape in place. -/

def quotedFile : Text := lit "---\nname: old\nmode: \"a: b\"\n---\n\nText\n"

def nameInFrontmatter : OcPath :=
  { file := lit "AGENTS.md", «section» := some (lit "[frontmatter]"), item := some (lit "name"),
    field := none, session := none }

/-- What setting the name in the file gives. -/
def renamed (value : Text) : MdAst :=
  finalize { parseMd (fun _ => []) quotedFile with
    frontmatter := (parseMd (fun _ => []) quotedFile).frontmatter.modify 0 fun existing =>
      { existing with value } }

theorem lawful_none : LawfulHeadings fun _ => [] :=
  ⟨fun _ => List.Pairwise.nil, fun _ _ none => absurd none List.not_mem_nil,
    fun _ _ _ none => absurd none List.not_mem_nil⟩

theorem quote_in_value_not_faithful :
    setFrontmatter (parseMd (fun _ => []) quotedFile) nameInFrontmatter (lit "a\"b:c") =
        .ok (some (renamed (lit "a\"b:c"))) ∧
      ¬ Faithful (fun _ => []) quotedFile (lit "name") (lit "a\"b:c") (renamed (lit "a\"b:c")) := by
  refine ⟨Except.ok_of_toOption (by decide +kernel), fun faithful => ?_⟩
  have entries := faithful.entries
  revert entries
  decide +kernel

theorem frontmatter_edit_faithful_iff_renamed :
    EditSafe (fun _ => []) quotedFile (lit "name") (lit "c: d") ∧
      Faithful (fun _ => []) quotedFile (lit "name") (lit "c: d") (renamed (lit "c: d")) := by
  have safe : EditSafe (fun _ => []) quotedFile (lit "name") (lit "c: d") := by
    constructor
    · exact ⟨by decide +kernel, by decide +kernel⟩
    · have lines : (frontmatterLines quotedFile).eraseIdx
          (addressedLine (parseMd (fun _ => []) quotedFile) (lit "name")) =
            [lit "mode: \"a: b\""] := by decide +kernel
      rw [lines]
      intro line isLine
      rw [List.mem_singleton.mp isLine]
      exact ⟨lit "mode", lit "a: b", by decide +kernel, by decide +kernel⟩
    · exact ⟨fun _ none => absurd none List.not_mem_nil, by decide +kernel⟩
  have done : setFrontmatter (parseMd (fun _ => []) quotedFile) nameInFrontmatter (lit "c: d") =
      .ok (some (renamed (lit "c: d"))) := Except.ok_of_toOption (by decide +kernel)
  exact ⟨safe, (frontmatter_edit_faithful_iff lawful_none rfl done).1 safe⟩

end PlatformClaw.Addressing
