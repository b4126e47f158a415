/-! # Reading a sequence by position

A scanner moves a cursor over a text it never changes. The reads are collected
here with what they still say once the text has grown: a read that stopped
inside the text is final, and a literal found later was there before, or at
least had begun where the text ended.
-/

namespace Scanning

variable {α : Type}

/-- Move the cursor past everything that satisfies `p`. -/
def skipWhile (p : α → Bool) (text : List α) (start : Nat) : Nat :=
  start + ((text.drop start).takeWhile p).length

/-- Move the cursor past at most `limit` entries that satisfy `p`. -/
def skipWhileUpTo (limit : Nat) (p : α → Bool) (text : List α) (start : Nat) : Nat :=
  start + (((text.drop start).take limit).takeWhile p).length

def slice (text : List α) (start stop : Nat) : List α :=
  (text.take stop).drop start

section Skipping

variable {p : α → Bool} {text more : List α} {start limit : Nat}

theorem le_skipWhile : start ≤ skipWhile p text start :=
  Nat.le_add_right _ _

theorem skipWhile_le (inside : start ≤ text.length) : skipWhile p text start ≤ text.length := by
  have taken := (List.takeWhile_prefix p (l := text.drop start)).length_le
  rw [List.length_drop] at taken
  unfold skipWhile
  omega

theorem skipWhile_stops {a : α} (stopped : text[skipWhile p text start]? = some a) : p a = false := by
  unfold skipWhile at stopped
  rw [← List.getElem?_drop] at stopped
  generalize text.drop start = rest at stopped
  induction rest with
  | nil => simp at stopped
  | cons b rest ih =>
    cases holds : p b with
    | false =>
      simp only [List.takeWhile_cons, holds, Bool.false_eq_true, if_false, List.length_nil,
        List.getElem?_cons_zero, Option.some.injEq] at stopped
      exact stopped ▸ holds
    | true =>
      simp only [List.takeWhile_cons, holds, if_true, List.length_cons, List.getElem?_cons_succ] at stopped
      exact ih stopped

/-- Everything passed over satisfies the predicate. -/
theorem skipWhile_holds {place : Nat} {a : α} (from_ : start ≤ place)
    (before : place < skipWhile p text start) (there : text[place]? = some a) : p a = true := by
  have offset : place = start + (place - start) := by omega
  rw [offset, ← List.getElem?_drop] at there
  unfold skipWhile at before
  have within : place - start < ((text.drop start).takeWhile p).length := by omega
  obtain ⟨rest, whole⟩ := List.takeWhile_prefix p (l := text.drop start)
  rw [← whole, List.getElem?_append_left within] at there
  exact List.all_eq_true.mp List.all_takeWhile a (List.mem_of_getElem? there)

theorem skipWhile_end_mono {q : α → Bool} {later : Nat} (weaker : ∀ a, p a = true → q a = true)
    (order : start ≤ later) (inside : later ≤ text.length)
    (ended : skipWhile p text start = text.length) : skipWhile q text later = text.length := by
  apply Nat.le_antisymm (skipWhile_le inside)
  apply Nat.le_of_not_lt
  intro stopped
  have there : text[skipWhile q text later]? = some text[skipWhile q text later] :=
    List.getElem?_eq_getElem stopped
  have passed := @skipWhile_holds _ p text start _ _ (Nat.le_trans order le_skipWhile)
    (by rw [ended]; exact stopped) there
  exact Bool.noConfusion ((weaker _ passed).symm.trans (skipWhile_stops there))

theorem skipWhile_append (stopped : skipWhile p text start < text.length) :
    skipWhile p (text ++ more) start = skipWhile p text start := by
  have inside : start ≤ text.length := Nat.le_trans le_skipWhile (Nat.le_of_lt stopped)
  unfold skipWhile at stopped ⊢
  rw [List.drop_append_of_le_length inside, List.takeWhile_append, if_neg]
  rw [List.length_drop]
  omega

theorem skipWhile_append_of_end (inside : start ≤ text.length) (ended : skipWhile p text start = text.length) :
    skipWhile p (text ++ more) start = skipWhile p (text ++ more) text.length := by
  unfold skipWhile at ended ⊢
  rw [List.drop_append_of_le_length inside, List.takeWhile_append, if_pos, List.length_append,
    List.drop_left, List.length_drop]
  · omega
  · rw [List.length_drop]
    omega

theorem skipWhile_mono (inside : start ≤ text.length) :
    skipWhile p text start ≤ skipWhile p (text ++ more) start := by
  cases Nat.lt_or_ge (skipWhile p text start) text.length with
  | inl stopped => exact Nat.le_of_eq (skipWhile_append stopped).symm
  | inr ended =>
    have atEnd : skipWhile p text start = text.length :=
      Nat.le_antisymm (skipWhile_le inside) ended
    rw [skipWhile_append_of_end inside atEnd, atEnd]
    exact le_skipWhile

/-- Growth either leaves the cursor alone or had found it at the end. -/
theorem skipWhile_append_or_end (inside : start ≤ text.length) :
    skipWhile p (text ++ more) start = skipWhile p text start ∨ skipWhile p text start = text.length := by
  cases Nat.lt_or_ge (skipWhile p text start) text.length with
  | inl stopped => exact .inl (skipWhile_append stopped)
  | inr ended => exact .inr (Nat.le_antisymm (skipWhile_le inside) ended)

theorem skipWhileUpTo_eq : skipWhileUpTo limit p text start = min (start + limit) (skipWhile p text start) := by
  have taken : ∀ (count : Nat) (rest : List α),
      ((rest.take count).takeWhile p).length = min count (rest.takeWhile p).length := by
    intro count rest
    induction rest generalizing count with
    | nil => simp
    | cons a rest ih =>
      cases count with
      | zero => simp
      | succ count =>
        rw [List.take_succ_cons, List.takeWhile_cons, List.takeWhile_cons]
        split
        · simp only [List.length_cons, ih]
          omega
        · simp
  unfold skipWhileUpTo skipWhile
  rw [taken]
  omega

theorem le_skipWhileUpTo : start ≤ skipWhileUpTo limit p text start :=
  Nat.le_add_right _ _

theorem skipWhileUpTo_le (inside : start ≤ text.length) : skipWhileUpTo limit p text start ≤ text.length := by
  rw [skipWhileUpTo_eq]
  exact Nat.le_trans (Nat.min_le_right _ _) (skipWhile_le inside)

theorem skipWhileUpTo_append (inside : start ≤ text.length)
    (stopped : skipWhileUpTo limit p text start < text.length) :
    skipWhileUpTo limit p (text ++ more) start = skipWhileUpTo limit p text start := by
  rw [skipWhileUpTo_eq] at stopped ⊢
  rw [skipWhileUpTo_eq]
  have grows := @skipWhile_mono _ p text more start inside
  cases @skipWhile_append_or_end _ p text more start inside with
  | inl same => rw [same]
  | inr ended => omega

theorem skipWhileUpTo_le_limit : skipWhileUpTo limit p text start ≤ start + limit := by
  rw [skipWhileUpTo_eq]
  exact Nat.min_le_left _ _

theorem skipWhileUpTo_mono (inside : start ≤ text.length) :
    skipWhileUpTo limit p text start ≤ skipWhileUpTo limit p (text ++ more) start := by
  have grows := @skipWhile_mono _ p text more start inside
  rw [skipWhileUpTo_eq, skipWhileUpTo_eq]
  omega

theorem slice_append {stop : Nat} (inside : stop ≤ text.length) :
    slice (text ++ more) start stop = slice text start stop := by
  unfold slice
  rw [List.take_append_of_le_length inside]

theorem slice_prefix {stop stop' : Nat} (order : stop ≤ stop') :
    slice text start stop <+: slice text start stop' := by
  have shorter := List.take_prefix stop (text.take stop')
  rw [List.take_take, Nat.min_eq_left order] at shorter
  obtain ⟨rest, whole⟩ := shorter
  unfold slice
  rw [← whole, List.drop_append]
  exact List.prefix_append _ _

theorem slice_append_drop {stop : Nat} (order : start ≤ stop) :
    slice text start stop ++ text.drop stop = text.drop start := by
  have whole := List.take_append_drop (stop - start) (text.drop start)
  rw [List.drop_drop, Nat.add_sub_cancel' order] at whole
  rw [slice, List.drop_take, whole]

theorem length_slice {stop : Nat} (inside : stop ≤ text.length) : (slice text start stop).length = stop - start := by
  rw [slice, List.length_drop, List.length_take, Nat.min_eq_left inside]

end Skipping

section Literals

variable [DecidableEq α]

/-- The literal stands at the cursor. -/
def startsWithAt (text literal : List α) (start : Nat) : Bool :=
  literal.isPrefixOf (text.drop start)

def isPrefixAt (text literal : List α) (start : Nat) : Bool :=
  decide ((text.drop start).length < literal.length) && (text.drop start).isPrefixOf literal

/-- The first place from `start` on where the literal stands. -/
def indexOf? (text literal : List α) (start : Nat) : Option Nat :=
  (List.range' start (text.length - start)).find? (startsWithAt text literal)

variable {text more literal : List α} {start : Nat}

theorem startsWithAt_iff : startsWithAt text literal start = true ↔ literal <+: text.drop start :=
  List.isPrefixOf_iff_prefix

theorem isPrefixAt_iff : isPrefixAt text literal start = true ↔
    (text.drop start).length < literal.length ∧ text.drop start <+: literal := by
  rw [isPrefixAt, Bool.and_eq_true, decide_eq_true_iff, List.isPrefixOf_iff_prefix]

theorem startsWithAt_bound (found : startsWithAt text literal start = true) (nonempty : literal ≠ []) :
    start + literal.length ≤ text.length := by
  have fits := (startsWithAt_iff.mp found).length_le
  have size := List.length_pos_iff.mpr nonempty
  rw [List.length_drop] at fits
  omega

theorem startsWithAt_append (inside : start + literal.length ≤ text.length) :
    startsWithAt (text ++ more) literal start = startsWithAt text literal start := by
  rw [Bool.eq_iff_iff, startsWithAt_iff, startsWithAt_iff, List.drop_append_of_le_length (by omega)]
  constructor
  · intro found
    exact List.prefix_of_prefix_length_le found (List.prefix_append _ _) (by rw [List.length_drop]; omega)
  · intro found
    exact found.trans (List.prefix_append _ _)

theorem startsWithAt_mono (found : startsWithAt text literal start = true) (nonempty : literal ≠ []) :
    startsWithAt (text ++ more) literal start = true :=
  (startsWithAt_append (startsWithAt_bound found nonempty)).trans found

theorem startsWithAt_of_append (inside : start ≤ text.length)
    (found : startsWithAt (text ++ more) literal start = true) :
    startsWithAt text literal start = true ∨ isPrefixAt text literal start = true := by
  cases Nat.lt_or_ge (text.drop start).length literal.length with
  | inl short =>
    right
    rw [startsWithAt_iff, List.drop_append_of_le_length inside] at found
    exact isPrefixAt_iff.mpr ⟨short,
      List.prefix_of_prefix_length_le (List.prefix_append _ _) found (Nat.le_of_lt short)⟩
  | inr long =>
    left
    rw [List.length_drop] at long
    rw [← found, startsWithAt_append (by omega)]

theorem isPrefixAt_of_append (inside : start ≤ text.length) (begun : isPrefixAt (text ++ more) literal start = true) :
    isPrefixAt text literal start = true := by
  rw [isPrefixAt_iff, List.drop_append_of_le_length inside] at begun
  rw [isPrefixAt_iff]
  constructor
  · have short := begun.1
    rw [List.length_append] at short
    omega
  · exact (List.prefix_append _ _).trans begun.2

/-- What is known of a literal at a cursor: it is there for good, the text ends inside
it, or it is neither there nor begun and never will be. -/
theorem literal_cases (inside : start ≤ text.length) (nonempty : literal ≠ []) :
    (startsWithAt text literal start = true ∧ startsWithAt (text ++ more) literal start = true) ∨
    (startsWithAt text literal start = false ∧ isPrefixAt text literal start = true) ∨
    (startsWithAt text literal start = false ∧ isPrefixAt text literal start = false ∧
      startsWithAt (text ++ more) literal start = false ∧
      isPrefixAt (text ++ more) literal start = false) := by
  cases there : startsWithAt text literal start with
  | true => exact .inl ⟨rfl, startsWithAt_mono there nonempty⟩
  | false =>
    cases begun : isPrefixAt text literal start with
    | true => exact .inr (.inl ⟨rfl, rfl⟩)
    | false =>
      refine .inr (.inr ⟨rfl, rfl, ?_, ?_⟩)
      · apply Bool.eq_false_iff.mpr
        intro later
        cases startsWithAt_of_append inside later with
        | inl found => rw [there] at found; cases found
        | inr found => rw [begun] at found; cases found
      · apply Bool.eq_false_iff.mpr
        intro later
        rw [isPrefixAt_of_append inside later] at begun
        cases begun

theorem startsWithAt_end (nonempty : literal ≠ []) : startsWithAt text literal text.length = false := by
  apply Bool.eq_false_iff.mpr
  intro found
  have bound := startsWithAt_bound found nonempty
  have size := List.length_pos_iff.mpr nonempty
  omega

theorem isPrefixAt_end (nonempty : literal ≠ []) : isPrefixAt text literal text.length = true := by
  rw [isPrefixAt_iff, List.drop_length]
  exact ⟨List.length_pos_iff.mpr nonempty, List.nil_prefix⟩

theorem startsWithAt_of_slice {stop : Nat} {a : α} (order : start ≤ stop)
    (spelled : slice text start stop = literal) (behind : text[stop]? = some a) :
    startsWithAt text (literal ++ [a]) start = true ∧ stop = start + literal.length := by
  obtain ⟨inside, here⟩ := List.getElem?_eq_some_iff.mp behind
  have split : text.drop start = literal ++ a :: text.drop (stop + 1) := by
    have rest : (text.drop start).drop (stop - start) = text.drop stop := by
      rw [List.drop_drop, Nat.add_sub_cancel' order]
    rw [← spelled, slice, List.drop_take, ← here, ← List.drop_eq_getElem_cons inside, ← rest, List.take_append_drop]
  constructor
  · rw [startsWithAt_iff, split]
    exact ⟨text.drop (stop + 1), by simp⟩
  · rw [← spelled, slice, List.length_drop, List.length_take]
    omega

theorem getElem?_of_startsWithAt (found : startsWithAt text literal start = true) {offset : Nat}
    (within : offset < literal.length) : text[start + offset]? = literal[offset]? := by
  obtain ⟨rest, whole⟩ := startsWithAt_iff.mp found
  rw [← List.getElem?_drop, ← whole, List.getElem?_append_left within]

theorem getElem?_of_isPrefixAt (begun : isPrefixAt text literal start = true) {offset : Nat} {a : α}
    (there : text[start + offset]? = some a) : literal[offset]? = some a := by
  obtain ⟨_, rest, whole⟩ := isPrefixAt_iff.mp begun
  rw [← List.getElem?_drop] at there
  have within := (List.getElem?_eq_some_iff.mp there).1
  rw [← whole, List.getElem?_append_left within, there]

theorem indexOf?_bound {found : Nat} (first : indexOf? text literal start = some found)
    (nonempty : literal ≠ []) : start ≤ found ∧ found + literal.length ≤ text.length := by
  have there := List.find?_some first
  have place := List.mem_of_find?_eq_some first
  rw [List.mem_range'_1] at place
  exact ⟨place.1, startsWithAt_bound there nonempty⟩

theorem indexOf?_append {found : Nat} (first : indexOf? text literal start = some found)
    (nonempty : literal ≠ []) : indexOf? (text ++ more) literal start = some found := by
  have bound := indexOf?_bound first nonempty
  have size := List.length_pos_iff.mpr nonempty
  unfold indexOf? at first ⊢
  rw [List.find?_range'_eq_some] at first ⊢
  obtain ⟨there, place, before⟩ := first
  refine ⟨startsWithAt_mono there nonempty, ?_, ?_⟩
  · rw [List.mem_range'_1] at place ⊢
    rw [List.length_append]
    omega
  · intro earlier least below
    rw [startsWithAt_append (by omega)]
    exact before earlier least below

end Literals

section Ahead

variable {ahead text : List α} {start stop : Nat}

theorem drop_ahead : (ahead ++ text).drop (ahead.length + start) = text.drop start := by
  simp [List.drop_append]

@[simp] theorem getElem?_ahead : (ahead ++ text)[ahead.length + start]? = text[start]? := by
  simp [List.getElem?_append_right]

@[simp] theorem skipWhile_ahead {p : α → Bool} :
    skipWhile p (ahead ++ text) (ahead.length + start) = ahead.length + skipWhile p text start := by
  simp only [skipWhile, drop_ahead, Nat.add_assoc]

@[simp] theorem skipWhileUpTo_ahead {limit : Nat} {p : α → Bool} :
    skipWhileUpTo limit p (ahead ++ text) (ahead.length + start) =
      ahead.length + skipWhileUpTo limit p text start := by
  simp only [skipWhileUpTo, drop_ahead, Nat.add_assoc]

@[simp] theorem slice_ahead :
    slice (ahead ++ text) (ahead.length + start) (ahead.length + stop) = slice text start stop := by
  simp only [slice, List.drop_take, drop_ahead, Nat.add_sub_add_left]

variable [DecidableEq α] {literal : List α}

@[simp] theorem startsWithAt_ahead :
    startsWithAt (ahead ++ text) literal (ahead.length + start) = startsWithAt text literal start := by
  simp only [startsWithAt, drop_ahead]

@[simp] theorem isPrefixAt_ahead :
    isPrefixAt (ahead ++ text) literal (ahead.length + start) = isPrefixAt text literal start := by
  simp only [isPrefixAt, drop_ahead]

theorem indexOf?_ahead : indexOf? (ahead ++ text) literal (ahead.length + start) =
      (indexOf? text literal start).map (ahead.length + ·) := by
  have places : List.range' (ahead.length + start) (text.length - start) =
      (List.range' start (text.length - start)).map (ahead.length + ·) := by
    rw [List.map_add_range']
  have reads : (startsWithAt (ahead ++ text) literal ∘ (ahead.length + ·)) = startsWithAt text literal := by
    funext place
    exact startsWithAt_ahead
  rw [indexOf?, List.length_append, Nat.add_sub_add_left, places, List.find?_map, reads]
  rfl

end Ahead

end Scanning
