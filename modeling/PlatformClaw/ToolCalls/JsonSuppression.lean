import PlatformClaw.ToolCalls.SuppressionEnds

/-! # Suppressing the rest of an object call

The object of a call over the cap is read to its end, and behind it a closing marker, which a bare bracketed name
needs and the other forms take if it is there. What arrives of a marker is carried over to the next chunk.
-/

namespace ToolCallRepair

open Scanning

/-- The closing markers that are looked for behind the object. -/
def JsonSuppressor.closings (suppressor : JsonSuppressor) : List Text :=
  match suppressor.requiredClosing with
  | some required => [required, END_TOOL_REQUEST]
  | none => suppressor.optionalClosings.getD []

/-- Behind the object. Without a closing marker the text is left as it is, or without what ends its line. -/
def closeJson (suppressor : JsonSuppressor) (text : Text) : Option Text × JsonSuppressor :=
  let rest := text.drop (skipWhitespace text 0)
  match suppressor.closings.find? fun marker => marker.isPrefixOf rest with
  | some closing => (some (rest.drop (consumeRemovedLineEnd rest closing.length)), suppressor)
  | none =>
    if suppressor.closings.any fun marker => rest.isPrefixOf marker then
      match suppressor.requiredClosing with
      | some _ => (none, { suppressor with carry := rest })
      | none =>
        let maxCarryChars := suppressor.closings.foldl (fun most marker => max most marker.length) 0
        -- Leading whitespace is kept with a split closing marker, as far as there is room for it.
        (none, { suppressor with carry := text.drop (text.length - maxCarryChars) })
    else
      match suppressor.requiredClosing with
      | some _ => (some rest, suppressor)
      | none => (some (text.drop (consumeRemovedLineEnd text 0)), suppressor)

def readJsonPayload (suppressor : JsonSuppressor) (text : Text) : Option Text × JsonSuppressor :=
  let scan := scanJsonUnits text 0 ⟨suppressor.depth, suppressor.escaped, suppressor.inString⟩
  let read : JsonSuppressor :=
    { suppressor with depth := scan.state.depth, escaped := scan.state.escaped, inString := scan.state.inString }
  if scan.finished then closeJson { read with phase := .closing } (text.drop scan.stop) else (none, read)

def consumeJsonSuppressor (suppressor : JsonSuppressor) (chunk : Text) : Option Text × JsonSuppressor :=
  let text := suppressor.carry ++ chunk
  let consumed := { suppressor with carry := [] }
  match suppressor.phase with
  | .opening =>
    let cursor := skipWhitespace text 0
    if cursor = text.length then (none, consumed)
    else if text[cursor]? ≠ some '{'.toNat then (some (text.drop cursor), consumed)
    else readJsonPayload { consumed with depth := 1, phase := .payload } (text.drop (cursor + 1))
  | .payload => readJsonPayload consumed text
  | .closing => closeJson consumed text

def withoutLeadingWhitespace (text : Text) : Text :=
  text.dropWhile ScriptString.isWhitespacePoint

section Leading

variable {text text' more : Text}

theorem drop_skipWhitespace : text.drop (skipWhitespace text 0) = withoutLeadingWhitespace text := by
  have parts := List.takeWhile_append_dropWhile (p := ScriptString.isWhitespacePoint) (l := text)
  have split := @skipWhile_split text 0 ScriptString.isWhitespacePoint
  rw [List.drop_zero] at split
  exact List.append_cancel_left (split.trans parts.symm)

theorem withoutLeading_nonblank {unit : Nat} {rest : Text} (left : withoutLeadingWhitespace text = unit :: rest) :
    ScriptString.isWhitespacePoint unit = false := by
  unfold withoutLeadingWhitespace at left
  induction text with
  | nil => cases left
  | cons first others ih =>
    rw [List.dropWhile_cons] at left
    split at left
    · exact ih left
    · rename_i stays
      cases left
      exact Bool.eq_false_iff.mpr stays

theorem withoutLeading_append_of_some (some_ : withoutLeadingWhitespace text ≠ []) :
    withoutLeadingWhitespace (text ++ more) = withoutLeadingWhitespace text ++ more := by
  unfold withoutLeadingWhitespace at some_ ⊢
  cases left : text.dropWhile ScriptString.isWhitespacePoint with
  | nil => exact absurd left some_
  | cons unit rest => exact (takeWhile_append_stops left).2

theorem withoutLeading_again (text more : Text) :
    withoutLeadingWhitespace (withoutLeadingWhitespace text ++ more) = withoutLeadingWhitespace (text ++ more) := by
  cases left : withoutLeadingWhitespace text with
  | nil =>
    rw [List.nil_append]
    exact (takeWhile_append_all left).2.symm
  | cons unit rest =>
    have stays := withoutLeading_nonblank left
    have some_ : withoutLeadingWhitespace text ≠ [] := by
      rw [left]
      exact List.cons_ne_nil _ _
    rw [withoutLeading_append_of_some some_, left, withoutLeadingWhitespace, List.cons_append,
      List.dropWhile_cons_of_neg (by rw [stays]; simp)]

theorem withoutLeading_blank {blank : Text} (isBlank : blank.all ScriptString.isWhitespacePoint = true) :
    withoutLeadingWhitespace (blank ++ text) = withoutLeadingWhitespace text := by
  have none_ : blank.dropWhile ScriptString.isWhitespacePoint = [] := by
    induction blank with
    | nil => rfl
    | cons unit rest ih =>
      rw [List.all_cons, Bool.and_eq_true] at isBlank
      rw [List.dropWhile_cons_of_pos isBlank.1, ih isBlank.2]
  exact (takeWhile_append_all none_).2

theorem consumeLineBreak_blank {start stop at_ unit : Nat} (consumed : consumeLineBreak text start = some stop)
    (from_ : start ≤ at_) (before : at_ < stop) (there : text[at_]? = some unit) :
    ScriptString.isWhitespacePoint unit = true := by
  have carriage : ScriptString.isWhitespacePoint 0x0D = true := by decide
  have feed : ScriptString.isWhitespacePoint 0x0A = true := by decide
  unfold consumeLineBreak at consumed
  split at consumed
  · rename_i first
    obtain rfl | later := Nat.eq_or_lt_of_le from_
    · cases there.symm.trans first
      exact carriage
    · split at consumed
      · rename_i second
        cases consumed
        obtain rfl : at_ = start + 1 := by omega
        cases there.symm.trans second
        exact feed
      · cases consumed
        omega
  · split at consumed
    · rename_i first
      cases consumed
      obtain rfl : at_ = start := by omega
      cases there.symm.trans first
      exact feed
    · cases consumed

theorem consumeRemovedLineEnd_blank {place : Nat} (inside : place ≤ text.length) :
    withoutLeadingWhitespace (text.drop (consumeRemovedLineEnd text place)) =
      withoutLeadingWhitespace (text.drop place) := by
  have bound := consumeRemovedLineEnd_bound inside
  have indentation : ∀ at_ unit, place ≤ at_ → at_ < skipLineIndentation text place → text[at_]? = some unit →
      ScriptString.isWhitespacePoint unit = true := by
    intro at_ unit from_ before there
    have passed : isLineIndentation unit = true := skipWhile_holds from_ before there
    rw [isLineIndentation, Bool.and_eq_true] at passed
    exact passed.1
  have all : ∀ at_ unit, place ≤ at_ → at_ < consumeRemovedLineEnd text place → text[at_]? = some unit →
      ScriptString.isWhitespacePoint unit = true := by
    intro at_ unit from_ before there
    unfold consumeRemovedLineEnd at before
    dsimp only at before
    split at before
    · exact indentation at_ unit from_ before there
    · cases broken : consumeLineBreak text (skipLineIndentation text place) with
      | none =>
        rw [broken, Option.getD_none] at before
        omega
      | some stop =>
        rw [broken, Option.getD_some] at before
        obtain early | late := Nat.lt_or_ge at_ (skipLineIndentation text place)
        · exact indentation at_ unit from_ early there
        · exact consumeLineBreak_blank broken late before there
  rw [← slice_append_drop bound.1]
  symm
  apply withoutLeading_blank
  rw [List.all_eq_true]
  intro unit known
  obtain ⟨offset, here⟩ := List.getElem?_of_mem known
  have inSlice := (List.getElem?_eq_some_iff.mp here).1
  rw [length_slice bound.2] at inSlice
  rw [slice, List.getElem?_drop, List.getElem?_take_of_lt (by omega)] at here
  exact all (place + offset) unit (Nat.le_add_right _ _) (by omega) here

end Leading

/-- No closing marker is empty or begins another. -/
def Marked (closings : List Text) : Prop :=
  ∀ marker ∈ closings, marker ≠ [] ∧ ∀ other ∈ closings, marker <+: other → marker = other

section Closing

variable {suppressor next : JsonSuppressor} {text text' : Text}

/-- What is visible behind the object, once that is known. -/
def visibleBehind (closings : List Text) (rest : Text) : Option Text :=
  match closings.find? fun marker => marker.isPrefixOf rest with
  | some closing => some (withoutLeadingWhitespace (rest.drop closing.length))
  | none => if closings.any fun marker => rest.isPrefixOf marker then none else some rest

theorem closeJson_visible : (closeJson suppressor text).1.map withoutLeadingWhitespace =
      visibleBehind suppressor.closings (withoutLeadingWhitespace text) := by
  have lines := consumeRemovedLineEnd_blank (Nat.zero_le text.length)
  have again := withoutLeading_again text []
  rw [List.drop_zero] at lines
  rw [List.append_nil, List.append_nil] at again
  unfold closeJson visibleBehind
  dsimp only
  rw [drop_skipWhitespace]
  cases found : suppressor.closings.find? fun marker => marker.isPrefixOf (withoutLeadingWhitespace text) with
  | some closing =>
    have begins : closing <+: withoutLeadingWhitespace text :=
      List.isPrefixOf_iff_prefix.mp (@List.find?_some _ _ closing _ found)
    exact congrArg some (consumeRemovedLineEnd_blank begins.length_le)
  | none =>
    dsimp only
    split
    · split <;> rfl
    · split
      · exact congrArg some again
      · exact congrArg some lines

theorem visibleBehind_append {closings : List Text} {out : Text} (marked : Marked closings)
    (known : visibleBehind closings (withoutLeadingWhitespace text) = some out) (more : Text) :
    visibleBehind closings (withoutLeadingWhitespace (text ++ more)) =
      some (withoutLeadingWhitespace (out ++ more)) := by
  unfold visibleBehind at known ⊢
  cases found : closings.find? fun marker => marker.isPrefixOf (withoutLeadingWhitespace text) with
  | some closing =>
    rw [found] at known
    cases known
    have isClosing := List.mem_of_find?_eq_some found
    have begins : closing <+: withoutLeadingWhitespace text :=
      List.isPrefixOf_iff_prefix.mp (@List.find?_some _ _ closing _ found)
    have some_ : withoutLeadingWhitespace text ≠ [] := fun none_ =>
      (marked closing isClosing).1 (List.prefix_nil.mp (none_ ▸ begins))
    have longer : closing <+: withoutLeadingWhitespace text ++ more := begins.trans (List.prefix_append _ _)
    have same : closings.find? (fun marker => marker.isPrefixOf (withoutLeadingWhitespace text ++ more)) =
        some closing := by
      cases later : closings.find? fun marker => marker.isPrefixOf (withoutLeadingWhitespace text ++ more) with
      | none =>
        rw [List.find?_eq_none] at later
        exact absurd (List.isPrefixOf_iff_prefix.mpr longer) (later closing isClosing)
      | some other =>
        have isOther := List.mem_of_find?_eq_some later
        have otherBegins : other <+: withoutLeadingWhitespace text ++ more :=
          List.isPrefixOf_iff_prefix.mp (@List.find?_some _ _ other _ later)
        obtain shorter | shorter := List.prefix_or_prefix_of_prefix otherBegins longer
        · rw [(marked other isOther).2 closing isClosing shorter]
        · rw [(marked closing isClosing).2 other isOther shorter]
    rw [withoutLeading_append_of_some some_, same]
    dsimp only
    rw [withoutLeading_again, List.drop_append_of_le_length begins.length_le]
  | none =>
    rw [found] at known
    rw [List.find?_eq_none] at found
    dsimp only at known
    by_cases begun : (closings.any fun marker => (withoutLeadingWhitespace text).isPrefixOf marker) = true
    · rw [if_pos begun] at known
      cases known
    · rw [if_neg begun] at known
      cases known
      have unbegun : ∀ marker ∈ closings, ¬withoutLeadingWhitespace text <+: marker := by
        intro marker isMarker begins
        exact begun (List.any_eq_true.mpr ⟨marker, isMarker, List.isPrefixOf_iff_prefix.mpr begins⟩)
      cases closings with
      | nil =>
        simp [withoutLeading_again]
      | cons first others =>
        have some_ : withoutLeadingWhitespace text ≠ [] := fun none_ =>
          unbegun first List.mem_cons_self (none_ ▸ List.nil_prefix)
        have absent : ((first :: others).find? fun marker =>
            marker.isPrefixOf (withoutLeadingWhitespace text ++ more)) = none := by
          rw [List.find?_eq_none]
          intro marker isMarker begins
          have isBegin := List.isPrefixOf_iff_prefix.mp begins
          obtain shorter | shorter := List.prefix_or_prefix_of_prefix isBegin (List.prefix_append _ more)
          · exact found marker isMarker (List.isPrefixOf_iff_prefix.mpr shorter)
          · exact unbegun marker isMarker shorter
        have unbegunLater : ¬((first :: others).any fun marker =>
            (withoutLeadingWhitespace text ++ more).isPrefixOf marker) = true := by
          intro any
          obtain ⟨marker, isMarker, begins⟩ := List.any_eq_true.mp any
          exact unbegun marker isMarker ((List.prefix_append _ _).trans (List.isPrefixOf_iff_prefix.mp begins))
        rw [withoutLeading_again, withoutLeading_append_of_some some_, absent]
        exact if_neg unbegunLater

theorem le_foldl_max (lengths : List Text) (most : Nat) :
    most ≤ lengths.foldl (fun most marker => max most marker.length) most ∧
      ∀ marker ∈ lengths, marker.length ≤ lengths.foldl (fun most marker => max most marker.length) most := by
  induction lengths generalizing most with
  | nil => exact ⟨Nat.le_refl _, fun _ known => by cases known⟩
  | cons first rest ih =>
    obtain ⟨least, all⟩ := ih (max most first.length)
    refine ⟨Nat.le_trans (Nat.le_max_left _ _) least, fun marker known => ?_⟩
    obtain rfl | inRest := List.mem_cons.mp known
    · exact Nat.le_trans (Nat.le_max_right _ _) least
    · exact all marker inRest

theorem closeJson_waits (waits : closeJson suppressor text = (none, next)) :
    ∃ carry, next = { suppressor with carry } ∧ ∀ more,
      withoutLeadingWhitespace (carry ++ more) = withoutLeadingWhitespace (text ++ more) := by
  unfold closeJson at waits
  dsimp only at waits
  rw [drop_skipWhitespace] at waits
  split at waits
  · cases waits
  · split at waits
    · rename_i begun
      split at waits
      · cases waits
        exact ⟨_, rfl, withoutLeading_again text⟩
      · cases waits
        refine ⟨_, rfl, fun more => ?_⟩
        -- What is left behind the whitespace begins a marker, so it is kept.
        obtain ⟨marker, isMarker, begins⟩ := List.any_eq_true.mp begun
        have room := (le_foldl_max suppressor.closings 0).2 marker isMarker
        have short := (List.isPrefixOf_iff_prefix.mp begins).length_le
        have parts := List.takeWhile_append_dropWhile (p := ScriptString.isWhitespacePoint) (l := text)
        have size := congrArg List.length parts
        rw [List.length_append] at size
        have split : text.drop (text.length - suppressor.closings.foldl (fun most marker => max most marker.length) 0) =
            (text.takeWhile ScriptString.isWhitespacePoint).drop
                (text.length - suppressor.closings.foldl (fun most marker => max most marker.length) 0) ++
              withoutLeadingWhitespace text := by
          rw [withoutLeadingWhitespace] at short ⊢
          rw [← List.drop_append_of_le_length (by omega), parts]
        rw [split, List.append_assoc, withoutLeading_blank, withoutLeading_again]
        rw [List.all_eq_true]
        intro unit known
        exact List.all_eq_true.mp List.all_takeWhile unit (List.mem_of_mem_drop known)
    · split at waits <;> cases waits

end Closing

section Object

variable {suppressor next : JsonSuppressor} {text more : Text}

/-- An object that is not closed is read on from where it was left. -/
theorem scanJsonUnits_continues (rest : Text) (index : Nat) (state : PlainTextJsonToolCallState)
    (open_ : (scanJsonUnits rest index state).finished = false) :
    scanJsonUnits (rest ++ more) index state =
      scanJsonUnits more (index + rest.length) (scanJsonUnits rest index state).state := by
  induction rest generalizing index state with
  | nil => rfl
  | cons char rest ih =>
    simp only [scanJsonUnits, List.cons_append, List.length_cons] at open_ ⊢
    split
    · rename_i closes
      rw [if_pos closes] at open_
      cases open_
    · rename_i goesOn
      rw [if_neg goesOn] at open_
      rw [ih (index + 1) (state.read char) open_]
      congr 1
      omega

/-- What is visible behind the object, once it has been read to its end. -/
def visibleBehindObject (closings : List Text) (state : PlainTextJsonToolCallState) (text : Text) : Option Text :=
  let scan := scanJsonUnits text 0 state
  if scan.finished then visibleBehind closings (withoutLeadingWhitespace (text.drop scan.stop)) else none

theorem readJsonPayload_visible : (readJsonPayload suppressor text).1.map withoutLeadingWhitespace =
      visibleBehindObject suppressor.closings ⟨suppressor.depth, suppressor.escaped, suppressor.inString⟩ text := by
  unfold readJsonPayload visibleBehindObject
  dsimp only
  split
  · exact closeJson_visible
  · rfl

theorem scanJsonUnits_inside (text : Text) (state : PlainTextJsonToolCallState) :
    (scanJsonUnits text 0 state).stop ≤ text.length := by
  have bound := (scanJsonUnits_bound text 0 state).2
  omega

theorem visibleBehindObject_finished {closings : List Text} {state : PlainTextJsonToolCallState}
    (finished : (scanJsonUnits text 0 state).finished = true) (more : Text) :
    visibleBehindObject closings state (text ++ more) =
      visibleBehind closings (withoutLeadingWhitespace (text.drop (scanJsonUnits text 0 state).stop ++ more)) := by
  unfold visibleBehindObject
  dsimp only
  rw [scanJsonUnits_append text 0 state finished, if_pos finished,
    List.drop_append_of_le_length (scanJsonUnits_inside text state)]

theorem visibleBehindObject_append {closings : List Text} {state : PlainTextJsonToolCallState} {out : Text}
    (marked : Marked closings) (known : visibleBehindObject closings state text = some out) (more : Text) :
    visibleBehindObject closings state (text ++ more) = some (withoutLeadingWhitespace (out ++ more)) := by
  cases finished : (scanJsonUnits text 0 state).finished with
  | false => simp [visibleBehindObject, finished] at known
  | true =>
    rw [visibleBehindObject_finished finished more]
    apply visibleBehind_append marked
    simpa [visibleBehindObject, finished] using known

theorem visibleBehindObject_open {closings : List Text} {state : PlainTextJsonToolCallState}
    (open_ : (scanJsonUnits text 0 state).finished = false) (more : Text) :
    visibleBehindObject closings (scanJsonUnits text 0 state).state more =
      visibleBehindObject closings state (text ++ more) := by
  have shifted := @scanJsonUnits_shift text.length more 0 (scanJsonUnits text 0 state).state
  rw [Nat.add_zero] at shifted
  unfold visibleBehindObject
  dsimp only
  rw [scanJsonUnits_continues text 0 state open_, Nat.zero_add, shifted, ← List.drop_drop, List.drop_left]

end Object

section Chunks

variable {suppressor next : JsonSuppressor} {chunk more : Text}

/-- What is visible of the text behind the suppressed call, once that is known. -/
def JsonSuppressor.visible (suppressor : JsonSuppressor) (chunk : Text) : Option Text :=
  let state : PlainTextJsonToolCallState := ⟨suppressor.depth, suppressor.escaped, suppressor.inString⟩
  match suppressor.phase with
  | .opening =>
    match withoutLeadingWhitespace (suppressor.carry ++ chunk) with
    | [] => none
    | unit :: rest =>
      if unit = '{'.toNat then visibleBehindObject suppressor.closings { state with depth := 1 } rest
      else some (unit :: rest)
  | .payload => visibleBehindObject suppressor.closings state (suppressor.carry ++ chunk)
  | .closing => visibleBehind suppressor.closings (withoutLeadingWhitespace (suppressor.carry ++ chunk))

theorem opening_cases (text : Text) : (withoutLeadingWhitespace text = [] ∧ skipWhitespace text 0 = text.length) ∨
      ∃ unit rest, withoutLeadingWhitespace text = unit :: rest ∧ skipWhitespace text 0 ≠ text.length ∧
        text[skipWhitespace text 0]? = some unit ∧ text.drop (skipWhitespace text 0) = unit :: rest ∧
        text.drop (skipWhitespace text 0 + 1) = rest := by
  have skipped := @drop_skipWhitespace text
  have bound : skipWhitespace text 0 ≤ text.length := skipWhile_le (Nat.zero_le _)
  cases left : withoutLeadingWhitespace text with
  | nil =>
    rw [left, List.drop_eq_nil_iff] at skipped
    exact .inl ⟨rfl, Nat.le_antisymm bound skipped⟩
  | cons unit rest =>
    rw [left] at skipped
    have there : text[skipWhitespace text 0]? = some unit := by
      rw [← List.head?_drop, skipped, List.head?_cons]
    refine .inr ⟨unit, rest, rfl, ?_, there, skipped, ?_⟩
    · intro ended
      rw [ended, List.drop_length] at skipped
      cases skipped
    · rw [← List.drop_drop, skipped, List.drop_one, List.tail_cons]

theorem consumeJsonSuppressor_visible :
    (consumeJsonSuppressor suppressor chunk).1.map withoutLeadingWhitespace = suppressor.visible chunk := by
  unfold consumeJsonSuppressor JsonSuppressor.visible
  dsimp only
  cases suppressor.phase with
  | closing => exact closeJson_visible
  | payload => exact readJsonPayload_visible
  | opening =>
    dsimp only
    obtain ⟨blank, ended⟩ | ⟨unit, rest, left, goesOn, there, whole, behind⟩ :=
      opening_cases (suppressor.carry ++ chunk)
    · rw [blank, if_pos ended]
      rfl
    · rw [left, if_neg goesOn, there, whole, behind]
      dsimp only
      by_cases brace : unit = '{'.toNat
      · rw [if_neg (fun other => other (congrArg some brace)), if_pos brace]
        exact readJsonPayload_visible
      · have stays : withoutLeadingWhitespace (unit :: rest) = unit :: rest := by
          have again := withoutLeading_again (suppressor.carry ++ chunk) []
          rw [List.append_nil, List.append_nil, left] at again
          exact again
        rw [if_pos (fun same => brace (Option.some.inj same)), if_neg brace]
        exact congrArg some stays

theorem closeJson_awaits (closing : suppressor.phase = .closing) (waits : closeJson suppressor chunk = (none, next)) :
    next.closings = suppressor.closings ∧ ∀ more,
      next.visible more = visibleBehind suppressor.closings (withoutLeadingWhitespace (chunk ++ more)) := by
  obtain ⟨carry, rfl, same⟩ := closeJson_waits waits
  refine ⟨rfl, fun more => ?_⟩
  rw [← same more]
  unfold JsonSuppressor.visible
  dsimp only
  rw [closing]
  rfl

theorem readJsonPayload_awaits (payload : suppressor.phase = .payload) (empty : suppressor.carry = [])
    (waits : readJsonPayload suppressor chunk = (none, next)) :
    next.closings = suppressor.closings ∧ ∀ more,
      next.visible more =
        visibleBehindObject suppressor.closings ⟨suppressor.depth, suppressor.escaped, suppressor.inString⟩
          (chunk ++ more) := by
  unfold readJsonPayload at waits
  dsimp only at waits
  cases finished : (scanJsonUnits chunk 0 ⟨suppressor.depth, suppressor.escaped, suppressor.inString⟩).finished with
  | true =>
    rw [finished, if_pos rfl] at waits
    obtain ⟨same, sees⟩ := closeJson_awaits rfl waits
    refine ⟨same, fun more => ?_⟩
    rw [sees more, visibleBehindObject_finished finished more]
    rfl
  | false =>
    rw [finished, if_neg (by simp)] at waits
    cases waits
    refine ⟨rfl, fun more => ?_⟩
    rw [← visibleBehindObject_open finished more]
    unfold JsonSuppressor.visible
    dsimp only
    rw [payload, empty]
    rfl

theorem consumeJsonSuppressor_awaits (waits : consumeJsonSuppressor suppressor chunk = (none, next)) :
    next.closings = suppressor.closings ∧ ∀ more, next.visible more = suppressor.visible (chunk ++ more) := by
  unfold consumeJsonSuppressor at waits
  dsimp only at waits
  cases phase : suppressor.phase with
  | closing =>
    rw [phase] at waits
    dsimp only at waits
    obtain ⟨same, sees⟩ := closeJson_awaits rfl waits
    refine ⟨same, fun more => ?_⟩
    rw [sees more, JsonSuppressor.visible, phase, List.append_assoc]
    rfl
  | payload =>
    rw [phase] at waits
    dsimp only at waits
    obtain ⟨same, sees⟩ := readJsonPayload_awaits rfl rfl waits
    refine ⟨same, fun more => ?_⟩
    rw [sees more, JsonSuppressor.visible, phase, List.append_assoc]
    rfl
  | opening =>
    rw [phase] at waits
    dsimp only at waits
    obtain ⟨blank, ended⟩ | ⟨unit, rest, left, goesOn, there, whole, behind⟩ :=
      opening_cases (suppressor.carry ++ chunk)
    · rw [if_pos ended] at waits
      cases waits
      refine ⟨rfl, fun more => ?_⟩
      have again := withoutLeading_again (suppressor.carry ++ chunk) more
      rw [blank, List.append_assoc] at again
      unfold JsonSuppressor.visible
      dsimp only
      rw [phase]
      dsimp only
      rw [again]
      rfl
    · rw [if_neg goesOn, there, whole, behind] at waits
      by_cases brace : unit = '{'.toNat
      · rw [if_neg (fun other => other (congrArg some brace))] at waits
        obtain ⟨same, sees⟩ := readJsonPayload_awaits rfl rfl waits
        refine ⟨same, fun more => ?_⟩
        have some_ : withoutLeadingWhitespace (suppressor.carry ++ chunk) ≠ [] := by
          rw [left]
          exact List.cons_ne_nil _ _
        rw [sees more, JsonSuppressor.visible, phase]
        dsimp only
        rw [← List.append_assoc, withoutLeading_append_of_some some_, left]
        exact (if_pos brace).symm
      · rw [if_pos (fun same => brace (Option.some.inj same))] at waits
        cases waits

theorem JsonSuppressor.visible_append {out : Text} (marked : Marked suppressor.closings)
    (known : suppressor.visible chunk = some out) (more : Text) :
    suppressor.visible (chunk ++ more) = some (withoutLeadingWhitespace (out ++ more)) := by
  unfold JsonSuppressor.visible at known ⊢
  dsimp only at known ⊢
  rw [← List.append_assoc]
  cases phase : suppressor.phase with
  | closing =>
    rw [phase] at known
    exact visibleBehind_append marked known more
  | payload =>
    rw [phase] at known
    exact visibleBehindObject_append marked known more
  | opening =>
    rw [phase] at known
    dsimp only at known ⊢
    cases left : withoutLeadingWhitespace (suppressor.carry ++ chunk) with
    | nil =>
      rw [left] at known
      cases known
    | cons unit rest =>
      have some_ : withoutLeadingWhitespace (suppressor.carry ++ chunk) ≠ [] := by
        rw [left]
        exact List.cons_ne_nil _ _
      rw [left] at known
      rw [withoutLeading_append_of_some some_, left, List.cons_append]
      dsimp only at known ⊢
      by_cases brace : unit = '{'.toNat
      · rw [if_pos brace] at known ⊢
        exact visibleBehindObject_append marked known more
      · rw [if_neg brace] at known ⊢
        cases known
        have again := withoutLeading_again (suppressor.carry ++ chunk) more
        rw [withoutLeading_append_of_some some_, left] at again
        exact congrArg some again.symm

theorem closings_jsonSuppressor (text : Text) (value : PlainTextJsonToolCallCandidate)
    (state : Option PlainTextJsonToolCallState) :
    (jsonSuppressor text value state).closings = [nameClosing text value.name, END_TOOL_REQUEST] ∨
      (jsonSuppressor text value state).closings =
        [HARMONY_CALL_MARKER, END_TOOL_REQUEST, nameClosing text value.name] := by
  unfold jsonSuppressor
  dsimp only
  split
  · exact .inl rfl
  · exact .inr rfl

theorem marked_jsonSuppressor (text : Text) (value : PlainTextJsonToolCallCandidate)
    (state : Option PlainTextJsonToolCallState) : Marked (jsonSuppressor text value state).closings := by
  have toolRequest : END_TOOL_REQUEST = '['.toNat :: 'E'.toNat :: units "ND_TOOL_REQUEST]" := by decide
  have named : nameClosing text value.name = '['.toNat :: '/'.toNat :: (value.name.of text ++ units "]") := rfl
  have harmony : HARMONY_CALL_MARKER = '<'.toNat :: units "|call|>" := by decide
  obtain closings | closings := closings_jsonSuppressor text value state
  · rw [closings, Marked, toolRequest, named]
    simp [List.cons_prefix_cons]
  · rw [closings, Marked, toolRequest, named, harmony]
    simp [List.cons_prefix_cons]

theorem feed_consumeJsonSuppressor (text : Text) (value : PlainTextJsonToolCallCandidate)
    (state : Option PlainTextJsonToolCallState) (chunk : Text) (chunks : List Text) :
    (Feeding.feed consumeJsonSuppressor (jsonSuppressor text value state) (chunk :: chunks)).map
        withoutLeadingWhitespace =
      (consumeJsonSuppressor (jsonSuppressor text value state) (chunk :: chunks).flatten).1.map
        withoutLeadingWhitespace := by
  apply @Feeding.feed_view _ _ _ consumeJsonSuppressor fun suppressor => Marked suppressor.closings
  · intro suppressor chunk next marked waits
    rw [(consumeJsonSuppressor_awaits waits).1]
    exact marked
  · intro suppressor chunk next more _ waits
    rw [consumeJsonSuppressor_visible, consumeJsonSuppressor_visible]
    exact (consumeJsonSuppressor_awaits waits).2 more
  · intro suppressor chunk suffix next more marked ends
    have known : suppressor.visible chunk = some (withoutLeadingWhitespace suffix) := by
      rw [← consumeJsonSuppressor_visible, ends]
      rfl
    rw [consumeJsonSuppressor_visible, JsonSuppressor.visible_append marked known, withoutLeading_again]
  · exact marked_jsonSuppressor text value state

end Chunks

/-- A tagged call that is suppressed in chunks leaves what it leaves in one piece exactly if its line ends with it;
an object call does up to leading whitespace. -/
theorem suppression_in_chunks (xml : XmlSuppressor) (text : Text) (value : PlainTextJsonToolCallCandidate)
    (state : Option PlainTextJsonToolCallState) (chunk : Text) (chunks : List Text) :
    (Feeding.feed consumeXmlSuppressor xml (chunk :: chunks) =
        (consumeXmlSuppressor xml (chunk :: chunks).flatten).1 ↔
      LineEndsTogether xml (chunk :: chunks)) ∧
    (Feeding.feed consumeJsonSuppressor (jsonSuppressor text value state) (chunk :: chunks)).map
        withoutLeadingWhitespace =
      (consumeJsonSuppressor (jsonSuppressor text value state) (chunk :: chunks).flatten).1.map
        withoutLeadingWhitespace :=
  ⟨feed_consumeXmlSuppressor_iff xml chunk chunks, feed_consumeJsonSuppressor text value state chunk chunks⟩

/-- The line break behind a call that ends its chunk stays. -/
theorem suppression_in_chunks_line :
    Feeding.feed consumeXmlSuppressor ⟨[], .body⟩ [units "</function>", units "\nVisible"] =
        some (units "\nVisible") ∧
      (consumeXmlSuppressor ⟨[], .body⟩ (units "</function>\nVisible")).1 = some (units "Visible") := by
  decide +kernel

end ToolCallRepair
