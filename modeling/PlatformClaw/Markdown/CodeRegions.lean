import PlatformClaw.Library.ScriptText

/-! # Code regions of a streamed text

Fenced and inline code of a Markdown text that arrives in chunks. What is carried from chunk to chunk is the
fence that is open and the run of backticks that opened inline code.
-/

namespace PlatformClaw.Markdown

open ScriptText (Text)

structure OpenFence where
  markerChar : Nat
  markerLen : Nat
  openLine : Text
  marker : Text
  indent : Text
deriving DecidableEq, Repr

/-- From `start` up to `stop`, the `end` of the source. -/
structure FenceSpan where
  start : Nat
  stop : Nat
  openLine : Text
  marker : Text
  indent : Text
deriving DecidableEq, Repr

structure FenceScanState where
  atLineStart : Bool
  opened : Option OpenFence
deriving DecidableEq, Repr

def FenceScanState.initial : FenceScanState := ⟨true, none⟩

/-- The groups of `^( {0,3})(`{3,}|~{3,})(.*)$`. -/
structure FenceLine where
  indent : Text
  marker : Text
  trailing : Text
deriving DecidableEq, Repr

def matchFenceLine (line : Text) : Option FenceLine :=
  let indent := line.takeWhile (· == 32)
  let rest := line.drop indent.length
  match rest.head? with
  | none => none
  | some markerChar =>
    let marker := rest.takeWhile (· == markerChar)
    let trailing := rest.drop marker.length
    if indent.length ≤ 3 ∧ (markerChar = 96 ∨ markerChar = 126) ∧ 3 ≤ marker.length ∧
        trailing.any ScriptText.isLineTerminator = false then
      some ⟨indent, marker, trailing⟩
    else none

def withoutReturn (line : Text) : Text := if line.getLast? = some 13 then line.dropLast else line

/-- The open fence after a line at which fences may begin or end. -/
def fenceStep (opened : Option OpenFence) (line : Text) : Option OpenFence :=
  match matchFenceLine (withoutReturn line) with
  | none => opened
  | some found =>
    match opened with
    | none => some ⟨found.marker.headD 0, found.marker.length, withoutReturn line, found.marker,
        found.indent⟩
    | some fence =>
      -- Other text after the marker makes the line part of the code.
      if fence.markerChar = found.marker.headD 0 ∧ fence.markerLen ≤ found.marker.length ∧
          found.trailing.all (fun unit => unit == 32 || unit == 9) = true then none
      else some fence

def FenceSpan.ofOpen (fence : OpenFence) (start stop : Nat) : FenceSpan :=
  ⟨start, stop, fence.openLine, fence.marker, fence.indent⟩

def splitLines : Text → List Text
  | [] => [[]]
  | unit :: rest =>
    if unit = 10 then [] :: splitLines rest
    else
      match splitLines rest with
      | line :: lines => (unit :: line) :: lines
      | [] => [[unit]]

/-- The lines from `offset` on; only the first may be no candidate. -/
def scanFenceLines (bufferLength : Nat) :
    Nat → Bool → Option (Nat × OpenFence) → List Text → List FenceSpan × Option OpenFence
  | _, _, none, [] => ([], none)
  | _, _, some (start, fence), [] => ([FenceSpan.ofOpen fence start bufferLength], some fence)
  | offset, candidate, none, line :: rest =>
    let next := if candidate then fenceStep none line else none
    scanFenceLines bufferLength (offset + line.length + 1) true (next.map fun fence => (offset, fence)) rest
  | offset, candidate, some (start, fence), line :: rest =>
    if (if candidate then fenceStep (some fence) line else some fence).isSome then
      scanFenceLines bufferLength (offset + line.length + 1) true (some (start, fence)) rest
    else
      let later := scanFenceLines bufferLength (offset + line.length + 1) true none rest
      (FenceSpan.ofOpen fence start (offset + line.length) :: later.1, later.2)

def scanFenceSpans (buffer : Text) (state : FenceScanState) : List FenceSpan × FenceScanState :=
  let scanned := scanFenceLines buffer.length 0 state.atLineStart (state.opened.map fun fence => (0, fence))
    (splitLines buffer)
  let atLineStart := if buffer = [] then state.atLineStart else buffer.getLast? == some 10
  (scanned.1, ⟨atLineStart, scanned.2⟩)

structure InlineCodeState where
  opened : Bool
  /-- How many backticks close the code. -/
  ticks : Nat
deriving DecidableEq, Repr

def createInlineCodeState : InlineCodeState := ⟨false, 0⟩

def findFenceSpanAtInclusive (spans : List FenceSpan) (index : Nat) : Option FenceSpan :=
  spans.find? fun span => span.start ≤ index && index < span.stop

theorem lt_stop_of_find {spans : List FenceSpan} {index : Nat} {span : FenceSpan}
    (found : findFenceSpanAtInclusive spans index = some span) : index < span.stop := by
  have inside := List.find?_some found
  simp only [Bool.and_eq_true, decide_eq_true_eq] at inside
  exact inside.2

/-- How many backticks there are from `index` on. -/
def runLength (text : Text) (index : Nat) : Nat := ((text.drop index).takeWhile (· == 96)).length

/-- The spans from `index` on, the code that is open having begun at `openStart`. -/
def parseInlineFrom (text : Text) (fences : List FenceSpan) (index : Nat) (state : InlineCodeState)
    (openStart : Nat) : List (Nat × Nat) × InlineCodeState :=
  if _inside : index < text.length then
    match _found : findFenceSpanAtInclusive fences index with
    | some fence => parseInlineFrom text fences fence.stop state openStart
    | none =>
      if _run : runLength text index = 0 then parseInlineFrom text fences (index + 1) state openStart
      else
        let next := index + runLength text index
        if state.opened = false then
          parseInlineFrom text fences next ⟨true, runLength text index⟩ index
        else if runLength text index = state.ticks then
          let later := parseInlineFrom text fences next ⟨false, 0⟩ 0
          ((openStart, next) :: later.1, later.2)
        else parseInlineFrom text fences next state openStart
  else (if state.opened then [(openStart, text.length)] else [], state)
termination_by text.length - index
decreasing_by
  · have further := lt_stop_of_find _found
    omega
  · omega
  · omega
  · omega
  · omega

def parseInlineCodeSpans (text : Text) (fences : List FenceSpan) (initialState : InlineCodeState) :
    List (Nat × Nat) × InlineCodeState :=
  parseInlineFrom text fences 0 initialState 0

structure CodeSpanIndex where
  inlineState : InlineCodeState
  fenceState : FenceScanState
  isInside : Nat → Bool

def buildCodeSpanIndex (text : Text) (inlineState : InlineCodeState) (fenceState : FenceScanState) : CodeSpanIndex :=
  let fences := scanFenceSpans text fenceState
  let inlines := parseInlineCodeSpans text fences.1 inlineState
  { inlineState := inlines.2
    fenceState := fences.2
    isInside := fun index =>
      (fences.1.any fun span => span.start ≤ index && index < span.stop) ||
        inlines.1.any fun span => span.1 ≤ index && index < span.2 }

/-- Chunk by chunk, the states handed on: what is marked, and the states at the end. -/
def scanChunks (inlineState : InlineCodeState) (fenceState : FenceScanState) :
    List Text → List Bool × InlineCodeState × FenceScanState
  | [] => ([], inlineState, fenceState)
  | chunk :: rest =>
    let index := buildCodeSpanIndex chunk inlineState fenceState
    let later := scanChunks index.inlineState index.fenceState rest
    ((List.range chunk.length).map index.isInside ++ later.1, later.2)

def fenceAfter (candidate : Bool) (opened : Option OpenFence) (line : Text) : Option OpenFence :=
  if candidate then fenceStep opened line else opened

/-- The units of the lines, each with whether it is fenced, and the fence that is open at the end. -/
def fencedUnits : Bool → Option OpenFence → List Text → List (Nat × Bool) × Option OpenFence
  | _, opened, [] => ([], opened)
  | candidate, opened, [line] =>
    let next := fenceAfter candidate opened line
    (line.map fun unit => (unit, opened.isSome || next.isSome), next)
  | candidate, opened, line :: second :: rest =>
    let next := fenceAfter candidate opened line
    let later := fencedUnits true next (second :: rest)
    (line.map (fun unit => (unit, opened.isSome || next.isSome)) ++ (10, next.isSome) :: later.1, later.2)

def joinLines : List Text → Text
  | [] => []
  | [line] => line
  | line :: second :: rest => line ++ 10 :: joinLines (second :: rest)

theorem fencedUnits_text (candidate : Bool) (opened : Option OpenFence) (lines : List Text) :
    (fencedUnits candidate opened lines).1.map Prod.fst = joinLines lines := by
  induction candidate, opened, lines using fencedUnits.induct with
  | case1 => rfl
  | case2 candidate opened line => simp [fencedUnits, joinLines, Function.comp_def]
  | case3 candidate opened line second rest next ih =>
    simp only [next] at ih
    simp [fencedUnits, joinLines, ih, Function.comp_def]

theorem splitLines_ne_nil (text : Text) : splitLines text ≠ [] := by
  cases text with
  | nil => simp [splitLines]
  | cons unit rest =>
    rw [splitLines]
    split
    · simp
    · split <;> simp

theorem joinLines_splitLines (text : Text) : joinLines (splitLines text) = text := by
  induction text with
  | nil => rfl
  | cons unit rest ih =>
    obtain ⟨line, lines, split⟩ := List.exists_cons_of_ne_nil (splitLines_ne_nil rest)
    rw [split] at ih
    by_cases newline : unit = 10
    · rw [splitLines, if_pos newline, split, joinLines, ih, newline]
      rfl
    · rw [splitLines, if_neg newline, split]
      cases lines with
      | nil => exact congrArg _ ih
      | cons second others => exact congrArg _ ih

/-- Only after a line break code becomes fenced. -/
def Broken : List (Nat × Bool) → Prop
  | before :: after :: rest => (before.2 = false → after.2 = true → before.1 = 10) ∧ Broken (after :: rest)
  | _ => True

theorem Broken.tail {unit : Nat × Bool} {rest : List (Nat × Bool)} (broken : Broken (unit :: rest)) :
    Broken rest := by
  cases rest with
  | nil => trivial
  | cons next rest => exact broken.2

theorem broken_line (line : Text) (fenced : Bool) : Broken (line.map fun unit => (unit, fenced)) := by
  induction line with
  | nil => trivial
  | cons unit rest ih =>
    cases rest with
    | nil => trivial
    | cons next rest =>
      refine ⟨fun plain inside => ?_, ih⟩
      rw [plain] at inside
      cases inside

theorem broken_append (line : Text) {fenced next : Bool} (kept : next = true → fenced = true)
    {later : List (Nat × Bool)} (broken : Broken later) :
    Broken (line.map (fun unit => (unit, fenced)) ++ (10, next) :: later) := by
  induction line with
  | nil =>
    cases later with
    | nil => trivial
    | cons unit rest => exact ⟨fun _ _ => rfl, broken⟩
  | cons unit rest ih =>
    cases rest with
    | nil =>
      refine ⟨fun plain inside => ?_, ih⟩
      rw [kept inside] at plain
      cases plain
    | cons second rest =>
      refine ⟨fun plain inside => ?_, ih⟩
      rw [plain] at inside
      cases inside

theorem broken_fencedUnits (candidate : Bool) (opened : Option OpenFence) (lines : List Text) :
    Broken (fencedUnits candidate opened lines).1 := by
  induction candidate, opened, lines using fencedUnits.induct with
  | case1 => trivial
  | case2 candidate opened line => exact broken_line line _
  | case3 candidate opened line second rest next ih =>
    exact broken_append line (fun fenced => Bool.or_eq_true_iff.mpr (.inr fenced)) ih

structure InlineScan where
  state : InlineCodeState
  /-- How many backticks there are right before. -/
  run : Nat
deriving DecidableEq, Repr

namespace InlineScan

/-- The state once the run of backticks is over. -/
def settle (scan : InlineScan) : InlineCodeState :=
  if scan.run = 0 then scan.state
  else if scan.state.opened = false then ⟨true, scan.run⟩
  else if scan.run = scan.state.ticks then ⟨false, 0⟩
  else scan.state

def isTick (unit : Nat × Bool) : Bool := unit.1 == 96 && !unit.2

def step (scan : InlineScan) (unit : Nat × Bool) : InlineScan :=
  if isTick unit then { scan with run := scan.run + 1 } else ⟨scan.settle, 0⟩

def marks (scan : InlineScan) : List (Nat × Bool) → List Bool
  | [] => []
  | unit :: rest => (unit.2 || isTick unit || scan.settle.opened) :: marks (scan.step unit) rest

def final (scan : InlineScan) (units : List (Nat × Bool)) : InlineCodeState :=
  (units.foldl step scan).settle

@[simp] theorem settle_zero (state : InlineCodeState) : settle ⟨state, 0⟩ = state := rfl

theorem length_marks (scan : InlineScan) (units : List (Nat × Bool)) : (scan.marks units).length = units.length := by
  induction units generalizing scan with
  | nil => rfl
  | cons unit rest ih => simp [marks, ih]

theorem marks_append (scan : InlineScan) (units later : List (Nat × Bool)) :
    scan.marks (units ++ later) = scan.marks units ++ (units.foldl step scan).marks later := by
  induction units generalizing scan with
  | nil => rfl
  | cons unit rest ih => simp [marks, ih]

theorem final_append (scan : InlineScan) (units later : List (Nat × Bool)) :
    scan.final (units ++ later) = (units.foldl step scan).final later := by
  rw [final, List.foldl_append, final]

/-- A run that ends here may as well be settled. -/
theorem marks_settle (scan : InlineScan) {units : List (Nat × Bool)}
    (ends : ∀ unit ∈ units.head?, isTick unit = false) :
    scan.marks units = InlineScan.marks ⟨scan.settle, 0⟩ units ∧
      scan.final units = InlineScan.final ⟨scan.settle, 0⟩ units := by
  cases units with
  | nil => exact ⟨rfl, rfl⟩
  | cons unit rest =>
    have plain := ends unit rfl
    simp [marks, final, step, plain]

/-- Backticks in a row. -/
theorem foldl_ticks (scan : InlineScan) (count : Nat) :
    (List.replicate count (96, false)).foldl step scan = { scan with run := scan.run + count } := by
  induction count generalizing scan with
  | zero => rfl
  | succ count ih =>
    rw [List.replicate_succ, List.foldl_cons, ih]
    simp [step, isTick]
    omega

theorem marks_ticks (scan : InlineScan) (count : Nat) :
    scan.marks (List.replicate count (96, false)) = List.replicate count true := by
  induction count generalizing scan with
  | zero => rfl
  | succ count ih =>
    rw [List.replicate_succ, marks, ih, List.replicate_succ]
    simp [isTick]

theorem foldl_fenced (state : InlineCodeState) {units : List (Nat × Bool)}
    (fenced : ∀ unit ∈ units, unit.2 = true) : units.foldl step ⟨state, 0⟩ = ⟨state, 0⟩ := by
  induction units with
  | nil => rfl
  | cons unit rest ih =>
    have first := fenced unit List.mem_cons_self
    rw [List.foldl_cons, step, isTick, first]
    simpa using ih fun other inRest => fenced other (List.mem_cons_of_mem _ inRest)

theorem marks_fenced (scan : InlineScan) {units : List (Nat × Bool)}
    (fenced : ∀ unit ∈ units, unit.2 = true) : scan.marks units = List.replicate units.length true := by
  induction units generalizing scan with
  | nil => rfl
  | cons unit rest ih =>
    have first := fenced unit List.mem_cons_self
    rw [marks, ih _ fun other inRest => fenced other (List.mem_cons_of_mem _ inRest), first]
    rfl

end InlineScan

def covers (spans : List FenceSpan) (index : Nat) : Bool :=
  spans.any fun span => span.start ≤ index && index < span.stop

theorem covers_append (spans others : List FenceSpan) (index : Nat) :
    covers (spans ++ others) index = (covers spans index || covers others index) :=
  List.any_append

theorem covers_single {span : FenceSpan} {index : Nat} :
    covers [span] index = true ↔ span.start ≤ index ∧ index < span.stop := by
  simp [covers]

def FencedAt (units : List (Nat × Bool)) (index : Nat) : Prop := ∃ unit, units[index]? = some (unit, true)

theorem fencedAt_line {line : Text} {fenced : Bool} {index : Nat} :
    FencedAt (line.map fun unit => (unit, fenced)) index ↔ index < line.length ∧ fenced = true := by
  unfold FencedAt
  rw [List.getElem?_map]
  by_cases inside : index < line.length
  · simp [inside]
  · simp [inside]

theorem fencedAt_append {line : Text} {fenced next : Bool} {later : List (Nat × Bool)} {index : Nat} :
    FencedAt (line.map (fun unit => (unit, fenced)) ++ (10, next) :: later) index ↔
      (index < line.length ∧ fenced = true) ∨ (index = line.length ∧ next = true) ∨
        (line.length < index ∧ FencedAt later (index - line.length - 1)) := by
  obtain less | same | more := Nat.lt_trichotomy index line.length
  · have inLine := @fencedAt_line line fenced index
    unfold FencedAt at inLine ⊢
    rw [List.getElem?_append_left (by simpa using less), inLine]
    constructor
    · exact .inl
    · rintro (here | here | here)
      · exact here
      · omega
      · omega
  · unfold FencedAt
    rw [List.getElem?_append_right (by simp [same])]
    simp [same]
  · unfold FencedAt
    rw [List.getElem?_append_right (by rw [List.length_map]; omega), List.length_map]
    have place : index - line.length = index - line.length - 1 + 1 := by omega
    rw [place, List.getElem?_cons_succ]
    constructor
    · intro here
      exact .inr (.inr ⟨more, by rwa [Nat.add_sub_cancel]⟩)
    · rintro (here | here | here)
      · omega
      · omega
      · rw [Nat.add_sub_cancel] at here
        exact here.2

theorem fenceAfter_cases (candidate : Bool) (fence : OpenFence) (line : Text) :
    fenceAfter candidate (some fence) line = some fence ∨ fenceAfter candidate (some fence) line = none := by
  unfold fenceAfter fenceStep
  split
  · split
    · exact .inl rfl
    · dsimp only
      split
      · exact .inr rfl
      · exact .inl rfl
  · exact .inl rfl

theorem scanFenceLines_cons (bufferLength offset : Nat) (candidate : Bool)
    (opened : Option (Nat × OpenFence)) (line : Text) (rest : List Text) :
    ∃ ended : List FenceSpan, ∃ started : Option (Nat × OpenFence),
      scanFenceLines bufferLength offset candidate opened (line :: rest) =
        (ended ++ (scanFenceLines bufferLength (offset + line.length + 1) true started rest).1,
          (scanFenceLines bufferLength (offset + line.length + 1) true started rest).2) ∧
      started.map Prod.snd = fenceAfter candidate (opened.map Prod.snd) line ∧
      (∀ entry ∈ started, entry.1 = (opened.map Prod.fst).getD offset) ∧
      (∀ index, covers ended index = true ↔ started = none ∧
        ∃ entry ∈ opened, entry.1 ≤ index ∧ index < offset + line.length) := by
  cases opened with
  | none =>
    refine ⟨[], (fenceAfter candidate none line).map fun fence => (offset, fence), ?_, ?_, ?_, ?_⟩
    · rfl
    · simp [Function.comp_def]
    · intro entry isStarted
      obtain ⟨fence, -, rfl⟩ := Option.map_eq_some_iff.mp isStarted
      rfl
    · intro index
      simp [covers]
  | some entry =>
    obtain ⟨start, fence⟩ := entry
    obtain kept | closed := fenceAfter_cases candidate fence line
    · refine ⟨[], some (start, fence), ?_, kept.symm, ?_, ?_⟩
      · rw [scanFenceLines, if_pos]
        · rfl
        · change (fenceAfter candidate (some fence) line).isSome = true
          rw [kept]
          rfl
      · intro entry isStarted
        cases isStarted
        rfl
      · intro index
        simp [covers]
    · refine ⟨[FenceSpan.ofOpen fence start (offset + line.length)], none, ?_, closed.symm, ?_, ?_⟩
      · rw [scanFenceLines, if_neg]
        · rfl
        · change ¬ (fenceAfter candidate (some fence) line).isSome = true
          rw [closed]
          exact Bool.false_ne_true
      · intro entry isStarted
        cases isStarted
      · intro index
        rw [covers_single]
        simp [FenceSpan.ofOpen]

theorem scanFenceLines_spec {lines : List Text} (nonempty : lines ≠ []) {bufferLength offset : Nat}
    {candidate : Bool} {opened : Option (Nat × OpenFence)}
    (total : offset + (joinLines lines).length = bufferLength)
    (before : ∀ entry ∈ opened, entry.1 ≤ offset) :
    (scanFenceLines bufferLength offset candidate opened lines).2 =
        (fencedUnits candidate (opened.map Prod.snd) lines).2 ∧
      ∀ index, covers (scanFenceLines bufferLength offset candidate opened lines).1 index = true ↔
        (index < offset ∧ ∃ entry ∈ opened, entry.1 ≤ index) ∨ (offset ≤ index ∧
            FencedAt (fencedUnits candidate (opened.map Prod.snd) lines).1 (index - offset)) := by
  induction lines generalizing offset candidate opened with
  | nil => exact absurd rfl nonempty
  | cons line rest ih =>
    obtain ⟨ended, started, scanned, after, since, covered⟩ :=
      scanFenceLines_cons bufferLength offset candidate opened line rest
    have kept : (fenceAfter candidate (opened.map Prod.snd) line).isSome = started.isSome := by
      rw [← after, Option.isSome_map]
    have inOpened : (opened.map Prod.snd).isSome = opened.isSome := Option.isSome_map
    rw [scanned]
    cases rest with
    | nil =>
      simp only [joinLines] at total
      rw [fencedUnits]
      constructor
      · rw [← after]
        cases started <;> rfl
      · intro index
        rw [covers_append, Bool.or_eq_true, covered, fencedAt_line, kept, inOpened]
        cases opened with
        | none =>
          cases started with
          | none => simp [scanFenceLines, covers]
          | some entry =>
            have first := since entry rfl
            simp only [Option.map_none, Option.getD_none] at first
            simp [scanFenceLines, covers_single, FenceSpan.ofOpen, first]
            omega
        | some fence =>
          have early := before fence rfl
          cases started with
          | none =>
            simp [scanFenceLines, covers]
            omega
          | some entry =>
            have first := since entry rfl
            simp only [Option.map_some, Option.getD_some] at first
            simp [scanFenceLines, covers_single, FenceSpan.ofOpen, first]
            omega
    | cons second others =>
      simp only [joinLines, List.length_append, List.length_cons] at total
      obtain ⟨states, later⟩ := @ih (List.cons_ne_nil _ _) (offset + line.length + 1) true started
        (by omega) (fun entry isStarted => by
          have first := since entry isStarted
          cases opened with
          | none => simp only [Option.map_none, Option.getD_none] at first; omega
          | some fence =>
            have early := before fence rfl
            simp only [Option.map_some, Option.getD_some] at first
            omega)
      rw [fencedUnits]
      dsimp only
      rw [← after]
      refine ⟨states, fun index => ?_⟩
      have place : index - offset - line.length - 1 = index - (offset + line.length + 1) := by omega
      rw [covers_append, Bool.or_eq_true, covered, later, fencedAt_append, place, inOpened, Option.isSome_map]
      generalize FencedAt (fencedUnits true (started.map Prod.snd) (second :: others)).1
        (index - (offset + line.length + 1)) = fenced
      clear ih later scanned covered states after kept total place inOpened nonempty
      by_cases inside : fenced <;> cases opened <;> cases started <;>
        simp [inside] at before since ⊢ <;> omega

def unitsOf (text : Text) (state : FenceScanState) : List (Nat × Bool) :=
  (fencedUnits state.atLineStart state.opened (splitLines text)).1

theorem unitsOf_text (text : Text) (state : FenceScanState) : (unitsOf text state).map Prod.fst = text := by
  rw [unitsOf, fencedUnits_text, joinLines_splitLines]

theorem length_unitsOf (text : Text) (state : FenceScanState) : (unitsOf text state).length = text.length := by
  have same := congrArg List.length (unitsOf_text text state)
  rwa [List.length_map] at same

def FenceScanState.after (state : FenceScanState) (text : Text) : FenceScanState where
  atLineStart := if text = [] then state.atLineStart else text.getLast? == some 10
  opened := (fencedUnits state.atLineStart state.opened (splitLines text)).2

theorem scanFenceSpans_spec (text : Text) (state : FenceScanState) :
    (scanFenceSpans text state).2 = state.after text ∧
      ∀ index, covers (scanFenceSpans text state).1 index = true ↔ FencedAt (unitsOf text state) index := by
  have total : 0 + (joinLines (splitLines text)).length = text.length := by
    rw [joinLines_splitLines, Nat.zero_add]
  have opened : (state.opened.map fun fence => (0, fence)).map Prod.snd = state.opened := by
    simp [Function.comp_def]
  obtain ⟨states, covered⟩ := @scanFenceLines_spec _ (splitLines_ne_nil text) text.length 0
    state.atLineStart (state.opened.map fun fence => (0, fence)) total (by
      intro entry isOpen
      obtain ⟨fence, -, rfl⟩ := Option.map_eq_some_iff.mp isOpen
      exact Nat.le_refl 0)
  rw [opened] at states covered
  constructor
  · rw [scanFenceSpans, FenceScanState.after, ← states]
  · intro index
    rw [scanFenceSpans, unitsOf]
    dsimp only
    rw [covered]
    simp

def inlineCovers (spans : List (Nat × Nat)) (index : Nat) : Bool :=
  spans.any fun span => span.1 ≤ index && index < span.2

section Inline

variable {text : Text} {fences : List FenceSpan} {units : List (Nat × Bool)}
  (sameText : units.map Prod.fst = text)
  (covered : ∀ index, covers fences index = true ↔ FencedAt units index) (broken : Broken units)

theorem Broken.drop {units : List (Nat × Bool)} (broken : Broken units) (count : Nat) :
    Broken (units.drop count) := by
  induction count generalizing units with
  | zero => exact broken
  | succ count ih =>
    cases units with
    | nil => exact broken
    | cons unit rest => exact ih broken.tail

theorem Broken.run {units : List (Nat × Bool)} (broken : Broken units)
    (first : ∀ unit ∈ units.head?, unit.1 = 96 → unit.2 = false) :
    units = List.replicate ((units.map Prod.fst).takeWhile (· == 96)).length (96, false) ++
        units.drop ((units.map Prod.fst).takeWhile (· == 96)).length ∧
      ∀ unit ∈ (units.drop ((units.map Prod.fst).takeWhile (· == 96)).length).head?,
        InlineScan.isTick unit = false := by
  induction units with
  | nil => exact ⟨rfl, fun unit isFirst => by cases isFirst⟩
  | cons unit rest ih =>
    by_cases tick : unit.1 = 96
    · have plain := first unit rfl tick
      have later := ih broken.tail (by
        intro next isNext isTick
        cases rest with
        | nil => cases isNext
        | cons second others =>
          cases isNext
          cases inside : next.2 with
          | false => rfl
          | true =>
            have newline := broken.1 plain inside
            rw [tick] at newline
            cases newline)
      have same : unit = (96, false) := Prod.ext tick plain
      simp only [List.map_cons, tick, beq_self_eq_true, List.takeWhile_cons_of_pos, List.length_cons,
        List.replicate_succ, List.drop_succ_cons, List.cons_append]
      exact ⟨by rw [← later.1, same], later.2⟩
    · have none : ((unit :: rest).map Prod.fst).takeWhile (· == 96) = [] := by simp [tick]
      rw [none]
      refine ⟨rfl, fun other isFirst => ?_⟩
      cases isFirst
      simp [InlineScan.isTick, tick]

/-- What the loop gives from `index` on, `pending` being the units it has still to read. -/
structure Scanned (text : Text) (fences : List FenceSpan) (index : Nat) (state : InlineCodeState)
    (openStart : Nat) (pending : List (Nat × Bool)) (result : List (Nat × Nat) × InlineCodeState) : Prop where
  final : result.2 = InlineScan.final ⟨state, 0⟩ pending
  before : ∀ place, place < text.length → place < index →
    (inlineCovers result.1 place = true ↔ state.opened = true ∧ openStart ≤ place)
  after : ∀ place, place < text.length → index ≤ place → (covers fences place || inlineCovers result.1 place) =
      (InlineScan.marks ⟨state, 0⟩ pending).getD (place - index) false

theorem getD_replicate_append {count place : Nat} (later : List Bool) :
    (List.replicate count true ++ later).getD place false =
      if place < count then true else later.getD (place - count) false := by
  rw [List.getD_eq_getElem?_getD, List.getD_eq_getElem?_getD]
  split
  · rename_i inside
    rw [List.getElem?_append_left (by simpa using inside)]
    simp [inside]
  · rename_i outside
    rw [List.getElem?_append_right (by simpa using outside), List.length_replicate]

theorem Scanned.skip {index stop : Nat} {state : InlineCodeState} {openStart : Nat}
    {result : List (Nat × Nat) × InlineCodeState} (further : index ≤ stop) (atMost : stop ≤ units.length)
    (fenced : ∀ place, index ≤ place → place < stop → FencedAt units place)
    (covered : ∀ index, covers fences index = true ↔ FencedAt units index)
    (later : Scanned text fences stop state openStart (units.drop stop) result) :
    Scanned text fences index state openStart (units.drop index) result := by
  have parts : units.drop index = (units.drop index).take (stop - index) ++ units.drop stop := by
    have joined := (List.take_append_drop (stop - index) (units.drop index)).symm
    rwa [List.drop_drop, Nat.add_sub_cancel' further] at joined
  have inFence : ∀ unit ∈ (units.drop index).take (stop - index), unit.2 = true := by
    intro unit isIn
    obtain ⟨place, inside, rfl⟩ := List.getElem_of_mem isIn
    rw [List.length_take, List.length_drop] at inside
    obtain ⟨code, found⟩ := fenced (index + place) (Nat.le_add_right _ _) (by omega)
    rw [List.getElem_take, List.getElem_drop]
    rw [List.getElem?_eq_getElem (by omega)] at found
    rw [Option.some.inj found]
  have size : ((units.drop index).take (stop - index)).length = stop - index := by
    rw [List.length_take, List.length_drop]
    omega
  constructor
  · rw [parts, InlineScan.final_append, InlineScan.foldl_fenced state inFence]
    exact later.final
  · intro place inText early
    exact later.before place inText (by omega)
  · intro place inText late
    rw [parts, InlineScan.marks_append, InlineScan.foldl_fenced state inFence,
      InlineScan.marks_fenced _ inFence, size, getD_replicate_append]
    by_cases inside : place < stop
    · rw [if_pos (by omega), (covered place).mpr (fenced place late inside), Bool.true_or]
    · rw [if_neg (by omega), later.after place inText (by omega)]
      congr 1
      omega

theorem not_covers_of_none {index : Nat} (outside : findFenceSpanAtInclusive fences index = none) :
    covers fences index = false := by
  rw [findFenceSpanAtInclusive, List.find?_eq_none] at outside
  rw [covers, List.any_eq_false]
  exact outside

theorem drop_of_outside {index : Nat} (inText : index < units.length) (sameText : units.map Prod.fst = text)
    (covered : ∀ index, covers fences index = true ↔ FencedAt units index)
    (outside : findFenceSpanAtInclusive fences index = none) :
    ∃ unit, text.drop index = unit :: text.drop (index + 1) ∧
      units.drop index = (unit, false) :: units.drop (index + 1) := by
  have plain : units[index].2 = false := by
    cases inFence : units[index].2 with
    | false => rfl
    | true =>
      have fenced : FencedAt units index :=
        ⟨units[index].1, by rw [List.getElem?_eq_getElem inText, ← inFence]⟩
      rw [← covered, not_covers_of_none outside] at fenced
      cases fenced
  refine ⟨units[index].1, ?_, ?_⟩
  · rw [← sameText, ← List.map_drop, ← List.map_drop, List.drop_eq_getElem_cons inText, List.map_cons]
  · rw [List.drop_eq_getElem_cons inText, ← plain]

theorem Scanned.plain {index unit : Nat} {state : InlineCodeState} {openStart : Nat}
    {result : List (Nat × Nat) × InlineCodeState} {pending : List (Nat × Bool)} (other : unit ≠ 96)
    (outside : covers fences index = false) (since : state.opened = true → openStart ≤ index)
    (later : Scanned text fences (index + 1) state openStart pending result) :
    Scanned text fences index state openStart ((unit, false) :: pending) result := by
  have noTick : InlineScan.isTick (unit, false) = false := by simp [InlineScan.isTick, other]
  constructor
  · rw [later.final, InlineScan.final, InlineScan.final, List.foldl_cons, InlineScan.step, noTick]
    rfl
  · intro place inText early
    exact later.before place inText (by omega)
  · intro place inText late
    rw [InlineScan.marks, InlineScan.step, noTick]
    obtain rfl | more := Nat.eq_or_lt_of_le late
    · rw [outside, Nat.sub_self]
      have here := later.before index inText (Nat.lt_succ_self index)
      cases opened : state.opened with
      | false => simpa [opened] using here
      | true => simpa [opened, since opened] using here
    · have place_eq : place - index = place - (index + 1) + 1 := by omega
      rw [later.after place inText more, place_eq]
      rfl

theorem Scanned.run {index count : Nat} {state next : InlineCodeState} {openStart nextStart : Nat}
    {later result : List (Nat × Nat) × InlineCodeState} {pending : List (Nat × Bool)}
    (ends : ∀ unit ∈ pending.head?, InlineScan.isTick unit = false)
    (settled : InlineScan.settle ⟨state, count⟩ = next)
    (rest : Scanned text fences (index + count) next nextStart pending later)
    (sameFinal : result.2 = later.2)
    (before : ∀ place, place < text.length → place < index →
      (inlineCovers result.1 place = true ↔ state.opened = true ∧ openStart ≤ place))
    (here : ∀ place, place < text.length → index ≤ place → place < index + count → inlineCovers result.1 place = true)
    (after : ∀ place, index + count ≤ place → inlineCovers result.1 place = inlineCovers later.1 place) :
    Scanned text fences index state openStart (List.replicate count (96, false) ++ pending) result := by
  have passed := InlineScan.marks_settle ⟨state, count⟩ ends
  rw [settled] at passed
  constructor
  · rw [InlineScan.final_append, InlineScan.foldl_ticks, Nat.zero_add, passed.2, sameFinal]
    exact rest.final
  · exact before
  · intro place inText late
    rw [InlineScan.marks_append, InlineScan.foldl_ticks, InlineScan.marks_ticks, Nat.zero_add, passed.1,
      getD_replicate_append]
    by_cases inside : place < index + count
    · rw [if_pos (by omega), here place inText late inside, Bool.or_true]
    · rw [if_neg (by omega), after place (by omega), rest.after place inText (by omega)]
      congr 1
      omega

theorem inlineCovers_cons {span : Nat × Nat} {spans : List (Nat × Nat)} {place : Nat} :
    inlineCovers (span :: spans) place = true ↔
      (span.1 ≤ place ∧ place < span.2) ∨ inlineCovers spans place = true := by
  simp [inlineCovers]

theorem run_of_outside {index : Nat} (inText : index < units.length) (sameText : units.map Prod.fst = text)
    (covered : ∀ index, covers fences index = true ↔ FencedAt units index) (broken : Broken units)
    (outside : findFenceSpanAtInclusive fences index = none) :
    units.drop index =
        List.replicate (runLength text index) (96, false) ++ units.drop (index + runLength text index) ∧
      ∀ unit ∈ (units.drop (index + runLength text index)).head?, InlineScan.isTick unit = false := by
  obtain ⟨unit, -, first⟩ := drop_of_outside inText sameText covered outside
  have run := (broken.drop index).run (by
    intro other isFirst _
    rw [first] at isFirst
    cases isFirst
    rfl)
  have same : ((units.drop index).map Prod.fst).takeWhile (· == 96) = (text.drop index).takeWhile (· == 96) := by
    rw [← sameText, List.map_drop]
  rwa [same, List.drop_drop] at run

theorem parseInlineFrom_spec (sameText : units.map Prod.fst = text)
    (covered : ∀ index, covers fences index = true ↔ FencedAt units index) (broken : Broken units)
    (index : Nat) (state : InlineCodeState) (openStart : Nat)
    (since : state.opened = true → openStart ≤ index) :
    Scanned text fences index state openStart (units.drop index)
      (parseInlineFrom text fences index state openStart) := by
  have size : units.length = text.length := by rw [← sameText, List.length_map]
  induction index, state, openStart using parseInlineFrom.induct text fences with
  | case1 index state openStart inside fence found ih =>
    have hit := List.find?_some found
    simp only [Bool.and_eq_true, decide_eq_true_eq] at hit
    have inFence : ∀ place, index ≤ place → place < fence.stop → FencedAt units place := by
      intro place late early
      rw [← covered, covers, List.any_eq_true]
      exact ⟨fence, List.mem_of_find?_eq_some found, by simp; omega⟩
    have atMost : fence.stop ≤ units.length := by
      obtain ⟨code, last⟩ := inFence (fence.stop - 1) (by omega) (by omega)
      have bound := (List.getElem?_eq_some_iff.mp last).1
      omega
    rw [parseInlineFrom, dif_pos inside]
    split
    · rename_i other isFound
      rw [found] at isFound
      cases isFound
      exact Scanned.skip (by omega) atMost inFence covered (ih fun opened => by
        have first := since opened
        omega)
    · rename_i isNone
      rw [found] at isNone
      cases isNone
  | case2 index state openStart inside found noRun ih =>
    obtain ⟨unit, inText, here⟩ := drop_of_outside (by omega) sameText covered found
    have other : unit ≠ 96 := by
      rintro rfl
      rw [runLength, inText] at noRun
      simp at noRun
    rw [parseInlineFrom, dif_pos inside]
    split
    · rename_i isFound
      rw [found] at isFound
      cases isFound
    · rw [dif_pos noRun, here]
      exact Scanned.plain other (not_covers_of_none found) since (ih fun opened => by
        have first := since opened
        omega)
  | case3 index state openStart inside found isRun next closed ih =>
    obtain ⟨run, ends⟩ := run_of_outside (by omega) sameText covered broken found
    have later := ih fun _ => by omega
    rw [parseInlineFrom, dif_pos inside]
    split
    · rename_i isFound
      rw [found] at isFound
      cases isFound
    · rw [dif_neg isRun, if_pos closed, run]
      refine Scanned.run ends ?_ later rfl ?_ ?_ fun _ _ => rfl
      · rw [InlineScan.settle, if_neg isRun, if_pos closed]
      · intro place inText early
        rw [later.before place inText (by omega), closed]
        simp
        omega
      · intro place inText late early
        rw [later.before place inText early]
        exact ⟨rfl, late⟩
  | case4 index state openStart inside found isRun next opened closes ih =>
    obtain ⟨run, ends⟩ := run_of_outside (by omega) sameText covered broken found
    have later := ih fun isOpen => by cases isOpen
    have first := since (by simpa using opened)
    rw [parseInlineFrom, dif_pos inside]
    split
    · rename_i isFound
      rw [found] at isFound
      cases isFound
    · rw [dif_neg isRun, if_neg opened, if_pos closes, run]
      have nothing : ∀ place, place < text.length → place < next →
          inlineCovers (parseInlineFrom text fences next ⟨false, 0⟩ 0).1 place = false := by
        intro place inText early
        have before := later.before place inText early
        simpa using before
      refine Scanned.run ends ?_ later rfl ?_ ?_ ?_
      · rw [InlineScan.settle, if_neg isRun, if_neg opened, if_pos closes]
      · intro place inText early
        rw [inlineCovers_cons, nothing place inText (by omega)]
        simp at opened
        simp [opened]
        omega
      · intro place inText late early
        rw [inlineCovers_cons]
        exact .inl ⟨by dsimp only; omega, early⟩
      · intro place late
        rw [Bool.eq_iff_iff, inlineCovers_cons]
        dsimp only
        constructor
        · rintro (covering | covering)
          · omega
          · exact covering
        · exact .inr
  | case5 index state openStart inside found isRun next opened differs ih =>
    obtain ⟨run, ends⟩ := run_of_outside (by omega) sameText covered broken found
    have first := since (by simpa using opened)
    have later := ih fun _ => by omega
    rw [parseInlineFrom, dif_pos inside]
    split
    · rename_i isFound
      rw [found] at isFound
      cases isFound
    · rw [dif_neg isRun, if_neg opened, if_neg differs, run]
      refine Scanned.run ends ?_ later rfl ?_ ?_ fun _ _ => rfl
      · rw [InlineScan.settle, if_neg isRun, if_neg opened, if_neg differs]
      · intro place inText early
        exact later.before place inText (by omega)
      · intro place inText late early
        rw [later.before place inText early]
        exact ⟨by simpa using opened, by omega⟩
  | case6 index state openStart ended =>
    rw [parseInlineFrom, dif_neg ended, List.drop_eq_nil_of_le (by omega)]
    constructor
    · rfl
    · intro place inText early
      cases opened : state.opened with
      | false => simp [inlineCovers]
      | true => simp [inlineCovers, inText]
    · intro place inText late
      omega

end Inline

theorem buildCodeSpanIndex_spec (text : Text) (inlineState : InlineCodeState) (fenceState : FenceScanState) :
    (buildCodeSpanIndex text inlineState fenceState).inlineState =
        InlineScan.final ⟨inlineState, 0⟩ (unitsOf text fenceState) ∧
      (buildCodeSpanIndex text inlineState fenceState).fenceState = fenceState.after text ∧
      (List.range text.length).map (buildCodeSpanIndex text inlineState fenceState).isInside =
        InlineScan.marks ⟨inlineState, 0⟩ (unitsOf text fenceState) := by
  obtain ⟨state, covered⟩ := scanFenceSpans_spec text fenceState
  have scanned := parseInlineFrom_spec (unitsOf_text text fenceState) covered
    (broken_fencedUnits fenceState.atLineStart fenceState.opened (splitLines text)) 0 inlineState 0
    fun _ => Nat.le_refl 0
  refine ⟨scanned.final, state, ?_⟩
  apply List.ext_getElem
  · rw [List.length_map, List.length_range, InlineScan.length_marks, length_unitsOf]
  · intro index inRange inMarks
    have inText : index < text.length := by simpa using inRange
    have after := scanned.after index inText (Nat.zero_le index)
    rw [List.drop_zero, Nat.sub_zero, List.getD_eq_getElem?_getD, List.getElem?_eq_getElem inMarks] at after
    rw [List.getElem_map, List.getElem_range]
    exact after

theorem scanChunks_cons (inlineState : InlineCodeState) (fenceState : FenceScanState) (chunk : Text)
    (rest : List Text) :
    scanChunks inlineState fenceState (chunk :: rest) =
      let later := scanChunks (InlineScan.final ⟨inlineState, 0⟩ (unitsOf chunk fenceState))
        (fenceState.after chunk) rest
      (InlineScan.marks ⟨inlineState, 0⟩ (unitsOf chunk fenceState) ++ later.1, later.2) := by
  obtain ⟨inline, fence, marks⟩ := buildCodeSpanIndex_spec chunk inlineState fenceState
  rw [scanChunks]
  dsimp only
  rw [inline, fence, marks]

def joinAt : List Text → List Text → List Text
  | [], later => later
  | [line], [] => [line]
  | [line], first :: rest => (line ++ first) :: rest
  | line :: second :: rest, later => line :: joinAt (second :: rest) later

theorem splitLines_append (before after : Text) :
    splitLines (before ++ after) = joinAt (splitLines before) (splitLines after) := by
  obtain ⟨first, others, afterLines⟩ := List.exists_cons_of_ne_nil (splitLines_ne_nil after)
  induction before with
  | nil =>
    rw [List.nil_append, afterLines]
    rfl
  | cons unit rest ih =>
    obtain ⟨line, lines, restLines⟩ := List.exists_cons_of_ne_nil (splitLines_ne_nil rest)
    rw [List.cons_append, splitLines, splitLines, ih, restLines, afterLines]
    by_cases newline : unit = 10
    · rw [if_pos newline, if_pos newline, joinAt]
    · rw [if_neg newline, if_neg newline]
      cases lines <;> rfl

/-- The last line, with whether it may begin or end a fence and the fence that is open before it. -/
def lastLine : Bool → Option OpenFence → List Text → Bool × Option OpenFence × Text
  | candidate, opened, [] => (candidate, opened, [])
  | candidate, opened, [line] => (candidate, opened, line)
  | candidate, opened, line :: second :: rest =>
    lastLine true (fenceAfter candidate opened line) (second :: rest)

theorem fenceAfter_nil (candidate : Bool) (opened : Option OpenFence) : fenceAfter candidate opened [] = opened := by
  cases candidate <;> rfl

theorem fenceAfter_false (opened : Option OpenFence) (line : Text) : fenceAfter false opened line = opened :=
  rfl

/-- A last line goes on as it was judged: it is empty, or what follows it changes nothing about the fences
and does not become part of a closing line. -/
def LineKept (last : Bool × Option OpenFence × Text) (first : Text) : Prop :=
  last.2.2 = [] ∨ (fenceAfter last.1 last.2.1 (last.2.2 ++ first) = fenceAfter last.1 last.2.1 last.2.2 ∧
      (first = [] ∨ last.2.1 = none ∨ fenceAfter last.1 last.2.1 last.2.2 ≠ none))

/-- Whether what follows a last line may begin or end a fence. -/
def candidateAfter (last : Bool × Option OpenFence × Text) : Bool := if last.2.2 = [] then last.1 else false

theorem map_goesOn {opened next : Option OpenFence} {first : Text}
    (closed : first = [] ∨ opened = none ∨ next ≠ none) :
    first.map (fun unit => (unit, opened.isSome || next.isSome)) =
      first.map fun unit => (unit, next.isSome || next.isSome) := by
  obtain rfl | rfl | isOpen := closed
  · rfl
  · cases next <;> rfl
  · cases next with
    | none => exact absurd rfl isOpen
    | some fence => simp

theorem fencedUnits_joinAt {candidate : Bool} {opened : Option OpenFence} {lines : List Text}
    (nonempty : lines ≠ []) {first : Text} {rest : List Text}
    (kept : LineKept (lastLine candidate opened lines) first) :
    let later := fencedUnits (candidateAfter (lastLine candidate opened lines))
      (fencedUnits candidate opened lines).2 (first :: rest)
    fencedUnits candidate opened (joinAt lines (first :: rest)) =
      ((fencedUnits candidate opened lines).1 ++ later.1, later.2) := by
  induction candidate, opened, lines using fencedUnits.induct with
  | case1 => exact absurd rfl nonempty
  | case2 candidate opened line =>
    by_cases empty : line = []
    · subst empty
      simp [joinAt, lastLine, candidateAfter, fencedUnits, fenceAfter_nil]
    · obtain isEmpty | ⟨same, closed⟩ := kept
      · exact absurd isEmpty empty
      · simp only [lastLine] at same closed
        have goesOn := map_goesOn closed
        have plain : candidateAfter (lastLine candidate opened [line]) = false := if_neg empty
        rw [plain, joinAt]
        cases rest with
        | nil =>
          rw [fencedUnits, fencedUnits, fencedUnits, fenceAfter_false]
          dsimp only
          rw [same, List.map_append, goesOn]
        | cons second others =>
          rw [fencedUnits, fencedUnits, fencedUnits, fenceAfter_false]
          dsimp only
          rw [same, List.map_append, goesOn, List.append_assoc]
  | case3 candidate opened line second others next ih =>
    have later := ih (List.cons_ne_nil _ _) kept
    have others_ne : joinAt (second :: others) (first :: rest) ≠ [] := by
      cases others <;> simp [joinAt]
    obtain ⟨head, tail, joined⟩ := List.exists_cons_of_ne_nil others_ne
    rw [joined] at later
    simp only [next] at later
    rw [joinAt, joined, fencedUnits, fencedUnits, lastLine]
    dsimp only
    rw [later, List.append_assoc]
    rfl

instance (last : Bool × Option OpenFence × Text) (first : Text) : Decidable (LineKept last first) :=
  inferInstanceAs (Decidable (_ ∨ _))

/-- A run of backticks ends at a cut, or is fenced. -/
def RunKept (opened : Option OpenFence) (before after : Text) : Prop :=
  opened ≠ none ∨ ¬ (before.getLast? = some 96 ∧ after.head? = some 96)

instance (opened : Option OpenFence) (before after : Text) : Decidable (RunKept opened before after) :=
  inferInstanceAs (Decidable (_ ∨ _))

/-- Neither a line that may begin or end a fence nor a run of backticks is judged otherwise for the cut. -/
structure CutKept (state : FenceScanState) (before after : Text) : Prop where
  line : LineKept (lastLine state.atLineStart state.opened (splitLines before)) ((splitLines after).headD [])
  run : RunKept (state.after before).opened before after

theorem candidateAfter_opened (candidate : Bool) (opened other : Option OpenFence) (lines : List Text) :
    candidateAfter (lastLine candidate opened lines) = candidateAfter (lastLine candidate other lines) := by
  induction lines generalizing candidate opened other with
  | nil => rfl
  | cons line rest ih =>
    cases rest with
    | nil => rfl
    | cons second others => exact ih true _ _

theorem atLineStart_after (state : FenceScanState) (text : Text) : (state.after text).atLineStart =
      candidateAfter (lastLine state.atLineStart state.opened (splitLines text)) := by
  obtain ⟨candidate, opened⟩ := state
  rw [FenceScanState.after]
  dsimp only
  induction text generalizing candidate opened with
  | nil => rfl
  | cons unit rest ih =>
    obtain ⟨line, lines, restLines⟩ := List.exists_cons_of_ne_nil (splitLines_ne_nil rest)
    rw [splitLines, if_neg (List.cons_ne_nil _ _)]
    by_cases newline : unit = 10
    · have later := ih true (fenceAfter candidate opened [])
      rw [if_pos newline]
      rw [restLines] at later ⊢
      rw [lastLine, ← later]
      cases rest with
      | nil => simp [newline]
      | cons next others => simp
    · rw [if_neg newline, restLines]
      cases lines with
      | nil =>
        have later := ih false opened
        rw [restLines] at later
        have plain : candidateAfter (lastLine false opened [line]) = false := ite_self _
        rw [plain] at later
        have ended : candidateAfter (lastLine candidate opened [unit :: line]) = false :=
          if_neg (List.cons_ne_nil _ _)
        rw [ended]
        cases rest with
        | nil => simp [newline]
        | cons next others => simpa using later
      | cons second others =>
        have later := ih candidate opened
        rw [restLines, lastLine, candidateAfter_opened _ _ (fenceAfter candidate opened (unit :: line))]
          at later
        dsimp only
        rw [lastLine, ← later]
        cases rest with
        | nil => cases restLines
        | cons next others => simp

theorem unitsOf_append {state : FenceScanState} {before after : Text} (kept : CutKept state before after) :
    unitsOf (before ++ after) state = unitsOf before state ++ unitsOf after (state.after before) ∧
      state.after (before ++ after) = (state.after before).after after := by
  obtain ⟨first, rest, afterLines⟩ := List.exists_cons_of_ne_nil (splitLines_ne_nil after)
  have line := kept.line
  rw [afterLines, List.headD_cons] at line
  have joined := @fencedUnits_joinAt _ _ _ (splitLines_ne_nil before) first rest line
  rw [← afterLines, ← splitLines_append, ← atLineStart_after] at joined
  constructor
  · rw [unitsOf, joined]
    rfl
  · rw [FenceScanState.after, FenceScanState.after, joined]
    congr 1
    cases after with
    | nil =>
      rw [List.append_nil]
      rfl
    | cons unit others =>
      cases last : (unit :: others).getLast? with
      | none => simp at last
      | some found => simp [last]

theorem head_unitsOf {state : FenceScanState} {text : Text} (isOpen : state.opened ≠ none) :
    ∀ unit ∈ (unitsOf text state).head?, InlineScan.isTick unit = false := by
  obtain ⟨fence, opened⟩ := Option.ne_none_iff_exists'.mp isOpen
  intro unit isFirst
  rw [unitsOf, opened] at isFirst
  generalize splitLines text = lines at isFirst
  cases lines with
  | nil => cases isFirst
  | cons line rest =>
    cases rest with
    | nil =>
      cases line with
      | nil => cases isFirst
      | cons first others =>
        cases isFirst
        simp [InlineScan.isTick]
    | cons second others =>
      cases line with
      | nil =>
        cases isFirst
        simp [InlineScan.isTick]
      | cons first others =>
        cases isFirst
        simp [InlineScan.isTick]

theorem run_foldl {scan : InlineScan} {units : List (Nat × Bool)} {unit : Nat × Bool}
    (last : units.getLast? = some unit) (other : unit.1 ≠ 96) : (units.foldl InlineScan.step scan).run = 0 := by
  obtain ⟨init, rfl⟩ := List.getLast?_eq_some_iff.mp last
  have noTick : InlineScan.isTick unit = false := by simp [InlineScan.isTick, other]
  rw [List.foldl_append, List.foldl_cons, List.foldl_nil, InlineScan.step, noTick]
  rfl

theorem settled_at_cut {state : FenceScanState} {before after : Text}
    (kept : RunKept (state.after before).opened before after) (inlineState : InlineCodeState) :
    let scan := (unitsOf before state).foldl InlineScan.step ⟨inlineState, 0⟩
    let units := unitsOf after (state.after before)
    scan.marks units = InlineScan.marks ⟨scan.settle, 0⟩ units ∧
      scan.final units = InlineScan.final ⟨scan.settle, 0⟩ units := by
  intro scan units
  have text := unitsOf_text before state
  have afterText := unitsOf_text after (state.after before)
  obtain isOpen | differ := kept
  · exact scan.marks_settle (head_unitsOf isOpen)
  · by_cases first : after.head? = some 96
    · have ended : scan.run = 0 := by
        cases last : (unitsOf before state).getLast? with
        | none =>
          rw [List.getLast?_eq_none_iff] at last
          simp only [scan, last]
          rfl
        | some unit =>
          refine run_foldl last fun tick => differ ⟨?_, first⟩
          rw [← text, List.getLast?_map, last, Option.map_some, tick]
      have same : (⟨scan.settle, 0⟩ : InlineScan) = scan := by
        rw [InlineScan.settle, if_pos ended, ← ended]
      rw [same]
      exact ⟨rfl, rfl⟩
    · refine scan.marks_settle fun unit isFirst => ?_
      have other : unit.1 ≠ 96 := by
        intro tick
        apply first
        rw [← afterText, List.head?_map, isFirst, Option.map_some, tick]
      simp [InlineScan.isTick, other]

/-- Every cut is kept, whatever comes after it being taken whole. -/
def CutsKept : FenceScanState → List Text → Prop
  | _, [] => True
  | state, chunk :: rest => CutKept state chunk rest.flatten ∧ CutsKept (state.after chunk) rest

/-- A marker may arrive in two parts: `splitTrailingFenceFragment` of the subscriber holds its beginning
back. -/
theorem scanChunks_parted_marker : ¬ ∀ chunks : List Text, (∀ chunk ∈ chunks, chunk ≠ []) →
      scanChunks createInlineCodeState .initial chunks =
        scanChunks createInlineCodeState .initial [chunks.flatten] := by
  intro invariant
  have parted := invariant [[96, 96], [96]] (by decide)
  simp only [scanChunks_cons] at parted
  revert parted
  decide +kernel

theorem scanChunks_cut {inlineState : InlineCodeState} {fenceState : FenceScanState} {before after : Text}
    (kept : CutKept fenceState before after) :
    scanChunks inlineState fenceState [before, after] = scanChunks inlineState fenceState [before ++ after] := by
  obtain ⟨units, states⟩ := unitsOf_append kept
  obtain ⟨marks, final⟩ := settled_at_cut kept.run inlineState
  rw [scanChunks_cons, scanChunks_cons, scanChunks_cons, units, states, InlineScan.marks_append,
    InlineScan.final_append, marks, final]
  simp [scanChunks, InlineScan.final]

/-- Scanning in chunks is scanning the whole text where every cut is kept. -/
theorem scanning_chunk_invariant (inlineState : InlineCodeState) (fenceState : FenceScanState)
    (chunks : List Text) (kept : CutsKept fenceState chunks) :
    scanChunks inlineState fenceState chunks = scanChunks inlineState fenceState [chunks.flatten] := by
  induction chunks generalizing inlineState fenceState with
  | nil =>
    rw [scanChunks_cons]
    cases fenceState with
    | mk candidate opened => cases candidate <;> rfl
  | cons chunk rest ih =>
    obtain ⟨here, later⟩ := kept
    rw [List.flatten_cons, ← scanChunks_cut here, scanChunks_cons, ih _ _ later,
      scanChunks_cons inlineState fenceState chunk [rest.flatten]]

/-- Inline code and a fence that are open at a cut: "`a", "`" and a line "~~~", then a line "x`". -/
theorem scanning_chunk_invariant_open :
    scanChunks createInlineCodeState .initial [[96, 97], [96, 10, 126, 126, 126], [10, 120, 96]] =
      scanChunks createInlineCodeState .initial [[96, 97, 96, 10, 126, 126, 126, 10, 120, 96]] :=
  scanning_chunk_invariant createInlineCodeState .initial [[96, 97], [96, 10, 126, 126, 126], [10, 120, 96]]
    ⟨⟨by decide +kernel, by decide +kernel⟩, ⟨by decide +kernel, by decide +kernel⟩,
      ⟨by decide +kernel, by decide +kernel⟩, trivial⟩

end PlatformClaw.Markdown
