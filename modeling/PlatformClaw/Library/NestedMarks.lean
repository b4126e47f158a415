/-! # Nested marks

Marks open and close stretches of a line. They are nested when every stretch that is opened is
closed once, where it stops, after all that was opened inside it. A reader with a stack tells, and
the stretches of which a stack keeps the ends out of order can never be closed.
-/

namespace NestedMarks

inductive Mark (ι : Type) where
  | opened (item : ι)
  | closed (item : ι)
  | passed (start stop : Nat)
deriving DecidableEq, Repr

variable {ι : Type} {stopOf : ι → Nat}

/-- The marks from one place of a line to another are properly nested. -/
inductive Nested (stopOf : ι → Nat) : Nat → List (Mark ι) → Nat → Prop where
  | nil (place : Nat) : Nested stopOf place [] place
  | passed {start middle stop : Nat} {marks : List (Mark ι)} (forward : start < middle)
      (rest : Nested stopOf middle marks stop) :
      Nested stopOf start (.passed start middle :: marks) stop
  | opened {start stop : Nat} {item : ι} {inner marks : List (Mark ι)}
      (inside : Nested stopOf start inner (stopOf item))
      (rest : Nested stopOf (stopOf item) marks stop) :
      Nested stopOf start (.opened item :: (inner ++ .closed item :: marks)) stop

/-- A reader that keeps what is open on a stack reads the marks. -/
inductive Reads (stopOf : ι → Nat) : Nat → List ι → List (Mark ι) → Nat → Prop where
  | nil (place : Nat) : Reads stopOf place [] [] place
  | passed {start middle stop : Nat} {stack : List ι} {marks : List (Mark ι)}
      (forward : start < middle) (rest : Reads stopOf middle stack marks stop) :
      Reads stopOf start stack (.passed start middle :: marks) stop
  | opened {start stop : Nat} {stack : List ι} {item : ι} {marks : List (Mark ι)}
      (rest : Reads stopOf start (item :: stack) marks stop) :
      Reads stopOf start stack (.opened item :: marks) stop
  | closed {start stop : Nat} {stack : List ι} {item : ι} {marks : List (Mark ι)}
      (here : stopOf item = start) (rest : Reads stopOf start stack marks stop) :
      Reads stopOf start (item :: stack) (.closed item :: marks) stop

/-- Nested marks up to the end of each open item, the topmost first, and to the last place. -/
inductive Unwinds (stopOf : ι → Nat) : Nat → List ι → List (Mark ι) → Nat → Prop where
  | nil {start stop : Nat} {marks : List (Mark ι)} (nested : Nested stopOf start marks stop) :
      Unwinds stopOf start [] marks stop
  | cons {start stop : Nat} {item : ι} {stack : List ι} {inner marks : List (Mark ι)}
      (inside : Nested stopOf start inner (stopOf item))
      (rest : Unwinds stopOf (stopOf item) stack marks stop) :
      Unwinds stopOf start (item :: stack) (inner ++ .closed item :: marks) stop

theorem Nested.reads {start middle stop : Nat} {marks more : List (Mark ι)} {stack : List ι}
    (nested : Nested stopOf start marks middle) (rest : Reads stopOf middle stack more stop) :
    Reads stopOf start stack (marks ++ more) stop := by
  induction nested generalizing stack more stop with
  | nil place => exact rest
  | passed forward _ ih => exact .passed forward (ih rest)
  | opened _ _ inside ih =>
    rw [List.cons_append, List.append_assoc, List.cons_append]
    exact .opened (inside (.closed rfl (ih rest)))

theorem Reads.unwinds {start stop : Nat} {marks : List (Mark ι)} {stack : List ι}
    (reads : Reads stopOf start stack marks stop) : Unwinds stopOf start stack marks stop := by
  induction reads with
  | nil place => exact .nil (.nil place)
  | @passed start middle _ _ _ forward _ ih =>
    cases ih with
    | nil nested => exact .nil (.passed forward nested)
    | cons inside rest =>
      rw [← List.cons_append]
      exact .cons (.passed forward inside) rest
  | opened _ ih =>
    cases ih with
    | cons inside rest =>
      cases rest with
      | nil nested => exact .nil (.opened inside nested)
      | cons inside' rest' =>
        have joined := Unwinds.cons (.opened inside inside') rest'
        rwa [List.cons_append, List.append_assoc, List.cons_append] at joined
  | closed here _ ih =>
    subst here
    exact .cons (.nil _) ih

theorem nested_iff_reads {start stop : Nat} {marks : List (Mark ι)} :
    Nested stopOf start marks stop ↔ Reads stopOf start [] marks stop := by
  constructor
  · intro nested
    have reads := nested.reads (.nil stop)
    rwa [List.append_nil] at reads
  · intro reads
    cases reads.unwinds with
    | nil nested => exact nested

theorem Reads.ordered {start stop : Nat} {marks : List (Mark ι)} {stack : List ι}
    (reads : Reads stopOf start stack marks stop) :
    (stack.Pairwise fun inner outer => stopOf inner ≤ stopOf outer) ∧ ∀ item ∈ stack, start ≤ stopOf item := by
  induction reads with
  | nil place => exact ⟨.nil, fun _ inNone => (by cases inNone)⟩
  | passed forward _ ih =>
    exact ⟨ih.1, fun item inStack => Nat.le_of_lt (Nat.lt_of_lt_of_le forward (ih.2 item inStack))⟩
  | opened _ ih =>
    exact ⟨ih.1.of_cons, fun item inStack => ih.2 item (List.mem_cons_of_mem _ inStack)⟩
  | closed here _ ih =>
    subst here
    refine ⟨List.pairwise_cons.mpr ⟨ih.2, ih.1⟩, fun other inStack => ?_⟩
    cases List.mem_cons.mp inStack with
    | inl same => exact same ▸ Nat.le_refl _
    | inr below => exact ih.2 other below

theorem reads_opened {start stop : Nat} {items : List ι} {stack : List ι} {marks : List (Mark ι)} :
    Reads stopOf start stack (items.map .opened ++ marks) stop ↔
      Reads stopOf start (items.reverse ++ stack) marks stop := by
  induction items generalizing stack with
  | nil => rfl
  | cons item items ih =>
    rw [List.reverse_cons, List.append_assoc, List.singleton_append, ← ih]
    constructor
    · intro reads
      cases reads with
      | opened rest => exact rest
    · exact .opened

theorem reads_closed {start stop : Nat} {items : List ι} (here : ∀ item ∈ items, stopOf item = start)
    {stack : List ι} {marks : List (Mark ι)} :
    Reads stopOf start (items ++ stack) (items.map .closed ++ marks) stop ↔ Reads stopOf start stack marks stop := by
  induction items with
  | nil => rfl
  | cons item items ih =>
    rw [← ih fun other inItems => here other (List.mem_cons_of_mem _ inItems)]
    constructor
    · intro reads
      cases reads with
      | closed _ rest => exact rest
    · exact .closed (here item List.mem_cons_self)

theorem reads_passed {start middle middle' stop : Nat} {stack : List ι} {marks : List (Mark ι)} :
    Reads stopOf start stack (.passed middle middle' :: marks) stop ↔
      middle = start ∧ start < middle' ∧ Reads stopOf middle' stack marks stop := by
  constructor
  · intro reads
    cases reads with
    | passed forward rest => exact ⟨rfl, forward, rest⟩
  · rintro ⟨rfl, forward, rest⟩
    exact .passed forward rest

/-- The stretches that marks pass, in order. -/
def passages (marks : List (Mark ι)) : List (Nat × Nat) :=
  marks.filterMap fun mark =>
    match mark with
    | .passed start stop => some (start, stop)
    | .opened _ | .closed _ => none

theorem passages_append (marks more : List (Mark ι)) : passages (marks ++ more) = passages marks ++ passages more :=
  List.filterMap_append

theorem Nested.forward {start stop : Nat} {marks : List (Mark ι)}
    (nested : Nested stopOf start marks stop) : start ≤ stop := by
  induction nested with
  | nil place => exact Nat.le_refl _
  | passed forward _ ih => omega
  | opened _ _ inside ih => omega

/-- The stretch of a text from `start` to `stop`. -/
def stretch {α : Type} (text : List α) (start stop : Nat) : List α :=
  (text.take stop).drop start

theorem stretch_append {α : Type} (text : List α) {start middle stop : Nat}
    (first : start ≤ middle) (second : middle ≤ stop) :
    stretch text start middle ++ stretch text middle stop = stretch text start stop := by
  unfold stretch
  have upTo : text.take middle = (text.take stop).take middle := by
    rw [List.take_take, Nat.min_eq_left second]
  rw [upTo, List.drop_take]
  have rest : (text.take stop).drop middle = ((text.take stop).drop start).drop (middle - start) := by
    rw [List.drop_drop, Nat.add_sub_cancel' first]
  rw [rest, List.take_append_drop]

theorem Nested.stretches {α : Type} (text : List α) {start stop : Nat} {marks : List (Mark ι)}
    (nested : Nested stopOf start marks stop) :
    ((passages marks).map fun piece => stretch text piece.1 piece.2).flatten = stretch text start stop := by
  induction nested with
  | nil place => simp [passages, stretch]
  | passed forward rest ih =>
    exact (congrArg _ ih).trans (stretch_append text (Nat.le_of_lt forward) rest.forward)
  | @opened start stop item inner marks inside rest ihInside ih =>
    have parts : passages (.opened item :: (inner ++ .closed item :: marks)) = passages inner ++ passages marks :=
      passages_append inner (.closed item :: marks)
    rw [parts, List.map_append, List.flatten_append, ihInside, ih]
    exact stretch_append text inside.forward rest.forward

end NestedMarks
