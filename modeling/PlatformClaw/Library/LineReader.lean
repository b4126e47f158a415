/-! # Reading lines from chunks

A stream arrives in chunks, and what follows is decided line by line. The reader
keeps the beginning of a line until its end arrives, and gives up on a line that
gets too long. What it emits does not depend on where the chunks end: both the
chunks and the whole stream are read as their bytes, one after the other.
-/

/-- What was emitted before a computation ended, and how it ended. -/
structure Emitted (ε : Type u) (κ : Type v) (α : Type w) where
  events : List ε
  result : Except κ α

namespace Emitted

variable {ε : Type u} {κ : Type v} {α : Type w} {β : Type x} {γ : Type y}

def done (value : α) : Emitted ε κ α := ⟨[], .ok value⟩

def failed (error : κ) : Emitted ε κ α := ⟨[], .error error⟩

def andThen (first : Emitted ε κ α) (next : α → Emitted ε κ β) : Emitted ε κ β :=
  match first.result with
  | .error error => ⟨first.events, .error error⟩
  | .ok value => ⟨first.events ++ (next value).events, (next value).result⟩

@[simp] theorem done_andThen (value : α) (next : α → Emitted ε κ β) :
    (done value).andThen next = next value := by
  simp [done, andThen]

@[simp] theorem andThen_done (first : Emitted ε κ α) : first.andThen done = first := by
  obtain ⟨events, result⟩ := first
  cases result <;> simp [andThen, done]

theorem andThen_assoc (first : Emitted ε κ α) (next : α → Emitted ε κ β) (last : β → Emitted ε κ γ) :
    (first.andThen next).andThen last = first.andThen fun value => (next value).andThen last := by
  obtain ⟨events, result⟩ := first
  cases result with
  | error error => rfl
  | ok value =>
    simp only [andThen]
    cases (next value).result <;> simp

end Emitted

/-- How lines are told apart, how long they may be, and what each one does. -/
structure LineReader (β : Type u) (σ : Type v) (ε : Type w) (κ : Type x) where
  newline : β
  maxLine : Nat
  tooLong : κ
  readLine : σ → List β → Emitted ε κ σ

/-- The beginning of the current line, and what the lines before it have left. -/
structure Assembly (β : Type u) (σ : Type v) where
  pending : List β
  state : σ

namespace LineReader

variable {β : Type u} {σ : Type v} {ε : Type w} {κ : Type x} [DecidableEq β]

section Definitions

variable (reader : LineReader β σ ε κ)

/-- The loop over the lines that end in a chunk; every round takes a byte at least. -/
def pushLines : Nat → Assembly β σ → List β → Emitted ε κ (Assembly β σ)
  | 0, assembly, _ => .done assembly
  | _ + 1, assembly, [] => .done assembly
  | rounds + 1, assembly, chunk =>
    let piece := chunk.takeWhile (· ≠ reader.newline)
    if reader.maxLine < assembly.pending.length + piece.length then .failed reader.tooLong
    else
      match chunk.dropWhile (· ≠ reader.newline) with
      | [] => .done { assembly with pending := assembly.pending ++ piece }
      | _ :: rest =>
        (reader.readLine assembly.state (assembly.pending ++ piece)).andThen fun state =>
          pushLines rounds { pending := [], state } rest

def push (assembly : Assembly β σ) (chunk : List β) : Emitted ε κ (Assembly β σ) :=
  reader.pushLines chunk.length assembly chunk

def read : Assembly β σ → List (List β) → Emitted ε κ (Assembly β σ)
  | assembly, [] => .done assembly
  | assembly, chunk :: rest => (reader.push assembly chunk).andThen fun assembly =>
    read assembly rest

/-- One byte on its own. -/
def feed (assembly : Assembly β σ) (byte : β) : Emitted ε κ (Assembly β σ) :=
  if byte = reader.newline then
    if reader.maxLine < assembly.pending.length then .failed reader.tooLong
    else
      (reader.readLine assembly.state assembly.pending).andThen fun state =>
        .done { pending := [], state }
  else if reader.maxLine < assembly.pending.length + 1 then .failed reader.tooLong
  else .done { assembly with pending := assembly.pending ++ [byte] }

def feedAll : Assembly β σ → List β → Emitted ε κ (Assembly β σ)
  | assembly, [] => .done assembly
  | assembly, byte :: rest => (reader.feed assembly byte).andThen fun assembly =>
    feedAll assembly rest

end Definitions

variable {reader : LineReader β σ ε κ}

theorem feedAll_append (assembly : Assembly β σ) (early late : List β) : reader.feedAll assembly (early ++ late) =
      (reader.feedAll assembly early).andThen fun assembly => reader.feedAll assembly late := by
  induction early generalizing assembly with
  | nil => simp [feedAll]
  | cons byte rest ih => simp only [List.cons_append, feedAll, Emitted.andThen_assoc, ih]

theorem feedAll_piece {piece : List β} (plain : ∀ byte ∈ piece, byte ≠ reader.newline)
    (assembly : Assembly β σ) (nonempty : piece ≠ []) :
    reader.feedAll assembly piece =
      if reader.maxLine < assembly.pending.length + piece.length then .failed reader.tooLong
      else .done { assembly with pending := assembly.pending ++ piece } := by
  induction piece generalizing assembly with
  | nil => exact absurd rfl nonempty
  | cons byte rest ih =>
    obtain ⟨own, later⟩ := List.forall_mem_cons.mp plain
    simp only [feedAll, feed, if_neg own]
    cases rest with
    | nil =>
      simp only [feedAll, List.length_singleton]
      split <;> simp
    | cons next rest =>
      have fed := ih later { assembly with pending := assembly.pending ++ [byte] } (List.cons_ne_nil _ _)
      simp only [List.length_append, List.length_cons, List.length_nil, List.append_assoc,
        List.singleton_append] at fed ⊢
      split
      · rw [if_pos (by omega)]
        rfl
      · simp only [Emitted.done_andThen, fed]
        split
        · rw [if_pos (by omega)]
        · rw [if_neg (by omega)]

theorem feedAll_line {piece : List β} (plain : ∀ byte ∈ piece, byte ≠ reader.newline)
    (assembly : Assembly β σ) (rest : List β) :
    reader.feedAll assembly (piece ++ reader.newline :: rest) =
      if reader.maxLine < assembly.pending.length + piece.length then .failed reader.tooLong
      else
        (reader.readLine assembly.state (assembly.pending ++ piece)).andThen fun state =>
          reader.feedAll { pending := [], state } rest := by
  cases piece with
  | nil =>
    simp only [List.nil_append, feedAll, feed, if_true, List.length_nil, Nat.add_zero, List.append_nil]
    split
    · rfl
    · simp only [Emitted.andThen_assoc, Emitted.done_andThen]
  | cons byte piece =>
    rw [feedAll_append, feedAll_piece plain assembly (List.cons_ne_nil _ _)]
    split
    · rfl
    · rename_i short
      have short' : ¬reader.maxLine < (assembly.pending ++ byte :: piece).length := by
        rwa [List.length_append]
      simp only [Emitted.done_andThen, feedAll, feed, if_true, if_neg short', Emitted.andThen_assoc]

theorem chunk_cases (newline : β) (chunk : List β) : (∀ byte ∈ chunk.takeWhile (· ≠ newline), byte ≠ newline) ∧
      (chunk.dropWhile (· ≠ newline) = [] ∧ chunk.takeWhile (· ≠ newline) = chunk ∨
        ∃ rest, chunk.dropWhile (· ≠ newline) = newline :: rest ∧ rest.length < chunk.length ∧
          chunk = chunk.takeWhile (· ≠ newline) ++ newline :: rest) := by
  induction chunk with
  | nil => simp
  | cons byte chunk ih =>
    obtain ⟨plain, shape⟩ := ih
    by_cases own : byte = newline
    · simp [own]
    · have taken : (byte :: chunk).takeWhile (· ≠ newline) = byte :: chunk.takeWhile (· ≠ newline) := by simp [own]
      have dropped : (byte :: chunk).dropWhile (· ≠ newline) = chunk.dropWhile (· ≠ newline) := by simp [own]
      rw [taken, dropped]
      refine ⟨List.forall_mem_cons.mpr ⟨own, plain⟩, ?_⟩
      rcases shape with ⟨ended, whole⟩ | ⟨rest, found, shorter, whole⟩
      · exact .inl ⟨ended, congrArg (byte :: ·) whole⟩
      · exact .inr ⟨rest, found, Nat.lt_succ_of_lt shorter, congrArg (byte :: ·) whole⟩

theorem pushLines_eq {rounds : Nat} (assembly : Assembly β σ) (chunk : List β) (enough : chunk.length ≤ rounds) :
    reader.pushLines rounds assembly chunk = reader.feedAll assembly chunk := by
  induction rounds generalizing assembly chunk with
  | zero =>
    obtain rfl := List.length_eq_zero_iff.mp (Nat.le_zero.mp enough)
    rfl
  | succ rounds ih =>
    cases chunk with
    | nil => rfl
    | cons byte tail =>
      obtain ⟨plain, ends⟩ := chunk_cases reader.newline (byte :: tail)
      rcases ends with ⟨ended, whole⟩ | ⟨rest, found, shorter, whole⟩
      · simp only [pushLines, ended, whole]
        refine (feedAll_piece ?_ assembly (List.cons_ne_nil _ _)).symm
        exact fun byte inChunk => plain byte (whole.symm ▸ inChunk)
      · have later (state : σ) : reader.pushLines rounds { pending := [], state } rest =
            reader.feedAll { pending := [], state } rest := ih _ rest (by omega)
        rw [congrArg (reader.feedAll assembly) whole, feedAll_line plain]
        simp only [pushLines, found, later]

theorem push_eq (assembly : Assembly β σ) (chunk : List β) :
    reader.push assembly chunk = reader.feedAll assembly chunk :=
  pushLines_eq assembly chunk (Nat.le_refl _)

theorem read_eq_push (assembly : Assembly β σ) (chunks : List (List β)) :
    reader.read assembly chunks = reader.push assembly chunks.flatten := by
  rw [push_eq]
  induction chunks generalizing assembly with
  | nil => rfl
  | cons chunk rest ih =>
    rw [List.flatten_cons, feedAll_append]
    simp only [read, push_eq, ih]

end LineReader
