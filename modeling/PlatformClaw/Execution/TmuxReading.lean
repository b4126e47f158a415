import PlatformClaw.Execution.TmuxControl

/-! # What the terminal sees of tmux

The bytes a pane writes reach the terminal, wherever the chunks of the stream end:
a piece of them is escaped and sent as a line, and the line is read back as it is.
-/

namespace PlatformClaw.Execution.Tmux

/-- `\ooo` for a byte below space and for the backslash, as tmux 3.2a sends them. -/
def escapeByte (byte : UInt8) : List UInt8 :=
  if byte < 32 ∨ byte = 92 then
    [92, .ofNat (48 + byte.toNat / 64), .ofNat (48 + byte.toNat / 8 % 8), .ofNat (48 + byte.toNat % 8)]
  else [byte]

def escape (data : List UInt8) : List UInt8 :=
  data.flatMap escapeByte

section Escapes

theorem octalDigit?_digit {highest digit : Nat} (small : digit ≤ highest) (octal : highest ≤ 7) :
    octalDigit? highest (.ofNat (48 + digit)) = some digit := by
  have byte : (UInt8.ofNat (48 + digit)).toNat % 128 = 48 + digit := by
    rw [UInt8.toNat_ofNat']
    omega
  simp only [octalDigit?, byte]
  simp [small]

theorem decode_plain {byte : UInt8} (plain : byte ≠ 92) (rest : List UInt8) :
    decodeTmuxOutput (byte :: rest) = (byte :: ·) <$> decodeTmuxOutput rest := by
  rw [decodeTmuxOutput.eq_def]
  simp only [if_pos plain]

theorem decode_octal {first second third : UInt8} {a b c : Nat}
    (octal : octalDigit? 3 first = some a ∧ octalDigit? 7 second = some b ∧
      octalDigit? 7 third = some c) (rest : List UInt8) :
    decodeTmuxOutput (92 :: first :: second :: third :: rest) =
      (UInt8.ofNat (a * 64 + b * 8 + c) :: ·) <$> decodeTmuxOutput rest := by
  rw [decodeTmuxOutput.eq_def]
  simp only [ne_eq, not_true, if_false, octal.1, octal.2.1, octal.2.2]
  rfl

theorem decode_escapeByte (byte : UInt8) (rest : List UInt8) :
    decodeTmuxOutput (escapeByte byte ++ rest) = (byte :: ·) <$> decodeTmuxOutput rest := by
  have bound := byte.toNat_lt
  unfold escapeByte
  split
  · have first : octalDigit? 3 (.ofNat (48 + byte.toNat / 64)) = some (byte.toNat / 64) :=
      octalDigit?_digit (by omega) (by omega)
    have second : octalDigit? 7 (.ofNat (48 + byte.toNat / 8 % 8)) = some (byte.toNat / 8 % 8) :=
      octalDigit?_digit (by omega) (by omega)
    have third : octalDigit? 7 (.ofNat (48 + byte.toNat % 8)) = some (byte.toNat % 8) :=
      octalDigit?_digit (by omega) (by omega)
    have number : byte.toNat / 64 * 64 + byte.toNat / 8 % 8 * 8 + byte.toNat % 8 = byte.toNat := by
      omega
    have decoded := decode_octal ⟨first, second, third⟩ rest
    rw [number, UInt8.ofNat_toNat] at decoded
    exact decoded
  · rename_i plain
    exact decode_plain (fun same => plain (.inr same)) rest

/-- Decoding undoes the escapes, for all bytes. -/
theorem decode_escape (data : List UInt8) : decodeTmuxOutput (escape data) = some data := by
  induction data with
  | nil => simp [escape, decodeTmuxOutput]
  | cons byte rest ih =>
    have split : escape (byte :: rest) = escapeByte byte ++ escape rest := List.flatMap_cons
    rw [split, decode_escapeByte, ih]
    rfl

theorem escape_plain (data : List UInt8) : ∀ byte ∈ escape data, byte ≠ 10 := by
  intro byte escaped isEnd
  subst isEnd
  obtain ⟨source, -, inEscape⟩ := List.mem_flatMap.mp escaped
  have bound := source.toNat_lt
  unfold escapeByte at inEscape
  split at inEscape
  · have digits (digit : Nat) (octal : digit ≤ 7) : (10 : UInt8) ≠ .ofNat (48 + digit) := by
      intro same
      have values := congrArg UInt8.toNat same
      rw [UInt8.toNat_ofNat'] at values
      have ten : (10 : UInt8).toNat = 10 := rfl
      omega
    simp only [List.mem_cons, List.not_mem_nil, or_false] at inEscape
    rcases inEscape with slash | first | second | third
    · exact absurd slash (by decide)
    · exact digits _ (by omega) first
    · exact digits _ (by omega) second
    · exact digits _ (by omega) third
  · rename_i plain
    obtain rfl := List.mem_singleton.mp inEscape
    exact plain (.inl (by decide))

end Escapes

/-- A piece of what a pane writes: its number in digits, and the bytes. -/
structure PaneWrite where
  pane : List UInt8
  data : List UInt8
  pane_digits : ∀ byte ∈ pane, isDigitByte byte = true
  pane_length : 1 ≤ pane.length ∧ pane.length ≤ 10

namespace PaneWrite

/-- The notification tmux sends for it, without the end of the line. -/
def line (write : PaneWrite) : List UInt8 :=
  outputPrefix ++ (write.pane ++ 32 :: escape write.data)

def paneId (write : PaneWrite) : String :=
  .ofList ('%' :: write.pane.map fun byte => Char.ofNat byte.toNat)

def event (write : PaneWrite) : TmuxControlEvent :=
  .output write.paneId write.data

def stream (writes : List PaneWrite) : List UInt8 :=
  writes.flatMap fun write => write.line ++ [10]

theorem line_plain (write : PaneWrite) : ∀ byte ∈ write.line, byte ≠ 10 := by
  intro byte inLine
  simp only [line, List.mem_append, List.mem_cons] at inLine
  rcases inLine with early | digit | rfl | escaped
  · intro isEnd
    subst isEnd
    exact absurd early (by decide)
  · intro isEnd
    subst isEnd
    exact absurd (write.pane_digits _ digit) (by decide)
  · decide
  · exact escape_plain _ _ escaped

theorem guard?_line (write : PaneWrite) : guard? (Utf8Text.decode write.line) = none := by
  have starts : Utf8Text.decode write.line =
      '%' :: 'o' :: Utf8Text.decode (outputPrefix.drop 2 ++ (write.pane ++ 32 :: escape write.data)) := by
    have early : write.line = 37 :: 111 :: (outputPrefix.drop 2 ++ (write.pane ++ 32 :: escape write.data)) := rfl
    rw [early, Utf8Text.decode_cons_ascii (by decide), Utf8Text.decode_cons_ascii (by decide)]
    rfl
  simp [starts, guard?, afterPrefix?]

theorem output?_line (write : PaneWrite) : output? write.line = some (write.paneId, escape write.data) := by
  have digits : (write.pane ++ 32 :: escape write.data).takeWhile isDigitByte = write.pane := by
    rw [List.takeWhile_append_of_pos write.pane_digits]
    simp [isDigitByte]
  have behind : (write.pane ++ 32 :: escape write.data).dropWhile isDigitByte = 32 :: escape write.data := by
    rw [List.dropWhile_append_of_pos write.pane_digits]
    simp [isDigitByte]
  simp [output?, line, digits, behind, write.pane_length, paneId]

theorem readLine_line (write : PaneWrite) : readLine none write.line = ⟨[write.event], .ok none⟩ := by
  simp [readLine, write.guard?_line, write.output?_line, decode_escape, event]

end PaneWrite

/-- The bytes of the panes in what was emitted. -/
def outputData (events : List TmuxControlEvent) : List UInt8 :=
  events.flatMap fun event =>
    match event with
    | .output _ data => data
    | _ => []

namespace TmuxControlParser

/-- Writes whose lines keep the limit are read one by one, and nothing is left over. -/
theorem feedAll_stream {writes : List PaneWrite} (short : ∀ write ∈ writes, write.line.length ≤ maxLineBytes) :
    controlReader.feedAll fresh (PaneWrite.stream writes) = ⟨writes.map PaneWrite.event, .ok fresh⟩ := by
  induction writes with
  | nil => rfl
  | cons write rest ih =>
    obtain ⟨own, later⟩ := List.forall_mem_cons.mp short
    have stream : PaneWrite.stream (write :: rest) =
        write.line ++ controlReader.newline :: PaneWrite.stream rest := by
      simp [PaneWrite.stream, controlReader]
    have limit : ¬controlReader.maxLine < fresh.pending.length + write.line.length := by
      simp only [fresh, List.length_nil, Nat.zero_add]
      exact Nat.not_lt.mpr own
    have line : controlReader.readLine fresh.state (fresh.pending ++ write.line) =
        ⟨[write.event], .ok none⟩ := write.readLine_line
    rw [stream, LineReader.feedAll_line write.line_plain, if_neg limit, line]
    have behind : controlReader.feedAll ⟨[], none⟩ (PaneWrite.stream rest) =
        ⟨rest.map PaneWrite.event, .ok fresh⟩ := ih later
    simp [Emitted.andThen, behind]

theorem outputData_events (writes : List PaneWrite) :
    outputData (writes.map PaneWrite.event) = writes.flatMap (·.data) := by
  simp [outputData, List.flatMap_map, PaneWrite.event]

/-- Wherever the chunks of a stream end, the same events are decoded; and what panes write comes
    out as it was, as long as no line exceeds the limit. -/
theorem output_survives : (∀ (parser : TmuxControlParser) (chunks : List (List UInt8)),
      parser.read chunks = parser.push chunks.flatten) ∧
    ∀ (writes : List PaneWrite) (chunks : List (List UInt8)), (∀ write ∈ writes, write.line.length ≤ maxLineBytes) →
      chunks.flatten = PaneWrite.stream writes → fresh.read chunks = ⟨writes.map PaneWrite.event, .ok fresh⟩ ∧
        outputData (fresh.read chunks).events = writes.flatMap (·.data) := by
  have framing (parser : TmuxControlParser) (chunks : List (List UInt8)) :
      parser.read chunks = parser.push chunks.flatten :=
    LineReader.read_eq_push parser chunks
  refine ⟨framing, fun writes chunks short sent => ?_⟩
  have events : fresh.read chunks = ⟨writes.map PaneWrite.event, .ok fresh⟩ := by
    rw [framing, sent]
    exact (LineReader.push_eq fresh _).trans (feedAll_stream short)
  rw [events]
  exact ⟨rfl, outputData_events writes⟩

/-- A line end, a backslash and two bytes of a character, in chunks that end within them. -/
def splitWrite : PaneWrite where
  pane := [51]
  data := [10, 92, 0xC3, 0xA9]
  pane_digits := List.forall_mem_singleton.mpr rfl
  pane_length := by decide

theorem splitWrite_survives : [splitWrite.line.take 14, splitWrite.line.drop 14, [10]].flatten =
        PaneWrite.stream [splitWrite] ∧
      outputData (fresh.read [splitWrite.line.take 14, splitWrite.line.drop 14, [10]]).events =
          [10, 92, 0xC3, 0xA9] :=
  ⟨by decide, (output_survives.2 [splitWrite] [splitWrite.line.take 14, splitWrite.line.drop 14, [10]]
      (by decide) (by decide)).2⟩

/-- A pane that writes `count` bytes at once. -/
def plainWrite (count : Nat) : PaneWrite where
  pane := [51]
  data := List.replicate count 97
  pane_digits := List.forall_mem_singleton.mpr rfl
  pane_length := by decide

theorem escape_replicate (count : Nat) : escape (List.replicate count 97) = List.replicate count 97 := by
  induction count with
  | zero => rfl
  | succ count ih =>
    rw [List.replicate_succ]
    exact congrArg (97 :: ·) ih

/-- With the notification's name, such a line has ten bytes more and the digits of the pane. -/
theorem plainWrite_length (count : Nat) : (plainWrite count).line.length = count + 11 := by
  simp [PaneWrite.line, plainWrite, escape_replicate, outputPrefix]

theorem tooLong_failed {write : PaneWrite} (long : maxLineBytes < write.line.length) :
    fresh.read [write.line ++ [10]] = .failed .lineLimit := by
  have bytes : fresh.read [write.line ++ [10]] =
      controlReader.feedAll fresh (write.line ++ controlReader.newline :: []) := by
    rw [read, LineReader.read_eq_push, LineReader.push_eq, List.flatten_cons, List.flatten_nil, List.append_nil]
    rfl
  have limit : controlReader.maxLine < fresh.pending.length + write.line.length := by
    simp only [fresh, List.length_nil, Nat.zero_add]
    exact long
  rw [bytes, LineReader.feedAll_line write.line_plain, if_pos limit]
  rfl

/-- A piece of 256 KiB is lost, as the line it is sent in is longer than that. -/
theorem longWrite_lost : outputData (fresh.read [(plainWrite maxLineBytes).line ++ [10]]).events ≠
        (plainWrite maxLineBytes).data ∧
      (fresh.read [(plainWrite maxLineBytes).line ++ [10]]).result = .error .lineLimit := by
  have long : maxLineBytes < (plainWrite maxLineBytes).line.length := by
    rw [plainWrite_length]
    omega
  rw [tooLong_failed long]
  refine ⟨fun same => ?_, rfl⟩
  have wrote : (plainWrite maxLineBytes).data.length = maxLineBytes := List.length_replicate
  rw [← same] at wrote
  exact absurd wrote (Nat.ne_of_lt (Nat.zero_lt_of_ne_zero (Nat.mul_ne_zero (by decide) (by decide))))

end TmuxControlParser

end PlatformClaw.Execution.Tmux
