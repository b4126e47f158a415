import PlatformClaw.ToolCalls.Payload

/-! # The JSON grammar on a text that grows

A streamed text is scanned again whenever more of it has arrived. What the scan of
the shorter text says about the longer one: a malformed call stays malformed, a
name that was read only grows while the text ends inside it, and a whole call keeps
its arguments.
-/

namespace ToolCallRepair

open Scanning

/-- The same name, read further if the text had ended inside it. -/
structure NameExtends (text : Text) (before after : PlainTextToolCallScanCandidate) : Prop where
  start : after.name.start = before.name.start
  finished : before.nameComplete = true →
    after.name = before.name ∧ after.nameComplete = true ∧ before.name.stop ≤ text.length
  growing : before.nameComplete = false → before.name.stop = text.length ∧ text.length ≤ after.name.stop

def NameRetained (text : Text) (before after : Option PlainTextToolCallScanCandidate)
    (afterUnfinished : Bool) : Prop :=
  ∀ candidate, before = some candidate → (∃ later, after = some later ∧ NameExtends text candidate later) ∨
      (after = none ∧ afterUnfinished = false)

theorem NameRetained.of_finished {text : Text} {before after : PlainTextToolCallScanCandidate}
    {afterUnfinished : Bool} (sameName : after.name = before.name)
    (complete : after.nameComplete = true) (inside : before.name.stop ≤ text.length)
    (finished : before.nameComplete = true) :
    NameRetained text (some before) (some after) afterUnfinished := by
  intro candidate known
  cases known
  exact .inl ⟨after, rfl, congrArg Span.start sameName, fun _ => ⟨sameName, complete, inside⟩,
    fun unfinished => by rw [finished] at unfinished; cases unfinished⟩

theorem NameRetained.of_none {text : Text} {after : Option PlainTextToolCallScanCandidate}
    {afterUnfinished : Bool} : NameRetained text none after afterUnfinished :=
  fun _ known => by cases known

namespace PlainTextJsonToolCallOpeningScan

def value : PlainTextJsonToolCallOpeningScan → Option PlainTextToolCallScanCandidate
  | .stopped scan => scan.value
  | .opened _ value => some ⟨value.name, value.nameComplete, value.payload⟩

def isUnfinished : PlainTextJsonToolCallOpeningScan → Bool
  | .stopped scan => scan.isUnfinished
  | .opened _ _ => false

/-- How the opening read in a text relates to the one read in a longer text. -/
structure Grows (text : Text) (before after : PlainTextJsonToolCallOpeningScan) : Prop where
  invalid : ∀ at_ candidate, before = .stopped (.invalid at_ candidate) → after = before
  named : NameRetained text before.value after.value after.isUnfinished
  opened : ∀ cursor value, before = .opened cursor value →
    value.nameComplete = true ∧ value.name.stop ≤ text.length ∧ cursor ≤ text.length ∧
      ∃ cursor', after = .opened cursor' value ∧ (cursor' = cursor ∨ skipWhitespace text cursor = text.length)
  /-- Openings report no whole call. -/
  proper : ∀ value payload stop, before ≠ .stopped (.complete value payload stop)

namespace Grows

variable {text : Text} {after : PlainTextJsonToolCallOpeningScan}
  {value : PlainTextJsonToolCallCandidate}

theorem of_unnamed : Grows text (.stopped (.unfinished none)) after where
  invalid := fun _ _ same => by cases same
  named := NameRetained.of_none
  opened := fun _ _ same => by cases same
  proper := fun _ _ _ same => by cases same

theorem of_invalid {at_ : Nat} : Grows text (.stopped (.invalid at_ none)) (.stopped (.invalid at_ none)) where
  invalid := fun _ _ _ => rfl
  named := NameRetained.of_none
  opened := fun _ _ same => by cases same
  proper := fun _ _ _ same => by cases same

theorem of_named {payload : Option Span} (finished : value.nameComplete = true)
    (inside : value.name.stop ≤ text.length)
    (same : after.value = some ⟨value.name, value.nameComplete, payload⟩) :
    Grows text (.stopped (.unfinished (some value))) after where
  invalid := fun _ _ same => by cases same
  named := by
    rw [same]
    exact NameRetained.of_finished rfl finished inside finished
  opened := fun _ _ same => by cases same
  proper := fun _ _ _ same => by cases same

theorem of_malformed {at_ : Nat} (finished : value.nameComplete = true) (inside : value.name.stop ≤ text.length) :
    Grows text (.stopped (.invalid at_ (some value))) (.stopped (.invalid at_ (some value))) where
  invalid := fun _ _ _ => rfl
  named := NameRetained.of_finished rfl finished inside finished
  opened := fun _ _ same => by cases same
  proper := fun _ _ _ same => by cases same

theorem of_opened {cursor cursor' : Nat} (finished : value.nameComplete = true)
    (inside : value.name.stop ≤ text.length) (bound : cursor ≤ text.length)
    (still : cursor' = cursor ∨ skipWhitespace text cursor = text.length) :
    Grows text (.opened cursor value) (.opened cursor' value) where
  invalid := fun _ _ same => by cases same
  named := NameRetained.of_finished rfl finished inside finished
  opened := fun _ _ same => by
    cases same
    exact ⟨finished, inside, bound, cursor', rfl, still⟩
  proper := fun _ _ _ same => by cases same

theorem of_unfinishedName {form : PlainTextJsonToolCallSyntax} {name : Span} (atEnd : name.stop = text.length)
    (later : name.start ≠ name.stop → (after.value = none ∧ after.isUnfinished = false) ∨
      ∃ candidate, after.value = some candidate ∧ candidate.name.start = name.start ∧
        text.length ≤ candidate.name.stop) :
    Grows text (.stopped (unfinishedName form name)) after := by
  unfold unfinishedName
  split
  · exact of_unnamed
  · rename_i nonempty
    refine ⟨fun _ _ same => (by cases same), ?_, fun _ _ same => (by cases same),
      fun _ _ _ same => (by cases same)⟩
    intro candidate known
    cases known
    cases later nonempty with
    | inl dropped => exact .inr dropped
    | inr read =>
      obtain ⟨candidate, known, start, reaches⟩ := read
      exact .inl ⟨candidate, known, start, fun finished => (by cases finished),
        fun _ => ⟨atEnd, reaches⟩⟩

end Grows

end PlainTextJsonToolCallOpeningScan

open PlainTextJsonToolCallOpeningScan (Grows)

section Json

variable {text more : Text} {value : PlainTextJsonToolCallCandidate}

theorem scanToolNameEnd_eq {start stop : Nat} (read : scanToolNameEnd text start = some stop) :
    stop = skipWhile isPlainTextToolNameChar text start := by
  simp only [scanToolNameEnd] at read
  split at read
  · cases read
  · exact (Option.some.inj read).symm

theorem scanToolNameEnd_bound {start stop : Nat} (inside : start ≤ text.length)
    (read : scanToolNameEnd text start = some stop) : start ≤ stop ∧ stop ≤ text.length := by
  rw [scanToolNameEnd_eq read]
  exact ⟨le_skipWhile, skipWhile_le inside⟩

theorem scanToolNameEnd_none {start : Nat} (inside : start ≤ text.length)
    (tooLong : scanToolNameEnd text start = none) :
    scanToolNameEnd (text ++ more) start = none := by
  have grows := @skipWhile_mono _ isPlainTextToolNameChar text more start inside
  simp only [scanToolNameEnd] at tooLong ⊢
  split at tooLong
  · rw [if_pos (by omega)]
  · cases tooLong

theorem scanToolNameEnd_some {start stop : Nat}
    (read : scanToolNameEnd text start = some stop) (stopped : stop < text.length) :
    scanToolNameEnd (text ++ more) start = some stop := by
  simp only [scanToolNameEnd] at read ⊢
  split at read
  · cases read
  · rename_i short
    cases read
    rw [skipWhile_append stopped, if_neg short]

/-- A cursor that moved on because the text ended, or did not move. -/
def Still (text : Text) (cursor cursor' : Nat) : Prop :=
  cursor' = cursor ∨ cursor = text.length

theorem skip_still {p : Nat → Bool} {start : Nat} (inside : start ≤ text.length) :
    Still text (skipWhile p text start) (skipWhile p (text ++ more) start) :=
  skipWhile_append_or_end inside

theorem skipWhitespace_end : skipWhitespace text text.length = text.length :=
  Nat.le_antisymm (skipWhile_le (Nat.le_refl _)) le_skipWhile

section Harmony

variable {cursor cursor' : Nat}

theorem scanHarmonyMessage_value : (scanHarmonyMessage text cursor value).value =
      some ⟨value.name, value.nameComplete, value.payload⟩ := by
  unfold scanHarmonyMessage
  split
  · rfl
  · split
    · rfl
    · split <;> rfl

theorem scanHarmonyMessage_grows (inside : cursor ≤ text.length)
    (still : Still text cursor cursor') (finished : value.nameComplete = true)
    (named : value.name.stop ≤ text.length) :
    Grows text (scanHarmonyMessage text cursor value) (scanHarmonyMessage (text ++ more) cursor' value) := by
  cases still with
  | inr atEnd =>
    rw [scanHarmonyMessage, atEnd, startsWithAt_end (by decide), isPrefixAt_end (by decide)]
    exact .of_named finished named scanHarmonyMessage_value
  | inl same =>
    subst same
    rcases @literal_cases _ _ text more HARMONY_MESSAGE_MARKER cursor' inside (by decide) with
      ⟨there, later⟩ | ⟨absent, begun⟩ | ⟨absent, unbegun, absentLater, unbegunLater⟩
    · have bound := startsWithAt_bound there (by decide)
      rw [scanHarmonyMessage, there, scanHarmonyMessage, later]
      have still : Still text (skipWhitespace text (cursor' + HARMONY_MESSAGE_MARKER.length))
          (skipWhitespace (text ++ more) (cursor' + HARMONY_MESSAGE_MARKER.length)) :=
        skip_still bound
      have within : skipWhitespace text (cursor' + HARMONY_MESSAGE_MARKER.length) ≤ text.length :=
        skipWhile_le bound
      apply Grows.of_opened finished named within
      cases still with
      | inl same => exact .inl same
      | inr atEnd => exact .inr (by rw [atEnd, skipWhitespace_end])
    · rw [scanHarmonyMessage, absent, begun]
      exact .of_named finished named scanHarmonyMessage_value
    · have before : cursor' < text.length := by
        apply Nat.lt_of_le_of_ne inside
        intro atEnd
        rw [atEnd, isPrefixAt_end (by decide)] at unbegun
        cases unbegun
      rw [scanHarmonyMessage, absent, unbegun, scanHarmonyMessage, absentLater, unbegunLater,
        List.getElem?_append_left before]
      cases tag : decide (text[cursor']? = some '<'.toNat) with
      | true =>
        rw [if_neg Bool.false_ne_true, if_neg Bool.false_ne_true, if_pos (of_decide_eq_true tag)]
        exact .of_malformed finished named
      | false =>
        rw [if_neg Bool.false_ne_true, if_neg Bool.false_ne_true, if_neg (of_decide_eq_false tag)]
        exact .of_opened finished named inside (.inl rfl)

theorem scanHarmonyCode_value : (scanHarmonyCode text cursor value).value =
      some ⟨value.name, value.nameComplete, value.payload⟩ := by
  unfold scanHarmonyCode
  split
  · exact scanHarmonyMessage_value
  · split <;> rfl

theorem scanHarmonyCode_grows (inside : cursor ≤ text.length)
    (still : Still text cursor cursor') (finished : value.nameComplete = true)
    (named : value.name.stop ≤ text.length) :
    Grows text (scanHarmonyCode text cursor value) (scanHarmonyCode (text ++ more) cursor' value) := by
  cases still with
  | inr atEnd =>
    rw [scanHarmonyCode, atEnd, startsWithAt_end (by decide), isPrefixAt_end (by decide)]
    exact .of_named finished named scanHarmonyCode_value
  | inl same =>
    subst same
    rcases @literal_cases _ _ text more (units "code") cursor' inside (by decide) with
      ⟨there, later⟩ | ⟨absent, begun⟩ | ⟨absent, unbegun, absentLater, unbegunLater⟩
    · have bound := startsWithAt_bound there (by decide)
      rw [scanHarmonyCode, there, scanHarmonyCode, later]
      exact scanHarmonyMessage_grows (skipWhile_le bound) (skip_still bound) finished named
    · rw [scanHarmonyCode, absent, begun]
      exact .of_named finished named scanHarmonyCode_value
    · rw [scanHarmonyCode, absent, unbegun, scanHarmonyCode, absentLater, unbegunLater]
      exact .of_malformed finished named

theorem scanHarmonyRecipient_value {nameStart : Nat}
    (nonempty : nameStart ≠ skipWhile isPlainTextToolNameChar text nameStart) :
    ((scanHarmonyRecipient text nameStart).value = none ∧
      (scanHarmonyRecipient text nameStart).isUnfinished = false) ∨
    ∃ candidate, (scanHarmonyRecipient text nameStart).value = some candidate ∧
      candidate.name = ⟨nameStart, skipWhile isPlainTextToolNameChar text nameStart⟩ := by
  unfold scanHarmonyRecipient
  cases read : scanToolNameEnd text nameStart with
  | none => exact .inl ⟨rfl, rfl⟩
  | some nameEnd =>
    rw [← scanToolNameEnd_eq read] at nonempty ⊢
    dsimp only
    split
    · right
      rw [unfinishedName, if_neg nonempty]
      exact ⟨_, rfl, rfl⟩
    · split
      · exact .inl ⟨rfl, rfl⟩
      · exact .inr ⟨_, scanHarmonyCode_value, rfl⟩

theorem scanHarmonyRecipient_grows {nameStart : Nat} (inside : nameStart ≤ text.length) :
    Grows text (scanHarmonyRecipient text nameStart) (scanHarmonyRecipient (text ++ more) nameStart) := by
  cases read : scanToolNameEnd text nameStart with
  | none =>
    rw [scanHarmonyRecipient, read, scanHarmonyRecipient, scanToolNameEnd_none inside read]
    exact .of_invalid
  | some nameEnd =>
    have bound := scanToolNameEnd_bound inside read
    cases Nat.lt_or_ge nameEnd text.length with
    | inr ended =>
      have atEnd : nameEnd = text.length := Nat.le_antisymm bound.2 ended
      rw [scanHarmonyRecipient, read]
      dsimp only
      rw [if_pos atEnd]
      apply Grows.of_unfinishedName atEnd
      intro nonempty
      have grows := @skipWhile_mono _ isPlainTextToolNameChar text more nameStart inside
      rw [← scanToolNameEnd_eq read] at grows
      dsimp only at nonempty ⊢
      cases @scanHarmonyRecipient_value (text ++ more) nameStart (by omega) with
      | inl dropped => exact .inl dropped
      | inr named =>
        obtain ⟨candidate, known, name⟩ := named
        exact .inr ⟨candidate, known, by rw [name], by rw [name]; dsimp only; omega⟩
    | inl stopped =>
      have early : ¬nameEnd = text.length := Nat.ne_of_lt stopped
      have earlier : ¬nameEnd = (text ++ more).length := by
        rw [List.length_append]
        omega
      rw [scanHarmonyRecipient, read, scanHarmonyRecipient, scanToolNameEnd_some read stopped]
      dsimp only
      rw [if_neg early, if_neg earlier, List.getElem?_append_left stopped]
      split
      · exact .of_invalid
      · exact scanHarmonyCode_grows (skipWhile_le bound.2) (skip_still bound.2) rfl bound.2

theorem channel_nonempty {channel : Text} (known : channel ∈ HARMONY_CHANNELS) : channel ≠ [] := by
  have all : ∀ channel ∈ HARMONY_CHANNELS, channel ≠ [] := by decide
  exact all channel known

theorem channel_unique {channel other : Text} (known : channel ∈ HARMONY_CHANNELS)
    (otherKnown : other ∈ HARMONY_CHANNELS) (here : startsWithAt text channel cursor = true)
    (otherHere : startsWithAt text other cursor = true) : other = channel := by
  have heads : ∀ channel ∈ HARMONY_CHANNELS, ∀ other ∈ HARMONY_CHANNELS,
      channel[0]? = other[0]? → other = channel := by decide
  have first := getElem?_of_startsWithAt here (List.length_pos_iff.mpr (channel_nonempty known))
  have otherFirst :=
    getElem?_of_startsWithAt otherHere (List.length_pos_iff.mpr (channel_nonempty otherKnown))
  exact heads channel known other otherKnown (first.symm.trans otherFirst)

theorem find_channel_append {channel : Text}
    (found : HARMONY_CHANNELS.find? (startsWithAt text · cursor) = some channel) :
    HARMONY_CHANNELS.find? (startsWithAt (text ++ more) · cursor) = some channel := by
  have known := List.mem_of_find?_eq_some found
  have there := List.find?_some found
  have later := @startsWithAt_mono _ _ text more channel cursor there (channel_nonempty known)
  cases again : HARMONY_CHANNELS.find? (startsWithAt (text ++ more) · cursor) with
  | none => exact absurd later (List.find?_eq_none.mp again channel known)
  | some other =>
    have otherLater := List.find?_some again
    rw [channel_unique known (List.mem_of_find?_eq_some again) later otherLater]

theorem no_channel_append (inside : cursor ≤ text.length)
    (absent : HARMONY_CHANNELS.find? (startsWithAt text · cursor) = none)
    (unbegun : HARMONY_CHANNELS.any (isPrefixAt text · cursor) = false) :
    HARMONY_CHANNELS.find? (startsWithAt (text ++ more) · cursor) = none ∧
      HARMONY_CHANNELS.any (isPrefixAt (text ++ more) · cursor) = false := by
  have missing : ∀ channel ∈ HARMONY_CHANNELS, startsWithAt (text ++ more) channel cursor = false ∧
        isPrefixAt (text ++ more) channel cursor = false := by
    intro channel known
    have notThere := List.find?_eq_none.mp absent channel known
    have notBegun := List.any_eq_false.mp unbegun channel known
    rcases @literal_cases _ _ text more channel cursor inside (channel_nonempty known) with
      ⟨there, _⟩ | ⟨_, begun⟩ | ⟨_, _, absentLater, unbegunLater⟩
    · exact absurd there notThere
    · exact absurd begun notBegun
    · exact ⟨absentLater, unbegunLater⟩
  constructor
  · rw [List.find?_eq_none]
    intro channel known
    rw [(missing channel known).1]
    exact Bool.false_ne_true
  · rw [List.any_eq_false]
    intro channel known
    rw [(missing channel known).2]
    exact Bool.false_ne_true

theorem scanHarmonyChannel_grows (inside : cursor ≤ text.length) :
    Grows text (scanHarmonyChannel text cursor) (scanHarmonyChannel (text ++ more) cursor) := by
  cases found : HARMONY_CHANNELS.find? (startsWithAt text · cursor) with
  | none =>
    cases begun : HARMONY_CHANNELS.any (isPrefixAt text · cursor) with
    | true =>
      rw [scanHarmonyChannel, found]
      dsimp only
      rw [begun]
      exact .of_unnamed
    | false =>
      have later := @no_channel_append text more cursor inside found begun
      rw [scanHarmonyChannel, found, scanHarmonyChannel, later.1]
      dsimp only
      rw [begun, later.2]
      exact .of_invalid
  | some channel =>
    have known := List.mem_of_find?_eq_some found
    have there := List.find?_some found
    have bound := startsWithAt_bound there (channel_nonempty known)
    rw [scanHarmonyChannel, found, scanHarmonyChannel, find_channel_append found]
    dsimp only
    cases Nat.lt_or_ge (cursor + channel.length) text.length with
    | inr ended =>
      rw [if_pos (Nat.le_antisymm bound ended)]
      exact .of_unnamed
    | inl stopped =>
      have early : ¬cursor + channel.length = text.length := Nat.ne_of_lt stopped
      have earlier : ¬cursor + channel.length = (text ++ more).length := by
        rw [List.length_append]
        omega
      rw [if_neg early, if_neg earlier, List.getElem?_append_left stopped]
      split
      · exact .of_invalid
      · have within : skipHorizontalWhitespace text (cursor + channel.length) ≤ text.length :=
          skipWhile_le bound
        have still : Still text (skipHorizontalWhitespace text (cursor + channel.length))
            (skipHorizontalWhitespace (text ++ more) (cursor + channel.length)) :=
          skip_still bound
        cases still with
        | inr atEnd =>
          rw [atEnd, startsWithAt_end (by decide), isPrefixAt_end (by decide)]
          exact .of_unnamed
        | inl same =>
          rw [same]
          rcases @literal_cases _ _ text more (units "to=") _ within (by decide) with
            ⟨there, later⟩ | ⟨absent, begun⟩ | ⟨absent, unbegun, absentLater, unbegunLater⟩
          · rw [there, later]
            exact scanHarmonyRecipient_grows (startsWithAt_bound there (by decide))
          · rw [absent, begun]
            exact .of_unnamed
          · rw [absent, unbegun, absentLater, unbegunLater]
            exact .of_invalid

theorem scanHarmonyOpening_grows {start : Nat} (inside : start ≤ text.length) :
    Grows text (scanHarmonyOpening text start) (scanHarmonyOpening (text ++ more) start) := by
  rcases @literal_cases _ _ text more HARMONY_CHANNEL_MARKER start inside (by decide) with
    ⟨there, later⟩ | ⟨absent, begun⟩ | ⟨absent, unbegun, absentLater, unbegunLater⟩
  · rw [scanHarmonyOpening, there, scanHarmonyOpening, later]
    exact scanHarmonyChannel_grows (startsWithAt_bound there (by decide))
  · rw [scanHarmonyOpening, absent, begun]
    exact .of_unnamed
  · have before : start < text.length := by
      apply Nat.lt_of_le_of_ne inside
      intro atEnd
      rw [atEnd, isPrefixAt_end (by decide)] at unbegun
      cases unbegun
    rw [scanHarmonyOpening, absent, unbegun, scanHarmonyOpening, absentLater, unbegunLater,
      List.getElem?_append_left before]
    rw [if_neg Bool.false_ne_true, if_neg Bool.false_ne_true, if_neg Bool.false_ne_true, if_neg Bool.false_ne_true]
    split
    · exact .of_invalid
    · exact scanHarmonyChannel_grows inside

end Harmony

section LineBreak

variable {start right : Nat} {lineBreakOffsets : List Nat}

theorem consumeLineBreak_append (inside : right < text.length) :
    consumeLineBreak (text ++ more) right = consumeLineBreak text right ∨
      (consumeLineBreak text right = some text.length ∧
        ∃ later, consumeLineBreak (text ++ more) right = some later) := by
  unfold consumeLineBreak
  rw [List.getElem?_append_left inside]
  split
  · cases Nat.lt_or_ge (right + 1) text.length with
    | inl next =>
      rw [List.getElem?_append_left next]
      exact .inl rfl
    | inr ended =>
      right
      have none : text[right + 1]? = none := List.getElem?_eq_none ended
      rw [none, if_neg (by simp)]
      exact ⟨congrArg some (by omega), _, rfl⟩
  · exact .inl rfl

theorem consumeLineBreak_bound {stop : Nat} (consumed : consumeLineBreak text right = some stop) :
    right < stop ∧ stop ≤ text.length := by
  unfold consumeLineBreak at consumed
  split at consumed
  · rename_i carriage
    have inside := (List.getElem?_eq_some_iff.mp carriage).1
    split at consumed
    · rename_i feed
      have next := (List.getElem?_eq_some_iff.mp feed).1
      cases consumed
      omega
    · cases consumed
      omega
  · split at consumed
    · rename_i feed
      have inside := (List.getElem?_eq_some_iff.mp feed).1
      cases consumed
      omega
    · cases consumed

theorem structuralLineBreak_append (stopped : skipHorizontalWhitespace text start < text.length) :
    consumeStructuralLineBreakAfterHorizontalWhitespace (text ++ more) start lineBreakOffsets =
        consumeStructuralLineBreakAfterHorizontalWhitespace text start lineBreakOffsets ∨
      (consumeStructuralLineBreakAfterHorizontalWhitespace text start lineBreakOffsets = some text.length ∧
        ∃ later, consumeStructuralLineBreakAfterHorizontalWhitespace (text ++ more) start
          lineBreakOffsets = some later) := by
  unfold consumeStructuralLineBreakAfterHorizontalWhitespace
  have same : skipHorizontalWhitespace (text ++ more) start = skipHorizontalWhitespace text start :=
    skipWhile_append stopped
  rw [same]
  dsimp only
  cases @consumeLineBreak_append text more _ stopped with
  | inl unchanged =>
    rw [unchanged]
    exact .inl rfl
  | inr moved =>
    obtain ⟨atEnd, later, consumed⟩ := moved
    rw [atEnd, consumed]
    exact .inr ⟨rfl, later, rfl⟩

theorem structuralLineBreak_le {stop : Nat} (inside : start ≤ text.length)
    (consumed : consumeStructuralLineBreakAfterHorizontalWhitespace text start lineBreakOffsets =
      some stop) : start ≤ stop ∧ stop ≤ text.length := by
  have within : skipHorizontalWhitespace text start ≤ text.length := skipWhile_le inside
  have least : start ≤ skipHorizontalWhitespace text start := le_skipWhile
  unfold consumeStructuralLineBreakAfterHorizontalWhitespace at consumed
  dsimp only at consumed
  split at consumed
  · rename_i actual read
    have bound := consumeLineBreak_bound read
    cases consumed
    omega
  · have place := List.mem_of_find?_eq_some consumed
    rw [List.mem_range'_1] at place
    omega

end LineBreak

section Bracket

variable {cursor : Nat} {lineBreakOffsets : List Nat}

theorem scanBracketLine_value : (scanBracketLine text cursor value lineBreakOffsets).value =
      some ⟨value.name, value.nameComplete, value.payload⟩ := by
  simp only [scanBracketLine]
  split
  · rfl
  · split <;> rfl

theorem scanBracketLine_grows (inside : cursor ≤ text.length) (finished : value.nameComplete = true)
    (named : value.name.stop ≤ text.length) :
    Grows text (scanBracketLine text cursor value lineBreakOffsets)
      (scanBracketLine (text ++ more) cursor value lineBreakOffsets) := by
  have within : skipHorizontalWhitespace text cursor ≤ text.length := skipWhile_le inside
  cases Nat.lt_or_ge (skipHorizontalWhitespace text cursor) text.length with
  | inr ended =>
    rw [scanBracketLine]
    rw [if_pos (Nat.le_antisymm within ended)]
    exact .of_named finished named scanBracketLine_value
  | inl stopped =>
    have same : skipHorizontalWhitespace (text ++ more) cursor =
        skipHorizontalWhitespace text cursor := skipWhile_append stopped
    have early : ¬skipHorizontalWhitespace text cursor = text.length := Nat.ne_of_lt stopped
    have earlier : ¬skipHorizontalWhitespace text cursor = (text ++ more).length := by
      rw [List.length_append]
      omega
    rw [scanBracketLine, scanBracketLine, same]
    rw [if_neg early, if_neg earlier]
    cases @structuralLineBreak_append text more cursor lineBreakOffsets stopped with
    | inl unchanged =>
      rw [unchanged]
      cases read : consumeStructuralLineBreakAfterHorizontalWhitespace text cursor lineBreakOffsets with
      | none => exact .of_malformed finished named
      | some stop =>
        exact .of_opened finished named (structuralLineBreak_le inside read).2 (.inl rfl)
    | inr moved =>
      obtain ⟨atEnd, later, consumed⟩ := moved
      rw [atEnd, consumed]
      exact .of_opened finished named (Nat.le_refl _) (.inr skipWhitespace_end)

theorem scanBracketName_value {form : PlainTextJsonToolCallSyntax} {nameStart : Nat}
    (nonempty : nameStart ≠ skipWhile isPlainTextToolNameChar text nameStart) :
    ((scanBracketName text form nameStart lineBreakOffsets).value = none ∧
      (scanBracketName text form nameStart lineBreakOffsets).isUnfinished = false) ∨
    ∃ candidate, (scanBracketName text form nameStart lineBreakOffsets).value = some candidate ∧
      candidate.name = ⟨nameStart, skipWhile isPlainTextToolNameChar text nameStart⟩ := by
  unfold scanBracketName
  cases read : scanToolNameEnd text nameStart with
  | none => exact .inl ⟨rfl, rfl⟩
  | some nameEnd =>
    rw [← scanToolNameEnd_eq read] at nonempty ⊢
    dsimp only
    split
    · right
      rw [unfinishedName, if_neg nonempty]
      exact ⟨_, rfl, rfl⟩
    · split
      · exact .inl ⟨rfl, rfl⟩
      · split
        · exact .inr ⟨_, scanBracketLine_value, rfl⟩
        · exact .inr ⟨_, rfl, rfl⟩

theorem scanBracketName_grows {form : PlainTextJsonToolCallSyntax} {nameStart : Nat}
    (inside : nameStart ≤ text.length) :
    Grows text (scanBracketName text form nameStart lineBreakOffsets)
      (scanBracketName (text ++ more) form nameStart lineBreakOffsets) := by
  cases read : scanToolNameEnd text nameStart with
  | none =>
    rw [scanBracketName, read, scanBracketName, scanToolNameEnd_none inside read]
    exact .of_invalid
  | some nameEnd =>
    have bound := scanToolNameEnd_bound inside read
    cases Nat.lt_or_ge nameEnd text.length with
    | inr ended =>
      have atEnd : nameEnd = text.length := Nat.le_antisymm bound.2 ended
      rw [scanBracketName, read]
      dsimp only
      rw [if_pos atEnd]
      apply Grows.of_unfinishedName atEnd
      intro nonempty
      have grows := @skipWhile_mono _ isPlainTextToolNameChar text more nameStart inside
      rw [← scanToolNameEnd_eq read] at grows
      dsimp only at nonempty ⊢
      cases @scanBracketName_value (text ++ more) lineBreakOffsets form nameStart (by omega) with
      | inl dropped => exact .inl dropped
      | inr named =>
        obtain ⟨candidate, known, name⟩ := named
        exact .inr ⟨candidate, known, by rw [name], by rw [name]; dsimp only; omega⟩
    | inl stopped =>
      have early : ¬nameEnd = text.length := Nat.ne_of_lt stopped
      have earlier : ¬nameEnd = (text ++ more).length := by
        rw [List.length_append]
        omega
      rw [scanBracketName, read, scanBracketName, scanToolNameEnd_some read stopped]
      dsimp only
      rw [if_neg early, if_neg earlier, List.getElem?_append_left stopped]
      split
      · exact .of_invalid
      · split
        · exact scanBracketLine_grows stopped rfl bound.2
        · exact .of_opened rfl bound.2 stopped (.inl rfl)

theorem scanBracketOpening_grows {start : Nat} (inside : start < text.length) :
    Grows text (scanBracketOpening text start lineBreakOffsets)
      (scanBracketOpening (text ++ more) start lineBreakOffsets) := by
  rcases @literal_cases _ _ text more (units "tool:") (start + 1) inside (by decide) with
    ⟨there, later⟩ | ⟨absent, begun⟩ | ⟨absent, unbegun, absentLater, unbegunLater⟩
  · rw [scanBracketOpening, there, scanBracketOpening, later]
    exact scanBracketName_grows (startsWithAt_bound there (by decide))
  · rw [scanBracketOpening, absent, begun]
    exact .of_unnamed
  · rw [scanBracketOpening, absent, unbegun, scanBracketOpening, absentLater, unbegunLater]
    exact scanBracketName_grows inside

end Bracket

theorem scanJsonUnits_bound (rest : Text) (index : Nat) (state : PlainTextJsonToolCallState) :
    index ≤ (scanJsonUnits rest index state).stop ∧ (scanJsonUnits rest index state).stop ≤ index + rest.length := by
  induction rest generalizing index state with
  | nil => exact ⟨Nat.le_refl _, Nat.le_refl _⟩
  | cons char rest ih =>
    simp only [scanJsonUnits, List.length_cons]
    split
    · dsimp only
      omega
    · have bound := ih (index + 1) (state.read char)
      omega

/-- A brace that closes the object closes it whatever follows. -/
theorem scanJsonUnits_append (rest : Text) (index : Nat) (state : PlainTextJsonToolCallState)
    (finished : (scanJsonUnits rest index state).finished = true) :
    scanJsonUnits (rest ++ more) index state = scanJsonUnits rest index state := by
  induction rest generalizing index state with
  | nil => cases finished
  | cons char rest ih =>
    simp only [scanJsonUnits, List.cons_append] at finished ⊢
    split
    · rfl
    · rename_i goesOn
      rw [if_neg goesOn] at finished
      exact ih (index + 1) (state.read char) finished

section Payload

variable {start : Nat}

theorem scanJsonObject_bound (inside : start ≤ text.length) :
    start ≤ (scanJsonObject text start).stop ∧ (scanJsonObject text start).stop ≤ text.length := by
  have bound := scanJsonUnits_bound (text.drop start) start ⟨0, false, false⟩
  rw [List.length_drop] at bound
  unfold scanJsonObject
  omega

theorem scanJsonObject_append (inside : start ≤ text.length)
    (finished : (scanJsonObject text start).finished = true) :
    scanJsonObject (text ++ more) start = scanJsonObject text start := by
  unfold scanJsonObject at finished ⊢
  rw [List.drop_append_of_le_length inside]
  exact scanJsonUnits_append _ _ _ finished

theorem scanClosing_append {closings : List Text} (inside : start ≤ text.length)
    (nonempty : ∀ closing ∈ closings, closing ≠ [])
    (decided : scanClosing text start closings ≠ .begun) :
    scanClosing (text ++ more) start closings = scanClosing text start closings := by
  induction closings with
  | nil => rfl
  | cons closing others ih =>
    rcases @literal_cases _ _ text more closing start inside (nonempty closing (by simp)) with
      ⟨there, later⟩ | ⟨absent, begun⟩ | ⟨absent, unbegun, absentLater, unbegunLater⟩
    · rw [scanClosing, later, scanClosing, there]
      rfl
    · rw [scanClosing, absent, begun] at decided
      exact absurd rfl decided
    · rw [scanClosing, absent, unbegun] at decided
      rw [scanClosing, absentLater, unbegunLater, scanClosing, absent, unbegun]
      exact ih (fun closing inside => nonempty closing (List.mem_cons_of_mem _ inside)) decided

theorem scanJsonClosing_value {payload : Span} {state : PlainTextJsonToolCallState} :
    (scanJsonClosing text value payload state).value = some ⟨value.name, value.nameComplete, some payload⟩ := by
  unfold scanJsonClosing
  dsimp only
  split
  · split
    · rfl
    · split <;> rfl
  · split
    · rfl
    · split <;> rfl

theorem scanJsonPayload_value {cursor : Nat} : ∃ payload, (scanJsonPayload text cursor value).value =
      some ⟨value.name, value.nameComplete, payload⟩ := by
  unfold scanJsonPayload
  dsimp only
  split
  · exact ⟨_, rfl⟩
  · split
    · exact ⟨_, rfl⟩
    · split
      · exact ⟨_, rfl⟩
      · exact ⟨_, scanJsonClosing_value⟩

end Payload

/-- How the scan of a longer text relates to the scan of the text before. -/
structure JsonGrows (text : Text) (before after : PlainTextJsonToolCallScan) : Prop where
  invalid : ∀ at_ candidate, before = .invalid at_ candidate → after = before
  named : NameRetained text before.value after.value after.isUnfinished
  complete : ∀ value payload stop, before = .complete value payload stop → payload.stop ≤ text.length ∧
      ((∃ stop', after = .complete value payload stop') ∨
        (after.isUnfinished = true ∧ value.form ≠ .namedBracket ∧ stop = payload.stop ∧
          skipWhitespace text stop = text.length))

namespace JsonGrows

theorem of_unfinished {candidate : Option PlainTextJsonToolCallCandidate}
    {after : PlainTextJsonToolCallScan}
    (named : NameRetained text (PlainTextJsonToolCallScan.unfinished candidate).value after.value
      after.isUnfinished) : JsonGrows text (.unfinished candidate) after where
  invalid := fun _ _ same => by cases same
  named := named
  complete := fun _ _ _ same => by cases same

theorem of_invalid {at_ : Nat} {candidate : Option PlainTextJsonToolCallCandidate}
    (named : NameRetained text (PlainTextJsonToolCallScan.invalid at_ candidate).value
      (PlainTextJsonToolCallScan.invalid at_ candidate).value false) :
    JsonGrows text (.invalid at_ candidate) (.invalid at_ candidate) where
  invalid := fun _ _ _ => rfl
  named := named
  complete := fun _ _ _ same => by cases same

theorem of_complete {payload : Span} {stop stop' : Nat}
    (finished : value.nameComplete = true) (named : value.name.stop ≤ text.length)
    (inside : payload.stop ≤ text.length) :
    JsonGrows text (.complete value payload stop) (.complete value payload stop') where
  invalid := fun _ _ same => by cases same
  named := .of_finished rfl finished named finished
  complete := fun _ _ _ same => by
    cases same
    exact ⟨inside, .inl ⟨stop', rfl⟩⟩

end JsonGrows

theorem nameClosing_append {name : Span} (inside : name.stop ≤ text.length) :
    nameClosing (text ++ more) name = nameClosing text name := by
  unfold nameClosing Span.of
  rw [slice_append inside]

theorem nameClosing_nonempty {name : Span} : nameClosing text name ≠ [] := by
  unfold nameClosing
  exact List.append_ne_nil_of_right_ne_nil _ (by decide)

theorem JsonGrows.of_begun {candidate : PlainTextJsonToolCallCandidate}
    {after : PlainTextJsonToolCallScan} {payload : Option Span}
    (finished : candidate.nameComplete = true) (named : candidate.name.stop ≤ text.length)
    (later : after.value = some ⟨candidate.name, candidate.nameComplete, payload⟩) :
    JsonGrows text (.unfinished (some candidate)) after := by
  apply JsonGrows.of_unfinished
  rw [later]
  exact .of_finished rfl finished named finished

theorem scanJsonClosing_optional {payload : Span} {state : PlainTextJsonToolCallState}
    (inside : payload.stop ≤ text.length) (finished : value.nameComplete = true)
    (named : value.name.stop ≤ text.length) (form : ¬value.form = .namedBracket)
    (atEnd : skipWhitespace text payload.stop = text.length) :
    JsonGrows text (.complete { value with payload := some payload } payload payload.stop)
      (scanJsonClosing (text ++ more) value payload state) := by
  unfold scanJsonClosing
  dsimp only
  rw [if_neg form]
  split
  · exact .of_complete finished named inside
  · split
    · exact .of_complete finished named inside
    · refine ⟨fun _ _ same => (by cases same), .of_finished rfl finished named finished, ?_⟩
      intro _ _ _ same
      cases same
      exact ⟨inside, .inr ⟨rfl, form, rfl, atEnd⟩⟩
    · exact .of_complete finished named inside

theorem scanJsonClosing_grows {payload : Span} {state : PlainTextJsonToolCallState}
    (inside : payload.stop ≤ text.length) (finished : value.nameComplete = true)
    (named : value.name.stop ≤ text.length) :
    JsonGrows text (scanJsonClosing text value payload state)
      (scanJsonClosing (text ++ more) value payload state) := by
  have within : skipWhitespace text payload.stop ≤ text.length := skipWhile_le inside
  have nonempty : ∀ name, ∀ closing ∈ [HARMONY_CALL_MARKER, END_TOOL_REQUEST, nameClosing text name],
      closing ≠ [] := by
    intro name closing known
    simp only [List.mem_cons, List.not_mem_nil, or_false] at known
    rcases known with rfl | rfl | rfl
    · decide
    · decide
    · exact nameClosing_nonempty
  cases Nat.lt_or_ge (skipWhitespace text payload.stop) text.length with
  | inr ended =>
    have atEnd := Nat.le_antisymm within ended
    cases form : decide (value.form = .namedBracket) with
    | true =>
      rw [scanJsonClosing, if_pos (of_decide_eq_true form), if_pos atEnd]
      exact .of_begun finished named scanJsonClosing_value
    | false =>
      have form : ¬value.form = .namedBracket := of_decide_eq_false form
      rw [scanJsonClosing, if_neg form, if_pos atEnd]
      exact scanJsonClosing_optional inside finished named form atEnd
  | inl stopped =>
    have same : skipWhitespace (text ++ more) payload.stop = skipWhitespace text payload.stop :=
      skipWhile_append stopped
    have early : ¬skipWhitespace text payload.stop = text.length := Nat.ne_of_lt stopped
    have earlier : ¬skipWhitespace text payload.stop = (text ++ more).length := by
      rw [List.length_append]
      omega
    cases form : decide (value.form = .namedBracket) with
    | true =>
      have form := of_decide_eq_true form
      cases closing : scanClosing text (skipWhitespace text payload.stop)
          [END_TOOL_REQUEST, nameClosing text value.name] with
      | begun =>
        rw [scanJsonClosing, if_pos form, if_neg early, closing]
        exact .of_begun finished named scanJsonClosing_value
      | found stop =>
        have later := @scanClosing_append text more _ _ within
          (fun other known => nonempty value.name other (List.mem_cons_of_mem _ known))
          (by rw [closing]; exact ClosingScan.noConfusion)
        rw [scanJsonClosing, if_pos form, if_neg early, closing, scanJsonClosing, same,
          if_pos form, if_neg earlier, nameClosing_append named, later, closing]
        exact .of_complete finished named inside
      | missing =>
        have later := @scanClosing_append text more _ _ within
          (fun other known => nonempty value.name other (List.mem_cons_of_mem _ known))
          (by rw [closing]; exact ClosingScan.noConfusion)
        rw [scanJsonClosing, if_pos form, if_neg early, closing, scanJsonClosing, same,
          if_pos form, if_neg earlier, nameClosing_append named, later, closing]
        exact .of_invalid (.of_finished rfl finished named finished)
    | false =>
      have form : ¬value.form = .namedBracket := of_decide_eq_false form
      cases closing : scanClosing text (skipWhitespace text payload.stop)
          [HARMONY_CALL_MARKER, END_TOOL_REQUEST, nameClosing text value.name] with
      | begun =>
        rw [scanJsonClosing, if_neg form, if_neg early, closing]
        exact .of_begun finished named scanJsonClosing_value
      | found stop =>
        have later := @scanClosing_append text more _ _ within (nonempty value.name)
          (by rw [closing]; exact ClosingScan.noConfusion)
        rw [scanJsonClosing, if_neg form, if_neg early, closing, scanJsonClosing, same,
          if_neg form, if_neg earlier, nameClosing_append named, later, closing]
        exact .of_complete finished named inside
      | missing =>
        have later := @scanClosing_append text more _ _ within (nonempty value.name)
          (by rw [closing]; exact ClosingScan.noConfusion)
        rw [scanJsonClosing, if_neg form, if_neg early, closing, scanJsonClosing, same,
          if_neg form, if_neg earlier, nameClosing_append named, later, closing]
        exact .of_complete finished named inside

theorem scanJsonPayload_grows {cursor cursor' : Nat} (inside : cursor ≤ text.length)
    (still : cursor' = cursor ∨ skipWhitespace text cursor = text.length)
    (finished : value.nameComplete = true) (named : value.name.stop ≤ text.length) :
    JsonGrows text (scanJsonPayload text cursor value) (scanJsonPayload (text ++ more) cursor' value) := by
  obtain ⟨laterPayload, later⟩ := @scanJsonPayload_value (text ++ more) value cursor'
  have within : skipWhitespace text cursor ≤ text.length := skipWhile_le inside
  cases Nat.lt_or_ge (skipWhitespace text cursor) text.length with
  | inr ended =>
    rw [scanJsonPayload, if_pos (Nat.le_antisymm within ended)]
    exact .of_begun finished named later
  | inl stopped =>
    have same : skipWhitespace (text ++ more) cursor' = skipWhitespace text cursor := by
      cases still with
      | inl unmoved =>
        rw [unmoved]
        exact skipWhile_append stopped
      | inr atEnd => omega
    have early : ¬skipWhitespace text cursor = text.length := Nat.ne_of_lt stopped
    have earlier : ¬skipWhitespace text cursor = (text ++ more).length := by
      rw [List.length_append]
      omega
    rw [scanJsonPayload, if_neg early]
    split
    · rename_i brace
      rw [scanJsonPayload, same, if_neg earlier, List.getElem?_append_left stopped, if_pos brace]
      exact .of_invalid (.of_finished rfl finished named finished)
    · rename_i brace
      have bound := scanJsonObject_bound within
      dsimp only
      split
      · exact .of_begun finished named later
      · rename_i closed
        have whole := eq_true_of_ne_false closed
        have object := @scanJsonObject_append text more _ within whole
        rw [scanJsonPayload, same, if_neg earlier, List.getElem?_append_left stopped,
          if_neg brace, object, if_neg closed]
        exact scanJsonClosing_grows bound.2 finished named

theorem JsonGrows.of_opening {before after : PlainTextJsonToolCallOpeningScan}
    (grows : Grows text before after) : JsonGrows text (before.scan text) (after.scan (text ++ more)) := by
  cases before with
  | opened cursor value =>
    obtain ⟨finished, named, inside, cursor', later, still⟩ := grows.opened cursor value rfl
    rw [later]
    exact scanJsonPayload_grows inside still finished named
  | stopped scan =>
    cases scan with
    | invalid at_ candidate =>
      have retained := grows.named
      rw [grows.invalid at_ candidate rfl] at retained ⊢
      exact .of_invalid retained
    | complete value payload stop => exact absurd rfl (grows.proper value payload stop)
    | unfinished candidate =>
      apply JsonGrows.of_unfinished
      have retained := grows.named
      cases after with
      | stopped later => exact retained
      | opened cursor value =>
        intro known same
        obtain ⟨payload, later⟩ := @scanJsonPayload_value (text ++ more) value cursor
        cases retained known same with
        | inr dropped => cases dropped.1
        | inl kept =>
          obtain ⟨named, opened, extended⟩ := kept
          cases opened
          exact .inl ⟨_, later, extended.start, extended.finished, extended.growing⟩

theorem scanHarmonyOpening_end : scanHarmonyOpening text text.length = .stopped (.unfinished none) := by
  rw [scanHarmonyOpening, startsWithAt_end (by decide), isPrefixAt_end (by decide)]
  rfl

theorem scanPlainTextJsonToolCall_grows {start : Nat} {lineBreakOffsets : List Nat} (inside : start ≤ text.length) :
    JsonGrows text (scanPlainTextJsonToolCall text start lineBreakOffsets)
      (scanPlainTextJsonToolCall (text ++ more) start lineBreakOffsets) := by
  cases Nat.lt_or_ge start text.length with
  | inr ended =>
    have atEnd := Nat.le_antisymm inside ended
    subst atEnd
    have outside : ¬text[text.length]? = some '['.toNat := by simp
    rw [scanPlainTextJsonToolCall, if_neg outside, scanHarmonyOpening_end]
    exact .of_unfinished .of_none
  | inl before =>
    rw [scanPlainTextJsonToolCall, scanPlainTextJsonToolCall, List.getElem?_append_left before]
    split
    · exact .of_opening (scanBracketOpening_grows before)
    · exact .of_opening (scanHarmonyOpening_grows inside)

end Json

end ToolCallRepair
