import PlatformClaw.Approvals.SafeBins

/-! # What the validator of safe binaries admits

The validator walks over the arguments token by token, with a table of the beginnings of the long flags. The binary
reads them as `getopt_long` does. Whatever the validator admits reads as options of the profile that are not denied,
with harmless values and operands.
-/

namespace PlatformClaw.Approvals

open ScriptText GetOpt

/-- Which flag was entered under which of its beginnings. -/
def begunBy (knownLongFlags : List Text) : List (Text × Text) :=
  knownLongFlags.flatMap fun flag =>
    if ¬ startsWith flag (lit "--") ∨ flag.length ≤ 2 then []
    else (List.range' 3 (flag.length - 2)).map fun length => (flag, flag.take length)

/-- A text without an entry begins no flag, and the flag of an entry is the only one it begins. -/
structure Tells (entered : List (Text × Text)) (map : Text → Option (Option Text)) : Prop where
  absent : ∀ begun, map begun = none → ∀ flag, (flag, begun) ∉ entered
  only : ∀ begun flag, map begun = some (some flag) →
    (flag, begun) ∈ entered ∧ ∀ other, (other, begun) ∈ entered → other = flag

theorem addBeginning_of_ne {map : Text → Option (Option Text)} {flag begun text : Text} (apart : text ≠ begun) :
    addBeginning map flag begun text = map text := by
  unfold addBeginning
  cases map begun with
  | none => exact Function.update_of_ne apart _ _
  | some existing =>
    by_cases same : existing = some flag
    · simp [same]
    · simp [same, apart]

theorem addBeginning_self {map : Text → Option (Option Text)} {flag begun : Text} :
    addBeginning map flag begun begun =
      some (if map begun = none ∨ map begun = some (some flag) then some flag else none) := by
  unfold addBeginning
  cases taken : map begun with
  | none => simp
  | some existing =>
    by_cases same : existing = some flag
    · simp [same, taken]
    · simp [same]

theorem Tells.add {entered : List (Text × Text)} {map : Text → Option (Option Text)} (tells : Tells entered map)
    (flag begun : Text) : Tells (entered ++ [(flag, begun)]) (addBeginning map flag begun) where
  absent := by
    intro text none other
    by_cases same : text = begun
    · rw [same, addBeginning_self] at none
      cases none
    · rw [addBeginning_of_ne same] at none
      simp [tells.absent text none other, same]
  only := by
    intro text found entry
    by_cases same : text = begun
    · subst same
      rw [addBeginning_self, Option.some_inj] at entry
      split at entry
      · rename_i alone
        cases entry
        refine ⟨List.mem_append_right _ List.mem_cons_self, fun other among => ?_⟩
        rcases List.mem_append.mp among with old | new
        · rcases alone with free | taken
          · exact absurd old (tells.absent text free other)
          · exact (tells.only text flag taken).2 other old
        · exact (Prod.mk.inj (List.mem_singleton.mp new)).1
      · cases entry
    · rw [addBeginning_of_ne same] at entry
      simpa [same] using tells.only text found entry

theorem buildLongFlagPrefixMap_eq (knownLongFlags : List Text) : buildLongFlagPrefixMap knownLongFlags =
    (begunBy knownLongFlags).foldl (fun map entry => addBeginning map entry.1 entry.2) fun _ => none := by
  rw [begunBy, List.foldl_flatMap, buildLongFlagPrefixMap]
  congr 1
  funext map flag
  split
  · rfl
  · rw [List.foldl_map]

theorem tells_buildLongFlagPrefixMap (knownLongFlags : List Text) :
    Tells (begunBy knownLongFlags) (buildLongFlagPrefixMap knownLongFlags) := by
  have fold : ∀ (entries entered : List (Text × Text)) (map : Text → Option (Option Text)), Tells entered map →
      Tells (entered ++ entries) (entries.foldl (fun map entry => addBeginning map entry.1 entry.2) map) := by
    intro entries
    induction entries with
    | nil =>
      intro entered map tells
      simpa using tells
    | cons first rest ih =>
      intro entered map tells
      simpa using ih _ _ (tells.add first.1 first.2)
  rw [buildLongFlagPrefixMap_eq]
  exact fold _ [] _ ⟨fun _ _ _ => List.not_mem_nil, fun _ _ impossible => nomatch impossible⟩

theorem mem_begunBy {knownLongFlags : List Text} {flag begun : Text} : (flag, begun) ∈ begunBy knownLongFlags ↔
    flag ∈ knownLongFlags ∧ startsWith flag (lit "--") = true ∧ begun <+: flag ∧ 2 < begun.length := by
  simp only [begunBy, List.mem_flatMap]
  constructor
  · rintro ⟨known, inList, entered⟩
    split at entered
    · cases entered
    · rename_i long
      obtain ⟨length, range, same⟩ := List.mem_map.mp entered
      cases same
      rw [List.mem_range'_1] at range
      simp only [not_or, not_not, Nat.not_le] at long
      refine ⟨inList, long.1, List.take_prefix _ _, ?_⟩
      rw [List.length_take]
      omega
  · rintro ⟨inList, starts, begins, long⟩
    have bound := begins.length_le
    refine ⟨flag, inList, ?_⟩
    rw [if_neg (by simp [starts]; omega)]
    refine List.mem_map.mpr ⟨begun.length, List.mem_range'_1.mpr (by omega), ?_⟩
    rw [← List.prefix_iff_eq_take.mp begins]

section Fixture

variable (fixture : BuiltinSafeBinProfileFixture) (arity : Text → Bool)

/-- The options of the binary: those of the fixture. Whether a denied one takes a value is left open. -/
def optionTable : OptionTable Nat where
  dash := '-'.toNat
  equals := '='.toNat
  flags := fixture.allowedValueFlags.getD [] ++ fixture.allowedBooleanFlags.getD [] ++ fixture.deniedFlags.getD []
  takesValue flag :=
    if (fixture.allowedValueFlags.getD []).contains flag then true
    else if (fixture.allowedBooleanFlags.getD []).contains flag then false
    else arity flag

def Admitted (flag : Text) : Prop :=
  (flag ∈ fixture.allowedValueFlags.getD [] ∨ flag ∈ fixture.allowedBooleanFlags.getD []) ∧
    flag ∉ fixture.deniedFlags.getD []

/-- No glob, no expansion and no path. -/
structure Harmless (text : Text) : Prop where
  glob : hasGlobToken text = false
  expansion : hasShellExpansionToken text = false
  path : isPathLikeToken text = false

def Admissible : Item Nat → Prop
  | .option flag value => Admitted fixture flag ∧ ∀ text, value = some text → Harmless text
  | .operand text => Harmless text

/-- An operand that counts: neither empty nor the standard input. -/
def counts (text : Text) : Bool := text ≠ [] ∧ text ≠ lit "-"

end Fixture

section Validator

variable {fixture : BuiltinSafeBinProfileFixture} {arity : Text → Bool} {flag : Text}

theorem Admitted.listed (admitted : Admitted fixture flag) : flag ∈ (optionTable fixture arity).flags :=
  List.mem_append_left _ (List.mem_append.mpr admitted.1)

theorem Admitted.without_value (admitted : Admitted fixture flag) (arity : Text → Bool)
    (plain : flag ∉ fixture.allowedValueFlags.getD []) : (optionTable fixture arity).takesValue flag = false :=
  (if_neg (mt List.contains_iff_mem.mp plain)).trans
    (if_pos (List.contains_iff_mem.mpr (admitted.1.resolve_left plain)))

theorem Harmless.of_safe {text : Text} (safe : isSafeLiteralToken text = true) : Harmless text := by
  unfold isSafeLiteralToken at safe
  split at safe
  · rename_i plain
    rcases plain with rfl | rfl
    · exact ⟨by decide, by decide, by decide⟩
    · exact ⟨by decide, by decide, by decide⟩
  · simp only [Bool.and_eq_true, Bool.not_eq_true'] at safe
    exact ⟨safe.1.1, safe.1.2, safe.2⟩

theorem Harmless.of_valid {following : List Text} (valid : isInvalidValueToken following.head? = false) :
    ∃ value, following.head? = some value ∧ Harmless value := by
  cases following with
  | nil => cases valid
  | cons value rest =>
    simp only [List.head?_cons, isInvalidValueToken, Bool.or_eq_false_iff, Bool.not_eq_false'] at valid
    exact ⟨value, rfl, .of_safe valid.2⟩

theorem contains_allowedValueFlags : (compileSafeBinProfile fixture).flags.allowedValueFlags.contains flag = true ↔
    flag ∈ fixture.allowedValueFlags.getD [] := List.contains_iff_mem.trans List.mem_eraseDups

theorem contains_allowedBooleanFlags : (compileSafeBinProfile fixture).flags.allowedBooleanFlags.contains flag = true ↔
    flag ∈ fixture.allowedBooleanFlags.getD [] := List.contains_iff_mem.trans List.mem_eraseDups

theorem contains_deniedFlags : (compileSafeBinProfile fixture).flags.deniedFlags.contains flag = true ↔
    flag ∈ fixture.deniedFlags.getD [] := List.contains_iff_mem.trans List.mem_eraseDups

theorem mem_collectKnownLongFlags {values denied booleans : List Text} :
    flag ∈ collectKnownLongFlags values denied booleans ↔
      ((flag ∈ values ∨ flag ∈ booleans) ∨ flag ∈ denied) ∧ startsWith flag (lit "--") = true := by
  rw [collectKnownLongFlags, List.mem_eraseDups, List.mem_filter, List.mem_append, List.mem_append]

/-- The long flags of the binary are the known ones that have a name. -/
theorem mem_longFlags_iff : flag ∈ (optionTable fixture arity).longFlags ↔
    flag ∈ collectKnownLongFlags (toFlagSet fixture.allowedValueFlags) (toFlagSet fixture.deniedFlags)
      (toFlagSet fixture.allowedBooleanFlags) ∧ 2 < flag.length := by
  simp only [OptionTable.mem_longFlags, optionTable, mem_collectKnownLongFlags, toFlagSet, List.mem_eraseDups,
    List.mem_append, startsWith, List.isPrefixOf_iff_prefix, and_assoc]
  rfl

/-- The validator takes a name for the flag that the binary takes it for. -/
theorem resolveCanonicalLongFlag_resolves {name : Text}
    (found : resolveCanonicalLongFlag (compileSafeBinProfile fixture).flags name = some flag) :
    (optionTable fixture arity).resolve name = some flag ∧
      flag ∈ (optionTable fixture arity).flags := by
  have listed : ∀ {known}, known ∈ (optionTable fixture arity).longFlags →
      known ∈ (optionTable fixture arity).flags := fun long => (OptionTable.mem_longFlags.mp long).1
  unfold resolveCanonicalLongFlag at found
  split at found
  · cases found
  · rename_i named
    simp only [not_or, not_not, Nat.not_le] at named
    split at found
    · rename_i known
      cases found
      have long : flag ∈ (optionTable fixture arity).longFlags :=
        mem_longFlags_iff.mpr ⟨List.mem_eraseDups.mp (List.contains_iff_mem.mp known), named.2⟩
      exact ⟨OptionTable.resolve_exact long, listed long⟩
    · have entry : (compileSafeBinProfile fixture).flags.longFlagPrefixMap name = some (some flag) := by
        cases entry : (compileSafeBinProfile fixture).flags.longFlagPrefixMap name with
        | none => simp [entry] at found
        | some found' => simpa [entry] using found
      obtain ⟨begun, only⟩ := (tells_buildLongFlagPrefixMap _).only name flag entry
      obtain ⟨known, -, begins, -⟩ := mem_begunBy.mp begun
      have long : flag ∈ (optionTable fixture arity).longFlags :=
        mem_longFlags_iff.mpr ⟨known, Nat.lt_of_lt_of_le named.2 begins.length_le⟩
      refine ⟨OptionTable.resolve_only long begins fun other inTable starts => ?_, listed long⟩
      have known' := (mem_longFlags_iff.mp inTable).1
      exact only other (mem_begunBy.mpr ⟨known', (mem_collectKnownLongFlags.mp known').2, starts, named.2⟩)

/-- A token that is consumed with `taken` of the arguments behind it reads as admissible options, of which the last
one waits for its value if one argument is taken. -/
structure Consumed (fixture : BuiltinSafeBinProfileFixture) (following : List Text) (taken : Nat)
    (items : List (Item Nat)) (waiting : Option Text) : Prop where
  admissible : ∀ item ∈ items, Admissible fixture item
  noOperands : operands items = []
  behind : (taken = 0 ∧ waiting = none) ∨ (taken = 1 ∧ ∃ flag, waiting = some flag ∧ Admitted fixture flag ∧
    ∃ value, following.head? = some value ∧ Harmless value)

variable {following : List Text} {taken : Nat}

theorem Consumed.alone {value : Option Text} (admitted : Admitted fixture flag)
    (harmless : ∀ text, value = some text → Harmless text) :
    Consumed fixture following 0 [.option flag value] none where
  admissible := by
    intro item only
    rw [List.mem_singleton.mp only]
    exact ⟨admitted, harmless⟩
  noOperands := rfl
  behind := .inl ⟨rfl, rfl⟩

theorem Consumed.waits (admitted : Admitted fixture flag) (valid : isInvalidValueToken following.head? = false) :
    Consumed fixture following 1 [] (some flag) where
  admissible := fun _ impossible => nomatch impossible
  noOperands := rfl
  behind := .inr ⟨rfl, flag, rfl, admitted, Harmless.of_valid valid⟩

theorem consumeLongOptionToken_reads {arg : Text} {inlineValue : Option Text}
    (inline : inlineValue = if '='.toNat ∈ arg then some (arg.dropWhile (· ≠ '='.toNat)).tail else none)
    (consumed : consumeLongOptionToken (compileSafeBinProfile fixture).flags following
      (arg.takeWhile (· ≠ '='.toNat)) inlineValue = some taken) :
    ∃ items waiting, (optionTable fixture arity).readLong arg = some (items, waiting) ∧
      Consumed fixture following taken items waiting := by
  unfold consumeLongOptionToken at consumed
  split at consumed
  · cases consumed
  · rename_i canonicalFlag resolved
    obtain ⟨resolves, listed⟩ := @resolveCanonicalLongFlag_resolves fixture arity _ _ resolved
    split at consumed
    · cases consumed
    · rename_i allowed
      rw [contains_deniedFlags] at allowed
      have admitted : Admitted fixture canonicalFlag := by
        refine ⟨?_, allowed⟩
        simpa [optionTable, allowed] using listed
      by_cases value : canonicalFlag ∈ fixture.allowedValueFlags.getD []
      · have expects := contains_allowedValueFlags.mpr value
        have takes : (optionTable fixture arity).takesValue canonicalFlag = true :=
          if_pos (List.contains_iff_mem.mpr value)
        by_cases attached : '='.toNat ∈ arg
        · rw [if_pos attached] at inline
          simp only [inline, expects, Bool.not_true, Bool.false_eq_true, if_false] at consumed
          split at consumed
          · rename_i safe
            cases consumed
            refine ⟨_, _, OptionTable.readLong_attached resolves attached takes, .alone admitted ?_⟩
            rintro text ⟨⟩
            exact .of_safe safe
          · cases consumed
        · rw [if_neg attached] at inline
          simp only [inline, expects, Bool.not_true, Bool.false_eq_true, if_false] at consumed
          split at consumed
          · cases consumed
          · rename_i valid
            cases consumed
            exact ⟨_, _, OptionTable.readLong_awaited resolves attached takes,
              .waits admitted (by simpa using valid)⟩
      · have expects := Bool.eq_false_iff.mpr (mt contains_allowedValueFlags.mp value)
        have without := admitted.without_value arity value
        by_cases attached : '='.toNat ∈ arg
        · rw [if_pos attached] at inline
          simp only [inline, expects, Bool.not_false, if_true] at consumed
          cases consumed
        · rw [if_neg attached] at inline
          simp only [inline, expects, Bool.not_false, if_true] at consumed
          cases consumed
          exact ⟨_, _, OptionTable.readLong_plain resolves attached without,
            .alone admitted fun _ impossible => nomatch impossible⟩

theorem consumeShortOptionClusterToken_reads {cluster letters : Text} {j : Nat} (rest : cluster.drop j = letters)
    (consumed : consumeShortOptionClusterToken (compileSafeBinProfile fixture).flags following cluster j
      (letters.map fun entry => lit "-" ++ [entry]) = some taken) :
    ∃ items waiting, (optionTable fixture arity).readCluster letters = some (items, waiting) ∧
      Consumed fixture following taken items waiting := by
  induction letters generalizing j with
  | nil =>
    cases consumed
    exact ⟨[], none, rfl, ⟨List.forall_mem_nil _, rfl, .inl ⟨rfl, rfl⟩⟩⟩
  | cons letter others ih =>
    have inlineValue : cluster.drop (j + 1) = others := by
      rw [← List.drop_drop, rest]
      rfl
    obtain ⟨flag, named⟩ : ∃ flag, flag = lit "-" ++ [letter] := ⟨_, rfl⟩
    simp only [List.map_cons, consumeShortOptionClusterToken, contains_deniedFlags, contains_allowedValueFlags,
      contains_allowedBooleanFlags, inlineValue, ← named] at consumed
    split at consumed
    · cases consumed
    · rename_i allowed
      split at consumed
      · rename_i value
        have admitted : Admitted fixture flag := ⟨.inl value, allowed⟩
        have reading := @OptionTable.readCluster_value _ flag _ (optionTable fixture arity) letter others
          named admitted.listed (if_pos (List.contains_iff_mem.mpr value))
        rw [reading]
        split at consumed
        · rename_i attached
          split at consumed
          · rename_i safe
            cases consumed
            refine ⟨_, _, if_neg attached, .alone admitted ?_⟩
            rintro text ⟨⟩
            exact .of_safe safe
          · cases consumed
        · rename_i nothing
          split at consumed
          · cases consumed
          · rename_i valid
            cases consumed
            exact ⟨_, _, if_pos (not_not.mp nothing), .waits admitted (by simpa using valid)⟩
      · rename_i plain
        split at consumed
        · rename_i boolean
          have admitted : Admitted fixture flag := ⟨.inr boolean, allowed⟩
          obtain ⟨items, waiting, read, sound⟩ := ih inlineValue consumed
          have reading := OptionTable.readCluster_plain named admitted.listed (admitted.without_value arity plain) read
          refine ⟨_, _, reading, ?_, sound.noOperands, sound.behind⟩
          intro item among
          rcases List.mem_cons.mp among with rfl | later
          · exact ⟨admitted, fun _ impossible => nomatch impossible⟩
          · exact sound.admissible item later
        · cases consumed

/-- What the arguments read as, behind an option that may wait: admissible items, of which `counted` count. -/
def Reads (fixture : BuiltinSafeBinProfileFixture) (arity : Text → Bool) (waiting : Option Text)
    (args counted : List Text) : Prop :=
  ∃ items, (optionTable fixture arity).read waiting args = some items ∧
    (∀ item ∈ items, Admissible fixture item) ∧ (operands items).filter counts = counted

theorem counts_of_harmless {text : Text} (counted : ¬ (text = [] ∨ text = lit "-")) : counts text = true := by
  simpa [counts] using counted

theorem consumePositionalToken_ok {token : Text} {positional collected : List Text}
    (done : consumePositionalToken token positional = some collected) :
    Harmless token ∧ collected = positional ++ [token] := by
  unfold consumePositionalToken at done
  split at done
  · rename_i safe
    cases done
    exact ⟨.of_safe safe, rfl⟩
  · cases done

theorem Harmless.of_skipped {text : Text} (skipped : text = [] ∨ text = lit "-") : Harmless text := by
  apply Harmless.of_safe
  exact if_pos skipped

theorem collectRest_reads {positional collected rest : List Text} (done : collectRest positional rest = some collected) :
    (∀ text ∈ rest, Harmless text) ∧ collected = positional ++ rest.filter counts := by
  induction rest generalizing positional with
  | nil =>
    cases done
    exact ⟨List.forall_mem_nil _, (List.append_nil _).symm⟩
  | cons first others ih =>
    unfold collectRest at done
    split at done
    · rename_i skipped
      obtain ⟨harmless, same⟩ := ih done
      have not : counts first = false := by
        rcases skipped with rfl | rfl
        · rfl
        · rfl
      exact ⟨List.forall_mem_cons.mpr ⟨.of_skipped skipped, harmless⟩, by simp [same, not]⟩
    · rename_i counted
      obtain ⟨more, consumed, done⟩ := Option.bind_eq_some_iff.mp done
      obtain ⟨safe, rfl⟩ := consumePositionalToken_ok consumed
      obtain ⟨harmless, same⟩ := ih done
      exact ⟨List.forall_mem_cons.mpr ⟨safe, harmless⟩, by simp [same, counts_of_harmless counted]⟩

theorem Reads.operand {text : Text} {others counted : List Text} (harmless : Harmless text)
    (goesOn : text ≠ lit "--") (plain : ¬ startsWith text (lit "-") ∨ text = lit "-")
    (later : Reads fixture arity none others counted) :
    Reads fixture arity none (text :: others) ([text].filter counts ++ counted) := by
  obtain ⟨items, read, admissible, rfl⟩ := later
  have now : (optionTable fixture arity).readArgument text = some ([.operand text], none) := by
    rcases plain with begins | rfl
    · cases text with
      | nil => rfl
      | cons first rest =>
        have apart : 45 ≠ first := by
          rintro rfl
          exact begins rfl
        have long : ¬ [45, 45].isPrefixOf (first :: rest) = true := by simp [apart]
        exact (if_neg long).trans (if_neg fun both => apart (Option.some.inj both.1).symm)
    · rfl
  refine ⟨_, OptionTable.read_argument goesOn now read, List.forall_mem_cons.mpr ⟨harmless, admissible⟩, ?_⟩
  rw [operands_append, List.filter_append]
  rfl

theorem Reads.skipped {text : Text} {others counted : List Text} (skipped : text = [] ∨ text = lit "-")
    (later : Reads fixture arity none others counted) :
    Reads fixture arity none (text :: others) counted := by
  rcases skipped with rfl | rfl
  · exact later.operand (.of_skipped (.inl rfl)) (by decide) (.inl (by decide))
  · exact later.operand (.of_skipped (.inr rfl)) (by decide) (.inr rfl)

theorem Reads.terminated {others : List Text} (harmless : ∀ text ∈ others, Harmless text) :
    Reads fixture arity none (lit "--" :: others) (others.filter counts) := by
  refine ⟨others.map .operand, if_pos rfl, ?_, congrArg (List.filter counts) (operands_map others)⟩
  intro item among
  obtain ⟨text, listed, rfl⟩ := List.mem_map.mp among
  exact harmless text listed

theorem Reads.token {arg : Text} {others counted : List Text} {items : List (Item Nat)} {waiting : Option Text}
    (goesOn : arg ≠ lit "--") (now : (optionTable fixture arity).readArgument arg = some (items, waiting))
    (consumed : Consumed fixture others taken items waiting)
    (later : Reads fixture arity waiting others counted) :
    Reads fixture arity none (arg :: others) counted := by
  obtain ⟨more, read, admissible, rfl⟩ := later
  refine ⟨_, OptionTable.read_argument goesOn now read, ?_, ?_⟩
  · exact fun item among => (List.mem_append.mp among).elim (consumed.admissible item) (admissible item)
  · rw [operands_append, consumed.noOperands, List.nil_append]

theorem Reads.value {flag value : Text} {others counted : List Text} (admitted : Admitted fixture flag)
    (harmless : Harmless value) (later : Reads fixture arity none others counted) :
    Reads fixture arity (some flag) (value :: others) counted := by
  obtain ⟨items, read, admissible, rfl⟩ := later
  refine ⟨_, OptionTable.read_value read, List.forall_mem_cons.mpr ⟨⟨admitted, ?_⟩, admissible⟩, rfl⟩
  rintro text ⟨⟩
  exact harmless

theorem take_idxOf (text : Text) (unit : Nat) : text.take (text.idxOf unit) = text.takeWhile (· ≠ unit) := by
  induction text with
  | nil => rfl
  | cons first rest ih =>
    by_cases same : first = unit
    · simp [same]
    · simp [same, List.idxOf_cons_ne, ih]

theorem drop_idxOf (text : Text) (unit : Nat) : text.drop (text.idxOf unit) = text.dropWhile (· ≠ unit) := by
  induction text with
  | nil => rfl
  | cons first rest ih =>
    by_cases same : first = unit
    · simp [same]
    · simp [same, List.idxOf_cons_ne, ih]

/-- A long option is cut at its first equals sign. -/
theorem cut_at_equals {raw : Text} (begins : startsWith raw (lit "-") = true) :
    (if 0 < raw.idxOf '='.toNat ∧ raw.idxOf '='.toNat < raw.length then
      ExecArgvToken.long (raw.take (raw.idxOf '='.toNat)) (some (raw.drop (raw.idxOf '='.toNat + 1)))
    else .long raw none) =
      .long (raw.takeWhile (· ≠ '='.toNat))
        (if '='.toNat ∈ raw then some (raw.dropWhile (· ≠ '='.toNat)).tail else none) := by
  have behind : 0 < raw.idxOf '='.toNat := by
    obtain ⟨rest, rfl⟩ := List.isPrefixOf_iff_prefix.mp begins
    show 0 < (45 :: rest).idxOf 61
    simp [List.idxOf_cons_ne]
  by_cases attached : '='.toNat ∈ raw
  · rw [if_pos ⟨behind, List.idxOf_lt_length_of_mem attached⟩, if_pos attached, take_idxOf, ← drop_idxOf, List.tail_drop]
  · have whole : raw.takeWhile (· ≠ '='.toNat) = raw := by
      rw [← take_idxOf, List.idxOf_eq_length attached, List.take_length]
    rw [if_neg attached, whole]
    exact if_neg fun both => attached (List.idxOf_lt_length_iff.mp both.2)

theorem readArgument_long {arg : Text} (begins : startsWith arg (lit "--") = true) :
    (optionTable fixture arity).readArgument arg = (optionTable fixture arity).readLong arg :=
  if_pos begins

theorem readArgument_cluster {arg : Text} (begins : startsWith arg (lit "-") = true)
    (short : ¬ startsWith arg (lit "--") = true) (more : arg ≠ lit "-") :
    (optionTable fixture arity).readArgument arg =
      (optionTable fixture arity).readCluster (arg.drop 1) := by
  obtain ⟨rest, rfl⟩ := List.isPrefixOf_iff_prefix.mp begins
  refine (if_neg short).trans ((if_pos ⟨rfl, ?_⟩).trans rfl)
  rintro nothing
  exact more (congrArg (lit "-" ++ ·) (show rest = [] from nothing))

/-- The walk admits what the binary reads, from a token on or from the value that the last option waits for. -/
theorem collectFrom_reads (args : List Text) :
    (∀ positional collected, collectFrom (compileSafeBinProfile fixture).flags 0 positional args = some collected →
      ∃ counted, collected = positional ++ counted ∧ Reads fixture arity none args counted) ∧
    ∀ flag positional collected, Admitted fixture flag → (∃ value, args.head? = some value ∧ Harmless value) →
      collectFrom (compileSafeBinProfile fixture).flags 1 positional args = some collected →
      ∃ counted, collected = positional ++ counted ∧ Reads fixture arity (some flag) args counted := by
  induction args with
  | nil =>
    constructor
    · rintro positional _ ⟨⟩
      exact ⟨[], (List.append_nil _).symm, [], rfl, List.forall_mem_nil _, rfl⟩
    · rintro flag positional collected admitted ⟨value, impossible, -⟩
      cases impossible
  | cons rawToken others ih =>
    have behind : ∀ {taken items waiting positional collected}, Consumed fixture others taken items waiting →
        collectFrom (compileSafeBinProfile fixture).flags taken positional others = some collected →
        ∃ counted, collected = positional ++ counted ∧ Reads fixture arity waiting others counted := by
      intro taken items waiting positional collected consumed done
      rcases consumed.behind with ⟨rfl, rfl⟩ | ⟨rfl, flag, rfl, admitted, valid⟩
      · exact ih.1 positional collected done
      · exact ih.2 flag positional collected admitted valid done
    constructor
    · intro positional collected done
      rw [collectFrom, parseExecArgvToken] at done
      by_cases empty : rawToken = []
      · rw [if_pos empty] at done
        obtain ⟨counted, same, later⟩ := ih.1 positional collected done
        exact ⟨counted, same, later.skipped (.inl empty)⟩
      by_cases terminator : rawToken = lit "--"
      · rw [if_neg empty, if_pos terminator] at done
        obtain ⟨harmless, same⟩ := collectRest_reads done
        exact ⟨_, same, terminator ▸ .terminated harmless⟩
      by_cases stdin : rawToken = lit "-"
      · rw [if_neg empty, if_neg terminator, if_pos stdin] at done
        obtain ⟨counted, same, later⟩ := ih.1 positional collected done
        exact ⟨counted, same, later.skipped (.inr stdin)⟩
      rw [if_neg empty, if_neg terminator, if_neg stdin] at done
      by_cases option : startsWith rawToken (lit "-") = true
      · rw [if_neg (not_not.mpr option)] at done
        by_cases long : startsWith rawToken (lit "--") = true
        · rw [if_pos long] at done
          simp only [cut_at_equals option] at done
          obtain ⟨taken, consumed, done⟩ := Option.bind_eq_some_iff.mp done
          obtain ⟨items, waiting, read, sound⟩ := consumeLongOptionToken_reads rfl consumed
          obtain ⟨counted, same, later⟩ := behind sound done
          exact ⟨counted, same, later.token terminator ((readArgument_long long).trans read) sound⟩
        · rw [if_neg long] at done
          obtain ⟨taken, consumed, done⟩ := Option.bind_eq_some_iff.mp done
          obtain ⟨items, waiting, read, sound⟩ := consumeShortOptionClusterToken_reads rfl consumed
          obtain ⟨counted, same, later⟩ := behind sound done
          exact ⟨counted, same, later.token terminator ((readArgument_cluster option long stdin).trans read) sound⟩
      · rw [if_pos option] at done
        obtain ⟨more, consumed, done⟩ := Option.bind_eq_some_iff.mp done
        obtain ⟨harmless, rfl⟩ := consumePositionalToken_ok consumed
        obtain ⟨counted, rfl, later⟩ := ih.1 _ collected done
        have counted' : counts rawToken = true := counts_of_harmless (not_or.mpr ⟨empty, stdin⟩)
        refine ⟨_, ?_, later.operand harmless terminator (.inl option)⟩
        simp [counted']
    · rintro flag positional collected admitted ⟨value, ⟨⟩, harmless⟩ done
      obtain ⟨counted, same, later⟩ := ih.1 positional collected done
      exact ⟨counted, same, later.value admitted harmless⟩

end Validator

end PlatformClaw.Approvals
