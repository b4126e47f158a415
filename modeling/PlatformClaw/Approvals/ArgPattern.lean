import PlatformClaw.Reef.CanonicalJson

/-! # Argument patterns of approvals

An approval that is kept binds the arguments of a command by a pattern. On Windows it is a regular
expression over the arguments, each ended by a null character; elsewhere it is a hash of a text that names
the lengths as well. Texts are code units; what is hashed is their UTF-8.
-/

namespace PlatformClaw.Approvals

open PlatformClaw.Reef (Units units isPair pairChar isSurrogate)

/-- Half of a pair is written as the replacement character. -/
def unitChar (unit : UInt16) : Char :=
  if isSurrogate unit then '\uFFFD' else Char.ofNat unit.toNat

def decode : Units → List Char
  | [] => []
  | [unit] => [unitChar unit]
  | high :: low :: rest =>
    if isPair high low then pairChar high low :: decode rest
    else unitChar high :: decode (low :: rest)

def utf8 (text : Units) : ByteArray := (String.ofList (decode text)).toUTF8

/-- `Buffer.byteLength(text, "utf8")`. -/
def byteLength (text : Units) : Nat := (utf8 text).size

/-- `String` of a whole number. -/
def decimal (number : Nat) : Units := (ScriptJson.natural number).map fun c => UInt16.ofNat c.toNat

/-- Regular expressions without flags: nothing where the constructor throws, else whether a text passes. -/
structure RegExpEngine where
  test : Units → Units → Option Bool

/-- What the code takes from outside: the hash in hexadecimal, the expressions, the platform it runs on. -/
structure Host where
  sha256 : ByteArray → Units
  regExp : RegExpEngine
  platform : String

def hashedArgPatternPrefix : Units := units "sha256:argv:"

def isGeneratedHashedArgPattern (value : Units) : Bool := hashedArgPatternPrefix.isPrefixOf value

/-- Only letters that become `w`, `i` or `n` matter, and those are plain letters. -/
def isWindowsPlatform (platform : String) : Bool :=
  ['w', 'i', 'n'].isPrefixOf ((ScriptString.trim platform).toList.map Char.toLower)

/-- `[.*+?^${}()|[\]\\]`. -/
def isSyntaxUnit (unit : UInt16) : Bool := (units ".*+?^${}()|[]\\").contains unit

def escapeRegExp (value : Units) : Units :=
  value.flatMap fun unit => if isSyntaxUnit unit then [92, unit] else [unit]

/-- `value.replace(/\//g, "\\")`. -/
def backslashed (value : Units) : Units := value.map fun unit => if unit = 47 then 92 else unit

def joinUnits (separator : UInt16) (parts : List Units) : Units := [separator].intercalate parts

def renderGeneratedArgPatternSubject (argv : List Units) : Units :=
  if argv.drop 1 = [] then [0, 0] else joinUnits 0 (argv.drop 1) ++ [0]

def renderGeneratedHashedArgPatternSubject (argv : List Units) : Units :=
  decimal (argv.drop 1).length ++ 0 :: (argv.drop 1).flatMap fun arg =>
    decimal (byteLength arg) ++ 0 :: (arg ++ [0])

variable (host : Host)

def buildHashedArgPatternFromArgv (argv : List Units) : Units :=
  hashedArgPatternPrefix ++ host.sha256 (utf8 (renderGeneratedHashedArgPatternSubject argv))

def matchArgPattern (argPattern : Units) (argv : List Units) (platform : Option String) : Bool :=
  if isGeneratedHashedArgPattern argPattern then
    argPattern == buildHashedArgPatternFromArgv host argv
  else
    let argsString :=
      if argPattern.contains 0 then renderGeneratedArgPatternSubject argv
      else joinUnits 32 (argv.drop 1)
    match host.regExp.test argPattern argsString with
    | none => false
    | some true => true
    | some false =>
      isWindowsPlatform (platform.getD host.platform) && backslashed argsString != argsString &&
        (host.regExp.test argPattern (backslashed argsString)).getD false

def buildArgPatternFromArgv (argv : List Units) (platform : Option String) : Units :=
  if isWindowsPlatform (platform.getD host.platform) = false then buildHashedArgPatternFromArgv host argv
  else
    let normalized := (argv.drop 1).map backslashed
    if normalized = [] then [94, 0, 0, 36]
    else 94 :: (escapeRegExp (joinUnits 0 normalized) ++ [0, 36])

structure PathModule where
  isAbsolute : Units → Bool
  resolve : Units → Units → Units
  basename : Units → Units
  /-- In lower case and without white space around it. -/
  normalizeLowercase : Units → Units

/-- The arguments after the script, which is found by its path or else by its name. -/
def scriptArgs (path : PathModule) (argv : List Units) (scriptPath base : Units) : List Units :=
  let resolveArgPath (arg : Units) : Units := if path.isAbsolute arg then arg else path.resolve base arg
  let scriptBase := path.normalizeLowercase (path.basename scriptPath)
  match (argv.findIdx? fun arg => resolveArgPath arg == scriptPath).or
      (argv.findIdx? fun arg => path.normalizeLowercase (path.basename arg) == scriptBase) with
  | some scriptIdx => argv.drop (scriptIdx + 1)
  | none => []

def buildScriptArgPatternFromArgv (path : PathModule) (argv : List Units) (scriptPath base : Units)
    (platform : Option String) : Units :=
  let args := scriptArgs path argv scriptPath base
  if isWindowsPlatform (platform.getD host.platform) = false then
    buildHashedArgPatternFromArgv host (scriptPath :: args)
  else
    let normalized := args.map backslashed
    if normalized = [] then [94, 0, 0, 36]
    else 94 :: (joinUnits 0 (normalized.map escapeRegExp) ++ [0, 36])

section Terminated

variable {α β : Type}

def terminated (separator : α) (parts : List (List α)) : List α :=
  parts.flatMap fun part => part ++ [separator]

theorem terminated_cons (separator : α) (part : List α) (parts : List (List α)) :
    terminated separator (part :: parts) = part ++ separator :: terminated separator parts := by
  simp [terminated]

theorem append_separator_inj {separator : α} {part other rest later : List α} (apart : separator ∉ part)
    (apart' : separator ∉ other) (same : part ++ separator :: rest = other ++ separator :: later) :
    part = other ∧ rest = later := by
  induction part generalizing other with
  | nil =>
    cases other with
    | nil => exact ⟨rfl, (List.cons.inj same).2⟩
    | cons first other =>
      obtain ⟨rfl, -⟩ := List.cons.inj same
      exact absurd List.mem_cons_self apart'
  | cons unit part ih =>
    cases other with
    | nil =>
      obtain ⟨rfl, -⟩ := List.cons.inj same
      exact absurd List.mem_cons_self apart
    | cons first other =>
      obtain ⟨rfl, following⟩ := List.cons.inj same
      obtain ⟨rfl, rests⟩ := ih (fun inPart => apart (List.mem_cons_of_mem _ inPart))
        (fun inOther => apart' (List.mem_cons_of_mem _ inOther)) following
      exact ⟨rfl, rests⟩

theorem terminated_inj {separator : α} {parts others : List (List α)}
    (apart : ∀ part ∈ parts, separator ∉ part) (apart' : ∀ part ∈ others, separator ∉ part)
    (same : terminated separator parts = terminated separator others) : parts = others := by
  induction parts generalizing others with
  | nil =>
    cases others with
    | nil => rfl
    | cons other others => simp [terminated] at same
  | cons part parts ih =>
    cases others with
    | nil => simp [terminated] at same
    | cons other others =>
      rw [terminated_cons, terminated_cons] at same
      obtain ⟨first, rest⟩ := append_separator_inj (apart part List.mem_cons_self)
        (apart' other List.mem_cons_self) same
      rw [first, ih (fun part inParts => apart part (List.mem_cons_of_mem _ inParts))
        (fun part inParts => apart' part (List.mem_cons_of_mem _ inParts)) rest]

theorem intercalate_append_eq_terminated {separator : α} {parts : List (List α)} (nonempty : parts ≠ []) :
    [separator].intercalate parts ++ [separator] = terminated separator parts := by
  induction parts with
  | nil => exact absurd rfl nonempty
  | cons part parts ih =>
    cases parts with
    | nil => simp [terminated]
    | cons next others =>
      rw [List.intercalate_cons_cons, terminated_cons, ← ih (List.cons_ne_nil _ _)]
      simp

end Terminated

theorem isPair_zero_left (low : UInt16) : isPair 0 low = false := rfl

theorem isPair_zero_right (high : UInt16) : isPair high 0 = false := by
  simp [isPair, ScriptText.isLowSurrogate]

theorem decode_zero_cons (rest : Units) : decode (0 :: rest) = '\x00' :: decode rest := by
  cases rest with
  | nil => rfl
  | cons low rest =>
    rw [decode, isPair_zero_left, if_neg Bool.false_ne_true]
    rfl

/-- A null character stands for itself and parts what is before from what is after. -/
theorem decode_append_zero (text rest : Units) :
    decode (text ++ 0 :: rest) = decode text ++ '\x00' :: decode rest := by
  induction text using decode.induct with
  | case1 => exact decode_zero_cons rest
  | case2 unit =>
    simp [decode, isPair_zero_right, decode_zero_cons]
  | case3 high low others pair ih => simp [decode, pair, ih]
  | case4 high low others single ih =>
    rw [List.cons_append] at ih
    simp [decode, single, ih]

theorem decode_terminated (parts : List Units) :
    decode (terminated 0 parts) = terminated '\x00' (parts.map decode) := by
  induction parts with
  | nil => rfl
  | cons part parts ih =>
    rw [terminated_cons, decode_append_zero, ih, List.map_cons, terminated_cons]

theorem unitChar_ne_zero {unit : UInt16} (some : unit ≠ 0) : unitChar unit ≠ '\x00' := by
  unfold unitChar
  cases surrogate : isSurrogate unit with
  | true =>
    rw [if_pos rfl]
    decide
  | false =>
    intro zero
    have value := congrArg Char.toNat zero
    rw [if_neg Bool.false_ne_true, Reef.toNat_plainUnit surrogate] at value
    exact some (UInt16.toNat_inj.mp value)

theorem zero_not_mem_decode {text : Units} (apart : 0 ∉ text) : '\x00' ∉ decode text := by
  induction text using decode.induct with
  | case1 => simp [decode]
  | case2 unit =>
    rw [decode, List.mem_singleton]
    exact fun zero => unitChar_ne_zero (fun same => apart (by simp [same])) zero.symm
  | case3 high low others pair ih =>
    rw [decode, if_pos pair, List.mem_cons]
    rintro (zero | inRest)
    · have value := Reef.toNat_pairChar pair
      rw [← zero] at value
      have none : '\x00'.toNat = 0 := rfl
      omega
    · exact ih (fun inOthers => apart (by simp [inOthers])) inRest
  | case4 high low others single ih =>
    rw [decode, if_neg single, List.mem_cons]
    rintro (zero | inRest)
    · exact unitChar_ne_zero (fun same => apart (by simp [same])) zero.symm
    · exact ih (fun inOthers => apart (List.mem_cons_of_mem _ inOthers)) inRest

theorem zero_not_mem_decimal (number : Nat) : 0 ∉ decimal number := by
  intro inText
  obtain ⟨c, inDigits, zero⟩ := List.mem_map.mp inText
  have digit := ScriptJson.isDigit_natural inDigits
  simp only [Char.isDigit, Bool.and_eq_true, decide_eq_true_eq, UInt32.le_iff_toNat_le] at digit
  have value := congrArg UInt16.toNat zero
  simp at value digit
  omega

/-- The bytes of characters. -/
def encode (text : List Char) : ByteArray := (String.ofList text).toUTF8

theorem encode_injective : Function.Injective encode := by
  intro text other same
  unfold encode at same
  rw [String.toUTF8_eq_toByteArray, String.toUTF8_eq_toByteArray] at same
  have texts := congrArg String.toList (String.toByteArray_inj.mp same)
  rwa [String.toList_ofList, String.toList_ofList] at texts

theorem utf8_inj {text other : Units} : utf8 text = utf8 other ↔ decode text = decode other :=
  encode_injective.eq_iff

theorem map_utf8_inj {args others : List Units} :
    args.map utf8 = others.map utf8 ↔ args.map decode = others.map decode := by
  have parts : ∀ args : List Units, args.map utf8 = (args.map decode).map encode := by
    intro args
    rw [List.map_map]
    rfl
  rw [parts, parts, (List.map_injective_iff.mpr encode_injective).eq_iff]

/-- The parts of what is hashed: how many arguments there are, then each with its length before it. -/
def hashedParts (args : List Units) : List Units :=
  decimal args.length :: args.flatMap fun arg => [decimal (byteLength arg), arg]

theorem renderHashed_eq (argv : List Units) :
    renderGeneratedHashedArgPatternSubject argv = terminated 0 (hashedParts (argv.drop 1)) := by
  rw [renderGeneratedHashedArgPatternSubject, hashedParts, terminated_cons]
  congr 2
  induction argv.drop 1 with
  | nil => rfl
  | cons arg args ih =>
    rw [List.flatMap_cons, List.flatMap_cons, ih, List.cons_append, List.singleton_append,
      terminated_cons, terminated_cons]
    simp

theorem apart_hashedParts {args : List Units} (plain : ∀ arg ∈ args, 0 ∉ arg) :
    ∀ part ∈ hashedParts args, 0 ∉ part := by
  intro part inParts
  rcases List.mem_cons.mp inParts with rfl | inRest
  · exact zero_not_mem_decimal _
  · obtain ⟨arg, inArgs, here⟩ := List.mem_flatMap.mp inRest
    rcases List.mem_cons.mp here with rfl | here
    · exact zero_not_mem_decimal _
    · rw [List.mem_singleton.mp here]
      exact plain arg inArgs

theorem hashedParts_inj {args others : List Units} : (hashedParts args).map decode = (hashedParts others).map decode ↔
      args.map decode = others.map decode := by
  constructor
  · intro same
    have rests := (List.cons.inj same).2
    clear same
    induction args generalizing others with
    | nil =>
      cases others with
      | nil => rfl
      | cons other others => simp at rests
    | cons arg args ih =>
      cases others with
      | nil => simp at rests
      | cons other others =>
        simp only [List.flatMap_cons, List.cons_append, List.nil_append, List.map_cons, List.cons.injEq] at rests
        rw [List.map_cons, List.map_cons, rests.2.1, ih rests.2.2]
  · intro same
    have lengths := congrArg List.length same
    rw [List.length_map, List.length_map] at lengths
    rw [hashedParts, hashedParts, List.map_cons, List.map_cons, lengths]
    congr 1
    clear lengths
    induction args generalizing others with
    | nil =>
      cases others with
      | nil => rfl
      | cons other others => simp at same
    | cons arg args ih =>
      cases others with
      | nil => simp at same
      | cons other others =>
        obtain ⟨first, rest⟩ := List.cons.inj same
        have length : byteLength arg = byteLength other := by
          rw [byteLength, byteLength, utf8_inj.mpr first]
        simp only [List.flatMap_cons, List.map_append, List.map_cons, List.map_nil, first, length, ih rest]

theorem hashed_eq_iff {host : Host} (collisionFree : Function.Injective host.sha256)
    {argv other : List Units} (plain : ∀ arg ∈ argv.drop 1, 0 ∉ arg)
    (plain' : ∀ arg ∈ other.drop 1, 0 ∉ arg) :
    buildHashedArgPatternFromArgv host argv = buildHashedArgPatternFromArgv host other ↔
      (argv.drop 1).map decode = (other.drop 1).map decode := by
  have apart : ∀ {args : List Units}, (∀ arg ∈ args, 0 ∉ arg) →
      ∀ part ∈ (hashedParts args).map decode, '\x00' ∉ part := by
    intro args plain part inParts
    obtain ⟨text, inTexts, rfl⟩ := List.mem_map.mp inParts
    exact zero_not_mem_decode (apart_hashedParts plain text inTexts)
  rw [buildHashedArgPatternFromArgv, buildHashedArgPatternFromArgv, List.append_cancel_left_eq,
    collisionFree.eq_iff, utf8_inj, renderHashed_eq, renderHashed_eq, decode_terminated,
    decode_terminated, ← hashedParts_inj]
  exact ⟨terminated_inj (apart plain) (apart plain'), congrArg _⟩

/-- The engine tells by an escaped text between both ends whether a text is that text. -/
structure RegExpEngine.Correct (engine : RegExpEngine) : Prop where
  literal : ∀ text subject, engine.test (94 :: (escapeRegExp text ++ [36])) subject = some (decide (subject = text))

/-- No arguments are written like two empty ones. -/
def collapse (args : List Units) : List Units := if args = [] then [[], []] else args

theorem collapse_eq_iff {args others : List Units} : collapse args = collapse others ↔
    args = others ∨ (args = [] ∧ others = [[], []]) ∨ (args = [[], []] ∧ others = []) := by
  unfold collapse
  by_cases none : args = [] <;> by_cases none' : others = []
  · simp [none, none']
  · simp only [none, none', if_true, if_false, true_and, and_false, or_false]
    constructor
    · exact fun same => .inr same.symm
    · rintro (same | same)
      · exact absurd same.symm none'
      · exact same.symm
  · simp [none, none']
  · simp [none, none']

theorem collapse_map (args : List Units) : (collapse args).map backslashed = collapse (args.map backslashed) := by
  cases args with
  | nil => rfl
  | cons arg args => rfl

theorem backslashed_terminated (parts : List Units) :
    backslashed (terminated 0 parts) = terminated 0 (parts.map backslashed) := by
  induction parts with
  | nil => rfl
  | cons part parts ih =>
    rw [terminated_cons, List.map_cons, terminated_cons, ← ih]
    simp [backslashed]

theorem backslashed_backslashed (text : Units) : backslashed (backslashed text) = backslashed text := by
  simp only [backslashed, List.map_map]
  apply List.map_congr_left
  intro unit inText
  by_cases slash : unit = 47 <;> simp [slash]

theorem zero_not_mem_backslashed {text : Units} (apart : 0 ∉ text) : 0 ∉ backslashed text := by
  intro inText
  obtain ⟨unit, inUnits, zero⟩ := List.mem_map.mp inText
  by_cases slash : unit = 47
  · rw [if_pos slash] at zero
    cases zero
  · rw [if_neg slash] at zero
    exact apart (zero ▸ inUnits)

theorem apart_collapse {args : List Units} (plain : ∀ arg ∈ args, 0 ∉ arg) :
    ∀ arg ∈ (collapse args).map backslashed, 0 ∉ arg := by
  intro arg inArgs
  obtain ⟨text, inTexts, rfl⟩ := List.mem_map.mp inArgs
  apply zero_not_mem_backslashed
  unfold collapse at inTexts
  split at inTexts
  · simp only [List.mem_cons, List.not_mem_nil, or_false, or_self] at inTexts
    simp [inTexts]
  · exact plain text inTexts

theorem subject_eq (argv : List Units) :
    renderGeneratedArgPatternSubject argv = terminated 0 (collapse (argv.drop 1)) := by
  unfold renderGeneratedArgPatternSubject collapse
  by_cases none : argv.drop 1 = []
  · rw [if_pos none, if_pos none]
    rfl
  · rw [if_neg none, if_neg none]
    exact intercalate_append_eq_terminated none

theorem escapeRegExp_append (text other : Units) :
    escapeRegExp (text ++ other) = escapeRegExp text ++ escapeRegExp other :=
  List.flatMap_append

theorem escapeRegExp_zero : escapeRegExp [0] = [0] := by decide +kernel

theorem escapeRegExp_join (parts : List Units) :
    escapeRegExp (joinUnits 0 parts) = joinUnits 0 (parts.map escapeRegExp) := by
  unfold joinUnits
  induction parts with
  | nil => rfl
  | cons part parts ih =>
    cases parts with
    | nil => simp
    | cons next others =>
      rw [List.intercalate_cons_cons, List.map_cons, List.map_cons, List.intercalate_cons_cons,
        escapeRegExp_append, escapeRegExp_append, escapeRegExp_zero, ih, List.map_cons]

theorem buildScriptArgPattern_eq (host : Host) (path : PathModule) (argv : List Units)
    (scriptPath base : Units) (platform : Option String) :
    buildScriptArgPatternFromArgv host path argv scriptPath base platform =
      buildArgPatternFromArgv host (scriptPath :: scriptArgs path argv scriptPath base) platform := by
  unfold buildScriptArgPatternFromArgv buildArgPatternFromArgv
  simp only [List.drop_succ_cons, List.drop_zero, escapeRegExp_join]

section Windows

variable {host : Host} {platform : Option String}
  (windows : isWindowsPlatform (platform.getD host.platform) = true)

include windows

theorem pattern_eq (argv : List Units) : buildArgPatternFromArgv host argv platform =
    94 :: (escapeRegExp (terminated 0 ((collapse (argv.drop 1)).map backslashed)) ++ [36]) := by
  rw [collapse_map]
  unfold buildArgPatternFromArgv collapse
  rw [if_neg (by simp [windows])]
  dsimp only
  by_cases none : (argv.drop 1).map backslashed = []
  · rw [if_pos none, if_pos none]
    decide +kernel
  · rw [if_neg none, if_neg none, ← intercalate_append_eq_terminated none, escapeRegExp_append, escapeRegExp_zero]
    simp [joinUnits]

theorem matches_iff (correct : host.regExp.Correct) (argv other : List Units) :
    matchArgPattern host (buildArgPatternFromArgv host argv platform) other platform = true ↔
      terminated 0 ((collapse (argv.drop 1)).map backslashed) =
        terminated 0 ((collapse (other.drop 1)).map backslashed) := by
  have tests : ∀ subject, host.regExp.test (buildArgPatternFromArgv host argv platform) subject =
      some (decide (subject = terminated 0 ((collapse (argv.drop 1)).map backslashed))) := by
    intro subject
    rw [pattern_eq windows]
    exact correct.literal _ subject
  have generated : isGeneratedHashedArgPattern (buildArgPatternFromArgv host argv platform) = false := by
    rw [pattern_eq windows]
    rfl
  have style : (buildArgPatternFromArgv host argv platform).contains 0 = true := by
    have zero : 0 ∈ terminated 0 ((collapse (argv.drop 1)).map backslashed) := by
      rw [collapse_map]
      unfold collapse
      cases (argv.drop 1).map backslashed with
      | nil => decide
      | cons arg args => simp [terminated]
    rw [pattern_eq windows, List.contains_iff_mem]
    refine List.mem_cons_of_mem _ (List.mem_append_left _ (List.mem_flatMap.mpr ⟨0, zero, ?_⟩))
    decide +kernel
  have normalized : backslashed (renderGeneratedArgPatternSubject other) =
      terminated 0 ((collapse (other.drop 1)).map backslashed) := by
    rw [subject_eq, backslashed_terminated]
  have fixed : backslashed (terminated 0 ((collapse (argv.drop 1)).map backslashed)) =
      terminated 0 ((collapse (argv.drop 1)).map backslashed) := by
    rw [← backslashed_terminated, backslashed_backslashed]
  unfold matchArgPattern
  rw [generated, if_neg Bool.false_ne_true]
  dsimp only
  rw [style, if_pos rfl, tests, tests, normalized]
  by_cases here : renderGeneratedArgPatternSubject other = terminated 0 ((collapse (argv.drop 1)).map backslashed)
  · rw [decide_eq_true here, ← normalized, here, fixed]
    simp
  · rw [decide_eq_false here]
    simp only [windows, Bool.true_and, Option.getD_some, Bool.and_eq_true, bne_iff_ne, decide_eq_true_eq]
    constructor
    · exact fun both => both.2.symm
    · intro same
      exact ⟨fun kept => here (by rw [← kept, same]), same.symm⟩

end Windows

def SameArguments (windows : Bool) (argv other : List Units) : Prop :=
  if windows = true then (argv.drop 1).map backslashed = (other.drop 1).map backslashed
  else argv.drop 1 = other.drop 1

/-- Not none beside two empty arguments on Windows, and elsewhere not texts that UTF-8 writes alike. -/
def Distinguished (windows : Bool) (argv other : List Units) : Prop :=
  if windows = true then
    ¬ ((argv.drop 1 = [] ∧ other.drop 1 = [[], []]) ∨ (argv.drop 1 = [[], []] ∧ other.drop 1 = []))
  else (argv.drop 1).map utf8 = (other.drop 1).map utf8 → argv.drop 1 = other.drop 1

theorem backslashed_eq_nil {text : Units} : backslashed text = [] ↔ text = [] := List.map_eq_nil_iff

theorem map_backslashed_eq_empty {args : List Units} : args.map backslashed = [[], []] ↔ args = [[], []] := by
  match args with
  | [] => simp
  | [arg] => simp
  | [arg, next] => simp [backslashed_eq_nil]
  | arg :: next :: another :: others => simp

/-- An approval binds exactly the arguments it was given for, where they are told apart. -/
theorem argPattern_binds_iff {host : Host} (collisionFree : Function.Injective host.sha256)
    (correct : host.regExp.Correct) (platform : Option String) {argv other : List Units}
    (plain : ∀ arg ∈ argv.drop 1, 0 ∉ arg) (plain' : ∀ arg ∈ other.drop 1, 0 ∉ arg) :
    ((matchArgPattern host (buildArgPatternFromArgv host argv platform) other platform = true ↔
        SameArguments (isWindowsPlatform (platform.getD host.platform)) argv other) ↔
      Distinguished (isWindowsPlatform (platform.getD host.platform)) argv other) := by
  unfold SameArguments Distinguished
  cases windows : isWindowsPlatform (platform.getD host.platform) with
  | true =>
    have binds : matchArgPattern host (buildArgPatternFromArgv host argv platform) other platform = true ↔
        collapse ((argv.drop 1).map backslashed) = collapse ((other.drop 1).map backslashed) := by
      rw [matches_iff windows correct, ← collapse_map, ← collapse_map]
      exact ⟨terminated_inj (apart_collapse plain) (apart_collapse plain'), congrArg _⟩
    rw [if_pos rfl, if_pos rfl, binds, collapse_eq_iff, map_backslashed_eq_empty,
      map_backslashed_eq_empty, List.map_eq_nil_iff, List.map_eq_nil_iff]
    constructor
    · intro exact' both
      have same := exact'.mp (.inr both)
      rcases both with ⟨none, two⟩ | ⟨two, none⟩ <;> rw [none, two] at same <;> simp at same
    · intro apart
      exact ⟨fun either => either.resolve_right apart, .inl⟩
  | false =>
    have binds : matchArgPattern host (buildArgPatternFromArgv host argv platform) other platform = true ↔
        (argv.drop 1).map utf8 = (other.drop 1).map utf8 := by
      have built : buildArgPatternFromArgv host argv platform = buildHashedArgPatternFromArgv host argv := by
        rw [buildArgPatternFromArgv, if_pos windows]
      have generated : isGeneratedHashedArgPattern (buildHashedArgPatternFromArgv host argv) = true :=
        List.isPrefixOf_iff_prefix.mpr (List.prefix_append _ _)
      rw [built, matchArgPattern, if_pos generated, beq_iff_eq, hashed_eq_iff collisionFree plain plain',
        map_utf8_inj]
    rw [if_neg Bool.false_ne_true, if_neg Bool.false_ne_true, binds]
    constructor
    · exact fun exact' => exact'.mp
    · exact fun told => ⟨told, fun same => by rw [same]⟩

def unescape : Units → Units
  | [] => []
  | [unit] => [unit]
  | unit :: escaped :: rest =>
    if unit = 92 then escaped :: unescape rest else unit :: unescape (escaped :: rest)

/-- Expressions that are an escaped text between both ends; others are refused. -/
def literalEngine : RegExpEngine where
  test pattern subject :=
    if pattern.head? = some 94 ∧ pattern.getLast? = some 36 then
      some (decide (subject = unescape (pattern.drop 1).dropLast))
    else none

theorem unescape_escapeRegExp (text : Units) : unescape (escapeRegExp text) = text := by
  have syntaxBackslash : isSyntaxUnit 92 = true := by decide +kernel
  induction text with
  | nil => rfl
  | cons unit rest ih =>
    rw [show escapeRegExp (unit :: rest) = escapeRegExp [unit] ++ escapeRegExp rest from
      escapeRegExp_append [unit] rest]
    cases isSyntax : isSyntaxUnit unit with
    | true =>
      have written : escapeRegExp [unit] = [92, unit] := by simp [escapeRegExp, isSyntax]
      simp [written, unescape, ih]
    | false =>
      have written : escapeRegExp [unit] = [unit] := by simp [escapeRegExp, isSyntax]
      have apart : unit ≠ 92 := by
        rintro rfl
        rw [syntaxBackslash] at isSyntax
        cases isSyntax
      rw [written, List.singleton_append]
      cases later : escapeRegExp rest with
      | nil =>
        rw [later] at ih
        rw [← ih]
        rfl
      | cons next others =>
        rw [later] at ih
        rw [unescape, if_neg apart, ih]

theorem correct_literalEngine : literalEngine.Correct where
  literal := by
    intro text subject
    have last : (94 :: (escapeRegExp text ++ [36])).getLast? = some 36 := by
      rw [← List.cons_append, List.getLast?_concat]
    simp [literalEngine, unescape_escapeRegExp, last]

/-- A Windows host whose hash writes the bytes out. -/
def writtenHost : Host where
  sha256 bytes := bytes.data.toList.map UInt8.toUInt16
  regExp := literalEngine
  platform := "win32"

theorem writtenHost_injective : Function.Injective writtenHost.sha256 := by
  intro bytes other same
  have lists := (List.map_injective_iff.mpr fun a b => UInt8.toUInt16_inj.mp) same
  exact ByteArray.ext (Array.toList_inj.mp lists)

/-- An approval without arguments lets two empty arguments pass. -/
theorem argPattern_empty_arguments :
    matchArgPattern writtenHost (buildArgPatternFromArgv writtenHost [units "python"] none)
        [units "python", [], []] none = true ∧
      ¬ SameArguments true [units "python"] [units "python", [], []] := by
  have windows : isWindowsPlatform ((none : Option String).getD writtenHost.platform) = true := by
    decide +kernel
  constructor
  · exact (matches_iff windows correct_literalEngine _ _).mpr rfl
  · unfold SameArguments
    simp

/-- Slashes are exchanged on Windows. -/
theorem argPattern_binds_slashes : matchArgPattern writtenHost
      (buildArgPatternFromArgv writtenHost [units "python", units "a/b"] none)
      [units "python", units "a\\b"] none = true := by
  have windows : isWindowsPlatform ((none : Option String).getD writtenHost.platform) = true := by
    decide +kernel
  have binds := @argPattern_binds_iff _ writtenHost_injective correct_literalEngine none
    [units "python", units "a/b"] [units "python", units "a\\b"] (by decide +kernel) (by decide +kernel)
  rw [windows] at binds
  refine (binds.mpr ?_).mpr ?_
  · unfold Distinguished
    simp
  · unfold SameArguments
    rw [if_pos rfl]
    decide +kernel

end PlatformClaw.Approvals
