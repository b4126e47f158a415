import PlatformClaw.Library.GetOpt
import PlatformClaw.Library.ScriptText

/-! # Arguments of safe binaries

A binary that only filters its input runs without an approval when a profile of its options admits the arguments.
The profile lists the flags that take a value, those that do not, and those that are denied.
-/

namespace PlatformClaw.Approvals

open ScriptText

inductive ExecArgvToken where
  | empty
  | terminator
  | stdin
  | positional (raw : Text)
  | long (flag : Text) (inlineValue : Option Text)
  | shortCluster (cluster : Text) (flags : List Text)
deriving DecidableEq, Repr

def parseExecArgvToken (raw : Text) : ExecArgvToken :=
  if raw = [] then .empty
  else if raw = lit "--" then .terminator
  else if raw = lit "-" then .stdin
  else if ¬ startsWith raw (lit "-") then .positional raw
  else if startsWith raw (lit "--") then
    let eqIndex := raw.idxOf '='.toNat
    if 0 < eqIndex ∧ eqIndex < raw.length then .long (raw.take eqIndex) (some (raw.drop (eqIndex + 1)))
    else .long raw none
  else .shortCluster (raw.drop 1) ((raw.drop 1).map fun entry => lit "-" ++ [entry])

structure SafeBinProfile where
  minPositional : Option Int
  maxPositional : Option Int
  allowedValueFlags : Option (List Text)
  allowedBooleanFlags : Option (List Text)
  deniedFlags : Option (List Text)
  knownLongFlags : Option (List Text)
  knownLongFlagsSet : Option (List Text)
  longFlagPrefixMap : Option (Text → Option (Option Text))

structure BuiltinSafeBinProfileFixture where
  minPositional : Option Int
  maxPositional : Option Int
  allowedValueFlags : Option (List Text)
  allowedBooleanFlags : Option (List Text)
  deniedFlags : Option (List Text)
deriving DecidableEq, Repr

def toFlagSet (flags : Option (List Text)) : List Text := (flags.getD []).eraseDups

def collectKnownLongFlags (allowedValueFlags deniedFlags allowedBooleanFlags : List Text) : List Text :=
  ((allowedValueFlags ++ allowedBooleanFlags ++ deniedFlags).filter fun flag => startsWith flag (lit "--")).eraseDups

/-- What the map gives for a text: nothing before it is set, and no flag for the beginning of several. -/
def addBeginning (map : Text → Option (Option Text)) (flag begun : Text) : Text → Option (Option Text) :=
  match map begun with
  | none => Function.update map begun (some (some flag))
  | some existing => if existing ≠ some flag then Function.update map begun (some none) else map

def buildLongFlagPrefixMap (knownLongFlags : List Text) : Text → Option (Option Text) :=
  knownLongFlags.foldl (fun map flag =>
    if ¬ startsWith flag (lit "--") ∨ flag.length ≤ 2 then map
    else (List.range' 3 (flag.length - 2)).foldl (fun map length => addBeginning map flag (flag.take length)) map)
    fun _ => none

def compileSafeBinProfile (fixture : BuiltinSafeBinProfileFixture) : SafeBinProfile :=
  let allowedValueFlags := toFlagSet fixture.allowedValueFlags
  let allowedBooleanFlags := toFlagSet fixture.allowedBooleanFlags
  let deniedFlags := toFlagSet fixture.deniedFlags
  let knownLongFlags := collectKnownLongFlags allowedValueFlags deniedFlags allowedBooleanFlags
  { minPositional := fixture.minPositional
    maxPositional := fixture.maxPositional
    allowedValueFlags := some allowedValueFlags
    allowedBooleanFlags := some allowedBooleanFlags
    deniedFlags := some deniedFlags
    knownLongFlags := some knownLongFlags
    knownLongFlagsSet := some knownLongFlags.eraseDups
    longFlagPrefixMap := some (buildLongFlagPrefixMap knownLongFlags) }

def isPathLikeToken (value : Text) : Bool :=
  let trimmed := trim value
  if trimmed = [] then false
  else if trimmed = lit "-" then false
  else if startsWith trimmed (lit "./") || startsWith trimmed (lit "../") || startsWith trimmed (lit "~") then true
  else if startsWith trimmed (lit "/") then true
  else
    match trimmed with
    | drive :: colon :: slash :: _ => isLetter drive && colon == ':'.toNat && (slash == '\\'.toNat || slash == '/'.toNat)
    | _ => false
where
  isLetter (unit : Nat) : Bool :=
    ('A'.toNat ≤ unit && unit ≤ 'Z'.toNat) || ('a'.toNat ≤ unit && unit ≤ 'z'.toNat)

def hasGlobToken (value : Text) : Bool := value.any fun unit => (lit "*?[]").contains unit

def isExpansionUnit (unit : Nat) : Bool :=
  isPathLikeToken.isLetter unit || isDigit unit || (lit "_@*?!$#-\x7b([").contains unit

def hasShellExpansionToken : Text → Bool
  | [] => false
  | unit :: rest =>
    (unit == '$'.toNat && (rest.head?.map isExpansionUnit).getD false) || hasShellExpansionToken rest

def isSafeLiteralToken (value : Text) : Bool :=
  if value = [] ∨ value = lit "-" then true
  else !hasGlobToken value && !hasShellExpansionToken value && !isPathLikeToken value

def isInvalidValueToken : Option Text → Bool
  | none => true
  | some value => value = [] || !isSafeLiteralToken value

/-- The flags of a profile as the walk over the arguments uses them. -/
structure SafeBinFlags where
  allowedValueFlags : List Text
  allowedBooleanFlags : List Text
  deniedFlags : List Text
  knownLongFlagsSet : List Text
  longFlagPrefixMap : Text → Option (Option Text)

def SafeBinProfile.flags (profile : SafeBinProfile) : SafeBinFlags :=
  let allowedValueFlags := profile.allowedValueFlags.getD []
  let allowedBooleanFlags := profile.allowedBooleanFlags.getD []
  let deniedFlags := profile.deniedFlags.getD []
  let knownLongFlags := profile.knownLongFlags.getD
    (collectKnownLongFlags allowedValueFlags deniedFlags allowedBooleanFlags)
  { allowedValueFlags, allowedBooleanFlags, deniedFlags
    knownLongFlagsSet := profile.knownLongFlagsSet.getD knownLongFlags.eraseDups
    longFlagPrefixMap := profile.longFlagPrefixMap.getD (buildLongFlagPrefixMap knownLongFlags) }

variable (flags : SafeBinFlags)

def resolveCanonicalLongFlag (flag : Text) : Option Text :=
  if ¬ startsWith flag (lit "--") ∨ flag.length ≤ 2 then none
  else if flags.knownLongFlagsSet.contains flag then some flag
  else (flags.longFlagPrefixMap flag).getD none

/-- How many of the arguments behind the option it takes, if it is admitted. -/
def consumeLongOptionToken (following : List Text) (flag : Text) (inlineValue : Option Text) : Option Nat :=
  match resolveCanonicalLongFlag flags flag with
  | none => none
  | some canonicalFlag =>
    if flags.deniedFlags.contains canonicalFlag then none
    else
      let expectsValue := flags.allowedValueFlags.contains canonicalFlag
      match inlineValue with
      | some inlineValue =>
        if !expectsValue then none
        else if isSafeLiteralToken inlineValue then some 0 else none
      | none =>
        if !expectsValue then some 0
        else if isInvalidValueToken following.head? then none else some 1

def consumeShortOptionClusterToken (following : List Text) (cluster : Text) : Nat → List Text → Option Nat
  | _, [] => some 0
  | j, flag :: rest =>
    if flags.deniedFlags.contains flag then none
    else if flags.allowedValueFlags.contains flag then
      let inlineValue := cluster.drop (j + 1)
      if inlineValue ≠ [] then if isSafeLiteralToken inlineValue then some 0 else none
      else if isInvalidValueToken following.head? then none else some 1
    else if flags.allowedBooleanFlags.contains flag then consumeShortOptionClusterToken following cluster (j + 1) rest
    else none

def consumePositionalToken (token : Text) (positional : List Text) : Option (List Text) :=
  if isSafeLiteralToken token then some (positional ++ [token]) else none

/-- The arguments behind the terminator. -/
def collectRest : List Text → List Text → Option (List Text)
  | positional, [] => some positional
  | positional, rest :: others =>
    if rest = [] ∨ rest = lit "-" then collectRest positional others
    else (consumePositionalToken rest positional).bind fun positional => collectRest positional others

/-- The loop over the arguments, which steps over those that an option has taken. -/
def collectFrom : Nat → List Text → List Text → Option (List Text)
  | _, positional, [] => some positional
  | taken + 1, positional, _ :: others => collectFrom taken positional others
  | 0, positional, rawToken :: others =>
    match parseExecArgvToken rawToken with
    | .empty | .stdin => collectFrom 0 positional others
    | .terminator => collectRest positional others
    | .positional raw =>
      (consumePositionalToken raw positional).bind fun positional => collectFrom 0 positional others
    | .long flag inlineValue =>
      (consumeLongOptionToken flags others flag inlineValue).bind fun taken => collectFrom taken positional others
    | .shortCluster cluster entries =>
      (consumeShortOptionClusterToken flags others cluster 0 entries).bind fun taken =>
        collectFrom taken positional others

def collectPositionalTokens (args : List Text) (profile : SafeBinProfile) : Option (List Text) :=
  collectFrom profile.flags 0 [] args

def validatePositionalCount (positional : List Text) (profile : SafeBinProfile) : Bool :=
  if (positional.length : Int) < profile.minPositional.getD 0 then false
  else if profile.maxPositional.any fun most => decide (most < (positional.length : Int)) then false
  else true

def executableEndings : List Text := [lit ".exe", lit ".cmd", lit ".bat", lit ".com"]

def asciiLower (unit : Nat) : Nat :=
  if 'A'.toNat ≤ unit ∧ unit ≤ 'Z'.toNat then unit + 32 else unit

/-- The base name without the ending of an executable; `lowerCase` is `toLowerCase`. -/
def normalizeSafeBinName (lowerCase : Text → Text) (raw : Text) : Text :=
  let trimmed := lowerCase (trim raw)
  let tail := (trimmed.reverse.takeWhile fun unit => unit ≠ '/'.toNat && unit ≠ '\\'.toNat).reverse
  if executableEndings.any fun ending => endsWith (tail.map asciiLower) ending then tail.take (tail.length - 4) else tail

def validateSafeBinSemantics (lowerCase : Text → Text) (binName : Option Text) : Bool :=
  let normalized := (binName.map (normalizeSafeBinName lowerCase)).getD []
  !(["jq", "awk", "gawk", "mawk", "nawk", "sed", "gsed"].map lit).contains normalized

def validateSafeBinArgv (lowerCase : Text → Text) (args : List Text) (profile : SafeBinProfile)
    (binName : Option Text) : Bool :=
  match collectPositionalTokens args profile with
  | none => false
  | some positional =>
    if validatePositionalCount positional profile then validateSafeBinSemantics lowerCase binName else false

end PlatformClaw.Approvals
