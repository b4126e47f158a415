import PlatformClaw.Approvals.ArgPattern

/-! # Allowlists of commands

A command runs unasked when an entry of the allowlist selects its executable and, where the entry binds
arguments, its arguments. Entries that "allow always" has left bind arguments in every case.
-/

namespace PlatformClaw.Approvals

open PlatformClaw.Reef (Units units)

inductive AllowlistSource where
  | allowAlways
deriving Repr, DecidableEq

structure ExecAllowlistEntry where
  pattern : Units
  source : Option AllowlistSource
  argPattern : Option Units

structure ExecutableResolution where
  rawExecutable : Units
  resolvedPath : Option Units
  resolvedRealPath : Option Units
  executableName : Units

def isBlankUnit (unit : UInt16) : Bool := ScriptString.isWhitespacePoint unit.toNat

def trimUnits (text : Units) : Units :=
  ((text.dropWhile isBlankUnit).reverse.dropWhile isBlankUnit).reverse

/-- An empty text counts as none. -/
def given (value : Option Units) : Option Units := value.filter (· ≠ [])

def hasPathSelector (value : Units) : Bool := value.contains 47 || value.contains 92 || value.contains 126

def ExecutableResolution.trustPath (resolution : ExecutableResolution) : Option Units :=
  (given resolution.resolvedPath).map fun resolvedPath =>
    (given (resolution.resolvedRealPath.map trimUnits)).getD resolvedPath

def ExecAllowlistEntry.isBareWildcard (entry : ExecAllowlistEntry) : Bool :=
  trimUnits entry.pattern == [42] && (given entry.argPattern).isNone && entry.source != some .allowAlways

section Matching

-- `matchesExecAllowlistPattern` compiles globs and asks the file system on Windows.
variable (host : Host) (path : PathModule) (matchesExecAllowlistPattern : Units → Units → Bool)

def matchesExecutableBasenamePattern (pattern : Units) (resolution : ExecutableResolution) : Bool :=
  !hasPathSelector resolution.rawExecutable &&
    ((given (some resolution.executableName)).toList ++
      (given resolution.resolvedPath).toList.map path.basename).any (matchesExecAllowlistPattern pattern)

def patternMatches (resolution : ExecutableResolution) (trustPath : Units) (entry : ExecAllowlistEntry) : Bool :=
  let pattern := trimUnits entry.pattern
  if pattern = [] then false
  else if hasPathSelector pattern then matchesExecAllowlistPattern pattern trustPath
  else pattern != [42] && matchesExecutableBasenamePattern path matchesExecAllowlistPattern pattern resolution

/-- The loop of `matchAllowlist`: an entry that binds the arguments comes before one for the path only. -/
def matchEntries (resolution : ExecutableResolution) (trustPath : Units) (argv : Option (List Units))
    (platform : Option String) : List ExecAllowlistEntry → Option ExecAllowlistEntry → Option ExecAllowlistEntry
  | [], pathOnlyMatch => pathOnlyMatch
  | entry :: rest, pathOnlyMatch =>
    if patternMatches path matchesExecAllowlistPattern resolution trustPath entry = false then
      matchEntries resolution trustPath argv platform rest pathOnlyMatch
    else
      match given entry.argPattern with
      | none =>
        if entry.source = some .allowAlways then
          matchEntries resolution trustPath argv platform rest pathOnlyMatch
        else matchEntries resolution trustPath argv platform rest (pathOnlyMatch.or (some entry))
      | some argPattern =>
        if argv.any (matchArgPattern host argPattern · platform) then some entry
        else matchEntries resolution trustPath argv platform rest pathOnlyMatch

def matchAllowlist (entries : List ExecAllowlistEntry) (resolution : Option ExecutableResolution)
    (argv : Option (List Units)) (platform : Option String) : Option ExecAllowlistEntry :=
  resolution.bind fun resolution =>
    (entries.find? (·.isBareWildcard)).or <| resolution.trustPath.bind fun trustPath =>
      matchEntries host path matchesExecAllowlistPattern resolution trustPath argv platform entries none

end Matching

/-- What "allow always" was answered to: an executable with its arguments, or a script with those after it. -/
inductive AllowAlwaysTarget where
  | executable (trustPath : Units) (argv : List Units)
  | script (trustPath : Units) (argv : List Units) (scriptPath base : Units)

namespace AllowAlwaysTarget

variable (host : Host) (path : PathModule) (platform : Option String)

/-- The entry that is left for a target. -/
def entry : AllowAlwaysTarget → ExecAllowlistEntry
  | .executable trustPath argv => ⟨trustPath, some .allowAlways, some (buildArgPatternFromArgv host argv platform)⟩
  | .script trustPath argv scriptPath base =>
    ⟨trustPath, some .allowAlways, some (buildScriptArgPatternFromArgv host path argv scriptPath base platform)⟩

/-- What is approved, with its arguments. -/
def approvedArgv : AllowAlwaysTarget → List Units
  | .executable _ argv => argv
  | .script _ argv scriptPath base => scriptPath :: scriptArgs path argv scriptPath base

theorem given_argPattern (target : AllowAlwaysTarget) : given (target.entry host path platform).argPattern =
    some (buildArgPatternFromArgv host (target.approvedArgv path) platform) := by
  have built : (target.entry host path platform).argPattern =
      some (buildArgPatternFromArgv host (target.approvedArgv path) platform) := by
    cases target with
    | executable => rfl
    | script trustPath argv scriptPath base =>
      exact congrArg some (buildScriptArgPattern_eq host path argv scriptPath base platform)
  have some_ : buildArgPatternFromArgv host (target.approvedArgv path) platform ≠ [] := by
    unfold buildArgPatternFromArgv
    split
    · exact List.append_ne_nil_of_left_ne_nil (by decide +kernel) _
    · dsimp only
      split
      · exact List.cons_ne_nil _ _
      · exact List.cons_ne_nil _ _
  rw [built, given, Option.filter_some, if_pos (decide_eq_true some_)]

end AllowAlwaysTarget

/-- The arguments are written alike: on Windows up to slashes and to none for two empty ones, elsewhere in UTF-8. -/
structure SameWritten (windows : Bool) (argv other : List Units) : Prop where
  slashes : windows = true → (collapse (argv.drop 1)).map backslashed = (collapse (other.drop 1)).map backslashed
  encoded : windows = false → (argv.drop 1).map decode = (other.drop 1).map decode

theorem generated_matches_iff {host : Host} (collisionFree : Function.Injective host.sha256)
    (correct : host.regExp.Correct) (platform : Option String) {argv other : List Units}
    (plain : ∀ arg ∈ argv.drop 1, 0 ∉ arg) (plain' : ∀ arg ∈ other.drop 1, 0 ∉ arg) :
    matchArgPattern host (buildArgPatternFromArgv host argv platform) other platform = true ↔
      SameWritten (isWindowsPlatform (platform.getD host.platform)) argv other := by
  cases windows : isWindowsPlatform (platform.getD host.platform) with
  | true =>
    rw [matches_iff windows correct]
    exact ⟨fun same => ⟨fun _ => terminated_inj (apart_collapse plain) (apart_collapse plain') same, fun no => by cases no⟩,
      fun same => congrArg _ (same.slashes rfl)⟩
  | false =>
    have built : buildArgPatternFromArgv host argv platform = buildHashedArgPatternFromArgv host argv := by
      rw [buildArgPatternFromArgv, if_pos windows]
    have generated : isGeneratedHashedArgPattern (buildHashedArgPatternFromArgv host argv) = true :=
      List.isPrefixOf_iff_prefix.mpr (List.prefix_append _ _)
    rw [built, matchArgPattern, if_pos generated, beq_iff_eq, hashed_eq_iff collisionFree plain plain']
    exact ⟨fun same => ⟨fun no => (by cases no), fun _ => same⟩, fun same => same.encoded rfl⟩

section Matching

variable {host : Host} {path : PathModule} {glob : Units → Units → Bool} {resolution : ExecutableResolution}
  {trustPath : Units} {argv : Option (List Units)} {platform : Option String}

/-- What `matchEntries` finds is an entry it was given or started with, and one of "allow always" binds. -/
theorem bound_of_matchEntries {entries : List ExecAllowlistEntry} {start : Option ExecAllowlistEntry}
    (manual : ∀ entry, start = some entry → entry.source ≠ some .allowAlways) {entry : ExecAllowlistEntry}
    (found : matchEntries host path glob resolution trustPath argv platform entries start = some entry)
    (always : entry.source = some .allowAlways) :
    entry ∈ entries ∧ patternMatches path glob resolution trustPath entry = true ∧
      ∃ argPattern, given entry.argPattern = some argPattern ∧
        argv.any (matchArgPattern host argPattern · platform) = true := by
  induction entries generalizing start with
  | nil => exact absurd always (manual entry found)
  | cons first rest ih =>
    have later : ∀ {start}, (∀ entry, start = some entry → entry.source ≠ some .allowAlways) →
        matchEntries host path glob resolution trustPath argv platform rest start = some entry → _ :=
      fun manual found => (ih manual found).imp_left (List.mem_cons_of_mem first)
    unfold matchEntries at found
    split at found
    · exact later manual found
    · rename_i selected
      split at found
      · split at found
        · exact later manual found
        · rename_i notAlways
          refine later (fun other isOther => ?_) found
          cases start with
          | none => exact Option.some.inj isOther ▸ notAlways
          | some held => exact manual other isOther
      · rename_i argPattern bound
        split at found
        · rename_i matched
          cases found
          exact ⟨List.mem_cons_self, Bool.not_eq_false _ ▸ selected, argPattern, bound, matched⟩
        · exact later manual found

/-- An entry that selects the executable and binds the arguments is enough. -/
theorem matchEntries_ne_none {entries : List ExecAllowlistEntry} {start : Option ExecAllowlistEntry}
    {entry : ExecAllowlistEntry} {argPattern : Units} (bound : given entry.argPattern = some argPattern)
    (selected : patternMatches path glob resolution trustPath entry = true)
    (matched : argv.any (matchArgPattern host argPattern · platform) = true)
    (inEntries : entry ∈ entries ∨ start ≠ none) :
    matchEntries host path glob resolution trustPath argv platform entries start ≠ none := by
  induction entries generalizing start with
  | nil => exact inEntries.resolve_left List.not_mem_nil
  | cons first rest ih =>
    unfold matchEntries
    by_cases isFirst : entry = first
    · subst isFirst
      rw [selected, if_neg (by decide), bound]
      simp [matched]
    · have later : entry ∈ rest ∨ start ≠ none :=
        inEntries.imp_left fun inEntries => (List.mem_cons.mp inEntries).resolve_left isFirst
      split
      · exact ih later
      · split
        · split
          · exact ih later
          · refine ih (later.imp_right fun held => ?_)
            cases start with
            | none => exact absurd rfl held
            | some other => exact held
        · split
          · exact Option.some_ne_none _
          · exact ih later

end Matching

/-- Paths without directories. -/
def flatPaths : PathModule where
  isAbsolute _ := true
  resolve _ arg := arg
  basename arg := arg
  normalizeLowercase arg := arg

end PlatformClaw.Approvals
