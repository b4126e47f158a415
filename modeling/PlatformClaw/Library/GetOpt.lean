import Mathlib.Data.List.Basic

/-! # Options of a command line

The reading of an argument list that `getopt_long` documents: options of one character in clusters, options with a
name that may be abbreviated, values attached or in the next argument, a terminator, and operands in any place.
Arguments are lists of characters of any kind.
-/

namespace GetOpt

/-- What an argument list says. -/
inductive Item (α : Type) where
  | option (flag : List α) (value : Option (List α))
  | operand (text : List α)
deriving DecidableEq, Repr

/-- The options of a program, written with their dashes, and which of them take a value. -/
structure OptionTable (α : Type) where
  dash : α
  equals : α
  flags : List (List α)
  takesValue : List α → Bool

variable {α : Type} {flag : List α}

def Item.operand? : Item α → Option (List α)
  | .option _ _ => none
  | .operand text => some text

def operands (items : List (Item α)) : List (List α) := items.filterMap Item.operand?

@[simp] theorem operands_append (items others : List (Item α)) :
    operands (items ++ others) = operands items ++ operands others := by
  simp [operands]

@[simp] theorem operands_map (texts : List (List α)) : operands (texts.map .operand) = texts := by
  induction texts with
  | nil => rfl
  | cons first rest ih => exact congrArg (first :: ·) ih

namespace OptionTable

variable [DecidableEq α] {table : OptionTable α} {name : List α}

variable (table) in
def longFlags : List (List α) :=
  table.flags.filter fun flag => [table.dash, table.dash].isPrefixOf flag && decide (2 < flag.length)

variable (table) in
/-- A name that is not a flag itself stands for the only flag that begins with it. -/
def resolve (name : List α) : Option (List α) :=
  if name ∈ table.longFlags then some name
  else
    match table.longFlags.filter name.isPrefixOf with
    | [] => none
    | flag :: others => if ∀ other ∈ others, other = flag then some flag else none

variable (table) in
/-- The options of a cluster, and the one whose value is to follow. -/
def readCluster : List α → Option (List (Item α) × Option (List α))
  | [] => some ([], none)
  | letter :: rest =>
    if [table.dash, letter] ∉ table.flags then none
    else if table.takesValue [table.dash, letter] then
      if rest = [] then some ([], some [table.dash, letter])
      else some ([.option [table.dash, letter] (some rest)], none)
    else (readCluster rest).map fun read => (.option [table.dash, letter] none :: read.1, read.2)

variable (table) in
/-- An option with a name. -/
def readLong (arg : List α) : Option (List (Item α) × Option (List α)) :=
  (table.resolve (arg.takeWhile (· ≠ table.equals))).bind fun flag =>
    if table.equals ∈ arg then
      if table.takesValue flag then some ([.option flag (some (arg.dropWhile (· ≠ table.equals)).tail)], none)
      else none
    else if table.takesValue flag then some ([], some flag)
    else some ([.option flag none], none)

variable (table) in
/-- An argument that is neither a value nor the terminator. -/
def readArgument (arg : List α) : Option (List (Item α) × Option (List α)) :=
  if [table.dash, table.dash].isPrefixOf arg then table.readLong arg
  else if arg.head? = some table.dash ∧ arg.tail ≠ [] then table.readCluster arg.tail
  else some ([.operand arg], none)

variable (table) in
/-- The arguments behind an option that may be waiting for its value. -/
def read : Option (List α) → List (List α) → Option (List (Item α))
  | none, [] => some []
  | some _, [] => none
  | some flag, value :: rest => (read none rest).map (.option flag (some value) :: ·)
  | none, arg :: rest =>
    if arg = [table.dash, table.dash] then some (rest.map .operand)
    else (table.readArgument arg).bind fun first => (read first.2 rest).map (first.1 ++ ·)

theorem mem_longFlags : flag ∈ table.longFlags ↔ flag ∈ table.flags ∧ [table.dash, table.dash] <+: flag ∧ 2 < flag.length := by
  simp [longFlags]

theorem resolve_exact (known : name ∈ table.longFlags) : table.resolve name = some name :=
  if_pos known

theorem resolve_only (known : flag ∈ table.longFlags) (begins : name <+: flag)
    (only : ∀ other ∈ table.longFlags, name <+: other → other = flag) : table.resolve name = some flag := by
  by_cases exact : name ∈ table.longFlags
  · rw [resolve_exact exact, only name exact (List.prefix_refl name)]
  · have all : ∀ other ∈ table.longFlags.filter name.isPrefixOf, other = flag := by
      intro other among
      obtain ⟨listed, starts⟩ := List.mem_filter.mp among
      exact only other listed (List.isPrefixOf_iff_prefix.mp starts)
    have here : flag ∈ table.longFlags.filter name.isPrefixOf :=
      List.mem_filter.mpr ⟨known, List.isPrefixOf_iff_prefix.mpr begins⟩
    rw [resolve, if_neg exact]
    cases candidates : table.longFlags.filter name.isPrefixOf with
    | nil =>
      rw [candidates] at here
      cases here
    | cons first others =>
      rw [candidates] at all
      have same := all first List.mem_cons_self
      subst same
      exact if_pos fun other among => all other (List.mem_cons_of_mem _ among)

theorem readCluster_value {letter : α} {rest : List α} (named : flag = [table.dash, letter])
    (listed : flag ∈ table.flags) (takes : table.takesValue flag = true) :
    table.readCluster (letter :: rest) =
      if rest = [] then some ([], some flag) else some ([.option flag (some rest)], none) := by
  subst named
  rw [readCluster, if_neg (not_not.mpr listed), if_pos takes]

theorem readCluster_plain {letter : α} {rest : List α} {items : List (Item α)} {waiting : Option (List α)}
    (named : flag = [table.dash, letter]) (listed : flag ∈ table.flags) (without : table.takesValue flag = false)
    (read : table.readCluster rest = some (items, waiting)) :
    table.readCluster (letter :: rest) = some (.option flag none :: items, waiting) := by
  subst named
  rw [readCluster, if_neg (not_not.mpr listed), if_neg (by simp [without]), read, Option.map_some]

section Long

variable {arg : List α} (resolves : table.resolve (arg.takeWhile (· ≠ table.equals)) = some flag)
include resolves

theorem readLong_attached (attached : table.equals ∈ arg) (takes : table.takesValue flag = true) :
    table.readLong arg = some ([.option flag (some (arg.dropWhile (· ≠ table.equals)).tail)], none) := by
  rw [readLong, resolves, Option.bind_some, if_pos attached, if_pos takes]

theorem readLong_awaited (bare : table.equals ∉ arg) (takes : table.takesValue flag = true) :
    table.readLong arg = some ([], some flag) := by
  rw [readLong, resolves, Option.bind_some, if_neg bare, if_pos takes]

theorem readLong_plain (bare : table.equals ∉ arg) (without : table.takesValue flag = false) :
    table.readLong arg = some ([.option flag none], none) := by
  rw [readLong, resolves, Option.bind_some, if_neg bare, if_neg (by simp [without])]

end Long

/-- An argument, and what is read behind it. -/
theorem read_argument {arg : List α} {rest : List (List α)} {items others : List (Item α)} {waiting : Option (List α)}
    (goesOn : arg ≠ [table.dash, table.dash]) (now : table.readArgument arg = some (items, waiting))
    (later : table.read waiting rest = some others) : table.read none (arg :: rest) = some (items ++ others) := by
  rw [read, if_neg goesOn, now, Option.bind_some, later, Option.map_some]

theorem read_value {value : List α} {rest : List (List α)} {items : List (Item α)}
    (later : table.read none rest = some items) :
    table.read (some flag) (value :: rest) = some (.option flag (some value) :: items) := by
  rw [read, later, Option.map_some]

end OptionTable

end GetOpt
