import PlatformClaw.Library.Table
import PlatformClaw.Reporting.UsageSources

/-! # Rows of a usage report

What one user's source adds to the tally of a report, and the report that is
made of the tally in the end. The rows of a user are counted under his account
alone, so the order in which the sources arrive does not matter.
-/

namespace PlatformClaw.Reporting

/-- `ai_service` is the same in every row. -/
structure AiUsageReportRow where
  team : Option String
  month : String
  knoxId : String
  callCount : Nat
  tokenUsage : Option Nat
  provider : Option String
  model : Option String
deriving DecidableEq, Repr

structure BucketKey where
  month : String
  knoxId : String
  provider : Option String
  model : Option String
deriving DecidableEq, Repr

namespace AiUsageReportRow

def key (row : AiUsageReportRow) : BucketKey where
  month := row.month
  knoxId := row.knoxId
  provider := row.provider
  model := row.model

def fresh (team : Option String) (key : BucketKey) : AiUsageReportRow where
  team := team
  month := key.month
  knoxId := key.knoxId
  callCount := 0
  tokenUsage := some 0
  provider := key.provider
  model := key.model

def counted (row : AiUsageReportRow) (callCount : Nat) (tokenUsage : Option Nat) : AiUsageReportRow :=
  { row with callCount, tokenUsage }

@[simp] theorem key_counted (row : AiUsageReportRow) (callCount : Nat) (tokenUsage : Option Nat) :
    (row.counted callCount tokenUsage).key = row.key := rfl

/-- `active`. -/
def active (row : AiUsageReportRow) : Bool :=
  0 < row.callCount || row.tokenUsage.any (0 < ·)

end AiUsageReportRow

abbrev Buckets : Type := Table AiUsageReportRow.key

/-- What the workers of a report share: the buckets and the flags. -/
structure ReportTally where
  buckets : Buckets
  warnings : List String
  isPartial : Bool
  usable : Bool

/-- A warning is noted once. -/
def noteIf (condition : Bool) (warning : String) (warnings : List String) : List String :=
  if condition && !warnings.contains warning then warnings ++ [warning] else warnings

def monthOf (date : String) : String :=
  .ofList (date.toList.take 7)

namespace AiUsageReportQuery

variable (query : AiUsageReportQuery)

def passesFilters (day : ModelDay) : Bool :=
  (query.filters.provider.isNone || day.provider = query.filters.provider) &&
    (query.filters.model.isNone || day.model = query.filters.model)

def bucketKey (user : AiUsageReportUser) (day : ModelDay) : BucketKey where
  month := monthOf day.date
  knoxId := user.accountId
  provider := if query.groupBy = .model then day.provider else none
  model := if query.groupBy = .model then day.model else none

end AiUsageReportQuery

namespace ReportTally

variable (query : AiUsageReportQuery) (user : AiUsageReportUser) (tally : ReportTally)

def bucketFor (day : ModelDay) : AiUsageReportRow :=
  (tally.buckets.lookup (query.bucketKey user day)).getD (.fresh user.department (query.bucketKey user day))

def addDay (day : ModelDay) : Except AiUsageReportError ReportTally :=
  if query.passesFilters day then do
    let row := tally.bucketFor query user day
    let callCount ← addCount row.callCount day.count
    let tokenUsage ← addTokens row.tokenUsage day.tokens
    .ok
      { buckets := tally.buckets.upsert (row.counted callCount tokenUsage)
          (fun other => other.counted callCount tokenUsage)
          fun other => other.key_counted callCount tokenUsage
        warnings := noteIf day.tokens.isNone "UNKNOWN_TOKEN_USAGE"
          (noteIf (day.provider.isNone || day.model.isNone) "UNKNOWN_MODEL"
            (noteIf user.department.isNone "UNKNOWN_TEAM" tally.warnings))
        isPartial := tally.isPartial || day.tokens.isNone
        usable := tally.usable }
  else .ok tally

def addDays (days : List ModelDay) : Except AiUsageReportError ReportTally :=
  days.foldlM (addDay query user) tally

/-- What a worker does with the source of a user; `none` is a read that failed. -/
def addSource : Option UsageSource → Except AiUsageReportError ReportTally
  | none =>
    .ok { tally with
      isPartial := true
      warnings := noteIf true "SOURCE_READ_INCOMPLETE" tally.warnings }
  | some source =>
    addDays query user
      { tally with
        usable := tally.usable || source.usable
        isPartial := tally.isPartial || !source.fresh
        warnings := noteIf (!source.fresh) "USAGE_CACHE_STALE" tally.warnings }
      source.days

end ReportTally

structure AiUsageReportMeta where
  /-- In milliseconds. -/
  fetchedAt : Nat
  rowCount : Nat
  activeRowCount : Nat
  teamSize : Nat
  activeUserCount : Nat
  months : List String
  totalTokens : Option Nat
  returnedTokens : Option Nat
  totalCallCount : Nat
  totalRowCount : Nat
  truncated : Bool
  filters : AiUsageReportFilters
  sort : ReportSort
  order : ReportOrder
  limit : Option Nat
  groupBy : ReportGrouping
  /-- `data_status` is `partial`. -/
  isPartial : Bool
  warnings : List String
deriving DecidableEq, Repr

structure AiUsageReport where
  rawData : List AiUsageReportRow
  info : AiUsageReportMeta
deriving DecidableEq, Repr

/-- The two values of the column that is sorted by, in the direction asked for. -/
def directed {α : Type} (order : ReportOrder) (cmp : α → α → Ordering) (left right : Option α) : Ordering :=
  let primary := ScriptCompare.nothingLast cmp left right
  if left.isNone || right.isNone || order = .asc then primary else primary.swap

/-- The comparison of the column that the query sorts by. -/
def comparePrimary (query : AiUsageReportQuery) : AiUsageReportRow → AiUsageReportRow → Ordering :=
  match query.sort with
  | .month => ScriptCompare.reading (some ·.month) (directed query.order ScriptCompare.text)
  | .knoxId => ScriptCompare.reading (some ·.knoxId) (directed query.order ScriptCompare.text)
  | .callCount => ScriptCompare.reading (some ·.callCount) (directed query.order compare)
  | .tokenUsage => ScriptCompare.reading (·.tokenUsage) (directed query.order compare)

/-- The comparison of `sortRows`; `ai_service` never tells two rows apart. -/
def compareRows (query : AiUsageReportQuery) : AiUsageReportRow → AiUsageReportRow → Ordering :=
  compareLex (comparePrimary query) (compareLex (ScriptCompare.reading (·.month) ScriptCompare.text)
      (compareLex (ScriptCompare.reading (·.knoxId) ScriptCompare.text)
        (compareLex (ScriptCompare.reading (·.provider) (ScriptCompare.nothingLast ScriptCompare.text))
          (ScriptCompare.reading (·.model) (ScriptCompare.nothingLast ScriptCompare.text)))))

def totalTokens (rows : List AiUsageReportRow) : Except AiUsageReportError (Option Nat) :=
  rows.foldlM (fun sum row => addTokens sum row.tokenUsage) (some 0)

def totalCalls (rows : List AiUsageReportRow) : Except AiUsageReportError Nat :=
  rows.foldlM (fun sum row => addCount sum row.callCount) 0

def returnedRows (query : AiUsageReportQuery) (rows : List AiUsageReportRow) : List AiUsageReportRow :=
  match query.limit with
  | none => rows
  | some limit => rows.take limit

/-- The end of `build`: the report over the rows of all buckets, for `teamSize` selected users. -/
def assemble (query : AiUsageReportQuery) (teamSize : Nat) (buckets : List AiUsageReportRow)
    (warnings : List String) (isPartial usable : Bool) (fetchedAt : Nat) :
    Except AiUsageReportError AiUsageReport := do
  Except.ensure (usable = true ∧ ¬(isPartial = true ∧ buckets.length = 0)) unavailable
  Except.ensure (¬(query.limit = none ∧ 100000 < buckets.length))
    { statusCode := 413, code := "REPORT_TOO_LARGE"
      message := "Select fewer months, teams, or accounts." }
  let allRows := ScriptCompare.sorted (compareRows query) buckets
  let rows := returnedRows query allRows
  let total ← totalTokens allRows
  let returned ← totalTokens rows
  let calls ← totalCalls allRows
  return {
    rawData := rows
    info :=
      { fetchedAt
        rowCount := rows.length
        activeRowCount := (rows.filter AiUsageReportRow.active).length
        teamSize
        activeUserCount := ((allRows.filter AiUsageReportRow.active).map AiUsageReportRow.knoxId).eraseDups.length
        months := query.months
        totalTokens := total
        returnedTokens := returned
        totalCallCount := calls
        totalRowCount := allRows.length
        truncated := rows.length < allRows.length
        filters := query.filters
        sort := query.sort
        order := query.order
        limit := query.limit
        groupBy := query.groupBy
        isPartial
        warnings := ScriptCompare.sorted ScriptCompare.text warnings } }

end PlatformClaw.Reporting
