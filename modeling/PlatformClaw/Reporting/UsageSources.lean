import PlatformClaw.Library.Guarded
import PlatformClaw.Library.ScriptCompare
import PlatformClaw.Library.ScriptNumber

/-! # Usage sources

The contracts of the usage report, and what `parseUsageSource` accepts of one
user's answer from the gateway. Token counts may be unknown; a sum that leaves
the safe integers is an error.
-/

namespace PlatformClaw.Reporting

inductive UserStatus
  | active
  | disabled
deriving DecidableEq, Repr

structure AiUsageReportUser where
  accountId : String
  displayName : Option String
  department : Option String
  status : UserStatus
  agentId : Option String
deriving DecidableEq, Repr

structure AiUsageReportFilters where
  knoxId : List String
  team : Option String
  provider : Option String
  model : Option String
deriving DecidableEq, Repr

inductive ReportGrouping
  | service
  | model
deriving DecidableEq, Repr

inductive ReportSort
  | month
  | knoxId
  | callCount
  | tokenUsage
deriving DecidableEq, Repr

inductive ReportOrder
  | asc
  | desc
deriving DecidableEq, Repr

inductive ReportFormat
  | json
  | csv
deriving DecidableEq, Repr

structure AiUsageReportQuery where
  startMonth : String
  endMonth : String
  months : List String
  startDate : String
  endDate : String
  filters : AiUsageReportFilters
  groupBy : ReportGrouping
  sort : ReportSort
  order : ReportOrder
  limit : Option Nat
  format : ReportFormat
deriving DecidableEq, Repr

/-- `AiUsageReportError`; `unknownKnoxIds` are its details. -/
structure AiUsageReportError where
  statusCode : Nat
  code : String
  message : String
  unknownKnoxIds : Option (List String) := none
deriving DecidableEq, Repr

def unavailable (message : String := "Usage report unavailable. Retry shortly.") :
    AiUsageReportError where
  statusCode := 503
  code := "REPORT_UNAVAILABLE"
  message := message

/-- The error of a sum that is no safe integer. -/
def overCapacity : AiUsageReportError :=
  unavailable "Report exceeds safe numeric capacity. Select a smaller scope."

def addCount (left right : Nat) : Except AiUsageReportError Nat :=
  if ScriptNumber.isSafeInteger (left + right) then .ok (left + right) else .error overCapacity

def addTokens : Option Nat → Option Nat → Except AiUsageReportError (Option Nat)
  | some left, some right => some <$> addCount left right
  | _, _ => .ok none

/-- A value of unknown shape. -/
inductive SourceValue where
  | null
  | flag (value : Bool)
  | integer (value : Int)
  /-- Any other number. -/
  | fraction
  | text (value : String)
  | array (items : List SourceValue)
  | record (fields : List (String × SourceValue))

namespace SourceValue

def field (fields : List (String × SourceValue)) (name : String) : Option SourceValue :=
  (fields.find? fun entry => entry.1 = name).map Prod.snd

def asRecord : Option SourceValue → Option (List (String × SourceValue))
  | some (.record fields) => some fields
  | _ => none

def asText : Option SourceValue → Option String
  | some (.text value) => some value
  | _ => none

end SourceValue

structure ModelDay where
  date : String
  provider : Option String
  model : Option String
  count : Nat
  tokens : Option Nat
deriving DecidableEq, Repr

structure UsageSource where
  days : List ModelDay
  fresh : Bool
  usable : Bool
deriving DecidableEq, Repr

def safeInteger : Option SourceValue → Option Nat
  | some (.integer value) =>
    if 0 ≤ value ∧ ScriptNumber.isSafeInteger value then some value.toNat else none
  | _ => none

/-- Nothing, or a text with its blanks cut off; an empty one counts as nothing. -/
def sourceText : Option SourceValue → Except AiUsageReportError (Option String)
  | none | some .null => .ok none
  | some (.text value) =>
    let trimmed := ScriptString.trim value
    .ok (if trimmed = "" then none else some trimmed)
  | _ => .error unavailable

def digitsValue (digits : List Char) : Nat :=
  digits.foldl (fun value digit => 10 * value + (digit.toNat - '0'.toNat)) 0

def isLeapYear (year : Nat) : Bool :=
  year % 4 = 0 && (year % 100 ≠ 0 || year % 400 = 0)

def daysInMonth (year month : Nat) : Nat :=
  match month with
  | 2 => if isLeapYear year then 29 else 28
  | 4 | 6 | 9 | 11 => 30
  | _ => 31

/-- Four, two and two digits that name a day of the calendar: the date that a `Date` reads and
writes back unchanged. -/
def isCalendarDate (date : String) : Bool :=
  match date.toList with
  | [y1, y2, y3, y4, '-', m1, m2, '-', d1, d2] =>
    let month := digitsValue [m1, m2]
    let day := digitsValue [d1, d2]
    [y1, y2, y3, y4, m1, m2, d1, d2].all Char.isDigit && (1 ≤ month && month ≤ 12) &&
      (1 ≤ day && day ≤ daysInMonth (digitsValue [y1, y2, y3, y4]) month)
  | _ => false

/-- The date of a row, if it is one of the days asked for. -/
def sourceDate (query : AiUsageReportQuery) (value : Option SourceValue) : Option String :=
  (SourceValue.asText value).filter fun date =>
    isCalendarDate date && (ScriptCompare.text date query.startDate).isGE &&
      (ScriptCompare.text date query.endDate).isLE

/-- `row.tokens`: nothing, or a count. -/
def sourceTokens : Option SourceValue → Except AiUsageReportError (Option Nat)
  | some .null => .ok none
  | tokens => some <$> Except.orThrow (safeInteger tokens) unavailable

/-- One row of `modelDaily`. -/
def parseModelDay (query : AiUsageReportQuery) (row : SourceValue) : Except AiUsageReportError ModelDay := do
  let fields ← Except.orThrow (SourceValue.asRecord (some row)) unavailable
  let date ← Except.orThrow (sourceDate query (SourceValue.field fields "date")) unavailable
  let count ← Except.orThrow (safeInteger (SourceValue.field fields "count")) unavailable
  Except.ensure (count ≠ 0) unavailable
  let missing := SourceValue.field fields "missingTokenEntries"
  Except.ensure (missing.isNone ∨ (safeInteger missing).isSome) unavailable
  let tokens ← sourceTokens (SourceValue.field fields "tokens")
  let provider ← sourceText (SourceValue.field fields "provider")
  let model ← sourceText (SourceValue.field fields "model")
  return { date, provider, model, count
           tokens := if (safeInteger missing).any (0 < ·) then none else tokens }

/-- `raw.aggregates.modelDaily`, if there is one. -/
def modelDailyRows : Option SourceValue → Except AiUsageReportError (Option (List SourceValue))
  | none => .ok none
  | some (.array rows) => .ok (some rows)
  | _ => .error unavailable

/-- The cache status that the gateway gives with the days. -/
def parseCacheStatus (days : List ModelDay) : Option SourceValue → Except AiUsageReportError UsageSource
  | none => if days ≠ [] then .error unavailable else .ok { days, fresh := true, usable := true }
  | some (.record fields) => do
      let status ← Except.orThrow (SourceValue.asText (SourceValue.field fields "status")) unavailable
      Except.ensure (status ∈ ["fresh", "partial", "stale", "refreshing"]) unavailable
      let cached ← Except.orThrow (safeInteger (SourceValue.field fields "cachedFiles")) unavailable
      let pending ← Except.orThrow (safeInteger (SourceValue.field fields "pendingFiles")) unavailable
      let fresh : Bool := status = "fresh" ∧ pending = 0
      return { days, fresh, usable := fresh || 0 < cached || !days.isEmpty }
  | _ => .error unavailable

/-- The total is the number zero. -/
def isZero : Option SourceValue → Bool
  | some (.integer value) => value = 0
  | _ => false

def parseUsageSource (raw : SourceValue) (query : AiUsageReportQuery) : Except AiUsageReportError UsageSource := do
  let answer ← Except.orThrow (SourceValue.asRecord (some raw)) unavailable
  let aggregates ←
    Except.orThrow (SourceValue.asRecord (SourceValue.field answer "aggregates")) unavailable
  let totals ← Except.orThrow (SourceValue.asRecord (SourceValue.field answer "totals")) unavailable
  let rows ← modelDailyRows (SourceValue.field aggregates "modelDaily")
  Except.ensure (rows.isSome ∨ isZero (SourceValue.field totals "totalTokens") = true) unavailable
  let days ← (rows.getD []).mapM (parseModelDay query)
  parseCacheStatus days (SourceValue.field answer "cacheStatus")

end PlatformClaw.Reporting
