import PlatformClaw.Library.ScriptString
import Mathlib.Data.Int.LeastGreatest

/-! # Schedules

When a schedule is due next, and when it was due last. A cron expression is evaluated by a library that
answers in whole seconds; near a change of the clocks its answers are normalized. Times are milliseconds.
-/

namespace PlatformClaw.Scheduling

/-- An expression in a time zone. -/
structure Cron where
  nextRun : Int → Option Int
  /-- The last of the runs before. -/
  previousRun : Int → Option Int
  hasNearbyTimezoneTransition : Int → Int → Bool
  /-- What becomes of a next run beside a change of the clocks. -/
  resolveNextOccurrenceMs : Int → Int → Option Int
  resolvePreviousOccurrenceMs : Int → Option Int → Option Int

inductive CronSchedule where
  /-- Once, where the text names a time. -/
  | once (atMs : Option Int)
  | every (everyMs anchorMs : Option Int)
  | cron (expr : String) (tz : Option String) (staggerMs : Option Int)
  | onExit
  | stream
deriving DecidableEq, Repr

/-- What evaluates schedules. -/
structure Evaluation where
  localTimezone : String
  cron : String → String → Cron
  /-- The first four bytes of the hash of an id. -/
  digest : String → Nat

def maxSafeInteger : Int := 9007199254740991

def dayMs : Int := 86400000

/-- The window for jobs that recur at the top of an hour. -/
def defaultTopOfHourStaggerMs : Int := 5 * 60 * 1000

def digits (text : List Char) : Bool := !text.isEmpty && text.all Char.isDigit

def parseCronFields (expr : String) : List (List Char) :=
  (expr.toList.splitOnP ScriptString.isWhitespace).filter fun field => !field.isEmpty

/-- `HOUR_LIST_PART`. -/
def isHourListPart (part : List Char) : Bool :=
  let isHour (hour : List Char) : Bool :=
    hour == ['*'] || hour == ['?'] || digits hour ||
      match ScriptString.splitChars '-' hour with
      | [first, last] => digits first && digits last
      | _ => false
  match ScriptString.splitChars '/' part with
  | [hour] => isHour hour
  | [hour, step] => isHour hour && digits step
  | _ => false

def hasRecurringWildcardHour (field : List Char) : Bool :=
  let parts := ScriptString.splitChars ',' field
  parts.all isHourListPart && parts.any fun part => part.head? == some '*' || part.head? == some '?'

def isRecurringTopOfHourCronExpr (expr : String) : Bool :=
  match parseCronFields expr with
  | [minuteField, hourField, _, _, _] => minuteField == ['0'] && hasRecurringWildcardHour hourField
  | [secondField, minuteField, hourField, _, _, _] =>
    secondField == ['0'] && minuteField == ['0'] && hasRecurringWildcardHour hourField
  | _ => false

def normalizeCronStaggerMs (raw : Int) : Option Int :=
  if max 0 raw ≤ maxSafeInteger then some (max 0 raw) else none

def resolveCronStaggerMs (expr : String) (staggerMs : Option Int) : Int :=
  (staggerMs.bind normalizeCronStaggerMs).getD
    (if isRecurringTopOfHourCronExpr expr then defaultTopOfHourStaggerMs else 0)

/-- The offset of a job in its window; it is remembered for a while and is the same each time. -/
def resolveStableCronOffsetMs (evaluation : Evaluation) (jobId : String) (staggerMs : Int) : Int :=
  if staggerMs ≤ 1 then 0 else evaluation.digest jobId % staggerMs

theorem resolveStableCronOffsetMs_nonneg (evaluation : Evaluation) (jobId : String) (staggerMs : Int) :
    0 ≤ resolveStableCronOffsetMs evaluation jobId staggerMs := by
  unfold resolveStableCronOffsetMs
  split
  · exact Int.le_refl 0
  · exact Int.emod_nonneg _ (by omega)

def resolveCronTimezone (evaluation : Evaluation) (tz : Option String) : String :=
  let trimmed := ScriptString.trim (tz.getD "")
  if trimmed = "" then evaluation.localTimezone else trimmed

/-- An expression that is no text, or that the library refuses, throws before anything is computed. -/
def resolveCronFromSchedule (evaluation : Evaluation) (expr : String) (tz : Option String) : Option Cron :=
  let trimmed := ScriptString.trim expr
  if trimmed = "" then none else some (evaluation.cron trimmed (resolveCronTimezone evaluation tz))

def resolveValidatedNextCronOccurrenceMs (cron : Cron) (nowMs candidateMs : Int) : Option Int :=
  if candidateMs > nowMs ∧ cron.hasNearbyTimezoneTransition nowMs candidateMs = false then
    some candidateMs
  else (cron.resolveNextOccurrenceMs nowMs candidateMs).filter fun normalizedMs => nowMs < normalizedMs

/-- The next run of an expression; when the library answers with a time that has passed, it is asked
again from later times. -/
def computeNextCronRunAtMs (cron : Cron) (nowMs : Int) : Option Int :=
  let validatedAfter (timeMs : Int) : Option Int :=
    (cron.nextRun timeMs).bind (resolveValidatedNextCronOccurrenceMs cron nowMs)
  match cron.nextRun nowMs with
  | none => none
  | some nextMs =>
    match resolveValidatedNextCronOccurrenceMs cron nowMs nextMs with
    | some normalizedNextMs => some normalizedNextMs
    | none =>
      if nextMs > nowMs then none
      else (validatedAfter (nowMs / 1000 * 1000 + 1000)).or (validatedAfter (nowMs / dayMs * dayMs + dayMs))

def computeNextRunAtMs (evaluation : Evaluation) (schedule : CronSchedule) (nowMs : Int) : Option Int :=
  match schedule with
  | .once atMs => atMs.filter fun atMs => nowMs < atMs
  | .every everyMs anchorMs => do
      let everyMs := max 1 (← everyMs)
      let anchor := max 0 (anchorMs.getD nowMs)
      if nowMs < anchor then some anchor
      else some (anchor + ((nowMs - anchor) / everyMs + 1) * everyMs)
  | .onExit => none
  | .stream => none
  | .cron expr tz _ => do computeNextCronRunAtMs (← resolveCronFromSchedule evaluation expr tz) nowMs

def computePreviousCronRunAtMs (cron : Cron) (nowMs : Int) : Option Int :=
  match cron.previousRun nowMs with
  | some previousMs =>
    if previousMs < nowMs ∧ cron.hasNearbyTimezoneTransition nowMs previousMs = false then
      some previousMs
    else cron.resolvePreviousOccurrenceMs nowMs (some previousMs)
  | none => cron.resolvePreviousOccurrenceMs nowMs none

def computePreviousRunAtMs (evaluation : Evaluation) (schedule : CronSchedule) (nowMs : Int) : Option Int :=
  match schedule with
  | .cron expr tz _ => do
      computePreviousCronRunAtMs (← resolveCronFromSchedule evaluation expr tz) nowMs
  | _ => none

/-- What next and previous runs are of a set of occurrences at whole seconds. -/
structure Exact (occurs : Int → Prop) (next previous : Int → Option Int) : Prop where
  whole : ∀ {base : Int}, occurs base → base % 1000 = 0
  next_iff : ∀ {now base : Int}, next now = some base ↔ IsLeast {b | occurs b ∧ now < b} base
  previous_iff : ∀ {now base : Int}, previous now = some base ↔ IsGreatest {b | occurs b ∧ b < now / 1000 * 1000} base

/-- The answers of the library, none of which a change of the clocks moves. -/
structure Cron.Settled (occurs : Int → Prop) (cron : Cron) : Prop where
  exact : Exact occurs cron.nextRun cron.previousRun
  keepsNext : ∀ {now base : Int}, cron.nextRun now = some base →
    cron.hasNearbyTimezoneTransition now base = true → cron.resolveNextOccurrenceMs now base = some base
  keepsPrevious : ∀ {now base : Int}, cron.previousRun now = some base →
    cron.hasNearbyTimezoneTransition now base = true →
    cron.resolvePreviousOccurrenceMs now (some base) = some base
  keepsNone : ∀ {now : Int}, cron.previousRun now = none → cron.resolvePreviousOccurrenceMs now none = none

section Settled

variable {occurs : Int → Prop} {cron : Cron} (settled : cron.Settled occurs)

include settled

theorem Cron.Settled.computeNext (now : Int) : computeNextCronRunAtMs cron now = cron.nextRun now := by
  unfold computeNextCronRunAtMs
  cases found : cron.nextRun now with
  | none => rfl
  | some base =>
    have later : now < base := (settled.exact.next_iff.mp found).1.2
    have validated : resolveValidatedNextCronOccurrenceMs cron now base = some base := by
      unfold resolveValidatedNextCronOccurrenceMs
      cases near : cron.hasNearbyTimezoneTransition now base with
      | false => simp [later]
      | true => simp [settled.keepsNext found near, later]
    simp [validated]

theorem Cron.Settled.computePrevious (now : Int) : computePreviousCronRunAtMs cron now = cron.previousRun now := by
  unfold computePreviousCronRunAtMs
  cases found : cron.previousRun now with
  | none => exact settled.keepsNone found
  | some base =>
    have earlier := (settled.exact.previous_iff.mp found).1.2
    cases near : cron.hasNearbyTimezoneTransition now base with
    | false =>
      have before : base < now := by omega
      simp [before, near]
    | true => simp [settled.keepsPrevious found near]

end Settled

/-- Schedules whose expression the library answers exactly are computed exactly. -/
theorem exact_of_settled {evaluation : Evaluation} {expr : String} {tz : Option String}
    {staggerMs : Option Int} {occurs : Int → Prop} {cron : Cron}
    (resolved : resolveCronFromSchedule evaluation expr tz = some cron) (settled : cron.Settled occurs) :
    Exact occurs (computeNextRunAtMs evaluation (.cron expr tz staggerMs))
      (computePreviousRunAtMs evaluation (.cron expr tz staggerMs)) where
  whole := settled.exact.whole
  next_iff := by
    intro now base
    simp only [computeNextRunAtMs, resolved, Option.bind_eq_bind, Option.bind_some,
      settled.computeNext, settled.exact.next_iff]
  previous_iff := by
    intro now base
    simp only [computePreviousRunAtMs, resolved, Option.bind_eq_bind, Option.bind_some,
      settled.computePrevious, settled.exact.previous_iff]

end PlatformClaw.Scheduling
