import PlatformClaw.Scheduling.Schedule
import Mathlib.Order.Bounds.Basic

/-! # Staggered runs

Each job with a cron expression runs at its own offset after the occurrences of the expression. The runs
are found from the occurrences: the cursor is moved back by the offset, and since previous occurrences are
asked for by the second, the last run is also looked for one second later.
-/

namespace PlatformClaw.Scheduling

structure CronJob where
  id : String
  enabled : Option Bool
  schedule : CronSchedule
  createdAtMs : Option Int
  lastRunAtMs : Option Int
  lastRunStatus : Option String
  /-- The status as older versions keep it. -/
  lastStatus : Option String
deriving DecidableEq, Repr

variable (evaluation : Evaluation)

def probeNext (next : Int → Option Int) (offsetMs nowMs : Int) : Nat → Int → Option Int
  | 0, _ => none
  | attempts + 1, cursorMs =>
    match next cursorMs with
    | none => none
    | some baseNext =>
      if nowMs < baseNext + offsetMs then some (baseNext + offsetMs)
      else probeNext next offsetMs nowMs attempts (max (cursorMs + 1) (baseNext + 1000))

def probePrevious (previous : Int → Option Int) (offsetMs nowMs : Int) : Nat → Int → Option Int
  | 0, _ => none
  | attempts + 1, cursorMs =>
    match previous cursorMs with
    | none => none
    | some basePrevious =>
      if basePrevious + offsetMs ≤ nowMs then some (basePrevious + offsetMs)
      else probePrevious previous offsetMs nowMs attempts (max 0 (basePrevious - 1000))

def CronJob.offsetMs (job : CronJob) : Int :=
  match job.schedule with
  | .cron expr _ staggerMs =>
    resolveStableCronOffsetMs evaluation job.id (resolveCronStaggerMs expr staggerMs)
  | _ => 0

def CronJob.isCron (job : CronJob) : Bool :=
  match job.schedule with
  | .cron _ _ _ => true
  | _ => false

def computeStaggeredCronNextRunAtMs (job : CronJob) (nowMs : Int) : Option Int :=
  if job.isCron = false ∨ job.offsetMs evaluation ≤ 0 then
    computeNextRunAtMs evaluation job.schedule nowMs
  else probeNext (computeNextRunAtMs evaluation job.schedule) (job.offsetMs evaluation) nowMs 4
    (max 0 (nowMs - job.offsetMs evaluation))

def computeStaggeredCronPreviousRunAtMs (job : CronJob) (nowMs : Int) : Option Int :=
  if job.isCron = false then none
  else if job.offsetMs evaluation ≤ 0 then computePreviousRunAtMs evaluation job.schedule nowMs
  else probePrevious (computePreviousRunAtMs evaluation job.schedule) (job.offsetMs evaluation) nowMs 4
    (max 0 (nowMs - job.offsetMs evaluation))

def computeStaggeredCronPreviousRunAtOrBeforeMs (job : CronJob) (nowMs : Int) : Option Int :=
  let previous := computeStaggeredCronPreviousRunAtMs evaluation job nowMs
  match computeStaggeredCronPreviousRunAtMs evaluation job (nowMs + 1000) with
  | none => previous
  | some boundary =>
    if boundary ≤ nowMs ∧ previous.all (fun previous => previous < boundary) = true then some boundary
    else previous

def isStaggeredCronRunAtMs (job : CronJob) (runAtMs : Int) : Bool :=
  job.isCron && computeStaggeredCronPreviousRunAtOrBeforeMs evaluation job runAtMs == some runAtMs

def isJobEnabled (job : CronJob) : Bool := job.enabled.getD true

def resolveJobLastRunStatus (job : CronJob) : Option String := job.lastRunStatus.or job.lastStatus

def resolveEveryAnchorMs (anchorMs : Option Int) (fallbackAnchorMs : Int) : Int :=
  max 0 (anchorMs.getD fallbackAnchorMs)

def computeJobNextRunAtMs (job : CronJob) (nowMs : Int) : Option Int :=
  if isJobEnabled job = false then none
  else
    match job.schedule with
    | .every none _ => none
    | .every (some everyMsRaw) anchorMs =>
      let everyMs := max 1 everyMsRaw
      let anchorMs := resolveEveryAnchorMs anchorMs (job.createdAtMs.getD nowMs)
      let next := computeNextRunAtMs evaluation (.every (some everyMs) (some anchorMs)) nowMs
      match job.lastRunAtMs with
      | some lastRunAtMs => if lastRunAtMs + everyMs > nowMs then some (lastRunAtMs + everyMs) else next
      | none => next
    | .once atMs =>
      -- A job that ran is due again only where its time was moved past that run.
      match job.lastRunAtMs with
      | some lastRunAtMs =>
        if resolveJobLastRunStatus job = some "ok" ∧ lastRunAtMs ≠ 0 then
          atMs.filter fun atMs => lastRunAtMs < atMs
        else atMs
      | none => atMs
    | .cron _ _ _ =>
      (computeStaggeredCronNextRunAtMs evaluation job nowMs).or
        (computeStaggeredCronNextRunAtMs evaluation job (nowMs / 1000 * 1000 + 1000))
    | .onExit => computeStaggeredCronNextRunAtMs evaluation job nowMs
    | .stream => computeStaggeredCronNextRunAtMs evaluation job nowMs

def computeJobPreviousRunAtOrBeforeMs (job : CronJob) (nowMs : Int) : Option Int :=
  if isJobEnabled job = false ∨ job.isCron = false then none
  else computeStaggeredCronPreviousRunAtOrBeforeMs evaluation job nowMs

section Probes

variable {occurs : Int → Prop} {next previous : Int → Option Int} {offset now : Int}

def RunsAt (occurs : Int → Prop) (offset run : Int) : Prop := ∃ base, occurs base ∧ run = base + offset

theorem runsAt_add {base : Int} : RunsAt occurs offset (base + offset) ↔ occurs base := by
  constructor
  · rintro ⟨other, here, same⟩
    have equal : base = other := by omega
    rw [equal]
    exact here
  · exact fun here => ⟨base, here, rfl⟩

theorem isLeast_run {base : Int} (least : IsLeast {b | occurs b ∧ now - offset < b} base) :
    IsLeast {run | RunsAt occurs offset run ∧ now < run} (base + offset) := by
  constructor
  · have later := least.1.2
    exact ⟨runsAt_add.mpr least.1.1, by omega⟩
  · rintro run ⟨⟨other, here, rfl⟩, later⟩
    have ordered := least.2 (show other ∈ {b | occurs b ∧ now - offset < b} from ⟨here, by omega⟩)
    omega

theorem isGreatest_run {base : Int} (greatest : IsGreatest {b | occurs b ∧ b ≤ now - offset} base) :
    IsGreatest {run | RunsAt occurs offset run ∧ run ≤ now} (base + offset) := by
  constructor
  · have earlier := greatest.1.2
    exact ⟨runsAt_add.mpr greatest.1.1, by omega⟩
  · rintro run ⟨⟨other, here, rfl⟩, earlier⟩
    have ordered := greatest.2 (show other ∈ {b | occurs b ∧ b ≤ now - offset} from ⟨here, by omega⟩)
    omega

variable (exact : Exact occurs next previous)

include exact

theorem Exact.next_none_iff : next now = none ↔ ∀ base, occurs base → base ≤ now := by
  constructor
  · intro none base here
    by_contra later
    obtain ⟨least, ⟨inSet, lower⟩⟩ := Int.exists_least_of_bdd
      (P := fun b => occurs b ∧ now < b) ⟨now, fun b inSet => by omega⟩ ⟨base, here, by omega⟩
    have found := exact.next_iff.mpr ⟨inSet, fun b inSet => lower b inSet⟩
    rw [none] at found
    cases found
  · intro all
    cases found : next now with
    | none => rfl
    | some base =>
      obtain ⟨here, later⟩ := (exact.next_iff.mp found).1
      exact absurd (all base here) (by omega)

theorem Exact.previous_none_iff : previous now = none ↔ ∀ base, occurs base → now / 1000 * 1000 ≤ base := by
  constructor
  · intro none base here
    by_contra earlier
    obtain ⟨greatest, ⟨inSet, upper⟩⟩ := Int.exists_greatest_of_bdd
      (P := fun b => occurs b ∧ b < now / 1000 * 1000) ⟨now / 1000 * 1000, fun b inSet => by omega⟩
      ⟨base, here, by omega⟩
    have found := exact.previous_iff.mpr ⟨inSet, fun b inSet => upper b inSet⟩
    rw [none] at found
    cases found
  · intro all
    cases found : previous now with
    | none => rfl
    | some base =>
      obtain ⟨here, earlier⟩ := (exact.previous_iff.mp found).1
      exact absurd (all base here) (by omega)

theorem Exact.probeNext_eq (attempts : Nat) : probeNext next offset now (attempts + 1) (now - offset) =
      (next (now - offset)).map fun base => base + offset := by
  rw [probeNext]
  cases found : next (now - offset) with
  | none => rfl
  | some base =>
    have later := (exact.next_iff.mp found).1.2
    exact if_pos (by omega)

theorem Exact.probePrevious_eq (attempts : Nat) : probePrevious previous offset now (attempts + 1) (now - offset) =
      (previous (now - offset)).map fun base => base + offset := by
  rw [probePrevious]
  cases found : previous (now - offset) with
  | none => rfl
  | some base =>
    have earlier := (exact.previous_iff.mp found).1.2
    exact if_pos (by omega)

theorem Exact.previous_second_iff {base : Int} :
    previous (now + 1000) = some base ↔ IsGreatest {b | occurs b ∧ b ≤ now} base := by
  have same : {b | occurs b ∧ b < (now + 1000) / 1000 * 1000} = {b | occurs b ∧ b ≤ now} := by
    ext b
    constructor
    · rintro ⟨here, earlier⟩
      have whole := exact.whole here
      exact ⟨here, by omega⟩
    · rintro ⟨here, earlier⟩
      have whole := exact.whole here
      exact ⟨here, by omega⟩
  rw [exact.previous_iff, same]

end Probes

theorem CronJob.offsetMs_nonneg (job : CronJob) : 0 ≤ job.offsetMs evaluation := by
  unfold CronJob.offsetMs
  split
  · exact resolveStableCronOffsetMs_nonneg _ _ _
  · exact Int.le_refl 0

section Job

variable {evaluation} {job : CronJob} (cron : job.isCron = true) {occurs : Int → Prop}
  (exact : Exact occurs (computeNextRunAtMs evaluation job.schedule) (computePreviousRunAtMs evaluation job.schedule))
  {now : Int} (reached : job.offsetMs evaluation ≤ now)

include cron exact reached

theorem staggeredNext_eq : computeStaggeredCronNextRunAtMs evaluation job now =
    (computeNextRunAtMs evaluation job.schedule (now - job.offsetMs evaluation)).map
      fun base => base + job.offsetMs evaluation := by
  have nonneg := job.offsetMs_nonneg evaluation
  unfold computeStaggeredCronNextRunAtMs
  by_cases zero : job.offsetMs evaluation = 0
  · rw [if_pos (.inr (by omega)), zero, Int.sub_zero]
    simp
  · rw [if_neg (by simp [cron]; omega), Int.max_eq_right (by omega)]
    exact exact.probeNext_eq 3

theorem staggeredPrevious_eq : computeStaggeredCronPreviousRunAtMs evaluation job now =
    (computePreviousRunAtMs evaluation job.schedule (now - job.offsetMs evaluation)).map
      fun base => base + job.offsetMs evaluation := by
  have nonneg := job.offsetMs_nonneg evaluation
  unfold computeStaggeredCronPreviousRunAtMs
  rw [if_neg (by simp [cron])]
  by_cases zero : job.offsetMs evaluation = 0
  · rw [if_pos (by omega), zero, Int.sub_zero]
    simp
  · rw [if_neg (by omega), Int.max_eq_right (by omega)]
    exact exact.probePrevious_eq 3

theorem staggeredNext_iff {run : Int} : computeStaggeredCronNextRunAtMs evaluation job now = some run ↔
    IsLeast {run | RunsAt occurs (job.offsetMs evaluation) run ∧ now < run} run := by
  rw [staggeredNext_eq cron exact reached]
  constructor
  · intro found
    obtain ⟨base, here, rfl⟩ := Option.map_eq_some_iff.mp found
    exact isLeast_run (exact.next_iff.mp here)
  · intro least
    cases found : computeNextRunAtMs evaluation job.schedule (now - job.offsetMs evaluation) with
    | none =>
      obtain ⟨⟨base, here, rfl⟩, later⟩ := least.1
      have earlier := exact.next_none_iff.mp found base here
      omega
    | some base => exact congrArg some ((isLeast_run (exact.next_iff.mp found)).unique least)

theorem staggeredAtOrBefore_eq : computeStaggeredCronPreviousRunAtOrBeforeMs evaluation job now =
    (computePreviousRunAtMs evaluation job.schedule (now - job.offsetMs evaluation + 1000)).map
      fun base => base + job.offsetMs evaluation := by
  have second : now + 1000 - job.offsetMs evaluation = now - job.offsetMs evaluation + 1000 := by omega
  unfold computeStaggeredCronPreviousRunAtOrBeforeMs
  dsimp only
  rw [staggeredPrevious_eq cron exact reached, staggeredPrevious_eq cron exact (by omega), second]
  cases boundary : computePreviousRunAtMs evaluation job.schedule (now - job.offsetMs evaluation + 1000) with
  | none =>
    have all := exact.previous_none_iff.mp boundary
    have none := exact.previous_none_iff.mpr fun base here => by
      have later := all base here
      show (now - job.offsetMs evaluation) / 1000 * 1000 ≤ base
      omega
    rw [none]
    rfl
  | some base =>
    have greatest := exact.previous_second_iff.mp boundary
    have upTo : base + job.offsetMs evaluation ≤ now := by
      have earlier := greatest.1.2
      omega
    cases previous : computePreviousRunAtMs evaluation job.schedule (now - job.offsetMs evaluation) with
    | none => simp [upTo]
    | some other =>
      obtain ⟨here, earlier⟩ := (exact.previous_iff.mp previous).1
      have ordered := greatest.2
        (show other ∈ {b | occurs b ∧ b ≤ now - job.offsetMs evaluation} from ⟨here, by omega⟩)
      by_cases same : other = base
      · simp [same]
      · have less : other < base := by omega
        simp [upTo, less]

theorem staggeredAtOrBefore_iff {run : Int} :
    computeStaggeredCronPreviousRunAtOrBeforeMs evaluation job now = some run ↔
      IsGreatest {run | RunsAt occurs (job.offsetMs evaluation) run ∧ run ≤ now} run := by
  rw [staggeredAtOrBefore_eq cron exact reached]
  constructor
  · intro found
    obtain ⟨base, here, rfl⟩ := Option.map_eq_some_iff.mp found
    exact isGreatest_run (exact.previous_second_iff.mp here)
  · intro greatest
    cases found : computePreviousRunAtMs evaluation job.schedule (now - job.offsetMs evaluation + 1000) with
    | none =>
      obtain ⟨⟨base, here, rfl⟩, upTo⟩ := greatest.1
      have later := exact.previous_none_iff.mp found base here
      have whole := exact.whole here
      omega
    | some base =>
      exact congrArg some ((isGreatest_run (exact.previous_second_iff.mp found)).unique greatest)

theorem isStaggeredRun_iff : isStaggeredCronRunAtMs evaluation job now = true ↔
    RunsAt occurs (job.offsetMs evaluation) now := by
  simp only [isStaggeredCronRunAtMs, cron, Bool.true_and, beq_iff_eq, staggeredAtOrBefore_iff cron exact reached]
  constructor
  · exact fun greatest => greatest.1.1
  · exact fun here => ⟨⟨here, Int.le_refl now⟩, fun run inSet => inSet.2⟩

theorem computeJobNextRunAtMs_eq (enabled : isJobEnabled job = true) :
    computeJobNextRunAtMs evaluation job now = computeStaggeredCronNextRunAtMs evaluation job now := by
  have twice : computeJobNextRunAtMs evaluation job now = (computeStaggeredCronNextRunAtMs evaluation job now).or
        (computeStaggeredCronNextRunAtMs evaluation job (now / 1000 * 1000 + 1000)) := by
    unfold computeJobNextRunAtMs
    rw [if_neg (by simp [enabled])]
    unfold CronJob.isCron at cron
    split at cron
    · rename_i isCron
      rw [isCron]
    · cases cron
  rw [twice]
  cases found : computeStaggeredCronNextRunAtMs evaluation job now with
  | some run => rfl
  | none =>
    rw [Option.none_or]
    cases later : computeStaggeredCronNextRunAtMs evaluation job (now / 1000 * 1000 + 1000) with
    | none => rfl
    | some run =>
      -- What is due after the next second is due after now.
      obtain ⟨⟨base, here, rfl⟩, after⟩ := ((staggeredNext_iff cron exact (by omega)).mp later).1
      rw [staggeredNext_eq cron exact reached, Option.map_eq_none_iff] at found
      have upTo := exact.next_none_iff.mp found base here
      omega

end Job

/-- Where the expression is answered exactly, so are its staggered runs: the next one, the last one up to
now, and whether one is due now. -/
theorem staggered_runs_exact {evaluation : Evaluation} {job : CronJob} (cron : job.isCron = true)
    {occurs : Int → Prop}
    (exact : Exact occurs (computeNextRunAtMs evaluation job.schedule)
      (computePreviousRunAtMs evaluation job.schedule))
    {now : Int} (reached : job.offsetMs evaluation ≤ now) :
    (∀ run, computeStaggeredCronNextRunAtMs evaluation job now = some run ↔
      IsLeast {run | RunsAt occurs (job.offsetMs evaluation) run ∧ now < run} run) ∧
    (∀ run, computeStaggeredCronPreviousRunAtOrBeforeMs evaluation job now = some run ↔
      IsGreatest {run | RunsAt occurs (job.offsetMs evaluation) run ∧ run ≤ now} run) ∧
    (isStaggeredCronRunAtMs evaluation job now = true ↔ RunsAt occurs (job.offsetMs evaluation) now) ∧
    (isJobEnabled job = true →
      computeJobNextRunAtMs evaluation job now = computeStaggeredCronNextRunAtMs evaluation job now ∧
      computeJobPreviousRunAtOrBeforeMs evaluation job now =
        computeStaggeredCronPreviousRunAtOrBeforeMs evaluation job now) := by
  refine ⟨fun run => staggeredNext_iff cron exact reached,
    fun run => staggeredAtOrBefore_iff cron exact reached, isStaggeredRun_iff cron exact reached,
    fun enabled => ⟨computeJobNextRunAtMs_eq cron exact reached enabled, ?_⟩⟩
  unfold computeJobPreviousRunAtOrBeforeMs
  rw [if_neg (by simp [enabled, cron])]

/-- Every minute, where the clocks never change. -/
def everyMinute : Cron where
  nextRun now := some ((now / 60000 + 1) * 60000)
  previousRun now := some ((now / 1000 * 1000 - 1) / 60000 * 60000)
  hasNearbyTimezoneTransition _ _ := false
  resolveNextOccurrenceMs _ candidateMs := some candidateMs
  resolvePreviousOccurrenceMs _ previousMs := previousMs

theorem settled_everyMinute : everyMinute.Settled fun base => base % 60000 = 0 where
  exact :=
    { whole := by
        intro base here
        omega
      next_iff := by
        intro now base
        constructor
        · intro found
          cases found
          refine ⟨⟨by omega, by omega⟩, ?_⟩
          rintro other ⟨here, later⟩
          omega
        · rintro ⟨⟨here, later⟩, least⟩
          have upTo := least (show (now / 60000 + 1) * 60000 ∈ _ from ⟨by omega, by omega⟩)
          exact congrArg some (by omega)
      previous_iff := by
        intro now base
        constructor
        · intro found
          cases found
          refine ⟨⟨by omega, by omega⟩, ?_⟩
          rintro other ⟨here, earlier⟩
          omega
        · rintro ⟨⟨here, earlier⟩, greatest⟩
          have upTo := greatest (show (now / 1000 * 1000 - 1) / 60000 * 60000 ∈ _ from ⟨by omega, by omega⟩)
          exact congrArg some (by omega) }
  keepsNext := by
    intro now base found near
    cases near
  keepsPrevious := by
    intro now base found near
    cases near
  keepsNone := by
    intro now found
    cases found

def minuteJob : CronJob :=
  ⟨"job", none, .cron "* * * * *" (some "UTC") (some 30000), none, none, none, none⟩

def minuteEvaluation : Evaluation where
  localTimezone := "UTC"
  cron _ _ := everyMinute
  digest _ := 12345

/-- The job is due at its offset and not at the minute. -/
theorem staggered_runs_exact_minute : isStaggeredCronRunAtMs minuteEvaluation minuteJob 72345 = true ∧
      isStaggeredCronRunAtMs minuteEvaluation minuteJob 120000 = false ∧
      computeJobNextRunAtMs minuteEvaluation minuteJob 72345 = some 132345 := by
  have offset : minuteJob.offsetMs minuteEvaluation = 12345 := by decide +kernel
  have resolved : resolveCronFromSchedule minuteEvaluation "* * * * *" (some "UTC") =
      some everyMinute := by
    rw [resolveCronFromSchedule, if_neg (by decide +kernel)]
    rfl
  have exact := @exact_of_settled _ _ _ (some 30000) _ _ resolved settled_everyMinute
  have due := @staggered_runs_exact _ minuteJob rfl _ exact 72345 (by rw [offset]; decide)
  have idle := @staggered_runs_exact _ minuteJob rfl _ exact 120000 (by rw [offset]; decide)
  rw [offset] at due idle
  refine ⟨due.2.2.1.mpr ⟨60000, rfl, rfl⟩, ?_, ?_⟩
  · rw [Bool.eq_false_iff]
    intro here
    obtain ⟨base, whole, same⟩ := idle.2.2.1.mp here
    omega
  · rw [(due.2.2.2 rfl).1, due.1]
    refine ⟨⟨⟨120000, rfl, rfl⟩, by decide⟩, ?_⟩
    rintro run ⟨⟨base, whole, rfl⟩, later⟩
    omega

end PlatformClaw.Scheduling
