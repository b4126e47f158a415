import PlatformClaw.Reporting.ReportRuns

/-! # Every report comes to an end

Whatever has happened so far, as long as a worker is not through, some worker
can go on, and each step that goes on leaves less to do. So every run can be
continued to one in which all reports are settled.
-/

namespace PlatformClaw.Reporting

namespace WorkerStage

/-- Steps that are left to do for the user at hand, the wait included. -/
def weight : WorkerStage → Nat
  | .looping => 1
  | .waiting _ => 5
  | .woken _ => 4
  | .reading _ => 3
  | .read _ _ => 2
  | .finished => 0

end WorkerStage

theorem sum_set_eq {α : Type} {items : List α} {i : Nat} {old : α} (new : α) (f : α → Nat)
    (located : items[i]? = some old) :
    ((items.set i new).map f).sum + f old = (items.map f).sum + f new := by
  induction items generalizing i with
  | nil => cases located
  | cons first rest ih =>
    cases i with
    | zero =>
      obtain rfl := Option.some.inj located
      simp only [List.set_cons_zero, List.map_cons, List.sum_cons]
      omega
    | succ i =>
      have rest := ih located
      simp only [List.set_cons_succ, List.map_cons, List.sum_cons]
      omega

namespace ReportWorld

variable {setting : ReportSetting} {world : ReportWorld}

/-- What is left to do: jobs that no worker has taken, and those under way. -/
def work (world : ReportWorld) : Nat :=
  (world.builds.map fun build => 6 * (build.jobs.length - build.nextJob)).sum +
    (world.workers.map fun worker => worker.stage.weight).sum

theorem work_setStage {i number : Nat} {own : ReportWorker}
    (located : world.workers[i]? = some own) {stage : WorkerStage}
    (less : stage.weight < own.stage.weight) : (world.setStage i number stage).work < world.work := by
  have moved := sum_set_eq { build := number, stage } (fun worker => worker.stage.weight) located
  dsimp only at moved
  show _ + ((world.workers.set i { build := number, stage }).map fun worker =>
    worker.stage.weight).sum < _ + _
  apply Nat.add_lt_add_left
  omega

theorem weight_wake (stage : WorkerStage) : (wake stage).weight ≤ stage.weight := by
  cases stage with
  | waiting user => exact Nat.le_succ 4
  | looping | woken | reading | read | finished => exact Nat.le_refl _

theorem work_release (world : ReportWorld) : world.release.work ≤ world.work := by
  unfold ReportWorld.release
  split
  · rename_i next rest queue
    apply Nat.add_le_add_left
    show ((world.workers.modify next _).map _).sum ≤ _
    cases found : world.workers[next]? with
    | none =>
      exact Nat.le_of_eq (by rw [List.modify_eq_self (List.getElem?_eq_none_iff.mp found)])
    | some own =>
      rw [modify_eq_set _ found]
      have moved := sum_set_eq { own with stage := wake own.stage }
        (fun worker : ReportWorker => worker.stage.weight) found
      have lighter := weight_wake own.stage
      dsimp only at moved
      omega
  · exact Nat.le_refl _

theorem work_setBuild {number : Nat} {build : ReportBuild}
    (atBuild : world.builds[number]? = some build) {changed : ReportBuild}
    (jobs : changed.jobs = build.jobs) (next : changed.nextJob = build.nextJob) :
    (world.setBuild number changed).work = world.work := by
  have moved := sum_set_eq changed (fun build => 6 * (build.jobs.length - build.nextJob)) atBuild
  rw [jobs, next] at moved
  exact congrArg (· + _) (Nat.add_right_cancel moved)

theorem work_takeJob {i : Nat} {own : ReportWorker} (located : world.workers[i]? = some own)
    (looping : own.stage = .looping) {build : ReportBuild}
    (atBuild : world.builds[own.build]? = some build) {user : AiUsageReportUser}
    (job : build.jobs[build.nextJob]? = some user) :
    ((world.setBuild own.build { build with nextJob := build.nextJob + 1 }).acquire i own.build
      user).work < world.work := by
  have inside := (List.getElem?_eq_some_iff.mp job).1
  have taken := sum_set_eq { build with nextJob := build.nextJob + 1 }
    (fun build => 6 * (build.jobs.length - build.nextJob)) atBuild
  replace taken : ((world.builds.set own.build { build with nextJob := build.nextJob + 1 }).map
      fun build => 6 * (build.jobs.length - build.nextJob)).sum +
        6 * (build.jobs.length - build.nextJob) =
      (world.builds.map fun build => 6 * (build.jobs.length - build.nextJob)).sum +
        6 * (build.jobs.length - (build.nextJob + 1)) := taken
  have moved : ∀ stage : WorkerStage, ((world.workers.set i { build := own.build, stage }).map fun worker =>
          worker.stage.weight).sum + 1 =
        (world.workers.map fun worker => worker.stage.weight).sum + stage.weight := by
    intro stage
    have moved := sum_set_eq { build := own.build, stage } (fun worker : ReportWorker => worker.stage.weight) located
    dsimp only at moved
    rw [looping] at moved
    exact moved
  unfold ReportWorld.acquire
  split
  · have waits := moved (.waiting user)
    show _ + _ < _ + _
    replace waits : _ = _ + 5 := waits
    dsimp only [ReportWorld.setStage, ReportWorld.setBuild]
    omega
  · have reads := moved (.reading user)
    show _ + _ < _ + _
    replace reads : _ = _ + 3 := reads
    dsimp only [ReportWorld.setStage, ReportWorld.setBuild]
    omega

theorem work_advance (sound : Sound setting world) {i : Nat} {own : ReportWorker}
    (located : world.workers[i]? = some own) (moving : ¬isWaiting own.stage)
    (unfinished : isFinished own.stage = false) : (world.advance setting i).work < world.work := by
  have inside : own.build < world.builds.length :=
    sound.reports.numbered _ (List.mem_of_getElem? (core_at located))
  obtain ⟨build, atBuild⟩ : ∃ build, world.builds[own.build]? = some build :=
    ⟨_, List.getElem?_eq_getElem inside⟩
  have advanced : world.advance setting i = world.proceed setting i own.build build own.stage := by
    unfold ReportWorld.advance
    rw [located]
    dsimp only
    rw [atBuild]
  rw [advanced]
  cases stage : own.stage with
  | looping =>
    dsimp only [ReportWorld.proceed]
    split
    · rename_i user job
      split
      · exact work_takeJob located stage atBuild job
      · exact work_setStage located (by rw [stage]; decide)
    · exact work_setStage located (by rw [stage]; decide)
  | waiting user => exact absurd (stage ▸ trivial) moving
  | woken user => exact work_setStage located (by rw [stage]; exact Nat.lt_succ_self 3)
  | reading user =>
    apply Nat.lt_of_le_of_lt (work_release _)
    exact work_setStage located (by rw [stage]; exact Nat.lt_succ_self 2)
  | read user source =>
    have lighter : WorkerStage.looping.weight < own.stage.weight := by
      rw [stage]
      exact Nat.lt_succ_self 1
    dsimp only [ReportWorld.proceed]
    unfold ReportWorld.countSource
    split
    · exact work_setStage located (by rw [stage]; exact Nat.zero_lt_succ 1)
    · split
      · rename_i tally _
        have same : (world.setBuild own.build { build with tally }).work = world.work :=
          work_setBuild atBuild rfl rfl
        rw [← same]
        exact @work_setStage (world.setBuild own.build _) i own.build own located .looping lighter
      · rename_i failure _
        have same : (world.setBuild own.build
            { build with failures := build.failures ++ [failure] }).work = world.work :=
          work_setBuild atBuild rfl rfl
        rw [← same]
        exact @work_setStage (world.setBuild own.build _) i own.build own located .looping lighter
  | finished =>
    rw [stage] at unfinished
    cases unfinished

theorem exists_moving (sound : Sound setting world) {i : Nat} {own : ReportWorker}
    (located : world.workers[i]? = some own) (unfinished : isFinished own.stage = false) :
    ∃ (j : Nat) (other : ReportWorker), world.workers[j]? = some other ∧ ¬isWaiting other.stage ∧
      isFinished other.stage = false := by
  cases stage : own.stage with
  | waiting user =>
    have inQueue := sound.places.queued i own user located stage
    have busy := sound.places.busy (List.ne_nil_of_mem inQueue)
    have taken := sound.places.taken
    have positive : 0 < world.workers.countP fun worker => worker.stage.hasPlace := by omega
    obtain ⟨holder, inWorkers, holds⟩ := List.countP_pos_iff.mp positive
    obtain ⟨j, atPlace⟩ := List.mem_iff_getElem?.mp inWorkers
    refine ⟨j, holder, atPlace, ?_, ?_⟩
    · intro waits
      cases held : holder.stage with
      | waiting other =>
        rw [held] at holds
        exact Bool.false_ne_true holds
      | looping | woken | reading | read | finished =>
        rw [held] at waits
        exact waits
    · cases held : holder.stage with
      | finished =>
        rw [held] at holds
        exact absurd holds Bool.false_ne_true
      | looping | waiting | woken | reading | read => rfl
  | looping | woken user | reading user | read user source =>
    refine ⟨i, own, located, ?_, unfinished⟩
    rw [stage]
    exact id
  | finished =>
    rw [stage] at unfinished
    cases unfinished

theorem proceed_calls (world : ReportWorld) (i number : Nat) (build : ReportBuild)
    (stage : WorkerStage) : (world.proceed setting i number build stage).calls = world.calls := by
  cases stage with
  | looping =>
    dsimp only [ReportWorld.proceed]
    split
    · split
      · exact (acquire_builds _ i number _).2
      · rfl
    · rfl
  | waiting | woken | finished => rfl
  | reading user => exact (release_builds _).2
  | read user source =>
    dsimp only [ReportWorld.proceed]
    unfold ReportWorld.countSource
    split
    · rfl
    · split <;> rfl

theorem advance_calls (world : ReportWorld) (i : Nat) : (world.advance setting i).calls = world.calls := by
  unfold ReportWorld.advance
  split
  · rfl
  · split
    · rfl
    · exact proceed_calls world _ _ _ _

theorem exists_finished (sound : Sound setting world) :
    ∃ more, (∀ worker ∈ ((machine setting).run world more).workers, isFinished worker.stage = true) ∧
      ((machine setting).run world more).calls = world.calls := by
  generalize bound : world.work = left
  induction left using Nat.strongRecOn generalizing world with
  | ind left ih =>
    by_cases through : ∀ worker ∈ world.workers, isFinished worker.stage = true
    · exact ⟨[], through, rfl⟩
    · obtain ⟨worker, inWorkers, unfinished⟩ : ∃ worker ∈ world.workers, isFinished worker.stage = false := by
        simpa using through
      obtain ⟨i, located⟩ := List.mem_iff_getElem?.mp inWorkers
      obtain ⟨j, other, atPlace, moving, going⟩ := exists_moving sound located unfinished
      have less := work_advance sound atPlace moving going
      obtain ⟨more, finished, calls⟩ := ih _ (bound ▸ less) (sound.advance j) rfl
      exact ⟨.advance j :: more, finished, calls.trans (advance_calls world j)⟩

theorem settle_workers (world : ReportWorld) (number now : Nat) : (world.settle number now).workers = world.workers ∧
      (world.settle number now).calls = world.calls ∧
      (world.settle number now).builds.length = world.builds.length := by
  unfold ReportWorld.settle
  split
  · exact ⟨rfl, rfl, rfl⟩
  · split
    · exact ⟨rfl, rfl, rfl⟩
    · split
      · exact ⟨rfl, rfl, List.length_set⟩
      · exact ⟨rfl, rfl, rfl⟩

def IsSettled (world : ReportWorld) (number : Nat) : Prop :=
  ∀ build, world.builds[number]? = some build → build.settled.isSome = true

theorem settle_isSettled {number : Nat}
    (through : ∀ worker ∈ world.workers, isFinished worker.stage = true) (now other : Nat)
    (before : other = number ∨ world.IsSettled other) : (world.settle number now).IsSettled other := by
  intro found atOther
  unfold ReportWorld.settle at atOther
  split at atOther
  · rename_i none_
    rcases before with rfl | before
    · rw [none_] at atOther
      cases atOther
    · exact before found atOther
  · rename_i build atBuild
    split at atOther
    · rename_i settled
      rcases before with rfl | before
      · obtain rfl := Option.some.inj (atBuild.symm.trans atOther)
        exact settled
      · exact before found atOther
    · split at atOther
      · rcases getElem?_set_cases atOther with ⟨_, rfl⟩ | ⟨apart, atOther⟩
        · rfl
        · exact (before.resolve_left apart) found atOther
      · rename_i unfinished
        refine absurd ?_ unfinished
        apply List.all_eq_true.mpr
        intro worker inWorkers
        rw [through worker inWorkers, Bool.or_true]

theorem exists_settled (through : ∀ worker ∈ world.workers, isFinished worker.stage = true) (count : Nat) :
    ∃ more, (∀ number < count, ((machine setting).run world more).IsSettled number) ∧
      ((machine setting).run world more).workers = world.workers ∧
      ((machine setting).run world more).calls = world.calls ∧
      ((machine setting).run world more).builds.length = world.builds.length := by
  induction count with
  | zero => exact ⟨[], fun number less => absurd less (Nat.not_lt_zero number), rfl, rfl, rfl⟩
  | succ count ih =>
    obtain ⟨more, settled, workers, calls, length⟩ := ih
    obtain ⟨sameWorkers, sameCalls, sameLength⟩ :=
      settle_workers ((machine setting).run world more) count 0
    refine ⟨more ++ [.settle count 0], ?_, ?_, ?_, ?_⟩
    · intro number less
      rw [Machine.run_append]
      apply settle_isSettled
      · rw [workers]
        exact through
      · cases Nat.lt_or_eq_of_le (Nat.lt_succ_iff.mp less) with
        | inl before => exact .inr (settled number before)
        | inr here => exact .inl here
    · rw [Machine.run_append]
      exact sameWorkers.trans workers
    · rw [Machine.run_append]
      exact sameCalls.trans calls
    · rw [Machine.run_append]
      exact sameLength.trans length

/-- The call has come to its end: an error, or a report. -/
def IsAnswered (world : ReportWorld) (made : ReportCall) : Prop :=
  ∀ number, made.joined = .ok number →
    ∃ build outcome, world.builds[number]? = some build ∧ build.settled = some outcome

theorem exists_answered (setting : ReportSetting) (events : List ReportEvent) :
    ∃ more, ∀ call made, ((machine setting).run start events).calls call = some made →
      ((machine setting).run start (events ++ more)).IsAnswered made := by
  have sound := run_sound setting events
  obtain ⟨first, through, firstCalls⟩ := exists_finished sound
  have onward : (machine setting).run ((machine setting).run start events) first =
      (machine setting).run start (events ++ first) := (Machine.run_append _ _ _ _).symm
  rw [onward] at through firstCalls
  obtain ⟨second, settled, _, secondCalls, length⟩ := @exists_settled setting _ through
    ((machine setting).run start (events ++ first)).builds.length
  refine ⟨first ++ second, ?_⟩
  intro call made isCall number joined
  have after := run_sound setting (events ++ (first ++ second))
  rw [← List.append_assoc] at after ⊢
  rw [Machine.run_append] at after ⊢
  have stillCall : ((machine setting).run ((machine setting).run start (events ++ first))
      second).calls call = some made := by
    rw [secondCalls, firstCalls]
    exact isCall
  obtain ⟨build, atBuild, _⟩ := after.reports.calls call made number stillCall joined
  have inside := (List.getElem?_eq_some_iff.mp atBuild).1
  rw [length] at inside
  obtain ⟨outcome, isOutcome⟩ := Option.isSome_iff_exists.mp (settled number inside build atBuild)
  exact ⟨build, outcome, atBuild, isOutcome⟩

end ReportWorld

open ReportWorld

/-- What holds of the reports after any run: at most four sources are being read, every settled
report is the one that the roster, the query and the answers of the gateway determine, and a call
is refused for its roster or for the number of reports in progress only. -/
structure Determined (setting : ReportSetting) (world : ReportWorld) : Prop where
  reading : world.reading ≤ 4
  outcome : ∀ call made number build outcome, world.calls call = some made →
    made.joined = .ok number → world.builds[number]? = some build →
    build.settled = some outcome →
    ∃ users, reportUsers setting made.query made.roster = .ok users ∧ outcome.map AiUsageReport.undated =
        (reportOutcome setting made.query users 0).map AiUsageReport.undated
  refused : ∀ call made error, world.calls call = some made → made.joined = .error error →
    reportUsers setting made.query made.roster = .error error ∨ error = rateLimited

end PlatformClaw.Reporting
