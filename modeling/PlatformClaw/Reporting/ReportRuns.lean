import PlatformClaw.Reporting.ReportOutcome

/-! # Reports under every order of their reads

Each worker holds at most one user, each user is held once, and the tally of a
report is what the users that were taken and are no longer held add up to. So
when all workers are through, the tally is that of all users.
-/

namespace PlatformClaw.Reporting

inductive WorkerCore
  | looping
  | holding (user : AiUsageReportUser)
  | read (user : AiUsageReportUser) (source : Option UsageSource)
  | finished

namespace WorkerCore

def user : WorkerCore → Option AiUsageReportUser
  | .holding user => some user
  | .read user _ => some user
  | .looping => none
  | .finished => none

end WorkerCore

namespace WorkerStage

def core : WorkerStage → WorkerCore
  | .looping => .looping
  | .waiting user => .holding user
  | .woken user => .holding user
  | .reading user => .holding user
  | .read user source => .read user source
  | .finished => .finished

/-- It has one of the four places. -/
def hasPlace : WorkerStage → Bool
  | .woken _ => true
  | .reading _ => true
  | _ => false

/-- Its request is under way. -/
def isReading : WorkerStage → Bool
  | .reading _ => true
  | _ => false

end WorkerStage

/-- The workers of all builds, as the builds see them. -/
abbrev Cores : Type := List (Nat × WorkerCore)

section Builds

variable (setting : ReportSetting)

/-- Users whose source the build is through with. -/
def Processed (number : Nat) (build : ReportBuild) (cores : Cores) (user : AiUsageReportUser) : Prop :=
  user ∈ build.jobs.take build.nextJob ∧ ∀ core, (number, core) ∈ cores → core.user ≠ some user

structure BuildSound (number : Nat) (build : ReportBuild) (cores : Cores) : Prop where
  accounts : (build.users.map AiUsageReportUser.accountId).Nodup
  next : build.nextJob ≤ build.jobs.length
  held : ∀ core user, (number, core) ∈ cores → core.user = some user → user ∈ build.jobs.take build.nextJob
  apart : ∀ (i j : Nat) left right user, cores[i]? = some (number, left) →
    cores[j]? = some (number, right) → left.user = some user → right.user = some user → i = j
  sources : ∀ user source, (number, .read user source) ∈ cores → source = loadSource setting build.query user
  failures : ∀ failure ∈ build.failures, failure = overCapacity ∧
    ∃ user ∈ build.jobs, overflows setting build.query user = true
  fits : build.failures = [] → ∀ user, Processed number build cores user → overflows setting build.query user = false
  tally : build.failures = [] → Collects (partOf setting build.query)
    (Processed number build cores) build.jobs.isEmpty build.tally
  finished : (number, .finished) ∈ cores → build.failures ≠ [] ∨ build.nextJob = build.jobs.length
  staffed : build.jobs ≠ [] → ∃ core, (number, core) ∈ cores
  settled : ∀ outcome, build.settled = some outcome → outcome.map AiUsageReport.undated =
    (reportOutcome setting build.query build.users 0).map AiUsageReport.undated

variable {setting} {number : Nat} {build : ReportBuild} {cores : Cores}

theorem getElem?_set_cases {α : Type} {items : List α} {i j : Nat} {new item : α}
    (found : (items.set i new)[j]? = some item) :
    (j = i ∧ item = new) ∨ (j ≠ i ∧ items[j]? = some item) := by
  rw [List.getElem?_set] at found
  split at found
  · rename_i same
    split at found
    · exact .inl ⟨same.symm, (Option.some.inj found).symm⟩
    · cases found
  · rename_i apart
    exact .inr ⟨Ne.symm apart, found⟩

theorem getElem?_set_self_of_some {α : Type} {items : List α} {i : Nat} {old new : α}
    (located : items[i]? = some old) : (items.set i new)[i]? = some new := by
  obtain ⟨inside, _⟩ := List.getElem?_eq_some_iff.mp located
  rw [List.getElem?_set, if_pos rfl, if_pos inside]

theorem mem_set_iff {α : Type} {items : List α} {i : Nat} {old new item : α} (located : items[i]? = some old) :
    item ∈ items.set i new ↔ item = new ∨ ∃ j, j ≠ i ∧ items[j]? = some item := by
  rw [List.mem_iff_getElem?]
  constructor
  · rintro ⟨j, found⟩
    cases getElem?_set_cases found with
    | inl here => exact .inl here.2
    | inr there => exact .inr ⟨j, there⟩
  · rintro (rfl | ⟨j, apart, found⟩)
    · exact ⟨i, getElem?_set_self_of_some located⟩
    · exact ⟨j, by rw [List.getElem?_set, if_neg (Ne.symm apart), found]⟩

theorem processed_iff {i : Nat} {own : WorkerCore} (located : cores[i]? = some (number, own))
    (user : AiUsageReportUser) :
    Processed number build cores user ↔ user ∈ build.jobs.take build.nextJob ∧ own.user ≠ some user ∧
        ∀ j core, j ≠ i → cores[j]? = some (number, core) → core.user ≠ some user := by
  constructor
  · rintro ⟨taken, unheld⟩
    exact ⟨taken, unheld own (List.mem_of_getElem? located), fun j core _ found =>
      unheld core (List.mem_of_getElem? found)⟩
  · rintro ⟨taken, ownFree, othersFree⟩
    refine ⟨taken, ?_⟩
    intro core inCores
    obtain ⟨j, found⟩ := List.mem_iff_getElem?.mp inCores
    by_cases same : j = i
    · subst same
      rw [located] at found
      obtain ⟨-, rfl⟩ := Prod.mk.inj (Option.some.inj found)
      exact ownFree
    · exact othersFree j core same found

theorem processed_set_iff {i : Nat} {old new : WorkerCore}
    (located : cores[i]? = some (number, old)) (user : AiUsageReportUser) :
    Processed number build (cores.set i (number, new)) user ↔
      user ∈ build.jobs.take build.nextJob ∧ new.user ≠ some user ∧
        ∀ j core, j ≠ i → cores[j]? = some (number, core) → core.user ≠ some user := by
  rw [processed_iff (getElem?_set_self_of_some located)]
  have elsewhere : ∀ j core, j ≠ i →
      ((cores.set i (number, new))[j]? = some (number, core) ↔ cores[j]? = some (number, core)) := by
    intro j core apart
    rw [List.getElem?_set, if_neg (Ne.symm apart)]
  constructor
  · rintro ⟨taken, free, others⟩
    exact ⟨taken, free, fun j core apart found => others j core apart ((elsewhere j core apart).mpr found)⟩
  · rintro ⟨taken, free, others⟩
    exact ⟨taken, free, fun j core apart found => others j core apart ((elsewhere j core apart).mp found)⟩

theorem apart_set {i : Nat} {new : WorkerCore} (sound : BuildSound setting number build cores)
    (alone : ∀ user, new.user = some user → ∀ j core, j ≠ i → cores[j]? = some (number, core) →
      core.user ≠ some user) :
    ∀ (k l : Nat) left right user, (cores.set i (number, new))[k]? = some (number, left) →
      (cores.set i (number, new))[l]? = some (number, right) → left.user = some user →
      right.user = some user → k = l := by
  intro k l left right user atLeft atRight holdsLeft holdsRight
  rcases getElem?_set_cases atLeft with ⟨rfl, isLeft⟩ | ⟨leftApart, foundLeft⟩
  · rcases getElem?_set_cases atRight with ⟨rfl, _⟩ | ⟨rightApart, foundRight⟩
    · rfl
    · obtain ⟨-, rfl⟩ := Prod.mk.inj isLeft
      exact absurd holdsRight (alone user holdsLeft l right rightApart foundRight)
  · rcases getElem?_set_cases atRight with ⟨rfl, isRight⟩ | ⟨rightApart, foundRight⟩
    · obtain ⟨-, rfl⟩ := Prod.mk.inj isRight
      exact absurd holdsLeft (alone user holdsRight k left leftApart foundLeft)
    · exact sound.apart k l left right user foundLeft foundRight holdsLeft holdsRight

theorem alone_of_held {i : Nat} {old : WorkerCore} (sound : BuildSound setting number build cores)
    (located : cores[i]? = some (number, old)) {user : AiUsageReportUser}
    (holds : old.user = some user) :
    ∀ j core, j ≠ i → cores[j]? = some (number, core) → core.user ≠ some user := by
  intro j core apart found holdsToo
  exact apart (sound.apart j i core old user found located holdsToo holds)

theorem BuildSound.sameUser {i : Nat} {old new : WorkerCore}
    (sound : BuildSound setting number build cores) (located : cores[i]? = some (number, old))
    (same : new.user = old.user)
    (loaded : ∀ user source, new = .read user source → source = loadSource setting build.query user)
    (ended : new = .finished → build.failures ≠ [] ∨ build.nextJob = build.jobs.length) :
    BuildSound setting number build (cores.set i (number, new)) := by
  have processed : ∀ user, Processed number build (cores.set i (number, new)) user ↔
      Processed number build cores user := by
    intro user
    rw [processed_set_iff located, processed_iff located, same]
  have before : ∀ core, (number, core) ∈ cores.set i (number, new) → core = new ∨ (number, core) ∈ cores := by
    intro core inCores
    rcases (mem_set_iff located).mp inCores with here | ⟨j, _, found⟩
    · exact .inl (Prod.mk.inj here).2
    · exact .inr (List.mem_of_getElem? found)
  refine ⟨sound.accounts, sound.next, ?_, ?_, ?_, sound.failures, ?_, ?_, ?_, ?_, sound.settled⟩
  · intro core user inCores holds
    rcases before core inCores with rfl | inCores
    · exact sound.held old user (List.mem_of_getElem? located) (same ▸ holds)
    · exact sound.held core user inCores holds
  · apply apart_set sound
    intro user holds
    exact alone_of_held sound located (same ▸ holds)
  · intro user source inCores
    rcases before _ inCores with isNew | inCores
    · exact loaded user source isNew.symm
    · exact sound.sources user source inCores
  · intro clean user done
    exact sound.fits clean user ((processed user).mp done)
  · intro clean
    exact (sound.tally clean).congr fun user => (processed user).symm
  · intro inCores
    rcases before _ inCores with isNew | inCores
    · exact ended isNew.symm
    · exact sound.finished inCores
  · intro _
    exact ⟨new, List.mem_of_getElem? (getElem?_set_self_of_some located)⟩

theorem jobs_take_nodup (sound : BuildSound setting number build cores) : build.jobs.Nodup :=
  jobs_nodup sound.accounts

theorem BuildSound.takeJob {i : Nat} (sound : BuildSound setting number build cores)
    (located : cores[i]? = some (number, .looping)) {user : AiUsageReportUser}
    (job : build.jobs[build.nextJob]? = some user) (clean : build.failures = []) :
    BuildSound setting number { build with nextJob := build.nextJob + 1 } (cores.set i (number, .holding user)) := by
  obtain ⟨inside, atNext⟩ := List.getElem?_eq_some_iff.mp job
  have taken : build.jobs.take (build.nextJob + 1) = build.jobs.take build.nextJob ++ [user] := by
    rw [List.take_add_one, job]
    rfl
  have new : user ∉ build.jobs.take build.nextJob := by
    have distinct := (jobs_take_nodup sound).sublist (List.take_sublist (build.nextJob + 1) _)
    rw [taken] at distinct
    intro before
    exact (List.nodup_append.mp distinct).2.2 user before user List.mem_cons_self rfl
  have alone : ∀ j core, j ≠ i → cores[j]? = some (number, core) → core.user ≠ some user := by
    intro j core _ found holds
    exact new (sound.held core user (List.mem_of_getElem? found) holds)
  have processed : ∀ other, Processed number { build with nextJob := build.nextJob + 1 }
      (cores.set i (number, .holding user)) other ↔ Processed number build cores other := by
    intro other
    rw [processed_set_iff located, processed_iff located]
    show other ∈ build.jobs.take (build.nextJob + 1) ∧ _ ∧ _ ↔ _
    rw [taken, List.mem_append]
    constructor
    · rintro ⟨before | here, apart, others⟩
      · exact ⟨before, (Option.some_ne_none other).symm, others⟩
      · exact absurd (congrArg some (List.mem_singleton.mp here).symm) apart
    · rintro ⟨before, _, others⟩
      refine ⟨.inl before, ?_, others⟩
      intro same
      exact new (Option.some.inj same ▸ before)
  have before : ∀ core, (number, core) ∈ cores.set i (number, .holding user) →
      core = .holding user ∨ (number, core) ∈ cores := by
    intro core inCores
    rcases (mem_set_iff located).mp inCores with here | ⟨j, _, found⟩
    · exact .inl (Prod.mk.inj here).2
    · exact .inr (List.mem_of_getElem? found)
  refine ⟨sound.accounts, inside, ?_, ?_, ?_, sound.failures, ?_, ?_, ?_, ?_, sound.settled⟩
  · intro core other inCores holds
    show other ∈ build.jobs.take (build.nextJob + 1)
    rw [taken]
    rcases before core inCores with rfl | inCores
    · exact List.mem_append_right _ (List.mem_singleton.mpr (Option.some.inj holds).symm)
    · exact List.mem_append_left _ (sound.held core other inCores holds)
  · apply apart_set sound
    intro other holds
    exact Option.some.inj holds ▸ alone
  · intro other source inCores
    rcases before _ inCores with isNew | inCores
    · cases isNew
    · exact sound.sources other source inCores
  · intro _ other done
    exact sound.fits clean other ((processed other).mp done)
  · intro _
    exact (sound.tally clean).congr fun other => (processed other).symm
  · intro inCores
    rcases before _ inCores with isNew | inCores
    · cases isNew
    · cases sound.finished inCores with
      | inl failed => exact absurd clean failed
      | inr through => omega
  · intro _
    exact ⟨_, List.mem_of_getElem? (getElem?_set_self_of_some located)⟩

theorem BuildSound.letGo {i : Nat} {user : AiUsageReportUser} {source : Option UsageSource}
    (sound : BuildSound setting number build cores)
    (located : cores[i]? = some (number, .read user source)) {new : WorkerCore}
    (free : new = .looping ∨ new = .finished) {tally : ReportTally}
    {failures : List AiUsageReportError}
    (failed : ∀ failure ∈ failures, failure = overCapacity ∧
      ∃ user ∈ build.jobs, overflows setting build.query user = true)
    (clean : failures = [] → build.failures = [])
    (counted : failures = [] → overflows setting build.query user = false ∧ Collects (partOf setting build.query)
        (fun other => Processed number build cores other ∨ other = user) build.jobs.isEmpty tally)
    (ended : new = .finished → failures ≠ []) :
    BuildSound setting number { build with tally, failures } (cores.set i (number, new)) := by
  have nobody : new.user = none := by
    rcases free with rfl | rfl <;> rfl
  have inJobs : user ∈ build.jobs.take build.nextJob :=
    sound.held _ user (List.mem_of_getElem? located) rfl
  have alone := alone_of_held sound located (show WorkerCore.user _ = some user from rfl)
  have processed : ∀ other, Processed number { build with tally, failures }
      (cores.set i (number, new)) other ↔ Processed number build cores other ∨ other = user := by
    intro other
    rw [processed_set_iff located, processed_iff located, nobody]
    constructor
    · rintro ⟨taken, _, others⟩
      by_cases same : other = user
      · exact .inr same
      · exact .inl ⟨taken, fun holds => same (Option.some.inj holds).symm, others⟩
    · rintro (⟨taken, _, others⟩ | rfl)
      · exact ⟨taken, (Option.some_ne_none other).symm, others⟩
      · exact ⟨inJobs, (Option.some_ne_none other).symm, alone⟩
  have before : ∀ core, (number, core) ∈ cores.set i (number, new) → core = new ∨ (number, core) ∈ cores := by
    intro core inCores
    rcases (mem_set_iff located).mp inCores with here | ⟨j, _, found⟩
    · exact .inl (Prod.mk.inj here).2
    · exact .inr (List.mem_of_getElem? found)
  refine ⟨sound.accounts, sound.next, ?_, ?_, ?_, failed, ?_, ?_, ?_, ?_, sound.settled⟩
  · intro core other inCores holds
    rcases before core inCores with rfl | inCores
    · rw [nobody] at holds
      cases holds
    · exact sound.held core other inCores holds
  · apply apart_set sound
    intro other holds
    rw [nobody] at holds
    cases holds
  · intro other loaded inCores
    rcases before _ inCores with isNew | inCores
    · rcases free with rfl | rfl <;> cases isNew
    · exact sound.sources other loaded inCores
  · intro none_ other done
    rcases (processed other).mp done with before | rfl
    · exact sound.fits (clean none_) other before
    · exact (counted none_).1
  · intro none_
    exact (counted none_).2.congr fun other => (processed other).symm
  · intro inCores
    rcases before _ inCores with isNew | inCores
    · exact .inl (ended isNew.symm)
    · cases sound.finished inCores with
      | inl before => exact .inl fun none_ => before (clean none_)
      | inr through => exact .inr through
  · intro _
    exact ⟨_, List.mem_of_getElem? (getElem?_set_self_of_some located)⟩

theorem rows_elsewhere {i : Nat} {own : WorkerCore} {user other : AiUsageReportUser}
    (sound : BuildSound setting number build cores) (located : cores[i]? = some (number, own))
    (holds : own.user = some user) (done : Processed number build cores other) :
    ∀ row ∈ (partOf setting build.query other).buckets, row.knoxId ≠ user.accountId := by
  intro row inPart same
  have otherJob : other ∈ jobsOf build.users := List.mem_of_mem_take done.1
  have userJob : user ∈ jobsOf build.users :=
    List.mem_of_mem_take (sound.held own user (List.mem_of_getElem? located) holds)
  have sameAccount : other.accountId = user.accountId := (knoxId_of_part other row inPart).symm.trans same
  have sameUser := eq_of_account sound.accounts otherJob userJob sameAccount
  exact done.2 own (List.mem_of_getElem? located) (sameUser ▸ holds)

theorem count_source {i : Nat} {user : AiUsageReportUser} {source : Option UsageSource}
    (sound : BuildSound setting number build cores)
    (located : cores[i]? = some (number, .read user source)) (clean : build.failures = []) :
    (overflows setting build.query user = true ∧
        build.tally.addSource build.query user source = .error overCapacity) ∨
      (overflows setting build.query user = false ∧
        ∃ tally, build.tally.addSource build.query user source = .ok tally ∧ Collects (partOf setting build.query)
            (fun other => Processed number build cores other ∨ other = user) build.jobs.isEmpty
            tally) := by
  have collects := sound.tally clean
  have loaded := sound.sources user source (List.mem_of_getElem? located)
  have without : build.tally.Without user := by
    intro key own
    apply Table.lookup_eq_none_iff.mpr
    intro row inTally same
    obtain ⟨other, done, inPart⟩ := (collects.rows row).mp inTally
    have account : row.knoxId = user.accountId := (congrArg BucketKey.knoxId same).trans own
    exact rows_elsewhere sound located rfl done row inPart account
  have both : ReportTally.BothMirror user build.tally (ReportTally.ofSource build.query user source)
      (build.tally.addSource build.query user source) :=
    ReportTally.addSource_mirrors without source
  rw [loaded] at both ⊢
  have isTally : sourceTally setting build.query user =
      ReportTally.ofSource build.query user (loadSource setting build.query user) := rfl
  rw [← isTally] at both
  cases counted : sourceTally setting build.query user with
  | error error =>
    rw [counted] at both
    generalize build.tally.addSource build.query user _ = added at both ⊢
    cases both
    exact .inl ⟨by unfold overflows; rw [counted], rfl⟩
  | ok part =>
    have isPart : partOf setting build.query user = part := by
      unfold partOf
      rw [counted]
    rw [counted] at both
    cases added : build.tally.addSource build.query user (loadSource setting build.query user) with
    | error error =>
      rw [added] at both
      cases both
    | ok tally =>
      rw [added] at both
      cases both with
      | ok mirrors =>
        refine .inr ⟨by unfold overflows; rw [counted], tally, rfl, ?_⟩
        apply collects.add (isPart ▸ mirrors)
        · intro other done
          exact rows_elsewhere sound located rfl done
        · exact knoxId_of_part user
        · exact ReportTally.addSource_distinct added collects.distinct

theorem BuildSound.sameWorkers {others : Cores} (sound : BuildSound setting number build cores)
    (found : ∀ (j : Nat) (core : WorkerCore), others[j]? = some (number, core) → cores[j]? = some (number, core))
    (kept : ∀ core, (number, core) ∈ cores → (number, core) ∈ others) :
    BuildSound setting number build others := by
  have same : ∀ core, (number, core) ∈ others ↔ (number, core) ∈ cores := by
    intro core
    constructor
    · intro inOthers
      obtain ⟨j, atPlace⟩ := List.mem_iff_getElem?.mp inOthers
      exact List.mem_of_getElem? (found j core atPlace)
    · exact kept core
  have processed : ∀ user, Processed number build others user ↔ Processed number build cores user := by
    intro user
    unfold Processed
    simp only [same]
  refine ⟨sound.accounts, sound.next, ?_, ?_, ?_, sound.failures, ?_, ?_, ?_, ?_, sound.settled⟩
  · intro core user inCores
    exact sound.held core user ((same core).mp inCores)
  · intro k l left right user atLeft atRight
    exact sound.apart k l left right user (found k left atLeft) (found l right atRight)
  · intro user source inCores
    exact sound.sources user source ((same _).mp inCores)
  · intro clean user done
    exact sound.fits clean user ((processed user).mp done)
  · intro clean
    exact (sound.tally clean).congr fun user => (processed user).symm
  · intro inCores
    exact sound.finished ((same _).mp inCores)
  · intro some_
    obtain ⟨core, inCores⟩ := sound.staffed some_
    exact ⟨core, kept core inCores⟩

theorem BuildSound.elsewhere {i other : Nat} {old new : WorkerCore}
    (sound : BuildSound setting number build cores) (located : cores[i]? = some (other, old))
    (apart : other ≠ number) : BuildSound setting number build (cores.set i (other, new)) := by
  apply sound.sameWorkers
  · intro j core atPlace
    rcases getElem?_set_cases atPlace with ⟨_, isNew⟩ | ⟨_, atPlace⟩
    · exact absurd (Prod.mk.inj isNew).1.symm apart
    · exact atPlace
  · intro core inCores
    obtain ⟨j, atPlace⟩ := List.mem_iff_getElem?.mp inCores
    apply List.mem_iff_getElem?.mpr
    refine ⟨j, ?_⟩
    rw [List.getElem?_set, if_neg, atPlace]
    rintro rfl
    rw [located] at atPlace
    exact apart (Prod.mk.inj (Option.some.inj atPlace)).1

theorem BuildSound.append {later : Cores} (sound : BuildSound setting number build cores)
    (apart : ∀ core, (number, core) ∉ later) : BuildSound setting number build (cores ++ later) := by
  apply sound.sameWorkers
  · intro j core atPlace
    rw [List.getElem?_append] at atPlace
    split at atPlace
    · exact atPlace
    · exact absurd (List.mem_of_getElem? atPlace) (apart core)
  · intro core inCores
    exact List.mem_append_left _ inCores

theorem collects_nobody (query : AiUsageReportQuery) (users : List AiUsageReportUser)
    {counted : AiUsageReportUser → Prop} (nobody : ∀ user, ¬counted user) :
    Collects (partOf setting query) counted (jobsOf users).isEmpty (ReportBuild.begin query users).tally where
  rows := by
    intro row
    constructor
    · intro inTally
      cases inTally
    · rintro ⟨user, is, _⟩
      exact absurd is (nobody user)
  warnings := by
    intro warning
    constructor
    · intro noted
      exact .inl (List.mem_singleton.mp noted)
    · rintro (rfl | ⟨user, is, _⟩)
      · exact List.mem_singleton.mpr rfl
      · exact absurd is (nobody user)
  isPartial := by
    constructor
    · intro noted
      cases noted
    · rintro ⟨user, is, _⟩
      exact absurd is (nobody user)
  usable := by
    show decide ((jobsOf users).length = 0) = true ↔ _
    rw [decide_eq_true_iff, List.isEmpty_iff, List.length_eq_zero_iff]
    constructor
    · exact .inl
    · rintro (none_ | ⟨user, is, _⟩)
      · exact none_
      · exact absurd is (nobody user)
  distinct := List.pairwise_singleton _ _

theorem begin_sound {query : AiUsageReportQuery} {users : List AiUsageReportUser}
    (accounts : (users.map AiUsageReportUser.accountId).Nodup) (new : ∀ core, (number, core) ∉ cores) :
    BuildSound setting number (.begin query users)
      (cores ++ List.replicate (min 4 (jobsOf users).length) (number, .looping)) := by
  have idle : ∀ core, (number, core) ∈ cores ++
      List.replicate (min 4 (jobsOf users).length) (number, .looping) → core = .looping := by
    intro core inCores
    rcases List.mem_append.mp inCores with before | started
    · exact absurd before (new core)
    · exact (Prod.mk.inj (List.eq_of_mem_replicate started)).2
  have nobody : ∀ user, ¬Processed number (.begin query users) (cores ++
      List.replicate (min 4 (jobsOf users).length) (number, .looping)) user := by
    rintro user ⟨taken, _⟩
    cases taken
  refine ⟨accounts, Nat.zero_le _, ?_, ?_, ?_, ?_, ?_, ?_, ?_, ?_, ?_⟩
  · intro core user inCores holds
    rw [idle core inCores] at holds
    cases holds
  · intro k l left right user atLeft _ holds
    rw [idle left (List.mem_of_getElem? atLeft)] at holds
    cases holds
  · intro user source inCores
    cases idle _ inCores
  · intro failure inFailures
    cases inFailures
  · intro _ user done
    exact absurd done (nobody user)
  · intro _
    exact collects_nobody query users nobody
  · intro inCores
    cases idle _ inCores
  · intro some_
    refine ⟨.looping, List.mem_append_right _ (List.mem_replicate.mpr ⟨?_, rfl⟩)⟩
    have jobs : (jobsOf users).length ≠ 0 := fun none_ => some_ (List.length_eq_zero_iff.mp none_)
    omega
  · intro outcome done
    cases done

theorem nodup_of_keyed {rows : List AiUsageReportRow} (keyed : rows.Pairwise fun a b => a.key ≠ b.key) : rows.Nodup :=
  keyed.imp fun apart same => apart (congrArg AiUsageReportRow.key same)

/-- The order in which the workers got there does not show. -/
theorem outcome_eq (sound : BuildSound setting number build cores)
    (through : ∀ core, (number, core) ∈ cores → core = .finished) (now : Nat) :
    build.outcome now = reportOutcome setting build.query build.users now := by
  unfold ReportBuild.outcome reportOutcome
  split
  · rename_i failure rest failures
    obtain ⟨rfl, user, inJobs, overflown⟩ := sound.failures failure (failures ▸ List.mem_cons_self)
    have overflow : (jobsOf build.users).any (overflows setting build.query) = true :=
      List.any_eq_true.mpr ⟨user, inJobs, overflown⟩
    rw [if_pos overflow]
  · rename_i clean
    have all : build.nextJob = build.jobs.length := by
      by_cases none_ : build.jobs = []
      · have bound := sound.next
        rw [none_] at bound ⊢
        exact Nat.le_zero.mp bound
      · obtain ⟨core, inCores⟩ := sound.staffed none_
        cases sound.finished (through core inCores ▸ inCores) with
        | inl failed => exact absurd clean failed
        | inr through => exact through
    have processed : ∀ user, Processed number build cores user ↔ user ∈ jobsOf build.users := by
      intro user
      unfold Processed
      rw [all, List.take_length]
      constructor
      · exact And.left
      · intro inJobs
        refine ⟨inJobs, ?_⟩
        intro core inCores
        rw [through core inCores]
        exact (Option.some_ne_none user).symm
    have fits : (jobsOf build.users).any (overflows setting build.query) = false := by
      apply List.any_eq_false.mpr
      intro user inJobs
      rw [sound.fits clean user ((processed user).mpr inJobs)]
      exact Bool.false_ne_true
    have collects := (sound.tally clean).congr processed
    rw [if_neg (by rw [fits]; exact Bool.false_ne_true)]
    have isPartial : build.tally.isPartial =
        ((jobsOf build.users).map (partOf setting build.query)).any fun part => part.isPartial := by
      rw [Bool.eq_iff_iff, collects.isPartial, List.any_map, List.any_eq_true]
      rfl
    have usable : build.tally.usable = ((jobsOf build.users).isEmpty ||
        ((jobsOf build.users).map (partOf setting build.query)).any fun part => part.usable) := by
      rw [Bool.eq_iff_iff, collects.usable, Bool.or_eq_true, List.any_map, List.any_eq_true]
      rfl
    rw [isPartial, usable]
    apply assemble_perm
    · apply (List.perm_ext_iff_of_nodup (nodup_of_keyed build.tally.buckets.keyed)
        (nodup_of_keyed (partRows_keyed sound.accounts))).mpr
      intro row
      exact (collects.rows row).trans mem_partRows.symm
    · exact build.tally.buckets.keyed
    · apply (List.perm_ext_iff_of_nodup collects.distinct (nodup_noteAll (List.pairwise_singleton _ _))).mpr
      intro warning
      rw [collects.warnings, mem_noteAll, List.mem_singleton, List.mem_flatMap]
      simp only [List.mem_map]
      constructor
      · rintro (known | ⟨user, inJobs, noted⟩)
        · exact .inl known
        · exact .inr ⟨_, ⟨user, inJobs, rfl⟩, noted⟩
      · rintro (known | ⟨part, ⟨user, inJobs, rfl⟩, noted⟩)
        · exact .inl known
        · exact .inr ⟨user, inJobs, noted⟩

end Builds

theorem consistentUsers_distinct {toLowerCase : String → String} {accounts agents : List String}
    {users : List AiUsageReportUser}
    (consistent : consistentUsers toLowerCase accounts agents users = true) :
    (users.map AiUsageReportUser.accountId).Nodup ∧ ∀ user ∈ users, user.accountId ∉ accounts := by
  induction users generalizing accounts agents with
  | nil => exact ⟨List.nodup_nil, fun user inUsers => by cases inUsers⟩
  | cons user users ih =>
    simp only [consistentUsers, Bool.and_eq_true, Bool.not_eq_true', List.contains_eq_mem,
      decide_eq_false_iff_not] at consistent
    obtain ⟨⟨⟨_, new⟩, _⟩, rest⟩ := consistent
    obtain ⟨distinct, others⟩ := ih rest
    constructor
    · rw [List.map_cons]
      apply List.nodup_cons.mpr
      refine ⟨?_, distinct⟩
      intro again
      obtain ⟨other, inUsers, same⟩ := List.mem_map.mp again
      exact others other inUsers (same ▸ List.mem_cons_self)
    · intro other inUsers
      rcases List.mem_cons.mp inUsers with rfl | inUsers
      · exact new
      · exact fun before => others other inUsers (List.mem_cons_of_mem _ before)

theorem reportUsers_distinct {setting : ReportSetting} {query : AiUsageReportQuery}
    {roster : Option (List AiUsageReportUser)} {users : List AiUsageReportUser}
    (selected : reportUsers setting query roster = .ok users) :
    (users.map AiUsageReportUser.accountId).Nodup := by
  obtain ⟨all, checked, chosen⟩ := Except.bind_ok_iff.mp selected
  obtain ⟨read, _, checked⟩ := Except.bind_ok_iff.mp checked
  obtain ⟨_, _, checked⟩ := Except.bind_ok_iff.mp checked
  obtain ⟨_, consistent, checked⟩ := Except.bind_ok_iff.mp checked
  obtain rfl := Except.pure_ok_iff.mp checked
  obtain ⟨_, _, chosen⟩ := Except.bind_ok_iff.mp chosen
  obtain rfl := Except.pure_ok_iff.mp chosen
  have distinct := (consistentUsers_distinct (Except.ensure_ok_iff.mp consistent)).1
  exact distinct.sublist (List.filter_sublist.map _)

namespace ReportWorld

variable {setting : ReportSetting} {world after : ReportWorld}

def cores (world : ReportWorld) : Cores :=
  world.workers.map fun worker => (worker.build, worker.stage.core)

/-- The number of source reads under way. -/
def reading (world : ReportWorld) : Nat :=
  world.workers.countP fun worker => worker.stage.isReading

/-- Builds and calls. -/
structure Reports (setting : ReportSetting) (world : ReportWorld) : Prop where
  builds : ∀ (number : Nat) build, world.builds[number]? = some build → BuildSound setting number build world.cores
  numbered : ∀ entry ∈ world.cores, entry.1 < world.builds.length
  calls : ∀ call made number, world.calls call = some made → made.joined = .ok number →
    ∃ build, world.builds[number]? = some build ∧ build.query = made.query ∧
      reportUsers setting made.query made.roster = .ok build.users
  refused : ∀ call made error, world.calls call = some made → made.joined = .error error →
    reportUsers setting made.query made.roster = .error error ∨ error = rateLimited

structure Places (world : ReportWorld) : Prop where
  taken : world.workers.countP (fun worker => worker.stage.hasPlace) = world.sourceCalls
  bound : world.sourceCalls ≤ 4
  waiters : ∀ i ∈ world.sourceWaiters, ∃ own user, world.workers[i]? = some own ∧ own.stage = .waiting user
  distinct : world.sourceWaiters.Nodup
  queued : ∀ (i : Nat) own user, world.workers[i]? = some own → own.stage = .waiting user → i ∈ world.sourceWaiters
  busy : world.sourceWaiters ≠ [] → world.sourceCalls = 4

theorem core_at {i : Nat} {own : ReportWorker} (located : world.workers[i]? = some own) :
    world.cores[i]? = some (own.build, own.stage.core) := by
  unfold cores
  rw [List.getElem?_map, located]
  rfl

theorem cores_setStage (world : ReportWorld) (i number : Nat) (stage : WorkerStage) :
    (world.setStage i number stage).cores = world.cores.set i (number, stage.core) := by
  unfold cores setStage
  rw [List.map_set]

theorem Reports.workerStep (reports : Reports setting world) {i : Nat} {own : ReportWorker}
    (located : world.workers[i]? = some own) {build : ReportBuild}
    (atBuild : world.builds[own.build]? = some build) (changed : ReportBuild) (sameQuery : changed.query = build.query)
    (sameUsers : changed.users = build.users) {new : WorkerCore}
    (step : BuildSound setting own.build changed (world.cores.set i (own.build, new)))
    (builds : after.builds = world.builds.set own.build changed)
    (cores : after.cores = world.cores.set i (own.build, new)) (calls : after.calls = world.calls) :
    Reports setting after where
  builds := by
    intro number other found
    rw [cores]
    rw [builds] at found
    rcases getElem?_set_cases found with ⟨rfl, rfl⟩ | ⟨apart, found⟩
    · exact step
    · exact (reports.builds number other found).elsewhere (core_at located) (Ne.symm apart)
  numbered := by
    intro entry inCores
    rw [builds, List.length_set]
    rw [cores] at inCores
    rcases List.mem_or_eq_of_mem_set inCores with before | rfl
    · exact reports.numbered entry before
    · exact reports.numbered (own.build, own.stage.core) (List.mem_of_getElem? (core_at located))
  calls := by
    intro call made number isCall joined
    rw [calls] at isCall
    obtain ⟨other, found, query, users⟩ := reports.calls call made number isCall joined
    by_cases same : number = own.build
    · subst same
      obtain rfl := Option.some.inj (found.symm.trans atBuild)
      refine ⟨changed, ?_, sameQuery.trans query, sameUsers ▸ users⟩
      rw [builds]
      exact getElem?_set_self_of_some atBuild
    · refine ⟨other, ?_, query, users⟩
      rw [builds, List.getElem?_set, if_neg (Ne.symm same), found]
  refused := by
    intro call made error isCall joined
    rw [calls] at isCall
    exact reports.refused call made error isCall joined

theorem Reports.stageStep (reports : Reports setting world) {i : Nat} {own : ReportWorker}
    (located : world.workers[i]? = some own) {build : ReportBuild}
    (atBuild : world.builds[own.build]? = some build) {new : WorkerCore}
    (step : BuildSound setting own.build build (world.cores.set i (own.build, new)))
    (builds : after.builds = world.builds)
    (cores : after.cores = world.cores.set i (own.build, new)) (calls : after.calls = world.calls) :
    Reports setting after := by
  have unchanged : world.builds = world.builds.set own.build build := by
    obtain ⟨inside, rfl⟩ := List.getElem?_eq_some_iff.mp atBuild
    exact (List.set_getElem_self inside).symm
  exact reports.workerStep located atBuild build rfl rfl step (builds.trans unchanged) cores calls

theorem countP_set_eq {α : Type} {items : List α} {i : Nat} {old : α} (new : α) (p : α → Bool)
    (located : items[i]? = some old) :
    (items.set i new).countP p + (if p old then 1 else 0) = items.countP p + if p new then 1 else 0 := by
  obtain ⟨inside, rfl⟩ := List.getElem?_eq_some_iff.mp located
  rw [List.countP_set inside]
  by_cases held : p items[i] = true
  · have positive : 0 < items.countP p := List.countP_pos_iff.mpr ⟨_, List.getElem_mem inside, held⟩
    rw [if_pos held]
    omega
  · rw [if_neg held]
    omega

def isWaiting : WorkerStage → Prop
  | .waiting _ => True
  | _ => False

theorem not_waiter {i : Nat} {own : ReportWorker} (places : Places world)
    (located : world.workers[i]? = some own) (moving : ¬isWaiting own.stage) :
    i ∉ world.sourceWaiters := by
  intro inQueue
  obtain ⟨other, user, found, waits⟩ := places.waiters i inQueue
  obtain rfl := Option.some.inj (located.symm.trans found)
  rw [waits] at moving
  exact moving trivial

/-- A step that neither takes a place nor gives one back. -/
theorem Places.setStage (places : Places world) {i number : Nat} {own : ReportWorker}
    (located : world.workers[i]? = some own) {stage : WorkerStage}
    (same : stage.hasPlace = own.stage.hasPlace) (moving : ¬isWaiting own.stage)
    (onward : ¬isWaiting stage) : Places (world.setStage i number stage) where
  taken := by
    have counted := countP_set_eq { build := number, stage }
      (fun worker : ReportWorker => worker.stage.hasPlace) located
    dsimp only at counted
    rw [same] at counted
    exact (Nat.add_right_cancel counted).trans places.taken
  bound := places.bound
  waiters := by
    intro j inQueue
    obtain ⟨other, user, found, waits⟩ := places.waiters j inQueue
    refine ⟨other, user, ?_, waits⟩
    have apart : i ≠ j := fun same => not_waiter places located moving (same ▸ inQueue)
    show (world.workers.set i _)[j]? = some other
    rw [List.getElem?_set, if_neg apart, found]
  distinct := places.distinct
  queued := by
    intro j other user found waits
    rcases getElem?_set_cases found with ⟨_, rfl⟩ | ⟨_, found⟩
    · dsimp only at waits
      rw [waits] at onward
      exact absurd trivial onward
    · exact places.queued j other user found waits
  busy := places.busy

theorem Places.acquire (places : Places world) {i : Nat} {own : ReportWorker}
    (located : world.workers[i]? = some own) (moving : ¬isWaiting own.stage)
    (free : own.stage.hasPlace = false) (number : Nat) (user : AiUsageReportUser) :
    Places (world.acquire i number user) := by
  have absent := not_waiter places located moving
  unfold ReportWorld.acquire
  split
  · rename_i full
    have counted := countP_set_eq { build := number, stage := .waiting user }
      (fun worker : ReportWorker => worker.stage.hasPlace) located
    dsimp only at counted
    rw [free] at counted
    refine ⟨(Nat.add_right_cancel counted).trans places.taken, places.bound, ?_, ?_, ?_, ?_⟩
    · intro j inQueue
      rcases List.mem_append.mp inQueue with before | new
      · obtain ⟨other, known, found, waits⟩ := places.waiters j before
        refine ⟨other, known, ?_, waits⟩
        have apart : i ≠ j := fun same => absent (same ▸ before)
        show (world.workers.set i _)[j]? = some other
        rw [List.getElem?_set, if_neg apart, found]
      · obtain rfl := List.mem_singleton.mp new
        exact ⟨_, user, getElem?_set_self_of_some located, rfl⟩
    · apply List.nodup_append.mpr
      refine ⟨places.distinct, List.pairwise_singleton _ _, ?_⟩
      intro a inQueue b new same
      exact absent (List.mem_singleton.mp new ▸ same ▸ inQueue)
    · intro j other known found waits
      rcases getElem?_set_cases found with ⟨rfl, _⟩ | ⟨_, found⟩
      · exact List.mem_append_right _ (List.mem_singleton.mpr rfl)
      · exact List.mem_append_left _ (places.queued j other known found waits)
    · intro _
      exact Nat.le_antisymm places.bound full
  · rename_i room
    have counted := countP_set_eq { build := number, stage := .reading user }
      (fun worker : ReportWorker => worker.stage.hasPlace) located
    dsimp only at counted
    rw [free] at counted
    have nobody : world.sourceWaiters = [] := by
      by_cases none_ : world.sourceWaiters = []
      · exact none_
      · exact absurd (Nat.le_of_eq (places.busy none_).symm) room
    refine ⟨?_, ?_, ?_, ?_, ?_, ?_⟩
    · exact counted.trans (congrArg (· + 1) places.taken)
    · show world.sourceCalls + 1 ≤ 4
      omega
    · intro j inQueue
      rw [show _ = [] from nobody] at inQueue
      cases inQueue
    · exact places.distinct
    · intro j other known found waits
      rcases getElem?_set_cases found with ⟨_, rfl⟩ | ⟨_, found⟩
      · cases waits
      · exact places.queued j other known found waits
    · intro some_
      exact absurd nobody some_

theorem modify_eq_set {α : Type} {items : List α} {i : Nat} {old : α} (change : α → α)
    (located : items[i]? = some old) : items.modify i change = items.set i (change old) := by
  apply List.ext_getElem?
  intro j
  rw [List.getElem?_modify, List.getElem?_set]
  split
  · rename_i same
    subst same
    obtain ⟨inside, _⟩ := List.getElem?_eq_some_iff.mp located
    rw [located, if_pos inside]
    rfl
  · rw [Option.map_eq_map, Option.map_id']

theorem Places.release (places : Places world) {i number : Nat} {own : ReportWorker}
    (located : world.workers[i]? = some own) {user : AiUsageReportUser}
    (reads : own.stage = .reading user) (source : Option UsageSource) :
    Places (world.setStage i number (.read user source)).release := by
  have moving : ¬isWaiting own.stage := by
    rw [reads]
    exact id
  have absent := not_waiter places located moving
  have counted := countP_set_eq { build := number, stage := .read user source }
    (fun worker : ReportWorker => worker.stage.hasPlace) located
  dsimp only at counted
  rw [reads, places.taken] at counted
  replace counted : (world.workers.set i { build := number, stage := .read user source }).countP
      (fun worker => worker.stage.hasPlace) + 1 = world.sourceCalls := counted
  unfold ReportWorld.release
  split
  · rename_i next rest queue
    replace queue : world.sourceWaiters = next :: rest := queue
    have distinct := places.distinct
    rw [queue] at distinct
    obtain ⟨nextAbsent, restDistinct⟩ := List.nodup_cons.mp distinct
    obtain ⟨waiter, known, atNext, waits⟩ := places.waiters next (queue ▸ List.mem_cons_self)
    have apart : i ≠ next := fun same => absent (queue ▸ same ▸ List.mem_cons_self)
    have stillThere : (world.workers.set i { build := number, stage := .read user source })[next]? = some waiter := by
      rw [List.getElem?_set, if_neg apart, atNext]
    have woken : wake waiter.stage = .woken known := by
      rw [waits]
      rfl
    have workers : ((world.setStage i number (.read user source)).workers.modify next
        fun own => { own with stage := wake own.stage }) =
        (world.workers.set i { build := number, stage := .read user source }).set next
          { build := waiter.build, stage := .woken known } := by
      rw [← woken]
      exact modify_eq_set _ stillThere
    have recounted := countP_set_eq { build := waiter.build, stage := .woken known }
      (fun worker : ReportWorker => worker.stage.hasPlace) stillThere
    dsimp only at recounted
    rw [waits] at recounted
    refine ⟨?_, places.bound, ?_, restDistinct, ?_, ?_⟩
    · dsimp only
      rw [workers]
      exact recounted.trans counted
    · intro j inRest
      obtain ⟨other, asked, found, waits⟩ := places.waiters j (queue ▸ List.mem_cons_of_mem next inRest)
      refine ⟨other, asked, ?_, waits⟩
      dsimp only
      rw [workers, List.getElem?_set, if_neg, List.getElem?_set, if_neg, found]
      · exact fun same => absent (queue ▸ same ▸ List.mem_cons_of_mem next inRest)
      · exact fun same => nextAbsent (same ▸ inRest)
    · intro j other asked found waits
      dsimp only at found
      rw [workers] at found
      rcases getElem?_set_cases found with ⟨_, rfl⟩ | ⟨notNext, found⟩
      · cases waits
      · rcases getElem?_set_cases found with ⟨_, rfl⟩ | ⟨_, found⟩
        · cases waits
        · have inQueue := places.queued j other asked found waits
          rw [queue] at inQueue
          exact (List.mem_cons.mp inQueue).resolve_left notNext
    · intro _
      exact places.busy (queue ▸ List.cons_ne_nil next rest)
  · rename_i queue
    replace queue : world.sourceWaiters = [] := queue
    refine ⟨?_, ?_, ?_, places.distinct, ?_, ?_⟩
    · show _ = world.sourceCalls - 1
      rw [← counted]
      rfl
    · show world.sourceCalls - 1 ≤ 4
      have bound := places.bound
      omega
    · intro j inQueue
      replace inQueue : j ∈ world.sourceWaiters := inQueue
      rw [queue] at inQueue
      cases inQueue
    · intro j other asked found waits
      rcases getElem?_set_cases found with ⟨_, rfl⟩ | ⟨_, found⟩
      · cases waits
      · exact places.queued j other asked found waits
    · intro some_
      exact absurd queue some_

theorem cores_release (world : ReportWorld) : world.release.cores = world.cores := by
  unfold ReportWorld.release
  split
  · rename_i next rest queue
    unfold cores
    dsimp only
    apply List.ext_getElem?
    intro j
    rw [List.getElem?_map, List.getElem?_map, List.getElem?_modify]
    cases found : world.workers[j]? with
    | none => rfl
    | some own =>
      dsimp only [Option.map_some]
      split
      · have same : (wake own.stage).core = own.stage.core := by
          cases own.stage <;> rfl
        exact congrArg some (congrArg (Prod.mk own.build) same)
      · rfl
  · rfl

/-- Everything that is kept. -/
structure Sound (setting : ReportSetting) (world : ReportWorld) : Prop where
  reports : Reports setting world
  places : Places world

theorem Sound.countSource (sound : Sound setting world) {i : Nat} {own : ReportWorker}
    (located : world.workers[i]? = some own) {build : ReportBuild}
    (atBuild : world.builds[own.build]? = some build) {user : AiUsageReportUser}
    {source : Option UsageSource} (reads : own.stage = .read user source) :
    Sound setting (world.countSource i own.build build user source) := by
  have atCore : world.cores[i]? = some (own.build, .read user source) := by
    rw [core_at located, reads]
    rfl
  have buildSound := sound.reports.builds own.build build atBuild
  have moving : ¬isWaiting own.stage := by
    rw [reads]
    exact id
  have free : own.stage.hasPlace = false := by
    rw [reads]
    rfl
  have failed := buildSound.failures
  have stay : ∀ {stage : WorkerStage}, stage.hasPlace = false → stage.hasPlace = own.stage.hasPlace :=
    fun idle => idle.trans free.symm
  unfold ReportWorld.countSource
  split
  · rename_i stopped
    constructor
    · refine sound.reports.stageStep located atBuild ?_ ?_ (cores_setStage world i own.build .finished) ?_
      · exact buildSound.letGo atCore (.inr rfl) failed id (fun clean => absurd clean stopped.2)
          fun _ => stopped.2
      · rfl
      · rfl
    · exact sound.places.setStage located (stay rfl) moving id
  · rename_i going
    split
    · rename_i tally counted
      constructor
      · refine sound.reports.workerStep located atBuild { build with tally } rfl rfl ?_ ?_
          (cores_setStage _ i own.build .looping) ?_
        · apply buildSound.letGo atCore (.inl rfl) failed id
          · intro clean
            obtain ⟨_, failure⟩ | ⟨fits, total, summed, collects⟩ :=
              count_source buildSound atCore clean
            · rw [counted] at failure
              cases failure
            · obtain rfl := Except.ok.inj (counted.symm.trans summed)
              exact ⟨fits, collects⟩
          · intro same
            cases same
        · rfl
        · rfl
      · have same : Places (world.setStage i own.build .looping) :=
          sound.places.setStage located (stay rfl) moving id
        exact ⟨same.taken, same.bound, same.waiters, same.distinct, same.queued, same.busy⟩
    · rename_i failure counted
      have clean : build.failures = [] := by
        cases source with
        | none => cases counted
        | some source =>
          by_cases clean : build.failures = []
          · exact clean
          · exact absurd ⟨rfl, clean⟩ going
      obtain ⟨overflow, overflown⟩ | ⟨_, total, summed, _⟩ := count_source buildSound atCore clean
      · have isFailure := Except.error.inj (counted.symm.trans overflown)
        have inJobs : user ∈ build.jobs := List.mem_of_mem_take
          (buildSound.held _ user (List.mem_of_getElem? atCore) rfl)
        constructor
        · refine sound.reports.workerStep located atBuild
            { build with failures := build.failures ++ [failure] } rfl rfl ?_ ?_
            (cores_setStage _ i own.build .looping) ?_
          · apply buildSound.letGo atCore (.inl rfl)
            · intro other inFailures
              rcases List.mem_append.mp inFailures with before | new
              · exact failed other before
              · exact ⟨(List.mem_singleton.mp new).trans isFailure, user, inJobs, overflow⟩
            · intro none_
              exact absurd none_ (List.append_ne_nil_of_right_ne_nil _ (List.cons_ne_nil _ _))
            · intro none_
              exact absurd none_ (List.append_ne_nil_of_right_ne_nil _ (List.cons_ne_nil _ _))
            · intro same
              cases same
          · rfl
          · rfl
        · have same : Places (world.setStage i own.build .looping) :=
            sound.places.setStage located (stay rfl) moving id
          exact ⟨same.taken, same.bound, same.waiters, same.distinct, same.queued, same.busy⟩
      · rw [counted] at summed
        cases summed

theorem cores_acquire (world : ReportWorld) (i number : Nat) (user : AiUsageReportUser) :
    (world.acquire i number user).cores = world.cores.set i (number, .holding user) := by
  unfold ReportWorld.acquire
  split
  · exact cores_setStage _ i number (.waiting user)
  · exact cores_setStage _ i number (.reading user)

theorem acquire_builds (world : ReportWorld) (i number : Nat) (user : AiUsageReportUser) :
    (world.acquire i number user).builds = world.builds ∧ (world.acquire i number user).calls = world.calls := by
  unfold ReportWorld.acquire
  split <;> exact ⟨rfl, rfl⟩

theorem release_builds (world : ReportWorld) :
    world.release.builds = world.builds ∧ world.release.calls = world.calls := by
  unfold ReportWorld.release
  split <;> exact ⟨rfl, rfl⟩

theorem Sound.finish (sound : Sound setting world) {i : Nat} {own : ReportWorker}
    (located : world.workers[i]? = some own) {build : ReportBuild}
    (atBuild : world.builds[own.build]? = some build) (looping : own.stage = .looping)
    (through : build.failures ≠ [] ∨ build.nextJob = build.jobs.length) :
    Sound setting (world.setStage i own.build .finished) := by
  have atCore := core_at located
  have moving : ¬isWaiting own.stage := by
    rw [looping]
    exact id
  have idle : WorkerStage.finished.hasPlace = own.stage.hasPlace := by
    rw [looping]
    rfl
  rw [looping] at atCore
  constructor
  · refine sound.reports.stageStep located atBuild ?_ ?_ (cores_setStage world i own.build .finished) ?_
    · exact (sound.reports.builds own.build build atBuild).sameUser atCore rfl
        (fun _ _ same => by cases same) fun _ => through
    · rfl
    · rfl
  · exact sound.places.setStage located idle moving id

theorem Sound.proceed (sound : Sound setting world) {i : Nat} {own : ReportWorker}
    (located : world.workers[i]? = some own) {build : ReportBuild}
    (atBuild : world.builds[own.build]? = some build) :
    Sound setting (world.proceed setting i own.build build own.stage) := by
  have buildSound := sound.reports.builds own.build build atBuild
  have atCore := core_at located
  cases stage : own.stage with
  | looping =>
    rw [stage] at atCore
    dsimp only [ReportWorld.proceed]
    split
    · rename_i user job
      split
      · rename_i clean
        have moving : ¬isWaiting own.stage := by
          rw [stage]
          exact id
        have free : own.stage.hasPlace = false := by
          rw [stage]
          rfl
        constructor
        · refine sound.reports.workerStep located atBuild
            { build with nextJob := build.nextJob + 1 } rfl rfl
            (buildSound.takeJob atCore job clean) ?_ (cores_acquire _ i own.build user) ?_
          · exact (acquire_builds _ i own.build user).1
          · exact (acquire_builds _ i own.build user).2
        · have places : Places (world.setBuild own.build
              { build with nextJob := build.nextJob + 1 }) :=
            ⟨sound.places.taken, sound.places.bound, sound.places.waiters, sound.places.distinct,
              sound.places.queued, sound.places.busy⟩
          exact places.acquire located moving free own.build user
      · rename_i failed
        exact sound.finish located atBuild stage (.inl failed)
    · rename_i none_
      apply sound.finish located atBuild stage
      have over_ := List.getElem?_eq_none_iff.mp none_
      exact .inr (Nat.le_antisymm buildSound.next over_)
  | waiting user => exact sound
  | woken user =>
    rw [stage] at atCore
    constructor
    · refine sound.reports.stageStep located atBuild ?_ ?_ (cores_setStage world i own.build (.reading user)) ?_
      · exact buildSound.sameUser atCore rfl (fun _ _ same => by cases same)
          fun same => by cases same
      · rfl
      · rfl
    · apply sound.places.setStage located _ _ id
      · rw [stage]
        rfl
      · rw [stage]
        exact id
  | reading user =>
    rw [stage] at atCore
    constructor
    · refine sound.reports.stageStep located atBuild ?_ ?_ ((cores_release _).trans (cores_setStage world i own.build
          (.read user (loadSource setting build.query user)))) ?_
      · apply buildSound.sameUser atCore
        · rfl
        · intro other source same
          obtain ⟨rfl, rfl⟩ := WorkerCore.read.inj same
          rfl
        · intro same
          cases same
      · exact (release_builds _).1
      · exact (release_builds _).2
    · exact sound.places.release located stage _
  | read user source => exact sound.countSource located atBuild stage
  | finished => exact sound

theorem Sound.advance (sound : Sound setting world) (worker : Nat) :
    Sound setting (world.advance setting worker) := by
  unfold ReportWorld.advance
  split
  · exact sound
  · rename_i own located
    split
    · exact sound
    · rename_i build atBuild
      exact sound.proceed located atBuild

theorem Sound.setCall (sound : Sound setting world) (call : Nat) (made : ReportCall)
    (joins : ∀ number, made.joined = .ok number → ∃ build, world.builds[number]? = some build ∧
      build.query = made.query ∧ reportUsers setting made.query made.roster = .ok build.users)
    (refuses : ∀ error, made.joined = .error error →
      reportUsers setting made.query made.roster = .error error ∨ error = rateLimited) :
    Sound setting (world.setCall call made) where
  reports :=
    { builds := sound.reports.builds
      numbered := sound.reports.numbered
      calls := by
        intro other own number isCall joined
        simp only [ReportWorld.setCall] at isCall
        split at isCall
        · obtain rfl := Option.some.inj isCall
          exact joins number joined
        · exact sound.reports.calls other own number isCall joined
      refused := by
        intro other own error isCall joined
        simp only [ReportWorld.setCall] at isCall
        split at isCall
        · obtain rfl := Option.some.inj isCall
          exact refuses error joined
        · exact sound.reports.refused other own error isCall joined }
  places := ⟨sound.places.taken, sound.places.bound, sound.places.waiters, sound.places.distinct,
    sound.places.queued, sound.places.busy⟩

theorem cores_startBuild (world : ReportWorld) (query : AiUsageReportQuery) (users : List AiUsageReportUser) :
    (world.startBuild query users).cores = world.cores ++
      List.replicate (min 4 (jobsOf users).length) (world.builds.length, .looping) := by
  unfold cores ReportWorld.startBuild
  dsimp only
  rw [List.map_append, List.map_replicate]
  rfl

theorem Sound.startBuild (sound : Sound setting world) (query : AiUsageReportQuery)
    {users : List AiUsageReportUser} (accounts : (users.map AiUsageReportUser.accountId).Nodup) :
    Sound setting (world.startBuild query users) := by
  have builds : (world.startBuild query users).builds = world.builds ++ [ReportBuild.begin query users] := rfl
  have unstarted : ∀ core, (world.builds.length, core) ∉ world.cores := by
    intro core inCores
    exact Nat.lt_irrefl _ (sound.reports.numbered _ inCores)
  constructor
  · refine ⟨?_, ?_, ?_, sound.reports.refused⟩
    · intro number build found
      rw [builds, List.getElem?_append] at found
      rw [cores_startBuild]
      split at found
      · rename_i older
        apply (sound.reports.builds number build found).append
        intro core inLater
        have same := (Prod.mk.inj (List.eq_of_mem_replicate inLater)).1
        omega
      · rename_i newer
        have at_ : number = world.builds.length := by
          have inside := (List.getElem?_eq_some_iff.mp found).1
          rw [List.length_singleton] at inside
          omega
        subst at_
        rw [Nat.sub_self] at found
        obtain rfl := Option.some.inj found
        exact begin_sound accounts unstarted
    · intro entry inCores
      rw [builds, List.length_append, List.length_singleton]
      rw [cores_startBuild] at inCores
      rcases List.mem_append.mp inCores with before | new
      · exact Nat.lt_succ_of_lt (sound.reports.numbered entry before)
      · rw [List.eq_of_mem_replicate new]
        exact Nat.lt_succ_self _
    · intro call made number isCall joined
      obtain ⟨build, found, same⟩ := sound.reports.calls call made number isCall joined
      refine ⟨build, ?_, same⟩
      rw [builds, List.getElem?_append_left (List.getElem?_eq_some_iff.mp found).1, found]
  · have workers : (world.startBuild query users).workers = world.workers ++
        List.replicate (min 4 (jobsOf users).length)
          { build := world.builds.length, stage := .looping } := rfl
    refine ⟨?_, sound.places.bound, ?_, sound.places.distinct, ?_, sound.places.busy⟩
    · rw [workers, List.countP_append, List.countP_replicate]
      exact sound.places.taken
    · intro i inQueue
      obtain ⟨own, user, found, waits⟩ := sound.places.waiters i inQueue
      refine ⟨own, user, ?_, waits⟩
      rw [workers, List.getElem?_append_left (List.getElem?_eq_some_iff.mp found).1, found]
    · intro i own user found waits
      rw [workers, List.getElem?_append] at found
      split at found
      · exact sound.places.queued i own user found waits
      · have idle := List.eq_of_mem_replicate (List.mem_of_getElem? found)
        rw [idle] at waits
        cases waits

theorem sameReport_some {query : AiUsageReportQuery} {users : List AiUsageReportUser} {number : Nat}
    (found : world.sameReport query users = some number) :
    ∃ build, world.builds[number]? = some build ∧ build.query = query ∧ build.users = users := by
  have matched := List.find?_some found
  cases atBuild : world.builds[number]? with
  | none =>
    rw [atBuild] at matched
    cases matched
  | some build =>
    rw [atBuild] at matched
    exact ⟨build, rfl, of_decide_eq_true matched⟩

theorem Sound.report (sound : Sound setting world) (call : Nat) (query : AiUsageReportQuery)
    (roster : Option (List AiUsageReportUser)) :
    Sound setting (world.report setting call query roster) := by
  unfold ReportWorld.report
  split
  · exact sound
  · split
    · rename_i error refused
      apply sound.setCall
      · intro number joined
        cases joined
      · intro other joined
        obtain rfl := Except.error.inj joined
        exact .inl refused
    · rename_i users selected
      split
      · rename_i number same
        obtain ⟨build, atBuild, sameQuery, sameUsers⟩ := sameReport_some same
        apply sound.setCall
        · intro other joined
          obtain rfl := Except.ok.inj joined
          exact ⟨build, atBuild, sameQuery, sameUsers ▸ selected⟩
        · intro other joined
          cases joined
      · split
        · apply sound.setCall
          · intro number joined
            cases joined
          · intro other joined
            exact .inr (Except.error.inj joined).symm
        · apply (sound.startBuild query (reportUsers_distinct selected)).setCall
          · intro number joined
            obtain rfl := Except.ok.inj joined
            refine ⟨ReportBuild.begin query users, ?_, rfl, selected⟩
            show (world.builds ++ [_])[world.builds.length]? = _
            rw [List.getElem?_append_right (Nat.le_refl _), Nat.sub_self]
            rfl
          · intro other joined
            cases joined

theorem Sound.settle (sound : Sound setting world) (number now : Nat) : Sound setting (world.settle number now) := by
  unfold ReportWorld.settle
  split
  · exact sound
  · rename_i build atBuild
    split
    · exact sound
    · split
      · rename_i allFinished
        have buildSound := sound.reports.builds number build atBuild
        have through : ∀ core, (number, core) ∈ world.cores → core = .finished := by
          intro core inCores
          obtain ⟨own, inWorkers, same⟩ := List.mem_map.mp inCores
          obtain ⟨isBuild, rfl⟩ := Prod.mk.inj same
          have finished := List.all_eq_true.mp allFinished own inWorkers
          simp only [isBuild, ne_eq, not_true_eq_false, decide_false, Bool.false_or] at finished
          cases stage : own.stage <;> rw [stage] at finished <;> first | rfl | cases finished
        have settled : BuildSound setting number
            { build with settled := some (build.outcome now) } world.cores := by
          refine ⟨buildSound.accounts, buildSound.next, buildSound.held, buildSound.apart,
            buildSound.sources, buildSound.failures, buildSound.fits, buildSound.tally,
            buildSound.finished, buildSound.staffed, ?_⟩
          intro outcome isOutcome
          obtain rfl := Option.some.inj isOutcome
          rw [outcome_eq buildSound through now]
          exact reportOutcome_undated setting build.query build.users now
        constructor
        · refine ⟨?_, ?_, ?_, sound.reports.refused⟩
          · intro other found isBuild
            rcases getElem?_set_cases isBuild with ⟨rfl, rfl⟩ | ⟨_, isBuild⟩
            · exact settled
            · exact sound.reports.builds other found isBuild
          · intro entry inCores
            show entry.1 < (world.builds.set number _).length
            rw [List.length_set]
            exact sound.reports.numbered entry inCores
          · intro call made other isCall joined
            obtain ⟨found, isBuild, same⟩ := sound.reports.calls call made other isCall joined
            by_cases own : other = number
            · subst own
              obtain rfl := Option.some.inj (isBuild.symm.trans atBuild)
              exact ⟨_, getElem?_set_self_of_some atBuild, same⟩
            · refine ⟨found, ?_, same⟩
              show (world.builds.set number _)[other]? = some found
              rw [List.getElem?_set, if_neg (Ne.symm own), isBuild]
        · exact ⟨sound.places.taken, sound.places.bound, sound.places.waiters,
            sound.places.distinct, sound.places.queued, sound.places.busy⟩
      · exact sound

theorem step_sound (world : ReportWorld) (event : ReportEvent) (sound : Sound setting world) :
    Sound setting ((machine setting).step world event) := by
  cases event with
  | report call query roster => exact sound.report call query roster
  | advance worker => exact sound.advance worker
  | settle number now => exact sound.settle number now

theorem start_sound : Sound setting start where
  reports :=
    { builds := by
        intro number build found
        cases found
      numbered := by
        intro entry inCores
        cases inCores
      calls := by
        intro call made number isCall
        cases isCall
      refused := by
        intro call made error isCall
        cases isCall }
  places :=
    { taken := rfl
      bound := Nat.zero_le _
      waiters := by
        intro i inQueue
        cases inQueue
      distinct := List.nodup_nil
      queued := by
        intro i own user found
        cases found
      busy := by
        intro some_
        exact absurd rfl some_ }

theorem run_sound (setting : ReportSetting) (events : List ReportEvent) :
    Sound setting ((machine setting).run start events) :=
  Machine.run_invariant (P := fun world : ReportWorld => Sound setting world) step_sound start_sound events

theorem reading_le (sound : Sound setting world) : world.reading ≤ 4 := by
  have readers : world.reading ≤ world.workers.countP fun worker => worker.stage.hasPlace := by
    apply List.countP_mono_left
    intro worker _ reads
    cases stage : worker.stage <;> rw [stage] at reads <;> first | rfl | cases reads
  exact Nat.le_trans readers (Nat.le_trans (Nat.le_of_eq sound.places.taken) sound.places.bound)

end ReportWorld

end PlatformClaw.Reporting
