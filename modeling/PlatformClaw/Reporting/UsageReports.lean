import PlatformClaw.Library.Machine
import PlatformClaw.Reporting.UsageTally

/-! # Usage reports

`AiUsageReportService` with any number of reports under way. A report is built by
at most four workers; all workers of all reports share four places for reading a
source, and a place that becomes free is handed to the one that waits longest.
Between two awaits a worker runs without interruption.
-/

namespace PlatformClaw.Reporting

/-- What a source is read with; the other parameters are fixed. -/
structure UsageRequest where
  agentId : Option String
  startDate : String
  endDate : String
deriving DecidableEq, Repr

/-- The gateway and the script's own lower case, which the service is run with. -/
structure ReportSetting where
  /-- `none` is a request that fails. -/
  request : UsageRequest → Option SourceValue
  toLowerCase : String → String

/-- How far a worker is. The user is the one whose source it is about. -/
inductive WorkerStage
  /-- Before the condition of its loop. -/
  | looping
  /-- For a place to read a source. -/
  | waiting (user : AiUsageReportUser)
  /-- It was handed a place. -/
  | woken (user : AiUsageReportUser)
  | reading (user : AiUsageReportUser)
  /-- The source is read, or the read has failed; the place is given back. -/
  | read (user : AiUsageReportUser) (source : Option UsageSource)
  | finished

structure ReportWorker where
  build : Nat
  stage : WorkerStage

/-- One run of `build`. -/
structure ReportBuild where
  query : AiUsageReportQuery
  users : List AiUsageReportUser
  nextJob : Nat
  tally : ReportTally
  failures : List AiUsageReportError
  settled : Option (Except AiUsageReportError AiUsageReport)

namespace ReportBuild

variable (build : ReportBuild)

def jobs : List AiUsageReportUser :=
  build.users.filter fun user => user.agentId.isSome

/-- Before the workers are started. -/
def begin (query : AiUsageReportQuery) (users : List AiUsageReportUser) : ReportBuild where
  query := query
  users := users
  nextJob := 0
  tally :=
    { buckets := Table.empty
      warnings := ["HISTORICAL_COVERAGE_UNVERIFIED"]
      isPartial := false
      usable := (users.filter fun user => user.agentId.isSome).length = 0 }
  failures := []
  settled := none

/-- What is left to do once all workers are through. -/
def outcome (fetchedAt : Nat) : Except AiUsageReportError AiUsageReport :=
  match build.failures with
  | failure :: _ => .error failure
  | [] =>
    assemble build.query build.users.length build.tally.buckets.rows build.tally.warnings
      build.tally.isPartial build.tally.usable fetchedAt

end ReportBuild

/-- A call of `report`, with what it was called with and the roster it has read. -/
structure ReportCall where
  query : AiUsageReportQuery
  roster : Option (List AiUsageReportUser)
  /-- The build whose promise it returns, or the error it throws. -/
  joined : Except AiUsageReportError Nat

structure ReportWorld where
  sourceCalls : Nat
  /-- Workers by number, the one that waits longest first. -/
  sourceWaiters : List Nat
  workers : List ReportWorker
  builds : List ReportBuild
  /-- Builds by number. -/
  inFlight : List Nat
  calls : Nat → Option ReportCall

inductive ReportEvent
  /-- A call goes on with the roster it has read; `none` is a read that failed. -/
  | report (call : Nat) (query : AiUsageReportQuery) (roster : Option (List AiUsageReportUser))
  /-- A worker goes on, up to its next await. -/
  | advance (worker : Nat)
  /-- All workers of a build are through. -/
  | settle (build : Nat) (now : Nat)

/-- The loop over the roster: no account and no agent comes twice. -/
def consistentUsers (toLowerCase : String → String) (accounts agents : List String) : List AiUsageReportUser → Bool
  | [] => true
  | user :: rest =>
    user.accountId ≠ "" && user.accountId = toLowerCase (ScriptString.trim user.accountId) &&
      !accounts.contains user.accountId && !(user.agentId.any agents.contains) &&
      consistentUsers toLowerCase (user.accountId :: accounts) (user.agentId.toList ++ agents) rest

/-- `roster`. -/
def checkRoster (toLowerCase : String → String) (roster : Option (List AiUsageReportUser)) :
    Except AiUsageReportError (List AiUsageReportUser) := do
  let users ← Except.orThrow roster (unavailable "Employee directory unavailable. Retry shortly.")
  Except.ensure (users.length ≤ 10000)
    (unavailable "Employee directory exceeds reporting capacity.")
  Except.ensure (consistentUsers toLowerCase [] [] users = true)
    (unavailable "Employee reporting identities are inconsistent.")
  return users

def unknownAccounts (query : AiUsageReportQuery) (roster : List AiUsageReportUser) : List String :=
  query.filters.knoxId.filter fun account => !(roster.map AiUsageReportUser.accountId).contains account

def selectUsers (query : AiUsageReportQuery) (roster : List AiUsageReportUser) :
    Except AiUsageReportError (List AiUsageReportUser) := do
  Except.ensure (unknownAccounts query roster = [])
    { statusCode := 404, code := "USER_NOT_FOUND"
      message := "One or more requested accounts were not found"
      unknownKnoxIds := some (unknownAccounts query roster) }
  return roster.filter fun user =>
    (query.filters.knoxId.isEmpty || query.filters.knoxId.contains user.accountId) &&
      (query.filters.team.isNone || user.department = query.filters.team)

def reportUsers (setting : ReportSetting) (query : AiUsageReportQuery) (roster : Option (List AiUsageReportUser)) :
    Except AiUsageReportError (List AiUsageReportUser) :=
  (checkRoster setting.toLowerCase roster).bind (selectUsers query)

def rateLimited : AiUsageReportError where
  statusCode := 429
  code := "RATE_LIMITED"
  message := "Too many reports in progress. Retry shortly."

def loadSource (setting : ReportSetting) (query : AiUsageReportQuery) (user : AiUsageReportUser) :
    Option UsageSource :=
  (setting.request { agentId := user.agentId, startDate := query.startDate, endDate := query.endDate
      }).bind fun raw => (parseUsageSource raw query).toOption

namespace ReportWorld

variable (setting : ReportSetting) (world : ReportWorld)

def start : ReportWorld where
  sourceCalls := 0
  sourceWaiters := []
  workers := []
  builds := []
  inFlight := []
  calls := fun _ => none

def setStage (worker number : Nat) (stage : WorkerStage) : ReportWorld :=
  { world with workers := world.workers.set worker { build := number, stage } }

def setBuild (number : Nat) (build : ReportBuild) : ReportWorld :=
  { world with builds := world.builds.set number build }

def setCall (call : Nat) (made : ReportCall) : ReportWorld :=
  { world with calls := fun other => if other = call then some made else world.calls other }

/-- The build in flight for the same question about the same users. -/
def sameReport (query : AiUsageReportQuery) (users : List AiUsageReportUser) : Option Nat :=
  world.inFlight.find? fun number =>
    world.builds[number]?.any fun build => build.query = query ∧ build.users = users

def startBuild (query : AiUsageReportQuery) (users : List AiUsageReportUser) : ReportWorld :=
  let build := ReportBuild.begin query users
  let number := world.builds.length
  { world with
    builds := world.builds ++ [build]
    workers := world.workers ++ List.replicate (min 4 build.jobs.length) { build := number, stage := .looping }
    inFlight := world.inFlight ++ [number] }

/-- `report`, from where it has read the roster. -/
def report (call : Nat) (query : AiUsageReportQuery) (roster : Option (List AiUsageReportUser)) : ReportWorld :=
  match world.calls call with
  | some _ => world
  | none =>
    match reportUsers setting query roster with
    | .error error => world.setCall call { query, roster, joined := .error error }
    | .ok users =>
      match world.sameReport query users with
      | some number => world.setCall call { query, roster, joined := .ok number }
      | none =>
        if 4 ≤ world.inFlight.length then
          world.setCall call { query, roster, joined := .error rateLimited }
        else
          (world.startBuild query users).setCall call
            { query, roster, joined := .ok world.builds.length }

/-- The start of `load`: a place to read, or a wait for one. -/
def acquire (worker number : Nat) (user : AiUsageReportUser) : ReportWorld :=
  if 4 ≤ world.sourceCalls then
    { world with sourceWaiters := world.sourceWaiters ++ [worker] }.setStage worker number (.waiting user)
  else { world with sourceCalls := world.sourceCalls + 1 }.setStage worker number (.reading user)

def wake : WorkerStage → WorkerStage
  | .waiting user => .woken user
  | stage => stage

/-- The end of `load`: the place goes to the one that waits longest. -/
def release : ReportWorld :=
  match world.sourceWaiters with
  | next :: rest =>
    { world with
      sourceWaiters := rest
      workers := world.workers.modify next fun own => { own with stage := wake own.stage } }
  | [] => { world with sourceCalls := world.sourceCalls - 1 }

def countSource (worker number : Nat) (build : ReportBuild) (user : AiUsageReportUser)
    (source : Option UsageSource) : ReportWorld :=
  if source.isSome ∧ build.failures ≠ [] then world.setStage worker number .finished
  else
    match build.tally.addSource build.query user source with
    | .ok tally => (world.setBuild number { build with tally }).setStage worker number .looping
    | .error failure =>
      (world.setBuild number { build with failures := build.failures ++ [failure] }).setStage worker number .looping

def proceed (worker number : Nat) (build : ReportBuild) : WorkerStage → ReportWorld
  | .looping =>
    match build.jobs[build.nextJob]? with
    | some user =>
      if build.failures = [] then
        (world.setBuild number { build with nextJob := build.nextJob + 1 }).acquire worker number user
      else world.setStage worker number .finished
    | none => world.setStage worker number .finished
  | .waiting _ => world
  | .woken user => world.setStage worker number (.reading user)
  | .reading user =>
    (world.setStage worker number (.read user (loadSource setting build.query user))).release
  | .read user source => world.countSource worker number build user source
  | .finished => world

def advance (worker : Nat) : ReportWorld :=
  match world.workers[worker]? with
  | none => world
  | some own =>
    match world.builds[own.build]? with
    | none => world
    | some build => world.proceed setting worker own.build build own.stage

def isFinished : WorkerStage → Bool
  | .finished => true
  | _ => false

/-- The end of `build`, and the retirement of its promise. -/
def settle (number now : Nat) : ReportWorld :=
  match world.builds[number]? with
  | none => world
  | some build =>
    if build.settled.isSome then world
    else if world.workers.all fun own => own.build ≠ number || isFinished own.stage then
      { world.setBuild number { build with settled := some (build.outcome now) } with
        inFlight := world.inFlight.filter fun other => other ≠ number }
    else world

def step : ReportEvent → ReportWorld
  | .report call query roster => world.report setting call query roster
  | .advance worker => world.advance setting worker
  | .settle number now => world.settle number now

def machine (setting : ReportSetting) : Machine ReportWorld ReportEvent where
  step := step setting

end ReportWorld

end PlatformClaw.Reporting
