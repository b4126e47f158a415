import PlatformClaw.Reporting.TallyEffects
import PlatformClaw.Reporting.UsageReports

/-! # The outcome of a report

What a report must be, from the roster, the query and the answers of the gateway
alone: every source counted by itself, one user after the other. Its rows are
the sums of the days that pass the filters.
-/

namespace PlatformClaw.Reporting

open Std

variable (setting : ReportSetting) (query : AiUsageReportQuery)

def jobsOf (users : List AiUsageReportUser) : List AiUsageReportUser :=
  users.filter fun user => user.agentId.isSome

def sourceTally (user : AiUsageReportUser) : Except AiUsageReportError ReportTally :=
  ReportTally.ofSource query user (loadSource setting query user)

/-- The counts of a source leave the safe integers. -/
def overflows (user : AiUsageReportUser) : Bool :=
  match sourceTally setting query user with
  | .ok _ => false
  | .error _ => true

def partOf (user : AiUsageReportUser) : ReportTally :=
  match sourceTally setting query user with
  | .ok part => part
  | .error _ => .empty

/-- The report about these users, made at this time. -/
def reportOutcome (users : List AiUsageReportUser) (fetchedAt : Nat) : Except AiUsageReportError AiUsageReport :=
  if (jobsOf users).any (overflows setting query) then .error overCapacity
  else
    let parts := (jobsOf users).map (partOf setting query)
    assemble query users.length (parts.flatMap fun part => part.buckets.rows)
      (noteAll ["HISTORICAL_COVERAGE_UNVERIFIED"] (parts.flatMap fun part => part.warnings))
      (parts.any fun part => part.isPartial)
      ((jobsOf users).isEmpty || parts.any fun part => part.usable) fetchedAt

/-- The report apart from its timestamp. -/
def AiUsageReport.undated (report : AiUsageReport) : AiUsageReport :=
  { report with info := { report.info with fetchedAt := 0 } }

theorem directed_eq {α : Type} (order : ReportOrder) (cmp : α → α → Ordering) [OrientedCmp cmp]
    (left right : Option α) :
    directed order cmp left right = ScriptCompare.nothingLast
      (match order with | .asc => cmp | .desc => fun a b => cmp b a) left right := by
  unfold directed
  cases order with
  | asc => simp
  | desc =>
    cases left <;> cases right
    · rfl
    · rfl
    · rfl
    · exact (@OrientedCmp.eq_swap _ cmp _ _ _).symm

instance {α : Type} {order : ReportOrder} {cmp : α → α → Ordering} [TransCmp cmp] :
    TransCmp (directed order cmp) := by
  have same : directed order cmp = ScriptCompare.nothingLast
      (match order with | .asc => cmp | .desc => fun a b => cmp b a) :=
    funext fun left => funext fun right => directed_eq order cmp left right
  rw [same]
  cases order <;> exact inferInstance

instance {query : AiUsageReportQuery} : TransCmp (comparePrimary query) := by
  unfold comparePrimary
  split <;> exact inferInstance

instance {query : AiUsageReportQuery} : TransCmp (compareRows query) :=
  inferInstanceAs (TransCmp (compareLex _ _))

theorem key_of_compareRows {left right : AiUsageReportRow}
    (same : compareRows query left right = .eq) : left.key = right.key := by
  simp only [compareRows, compareLex_eq_eq] at same
  obtain ⟨_, month, knoxId, provider, model⟩ := same
  have sameMonth : left.month = right.month := LawfulEqCmp.eq_of_compare month
  have sameKnoxId : left.knoxId = right.knoxId := LawfulEqCmp.eq_of_compare knoxId
  have sameProvider : left.provider = right.provider := ScriptCompare.nothingLast_eq provider
  have sameModel : left.model = right.model := ScriptCompare.nothingLast_eq model
  simp only [AiUsageReportRow.key, sameMonth, sameKnoxId, sameProvider, sameModel]

theorem assemble_perm (teamSize : Nat) {left right : List AiUsageReportRow}
    {warnings others : List String} (isPartial usable : Bool) (fetchedAt : Nat)
    (rows : left.Perm right) (keyed : left.Pairwise fun a b => a.key ≠ b.key)
    (noted : warnings.Perm others) :
    assemble query teamSize left warnings isPartial usable fetchedAt =
      assemble query teamSize right others isPartial usable fetchedAt := by
  have sortedRows : ScriptCompare.sorted (compareRows query) left =
      ScriptCompare.sorted (compareRows query) right := by
    apply ScriptCompare.sorted_eq_of_perm rows
    intro a inLeft b inRight same
    exact KeyedRows.unique keyed inLeft inRight (key_of_compareRows query same)
  have sortedWarnings : ScriptCompare.sorted ScriptCompare.text warnings =
      ScriptCompare.sorted ScriptCompare.text others := by
    apply ScriptCompare.sorted_eq_of_perm noted
    intro a _ b _ same
    exact LawfulEqCmp.eq_of_compare same
  simp only [assemble, rows.length_eq, sortedRows, sortedWarnings]

theorem assemble_undated (teamSize : Nat) (rows : List AiUsageReportRow) (warnings : List String)
    (isPartial usable : Bool) (now : Nat) :
    (assemble query teamSize rows warnings isPartial usable now).map AiUsageReport.undated =
      (assemble query teamSize rows warnings isPartial usable 0).map AiUsageReport.undated := by
  unfold assemble
  cases Except.ensure (usable = true ∧ ¬(isPartial = true ∧ rows.length = 0)) unavailable with
  | error _ => rfl
  | ok _ =>
    cases Except.ensure (¬(query.limit = none ∧ 100000 < rows.length)) _ with
    | error _ => rfl
    | ok _ =>
      dsimp only [bind, Except.bind]
      cases totalTokens (ScriptCompare.sorted (compareRows query) rows) with
      | error _ => rfl
      | ok _ =>
        dsimp only
        cases totalTokens (returnedRows query _) with
        | error _ => rfl
        | ok _ =>
          dsimp only
          cases totalCalls (ScriptCompare.sorted (compareRows query) rows) with
          | error _ => rfl
          | ok _ => rfl

/-- The time is the timestamp and nothing else. -/
theorem reportOutcome_undated (users : List AiUsageReportUser) (now : Nat) :
    (reportOutcome setting query users now).map AiUsageReport.undated =
      (reportOutcome setting query users 0).map AiUsageReport.undated := by
  unfold reportOutcome
  split
  · rfl
  · exact assemble_undated query _ _ _ _ _ now

theorem totalTokens_ok {rows : List AiUsageReportRow} {total : Option Nat} (done : totalTokens rows = .ok total) :
    total = ReportTally.sumTokens (rows.map AiUsageReportRow.tokenUsage) := by
  have sums : ∀ (rows : List AiUsageReportRow) (sum : Option Nat),
      rows.foldlM (fun sum row => addTokens sum row.tokenUsage) sum = .ok total →
        total = ReportTally.plusTokens sum (ReportTally.sumTokens (rows.map AiUsageReportRow.tokenUsage)) := by
    intro rows
    induction rows with
    | nil =>
      intro sum done
      rw [← Except.ok.inj done]
      exact (ReportTally.plusTokens_zero sum).symm
    | cons row rows ih =>
      intro sum done
      rw [List.foldlM_cons] at done
      obtain ⟨between, first, rest⟩ := Except.bind_ok_iff.mp done
      rw [ih between rest, ReportTally.addTokens_ok first]
      exact ReportTally.plusTokens_assoc sum row.tokenUsage _
  rw [sums rows (some 0) done]
  cases ReportTally.sumTokens (rows.map AiUsageReportRow.tokenUsage) with
  | none => rfl
  | some sum => exact congrArg some (Nat.zero_add sum)

theorem totalCalls_ok {rows : List AiUsageReportRow} {total : Nat} (done : totalCalls rows = .ok total) :
    total = (rows.map AiUsageReportRow.callCount).sum := by
  have sums : ∀ (rows : List AiUsageReportRow) (sum : Nat),
      rows.foldlM (fun sum row => addCount sum row.callCount) sum = .ok total →
        total = sum + (rows.map AiUsageReportRow.callCount).sum := by
    intro rows
    induction rows with
    | nil =>
      intro sum done
      rw [← Except.ok.inj done]
      rfl
    | cons row rows ih =>
      intro sum done
      rw [List.foldlM_cons] at done
      obtain ⟨between, first, rest⟩ := Except.bind_ok_iff.mp done
      rw [ih between rest, (addCount_ok_iff.mp first).1, List.map_cons, List.sum_cons, Nat.add_assoc]
  rw [sums rows 0 done, Nat.zero_add]

structure TotalsOf (report : AiUsageReport) (rows : List AiUsageReportRow) : Prop where
  returned : report.rawData = returnedRows query rows
  totalTokens : report.info.totalTokens = ReportTally.sumTokens (rows.map AiUsageReportRow.tokenUsage)
  returnedTokens : report.info.returnedTokens = ReportTally.sumTokens (report.rawData.map AiUsageReportRow.tokenUsage)
  totalCallCount : report.info.totalCallCount = (rows.map AiUsageReportRow.callCount).sum
  totalRowCount : report.info.totalRowCount = rows.length
  rowCount : report.info.rowCount = report.rawData.length

theorem assemble_ok {teamSize : Nat} {buckets : List AiUsageReportRow} {warnings : List String}
    {isPartial usable : Bool} {now : Nat} {report : AiUsageReport}
    (done : assemble query teamSize buckets warnings isPartial usable now = .ok report) :
    TotalsOf query report (ScriptCompare.sorted (compareRows query) buckets) := by
  unfold assemble at done
  obtain ⟨_, _, done⟩ := Except.bind_ok_iff.mp done
  obtain ⟨_, _, done⟩ := Except.bind_ok_iff.mp done
  obtain ⟨total, totals, done⟩ := Except.bind_ok_iff.mp done
  obtain ⟨returned, returns, done⟩ := Except.bind_ok_iff.mp done
  obtain ⟨calls, called, done⟩ := Except.bind_ok_iff.mp done
  obtain rfl := Except.pure_ok_iff.mp done
  exact ⟨rfl, totalTokens_ok totals, totalTokens_ok returns, totalCalls_ok called, rfl, rfl⟩

def filteredDays (users : List AiUsageReportUser) : List (AiUsageReportUser × ModelDay) :=
  (jobsOf users).flatMap fun user =>
    ((ReportTally.sourceDays (loadSource setting query user)).filter query.passesFilters).map
      fun day => (user, day)

def sumRow (days : List (AiUsageReportUser × ModelDay)) (entry : AiUsageReportUser × ModelDay) : AiUsageReportRow :=
  let key := query.bucketKey entry.1 entry.2
  let together := days.filter fun other => query.bucketKey other.1 other.2 = key
  { team := entry.1.department
    month := key.month
    knoxId := key.knoxId
    callCount := (together.map fun other => other.2.count).sum
    tokenUsage := ReportTally.sumTokens (together.map fun other => other.2.tokens)
    provider := key.provider
    model := key.model }

/-- The rows are the sums of the filtered days: one row for each key that a day has. -/
structure RowsAreSums (users : List AiUsageReportUser) (rows : List AiUsageReportRow) : Prop where
  sums : ∀ row, row ∈ rows ↔ ∃ entry ∈ filteredDays setting query users,
    row = sumRow query (filteredDays setting query users) entry
  distinct : rows.Pairwise fun a b => a.key ≠ b.key
  sorted : rows.Pairwise fun a b => (compareRows query a b).isLE = true

variable {setting : ReportSetting} {query : AiUsageReportQuery} {users : List AiUsageReportUser}

theorem flatMap_eq_of_only {α β : Type} {items : List α} {f : α → List β} {item : α}
    (inItems : item ∈ items) (distinct : items.Nodup)
    (only : ∀ other ∈ items, other ≠ item → f other = []) : items.flatMap f = f item := by
  induction items with
  | nil => cases inItems
  | cons first rest ih =>
    obtain ⟨absent, distinct⟩ := List.nodup_cons.mp distinct
    have onlyRest : ∀ other ∈ rest, other ≠ item → f other = [] := fun other inRest =>
      only other (List.mem_cons_of_mem first inRest)
    rw [List.flatMap_cons]
    by_cases same : first = item
    · subst same
      have nothing : rest.flatMap f = [] := by
        apply List.flatMap_eq_nil_iff.mpr
        intro other inRest
        exact onlyRest other inRest fun same => absent (same ▸ inRest)
      rw [nothing, List.append_nil]
    · rw [only first List.mem_cons_self same, List.nil_append]
      cases List.mem_cons.mp inItems with
      | inl here => exact absurd here.symm same
      | inr inRest => exact ih inRest distinct onlyRest

theorem jobs_distinct (accounts : (users.map AiUsageReportUser.accountId).Nodup) :
    (jobsOf users).Pairwise fun a b => a.accountId ≠ b.accountId :=
  (List.pairwise_map.mp accounts).filter _

theorem jobs_nodup (accounts : (users.map AiUsageReportUser.accountId).Nodup) : (jobsOf users).Nodup :=
  (jobs_distinct accounts).imp fun {_ _} apart same => apart (congrArg _ same)

theorem eq_of_account (accounts : (users.map AiUsageReportUser.accountId).Nodup)
    {a b : AiUsageReportUser} (inA : a ∈ jobsOf users) (inB : b ∈ jobsOf users)
    (same : a.accountId = b.accountId) : a = b :=
  KeyedRows.unique (jobs_distinct accounts) inA inB same

theorem mem_filteredDays {user : AiUsageReportUser} {day : ModelDay} :
    (user, day) ∈ filteredDays setting query users ↔
      user ∈ jobsOf users ∧ day ∈ ReportTally.sourceDays (loadSource setting query user) ∧
        query.passesFilters day = true := by
  unfold filteredDays
  rw [List.mem_flatMap]
  constructor
  · rintro ⟨other, inJobs, inDays⟩
    obtain ⟨own, kept, same⟩ := List.mem_map.mp inDays
    obtain ⟨rfl, rfl⟩ := Prod.mk.inj same
    exact ⟨inJobs, List.mem_filter.mp kept⟩
  · rintro ⟨inJobs, kept⟩
    exact ⟨user, inJobs, List.mem_map_of_mem (List.mem_filter.mpr kept)⟩

theorem filteredDays_of_key (accounts : (users.map AiUsageReportUser.accountId).Nodup)
    {user : AiUsageReportUser} (inJobs : user ∈ jobsOf users) {key : BucketKey}
    (own : key.knoxId = user.accountId) :
    (filteredDays setting query users).filter (fun other => query.bucketKey other.1 other.2 = key) =
      (ReportTally.daysOf query user key
        (ReportTally.sourceDays (loadSource setting query user))).map fun day => (user, day) := by
  unfold filteredDays
  rw [List.filter_flatMap, flatMap_eq_of_only inJobs (jobs_nodup accounts)]
  · rw [List.filter_map, List.filter_filter]
    congr 1
    apply List.filter_congr
    intro day _
    exact Bool.and_comm _ _
  · intro other inOther apart
    apply List.filter_eq_nil_iff.mpr
    intro entry inDays same
    obtain ⟨day, _, rfl⟩ := List.mem_map.mp inDays
    have sameAccount : other.accountId = user.accountId := by
      rw [← own, ← of_decide_eq_true same]
      rfl
    exact apart (eq_of_account accounts inOther inJobs sameAccount)

theorem sumRow_eq (accounts : (users.map AiUsageReportUser.accountId).Nodup)
    {user : AiUsageReportUser} (inJobs : user ∈ jobsOf users) (day : ModelDay) :
    sumRow query (filteredDays setting query users) (user, day) =
      ReportTally.plusDays (.fresh user.department (query.bucketKey user day))
        (ReportTally.daysOf query user (query.bucketKey user day)
          (ReportTally.sourceDays (loadSource setting query user))) := by
  have tokens : ∀ sum : Option Nat, ReportTally.plusTokens (some 0) sum = sum := by
    intro sum
    cases sum with
    | none => rfl
    | some sum => exact congrArg some (Nat.zero_add sum)
  unfold sumRow
  dsimp only
  rw [filteredDays_of_key accounts inJobs rfl, List.map_map, List.map_map]
  unfold ReportTally.plusDays AiUsageReportRow.counted AiUsageReportRow.fresh
  dsimp only
  rw [tokens, Nat.zero_add]
  rfl

theorem sourceTally_of_fits {user : AiUsageReportUser} (fits : overflows setting query user = false) :
    sourceTally setting query user = .ok (partOf setting query user) := by
  unfold overflows at fits
  unfold partOf
  split at fits
  · rename_i part counted
    rw [counted]
  · cases fits

theorem knoxId_of_part (user : AiUsageReportUser) :
    ∀ row ∈ (partOf setting query user).buckets, row.knoxId = user.accountId := by
  intro row inPart
  unfold partOf at inPart
  split at inPart
  · rename_i part counted
    exact ReportTally.knoxId_of_mem counted inPart
  · cases inPart

/-- The rows of all sources, one source after the other. -/
def partRows (setting : ReportSetting) (query : AiUsageReportQuery)
    (users : List AiUsageReportUser) : List AiUsageReportRow :=
  ((jobsOf users).map (partOf setting query)).flatMap fun part => part.buckets.rows

theorem mem_partRows {row : AiUsageReportRow} : row ∈ partRows setting query users ↔
      ∃ user ∈ jobsOf users, row ∈ (partOf setting query user).buckets := by
  unfold partRows
  rw [List.mem_flatMap]
  constructor
  · rintro ⟨part, inParts, inPart⟩
    obtain ⟨user, inJobs, rfl⟩ := List.mem_map.mp inParts
    exact ⟨user, inJobs, inPart⟩
  · rintro ⟨user, inJobs, inPart⟩
    exact ⟨partOf setting query user, List.mem_map_of_mem inJobs, inPart⟩

theorem partRows_keyed (accounts : (users.map AiUsageReportUser.accountId).Nodup) :
    (partRows setting query users).Pairwise fun a b => a.key ≠ b.key := by
  unfold partRows
  rw [List.pairwise_flatMap]
  constructor
  · intro part inParts
    exact part.buckets.keyed
  · apply List.pairwise_map.mpr
    apply (jobs_distinct accounts).imp
    intro left right apart a inLeft b inRight same
    apply apart
    rw [← knoxId_of_part left a inLeft, ← knoxId_of_part right b inRight]
    exact congrArg BucketKey.knoxId same

theorem partRows_sums (accounts : (users.map AiUsageReportUser.accountId).Nodup)
    (fits : (jobsOf users).any (overflows setting query) = false) :
    RowsAreSums setting query users (ScriptCompare.sorted (compareRows query) (partRows setting query users)) where
  sums := by
    have counted : ∀ user ∈ jobsOf users, sourceTally setting query user = .ok (partOf setting query user) := by
      intro user inJobs
      apply sourceTally_of_fits
      simpa using List.any_eq_false.mp fits user inJobs
    intro row
    rw [(ScriptCompare.sorted_perm _ _).mem_iff, mem_partRows]
    constructor
    · rintro ⟨user, inJobs, inPart⟩
      obtain ⟨some_, isSum⟩ := (ReportTally.mem_ofSource (counted user inJobs)).mp inPart
      obtain ⟨day, inDays⟩ := List.exists_mem_of_ne_nil _ some_
      obtain ⟨inSource, passes⟩ := List.mem_filter.mp inDays
      simp only [Bool.and_eq_true, decide_eq_true_eq] at passes
      refine ⟨(user, day), mem_filteredDays.mpr ⟨inJobs, inSource, passes.1⟩, ?_⟩
      rw [sumRow_eq accounts inJobs, passes.2]
      exact isSum
    · rintro ⟨⟨user, day⟩, inDays, isSum⟩
      obtain ⟨inJobs, inSource, passes⟩ := mem_filteredDays.mp inDays
      rw [sumRow_eq accounts inJobs] at isSum
      have key : row.key = query.bucketKey user day := by
        rw [isSum]
        rfl
      refine ⟨user, inJobs, (ReportTally.mem_ofSource (counted user inJobs)).mpr ⟨?_, ?_⟩⟩
      · apply List.ne_nil_of_mem (a := day)
        apply List.mem_filter.mpr
        exact ⟨inSource, by rw [passes, key]; simp⟩
      · rw [key]
        exact isSum
  distinct := (partRows_keyed accounts).perm (ScriptCompare.sorted_perm _ _).symm fun apart =>
    Ne.symm apart
  sorted := ScriptCompare.sorted_pairwise (compareRows query) _

theorem reportOutcome_rows (accounts : (users.map AiUsageReportUser.accountId).Nodup) {now : Nat}
    {report : AiUsageReport} (made : reportOutcome setting query users now = .ok report) :
    ∃ rows, RowsAreSums setting query users rows ∧ TotalsOf query report rows := by
  unfold reportOutcome at made
  split at made
  · cases made
  · rename_i fits
    have fits : (jobsOf users).any (overflows setting query) = false := by simpa using fits
    exact ⟨_, partRows_sums accounts fits, assemble_ok query made⟩

end PlatformClaw.Reporting
