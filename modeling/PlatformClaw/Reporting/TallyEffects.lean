import PlatformClaw.Reporting.UsageTally

/-! # What a source adds

A source counts only under its own account. So adding it to any tally without
rows of that account does what adding it to an empty tally does, and the rows
are the sums of the days with their key.
-/

namespace PlatformClaw.Reporting

open Std

theorem addCount_ok_iff {left right sum : Nat} :
    addCount left right = .ok sum ↔ sum = left + right ∧ ScriptNumber.isSafeInteger (left + right) := by
  unfold addCount
  split
  · rename_i safe
    constructor
    · intro same
      exact ⟨(Except.ok.inj same).symm, safe⟩
    · intro same
      rw [same.1]
  · rename_i unsafe_
    constructor
    · intro same
      cases same
    · intro same
      exact absurd same.2 unsafe_

theorem addCount_error {left right : Nat} {error : AiUsageReportError}
    (failed : addCount left right = .error error) : error = overCapacity := by
  unfold addCount at failed
  split at failed
  · cases failed
  · exact (Except.error.inj failed).symm

theorem addTokens_error {left right : Option Nat} {error : AiUsageReportError}
    (failed : addTokens left right = .error error) : error = overCapacity := by
  cases left with
  | none => cases failed
  | some left =>
    cases right with
    | none => cases failed
    | some right =>
      cases sum : addCount left right with
      | error other =>
        rw [addTokens, sum] at failed
        exact (Except.error.inj failed) ▸ addCount_error sum
      | ok value =>
        rw [addTokens, sum] at failed
        cases failed

theorem mem_noteIf {condition : Bool} {warning other : String} {warnings : List String} :
    other ∈ noteIf condition warning warnings ↔ other ∈ warnings ∨ (condition = true ∧ other = warning) := by
  unfold noteIf
  split
  · rename_i noted
    simp only [Bool.and_eq_true, Bool.not_eq_true', List.contains_eq_mem, decide_eq_false_iff_not]
      at noted
    simp [noted.1]
  · rename_i noted
    simp only [Bool.and_eq_true, Bool.not_eq_true', List.contains_eq_mem, decide_eq_false_iff_not,
      not_and, Decidable.not_not] at noted
    constructor
    · exact .inl
    · rintro (before | ⟨held, rfl⟩)
      · exact before
      · exact noted held

theorem nodup_noteIf {condition : Bool} {warning : String} {warnings : List String}
    (distinct : warnings.Nodup) : (noteIf condition warning warnings).Nodup := by
  unfold noteIf
  split
  · rename_i noted
    simp only [Bool.and_eq_true, Bool.not_eq_true', List.contains_eq_mem, decide_eq_false_iff_not]
      at noted
    apply List.nodup_append.mpr
    refine ⟨distinct, List.pairwise_singleton _ _, ?_⟩
    intro a inWarnings b new same
    exact noted.2 (List.mem_singleton.mp new ▸ same ▸ inWarnings)
  · exact distinct

/-- These warnings on top of those already noted. -/
def noteAll (noted warnings : List String) : List String :=
  warnings.foldl (fun noted warning => noteIf true warning noted) noted

theorem mem_noteAll {noted warnings : List String} {other : String} :
    other ∈ noteAll noted warnings ↔ other ∈ noted ∨ other ∈ warnings := by
  induction warnings generalizing noted with
  | nil => simp [noteAll]
  | cons warning warnings ih =>
    show other ∈ noteAll (noteIf true warning noted) warnings ↔ _
    rw [ih, mem_noteIf, List.mem_cons, or_assoc]
    simp

theorem nodup_noteAll {noted warnings : List String} (distinct : noted.Nodup) : (noteAll noted warnings).Nodup := by
  induction warnings generalizing noted with
  | nil => exact distinct
  | cons warning warnings ih => exact ih (nodup_noteIf distinct)

namespace ReportTally

variable {query : AiUsageReportQuery} {user : AiUsageReportUser}

theorem addDay_passes (tally : ReportTally) {day : ModelDay} (passes : query.passesFilters day = true) :
    tally.addDay query user day = (addCount (tally.bucketFor query user day).callCount day.count).bind fun calls =>
        (addTokens (tally.bucketFor query user day).tokenUsage day.tokens).bind fun tokens =>
          .ok
            { buckets := tally.buckets.upsert
                ((tally.bucketFor query user day).counted calls tokens)
                (fun other => other.counted calls tokens) fun other => other.key_counted calls tokens
              warnings := noteIf day.tokens.isNone "UNKNOWN_TOKEN_USAGE"
                (noteIf (day.provider.isNone || day.model.isNone) "UNKNOWN_MODEL"
                  (noteIf user.department.isNone "UNKNOWN_TEAM" tally.warnings))
              isPartial := tally.isPartial || day.tokens.isNone
              usable := tally.usable } := by
  rw [addDay, if_pos passes]
  rfl

theorem addDay_skips (tally : ReportTally) {day : ModelDay}
    (skips : query.passesFilters day = false) : tally.addDay query user day = .ok tally := by
  rw [addDay, if_neg (by rw [skips]; exact Bool.false_ne_true)]

theorem key_bucketFor (tally : ReportTally) (day : ModelDay) :
    (tally.bucketFor query user day).key = query.bucketKey user day := by
  unfold bucketFor
  cases found : tally.buckets.lookup (query.bucketKey user day) with
  | none => rfl
  | some row => exact (Table.lookup_eq_some_iff.mp found).2

theorem lookup_counted (tally : ReportTally) (day : ModelDay) (calls : Nat) (tokens : Option Nat) (key : BucketKey) :
    (tally.buckets.upsert ((tally.bucketFor query user day).counted calls tokens)
      (fun other => other.counted calls tokens) fun other => other.key_counted calls tokens).lookup key =
        if query.bucketKey user day = key then
          some ((tally.bucketFor query user day).counted calls tokens)
        else tally.buckets.lookup key := by
  rw [Table.lookup_upsert, AiUsageReportRow.key_counted, key_bucketFor]
  split
  · rename_i same
    rw [← same]
    unfold bucketFor
    cases tally.buckets.lookup (query.bucketKey user day) <;> rfl
  · rfl

/-- `whole` is `base` with what `part` has counted for the account of the user. -/
structure Mirrors (user : AiUsageReportUser) (base part whole : ReportTally) : Prop where
  lookup : ∀ key, whole.buckets.lookup key =
    if key.knoxId = user.accountId then part.buckets.lookup key else base.buckets.lookup key
  warnings : ∀ warning, warning ∈ whole.warnings ↔ warning ∈ base.warnings ∨ warning ∈ part.warnings
  isPartial : whole.isPartial = (base.isPartial || part.isPartial)
  usable : whole.usable = (base.usable || part.usable)

/-- Two results of one step: both fail alike, or both go through and mirror each other. -/
inductive BothMirror (user : AiUsageReportUser) (base : ReportTally) :
    Except AiUsageReportError ReportTally → Except AiUsageReportError ReportTally → Prop
  | failed : BothMirror user base (.error overCapacity) (.error overCapacity)
  | ok {part whole : ReportTally} (mirrors : Mirrors user base part whole) :
      BothMirror user base (.ok part) (.ok whole)

theorem Mirrors.bucketFor {base part whole : ReportTally} (mirrors : Mirrors user base part whole)
    (day : ModelDay) : whole.bucketFor query user day = part.bucketFor query user day := by
  have own : (query.bucketKey user day).knoxId = user.accountId := rfl
  unfold ReportTally.bucketFor
  rw [mirrors.lookup, if_pos own]

theorem Mirrors.addDay {base part whole : ReportTally} (mirrors : Mirrors user base part whole) (day : ModelDay) :
    BothMirror user base (part.addDay query user day) (whole.addDay query user day) := by
  cases passes : query.passesFilters day with
  | false =>
    rw [addDay_skips part passes, addDay_skips whole passes]
    exact .ok mirrors
  | true =>
    rw [addDay_passes part passes, addDay_passes whole passes, mirrors.bucketFor]
    cases calls : addCount (part.bucketFor query user day).callCount day.count with
    | error error => exact addCount_error calls ▸ .failed
    | ok calls =>
      dsimp only [Except.bind]
      cases tokens : addTokens (part.bucketFor query user day).tokenUsage day.tokens with
      | error error => exact addTokens_error tokens ▸ .failed
      | ok tokens =>
        refine .ok ⟨?_, ?_, ?_, mirrors.usable⟩
        · intro key
          rw [lookup_counted, ← mirrors.bucketFor, lookup_counted, mirrors.lookup key]
          by_cases same : query.bucketKey user day = key
          · have own : key.knoxId = user.accountId := same ▸ rfl
            rw [if_pos same, if_pos own, if_pos same]
          · rw [if_neg same, if_neg same]
        · intro warning
          simp only [mem_noteIf, mirrors.warnings]
          simp only [or_assoc]
        · show (_ || _) = (_ || (_ || _))
          rw [mirrors.isPartial, Bool.or_assoc]

theorem Mirrors.addDays {base part whole : ReportTally} (mirrors : Mirrors user base part whole)
    (days : List ModelDay) :
    BothMirror user base (part.addDays query user days) (whole.addDays query user days) := by
  induction days generalizing part whole with
  | nil => exact .ok mirrors
  | cons day days ih =>
    unfold ReportTally.addDays
    rw [List.foldlM_cons, List.foldlM_cons]
    have step : BothMirror user base (part.addDay query user day) (whole.addDay query user day) :=
      mirrors.addDay day
    generalize part.addDay query user day = first, whole.addDay query user day = second at step
    cases step with
    | failed => exact .failed
    | ok mirrors => exact ih mirrors

/-- Nothing has been counted. -/
def empty : ReportTally where
  buckets := Table.empty
  warnings := []
  isPartial := false
  usable := false

def ofSource (query : AiUsageReportQuery) (user : AiUsageReportUser) (source : Option UsageSource) :
    Except AiUsageReportError ReportTally :=
  empty.addSource query user source

def Without (user : AiUsageReportUser) (tally : ReportTally) : Prop :=
  ∀ key : BucketKey, key.knoxId = user.accountId → tally.buckets.lookup key = none

theorem mirrors_empty {tally : ReportTally} (without : tally.Without user) : Mirrors user tally empty tally where
  lookup := by
    intro key
    split
    · rename_i own
      exact without key own
    · rfl
  warnings := by
    intro warning
    simp [empty]
  isPartial := (Bool.or_false _).symm
  usable := (Bool.or_false _).symm

theorem addSource_mirrors {tally : ReportTally} (without : tally.Without user) (source : Option UsageSource) :
    BothMirror user tally (ofSource query user source) (tally.addSource query user source) := by
  have begun := mirrors_empty without
  cases source with
  | none =>
    refine .ok ⟨begun.lookup, ?_, ?_, begun.usable⟩
    · intro warning
      simp [mem_noteIf, empty]
    · exact (Bool.or_true _).symm
  | some source =>
    apply Mirrors.addDays
    refine ⟨begun.lookup, ?_, ?_, ?_⟩
    · intro warning
      simp [mem_noteIf, empty]
    · simp [empty]
    · simp [empty]

/-- A sum of token counts is unknown as soon as one of them is. -/
def plusTokens : Option Nat → Option Nat → Option Nat
  | some left, some right => some (left + right)
  | _, _ => none

def sumTokens (tokens : List (Option Nat)) : Option Nat :=
  tokens.foldr plusTokens (some 0)

theorem plusTokens_assoc (a b c : Option Nat) : plusTokens (plusTokens a b) c = plusTokens a (plusTokens b c) := by
  cases a <;> cases b <;> cases c <;> simp [plusTokens, Nat.add_assoc]

theorem plusTokens_zero (a : Option Nat) : plusTokens a (some 0) = a := by
  cases a <;> rfl

theorem addTokens_ok {left right sum : Option Nat} (done : addTokens left right = .ok sum) :
    sum = plusTokens left right := by
  cases left with
  | none => exact (Except.ok.inj done).symm
  | some left =>
    cases right with
    | none => exact (Except.ok.inj done).symm
    | some right =>
      obtain ⟨value, added, rfl⟩ := Except.map_ok_iff.mp done
      rw [(addCount_ok_iff.mp added).1]
      rfl

/-- The row with the counts of these days added. -/
def plusDays (row : AiUsageReportRow) (days : List ModelDay) : AiUsageReportRow :=
  row.counted (row.callCount + (days.map ModelDay.count).sum)
    (plusTokens row.tokenUsage (sumTokens (days.map ModelDay.tokens)))

/-- The days of a source that pass the filters and are counted under this key. -/
def daysOf (query : AiUsageReportQuery) (user : AiUsageReportUser) (key : BucketKey)
    (days : List ModelDay) : List ModelDay :=
  days.filter fun day => query.passesFilters day && query.bucketKey user day = key

@[simp] theorem daysOf_nil (key : BucketKey) : daysOf query user key [] = [] := rfl

theorem daysOf_counted {key : BucketKey} {day : ModelDay} (days : List ModelDay)
    (passes : query.passesFilters day = true) (same : query.bucketKey user day = key) :
    daysOf query user key (day :: days) = day :: daysOf query user key days := by
  unfold daysOf
  rw [List.filter_cons, if_pos]
  rw [passes, same]
  simp

theorem daysOf_skipped {key : BucketKey} {day : ModelDay} (days : List ModelDay)
    (skipped : query.passesFilters day = false ∨ query.bucketKey user day ≠ key) :
    daysOf query user key (day :: days) = daysOf query user key days := by
  unfold daysOf
  rw [List.filter_cons, if_neg]
  cases skipped with
  | inl fails => simp [fails]
  | inr other => simp [other]

theorem plusDays_nil (row : AiUsageReportRow) : plusDays row [] = row := by
  unfold plusDays
  rw [List.map_nil, List.map_nil, List.sum_nil, Nat.add_zero]
  exact congrArg (row.counted row.callCount) (plusTokens_zero row.tokenUsage)

theorem plusDays_cons (row : AiUsageReportRow) (day : ModelDay) (days : List ModelDay) :
    plusDays (row.counted (row.callCount + day.count) (plusTokens row.tokenUsage day.tokens)) days =
      plusDays row (day :: days) := by
  have calls : row.callCount + day.count + (days.map ModelDay.count).sum =
      row.callCount + ((day :: days).map ModelDay.count).sum := by
    rw [List.map_cons, List.sum_cons, Nat.add_assoc]
  have tokens : plusTokens (plusTokens row.tokenUsage day.tokens) (sumTokens (days.map ModelDay.tokens)) =
      plusTokens row.tokenUsage (sumTokens ((day :: days).map ModelDay.tokens)) :=
    plusTokens_assoc _ _ _
  unfold plusDays
  rw [← calls, ← tokens]
  rfl

theorem addDay_lookup {tally after : ReportTally} {day : ModelDay}
    (done : tally.addDay query user day = .ok after) (key : BucketKey) :
    after.buckets.lookup key =
      if daysOf query user key [day] = [] then tally.buckets.lookup key
      else some (plusDays ((tally.buckets.lookup key).getD (.fresh user.department key)) [day]) := by
  cases passes : query.passesFilters day with
  | false =>
    rw [addDay_skips tally passes] at done
    obtain rfl := Except.ok.inj done
    rw [daysOf_skipped [] (.inl passes), daysOf_nil, if_pos rfl]
  | true =>
    rw [addDay_passes tally passes] at done
    obtain ⟨calls, counted, done⟩ := Except.bind_ok_iff.mp done
    obtain ⟨tokens, summed, done⟩ := Except.bind_ok_iff.mp done
    obtain rfl := Except.ok.inj done
    rw [lookup_counted]
    by_cases same : query.bucketKey user day = key
    · rw [if_pos same, daysOf_counted [] passes same, if_neg (List.cons_ne_nil _ _),
        ← plusDays_cons, plusDays_nil, (addCount_ok_iff.mp counted).1, addTokens_ok summed, ← same]
      rfl
    · rw [if_neg same, daysOf_skipped [] (.inr same), daysOf_nil, if_pos rfl]

theorem addDays_lookup {tally after : ReportTally} {days : List ModelDay}
    (done : tally.addDays query user days = .ok after) (key : BucketKey) :
    after.buckets.lookup key =
      if daysOf query user key days = [] then tally.buckets.lookup key
      else some (plusDays ((tally.buckets.lookup key).getD (.fresh user.department key))
        (daysOf query user key days)) := by
  induction days generalizing tally with
  | nil =>
    obtain rfl := Except.ok.inj done
    rfl
  | cons day days ih =>
    unfold ReportTally.addDays at done
    rw [List.foldlM_cons] at done
    obtain ⟨between, first, rest⟩ := Except.bind_ok_iff.mp done
    rw [ih rest, addDay_lookup first]
    by_cases counted : query.passesFilters day = true ∧ query.bucketKey user day = key
    · obtain ⟨passes, same⟩ := counted
      rw [daysOf_counted [] passes same, daysOf_counted days passes same,
        if_neg (List.cons_ne_nil _ _), if_neg (List.cons_ne_nil _ _)]
      split
      · rename_i none_
        rw [none_]
      · rw [Option.getD_some, ← plusDays_cons, plusDays_nil, plusDays_cons]
    · have skipped : query.passesFilters day = false ∨ query.bucketKey user day ≠ key := by
        cases passes : query.passesFilters day with
        | false => exact .inl rfl
        | true => exact .inr fun same => counted ⟨passes, same⟩
      rw [daysOf_skipped days skipped, daysOf_skipped [] skipped, daysOf_nil, if_pos rfl]

theorem addDays_distinct {tally after : ReportTally} {days : List ModelDay}
    (done : tally.addDays query user days = .ok after) (distinct : tally.warnings.Nodup) :
    after.warnings.Nodup := by
  induction days generalizing tally with
  | nil =>
    obtain rfl := Except.ok.inj done
    exact distinct
  | cons day days ih =>
    unfold ReportTally.addDays at done
    rw [List.foldlM_cons] at done
    obtain ⟨between, first, rest⟩ := Except.bind_ok_iff.mp done
    apply ih rest
    cases passes : query.passesFilters day with
    | false =>
      rw [addDay_skips tally passes] at first
      obtain rfl := Except.ok.inj first
      exact distinct
    | true =>
      rw [addDay_passes tally passes] at first
      obtain ⟨calls, _, first⟩ := Except.bind_ok_iff.mp first
      obtain ⟨tokens, _, first⟩ := Except.bind_ok_iff.mp first
      obtain rfl := Except.ok.inj first
      exact nodup_noteIf (nodup_noteIf (nodup_noteIf distinct))

theorem addSource_distinct {tally after : ReportTally} {source : Option UsageSource}
    (done : tally.addSource query user source = .ok after) (distinct : tally.warnings.Nodup) :
    after.warnings.Nodup := by
  cases source with
  | none =>
    obtain rfl := Except.ok.inj done
    exact nodup_noteIf distinct
  | some source => exact addDays_distinct done (nodup_noteIf distinct)

/-- The days that a read has brought. -/
def sourceDays (source : Option UsageSource) : List ModelDay :=
  source.elim [] UsageSource.days

theorem ofSource_lookup {source : Option UsageSource} {part : ReportTally}
    (done : ofSource query user source = .ok part) (key : BucketKey) :
    part.buckets.lookup key =
      if daysOf query user key (sourceDays source) = [] then none
      else some (plusDays (.fresh user.department key) (daysOf query user key (sourceDays source))) := by
  cases source with
  | none =>
    obtain rfl := Except.ok.inj done
    rfl
  | some source => exact addDays_lookup done key

theorem mem_ofSource {source : Option UsageSource} {part : ReportTally}
    (done : ofSource query user source = .ok part) {row : AiUsageReportRow} :
    row ∈ part.buckets ↔ daysOf query user row.key (sourceDays source) ≠ [] ∧
        row = plusDays (.fresh user.department row.key) (daysOf query user row.key (sourceDays source)) := by
  have found : row ∈ part.buckets ↔ part.buckets.lookup row.key = some row :=
    ⟨fun inPart => Table.lookup_key inPart, fun found => (Table.lookup_eq_some_iff.mp found).1⟩
  rw [found, ofSource_lookup done]
  split
  · rename_i none_
    simp [none_]
  · rename_i some_
    simp only [Option.some.injEq, ne_eq, some_, not_false_eq_true, true_and]
    exact eq_comm

theorem knoxId_of_mem {source : Option UsageSource} {part : ReportTally}
    (done : ofSource query user source = .ok part) {row : AiUsageReportRow}
    (inPart : row ∈ part.buckets) : row.knoxId = user.accountId := by
  obtain ⟨day, inDays⟩ := List.exists_mem_of_ne_nil _ ((mem_ofSource done).mp inPart).1
  have counted := (List.mem_filter.mp inDays).2
  simp only [Bool.and_eq_true, decide_eq_true_eq] at counted
  exact (congrArg BucketKey.knoxId counted.2).symm

end ReportTally

section Collecting

variable (parts : AiUsageReportUser → ReportTally)

/-- The tally is what the parts of these users add up to; `idle` is a report about nobody. -/
structure Collects (users : AiUsageReportUser → Prop) (idle : Bool) (tally : ReportTally) : Prop where
  rows : ∀ row, row ∈ tally.buckets ↔ ∃ user, users user ∧ row ∈ (parts user).buckets
  warnings : ∀ warning, warning ∈ tally.warnings ↔
    warning = "HISTORICAL_COVERAGE_UNVERIFIED" ∨ ∃ user, users user ∧ warning ∈ (parts user).warnings
  isPartial : tally.isPartial = true ↔ ∃ user, users user ∧ (parts user).isPartial = true
  usable : tally.usable = true ↔ idle = true ∨ ∃ user, users user ∧ (parts user).usable = true
  distinct : tally.warnings.Nodup

variable {parts}

theorem Collects.congr {users others : AiUsageReportUser → Prop} {idle : Bool} {tally : ReportTally}
    (collects : Collects parts users idle tally) (same : ∀ user, users user ↔ others user) :
    Collects parts others idle tally := by
  obtain rfl : users = others := funext fun user => propext (same user)
  exact collects

theorem Collects.add {users : AiUsageReportUser → Prop} {idle : Bool} {base tally : ReportTally}
    (collects : Collects parts users idle base) {user : AiUsageReportUser}
    (mirrors : ReportTally.Mirrors user base (parts user) tally)
    (apart : ∀ other, users other → ∀ row ∈ (parts other).buckets, row.knoxId ≠ user.accountId)
    (own : ∀ row ∈ (parts user).buckets, row.knoxId = user.accountId) (distinct : tally.warnings.Nodup) :
    Collects parts (fun other => users other ∨ other = user) idle tally where
  rows := by
    intro row
    have found : ∀ table : Buckets, row ∈ table ↔ table.lookup row.key = some row := fun table =>
      ⟨fun inTable => Table.lookup_key inTable, fun found => (Table.lookup_eq_some_iff.mp found).1⟩
    rw [found, mirrors.lookup]
    constructor
    · intro located
      split at located
      · exact ⟨user, .inr rfl, (found _).mpr located⟩
      · obtain ⟨other, counted, inPart⟩ := (collects.rows row).mp ((found _).mpr located)
        exact ⟨other, .inl counted, inPart⟩
    · rintro ⟨other, counted | rfl, inPart⟩
      · have elsewhere : row.key.knoxId ≠ user.accountId := apart other counted row inPart
        rw [if_neg elsewhere]
        exact (found _).mp ((collects.rows row).mpr ⟨other, counted, inPart⟩)
      · have here : row.key.knoxId = other.accountId := own row inPart
        rw [if_pos here]
        exact (found _).mp inPart
  warnings := by
    intro warning
    rw [mirrors.warnings, collects.warnings]
    constructor
    · rintro ((known | ⟨other, counted, noted⟩) | noted)
      · exact .inl known
      · exact .inr ⟨other, .inl counted, noted⟩
      · exact .inr ⟨user, .inr rfl, noted⟩
    · rintro (known | ⟨other, counted | rfl, noted⟩)
      · exact .inl (.inl known)
      · exact .inl (.inr ⟨other, counted, noted⟩)
      · exact .inr noted
  isPartial := by
    rw [mirrors.isPartial, Bool.or_eq_true, collects.isPartial]
    constructor
    · rintro (⟨other, counted, noted⟩ | noted)
      · exact ⟨other, .inl counted, noted⟩
      · exact ⟨user, .inr rfl, noted⟩
    · rintro ⟨other, counted | rfl, noted⟩
      · exact .inl ⟨other, counted, noted⟩
      · exact .inr noted
  usable := by
    rw [mirrors.usable, Bool.or_eq_true, collects.usable]
    constructor
    · rintro ((idle | ⟨other, counted, noted⟩) | noted)
      · exact .inl idle
      · exact .inr ⟨other, .inl counted, noted⟩
      · exact .inr ⟨user, .inr rfl, noted⟩
    · rintro (idle | ⟨other, counted | rfl, noted⟩)
      · exact .inl (.inl idle)
      · exact .inl (.inr ⟨other, counted, noted⟩)
      · exact .inr noted
  distinct := distinct

end Collecting

end PlatformClaw.Reporting
