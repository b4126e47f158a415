import PlatformClaw.Reef.Ulid

/-! # Runs of an id factory

A counter that overflows has started again at zero when the call throws, so the next calls within the
same time give ids below the ones before. Without such a call ids only grow.
-/

namespace PlatformClaw.Reef

def isUlidCharacter (c : Char) : Bool :=
  ('0' ≤ c && c ≤ '9') || ('A' ≤ c && c ≤ 'H') || c == 'J' || c == 'K' || c == 'M' || c == 'N' ||
    ('P' ≤ c && c ≤ 'T') || ('V' ≤ c && c ≤ 'Z')

/-- `ULID_PATTERN`. -/
def matchesUlidPattern (text : String) : Bool :=
  text.toList.head?.any (fun first => '0' ≤ first && first ≤ '7') && text.toList.length = 26 &&
    text.toList.tail.all isUlidCharacter

/-- What digits of base 32 stand for. -/
def crockfordValue (digits : List Char) : Nat :=
  FixedDigits.value 32 (digits.map CROCKFORD.idxOf)

/-- An id that was returned, with the time and the bytes that the factory recorded. -/
structure MintedUlid where
  id : String
  time : Int
  randomness : List UInt8
deriving DecidableEq, Repr

namespace MintedUlid

/-- A well-formed id of the recorded time and bytes. -/
structure Valid (minted : MintedUlid) : Prop where
  pattern : matchesUlidPattern minted.id = true
  time : (crockfordValue (minted.id.toList.take 10) : Int) = minted.time
  ten : minted.randomness.length = 10
  randomness : crockfordValue (minted.id.toList.drop 10) = bytesValue minted.randomness

/-- The time and the bytes as one number. -/
def key (minted : MintedUlid) : Nat :=
  minted.time.toNat * 32 ^ 16 + bytesValue minted.randomness

/-- An id that a factory wrote. -/
structure Written (minted : MintedUlid) : Prop where
  ten : minted.randomness.length = 10
  started : 0 ≤ minted.time
  bounded : minted.time ≤ 0xffffffffffff
  id : minted.id = encodeTime minted.time.toNat ++ encodeRandom minted.randomness

variable {minted : MintedUlid}

theorem Written.randomness_lt (written : minted.Written) : bytesValue minted.randomness < 32 ^ 16 := by
  have small := bytesValue_lt minted.randomness
  rw [written.ten] at small
  exact small

theorem Written.time_lt (written : minted.Written) : minted.time.toNat < 8 * 32 ^ 9 := by
  have bounded := written.bounded
  omega

theorem Written.toList_id (written : minted.Written) :
    minted.id.toList = (FixedDigits.digits 32 10 minted.time.toNat).map crockford ++
      (FixedDigits.digits 32 16 (bytesValue minted.randomness)).map crockford := by
  rw [written.id, String.toList_append]
  simp [encodeTime, encodeRandom, encodeDigits_eq]

theorem Written.toList_id_eq_key (written : minted.Written) :
    minted.id.toList = (FixedDigits.digits 32 (10 + 16) minted.key).map crockford := by
  rw [written.toList_id, key, FixedDigits.digits_append _ 10 written.randomness_lt, List.map_append]

theorem Written.key_lt (written : minted.Written) : minted.key < 32 ^ (10 + 16) := by
  have time := written.time_lt
  have randomness := written.randomness_lt
  unfold key
  omega

theorem Written.id_lt {other : MintedUlid} (written : minted.Written) (written' : other.Written)
    (less : minted.key < other.key) : minted.id < other.id := by
  rw [String.lt_iff, written.toList_id_eq_key, written'.toList_id_eq_key]
  exact FixedDigits.map_digits_lt (by decide) crockford_lt less written'.key_lt

theorem Written.not_id_lt {other : MintedUlid} (written : minted.Written)
    (written' : other.Written) (upTo : other.key ≤ minted.key) : ¬ minted.id < other.id := by
  intro less
  rcases Nat.lt_or_eq_of_le upTo with below | same
  · exact String.lt_asymm less (written'.id_lt written below)
  · have sameId : other.id = minted.id := by
      apply String.toList_inj.mp
      rw [written.toList_id_eq_key, written'.toList_id_eq_key, same]
    rw [sameId] at less
    exact String.lt_irrefl _ less

theorem crockfordValue_digits {width number : Nat} (small : number < 32 ^ width) :
    crockfordValue ((FixedDigits.digits 32 width number).map crockford) = number := by
  have back : ∀ digit < 32, CROCKFORD.idxOf (crockford digit) = digit := by decide +kernel
  have same : ((FixedDigits.digits 32 width number).map crockford).map CROCKFORD.idxOf =
      FixedDigits.digits 32 width number := by
    rw [List.map_map]
    conv => rhs; rw [← List.map_id (FixedDigits.digits 32 width number)]
    apply List.map_congr_left
    intro digit inDigits
    exact back digit (FixedDigits.lt_of_mem_digits (by decide) inDigits)
  rw [crockfordValue, same, FixedDigits.value_digits small]

/-- What a factory wrote is a well-formed id. -/
theorem Written.valid (written : minted.Written) : minted.Valid where
  ten := written.ten
  time := by
    have small := written.time_lt
    have started := written.started
    rw [written.toList_id, List.take_left' (by simp), crockfordValue_digits (by omega)]
    exact Int.toNat_of_nonneg started
  randomness := by
    rw [written.toList_id, List.drop_left' (by simp), crockfordValue_digits written.randomness_lt]
  pattern := by
    have small := written.time_lt
    have split := @FixedDigits.digits_append 32 (minted.time.toNat / 32 ^ 9) 9
      (minted.time.toNat % 32 ^ 9) 1 (Nat.mod_lt _ (by decide))
    rw [Nat.mul_comm, Nat.div_add_mod] at split
    have first : minted.time.toNat / 32 ^ 9 < 8 := by omega
    have leading : ∀ digit < 8, ('0' ≤ crockford (digit % 32) && crockford (digit % 32) ≤ '7') =
        true := by decide +kernel
    have character : ∀ digit < 32, isUlidCharacter (crockford digit) = true := by decide +kernel
    unfold matchesUlidPattern
    rw [written.toList_id]
    simp only [Bool.and_eq_true, decide_eq_true_eq]
    refine ⟨⟨?_, by simp⟩, ?_⟩
    · rw [split]
      exact leading _ first
    · rw [List.all_eq_true]
      intro c inId
      have inDigits := List.mem_of_mem_tail inId
      rw [← List.map_append] at inDigits
      obtain ⟨digit, isDigit, rfl⟩ := List.mem_map.mp inDigits
      apply character
      rcases List.mem_append.mp isDigit with inTime | inRandomness
      · exact FixedDigits.lt_of_mem_digits (by decide) inTime
      · exact FixedDigits.lt_of_mem_digits (by decide) inRandomness

end MintedUlid

namespace UlidFactory

variable (factory : UlidFactory) (reading : UlidReading)

/-- The clock has not moved on, so the bytes are counted up. -/
def counts : Bool := (clock reading).any fun now => now ≤ factory.lastTime

theorem call_cases : (factory.counts reading = false ∧
      ∃ error, error ≠ .monotonicOverflow ∧ factory.call reading = (factory, .error error)) ∨
    (∃ next : UlidFactory, factory.lastTime < next.lastTime ∧ 0 ≤ next.lastTime ∧
      next.lastTime ≤ 0xffffffffffff ∧ factory.counts reading = false ∧
      factory.call reading = (next, .ok next.id)) ∨
    (factory.counts reading = true ∧ (increment factory.randomness).2 = true ∧
      factory.call reading = (factory.incremented, .error .monotonicOverflow)) ∨
    (factory.counts reading = true ∧ (increment factory.randomness).2 = false ∧
      factory.call reading = (factory.incremented, .ok factory.incremented.id)) := by
  unfold call counts
  cases isClock : clock reading with
  | none => exact .inl ⟨rfl, .invalidClock, (by intro same; cases same), rfl⟩
  | some now =>
    obtain ⟨_, bounds⟩ := Option.filter_eq_some_iff.mp isClock
    simp only [Bool.and_eq_true, decide_eq_true_eq] at bounds
    dsimp only
    by_cases moved : factory.lastTime < now
    · have notCounted : (some now).any (fun now => now ≤ factory.lastTime) = false := by
        simp [moved]
      rw [if_pos moved]
      split
      · exact .inr (.inl ⟨_, moved, bounds.1.2, bounds.2, notCounted, rfl⟩)
      · exact .inl ⟨notCounted, .invalidRng, (by intro same; cases same), rfl⟩
    · have counted : (some now).any (fun now => now ≤ factory.lastTime) = true := by
        simpa using moved
      rw [if_neg moved]
      split
      · rename_i carried
        exact .inr (.inr (.inl ⟨counted, carried, rfl⟩))
      · rename_i kept
        exact .inr (.inr (.inr ⟨counted, Bool.eq_false_iff.mpr kept, rfl⟩))

end UlidFactory

/-- A factory, what it returned, and whether its counter has overflowed within the recorded time. -/
structure UlidRun where
  factory : UlidFactory := {}
  minted : List MintedUlid := []
  overflowed : Bool := false

namespace UlidRun

/-- What is recorded of an id that is returned. -/
def mint (factory : UlidFactory) (id : String) : MintedUlid :=
  ⟨id, factory.lastTime, factory.randomness⟩

def step (run : UlidRun) (reading : UlidReading) : UlidRun where
  factory := (run.factory.call reading).1
  minted := run.minted ++ ((run.factory.call reading).2.toOption.map (mint (run.factory.call reading).1)).toList
  overflowed := (run.factory.counts reading && (increment run.factory.randomness).2) ||
    (run.overflowed && (run.factory.call reading).1.lastTime = run.factory.lastTime)

def machine : Machine UlidRun UlidReading where
  step := step

/-- A call that counts on after an overflow within the same time. -/
def Reuses (run : UlidRun) (reading : UlidReading) : Prop :=
  run.overflowed = true ∧ run.factory.counts reading = true ∧ (increment run.factory.randomness).2 = false

instance (run : UlidRun) (reading : UlidReading) : Decidable (run.Reuses reading) :=
  inferInstanceAs (Decidable (_ ∧ _ ∧ _))

def Increasing (run : UlidRun) : Prop :=
  run.minted.Pairwise fun earlier later => earlier.id < later.id

/-- Where a run stands, whatever it reads. -/
structure Coherent (run : UlidRun) : Prop where
  bounded : -1 ≤ run.factory.lastTime ∧ run.factory.lastTime ≤ 0xffffffffffff
  written : ∀ minted ∈ run.minted, minted.Written
  times : ∀ minted ∈ run.minted, minted.time ≤ run.factory.lastTime
  latest : 0 ≤ run.factory.lastTime → ∃ minted ∈ run.minted, minted.time = run.factory.lastTime ∧
      if run.overflowed = true then bytesValue minted.randomness = 32 ^ 16 - 1
      else minted.randomness = run.factory.randomness

/-- Nothing is above the counter, as long as it has not overflowed. -/
def Below (run : UlidRun) : Prop :=
  run.overflowed = false → ∀ minted ∈ run.minted, minted.key ≤ (mint run.factory "").key

variable {run : UlidRun} {reading : UlidReading}

theorem coherent_start : Coherent {} where
  bounded := ⟨Int.le_refl _, by decide⟩
  written _ inNone := by cases inNone
  times _ inNone := by cases inNone
  latest started := by
    have before : (0 : Int) ≤ -1 := started
    omega

theorem written_mint {factory : UlidFactory} (started : 0 ≤ factory.lastTime)
    (bounded : factory.lastTime ≤ 0xffffffffffff) : (mint factory factory.id).Written :=
  ⟨factory.ten, started, bounded, rfl⟩

theorem randomness_lt (factory : UlidFactory) : bytesValue factory.randomness < 32 ^ 16 := by
  have small := bytesValue_lt factory.randomness
  rw [factory.ten] at small
  exact small

theorem bytesValue_incremented (factory : UlidFactory) : bytesValue factory.incremented.randomness +
      (if (increment factory.randomness).2 = true then 32 ^ 16 else 0) = bytesValue factory.randomness + 1 := by
  have counted := bytesValue_increment factory.randomness
  rw [factory.ten] at counted
  exact counted

theorem started_of_counts (counts : run.factory.counts reading = true) : 0 ≤ run.factory.lastTime := by
  unfold UlidFactory.counts at counts
  obtain ⟨now, isClock, upTo⟩ := (Option.any_eq_true _ _).mp counts
  obtain ⟨_, bounds⟩ := Option.filter_eq_some_iff.mp isClock
  simp only [Bool.and_eq_true, decide_eq_true_eq] at bounds upTo
  omega

theorem step_cases (run : UlidRun) (reading : UlidReading) :
    (run.factory.counts reading = false ∧ step run reading = run) ∨
    (∃ next : UlidFactory, run.factory.lastTime < next.lastTime ∧ 0 ≤ next.lastTime ∧
      next.lastTime ≤ 0xffffffffffff ∧ run.factory.counts reading = false ∧
      step run reading = ⟨next, run.minted ++ [mint next next.id], false⟩) ∨
    (run.factory.counts reading = true ∧ (increment run.factory.randomness).2 = true ∧
      step run reading = ⟨run.factory.incremented, run.minted, true⟩) ∨
    (run.factory.counts reading = true ∧ (increment run.factory.randomness).2 = false ∧
      step run reading = ⟨run.factory.incremented,
        run.minted ++ [mint run.factory.incremented run.factory.incremented.id],
        run.overflowed⟩) := by
  rcases run.factory.call_cases reading with ⟨counts, error, _, called⟩ |
    ⟨next, moved, started, bounded, counts, called⟩ | ⟨counts, carried, called⟩ |
    ⟨counts, carried, called⟩
  · refine .inl ⟨counts, ?_⟩
    simp [step, called, counts, Except.toOption]
  · refine .inr (.inl ⟨next, moved, started, bounded, counts, ?_⟩)
    have apart : next.lastTime ≠ run.factory.lastTime := by omega
    simp [step, called, counts, Except.toOption, apart]
  · refine .inr (.inr (.inl ⟨counts, carried, ?_⟩))
    simp [step, called, counts, Except.toOption, carried]
  · refine .inr (.inr (.inr ⟨counts, carried, ?_⟩))
    have same : run.factory.incremented.lastTime = run.factory.lastTime := rfl
    simp [step, called, counts, Except.toOption, carried, same]

theorem Coherent.step (coherent : Coherent run) (reading : UlidReading) : Coherent (step run reading) := by
  rcases step_cases run reading with ⟨_, same⟩ | ⟨next, moved, started, bounded, _, stepped⟩ |
    ⟨counts, carried, stepped⟩ | ⟨counts, carried, stepped⟩
  · rw [same]
    exact coherent
  · rw [stepped]
    refine ⟨⟨by dsimp only; omega, bounded⟩, ?_, ?_, ?_⟩
    · intro minted inMinted
      rcases List.mem_append.mp inMinted with old | new
      · exact coherent.written minted old
      · rw [List.mem_singleton.mp new]
        exact written_mint started bounded
    · intro minted inMinted
      rcases List.mem_append.mp inMinted with old | new
      · have earlier := coherent.times minted old
        dsimp only
        omega
      · rw [List.mem_singleton.mp new]
        exact Int.le_refl _
    · intro _
      exact ⟨mint next next.id, by simp, rfl, rfl⟩
  · rw [stepped]
    refine ⟨coherent.bounded, coherent.written, coherent.times, fun started => ?_⟩
    obtain ⟨minted, inMinted, now, last⟩ := coherent.latest started
    refine ⟨minted, inMinted, now, ?_⟩
    rw [if_pos rfl]
    split at last
    · exact last
    · have value := bytesValue_incremented run.factory
      rw [carried, if_pos rfl] at value
      have small := randomness_lt run.factory
      rw [last]
      omega
  · rw [stepped]
    have started := started_of_counts counts
    refine ⟨coherent.bounded, ?_, ?_, fun _ => ?_⟩
    · intro minted inMinted
      rcases List.mem_append.mp inMinted with old | new
      · exact coherent.written minted old
      · rw [List.mem_singleton.mp new]
        exact written_mint started coherent.bounded.2
    · intro minted inMinted
      rcases List.mem_append.mp inMinted with old | new
      · exact coherent.times minted old
      · rw [List.mem_singleton.mp new]
        exact Int.le_refl _
    · cases overflowed : run.overflowed with
      | true =>
        obtain ⟨minted, inMinted, now, last⟩ := coherent.latest started
        rw [if_pos overflowed] at last
        exact ⟨minted, List.mem_append_left _ inMinted, now, last⟩
      | false =>
        exact ⟨mint run.factory.incremented run.factory.incremented.id, by simp, rfl, rfl⟩

theorem key_mint (factory : UlidFactory) (id : String) :
    (mint factory id).key = factory.lastTime.toNat * 32 ^ 16 + bytesValue factory.randomness := rfl

theorem MintedUlid.Written.key_lt_of_time {minted : MintedUlid} (written : minted.Written)
    {factory : UlidFactory} {id : String} (earlier : minted.time < factory.lastTime) :
    minted.key < (mint factory id).key := by
  have small := written.randomness_lt
  have started := written.started
  rw [key_mint, MintedUlid.key]
  omega

/-- A call that does not reuse the counter gives an id above all of them. -/
theorem increasing_step (coherent : Coherent run) (increasing : run.Increasing) (below : run.Below)
    (fresh : ¬ run.Reuses reading) : (step run reading).Increasing ∧ (step run reading).Below := by
  have append : ∀ factory : UlidFactory, (mint factory factory.id).Written →
      (∀ minted ∈ run.minted, minted.key < (mint factory factory.id).key) →
      (run.minted ++ [mint factory factory.id]).Pairwise fun earlier later => earlier.id < later.id := by
    intro factory written above
    refine List.pairwise_append.mpr ⟨increasing, List.pairwise_singleton _ _, ?_⟩
    intro minted inMinted new isNew
    rw [List.mem_singleton.mp isNew]
    exact (coherent.written minted inMinted).id_lt written (above minted inMinted)
  have upTo : ∀ factory : UlidFactory, (∀ minted ∈ run.minted, minted.key < (mint factory factory.id).key) →
      ∀ minted ∈ run.minted ++ [mint factory factory.id], minted.key ≤ (mint factory "").key := by
    intro factory above minted inMinted
    rcases List.mem_append.mp inMinted with old | new
    · exact Nat.le_of_lt (above minted old)
    · rw [List.mem_singleton.mp new]
      exact Nat.le_refl _
  rcases step_cases run reading with ⟨_, same⟩ | ⟨next, moved, started, bounded, _, stepped⟩ |
    ⟨counts, carried, stepped⟩ | ⟨counts, carried, stepped⟩
  · rw [same]
    exact ⟨increasing, below⟩
  · rw [stepped]
    have above : ∀ minted ∈ run.minted, minted.key < (mint next next.id).key := by
      intro minted inMinted
      have earlier := coherent.times minted inMinted
      exact MintedUlid.Written.key_lt_of_time (coherent.written minted inMinted) (by omega)
    exact ⟨append next (written_mint started bounded) above, fun _ => upTo next above⟩
  · rw [stepped]
    exact ⟨increasing, fun impossible => (by cases impossible)⟩
  · rw [stepped]
    have notOverflowed : run.overflowed = false :=
      Bool.eq_false_iff.mpr fun overflowed => fresh ⟨overflowed, counts, carried⟩
    have value := bytesValue_incremented run.factory
    rw [carried, if_neg Bool.false_ne_true] at value
    have above : ∀ minted ∈ run.minted,
        minted.key < (mint run.factory.incremented run.factory.incremented.id).key := by
      intro minted inMinted
      have upToNow := below notOverflowed minted inMinted
      rw [key_mint] at upToNow ⊢
      have same : run.factory.incremented.lastTime = run.factory.lastTime := rfl
      rw [same]
      omega
    exact ⟨append _ (written_mint (started_of_counts counts) coherent.bounded.2) above,
      fun _ => upTo _ above⟩

/-- Counting on after an overflow gives an id that is not above all of them. -/
theorem not_increasing_of_reuses (coherent : Coherent run) (reuses : run.Reuses reading) :
    ¬ (step run reading).Increasing := by
  obtain ⟨overflowed, counts, carried⟩ := reuses
  rcases step_cases run reading with ⟨notCounts, _⟩ | ⟨_, _, _, _, notCounts, _⟩ |
    ⟨_, notCarried, _⟩ | ⟨_, _, stepped⟩
  · cases counts.symm.trans notCounts
  · cases counts.symm.trans notCounts
  · cases carried.symm.trans notCarried
  · intro increasing
    have started := started_of_counts counts
    obtain ⟨minted, inMinted, now, last⟩ := coherent.latest started
    rw [if_pos overflowed] at last
    rw [stepped] at increasing
    have less := (List.pairwise_append.mp increasing).2.2 minted inMinted _ (List.mem_singleton_self _)
    have written : (mint run.factory.incremented run.factory.incremented.id).Written :=
      written_mint started coherent.bounded.2
    have small := randomness_lt run.factory.incremented
    have same : run.factory.incremented.lastTime = run.factory.lastTime := rfl
    refine (coherent.written minted inMinted).not_id_lt written ?_ less
    rw [key_mint, MintedUlid.key, now, same, last]
    omega

theorem minted_prefix_step (run : UlidRun) (reading : UlidReading) : run.minted <+: (step run reading).minted :=
  List.prefix_append _ _

theorem minted_prefix_run (run : UlidRun) (readings : List UlidReading) :
    run.minted <+: (machine.run run readings).minted :=
  @Machine.run_related _ _ machine (fun run later => run.minted <+: later.minted)
    (fun _ => List.prefix_refl _) List.IsPrefix.trans minted_prefix_step run readings

theorem coherent_run (readings : List UlidReading) {start : UlidRun} (coherent : Coherent start) :
    Coherent (machine.run start readings) :=
  Machine.run_invariant (fun _ reading coherent => coherent.step reading) coherent readings

theorem increasing_run_iff {start : UlidRun} (coherent : Coherent start)
    (increasing : start.Increasing) (below : start.Below) (readings : List UlidReading) :
    (machine.run start readings).Increasing ↔
      machine.Meets (fun run reading => ¬ run.Reuses reading) start readings := by
  induction readings generalizing start with
  | nil => exact ⟨fun _ => trivial, fun _ => increasing⟩
  | cons reading rest ih =>
    by_cases reuses : start.Reuses reading
    · constructor
      · intro later
        have first : (step start reading).Increasing :=
          List.Pairwise.sublist (minted_prefix_run (step start reading) rest).sublist later
        exact absurd first (not_increasing_of_reuses coherent reuses)
      · intro meets
        exact absurd reuses meets.1
    · obtain ⟨increasing, below⟩ := increasing_step coherent increasing below reuses
      have rest := ih (coherent.step reading) increasing below
      exact ⟨fun later => ⟨reuses, rest.mp later⟩, fun meets => rest.mpr meets.2⟩

/-- The ids of a run are well formed; each is above all earlier ones exactly when no call counts on
after an overflow within the same time. -/
theorem ulids_increase_iff (readings : List UlidReading) :
    ((machine.run {} readings).minted.Pairwise (fun earlier later => earlier.id < later.id) ∧
      ∀ minted ∈ (machine.run {} readings).minted, minted.Valid) ↔
        machine.Meets (fun run reading => ¬ run.Reuses reading) {} readings := by
  have valid : ∀ minted ∈ (machine.run {} readings).minted, minted.Valid := fun minted inMinted =>
    ((coherent_run readings coherent_start).written minted inMinted).valid
  rw [← increasing_run_iff coherent_start List.Pairwise.nil (fun _ _ inNone => (by cases inNone))]
  exact ⟨And.left, fun increasing => ⟨increasing, valid⟩⟩

/-- After the last bytes of a time, a call overflows and the next one gives an id below the first. -/
theorem ulid_after_overflow_not_above :
    ¬ ((machine.run {} (List.replicate 3 ⟨some 1000, List.replicate 10 255⟩)).minted.Pairwise
        fun earlier later => earlier.id < later.id) := by
  decide +kernel

end UlidRun

end PlatformClaw.Reef
