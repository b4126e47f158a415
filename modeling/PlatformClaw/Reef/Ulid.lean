import PlatformClaw.Library.FixedDigits
import PlatformClaw.Library.Machine
import PlatformClaw.Library.ScriptNumber

/-! # Message ids

An id is a time and ten random bytes in base 32. A factory counts the bytes up as long as its clock
does not move on, so that its ids grow.
-/

namespace PlatformClaw.Reef

def CROCKFORD : List Char := "0123456789ABCDEFGHJKMNPQRSTVWXYZ".toList

def crockford (digit : Nat) : Char := CROCKFORD.getD digit '0'

structure UlidFactory where
  lastTime : Int := -1
  randomness : List UInt8 := List.replicate 10 0
  ten : randomness.length = 10 := by rfl

inductive UlidError
  | invalidClock
  | invalidRng
  | monotonicOverflow
deriving DecidableEq, Repr

/-- The bytes after it, and whether all of them overflowed. -/
def increment : List UInt8 → List UInt8 × Bool
  | [] => ([], true)
  | byte :: rest =>
    if (increment rest).2 then ((byte + 1) :: (increment rest).1, byte + 1 = 0)
    else (byte :: (increment rest).1, false)

/-- The loop that puts one digit after the other in front. -/
def encodeDigits : Nat → Nat → List Char → List Char
  | 0, _, output => output
  | count + 1, value, output => encodeDigits count (value / 32) (crockford (value % 32) :: output)

def encodeTime (time : Nat) : String := .ofList (encodeDigits 10 time [])

def bytesValue (bytes : List UInt8) : Nat :=
  bytes.foldl (fun value byte => value * 256 + byte.toNat) 0

def encodeRandom (bytes : List UInt8) : String := .ofList (encodeDigits 16 (bytesValue bytes) [])

/-- What a call reads: the clock, rounded down and `none` for what is no number, and the bytes that the
generator would give. -/
structure UlidReading where
  now : Option Int
  generated : List UInt8
deriving DecidableEq, Repr

theorem length_increment (bytes : List UInt8) : (increment bytes).1.length = bytes.length := by
  induction bytes with
  | nil => rfl
  | cons byte rest ih =>
    rw [increment]
    split
    · simp [ih]
    · simp [ih]

namespace UlidFactory

/-- The time that a clock gives, if it is one. -/
def clock (reading : UlidReading) : Option Int :=
  reading.now.filter fun now =>
    ScriptNumber.isSafeInteger now && 0 ≤ now && now ≤ 0xffffffffffff

def incremented (factory : UlidFactory) : UlidFactory where
  lastTime := factory.lastTime
  randomness := (increment factory.randomness).1
  ten := (length_increment factory.randomness).trans factory.ten

def id (factory : UlidFactory) : String :=
  encodeTime factory.lastTime.toNat ++ encodeRandom factory.randomness

def call (factory : UlidFactory) (reading : UlidReading) : UlidFactory × Except UlidError String :=
  match clock reading with
  | none => (factory, .error .invalidClock)
  | some now =>
    if factory.lastTime < now then
      if ten : reading.generated.length = 10 then
        (⟨now, reading.generated, ten⟩, .ok (UlidFactory.id ⟨now, reading.generated, ten⟩))
      else (factory, .error .invalidRng)
    else if (increment factory.randomness).2 then
      (factory.incremented, .error .monotonicOverflow)
    else (factory.incremented, .ok factory.incremented.id)

end UlidFactory

theorem encodeDigits_eq (count value : Nat) (output : List Char) : encodeDigits count value output =
      (FixedDigits.digits 32 count value).map crockford ++ output := by
  induction count generalizing value output with
  | zero => rfl
  | succ count ih => simp [encodeDigits, FixedDigits.digits, ih]

theorem crockford_lt : ∀ {low high : Nat}, low < high → high < 32 → crockford low < crockford high := by
  have all : ∀ high < 32, ∀ low < high, crockford low < crockford high := by decide +kernel
  intro low high less small
  exact all high small low less

theorem bytesValue_concat (bytes : List UInt8) (byte : UInt8) :
    bytesValue (bytes ++ [byte]) = bytesValue bytes * 256 + byte.toNat := by
  simp [bytesValue]

theorem bytesValue_eq (bytes : List UInt8) : bytesValue bytes = FixedDigits.value 256 (bytes.map UInt8.toNat) := by
  simp [bytesValue, FixedDigits.value, List.foldl_map]

theorem bytesValue_cons (byte : UInt8) (rest : List UInt8) :
    bytesValue (byte :: rest) = byte.toNat * 256 ^ rest.length + bytesValue rest := by
  induction rest using List.reverseRecOn with
  | nil => simp [bytesValue]
  | append_singleton rest last ih =>
    rw [← List.cons_append, bytesValue_concat, bytesValue_concat, ih, List.length_append, List.length_singleton]
    ring

theorem bytesValue_lt (bytes : List UInt8) : bytesValue bytes < 256 ^ bytes.length := by
  rw [bytesValue_eq, ← List.length_map UInt8.toNat]
  apply FixedDigits.value_lt
  intro digit inBytes
  obtain ⟨byte, _, rfl⟩ := List.mem_map.mp inBytes
  exact byte.toNat_lt

/-- Counting up by one, or starting again at zero. -/
theorem bytesValue_increment (bytes : List UInt8) :
    bytesValue (increment bytes).1 + (if (increment bytes).2 then 256 ^ bytes.length else 0) =
      bytesValue bytes + 1 := by
  induction bytes with
  | nil => rfl
  | cons byte rest ih =>
    have sized := length_increment rest
    rw [increment]
    cases carried : (increment rest).2 with
    | false =>
      rw [carried] at ih
      simp only [Bool.false_eq_true, if_false, bytesValue_cons, sized] at ih ⊢
      omega
    | true =>
      rw [carried] at ih
      simp only [if_true, bytesValue_cons, sized, decide_eq_true_eq, List.length_cons] at ih ⊢
      by_cases last : byte + 1 = 0
      · have full : byte.toNat = 255 := by
          have next := congrArg UInt8.toNat last
          rw [UInt8.toNat_add] at next
          have small := byte.toNat_lt
          simp at next
          omega
        rw [if_pos last, last, full]
        simp only [UInt8.toNat_zero, Nat.pow_succ]
        omega
      · have next : (byte + 1).toNat = byte.toNat + 1 := by
          have small := byte.toNat_lt
          rw [UInt8.toNat_add]
          have notFull : byte.toNat ≠ 255 := by
            intro full
            apply last
            apply UInt8.toNat_inj.mp
            rw [UInt8.toNat_add, full]
            rfl
          simp
          omega
        rw [if_neg last, next, Nat.succ_mul]
        omega

end PlatformClaw.Reef
