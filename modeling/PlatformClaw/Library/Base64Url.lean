/-! # Base64 for addresses

Bytes as text that is safe in an address: four letters for three bytes, no
padding. Reading ignores what no whole byte is left of.
-/

namespace Base64Url

def letter (digit : Nat) : Char :=
  if digit < 26 then Char.ofNat ('A'.toNat + digit)
  else if digit < 52 then Char.ofNat ('a'.toNat + (digit - 26))
  else if digit < 62 then Char.ofNat ('0'.toNat + (digit - 52))
  else if digit = 62 then '-'
  else '_'

def digit? (c : Char) : Option Nat :=
  if 'A' ≤ c ∧ c ≤ 'Z' then some (c.toNat - 'A'.toNat)
  else if 'a' ≤ c ∧ c ≤ 'z' then some (c.toNat - 'a'.toNat + 26)
  else if '0' ≤ c ∧ c ≤ '9' then some (c.toNat - '0'.toNat + 52)
  else if c = '-' then some 62
  else if c = '_' then some 63
  else none

/-- `/^[A-Za-z0-9_-]+$/`. -/
def isText (text : List Char) : Bool :=
  !text.isEmpty && text.all fun c => (digit? c).isSome

def digits : List UInt8 → List Nat
  | a :: b :: c :: rest =>
    a.toNat / 4 :: (a.toNat % 4 * 16 + b.toNat / 16) :: (b.toNat % 16 * 4 + c.toNat / 64) ::
      (c.toNat % 64) :: digits rest
  | [a, b] => [a.toNat / 4, a.toNat % 4 * 16 + b.toNat / 16, b.toNat % 16 * 4]
  | [a] => [a.toNat / 4, a.toNat % 4 * 16]
  | [] => []

def bytes : List Nat → List UInt8
  | i :: j :: k :: l :: rest =>
    .ofNat (i * 4 + j / 16) :: .ofNat (j % 16 * 16 + k / 4) :: .ofNat (k % 4 * 64 + l) :: bytes rest
  | [i, j, k] => [.ofNat (i * 4 + j / 16), .ofNat (j % 16 * 16 + k / 4)]
  | [i, j] => [.ofNat (i * 4 + j / 16)]
  | _ => []

def encode (source : List UInt8) : List Char :=
  (digits source).map letter

def decode (text : List Char) : List UInt8 :=
  bytes (text.filterMap digit?)

theorem digit?_letter : ∀ digit < 64, digit? (letter digit) = some digit := by
  decide

theorem digits_lt (source : List UInt8) : ∀ digit ∈ digits source, digit < 64 := by
  fun_induction digits source with
  | case1 a b c rest ih =>
    have := a.toNat_lt
    have := b.toNat_lt
    have := c.toNat_lt
    intro digit found
    simp only [List.mem_cons] at found
    rcases found with rfl | rfl | rfl | rfl | later
    all_goals first | exact ih _ later | omega
  | case2 a b =>
    have := a.toNat_lt
    have := b.toNat_lt
    intro digit found
    simp only [List.mem_cons, List.not_mem_nil, or_false] at found
    rcases found with rfl | rfl | rfl <;> omega
  | case3 a =>
    have := a.toNat_lt
    intro digit found
    simp only [List.mem_cons, List.not_mem_nil, or_false] at found
    rcases found with rfl | rfl <;> omega
  | case4 => simp

theorem byte_eq {byte : UInt8} {number : Nat} (same : number = byte.toNat) : UInt8.ofNat number = byte := by
  rw [same, UInt8.ofNat_toNat]

theorem bytes_digits (source : List UInt8) : bytes (digits source) = source := by
  fun_induction digits source with
  | case1 a b c rest ih =>
    have first : a.toNat / 4 * 4 + (a.toNat % 4 * 16 + b.toNat / 16) / 16 = a.toNat := by
      have := b.toNat_lt
      omega
    have second : (a.toNat % 4 * 16 + b.toNat / 16) % 16 * 16 + (b.toNat % 16 * 4 + c.toNat / 64) / 4 = b.toNat := by
      have := b.toNat_lt
      have := c.toNat_lt
      omega
    have third : (b.toNat % 16 * 4 + c.toNat / 64) % 4 * 64 + c.toNat % 64 = c.toNat := by
      have := c.toNat_lt
      omega
    rw [bytes, byte_eq first, byte_eq second, byte_eq third, ih]
  | case2 a b =>
    have first : a.toNat / 4 * 4 + (a.toNat % 4 * 16 + b.toNat / 16) / 16 = a.toNat := by
      have := b.toNat_lt
      omega
    have second : (a.toNat % 4 * 16 + b.toNat / 16) % 16 * 16 + b.toNat % 16 * 4 / 4 = b.toNat := by
      have := b.toNat_lt
      omega
    rw [bytes, byte_eq first, byte_eq second]
  | case3 a =>
    have first : a.toNat / 4 * 4 + a.toNat % 4 * 16 / 16 = a.toNat := by omega
    rw [bytes, byte_eq first]
  | case4 => rfl

theorem filterMap_letters {numbers : List Nat} (small : ∀ digit ∈ numbers, digit < 64) :
    (numbers.map letter).filterMap digit? = numbers := by
  induction numbers with
  | nil => rfl
  | cons digit rest ih =>
    have first := digit?_letter digit (small digit List.mem_cons_self)
    have later := ih fun other inRest => small other (List.mem_cons_of_mem _ inRest)
    rw [List.map_cons, List.filterMap_cons_some first, later]

theorem decode_encode (source : List UInt8) : decode (encode source) = source := by
  rw [decode, encode, filterMap_letters (digits_lt source), bytes_digits]

theorem encode_letters (source : List UInt8) : (encode source).all (fun c => (digit? c).isSome) = true := by
  refine List.all_eq_true.mpr ?_
  intro c inText
  obtain ⟨digit, found, rfl⟩ := List.mem_map.mp inText
  rw [digit?_letter digit (digits_lt source digit found)]
  rfl

theorem letter_ascii : ∀ digit < 64, (letter digit).toNat < 128 := by
  decide

theorem encode_ascii {source : List UInt8} {c : Char} (inText : c ∈ encode source) : c.toNat < 128 := by
  obtain ⟨digit, found, rfl⟩ := List.mem_map.mp inText
  exact letter_ascii digit (digits_lt source digit found)

theorem encode_ne_nil {source : List UInt8} (some : source ≠ []) : encode source ≠ [] := by
  unfold encode
  fun_cases digits source with
  | case1 | case2 | case3 => exact List.cons_ne_nil _ _
  | case4 => exact absurd rfl some

theorem length_encode (source : List UInt8) : 3 * (encode source).length ≤ 4 * source.length + 2 := by
  rw [encode, List.length_map]
  fun_induction digits source with
  | case1 a b c rest ih =>
    simp only [List.length_cons]
    omega
  | case2 | case3 | case4 => simp

end Base64Url
