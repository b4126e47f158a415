import PlatformClaw.Library.BoundedText
import PlatformClaw.Library.ScriptText

/-! # The longest cut

A text is cut to the longest piece whose JSON form keeps the bound, and in code units the cut stands between two
characters.
-/

namespace BoundedText

open ScriptString (charUnits codeUnits)
open ScriptText (isHighSurrogate isLowSurrogate)

/-- Neither half of a surrogate pair is cut off at an edge. -/
def WholePairs (units : List Nat) : Prop :=
  (∀ unit, units.head? = some unit → isLowSurrogate unit = false) ∧
    ∀ unit, units.getLast? = some unit → isHighSurrogate unit = false

theorem wholePairs_charUnits (c : Char) : charUnits c ≠ [] ∧ WholePairs (charUnits c) := by
  have valid := c.valid
  unfold UInt32.isValidChar Nat.isValidChar at valid
  have scalar : c.toNat < 0xD800 ∨ 0xDFFF < c.toNat ∧ c.toNat < 0x110000 := valid
  unfold charUnits WholePairs isHighSurrogate isLowSurrogate
  split
  · refine ⟨List.cons_ne_nil _ _, ?_⟩
    simp
    omega
  · refine ⟨List.cons_ne_nil _ _, ?_⟩
    simp
    omega

theorem wholePairs_flatMap (chars : List Char) : WholePairs (chars.flatMap charUnits) := by
  constructor
  · intro unit first
    cases chars with
    | nil => cases first
    | cons c rest =>
      obtain ⟨some_, starts, -⟩ := wholePairs_charUnits c
      obtain ⟨head, others, units⟩ := List.exists_cons_of_ne_nil some_
      rw [List.flatMap_cons, units] at first
      exact starts unit (units ▸ first)
  · intro unit last
    obtain rfl | ⟨before, c, rfl⟩ := List.eq_nil_or_concat chars
    · cases last
    · obtain ⟨some_, -, ends⟩ := wholePairs_charUnits c
      simp only [List.concat_eq_append, List.flatMap_append, List.flatMap_singleton, List.getLast?_append,
        List.getLast?_eq_some_getLast some_, Option.some_or] at last
      exact ends unit ((List.getLast?_eq_some_getLast some_).trans last)

theorem takeUnits_prefix (chars : List Char) (limit : Nat) : takeUnits chars limit <+: chars := by
  induction chars generalizing limit with
  | nil => exact List.prefix_rfl
  | cons c rest ih =>
    unfold takeUnits
    split
    · exact List.cons_prefix_cons.mpr ⟨rfl, ih _⟩
    · exact List.nil_prefix

theorem takeUnits_mono {limit limit' : Nat} (chars : List Char) (wider : limit ≤ limit') :
    takeUnits chars limit <+: takeUnits chars limit' := by
  induction chars generalizing limit limit' with
  | nil => exact List.prefix_rfl
  | cons c rest ih =>
    unfold takeUnits
    by_cases fits : (charUnits c).length ≤ limit
    · rw [if_pos fits, if_pos (Nat.le_trans fits wider)]
      exact List.cons_prefix_cons.mpr ⟨rfl, ih (by omega)⟩
    · rw [if_neg fits]
      exact List.nil_prefix

/-- Characters that fit exactly are taken. -/
theorem takeUnits_append (chars more : List Char) :
    takeUnits (chars ++ more) (chars.flatMap charUnits).length = chars := by
  induction chars with
  | nil =>
    cases more with
    | nil => rfl
    | cons c rest =>
      have positive := charUnits_pos c
      simp [takeUnits, Nat.not_le.mpr positive]
  | cons c rest ih =>
    rw [List.cons_append, List.flatMap_cons, List.length_append, takeUnits, if_pos (Nat.le_add_right _ _),
      Nat.add_sub_cancel_left, ih]

theorem quotedChars_mono {chars more : List Char} (begins : chars <+: more) : quotedChars chars ≤ quotedChars more := by
  obtain ⟨rest, rfl⟩ := begins
  simp [quotedChars]

variable {text : String} {bytes : Nat}

theorem bisect_greatest {fuel low high : Nat} (enough : high - low ≤ fuel) :
    ∀ length, bisect text bytes fuel low high < length → length ≤ high →
      bytes < jsonBytes (truncateUtf16Safe text length) := by
  induction fuel generalizing low high with
  | zero =>
    intro length above within
    unfold bisect at above
    omega
  | succ fuel ih =>
    intro length above within
    unfold bisect at above
    split at above
    · rename_i apart
      dsimp only at above
      split at above
      · exact ih (by omega) length above within
      · rename_i tooLong
        obtain early | late := Nat.lt_or_ge length ((low + high + 1) / 2)
        · exact ih (by omega) length above (by omega)
        · have longer := quotedChars_mono (takeUnits_mono text.toList late)
          simp only [jsonBytes, truncateUtf16Safe, String.toList_ofList] at tooLong ⊢
          omega
    · omega

/-- A piece of a text that fits, and in which every other such piece is contained. -/
def Longest (bytes : Nat) (piece rest : List Char) : Prop :=
  piece <+: rest ∧ jsonBytes (.ofList piece) ≤ bytes ∧
    ∀ other, other <+: rest → jsonBytes (.ofList other) ≤ bytes → other <+: piece

theorem boundedText_longest (text : String) (room : 2 ≤ bytes) :
    Longest bytes (boundedText text bytes).toList text.toList := by
  refine ⟨?_, ?_, fun other begins fits => ?_⟩
  · rw [boundedText, truncateUtf16Safe, String.toList_ofList]
    exact takeUnits_prefix _ _
  · rw [String.ofList_toList]
    exact jsonBytes_boundedText text room
  · obtain ⟨rest, whole⟩ := begins
    have taken := takeUnits_append other rest
    rw [whole] at taken
    have within : (other.flatMap charUnits).length ≤ ScriptString.length text := by
      rw [ScriptString.length, codeUnits, ← whole, List.flatMap_append, List.length_append]
      exact Nat.le_add_right _ _
    rw [boundedText, truncateUtf16Safe, String.toList_ofList, ← taken]
    rw [taken]
    obtain early | late := Nat.lt_or_ge
        (bisect text bytes (ScriptString.length text) 0 (ScriptString.length text)) (other.flatMap charUnits).length
    · have tooLong := bisect_greatest (Nat.sub_le _ _) _ early within
      rw [truncateUtf16Safe, taken] at tooLong
      omega
    · have wider := takeUnits_mono text.toList late
      rw [taken] at wider
      exact wider

theorem Longest.some {piece rest : List Char} (longest : Longest bytes piece rest) (room : 8 ≤ bytes)
    (left : rest ≠ []) : piece ≠ [] := by
  cases rest with
  | nil => exact absurd rfl left
  | cons c others =>
    have one : quotedBytes c ≤ 6 := by
      unfold quotedBytes utf8Bytes
      grind
    have begins := longest.2.2 [c] (List.cons_prefix_cons.mpr ⟨rfl, List.nil_prefix⟩) (by
      simp only [jsonBytes, String.toList_ofList, quotedChars, List.map_cons, List.map_nil, List.sum_cons,
        List.sum_nil]
      omega)
    intro none_
    rw [none_] at begins
    exact List.cons_ne_nil _ _ (List.prefix_nil.mp begins)

end BoundedText
