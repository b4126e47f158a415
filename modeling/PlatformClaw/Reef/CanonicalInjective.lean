import PlatformClaw.Library.Guarded
import PlatformClaw.Library.KeyedRows
import PlatformClaw.Reef.CanonicalJson

/-! # Canonical JSON is unambiguous

A value ends where its text ends, so two values with one text are the same, up to the order of keys and
fields that are undefined. What is hashed tells the value, then, if the hash has no collisions.
-/

namespace ScriptString

theorem upTo_antisymm {left right : List Nat} (first : upTo left right = true)
    (second : upTo right left = true) : left = right := by
  induction left generalizing right with
  | nil =>
    cases right with
    | nil => rfl
    | cons b right => cases second
  | cons a left ih =>
    cases right with
    | nil => cases first
    | cons b right =>
      simp only [upTo, Bool.or_eq_true, Bool.and_eq_true, decide_eq_true_eq] at first second
      rcases first with less | ⟨rfl, first⟩
      · rcases second with more | ⟨same, _⟩ <;> omega
      · rcases second with more | ⟨_, second⟩
        · omega
        · rw [ih first second]

theorem joinChars_cons_cons (separator : Char) (first second : List Char) (rest : List (List Char)) :
    joinChars separator (first :: second :: rest) =
      first ++ separator :: joinChars separator (second :: rest) := by
  rw [joinChars]
  intro none
  cases none

end ScriptString

namespace PlatformClaw.Reef

namespace CanonicalValue

def parts : CanonicalValue → List CanonicalValue
  | array items => items
  | object record => record.map Prod.snd
  | _ => []

theorem sizeOf_part {value part : CanonicalValue} (inParts : part ∈ value.parts) : sizeOf part < sizeOf value := by
  cases value with
  | array items =>
    have smaller := List.sizeOf_lt_of_mem (show part ∈ items from inParts)
    simp only [array.sizeOf_spec]
    omega
  | object record =>
    obtain ⟨entry, inRecord, rfl⟩ := List.mem_map.mp inParts
    have smaller := List.sizeOf_lt_of_mem inRecord
    obtain ⟨key, value⟩ := entry
    simp only [object.sizeOf_spec, Prod.mk.sizeOf_spec] at smaller ⊢
    omega
  | undefined | null | boolean | number | notFinite | string | other => cases inParts

theorem induction_parts {P : CanonicalValue → Prop}
    (step : ∀ value, (∀ part ∈ value.parts, P part) → P value) (value : CanonicalValue) : P value :=
  step value fun part _ => induction_parts step part
termination_by value
decreasing_by exact sizeOf_part ‹_›

inductive IsJson : CanonicalValue → Prop
  | null : IsJson null
  | boolean (flag) : IsJson (boolean flag)
  | number (value) : IsJson (number value)
  | string (text) : IsJson (string text)
  | array {items} : (∀ item ∈ items, IsJson item) → IsJson (array items)
  | object {record} : (record.map Prod.fst).Nodup →
      (∀ entry ∈ record, entry.2.isUndefined = false → IsJson entry.2) → IsJson (object record)

/-- Equal up to the order of keys and to fields that are undefined. -/
inductive Same : CanonicalValue → CanonicalValue → Prop
  | undefined : Same undefined undefined
  | null : Same null null
  | boolean (flag) : Same (boolean flag) (boolean flag)
  | number (value) : Same (number value) (number value)
  | string (text) : Same (string text) (string text)
  | array {items others} : List.Forall₂ Same items others → Same (array items) (array others)
  | object {record other} :
      (∀ key, Same (field record key) (field other key)) → Same (object record) (object other)

end CanonicalValue

open CanonicalValue

section Parts

variable {items : List CanonicalValue} {record : List (Units × CanonicalValue)}

theorem canonicalItems_ok_iff {texts : List (List Char)} : canonicalItems items = .ok texts ↔
      List.Forall₂ (fun item text => canonicalJson item = .ok text) items texts := by
  induction items generalizing texts with
  | nil =>
    rw [canonicalItems, List.forall₂_nil_left_iff]
    exact ⟨fun same => (Except.ok.inj same).symm, fun same => by rw [same]⟩
  | cons item rest ih =>
    rw [canonicalItems]
    constructor
    · intro done
      obtain ⟨text, first, done⟩ := Except.bind_ok_iff.mp done
      obtain ⟨others, later, done⟩ := Except.bind_ok_iff.mp done
      rw [← Except.pure_ok_iff.mp done]
      exact .cons first (ih.mp later)
    · intro both
      obtain ⟨text, others, first, later, rfl⟩ := List.forall₂_cons_left_iff.mp both
      exact Except.bind_ok_iff.mpr ⟨text, first, Except.bind_ok_iff.mpr ⟨others, ih.mpr later, rfl⟩⟩

theorem mem_canonicalEntries {entries : List (Units × List Char)}
    (done : canonicalEntries record = .ok entries) {key : Units} {text : List Char} :
    (key, text) ∈ entries ↔
      ∃ value, (key, value) ∈ record ∧ value.isUndefined = false ∧ canonicalJson value = .ok text := by
  induction record generalizing entries with
  | nil =>
    rw [canonicalEntries] at done
    rw [← Except.ok.inj done]
    simp
  | cons entry rest ih =>
    obtain ⟨first, value⟩ := entry
    rw [canonicalEntries] at done
    split at done
    · rename_i undefined
      rw [ih done]
      constructor
      · rintro ⟨value, inRest, written⟩
        exact ⟨value, List.mem_cons_of_mem _ inRest, written⟩
      · rintro ⟨value, inRecord, defined, written⟩
        rcases List.mem_cons.mp inRecord with same | inRest
        · cases same
          cases undefined.symm.trans defined
        · exact ⟨value, inRest, defined, written⟩
    · rename_i defined
      obtain ⟨written, first, done⟩ := Except.bind_ok_iff.mp done
      obtain ⟨others, later, done⟩ := Except.bind_ok_iff.mp done
      rw [← Except.pure_ok_iff.mp done, List.mem_cons, ih later]
      constructor
      · rintro (same | ⟨value, inRest, written⟩)
        · cases same
          exact ⟨value, List.mem_cons_self, Bool.eq_false_iff.mpr defined, first⟩
        · exact ⟨value, List.mem_cons_of_mem _ inRest, written⟩
      · rintro ⟨value, inRecord, defined, written⟩
        rcases List.mem_cons.mp inRecord with same | inRest
        · cases same
          rw [Except.ok.inj (first.symm.trans written)]
          exact .inl rfl
        · exact .inr ⟨value, inRest, defined, written⟩

theorem keys_canonicalEntries {entries : List (Units × List Char)} (done : canonicalEntries record = .ok entries) :
    (entries.map Prod.fst).Sublist (record.map Prod.fst) := by
  induction record generalizing entries with
  | nil =>
    rw [canonicalEntries] at done
    rw [← Except.ok.inj done]
    exact List.Sublist.refl _
  | cons entry rest ih =>
    obtain ⟨key, value⟩ := entry
    rw [canonicalEntries] at done
    split at done
    · exact (ih done).cons _
    · obtain ⟨written, first, done⟩ := Except.bind_ok_iff.mp done
      obtain ⟨others, later, done⟩ := Except.bind_ok_iff.mp done
      rw [← Except.pure_ok_iff.mp done]
      exact (ih later).cons_cons _

theorem mem_of_field {key : Units} (defined : field record key ≠ .undefined) : (key, field record key) ∈ record := by
  unfold field at defined ⊢
  cases found : record.find? fun entry => entry.1 = key with
  | none => exact absurd (by rw [found]; rfl) defined
  | some entry =>
    have same : entry.1 = key := by simpa using List.find?_some found
    obtain ⟨first, value⟩ := entry
    cases same
    exact List.mem_of_find?_eq_some found

theorem field_of_mem (distinct : (record.map Prod.fst).Nodup) {key : Units} {value : CanonicalValue}
    (inRecord : (key, value) ∈ record) : field record key = value := by
  have keyed : record.Pairwise fun a b => a.1 ≠ b.1 := List.pairwise_map.mp distinct
  have found := KeyedRows.find?_key keyed inRecord
  rw [field, found]
  rfl

theorem isUndefined_iff {value : CanonicalValue} : value.isUndefined = true ↔ value = .undefined := by
  cases value <;> simp [isUndefined]

end Parts

/-- What may stand behind a value. -/
def Stops (rest : List Char) : Prop := ∀ c, rest.head? = some c → c = ',' ∨ c = ']' ∨ c = '}'

theorem stops_nil : Stops [] := fun _ none => (by cases none)

theorem stops_comma (rest : List Char) : Stops (',' :: rest) := by
  intro c first
  cases first
  exact .inl rfl

theorem stops_bracket (rest : List Char) : Stops (']' :: rest) := by
  intro c first
  cases first
  exact .inr (.inl rfl)

theorem stops_brace (rest : List Char) : Stops ('}' :: rest) := by
  intro c first
  cases first
  exact .inr (.inr rfl)

/-- The first text ends where the second does, wherever both may stop. -/
def EndsAlike (first second : List Char) : Prop :=
  ∀ rest later, Stops rest → Stops later → first ++ rest = second ++ later →
    first = second ∧ rest = later

/-- A text that is not empty and does not begin with what may stand behind a value. -/
def Starts (text : List Char) : Prop :=
  ∃ c, text.head? = some c ∧ c ≠ ',' ∧ c ≠ ']' ∧ c ≠ '}'

theorem Starts.append_ne {text : List Char} (starts : Starts text) {close : Char} (rest later : List Char)
    (closes : close = ']' ∨ close = '}') : text ++ rest ≠ close :: later := by
  obtain ⟨c, first, _, noBracket, noBrace⟩ := starts
  intro same
  cases text with
  | nil => cases first
  | cons d others =>
    cases first
    have head := (List.cons.inj same).1
    rcases closes with rfl | rfl
    · exact noBracket head
    · exact noBrace head

theorem joined_inj {close : Char} (closes : close = ']' ∨ close = '}') {rest later : List Char} :
    ∀ {texts others : List (List Char)}, (∀ text ∈ texts, Starts text) →
      (∀ other ∈ others, Starts other) → (∀ text ∈ texts, ∀ other ∈ others, EndsAlike text other) →
      ScriptString.joinChars ',' texts ++ close :: rest =
        ScriptString.joinChars ',' others ++ close :: later → texts = others ∧ rest = later := by
  have stops : ∀ rest, Stops (close :: rest) := by
    intro rest
    rcases closes with rfl | rfl
    · exact stops_bracket rest
    · exact stops_brace rest
  have noComma : ∀ {rest later : List Char}, close :: rest ≠ ',' :: later := by
    intro rest later same
    have head := (List.cons.inj same).1
    rcases closes with rfl | rfl <;> cases head
  have begins : ∀ (text : List Char) (more : List (List Char)), ∃ rest,
      ScriptString.joinChars ',' (text :: more) = text ++ rest := by
    intro text more
    cases more with
    | nil => exact ⟨[], (List.append_nil text).symm⟩
    | cons next more => exact ⟨_, ScriptString.joinChars_cons_cons _ _ _ _⟩
  intro texts
  induction texts with
  | nil =>
    intro others _ starts _ same
    cases others with
    | nil => exact ⟨rfl, (List.cons.inj same).2⟩
    | cons other more =>
      obtain ⟨rest, joined⟩ := begins other more
      rw [joined, List.append_assoc] at same
      exact absurd same.symm ((starts other List.mem_cons_self).append_ne _ _ closes)
  | cons text texts ih =>
    intro others starts starts' alike same
    cases others with
    | nil =>
      obtain ⟨rest, joined⟩ := begins text texts
      rw [joined, List.append_assoc] at same
      exact absurd same ((starts text List.mem_cons_self).append_ne _ _ closes)
    | cons other others =>
      have first := alike text List.mem_cons_self other List.mem_cons_self
      cases texts with
      | nil =>
        cases others with
        | nil =>
          obtain ⟨rfl, rests⟩ := first _ _ (stops _) (stops _) same
          exact ⟨rfl, (List.cons.inj rests).2⟩
        | cons next more =>
          rw [ScriptString.joinChars_cons_cons, List.append_assoc] at same
          exact absurd (first _ _ (stops _) (stops_comma _) same).2 noComma
      | cons following texts =>
        cases others with
        | nil =>
          rw [ScriptString.joinChars_cons_cons, List.append_assoc] at same
          exact absurd (first _ _ (stops_comma _) (stops _) same).2.symm noComma
        | cons next more =>
          rw [ScriptString.joinChars_cons_cons, ScriptString.joinChars_cons_cons,
            List.append_assoc, List.append_assoc] at same
          obtain ⟨rfl, rests⟩ := first _ _ (stops_comma _) (stops_comma _) same
          obtain ⟨texts', tails⟩ := ih (fun text inTexts => starts text (List.mem_cons_of_mem _ inTexts))
            (fun other inOthers => starts' other (List.mem_cons_of_mem _ inOthers))
            (fun text inTexts other inOthers => alike text (List.mem_cons_of_mem _ inTexts)
              other (List.mem_cons_of_mem _ inOthers)) (List.cons.inj rests).2
          exact ⟨by rw [texts'], tails⟩

theorem starts_stringify (text : Units) (rest : List Char) : Starts (stringify text ++ rest) :=
  ⟨'"', rfl, by decide, by decide, by decide⟩

theorem endsAlike_writeEntry {entry other : Units × List Char} (alike : EndsAlike entry.2 other.2) :
    EndsAlike (writeEntry entry) (writeEntry other) := by
  intro rest later stops stops' same
  unfold writeEntry at same
  rw [List.append_assoc, List.append_assoc] at same
  obtain ⟨keys, values⟩ := stringify_append_inj same
  obtain ⟨texts, rests⟩ := alike rest later stops stops' (List.cons.inj values).2
  unfold writeEntry
  rw [keys, texts]
  exact ⟨rfl, rests⟩

theorem writeEntry_inj {entry other : Units × List Char} (same : writeEntry entry = writeEntry other) :
    entry = other := by
  obtain ⟨keys, values⟩ := stringify_append_inj same
  exact Prod.ext keys (List.cons.inj values).2

inductive Kind
  | null | boolean | number | string | array | object
deriving DecidableEq

/-- The kind of value that a character begins. -/
def kindOfChar (c : Char) : Kind :=
  if c = '"' then .string
  else if c = '[' then .array
  else if c = '{' then .object
  else if c = 'n' then .null
  else if c = 't' ∨ c = 'f' then .boolean
  else .number

theorem kindOfChar_number {c : Char} (number : ScriptDecimal.isNumberCharacter c = true) :
    kindOfChar c = .number := by
  have apart : ∀ other, ScriptDecimal.isNumberCharacter other = false → c ≠ other := by
    rintro other plain rfl
    cases number.symm.trans plain
  unfold kindOfChar
  rw [if_neg (apart _ (by decide)), if_neg (apart _ (by decide)), if_neg (apart _ (by decide)),
    if_neg (apart _ (by decide)), if_neg]
  rintro (isTrue | isFalse)
  · exact apart _ (by decide) isTrue
  · exact apart _ (by decide) isFalse

def kindOf : CanonicalValue → Option Kind
  | .null => some .null
  | .boolean _ => some .boolean
  | .number _ => some .number
  | .string _ => some .string
  | .array _ => some .array
  | .object _ => some .object
  | .undefined | .notFinite | .other => none

theorem kind_of_canonicalJson {value : CanonicalValue} {text : List Char} (done : canonicalJson value = .ok text) :
    ∃ c, text.head? = some c ∧ kindOf value = some (kindOfChar c) ∧ c ≠ ',' ∧ c ≠ ']' ∧ c ≠ '}' := by
  cases value with
  | undefined | notFinite | other => cases done
  | null =>
    cases done
    exact ⟨'n', rfl, rfl, by decide, by decide, by decide⟩
  | boolean flag =>
    cases done
    cases flag with
    | false => exact ⟨'f', rfl, rfl, by decide, by decide, by decide⟩
    | true => exact ⟨'t', rfl, rfl, by decide, by decide, by decide⟩
  | number value =>
    cases done
    obtain ⟨c, first, number⟩ := value.head?_text
    have apart : ∀ other, ScriptDecimal.isNumberCharacter other = false → c ≠ other := by
      rintro other plain rfl
      cases number.symm.trans plain
    exact ⟨c, first, by rw [kindOfChar_number number, kindOf], apart _ (by decide),
      apart _ (by decide), apart _ (by decide)⟩
  | string text =>
    cases done
    exact ⟨'"', rfl, rfl, by decide, by decide, by decide⟩
  | array items =>
    obtain ⟨texts, _, rfl⟩ := Except.map_ok_iff.mp done
    exact ⟨'[', rfl, rfl, by decide, by decide, by decide⟩
  | object record =>
    obtain ⟨entries, _, rfl⟩ := Except.map_ok_iff.mp done
    exact ⟨'{', rfl, rfl, by decide, by decide, by decide⟩

theorem starts_canonicalJson {value : CanonicalValue} {text : List Char}
    (done : canonicalJson value = .ok text) : Starts text := by
  obtain ⟨c, first, _, apart⟩ := kind_of_canonicalJson done
  exact ⟨c, first, apart⟩

/-- Values whose texts begin alike are of one kind. -/
theorem kind_eq {a b : CanonicalValue} {s t rest later : List Char} (first : canonicalJson a = .ok s)
    (second : canonicalJson b = .ok t) (same : s ++ rest = t ++ later) : kindOf a = kindOf b := by
  obtain ⟨c, head, kind, _⟩ := kind_of_canonicalJson first
  obtain ⟨d, head', kind', _⟩ := kind_of_canonicalJson second
  have heads := congrArg List.head? same
  rw [List.head?_append, List.head?_append, head, head'] at heads
  rw [kind, kind', Option.some.inj heads]

theorem comparison_compareKeys : ScriptList.Comparison compareKeys where
  total a b := by
    unfold compareKeys
    rcases ScriptString.upTo_total (a.1.map UInt16.toNat) (b.1.map UInt16.toNat) with less | more
    · simp [less]
    · simp [more]
  trans := by
    intro a b c first second
    unfold compareKeys at *
    split at first
    · split at second
      · rename_i below above
        rw [if_pos (ScriptString.upTo_trans below above)]
      · cases second
    · cases first

theorem upTo_of_compareKeys {a b : Units × List Char} (le : compareKeys a b ≤ 0) :
    ScriptString.upTo (a.1.map UInt16.toNat) (b.1.map UInt16.toNat) = true := by
  unfold compareKeys at le
  split at le
  · assumption
  · cases le

theorem sorted_eq_of_perm {entries others : List (Units × List Char)}
    (distinct : (entries.map Prod.fst).Nodup) (same : entries.Perm others) :
    ScriptList.toSorted compareKeys entries = ScriptList.toSorted compareKeys others := by
  apply ScriptList.toSorted_eq_of_perm comparison_compareKeys same
  intro a inA b inB below above
  have units := ScriptString.upTo_antisymm (upTo_of_compareKeys below) (upTo_of_compareKeys above)
  have keys : a.1 = b.1 := (List.map_injective_iff.mpr fun _ _ => UInt16.toNat_inj.mp) units
  exact KeyedRows.unique (List.pairwise_map.mp distinct) inA inB keys

section Objects

variable {record other : List (Units × CanonicalValue)} {entries others : List (Units × List Char)}

theorem mem_entries_iff_field (distinct : (record.map Prod.fst).Nodup)
    (done : canonicalEntries record = .ok entries) {key : Units} {text : List Char} :
    (key, text) ∈ entries ↔ field record key ≠ .undefined ∧ canonicalJson (field record key) = .ok text := by
  rw [mem_canonicalEntries done]
  constructor
  · rintro ⟨value, inRecord, defined, written⟩
    rw [field_of_mem distinct inRecord]
    exact ⟨fun none => Bool.eq_false_iff.mp defined (isUndefined_iff.mpr none), written⟩
  · rintro ⟨defined, written⟩
    exact ⟨_, mem_of_field defined, Bool.eq_false_iff.mpr fun none => defined (isUndefined_iff.mp none), written⟩

theorem perm_entries (distinct : (record.map Prod.fst).Nodup) (distinct' : (other.map Prod.fst).Nodup)
    (done : canonicalEntries record = .ok entries) (done' : canonicalEntries other = .ok others)
    (alike : ∀ key, (field record key = .undefined ↔ field other key = .undefined) ∧
      canonicalJson (field record key) = canonicalJson (field other key)) : entries.Perm others := by
  have nodup : ∀ {record : List (Units × CanonicalValue)} {entries : List (Units × List Char)},
      (record.map Prod.fst).Nodup → canonicalEntries record = .ok entries → entries.Nodup := by
    intro record entries distinct done
    exact (distinct.sublist (keys_canonicalEntries done)).of_map _
  refine (List.perm_ext_iff_of_nodup (nodup distinct done) (nodup distinct' done')).mpr ?_
  rintro ⟨key, text⟩
  rw [mem_entries_iff_field distinct done, mem_entries_iff_field distinct' done', (alike key).2]
  exact and_congr_left fun _ => not_congr (alike key).1

end Objects

namespace CanonicalValue

theorem IsJson.items {items : List CanonicalValue} (json : (CanonicalValue.array items).IsJson) :
    ∀ item ∈ items, item.IsJson := by
  cases json
  assumption

theorem IsJson.distinct {record : List (Units × CanonicalValue)} (json : (CanonicalValue.object record).IsJson) :
    (record.map Prod.fst).Nodup := by
  cases json
  assumption

theorem IsJson.field {record : List (Units × CanonicalValue)}
    (json : (CanonicalValue.object record).IsJson) (key : Units) :
    (CanonicalValue.field record key).IsJson ∨ CanonicalValue.field record key = .undefined := by
  cases json with
  | object distinct all =>
    by_cases none : CanonicalValue.field record key = .undefined
    · exact .inr none
    · exact .inl (all _ (mem_of_field none) (Bool.eq_false_iff.mpr fun isNone => none (isUndefined_iff.mp isNone)))

theorem part_of_field {record : List (Units × CanonicalValue)} {key : Units}
    (defined : field record key ≠ undefined) : field record key ∈ (object record).parts :=
  List.mem_map.mpr ⟨_, mem_of_field defined, rfl⟩

theorem Same.undefined_iff {a b : CanonicalValue} (same : a.Same b) : a = .undefined ↔ b = .undefined := by
  cases same <;> simp

end CanonicalValue

theorem canonicalJson_total {value : CanonicalValue} (json : value.IsJson) :
    ∃ text, canonicalJson value = .ok text := by
  induction value using CanonicalValue.induction_parts with
  | step value ih =>
    cases json with
    | null | boolean flag | number value | string text => exact ⟨_, rfl⟩
    | @array items all =>
      have written : ∃ texts, canonicalItems items = .ok texts := by
        induction items with
        | nil => exact ⟨[], rfl⟩
        | cons item rest later =>
          obtain ⟨text, first⟩ := ih item List.mem_cons_self (all item List.mem_cons_self)
          obtain ⟨texts, others⟩ := later (fun item inItems => all item (List.mem_cons_of_mem _ inItems))
            (fun part inParts => ih part (List.mem_cons_of_mem _ inParts))
          rw [canonicalItems, first, others]
          exact ⟨_, rfl⟩
      obtain ⟨texts, done⟩ := written
      rw [canonicalJson, done]
      exact ⟨_, rfl⟩
    | @object record distinct all =>
      clear distinct
      have written : ∃ entries, canonicalEntries record = .ok entries := by
        induction record with
        | nil => exact ⟨[], rfl⟩
        | cons entry rest later =>
          obtain ⟨entries, others⟩ := later (fun entry inRest => all entry (List.mem_cons_of_mem _ inRest))
            (fun part inParts => ih part (List.mem_cons_of_mem _ inParts))
          obtain ⟨key, value⟩ := entry
          rw [canonicalEntries]
          split
          · exact ⟨entries, others⟩
          · rename_i defined
            obtain ⟨text, first⟩ := ih value List.mem_cons_self
              (all _ List.mem_cons_self (Bool.eq_false_iff.mpr defined))
            rw [first, others]
            exact ⟨_, rfl⟩
      obtain ⟨entries, done⟩ := written
      rw [canonicalJson, done]
      exact ⟨_, rfl⟩

theorem canonicalEntries_total {record : List (Units × CanonicalValue)}
    (json : (CanonicalValue.object record).IsJson) : ∃ entries, canonicalEntries record = .ok entries := by
  obtain ⟨text, done⟩ := canonicalJson_total json
  rw [canonicalJson] at done
  obtain ⟨entries, written, _⟩ := Except.map_ok_iff.mp done
  exact ⟨entries, written⟩

/-- Values that are the same are written alike. -/
theorem canonicalJson_of_same {a b : CanonicalValue} (jsonA : a.IsJson ∨ a = .undefined)
    (jsonB : b.IsJson ∨ b = .undefined) (same : a.Same b) : canonicalJson a = canonicalJson b := by
  induction a using CanonicalValue.induction_parts generalizing b with
  | step a ih =>
    cases same with
    | undefined | null | boolean flag | number value | string text => rfl
    | @array items others all =>
      have jsonItems := (jsonA.resolve_right fun none => (by cases none)).items
      have jsonOthers := (jsonB.resolve_right fun none => (by cases none)).items
      have written : canonicalItems items = canonicalItems others := by
        clear jsonA jsonB
        induction all with
        | nil => rfl
        | cons first _ later =>
          rw [canonicalItems, canonicalItems, ih _ List.mem_cons_self (.inl (jsonItems _ List.mem_cons_self))
              (.inl (jsonOthers _ List.mem_cons_self)) first,
            later (fun part inParts => ih part (List.mem_cons_of_mem _ inParts))
              (fun item inItems => jsonItems item (List.mem_cons_of_mem _ inItems))
              (fun item inItems => jsonOthers item (List.mem_cons_of_mem _ inItems))]
      rw [canonicalJson, canonicalJson, written]
    | @object record other all =>
      have jsonRecord := jsonA.resolve_right fun none => (by cases none)
      have jsonOther := jsonB.resolve_right fun none => (by cases none)
      obtain ⟨entries, done⟩ := canonicalEntries_total jsonRecord
      obtain ⟨others, done'⟩ := canonicalEntries_total jsonOther
      have alike : ∀ key, (field record key = .undefined ↔ field other key = .undefined) ∧
          canonicalJson (field record key) = canonicalJson (field other key) := by
        intro key
        refine ⟨(all key).undefined_iff, ?_⟩
        by_cases none : field record key = .undefined
        · rw [none, (all key).undefined_iff.mp none]
        · exact ih _ (part_of_field none) (jsonRecord.field key) (jsonOther.field key) (all key)
      have perm := perm_entries jsonRecord.distinct jsonOther.distinct done done' alike
      have distinct := jsonRecord.distinct.sublist (keys_canonicalEntries done)
      rw [canonicalJson, canonicalJson, done, done']
      change Except.ok (writeObject entries) = Except.ok (writeObject others)
      rw [writeObject, writeObject, sorted_eq_of_perm distinct perm]

section Pairs

variable {α β : Type} {R : α → β → Prop} {S : α → α → Prop}

theorem exists_of_forall₂ {items : List α} {texts : List β} (all : List.Forall₂ R items texts) {text : β}
    (inTexts : text ∈ texts) : ∃ item ∈ items, R item text := by
  induction all with
  | nil => cases inTexts
  | cons first _ later =>
    rcases List.mem_cons.mp inTexts with rfl | inRest
    · exact ⟨_, List.mem_cons_self, first⟩
    · obtain ⟨item, inItems, related⟩ := later inRest
      exact ⟨item, List.mem_cons_of_mem _ inItems, related⟩

theorem forall₂_of_common {items others : List α} {texts : List β} (all : List.Forall₂ R items texts)
    (all' : List.Forall₂ R others texts)
    (each : ∀ item ∈ items, ∀ other ∈ others, ∀ text, R item text → R other text → S item other) :
    List.Forall₂ S items others := by
  induction all generalizing others with
  | nil =>
    cases all'
    exact .nil
  | cons first _ later =>
    cases all' with
    | cons first' rest' =>
      refine .cons (each _ List.mem_cons_self _ List.mem_cons_self _ first first') (later rest' ?_)
      intro item inItems other inOthers
      exact each item (List.mem_cons_of_mem _ inItems) other (List.mem_cons_of_mem _ inOthers)

end Pairs

theorem same_of_canonicalJson {a b : CanonicalValue} (jsonA : a.IsJson) (jsonB : b.IsJson)
    {s t : List Char} (first : canonicalJson a = .ok s) (second : canonicalJson b = .ok t)
    {rest later : List Char} (stops : Stops rest) (stops' : Stops later)
    (same : s ++ rest = t ++ later) : a.Same b ∧ s = t ∧ rest = later := by
  induction a using CanonicalValue.induction_parts generalizing b s t rest later with
  | step a ih =>
    have kinds := kind_eq first second same
    have sameText : ∀ {text : List Char}, a.Same b → s = text → t = text → a.Same b ∧ s = t ∧ rest = later := by
      rintro text alike rfl rfl
      exact ⟨alike, rfl, List.append_cancel_left same⟩
    cases jsonA with
    | null =>
      cases jsonB with
      | null =>
        cases first
        cases second
        exact sameText .null rfl rfl
      | boolean | number | string | array | object => cases kinds
    | boolean flag =>
      cases jsonB with
      | boolean flag' =>
        cases first
        cases second
        have flags : flag = flag' := by
          cases flag <;> cases flag'
          · rfl
          · cases congrArg List.head? same
          · cases congrArg List.head? same
          · rfl
        cases flags
        exact sameText (.boolean flag) rfl rfl
      | null | number | string | array | object => cases kinds
    | number value =>
      cases jsonB with
      | number value' =>
        cases first
        cases second
        have ends : ∀ {rest : List Char}, Stops rest →
            ∀ c, rest.head? = some c → ScriptDecimal.isNumberCharacter c = false := by
          intro rest stops c head
          rcases stops c head with rfl | rfl | rfl <;> decide
        obtain ⟨rfl, rests⟩ := ScriptDecimal.text_append_inj (ends stops) (ends stops') same
        exact ⟨.number value, rfl, rests⟩
      | null | boolean | string | array | object => cases kinds
    | string text =>
      cases jsonB with
      | string text' =>
        cases first
        cases second
        obtain ⟨rfl, rests⟩ := stringify_append_inj same
        exact ⟨.string text, rfl, rests⟩
      | null | boolean | number | array | object => cases kinds
    | @array items all =>
      cases jsonB with
      | @array others all' =>
        obtain ⟨texts, done, rfl⟩ := Except.map_ok_iff.mp first
        obtain ⟨texts', done', rfl⟩ := Except.map_ok_iff.mp second
        have written := canonicalItems_ok_iff.mp done
        have written' := canonicalItems_ok_iff.mp done'
        have shape : ∀ (texts : List (List Char)) (rest : List Char), writeArray texts ++ rest =
            '[' :: (ScriptString.joinChars ',' texts ++ ']' :: rest) := by
          intro texts rest
          simp [writeArray]
        have alike : ∀ text ∈ texts, ∀ text' ∈ texts', EndsAlike text text' := by
          intro text inTexts text' inOthers rest later stops stops' same
          obtain ⟨item, inItems, done⟩ := exists_of_forall₂ written inTexts
          obtain ⟨item', inItems', done'⟩ := exists_of_forall₂ written' inOthers
          exact (ih item inItems (all item inItems) (all' item' inItems') done done' stops stops' same).2
        rw [shape, shape] at same
        obtain ⟨rfl, rests⟩ := joined_inj (.inl rfl) (fun text inTexts => by
            obtain ⟨item, _, done⟩ := exists_of_forall₂ written inTexts
            exact starts_canonicalJson done)
          (fun text inTexts => by
            obtain ⟨item, _, done⟩ := exists_of_forall₂ written' inTexts
            exact starts_canonicalJson done)
          alike (List.cons.inj same).2
        refine ⟨.array (forall₂_of_common written written' ?_), rfl, rests⟩
        intro item inItems item' inOthers text done done'
        exact (ih item inItems (all item inItems) (all' item' inOthers) done done' stops_nil stops_nil rfl).1
      | null | boolean | number | string | object => cases kinds
    | @object record distinct all =>
      cases jsonB with
      | @object record' distinct' all' =>
        obtain ⟨entries, done, rfl⟩ := Except.map_ok_iff.mp first
        obtain ⟨entries', done', rfl⟩ := Except.map_ok_iff.mp second
        have shape : ∀ (entries : List (Units × List Char)) (rest : List Char),
            writeObject entries ++ rest = '{' :: (ScriptString.joinChars ','
              ((ScriptList.toSorted compareKeys entries).map writeEntry) ++ '}' :: rest) := by
          intro entries rest
          simp [writeObject]
        have part : ∀ {key : Units} {text : List Char}, (key, text) ∈ entries →
            ∃ value ∈ (CanonicalValue.object record).parts, value.IsJson ∧ canonicalJson value = .ok text := by
          intro key text inEntries
          obtain ⟨value, inRecord, defined, done⟩ := (mem_canonicalEntries done).mp inEntries
          exact ⟨value, List.mem_map.mpr ⟨_, inRecord, rfl⟩, all _ inRecord defined, done⟩
        have starts : ∀ (entries : List (Units × List Char)),
            ∀ text ∈ (ScriptList.toSorted compareKeys entries).map writeEntry, Starts text := by
          intro entries text inTexts
          obtain ⟨entry, _, rfl⟩ := List.mem_map.mp inTexts
          exact starts_stringify _ _
        have alike : ∀ text ∈ (ScriptList.toSorted compareKeys entries).map writeEntry,
            ∀ other ∈ (ScriptList.toSorted compareKeys entries').map writeEntry, EndsAlike text other := by
          intro text inTexts other inOthers
          obtain ⟨entry, inEntries, rfl⟩ := List.mem_map.mp inTexts
          obtain ⟨entry', inEntries', rfl⟩ := List.mem_map.mp inOthers
          apply endsAlike_writeEntry
          intro rest later stops stops' same
          obtain ⟨value, inParts, json, written⟩ := part (ScriptList.mem_toSorted.mp inEntries)
          obtain ⟨value', inRecord', defined', written'⟩ :=
            (mem_canonicalEntries done').mp (ScriptList.mem_toSorted.mp inEntries')
          exact (ih value inParts json (all' _ inRecord' defined') written written' stops stops' same).2
        rw [shape, shape] at same
        obtain ⟨texts, rests⟩ := joined_inj (.inr rfl) (starts entries) (starts entries') alike (List.cons.inj same).2
        have sorted := (List.map_injective_iff.mpr fun _ _ => writeEntry_inj) texts
        have mem : ∀ entry, entry ∈ entries ↔ entry ∈ entries' := by
          intro entry
          rw [← @ScriptList.mem_toSorted _ compareKeys, sorted, ScriptList.mem_toSorted]
        refine ⟨.object fun key => ?_, by rw [writeObject, writeObject, sorted], rests⟩
        have written : ∀ {text : List Char},
            (field record key ≠ .undefined ∧ canonicalJson (field record key) = .ok text) ↔
              field record' key ≠ .undefined ∧ canonicalJson (field record' key) = .ok text := by
          intro text
          rw [← mem_entries_iff_field distinct done, ← mem_entries_iff_field distinct' done', mem]
        by_cases none : field record key = .undefined
        · have none' : field record' key = .undefined := by
            by_contra defined
            obtain ⟨text, done⟩ := canonicalJson_total
              (((IsJson.object distinct' all').field key).resolve_right defined)
            exact (written.mpr ⟨defined, done⟩).1 none
          rw [none, none']
          exact .undefined
        · have json := ((IsJson.object distinct all).field key).resolve_right none
          obtain ⟨text, done⟩ := canonicalJson_total json
          obtain ⟨defined', done'⟩ := written.mp ⟨none, done⟩
          exact (ih _ (part_of_field none) json
            (((IsJson.object distinct' all').field key).resolve_right defined') done done' stops_nil
            stops_nil rfl).1
      | null | boolean | number | string | array => cases kinds

structure JsonValue where
  value : CanonicalValue
  isJson : value.IsJson

theorem JsonValue.isUndefined_eq (value : JsonValue) : value.value.isUndefined = false := by
  obtain ⟨value, json⟩ := value
  cases json <;> rfl

/-- `envelopeHash` and `bodyHash`; `sha256` gives the hash in hexadecimal. -/
def canonicalHash {δ : Type} (sha256 : ByteArray → δ) (value : CanonicalValue) : Except CanonicalError δ :=
  (canonicalBytes value).map sha256

structure ApprovalSubject where
  id : Units
  sender : Units
  recipient : Units
  direction : Units
  bodyHash : Units
  policyVersion : Units
deriving DecidableEq

def ApprovalSubject.value (subject : ApprovalSubject) : CanonicalValue :=
  .object [(units "id", .string subject.id), (units "from", .string subject.sender),
    (units "to", .string subject.recipient), (units "direction", .string subject.direction),
    (units "bodyHash", .string subject.bodyHash),
    (units "policyVersion", .string subject.policyVersion)]

def computeApprovalDigest {δ : Type} (sha256 : ByteArray → δ) (subject : ApprovalSubject) : Except CanonicalError δ :=
  canonicalHash sha256 subject.value

/-- An event of the audit chain (`AuditEvent`). -/
structure ChainEvent where
  seq : ScriptDecimal
  ts : ScriptDecimal
  type : Units
  payload : JsonValue

def ChainEvent.value (event : ChainEvent) : CanonicalValue :=
  .object [(units "seq", .number event.seq), (units "ts", .number event.ts),
    (units "type", .string event.type), (units "payload", event.payload.value)]

/-- The same event up to the order of keys and fields of the payload that are undefined. -/
structure ChainEvent.Same (event other : ChainEvent) : Prop where
  seq : event.seq = other.seq
  ts : event.ts = other.ts
  type : event.type = other.type
  payload : event.payload.value.Same other.payload.value

inductive ChainError
  | invalidAuditHash
  | canonical (error : CanonicalError)
deriving DecidableEq, Repr

/-- `fromHex`: the bytes of a hash. -/
def fromHex (value : String) : Except ChainError (List UInt8) :=
  let digits := value.toList.filterMap ScriptJson.hexValue?
  if value.toList.length = 64 ∧ digits.length = 64 ∧ value.toList.all (fun c => !c.isUpper) = true then
    .ok ((List.range 32).map fun index =>
      UInt8.ofNat (digits.getD (2 * index) 0 * 16 + digits.getD (2 * index + 1) 0))
  else .error .invalidAuditHash

def previousBytes (previous : String) : Except ChainError ByteArray :=
  if previous = "" then .ok ByteArray.empty
  else (fromHex previous).map fun bytes => ⟨bytes.toArray⟩

def hashEntry {δ : Type} (sha256 : ByteArray → δ) (previous : String) (event : ChainEvent) : Except ChainError δ := do
  let prefixBytes ← previousBytes previous
  let eventBytes ← (canonicalBytes event.value).mapError .canonical
  return sha256 (prefixBytes ++ eventBytes)

theorem canonicalJson_eq_iff (a b : JsonValue) :
    canonicalJson a.value = canonicalJson b.value ↔ a.value.Same b.value := by
  constructor
  · intro same
    obtain ⟨text, done⟩ := canonicalJson_total a.isJson
    exact (same_of_canonicalJson a.isJson b.isJson done (same.symm.trans done) stops_nil stops_nil rfl).1
  · exact canonicalJson_of_same (.inl a.isJson) (.inl b.isJson)

theorem canonicalBytes_total (value : JsonValue) : ∃ bytes, canonicalBytes value.value = .ok bytes := by
  obtain ⟨text, done⟩ := canonicalJson_total value.isJson
  exact ⟨_, by rw [canonicalBytes, done]; rfl⟩

theorem canonicalBytes_eq_iff (a b : JsonValue) :
    canonicalBytes a.value = canonicalBytes b.value ↔ a.value.Same b.value := by
  rw [← canonicalJson_eq_iff]
  constructor
  · intro same
    obtain ⟨s, first⟩ := canonicalJson_total a.isJson
    obtain ⟨t, second⟩ := canonicalJson_total b.isJson
    unfold canonicalBytes at same
    rw [first, second] at same
    have bytes : (String.ofList s).toUTF8 = (String.ofList t).toUTF8 := Except.ok.inj same
    rw [String.toUTF8_eq_toByteArray, String.toUTF8_eq_toByteArray] at bytes
    have texts := congrArg String.toList (String.toByteArray_inj.mp bytes)
    rw [String.toList_ofList, String.toList_ofList] at texts
    rw [first, second, texts]
  · intro same
    rw [canonicalBytes, canonicalBytes, same]

theorem isJson_object {record : List (Units × CanonicalValue)}
    (distinct : (record.map Prod.fst).Nodup) (all : ∀ entry ∈ record, entry.2.IsJson) :
    (CanonicalValue.object record).IsJson :=
  .object distinct fun entry inRecord _ => all entry inRecord

theorem distinct_approval :
    [units "id", units "from", units "to", units "direction", units "bodyHash",
      units "policyVersion"].Nodup := by
  decide +kernel

theorem distinct_audit : [units "seq", units "ts", units "type", units "payload"].Nodup := by
  decide +kernel

def ApprovalSubject.json (subject : ApprovalSubject) : JsonValue where
  value := subject.value
  isJson := isJson_object distinct_approval (by
    intro entry inRecord
    simp only [List.mem_cons, List.not_mem_nil, or_false] at inRecord
    rcases inRecord with rfl | rfl | rfl | rfl | rfl | rfl <;> exact .string _)

def ChainEvent.json (event : ChainEvent) : JsonValue where
  value := event.value
  isJson := isJson_object distinct_audit (by
    intro entry inRecord
    simp only [List.mem_cons, List.not_mem_nil, or_false] at inRecord
    rcases inRecord with rfl | rfl | rfl | rfl
    · exact .number _
    · exact .number _
    · exact .string _
    · exact event.payload.isJson)

theorem same_field {record other : List (Units × CanonicalValue)}
    (same : (CanonicalValue.object record).Same (.object other))
    (distinct : (record.map Prod.fst).Nodup) (distinct' : (other.map Prod.fst).Nodup) {key : Units}
    {value value' : CanonicalValue} (inRecord : (key, value) ∈ record)
    (inOther : (key, value') ∈ other) : value.Same value' := by
  cases same with
  | object all =>
    have fields := all key
    rw [field_of_mem distinct inRecord, field_of_mem distinct' inOther] at fields
    exact fields

theorem eq_of_same_string {a b : Units} (same : (CanonicalValue.string a).Same (.string b)) : a = b := by
  cases same
  rfl

theorem eq_of_same_number {a b : ScriptDecimal} (same : (CanonicalValue.number a).Same (.number b)) : a = b := by
  cases same
  rfl

theorem approval_same_iff (subject other : ApprovalSubject) : subject.value.Same other.value ↔ subject = other := by
  constructor
  · intro same
    have each : ∀ {key : Units} {a b : Units},
        (key, CanonicalValue.string a) ∈ [(units "id", .string subject.id),
          (units "from", .string subject.sender), (units "to", .string subject.recipient),
          (units "direction", .string subject.direction), (units "bodyHash", .string subject.bodyHash),
          (units "policyVersion", .string subject.policyVersion)] →
        (key, CanonicalValue.string b) ∈ [(units "id", .string other.id),
          (units "from", .string other.sender), (units "to", .string other.recipient),
          (units "direction", .string other.direction), (units "bodyHash", .string other.bodyHash),
          (units "policyVersion", .string other.policyVersion)] → a = b :=
      fun first second =>
        eq_of_same_string (same_field same distinct_approval distinct_approval first second)
    obtain ⟨id, sender, recipient, direction, bodyHash, policyVersion⟩ := subject
    obtain ⟨id', sender', recipient', direction', bodyHash', policyVersion'⟩ := other
    rw [ApprovalSubject.mk.injEq]
    refine ⟨@each (units "id") _ _ (by simp) (by simp), ?_, ?_, ?_, ?_, ?_⟩
    · exact @each (units "from") _ _ (by simp) (by simp)
    · exact @each (units "to") _ _ (by simp) (by simp)
    · exact @each (units "direction") _ _ (by simp) (by simp)
    · exact @each (units "bodyHash") _ _ (by simp) (by simp)
    · exact @each (units "policyVersion") _ _ (by simp) (by simp)
  · rintro rfl
    exact (canonicalJson_eq_iff subject.json subject.json).mp rfl

theorem audit_same_iff (event other : ChainEvent) : event.value.Same other.value ↔ event.Same other := by
  constructor
  · intro same
    have each := @same_field _ _ same distinct_audit distinct_audit
    exact
      { seq := eq_of_same_number (@each (units "seq") _ _ (by simp) (by simp))
        ts := eq_of_same_number (@each (units "ts") _ _ (by simp) (by simp))
        type := eq_of_same_string (@each (units "type") _ _ (by simp) (by simp))
        payload := @each (units "payload") _ _ (by simp) (by simp) }
  · intro same
    apply (canonicalJson_eq_iff event.json other.json).mp
    have payloads := (canonicalJson_eq_iff event.payload other.payload).mpr same.payload
    have defined : event.payload.value.isUndefined = other.payload.value.isUndefined := by
      rw [event.payload.isUndefined_eq, other.payload.isUndefined_eq]
    change canonicalJson event.value = canonicalJson other.value
    simp only [ChainEvent.value, canonicalJson, canonicalEntries, same.seq, same.ts, same.type, payloads, defined]

/-- Canonical JSON tells JSON values apart, and so do the hashes of it: of values, of what is approved,
and of events of the audit chain. -/
theorem canonicalJson_injective {δ : Type} (sha256 : ByteArray → δ) (collisionFree : Function.Injective sha256) :
    (∀ a b : JsonValue, (∃ text, canonicalJson a.value = .ok text) ∧
      (canonicalJson a.value = canonicalJson b.value ↔ a.value.Same b.value) ∧
      (canonicalHash sha256 a.value = canonicalHash sha256 b.value ↔ a.value.Same b.value)) ∧
    (∀ subject other : ApprovalSubject,
      computeApprovalDigest sha256 subject = computeApprovalDigest sha256 other ↔ subject = other) ∧
    (∀ previous before bytes bytes', previousBytes previous = .ok bytes →
      previousBytes before = .ok bytes' → bytes.size = bytes'.size → ∀ event other : ChainEvent,
        (hashEntry sha256 previous event = hashEntry sha256 before other ↔ bytes = bytes' ∧ event.Same other)) := by
  have hashes : ∀ a b : JsonValue,
      canonicalHash sha256 a.value = canonicalHash sha256 b.value ↔ a.value.Same b.value := by
    intro a b
    rw [← canonicalBytes_eq_iff]
    obtain ⟨bytes, first⟩ := canonicalBytes_total a
    obtain ⟨bytes', second⟩ := canonicalBytes_total b
    rw [canonicalHash, canonicalHash, first, second]
    constructor
    · intro same
      rw [collisionFree (Except.ok.inj same)]
    · intro same
      rw [Except.ok.inj same]
  refine ⟨fun a b => ⟨canonicalJson_total a.isJson, canonicalJson_eq_iff a b, hashes a b⟩,
    fun subject other => ?_, fun previous before bytes bytes' done done' sized event other => ?_⟩
  · exact (hashes subject.json other.json).trans (approval_same_iff subject other)
  · refine Iff.trans ?_ (and_congr_right fun _ =>
      (canonicalBytes_eq_iff event.json other.json).trans (audit_same_iff event other))
    obtain ⟨eventBytes, first⟩ := canonicalBytes_total event.json
    obtain ⟨otherBytes, second⟩ := canonicalBytes_total other.json
    have entry : ∀ {previous : String} {bytes eventBytes : ByteArray} {event : ChainEvent},
        previousBytes previous = .ok bytes → canonicalBytes event.value = .ok eventBytes →
        hashEntry sha256 previous event = .ok (sha256 (bytes ++ eventBytes)) := by
      intro previous bytes eventBytes event done written
      rw [hashEntry, done, written]
      rfl
    rw [entry done first, entry done' second, first, second]
    constructor
    · intro same
      have all := collisionFree (Except.ok.inj same)
      have prefixes := ByteArray.append_inj_left all sized
      rw [prefixes, ByteArray.append_right_inj] at all
      exact ⟨prefixes, congrArg Except.ok all⟩
    · rintro ⟨rfl, same⟩
      rw [Except.ok.inj same]

/-- Two approvals of one body for different recipients, and an event without payload and the next one. -/
theorem canonicalJson_injective_concrete :
    computeApprovalDigest id ⟨units "1", units "a", units "b", units "outbound", units "h", units "p"⟩ ≠
        computeApprovalDigest id ⟨units "1", units "a", units "c", units "outbound", units "h", units "p"⟩ ∧
      hashEntry id "" ⟨⟨false, 1, 0, .inl (by decide)⟩, ⟨false, 5, 0, .inl (by decide)⟩, units "send",
          ⟨.null, .null⟩⟩ ≠
        hashEntry id "" ⟨⟨false, 2, 0, .inl (by decide)⟩, ⟨false, 5, 0, .inl (by decide)⟩, units "send",
          ⟨.null, .null⟩⟩ := by
  obtain ⟨_, digests, entries⟩ := canonicalJson_injective _ (@Function.injective_id ByteArray)
  constructor
  · intro same
    have recipients := congrArg ApprovalSubject.recipient ((digests _ _).mp same)
    exact absurd recipients (by decide +kernel)
  · intro same
    have events := ((entries "" "" _ _ rfl rfl rfl _ _).mp same).2
    exact absurd (congrArg ScriptDecimal.significand events.seq) (by decide)

end PlatformClaw.Reef
