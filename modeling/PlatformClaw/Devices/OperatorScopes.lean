import PlatformClaw.Library.ScriptSet
import PlatformClaw.Library.ScriptString

/-! # Roles and scopes of devices

Scopes imply one another: an administrator may do whatever an operator may, and who may write may
read and talk. Lists of scopes are normalized with what they imply; a request is compared with a grant
under the same implications.
-/

namespace ScriptString

/-- What trimming leaves does not begin with white space. -/
theorem dropWhile_dropWhile {α : Type} (p : α → Bool) (items : List α) :
    (items.dropWhile p).dropWhile p = items.dropWhile p := by
  induction items with
  | nil => rfl
  | cons first rest ih =>
    cases skipped : p first with
    | true => simpa [skipped] using ih
    | false => simp [skipped]

theorem trim_trim (text : String) : trim (trim text) = trim text := by
  have front : ∀ items : List Char, ((items.reverse.dropWhile isWhitespace).reverse).dropWhile
      isWhitespace = ((items.dropWhile isWhitespace).reverse.dropWhile isWhitespace).reverse := by
    intro items
    induction items with
    | nil => rfl
    | cons first rest ih =>
      cases skipped : isWhitespace first with
      | true =>
        rw [List.dropWhile_cons_of_pos skipped, ← ih, List.reverse_cons, List.dropWhile_append]
        cases blank : (rest.reverse.dropWhile isWhitespace).isEmpty with
        | true =>
          have none := List.isEmpty_iff.mp blank
          simp [none, skipped]
        | false => simp [List.reverse_append, skipped]
      | false =>
        rw [List.dropWhile_cons_of_neg (by simp [skipped]), List.reverse_cons, List.dropWhile_append]
        cases blank : (rest.reverse.dropWhile isWhitespace).isEmpty with
        | true => simp [skipped]
        | false => simp [List.reverse_append, skipped]
  unfold trim
  rw [String.toList_ofList, front (text.toList.dropWhile isWhitespace), dropWhile_dropWhile,
    List.reverse_reverse, dropWhile_dropWhile]

theorem toSorted_perm (texts : List String) : (toSorted texts).Perm texts :=
  List.mergeSort_perm _ _

@[simp] theorem mem_toSorted {texts : List String} {text : String} :
    text ∈ toSorted texts ↔ text ∈ texts :=
  (toSorted_perm texts).mem_iff

theorem toSorted_toSorted (texts : List String) : toSorted (toSorted texts) = toSorted texts := by
  apply List.mergeSort_of_pairwise
  apply List.pairwise_mergeSort
  · intro left middle right first second
    exact upTo_trans first second
  · intro left right
    simpa using upTo_total (codeUnits left) (codeUnits right)

end ScriptString

namespace PlatformClaw.Devices

open ScriptString (trim toSorted)

def startsWith (text first : String) : Bool :=
  first.toList.isPrefixOf text.toList

/-- The texts that are not blank, trimmed and without repetitions. -/
def trimmedSet (texts : List String) : ScriptSet :=
  ScriptSet.ofList ((texts.map trim).filter (· ≠ ""))

def normalizeDeviceAuthRole (role : String) : String :=
  trim role

def withImpliedScopes (scopes : ScriptSet) : ScriptSet :=
  if scopes.rows.contains "operator.admin" then (scopes.add "operator.read").add "operator.write"
  else if scopes.rows.contains "operator.write" then scopes.add "operator.read"
  else scopes

def normalizeDeviceAuthScopes (scopes : List String) : List String :=
  toSorted (withImpliedScopes (trimmedSet scopes)).rows

def operatorScopeSatisfied (requestedScope : String) (granted : ScriptSet) : Bool :=
  if startsWith requestedScope "operator." = false then false
  else if granted.rows.contains "operator.admin" then true
  else if requestedScope = "operator.read" then
    granted.rows.contains "operator.read" || granted.rows.contains "operator.write"
  else if requestedScope = "operator.write" then granted.rows.contains "operator.write"
  else if requestedScope = "operator.talk" then
    granted.rows.contains "operator.talk" || granted.rows.contains "operator.write"
  else granted.rows.contains requestedScope

def roleScopesAllow (role : String) (requestedScopes allowedScopes : List String) : Bool :=
  if (trimmedSet requestedScopes).rows.isEmpty then true
  else if (trimmedSet allowedScopes).rows.isEmpty then false
  else if trim role ≠ "operator" then
    (trimmedSet requestedScopes).rows.all fun scope =>
      startsWith scope (trim role ++ ".") && (trimmedSet allowedScopes).rows.contains scope
  else
    (trimmedSet requestedScopes).rows.all (operatorScopeSatisfied · (trimmedSet allowedScopes))

def resolveMissingRequestedScope (role : String) (requestedScopes allowedScopes : List String) : Option String :=
  requestedScopes.find? fun scope => !roleScopesAllow role [scope] allowedScopes

def resolveScopeOutsideRequestedRoles (requestedRoles requestedScopes : List String) : Option String :=
  requestedScopes.find? fun scope =>
    !requestedRoles.any fun role => roleScopesAllow role [scope] [scope]

def Grants (held requested : String) : Prop :=
  startsWith requested "operator." = true ∧
    (held = "operator.admin" ∨ held = requested ∨
      held = "operator.write" ∧ (requested = "operator.read" ∨ requested = "operator.talk"))

def Covered (role requested : String) (held : List String) : Prop :=
  if role = "operator" then ∃ scope ∈ held, Grants scope requested
  else startsWith requested (role ++ ".") = true ∧ requested ∈ held

theorem Grants.trans {first second third : String} (here : Grants first second)
    (there : Grants second third) : Grants first third := by
  obtain ⟨_, admin | same | ⟨writes, read | talk⟩⟩ := here
  · exact ⟨there.1, .inl admin⟩
  · exact same ▸ there
  · obtain ⟨isOperator, admin | same | ⟨writes', _⟩⟩ := there
    · exact absurd (read.symm.trans admin) (by decide)
    · exact ⟨isOperator, .inr (.inr ⟨writes, .inl (same.symm.trans read)⟩)⟩
    · exact absurd (read.symm.trans writes') (by decide)
  · obtain ⟨isOperator, admin | same | ⟨writes', _⟩⟩ := there
    · exact absurd (talk.symm.trans admin) (by decide)
    · exact ⟨isOperator, .inr (.inr ⟨writes, .inr (same.symm.trans talk)⟩)⟩
    · exact absurd (talk.symm.trans writes') (by decide)

@[simp] theorem contains_rows {set : ScriptSet} {text : String} :
    set.rows.contains text = true ↔ text ∈ set := by
  rw [List.contains_iff_mem]
  rfl

@[simp] theorem mem_trimmedSet {texts : List String} {text : String} :
    text ∈ trimmedSet texts ↔ text ≠ "" ∧ ∃ given ∈ texts, trim given = text := by
  rw [trimmedSet, ScriptSet.mem_ofList, List.mem_filter, List.mem_map, decide_eq_true_eq, and_comm]

theorem mem_withImpliedScopes {scopes : ScriptSet} {scope : String} : scope ∈ withImpliedScopes scopes ↔
      scope ∈ scopes ∨
        scope = "operator.read" ∧ ("operator.admin" ∈ scopes ∨ "operator.write" ∈ scopes) ∨
        scope = "operator.write" ∧ "operator.admin" ∈ scopes := by
  unfold withImpliedScopes
  split
  · rename_i admin
    rw [contains_rows] at admin
    simp only [ScriptSet.mem_add, admin, true_or, and_true]
    constructor
    · rintro (write | read | held)
      · exact .inr (.inr write)
      · exact .inr (.inl read)
      · exact .inl held
    · rintro (held | read | write)
      · exact .inr (.inr held)
      · exact .inr (.inl read)
      · exact .inl write
  · rename_i noAdmin
    rw [contains_rows] at noAdmin
    split
    · rename_i write
      rw [contains_rows] at write
      simp only [ScriptSet.mem_add, noAdmin, write, false_or, and_true, and_false, or_false]
      exact or_comm
    · rename_i noWrite
      rw [contains_rows] at noWrite
      simp [noAdmin, noWrite]

theorem operatorScopeSatisfied_iff {requested : String} {granted : ScriptSet} :
    operatorScopeSatisfied requested granted = true ↔ ∃ held ∈ granted, Grants held requested := by
  unfold operatorScopeSatisfied
  split
  · rename_i foreign
    constructor
    · intro impossible
      cases impossible
    · rintro ⟨_, _, isOperator, _⟩
      cases foreign.symm.trans isOperator
  rename_i isOperator
  rw [Bool.not_eq_false] at isOperator
  split
  · rename_i admin
    exact ⟨fun _ => ⟨_, contains_rows.mp admin, isOperator, .inl rfl⟩, fun _ => rfl⟩
  rename_i noAdmin
  rw [contains_rows] at noAdmin
  split
  · rename_i read
    subst read
    rw [Bool.or_eq_true, contains_rows, contains_rows]
    constructor
    · rintro (read | write)
      · exact ⟨_, read, isOperator, .inr (.inl rfl)⟩
      · exact ⟨_, write, isOperator, .inr (.inr ⟨rfl, .inl rfl⟩)⟩
    · rintro ⟨held, inSet, _, rfl | rfl | ⟨rfl, _⟩⟩
      · exact absurd inSet noAdmin
      · exact .inl inSet
      · exact .inr inSet
  rename_i notRead
  split
  · rename_i write
    subst write
    rw [contains_rows]
    constructor
    · exact fun write => ⟨_, write, isOperator, .inr (.inl rfl)⟩
    · rintro ⟨held, inSet, _, rfl | rfl | ⟨rfl, _⟩⟩
      · exact absurd inSet noAdmin
      · exact inSet
      · exact inSet
  rename_i notWrite
  split
  · rename_i talk
    subst talk
    rw [Bool.or_eq_true, contains_rows, contains_rows]
    constructor
    · rintro (talk | write)
      · exact ⟨_, talk, isOperator, .inr (.inl rfl)⟩
      · exact ⟨_, write, isOperator, .inr (.inr ⟨rfl, .inr rfl⟩)⟩
    · rintro ⟨held, inSet, _, rfl | rfl | ⟨rfl, _⟩⟩
      · exact absurd inSet noAdmin
      · exact .inl inSet
      · exact .inr inSet
  · rename_i notTalk
    rw [contains_rows]
    constructor
    · exact fun held => ⟨_, held, isOperator, .inr (.inl rfl)⟩
    · rintro ⟨held, inSet, _, rfl | rfl | ⟨_, read | talk⟩⟩
      · exact absurd inSet noAdmin
      · exact inSet
      · exact absurd read notRead
      · exact absurd talk notTalk

theorem grants_withImpliedScopes {scopes : ScriptSet} {requested : String} :
    (∃ held ∈ withImpliedScopes scopes, Grants held requested) ↔ ∃ held ∈ scopes, Grants held requested := by
  constructor
  · rintro ⟨held, inSet, grants⟩
    rcases mem_withImpliedScopes.mp inSet with given | ⟨rfl, admin | write⟩ | ⟨rfl, admin⟩
    · exact ⟨held, given, grants⟩
    · exact ⟨_, admin, grants.1, .inl rfl⟩
    · exact ⟨_, write, Grants.trans ⟨by decide, .inr (.inr ⟨rfl, .inl rfl⟩)⟩ grants⟩
    · exact ⟨_, admin, grants.1, .inl rfl⟩
  · rintro ⟨held, given, grants⟩
    exact ⟨held, mem_withImpliedScopes.mpr (.inl given), grants⟩

theorem roleScopesAllow_iff {role : String} {requestedScopes allowedScopes : List String} :
    roleScopesAllow role requestedScopes allowedScopes = true ↔ ∀ scope ∈ trimmedSet requestedScopes,
        Covered (trim role) scope (trimmedSet allowedScopes).rows := by
  unfold roleScopesAllow
  split
  · rename_i empty
    refine ⟨fun _ scope requested => ?_, fun _ => rfl⟩
    have inRows : scope ∈ (trimmedSet requestedScopes).rows := requested
    rw [List.isEmpty_iff.mp empty] at inRows
    cases inRows
  rename_i some
  split
  · rename_i none
    constructor
    · intro impossible
      cases impossible
    · intro covered
      cases rows : (trimmedSet requestedScopes).rows with
      | nil => exact absurd (List.isEmpty_iff.mpr rows) some
      | cons scope rest =>
        have first := covered scope (by
          change scope ∈ (trimmedSet requestedScopes).rows
          rw [rows]
          exact List.mem_cons_self)
        unfold Covered at first
        rw [List.isEmpty_iff.mp none] at first
        split at first
        · obtain ⟨_, inNone, _⟩ := first
          cases inNone
        · cases first.2
  split
  · rename_i other
    rw [List.all_eq_true]
    constructor
    · intro all scope requested
      unfold Covered
      rw [if_neg other]
      have allowed := all scope requested
      rw [Bool.and_eq_true, contains_rows] at allowed
      exact allowed
    · intro covered scope requested
      have allowed := covered scope requested
      unfold Covered at allowed
      rw [if_neg other] at allowed
      rw [Bool.and_eq_true, contains_rows]
      exact allowed
  · rename_i operator
    have isOperator : trim role = "operator" := Decidable.not_not.mp operator
    rw [List.all_eq_true]
    constructor
    · intro all scope requested
      unfold Covered
      rw [if_pos isOperator]
      exact operatorScopeSatisfied_iff.mp (all scope requested)
    · intro covered scope requested
      have allowed := covered scope requested
      unfold Covered at allowed
      rw [if_pos isOperator] at allowed
      exact operatorScopeSatisfied_iff.mpr allowed

theorem trim_of_mem {texts : List String} {text : String} (inSet : text ∈ trimmedSet texts) :
    trim text = text ∧ text ≠ "" := by
  obtain ⟨some, given, _, rfl⟩ := mem_trimmedSet.mp inSet
  exact ⟨ScriptString.trim_trim given, some⟩

theorem rows_add_new {set : ScriptSet} {text : String} (new : text ∉ set) :
    (set.add text).rows = set.rows ++ [text] := by
  have free : set.lookup (id text) = none := by
    apply Table.lookup_eq_none_iff.mpr
    intro row inSet same
    have isText : row = text := same
    exact new (isText ▸ inSet)
  obtain ⟨inserted, done⟩ := Option.isSome_iff_exists.mp (Table.insert?_isSome_iff.mpr free)
  rw [ScriptSet.add, done, Option.getD_some, Table.insert?_rows done]

theorem add_old {set : ScriptSet} {text : String} (old : text ∈ set) : set.add text = set := by
  unfold ScriptSet.add
  cases done : set.insert? text with
  | none => rfl
  | some inserted =>
    have free := Table.insert?_isSome_iff.mp (Option.isSome_iff_exists.mpr ⟨inserted, done⟩)
    exact absurd rfl (Table.lookup_eq_none_iff.mp free text old)

theorem rows_ofList_of_nodup {texts : List String} (distinct : texts.Nodup) :
    (ScriptSet.ofList texts).rows = texts := by
  have added : ∀ (set : ScriptSet), texts.Nodup → (∀ text ∈ texts, text ∉ set) →
      (set.addAll texts).rows = set.rows ++ texts := by
    clear distinct
    induction texts with
    | nil =>
      intro set _ _
      exact (List.append_nil _).symm
    | cons first rest ih =>
      intro set distinct apart
      obtain ⟨once, distinct⟩ := List.nodup_cons.mp distinct
      have new := apart first List.mem_cons_self
      change ((set.add first).addAll rest).rows = _
      rw [ih (set.add first) distinct, rows_add_new new, List.append_assoc, List.singleton_append]
      intro text inRest inSet
      cases ScriptSet.mem_add.mp inSet with
      | inl same => exact once (same ▸ inRest)
      | inr old => exact apart text (List.mem_cons_of_mem _ inRest) old
  rw [ScriptSet.ofList, added Table.empty distinct fun text _ => Table.not_mem_empty text]
  exact List.nil_append _

theorem rows_trimmedSet {texts : List String} (distinct : texts.Nodup)
    (trimmed : ∀ text ∈ texts, trim text = text ∧ text ≠ "") : (trimmedSet texts).rows = texts := by
  have same : (texts.map trim).filter (· ≠ "") = texts := by
    have kept : texts.map trim = texts := by
      calc texts.map trim = texts.map id := List.map_congr_left fun text inTexts =>
            (trimmed text inTexts).1
        _ = texts := List.map_id texts
    rw [kept]
    apply List.filter_eq_self.mpr
    intro text inTexts
    exact decide_eq_true (trimmed text inTexts).2
  rw [trimmedSet, same, rows_ofList_of_nodup distinct]

theorem nodup_toSorted {set : ScriptSet} : (toSorted set.rows).Nodup :=
  (ScriptString.toSorted_perm set.rows).nodup_iff.mpr set.nodup

/-- A list that is sorted, trimmed and has what it implies. -/
structure NormalScopes (scopes : List String) : Prop where
  sorted : toSorted scopes = scopes
  distinct : scopes.Nodup
  trimmed : ∀ scope ∈ scopes, trim scope = scope ∧ scope ≠ ""
  adminRead : "operator.admin" ∈ scopes → "operator.read" ∈ scopes
  adminWrite : "operator.admin" ∈ scopes → "operator.write" ∈ scopes
  writeRead : "operator.write" ∈ scopes → "operator.read" ∈ scopes

theorem mem_normalizeDeviceAuthScopes {scopes : List String} {scope : String} :
    scope ∈ normalizeDeviceAuthScopes scopes ↔ scope ∈ withImpliedScopes (trimmedSet scopes) := by
  rw [normalizeDeviceAuthScopes, ScriptString.mem_toSorted]
  rfl

theorem normal_normalizeDeviceAuthScopes (scopes : List String) :
    NormalScopes (normalizeDeviceAuthScopes scopes) where
  sorted := ScriptString.toSorted_toSorted _
  distinct := nodup_toSorted
  trimmed scope inScopes := by
    rcases mem_withImpliedScopes.mp (mem_normalizeDeviceAuthScopes.mp inScopes) with
      given | ⟨rfl, _⟩ | ⟨rfl, _⟩
    · exact trim_of_mem given
    · exact ⟨by decide +kernel, by decide⟩
    · exact ⟨by decide +kernel, by decide⟩
  adminRead admin := by
    rw [mem_normalizeDeviceAuthScopes, mem_withImpliedScopes] at admin ⊢
    rcases admin with given | ⟨impossible, _⟩ | ⟨impossible, _⟩
    · exact .inr (.inl ⟨rfl, .inl given⟩)
    · exact absurd impossible (by decide)
    · exact absurd impossible (by decide)
  adminWrite admin := by
    rw [mem_normalizeDeviceAuthScopes, mem_withImpliedScopes] at admin ⊢
    rcases admin with given | ⟨impossible, _⟩ | ⟨impossible, _⟩
    · exact .inr (.inr ⟨rfl, given⟩)
    · exact absurd impossible (by decide)
    · exact absurd impossible (by decide)
  writeRead write := by
    rw [mem_normalizeDeviceAuthScopes, mem_withImpliedScopes] at write ⊢
    rcases write with given | ⟨impossible, _⟩ | ⟨_, admin⟩
    · exact .inr (.inl ⟨rfl, .inr given⟩)
    · exact absurd impossible (by decide)
    · exact .inr (.inl ⟨rfl, .inl admin⟩)

theorem withImpliedScopes_of_normal {set : ScriptSet} (normal : NormalScopes set.rows) :
    withImpliedScopes set = set := by
  unfold withImpliedScopes
  split
  · rename_i admin
    rw [contains_rows] at admin
    have read : set.add "operator.read" = set := add_old (normal.adminRead admin)
    have write : set.add "operator.write" = set := add_old (normal.adminWrite admin)
    rw [read, write]
  · split
    · rename_i write
      rw [contains_rows] at write
      exact add_old (normal.writeRead write)
    · rfl

theorem NormalScopes.normalize {scopes : List String} (normal : NormalScopes scopes) :
    normalizeDeviceAuthScopes scopes = scopes := by
  have rows := rows_trimmedSet normal.distinct normal.trimmed
  rw [normalizeDeviceAuthScopes, withImpliedScopes_of_normal (by rw [rows]; exact normal), rows, normal.sorted]

theorem mem_trimmedSet_normalize {scopes : List String} {scope : String} :
    scope ∈ trimmedSet (normalizeDeviceAuthScopes scopes) ↔ scope ∈ withImpliedScopes (trimmedSet scopes) := by
  have normal := normal_normalizeDeviceAuthScopes scopes
  rw [← mem_normalizeDeviceAuthScopes, ← contains_rows, rows_trimmedSet normal.distinct normal.trimmed,
    List.contains_iff_mem]

theorem role_of_startsWith (owner name : String) {role : String} (single : '.' ∉ owner.toList)
    (plain : '.' ∉ name.toList)
    (begins : (role ++ ".").toList <+: owner.toList ++ '.' :: name.toList) : role = owner := by
  obtain ⟨rest, same⟩ := begins
  have point : ".".toList = ['.'] := rfl
  rw [String.toList_append, point, List.append_assoc, List.singleton_append] at same
  apply String.toList_inj.mp
  rcases List.append_eq_append_iff.mp same with ⟨between, isOwner, dot⟩ | ⟨between, isRole, dot⟩
  · cases between with
    | nil => rw [isOwner, List.append_nil]
    | cons _ later =>
      cases dot
      exact absurd (isOwner ▸ by simp) single
  · cases between with
    | nil => rw [isRole, List.append_nil]
    | cons _ later =>
      obtain ⟨_, later⟩ := List.cons.inj dot
      exact absurd (later ▸ by simp) plain

theorem Covered.trans {role requested : String} {held granted : List String}
    (here : Covered role requested held) (there : ∀ scope ∈ held, Covered role scope granted) :
    Covered role requested granted := by
  unfold Covered at here ⊢
  split
  · rename_i operator
    rw [if_pos operator] at here
    obtain ⟨scope, inHeld, grants⟩ := here
    have above := there scope inHeld
    rw [Covered, if_pos operator] at above
    obtain ⟨top, inGranted, grantsScope⟩ := above
    exact ⟨top, inGranted, grantsScope.trans grants⟩
  · rename_i other
    rw [if_neg other] at here
    have above := there requested here.2
    rwa [Covered, if_neg other] at above

theorem Covered.implied {role scope implied : String} {held : List String}
    (covered : Covered role scope held) (grants : Grants scope implied)
    (stronger : scope = "operator.admin" ∨ scope = "operator.write") : Covered role implied held := by
  unfold Covered at covered ⊢
  split
  · rename_i operator
    rw [if_pos operator] at covered
    obtain ⟨top, inHeld, grantsScope⟩ := covered
    exact ⟨top, inHeld, grantsScope.trans grants⟩
  · rename_i other
    rw [if_neg other] at covered
    have begins := List.isPrefixOf_iff_prefix.mp covered.1
    rcases stronger with rfl | rfl
    · exact absurd (role_of_startsWith "operator" "admin" (by decide) (by decide) begins) other
    · exact absurd (role_of_startsWith "operator" "write" (by decide) (by decide) begins) other

theorem covered_normalize {role requested : String} {held : List String} :
    Covered role requested (trimmedSet (normalizeDeviceAuthScopes held)).rows ↔
      Covered role requested (trimmedSet held).rows := by
  unfold Covered
  split
  · refine Iff.trans ?_ grants_withImpliedScopes
    exact exists_congr fun scope => and_congr_left fun _ => mem_trimmedSet_normalize
  · rename_i other
    apply and_congr_right
    intro begins
    refine (mem_trimmedSet_normalize.trans mem_withImpliedScopes).trans (or_iff_left ?_)
    have prefixed := List.isPrefixOf_iff_prefix.mp begins
    rintro (⟨rfl, _⟩ | ⟨rfl, _⟩)
    · exact other (role_of_startsWith "operator" "read" (by decide) (by decide) prefixed)
    · exact other (role_of_startsWith "operator" "write" (by decide) (by decide) prefixed)

/-- What a role may do with scopes composes: who is allowed what another list allows is allowed
    what that list is allowed, normalizing either side changes nothing, and a scope is reported
    missing exactly when the request is not allowed. -/
theorem scope_checks_compose (role : String) :
    (∀ requested held granted, roleScopesAllow role requested held = true →
      roleScopesAllow role held granted = true → roleScopesAllow role requested granted = true) ∧
    (∀ requested granted, roleScopesAllow role (normalizeDeviceAuthScopes requested) granted =
        roleScopesAllow role requested granted ∧
      roleScopesAllow role requested (normalizeDeviceAuthScopes granted) = roleScopesAllow role requested granted) ∧
    ∀ requested granted, resolveMissingRequestedScope role requested granted = none ↔
      roleScopesAllow role requested granted = true := by
  refine ⟨?_, ?_, ?_⟩
  · intro requested held granted here there
    rw [roleScopesAllow_iff] at here there ⊢
    exact fun scope inRequested => (here scope inRequested).trans there
  · intro requested granted
    constructor
    · rw [Bool.eq_iff_iff, roleScopesAllow_iff, roleScopesAllow_iff]
      constructor
      · intro all scope inRequested
        exact all scope (mem_trimmedSet_normalize.mpr (mem_withImpliedScopes.mpr (.inl inRequested)))
      · intro all scope inRequested
        rcases mem_withImpliedScopes.mp (mem_trimmedSet_normalize.mp inRequested) with
          given | ⟨rfl, admin | write⟩ | ⟨rfl, admin⟩
        · exact all scope given
        · exact (all _ admin).implied ⟨by decide, .inl rfl⟩ (.inl rfl)
        · exact (all _ write).implied ⟨by decide, .inr (.inr ⟨rfl, .inl rfl⟩)⟩ (.inr rfl)
        · exact (all _ admin).implied ⟨by decide, .inl rfl⟩ (.inl rfl)
    · rw [Bool.eq_iff_iff, roleScopesAllow_iff, roleScopesAllow_iff]
      exact forall₂_congr fun _ _ => covered_normalize
  · intro requested granted
    simp only [resolveMissingRequestedScope, List.find?_eq_none, Bool.not_eq_true', Bool.not_eq_false,
      roleScopesAllow_iff, mem_trimmedSet, List.mem_singleton, exists_eq_left]
    constructor
    · rintro all scope ⟨some, given, inRequested, rfl⟩
      exact all given inRequested _ ⟨some, rfl⟩
    · rintro all given inRequested scope ⟨some, rfl⟩
      exact all _ ⟨some, given, inRequested, rfl⟩

theorem scope_checks_compose_operator : roleScopesAllow "operator" ["operator.read"] ["operator.admin"] = true :=
  (scope_checks_compose "operator").1 ["operator.read"] ["operator.write"] ["operator.admin"]
    (by decide +kernel) (by decide +kernel)

end PlatformClaw.Devices
