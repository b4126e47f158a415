import PlatformClaw.Library.Guarded
import PlatformClaw.Library.TimedTable

/-! # Keyed plugin state

A namespace of the plugin state store: rows with an optional time to live, and a
limit that rejects new rows. Every call is one SQLite transaction, so a call that
throws leaves the rows as they were.
-/

namespace PlatformClaw.Reef

inductive PluginStateError
  /-- The namespace or the plugin has reached its row limit. -/
  | limitExceeded
  /-- SQLite failed. -/
  | unavailable
  /-- The callback of an update threw. -/
  | callback
deriving DecidableEq, Repr

/-- What a call on the store meets. -/
structure StoreMoment where
  /-- `Date.now()` inside the transaction. -/
  now : Nat
  /-- The rows of all namespaces of the plugin are below the plugin's limit. -/
  pluginHasRoom : Bool
  /-- SQLite carries the transaction out. -/
  available : Bool
deriving DecidableEq, Repr

/-- `OpenKeyedStoreOptions` with the overflow policy `reject-new`. -/
structure StoreOptions where
  maxEntries : Nat
  defaultTtlMs : Option Nat
deriving DecidableEq, Repr

/-- The rows of one namespace. -/
abbrev KeyedStore (κ ν : Type) : Type := TimedTable κ ν

namespace KeyedStore

variable {κ ν α : Type} [DecidableEq κ]

/-- The row a write leaves: its time to live starts anew. -/
def writtenRow (options : StoreOptions) (moment : StoreMoment) (key : κ) (value : ν) : TimedRow κ ν where
  key := key
  value := value
  expiresAt := options.defaultTtlMs.map fun ttlMs => moment.now + ttlMs

/-- A write: only a new row needs room. -/
def write (options : StoreOptions) (store : KeyedStore κ ν) (moment : StoreMoment) (key : κ)
    (value : ν) : Except PluginStateError (KeyedStore κ ν) := do
  Except.ensure ((store.read key moment.now).isSome = true ∨
    (store.count moment.now < options.maxEntries ∧ moment.pluginHasRoom = true)) .limitExceeded
  return store.put (writtenRow options moment key value)

/-- What `pluginStateUpdate` stores for the answer of its callback. -/
def settle (options : StoreOptions) (store : KeyedStore κ ν) (moment : StoreMoment) (key : κ) :
    Option ν → Except PluginStateError (KeyedStore κ ν)
  | none => .ok store
  | some value => write options store moment key value

/-- `pluginStateUpdate`. The second component of the callback's answer is what it tells its
caller. -/
def update (options : StoreOptions) (store : KeyedStore κ ν) (moment : StoreMoment) (key : κ)
    (updateValue : Option ν → Except PluginStateError (Option ν × α)) :
    Except PluginStateError (KeyedStore κ ν × α) := do
  Except.ensure (moment.available = true) .unavailable
  let store := store.expire moment.now
  let (next, told) ← updateValue (store.read key moment.now)
  let written ← settle options store moment key next
  return (written, told)

/-- `pluginStateRegisterIfAbsent`. -/
def registerIfAbsent (options : StoreOptions) (store : KeyedStore κ ν) (moment : StoreMoment)
    (key : κ) (value : ν) : Except PluginStateError (KeyedStore κ ν × Bool) := do
  Except.ensure (moment.available = true) .unavailable
  let store := store.expire moment.now
  if (store.read key moment.now).isSome then
    return (store, false)
  else
    return (← write options store moment key value, true)

variable {options : StoreOptions} {store written : KeyedStore κ ν} {moment : StoreMoment} {key : κ}
  {value : ν} {told : α}

theorem write_ok_iff : write options store moment key value = .ok written ↔
      ((store.read key moment.now).isSome = true ∨
        (store.count moment.now < options.maxEntries ∧ moment.pluginHasRoom = true)) ∧
      store.put (writtenRow options moment key value) = written := by
  simp [write, Except.map_ok_iff]

/-- The rows after an update that is answered with `next`. -/
def stored (options : StoreOptions) (store : KeyedStore κ ν) (moment : StoreMoment) (key : κ)
    (next : Option ν) : KeyedStore κ ν :=
  next.elim (store.expire moment.now)
    fun value => (store.expire moment.now).put (writtenRow options moment key value)

/-- An update that goes through has asked its callback about the live row. -/
theorem update_ok {updateValue : Option ν → Except PluginStateError (Option ν × α)}
    (done : update options store moment key updateValue = .ok (written, told)) :
    ∃ next, updateValue (store.read key moment.now) = .ok (next, told) ∧
      written = stored options store moment key next := by
  obtain ⟨_, _, ⟨next, _⟩, answered, settledRows, settled, same⟩ := by
    simpa only [update, Except.bind_ok_iff, TimedTable.read_expire] using done
  obtain ⟨rfl, rfl⟩ := Prod.mk.inj (Except.pure_ok_iff.mp same)
  refine ⟨next, answered, ?_⟩
  cases next with
  | none => exact (Except.ok.inj settled).symm
  | some value => exact (write_ok_iff.mp settled).2.symm

theorem update_live {updateValue : Option ν → Except PluginStateError (Option ν × α)} {old : ν}
    (available : moment.available = true) (live : store.read key moment.now = some old)
    (answered : updateValue (some old) = .ok (some value, told)) :
    update options store moment key updateValue = .ok (stored options store moment key (some value), told) := by
  have written : write options (store.expire moment.now) moment key value =
      .ok ((store.expire moment.now).put (writtenRow options moment key value)) := by
    apply write_ok_iff.mpr
    exact ⟨.inl (by rw [TimedTable.read_expire, live]; rfl), rfl⟩
  simp only [update, available, TimedTable.read_expire, live, answered, settle]
  simp only [bind, Except.bind, Except.ensure, written, if_true]
  rfl

variable {next : Option ν} {other : κ} {row : TimedRow κ ν}

theorem lookup_stored_other (apart : key ≠ other) : (stored options store moment key next).lookup other =
      (store.lookup other).filter fun row => row.live moment.now := by
  cases next with
  | none => exact TimedTable.lookup_expire store moment.now other
  | some value =>
    rw [stored, Option.elim_some, TimedTable.lookup_put,
      if_neg (show (writtenRow options moment key value).key ≠ other from apart)]
    exact TimedTable.lookup_expire store moment.now other

theorem lookup_stored_self : (stored options store moment key (some value)).lookup key =
      some (writtenRow options moment key value) := by
  rw [stored, Option.elim_some, TimedTable.lookup_put]
  exact if_pos rfl

theorem row_of_lookup_stored (found : (stored options store moment key next).lookup other = some row) :
    store.lookup other = some row ∨
      key = other ∧ ∃ value, next = some value ∧ row = writtenRow options moment key value := by
  by_cases same : key = other
  · cases next with
    | none => exact .inl (TimedTable.lookup_of_lookup_expire found)
    | some value =>
      subst same
      rw [lookup_stored_self] at found
      exact .inr ⟨rfl, value, rfl, (Option.some.inj found).symm⟩
  · rw [lookup_stored_other same] at found
    exact .inl (Option.filter_eq_some_iff.mp found).1

/-- What is written is live. -/
theorem read_stored_self (lasting : ∀ ttlMs ∈ options.defaultTtlMs, 0 < ttlMs) :
    (stored options store moment key (some value)).read key moment.now = some value := by
  refine TimedTable.read_eq_some_iff.mpr ⟨_, lookup_stored_self, ?_, rfl⟩
  cases ttl : options.defaultTtlMs with
  | none => simp [TimedRow.live, writtenRow, ttl]
  | some ttlMs =>
    have positive := lasting ttlMs ttl
    simp [TimedRow.live, writtenRow, ttl, positive]

/-- Writing back what was read changes no answer at that time. -/
theorem read_stored_unchanged (lasting : ∀ ttlMs ∈ options.defaultTtlMs, 0 < ttlMs) :
    (stored options store moment key (store.read key moment.now)).read key moment.now =
      store.read key moment.now := by
  cases live : store.read key moment.now with
  | none =>
    rw [stored, Option.elim_none, TimedTable.read_expire]
    exact live
  | some value => exact read_stored_self lasting

theorem read_of_lookup_stored
    (found : (stored options store moment key (store.read key moment.now)).lookup key = some row) :
    store.read key moment.now = some row.value := by
  cases live : store.read key moment.now with
  | some value =>
    rw [live, lookup_stored_self] at found
    rw [← Option.some.inj found]
    rfl
  | none =>
    rw [live, stored, Option.elim_none, TimedTable.lookup_expire] at found
    obtain ⟨located, current⟩ := Option.filter_eq_some_iff.mp found
    exact live.symm.trans (TimedTable.read_eq_some_iff.mpr ⟨row, located, current, rfl⟩)

theorem row_of_written_back
    (found : (stored options store moment key (store.read key moment.now)).lookup other = some row) :
    ∃ old, store.lookup other = some old ∧ old.value = row.value := by
  by_cases same : key = other
  · subst same
    obtain ⟨old, located, _, value⟩ := TimedTable.read_eq_some_iff.mp (read_of_lookup_stored found)
    exact ⟨old, located, value⟩
  · rw [lookup_stored_other same] at found
    exact ⟨row, (Option.filter_eq_some_iff.mp found).1, rfl⟩

end KeyedStore

end PlatformClaw.Reef
