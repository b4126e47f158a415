import PlatformClaw.Execution.CredentialGrants

/-! # Every grant is used once

A grant that was issued is pending, or being resolved, or disposed, and only one
of these; it is resolved at most once, before it expires. A pending grant has its
timer, so none of them is forgotten.
-/

namespace PlatformClaw.Execution

def GrantCall.resolves (grant : Nat) : GrantCall → Bool
  | .resolve resolved _ _ => resolved = grant
  | .dispose _ => false

def GrantCall.disposes (grant : Nat) : GrantCall → Bool
  | .resolve .. => false
  | .dispose disposed => disposed = grant

def GrantCall.redeems (tokenHash : String → String) (hash : String) : GrantCall → Bool
  | .resolve _ token _ => tokenHash token = hash
  | .dispose _ => false

def GrantCall.redeemed : GrantCall → Option String
  | .resolve _ token _ => some token
  | .dispose _ => none

namespace GrantStore

variable {setting : GrantSetting} {store : GrantStore} {hash : String} {grant : PendingGrant}

def pendingCount (store : GrantStore) (grant : Nat) : Nat :=
  store.pending.rows.countP (·.2.grant = grant)

def issuedCount (store : GrantStore) (grant : Nat) : Nat :=
  if grant < store.issued.length then 1 else 0

def disposals (store : GrantStore) (grant : Nat) : Nat :=
  store.calls.countP (GrantCall.disposes grant)

def resolutions (store : GrantStore) (grant : Nat) : Nat :=
  store.calls.countP (GrantCall.resolves grant)

def issues (setting : GrantSetting) (store : GrantStore) (hash : String) : Nat :=
  store.issued.countP (setting.tokenHash ·.token = hash)

def redemptions (setting : GrantSetting) (store : GrantStore) (hash : String) : Nat :=
  store.calls.countP (GrantCall.redeems setting.tokenHash hash)

/-- The invariant; `out` is a grant that has been taken and not yet been disposed. -/
structure Sound (setting : GrantSetting) (store : GrantStore) (out : Option Nat) : Prop where
  origin : ∀ hash grant, store.pending.get hash = some grant → ∃ issued,
    store.issued[grant.grant]? = some issued ∧ setting.tokenHash issued.token = hash ∧
      issued.expiresAt = grant.expiresAt
  timed : ∀ timer, timer ∈ store.timers ↔ ∃ grant,
    store.pending.get timer.hash = some grant ∧ grant.grant = timer.grant
  disposed : ∀ grant, store.pendingCount grant + store.resolving.count grant +
    store.disposals grant + (if out = some grant then 1 else 0) = store.issuedCount grant
  resolved : ∀ grant, store.pendingCount grant + store.resolutions grant ≤ store.issuedCount grant
  redeemed : ∀ grant token now, .resolve grant token now ∈ store.calls → ∃ issued,
    store.issued[grant]? = some issued ∧
      setting.tokenHash token = setting.tokenHash issued.token ∧ now < issued.expiresAt
  spent : ∀ hash, store.redemptions setting hash + (if store.pending.has hash then 1 else 0) ≤
    store.issues setting hash
  few : store.pending.rows.length ≤ setting.limits.maxPendingGrants

theorem sound_fresh (setting : GrantSetting) : fresh.Sound setting none where
  origin := fun _ _ found => nomatch found
  timed := by simp [fresh]
  disposed := fun _ => rfl
  resolved := fun _ => Nat.le_refl _
  redeemed := fun _ _ _ none => nomatch none
  spent := fun _ => Nat.le_refl _
  few := Nat.zero_le _

theorem Sound.unique {out : Option Nat} (sound : store.Sound setting out) {other : PendingGrant}
    {hash' : String} (found : store.pending.get hash = some grant)
    (found' : store.pending.get hash' = some other) (same : grant.grant = other.grant) :
    hash = hash' := by
  obtain ⟨issued, known, rfl, -⟩ := sound.origin hash grant found
  obtain ⟨issued', known', rfl, -⟩ := sound.origin hash' other found'
  rw [same] at known
  cases known.symm.trans known'
  rfl

theorem issuedCount_le (store : GrantStore) (grant : Nat) : store.issuedCount grant ≤ 1 := by
  simp only [issuedCount]
  split <;> omega

section Parts

variable (store : GrantStore) (hash : String) (id other : Nat)

@[simp] theorem take_pending : (store.take hash id).pending = store.pending.remove hash := rfl

@[simp] theorem take_resolving : (store.take hash id).resolving = store.resolving := rfl

@[simp] theorem take_issuedCount :
    (store.take hash id).issuedCount other = store.issuedCount other := rfl

@[simp] theorem take_disposals : (store.take hash id).disposals other = store.disposals other := rfl

@[simp] theorem take_resolutions :
    (store.take hash id).resolutions other = store.resolutions other := rfl

@[simp] theorem take_redemptions (setting : GrantSetting) (other : String) :
    (store.take hash id).redemptions setting other = store.redemptions setting other := rfl

@[simp] theorem callDispose_pendingCount :
    (store.callDispose id).pendingCount other = store.pendingCount other := rfl

@[simp] theorem callDispose_resolving : (store.callDispose id).resolving = store.resolving := rfl

@[simp] theorem callDispose_issuedCount :
    (store.callDispose id).issuedCount other = store.issuedCount other := rfl

@[simp] theorem callDispose_disposals : (store.callDispose id).disposals other =
    store.disposals other + if id = other then 1 else 0 := by
  simp [callDispose, disposals, List.countP_append, List.countP_singleton, GrantCall.disposes]

@[simp] theorem callDispose_resolutions :
    (store.callDispose id).resolutions other = store.resolutions other := by
  simp [callDispose, resolutions, List.countP_append, GrantCall.resolves]

@[simp] theorem callDispose_redemptions (setting : GrantSetting) :
    (store.callDispose id).redemptions setting hash = store.redemptions setting hash := by
  simp [callDispose, redemptions, List.countP_append, GrantCall.redeems]

section Resolve

variable (grant : Nat) (token : String) (now : Nat)

@[simp] theorem callResolve_pendingCount :
    (store.callResolve grant token now).pendingCount other = store.pendingCount other := rfl

@[simp] theorem callResolve_resolving :
    (store.callResolve grant token now).resolving = store.resolving ++ [grant] := rfl

@[simp] theorem callResolve_issuedCount :
    (store.callResolve grant token now).issuedCount other = store.issuedCount other := rfl

@[simp] theorem callResolve_disposals :
    (store.callResolve grant token now).disposals other = store.disposals other := by
  simp [callResolve, disposals, List.countP_append, GrantCall.disposes]

@[simp] theorem callResolve_resolutions :
    (store.callResolve grant token now).resolutions other =
      store.resolutions other + if grant = other then 1 else 0 := by
  simp [callResolve, resolutions, List.countP_append, List.countP_singleton, GrantCall.resolves]

@[simp] theorem callResolve_redemptions (setting : GrantSetting) :
    (store.callResolve grant token now).redemptions setting hash =
      store.redemptions setting hash + if setting.tokenHash token = hash then 1 else 0 := by
  simp [callResolve, redemptions, List.countP_append, List.countP_singleton, GrantCall.redeems]

end Resolve

end Parts

theorem pendingCount_take (found : store.pending.get hash = some grant) (id : Nat) :
    (store.take hash grant.grant).pendingCount id + (if grant.grant = id then 1 else 0) = store.pendingCount id := by
  have counted := ScriptMap.countP_remove found fun entry => entry.2.grant = id
  simpa only [pendingCount, take_pending, decide_eq_true_eq] using counted

theorem Sound.unresolved {out : Option Nat} (sound : store.Sound setting out)
    (found : store.pending.get hash = some grant) :
    store.resolutions grant.grant = 0 ∧ store.redemptions setting hash + 1 ≤ store.issues setting hash := by
  have counted := pendingCount_take found grant.grant
  have resolved := sound.resolved grant.grant
  have spent := sound.spent hash
  have present : store.pending.has hash = true := by rw [ScriptMap.has, found]; rfl
  rw [if_pos rfl] at counted
  rw [if_pos present] at spent
  have once := store.issuedCount_le grant.grant
  exact ⟨by omega, spent⟩

theorem Sound.take (sound : store.Sound setting none) (found : store.pending.get hash = some grant) :
    (store.take hash grant.grant).Sound setting (some grant.grant) := by
  have kept (other : String) (pending : PendingGrant)
      (left : (store.take hash grant.grant).pending.get other = some pending) :
      other ≠ hash ∧ store.pending.get other = some pending := by
    simp only [GrantStore.take, ScriptMap.get_remove] at left
    split at left
    · cases left
    · rename_i different
      exact ⟨Ne.symm different, left⟩
  refine
    { origin := fun other pending left => sound.origin other pending (kept other pending left).2
      timed := ?_
      disposed := ?_
      resolved := ?_
      redeemed := sound.redeemed
      spent := ?_
      few := ?_ }
  · intro timer
    simp only [GrantStore.take, List.mem_filter, sound.timed timer, decide_eq_true_eq]
    constructor
    · rintro ⟨⟨pending, there, own⟩, different⟩
      refine ⟨pending, ?_, own⟩
      rw [ScriptMap.get_remove, if_neg, there]
      rintro rfl
      cases found.symm.trans there
      exact different own.symm
    · rintro ⟨pending, left, own⟩
      obtain ⟨different, there⟩ := kept timer.hash pending left
      refine ⟨⟨pending, there, own⟩, fun same => different ?_⟩
      exact sound.unique there found (own.trans same)
  · intro id
    have before := sound.disposed id
    have counted := pendingCount_take found id
    simp only [reduceCtorEq, if_false, Option.some.injEq, take_resolving, take_issuedCount,
      take_disposals] at before ⊢
    omega
  · intro id
    have before := sound.resolved id
    have counted := pendingCount_take found id
    simp only [take_issuedCount, take_resolutions]
    omega
  · intro other
    have before := sound.spent other
    have fewer : (if (store.take hash grant.grant).pending.has other then 1 else 0) ≤
        if store.pending.has other then 1 else 0 := by
      simp only [GrantStore.take, ScriptMap.has_remove]
      cases store.pending.has other <;> simp
      split <;> simp
    simp only [redemptions, issues, GrantStore.take] at before fewer ⊢
    omega
  · have shorter := (ScriptMap.rows_perm_remove found).length_eq
    have few := sound.few
    simp only [List.length_cons] at shorter
    simp only [GrantStore.take]
    omega

/-- The grant that was taken is disposed. -/
theorem Sound.callDispose {id : Nat} (sound : store.Sound setting (some id)) :
    (store.callDispose id).Sound setting none where
  origin := sound.origin
  timed := sound.timed
  disposed := by
    intro other
    have before := sound.disposed other
    simp only [Option.some.injEq, reduceCtorEq, if_false, callDispose_pendingCount,
      callDispose_resolving, callDispose_disposals, callDispose_issuedCount] at before ⊢
    omega
  resolved := by
    intro other
    simpa using sound.resolved other
  redeemed := by
    intro grant token now called
    refine sound.redeemed grant token now ?_
    simpa [GrantStore.callDispose] using called
  spent := by
    intro other
    rw [callDispose_redemptions]
    exact sound.spent other
  few := sound.few

theorem Sound.dispose_taken (sound : store.Sound setting none) (found : store.pending.get hash = some grant) :
    ((store.take hash grant.grant).callDispose grant.grant).Sound setting none :=
  (sound.take found).callDispose

theorem Sound.disposePending (sound : store.Sound setting none) (hash : String)
    (expected : Option Nat) : (store.disposePending setting hash expected).1.Sound setting none := by
  simp only [GrantStore.disposePending]
  split
  · exact sound
  · rename_i grant found
    split
    · exact sound
    · exact sound.dispose_taken found

theorem Sound.disposeAll {entries : List (String × PendingGrant)}
    (sound : store.Sound setting none) : (store.disposeAll setting entries).1.Sound setting none := by
  induction entries generalizing store with
  | nil => exact sound
  | cons entry rest ih =>
    have disposed := sound.disposePending entry.1 (some entry.2.grant)
    simp only [GrantStore.disposeAll]
    split
    · exact disposed
    · exact ih disposed

theorem Sound.revoke (sound : store.Sound setting none) (token : String) :
    (store.revoke setting token).Sound setting none := by
  simp only [GrantStore.revoke]
  split
  · exact sound
  · exact sound.disposePending _ _

/-- The timer that goes off is the one that taking its grant would have cleared. -/
theorem Sound.expire (sound : store.Sound setting none) {timer : ExpiryTimer}
    (set : timer ∈ store.timers) : (store.expire setting timer).Sound setting none := by
  obtain ⟨grant, found, own⟩ := (sound.timed timer).mp set
  have cleared : (store.timers.erase timer).filter (·.grant ≠ grant.grant) =
      store.timers.filter (·.grant ≠ grant.grant) := by
    rw [← List.erase_filter]
    refine List.erase_of_not_mem fun left => ?_
    simp [own] at left
  have same : store.expire setting timer = (store.take timer.hash grant.grant).callDispose grant.grant := by
    simp only [GrantStore.expire, GrantStore.disposePending, found, Option.any_none,
      Bool.false_eq_true, if_false, GrantStore.take, cleared]
  rw [same]
  exact sound.dispose_taken found

theorem Sound.redeem (sound : store.Sound setting none) (token : String) (now : Nat) :
    (store.redeem setting token now).1.Sound setting none := by
  simp only [GrantStore.redeem]
  split
  · exact sound
  · rename_i grant found
    split
    · exact sound.dispose_taken found
    · rename_i early
      have taken := sound.take found
      obtain ⟨unresolved, unspent⟩ := sound.unresolved found
      obtain ⟨issued, known, hashed, expires⟩ := sound.origin _ _ found
      refine
        { origin := taken.origin
          timed := taken.timed
          disposed := ?_
          resolved := ?_
          redeemed := ?_
          spent := ?_
          few := taken.few }
      · intro other
        have before := taken.disposed other
        simp only [Option.some.injEq, reduceCtorEq, if_false, callResolve_pendingCount,
          callResolve_resolving, callResolve_disposals, callResolve_issuedCount,
          List.count_append, List.count_singleton, beq_iff_eq] at before ⊢
        omega
      · intro other
        have before := taken.resolved other
        have counted := pendingCount_take found other
        have all := sound.resolved other
        simp only [callResolve_pendingCount, callResolve_resolutions, callResolve_issuedCount,
          take_resolutions, take_issuedCount] at before ⊢
        split
        · rename_i same
          subst same
          rw [if_pos rfl] at counted
          omega
        · exact before
      · intro resolved token' now' called
        rcases List.mem_append.mp called with old | new
        · exact sound.redeemed resolved token' now' old
        · cases List.mem_singleton.mp new
          exact ⟨issued, known, hashed.symm, by omega⟩
      · intro other
        have pending : (((store.take (setting.tokenHash token) grant.grant).callResolve grant.grant
            token now).pending) = store.pending.remove (setting.tokenHash token) := rfl
        have issues : ((store.take (setting.tokenHash token) grant.grant).callResolve grant.grant
            token now).issues setting other = store.issues setting other := rfl
        rw [callResolve_redemptions, take_redemptions, pending, issues, ScriptMap.has_remove]
        by_cases same : setting.tokenHash token = other
        · subst same
          simpa using unspent
        · simpa [same] using sound.spent other

theorem Sound.settle (sound : store.Sound setting none) {id : Nat} (running : id ∈ store.resolving)
    (resolved : Option ResolvedCredential) :
    (store.settle setting id resolved).1.Sound setting none := by
  refine Sound.callDispose { sound with disposed := ?_ }
  intro other
  have before := sound.disposed other
  have there := List.count_pos_iff.mpr running
  have changed := @List.count_erase Nat _ _ other id store.resolving
  simp only [beq_iff_eq] at changed
  simp only [reduceCtorEq, if_false, Option.some.injEq] at before ⊢
  show store.pendingCount other + (store.resolving.erase id).count other + store.disposals other +
    (if id = other then 1 else 0) = store.issuedCount other
  by_cases same : id = other
  · subst same
    simp only [if_true] at changed ⊢
    omega
  · simp only [same, if_false] at changed ⊢
    omega

theorem Sound.put (sound : store.Sound setting none)
    (room : store.pending.rows.length < setting.limits.maxPendingGrants)
    {issued : CredentialBrokerGrant} (hashed : setting.tokenHash issued.token = hash)
    (free : store.pending.get hash = none) : (store.put hash issued).Sound setting none := by
  have pendingIssued (other : String) (pending : PendingGrant)
      (found : (store.put hash issued).pending.get other = some pending) :
      (hash = other ∧ pending = ⟨store.issued.length, issued.expiresAt⟩) ∨
        store.pending.get other = some pending := by
    simp only [GrantStore.put, ScriptMap.get_set] at found
    split at found
    · rename_i same
      cases found
      exact .inl ⟨same, rfl⟩
    · exact .inr found
  have old (id : Nat) (known : CredentialBrokerGrant) (found : store.issued[id]? = some known) :
      (store.put hash issued).issued[id]? = some known :=
    (List.getElem?_append_left (List.getElem?_eq_some_iff.mp found).1).trans found
  have last : (store.put hash issued).issued[store.issued.length]? = some issued :=
    List.getElem?_concat_length
  have rows : (store.put hash issued).pending.rows = store.pending.rows ++
      [(hash, ⟨store.issued.length, issued.expiresAt⟩)] := ScriptMap.rows_set_new free _
  have pendingCount (id : Nat) : (store.put hash issued).pendingCount id =
      store.pendingCount id + if store.issued.length = id then 1 else 0 := by
    simp [GrantStore.pendingCount, rows, List.countP_append, List.countP_singleton]
  have issuedCount (id : Nat) : (store.put hash issued).issuedCount id =
      store.issuedCount id + if store.issued.length = id then 1 else 0 := by
    simp only [GrantStore.issuedCount, GrantStore.put, List.length_append, List.length_singleton]
    grind
  refine
    { origin := ?_
      timed := ?_
      disposed := ?_
      resolved := ?_
      redeemed := ?_
      spent := ?_
      few := ?_ }
  · intro other pending found
    rcases pendingIssued other pending found with ⟨rfl, rfl⟩ | there
    · exact ⟨issued, last, hashed, rfl⟩
    · obtain ⟨known, found, rest⟩ := sound.origin other pending there
      exact ⟨known, old _ _ found, rest⟩
  · intro timer
    constructor
    · intro set
      rcases List.mem_append.mp set with before | new
      · obtain ⟨pending, there, own⟩ := (sound.timed timer).mp before
        refine ⟨pending, ?_, own⟩
        simp only [GrantStore.put, ScriptMap.get_set]
        rw [if_neg, there]
        rintro rfl
        cases free.symm.trans there
      · cases List.mem_singleton.mp new
        refine ⟨⟨store.issued.length, issued.expiresAt⟩, ?_, rfl⟩
        simp [GrantStore.put]
    · rintro ⟨pending, found, own⟩
      rcases pendingIssued timer.hash pending found with ⟨same, rfl⟩ | there
      · refine List.mem_append_right _ (List.mem_singleton.mpr ?_)
        cases timer
        cases same
        cases own
        rfl
      · exact List.mem_append_left _ ((sound.timed timer).mpr ⟨pending, there, own⟩)
  · intro id
    have before := sound.disposed id
    have disposals : (store.put hash issued).disposals id = store.disposals id := rfl
    have resolving : (store.put hash issued).resolving = store.resolving := rfl
    rw [pendingCount, issuedCount, disposals, resolving]
    omega
  · intro id
    have before := sound.resolved id
    have resolutions : (store.put hash issued).resolutions id = store.resolutions id := rfl
    rw [pendingCount, issuedCount, resolutions]
    omega
  · intro id token now called
    obtain ⟨known, found, rest⟩ := sound.redeemed id token now called
    exact ⟨known, old _ _ found, rest⟩
  · intro other
    have before := sound.spent other
    have redemptions : (store.put hash issued).redemptions setting other = store.redemptions setting other := rfl
    have issues : (store.put hash issued).issues setting other =
        store.issues setting other + if hash = other then 1 else 0 := by
      simp [GrantStore.issues, GrantStore.put, List.countP_append, List.countP_singleton, hashed]
    have has : (store.put hash issued).pending.has other =
        (decide (hash = other) || store.pending.has other) := ScriptMap.has_set ..
    rw [redemptions, issues, has]
    by_cases same : hash = other
    · subst same
      simp [ScriptMap.has, free] at before ⊢
      omega
    · simpa [same] using before
  · rw [rows, List.length_append, List.length_singleton]
    exact room

theorem Sound.issue (sound : store.Sound setting none) (now : Nat) (token : String) :
    (store.issue setting now token).1.Sound setting none := by
  have pruned : (store.pruneExpired setting now).1.Sound setting none := sound.disposeAll
  simp only [GrantStore.issue]
  split
  · exact pruned
  split
  · exact pruned
  split
  · exact pruned
  split
  · exact pruned
  · rename_i room _ free
    exact pruned.put (Nat.not_le.mp room) rfl (by simpa [ScriptMap.has] using free)

theorem Sound.step (sound : store.Sound setting none) (event : GrantEvent) :
    ((grantMachine setting).step store event).Sound setting none := by
  cases event with
  | issue now token => exact sound.issue now token
  | redeem token now => exact sound.redeem token now
  | settle grant resolved =>
    simp only [grantMachine]
    split
    · rename_i running
      exact sound.settle running resolved
    · exact sound
  | revoke token => exact sound.revoke token
  | clear => exact sound.disposeAll
  | expire timer =>
    simp only [grantMachine]
    split
    · rename_i set
      exact sound.expire set
    · exact sound

theorem sound_run (setting : GrantSetting) (events : List GrantEvent) :
    ((grantMachine setting).run fresh events).Sound setting none :=
  Machine.run_invariant (P := fun store : GrantStore => store.Sound setting none)
    (fun _ event sound => sound.step event) (sound_fresh setting) events

theorem Sound.timer {out : Option Nat} (sound : store.Sound setting out)
    (found : store.pending.get hash = some grant) :
    ∃ timer ∈ store.timers, timer.grant = grant.grant ∧ .dispose grant.grant ∈
      ((grantMachine setting).step store (.expire timer)).calls := by
  have set : ⟨grant.grant, hash⟩ ∈ store.timers := (sound.timed _).mpr ⟨grant, found, rfl⟩
  refine ⟨⟨grant.grant, hash⟩, set, rfl, ?_⟩
  simp [grantMachine, set, GrantStore.expire, GrantStore.disposePending, found, GrantStore.callDispose]

/-- Whatever happens in whatever order: a grant is resolved at most once and a token at most as
    often as it was issued, always before it expires; a grant is disposed once as soon as it is
    neither pending, with its timer set, nor being resolved; and no more grants are pending than
    the store may hold. -/
theorem grants_used_once (setting : GrantSetting) (events : List GrantEvent) :
    let store := (grantMachine setting).run fresh events
    (∀ grant, store.resolutions grant ≤ 1) ∧
    (∀ token, store.calls.countP (fun call => call.redeemed = some token) ≤
      store.issued.countP (fun issued => setting.tokenHash issued.token = setting.tokenHash token)) ∧
    (∀ grant token now, .resolve grant token now ∈ store.calls → ∃ issued,
      store.issued[grant]? = some issued ∧ setting.tokenHash token = setting.tokenHash issued.token ∧
        now < issued.expiresAt) ∧
    (∀ grant < store.issued.length, store.disposals grant =
      if (∃ entry ∈ store.pending.rows, entry.2.grant = grant) ∨ grant ∈ store.resolving
      then 0 else 1) ∧
    (∀ entry ∈ store.pending.rows, ∃ timer ∈ store.timers, timer.grant = entry.2.grant ∧
      .dispose entry.2.grant ∈ ((grantMachine setting).step store (.expire timer)).calls) ∧
    store.pending.rows.length ≤ setting.limits.maxPendingGrants := by
  intro store
  have sound : store.Sound setting none := sound_run setting events
  refine ⟨?_, ?_, sound.redeemed, ?_, ?_, sound.few⟩
  · intro grant
    have resolved := sound.resolved grant
    have issued := store.issuedCount_le grant
    omega
  · intro token
    have named : store.calls.countP (fun call => call.redeemed = some token) ≤
        store.redemptions setting (setting.tokenHash token) := by
      refine List.countP_mono_left fun call _ same => ?_
      cases call with
      | resolve grant redeemed now =>
        obtain rfl : redeemed = token := by simpa [GrantCall.redeemed] using same
        simp [GrantCall.redeems]
      | dispose grant => simp [GrantCall.redeemed] at same
    have spent := sound.spent (setting.tokenHash token)
    exact Nat.le_trans named (by rw [issues] at spent; omega)
  · intro grant known
    have disposed := sound.disposed grant
    simp only [reduceCtorEq, if_false, issuedCount, if_pos known] at disposed
    split
    · rename_i used
      rcases used with ⟨entry, pending, own⟩ | resolving
      · have counted : 0 < store.pendingCount grant :=
          List.countP_pos_iff.mpr ⟨entry, pending, decide_eq_true own⟩
        omega
      · have counted := List.count_pos_iff.mpr resolving
        omega
    · rename_i unused
      have pending : store.pendingCount grant = 0 := by
        refine List.countP_eq_zero.mpr fun entry pending own => unused (.inl ⟨entry, pending, ?_⟩)
        exact of_decide_eq_true own
      have resolving : store.resolving.count grant = 0 :=
        List.count_eq_zero.mpr fun resolving => unused (.inr resolving)
      omega
  · rintro ⟨hash, grant⟩ pending
    exact sound.timer (ScriptMap.get_eq_some_iff.mpr pending)

end GrantStore

end PlatformClaw.Execution
