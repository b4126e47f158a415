import PlatformClaw.Browser.Approvals
import PlatformClaw.Library.Guarded

/-! # Approvals stay with their session

The registry never knows more than what was observed last of an approval, and a
resolution is forwarded only through what it knows.
-/

namespace PlatformClaw.Browser

open ScriptValue (Record field setField asRecord asArray nonEmptyString field_setField)
open ApprovalOwners (approvalBinding? replayed)

/-- The approval of a session event, as a browser may see it. -/
def shownApproval (payload : Option ScriptValue) : Option (String × Record) := do
  let payload ← asRecord payload
  let approval ← (asRecord (field payload "approval")).bind projectSessionApproval
  let sessionKey ← nonEmptyString (field payload "sessionKey")
  return (sessionKey, approval)

/-- The approvals an event shows to a browser that may hold them. -/
def ApprovalEvent.observed : ApprovalEvent → List (String × ApprovalBinding)
  | .sessionApproval access payload =>
    ((shownApproval payload).bind fun shown => approvalBinding? access shown.1 shown.2).toList
  | .approvalReplay access value =>
    match replayed access value with
    | .error _ => []
    | .ok (_, sessionKey, approvals) => approvals.filterMap fun approval =>
      ((asRecord (some approval)).bind projectSessionApproval).bind (approvalBinding? access sessionKey)
  | .get .. | .resolve .. => []

/-- What was observed last of an approval. -/
def lastObserved (observations : List (String × ApprovalBinding)) (id : String) : Option ApprovalBinding :=
  (observations.reverse.find? fun observation => observation.1 = id).map Prod.snd

def observations (events : List ApprovalEvent) : List (String × ApprovalBinding) :=
  events.flatMap ApprovalEvent.observed

theorem lastObserved_concat (earlier : List (String × ApprovalBinding)) (id : String)
    (binding : ApprovalBinding) (other : String) :
    lastObserved (earlier ++ [(id, binding)]) other =
      if id = other then some binding else lastObserved earlier other := by
  by_cases same : id = other <;> simp [lastObserved, same]

namespace ApprovalOwners

variable {registry : ApprovalOwners} {id : String} {binding : ApprovalBinding}

theorem get_dropOldest {rounds : Nat} (found : (dropOldest rounds registry).get id = some binding) :
    registry.get id = some binding := by
  induction rounds generalizing registry with
  | zero => exact found
  | succ rounds ih =>
    simp only [dropOldest] at found
    split at found
    · split at found
      · exact found
      · split at found
        · exact found
        · have kept := ih found
          rw [ScriptMap.get_remove] at kept
          split at kept
          · cases kept
          · exact kept
    · exact found

theorem get_bindBounded {bound : ApprovalBinding} {other : String}
    (found : (bindBounded registry id bound).get other = some binding) :
    (id = other ∧ binding = bound) ∨ (id ≠ other ∧ registry.get other = some binding) := by
  have kept := get_dropOldest found
  rw [ScriptMap.get_set] at kept
  split at kept
  · rename_i same
    exact .inl ⟨same, (Option.some.inj kept).symm⟩
  · rename_i different
    rw [ScriptMap.get_remove, if_neg different] at kept
    exact .inr ⟨different, kept⟩

/-- The registry knows of each approval at most what was observed last. -/
def Tracks (registry : ApprovalOwners) (seen : List (String × ApprovalBinding)) : Prop :=
  ∀ id binding, registry.get id = some binding → lastObserved seen id = some binding

theorem Tracks.bindBounded {seen : List (String × ApprovalBinding)} (tracks : registry.Tracks seen)
    (id : String) (binding : ApprovalBinding) :
    (bindBounded registry id binding).Tracks (seen ++ [(id, binding)]) := by
  intro other known found
  rw [lastObserved_concat]
  rcases get_bindBounded found with ⟨same, rfl⟩ | ⟨different, kept⟩
  · exact if_pos same
  · rw [if_neg different]
    exact tracks other known kept

theorem Tracks.bindApproval {seen : List (String × ApprovalBinding)} (tracks : registry.Tracks seen)
    (access : InteractiveAccess) (sessionKey : String) (approval : Record) :
    (registry.bindApproval access sessionKey approval).2.Tracks
      (seen ++ (approvalBinding? access sessionKey approval).toList) := by
  simp only [ApprovalOwners.bindApproval]
  split
  · rename_i none
    simpa [none] using tracks
  · rename_i id binding some
    simpa [some] using tracks.bindBounded id binding

theorem approvalBinding?_foreign {access : InteractiveAccess} {sessionKey : String}
    {approval : Record}
    (foreign : access.resolveAgentIdFromSessionKey sessionKey ≠ some access.agentId) :
    approvalBinding? access sessionKey approval = none := by
  simp [approvalBinding?, foreign]

theorem Tracks.filterEvent {seen : List (String × ApprovalBinding)} (tracks : registry.Tracks seen)
    (access : InteractiveAccess) (payload : Option ScriptValue) :
    (registry.filterEvent access payload).2.Tracks
      (seen ++ (ApprovalEvent.sessionApproval access payload).observed) := by
  simp only [ApprovalOwners.filterEvent, ApprovalEvent.observed, shownApproval]
  cases shape : asRecord payload with
  | none => simpa using tracks
  | some payload =>
    cases shown : (asRecord (field payload "approval")).bind projectSessionApproval with
    | none => simpa [shown] using tracks
    | some approval =>
      have sameKey : field (setField payload "approval" (.object approval)) "sessionKey" =
          field payload "sessionKey" := by
        rw [field_setField, if_neg (by decide)]
      have projected : field (setField payload "approval" (.object approval)) "approval" =
          some (.object approval) := by
        rw [field_setField, if_pos rfl]
      cases named : nonEmptyString (field payload "sessionKey") with
      | none => simpa [shown, named, bindSessionApproval, sameKey] using tracks
      | some sessionKey =>
        simp only [shown, named, bindSessionApproval, sameKey, projected,
          ScriptValue.asRecord_object, Option.bind_eq_bind, Option.bind_some, Option.pure_def]
        split
        · exact tracks.bindApproval access sessionKey approval
        · rename_i foreign
          rw [approvalBinding?_foreign foreign]
          simpa using tracks

theorem Tracks.replayApprovals {seen : List (String × ApprovalBinding)}
    (tracks : registry.Tracks seen) (access : InteractiveAccess) (sessionKey : String)
    (approvals : List ScriptValue) :
    (registry.replayApprovals access sessionKey approvals).2.Tracks (seen ++ approvals.filterMap fun approval =>
        ((asRecord (some approval)).bind projectSessionApproval).bind (approvalBinding? access sessionKey)) := by
  induction approvals generalizing registry seen with
  | nil => simpa [ApprovalOwners.replayApprovals] using tracks
  | cons approval rest ih =>
    simp only [ApprovalOwners.replayApprovals]
    split
    · rename_i none
      simpa [none] using ih tracks
    · rename_i projected some
      have bound := ih (tracks.bindApproval access sessionKey projected)
      rw [List.append_assoc] at bound
      rw [List.filterMap_cons, some, Option.bind_some]
      cases binding : approvalBinding? access sessionKey projected with
      | none => simpa [binding] using bound
      | some held => simpa [binding] using bound

theorem Tracks.step {gateway : ApprovalGateway} {seen : List (String × ApprovalBinding)}
    (tracks : gateway.owners.Tracks seen) (event : ApprovalEvent) :
    (approvalMachine.step gateway event).owners.Tracks (seen ++ event.observed) := by
  cases event with
  | sessionApproval access payload => exact tracks.filterEvent access payload
  | approvalReplay access value =>
    simp only [approvalMachine, ApprovalOwners.projectApprovalReplay, ApprovalEvent.observed]
    cases replayed access value with
    | error failure => simpa using tracks
    | ok replay =>
      obtain ⟨replay, sessionKey, approvals⟩ := replay
      exact tracks.replayApprovals access sessionKey approvals
  | get access params =>
    simp only [approvalMachine, ApprovalGateway.forward, ApprovalEvent.observed, List.append_nil]
    split <;> exact tracks
  | resolve access params =>
    simp only [approvalMachine, ApprovalGateway.forward, ApprovalEvent.observed, List.append_nil]
    split <;> exact tracks

end ApprovalOwners

theorem sessionDecision_text {decision : ScriptValue} {text : String}
    (allowed : isSessionDecision decision = true) (named : nonEmptyString (some decision) = some text) :
    text = "allow-once" ∨ text = "deny" := by
  cases decision with
  | text value =>
    simp only [isSessionDecision, Bool.or_eq_true, decide_eq_true_eq] at allowed
    rcases allowed with rfl | rfl
    · exact .inl (Option.some.inj named).symm
    · exact .inr (Option.some.inj named).symm
  | array | object | plain => cases named

/-- A binding names a session, and decides for that session alone. -/
structure ApprovalBinding.Confined (binding : ApprovalBinding) : Prop where
  decisions : ∀ decision ∈ binding.allowedDecisions, decision = "allow-once" ∨ decision = "deny"
  session : ∃ sessionKey, binding.sessionKey = some sessionKey

theorem confined_of_shown {access : InteractiveAccess} {sessionKey id : String}
    {approval projected : Record} {binding : ApprovalBinding}
    (shown : projectSessionApproval approval = some projected)
    (held : approvalBinding? access sessionKey projected = some (id, binding)) :
    binding.Confined := by
  simp only [projectSessionApproval, Option.bind_eq_bind, Option.bind_eq_some_iff] at shown
  obtain ⟨presentation, -, decisions, -, shown⟩ := shown
  split at shown
  · cases shown
  cases shown
  simp only [approvalBinding?, Option.bind_eq_bind, Option.bind_eq_some_iff, field_setField,
    if_pos, ScriptValue.asRecord_object, Option.some.injEq] at held
  obtain ⟨id', -, presentation', rfl, kind, -, held⟩ := held
  split at held
  · cases held
  cases held
  refine { decisions := ?_, session := ⟨sessionKey, rfl⟩ }
  intro decision allowed
  simp only [field_setField, if_pos] at allowed
  obtain ⟨value, filtered, named⟩ := List.mem_filterMap.mp allowed
  exact sessionDecision_text (List.mem_filter.mp filtered).2 named

theorem confined_of_observed {event : ApprovalEvent} {id : String} {binding : ApprovalBinding}
    (seen : (id, binding) ∈ event.observed) : binding.Confined := by
  cases event with
  | sessionApproval access payload =>
    obtain ⟨⟨sessionKey, projected⟩, shown, held⟩ :=
      Option.bind_eq_some_iff.mp (Option.mem_toList.mp seen)
    simp only [shownApproval, Option.bind_eq_bind, Option.bind_eq_some_iff] at shown
    obtain ⟨payload, -, projected', ⟨approval, -, shown⟩, key, -, same⟩ := shown
    cases same
    exact confined_of_shown shown held
  | approvalReplay access value =>
    simp only [ApprovalEvent.observed] at seen
    split at seen
    · cases seen
    · obtain ⟨approval, -, held⟩ := List.mem_filterMap.mp seen
      obtain ⟨projected, shown, held⟩ := Option.bind_eq_some_iff.mp held
      obtain ⟨approval, -, shown⟩ := Option.bind_eq_some_iff.mp shown
      exact confined_of_shown shown held
  | get | resolve => cases seen

theorem confined_of_lastObserved {events : List ApprovalEvent} {id : String}
    {binding : ApprovalBinding} (last : lastObserved (observations events) id = some binding) :
    binding.Confined := by
  obtain ⟨⟨_, _⟩, found, rfl⟩ := Option.map_eq_some_iff.mp last
  have seen := List.mem_reverse.mp (List.mem_of_find?_eq_some found)
  obtain ⟨event, -, seen⟩ := List.mem_flatMap.mp seen
  exact confined_of_observed seen

/-- A resolution that the observations before it permit the browser. -/
structure Permitted (access : InteractiveAccess) (seen : List (String × ApprovalBinding))
    (id kind decision : String) (binding : ApprovalBinding) : Prop where
  last : lastObserved seen id = some binding
  agent : binding.agentId = access.agentId
  session : ∀ sessionKey, binding.sessionKey = some sessionKey →
    access.resolveAgentIdFromSessionKey sessionKey = some access.agentId ∧ access.mayWrite sessionKey = true
  kind : kind = binding.kind
  decision : decision ∈ binding.allowedDecisions

theorem ApprovalOwners.ownedBinding_ok {registry : ApprovalOwners} {access : InteractiveAccess}
    {id : String} {binding : ApprovalBinding}
    (found : registry.ownedBinding access id = .ok binding) :
    registry.get id = some binding ∧ access.owns binding = true := by
  simp only [ownedBinding] at found
  split at found
  · rename_i bound known
    split at found
    · rename_i owned
      cases found
      exact ⟨known, owned⟩
    · cases found
  · cases found

theorem ApprovalOwners.Tracks.resolveApproval {registry : ApprovalOwners}
    {seen : List (String × ApprovalBinding)} (tracks : registry.Tracks seen)
    {access : InteractiveAccess} {params : Record} {bound : ApprovalBinding}
    {request : ApprovalRequest}
    (forwarded : registry.resolveApproval access params = .ok (bound, request)) :
    ∃ id kind decision, request = .resolve id kind decision ∧ Permitted access seen id kind decision bound := by
  simp only [ApprovalOwners.resolveApproval, Except.bind_ok_iff] at forwarded
  obtain ⟨id, -, binding, found, forwarded⟩ := forwarded
  split at forwarded
  · rename_i kind decision _ _
    split at forwarded
    · rename_i matching
      cases forwarded
      obtain ⟨known, owned⟩ := ApprovalOwners.ownedBinding_ok found
      simp only [InteractiveAccess.owns, Bool.and_eq_true, decide_eq_true_eq] at owned
      refine ⟨id, kind, decision, rfl,
        { last := tracks id bound known
          agent := owned.1
          session := ?_
          kind := matching.1
          decision := matching.2 }⟩
      intro sessionKey named
      simpa [named] using owned.2
    · cases forwarded
  · cases forwarded

/-- One call forwards nothing, or a resolution it permits, or a read. -/
theorem forwarded_of_step {gateway : ApprovalGateway} {seen : List (String × ApprovalBinding)}
    (tracks : gateway.owners.Tracks seen) {event : ApprovalEvent} {access : InteractiveAccess}
    {id kind decision : String} (sent : (access, .resolve id kind decision) ∈
      (approvalMachine.step gateway event).forwarded) :
    (access, .resolve id kind decision) ∈ gateway.forwarded ∨ ∃ params binding, event = .resolve access params ∧
        Permitted access seen id kind decision binding := by
  cases event with
  | sessionApproval access payload => exact .inl sent
  | approvalReplay access value => exact .inl sent
  | get asking params =>
    simp only [approvalMachine, ApprovalGateway.forward] at sent
    split at sent
    · exact .inl sent
    · rename_i bound request asked
      refine .inl ((List.mem_append.mp sent).resolve_right fun new => ?_)
      cases List.mem_singleton.mp new
      simp only [ApprovalOwners.getApproval, Except.bind_ok_iff] at asked
      obtain ⟨_, -, _, -, asked⟩ := asked
      cases asked
  | resolve asking params =>
    simp only [approvalMachine, ApprovalGateway.forward] at sent
    split at sent
    · exact .inl sent
    · rename_i bound request asked
      refine (List.mem_append.mp sent).imp_right fun new => ?_
      cases List.mem_singleton.mp new
      obtain ⟨_, _, _, same, permitted⟩ := tracks.resolveApproval asked
      cases same
      exact ⟨params, bound, rfl, permitted⟩

theorem forwarded_of_run {gateway : ApprovalGateway} {earlier : List ApprovalEvent}
    (tracks : gateway.owners.Tracks (observations earlier)) {events : List ApprovalEvent}
    {access : InteractiveAccess} {id kind decision : String}
    (sent : (access, .resolve id kind decision) ∈ (approvalMachine.run gateway events).forwarded) :
    (access, .resolve id kind decision) ∈ gateway.forwarded ∨
      ∃ middle params later binding, events = middle ++ .resolve access params :: later ∧
        Permitted access (observations (earlier ++ middle)) id kind decision binding := by
  induction events generalizing gateway earlier with
  | nil => exact .inl sent
  | cons event rest ih =>
    have next : (approvalMachine.step gateway event).owners.Tracks (observations (earlier ++ [event])) := by
      simpa [observations] using tracks.step event
    rcases ih next sent with now | ⟨middle, params, later, binding, rfl, permitted⟩
    · rcases forwarded_of_step tracks now with before | ⟨params, binding, rfl, permitted⟩
      · exact .inl before
      · refine .inr ⟨[], params, rest, binding, rfl, ?_⟩
        rwa [List.append_nil]
    · refine .inr ⟨event :: middle, params, later, binding, rfl, ?_⟩
      simpa using permitted

/-- A resolution is forwarded only for an approval that was last observed in a session of the
    browser that asks, with the kind it was observed with and one of its decisions, which do not
    reach beyond the session. -/
theorem resolution_bound {events : List ApprovalEvent} {access : InteractiveAccess}
    {id kind decision : String} (sent : (access, .resolve id kind decision) ∈
      (approvalMachine.run ApprovalGateway.fresh events).forwarded) :
    ∃ earlier params later binding, events = earlier ++ .resolve access params :: later ∧
      lastObserved (observations earlier) id = some binding ∧
      binding.agentId = access.agentId ∧
      (∃ sessionKey, binding.sessionKey = some sessionKey ∧
        access.resolveAgentIdFromSessionKey sessionKey = some access.agentId ∧ access.mayWrite sessionKey = true) ∧
      kind = binding.kind ∧ decision ∈ binding.allowedDecisions ∧
      (decision = "allow-once" ∨ decision = "deny") := by
  have tracks : ApprovalGateway.fresh.owners.Tracks (observations []) :=
    fun _ _ found => nomatch found
  rcases forwarded_of_run tracks sent with none | ⟨earlier, params, later, binding, rfl, permitted⟩
  · cases none
  · have confined := confined_of_lastObserved permitted.last
    obtain ⟨sessionKey, own⟩ := confined.session
    exact ⟨earlier, params, later, binding, rfl, permitted.last, permitted.agent,
      ⟨sessionKey, own, permitted.session sessionKey own⟩, permitted.kind, permitted.decision,
      confined.decisions decision permitted.decision⟩

/-- A browser of one agent, with one session. -/
def kimsBrowser : InteractiveAccess where
  agentId := "kim"
  resolveAgentIdFromSessionKey := fun sessionKey => if sessionKey = "main" then some "kim" else none
  canAccessSession := none

def allowOnce : List ApprovalEvent :=
  [.sessionApproval kimsBrowser (some (.object [("sessionKey", .text "main"),
      ("approval", .object [("id", .text "a1"), ("presentation", .object [("kind", .text "exec"),
        ("allowedDecisions", .array [.text "allow-once", .text "allow-always", .text "deny"])])])])),
    .resolve kimsBrowser [("id", .text "a1"), ("kind", .text "exec"), ("decision", .text "allow-once")]]

theorem allowOnce_bound : ∃ earlier params later binding,
    allowOnce = earlier ++ .resolve kimsBrowser params :: later ∧
      lastObserved (observations earlier) "a1" = some binding ∧ binding.agentId = "kim" ∧
      (∃ sessionKey, binding.sessionKey = some sessionKey ∧
        kimsBrowser.resolveAgentIdFromSessionKey sessionKey = some "kim" ∧
          kimsBrowser.mayWrite sessionKey = true) ∧
      "exec" = binding.kind ∧ "allow-once" ∈ binding.allowedDecisions ∧
      ("allow-once" = "allow-once" ∨ "allow-once" = "deny") :=
  resolution_bound (List.mem_singleton_self _)

end PlatformClaw.Browser
