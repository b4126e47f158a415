import PlatformClaw.Reef.Inbound
import PlatformClaw.Reef.ReplayStores

/-! # Every message is accepted at most once

The pipeline is run against any store that keeps the replay contract. As long as
a binding is retained its hash stays, and once completed it stays as it is, so
that every later delivery is answered with it.
-/

namespace PlatformClaw.Reef

/-- A binding keeps its hash, and its state once it is finished. -/
def Kept {β : Type} (before after : Option (Binding β)) : Prop :=
  ∀ bound, before = some bound → ∃ now, after = some now ∧ now.envelopeHash = bound.envelopeHash ∧
    (bound.state ≠ .unfinished → now = bound)

namespace Kept

variable {β : Type} {before after : Option (Binding β)}

theorem refl (binding : Option (Binding β)) : Kept binding binding :=
  fun bound found => ⟨bound, found, rfl, fun _ => rfl⟩

theorem of_eq (same : after = before) : Kept before after := by
  rw [same]
  exact refl before

theorem trans {late : Option (Binding β)} (first : Kept before after) (second : Kept after late) :
    Kept before late := by
  intro bound found
  obtain ⟨now, foundNow, sameHash, stays⟩ := first bound found
  obtain ⟨then_, foundThen, laterHash, staysLater⟩ := second now foundNow
  refine ⟨then_, foundThen, laterHash.trans sameHash, ?_⟩
  intro done
  have same := stays done
  rw [← same] at done
  exact (staysLater done).trans same

end Kept

theorem ClaimLaw.kept {β : Type} {hash : String} {before after : Option (Binding β)}
    {result : Except ReplayError ReplayClaim} (law : ClaimLaw hash before result after) :
    Kept before after := by
  cases law with
  | failed _ | again | mismatch _ | inFlight | duplicate _ => exact .refl _
  | fresh =>
    intro _ found
    cases found

theorem CompleteLaw.kept {β : Type} {receipt : SignedReceipt} {body : Option β}
    {before after : Option (Binding β)} {result : Except ReplayError Unit}
    (law : CompleteLaw receipt body before result after) : Kept before after := by
  cases law with
  | failed _ => exact .refl _
  | done hash =>
    intro bound found
    cases found
    exact ⟨_, rfl, rfl, fun finished => absurd rfl finished⟩

def InboundEvent.clock : InboundEvent → Option Nat
  | .advance _ (.store site) => some site.moment.now
  | .heartbeat _ site => some site.moment.now
  | .sweep now => some now
  | _ => none

namespace InboundWorld

variable {S : Type} {protocol : ReefProtocol} {store : ReplayStore MessageBody S}
  {binding : S → String × String → Option (Binding MessageBody)}
  {retains : S → Nat → String × String → Prop} {valid : S → Prop}

/-- The store still has the record of the key when the step is taken. -/
def Retained (retains : S → Nat → String × String → Prop) (key : String × String)
    (world : InboundWorld S) (event : InboundEvent) : Prop :=
  ∀ now ∈ event.clock, retains world.store now key

variable (protocol) in
theorem storeCall_kept (contract : store.Contract binding retains valid) (world : InboundWorld S)
    (options : ComposeInboundOptions) (site : CallSite) (stage : InboundStage)
    (isValid : valid world.store) :
    valid (world.storeCall protocol store options site stage).1 ∧
      ∀ key, retains world.store site.moment.now key → Kept (binding world.store key)
        (binding (world.storeCall protocol store options site stage).1 key) := by
  cases stage with
  | opening =>
    obtain ⟨still, others, own⟩ := contract.claim world.store site (protocol.peer options)
      options.envelope.id (protocol.envelopeHash options.envelope) isValid
    refine ⟨still, ?_⟩
    intro key retained
    by_cases same : key = (protocol.peer options, options.envelope.id)
    · subst same
      exact (own retained).kept
    · exact .of_eq (others key same retained)
  | abandoning error =>
    obtain ⟨still, same⟩ := contract.release world.store site (protocol.peer options) options.envelope.id isValid
    exact ⟨still, fun key retained => .of_eq (same key retained)⟩
  | renewing body ruling =>
    obtain ⟨still, same⟩ := contract.refresh world.store site (protocol.peer options) options.envelope.id isValid
    exact ⟨still, fun key retained => .of_eq (same key retained)⟩
  | completing body receipt ruling =>
    obtain ⟨still, others, own⟩ := contract.complete world.store site (protocol.peer options)
      options.envelope.id receipt (ruling.storedBody body) isValid
    refine ⟨still, ?_⟩
    intro key retained
    by_cases same : key = (protocol.peer options, options.envelope.id)
    · subst same
      exact (own retained).kept
    · exact .of_eq (others key same retained)
  | lookingUp | classifying | auditingVerdict | reviewing | auditingApproval | auditingDenial
  | auditingRejection | auditingInbox | auditingReceipt | accepted | duplicate | failed =>
    exact ⟨isValid, fun key _ => .refl _⟩

variable (protocol) in
theorem step_kept (contract : store.Contract binding retains valid) (world : InboundWorld S)
    (event : InboundEvent) (isValid : valid world.store) :
    valid (world.step protocol store event).store ∧
      ∀ key, Retained retains key world event → Kept (binding world.store key)
        (binding (world.step protocol store event).store key) := by
  cases event with
  | deliver run options =>
    unfold step deliver
    dsimp only
    split
    · exact ⟨isValid, fun key _ => .refl _⟩
    · split <;> exact ⟨isValid, fun key _ => .refl _⟩
  | sweep now =>
    obtain ⟨still, same⟩ := contract.sweep world.store now isValid
    exact ⟨still, fun key retained => .of_eq (same key (retained now rfl))⟩
  | heartbeat run site =>
    unfold step heartbeat
    dsimp only
    split
    · exact ⟨isValid, fun key _ => .refl _⟩
    · rename_i options stage _
      split
      · obtain ⟨still, same⟩ := contract.refresh world.store
          { site with instanceId := options.instanceId } (protocol.peer options)
          options.envelope.id isValid
        exact ⟨still, fun key retained => .of_eq (same key (retained _ rfl))⟩
      · exact ⟨isValid, fun key _ => .refl _⟩
  | advance run input =>
    unfold step advance
    dsimp only
    split
    · exact ⟨isValid, fun key _ => .refl _⟩
    · rename_i options stage _
      cases input with
      | store site =>
        obtain ⟨still, kept⟩ := storeCall_kept protocol contract world options
          { site with instanceId := options.instanceId } stage isValid
        exact ⟨still, fun key retained => kept key (retained _ rfl)⟩
      | append | classify | review => exact ⟨isValid, fun key _ => .refl _⟩

theorem run_kept (contract : store.Contract binding retains valid) {world : InboundWorld S}
    (isValid : valid world.store) {key : String × String} {events : List InboundEvent}
    (retained : (machine protocol store).Meets (Retained retains key) world events) :
    valid ((machine protocol store).run world events).store ∧ Kept (binding world.store key)
      (binding ((machine protocol store).run world events).store key) := by
  refine Machine.Meets.invariant (P := fun late => valid late.store ∧
    Kept (binding world.store key) (binding late.store key)) ?_ ⟨isValid, .refl _⟩ retained
  intro state event held before
  obtain ⟨still, kept⟩ := step_kept protocol contract state event before.1
  exact ⟨still, before.2.trans (kept key held)⟩

/-- Where a delivery that comes after the binding can be: an error before the claim or of the
store, a mismatch for another envelope, and otherwise the receipt and body of the completion. -/
inductive Served (protocol : ReefProtocol) (options : ComposeInboundOptions) (hash : String)
    (completion : Option (SignedReceipt × Option MessageBody)) : InboundStage → Prop
  | opening : Served protocol options hash completion .opening
  | refused {code : ProtocolErrorCode} : protocol.refusal options = some code →
      Served protocol options hash completion (.failed (.protocol code))
  | storeFailed (error : ReplayError) :
      Served protocol options hash completion (.failed (.replay error))
  | mismatch : protocol.envelopeHash options.envelope ≠ hash →
      Served protocol options hash completion (.failed (.protocol .replayed))
  | lookingUp : protocol.envelopeHash options.envelope = hash →
      Served protocol options hash completion .lookingUp
  | answered {receipt : SignedReceipt} {body : Option MessageBody} :
      protocol.envelopeHash options.envelope = hash → completion = some (receipt, body) →
      Served protocol options hash completion (.duplicate receipt body)

/-- The binding has this hash, and this completion if there is one. -/
def BoundTo (binding : S → String × String → Option (Binding MessageBody)) (store : S)
    (key : String × String) (hash : String) (completion : Option (SignedReceipt × Option MessageBody)) :
    Prop :=
  ∃ bound, binding store key = some bound ∧ bound.envelopeHash = hash ∧
    ∀ receipt body, completion = some (receipt, body) → bound.state = .completed receipt body

/-- A delivery that the binding decides: it is completed, or that of another envelope. -/
def Decided (protocol : ReefProtocol) (options : ComposeInboundOptions) (hash : String)
    (completion : Option (SignedReceipt × Option MessageBody)) : Prop :=
  protocol.envelopeHash options.envelope = hash → completion.isSome = true

theorem BoundTo.kept {before after : S} {key : String × String} {hash : String}
    {completion : Option (SignedReceipt × Option MessageBody)}
    (bound : BoundTo binding before key hash completion)
    (kept : Kept (binding before key) (binding after key)) :
    BoundTo binding after key hash completion := by
  obtain ⟨old, found, sameHash, completed⟩ := bound
  obtain ⟨now, foundNow, stillHash, stays⟩ := kept old found
  refine ⟨now, foundNow, stillHash.trans sameHash, ?_⟩
  intro receipt body isCompletion
  have state := completed receipt body isCompletion
  rw [stays (by rw [state]; intro same; cases same)]
  exact state

theorem storeCall_served (contract : store.Contract binding retains valid) {world : InboundWorld S}
    {options : ComposeInboundOptions} {site : CallSite} {stage : InboundStage} {hash : String}
    {completion : Option (SignedReceipt × Option MessageBody)} (isValid : valid world.store)
    (retained : retains world.store site.moment.now (protocol.key options))
    (bound : BoundTo binding world.store (protocol.key options) hash completion)
    (decided : Decided protocol options hash completion)
    (served : Served protocol options hash completion stage) :
    Served protocol options hash completion (world.storeCall protocol store options site stage).2 := by
  obtain ⟨now, found, rfl, completed⟩ := bound
  -- an unfinished binding decides no delivery of its own envelope
  have finished : protocol.envelopeHash options.envelope = now.envelopeHash → now.state ≠ .unfinished := by
    intro same unfinished
    obtain ⟨⟨receipt, body⟩, isCompletion⟩ := Option.isSome_iff_exists.mp (decided same)
    rw [completed receipt body isCompletion] at unfinished
    cases unfinished
  cases served with
  | refused refusal => exact .refused refusal
  | storeFailed error => exact .storeFailed error
  | mismatch apart => exact .mismatch apart
  | answered same isCompletion => exact .answered same isCompletion
  | lookingUp same =>
    obtain ⟨⟨receipt, body⟩, isCompletion⟩ := Option.isSome_iff_exists.mp (decided same)
    have state := completed receipt body isCompletion
    have law := contract.completed world.store site (protocol.peer options) options.envelope.id
    unfold storeCall
    dsimp only
    cases result : store.completed world.store site (protocol.peer options) options.envelope.id with
    | error error => exact .storeFailed error
    | ok answer =>
      have stored : binding world.store (protocol.key options) =
          some ⟨now.envelopeHash, .completed receipt body⟩ := by
        rw [found, ← state]
      rw [(law answer isValid retained result receipt body).mpr ⟨_, stored⟩]
      exact .answered same isCompletion
  | opening =>
    obtain ⟨_, _, own⟩ := contract.claim world.store site (protocol.peer options)
      options.envelope.id (protocol.envelopeHash options.envelope) isValid
    have law := own retained
    unfold storeCall
    dsimp only
    rw [show binding world.store (protocol.peer options, options.envelope.id) = some now from found] at law
    generalize store.claim world.store site (protocol.peer options) options.envelope.id
      (protocol.envelopeHash options.envelope) = answer at law ⊢
    obtain ⟨state, result⟩ := answer
    generalize binding state (protocol.peer options, options.envelope.id) = after at law
    dsimp only at law
    cases law with
    | failed error => exact .storeFailed error
    | mismatch apart => exact .mismatch fun same => apart same.symm
    | duplicate _ => exact .lookingUp rfl
    | again | inFlight => exact absurd rfl (finished rfl)

theorem Served.answer {options : ComposeInboundOptions} {stage : InboundStage} {hash : String}
    {completion : Option (SignedReceipt × Option MessageBody)}
    (served : Served protocol options hash completion stage) (input : InboundInput) :
    InboundWorld.answered protocol options stage input = stage := by
  cases served with
  | opening | refused _ | storeFailed _ | mismatch _ | lookingUp _ | answered _ _ =>
    cases input <;> rfl

theorem Served.append {options : ComposeInboundOptions} {stage : InboundStage} {hash : String}
    {completion : Option (SignedReceipt × Option MessageBody)}
    (served : Served protocol options hash completion stage) (world : InboundWorld S)
    (stored : Bool) : world.appendAudit protocol options stored stage = (world.audit, stage) := by
  cases served with
  | opening | refused _ | storeFailed _ | mismatch _ | lookingUp _ | answered _ _ => rfl

/-- Every delivery among these runs that the binding of the key decides is served. -/
def AllServed (protocol : ReefProtocol) (key : String × String) (hash : String)
    (completion : Option (SignedReceipt × Option MessageBody)) (late : Nat → Prop)
    (world : InboundWorld S) : Prop :=
  ∀ run delivery, late run → world.runs run = some delivery → protocol.key delivery.options = key →
    Decided protocol delivery.options hash completion →
    Served protocol delivery.options hash completion delivery.stage

theorem runs_setStage {world : InboundWorld S} {run other : Nat} {options : ComposeInboundOptions}
    {stage : InboundStage} {delivery : InboundRun}
    (found : (world.setStage run options stage).runs other = some delivery) :
    (other = run ∧ delivery = { options, stage }) ∨ world.runs other = some delivery := by
  unfold setStage at found
  dsimp only at found
  split at found
  · rename_i same
    exact .inl ⟨same, (Option.some.inj found).symm⟩
  · exact .inr found

theorem AllServed.setStage {key : String × String} {hash : String}
    {completion : Option (SignedReceipt × Option MessageBody)} {late : Nat → Prop}
    {world : InboundWorld S} (all : AllServed protocol key hash completion late world) {run : Nat}
    {options : ComposeInboundOptions} {stage : InboundStage}
    (own : late run → protocol.key options = key → Decided protocol options hash completion →
      Served protocol options hash completion stage) :
    AllServed protocol key hash completion late (world.setStage run options stage) := by
  intro other delivery isLate found sameKey decided
  cases runs_setStage found with
  | inl new =>
    obtain ⟨rfl, rfl⟩ := new
    exact own isLate sameKey decided
  | inr before => exact all other delivery isLate before sameKey decided

theorem step_served (contract : store.Contract binding retains valid) {world : InboundWorld S}
    {event : InboundEvent} {key : String × String} {hash : String}
    {completion : Option (SignedReceipt × Option MessageBody)} {late : Nat → Prop}
    (isValid : valid world.store) (retained : Retained retains key world event)
    (bound : BoundTo binding world.store key hash completion)
    (all : AllServed protocol key hash completion late world) :
    AllServed protocol key hash completion late (world.step protocol store event) := by
  cases event with
  | deliver run options =>
    unfold step deliver
    dsimp only
    split
    · exact all
    · split
      · rename_i code refusal
        exact all.setStage fun _ _ _ => .refused refusal
      · exact all.setStage fun _ _ _ => .opening
  | sweep now => exact all
  | heartbeat run site =>
    unfold step heartbeat
    dsimp only
    split
    · exact all
    · split <;> exact all
  | advance run input =>
    unfold step advance
    dsimp only
    split
    · exact all
    · rename_i options stage found
      have current : late run → protocol.key options = key → Decided protocol options hash completion →
          Served protocol options hash completion stage := fun isLate sameKey decided =>
        all run _ isLate found sameKey decided
      cases input with
      | store site =>
        refine @AllServed.setStage _ _ _ _ _ _ world all _ _ _ ?_
        intro isLate sameKey decided
        subst sameKey
        exact storeCall_served contract isValid (retained _ rfl) bound decided (current isLate rfl decided)
      | append stored =>
        refine @AllServed.setStage _ _ _ _ _ _ world all _ _ _ ?_
        intro isLate sameKey decided
        rw [(current isLate sameKey decided).append world stored]
        exact current isLate sameKey decided
      | classify | review =>
        refine all.setStage ?_
        intro isLate sameKey decided
        rw [(current isLate sameKey decided).answer]
        exact current isLate sameKey decided

theorem run_served (contract : store.Contract binding retains valid) {world : InboundWorld S}
    {key : String × String} {hash : String}
    {completion : Option (SignedReceipt × Option MessageBody)} {late : Nat → Prop}
    (isValid : valid world.store) (bound : BoundTo binding world.store key hash completion)
    (all : AllServed protocol key hash completion late world) {events : List InboundEvent}
    (retained : (machine protocol store).Meets (Retained retains key) world events) :
    AllServed protocol key hash completion late ((machine protocol store).run world events) := by
  refine (Machine.Meets.invariant (P := fun now => valid now.store ∧
    BoundTo binding now.store key hash completion ∧ AllServed protocol key hash completion late now)
    ?_ ⟨isValid, bound, all⟩ retained).2.2
  intro state event held ⟨stateValid, stateBound, stateAll⟩
  obtain ⟨still, kept⟩ := step_kept protocol contract state event stateValid
  exact ⟨still, stateBound.kept (kept key held), step_served contract stateValid held stateBound stateAll⟩

def issued : InboundStage → Option (MessageBody × SignedReceipt)
  | .auditingReceipt body receipt _ => some (body, receipt)
  | .completing body receipt _ => some (body, receipt)
  | .accepted body _ receipt => some (body, receipt)
  | _ => none

def InboxAudited (protocol : ReefProtocol) (options : ComposeInboundOptions)
    (audit : List AuditEvent) (body : MessageBody) : Prop :=
  ∃ digest text verdict, .inbox options.envelope.id (protocol.bodyHash body) digest text verdict ∈ audit

/-- An accepted receipt carries the hash of its body, which the audit has an inbox entry for. -/
def Backed (protocol : ReefProtocol) (options : ComposeInboundOptions) (audit : List AuditEvent)
    (stage : InboundStage) : Prop :=
  ∀ body receipt, issued stage = some (body, receipt) → receipt.status = .accepted →
    receipt.bodyHash = protocol.bodyHash body ∧ InboxAudited protocol options audit body

theorem Backed.of_not_issued {options : ComposeInboundOptions} {audit : List AuditEvent}
    {stage : InboundStage} (none_ : issued stage = none) : Backed protocol options audit stage := by
  intro body receipt found
  rw [none_] at found
  cases found

theorem Backed.of_issued {options : ComposeInboundOptions} {audit : List AuditEvent}
    {stage next : InboundStage} (backed : Backed protocol options audit stage)
    (same : issued next = none ∨ issued next = issued stage) : Backed protocol options audit next := by
  cases same with
  | inl none_ => exact .of_not_issued none_
  | inr same =>
    intro body receipt found
    exact backed body receipt (same ▸ found)

theorem Backed.grow {options : ComposeInboundOptions} {audit : List AuditEvent}
    {stage : InboundStage} (backed : Backed protocol options audit stage) (more : List AuditEvent) :
    Backed protocol options (audit ++ more) stage := by
  intro body receipt found accepted
  obtain ⟨sameHash, digest, text, verdict, inAudit⟩ := backed body receipt found accepted
  exact ⟨sameHash, digest, text, verdict, List.mem_append_left more inAudit⟩

theorem issued_judge (body : MessageBody) : issued (judge protocol body) = none := by
  unfold judge
  split <;> rfl

theorem issued_rule (body : MessageBody) (afterApproval : Bool) (verdict : Verdict) :
    issued (rule body afterApproval verdict) = none := by
  unfold rule
  cases verdict.decision with
  | deny | allow => rfl
  | review => cases afterApproval <;> rfl

theorem issued_claimed (options : ComposeInboundOptions) (clock : Int) (result : Except ReplayError ReplayClaim) :
    issued (claimed protocol options clock result) = none := by
  unfold claimed
  split
  · rfl
  · rfl
  · rfl
  · rfl
  · split
    · rfl
    · exact issued_judge _

theorem issued_lookedUp (result : Except ReplayError (Option (SignedReceipt × Option MessageBody))) :
    issued (lookedUp result) = none := by
  unfold lookedUp
  split <;> rfl

theorem issued_abandoned (error : InboundError) (result : Except ReplayError Unit) :
    issued (abandoned error result) = none := by
  unfold abandoned
  split <;> rfl

theorem issued_renewed (body : MessageBody) (ruling : Ruling) (result : Except ReplayError Unit) :
    issued (renewed body ruling result) = none := by
  unfold renewed
  split
  · rfl
  · split <;> rfl

theorem issued_finished (body : MessageBody) (receipt : SignedReceipt) (ruling : Ruling)
    (result : Except ReplayError Unit) : issued (finished body receipt ruling result) = none ∨
      issued (finished body receipt ruling result) = some (body, receipt) := by
  unfold finished
  split
  · exact .inl rfl
  · split
    · exact .inr rfl
    · exact .inl rfl

theorem issued_storeCall (world : InboundWorld S) (options : ComposeInboundOptions)
    (site : CallSite) (stage : InboundStage) :
    issued (world.storeCall protocol store options site stage).2 = none ∨
      issued (world.storeCall protocol store options site stage).2 = issued stage := by
  cases stage with
  | opening => exact .inl (issued_claimed options _ _)
  | lookingUp => exact .inl (issued_lookedUp _)
  | abandoning error => exact .inl (issued_abandoned error _)
  | renewing body ruling => exact .inl (issued_renewed body ruling _)
  | completing body receipt ruling => exact issued_finished body receipt ruling _
  | classifying | auditingVerdict | reviewing | auditingApproval | auditingDenial
  | auditingRejection | auditingInbox | auditingReceipt | accepted | duplicate | failed =>
    exact .inr rfl

theorem issued_reviewed (options : ComposeInboundOptions) (body : MessageBody) (verdict : Verdict)
    (answer : Option ReviewApproval) : issued (reviewed protocol options body verdict answer) = none := by
  unfold reviewed
  split
  · rfl
  · split
    · rfl
    · split <;> rfl

theorem issued_answered (options : ComposeInboundOptions) (stage : InboundStage)
    (input : InboundInput) : issued (answered protocol options stage input) = none ∨
      issued (answered protocol options stage input) = issued stage := by
  unfold answered
  split
  · exact .inl rfl
  · exact .inl rfl
  · exact .inl rfl
  · exact .inl (issued_reviewed options _ _ _)
  · exact .inr rfl

theorem appendAudit_backed {world : InboundWorld S} {options : ComposeInboundOptions}
    {stage : InboundStage} (backed : Backed protocol options world.audit stage) (stored : Bool) :
    Backed protocol options (world.appendAudit protocol options stored stage).1
      (world.appendAudit protocol options stored stage).2 := by
  unfold appendAudit
  split
  · exact backed
  · rename_i event isEvent
    cases stored with
    | false => exact .of_not_issued rfl
    | true =>
      simp only [if_true]
      cases stage with
      | auditingVerdict body afterApproval verdict => exact .of_not_issued (issued_rule _ _ _)
      | auditingApproval | auditingDenial => exact .of_not_issued rfl
      | auditingRejection body rejection =>
        intro _ _ found accepted
        cases found
        cases accepted
      | auditingInbox body verdict =>
        intro _ _ found _
        cases found
        cases isEvent
        exact ⟨rfl, _, _, _, List.mem_append_right _ (List.mem_singleton.mpr rfl)⟩
      | auditingReceipt body receipt ruling =>
        exact (backed.grow [event]).of_issued (.inr rfl)
      | opening | lookingUp | abandoning | classifying | reviewing | renewing | completing
      | accepted | duplicate | failed => cases isEvent

/-- Every run's receipt is backed by the audit. -/
def AllBacked (protocol : ReefProtocol) (world : InboundWorld S) : Prop :=
  ∀ run delivery, world.runs run = some delivery → Backed protocol delivery.options world.audit delivery.stage

theorem AllBacked.setStage {world : InboundWorld S} (all : AllBacked protocol world) {run : Nat}
    {options : ComposeInboundOptions} {stage : InboundStage}
    (own : Backed protocol options world.audit stage) :
    AllBacked protocol (world.setStage run options stage) := by
  intro other delivery found
  cases runs_setStage found with
  | inl new =>
    obtain ⟨rfl, rfl⟩ := new
    exact own
  | inr before => exact all other delivery before

variable (protocol) in
theorem appendAudit_audit (world : InboundWorld S) (options : ComposeInboundOptions) (stored : Bool)
    (stage : InboundStage) :
    ∃ more, (world.appendAudit protocol options stored stage).1 = world.audit ++ more := by
  unfold appendAudit
  split
  · exact ⟨[], (List.append_nil _).symm⟩
  · split
    · exact ⟨_, rfl⟩
    · exact ⟨[], (List.append_nil _).symm⟩

theorem step_backed (world : InboundWorld S) (event : InboundEvent)
    (all : AllBacked protocol world) : AllBacked protocol (world.step protocol store event) := by
  cases event with
  | deliver run options =>
    unfold step deliver
    dsimp only
    split
    · exact all
    · split <;> exact all.setStage (.of_not_issued rfl)
  | sweep now => exact all
  | heartbeat run site =>
    unfold step heartbeat
    dsimp only
    split
    · exact all
    · split <;> exact all
  | advance run input =>
    unfold step advance
    dsimp only
    split
    · exact all
    · rename_i options stage found
      have current := all run _ found
      cases input with
      | store site =>
        exact @AllBacked.setStage _ _ world all run options _
          (current.of_issued (issued_storeCall world options _ stage))
      | append stored =>
        obtain ⟨more, grown⟩ := appendAudit_audit protocol world options stored stage
        have grownAll : AllBacked protocol { world with audit := world.audit ++ more } :=
          fun other delivery before => (all other delivery before).grow more
        have own := appendAudit_backed current stored
        dsimp only
        rw [grown] at own ⊢
        exact grownAll.setStage own
      | classify | review => exact all.setStage (current.of_issued (issued_answered options stage _))

theorem run_backed (state : S) (events : List InboundEvent) :
    AllBacked protocol ((machine protocol store).run (start state) events) := by
  refine Machine.run_invariant (P := fun world => AllBacked protocol world)
    (fun world event all => step_backed world event all) ?_ events
  intro run delivery found
  cases found

/-- What the pipeline guarantees for every key, as long as the store retains its record. -/
structure AcceptedAtMostOnce (protocol : ReefProtocol) (store : ReplayStore MessageBody S)
    (binding : S → String × String → Option (Binding MessageBody))
    (retains : S → Nat → String × String → Prop) (empty : S) : Prop where
  /-- The hash of a binding never changes, and a completion stays as it is. -/
  kept : ∀ early late key, (machine protocol store).Meets (Retained retains key)
      ((machine protocol store).run (start empty) early) late →
    Kept (binding ((machine protocol store).run (start empty) early).store key)
      (binding ((machine protocol store).run ((machine protocol store).run (start empty) early) late).store key)
  /-- A delivery that had not claimed by then is never opened under a completed binding, which it
  is answered with, or with another hash than that of the binding. -/
  served : ∀ early late key bound, (machine protocol store).Meets (Retained retains key)
      ((machine protocol store).run (start empty) early) late →
    binding ((machine protocol store).run (start empty) early).store key = some bound →
    ∀ run delivery, ((machine protocol store).run ((machine protocol store).run (start empty) early) late).runs
        run = some delivery →
      protocol.key delivery.options = key →
      (∀ before, ((machine protocol store).run (start empty) early).runs run = some before →
        before.stage = .opening) →
      Decided protocol delivery.options bound.envelopeHash bound.completion →
      Served protocol delivery.options bound.envelopeHash bound.completion delivery.stage
  /-- An accepted receipt is signed only after the inbox entry for its body hash. -/
  audited : ∀ events run delivery, ((machine protocol store).run (start empty) events).runs run = some delivery →
    Backed protocol delivery.options ((machine protocol store).run (start empty) events).audit delivery.stage

theorem run_valid (contract : store.Contract binding retains valid) {empty : S}
    (isValid : valid empty) (events : List InboundEvent) :
    valid ((machine protocol store).run (start empty) events).store :=
  Machine.run_invariant (P := fun world => valid world.store)
    (fun world event held => (step_kept protocol contract world event held).1) isValid
    events

theorem contract_accepts_once (contract : store.Contract binding retains valid) {empty : S}
    (isValid : valid empty) : AcceptedAtMostOnce protocol store binding retains empty where
  kept := fun early _ _ retained =>
    (run_kept contract (run_valid contract isValid early) retained).2
  served := by
    intro early late key bound retained found run delivery ran sameKey fresh decided
    have boundTo : BoundTo binding ((machine protocol store).run (start empty) early).store key
        bound.envelopeHash bound.completion := by
      refine ⟨bound, found, rfl, ?_⟩
      intro receipt body isCompletion
      exact bound.state_of_completion isCompletion
    let isLate : Nat → Prop := fun run => ∀ before,
      ((machine protocol store).run (start empty) early).runs run = some before → before.stage = .opening
    have all : AllServed protocol key bound.envelopeHash bound.completion isLate
        ((machine protocol store).run (start empty) early) := by
      intro run delivery late_ ranBefore _ _
      rw [late_ delivery ranBefore]
      exact .opening
    exact run_served contract (run_valid contract isValid early) boundTo all retained run delivery
      fresh ran sameKey decided
  audited := fun events run delivery ran => run_backed empty events run delivery ran

end InboundWorld

open InboundWorld

/-- Messages are accepted at most once, with the durable store as long as the record has not
expired, and with the store in memory throughout. -/
theorem inbound_accepted_at_most_once {σ : Type} (protocol : ReefProtocol)
    (encryptReplayBody : Nat → MessageBody → σ) (decryptReplayBody : σ → MessageBody)
    (decrypts : ∀ nonce body, decryptReplayBody (encryptReplayBody nonce body) = body)
    (maxEntries : Nat) :
    AcceptedAtMostOnce protocol (DurableReplay.store encryptReplayBody decryptReplayBody maxEntries)
      (DurableReplay.binding decryptReplayBody) DurableReplay.Retains DurableReplay.empty ∧
    AcceptedAtMostOnce protocol MemoryReplay.store MemoryReplay.binding (fun _ _ _ => True)
      MemoryReplay.empty := by
  constructor
  · apply contract_accepts_once (DurableReplay.store_contract encryptReplayBody decryptReplayBody decrypts maxEntries)
    intro key row found
    cases found
  · exact contract_accepts_once MemoryReplay.store_contract trivial

/-- Envelopes whose text is their ciphertext, and whose hash it is as well. -/
def plainProtocol : ReefProtocol where
  validateEnvelope _ := none
  verify _ _ := true
  metadataValid _ := true
  handle sender := String.ofList (sender.toList.takeWhile (· ≠ '#'))
  envelopeHash envelope := envelope.ct
  decrypt envelope _ := .ok { text := envelope.ct, replyTo := none, thread := none }
  bodyHash body := body.text
  approvalDigest id _ _ bodyHash _ := id ++ bodyHash
  checksAllow _ := true
  receiptSignature body _ := body.bodyHash
  auditHead audit := toString audit.length

theorem inbound_accepted_at_most_once_plain : AcceptedAtMostOnce plainProtocol
      (DurableReplay.store (fun nonce body => (nonce, body)) Prod.snd 3000)
      (DurableReplay.binding Prod.snd) DurableReplay.Retains DurableReplay.empty ∧
    AcceptedAtMostOnce plainProtocol MemoryReplay.store MemoryReplay.binding (fun _ _ _ => True)
      MemoryReplay.empty :=
  inbound_accepted_at_most_once plainProtocol (fun nonce body => (nonce, body)) Prod.snd
    (fun _ _ => rfl) 3000

/-- At most one hash is ever completed for a key, whether or not the record is retained. -/
def OneHashEver {S : Type} (protocol : ReefProtocol) (store : ReplayStore MessageBody S)
    (binding : S → String × String → Option (Binding MessageBody)) (empty : S) : Prop :=
  ∀ early late key first second, binding ((machine protocol store).run (start empty) early).store key = some first →
    binding ((machine protocol store).run ((machine protocol store).run (start empty) early)
      late).store key = some second →
    first.completion.isSome = true → second.completion.isSome = true →
    first.envelopeHash = second.envelopeHash

/-- The steps of a delivery that the guard allows, at one moment. -/
def allowedDelivery (run : Nat) (ct : String) (seconds : Nat) : List InboundEvent :=
  let site : CallSite :=
    { instanceId := 0, asked := seconds * 1000, nonce := 0
      moment := { now := seconds * 1000, pluginHasRoom := true, available := true } }
  let envelope : Envelope :=
    { v := 1, id := "01ARZ3NDEKTSV4RRFFQ69G5FAV", sender := "ana#1", «to» := "ben#1", ts := seconds
      epk := "", n := "", ct, sig := "" }
  [.deliver run
      { envelope, self := "ben#1", recipientEncryptionSecretKey := "", recipientSigningSecretKey := ""
        senderSigningPublicKey := some "", policyVersion := "1", now := none, maxAgeSeconds := none
        maxFutureSkewSeconds := none, instanceId := 0 },
    .advance run (.store site),
    .advance run (.classify (some
      { decision := .allow, category := "none", reason := "none", model := "model"
        policyVersion := "1" })),
    .advance run (.append true), .advance run (.store site), .advance run (.append true),
    .advance run (.append true), .advance run (.store site)]

/-- Once the record of a completed message has expired after 31 days, the peer's next envelope
under the same id is accepted as a new one. -/
theorem expired_record_rebound : ¬OneHashEver plainProtocol
      (DurableReplay.store (fun nonce body => (nonce, body)) Prod.snd 3000)
      (DurableReplay.binding Prod.snd) DurableReplay.empty := by
  intro once
  have same := once (allowedDelivery 0 "hello" 0) (allowedDelivery 1 "again" 2678400)
    ("ana", "01ARZ3NDEKTSV4RRFFQ69G5FAV") _ _ rfl rfl rfl rfl
  exact absurd same (by decide)

end PlatformClaw.Reef
