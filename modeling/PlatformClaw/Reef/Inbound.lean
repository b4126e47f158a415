import PlatformClaw.Library.Machine
import PlatformClaw.Reef.ReplayContract

/-! # The inbound pipeline

`composeInbound` from the checks before the claim to the completion, cut at its
awaits. A stage is what a run waits for next; one step carries out the store
call, the audit append or the answer it waits for, and everything up to the next
await. Any number of runs share the replay store and the audit.
-/

namespace PlatformClaw.Reef

structure MessageBody where
  text : String
  replyTo : Option String
  thread : Option String
deriving DecidableEq, Repr

/-- `Envelope`; `sender` is its `from`. -/
structure Envelope where
  v : Int
  id : String
  sender : String
  «to» : String
  ts : Int
  epk : String
  n : String
  ct : String
  sig : String
deriving DecidableEq, Repr

inductive ProtocolErrorCode
  | badSignature
  | notPinned
  | wrongRecipient
  | expired
  | replayed
  | tooLarge
  | malformed
deriving DecidableEq, Repr

inductive GuardDecision
  | allow
  | deny
  | review
deriving DecidableEq, Repr

structure Verdict where
  decision : GuardDecision
  category : String
  reason : String
  model : String
  policyVersion : String
deriving DecidableEq, Repr

structure ReviewApproval where
  approved : Bool
  approvalDigest : String
deriving DecidableEq, Repr

inductive Rejection
  | deterministic
  | guardDeny (verdict : Verdict)
  | reviewDenied (verdict : Verdict)
deriving DecidableEq, Repr

/-- The category in the receipt. -/
def Rejection.category : Rejection → String
  | .deterministic => "deterministic_deny"
  | .guardDeny _ => "guard_deny"
  | .reviewDenied _ => "review_denied"

inductive InboundError
  | protocol (code : ProtocolErrorCode)
  /-- A `PipelineError` for a rejected message, with the receipt for the relay. -/
  | rejected (rejection : Rejection) (receipt : SignedReceipt)
  /-- A `PipelineError` for a review that is pending, or approved for another digest. -/
  | reviewPending (verdict : Verdict)
  | replay (error : ReplayError)
  /-- The guard, the review gate or the audit store threw. -/
  | external
deriving DecidableEq, Repr

/-- The audit events of the pipeline. -/
inductive AuditEvent
  | deterministicVerdict (id approvalDigest : String)
  | guardVerdict (id bodyHash approvalDigest : String) (afterApproval : Bool) (verdict : Verdict)
  | reviewApproval (id bodyHash approvalDigest : String)
  | inboxRejected (id bodyHash approvalDigest category : String)
  | inbox (id bodyHash approvalDigest text : String) (verdict : Verdict)
  | receipt (id approvalDigest : String) (receipt : SignedReceipt)
deriving DecidableEq

/-- `ReceiptBody`, the part of a receipt that is signed. -/
structure ReceiptBody where
  id : String
  bodyHash : String
  auditHead : String
  status : ReceiptStatus
  category : Option String
deriving DecidableEq, Repr

/-- What the pipeline computes from envelopes, keys and texts. -/
structure ReefProtocol where
  /-- `validateEnvelope`: the error it throws. -/
  validateEnvelope : Envelope → Option ProtocolErrorCode
  /-- The signature over the rest of the envelope verifies under the key. -/
  verify : Envelope → String → Bool
  /-- `validateEnvelopeMetadata` throws nothing. -/
  metadataValid : Envelope → Bool
  /-- `parseHandleEpoch(…).handle`. -/
  handle : String → String
  envelopeHash : Envelope → String
  /-- The body under the recipient's secret key, or the error of decrypting and parsing it. -/
  decrypt : Envelope → String → Except ProtocolErrorCode MessageBody
  bodyHash : MessageBody → String
  /-- `computeApprovalDigest` of id, sender, recipient, body hash and policy version. -/
  approvalDigest : String → String → String → String → String → String
  /-- `deterministicChecks(…).allowed`. -/
  checksAllow : String → Bool
  /-- The signature of `signReceipt` under a secret key. -/
  receiptSignature : ReceiptBody → String → String
  /-- `entryHash` of the latest audit entry. -/
  auditHead : List AuditEvent → String

/-- `ComposeInboundOptions`; `instanceId` is the replay store object. -/
structure ComposeInboundOptions where
  envelope : Envelope
  self : String
  recipientEncryptionSecretKey : String
  recipientSigningSecretKey : String
  senderSigningPublicKey : Option String
  policyVersion : String
  now : Option Int
  maxAgeSeconds : Option Int
  maxFutureSkewSeconds : Option Int
  instanceId : Nat

/-- What is decided about a body before the claim is renewed for the last part. -/
inductive Ruling
  | accept (verdict : Verdict)
  | reject (rejection : Rejection)
deriving DecidableEq

inductive InboundStage
  /-- Before the claim. -/
  | opening
  /-- The claim was answered `duplicate`. -/
  | lookingUp
  /-- An error before the message is finalized: the claim is released. -/
  | abandoning (error : InboundError)
  | classifying (body : MessageBody) (afterApproval : Bool)
  | auditingVerdict (body : MessageBody) (afterApproval : Bool) (verdict : Verdict)
  | reviewing (body : MessageBody) (verdict : Verdict)
  | auditingApproval (body : MessageBody)
  | renewing (body : MessageBody) (ruling : Ruling)
  | auditingDenial (body : MessageBody)
  | auditingRejection (body : MessageBody) (rejection : Rejection)
  | auditingInbox (body : MessageBody) (verdict : Verdict)
  | auditingReceipt (body : MessageBody) (receipt : SignedReceipt) (ruling : Ruling)
  | completing (body : MessageBody) (receipt : SignedReceipt) (ruling : Ruling)
  | accepted (body : MessageBody) (verdict : Verdict) (receipt : SignedReceipt)
  | duplicate (receipt : SignedReceipt) (body : Option MessageBody)
  | failed (error : InboundError)
deriving DecidableEq

/-- What a run waits for, when it comes. -/
inductive InboundInput
  | store (site : CallSite)
  /-- The audit entry is appended, or the append throws. -/
  | append (stored : Bool)
  /-- The verdict that `admitVerdict` makes of the guard's answer, if the guard did not throw. -/
  | classify (verdict : Option Verdict)
  /-- The answer of the review gate, if it did not throw. -/
  | review (answer : Option (Option ReviewApproval))

namespace ReefProtocol

variable (protocol : ReefProtocol)

/-- The checks of `openClaimed` before the claim, in their order. -/
def refusal (options : ComposeInboundOptions) : Option ProtocolErrorCode :=
  match protocol.validateEnvelope options.envelope with
  | some code => some code
  | none =>
    match options.senderSigningPublicKey with
    | none => some .notPinned
    | some key =>
      if !protocol.verify options.envelope key then some .badSignature
      else if options.envelope.v ≠ 1 then some .malformed
      else if !protocol.metadataValid options.envelope then some .malformed
      else if options.envelope.«to» ≠ options.self then some .wrongRecipient
      else none

/-- The body of a claimed envelope, unless it is too old, too far ahead or unreadable. -/
def openBody (options : ComposeInboundOptions) (clock : Int) : Except ProtocolErrorCode MessageBody :=
  let now := options.now.getD clock
  let maxAge := options.maxAgeSeconds.getD (30 * 24 * 60 * 60)
  let maxFutureSkew := options.maxFutureSkewSeconds.getD 300
  if options.envelope.ts > now + maxFutureSkew ∨ options.envelope.ts < now - maxAge then
    .error .expired
  else protocol.decrypt options.envelope options.recipientEncryptionSecretKey

def peer (options : ComposeInboundOptions) : String :=
  protocol.handle options.envelope.sender

/-- The peer and id that the replay store binds. -/
def key (options : ComposeInboundOptions) : String × String :=
  (protocol.peer options, options.envelope.id)

def digest (options : ComposeInboundOptions) (body : MessageBody) : String :=
  protocol.approvalDigest options.envelope.id options.envelope.sender options.self
    (protocol.bodyHash body) options.policyVersion

/-- `signReceipt`. -/
def signReceipt (body : ReceiptBody) (secretKey : String) : SignedReceipt where
  id := body.id
  bodyHash := body.bodyHash
  auditHead := body.auditHead
  status := body.status
  category := body.category
  signature := protocol.receiptSignature body secretKey

/-- The receipt for a body, once its audit entry is the latest of `audit`. -/
def receiptFor (options : ComposeInboundOptions) (body : MessageBody) (audit : List AuditEvent)
    (status : ReceiptStatus) (category : Option String) : SignedReceipt :=
  protocol.signReceipt
    { id := options.envelope.id, bodyHash := protocol.bodyHash body
      auditHead := protocol.auditHead audit, status, category }
    options.recipientSigningSecretKey

end ReefProtocol

/-- After the deterministic checks. -/
def judge (protocol : ReefProtocol) (body : MessageBody) : InboundStage :=
  if protocol.checksAllow body.text then .classifying body false
  else .renewing body (.reject .deterministic)

/-- After the audit entry of a verdict: only the first one can ask for a review. -/
def rule (body : MessageBody) (afterApproval : Bool) (verdict : Verdict) : InboundStage :=
  match verdict.decision with
  | .deny => .renewing body (.reject (.guardDeny verdict))
  | .allow => .renewing body (.accept verdict)
  | .review =>
    if afterApproval then .renewing body (.accept verdict) else .reviewing body verdict

/-- After the review gate's answer. -/
def reviewed (protocol : ReefProtocol) (options : ComposeInboundOptions) (body : MessageBody)
    (verdict : Verdict) : Option ReviewApproval → InboundStage
  | none => .abandoning (.reviewPending verdict)
  | some approval =>
    if approval.approvalDigest ≠ protocol.digest options body then
      .abandoning (.reviewPending verdict)
    else if approval.approved then .auditingApproval body
    else .renewing body (.reject (.reviewDenied verdict))

/-- After the claim. -/
def claimed (protocol : ReefProtocol) (options : ComposeInboundOptions) (clock : Int) :
    Except ReplayError ReplayClaim → InboundStage
  | .error error => .failed (.replay error)
  | .ok .mismatch => .failed (.protocol .replayed)
  | .ok .inFlight => .failed (.protocol .replayed)
  | .ok .duplicate => .lookingUp
  | .ok .new =>
    match protocol.openBody options clock with
    | .error code => .abandoning (.protocol code)
    | .ok body => judge protocol body

/-- After a duplicate's lookup. -/
def lookedUp : Except ReplayError (Option (SignedReceipt × Option MessageBody)) → InboundStage
  | .error error => .failed (.replay error)
  | .ok none => .failed (.protocol .replayed)
  | .ok (some (receipt, body)) => .duplicate receipt body

/-- After the release: its own error takes the place of the one that led to it. -/
def abandoned (error : InboundError) : Except ReplayError Unit → InboundStage
  | .ok () => .failed error
  | .error released => .failed (.replay released)

/-- After the renewal of the claim. -/
def renewed (body : MessageBody) (ruling : Ruling) : Except ReplayError Unit → InboundStage
  | .error error => .abandoning (.replay error)
  | .ok () =>
    match ruling with
    | .accept verdict => .auditingInbox body verdict
    | .reject .deterministic => .auditingDenial body
    | .reject rejection => .auditingRejection body rejection

/-- The body that goes with the completion. -/
def Ruling.storedBody (body : MessageBody) : Ruling → Option MessageBody
  | .accept _ => some body
  | .reject _ => none

/-- After the completion. -/
def finished (body : MessageBody) (receipt : SignedReceipt) (ruling : Ruling) : Except ReplayError Unit → InboundStage
  | .error error => .abandoning (.replay error)
  | .ok () =>
    match ruling with
    | .accept verdict => .accepted body verdict receipt
    | .reject rejection => .failed (.rejected rejection receipt)

/-- The audit event that a stage appends. -/
def InboundStage.event (protocol : ReefProtocol) (options : ComposeInboundOptions) : InboundStage → Option AuditEvent
  | .auditingVerdict body afterApproval verdict =>
    some (.guardVerdict options.envelope.id (protocol.bodyHash body) (protocol.digest options body)
      afterApproval verdict)
  | .auditingApproval body =>
    some (.reviewApproval options.envelope.id (protocol.bodyHash body) (protocol.digest options body))
  | .auditingDenial body =>
    some (.deterministicVerdict options.envelope.id (protocol.digest options body))
  | .auditingRejection body rejection =>
    some (.inboxRejected options.envelope.id (protocol.bodyHash body)
      (protocol.digest options body) rejection.category)
  | .auditingInbox body verdict =>
    some (.inbox options.envelope.id (protocol.bodyHash body) (protocol.digest options body) body.text verdict)
  | .auditingReceipt body receipt _ =>
    some (.receipt options.envelope.id (protocol.digest options body) receipt)
  | _ => none

/-- After the append; `audit` ends with the new entry. -/
def InboundStage.audited (protocol : ReefProtocol) (options : ComposeInboundOptions)
    (audit : List AuditEvent) : InboundStage → InboundStage
  | .auditingVerdict body afterApproval verdict => rule body afterApproval verdict
  | .auditingApproval body => .classifying body true
  | .auditingDenial body => .auditingRejection body .deterministic
  | .auditingRejection body rejection =>
    .auditingReceipt body (protocol.receiptFor options body audit .rejected rejection.category) (.reject rejection)
  | .auditingInbox body verdict =>
    .auditingReceipt body (protocol.receiptFor options body audit .accepted none) (.accept verdict)
  | .auditingReceipt body receipt ruling => .completing body receipt ruling
  | stage => stage

/-- One call of `composeInbound`. -/
structure InboundRun where
  options : ComposeInboundOptions
  stage : InboundStage

structure InboundWorld (S : Type) where
  store : S
  audit : List AuditEvent
  runs : Nat → Option InboundRun

inductive InboundEvent
  /-- `composeInbound` is called. -/
  | deliver (run : Nat) (options : ComposeInboundOptions)
  | advance (run : Nat) (input : InboundInput)
  /-- The timer of a run renews its claim. -/
  | heartbeat (run : Nat) (site : CallSite)
  | sweep (now : Nat)

namespace InboundWorld

variable {S : Type}

def start (store : S) : InboundWorld S where
  store := store
  audit := []
  runs := fun _ => none

def setStage (world : InboundWorld S) (run : Nat) (options : ComposeInboundOptions)
    (stage : InboundStage) : InboundWorld S :=
  { world with runs := fun other => if other = run then some { options, stage } else world.runs other }

/-- A call number is used once. -/
def deliver (protocol : ReefProtocol) (world : InboundWorld S) (run : Nat)
    (options : ComposeInboundOptions) : InboundWorld S :=
  match world.runs run with
  | some _ => world
  | none =>
    match protocol.refusal options with
    | some code => world.setStage run options (.failed (.protocol code))
    | none => world.setStage run options .opening

def storeCall (protocol : ReefProtocol) (store : ReplayStore MessageBody S) (world : InboundWorld S)
    (options : ComposeInboundOptions) (site : CallSite) : InboundStage → S × InboundStage
  | .opening =>
    let answer := store.claim world.store site (protocol.peer options)
      options.envelope.id (protocol.envelopeHash options.envelope)
    (answer.1, claimed protocol options (site.moment.now / 1000 : Nat) answer.2)
  | .lookingUp =>
    (world.store, lookedUp (store.completed world.store site (protocol.peer options) options.envelope.id))
  | .abandoning error =>
    let answer := store.release world.store site (protocol.peer options) options.envelope.id
    (answer.1, abandoned error answer.2)
  | .renewing body ruling =>
    let answer := store.refresh world.store site (protocol.peer options) options.envelope.id
    (answer.1, renewed body ruling answer.2)
  | .completing body receipt ruling =>
    let answer := store.complete world.store site (protocol.peer options) options.envelope.id
      receipt (ruling.storedBody body)
    (answer.1, finished body receipt ruling answer.2)
  | stage => (world.store, stage)

def appendAudit (protocol : ReefProtocol) (world : InboundWorld S) (options : ComposeInboundOptions)
    (stored : Bool) (stage : InboundStage) : List AuditEvent × InboundStage :=
  match stage.event protocol options with
  | none => (world.audit, stage)
  | some event =>
    if stored then
      (world.audit ++ [event], stage.audited protocol options (world.audit ++ [event]))
    else (world.audit, .abandoning .external)

def answered (protocol : ReefProtocol) (options : ComposeInboundOptions) : InboundStage → InboundInput → InboundStage
  | .classifying _ _, .classify none => .abandoning .external
  | .classifying body afterApproval, .classify (some verdict) =>
    .auditingVerdict body afterApproval verdict
  | .reviewing _ _, .review none => .abandoning .external
  | .reviewing body verdict, .review (some approval) =>
    reviewed protocol options body verdict approval
  | stage, _ => stage

def advance (protocol : ReefProtocol) (store : ReplayStore MessageBody S) (world : InboundWorld S)
    (run : Nat) (input : InboundInput) : InboundWorld S :=
  match world.runs run with
  | none => world
  | some { options, stage } =>
    match input with
    | .store site =>
      let (state, next) := world.storeCall protocol store options
        { site with instanceId := options.instanceId } stage
      { world.setStage run options next with store := state }
    | .append stored =>
      let (audit, next) := world.appendAudit protocol options stored stage
      { world.setStage run options next with audit }
    | input => world.setStage run options (answered protocol options stage input)

/-- The heartbeat is set after the claim and cleared at the end. -/
def beating : InboundStage → Bool
  | .opening | .lookingUp | .accepted _ _ _ | .duplicate _ _ | .failed _ => false
  | _ => true

def heartbeat (protocol : ReefProtocol) (store : ReplayStore MessageBody S) (world : InboundWorld S)
    (run : Nat) (site : CallSite) : InboundWorld S :=
  match world.runs run with
  | none => world
  | some { options, stage } =>
    if beating stage then
      { world with
        store := (store.refresh world.store { site with instanceId := options.instanceId }
          (protocol.peer options) options.envelope.id).1 }
    else world

def step (protocol : ReefProtocol) (store : ReplayStore MessageBody S) (world : InboundWorld S) :
    InboundEvent → InboundWorld S
  | .deliver run options => world.deliver protocol run options
  | .advance run input => world.advance protocol store run input
  | .heartbeat run site => world.heartbeat protocol store run site
  | .sweep now => { world with store := store.sweep world.store now }

def machine (protocol : ReefProtocol) (store : ReplayStore MessageBody S) :
    Machine (InboundWorld S) InboundEvent where
  step := step protocol store

end InboundWorld

end PlatformClaw.Reef
