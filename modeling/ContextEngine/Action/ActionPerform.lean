/-
  ContextEngine.Action.ActionPerform — performing one ActionTicket: begin, complete and
  reconcile (`migrations/versions` 0023).

  Any number of sessions call the three functions, in transactions of any number of calls, at
  READ COMMITTED. A function's statements run one by one, each on what is committed by then
  and on the transaction's own writes. `begin` runs under the ticket's advisory lock,
  `complete` and `reconcile` under the lock of the provider attempt; both are kept until the
  transaction ends. The sender's lock is the session's: it outlives the transaction, also one
  that is rolled back, and goes with the connection. `reconcile` takes it for its transaction.

  The rows are those of one ticket: what a call about another ticket does is left out, apart
  from the references that it may have taken. The ticket and its delivery attempt are fixed;
  what changes of the ticket is its state and the digest of its bearer. The audit rows, which
  nothing reads, and the columns that name the retention policy are left out.
-/

import ContextEngine.Machine.Runs
import ContextEngine.Postgres.Values

namespace ContextEngine.Action

open ContextEngine.Python ContextEngine.Postgres ContextEngine.Runtime

abbrev Bytes := List UInt8

/-! ## Rows -/

/-- The states of a ticket and, but for the first, of a provider attempt. -/
inductive ActionState where
  | prepared
  | inFlight
  | ambiguous
  | applied
  | rejected
  deriving DecidableEq

/-- The columns of `action_ticket` that do not change. -/
structure Ticket where
  ticketRef : String
  deliveryAttemptRef : String
  operation : String
  ticketAudience : String
  payloadDigest : Bytes
  idempotencyDigest : Bytes
  approvalDigest : Bytes
  /-- The Source and its version. -/
  source : Option (UUID × UUID)
  policyEpoch : Int
  signingKeyVersion : Int
  profileRef : String
  issuedAt : Timestamp
  expiresAt : Timestamp

/-- A row of `action_delivery_attempt`. -/
structure DeliveryAttempt where
  authenticatedServiceDigest : Bytes
  deliveryEvidenceDigest : Bytes
  userId : UUID
  membershipId : UUID
  membershipVersion : Int
  destinationDigest : Bytes
  purposeDigest : Bytes
  audienceDigest : Bytes
  identityDigest : Bytes

/-- A row of `action_provider_attempt`. -/
structure ProviderAttempt where
  providerAttemptRef : String
  ticketRef : String
  deliveryAttemptRef : String
  operation : String
  destinationDigest : Bytes
  audienceDigest : Bytes
  payloadDigest : Bytes
  idempotencyDigest : Bytes
  completionCapabilityDigest : Bytes
  state : ActionState
  providerEffectDigest : Option Bytes
  startedAt : Timestamp
  terminalAt : Option Timestamp
  retainUntil : Timestamp
  deriving DecidableEq

/-- A row of `action_receipt`. -/
structure Receipt where
  receiptRef : String
  providerAttemptRef : String
  ticketRef : String
  deliveryAttemptRef : String
  operation : String
  destinationDigest : Bytes
  audienceDigest : Bytes
  payloadDigest : Bytes
  idempotencyDigest : Bytes
  providerEffectDigest : Bytes
  appliedAt : Timestamp
  recordedAt : Timestamp
  retainUntil : Timestamp
  deriving DecidableEq

inductive ReconciliationState where
  | pending
  | applied
  | rejected
  deriving DecidableEq

/-- A row of `action_reconciliation`. -/
structure Reconciliation where
  providerAttemptRef : String
  state : ReconciliationState
  decisionDigest : Option Bytes
  createdAt : Timestamp
  reconciledAt : Option Timestamp
  retainUntil : Timestamp
  deriving DecidableEq

/-- The rows of one ticket. -/
structure Rows where
  state : ActionState
  ticketBearerDigest : Option Bytes
  provider : Option ProviderAttempt
  receipts : List Receipt
  reconciliation : Option Reconciliation
  deriving DecidableEq

structure Membership where
  membershipId : UUID
  userId : UUID
  membershipVersion : Int
  active : Bool
  validFrom : Timestamp
  validUntil : Option Timestamp

structure Source where
  sourceId : UUID
  activeVersionId : UUID
  versions : List UUID
  active : Bool

/-- A row of `delivery_evidence`; its audience digest, 64 hexadecimal digits, is decoded. -/
structure DeliveryEvidence where
  destinationRef : String
  audienceDigest : Bytes
  expiresAt : Timestamp

/-- What other functions write. -/
structure Environment where
  policyEpoch : Option Int
  memberships : List Membership
  sources : List Source
  evidence : Bytes → Option DeliveryEvidence
  /-- References of attempts and receipts of other tickets. -/
  attemptRefs : String → Bool
  receiptRefs : String → Bool

/-! ## Calls -/

structure BeginCall where
  user : Role
  ticketRef : String
  deliveryAttemptRef : String
  operation : String
  ticketAudience : String
  payloadDigest : Bytes
  idempotencyDigest : Bytes
  approvalDigest : Bytes
  policyEpoch : Int
  signingKeyVersion : Int
  profileRef : String
  serviceDigest : Bytes
  destinationDigest : Bytes
  audienceDigest : Bytes
  identityDigest : Bytes
  purposeDigest : Bytes
  sourceContextDigest : Option Bytes
  issuedAt : Timestamp
  expiresAt : Timestamp
  ticketBearerDigest : Bytes
  proposedProviderAttemptRef : String
  retentionSeconds : Int
  completionCapabilityDigest : Bytes
  deriving DecidableEq

inductive SenderOutcome where
  | applied
  | ambiguous
  | rejected
  deriving DecidableEq

structure CompleteCall where
  user : Role
  ticketRef : String
  providerAttemptRef : String
  senderOutcome : SenderOutcome
  providerEffectDigest : Option Bytes
  appliedAt : Option Timestamp
  proposedReceiptRef : Option String
  retentionPolicyRef : String
  retentionSeconds : Int
  completionCapability : Bytes
  deriving DecidableEq

inductive Disposition where
  | applied
  | rejected
  deriving DecidableEq

structure ReconcileCall where
  user : Role
  providerAttemptRef : String
  disposition : Disposition
  providerEffectDigest : Option Bytes
  appliedAt : Option Timestamp
  proposedReceiptRef : Option String
  decisionDigest : Bytes
  retentionPolicyRef : String
  retentionSeconds : Int
  deriving DecidableEq

/-- A call; without arguments, one that may not be NULL is, or is not among those listed. -/
inductive FunctionCall where
  | begin (c : Option BeginCall)
  | complete (c : Option CompleteCall)
  | reconcile (c : Option ReconcileCall)
  deriving DecidableEq

/-! ### Arguments -/

def RETENTION_POLICY : String := "action-digest-audit-retention-v1"

def PROFILE : String := "private-action-prepare-v1"

def OPERATIONS : List String := ["create_placeholder", "finalize_reply", "send_private_followup"]

/-- `'^prefix[0-9a-f]{32}$'`. -/
def isRef (pre : List Char) (ref : String) : Bool :=
  ref.toList.take pre.length == pre && (ref.toList.drop pre.length).length == 32 &&
    (ref.toList.drop pre.length).all (hexDigits.contains ·)

def isTicketRef (ref : String) : Bool := isRef ['a', 'c', 't', '_'] ref

def isDeliveryAttemptRef (ref : String) : Bool := isRef ['d', 'l', 'a', '_'] ref

def isProviderAttemptRef (ref : String) : Bool := isRef ['p', 'a', 't', '_'] ref

def isReceiptRef (ref : String) : Bool := isRef ['a', 'c', 'r', '_'] ref

def retainable (seconds : Int) : Bool := decide (2 ≤ seconds ∧ seconds ≤ 31536000)

def retention (now : Timestamp) (seconds : Int) : Timestamp := now + seconds.toNat * MICROS

def BeginCall.wellFormed (c : BeginCall) : Bool :=
  decide (c.user = .action) && isTicketRef c.ticketRef && isDeliveryAttemptRef c.deliveryAttemptRef &&
    isProviderAttemptRef c.proposedProviderAttemptRef && OPERATIONS.contains c.operation && c.profileRef == PROFILE &&
    decide (0 < c.policyEpoch) && decide (0 < c.signingKeyVersion) && retainable c.retentionSeconds &&
    [c.payloadDigest, c.idempotencyDigest, c.approvalDigest, c.serviceDigest, c.destinationDigest, c.audienceDigest,
      c.identityDigest, c.purposeDigest, c.ticketBearerDigest, c.completionCapabilityDigest].all (·.length == 32) &&
    c.sourceContextDigest.all (·.length == 32)

/-- What both `complete` and `reconcile` ask of an effect that they apply. -/
def appliedArguments (receiptRef : Option String) (effect : Option Bytes) (appliedAt : Option Timestamp) (now : Timestamp) : Bool :=
  receiptRef.any isReceiptRef && effect.any (·.length == 32) && appliedAt.any fun t => decide (t ≤ now + 5 * MICROS)

def CompleteCall.wellFormed (c : CompleteCall) (now : Timestamp) : Bool :=
  decide (c.user = .action) && isProviderAttemptRef c.providerAttemptRef && isTicketRef c.ticketRef &&
    c.retentionPolicyRef == RETENTION_POLICY && retainable c.retentionSeconds && c.completionCapability.length == 32 &&
    if c.senderOutcome = .applied then appliedArguments c.proposedReceiptRef c.providerEffectDigest c.appliedAt now
    else c.providerEffectDigest.isNone && c.appliedAt.isNone

def ReconcileCall.wellFormed (c : ReconcileCall) (now : Timestamp) : Bool :=
  decide (c.user = .action) && isProviderAttemptRef c.providerAttemptRef && c.decisionDigest.length == 32 &&
    c.retentionPolicyRef == RETENTION_POLICY && retainable c.retentionSeconds &&
    if c.disposition = .applied then appliedArguments c.proposedReceiptRef c.providerEffectDigest c.appliedAt now
    else c.providerEffectDigest.isNone && c.appliedAt.isNone

/-! ## Results -/

inductive Outcome where
  | senderRequired
  | applied
  | alreadyApplied
  | reconciliationRequired
  | rejected
  | providerRejected
  deriving DecidableEq

/-- The row that a function returns. -/
structure Result where
  outcome : Outcome
  providerAttemptRef : Option String
  destinationRef : Option String
  receipt : Option Receipt
  deriving DecidableEq

def Result.plain (outcome : Outcome) (ref : Option String) : Result := ⟨outcome, ref, none, none⟩

def Result.withReceipt (outcome : Outcome) (r : Receipt) : Result := ⟨outcome, some r.providerAttemptRef, none, some r⟩

/-! ## What the functions write -/

/-- A call that wrote, with its clock reading. -/
inductive Effect where
  | sent (c : BeginCall) (now : Timestamp)
  | completed (c : CompleteCall) (now : Timestamp)
  | reconciled (c : ReconcileCall) (now : Timestamp)
  deriving DecidableEq

/-- `begin`: the attempt, and the ticket in flight. -/
def Rows.send (rows : Rows) (c : BeginCall) (now : Timestamp) : Rows :=
  { rows with
    state := .inFlight
    ticketBearerDigest := some c.ticketBearerDigest
    provider := some
      { providerAttemptRef := c.proposedProviderAttemptRef
        ticketRef := c.ticketRef
        deliveryAttemptRef := c.deliveryAttemptRef
        operation := c.operation
        destinationDigest := c.destinationDigest
        audienceDigest := c.audienceDigest
        payloadDigest := c.payloadDigest
        idempotencyDigest := c.idempotencyDigest
        completionCapabilityDigest := c.completionCapabilityDigest
        state := .inFlight
        providerEffectDigest := none
        startedAt := now
        terminalAt := none
        retainUntil := retention now c.retentionSeconds } }

def ProviderAttempt.receipt (p : ProviderAttempt) (receiptRef : Option String) (effect : Option Bytes) (appliedAt : Option Timestamp)
    (now : Timestamp) (seconds : Int) : Receipt :=
  { receiptRef := receiptRef.getD ""
    providerAttemptRef := p.providerAttemptRef
    ticketRef := p.ticketRef
    deliveryAttemptRef := p.deliveryAttemptRef
    operation := p.operation
    destinationDigest := p.destinationDigest
    audienceDigest := p.audienceDigest
    payloadDigest := p.payloadDigest
    idempotencyDigest := p.idempotencyDigest
    providerEffectDigest := effect.getD []
    appliedAt := appliedAt.getD 0
    recordedAt := now
    retainUntil := retention now seconds }

/-- The attempt and the ticket applied, with a receipt. -/
def Rows.apply (rows : Rows) (p : ProviderAttempt) (effect : Option Bytes) (r : Receipt) (now : Timestamp) : Rows :=
  { rows with
    state := .applied
    provider := some { p with state := .applied, providerEffectDigest := effect, terminalAt := some now }
    receipts := rows.receipts ++ [r] }

def Rows.reject (rows : Rows) (p : ProviderAttempt) (now : Timestamp) : Rows :=
  { rows with state := .rejected, provider := some { p with state := .rejected, terminalAt := some now } }

def CompleteCall.receipt (c : CompleteCall) (p : ProviderAttempt) (now : Timestamp) : Receipt :=
  p.receipt c.proposedReceiptRef c.providerEffectDigest c.appliedAt now c.retentionSeconds

def ReconcileCall.receipt (c : ReconcileCall) (p : ProviderAttempt) (now : Timestamp) : Receipt :=
  p.receipt c.proposedReceiptRef c.providerEffectDigest c.appliedAt now c.retentionSeconds

def Rows.complete (rows : Rows) (c : CompleteCall) (p : ProviderAttempt) (now : Timestamp) : Rows :=
  match c.senderOutcome with
  | .applied => rows.apply p c.providerEffectDigest (c.receipt p now) now
  | .rejected => rows.reject p now
  | .ambiguous =>
    { rows with
      state := .ambiguous
      provider := some { p with state := .ambiguous }
      reconciliation := some ⟨c.providerAttemptRef, .pending, none, now, none, retention now c.retentionSeconds⟩ }

/-- A reconciliation of an attempt in flight is created with its decision. -/
def Rows.reconcile (rows : Rows) (c : ReconcileCall) (p : ProviderAttempt) (now : Timestamp) : Rows :=
  let pending := rows.reconciliation.getD ⟨c.providerAttemptRef, .pending, none, now, none, retention now c.retentionSeconds⟩
  let decided := fun s => { rows with
    reconciliation := some { pending with state := s, decisionDigest := some c.decisionDigest, reconciledAt := some now } }
  match c.disposition with
  | .applied => (decided .applied).apply p c.providerEffectDigest (c.receipt p now) now
  | .rejected => (decided .rejected).reject p now

/-! ## Locks -/

structure Locks where
  /-- `action-perform:` of the ticket. -/
  perform : Option Nat
  /-- `action-provider-attempt:` of each reference. -/
  attempts : String → Option Nat
  /-- The session's sender lock: who holds it, and how often. -/
  senderSession : Option (Nat × Nat)
  /-- The sender lock for a transaction. -/
  senderXact : Option Nat

section Locks

variable (locks : Locks) (session : Nat)

def free (holder : Option Nat) : Bool := holder.all (· == session)

/-- No other session holds the sender lock. -/
def Locks.senderFree : Bool := free session (locks.senderSession.map (·.1)) && free session locks.senderXact

/-- The session is among the holders that `pg_locks` lists. -/
def Locks.holdsSender : Bool := decide (locks.senderSession.map (·.1) = some session) || decide (locks.senderXact = some session)

/-- `pg_try_advisory_lock`, when it succeeds. -/
def Locks.takeSender : Locks :=
  { locks with senderSession := some (session, (locks.senderSession.map (·.2)).getD 0 + 1) }

/-- `pg_advisory_unlock`. -/
def Locks.dropSender : Locks :=
  { locks with senderSession := locks.senderSession.bind fun held => if held.2 ≤ 1 then none else some (held.1, held.2 - 1) }

def release (holder : Option Nat) : Option Nat := if holder = some session then none else holder

/-- The end of a transaction. -/
def Locks.endTransaction : Locks :=
  { locks with
    perform := release session locks.perform
    attempts := fun ref => release session (locks.attempts ref)
    senderXact := release session locks.senderXact }

/-- The end of a connection. -/
def Locks.disconnect : Locks :=
  { locks.endTransaction session with
    senderSession := if locks.senderSession.map (·.1) = some session then none else locks.senderSession }

end Locks

/-! ## Sessions -/

inductive BeginPhase where
  | waiting
  | locked
  /-- The ticket was read, in this state, and is the call's. -/
  | read (now : Timestamp) (state : ActionState)
  | replay (provider : ProviderAttempt)
  /-- The ticket is prepared and has no attempt. -/
  | prepared (now : Timestamp)
  | epochRead (now : Timestamp) (current : Option Int)
  | authorized (now : Timestamp)
  | evidenced (now : Timestamp) (destinationRef : String)
  /-- The sender's lock is held. -/
  | holding (now : Timestamp) (destinationRef : String)

inductive CompletePhase where
  | waiting
  | locked
  | read (provider : ProviderAttempt)

inductive ReconcilePhase where
  | waiting
  | locked
  | read (provider : Option ProviderAttempt)
  | found (provider : ProviderAttempt) (reconciliation : Option Reconciliation)

inductive Phase where
  | idle
  | begin (c : BeginCall) (phase : BeginPhase)
  | complete (c : CompleteCall) (now : Timestamp) (phase : CompletePhase)
  | reconcile (c : ReconcileCall) (now : Timestamp) (phase : ReconcilePhase)
  /-- A statement raised; nothing but a rollback is left. -/
  | aborted

/-- A call that returned, and what it wrote. -/
structure Performed where
  result : Result
  effect : Option Effect
  deriving DecidableEq

structure Transaction where
  phase : Phase
  /-- The rows with the transaction's own writes. -/
  written : Option Rows
  performed : List Performed

structure World where
  clock : Timestamp
  environment : Environment
  rows : Rows
  sessions : Nat → Option Transaction
  locks : Locks
  /-- Who has changed the ticket's row and not committed it. -/
  writer : Option Nat
  /-- The calls of committed transactions. -/
  performed : List Performed

/-! ## Statements -/

/-- What a statement comes to. -/
inductive Statement (φ : Type) where
  | goto (phase : φ)
  | returns (result : Result)
  | writes (rows : Rows) (effect : Effect) (result : Result)
  | raises

section Statements

variable (server : Server) (ticket : Ticket) (attempt : DeliveryAttempt)

/-- `date_trunc('milliseconds', t)`. -/
def truncMillis (t : Timestamp) : Timestamp := t / 1000 * 1000

/-- The digest that binds a ticket to its Source. -/
def expectedSourceContextDigest : Option Bytes :=
  ticket.source.map fun s =>
    let framed := fun id : UUID =>
      encode (toString (encode (server.uuidText id)).length) ++ [0] ++ encode (server.uuidText id)
    (server.digest (encode "context-engine.action-binding.v1" ++ [0] ++ encode "source" ++ [0] ++ framed s.1 ++ framed s.2)).bytes

/-- The comparisons of `begin` with the ticket and its delivery attempt. -/
def BeginCall.names (c : BeginCall) (bearer : Option Bytes) : Bool :=
  ticket.deliveryAttemptRef == c.deliveryAttemptRef && ticket.operation == c.operation &&
    ticket.ticketAudience == c.ticketAudience && ticket.payloadDigest == c.payloadDigest &&
    ticket.idempotencyDigest == c.idempotencyDigest && ticket.approvalDigest == c.approvalDigest &&
    decide (ticket.policyEpoch = c.policyEpoch) && decide (ticket.signingKeyVersion = c.signingKeyVersion) &&
    ticket.profileRef == c.profileRef && attempt.authenticatedServiceDigest == c.serviceDigest &&
    attempt.destinationDigest == c.destinationDigest && attempt.audienceDigest == c.audienceDigest &&
    attempt.identityDigest == c.identityDigest && attempt.purposeDigest == c.purposeDigest &&
    expectedSourceContextDigest server ticket == c.sourceContextDigest && truncMillis ticket.issuedAt == c.issuedAt &&
    truncMillis ticket.expiresAt == c.expiresAt && bearer.all (· == c.ticketBearerDigest)

def Membership.admits (m : Membership) (now : Timestamp) : Bool :=
  m.membershipId == attempt.membershipId && m.userId == attempt.userId &&
    decide (m.membershipVersion = attempt.membershipVersion) && m.active && decide (m.validFrom ≤ now) &&
    m.validUntil.all fun t => decide (now < t)

def Source.carries (s : Source) (id version : UUID) : Bool :=
  s.sourceId == id && s.activeVersionId == version && s.versions.contains version && s.active

def Environment.authorizes (env : Environment) (now : Timestamp) : Bool :=
  (env.memberships.any fun m => m.admits attempt now) && ticket.source.all fun s => env.sources.any fun r => r.carries s.1 s.2

def DeliveryEvidence.covers (e : DeliveryEvidence) (c : BeginCall) (now : Timestamp) : Bool :=
  decide (now < e.expiresAt) && (server.digest (encode e.destinationRef)).bytes == c.destinationDigest &&
    e.audienceDigest == c.audienceDigest

variable (clock : Timestamp) (env : Environment) (session : Nat) (seen : Rows)

/-- The receipt of an attempt; without exactly one, `INTO STRICT` raises. -/
def strictReceipt (provider : ProviderAttempt) : Option Receipt :=
  match seen.receipts.filter fun r => r.providerAttemptRef == provider.providerAttemptRef with
  | [r] => some r
  | _ => none

/-- After the ticket and the attempt were read. -/
def replayed (state : ActionState) (now : Timestamp) : Statement BeginPhase :=
  match state, seen.provider with
  | .applied, some p => .goto (.replay p)
  | .inFlight, some p => .returns (.plain .reconciliationRequired (some p.providerAttemptRef))
  | .ambiguous, some p => .returns (.plain .reconciliationRequired (some p.providerAttemptRef))
  | .rejected, p => .returns (.plain .providerRejected (p.map (·.providerAttemptRef)))
  | .prepared, none => .goto (.prepared now)
  | _, _ => .returns (.plain .rejected none)

/-- One statement of `begin`, with the lock in hand. -/
def beginStatement (c : BeginCall) (locks : Locks) : BeginPhase → Statement BeginPhase × Locks
  | .waiting => (.goto .locked, { locks with perform := some session })
  | .locked =>
    if c.ticketRef = ticket.ticketRef ∧ c.names server ticket attempt seen.ticketBearerDigest then
      (.goto (.read clock seen.state), locks)
    else (.returns (.plain .rejected none), locks)
  | .read now state => (replayed seen state now, locks)
  | .replay provider =>
    match strictReceipt seen provider with
    | some r => (.returns (.withReceipt .alreadyApplied r), locks)
    | none => (.raises, locks)
  | .prepared now =>
    if ticket.expiresAt ≤ now then (.returns (.plain .rejected none), locks) else (.goto (.epochRead now env.policyEpoch), locks)
  | .epochRead now current =>
    if current = some c.policyEpoch ∧ env.authorizes ticket attempt now then (.goto (.authorized now), locks)
    else (.returns (.plain .rejected none), locks)
  | .authorized now =>
    match env.evidence attempt.deliveryEvidenceDigest with
    | some e => (if e.covers server c now then .goto (.evidenced now e.destinationRef) else .returns (.plain .rejected none), locks)
    | none => (.returns (.plain .rejected none), locks)
  | .evidenced now destination =>
    if locks.senderFree session then (.goto (.holding now destination), locks.takeSender session)
    else (.returns (.plain .rejected none), locks)
  | .holding now destination =>
    -- a unique violation is caught: the sender's lock is given back
    if seen.provider.isSome || env.attemptRefs c.proposedProviderAttemptRef then
      (.returns (.plain .rejected none), locks.dropSender)
    else
      (.writes (seen.send c now) (.sent c now) ⟨.senderRequired, some c.proposedProviderAttemptRef, some destination, none⟩, locks)

/-- The keys of a new receipt. -/
def receiptFits (r : Receipt) : Bool :=
  !env.receiptRefs r.receiptRef &&
    seen.receipts.all fun s => s.receiptRef != r.receiptRef && s.providerAttemptRef != r.providerAttemptRef

/-- The last statements of `complete`, on the attempt that was read. -/
def completeRead (c : CompleteCall) (now : Timestamp) (locks : Locks) (p : ProviderAttempt) : Statement CompletePhase :=
  if p.completionCapabilityDigest = (server.digest c.completionCapability).bytes ∧ locks.holdsSender session then
    match p.state with
    | .applied =>
      match strictReceipt seen p with
      | some r => .returns (.withReceipt .applied r)
      | none => .raises
    | .ambiguous => .returns (.plain .reconciliationRequired (some p.providerAttemptRef))
    | .rejected => .returns (.plain .rejected (some p.providerAttemptRef))
    | _ =>
      match c.senderOutcome with
      | .applied =>
        if receiptFits env seen (c.receipt p now) then
          .writes (seen.complete c p now) (.completed c now) (.withReceipt .applied (c.receipt p now))
        else .raises
      | .rejected => .writes (seen.complete c p now) (.completed c now) (.plain .rejected (some c.providerAttemptRef))
      | .ambiguous =>
        if seen.reconciliation.isSome then .raises
        else .writes (seen.complete c p now) (.completed c now) (.plain .reconciliationRequired (some c.providerAttemptRef))
  else .returns (.plain .reconciliationRequired (some c.providerAttemptRef))

def completeStatement (c : CompleteCall) (now : Timestamp) (locks : Locks) : CompletePhase → Statement CompletePhase × Locks
  | .waiting => (.goto .locked, { locks with attempts := Function.update locks.attempts c.providerAttemptRef (some session) })
  | .locked =>
    match seen.provider.filter fun p => p.providerAttemptRef == c.providerAttemptRef && p.ticketRef == c.ticketRef with
    | some p => (.goto (.read p), locks)
    | none => (.returns (.plain .reconciliationRequired (some c.providerAttemptRef)), locks)
  | .read p => (completeRead server env session seen c now locks p, locks)

/-- The decision of a reconciliation that is pending. -/
def reconcileDecide (c : ReconcileCall) (now : Timestamp) (p : ProviderAttempt) : Statement ReconcilePhase :=
  match p.state with
  | .inFlight | .ambiguous =>
    match c.disposition with
    | .applied =>
      if receiptFits env seen (c.receipt p now) then
        .writes (seen.reconcile c p now) (.reconciled c now) (.withReceipt .alreadyApplied (c.receipt p now))
      else .raises
    | .rejected => .writes (seen.reconcile c p now) (.reconciled c now) (.plain .providerRejected (some c.providerAttemptRef))
  | _ => .returns (.plain .rejected (some c.providerAttemptRef))

/-- The last statements of `reconcile`, with the sender's lock. -/
def reconcileFound (c : ReconcileCall) (now : Timestamp) (p : ProviderAttempt) (r : Option Reconciliation) :
    Statement ReconcilePhase :=
  match r with
  | none =>
    if p.state = .inFlight then reconcileDecide env seen c now p else .returns (.plain .rejected (some c.providerAttemptRef))
  | some r =>
    match r.state with
    | .applied =>
      if c.disposition = .applied ∧ r.decisionDigest = some c.decisionDigest ∧ p.providerEffectDigest = c.providerEffectDigest then
        match strictReceipt seen p with
        | some receipt => .returns (.withReceipt .alreadyApplied receipt)
        | none => .raises
      else .returns (.plain .rejected (some c.providerAttemptRef))
    | .rejected =>
      if c.disposition = .rejected ∧ r.decisionDigest = some c.decisionDigest then
        .returns (.plain .providerRejected (some c.providerAttemptRef))
      else .returns (.plain .rejected (some c.providerAttemptRef))
    | .pending => reconcileDecide env seen c now p

def reconcileStatement (c : ReconcileCall) (now : Timestamp) (locks : Locks) : ReconcilePhase → Statement ReconcilePhase × Locks
  | .waiting => (.goto .locked, { locks with attempts := Function.update locks.attempts c.providerAttemptRef (some session) })
  | .locked => (.goto (.read (seen.provider.filter fun p => p.providerAttemptRef == c.providerAttemptRef)), locks)
  | .read none => (.returns (.plain .rejected (some c.providerAttemptRef)), locks)
  | .read (some p) =>
    (.goto (.found p (seen.reconciliation.filter fun r => r.providerAttemptRef == c.providerAttemptRef)), locks)
  | .found p r =>
    if locks.senderFree session then (reconcileFound env seen c now p r, { locks with senderXact := some session })
    else (.returns (.plain .rejected (some c.providerAttemptRef)), locks)

end Statements

/-! ## Steps -/

inductive Call where
  | setEnvironment (environment : Environment)
  | advanceClock (micros : Nat)
  | startTransaction (session : Nat)
  | call (session : Nat) (function : FunctionCall)
  /-- Run the next statement of the function. -/
  | advance (session : Nat)
  | commit (session : Nat)
  | rollback (session : Nat)
  /-- The connection is lost. -/
  | disconnect (session : Nat)

inductive Reply where
  | nothing
  | returned (function : FunctionCall) (result : Result)
  /-- The transaction committed, with these calls. -/
  | committed (performed : List Performed)

section Step

variable (server : Server) (ticket : Ticket) (attempt : DeliveryAttempt) (w : World)

def World.set (session : Nat) (txn : Transaction) : World :=
  { w with sessions := Function.update w.sessions session (some txn) }

def World.seen (txn : Transaction) : Rows := txn.written.getD w.rows

/-- The transaction is over, and its locks are released. -/
def World.close (session : Nat) (locks : Locks) : World :=
  { w with sessions := Function.update w.sessions session none, locks := locks, writer := release session w.writer }

/-- What the arguments alone decide, or the lock that the function asks for. -/
def callFunction (session : Nat) (function : FunctionCall) : World × Reply :=
  match w.sessions session with
  | some txn =>
    match txn.phase with
    | .idle =>
      let start := fun phase => (w.set session { txn with phase := phase }, Reply.nothing)
      let refuse := fun result => (w.set session { txn with performed := txn.performed ++ [⟨result, none⟩] },
        Reply.returned function result)
      match function with
      | .begin none => refuse (.plain .rejected none)
      | .complete none => refuse (.plain .reconciliationRequired none)
      | .reconcile none => refuse (.plain .rejected none)
      | .begin (some c) => if c.wellFormed then start (.begin c .waiting) else refuse (.plain .rejected none)
      | .complete (some c) =>
        if c.wellFormed w.clock then start (.complete c w.clock .waiting)
        else refuse (.plain .reconciliationRequired (some c.providerAttemptRef))
      | .reconcile (some c) =>
        if c.wellFormed w.clock then start (.reconcile c w.clock .waiting)
        else refuse (.plain .rejected (some c.providerAttemptRef))
    | _ => (w, .nothing)
  | none => (w, .nothing)

/-- A write waits while another transaction has changed the ticket's row. -/
def perform {φ : Type} (session : Nat) (txn : Transaction) (function : FunctionCall) (phase : φ → Phase) (statement : Statement φ)
    (locks : Locks) : World × Reply :=
  match statement with
  | .goto next => ({ w.set session { txn with phase := phase next } with locks := locks }, .nothing)
  | .returns result =>
    ({ w.set session { txn with phase := .idle, performed := txn.performed ++ [⟨result, none⟩] } with locks := locks },
      .returned function result)
  | .writes rows effect result =>
    if free session w.writer then
      ({ w.set session ⟨.idle, some rows, txn.performed ++ [⟨result, some effect⟩]⟩ with locks := locks, writer := some session },
        .returned function result)
    else (w, .nothing)
  | .raises => ({ w.set session { txn with phase := .aborted } with locks := locks }, .nothing)

/-- The lock that the next statement waits for, if any. -/
def Phase.awaits (locks : Locks) : Phase → Option Nat
  | .begin _ .waiting => locks.perform
  | .complete c _ .waiting => locks.attempts c.providerAttemptRef
  | .reconcile c _ .waiting => locks.attempts c.providerAttemptRef
  | _ => none

def advance (session : Nat) : World × Reply :=
  match w.sessions session with
  | some txn =>
    if free session (txn.phase.awaits w.locks) then
      match txn.phase with
      | .begin c phase =>
        let s := beginStatement server ticket attempt w.clock w.environment session (w.seen txn) c w.locks phase
        perform w session txn (.begin (some c)) (.begin c) s.1 s.2
      | .complete c now phase =>
        let s := completeStatement server w.environment session (w.seen txn) c now w.locks phase
        perform w session txn (.complete (some c)) (.complete c now) s.1 s.2
      | .reconcile c now phase =>
        let s := reconcileStatement w.environment session (w.seen txn) c now w.locks phase
        perform w session txn (.reconcile (some c)) (.reconcile c now) s.1 s.2
      | _ => (w, .nothing)
    else (w, .nothing)
  | none => (w, .nothing)

/-- A transaction commits between calls; an aborted one is rolled back instead. -/
def commit (session : Nat) : World × Reply :=
  match w.sessions session with
  | some txn =>
    match txn.phase with
    | .idle =>
      ({ w.close session (w.locks.endTransaction session) with rows := w.seen txn, performed := w.performed ++ txn.performed },
        .committed txn.performed)
    | .aborted => (w.close session (w.locks.endTransaction session), .nothing)
    | _ => (w, .nothing)
  | none => (w, .nothing)

def step : Call → World × Reply
  | .setEnvironment environment => ({ w with environment := environment }, .nothing)
  | .advanceClock micros => ({ w with clock := w.clock + micros }, .nothing)
  | .startTransaction session => (if (w.sessions session).isSome then w else w.set session ⟨.idle, none, []⟩, .nothing)
  | .call session function => callFunction w session function
  | .advance session => advance server ticket attempt w session
  | .commit session => commit w session
  | .rollback session => (w.close session (w.locks.endTransaction session), .nothing)
  | .disconnect session => (w.close session (w.locks.disconnect session), .nothing)

end Step

/-- A prepared ticket that nobody has touched. -/
structure World.Fresh (w : World) : Prop where
  rows : w.rows = ⟨.prepared, none, none, [], none⟩
  sessions : ∀ i, w.sessions i = none
  perform : w.locks.perform = none
  attempts : ∀ ref, w.locks.attempts ref = none
  sender : w.locks.senderSession = none ∧ w.locks.senderXact = none
  writer : w.writer = none
  performed : w.performed = []

end ContextEngine.Action
