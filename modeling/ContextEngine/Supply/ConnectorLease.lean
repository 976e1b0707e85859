/-
  ContextEngine.Supply.ConnectorLease — the lease of one connector job
  (`migrations/versions/20260729_0041_supply_execution_bridge.py`: issue, preempt, redeem,
  accept).

  The state is the job's row, the rows of the other tables that the four functions read for
  it, and the database clock. Each function locks the job's row before it decides, so calls
  on one job are serialised and a call is one step; between calls the clock and the
  Organization's policy epoch advance, and operators enable or disable the service
  principal and move the source. A function that returns no row, or raises, changes nothing.

  The row's workload, audience, actor kind and operation are fixed by a check constraint, so
  the comparisons with them select every row and are left out. A worker's arguments are
  arbitrary: a lease that was issued, one that was altered, or one that never existed.
-/

import ContextEngine.Machine.Runs
import ContextEngine.Supply.ConnectorPage

namespace ContextEngine.Supply

open ContextEngine.Python ContextEngine.Postgres ContextEngine.Runtime

/-! ## The job -/

inductive JobState where
  | available
  | leased
  | running
  | completed
  deriving DecidableEq

/-- The lease columns of a job. -/
structure LeaseColumns where
  signingKeyVersion : Option Int
  leaseNonceDigest : Option Sha256Digest
  leaseIssuedAt : Option Timestamp
  leaseExpiresAt : Option Timestamp
  policyEpoch : Option Nat
  idempotencyKey : Option String
  allowedSourceVersionIds : Option (List UUID)
  allowedOperations : Option (List String)
  serviceActorExpiresAt : Option Timestamp
  deriving DecidableEq

/-- A row of `supply_connector_job`. -/
structure ConnectorJob where
  organizationId : UUID
  sourceId : UUID
  sourceVersionId : UUID
  workerJobId : UUID
  servicePrincipalId : UUID
  state : JobState
  leaseGeneration : Nat
  lease : LeaseColumns
  redeemedAt : Option Timestamp
  completedAt : Option Timestamp
  deriving DecidableEq

def LeaseColumns.none : LeaseColumns :=
  ⟨Option.none, Option.none, Option.none, Option.none, Option.none, Option.none, Option.none, Option.none, Option.none⟩

/-- A condition of a check constraint: NULL passes. -/
def passes (condition : Option Bool) : Bool := condition != some false

section Row

variable (job : ConnectorJob)

/-- What `ck_supply_connector_job_lease_state` asks of every lease that was issued. -/
def ConnectorJob.leaseChecks : Bool :=
  decide (0 < job.leaseGeneration) && passes (job.lease.signingKeyVersion.map fun v => decide (0 < v)) &&
    job.lease.leaseIssuedAt.isSome &&
    passes (do let e ← job.lease.leaseExpiresAt; let i ← job.lease.leaseIssuedAt; some (decide (i < e))) &&
    passes (job.lease.policyEpoch.map fun e => decide (0 < e)) && passes (job.lease.idempotencyKey.map isSha256) &&
    passes (job.lease.allowedSourceVersionIds.map fun ids => decide (ids = [job.sourceVersionId])) &&
    passes (job.lease.allowedOperations.map fun ops => decide (ops = ["connector.execute"])) &&
    passes (do let a ← job.lease.serviceActorExpiresAt; let e ← job.lease.leaseExpiresAt; some (decide (e ≤ a)))

/-- `ck_supply_connector_job_lease_generation` and `ck_supply_connector_job_lease_state`. -/
def ConnectorJob.checks : Bool :=
  decide (job.leaseGeneration ≤ MAX_BIGINT) &&
    match job.state with
    | .available =>
      decide (job.leaseGeneration = 0) && job.redeemedAt.isNone && job.completedAt.isNone &&
        job.lease.signingKeyVersion.isNone && job.lease.leaseNonceDigest.isNone && job.lease.leaseIssuedAt.isNone &&
        job.lease.leaseExpiresAt.isNone && job.lease.policyEpoch.isNone && job.lease.idempotencyKey.isNone &&
        job.lease.allowedSourceVersionIds.isNone && job.lease.allowedOperations.isNone &&
        job.lease.serviceActorExpiresAt.isNone
    | .leased => job.leaseChecks && job.redeemedAt.isNone && job.completedAt.isNone
    | .running =>
      job.leaseChecks && job.redeemedAt.isSome && job.completedAt.isNone &&
        passes (do let r ← job.redeemedAt; let i ← job.lease.leaseIssuedAt; some (decide (i ≤ r)))
    | .completed =>
      job.leaseChecks && job.redeemedAt.isSome &&
        passes (do let c ← job.completedAt; let r ← job.redeemedAt; some (decide (r ≤ c))) &&
        passes (do let r ← job.redeemedAt; let i ← job.lease.leaseIssuedAt; some (decide (i ≤ r)))

end Row

/-! ## The tables around it -/

/-- A row of `supply_connector_staged_page` of the job. -/
structure StagedPage where
  pageRef : String
  payload : List UInt8
  payloadDigest : Sha256Digest
  checkpointProposalDigest : Sha256Digest
  stagedAt : Timestamp
  deriving DecidableEq

/-- A row of `supply_connector_accepted_page` of the job. -/
structure AcceptedPage where
  acceptedOrdinal : Nat
  pageRef : String
  checkpointDigest : Sha256Digest
  acceptedAt : Timestamp
  deriving DecidableEq

/-- The row of `supply_connector_checkpoint` of the job. -/
structure Checkpoint where
  acceptedOrdinal : Nat
  acceptedPageRef : String
  opaqueCheckpoint : List UInt8
  updatedAt : Timestamp
  deriving DecidableEq

/-- A row of `supply_connector_lease_event` of the job. -/
structure LeaseEvent where
  priorLeaseGeneration : Nat
  replacementLeaseGeneration : Nat
  reasonDigest : String
  occurredAt : Timestamp
  deriving DecidableEq

structure World where
  clock : Timestamp
  /-- `organization_policy_epoch` of the job's Organization; positive by its constraint. -/
  policyEpoch : Nat
  /-- `service_principal.enabled` of the job's principal. -/
  principalEnabled : Bool
  /-- `context_source` of the job's source: its active version and whether it is active. -/
  activeVersionId : Option UUID
  sourceActive : Bool
  job : ConnectorJob
  stagedPages : List StagedPage
  acceptedPages : List AcceptedPage
  checkpoint : Option Checkpoint
  leaseEvents : List LeaseEvent
  deriving DecidableEq

/-- The two `EXISTS` conditions that every function repeats. -/
def World.authorized (w : World) : Bool :=
  w.principalEnabled && w.sourceActive && sqlEq w.activeVersionId (some w.job.sourceVersionId)

/-! ## Issue and preemption -/

/-- The arguments of issue and, with a reason, of preemption. -/
structure IssueRequest where
  sessionUser : Role
  organizationId : Option UUID
  sourceId : Option UUID
  sourceVersionId : Option UUID
  workerJobId : Option UUID
  servicePrincipalId : Option UUID
  signingKeyVersion : Option Int
  nonce : Option (List UInt8)
  leaseTtlSeconds : Option Int
  deriving DecidableEq

/-- No condition of the opening `IF … THEN RETURN` is true. -/
def IssueRequest.accepted (r : IssueRequest) : Bool :=
  decide (r.sessionUser = .control) && r.organizationId.isSome && r.sourceId.isSome && r.sourceVersionId.isSome &&
    r.workerJobId.isSome && r.servicePrincipalId.isSome && r.signingKeyVersion.all (fun v => decide (0 < v)) &&
    r.nonce.all (fun n => n.length == 32) && r.leaseTtlSeconds.all fun t => decide (1 ≤ t ∧ t ≤ 3600)

/-- What issue and preemption return. -/
structure LeaseRow where
  issuedAt : Option Timestamp
  expiresAt : Option Timestamp
  leaseGeneration : Nat
  policyEpoch : Option Nat
  idempotencyKey : Option String
  serviceActorExpiresAt : Option Timestamp
  deriving DecidableEq

section Functions

variable (server : Server) (w : World)

/-- The request names the job. -/
def IssueRequest.selects (r : IssueRequest) (job : ConnectorJob) : Bool :=
  sqlEq (some job.organizationId) r.organizationId && sqlEq (some job.sourceId) r.sourceId &&
    sqlEq (some job.sourceVersionId) r.sourceVersionId && sqlEq (some job.workerJobId) r.workerJobId &&
    sqlEq (some job.servicePrincipalId) r.servicePrincipalId

/-- The idempotency key of a generation. -/
def leaseKey (job : ConnectorJob) (generation : Nat) : String :=
  (server.digest (encode (server.uuidText job.organizationId ++ ":" ++ server.uuidText job.workerJobId ++ ":" ++
    toString generation))).hexdigest

/-- The row that issue and preemption write: the next generation, at the current epoch. -/
def reissued (r : IssueRequest) (now : Timestamp) : ConnectorJob :=
  { w.job with
    state := .leased
    leaseGeneration := w.job.leaseGeneration + 1
    lease :=
      { signingKeyVersion := r.signingKeyVersion
        leaseNonceDigest := r.nonce.map server.digest
        leaseIssuedAt := some now
        leaseExpiresAt := r.leaseTtlSeconds.map fun t => now + t.toNat * MICROS
        policyEpoch := some w.policyEpoch
        idempotencyKey := some (leaseKey server w.job (w.job.leaseGeneration + 1))
        allowedSourceVersionIds := r.sourceVersionId.map ([·])
        allowedOperations := some ["connector.execute"]
        serviceActorExpiresAt := r.leaseTtlSeconds.map fun t => now + t.toNat * MICROS }
    redeemedAt := none
    completedAt := none }

def ConnectorJob.leaseRow (job : ConnectorJob) : LeaseRow :=
  ⟨job.lease.leaseIssuedAt, job.lease.leaseExpiresAt, job.leaseGeneration, job.lease.policyEpoch, job.lease.idempotencyKey,
    job.lease.serviceActorExpiresAt⟩

/-- `context_supply_issue_connector_lease`. -/
def issue (r : IssueRequest) : Option (LeaseRow × World) := do
  guard r.accepted
  let now := truncSecond w.clock
  guard (r.selects w.job)
  guard (w.job.state = .available ∨ w.job.state = .running ∧ sqlReached w.job.lease.leaseExpiresAt now)
  guard w.authorized
  let job := reissued server w r now
  guard job.checks
  some (job.leaseRow, { w with job })

/-- `context_supply_preempt_connector_lease`. -/
def preempt (r : IssueRequest) (reasonDigest : Option String) : Option (LeaseRow × World) := do
  guard r.accepted
  guard (reasonDigest.all isSha256)
  let now := truncSecond w.clock
  guard (r.selects w.job)
  guard (w.job.state = .running)
  guard (sqlBefore now w.job.lease.leaseExpiresAt)
  guard w.authorized
  let job := reissued server w r now
  guard job.checks
  -- the event's reason is not nullable
  let reason ← reasonDigest
  some (job.leaseRow,
    { w with
      job
      leaseEvents := ⟨w.job.leaseGeneration, job.leaseGeneration, reason, now⟩ :: w.leaseEvents })

/-! ## Redemption and acceptance -/

/-- The lease that a worker presents. -/
structure LeaseClaims where
  sessionUser : Role
  organizationId : Option UUID
  sourceVersionId : Option UUID
  workerJobId : Option UUID
  servicePrincipalId : Option UUID
  leaseGeneration : Option Nat
  signingKeyVersion : Option Int
  nonce : Option (List UInt8)
  issuedAt : Option Timestamp
  expiresAt : Option Timestamp
  policyEpoch : Option Nat
  idempotencyKey : Option String
  allowedSourceVersionIds : Option (List UUID)
  allowedOperations : Option (List String)
  serviceActorExpiresAt : Option Timestamp
  deriving DecidableEq

/-- The verification predicate. -/
def verifies (c : LeaseClaims) : Bool :=
  let lease := w.job.lease
  sqlEq (some w.job.organizationId) c.organizationId && sqlEq (some w.job.sourceVersionId) c.sourceVersionId &&
    sqlEq (some w.job.workerJobId) c.workerJobId && sqlEq (some w.job.servicePrincipalId) c.servicePrincipalId &&
    sqlEq (some w.job.leaseGeneration) c.leaseGeneration && sqlEq lease.signingKeyVersion c.signingKeyVersion &&
    sqlEq lease.leaseNonceDigest (c.nonce.map server.digest) && sqlEq lease.leaseIssuedAt c.issuedAt &&
    sqlEq lease.leaseExpiresAt c.expiresAt && sqlEq lease.policyEpoch c.policyEpoch &&
    sqlEq lease.idempotencyKey c.idempotencyKey && sqlEq lease.allowedSourceVersionIds c.allowedSourceVersionIds &&
    sqlEq lease.allowedOperations c.allowedOperations && sqlEq lease.serviceActorExpiresAt c.serviceActorExpiresAt &&
    sqlBefore w.clock lease.leaseExpiresAt && sqlBefore w.clock lease.serviceActorExpiresAt &&
    sqlEq lease.allowedSourceVersionIds (c.sourceVersionId.map ([·])) &&
    sqlEq lease.allowedOperations (some ["connector.execute"]) && sqlEq (some w.policyEpoch) lease.policyEpoch &&
    w.authorized

/-- `context_supply_redeem_connector_lease`; it returns the checkpoint. -/
def redeem (c : LeaseClaims) : Option (Option (List UInt8) × World) := do
  guard (c.sessionUser = .worker)
  guard (verifies server w c)
  guard (w.job.state = .leased)
  guard w.job.redeemedAt.isNone
  let job := { w.job with state := .running, redeemedAt := some w.clock }
  guard job.checks
  some (w.checkpoint.map (·.opaqueCheckpoint), { w with job })

/-- `COALESCE(max(accepted_ordinal), 0) + 1`. -/
def nextOrdinal (pages : List AcceptedPage) : Nat := (pages.map (·.acceptedOrdinal)).foldr max 0 + 1

/-- The new page, its checkpoint, and the job that a terminal page completes. -/
def accepted (pageRef : String) (s : Staged) : World :=
  let ordinal := nextOrdinal w.acceptedPages
  { w with
    acceptedPages := ⟨ordinal, pageRef, s.checkpointDigest, w.clock⟩ :: w.acceptedPages
    checkpoint := some ⟨ordinal, pageRef, s.checkpoint, w.clock⟩
    job :=
      { w.job with
        state := if s.terminal then .completed else .running
        completedAt := if s.terminal then some w.clock else none } }

/-- `context_supply_accept_connector_page`; it returns the accepted ordinal. -/
def accept (c : LeaseClaims) (pageRef : String) (payload : List UInt8) : Option (Nat × World) := do
  guard (c.sessionUser = .worker)
  let organizationId ← c.organizationId
  let sourceVersionId ← c.sourceVersionId
  let workerJobId ← c.workerJobId
  let s ← stage server ⟨organizationId, sourceVersionId, workerJobId⟩ pageRef payload c.policyEpoch w.clock
  guard (verifies server w c)
  guard (w.job.state = .running)
  guard w.job.redeemedAt.isSome
  -- `ON CONFLICT DO NOTHING`: a page that was staged before keeps its digests
  let stagedPages := if w.stagedPages.any (·.pageRef = pageRef) then w.stagedPages
    else ⟨pageRef, payload, s.payloadDigest, s.checkpointDigest, w.clock⟩ :: w.stagedPages
  guard (stagedPages.any fun p => p.pageRef = pageRef ∧ p.payloadDigest = s.payloadDigest ∧
    p.checkpointProposalDigest = s.checkpointDigest)
  let w := { w with stagedPages }
  match w.acceptedPages.find? (·.pageRef = pageRef) with
  | some page =>
    guard (page.checkpointDigest = s.checkpointDigest)
    some (page.acceptedOrdinal, w)
  | none =>
    guard (nextOrdinal w.acceptedPages ≤ MAX_BIGINT)
    let w' := accepted w pageRef s
    guard w'.job.checks
    some (nextOrdinal w.acceptedPages, w')

/-! ## Steps -/

inductive Call where
  | issue (r : IssueRequest)
  | preempt (r : IssueRequest) (reasonDigest : Option String)
  | redeem (c : LeaseClaims)
  | accept (c : LeaseClaims) (pageRef : String) (payload : List UInt8)
  | advanceClock (micros : Nat)
  | advanceEpoch (by' : Nat)
  | setPrincipal (enabled : Bool)
  | setSource (activeVersionId : Option UUID) (active : Bool)

inductive Reply where
  | nothing
  | lease (row : LeaseRow)
  | redeemed (checkpoint : Option (List UInt8))
  | accepted (ordinal : Nat)
  deriving DecidableEq

/-- A call that returned, or the unchanged state. -/
def answer {α : Type} (w : World) (reply : α → Reply) : Option (α × World) → World × Reply
  | some (a, w') => (w', reply a)
  | none => (w, .nothing)

def step : Call → World × Reply
  | .issue r => answer w .lease (issue server w r)
  | .preempt r reason => answer w .lease (preempt server w r reason)
  | .redeem c => answer w .redeemed (redeem server w c)
  | .accept c pageRef payload => answer w .accepted (accept server w c pageRef payload)
  | .advanceClock micros => ({ w with clock := w.clock + micros }, .nothing)
  | .advanceEpoch by' => ({ w with policyEpoch := w.policyEpoch + by' }, .nothing)
  | .setPrincipal enabled => ({ w with principalEnabled := enabled }, .nothing)
  | .setSource activeVersionId active => ({ w with activeVersionId, sourceActive := active }, .nothing)

end Functions

/-- A freshly created job, nothing staged or accepted for it. -/
structure World.Fresh (w : World) : Prop where
  state : w.job.state = .available
  checks : w.job.checks = true
  epoch : 0 < w.policyEpoch
  staged : w.stagedPages = []
  accepted : w.acceptedPages = []
  checkpoint : w.checkpoint = none
  events : w.leaseEvents = []

end ContextEngine.Supply
