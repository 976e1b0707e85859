/-
  ContextEngine.Learning.ReleasePromotion — releases of one Organization: candidates, their
  evaluations, and promotion (`engine/persistence/releases.py` and
  `context_learning_promote_release` of `migrations/versions` 0009, with the embedding gate
  of 0053).

  Any number of sessions run at once, at READ COMMITTED. A promotion is a transaction: the
  function asks for the Organization's advisory lock, which it keeps until the transaction
  ends, and then runs its statements one by one, each on what is committed by then and on the
  transaction's own writes. What a transaction wrote becomes visible when it commits, and is
  gone when it is rolled back or its connection is lost. Between any two statements other
  sessions run theirs, candidates and evaluations are persisted, Fragments are indexed, grants
  change and the clock advances.

  Manifests, candidates, evaluations and audit rows are immutable by trigger; a table is the
  map from its key to its row. The lineage columns of a manifest that promotion does not read
  are left out.
-/

import ContextEngine.Machine.Runs
import ContextEngine.Postgres.Values
import ContextEngine.Python.Json

namespace ContextEngine.Learning

open ContextEngine.Python ContextEngine.Postgres ContextEngine.Runtime

/-! ## Rows -/

inductive GateStatus where
  | pass
  | fail
  deriving DecidableEq

structure GateEvidence where
  status : GateStatus
  evidenceDigest : String
  deriving DecidableEq

structure Gates where
  security : GateEvidence
  reliability : GateEvidence
  quality : GateEvidence
  budget : GateEvidence
  deriving DecidableEq

def Gates.passed (g : Gates) : Bool :=
  decide (g.security.status = .pass ∧ g.reliability.status = .pass ∧ g.quality.status = .pass ∧ g.budget.status = .pass)

def Gates.digests (g : Gates) : List String :=
  [g.security.evidenceDigest, g.reliability.evidenceDigest, g.quality.evidenceDigest, g.budget.evidenceDigest]

/-- A row of `release_manifest`. -/
structure ReleaseManifest where
  manifestDigest : String
  embeddingProfileDigest : String
  curationOff : Bool
  activeRevisionRefs : List String
  deriving DecidableEq

/-- A row of `context_fragment`. Its profile digest is NULL exactly when its embedding is. -/
structure FragmentRow where
  revisionId : UUID
  embeddingProfileDigest : Option String
  deriving DecidableEq

/-- The columns that candidates and evaluations share. -/
structure ReleaseLineage where
  manifestRef : String
  manifestDigest : String
  expectedActiveGeneration : Nat
  expectedBaseManifestDigest : Option String
  gates : Gates
  capabilityCoverageDigest : String
  fixtureDigest : String
  verificationCommands : List String
  deriving DecidableEq

/-- A row of `release_candidate`. -/
structure ReleaseCandidate where
  candidateDigest : String
  lineage : ReleaseLineage
  deriving DecidableEq

/-- A row of `release_evaluation`. -/
structure ReleaseEvaluation where
  evaluationDigest : String
  candidateRef : String
  candidateDigest : String
  lineage : ReleaseLineage
  compatibilityPassed : Bool
  compatibilityEvidenceDigest : String
  evaluatedAt : Timestamp
  digestProfile : String
  signatureProfile : String
  signingKeyVersion : Nat
  signature : List UInt8
  deriving DecidableEq

/-- A row of `release_operator_grant`. -/
structure OperatorGrant where
  authorityDigest : String
  operatorRef : String
  authenticationBindingRef : String
  validFrom : Timestamp
  expiresAt : Timestamp
  revokedAt : Option Timestamp
  deriving DecidableEq

/-- The row of `active_release_manifest`. -/
structure ActivePointer where
  activeGeneration : Nat
  manifestRef : String
  manifestDigest : String
  promotionRef : String
  activatedAt : Timestamp
  deriving DecidableEq

/-- A row of `release_promotion_audit`. -/
structure AuditRow where
  activeGeneration : Nat
  promotionRef : String
  operatorRef : String
  authenticationBindingRef : String
  authorityRef : String
  authorityDigest : String
  candidateRef : String
  candidateDigest : String
  manifestRef : String
  manifestDigest : String
  evaluationRef : String
  evaluationDigest : String
  expectedActiveGeneration : Nat
  expectedBaseManifestDigest : Option String
  requestId : String
  auditReasonDigest : String
  promotionCallDigest : String
  callIssuedAt : Timestamp
  callExpiresAt : Timestamp
  promotedAt : Timestamp
  deriving DecidableEq

/-! ### Check constraints -/

/-- `_bounded_ref`. -/
def boundedRef (s : String) : Bool := decide (1 ≤ s.length ∧ s.length ≤ 255) && !hasMargin s && !s.toList.any isSpace

/-- `ck_…_expected_base` with `ck_…_generation_incrementable`. -/
def expectedBaseChecks (generation : Nat) (base : Option String) : Bool :=
  decide (generation ≤ MAX_BIGINT - 1) &&
    (decide (generation = 0) && base.isNone || decide (0 < generation) && base.any isSha256)

def ReleaseLineage.checks (l : ReleaseLineage) : Bool :=
  boundedRef l.manifestRef && isSha256 l.manifestDigest && l.gates.digests.all isSha256 && isSha256 l.capabilityCoverageDigest &&
    isSha256 l.fixtureDigest && expectedBaseChecks l.expectedActiveGeneration l.expectedBaseManifestDigest &&
    !l.verificationCommands.isEmpty

def DIGEST_PROFILE : String := "release-evaluation-rfc8785-sha256-v1"

def SIGNATURE_PROFILE : String := "release-evaluation-hmac-sha256-v1"

def ReleaseEvaluation.checks (e : ReleaseEvaluation) : Bool :=
  e.lineage.checks && boundedRef e.candidateRef && isSha256 e.evaluationDigest && isSha256 e.candidateDigest &&
    isSha256 e.compatibilityEvidenceDigest && e.digestProfile == DIGEST_PROFILE && e.signatureProfile == SIGNATURE_PROFILE &&
    decide (1 ≤ e.signingKeyVersion ∧ e.signingKeyVersion ≤ MAX_BIGINT) && e.signature.length == 32

def ActivePointer.checks (p : ActivePointer) : Bool :=
  decide (1 ≤ p.activeGeneration ∧ p.activeGeneration ≤ MAX_BIGINT) && boundedRef p.manifestRef && boundedRef p.promotionRef &&
    isSha256 p.manifestDigest

def AuditRow.checks (a : AuditRow) : Bool :=
  decide (a.activeGeneration = a.expectedActiveGeneration + 1 ∧ a.activeGeneration ≤ MAX_BIGINT) &&
    decide (a.callIssuedAt < a.callExpiresAt ∧ a.callIssuedAt ≤ a.promotedAt) &&
    [a.promotionRef, a.operatorRef, a.authenticationBindingRef, a.authorityRef, a.candidateRef, a.manifestRef, a.evaluationRef,
      a.requestId].all boundedRef &&
    [a.authorityDigest, a.candidateDigest, a.manifestDigest, a.evaluationDigest, a.auditReasonDigest, a.promotionCallDigest].all
      isSha256 &&
    expectedBaseChecks a.expectedActiveGeneration a.expectedBaseManifestDigest

/-! ## Tables and sessions -/

/-- What is committed. -/
structure Tables where
  manifests : String → Option ReleaseManifest
  candidates : String → Option ReleaseCandidate
  evaluations : String → Option ReleaseEvaluation
  grants : String → Option OperatorGrant
  fragments : List FragmentRow
  pointer : Option ActivePointer
  /-- Oldest first. -/
  audit : List AuditRow

/-- The arguments of a promotion. -/
structure PromotionCall where
  promotionRef : String
  operatorRef : String
  authenticationBindingRef : String
  authorityRef : String
  authorityDigest : String
  candidateRef : String
  candidateDigest : String
  manifestRef : String
  manifestDigest : String
  evaluationRef : String
  evaluationDigest : String
  evaluationSigningKeyVersion : Nat
  evaluationSignature : List UInt8
  expectedActiveGeneration : Int
  expectedBaseManifestDigest : Option String
  issuedAt : Timestamp
  expiresAt : Timestamp
  requestId : String
  auditReasonDigest : String
  promotionCallDigest : String
  deriving DecidableEq

/-- Where the function is; `at'` is `statement_timestamp()`. -/
inductive Phase where
  | idle
  /-- Waiting for the advisory lock. -/
  | waiting (c : PromotionCall) (at' : Timestamp)
  /-- The lock is held. -/
  | locked (c : PromotionCall) (at' : Timestamp)
  /-- The call is in its window and its operator is granted. -/
  | granted (c : PromotionCall) (at' : Timestamp)
  | nominated (c : PromotionCall) (at' : Timestamp) (candidate : ReleaseCandidate)
  | evaluated (c : PromotionCall) (at' : Timestamp)
  /-- The pointer was read, and is the expected one. -/
  | compared (c : PromotionCall) (at' : Timestamp)
  | upserted (c : PromotionCall) (at' : Timestamp)
  /-- A statement raised; nothing but a rollback is left. -/
  | aborted

structure Transaction where
  phase : Phase
  /-- The pointer that it wrote, and the audit rows that it inserted. -/
  pointer : Option ActivePointer
  audit : List AuditRow

structure World where
  clock : Timestamp
  tables : Tables
  sessions : Nat → Option Transaction
  /-- Who holds the advisory lock. -/
  holder : Option Nat

/-- What the statements of a transaction see. -/
def Tables.seen (t : Tables) (txn : Transaction) : Tables :=
  { t with pointer := txn.pointer.or t.pointer, audit := t.audit ++ txn.audit }

/-! ## Persisting candidates and evaluations -/

/-- An `INSERT … ON CONFLICT DO NOTHING`. -/
def insertNew {ρ : Type} (table : String → Option ρ) (key : String) (row : ρ) : String → Option ρ :=
  if (table key).isSome then table else Function.update table key (some row)

/-- `persist_candidate`; `none` is a refusal. What was there under the references must be the same. -/
def persistCandidate (t : Tables) (manifest : ReleaseManifest) (candidateRef : String) (candidate : ReleaseCandidate) :
    Option Tables := do
  let l := candidate.lineage
  guard (manifest.manifestDigest = l.manifestDigest)
  guard (boundedRef candidateRef && isSha256 candidate.candidateDigest && isSha256 manifest.embeddingProfileDigest && l.checks)
  let t' := { t with
    manifests := insertNew t.manifests l.manifestRef manifest
    candidates := insertNew t.candidates candidateRef candidate }
  guard (t'.manifests l.manifestRef = some manifest)
  guard (t'.candidates candidateRef = some candidate)
  some t'

/-- `persist_evaluation`. The candidate and the manifest are foreign keys. -/
def persistEvaluation (t : Tables) (evaluationRef : String) (e : ReleaseEvaluation) : Option Tables := do
  guard (boundedRef evaluationRef && e.checks)
  guard ((t.candidates e.candidateRef).any fun c => c.candidateDigest == e.candidateDigest)
  guard ((t.manifests e.lineage.manifestRef).any fun m => m.manifestDigest == e.lineage.manifestDigest)
  let t' := { t with evaluations := insertNew t.evaluations evaluationRef e }
  guard (t'.evaluations evaluationRef = some e)
  some t'

/-! ## Promotion -/

section Promote

variable (c : PromotionCall) (t : Tables)

/-- The call's window and its expectation. -/
def PromotionCall.wellTimed (at' : Timestamp) : Bool :=
  decide (c.issuedAt ≤ at' ∧ at' < c.expiresAt ∧ c.issuedAt < c.expiresAt) &&
    decide (0 ≤ c.expectedActiveGeneration ∧ c.expectedActiveGeneration < MAX_BIGINT) &&
    (decide (c.expectedActiveGeneration = 0) && c.expectedBaseManifestDigest.isNone ||
      decide (0 < c.expectedActiveGeneration) && c.expectedBaseManifestDigest.isSome)

def PromotionCall.grantedBy (at' : Timestamp) (g : OperatorGrant) : Bool :=
  g.authorityDigest == c.authorityDigest && g.operatorRef == c.operatorRef &&
    g.authenticationBindingRef == c.authenticationBindingRef && decide (g.validFrom ≤ at' ∧ at' < g.expiresAt) &&
    g.revokedAt.isNone

/-- The comparisons that candidates and evaluations share. -/
def PromotionCall.names (l : ReleaseLineage) : Bool :=
  l.manifestRef == c.manifestRef && l.manifestDigest == c.manifestDigest &&
    decide ((l.expectedActiveGeneration : Int) = c.expectedActiveGeneration) &&
    l.expectedBaseManifestDigest == c.expectedBaseManifestDigest && l.gates.passed

/-- The candidate under the call's reference and digest. -/
def PromotionCall.candidate? : Option ReleaseCandidate :=
  (t.candidates c.candidateRef).filter fun r => r.candidateDigest == c.candidateDigest && c.names r.lineage

def PromotionCall.accepts (candidate : ReleaseCandidate) (e : ReleaseEvaluation) : Bool :=
  e.evaluationDigest == c.evaluationDigest && e.candidateRef == c.candidateRef && e.candidateDigest == c.candidateDigest &&
    c.names e.lineage && e.lineage.gates == candidate.lineage.gates && e.compatibilityPassed &&
    e.digestProfile == DIGEST_PROFILE && e.signatureProfile == SIGNATURE_PROFILE &&
    e.signingKeyVersion == c.evaluationSigningKeyVersion && e.signature == c.evaluationSignature &&
    e.lineage.capabilityCoverageDigest == candidate.lineage.capabilityCoverageDigest &&
    e.lineage.fixtureDigest == candidate.lineage.fixtureDigest &&
    e.lineage.verificationCommands == candidate.lineage.verificationCommands

/-- The Fragments of a Revision: an identifier has one text that the gate lets through. -/
def Tables.revision (ref : String) : List FragmentRow := t.fragments.filter fun f => uuidText f.revisionId == ref

/-- The gate of 0053: some Revision is active, and each has Fragments, all embedded under the
    manifest's profile. -/
def Tables.embeds (m : ReleaseManifest) : Bool :=
  !m.activeRevisionRefs.isEmpty && m.activeRevisionRefs.all fun ref =>
    isUuidText ref && !(t.revision ref).isEmpty &&
      (t.revision ref).all fun f => f.embeddingProfileDigest == some m.embeddingProfileDigest

/-- The evaluation is the candidate's, and the manifest is not curated and fully embedded. -/
def PromotionCall.evaluated (candidate : ReleaseCandidate) : Bool :=
  (t.evaluations c.evaluationRef).any (c.accepts candidate) &&
    (t.manifests c.manifestRef).any fun m => m.manifestDigest == c.manifestDigest && m.curationOff && t.embeds m

/-- The generation and manifest digest of a pointer; without one, 0 and NULL. -/
def PromotionCall.expects (pointer : Option ActivePointer) : Bool :=
  decide (((pointer.map (·.activeGeneration)).getD 0 : Int) = c.expectedActiveGeneration) &&
    decide (pointer.map (·.manifestDigest) = c.expectedBaseManifestDigest)

def PromotionCall.nextGeneration : Nat := (c.expectedActiveGeneration + 1).toNat

def PromotionCall.pointer (at' : Timestamp) : ActivePointer :=
  ⟨c.nextGeneration, c.manifestRef, c.manifestDigest, c.promotionRef, at'⟩

def PromotionCall.auditRow (at' : Timestamp) : AuditRow :=
  { activeGeneration := c.nextGeneration
    promotionRef := c.promotionRef
    operatorRef := c.operatorRef
    authenticationBindingRef := c.authenticationBindingRef
    authorityRef := c.authorityRef
    authorityDigest := c.authorityDigest
    candidateRef := c.candidateRef
    candidateDigest := c.candidateDigest
    manifestRef := c.manifestRef
    manifestDigest := c.manifestDigest
    evaluationRef := c.evaluationRef
    evaluationDigest := c.evaluationDigest
    expectedActiveGeneration := c.expectedActiveGeneration.toNat
    expectedBaseManifestDigest := c.expectedBaseManifestDigest
    requestId := c.requestId
    auditReasonDigest := c.auditReasonDigest
    promotionCallDigest := c.promotionCallDigest
    callIssuedAt := c.issuedAt
    callExpiresAt := c.expiresAt
    promotedAt := at' }

/-- `INSERT … ON CONFLICT (organization_id) DO UPDATE … WHERE`: what the guard lets it write. -/
def upsert (at' : Timestamp) : Option ActivePointer :=
  if (t.pointer.all fun p => decide ((p.activeGeneration : Int) = c.expectedActiveGeneration) &&
      decide (some p.manifestDigest = c.expectedBaseManifestDigest)) && (c.pointer at').checks
  then some (c.pointer at') else none

/-- The primary key and the unique reference of the audit, and its checks. -/
def auditable (a : AuditRow) : Bool :=
  (t.audit.all fun r => decide (r.activeGeneration ≠ a.activeGeneration ∧ r.promotionRef ≠ a.promotionRef)) && a.checks

end Promote

/-! ## Steps -/

inductive Call where
  | persistCandidate (manifest : ReleaseManifest) (candidateRef : String) (candidate : ReleaseCandidate)
  | persistEvaluation (evaluationRef : String) (evaluation : ReleaseEvaluation)
  | setGrant (authorityRef : String) (grant : Option OperatorGrant)
  /-- Publication and indexing, of any Revisions. -/
  | setFragments (fragments : List FragmentRow)
  | advanceClock (micros : Nat)
  | begin' (session : Nat)
  /-- Call the function; without arguments, one of them is NULL. -/
  | promote (session : Nat) (user : Role) (call : Option PromotionCall)
  /-- Run the next statement of the function. -/
  | advance (session : Nat)
  | commit (session : Nat)
  /-- Roll back, or lose the connection. -/
  | rollback (session : Nat)

inductive Reply where
  | nothing
  /-- The function returned. -/
  | promoted (row : AuditRow)
  /-- The transaction committed, with these promotions. -/
  | committed (rows : List AuditRow)

section Step

variable (w : World)

def World.set (session : Nat) (txn : Transaction) : World :=
  { w with sessions := Function.update w.sessions session (some txn) }

/-- The end of a transaction releases its lock. -/
def World.close (session : Nat) : World :=
  { w with
    sessions := Function.update w.sessions session none
    holder := if w.holder = some session then none else w.holder }

def promote (session : Nat) (user : Role) (call : Option PromotionCall) : World :=
  match w.sessions session with
  | some txn =>
    match txn.phase with
    | .idle =>
      match call with
      | some c => w.set session { txn with phase := if user = .learning then .waiting c w.clock else .aborted }
      | none => w.set session { txn with phase := .aborted }
    | _ => w
  | none => w

/-- The statement after `phase`, on what the transaction sees. -/
def nextStatement (seen : Tables) (txn : Transaction) : Transaction × Reply :=
  match txn.phase with
  | .locked c at' =>
    if c.wellTimed at' && (seen.grants c.authorityRef).any (c.grantedBy at') then ({ txn with phase := .granted c at' }, .nothing)
    else ({ txn with phase := .aborted }, .nothing)
  | .granted c at' =>
    match c.candidate? seen with
    | some candidate => ({ txn with phase := .nominated c at' candidate }, .nothing)
    | none => ({ txn with phase := .aborted }, .nothing)
  | .nominated c at' candidate =>
    if c.evaluated seen candidate then ({ txn with phase := .evaluated c at' }, .nothing)
    else ({ txn with phase := .aborted }, .nothing)
  | .evaluated c at' =>
    if c.expects seen.pointer then ({ txn with phase := .compared c at' }, .nothing)
    else ({ txn with phase := .aborted }, .nothing)
  | .compared c at' =>
    match upsert c seen at' with
    | some p => ({ txn with phase := .upserted c at', pointer := some p }, .nothing)
    | none => ({ txn with phase := .aborted }, .nothing)
  | .upserted c at' =>
    if auditable seen (c.auditRow at') then
      ({ txn with phase := .idle, audit := txn.audit ++ [c.auditRow at'] }, .promoted (c.auditRow at'))
    else ({ txn with phase := .aborted }, .nothing)
  | _ => (txn, .nothing)

def advance (session : Nat) : World × Reply :=
  match w.sessions session with
  | some txn =>
    match txn.phase with
    | .waiting c at' =>
      if w.holder = none ∨ w.holder = some session then
        ({ w.set session { txn with phase := .locked c at' } with holder := some session }, .nothing)
      else (w, .nothing)
    | _ =>
      let next := nextStatement (w.tables.seen txn) txn
      (w.set session next.1, next.2)
  | none => (w, .nothing)

/-- A transaction commits between statements; an aborted one is rolled back instead. -/
def commit (session : Nat) : World × Reply :=
  match w.sessions session with
  | some txn =>
    match txn.phase with
    | .idle => ({ w.close session with tables := w.tables.seen txn }, .committed txn.audit)
    | .aborted => (w.close session, .nothing)
    | _ => (w, .nothing)
  | none => (w, .nothing)

def step : Call → World × Reply
  | .persistCandidate manifest ref candidate =>
    ({ w with tables := (persistCandidate w.tables manifest ref candidate).getD w.tables }, .nothing)
  | .persistEvaluation ref evaluation => ({ w with tables := (persistEvaluation w.tables ref evaluation).getD w.tables }, .nothing)
  | .setGrant ref grant => ({ w with tables := { w.tables with grants := Function.update w.tables.grants ref grant } }, .nothing)
  | .setFragments fragments => ({ w with tables := { w.tables with fragments } }, .nothing)
  | .advanceClock micros => ({ w with clock := w.clock + micros }, .nothing)
  | .begin' session => (if (w.sessions session).isSome then w else w.set session ⟨.idle, none, []⟩, .nothing)
  | .promote session user call => (promote w session user call, .nothing)
  | .advance session => advance w session
  | .commit session => commit w session
  | .rollback session => (w.close session, .nothing)

end Step

/-- An Organization that never promoted a release. -/
structure World.Fresh (w : World) : Prop where
  pointer : w.tables.pointer = none
  audit : w.tables.audit = []
  sessions : ∀ i, w.sessions i = none
  holder : w.holder = none

end ContextEngine.Learning
