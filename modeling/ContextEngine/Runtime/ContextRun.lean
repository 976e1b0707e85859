/-
  ContextEngine.Runtime.ContextRun — the Package a delivery carries and the durable record
  of its run (`engine/runtime/contracts.py`, `engine/runtime/context_run.py`).

  `build_context_run_records` derives the authorized scope a second time, from the
  snapshot, and accepts a final scope only if it is that one or empty. Digests of the
  Package document, of the query and of the audience, and the tokenizer registry, are
  functions the engine compares results of; they are parameters.
-/

import ContextEngine.Runtime.Kernel

namespace ContextEngine.Runtime

open ContextEngine.Python Checks Budget

/-! ## Packages -/

inductive CoverageStatus where
  | empty
  | sufficient
  deriving DecidableEq

inductive CoverageReason where
  | noAuthorizedEvidence
  deriving DecidableEq

structure Coverage where
  status : CoverageStatus
  reason : Option CoverageReason
  deriving DecidableEq

/-- `Coverage(...)`. -/
def coverage (status : CoverageStatus) (reason : Option CoverageReason) : Except Raised Coverage := do
  ensure (status != .empty || reason == some .noAuthorizedEvidence)
    "empty package coverage reason must be no_authorized_evidence"
  ensure (status != .sufficient || reason.isNone) "sufficient package coverage must not contain a reason"
  return ⟨status, reason⟩

/-- Tenant-safe Runtime deliverable. -/
structure ContextPackage where
  packageId : String
  purpose : String
  audienceDigest : String
  policyEpoch : Int
  policySnapshotRef : String
  runRef : String
  releaseManifestRef : String
  retentionPolicyRef : String
  tokenizerRef : String
  packageSchemaRef : String
  ttlSeconds : Int
  asOf : Instant
  expiresAt : Instant
  decisionRef : String
  packageDigest : String
  blocks : List PackageBlock
  evidence : List Evidence
  budgetUsage : BudgetUsage
  coverage : Coverage
  tokenizerProfileDigest : String
  deriving DecidableEq

structure QueryDigest where
  value : String
  profile : String
  keyVersion : Int
  deriving DecidableEq

/-- Functions the delivery path calls and only compares the results of. -/
structure DeliveryLibraries where
  stdlib : Stdlib
  /-- `context_package_digest(context_package_digest_document(package))`. -/
  packageDigest : ContextPackage → String
  /-- `query_digest(keyring, organization_id, query)`. -/
  queryDigest : UUID → String → QueryDigest
  /-- `direct_egress_audience_digest`. -/
  audienceDigest : UUID → UUID → Int → String → String → String
  /-- `registered_tokenizer_profile_by_identity` finds a profile. -/
  registeredTokenizer : String → String → Bool
  /-- The ref of the profile that `registered_tokenizer_profile` finds. -/
  tokenizerProfile : String → String → Option String
  /-- `HISTORICAL_UTF8_BYTE_TOKENIZER_PROFILE_DIGEST`. -/
  historicalTokenizerDigest : String

def PACKAGE_REF_PREFIX : String := "pkg"
def DECISION_REF_PREFIX : String := "dec"
def PACKAGE_SCHEMA_REF_V1 : String := "context-package-openapi-v1"
def PACKAGE_RETENTION_POLICY_REF : String := "package-digest-only-retention-v1"

/-- `_require_closed_opaque_ref`. -/
def requireClosedOpaqueRef (fieldName value start : String) : Except Raised Unit := do
  let start := (start ++ "_").toList
  ensure (value.toList.length == start.length + 32 && start.isPrefixOf value.toList)
    (fieldName ++ " must use the closed opaque format")
  ensure ((value.toList.drop start.length).all (hexDigits.contains ·)) (fieldName ++ " must use lowercase opaque entropy")

/-- The opaque refs of a Package, each nonblank and without whitespace. -/
def requirePackageRef (field : String × String) : Except Raised Unit := do
  ensure (!blank field.2) ("package " ++ field.1 ++ " must be a nonblank string")
  ensure (field.2.toList.all (!isspace ·)) ("package " ++ field.1 ++ " must be an opaque ref")

section Package

variable (libs : DeliveryLibraries)

/-- What `ContextPackage.__post_init__` requires of content, coverage and usage. -/
def requirePackageUsage (p : ContextPackage) : Except Raised Unit := do
  let isV1 := p.packageSchemaRef == PACKAGE_SCHEMA_REF_V1
  ensure (isV1 || p.tokenizerProfileDigest == libs.historicalTokenizerDigest)
    "v0 package requires historical byte accounting"
  ensure (!isV1 || libs.registeredTokenizer p.tokenizerRef p.tokenizerProfileDigest)
    "v1 package requires a registered tokenizer lineage"
  if !p.blocks.isEmpty || !p.evidence.isEmpty then
    ensure (!p.blocks.isEmpty && !p.evidence.isEmpty) "content package requires blocks and Evidence"
    ensure (p.coverage.status == .sufficient) "content package coverage must be sufficient"
    let expectedTokens ← blockTokens p.blocks
    ensure (isV1 || p.budgetUsage.tokens == expectedTokens) "content package token usage must equal UTF-8 bytes"
    ensure (!isV1 || p.budgetUsage.tokens != 0) "v1 content package token usage must be positive"
    ensure (isV1 || p.budgetUsage.providerCalls == 0 && p.budgetUsage.costMicrounits == 0 && p.budgetUsage.elapsedMs == 0)
      "internal content package non-token usage must be zero"
  else
    ensure (p.coverage.status == .empty) "evidence-free package coverage must be empty"
    ensure (isV1 || p.budgetUsage == .empty) "empty package usage must be zero"

/-- `ContextPackage(...)`: the checks, then the digest. -/
def contextPackage (p : ContextPackage) : Except Raised ContextPackage := do
  requireClosedOpaqueRef "package package_id" p.packageId PACKAGE_REF_PREFIX
  ensure (!blank p.purpose) "package purpose must be a nonblank string"
  ensure (isSha256 p.audienceDigest) "package audience_digest must be lowercase SHA-256"
  ensure (decide (1 ≤ p.policyEpoch)) "package policy_epoch must be a positive integer"
  [("policy_snapshot_ref", p.policySnapshotRef), ("run_ref", p.runRef), ("release_manifest_ref", p.releaseManifestRef),
    ("retention_policy_ref", p.retentionPolicyRef), ("tokenizer_ref", p.tokenizerRef),
    ("package_schema_ref", p.packageSchemaRef)].forM requirePackageRef
  requireClosedOpaqueRef "package decision_ref" p.decisionRef DECISION_REF_PREFIX
  ensure (decide (0 < p.ttlSeconds)) "package TTL must be a positive exact integer"
  ensure (decide (p.asOf.micros < p.expiresAt.micros)) "package expiry must be later than as_of"
  ensure (p.expiresAt.micros - p.asOf.micros == p.ttlSeconds * 1000000)
    "package TTL must exactly match its expiry interval"
  validatePackageContent libs.stdlib p.blocks p.evidence
  ensure (isSha256 p.tokenizerProfileDigest) "package tokenizer profile digest must be SHA-256"
  requirePackageUsage libs p
  return { p with packageDigest := libs.packageDigest p }

end Package

/-! ## Run records -/

inductive ContextRunOutcome where
  | deliveredAuthorized
  | deliveredEmpty
  deriving DecidableEq

inductive DecisionAuditCategory where
  | noAuthorizedEvidence
  deriving DecidableEq

/-- One Evidence of a run's `authorized_citation_lineage`. -/
structure CitationLineage where
  evidenceRef : String
  fragmentRef : String
  resourceRef : String
  revisionRef : String
  sourceRef : String
  deriving DecidableEq

/-- Authorized-only final lineage for one completed Runtime delivery. -/
structure ContextRunRecord where
  organizationId : UUID
  runRef : String
  decisionRef : String
  userId : UUID
  membershipId : UUID
  membershipVersion : Int
  principalRef : String
  agentVersionRef : String
  authenticatedApplicationRef : String
  authenticationBindingRef : String
  requestId : String
  purpose : String
  policySnapshotRef : String
  policyEpoch : Int
  effectiveScopeDigest : String
  queryDigest : QueryDigest
  outcome : ContextRunOutcome
  packageRef : String
  packageDigest : String
  releaseRef : String
  releaseGeneration : Int
  authorizedEvidenceRefs : List String
  authorizedCitationLineage : List CitationLineage
  effectiveMaximum : PackageBudget
  usage : BudgetUsage
  acceptedAt : Instant
  finalizedAt : Instant
  packageAsOf : Instant
  packageExpiresAt : Instant
  deriving DecidableEq

/-- Restricted empty-decision lineage. -/
structure DecisionAuditRecord where
  organizationId : UUID
  runRef : String
  decisionRef : String
  policySnapshotRef : String
  policyEpoch : Int
  category : DecisionAuditCategory
  recordedAt : Instant
  deriving DecidableEq

def MAX_SIGNED_BIGINT : Int := 2 ^ 63 - 1
def QUERY_DIGEST_PROFILE : String := "context-query-json-hmac-sha256-v1"

/-- `fullmatch(r"<start>_[0-9a-f]{n}", value)`. -/
def isClosedRef (start : String) (n : Nat) (value : String) : Bool :=
  let start := (start ++ "_").toList
  value.toList.length == start.length + n && start.isPrefixOf value.toList &&
    (value.toList.drop start.length).all (hexDigits.contains ·)

def requireRunNonblank (field : String × String) : Except Raised Unit :=
  ensure (!blank field.2) ("ContextRun " ++ field.1 ++ " must be nonblank")

def requireRunDigest (fieldName value : String) : Except Raised Unit :=
  ensure (isSha256 value) ("ContextRun " ++ fieldName ++ " must be lowercase SHA-256")

def positiveBigint (n : Int) : Bool := decide (1 ≤ n ∧ n ≤ MAX_SIGNED_BIGINT)

/-- `ContextRunRecord.__post_init__`. -/
def ContextRunRecord.postInit (r : ContextRunRecord) : Except Raised Unit := do
  [("run_ref", r.runRef), ("decision_ref", r.decisionRef), ("principal_ref", r.principalRef),
    ("agent_version_ref", r.agentVersionRef), ("authenticated_application_ref", r.authenticatedApplicationRef),
    ("authentication_binding_ref", r.authenticationBindingRef), ("request_id", r.requestId), ("purpose", r.purpose),
    ("policy_snapshot_ref", r.policySnapshotRef)].forM requireRunNonblank
  ensure (positiveBigint r.membershipVersion) "ContextRun membership_version must be positive bigint"
  ensure (positiveBigint r.policyEpoch) "ContextRun policy_epoch must be positive bigint"
  requireRunDigest "effective_scope_digest" r.effectiveScopeDigest
  requireRunDigest "query_digest" r.queryDigest.value
  requireRunDigest "package_digest" r.packageDigest
  ensure (r.queryDigest.profile == QUERY_DIGEST_PROFILE) "ContextRun query digest profile is not active"
  ensure (positiveBigint r.queryDigest.keyVersion) "ContextRun query digest key version must be positive"
  ensure (isClosedRef "pkg" 32 r.packageRef) "ContextRun package_ref must use the closed format"
  ensure (isClosedRef "rel" 64 r.releaseRef) "ContextRun release_ref must use the closed format"
  ensure (positiveBigint r.releaseGeneration) "ContextRun release generation must be positive"
  ensure (r.authorizedEvidenceRefs.all (isClosedRef "ev" 64))
    "ContextRun authorized Evidence refs must use the closed opaque format"
  ensure (decide r.authorizedEvidenceRefs.Nodup) "ContextRun authorized Evidence refs must be unique"
  ensure (r.authorizedCitationLineage.map (·.evidenceRef) == r.authorizedEvidenceRefs)
    "ContextRun citation lineage must be exact and unique"
  ensure (r.outcome != .deliveredEmpty || r.authorizedEvidenceRefs.isEmpty) "empty ContextRun cannot contain Evidence refs"
  ensure (r.outcome != .deliveredAuthorized || !r.authorizedEvidenceRefs.isEmpty)
    "authorized ContextRun requires Evidence refs"
  ensure (decide (r.usage.tokens ≤ r.effectiveMaximum.maxTokens)) "ContextRun usage_tokens must not exceed its ceiling"
  ensure (decide (r.usage.providerCalls ≤ r.effectiveMaximum.maxProviderCalls))
    "ContextRun usage_provider_calls must not exceed its ceiling"
  ensure (decide (r.usage.costMicrounits ≤ r.effectiveMaximum.maxCostMicrounits))
    "ContextRun usage_cost_microunits must not exceed its ceiling"
  ensure (decide (r.usage.elapsedMs ≤ r.effectiveMaximum.maxElapsedMs))
    "ContextRun usage_elapsed_ms must not exceed its ceiling"
  ensure (decide (r.acceptedAt.micros ≤ r.finalizedAt.micros)) "ContextRun finalization cannot precede acceptance"
  ensure (r.packageAsOf == r.finalizedAt) "ContextRun Package as-of must equal finalization"
  ensure (decide (r.packageAsOf.micros < r.packageExpiresAt.micros)) "ContextRun Package expiry must follow as-of"

section Records

variable (libs : DeliveryLibraries)

/-- `_require_active_trusted_scope_snapshot`. -/
def requireActiveTrustedScopeSnapshot (s : TrustedScopeSnapshot) : Except Raised Unit := do
  ensure s.active "trusted scope snapshot requires active trusted scope authority"
  ensure (decide (1 ≤ s.policyEpoch ∧ s.policyEpoch ≤ MAX_POLICY_EPOCH))
    "trusted scope snapshot requires a valid Policy Epoch"

/-- The operands that are present stay in the snapshot's Organization. -/
def TrustedScopeSnapshot.contained (s : TrustedScopeSnapshot) : Bool :=
  [s.operands.organizationBoundary, s.operands.membershipRights, s.operands.principalGrants, s.operands.agentCeiling,
    s.operands.sourceNativeAcl, s.operands.resourceAcl, s.operands.purposePolicy].all fun operand =>
      operand.all fun targets => decide (∀ t ∈ targets, t.organizationId = s.organizationId)

/-- `_trusted_operands_from_snapshot`. -/
def trustedOperandsFromSnapshot (s : TrustedScopeSnapshot) : Except Raised TrustedScopeOperands := do
  requireActiveTrustedScopeSnapshot s
  ensure s.contained "trusted scope operand must stay in Organization"
  return s.operands

/-- The scope the snapshot authorizes for one request, or none of it when the snapshot is
    of another epoch than the invocation. -/
def authorizedScope (inv : AuthenticatedInvocation) (narrowing : Option RequestNarrowing) :
    Except Raised EffectiveScope := do
  let operands ← trustedOperandsFromSnapshot inv.trustedScopeSnapshot
  return if inv.trustedScopeSnapshot.policyEpoch = inv.policyEpoch then computeEffectiveScope libs.stdlib operands narrowing
    else .of libs.stdlib ∅

/-- Package, provenance and invocation name the same run. -/
def provenanceMatches (inv : AuthenticatedInvocation) (prov : DecisionProvenanceReceipt) (p : ContextPackage)
    (finalScope : EffectiveScope) (release : ActiveRuntimeRelease) : Bool :=
  prov.organizationId == inv.userActor.organizationId && prov.userId == inv.userActor.userId &&
  prov.membershipId == inv.userActor.membershipId && prov.membershipVersion == inv.userActor.membershipVersion &&
  prov.principalRef == inv.principalRef && prov.agentVersionRef == inv.agentVersionRef &&
  prov.authenticatedApplicationRef == inv.authenticatedApplicationRef &&
  prov.authenticationBindingRef == inv.authenticationBindingRef && prov.requestId == inv.requestId &&
  prov.purpose == inv.trustedScopeSnapshot.purpose && prov.asOf == p.asOf && prov.packageId == p.packageId &&
  prov.decisionRef == p.decisionRef && prov.policyEpoch == inv.policyEpoch &&
  prov.effectiveScopeDigest == finalScope.digest && p.purpose == inv.trustedScopeSnapshot.purpose &&
  p.policyEpoch == prov.policyEpoch && p.policySnapshotRef == prov.policySnapshotRef && p.runRef == prov.runRef &&
  p.releaseManifestRef == release.manifestRef && p.tokenizerRef == release.tokenizerRef &&
  p.tokenizerProfileDigest == release.tokenizerProfileDigest && p.packageSchemaRef == release.packageSchemaRef &&
  p.retentionPolicyRef == PACKAGE_RETENTION_POLICY_REF && decide (inv.receivedAt.micros ≤ p.asOf.micros)

/-- One Evidence carries the decision's lineage. -/
def lineageMatches (prov : DecisionProvenanceReceipt) (l : EvidenceLineage) : Bool :=
  l.runRef.value == prov.runRef && l.principalRef.value == prov.principalRef && l.purpose.value == prov.purpose &&
  l.asOf == prov.asOf && l.decisionRef.value == prov.decisionRef && l.policySnapshotRef.value == prov.policySnapshotRef &&
  l.policyEpoch == prov.policyEpoch && l.sourceAclDecisionRef.value == prov.sourceAclDecisionRef

/-- The record of a run, before its own checks. -/
def runRecord (inv : AuthenticatedInvocation) (query : String) (prov : DecisionProvenanceReceipt) (p : ContextPackage)
    (budget : PackageBudget) (release : ActiveRuntimeRelease) : ContextRunRecord where
  organizationId := inv.userActor.organizationId
  runRef := prov.runRef
  decisionRef := prov.decisionRef
  userId := inv.userActor.userId
  membershipId := inv.userActor.membershipId
  membershipVersion := inv.userActor.membershipVersion
  principalRef := inv.principalRef
  agentVersionRef := inv.agentVersionRef
  authenticatedApplicationRef := inv.authenticatedApplicationRef
  authenticationBindingRef := inv.authenticationBindingRef
  requestId := inv.requestId
  purpose := p.purpose
  policySnapshotRef := prov.policySnapshotRef
  policyEpoch := prov.policyEpoch
  effectiveScopeDigest := prov.effectiveScopeDigest
  queryDigest := libs.queryDigest inv.userActor.organizationId query
  outcome := if p.coverage.status = .sufficient then .deliveredAuthorized else .deliveredEmpty
  packageRef := p.packageId
  packageDigest := p.packageDigest
  releaseRef := release.manifestRef
  releaseGeneration := release.activeGeneration
  authorizedEvidenceRefs := p.evidence.map (·.evidenceRef)
  authorizedCitationLineage := p.evidence.map fun e =>
    ⟨e.evidenceRef, e.fragmentRef.value, e.resourceRef.value, e.revisionRef.value, e.sourceRef.value⟩
  effectiveMaximum := budget
  usage := p.budgetUsage
  acceptedAt := inv.receivedAt
  finalizedAt := p.asOf
  packageAsOf := p.asOf
  packageExpiresAt := p.expiresAt

/-- `build_context_run_records`; `query` is the need's, or `citation.open`. -/
def buildContextRunRecords (inv : AuthenticatedInvocation) (narrowing : Option RequestNarrowing) (query : String)
    (prov : DecisionProvenanceReceipt) (p : ContextPackage) (finalScope : EffectiveScope) (budget : PackageBudget)
    (release : ActiveRuntimeRelease) : Except Raised (ContextRunRecord × Option DecisionAuditRecord) := do
  ensure inv.userActor.activeRuntimeRelease.isSome "ContextRun requires an active Runtime release"
  ensure (inv.userActor.activeRuntimeRelease == some release) "ContextRun requires the invocation's exact Runtime release"
  ensure (p.packageDigest == libs.packageDigest p) "ContextRun Package digest must match its public document"
  let authorized ← authorizedScope libs inv narrowing
  let empty := EffectiveScope.of libs.stdlib ∅
  ensure (decide (finalScope.targets = authorized.targets ∧ finalScope.digest = authorized.digest ∨
    finalScope.targets = empty.targets ∧ finalScope.digest = empty.digest))
    "ContextRun final EffectiveScope must preserve or veto scope"
  ensure (decide (finalScope.targets ≠ ∅ ∨ p.evidence = [])) "ContextRun empty final EffectiveScope cannot carry Evidence"
  ensure (provenanceMatches inv prov p finalScope release) "ContextRun Package and provenance must match invocation"
  ensure (p.evidence.all fun e => lineageMatches prov e.lineage) "ContextRun Evidence lineage must match provenance"
  let run := runRecord libs inv query prov p budget release
  run.postInit
  return (run, if run.outcome = .deliveredEmpty then
    some ⟨run.organizationId, run.runRef, run.decisionRef, run.policySnapshotRef, run.policyEpoch, .noAuthorizedEvidence,
      run.finalizedAt⟩ else none)

/-- The audit of an empty run, and of no other, accompanies it. -/
def auditMatches (run : ContextRunRecord) (audit : Option DecisionAuditRecord) : Bool :=
  match audit with
  | some a => a.organizationId == run.organizationId && a.runRef == run.runRef && a.decisionRef == run.decisionRef &&
      a.policySnapshotRef == run.policySnapshotRef && a.policyEpoch == run.policyEpoch && run.outcome == .deliveredEmpty
  | none => run.outcome != .deliveredEmpty

end Records

end ContextEngine.Runtime
