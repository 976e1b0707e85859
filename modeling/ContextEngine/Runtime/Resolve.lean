/-
  ContextEngine.Runtime.Resolve — one whole `Runtime.resolve`
  (`engine/runtime/construction.py`, `policy_epoch.py`, `trusted_inputs.py`).

  A request passes the capability gate, is prepared under a first read of the Policy Epoch,
  discovered, authorized and packed, finalized under a second read, and then delivered: a
  Package is built, its run is recorded and persisted, and the outcome is returned. The
  world behind the ports has a state `ω` of its own, so that every port, and the epoch
  authority above all, may answer differently at each call. The reads of the epoch and the
  runs that were persisted are kept in a `Trace`. The HMAC seals between Kernel and
  selector cover values the model hands over directly and are left out.
  Properties: `ContextEngine.Runtime.ResolveProofs`.
-/

import ContextEngine.Python.Effects
import ContextEngine.Runtime.ContextRun
import ContextEngine.Runtime.Ranking

namespace ContextEngine.Runtime

open ContextEngine.Python Checks Budget

/-! ## Requests and outcomes -/

/-- The closed request union. -/
inductive RuntimeRequest where
  | acquire (query : String) (packageBudget : Option PackageBudgetRequest) (narrowing : Option RequestNarrowing)
  | continuation (packageBudget : Option PackageBudgetRequest)
  | openCitation (citationOpenRef : String)

namespace RuntimeRequest

def packageBudget : RuntimeRequest → Option PackageBudgetRequest
  | .acquire _ b _ => b
  | .continuation b => b
  | .openCitation _ => none

def narrowing : RuntimeRequest → Option RequestNarrowing
  | .acquire _ _ n => n
  | _ => none

/-- The text of the run's query digest. -/
def query : RuntimeRequest → String
  | .acquire q _ _ => q
  | _ => "citation.open"

def isAcquire : RuntimeRequest → Bool
  | .acquire _ _ _ => true
  | _ => false

end RuntimeRequest

inductive RuntimeCapability where
  | materializedAcquire
  | continuation
  | openCitation
  | federatedDiscovery
  | sourceNativeAuthorization
  deriving DecidableEq

/-- What `RuntimeCapabilityGate.require_available` accepts. -/
def RuntimeCapability.available (citationOpenActive : Bool) : RuntimeCapability → Bool
  | .materializedAcquire => true
  | .openCitation => citationOpenActive
  | _ => false

structure ScopeDecisionReceipt where
  digest : String
  targetCount : Nat
  isEmpty : Bool
  deriving DecidableEq

def EffectiveScope.receipt (s : EffectiveScope) : ScopeDecisionReceipt :=
  ⟨s.digest, s.targets.card, decide (s.targets = ∅)⟩

structure Resolved where
  package : ContextPackage
  effectiveBudget : PackageBudget
  scopeDecision : ScopeDecisionReceipt
  egressGrant : Option String

inductive ResolutionOutcome where
  | resolved (r : Resolved)
  | requestNotAvailable
  | citationNotAvailable

/-! ## The world -/

/-- Code that calls out. -/
abbrev Outside (ω : Type) := StateT ω (Except Raised)

/-- What one resolve leaves behind. -/
structure Trace where
  /-- The values the epoch authority answered with, in order. -/
  epochReads : List Int
  /-- The runs that were persisted, each with its restricted audit. -/
  persisted : List (ContextRunRecord × Option DecisionAuditRecord)

def Trace.start : Trace := ⟨[], []⟩

abbrev RunM (ω : Type) := StateT Trace (Outside ω)

/-- Exact current-epoch read capability for one Organization transaction. -/
structure PolicyEpochSession (ω : Type) where
  organizationId : UUID
  active : Bool
  /-- `none` is an answer that is no `int`. -/
  readCurrentEpoch : UUID → Outside ω (Option Int)

structure CitationOpenSession (ω : Type) where
  /-- `none` is `CitationLocatorNotAvailable`. -/
  redeem : String → UUID → Instant → Outside ω (Option CandidateRef)
  /-- The locator of one Evidence of one Package, issued and to expire at these instants. -/
  issue : Evidence → String → Instant → Instant → Outside ω String

/-- The same-transaction sessions that the actor carries. -/
structure Sessions (ω : Type) where
  policyEpoch : PolicyEpochSession ω
  projection : Option (MaterializedProjectionSession (Outside ω))
  citationOpen : Option (CitationOpenSession ω)
  persist : Option (ContextRunRecord → Option DecisionAuditRecord → Outside ω Unit)

/-- Facts of the delivery that trusted ingress established. -/
structure TrustedDeliveryContext where
  purpose : String
  authenticatedApplicationRef : String
  deliveryBindingRef : String
  establishedAt : Instant
  audienceDigest : Option String
  deriving DecidableEq

structure IssuedReferences where
  packageId : String
  decisionRef : String
  runRef : String
  policySnapshotRef : String
  sourceAclDecisionRef : String

/-- What the composed Runtime owns. -/
structure SealedRuntime (F : Type) [LinearOrder F] (fl : Floats F) (ω : Type) where
  libs : DeliveryLibraries
  unicode : UnicodeData
  acquireCapability : RuntimeCapability
  acquire_capability :
    acquireCapability ∈ [.materializedAcquire, .federatedDiscovery, .sourceNativeAuthorization]
  serverBudget : PackageBudget
  packageTtlSeconds : Nat
  ttl_pos : 0 < packageTtlSeconds
  limits : ResolveLimits
  rankerWeights : RankerWeights F fl
  clock : Outside ω Instant
  issueReferences : Outside ω IssuedReferences
  /-- Index discovery in a scope, if composed: the nomination, and the calls made on the
      shared meter on the way. -/
  discover : Option (String → EffectiveScope → ActiveRuntimeRelease → Outside ω (CandidateQuery F × List Call))
  citationProfile : Bool
  queryDigestKeyring : Bool
  /-- Issuing under a model or channel profile; `none` is the internal-only profile. -/
  issueEgressGrant : Option (ContextPackage → Outside ω String)

/-! ## Policy -/

/-- `_require_active_user_actor`. -/
def requireActiveUserActor (a : UserActor) : Except Raised Unit :=
  ensure a.active "UserActor does not match its current Membership proof"

/-- `_validate_trusted_invocation_and_delivery`. -/
def validateTrustedInvocationAndDelivery (inv : AuthenticatedInvocation) (ctx : TrustedDeliveryContext) :
    Except Raised Unit := do
  let v := inv.organizationVerification
  ensure (v.organizationId == inv.organizationRef && v.requestId == inv.requestId &&
    v.authenticationBindingRef == inv.authenticationBindingRef && v.verifiedAt == inv.receivedAt)
    "Runtime requires a matching existing-Organization verification"
  let actor := inv.userActor
  requireActiveUserActor actor
  ensure (actor.organizationId == inv.organizationRef && actor.userId == inv.userRef &&
    actor.membershipId == inv.membershipRef && actor.membershipVersion == inv.membershipVersion &&
    actor.principalRef == inv.principalRef && actor.requestId == inv.requestId &&
    actor.authenticationBindingRef == inv.authenticationBindingRef && actor.checkedAt == inv.receivedAt &&
    actor.policyEpoch == inv.policyEpoch) "Runtime requires a matching current UserActor"
  ensure (ctx.authenticatedApplicationRef == inv.authenticatedApplicationRef &&
    ctx.deliveryBindingRef == inv.authenticationBindingRef && ctx.establishedAt == inv.receivedAt)
    "Runtime requires a matching trusted delivery context"
  let s := inv.trustedScopeSnapshot
  requireActiveTrustedScopeSnapshot s
  ensure (s.organizationId == actor.organizationId && s.userId == actor.userId && s.membershipId == actor.membershipId &&
    s.membershipVersion == actor.membershipVersion && s.principalRef == inv.principalRef &&
    s.agentVersionRef == inv.agentVersionRef && s.purpose == ctx.purpose && s.requestId == inv.requestId &&
    s.authenticationBindingRef == inv.authenticationBindingRef && s.checkedAt == inv.receivedAt)
    "Runtime requires a matching trusted scope snapshot"

section Gates

variable (libs : DeliveryLibraries)

def policyReceipt (inv : AuthenticatedInvocation) (ctx : TrustedDeliveryContext) (scope : EffectiveScope) :
    PolicyReceipt := ⟨inv.requestId, ctx.purpose, inv.policyEpoch, scope⟩

/-- The snapshot's scope under one narrowing, or the empty one when the snapshot is of
    another epoch. -/
def validateScope (inv : AuthenticatedInvocation) (ctx : TrustedDeliveryContext)
    (narrowing : Option RequestNarrowing) : Except Raised PolicyReceipt := do
  validateTrustedInvocationAndDelivery inv ctx
  if inv.trustedScopeSnapshot.policyEpoch = inv.policyEpoch then
    let operands ← trustedOperandsFromSnapshot inv.trustedScopeSnapshot
    return policyReceipt inv ctx (computeEffectiveScope libs.stdlib operands narrowing)
  else return policyReceipt inv ctx (.of libs.stdlib ∅)

/-- `PolicyGate.validate_acquire`. -/
def validateAcquire (inv : AuthenticatedInvocation) (ctx : TrustedDeliveryContext)
    (narrowing : Option RequestNarrowing) : Except Raised PolicyReceipt := validateScope libs inv ctx narrowing

/-- `PolicyGate.validate_open_citation`: the locator contributes no authority. -/
def validateOpenCitation (inv : AuthenticatedInvocation) (ctx : TrustedDeliveryContext) :
    Except Raised PolicyReceipt := validateScope libs inv ctx none

/-- `PolicyGate.validate_unavailable`. -/
def validateUnavailable (inv : AuthenticatedInvocation) (ctx : TrustedDeliveryContext) :
    Except Raised PolicyReceipt := do
  validateTrustedInvocationAndDelivery inv ctx
  return policyReceipt inv ctx (.of libs.stdlib ∅)

end Gates

/-! ## The Policy Epoch -/

section Epoch

variable {ω : Type}

def epochUnavailable : Raised := .policyEpochAuthorityUnavailable "current Organization Policy Epoch is unavailable"

def validationUnavailable : Raised := .policyEpochAuthorityUnavailable "Policy Epoch validation authority is unavailable"

/-- How the gate and the read under it re-raise what the port raises. -/
def epochFailure : Raised → Raised
  | .policyEpochAuthorityUnavailable _ => epochUnavailable
  | .other name => if name = "PolicyEpochPortFailure" then epochUnavailable else .other name
  | .typeError _ => validationUnavailable
  | .valueError _ => validationUnavailable
  | e => e

/-- `_require_policy_epoch`. -/
def requirePolicyEpoch (value : Option Int) : Except Raised Int :=
  match value with
  | some n => if 1 ≤ n ∧ n ≤ MAX_POLICY_EPOCH then .ok n else .error epochUnavailable
  | none => .error epochUnavailable

/-- `_require_active_policy_epoch_verification`, under the gate. -/
def requireActivePolicyEpochVerification (s : PolicyEpochSession ω) (v : PolicyEpochVerification) :
    Except Raised Unit := do
  let _ ← requirePolicyEpoch (some v.policyEpoch)
  if s.active && v.organizationId == s.organizationId then return () else .error validationUnavailable

/-- `PolicyEpochGate.is_current`: read the durable epoch again. -/
def isCurrent (s : PolicyEpochSession ω) (v : PolicyEpochVerification) : RunM ω Bool := do
  requireActivePolicyEpochVerification s v
  let observed ← reraise epochFailure (s.readCurrentEpoch v.organizationId)
  let observed ← requirePolicyEpoch observed
  modify fun t => { t with epochReads := t.epochReads ++ [observed] }
  return observed == v.policyEpoch

/-- The receipt without its scope unless the epoch is current. -/
def vetoStale (libs : DeliveryLibraries) (s : PolicyEpochSession ω) (inv : AuthenticatedInvocation)
    (policy : PolicyReceipt) : RunM ω PolicyReceipt := do
  if ← isCurrent s inv.userActor.policyEpochVerification then return policy
  return { policy with effectiveScope := .of libs.stdlib ∅ }

end Epoch

/-! ## Preparation and authorization -/

section Kernel

variable {F : Type} [LinearOrder F] {fl : Floats F} {ω : Type} (rt : SealedRuntime F fl ω) (ss : Sessions ω)
  (inv : AuthenticatedInvocation) (ctx : TrustedDeliveryContext)

/-- `organization_id.hex`. -/
def UUID.hex (u : UUID) : List Char := u.bytes.flatMap hexByte

/-- `ProvenanceGate.issue`. -/
def issueProvenance (policy : PolicyReceipt) (asOf : Instant) : Outside ω DecisionProvenanceReceipt := do
  let refs ← rt.issueReferences
  requireClosedOpaqueRef "package reference" refs.packageId PACKAGE_REF_PREFIX
  requireClosedOpaqueRef "decision reference" refs.decisionRef DECISION_REF_PREFIX
  let organization := inv.organizationVerification.organizationId
  ensure (!refs.packageId.toList.tails.any (organization.hex.isPrefixOf ·) &&
    !refs.decisionRef.toList.tails.any (organization.hex.isPrefixOf ·))
    "server references must not embed trusted Organization"
  return {
    decisionRef := refs.decisionRef
    packageId := refs.packageId
    organizationId := organization
    userId := inv.userActor.userId
    membershipId := inv.userActor.membershipId
    membershipVersion := inv.userActor.membershipVersion
    principalRef := inv.principalRef
    agentVersionRef := inv.agentVersionRef
    authenticatedApplicationRef := inv.authenticatedApplicationRef
    authenticationBindingRef := inv.authenticationBindingRef
    effectiveScopeDigest := policy.effectiveScope.digest
    requestId := policy.requestId
    purpose := policy.purpose
    asOf := asOf
    runRef := refs.runRef
    policySnapshotRef := refs.policySnapshotRef
    policyEpoch := policy.policyEpoch
    sourceAclDecisionRef := refs.sourceAclDecisionRef }

/-- `AuthorizationKernel.prepare_acquire`. -/
def prepareAcquire (packageBudget : Option PackageBudgetRequest) (narrowing : Option RequestNarrowing)
    (asOf : Instant) : RunM ω PreparedAcquireAuthorization := do
  let policy ← validateAcquire rt.libs inv ctx narrowing
  let policy ← vetoStale rt.libs ss.policyEpoch inv policy
  let provenance ← issueProvenance rt inv policy asOf
  return ⟨effectivePackageBudget rt.serverBudget packageBudget, policy, provenance⟩

/-- `AuthorizationKernel.authorize_open_citation`. -/
def authorizeOpenCitation (candidate : Option CandidateRef) (asOf : Instant) : RunM ω AuthorizationDecision := do
  let policy ← validateOpenCitation rt.libs inv ctx
  let policy ← vetoStale rt.libs ss.policyEpoch inv policy
  let provenance ← issueProvenance rt inv policy asOf
  let (projections, scope) ←
    (authorizeAndProject rt.libs.stdlib inv policy provenance candidate.toList ss.projection none : Outside ω _)
  return ⟨effectivePackageBudget rt.serverBudget none, policy, provenance, projections, scope, ∅⟩

/-- `AuthorizationKernel.preflight_unavailable_request`. -/
def preflightUnavailableRequest (asOf : Instant) : RunM ω Unit := do
  let policy ← validateUnavailable rt.libs inv ctx
  let provenance ← issueProvenance rt inv policy asOf
  let stale : Raised :=
    .policyEpochAuthorityUnavailable "unavailable capability preflight requires a current Policy Epoch"
  if inv.trustedScopeSnapshot.policyEpoch ≠ inv.policyEpoch then (Except.error stale : Except Raised Unit)
  else if !(← isCurrent ss.policyEpoch inv.userActor.policyEpochVerification) then (Except.error stale : Except Raised Unit)
  requireClosedOpaqueRef "decision reference" provenance.decisionRef DECISION_REF_PREFIX

/-! ## Finalization -/

/-- The decision is the one made for this invocation. -/
def decisionBindingMatches (policy : PolicyReceipt) (prov : DecisionProvenanceReceipt) : Bool :=
  prov.organizationId == inv.userActor.organizationId && prov.userId == inv.userActor.userId &&
  prov.membershipId == inv.userActor.membershipId && prov.membershipVersion == inv.userActor.membershipVersion &&
  prov.principalRef == inv.principalRef && prov.agentVersionRef == inv.agentVersionRef &&
  prov.authenticatedApplicationRef == inv.authenticatedApplicationRef &&
  prov.authenticationBindingRef == inv.authenticationBindingRef && policy.policyEpoch == prov.policyEpoch &&
  prov.policyEpoch == inv.policyEpoch && inv.policyEpoch == inv.userActor.policyEpoch &&
  policy.requestId == prov.requestId && prov.requestId == inv.requestId && policy.purpose == prov.purpose &&
  prov.effectiveScopeDigest == policy.effectiveScope.digest

/-- Final policy, provenance and content after the delivery veto. -/
structure FinalizedAuthorizationResult where
  policyReceipt : PolicyReceipt
  provenanceReceipt : DecisionProvenanceReceipt
  content : PackageContent

/-- `DecisionAuditGate.record`'s reason. -/
def FinalizedAuthorizationResult.reason (f : FinalizedAuthorizationResult) : Option CoverageReason :=
  if f.content.evidence = [] then some .noAuthorizedEvidence else none

/-- `AuthorizationKernel.finalize_for_delivery`. -/
def finalizeForDelivery (d : AuthorizationDecision) (content : PackageContent) :
    RunM ω FinalizedAuthorizationResult := do
  let tokens ← blockTokens content.blocks
  ensure (decide (tokens ≤ d.effectiveBudget.maxTokens)) "sealed selection exceeds PackageBudget"
  requireActiveUserActor inv.userActor
  let policy := d.policyReceipt
  requireEffectiveScopeIntegrity rt.libs.stdlib policy.effectiveScope
  let prov := d.provenanceReceipt
  if content.evidence.all (fun e => lineageMatches prov e.lineage) && decisionBindingMatches inv policy prov then
    if ← isCurrent ss.policyEpoch inv.userActor.policyEpochVerification then return ⟨policy, prov, content⟩
    -- Only a stale epoch rewrites the provenance to the scope that is left.
    let policy := { policy with effectiveScope := .of rt.libs.stdlib ∅ }
    return ⟨policy, { prov with effectiveScopeDigest := policy.effectiveScope.digest }, ⟨[], []⟩⟩
  else return ⟨{ policy with effectiveScope := .of rt.libs.stdlib ∅ }, prov, ⟨[], []⟩⟩

/-! ## Acquire and OpenCitation up to the selection -/

/-- `_resolve_budget_meter`; the meter is the object `0`. -/
def resolveBudgetMeter (budget : PackageBudget) (release : ActiveRuntimeRelease) : Except Raised Heap := do
  let tokenizer ← if release.packageSchemaRef = PACKAGE_SCHEMA_REF_V1 then
      match rt.libs.tokenizerProfile release.tokenizerProfileDocument release.tokenizerProfileDigest with
      | some ref => .ok (some ⟨ref, release.tokenizerProfileDigest, release.activeGeneration.toNat⟩)
      | none => .error (.tokenizerUnavailable "Tokenizer profile is unavailable")
    else .ok none
  let meter ← construct budget .empty tokenizer
  return ⟨fun _ => meter, []⟩

def MAX_SUBMITTED_RANKED_LISTS : Nat := 8

/-- `require_bounded_candidate_submission`. -/
def requireBoundedCandidateSubmission (limits : ResolveLimits) (q : CandidateQuery F) : Except Raised Unit := do
  ensure (decide (q.rankedLists.length ≤ MAX_SUBMITTED_RANKED_LISTS))
    "candidate submission exceeded the server ranker bound"
  ensure (decide ((q.rankedLists.map (·.candidates.length)).sum ≤ limits.candidateSubmissionLimit))
    "candidate submission exceeded the server candidate bound"

/-- The candidates the index nominated in the prepared scope, their fused ranks, and the
    meter afterwards. -/
def discoverCandidates (query : String) (prep : PreparedAcquireAuthorization) (release : ActiveRuntimeRelease)
    (meter : Heap) : Outside ω (FusedCandidates F × Heap) := do
  match rt.discover with
  | none => return (⟨[], []⟩, meter)
  | some discover =>
    if prep.policyReceipt.effectiveScope.targets = ∅ then return (⟨[], []⟩, meter)
    if ss.projection.isNone then
      (Except.error (.runtimeConfigurationError "candidate discovery requires same-transaction projection session") :
        Except Raised Unit)
    let (q, calls) ← discover query prep.policyReceipt.effectiveScope release
    requireBoundedCandidateSubmission rt.limits q
    let fused ← fuseCandidateEvidence fl q
    return (fused, final meter calls)

/-- The decision on a request, the rank evidence of its candidates, and the meter. -/
structure Authorized (F : Type) where
  decision : AuthorizationDecision
  rankEvidence : List (CandidateRankEvidence F)
  meter : Heap

/-- The Acquire branch of `Runtime.resolve`. -/
def acquire (query : String) (packageBudget : Option PackageBudgetRequest) (narrowing : Option RequestNarrowing)
    (release : ActiveRuntimeRelease) (asOf : Instant) : RunM ω (Authorized F) := do
  let prep ← prepareAcquire rt ss inv ctx packageBudget narrowing asOf
  let meter ← resolveBudgetMeter rt prep.effectiveBudget release
  let (fused, meter) ← discoverCandidates rt ss query prep release meter
  let candidateRefs := fused.candidateRefs.insertionSort (· ≤ ·)
  let d ← (authorizeAcquire rt.libs.stdlib inv prep candidateRefs ss.projection : Outside ω _)
  match ss.projection with
  | none => return ⟨d, fused.rankEvidence, meter⟩
  | some session =>
    let (d, graphEvidence) ← (expandOneHop fl rt.libs.stdlib rt.unicode ⟨inv, prep, session, query, rt.limits⟩
      candidateRefs d : Outside ω _)
    return ⟨d, fused.rankEvidence ++ graphEvidence, meter⟩

def citationUnavailable : Raised := .citationAuthorityUnavailable "citation authority unavailable"

/-- `redeem_citation_open_ref`, where an unavailable locator names no target. -/
def redeemCitationOpenRef (session : CitationOpenSession ω) (ref : String) (asOf : Instant) :
    Outside ω (Option CandidateRef) := do
  if !isClosedRef "cor" 64 ref then return none
  let target ← reraise (fun _ => citationUnavailable) (session.redeem ref inv.userActor.organizationId asOf)
  return target.filter (·.organizationId == inv.userActor.organizationId)

/-- The OpenCitation branch of `Runtime.resolve`. -/
def openCitation (ref : String) (release : ActiveRuntimeRelease) (asOf : Instant) : RunM ω (Authorized F) := do
  match ss.citationOpen with
  | none => (Except.error citationUnavailable : Except Raised _)
  | some session =>
    let target ← redeemCitationOpenRef inv session ref asOf
    let d ← authorizeOpenCitation rt ss inv ctx target asOf
    let meter ← resolveBudgetMeter rt d.effectiveBudget release
    return ⟨d, [], meter⟩

/-! ## Delivery -/

/-- The locators of a Package's Evidence, issued and attached. -/
def attachCitationOpenRefs (prov : DecisionProvenanceReceipt) (content : PackageContent) :
    Outside ω PackageContent := do
  if !rt.citationProfile || content.evidence.isEmpty then return content
  match ss.citationOpen with
  | none => (Except.error citationUnavailable : Except Raised _)
  | some session =>
    let evidence ← collect (fun e => do
      let ref ← session.issue e prov.packageId prov.asOf ⟨prov.asOf.micros + rt.packageTtlSeconds * 1000000⟩
      let e ← (Evidence.make rt.libs.stdlib e.evidenceRef e.sourceRef e.resourceRef e.revisionRef e.fragmentRef
        e.projectedFieldRefs e.lineage (some ref) : Except Raised _)
      return some e) content.evidence
    validatePackageContent rt.libs.stdlib content.blocks evidence
    return ⟨content.blocks, evidence⟩

/-- Charge the tokens of the assembled blocks to the resolve's meter. -/
def chargeAssembly (meter : Heap) (content : PackageContent) : Except Raised Heap := do
  let counts ← content.blocks.mapM fun b => (meter.meters 0).countText b.body
  let usage : BudgetUsage := ⟨counts.sum, 0, 0, 0⟩
  if counts.sum = 0 then return meter
  match reserve meter 0 (some usage) with
  | (.error .packageBudgetExceeded, _) =>
    .error (.candidateIndexUnavailable "Package assembly exceeds the effective budget")
  | (.error e, _) => .error e
  | (.ok r, meter) =>
    match commit meter 0 (some r) (some usage) with
    | (.error e, _) => .error e
    | (.ok (), meter) => return meter

def audienceDigestOf : String :=
  ctx.audienceDigest.getD (rt.libs.audienceDigest inv.userActor.organizationId inv.userActor.membershipId
    inv.userActor.membershipVersion ctx.authenticatedApplicationRef ctx.deliveryBindingRef)

/-- The usage that a Package states: the meter's, or its octets before v1. -/
def packageUsage (meter : Heap) (content : PackageContent) (release : ActiveRuntimeRelease) : Except Raised BudgetUsage :=
  if release.packageSchemaRef = PACKAGE_SCHEMA_REF_V1 then .ok (meter.meters 0).usage
  else do
    let tokens ← blockTokens content.blocks
    return ⟨tokens, 0, 0, 0⟩

/-- The Package of a finalized result, before its own checks. -/
def packageOf (f : FinalizedAuthorizationResult) (content : PackageContent) (coverage : Coverage)
    (usage : BudgetUsage) (release : ActiveRuntimeRelease) : ContextPackage where
  packageId := f.provenanceReceipt.packageId
  purpose := f.policyReceipt.purpose
  audienceDigest := audienceDigestOf rt inv ctx
  policyEpoch := f.provenanceReceipt.policyEpoch
  policySnapshotRef := f.provenanceReceipt.policySnapshotRef
  runRef := f.provenanceReceipt.runRef
  releaseManifestRef := release.manifestRef
  retentionPolicyRef := PACKAGE_RETENTION_POLICY_REF
  tokenizerRef := release.tokenizerRef
  packageSchemaRef := release.packageSchemaRef
  ttlSeconds := rt.packageTtlSeconds
  asOf := f.provenanceReceipt.asOf
  expiresAt := ⟨f.provenanceReceipt.asOf.micros + rt.packageTtlSeconds * 1000000⟩
  decisionRef := f.provenanceReceipt.decisionRef
  packageDigest := ""
  blocks := content.blocks
  evidence := content.evidence
  budgetUsage := usage
  coverage := coverage
  tokenizerProfileDigest := release.tokenizerProfileDigest

/-- `EgressGate.finalize`. -/
def finalizeEgress (prov : DecisionProvenanceReceipt) (p : ContextPackage) (asOf : Instant) :
    Outside ω (Option String) := do
  requireActiveUserActor inv.userActor
  if !(p.packageDigest == rt.libs.packageDigest p && prov.organizationId == inv.userActor.organizationId &&
      prov.packageId == p.packageId && prov.decisionRef == p.decisionRef && prov.purpose == p.purpose &&
      prov.purpose == ctx.purpose && prov.policyEpoch == inv.policyEpoch &&
      inv.policyEpoch == inv.userActor.policyEpoch && prov.asOf == p.asOf &&
      p.audienceDigest == audienceDigestOf rt inv ctx && p.policyEpoch == prov.policyEpoch &&
      p.policySnapshotRef == prov.policySnapshotRef && p.runRef == prov.runRef && asOf == p.asOf &&
      decide (asOf.micros < p.expiresAt.micros)) then
    (Except.error (.egressGrantIssuanceUnavailable "final egress policy could not bind the current Package") :
      Except Raised Unit)
  match rt.issueEgressGrant with
  | none => return none
  | some issue => return some (← issue p)

/-- How `persist_context_run` re-raises what its port raises. -/
def persistenceFailure : Raised → Raised
  | .contextRunPersistenceUnavailable m => .contextRunPersistenceUnavailable m
  | _ => .contextRunPersistenceUnavailable "ContextRun persistence authority failed"

/-- `persist_context_run`. -/
def persistContextRun (port : ContextRunRecord → Option DecisionAuditRecord → Outside ω Unit) (run : ContextRunRecord)
    (audit : Option DecisionAuditRecord) : RunM ω Unit := do
  ensure (auditMatches run audit) "empty ContextRun requires its restricted DecisionAudit"
  reraise persistenceFailure (port run audit)
  modify fun t => { t with persisted := t.persisted ++ [(run, audit)] }

/-- The Package of a finalized result, and its egress grant if it needs one. -/
def assemble (req : RuntimeRequest) (release : ActiveRuntimeRelease) (asOf : Instant) (meter : Heap)
    (f : FinalizedAuthorizationResult) : Outside ω (ContextPackage × Option String) := do
  let content ← attachCitationOpenRefs rt ss f.provenanceReceipt f.content
  let meter ← chargeAssembly meter content
  let usage ← packageUsage meter content release
  let cover ← coverage (if content.evidence = [] then .empty else .sufficient) f.reason
  let p ← contextPackage rt.libs (packageOf rt inv ctx f content cover usage release)
  if req.isAcquire || !p.evidence.isEmpty then
    let grant ← finalizeEgress rt inv ctx f.provenanceReceipt p asOf
    return (p, grant)
  else return (p, none)

/-- Record the run of a Package, and persist it. -/
def record (req : RuntimeRequest) (release : ActiveRuntimeRelease) (budget : PackageBudget)
    (f : FinalizedAuthorizationResult) (p : ContextPackage) : RunM ω Unit := do
  match ss.persist with
  | none => (Except.error (.contextRunPersistenceUnavailable
      "Runtime delivery requires durable ContextRun persistence") : Except Raised Unit)
  | some port =>
    if !rt.queryDigestKeyring then
      (Except.error (.contextRunPersistenceUnavailable
        "ContextRun persistence requires an explicit query digest keyring") : Except Raised Unit)
    else
      let records ← buildContextRunRecords rt.libs inv req.narrowing req.query f.provenanceReceipt p
        f.policyReceipt.effectiveScope budget release
      persistContextRun port records.1 records.2

/-- From the finalized result to the outcome. -/
def deliver (req : RuntimeRequest) (release : ActiveRuntimeRelease) (asOf : Instant) (budget : PackageBudget)
    (meter : Heap) (f : FinalizedAuthorizationResult) : RunM ω ResolutionOutcome := do
  let (p, grant) ← assemble rt ss inv ctx req release asOf meter f
  record rt ss inv req release budget f p
  if !req.isAcquire && p.evidence.isEmpty then return .citationNotAvailable
  return .resolved ⟨p, budget, f.policyReceipt.effectiveScope.receipt, grant⟩

/-! ## `Runtime.resolve` -/

/-- `_required_capability_for_request`. -/
def requiredCapability : RuntimeRequest → RuntimeCapability
  | .acquire _ _ _ => rt.acquireCapability
  | .continuation _ => .continuation
  | .openCitation _ => .openCitation

/-- The active release of the actor's own Organization. -/
def activeRelease : Except Raised ActiveRuntimeRelease :=
  match inv.userActor.activeRuntimeRelease with
  | none => .error (.activeReleaseUnavailable "Runtime delivery requires one Learning-published active release")
  | some release =>
    if release.organizationId = inv.userActor.organizationId then .ok release
    else .error (.activeReleaseUnavailable "active Runtime release crossed Organization")

/-- Authorize one available request. -/
def authorize (req : RuntimeRequest) (release : ActiveRuntimeRelease) (asOf : Instant) : RunM ω (Authorized F) :=
  match req with
  | .acquire query packageBudget narrowing => acquire rt ss inv ctx query packageBudget narrowing release asOf
  | .openCitation ref => openCitation rt ss inv ctx ref release asOf
  | .continuation _ => do
    (Except.error (.runtimeConfigurationError "available future Runtime carrier has no sealed implementation") :
      Except Raised _)

def refusal : RuntimeRequest → ResolutionOutcome
  | .openCitation _ => .citationNotAvailable
  | _ => .requestNotAvailable

/-- `Runtime.resolve`. -/
def resolve (req : RuntimeRequest) : RunM ω ResolutionOutcome := do
  if !(requiredCapability rt req).available rt.citationProfile then
    let asOf ← rt.clock
    preflightUnavailableRequest rt ss inv ctx asOf
    return refusal req
  let release ← activeRelease inv
  let asOf ← rt.clock
  let a ← authorize rt ss inv ctx req release asOf
  let content ← selectForDelivery fl rt.libs.stdlib a.decision a.rankEvidence (some rt.rankerWeights)
  let f ← finalizeForDelivery rt ss inv a.decision content
  deliver rt ss inv ctx req release asOf a.decision.effectiveBudget a.meter f

end Kernel

end ContextEngine.Runtime
