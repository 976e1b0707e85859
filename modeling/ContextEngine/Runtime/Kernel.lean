/-
  ContextEngine.Runtime.Kernel — the AuthorizationKernel's exact authorization and one-hop
  expansion (`engine/runtime/construction.py`).

  The Kernel admits a candidate in two ways. Exact authorization asks the port for the
  candidate's locator, compares it with the candidate, looks its Resource up in the
  prepared scope and projects its fields. Expansion of an authorized anchor inherits the
  anchor's decision for a Fragment of the same Article and Revision, without a scope
  check, and sends every other candidate through exact authorization. The HMAC seal
  between the Kernel and the selector covers values the model hands over directly and is
  left out.
  Properties: `ContextEngine.Runtime.KernelProofs`.
-/

import ContextEngine.Runtime.Budget
import ContextEngine.Runtime.Materialized

namespace ContextEngine.Runtime

open ContextEngine.Python Checks Budget

/-! ## Receipts and invocations -/

/-- Observed durable Policy Epoch of one Organization. -/
structure PolicyEpochVerification where
  organizationId : UUID
  policyEpoch : Int
  deriving DecidableEq

/-- The facts of the active manifest that a delivery carries. -/
structure ActiveRuntimeRelease where
  organizationId : UUID
  manifestRef : String
  activeGeneration : Int
  tokenizerRef : String
  tokenizerProfileDocument : String
  tokenizerProfileDigest : String
  packageSchemaRef : String
  deriving DecidableEq

structure UserActor where
  /-- The Membership proof and its authority are live. -/
  active : Bool
  organizationId : UUID
  userId : UUID
  membershipId : UUID
  membershipVersion : Int
  principalRef : String
  requestId : String
  authenticationBindingRef : String
  checkedAt : Instant
  policyEpochVerification : PolicyEpochVerification
  activeRuntimeRelease : Option ActiveRuntimeRelease
  deriving DecidableEq

/-- The actor's epoch is the one its verification observed. -/
def UserActor.policyEpoch (a : UserActor) : Int := a.policyEpochVerification.policyEpoch

/-- Request-bound proof carrying the seven trusted operands. -/
structure TrustedScopeSnapshot where
  active : Bool
  organizationId : UUID
  userId : UUID
  membershipId : UUID
  membershipVersion : Int
  policyEpoch : Int
  principalRef : String
  agentVersionRef : String
  purpose : String
  requestId : String
  authenticationBindingRef : String
  checkedAt : Instant
  operands : TrustedScopeOperands

structure ExistingOrganizationVerification where
  organizationId : UUID
  requestId : String
  authenticationBindingRef : String
  verifiedAt : Instant
  deriving DecidableEq

/-- Trusted identity facts. The three refs are canonical UUID strings. -/
structure AuthenticatedInvocation where
  requestId : String
  organizationRef : UUID
  userRef : UUID
  principalRef : String
  membershipRef : UUID
  membershipVersion : Int
  policyEpoch : Int
  agentVersionRef : String
  authenticatedApplicationRef : String
  authenticationBindingRef : String
  receivedAt : Instant
  organizationVerification : ExistingOrganizationVerification
  userActor : UserActor
  trustedScopeSnapshot : TrustedScopeSnapshot

/-- Trusted-input policy result before candidate discovery. -/
structure PolicyReceipt where
  requestId : String
  purpose : String
  policyEpoch : Int
  effectiveScope : EffectiveScope

/-- Server-owned request and policy lineage for one decision. -/
structure DecisionProvenanceReceipt where
  decisionRef : String
  packageId : String
  organizationId : UUID
  userId : UUID
  membershipId : UUID
  membershipVersion : Int
  principalRef : String
  agentVersionRef : String
  authenticatedApplicationRef : String
  authenticationBindingRef : String
  effectiveScopeDigest : String
  requestId : String
  purpose : String
  asOf : Instant
  runRef : String
  policySnapshotRef : String
  policyEpoch : Int
  sourceAclDecisionRef : String
  deriving DecidableEq

/-- Rank-blind policy and provenance state prepared before discovery. -/
structure PreparedAcquireAuthorization where
  effectiveBudget : PackageBudget
  policyReceipt : PolicyReceipt
  provenanceReceipt : DecisionProvenanceReceipt

/-- Pre-delivery result awaiting the final Policy Epoch and audit gates. -/
structure AuthorizationDecision where
  effectiveBudget : PackageBudget
  policyReceipt : PolicyReceipt
  provenanceReceipt : DecisionProvenanceReceipt
  projections : List AuthorizedProjection
  projectionScope : Option KernelScope
  expandedCandidateRefs : Finset CandidateRef

/-! ## Exact authorization -/

/-- `_locator_matches_candidate`. -/
def locatorMatchesCandidate (l : MaterializedFragmentLocator) (c : CandidateRef) : Bool :=
  l.organizationId == c.organizationId && l.sourceRef == c.sourceRef.value && l.resourceRef == c.resourceRef.value &&
    l.revisionRef == c.revisionRef.value && l.fragmentRef == c.fragmentRef.value

theorem locatorMatchesCandidate_iff {l : MaterializedFragmentLocator} {c : CandidateRef} :
    locatorMatchesCandidate l c = true ↔ l.organizationId = c.organizationId ∧ l.sourceRef = c.sourceRef.value ∧
      l.resourceRef = c.resourceRef.value ∧ l.revisionRef = c.revisionRef.value ∧
      l.fragmentRef = c.fragmentRef.value := by
  simp [locatorMatchesCandidate, and_assoc]

/-- The scope atom of a candidate's Resource. -/
def scopeTarget (c : CandidateRef) : ScopeTarget := ⟨c.organizationId, c.sourceRef.value, some c.resourceRef.value⟩

section Operations

variable {m : Type → Type} [Monad m] [MonadLiftT (Except Raised) m] (lib : Stdlib)

/-- A `for` loop that appends what each item yields, if anything. -/
def collect {α β : Type} (f : α → m (Option β)) : List α → m (List β)
  | [] => return []
  | a :: as => do
    let r ← f a
    let rest ← collect f as
    return r.toList ++ rest

/-- The lineage of a located candidate under one decision. -/
def decisionLineage (principalRef : String) (prov : DecisionProvenanceReceipt) (l : MaterializedFragmentLocator) :
    Except Raised EvidenceLineage :=
  evidenceLineage prov.runRef principalRef prov.purpose prov.asOf prov.decisionRef prov.policySnapshotRef
    prov.policyEpoch prov.sourceAclDecisionRef l.sourceAclProjectionRef l.sourceAclAsOf l.sourceAclFreshnessProfileRef

/-- One round of `_authorize_and_project`'s loop. -/
def authorizeCandidate (inv : AuthenticatedInvocation) (policy : PolicyReceipt) (prov : DecisionProvenanceReceipt)
    (session : MaterializedProjectionSession m) (scope : KernelScope) (c : CandidateRef) :
    m (Option AuthorizedProjection) := do
  match ← locateMaterializedFragment session c with
  | none => return none
  | some l =>
    if !locatorMatchesCandidate l c then return none
    else if (⟨l.organizationId, l.sourceRef, some l.resourceRef⟩ : ScopeTarget) ∉ policy.effectiveScope.targets then
      return none
    else
      match ← projectMaterializedFragment session l with
      | none => return none
      | some fp => do
        let lineage ← (decisionLineage inv.principalRef prov l : Except Raised _)
        let p ← (constructAuthorizedProjection lib scope c fp.renderedBody fp.projectedFieldRefs lineage :
          Except Raised _)
        return some p

/-- `_authorize_and_project`. -/
def authorizeAndProject (inv : AuthenticatedInvocation) (policy : PolicyReceipt) (prov : DecisionProvenanceReceipt)
    (candidates : List CandidateRef) (session : Option (MaterializedProjectionSession m))
    (kernelScope : Option KernelScope) : m (List AuthorizedProjection × Option KernelScope) :=
  if candidates.isEmpty || decide (policy.effectiveScope.targets = ∅) then return ([], none)
  else
    match session with
    | none => do
      (Except.error (.runtimeConfigurationError "candidate discovery requires same-transaction projection session") :
        Except Raised Unit)
      return ([], none)
    | some session => do
      -- `_open_authorization_kernel_scope()` unless the caller owns one.
      let scope := kernelScope.getD ⟨true⟩
      let projections ← collect (authorizeCandidate lib inv policy prov session scope) (sortedSet candidates)
      return (projections, some scope)

/-- `AuthorizationKernel.authorize_acquire`. -/
def authorizeAcquire (inv : AuthenticatedInvocation) (prep : PreparedAcquireAuthorization)
    (candidateRefs : List CandidateRef) (session : Option (MaterializedProjectionSession m)) :
    m AuthorizationDecision := do
  requireEffectiveScopeIntegrity lib prep.policyReceipt.effectiveScope
  let (projections, scope) ←
    authorizeAndProject lib inv prep.policyReceipt prep.provenanceReceipt candidateRefs session none
  return ⟨prep.effectiveBudget, prep.policyReceipt, prep.provenanceReceipt, projections, scope, ∅⟩

/-! ## One-hop expansion -/

/-- What one graph candidate becomes; a skipped one becomes nothing. -/
inductive Hop where
  | inherited (p : AuthorizedProjection)
  | reauthorize (c : CandidateRef)

def Hop.inherited? : Hop → Option AuthorizedProjection
  | .inherited p => some p
  | .reauthorize _ => none

def Hop.reauthorize? : Hop → Option CandidateRef
  | .inherited _ => none
  | .reauthorize c => some c

/-- `anchors.get(ref)`; of several projections with one ref the last is in the dict. -/
def anchorOf (d : AuthorizationDecision) (ref : CandidateRef) : Option AuthorizedProjection :=
  d.projections.reverse.find? (·.candidateRef == ref)

def sameArticle (c a : CandidateRef) : Bool :=
  c.organizationId == a.organizationId && c.sourceRef == a.sourceRef && c.resourceRef == a.resourceRef

/-- One round of `authorize_one_hop`'s loop. -/
def expandCandidate (d : AuthorizationDecision) (session : MaterializedProjectionSession m)
    (item : MaterializedOneHopCandidate) : m (Option Hop) := do
  ensure (decide (item.anchorRef ∉ d.expandedCandidateRefs))
    "graph expansion cannot use an expanded candidate as an anchor"
  match anchorOf d item.anchorRef with
  | none => do
    (Except.error (.valueError "graph candidate is not rooted in this decision") : Except Raised Unit)
    return none
  | some anchor =>
    let c := item.candidateRef
    if !sameArticle c item.anchorRef then return some (.reauthorize c)
    else if c.revisionRef != item.anchorRef.revisionRef then return none
    else
      match ← locateMaterializedFragment session c with
      | none => return none
      | some l =>
        if !locatorMatchesCandidate l c then return none
        else
          match ← projectMaterializedFragment session l with
          | none => return none
          | some fp => do
            let p ← (constructInheritedAuthorizedProjection lib anchor c fp.renderedBody fp.projectedFieldRefs :
              Except Raised _)
            return some (.inherited p)

/-- `AuthorizationKernel.authorize_one_hop`. -/
def authorizeOneHop (inv : AuthenticatedInvocation) (prep : PreparedAcquireAuthorization) (d : AuthorizationDecision)
    (session : MaterializedProjectionSession m) (candidates : List MaterializedOneHopCandidate) :
    m AuthorizationDecision := do
  let hops ← collect (expandCandidate lib d session) candidates
  let inherited := hops.filterMap Hop.inherited?
  let (reauthorized, _) ← authorizeAndProject lib inv prep.policyReceipt prep.provenanceReceipt
    (hops.filterMap Hop.reauthorize?) (some session) d.projectionScope
  return { d with
    projections := d.projections ++ inherited ++ reauthorized
    expandedCandidateRefs :=
      d.expandedCandidateRefs ∪ ((inherited ++ reauthorized).map (·.candidateRef)).toFinset }

end Operations

end ContextEngine.Runtime
