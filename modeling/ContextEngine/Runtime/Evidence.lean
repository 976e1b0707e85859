/-
  ContextEngine.Runtime.Evidence — exact-authorization and Evidence contracts
  (`engine/runtime/evidence.py`, `validate_projected_field_refs` of
  `context_engine_contracts`).

  A `CandidateRef` is an opaque locator; an `AuthorizedProjection` is content that the
  Kernel projected for one, bound to its lineage by an integrity digest. A body is any
  nonblank `str`; the digests write its lone surrogates too. The Package is built from
  projections in the order supplied. Values whose constructor checks a format
  carry the check in their type; `__init__` guards against another nominal type are Lean's
  types.
-/

import ContextEngine.Python.Str
import ContextEngine.Runtime.Checks

namespace ContextEngine.Runtime

open ContextEngine.Python Checks

/-! ## References -/

structure UUID where
  value : Fin (2 ^ 128)
  deriving DecidableEq

/-- `UUID(int=n)`, for the values the instances name. -/
def UUID.ofNat (n : Nat) : UUID := ⟨Fin.ofNat (2 ^ 128) n⟩

/-- `uuid.bytes`: the sixteen octets, most significant first. -/
def UUID.bytes (u : UUID) : List UInt8 := (List.range 16).reverse.map fun i => UInt8.ofNat (u.value / 256 ^ i)

/-- Content-free exact locator nominated by an untrusted candidate index. -/
structure CandidateRef where
  organizationId : UUID
  sourceRef : OpaqueRef
  resourceRef : OpaqueRef
  revisionRef : OpaqueRef
  fragmentRef : OpaqueRef
  deriving DecidableEq

/-- `_candidate_sort_key`. UUID octets order as the number they spell. -/
def candidateSortKey (c : CandidateRef) : Nat ×ₗ String ×ₗ String ×ₗ String ×ₗ String :=
  toLex (c.organizationId.value.val, toLex (c.sourceRef.value, toLex (c.resourceRef.value,
    toLex (c.revisionRef.value, c.fragmentRef.value))))

theorem candidateSortKey_injective : Function.Injective candidateSortKey := by
  rintro ⟨⟨o⟩, ⟨s, hs⟩, ⟨r, hr⟩, ⟨v, hv⟩, ⟨f, hf⟩⟩ ⟨⟨o'⟩, ⟨s', hs'⟩, ⟨r', hr'⟩, ⟨v', hv'⟩, ⟨f', hf'⟩⟩ h
  simp only [candidateSortKey, EmbeddingLike.apply_eq_iff_eq, Prod.mk.injEq] at h
  obtain ⟨ho, rfl, rfl, rfl, rfl⟩ := h
  simp only [Fin.ext ho]

/-- Candidates compare by their sort key, which tells any two apart. -/
instance : LinearOrder CandidateRef := LinearOrder.lift' candidateSortKey candidateSortKey_injective

/-- `sorted(set(candidates), key=_candidate_sort_key)`: a set has no order of its own, and
    the key leaves no ties. -/
def sortedSet (candidates : List CandidateRef) : List CandidateRef := candidates.dedup.insertionSort (· ≤ ·)

theorem mem_sortedSet {c : CandidateRef} {cs : List CandidateRef} : c ∈ sortedSet cs ↔ c ∈ cs := by
  rw [sortedSet, (List.perm_insertionSort _ _).mem_iff, List.mem_dedup]

/-! ## Lineage -/

def MAX_POLICY_EPOCH : Int := 2 ^ 63 - 1

/-- Complete request, principal, policy and decision binding for Evidence. -/
structure EvidenceLineage where
  runRef : OpaqueRef
  principalRef : OpaqueRef
  purpose : OpaqueRef
  asOf : Instant
  decisionRef : OpaqueRef
  policySnapshotRef : OpaqueRef
  policyEpoch : Int
  sourceAclDecisionRef : OpaqueRef
  sourceAclProjectionRef : OpaqueRef
  sourceAclAsOf : Instant
  sourceAclFreshnessProfileRef : OpaqueRef
  epoch_range : 1 ≤ policyEpoch ∧ policyEpoch ≤ MAX_POLICY_EPOCH
  deriving DecidableEq

/-- `EvidenceLineage(...)` on plain strings; the fields are checked in this order. -/
def evidenceLineage (runRef principalRef purpose : String) (asOf : Instant) (decisionRef policySnapshotRef : String)
    (policyEpoch : Int) (sourceAclDecisionRef sourceAclProjectionRef : String) (sourceAclAsOf : Instant)
    (sourceAclFreshnessProfileRef : String) : Except Raised EvidenceLineage := do
  let run ← requireOpaqueRef "Evidence lineage run_ref" runRef
  let principal ← requireOpaqueRef "Evidence lineage principal_ref" principalRef
  let purpose ← requireOpaqueRef "Evidence lineage purpose" purpose
  let decision ← requireOpaqueRef "Evidence lineage decision_ref" decisionRef
  let snapshot ← requireOpaqueRef "Evidence lineage policy_snapshot_ref" policySnapshotRef
  let aclDecision ← requireOpaqueRef "Evidence lineage source_acl_decision_ref" sourceAclDecisionRef
  let aclProjection ← requireOpaqueRef "Evidence lineage source_acl_projection_ref" sourceAclProjectionRef
  let freshness ← requireOpaqueRef "Evidence lineage source_acl_freshness_profile_ref" sourceAclFreshnessProfileRef
  if h : 1 ≤ policyEpoch ∧ policyEpoch ≤ MAX_POLICY_EPOCH then
    .ok ⟨run, principal, purpose, asOf, decision, snapshot, policyEpoch, aclDecision, aclProjection, sourceAclAsOf,
      freshness, h⟩
  else .error (.valueError "Evidence lineage policy_epoch must fit a positive signed 64-bit integer")

/-- A lineage that was built carries exactly what it was built from. -/
theorem evidenceLineage_ok {runRef principalRef purpose : String} {asOf : Instant}
    {decisionRef policySnapshotRef : String} {policyEpoch : Int} {sourceAclDecisionRef sourceAclProjectionRef : String}
    {sourceAclAsOf : Instant} {sourceAclFreshnessProfileRef : String} {l : EvidenceLineage}
    (h : evidenceLineage runRef principalRef purpose asOf decisionRef policySnapshotRef policyEpoch
      sourceAclDecisionRef sourceAclProjectionRef sourceAclAsOf sourceAclFreshnessProfileRef = .ok l) :
    l.runRef.value = runRef ∧ l.principalRef.value = principalRef ∧ l.purpose.value = purpose ∧ l.asOf = asOf ∧
      l.decisionRef.value = decisionRef ∧ l.policySnapshotRef.value = policySnapshotRef ∧
      l.policyEpoch = policyEpoch ∧ l.sourceAclDecisionRef.value = sourceAclDecisionRef ∧
      l.sourceAclProjectionRef.value = sourceAclProjectionRef ∧ l.sourceAclAsOf = sourceAclAsOf ∧
      l.sourceAclFreshnessProfileRef.value = sourceAclFreshnessProfileRef := by
  unfold evidenceLineage at h
  obtain ⟨run, hrun, h⟩ := bind_ok h
  obtain ⟨principal, hprincipal, h⟩ := bind_ok h
  obtain ⟨purp, hpurp, h⟩ := bind_ok h
  obtain ⟨decision, hdecision, h⟩ := bind_ok h
  obtain ⟨snapshot, hsnapshot, h⟩ := bind_ok h
  obtain ⟨aclDecision, haclDecision, h⟩ := bind_ok h
  obtain ⟨aclProjection, haclProjection, h⟩ := bind_ok h
  obtain ⟨freshness, hfreshness, h⟩ := bind_ok h
  split at h
  · cases h
    exact ⟨requireOpaqueRef_ok hrun, requireOpaqueRef_ok hprincipal, requireOpaqueRef_ok hpurp, rfl,
      requireOpaqueRef_ok hdecision, requireOpaqueRef_ok hsnapshot, rfl, requireOpaqueRef_ok haclDecision,
      requireOpaqueRef_ok haclProjection, rfl, requireOpaqueRef_ok hfreshness⟩
  · cases h

/-! ## Projections -/

def MAX_PROJECTED_FIELD_REFS : Nat := 64
def MAX_PROJECTED_FIELD_REF_LENGTH : Nat := 64

def lowercase (c : Char) : Bool := 'a' ≤ c && c ≤ 'z'

/-- A bounded lowercase identifier whose tail may also use the characters `extra`. -/
def isIdentifier (limit : Nat) (extra : List Char) (s : String) : Bool :=
  match s.toList with
  | [] => false
  | c :: cs =>
    (c :: cs).length ≤ limit && lowercase c && (c :: cs).all fun c => lowercase c || c.isDigit || extra.contains c

def isFieldRef (s : String) : Bool := isIdentifier MAX_PROJECTED_FIELD_REF_LENGTH ['_'] s

/-- `validate_projected_field_refs`. -/
def validateProjectedFieldRefs (refs : List String) : Except Raised (List String) := do
  ensure (!refs.isEmpty) "projected field refs must be a nonempty exact tuple"
  ensure (decide (refs.length ≤ MAX_PROJECTED_FIELD_REFS)) "projected field refs must contain at most 64 items"
  ensure (refs.all isFieldRef) "projected field refs must use closed lowercase identifiers"
  ensure (decide refs.Nodup) "projected field refs must be unique"
  return refs

/-- `_require_nonblank_body`; lone surrogates pass. -/
def requireNonblankBody (body : Str) : Except Raised Str := do
  ensure (!body.blank) "projected body must be a nonblank exact string"
  return body

theorem requireNonblankBody_ok {body b : Str} (h : requireNonblankBody body = .ok b) : b = body := by
  unfold requireNonblankBody at h
  obtain ⟨_, -, h⟩ := bind_ok h
  cases h; rfl

theorem validateProjectedFieldRefs_ok {refs r : List String} (h : validateProjectedFieldRefs refs = .ok r) : r = refs := by
  unfold validateProjectedFieldRefs at h
  obtain ⟨_, -, h⟩ := bind_ok h
  obtain ⟨_, -, h⟩ := bind_ok h
  obtain ⟨_, -, h⟩ := bind_ok h
  obtain ⟨_, -, h⟩ := bind_ok h
  cases h; rfl

/-- Lifetime token owned by one Kernel operation. -/
structure KernelScope where
  active : Bool
  deriving DecidableEq

structure AuthorizedProjection where
  candidateRef : CandidateRef
  projectedBody : Str
  projectedFieldRefs : List String
  lineage : EvidenceLineage
  kernelScope : KernelScope
  integrityDigest : String
  deriving DecidableEq

section Digests

variable (lib : Stdlib)

/-- `_encode_text`. -/
def encodeText (s : String) : List UInt8 := lengthPrefix (encode s)

/-- The lineage's eleven values, as every digest spells them. -/
def lineageTexts (l : EvidenceLineage) : List String :=
  [l.runRef.value, l.principalRef.value, l.purpose.value, lib.isoformat l.asOf, l.decisionRef.value,
    l.policySnapshotRef.value, toString l.policyEpoch, l.sourceAclDecisionRef.value, l.sourceAclProjectionRef.value,
    lib.isoformat l.sourceAclAsOf, l.sourceAclFreshnessProfileRef.value]

/-- The bytes that designate one projected candidate under one lineage. -/
def projectionMaterial (domain : String) (c : CandidateRef) (body : Str) (fieldRefs : List String)
    (l : EvidenceLineage) : List UInt8 :=
  encode domain ++ lengthPrefix c.organizationId.bytes ++
    [c.sourceRef.value, c.resourceRef.value, c.revisionRef.value, c.fragmentRef.value].flatMap encodeText ++
    Str.encodeText body ++ (lineageTexts lib l).flatMap encodeText ++ fieldRefs.flatMap encodeText

/-- `_projection_integrity_digest`. -/
def projectionIntegrityDigest (c : CandidateRef) (body : Str) (fieldRefs : List String) (l : EvidenceLineage) :
    String :=
  (lib.sha256 (projectionMaterial lib "context-engine:authorized-projection:v4" c body fieldRefs l)).hexdigest

/-- `_evidence_ref_for_projection`. -/
def evidenceRefForProjection (p : AuthorizedProjection) : String :=
  "ev_" ++ (lib.sha256 (projectionMaterial lib "context-engine:evidence-ref:v4" p.candidateRef p.projectedBody
    p.projectedFieldRefs p.lineage)).hexdigest

/-- `_construct_authorized_projection`. -/
def constructAuthorizedProjection (scope : KernelScope) (c : CandidateRef) (body : Str) (fieldRefs : List String)
    (lineage : EvidenceLineage) : Except Raised AuthorizedProjection := do
  ensure scope.active "projection requires an active AuthorizationKernel scope"
  let projectedBody ← requireNonblankBody body
  let refs ← validateProjectedFieldRefs fieldRefs
  return ⟨c, projectedBody, refs, lineage, scope, projectionIntegrityDigest lib c projectedBody refs lineage⟩

/-- `_require_active_authorized_projection`. -/
def requireActiveAuthorizedProjection (p : AuthorizedProjection) : Except Raised Unit := do
  ensure p.kernelScope.active "projection requires an active AuthorizationKernel scope"
  match requireNonblankBody p.projectedBody, validateProjectedFieldRefs p.projectedFieldRefs with
  | .ok body, .ok refs =>
    ensure (p.integrityDigest == projectionIntegrityDigest lib p.candidateRef body refs p.lineage)
      "AuthorizedProjection integrity check failed"
  | _, _ => .error (.valueError "AuthorizedProjection field integrity is invalid")

/-- `_construct_inherited_authorized_projection`. -/
def constructInheritedAuthorizedProjection (anchor : AuthorizedProjection) (c : CandidateRef) (body : Str)
    (fieldRefs : List String) : Except Raised AuthorizedProjection := do
  requireActiveAuthorizedProjection lib anchor
  let a := anchor.candidateRef
  ensure (c.organizationId == a.organizationId && c.sourceRef == a.sourceRef && c.resourceRef == a.resourceRef &&
    c.revisionRef == a.revisionRef) "inherited projection crossed Article/Revision lineage"
  constructAuthorizedProjection lib anchor.kernelScope c body fieldRefs anchor.lineage

/-- A constructed projection is its arguments, sealed; the scope was active. -/
theorem constructAuthorizedProjection_ok {scope : KernelScope} {c : CandidateRef} {body : Str}
    {fieldRefs : List String} {lineage : EvidenceLineage} {p : AuthorizedProjection}
    (h : constructAuthorizedProjection lib scope c body fieldRefs lineage = .ok p) :
    p = ⟨c, body, fieldRefs, lineage, scope, projectionIntegrityDigest lib c body fieldRefs lineage⟩ ∧
      scope.active = true ∧ requireNonblankBody body = .ok body ∧ validateProjectedFieldRefs fieldRefs = .ok fieldRefs := by
  unfold constructAuthorizedProjection at h
  obtain ⟨_, hscope, h1⟩ := bind_ok h
  obtain ⟨b, hb, h2⟩ := bind_ok h1
  obtain ⟨r, hr, h3⟩ := bind_ok h2
  obtain rfl := requireNonblankBody_ok hb
  obtain rfl := validateProjectedFieldRefs_ok hr
  cases h3
  exact ⟨rfl, ensure_ok hscope, hb, hr⟩

/-- A projection the Kernel built passes the check every consumer makes. -/
theorem requireActive_of_construct {scope : KernelScope} {c : CandidateRef} {body : Str} {fieldRefs : List String}
    {lineage : EvidenceLineage} {p : AuthorizedProjection}
    (h : constructAuthorizedProjection lib scope c body fieldRefs lineage = .ok p) :
    requireActiveAuthorizedProjection lib p = .ok () := by
  obtain ⟨rfl, hscope, hb, hr⟩ := constructAuthorizedProjection_ok lib h
  simp only [requireActiveAuthorizedProjection, hscope, hb, hr, ensure_true, beq_self_eq_true]
  rfl

theorem requireActive_fields {p : AuthorizedProjection} (h : requireActiveAuthorizedProjection lib p = .ok ()) :
    requireNonblankBody p.projectedBody = .ok p.projectedBody ∧
      validateProjectedFieldRefs p.projectedFieldRefs = .ok p.projectedFieldRefs := by
  unfold requireActiveAuthorizedProjection at h
  obtain ⟨_, -, h1⟩ := bind_ok h
  split at h1
  · next body refs hb hr =>
    obtain rfl := requireNonblankBody_ok hb
    obtain rfl := validateProjectedFieldRefs_ok hr
    exact ⟨hb, hr⟩
  · cases h1

/-- Inheritance keeps the anchor's lineage and needs its Article and Revision. -/
theorem constructInherited_ok {anchor p : AuthorizedProjection} {c : CandidateRef} {body : Str}
    {fieldRefs : List String} (h : constructInheritedAuthorizedProjection lib anchor c body fieldRefs = .ok p) :
    constructAuthorizedProjection lib anchor.kernelScope c body fieldRefs anchor.lineage = .ok p ∧
      c.organizationId = anchor.candidateRef.organizationId ∧ c.sourceRef = anchor.candidateRef.sourceRef ∧
      c.resourceRef = anchor.candidateRef.resourceRef ∧ c.revisionRef = anchor.candidateRef.revisionRef := by
  unfold constructInheritedAuthorizedProjection at h
  obtain ⟨-, -, h⟩ := bind_ok h
  obtain ⟨_, hsame, h⟩ := bind_ok h
  have hsame := ensure_ok hsame
  simp only [Bool.and_eq_true, beq_iff_eq] at hsame
  exact ⟨h, hsame.1.1.1, hsame.1.1.2, hsame.1.2, hsame.2⟩

end Digests

/-! ## Package content -/

/-- Request-scoped designation of one selected authorized Fragment. -/
structure Evidence where
  evidenceRef : String
  sourceRef : OpaqueRef
  resourceRef : OpaqueRef
  revisionRef : OpaqueRef
  fragmentRef : OpaqueRef
  projectedFieldRefs : List String
  lineage : EvidenceLineage
  citationOpenRef : Option String
  integrityDigest : String
  deriving DecidableEq

/-- One selected authorized body linked to exactly one Evidence value. -/
structure PackageBlock where
  evidenceRef : String
  body : Str
  integrityDigest : String
  deriving DecidableEq

structure PackageContent where
  blocks : List PackageBlock
  evidence : List Evidence
  deriving DecidableEq

/-- `UnicodeEncodeError`, which is a `ValueError`; its position is left out. -/
def surrogatesNotAllowed : Raised := .valueError "surrogates not allowed"

/-- `len(body.encode("utf-8"))`: the strict form, unlike the digests'. -/
def bodyTokens (body : Str) : Except Raised Nat :=
  match body.utf8Strict with
  | none => .error surrogatesNotAllowed
  | some octets => .ok octets.length

/-- `sum(len(block.body.encode("utf-8")) for block in blocks)`. -/
def blockTokens (blocks : List PackageBlock) : Except Raised Nat := do
  let counts ← blocks.mapM fun b => bodyTokens b.body
  return counts.sum

section Package

variable (lib : Stdlib)

/-- `_require_evidence_ref`. -/
def requireEvidenceRef (s : String) : Except Raised Unit := do
  ensure (s.toList.length == 67 && s.toList.take 3 == ['e', 'v', '_']) "evidence_ref must use the closed opaque format"
  ensure ((s.toList.drop 3).all (hexDigits.contains ·)) "evidence_ref must use lowercase opaque entropy"

/-- `_evidence_integrity_digest`. -/
def evidenceIntegrityDigest (e : Evidence) : String :=
  (lib.sha256 (encode "context-engine:evidence-integrity:v4" ++
    ([e.evidenceRef, e.sourceRef.value, e.resourceRef.value, e.revisionRef.value, e.fragmentRef.value] ++
      e.projectedFieldRefs ++ [e.citationOpenRef.getD ""] ++ lineageTexts lib e.lineage).flatMap encodeText)).hexdigest

/-- `_block_integrity_digest`. -/
def blockIntegrityDigest (b : PackageBlock) : String :=
  (lib.sha256 (encode "context-engine:package-block-integrity:v1" ++ encodeText b.evidenceRef ++
    Str.encodeText b.body)).hexdigest

/-- `Evidence(...)`. -/
def Evidence.make (evidenceRef : String) (sourceRef resourceRef revisionRef fragmentRef : OpaqueRef)
    (projectedFieldRefs : List String) (lineage : EvidenceLineage) (citationOpenRef : Option String) :
    Except Raised Evidence := do
  requireEvidenceRef evidenceRef
  let refs ← validateProjectedFieldRefs projectedFieldRefs
  let e : Evidence := ⟨evidenceRef, sourceRef, resourceRef, revisionRef, fragmentRef, refs, lineage, citationOpenRef, ""⟩
  return { e with integrityDigest := evidenceIntegrityDigest lib e }

/-- `PackageBlock(...)`. -/
def PackageBlock.make (evidenceRef : String) (body : Str) : Except Raised PackageBlock := do
  requireEvidenceRef evidenceRef
  let body ← requireNonblankBody body
  let b : PackageBlock := ⟨evidenceRef, body, ""⟩
  return { b with integrityDigest := blockIntegrityDigest lib b }

/-- `_package_lineage_binding`. -/
def packageLineageBinding (l : EvidenceLineage) :
    OpaqueRef × OpaqueRef × OpaqueRef × Instant × OpaqueRef × OpaqueRef × Int :=
  (l.runRef, l.principalRef, l.purpose, l.asOf, l.decisionRef, l.policySnapshotRef, l.policyEpoch)

/-- Every lineage shares the request decision of the first. -/
def sharedBinding (ls : List EvidenceLineage) : Bool :=
  match ls with
  | [] => true
  | l :: ls => ls.all fun l' => packageLineageBinding l' == packageLineageBinding l

/-- `validate_package_content`. -/
def validatePackageContent (blocks : List PackageBlock) (evidence : List Evidence) : Except Raised Unit := do
  blocks.forM fun b => do
    requireEvidenceRef b.evidenceRef
    let _ ← requireNonblankBody b.body
    ensure (b.integrityDigest == blockIntegrityDigest lib b) "PackageBlock integrity check failed"
  evidence.forM fun e =>
    ensure (e.integrityDigest == evidenceIntegrityDigest lib e) "Evidence integrity check failed"
  let blockRefs : List String := blocks.map (·.evidenceRef)
  let evidenceRefs : List String := evidence.map (·.evidenceRef)
  ensure (decide blockRefs.Nodup) "package contains a duplicate block evidence_ref"
  ensure (decide evidenceRefs.Nodup) "package contains a duplicate Evidence evidence_ref"
  ensure (decide (evidence.map fun e => (e.sourceRef, e.resourceRef, e.revisionRef, e.fragmentRef)).Nodup)
    "package contains a duplicate Fragment Evidence"
  ensure (blockRefs.all (evidenceRefs.contains ·)) "package contains a dangling block evidence_ref"
  ensure (evidenceRefs.all (blockRefs.contains ·)) "package contains orphan Evidence"
  ensure (sharedBinding (evidence.map (·.lineage))) "package Evidence must share one request decision"

/-- The Evidence and the block of one projection. -/
def contentOf (p : AuthorizedProjection) : Except Raised (Evidence × PackageBlock) := do
  let c := p.candidateRef
  let ref := evidenceRefForProjection lib p
  let e ← Evidence.make lib ref c.sourceRef c.resourceRef c.revisionRef c.fragmentRef p.projectedFieldRefs p.lineage none
  let b ← PackageBlock.make lib ref p.projectedBody
  return (e, b)

/-- `construct_package_content`: the Package in the exact order supplied. -/
def constructPackageContent (projections : List AuthorizedProjection) : Except Raised PackageContent := do
  projections.forM (requireActiveAuthorizedProjection lib)
  match projections with
  | [] => pure ()
  | p :: ps =>
    ensure (ps.all (·.candidateRef.organizationId == p.candidateRef.organizationId))
      "package projections must belong to one Organization"
    ensure (sharedBinding ((p :: ps).map (·.lineage))) "package projections must share one request decision"
  let items ← projections.mapM (contentOf lib)
  let blocks := items.map (·.2)
  let evidence := items.map (·.1)
  validatePackageContent lib blocks evidence
  return ⟨blocks, evidence⟩

/-- The reference of a projection is always a well-formed one. -/
theorem requireEvidenceRef_projection (p : AuthorizedProjection) :
    requireEvidenceRef (evidenceRefForProjection lib p) = .ok () := by
  obtain ⟨hlen, hall⟩ := hexdigest_chars (lib.sha256 (projectionMaterial lib "context-engine:evidence-ref:v4"
    p.candidateRef p.projectedBody p.projectedFieldRefs p.lineage))
  have hlist : (evidenceRefForProjection lib p).toList = ['e', 'v', '_'] ++ (lib.sha256 (projectionMaterial lib
      "context-engine:evidence-ref:v4" p.candidateRef p.projectedBody p.projectedFieldRefs p.lineage)).hexdigest.toList := by
    rw [evidenceRefForProjection, String.toList_append]
    rfl
  have h1 : ((evidenceRefForProjection lib p).toList.length == 67 &&
      (evidenceRefForProjection lib p).toList.take 3 == ['e', 'v', '_']) = true := by
    rw [hlist, List.length_append, hlen]
    rfl
  have h2 : ((evidenceRefForProjection lib p).toList.drop 3).all (hexDigits.contains ·) = true := by
    rw [hlist]
    exact List.all_eq_true.mpr hall
  simp only [requireEvidenceRef, h1, h2]
  rfl

/-- Nothing selected is an empty Package. -/
@[simp] theorem constructPackageContent_nil : constructPackageContent lib [] = .ok ⟨[], []⟩ := rfl

/-- A single projection always makes a Package, and it is the projection's. -/
theorem constructPackageContent_single {p : AuthorizedProjection}
    (h : requireActiveAuthorizedProjection lib p = .ok ()) :
    ∃ content, constructPackageContent lib [p] = .ok content ∧
      content.evidence.map (·.fragmentRef) = [p.candidateRef.fragmentRef] := by
  obtain ⟨hbody, hrefs⟩ := requireActive_fields lib h
  have hcontent : ∃ e b, contentOf lib p = .ok (e, b) ∧ e.fragmentRef = p.candidateRef.fragmentRef ∧
      validatePackageContent lib [b] [e] = .ok () := by
    simp only [contentOf, Evidence.make, PackageBlock.make, requireEvidenceRef_projection, hbody, hrefs]
    refine ⟨_, _, rfl, rfl, ?_⟩
    simp [validatePackageContent, evidenceIntegrityDigest, blockIntegrityDigest, sharedBinding]
    simp only [requireEvidenceRef_projection, hbody]
    rfl
  obtain ⟨e, b, hc, hfragment, hvalid⟩ := hcontent
  refine ⟨⟨[b], [e]⟩, ?_, by simp [hfragment]⟩
  simp [constructPackageContent, hc, sharedBinding, hvalid, bind, Except.bind, pure, Except.pure]
  simp only [h]

end Package

end ContextEngine.Runtime
