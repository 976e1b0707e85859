/-
  ContextEngine.Runtime.Scope — the finite-set authorization scope oracle
  (`engine/runtime/scope.py`).

  The effective scope is the intersection of seven trusted operands, narrowed by the
  request; a missing operand empties it. A scope carries the digest of its targets, and
  every security-sensitive use derives that digest again.
-/

import ContextEngine.Runtime.Evidence

namespace ContextEngine.Runtime

open ContextEngine.Python Checks

/-- One exact Organization/source/resource authorization atom. -/
structure ScopeTarget where
  organizationId : UUID
  sourceRef : String
  resourceRef : Option String
  deriving DecidableEq

/-- The seven trusted inputs; `none` is a missing operand. -/
structure TrustedScopeOperands where
  organizationBoundary : Option (Finset ScopeTarget)
  membershipRights : Option (Finset ScopeTarget)
  principalGrants : Option (Finset ScopeTarget)
  agentCeiling : Option (Finset ScopeTarget)
  sourceNativeAcl : Option (Finset ScopeTarget)
  resourceAcl : Option (Finset ScopeTarget)
  purposePolicy : Option (Finset ScopeTarget)

/-- Optional exact filters of the request. -/
structure RequestNarrowing where
  sourceRefs : Option (List String)
  resourceRefs : Option (List String)

structure EffectiveScope where
  targets : Finset ScopeTarget
  digest : String

section Digest

variable (lib : Stdlib)

/-- `_canonical_target_bytes`. -/
def canonicalTargetBytes (t : ScopeTarget) : List UInt8 :=
  lengthPrefix t.organizationId.bytes ++ lengthPrefix (encode t.sourceRef) ++
    match t.resourceRef with
    | none => [0]
    | some r => 1 :: lengthPrefix (encode r)

/-- `sorted` on a bag of octet strings, written as numbers. -/
def sortedOctets (bs : Multiset (List Nat)) : List (List Nat) :=
  Quot.liftOn bs (List.insertionSort (· ≤ ·)) fun _ _ h =>
    List.Perm.eq_of_pairwise' (List.pairwise_insertionSort _ _) (List.pairwise_insertionSort _ _)
      (((List.perm_insertionSort _ _).trans h).trans (List.perm_insertionSort _ _).symm)

/-- `sorted` on byte strings. -/
def sortedBytes (bs : Multiset (List UInt8)) : List (List UInt8) :=
  (sortedOctets (bs.map (·.map UInt8.toNat))).map (·.map UInt8.ofNat)

/-- `_effective_scope_digest`. -/
def effectiveScopeDigest (targets : Finset ScopeTarget) : String :=
  let encoded := sortedBytes (targets.val.map canonicalTargetBytes)
  (lib.sha256 (encode "context-engine:effective-scope:v1" ++
    (List.range 8).reverse.map (fun i => UInt8.ofNat (encoded.length / 256 ^ i)) ++
    encoded.flatMap lengthPrefix)).hexdigest

/-- `EffectiveScope(targets)`. -/
def EffectiveScope.of (targets : Finset ScopeTarget) : EffectiveScope := ⟨targets, effectiveScopeDigest lib targets⟩

@[simp] theorem EffectiveScope.of_targets (targets : Finset ScopeTarget) :
    (EffectiveScope.of lib targets).targets = targets := rfl

/-- `_require_effective_scope_integrity`. -/
def requireEffectiveScopeIntegrity (scope : EffectiveScope) : Except Raised Unit :=
  ensure (scope.digest == effectiveScopeDigest lib scope.targets) "effective scope integrity validation failed"

@[simp] theorem requireEffectiveScopeIntegrity_of (targets : Finset ScopeTarget) :
    requireEffectiveScopeIntegrity lib (.of lib targets) = .ok () := by
  simp [requireEffectiveScopeIntegrity, EffectiveScope.of]

/-- Intersection of the operands, or nothing when one is missing. -/
def TrustedScopeOperands.intersection (o : TrustedScopeOperands) : Finset ScopeTarget :=
  match o.organizationBoundary, o.membershipRights, o.principalGrants, o.agentCeiling, o.sourceNativeAcl,
    o.resourceAcl, o.purposePolicy with
  | some a, some b, some c, some d, some e, some f, some g => a ∩ b ∩ c ∩ d ∩ e ∩ f ∩ g
  | _, _, _, _, _, _, _ => ∅

/-- The request's source filter, then its resource filter. -/
def RequestNarrowing.apply (n : RequestNarrowing) (targets : Finset ScopeTarget) : Finset ScopeTarget :=
  let targets := match n.sourceRefs with
    | none => targets
    | some refs => targets.filter fun t => t.sourceRef ∈ refs
  match n.resourceRefs with
  | none => targets
  | some refs => targets.filter fun t => t.resourceRef ∈ refs.map some

/-- `compute_effective_scope`. -/
def computeEffectiveScope (operands : TrustedScopeOperands) (narrowing : Option RequestNarrowing) : EffectiveScope :=
  .of lib ((narrowing.elim id RequestNarrowing.apply) operands.intersection)

end Digest

end ContextEngine.Runtime
