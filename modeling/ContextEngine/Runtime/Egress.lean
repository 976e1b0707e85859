/-
  ContextEngine.Runtime.Egress — the one-shot egress grant of a model hop, and its
  redemption (`engine/runtime/egress.py`).
-/

import ContextEngine.Runtime.Evidence

namespace ContextEngine.Runtime

open ContextEngine.Python Checks

/-- `_require_nonblank` of this module. -/
def requireEgressNonblank (fieldName value : String) : Except Raised Unit :=
  ensure (!blank value) ("egress " ++ fieldName ++ " must be non-empty")

/-- `_require_sha256` of this module. -/
def requireEgressSha256 (fieldName value : String) : Except Raised Unit :=
  ensure (isSha256 value) ("egress " ++ fieldName ++ " must be lowercase SHA-256")

/-- Versioned, server-owned final policy for one exact model boundary. -/
structure ModelEgressProfile where
  profileRef : String
  retentionPolicyRef : String
  sensitivityPolicyRef : String
  issuerRef : String
  consumerRef : String
  providerRef : String
  modelRef : String
  regionRef : String
  /-- A `timedelta`, in microseconds. -/
  maximumTtl : Int
  deriving DecidableEq

/-- `ModelEgressProfile.__post_init__`. -/
def ModelEgressProfile.postInit (p : ModelEgressProfile) : Except Raised Unit := do
  requireEgressNonblank "profile_ref" p.profileRef
  requireEgressNonblank "retention_policy_ref" p.retentionPolicyRef
  requireEgressNonblank "sensitivity_policy_ref" p.sensitivityPolicyRef
  requireEgressNonblank "issuer_ref" p.issuerRef
  requireEgressNonblank "consumer_ref" p.consumerRef
  requireEgressNonblank "provider_ref" p.providerRef
  requireEgressNonblank "model_ref" p.modelRef
  requireEgressNonblank "region_ref" p.regionRef
  ensure (decide (0 < p.maximumTtl)) "egress maximum_ttl must be positive"

/-- Opaque capability for exactly one model hop. -/
structure ModelEgressGrant where
  value : String
  deriving DecidableEq

def MODEL_EGRESS_GRANT_PREFIX : String := "egrm"

/-- `ModelEgressGrant(value)`. -/
def modelEgressGrant (value : String) : Except Raised ModelEgressGrant := do
  ensure ((MODEL_EGRESS_GRANT_PREFIX ++ "_").toList.isPrefixOf value.toList &&
    value.toList.length == MODEL_EGRESS_GRANT_PREFIX.length + 1 + 64 &&
    (value.toList.drop 5).all (hexDigits.contains ·)) "egress grant must use the closed opaque locator format"
  return ⟨value⟩

/-- Exact expected binding presented to the one-shot persistence authority. -/
structure EgressGrantRedemption where
  grantDigest : List UInt8
  hopKind : String
  organizationId : UUID
  packageDigest : String
  payloadDigest : String
  purpose : String
  audienceDigest : String
  policyEpoch : Int
  retentionPolicyRef : String
  sensitivityPolicyRef : String
  issuerRef : String
  consumerRef : String
  providerRef : String
  modelRef : String
  regionRef : String
  profileRef : String

/-- `EgressGrantRedemption.for_model`. -/
def EgressGrantRedemption.forModel (lib : Stdlib) (grant : ModelEgressGrant) (organizationId : UUID)
    (packageDigest payloadDigest purpose audienceDigest : String) (policyEpoch : Int) (profile : ModelEgressProfile) :
    Except Raised EgressGrantRedemption := do
  requireEgressSha256 "package_digest" packageDigest
  requireEgressSha256 "payload_digest" payloadDigest
  requireEgressSha256 "audience_digest" audienceDigest
  ensure (decide (1 ≤ policyEpoch)) "egress policy_epoch must be a positive integer"
  requireEgressNonblank "purpose" purpose
  requireEgressNonblank "retention_policy_ref" profile.retentionPolicyRef
  requireEgressNonblank "sensitivity_policy_ref" profile.sensitivityPolicyRef
  requireEgressNonblank "issuer_ref" profile.issuerRef
  requireEgressNonblank "consumer_ref" profile.consumerRef
  requireEgressNonblank "region_ref" profile.regionRef
  requireEgressNonblank "profile_ref" profile.profileRef
  requireEgressNonblank "provider_ref" profile.providerRef
  requireEgressNonblank "model_ref" profile.modelRef
  return ⟨(lib.sha256 (encode grant.value)).bytes, "model", organizationId, packageDigest, payloadDigest, purpose,
    audienceDigest, policyEpoch, profile.retentionPolicyRef, profile.sensitivityPolicyRef, profile.issuerRef,
    profile.consumerRef, profile.providerRef, profile.modelRef, profile.regionRef, profile.profileRef⟩

end ContextEngine.Runtime
