/-
  ContextEngine.Runtime.ModelInference — the governed model hop
  (`engine/runtime/model_inference.py`).

  One `_execute` reserves a maximum on the shared meter, redeems a one-shot grant, calls
  the gateway and settles. What it calls outside this repository is a parameter: the
  redemption authority, the gateway, the clock, the parser and the observer may answer
  anything or raise, and `rfc8785.dumps` is any function. The meter is an object of a
  `Budget.Heap`. Every call that leaves the hop, on the meter or on what is outside, is
  kept in its order with how it ended.

  Properties: `ContextEngine.Runtime.ModelInferenceProofs`.
-/

import ContextEngine.Runtime.Budget
import ContextEngine.Runtime.Egress

namespace ContextEngine.Runtime.ModelInference

open ContextEngine.Python Checks Budget

/-! ## Profiles -/

/-- The values of a JSON document the port serializes. -/
inductive Json where
  | str (s : String)
  /-- A body, with its lone surrogates. -/
  | text (s : Str)
  | int (n : Int)
  | arr (items : List Json)
  | obj (fields : List (String × Json))

inductive ModelInferenceOperation where
  | rewrite
  | rerank
  | select
  deriving DecidableEq

def ModelInferenceOperation.value : ModelInferenceOperation → String
  | .rewrite => "rewrite"
  | .rerank => "rerank"
  | .select => "select"

structure ModelInferenceRetryPolicy where
  maximumAttempts : Int
  backoffMs : List Int
  deriving DecidableEq

def ModelInferenceRetryPolicy.postInit (p : ModelInferenceRetryPolicy) : Except Raised Unit :=
  ensure (p.maximumAttempts == 1 && p.backoffMs == []) "model inference retry policy is one attempt with no backoff"

/-- Explicit versioned server profile for one exact operation and model hop. A profile is
    an object whose fields a caller may have overwritten, so nothing is assumed of them. -/
structure ModelInferenceProfile where
  profileRef : String
  profileVersion : Int
  operation : ModelInferenceOperation
  egressProfile : ModelEgressProfile
  tokenizerRef : String
  tokenizerProfileDigest : String
  maximumInputTokens : Int
  maximumOutputTokens : Int
  maximumInputItems : Int
  maximumOutputItems : Int
  maximumProviderCalls : Int
  maximumCostMicrounits : Int
  maximumElapsedMs : Int
  timeoutMs : Int
  retryPolicy : ModelInferenceRetryPolicy
  inputTokenCostMicrounits : Int
  outputTokenCostMicrounits : Int
  integrityDigest : String
  deriving DecidableEq

/-- Libraries outside the repository. -/
structure Libraries where
  lib : Stdlib
  /-- `rfc8785.dumps`. -/
  dumps : Json → Except Raised (List UInt8)
  /-- `int(ttl.total_seconds() * 1_000_000)`, a floating-point product. -/
  ttlMicroseconds : Int → Int

section Port

variable (libs : Libraries)

def requireNonblank (fieldName value : String) : Except Raised Unit :=
  ensure (!blank value) (fieldName ++ " must be nonblank")

def requireSha256 (fieldName value : String) : Except Raised Unit :=
  ensure (isSha256 value) (fieldName ++ " must be lowercase SHA-256")

def requirePositiveInteger (fieldName : String) (value : Int) : Except Raised Unit :=
  ensure (decide (1 ≤ value)) (fieldName ++ " must be a positive exact integer")

def requireNonnegativeInteger (fieldName : String) (value : Int) : Except Raised Unit :=
  ensure (decide (0 ≤ value)) (fieldName ++ " must be a non-negative exact integer")

def MODEL_INFERENCE_TOKENIZER_PROFILE : String := "unicode-scalar-tokenizer-v1"

/-- `UNICODE_SCALAR_TOKENIZER_PROFILE.profile_digest`: the digest of its canonical JSON. -/
def unicodeScalarTokenizerProfileDigest : String :=
  (libs.lib.sha256 (encode "context-engine.tokenizer-profile.v1\x00" ++
    encode ("\x7b\"accountingVersion\":\"unicode-scalar-accounting-v1\"," ++
      "\"artifactDigest\":\"8d301e3ce94e5b48febffb2e0871e139cd4d5f808084eccbf9cfc512d3948cca\"," ++
      "\"countingContract\":\"one-unicode-scalar-one-token-v1\",\"normalizationRef\":\"none\"," ++
      "\"profileRef\":\"unicode-scalar-tokenizer-v1\",\"vocabularyRef\":\"unicode-scalars-v15.1\"\x7d"))).hexdigest

/-- `_validate_profile_fields`. -/
def validateProfileFields (p : ModelInferenceProfile) : Except Raised Unit := do
  p.egressProfile.postInit
  p.retryPolicy.postInit
  requireNonblank "model inference profile_ref" p.profileRef
  requirePositiveInteger "profile_version" p.profileVersion
  ensure (p.egressProfile.profileRef == p.profileRef) "model inference and egress profile refs must match"
  ensure (p.tokenizerRef == MODEL_INFERENCE_TOKENIZER_PROFILE) "model inference tokenizer profile is not active"
  ensure (p.tokenizerProfileDigest == unicodeScalarTokenizerProfileDigest libs)
    "model inference tokenizer profile is not active"
  requirePositiveInteger "maximum_input_tokens" p.maximumInputTokens
  requirePositiveInteger "maximum_output_tokens" p.maximumOutputTokens
  requirePositiveInteger "maximum_input_items" p.maximumInputItems
  requirePositiveInteger "maximum_output_items" p.maximumOutputItems
  requirePositiveInteger "maximum_provider_calls" p.maximumProviderCalls
  requirePositiveInteger "maximum_cost_microunits" p.maximumCostMicrounits
  requirePositiveInteger "maximum_elapsed_ms" p.maximumElapsedMs
  requirePositiveInteger "timeout_ms" p.timeoutMs
  ensure (p.maximumProviderCalls == 1) "one-shot model grants allow one provider call"
  ensure (decide (p.timeoutMs ≤ p.maximumElapsedMs)) "model inference timeout exceeds elapsed bound"
  requireNonnegativeInteger "input_token_cost_microunits" p.inputTokenCostMicrounits
  requireNonnegativeInteger "output_token_cost_microunits" p.outputTokenCostMicrounits
  ensure (decide (p.maximumInputTokens * p.inputTokenCostMicrounits +
    p.maximumOutputTokens * p.outputTokenCostMicrounits ≤ p.maximumCostMicrounits))
    "model inference token rates exceed profile cost bound"
  ensure (!(p.operation == .rewrite && p.maximumInputItems != 1)) "rewrite profiles accept exactly one input item"
  ensure (!(p.operation == .rerank && decide (p.maximumOutputItems < p.maximumInputItems)))
    "rerank profiles must bound one output per input"

/-- `_profile_document`. -/
def profileDocument (p : ModelInferenceProfile) : Json :=
  let egress := p.egressProfile
  .obj [("cost", .obj [("inputTokenMicrounits", .int p.inputTokenCostMicrounits),
      ("outputTokenMicrounits", .int p.outputTokenCostMicrounits)]),
    ("egress", .obj [("consumerRef", .str egress.consumerRef), ("issuerRef", .str egress.issuerRef),
      ("maximumTtlMicroseconds", .int (libs.ttlMicroseconds egress.maximumTtl)), ("modelRef", .str egress.modelRef),
      ("profileRef", .str egress.profileRef), ("providerRef", .str egress.providerRef),
      ("regionRef", .str egress.regionRef), ("retentionPolicyRef", .str egress.retentionPolicyRef),
      ("sensitivityPolicyRef", .str egress.sensitivityPolicyRef)]),
    ("limits", .obj [("elapsedMs", .int p.maximumElapsedMs), ("inputItems", .int p.maximumInputItems),
      ("inputTokens", .int p.maximumInputTokens), ("outputItems", .int p.maximumOutputItems),
      ("outputTokens", .int p.maximumOutputTokens), ("providerCalls", .int p.maximumProviderCalls),
      ("totalCostMicrounits", .int p.maximumCostMicrounits)]),
    ("operation", .str p.operation.value), ("profileRef", .str p.profileRef),
    ("profileVersion", .int p.profileVersion),
    ("retry", .obj [("backoffMs", .arr (p.retryPolicy.backoffMs.map .int)),
      ("maximumAttempts", .int p.retryPolicy.maximumAttempts)]),
    ("timeoutMs", .int p.timeoutMs), ("tokenizerRef", .str p.tokenizerRef),
    ("tokenizerProfileDigest", .str p.tokenizerProfileDigest)]

def profileDigest (p : ModelInferenceProfile) : Except Raised String := do
  let b ← libs.dumps (profileDocument libs p)
  return (libs.lib.sha256 b).hexdigest

/-- `_require_profile_integrity`. -/
def requireProfileIntegrity (p : ModelInferenceProfile) : Except Raised Unit := do
  match validateProfileFields libs p with
  | .error (.typeError _) | .error (.valueError _) =>
    .error (.valueError "model inference profile integrity is invalid")
  | .error e => .error e
  | .ok () => do
    let expected ← profileDigest libs p
    ensure (p.integrityDigest == expected) "model inference profile integrity is invalid"

/-- `_snapshot_profile`: the copy is built, and so validated and sealed, anew. -/
def snapshotProfile (p : ModelInferenceProfile) : Except Raised ModelInferenceProfile := do
  requireProfileIntegrity libs p
  p.egressProfile.postInit
  p.retryPolicy.postInit
  validateProfileFields libs p
  let digest ← profileDigest libs p
  ensure (digest == p.integrityDigest) "model inference profile changed while being validated"
  return { p with integrityDigest := digest }

/-! ## Requests -/

/-- What the three request classes have in common, with the payload sealed at construction. -/
structure RequestFields where
  profile : ModelInferenceProfile
  query : String
  payloadDigest : String
  payload : List UInt8

inductive InferenceRequest where
  | rewrite (r : RequestFields)
  | rerank (r : RequestFields) (projections : List AuthorizedProjection)
  | select (r : RequestFields) (projections : List AuthorizedProjection) (maximumItems : Int)

def InferenceRequest.fields : InferenceRequest → RequestFields
  | .rewrite r => r
  | .rerank r _ => r
  | .select r _ _ => r

/-- `_request_operation`. -/
def InferenceRequest.operation : InferenceRequest → ModelInferenceOperation
  | .rewrite _ => .rewrite
  | .rerank _ _ => .rerank
  | .select _ _ _ => .select

/-- Immutable execution facts sealed before budget or egress state changes. -/
structure RequestSnapshot where
  operation : ModelInferenceOperation
  profile : ModelInferenceProfile
  payload : List UInt8
  payloadDigest : String
  inputItems : Int
  projections : List AuthorizedProjection
  maximumItems : Option Int

/-- `_model_payload`. -/
def modelPayload (operation : ModelInferenceOperation) (profile : ModelInferenceProfile) (input : Json) :
    Except Raised (List UInt8) :=
  libs.dumps (.obj [("input", input), ("operation", .str operation.value), ("profileRef", .str profile.profileRef),
    ("profileVersion", .int profile.profileVersion)])

/-- `_projection_payload`. -/
def projectionPayload (operation : ModelInferenceOperation) (profile : ModelInferenceProfile) (query : String)
    (projections : List AuthorizedProjection) (maximumItems : Option Int) : Except Raised (List UInt8) :=
  modelPayload libs operation profile (.obj ([
    ("items", .arr (projections.map fun p => .obj [("body", .text p.projectedBody),
      ("projectedFieldRefs", .arr (p.projectedFieldRefs.map .str))])),
    ("query", .str query)] ++ (maximumItems.map fun n => ("maximumItems", Json.int n)).toList))

def digestDomain : List UInt8 := encode "context-engine.model-inference.v1\x00"
def outputDigestDomain : List UInt8 := encode "context-engine.model-inference-output.v1\x00"

/-- `_seal_request_snapshot`. -/
def sealRequestSnapshot (operation : ModelInferenceOperation) (profile : ModelInferenceProfile)
    (payload : List UInt8) (stored : RequestFields) (inputItems : Int) (projections : List AuthorizedProjection)
    (maximumItems : Option Int) : Except Raised RequestSnapshot := do
  let payloadDigest := (libs.lib.sha256 (digestDomain ++ payload)).hexdigest
  ensure (stored.payload == payload && stored.payloadDigest == payloadDigest)
    "model inference request integrity is invalid"
  return ⟨operation, profile, payload, payloadDigest, inputItems, projections, maximumItems⟩

/-- The three `_snapshot` methods. -/
def InferenceRequest.snapshot (request : InferenceRequest) (profile : ModelInferenceProfile) :
    Except Raised RequestSnapshot :=
  match request with
  | .rewrite r => do
    ensure (profile.operation == .rewrite) "rewrite requires a rewrite profile"
    requireNonblank "rewrite query" r.query
    let payload ← modelPayload libs .rewrite profile (.obj [("query", .str r.query)])
    sealRequestSnapshot libs .rewrite profile payload r 1 [] none
  | .rerank r projections => do
    ensure (profile.operation == .rerank) "rerank requires a rerank profile"
    requireNonblank "rerank query" r.query
    ensureType (!projections.isEmpty) "rerank requires AuthorizedProjection inputs"
    projections.forM (requireActiveAuthorizedProjection libs.lib)
    let payload ← projectionPayload libs .rerank profile r.query projections none
    sealRequestSnapshot libs .rerank profile payload r projections.length projections none
  | .select r projections maximumItems => do
    ensure (profile.operation == .select) "select requires a select profile"
    requireNonblank "select query" r.query
    ensureType (!projections.isEmpty) "select requires AuthorizedProjection inputs"
    projections.forM (requireActiveAuthorizedProjection libs.lib)
    requirePositiveInteger "select maximum_items" maximumItems
    ensure (decide (maximumItems ≤ profile.maximumOutputItems)) "select maximum_items exceeds its profile"
    let payload ← projectionPayload libs .select profile r.query projections (some maximumItems)
    sealRequestSnapshot libs .select profile payload r projections.length projections (some maximumItems)

/-- Exact trusted grant bindings needed for one Runtime inference hop. -/
structure ModelInferenceEgressBinding where
  organizationId : UUID
  packageDigest : String
  purpose : String
  audienceDigest : String
  policyEpoch : Int
  releaseGeneration : Int

/-- `_snapshot_egress_binding`; `none` is a value of another nominal type. -/
def snapshotEgressBinding (binding : Option ModelInferenceEgressBinding) :
    Except Raised ModelInferenceEgressBinding :=
  match binding with
  | none => .error (.typeError "model inference requires ModelInferenceEgressBinding")
  | some b => do
    requireSha256 "package_digest" b.packageDigest
    requireNonblank "purpose" b.purpose
    requireSha256 "audience_digest" b.audienceDigest
    requirePositiveInteger "policy_epoch" b.policyEpoch
    requirePositiveInteger "release_generation" b.releaseGeneration
    return b

/-! ## Traces -/

inductive ModelInferenceOutcomeCategory where
  | succeeded
  | unavailable
  deriving DecidableEq

/-- What a receipt repeats about its request; always fit for one. -/
structure TraceContext where
  operation : ModelInferenceOperation
  profileRef : String
  profileVersion : Int
  inputDigest : String
  ref_nonblank : blank profileRef = false
  version_pos : 1 ≤ profileVersion
  digest_ok : isSha256 inputDigest = true

/-- Restricted digests-only operation trace with bounded usage. Its constructor's checks
    are the trace context's fields. -/
structure ModelInferenceTraceReceipt where
  context : TraceContext
  outcomeCategory : ModelInferenceOutcomeCategory
  outputDigest : Option String
  budgetUsage : BudgetUsage

theorem bounds_of_validate {p : ModelInferenceProfile} (h : validateProfileFields libs p = .ok ()) :
    blank p.profileRef = false ∧ 1 ≤ p.profileVersion ∧ 1 ≤ p.maximumOutputTokens ∧ 1 ≤ p.maximumElapsedMs ∧
      p.timeoutMs ≤ p.maximumElapsedMs ∧ 0 ≤ p.inputTokenCostMicrounits ∧ 0 ≤ p.outputTokenCostMicrounits := by
  unfold validateProfileFields at h
  obtain ⟨_, -, h⟩ := bind_ok h
  obtain ⟨_, -, h⟩ := bind_ok h
  obtain ⟨_, href, h⟩ := bind_ok h
  obtain ⟨_, hversion, h⟩ := bind_ok h
  obtain ⟨_, -, h⟩ := bind_ok h
  obtain ⟨_, -, h⟩ := bind_ok h
  obtain ⟨_, -, h⟩ := bind_ok h
  obtain ⟨_, -, h⟩ := bind_ok h
  obtain ⟨_, houtput, h⟩ := bind_ok h
  obtain ⟨_, -, h⟩ := bind_ok h
  obtain ⟨_, -, h⟩ := bind_ok h
  obtain ⟨_, -, h⟩ := bind_ok h
  obtain ⟨_, -, h⟩ := bind_ok h
  obtain ⟨_, helapsed, h⟩ := bind_ok h
  obtain ⟨_, -, h⟩ := bind_ok h
  obtain ⟨_, -, h⟩ := bind_ok h
  obtain ⟨_, htimeout, h⟩ := bind_ok h
  obtain ⟨_, hin, h⟩ := bind_ok h
  obtain ⟨_, hout, h⟩ := bind_ok h
  exact ⟨by simpa using ensure_ok href, by simpa using ensure_ok hversion, by simpa using ensure_ok houtput,
    by simpa using ensure_ok helapsed, by simpa using ensure_ok htimeout, by simpa using ensure_ok hin,
    by simpa using ensure_ok hout⟩

theorem validate_of_integrity {p : ModelInferenceProfile} (h : requireProfileIntegrity libs p = .ok ()) :
    validateProfileFields libs p = .ok () := by
  unfold requireProfileIntegrity at h
  split at h
  · cases h
  · cases h
  · cases h
  · next hv => exact hv

/-- A snapshot is the profile itself, validated. -/
theorem snapshotProfile_ok {p s : ModelInferenceProfile} (h : snapshotProfile libs p = .ok s) :
    s = p ∧ validateProfileFields libs p = .ok () := by
  unfold snapshotProfile at h
  obtain ⟨_, hintegrity, h⟩ := bind_ok h
  obtain ⟨_, -, h⟩ := bind_ok h
  obtain ⟨_, -, h⟩ := bind_ok h
  obtain ⟨_, -, h⟩ := bind_ok h
  obtain ⟨digest, -, h⟩ := bind_ok h
  obtain ⟨_, hdigest, h⟩ := bind_ok h
  cases h
  have hdigest : digest = p.integrityDigest := by simpa using ensure_ok hdigest
  subst hdigest
  exact ⟨rfl, validate_of_integrity libs hintegrity⟩

theorem seal_ok {operation : ModelInferenceOperation} {profile : ModelInferenceProfile} {payload : List UInt8}
    {stored : RequestFields} {inputItems : Int} {projections : List AuthorizedProjection} {maximumItems : Option Int}
    {s : RequestSnapshot}
    (h : sealRequestSnapshot libs operation profile payload stored inputItems projections maximumItems = .ok s) :
    s.profile = profile ∧ s.payload = stored.payload ∧ isSha256 s.payloadDigest = true := by
  unfold sealRequestSnapshot at h
  obtain ⟨_, hstored, h⟩ := bind_ok h
  cases h
  have hstored := ensure_ok hstored
  simp only [Bool.and_eq_true, beq_iff_eq] at hstored
  exact ⟨rfl, hstored.1.symm, isSha256_hexdigest _⟩

theorem snapshot_ok {request : InferenceRequest} {profile : ModelInferenceProfile} {s : RequestSnapshot}
    (h : request.snapshot libs profile = .ok s) :
    s.profile = profile ∧ s.payload = request.fields.payload ∧ isSha256 s.payloadDigest = true := by
  cases request with
  | rewrite r =>
    obtain ⟨_, -, h⟩ := bind_ok h
    obtain ⟨_, -, h⟩ := bind_ok h
    obtain ⟨payload, -, h⟩ := bind_ok h
    exact seal_ok libs h
  | rerank r projections =>
    obtain ⟨_, -, h⟩ := bind_ok h
    obtain ⟨_, -, h⟩ := bind_ok h
    obtain ⟨_, -, h⟩ := bind_ok h
    obtain ⟨_, -, h⟩ := bind_ok h
    obtain ⟨payload, -, h⟩ := bind_ok h
    exact seal_ok libs h
  | select r projections maximumItems =>
    obtain ⟨_, -, h⟩ := bind_ok h
    obtain ⟨_, -, h⟩ := bind_ok h
    obtain ⟨_, -, h⟩ := bind_ok h
    obtain ⟨_, -, h⟩ := bind_ok h
    obtain ⟨_, -, h⟩ := bind_ok h
    obtain ⟨_, -, h⟩ := bind_ok h
    obtain ⟨payload, -, h⟩ := bind_ok h
    exact seal_ok libs h

/-! ## The port -/

/-- How an injected gateway call ends. -/
inductive GatewayOutcome where
  | bytes (output : List UInt8)
  | nonBytes
  | raised
  | timeout

/-- Everything `_execute` calls that is not this repository's. The clock is read once
    before the redemption and once after the gateway; the authority is asked once. -/
structure ModelInferencePort (α : Type) where
  profiles : List ((ModelInferenceOperation × String × Int) × ModelInferenceProfile)
  startedMs : Except Raised Int
  redeem : EgressGrantRedemption → Except Raised Bool
  gateway : List UInt8 → Int → GatewayOutcome
  finishedMs : Except Raised Int
  parseOutput : List UInt8 → RequestSnapshot → Except Raised α
  traceObserver : ModelInferenceTraceReceipt → Except Raised Unit

/-- One call that a hop makes, with how it ended. -/
inductive Effect where
  /-- A call on a meter, and whether it returned. -/
  | ledger (call : Call) (returned : Bool)
  | clock (reading : Except Raised Int)
  | redeem (redemption : EgressGrantRedemption) (answer : Except Raised Bool)
  | gateway (payload : List UInt8) (timeoutMs : Int) (outcome : GatewayOutcome)
  | observe (receipt : ModelInferenceTraceReceipt) (answer : Except Raised Unit)

/-- The meters, and the calls made so far, in order. -/
structure HopState where
  heap : Heap
  effects : List Effect

namespace HopState

/-- A call on a meter. -/
def call (w : HopState) (c : Call) : Except Raised Unit × HopState :=
  let r := exec w.heap c
  (r.1, ⟨r.2, w.effects ++ [.ledger c r.1.toBool]⟩)

/-- A call of anything else; no meter is in its reach. -/
def log (w : HopState) (e : Effect) : HopState := { w with effects := w.effects ++ [e] }

@[simp] theorem log_heap (w : HopState) (e : Effect) : (w.log e).heap = w.heap := rfl

@[simp] theorem log_effects (w : HopState) (e : Effect) : (w.log e).effects = w.effects ++ [e] := rfl

end HopState

section Calls

variable {α : Type} (port : ModelInferencePort α)

/-- `self._authority.redeem(redemption)`. -/
def redeemGrant (redemption : EgressGrantRedemption) (w : HopState) : Except Raised Bool × HopState :=
  let answer := port.redeem redemption
  (answer, w.log (.redeem redemption answer))

/-- `_call_gateway_bounded`. A call that outlives its deadline is abandoned; what it
    returns later reaches nobody. -/
def callGatewayBounded (payload : List UInt8) (timeoutMs : Int) (w : HopState) :
    Except Raised (List UInt8) × HopState :=
  let outcome := port.gateway payload timeoutMs
  let w := w.log (.gateway payload timeoutMs outcome)
  match outcome with
  | .bytes output => (.ok output, w)
  | .nonBytes | .raised => (.error (.valueError "model gateway is unavailable"), w)
  | .timeout => (.error (.other "TimeoutError"), w)

/-- `self._trace_observer(receipt)`. -/
def observeTrace (receipt : ModelInferenceTraceReceipt) (w : HopState) : Except Raised Unit × HopState :=
  let answer := port.traceObserver receipt
  (answer, w.log (.observe receipt answer))

end Calls

/-- `self._monotonic_ms()`. -/
def readClock (reading : Except Raised Int) (w : HopState) : Except Raised Int × HopState :=
  (reading, w.log (.clock reading))

def unavailableProfileRef : String := "model-inference-profile-unavailable-v1"

/-- `_fallback_trace_context`. -/
def fallbackTraceContext (request : InferenceRequest) : Except Raised TraceContext :=
  let digest := libs.lib.sha256 (digestDomain ++ request.fields.payload)
  let fallback : TraceContext := ⟨request.operation, unavailableProfileRef, 1, digest.hexdigest, by decide, by decide,
    isSha256_hexdigest _⟩
  match h : requireProfileIntegrity libs request.fields.profile with
  | .ok () =>
    if request.fields.profile.operation = request.operation then
      .ok ⟨request.operation, request.fields.profile.profileRef, request.fields.profile.profileVersion,
        digest.hexdigest, (bounds_of_validate libs (validate_of_integrity libs h)).1,
        (bounds_of_validate libs (validate_of_integrity libs h)).2.1, isSha256_hexdigest _⟩
    else .ok fallback
  | .error (.typeError _) | .error (.valueError _) | .error (.other "AttributeError") => .ok fallback
  | .error e => .error e

/-- Why nothing was reserved: `_emit_unavailable` was called, or something raised. -/
inductive Refusal where
  | unavailable
  | raised (e : Raised)

def orRaised {α : Type} (x : Except Raised α) : Except Refusal α := x.mapError .raised

/-- What the hop reserves and presents. -/
structure Admission where
  redemption : EgressGrantRedemption
  inputTokens : Nat
  maximum : BudgetUsage

/-- From the registry lookup to the maximum to reserve. -/
def admission {α : Type} (port : ModelInferencePort α) (meter : PackageBudgetMeter) (grant : Option ModelEgressGrant)
    (egress : Option ModelInferenceEgressBinding) (s : RequestSnapshot) : Except Refusal Admission := do
  orRaised (ensure (port.profiles.lookup (s.operation, s.profile.profileRef, s.profile.profileVersion) == some s.profile)
    "model inference profile is not registered")
  let e ← orRaised (snapshotEgressBinding egress)
  orRaised (meter.requireTokenizer s.profile.tokenizerRef s.profile.tokenizerProfileDigest e.releaseGeneration)
  match grant with
  | none => .error .unavailable
  | some grant => do
    let grant ← orRaised (modelEgressGrant grant.value)
    let redemption ← orRaised (EgressGrantRedemption.forModel libs.lib grant e.organizationId e.packageDigest
      s.payloadDigest e.purpose e.audienceDigest e.policyEpoch s.profile.egressProfile)
    let inputTokens ← orRaised (meter.countTokens s.payload)
    if inputTokens > s.profile.maximumInputTokens ∨ s.inputItems > s.profile.maximumInputItems then
      .error .unavailable
    else do
      let maximum ← orRaised (BudgetUsage.ofInts (inputTokens + s.profile.maximumOutputTokens) 1
        (inputTokens * s.profile.inputTokenCostMicrounits +
          s.profile.maximumOutputTokens * s.profile.outputTokenCostMicrounits) s.profile.maximumElapsedMs)
      return ⟨redemption, inputTokens, maximum⟩

/-- The first `try` of `_execute` up to the reservation. The trace context switches from
    the fallback to the snapshot's as soon as there is one. -/
def prepare {α : Type} (port : ModelInferencePort α) (meter : PackageBudgetMeter) (request : InferenceRequest)
    (grant : Option ModelEgressGrant) (egress : Option ModelInferenceEgressBinding) (fallback : TraceContext) :
    TraceContext × Except Refusal (RequestSnapshot × Admission) :=
  match hp : snapshotProfile libs request.fields.profile with
  | .error e => (fallback, .error (.raised e))
  | .ok profile =>
    match hs : request.snapshot libs profile with
    | .error e => (fallback, .error (.raised e))
    | .ok s =>
      if s.operation ≠ request.operation then
        (fallback, .error (.raised (.valueError "model inference request operation changed")))
      else
        have hbounds := bounds_of_validate libs ((snapshotProfile_ok libs hp).1 ▸ (snapshotProfile_ok libs hp).2)
        have hsnap := snapshot_ok libs hs
        (⟨s.operation, s.profile.profileRef, s.profile.profileVersion, s.payloadDigest, by rw [hsnap.1]; exact hbounds.1,
          by rw [hsnap.1]; exact hbounds.2.1, hsnap.2.2⟩,
          (admission libs port meter grant egress s).map fun a => (s, a))

/-- The gateway region after its two calls: the checks, the parser and the charge. -/
def measure {α : Type} (port : ModelInferencePort α) (meter : PackageBudgetMeter) (s : RequestSnapshot)
    (inputTokens : Nat) (startedMs : Int) (raw : List UInt8) (finishedMs : Int) : Except Raised (α × BudgetUsage) := do
  let elapsedMs := finishedMs - startedMs
  ensure (decide (0 ≤ elapsedMs ∧ elapsedMs ≤ s.profile.timeoutMs)) "model gateway exceeded its profile"
  let outputTokens ← meter.countTokens raw
  ensure (decide ((outputTokens : Int) ≤ s.profile.maximumOutputTokens)) "model gateway exceeded its profile"
  let parsed ← port.parseOutput raw s
  let actual ← BudgetUsage.ofInts (inputTokens + outputTokens) 1
    (inputTokens * s.profile.inputTokenCostMicrounits + outputTokens * s.profile.outputTokenCostMicrounits) elapsedMs
  return (parsed, actual)

/-- The gateway region: what it charges, or the exception that ends it. -/
def attempt {α : Type} (port : ModelInferencePort α) (meter : PackageBudgetMeter) (s : RequestSnapshot)
    (inputTokens : Nat) (startedMs : Int) (w : HopState) : Except Raised (List UInt8 × α × BudgetUsage) × HopState :=
  match callGatewayBounded port s.payload s.profile.timeoutMs w with
  | (.error e, w) => (.error e, w)
  | (.ok raw, w) =>
    match readClock port.finishedMs w with
    | (.error e, w) => (.error e, w)
    | (.ok finishedMs, w) =>
      ((measure port meter s inputTokens startedMs raw finishedMs).map fun (parsed, actual) => (raw, parsed, actual), w)

/-! ## The hop -/

/-- How a hop ends. -/
inductive Exit (α : Type) where
  | returned (parsed : α) (receipt : ModelInferenceTraceReceipt)
  /-- `ModelInferenceUnavailable(receipt)`. -/
  | unavailable (receipt : ModelInferenceTraceReceipt)
  | raised (e : Raised)

/-- The usage on the receipt returned or attached, none without a receipt. -/
def Exit.budgetUsage {α : Type} : Exit α → BudgetUsage
  | .returned _ receipt => receipt.budgetUsage
  | .unavailable receipt => receipt.budgetUsage
  | .raised _ => .empty

section Hop

variable {α : Type} (port : ModelInferencePort α)

/-- `_emit_unavailable`; whatever the observer does is suppressed. -/
def emitUnavailable (context : TraceContext) (usage : BudgetUsage) (w : HopState) : Exit α × HopState :=
  let receipt : ModelInferenceTraceReceipt := ⟨context, .unavailable, none, usage⟩
  let (_, w) := observeTrace port receipt w
  (.unavailable receipt, w)

/-- The two `except` clauses of the first `try`. -/
def refuse (context : TraceContext) (refusal : Refusal) (w : HopState) : Exit α × HopState :=
  match refusal with
  | .unavailable => emitUnavailable port context .empty w
  | .raised .packageBudgetExceeded | .raised (.tokenizerUnavailable _) | .raised (.typeError _)
  | .raised (.valueError _) => emitUnavailable port context .empty w
  | .raised e => (.raised e, w)

/-- `budget._cancel(reservation)`, then the refusal. -/
def settleCancelled (context : TraceContext) (b r : Nat) (w : HopState) : Exit α × HopState :=
  match w.call (.cancel b (some r)) with
  | (.error e, w) => (.raised e, w)
  | (.ok (), w) => emitUnavailable port context .empty w

/-- `budget._commit(reservation, maximum)`, then the refusal. -/
def settleMaximum (context : TraceContext) (b r : Nat) (maximum : BudgetUsage) (w : HopState) : Exit α × HopState :=
  match w.call (.commit b (some r) (some maximum)) with
  | (.error e, w) => (.raised e, w)
  | (.ok (), w) => emitUnavailable port context maximum w

/-- After redemption. -/
def complete (context : TraceContext) (s : RequestSnapshot) (a : Admission) (b r : Nat) (startedMs : Int) (w : HopState) :
    Exit α × HopState :=
  match attempt port (w.heap.meters b) s a.inputTokens startedMs w with
  | (.error _, w) => settleMaximum port context b r a.maximum w
  | (.ok (raw, parsed, actual), w) =>
    match w.call (.commit b (some r) (some actual)) with
    | (.error _, w) => settleMaximum port context b r a.maximum w
    | (.ok (), w) =>
      let receipt : ModelInferenceTraceReceipt :=
        ⟨context, .succeeded, some (libs.lib.sha256 (outputDigestDomain ++ raw)).hexdigest, actual⟩
      match observeTrace port receipt w with
      | (.error _, w) => emitUnavailable port context actual w
      | (.ok (), w) => (.returned parsed receipt, w)

/-- After the reservation: redeem, and go on only when the answer is `True`. -/
def redeemAndComplete (context : TraceContext) (s : RequestSnapshot) (a : Admission) (b r : Nat) (w : HopState) :
    Exit α × HopState :=
  match readClock port.startedMs w with
  | (.error _, w) => settleCancelled port context b r w
  | (.ok startedMs, w) =>
    match redeemGrant port a.redemption w with
    | (.error _, w) | (.ok false, w) => settleCancelled port context b r w
    | (.ok true, w) => complete libs port context s a b r startedMs w

/-- `ModelInferencePort._execute`; `none` is an argument of another nominal type. -/
def execute (request : Option InferenceRequest) (grant : Option ModelEgressGrant)
    (egress : Option ModelInferenceEgressBinding) (budget : Option Nat) (w : HopState) : Exit α × HopState :=
  match budget, request with
  | none, _ => (.raised (.typeError "model inference requires PackageBudgetMeter"), w)
  | some _, none => (.raised (.typeError "model inference request has the wrong nominal type"), w)
  | some b, some request =>
    match fallbackTraceContext libs request with
    | .error e => (.raised e, w)
    | .ok fallback =>
      match prepare libs port (w.heap.meters b) request grant egress fallback with
      | (context, .error refusal) => refuse port context refusal w
      | (context, .ok (s, a)) =>
        -- A reservation that succeeds is the next object on the heap.
        let r := w.heap.reservations.length
        match w.call (.reserve b (some a.maximum)) with
        | (.error e, w) => refuse port context (.raised e) w
        | (.ok (), w) => redeemAndComplete libs port context s a b r w

end Hop

end Port

end ContextEngine.Runtime.ModelInference
