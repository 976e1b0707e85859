/-
  ContextEngine.Supply.ExecutionBridge — the loop that runs a connector under its lease
  (`engine/persistence/supply_execution.py`, `PostgreSQLSupplyExecutionBridge.execute`, and
  the pages of `engine/supply/execution.py`).

  An adapter is arbitrary code: three calls on a state of its own, each of which returns or
  raises. The bridge redeems the lease, then asks for a page, checks the bounds of its
  configuration and accepts the page, until a terminal page was accepted or something
  raises. While the adapter works, operators may issue and preempt leases, enable and
  disable the principal, move the source and advance the epoch, and the clock runs; no other
  worker holds the lease.

  The lease's signature is checked before the lease is used. The claims are whatever it
  says, so nothing is assumed of them here. The checks that the constructors of a page make
  are left out: a page is any value of its fields.
-/

import ContextEngine.Python.Json
import ContextEngine.Supply.ConnectorLease

namespace ContextEngine.Supply

open ContextEngine.Machine ContextEngine.Python ContextEngine.Postgres ContextEngine.Runtime

/-! ## Pages -/

def EvidenceClass.value : EvidenceClass → String
  | .live => "live"
  | .mirrored => "mirrored"
  | .weak => "weak"

structure SourceAclObservation where
  organizationId : UUID
  /-- `observed_at.isoformat()`. -/
  observedAt : String
  policyEpoch : Nat
  evidenceClass : EvidenceClass
  evidencePayload : Option (List UInt8)
  sourceLacksStrongerAcl : Option String

structure SupplyDocumentDeleteObservation where
  documentRef : String
  aclObservation : SourceAclObservation

structure SupplyDocumentEnvelope where
  organizationId : UUID
  sourceVersionId : UUID
  workerJobId : UUID
  documentRef : String
  content : List UInt8
  contentType : String
  aclObservation : SourceAclObservation
  metadata : List (String × String)

/-- One page of changes, and the checkpoint that its acceptance would make durable. -/
structure SupplyChangePage where
  binding : PageBinding
  pageRef : String
  documents : List SupplyDocumentEnvelope
  deletedDocumentRefs : List SupplyDocumentDeleteObservation
  checkpointProposal : List UInt8
  terminal : Bool

def b64 (b : List UInt8) : Jsonb := .string (String.ofList (base64 b))

def serializeSourceAclObservation (o : SourceAclObservation) : Jsonb :=
  .object [("evidence_class", .string o.evidenceClass.value), ("evidence_payload", (o.evidencePayload.map b64).getD .null),
    ("observed_at", .string o.observedAt), ("organization_id", .string (uuidText o.organizationId)),
    ("policy_epoch", .number ⟨o.policyEpoch, 0⟩),
    ("source_lacks_stronger_acl", (o.sourceLacksStrongerAcl.map .string).getD .null)]

/-- What `serialize_supply_change_page` dumps. -/
def SupplyChangePage.document (page : SupplyChangePage) : Jsonb :=
  .object [
    ("binding", .object [("organization_id", .string (uuidText page.binding.organizationId)),
      ("source_version_id", .string (uuidText page.binding.sourceVersionId)),
      ("worker_job_id", .string (uuidText page.binding.workerJobId))]),
    ("checkpoint_proposal", b64 page.checkpointProposal),
    ("deleted_document_refs", .array (page.deletedDocumentRefs.map fun o =>
      .object [("acl_observation", serializeSourceAclObservation o.aclObservation), ("document_ref", .string o.documentRef)])),
    ("documents", .array (page.documents.map fun e =>
      .object [("acl_observation", serializeSourceAclObservation e.aclObservation), ("content", b64 e.content),
        ("content_type", .string e.contentType), ("document_ref", .string e.documentRef),
        ("metadata", .array (e.metadata.map fun item => .array [.string item.1, .string item.2])),
        ("organization_id", .string (uuidText e.organizationId)),
        ("source_version_id", .string (uuidText e.sourceVersionId)),
        ("worker_job_id", .string (uuidText e.workerJobId))])),
    ("page_ref", .string page.pageRef),
    ("terminal", .bool page.terminal)]

def MAX_STAGED_PAGE_BYTES : Nat := 256 * 1024 * 1024

/-- `none` is `SupplyStagedPageByteLimitExceeded`. -/
def serializeSupplyChangePage (page : SupplyChangePage) : Option (List UInt8) :=
  let payload := ascii (dumpsChars page.document)
  if MAX_STAGED_PAGE_BYTES < payload.length then none else some payload

/-- Where `jsonb` reads the page's payload, it reads the proposal and the flag that the page
    has: `::jsonb` inverts `json.dumps`, and `decode(.., 'base64')` inverts `b64encode`. -/
def ReadsBack (server : Server) (page : SupplyChangePage) : Prop :=
  ∀ payload document, serializeSupplyChangePage page = some payload → server.parseJsonb payload = some document →
    (server.text (document.get "checkpoint_proposal")).bind server.decodeBase64 = some page.checkpointProposal ∧
      document.get "terminal" = some (.bool page.terminal)

/-! ## Adapters -/

/-- A `ConnectorAdapter` with state `α`, which raises values of `ε`. -/
structure ConnectorAdapter (α ε : Type) where
  loadCheckpoint : Option (List UInt8) → α → Except ε α
  load : PageBinding → α → Except ε (SupplyChangePage × α)
  poll : PageBinding → α → Except ε (SupplyChangePage × α)

/-- The adapter can return the page. -/
def ConnectorAdapter.Emits {α ε : Type} (adapter : ConnectorAdapter α ε) (page : SupplyChangePage) : Prop :=
  ∃ binding a a', adapter.load binding a = .ok (page, a') ∨ adapter.poll binding a = .ok (page, a')

/-! ## The loop -/

structure SupplyExecutionConfiguration where
  pageLimit : Nat
  cumulativeByteLimit : Nat
  noProgressPageLimit : Nat
  valid : (1 ≤ pageLimit ∧ pageLimit ≤ 65536) ∧
    (1 ≤ cumulativeByteLimit ∧ cumulativeByteLimit ≤ 256 * MAX_STAGED_PAGE_BYTES) ∧
    (1 ≤ noProgressPageLimit ∧ noProgressPageLimit ≤ 64)

inductive SupplyExecutionBoundReason where
  | pageCount
  | pageBytes
  | cumulativeBytes
  | noProgress
  deriving DecidableEq

/-- What leaves `execute` instead of a result. -/
inductive Failure (ε : Type) where
  | boundExceeded (reason : SupplyExecutionBoundReason)
  | bindingUnavailable
  /-- `WorkNotAvailable` where the database returned no row, `SupplyBridgeUnavailable` where
      it raised; neither wrote anything. -/
  | refused
  | adapter (raised : ε)

/-- The steps that are not a worker's. -/
def Call.byOperator : Call → Bool
  | .redeem _ => false
  | .accept _ _ _ => false
  | _ => true

/-- What happens around the bridge before its n-th acceptance is tried. -/
abbrev Operators := Nat → List { call : Call // call.byOperator = true }

/-- `made_no_progress`. -/
def SupplyChangePage.madeNoProgress (page : SupplyChangePage) (checkpoint : Option (List UInt8)) : Bool :=
  !page.terminal && page.documents.isEmpty && page.deletedDocumentRefs.isEmpty &&
    decide (some page.checkpointProposal = checkpoint)

/-- The local variables of the loop, with the database it works on. -/
structure Loop (α : Type) where
  world : World
  adapter : α
  checkpoint : Option (List UInt8)
  accepted : List String
  acceptedPageCount : Nat
  acceptedByteCount : Nat
  consecutiveNoProgressPages : Nat

/-- An acceptance that returned: what the adapter had been asked from, the page with its
    payload, and the database before and after it. -/
structure Acceptance where
  asked : Option (List UInt8)
  page : SupplyChangePage
  payload : List UInt8
  before : World
  after : World

/-- How one round of the loop ends. -/
inductive Round (α ε : Type) where
  | raises (failure : Failure ε) (world : World)
  | returns (acceptance : Acceptance) (refs : List String)
  | continues (acceptance : Acceptance) (next : Loop α)

section Execute

variable {α ε : Type} (server : Server) (configuration : SupplyExecutionConfiguration) (operators : Operators)
  (adapter : ConnectorAdapter α ε) (binding : PageBinding) (claims : LeaseClaims)

/-- The adapter's page from the checkpoint. -/
def nextPage (s : Loop α) : Except ε (SupplyChangePage × α) := do
  let a ← adapter.loadCheckpoint s.checkpoint s.adapter
  if s.checkpoint.isNone then adapter.load binding a else adapter.poll binding a

/-- From a page that passed the bounds to the end of the round. -/
def acceptPage (s : Loop α) (page : SupplyChangePage) (a : α) (payload : List UInt8) : Round α ε :=
  let world := after (step server) s.world ((operators s.acceptedPageCount).map (·.1))
  match accept server world claims page.pageRef payload with
  | none => .raises .refused world
  | some (_, world') =>
    let acceptance := ⟨s.checkpoint, page, payload, world, world'⟩
    let accepted := s.accepted ++ [page.pageRef]
    if page.terminal then .returns acceptance accepted
    else .continues acceptance
      { world := world'
        adapter := a
        checkpoint := some page.checkpointProposal
        accepted
        acceptedPageCount := s.acceptedPageCount + 1
        acceptedByteCount := s.acceptedByteCount + payload.length
        consecutiveNoProgressPages :=
          if page.madeNoProgress s.checkpoint then s.consecutiveNoProgressPages + 1 else 0 }

/-- One round of `while True`. -/
def round (s : Loop α) : Round α ε :=
  if configuration.pageLimit ≤ s.acceptedPageCount then .raises (.boundExceeded .pageCount) s.world
  else match nextPage adapter binding s with
    | .error raised => .raises (.adapter raised) s.world
    | .ok (page, a) =>
      if page.binding ≠ binding then .raises .bindingUnavailable s.world
      else match serializeSupplyChangePage page with
        | none => .raises (.boundExceeded .pageBytes) s.world
        | some payload =>
          if configuration.cumulativeByteLimit < s.acceptedByteCount + payload.length then
            .raises (.boundExceeded .cumulativeBytes) s.world
          else if page.madeNoProgress s.checkpoint ∧ configuration.noProgressPageLimit ≤ s.consecutiveNoProgressPages then
            .raises (.boundExceeded .noProgress) s.world
          else acceptPage server operators claims s page a payload

/-- A run of the loop: the heads of its rounds, the acceptances, and how it ended. -/
structure Run (α ε : Type) where
  heads : List (Loop α)
  acceptances : List Acceptance
  result : Except (Failure ε) (List String)
  world : World

/-- `while True`, for as many rounds as there is fuel. -/
def loop : Nat → Loop α → Option (Run α ε)
  | 0, _ => none
  | fuel + 1, s =>
    match round server configuration operators adapter binding claims s with
    | .raises failure world => some ⟨[s], [], .error failure, world⟩
    | .returns acceptance refs => some ⟨[s], [acceptance], .ok refs, acceptance.after⟩
    | .continues acceptance next =>
      (loop fuel next).map fun run => { run with heads := s :: run.heads, acceptances := acceptance :: run.acceptances }

/-- `execute`, after the lease's signature was checked. The fuel lets the page limit stop the
    loop. -/
def execute (w : World) (a : α) : Option (Run α ε) :=
  match redeem server w claims with
  | none => some ⟨[], [], .error .refused, w⟩
  | some (checkpoint, w') =>
    loop server configuration operators adapter binding claims (configuration.pageLimit + 1) ⟨w', a, checkpoint, [], 0, 0, 0⟩

end Execute

end ContextEngine.Supply
