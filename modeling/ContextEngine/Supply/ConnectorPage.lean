/-
  ContextEngine.Supply.ConnectorPage — what page acceptance requires of a connector's page
  payload (`context_supply_accept_connector_page` of `migrations/versions` 0041, as 0043 and
  0049 amend its checks).

  A payload is refused when a check fails or a server function raises on it; both leave the
  tables as they were, so both are `none` here.
-/

import ContextEngine.Postgres.Values

namespace ContextEngine.Supply

open ContextEngine.Python ContextEngine.Postgres ContextEngine.Runtime

variable (server : Server)

/-- The identity that every part of a page names. -/
structure PageBinding where
  organizationId : UUID
  sourceVersionId : UUID
  workerJobId : UUID
  deriving DecidableEq

/-- `value ->> key IS NOT DISTINCT FROM id::text`. -/
def names (value : Option Jsonb) (key : String) (id : UUID) : Bool :=
  server.text (value.bind (·.get key)) == some (server.uuidText id)

/-! ## Access observations -/

inductive EvidenceClass where
  | live
  | mirrored
  | weak
  deriving DecidableEq

def evidenceClass (text : Option String) : Option EvidenceClass :=
  if text = some "live" then some .live
  else if text = some "mirrored" then some .mirrored
  else if text = some "weak" then some .weak
  else none

/-- Live and mirrored evidence carries its payload, and no reason for having none. -/
def carriesPayload (acl : Option Jsonb) : Bool :=
  let payload := acl.bind (·.get "evidence_payload")
  Jsonb.isA .string payload &&
    ((server.text payload).bind server.decodeBase64).any (fun b => decide (1 ≤ b.length ∧ b.length ≤ 1048576)) &&
    Jsonb.isNull (acl.bind (·.get "source_lacks_stronger_acl"))

/-- Weak evidence carries no payload, and says why the source has nothing stronger. -/
def carriesReason (acl : Option Jsonb) : Bool :=
  let reason := acl.bind (·.get "source_lacks_stronger_acl")
  Jsonb.isNull (acl.bind (·.get "evidence_payload")) && Jsonb.isA .string reason &&
    (server.text reason).any (fun s => !trimsEmpty s && !hasMargin s && decide (s.length ≤ 512))

/-- `^[1-9][0-9]*$` on the text of a number, and no later than the epoch of the request. -/
def epochWithin (acl : Option Jsonb) (requestedEpoch : Option Nat) : Bool :=
  match acl.bind (·.get "policy_epoch") with
  | some (.number n) => decide (n.scale = 0 ∧ 0 < n.unscaled) && requestedEpoch.all fun e => decide (n.unscaled ≤ e)
  | _ => false

def observedBy (acl : Option Jsonb) (now : Timestamp) : Bool :=
  let at' := acl.bind (·.get "observed_at")
  Jsonb.isA .string at' &&
    (server.text at').any fun s => isZonedInstant s && (server.timestamptz s).any fun t => decide (t ≤ now)

def acceptsAcl (acl : Option Jsonb) (organizationId : UUID) (requestedEpoch : Option Nat) (now : Timestamp) : Bool :=
  Jsonb.isA .object acl && names server acl "organization_id" organizationId && epochWithin acl requestedEpoch &&
    observedBy server acl now &&
    match evidenceClass (server.text (acl.bind (·.get "evidence_class"))) with
    | some .live => carriesPayload server acl
    | some .mirrored => carriesPayload server acl
    | some .weak => carriesReason server acl
    | none => false

/-! ## Pages -/

/-- One entry of `documents`. -/
def acceptsDocument (b : PageBinding) (requestedEpoch : Option Nat) (now : Timestamp) (envelope : Jsonb) : Bool :=
  Jsonb.isA .object (some envelope) && names server (some envelope) "organization_id" b.organizationId &&
    names server (some envelope) "source_version_id" b.sourceVersionId &&
    names server (some envelope) "worker_job_id" b.workerJobId &&
    acceptsAcl server (envelope.get "acl_observation") b.organizationId requestedEpoch now

/-- What a page or document reference must look like. -/
def acceptsRef (ref : String) : Bool := !trimsEmpty ref && decide (ref.length ≤ 512) && !ref.toList.any isSpace

/-- One entry of `deleted_document_refs`. -/
def acceptsDelete (b : PageBinding) (requestedEpoch : Option Nat) (now : Timestamp) (envelope : Jsonb) : Bool :=
  match envelope with
  | .object members =>
    Jsonb.isA .string (envelope.get "document_ref") && (server.text (envelope.get "document_ref")).any acceptsRef &&
      members.all (fun m => m.1 == "acl_observation" || m.1 == "document_ref") &&
      acceptsAcl server (envelope.get "acl_observation") b.organizationId requestedEpoch now
  | _ => false

/-- What acceptance stages of a payload. -/
structure Staged where
  payloadDigest : Sha256Digest
  checkpoint : List UInt8
  checkpointDigest : Sha256Digest
  terminal : Bool

/-- The payload's part of the accept function: everything before the job is read. -/
def stage (b : PageBinding) (pageRef : String) (payload : List UInt8) (requestedEpoch : Option Nat) (now : Timestamp) :
    Option Staged := do
  guard (acceptsRef pageRef)
  guard (1 ≤ payload.length ∧ payload.length ≤ 268435456)
  let document ← server.parseJsonb payload
  guard (Jsonb.isA .object (some document))
  let binding := document.get "binding"
  guard (names server binding "organization_id" b.organizationId)
  guard (names server binding "source_version_id" b.sourceVersionId)
  guard (names server binding "worker_job_id" b.workerJobId)
  guard (server.text (document.get "page_ref") = some pageRef)
  guard (Jsonb.isA .array (document.get "documents"))
  guard (Jsonb.isA .array (document.get "deleted_document_refs"))
  guard ((Jsonb.elements (document.get "documents")).all (acceptsDocument server b requestedEpoch now))
  guard ((Jsonb.elements (document.get "deleted_document_refs")).all (acceptsDelete server b requestedEpoch now))
  match document.get "terminal" with
  | some (.bool terminal) =>
    -- a payload without a proposal stages a NULL digest, which the staged page's column refuses
    let checkpoint ← (server.text (document.get "checkpoint_proposal")).bind server.decodeBase64
    guard (1 ≤ checkpoint.length ∧ checkpoint.length ≤ 1048576)
    some ⟨server.digest payload, checkpoint, server.digest checkpoint, terminal⟩
  | _ => none

end ContextEngine.Supply
