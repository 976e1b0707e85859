/-
  ContextEngine.Adapters.FeishuConnector — what the Feishu connector observes of a document's
  readers, and how it names its pages (`adapters/connectors/feishu.py`).

  A group snapshot is a finite graph in which a group may contain itself, share a child with
  another, or name one that is not there. `flatten_feishu_groups` walks it from the groups that
  a document names; a branch stops where it meets a group of its own path. The interpreter's
  recursion limit is not modelled. A mapper answers for the identity it is asked, or raises.

  Octets are hashed by a parameter; only what is hashed is modelled.
-/

import ContextEngine.Runtime.EvidenceOctets

namespace ContextEngine.Adapters.Feishu

open ContextEngine.Python ContextEngine.Runtime

/-! ## References -/

/-- `_require_ref`: non-empty, at most 256 characters, no space. -/
abbrev Ref := EvidenceOctets.Opaque 256

instance : DecidableEq Ref := fun r r' => decidable_of_iff (r.value = r'.value) ⟨EvidenceOctets.Opaque.ext, congrArg _⟩

/-- References compare as their text does, code point by code point. -/
instance : LinearOrder Ref := LinearOrder.lift' EvidenceOctets.Opaque.value fun _ _ h => EvidenceOctets.Opaque.ext h

/-! ## Page references -/

/-- `ConnectorCheckpointBinding`. -/
structure Binding where
  organizationId : UUID
  sourceVersionId : UUID
  workerJobId : UUID
  deriving DecidableEq

/-- `prior_token or "initial"`. -/
def priorText (token : Option Ref) : Str := (token.map (·.value)).getD (.ofString "initial")

/-- What `_feishu_page_ref` hashes; a surrogate has no UTF-8 and raises. -/
def feishuPageBytes (binding : Binding) (prior : Option Ref) (next : Ref) : Option (List UInt8) := do
  let prior ← (priorText prior).utf8Strict
  let next ← next.value.utf8Strict
  return binding.organizationId.bytes ++ binding.sourceVersionId.bytes ++ binding.workerJobId.bytes ++ prior ++ next

/-! ## Groups -/

inductive Raised where
  /-- `FeishuSourceError`. -/
  | sourceError
  | typeError
  | valueError
  | other
  deriving DecidableEq

structure IdentityMapping where
  externalRef : Ref
  localPrincipalRef : Option Ref

structure GroupNode where
  externalRef : Ref
  localGroupRef : Option Ref
  identityRefs : List Ref
  childGroupRefs : List Ref
  identities_sorted : identityRefs.SortedLT
  children_sorted : childGroupRefs.SortedLT

structure GroupSnapshot where
  versionRef : Ref
  nodes : List GroupNode
  observedAt : Instant
  nodes_sorted : (nodes.map (·.externalRef)).SortedLT

def GroupSnapshot.node (s : GroupSnapshot) (ref : Ref) : Option GroupNode := s.nodes.find? fun n => n.externalRef = ref

def GroupSnapshot.refs (s : GroupSnapshot) : Finset Ref := (s.nodes.map (·.externalRef)).toFinset

/-- The sets that the walk fills; a dictionary is the set of its items. -/
structure Found where
  localGroups : Finset Ref
  localPrincipals : Finset Ref
  identityMappingClaims : Finset (Ref × Ref)
  opaqueIdentities : Finset Ref
  unresolved : Finset Ref

def Found.empty : Found := ⟨∅, ∅, ∅, ∅, ∅⟩

/-- `claims[key] = value`. -/
def setItem (claims : Finset (Ref × Ref)) (key value : Ref) : Finset (Ref × Ref) := insert (key, value) (claims.filter (·.1 ≠ key))

section Flatten

variable (s : GroupSnapshot) (mapper : Ref → Except Raised IdentityMapping)

def observeIdentity (found : Found) (identity : Ref) : Except Raised Found := do
  let mapping ← mapper identity
  if mapping.externalRef ≠ identity then throw .sourceError
  match mapping.localPrincipalRef with
  | none => return { found with opaqueIdentities := insert identity found.opaqueIdentities }
  | some principal =>
    return { found with
      localPrincipals := insert principal found.localPrincipals
      identityMappingClaims := setItem found.identityMappingClaims identity principal }

/-- What a group adds by itself. -/
def Found.touch (found : Found) (ref : Ref) (node : GroupNode) : Found :=
  match node.localGroupRef with
  | none => { found with unresolved := insert ref found.unresolved }
  | some group => { found with localGroups := insert group found.localGroups }

theorem node_mem {s : GroupSnapshot} {ref : Ref} {node : GroupNode} (h : s.node ref = some node) :
    node ∈ s.nodes ∧ node.externalRef = ref := by
  refine ⟨List.mem_of_find?_eq_some h, ?_⟩
  have := List.find?_some h
  simpa using this

/-- Fewer groups are off the path once a new one is on it. -/
theorem card_off_path_lt {s : GroupSnapshot} {path : Finset Ref} {ref : Ref} {node : GroupNode}
    (hnode : s.node ref = some node) (hpath : ref ∉ path) : (s.refs \ insert ref path).card < (s.refs \ path).card := by
  have hmem : ref ∈ s.refs \ path := by
    obtain ⟨hin, href⟩ := node_mem hnode
    exact Finset.mem_sdiff.mpr ⟨List.mem_toFinset.mpr (href ▸ List.mem_map_of_mem hin), hpath⟩
  rw [Finset.sdiff_insert]
  exact Finset.card_erase_lt_of_mem hmem

/-- `visit`. -/
def visit (path : Finset Ref) (ref : Ref) (found : Found) : Except Raised Found :=
  match hnode : s.node ref with
  | none => .ok { found with unresolved := insert ref found.unresolved }
  | some node =>
    let found := found.touch ref node
    if hpath : ref ∈ path then .ok found
    else do
      let found ← node.identityRefs.foldlM (observeIdentity mapper) found
      have := card_off_path_lt hnode hpath
      node.childGroupRefs.foldlM (fun found child => visit (insert ref path) child found) found
termination_by (s.refs \ path).card

/-- `FeishuFlattenedGroupArtifact`, without the graph's text and digest. -/
structure Flattened where
  requestedGroupRefs : List Ref
  localGroupRefs : List Ref
  localPrincipalRefs : List Ref
  groupMappingClaims : List (Ref × Ref)
  identityMappingClaims : List (Ref ×ₗ Ref)
  mappedIdentityRefs : List Ref
  opaqueIdentityRefs : List Ref
  unresolvedGroupRefs : List Ref
  deriving DecidableEq

/-- The groups whose local group was found, sorted, each with its local group. -/
def groupMappingClaims (found : Found) : List (Ref × Ref) :=
  ((s.nodes.filter fun n => n.localGroupRef.any (· ∈ found.localGroups)).mergeSort fun a b => decide (a.externalRef ≤ b.externalRef)).filterMap
    fun n => n.localGroupRef.map fun group => (n.externalRef, group)

def Found.artifact (found : Found) (requested : List Ref) : Flattened where
  requestedGroupRefs := requested
  localGroupRefs := found.localGroups.sort
  localPrincipalRefs := found.localPrincipals.sort
  groupMappingClaims := groupMappingClaims s found
  identityMappingClaims := (found.identityMappingClaims.map toLex.toEmbedding).sort
  mappedIdentityRefs := (found.identityMappingClaims.image (·.1)).sort
  opaqueIdentityRefs := found.opaqueIdentities.sort
  unresolvedGroupRefs := found.unresolved.sort

/-- `flatten_feishu_groups`. -/
def flattenFeishuGroups (requested : List Ref) : Except Raised Flattened := do
  let found ← requested.foldlM (fun found ref => visit s mapper ∅ ref found) .empty
  return found.artifact s requested

end Flatten

/-! ## Observations -/

inductive PermissionKind where
  | user
  | group
  deriving DecidableEq

inductive Visibility where
  | private_
  | organization
  deriving DecidableEq

inductive Status where
  | resolved
  | failed
  | unresolvedGroup
  deriving DecidableEq

inductive PolicyKind where
  | organization
  | groups
  | private_
  deriving DecidableEq

structure AclResponse where
  documentRef : Ref
  visibility : Visibility
  subjects : List (PermissionKind × Ref)
  observedAt : Instant

inductive AclAnswer where
  | response (r : AclResponse)
  | failure (documentRef : Ref) (observedAt : Instant)

def AclAnswer.documentRef : AclAnswer → Ref
  | .response r => r.documentRef
  | .failure documentRef _ => documentRef

/-- `FeishuDocsClient`, as `_observe` uses it. -/
structure Client where
  observeAcl : Ref → Except Raised AclAnswer
  mapIdentity : Ref → Except Raised IdentityMapping
  groupSnapshot : Except Raised GroupSnapshot

/-- The artifact of an observation, as far as it grants. -/
structure Observation where
  documentRef : Ref
  observedAt : Instant
  status : Status
  policyKind : Option PolicyKind
  localGroupRefs : List Ref
  localPrincipalRefs : List Ref

def AclResponse.refs (r : AclResponse) (kind : PermissionKind) : List Ref := (r.subjects.filter (·.1 = kind)).map (·.2)

def failedObservation (documentRef : Ref) (observedAt : Instant) : Observation := ⟨documentRef, observedAt, .failed, none, [], []⟩

/-- The readers that a response names: the principals of its users, and its groups flattened. -/
def Client.readers (client : Client) (r : AclResponse) : Except Raised (Finset Ref × Flattened) := do
  let found ← (r.refs .user).foldlM (observeIdentity client.mapIdentity) .empty
  let snapshot ← client.groupSnapshot
  let flattened ← flattenFeishuGroups snapshot client.mapIdentity (r.refs .group)
  return (found.localPrincipals ∪ flattened.localPrincipalRefs.toFinset, flattened)

/-- What the readers grant. -/
def grant (r : AclResponse) (principals : Finset Ref) (flattened : Flattened) : Observation :=
  if flattened.unresolvedGroupRefs ≠ [] then ⟨r.documentRef, r.observedAt, .unresolvedGroup, none, [], []⟩
  else if r.visibility = .organization then ⟨r.documentRef, r.observedAt, .resolved, some .organization, [], principals.sort⟩
  else if flattened.localGroupRefs ≠ [] then
    ⟨r.documentRef, r.observedAt, .resolved, some .groups, flattened.localGroupRefs, principals.sort⟩
  else ⟨r.documentRef, r.observedAt, .resolved, some .private_, [], principals.sort⟩

/-- `_observe`. -/
def Client.observe (client : Client) (documentRef : Ref) : Except Raised Observation := do
  let answer ← client.observeAcl documentRef
  if answer.documentRef ≠ documentRef then throw .sourceError
  match answer with
  | .failure _ observedAt => return failedObservation documentRef observedAt
  | .response r =>
    match client.readers r with
    | .ok (principals, flattened) => return grant r principals flattened
    | .error .other => throw .other
    | .error _ => return failedObservation documentRef r.observedAt

end ContextEngine.Adapters.Feishu
