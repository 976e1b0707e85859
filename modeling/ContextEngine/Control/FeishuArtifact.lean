/-
  ContextEngine.Control.FeishuArtifact — what a Feishu access artifact grants, recomputed from
  the subject mapping (`context_feishu_verify_acl_artifact` of
  `migrations/versions/20260731_0051_authorize_feishu_subject_mappings.py`).

  The artifact is any `jsonb`. The first query reads only the nodes of the right shape; the
  two after it read every node, and extracting the elements of a member that is no array
  raises there. The cast of the quoted graph is handled for `data_exception` alone. A
  condition that is NULL is not taken, so a missing status or policy kind passes every
  comparison with it.
-/

import ContextEngine.Machine.Closure
import ContextEngine.Postgres.Queries

namespace ContextEngine.Control

open ContextEngine.Machine ContextEngine.Python ContextEngine.Postgres

/-! ## Results -/

inductive PolicyKind where
  | private_
  | organization
  | groups
  deriving DecidableEq

inductive ObservationStatus where
  | resolved
  | missing
  | failed
  | unresolvedGroup
  deriving DecidableEq

/-- The texts that `policy_kind IN ('private', 'organization', 'groups')` admits. -/
def PolicyKind.ofText (text : String) : Option PolicyKind :=
  if text = "private" then some .private_
  else if text = "organization" then some .organization
  else if text = "groups" then some .groups
  else none

/-- The row that the verifier returns; status and kind may be NULL. -/
structure Verified where
  status : Option ObservationStatus
  policyKind : Option PolicyKind
  groups : List String
  principals : List String
  deriving DecidableEq

def Verified.failed : Verified := ⟨some .failed, none, [], []⟩

def Verified.unresolvedGroup : Verified := ⟨some .unresolvedGroup, none, [], []⟩

/-! ## The group graph -/

inductive SubjectKind where
  | identity
  | group
  deriving DecidableEq

/-- `feishu_subject_mapping` of one source, by its key. -/
abbrev SubjectMapping := SubjectKind → String → Option String

/-- A row of `nodes`. -/
structure Node where
  externalRef : Option String
  claimedLocalRef : Option String
  identityRefs : Option Jsonb
  childGroupRefs : Option Jsonb

section Graph

variable (server : Server)

def Node.ofJsonb (node : Jsonb) : Node where
  externalRef := server.text (node.get "external_ref")
  claimedLocalRef := server.text (node.get "local_group_ref")
  identityRefs := node.get "identity_refs"
  childGroupRefs := node.get "child_group_refs"

/-- The nodes of the last two queries. -/
def graphNodes (graph : Jsonb) : List Node := (Jsonb.elements (graph.get "nodes")).map (Node.ofJsonb server)

/-- The nodes of the first query: objects whose two lists are arrays. -/
def shapedNodes (graph : Jsonb) : List Node :=
  (((Jsonb.elements (graph.get "nodes")).filter fun node => Jsonb.isA .object (some node)).map (Node.ofJsonb server)).filter
    fun n => Jsonb.isA .array n.identityRefs && Jsonb.isA .array n.childGroupRefs

/-- The nodes joined on `external_ref`; NULL joins nothing. -/
def nodesOf (nodes : List Node) (ref : Option String) : List Node := nodes.filter fun n => sqlEq n.externalRef ref

/-- The rows that one element of `reachable` adds. -/
def childrenOf (nodes : List Node) (ref : Option String) : Option (List (Option String)) :=
  ((nodesOf nodes ref).mapM fun n => server.elementsText n.childGroupRefs).map List.flatten

def identitiesOf (nodes : List Node) (ref : Option String) : Option (List (Option String)) :=
  ((nodesOf nodes ref).mapM fun n => server.elementsText n.identityRefs).map List.flatten

/-- Every text that `reachable` can hold. -/
def groupTexts (nodes : List Node) (requested : List (Option String)) : List (Option String) :=
  requested ++ nodes.flatMap fun n => (server.elementsText n.childGroupRefs).getD []

/-- The recursive query `reachable`. -/
def reachable (nodes : List Node) (requested : List (Option String)) : Option (List (Option String)) :=
  close (childrenOf server nodes) (groupTexts server nodes requested).length requested

/-- Some row of the left joins has no node, no mapping, or a node that claims another group. -/
def unresolves (mapping : SubjectMapping) (nodes : List Node) (ref : Option String) : Bool :=
  (nodesOf nodes ref).isEmpty ||
    (nodesOf nodes ref).any fun n => (ref.bind (mapping .group)).all fun local' => n.claimedLocalRef != some local'

end Graph

/-! ## Verification -/

section Verify

variable (server : Server) (mapping : SubjectMapping) (ownedGroup : String → Bool)

/-- The verdict on what the queries computed. -/
def verdict (artifact : Jsonb) (unresolved : Bool) (claimedGroups claimedPrincipals : List (Option String))
    (computedGroups computedPrincipals : List String) : Verified :=
  let status := server.text (artifact.get "status")
  let policyKind := server.text (artifact.get "policy_kind")
  if status = some "failed" then .failed
  else if status.any (fun s => s != "resolved" && s != "unresolved_group") || unresolved ||
      claimedGroups != computedGroups.map some || claimedPrincipals != computedPrincipals.map some ||
      status == some "unresolved_group" then .unresolvedGroup
  else if policyKind.any (fun k => (PolicyKind.ofText k).isNone) || (policyKind == some "groups" && computedGroups.isEmpty) ||
      (policyKind.any (· != "groups") && !computedGroups.isEmpty) then .unresolvedGroup
  -- here the status is 'resolved' or NULL, and so may the kind be
  else ⟨status.map fun _ => .resolved, policyKind.bind PolicyKind.ofText, computedGroups, computedPrincipals⟩

/-- What the shape checks of a flattening leave over. -/
structure Flattening where
  graph : Jsonb
  requested : List (Option String)
  direct : List (Option String)
  claimedGroups : List (Option String)
  claimedPrincipals : List (Option String)

/-- The shape checks before the cast: the flattening and the text of the graph that it quotes. -/
def quotedGraph (artifact : Jsonb) : Option (Jsonb × String) := do
  guard (server.text (artifact.get "schema_version") = some "feishu-acl-observation-v1")
  let flattening ← artifact.get "flattening"
  guard (flattening.type = .object)
  guard (server.text (flattening.get "artifact_version") = some "feishu-group-flattening-v1")
  guard (Jsonb.isA .string (flattening.get "canonical_graph"))
  guard (Jsonb.isA .array (flattening.get "requested_group_refs"))
  guard (Jsonb.isA .array (flattening.get "direct_identity_refs"))
  guard (Jsonb.isA .array (flattening.get "local_group_refs"))
  guard (Jsonb.isA .array (flattening.get "local_principal_refs"))
  let graphText ← server.text (flattening.get "canonical_graph")
  some (flattening, graphText)

/-- The shape checks after the cast. -/
def shapedFlattening (flattening : Jsonb) (graphText : String) (graph : Jsonb) : Option Flattening := do
  guard (server.text (flattening.get "digest") = some (server.digest (encode graphText)).hexdigest)
  guard (Jsonb.isA .array (graph.get "nodes"))
  let requested ← server.elementsText (flattening.get "requested_group_refs")
  let direct ← server.elementsText (flattening.get "direct_identity_refs")
  let claimedGroups ← server.elementsText (flattening.get "local_group_refs")
  let claimedPrincipals ← server.elementsText (flattening.get "local_principal_refs")
  some ⟨graph, requested, direct, claimedGroups, claimedPrincipals⟩

/-- The shape checks, with the graph that the flattening quotes. -/
def flatteningOf (artifact : Jsonb) : Except Exit Flattening := do
  let (flattening, graphText) ← found (quotedGraph server artifact) .noRow
  let graph ← handled (server.castJsonb (encode graphText))
  found (shapedFlattening server flattening graphText graph) .noRow

/-- `computed_principals`: the mapped identities, named directly or by a reachable group. -/
def computedPrincipals (f : Flattening) : Option (List String) := do
  let nodes := graphNodes server f.graph
  let groups ← reachable server nodes f.requested
  let identities ← groups.mapM (identitiesOf server nodes)
  some (distinctAgg ((f.direct ++ identities.flatten).filterMap (·.bind (mapping .identity))))

/-- `computed_groups`: the mapped groups among the reachable ones that the Organization has. -/
def computedGroups (f : Flattening) : Option (List String) := do
  let groups ← reachable server (graphNodes server f.graph) f.requested
  some (distinctAgg ((groups.filterMap (·.bind (mapping .group))).filter ownedGroup))

/-- `context_feishu_verify_acl_artifact`. -/
def verifyAclArtifact (artifact : Jsonb) : Except Exit Verified := do
  let f ← flatteningOf server artifact
  let shaped := shapedNodes server f.graph
  let groups ← found (reachable server shaped f.requested) .raised
  let unresolved := groups.any (unresolves mapping shaped)
  let principals ← found (computedPrincipals server mapping f) .raised
  let computed ← found (computedGroups server mapping ownedGroup f) .raised
  .ok (verdict server artifact unresolved (orderedAgg f.claimedGroups) (orderedAgg f.claimedPrincipals) computed principals)

end Verify

end ContextEngine.Control
