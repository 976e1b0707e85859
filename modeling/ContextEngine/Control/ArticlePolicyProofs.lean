/-
  ContextEngine.Control.ArticlePolicyProofs — what the four writers of article policies keep.
-/

import ContextEngine.Control.ArticlePolicy
import ContextEngine.Python.Hashlib
import ContextEngine.Python.Json

namespace ContextEngine.Control.ArticlePolicy

open ContextEngine.Machine ContextEngine.Python ContextEngine.Postgres ContextEngine.Runtime ContextEngine.Supply

variable {server : Server} {w w' : Store server}

/-! ## What an application writes -/

section Apply

variable {sourceId versionId : UUID} {ref : String} {delete : Bool} {e : AclEvidence} {version : Nat} {published : Bool}

/-- The article's rows after an application: untouched without an article of the source or a
    policy of it, tombstoned by a deletion, observed otherwise. -/
theorem settle_cases (h : w.settle sourceId versionId ref delete e version = .ok (published, w')) :
    ((w.ownArticle sourceId ref = none ∨ delete = false ∧ w.policies ref = none) ∧ published = false ∧ w' = w) ∨
    (∃ resource, w.ownArticle sourceId ref = some resource ∧ delete = true ∧ published = false ∧
      w' = { w with resources := Function.update w.resources ref (some { resource with tombstoned := true }) }) ∨
    ∃ resource p, w.ownArticle sourceId ref = some resource ∧ delete = false ∧ w.policies ref = some p ∧
      p.policyVersion < MAX_BIGINT ∧ (p.observed e versionId version (w.policyEpoch + 1)).checks = true ∧
      published = (p.observed e versionId version (w.policyEpoch + 1)).published ∧
      w' = (w.setGrants ref (e.grants w.clock (w.grants ref))).setPolicy ref (p.observed e versionId version (w.policyEpoch + 1)) := by
  unfold Store.settle at h
  split at h
  case h_1 hnone =>
    cases h
    exact .inl ⟨.inl hnone, rfl, rfl⟩
  case h_2 resource hres =>
    split at h
    case isTrue hdelete =>
      cases h
      exact .inr (.inl ⟨resource, hres, hdelete, rfl, rfl⟩)
    case isFalse hdelete =>
      have hdelete : delete = false := by simpa using hdelete
      split at h
      case h_1 hnone =>
        cases h
        exact .inl ⟨.inr ⟨hdelete, hnone⟩, rfl, rfl⟩
      case h_2 p hp =>
        simp only [bind_eq_ok, require_eq_ok, exists_const, Except.ok.injEq, Prod.mk.injEq] at h
        obtain ⟨hversion, hchecks, _, hpub, hw⟩ := h
        exact .inr (.inr ⟨resource, p, hres, hdelete, hp, hversion, hchecks, hpub.symm, hw.symm⟩)

/-- What an application leaves alone, and the observation and the epoch it writes. -/
structure Applied (w w' : Store server) (ref : String) (o : Observation) : Prop where
  observations : w'.observations = Function.update w.observations ref (some o)
  version : o.observationVersion = ((w.observations ref).map (·.observationVersion)).getD 0 + 1
  checks : o.checks = true
  policyEpoch : w'.policyEpoch = w.policyEpoch + 1
  epoch_lt : w.policyEpoch < MAX_BIGINT
  organizationId : w'.organizationId = w.organizationId
  configuration : w'.configuration = w.configuration
  resources : ∀ t, t ≠ ref → w'.resources t = w.resources t
  policies : ∀ t, t ≠ ref → w'.policies t = w.policies t
  grants : ∀ t, t ≠ ref → w'.grants t = w.grants t

variable {row : ApplyRow}

theorem applyEvidence_applied (h : w.applyEvidence sourceId versionId ref delete e = .ok (row, w')) :
    Applied w w' ref (e.observation (server.uuidText sourceId) sourceId versionId
      (((w.observations ref).map (·.observationVersion)).getD 0 + 1) delete) := by
  simp only [Store.applyEvidence, bind_eq_ok, require_eq_ok, exists_const, Except.ok.injEq, Prod.mk.injEq] at h
  obtain ⟨-, hepoch, hchecks, ⟨published, u⟩, hsettle, -, rfl⟩ := h
  rcases settle_cases hsettle with ⟨-, -, rfl⟩ | ⟨resource, -, -, -, rfl⟩ | ⟨resource, p, -, -, -, -, -, -, rfl⟩
  · exact ⟨rfl, rfl, hchecks, rfl, hepoch, rfl, rfl, fun _ _ => rfl, fun _ _ => rfl, fun _ _ => rfl⟩
  · refine ⟨rfl, rfl, hchecks, rfl, hepoch, rfl, rfl, fun t ht => ?_, fun _ _ => rfl, fun _ _ => rfl⟩
    exact Function.update_of_ne ht _ _
  · refine ⟨rfl, rfl, hchecks, rfl, hepoch, rfl, rfl, fun _ _ => rfl, fun t ht => ?_, fun t ht => ?_⟩
    · exact Function.update_of_ne ht _ _
    · exact Function.update_of_ne ht _ _

/-- The request reads the evidence `e` for the article `ref` off the page. -/
structure Applies (w : Store server) (r : ApplyRequest) (page : FeishuPage server) (ref : String)
    (delete : Bool) (e : AclEvidence) : Prop where
  documentRef : r.documentRef = some ref
  deleteObservation : r.deleteObservation = some delete
  selected : w.feishuPage r = some page
  evidence : ∃ payload envelope, server.parseJsonb page.payload = some payload ∧
    envelopeOf server payload ref delete = some envelope ∧
    evidenceOf w page.sourceId ref (envelope.get "acl_observation") = .ok e

theorem Applies.unique {r : ApplyRequest} {page page' : FeishuPage server} {ref' : String} {delete' : Bool} {e' : AclEvidence}
    (h : Applies w r page ref delete e) (h' : Applies w r page' ref' delete' e') :
    page = page' ∧ ref = ref' ∧ delete = delete' ∧ e = e' := by
  obtain ⟨payload, envelope, hpayload, henvelope, he⟩ := h.evidence
  obtain ⟨payload', envelope', hpayload', henvelope', he'⟩ := h'.evidence
  obtain rfl : page = page' := by simpa using h.selected.symm.trans h'.selected
  obtain rfl : ref = ref' := by simpa using h.documentRef.symm.trans h'.documentRef
  obtain rfl : delete = delete' := by simpa using h.deleteObservation.symm.trans h'.deleteObservation
  obtain rfl : payload = payload' := by simpa using hpayload.symm.trans hpayload'
  obtain rfl : envelope = envelope' := by simpa using henvelope.symm.trans henvelope'
  obtain rfl : e = e' := by simpa using he.symm.trans he'
  exact ⟨rfl, rfl, rfl, rfl⟩

theorem apply_ok {r : ApplyRequest} (h : applyFeishuAclObservation w r = .ok (row, w')) :
    ∃ page ref delete e, Applies w r page ref delete e ∧
      w.applyEvidence page.sourceId page.sourceVersionId ref delete e = .ok (row, w') := by
  simp only [applyFeishuAclObservation, bind_eq_ok, require_eq_ok, found_eq_ok, exists_const] at h
  obtain ⟨-, -, ref, href, delete, hdelete, page, hpage, payload, hpayload, envelope, henvelope, e, he, happly⟩ := h
  exact ⟨page, ref, delete, e, ⟨href, hdelete, hpage, payload, envelope, hpayload, henvelope, he⟩, happly⟩

/-- The rest of a request whose evidence was read is the application of it. -/
theorem apply_of_applies {r : ApplyRequest} {page : FeishuPage server} (hcontrol : r.session.user = .control)
    (hsession : r.session.organizationId = r.organizationId ∧ r.organizationId = some w.organizationId)
    (h : Applies w r page ref delete e) :
    applyFeishuAclObservation w r = w.applyEvidence page.sourceId page.sourceVersionId ref delete e := by
  obtain ⟨payload, envelope, hpayload, henvelope, he⟩ := h.evidence
  simp only [applyFeishuAclObservation, require, hcontrol, hsession, found, h.documentRef, h.deleteObservation, h.selected,
    hpayload, henvelope, he, bind, Except.bind, and_self, if_true]

end Apply

/-! ## Isolation of sources -/

/-- A bulk change is accepted. -/
def bulkAccepts (w : Store server) (b : BulkRequest) : Prop := ∃ epoch w', bulkChangeArticlePolicy w b = .ok (epoch, w')

/-- Nothing of an article changed between two states: not its rows, nor the bulk changes that
    would be accepted for it while the epoch leaves room for one. -/
structure Unaffected (w w' : Store server) (ref : String) : Prop where
  observation : w'.observations ref = w.observations ref
  policy : w'.policies ref = w.policies ref
  grants : w'.grants ref = w.grants ref
  resource : w'.resources ref = w.resources ref
  bulk : ∀ b : BulkRequest, b.resourceRefs = some [some ref] → w'.policyEpoch < MAX_BIGINT → (bulkAccepts w' b ↔ bulkAccepts w b)

theorem bulkAccepts_iff {b : BulkRequest} : bulkAccepts w b ↔
    ∃ refs versions groups, b.resourceRefs = some refs ∧ b.expectedPolicyVersions = some versions ∧ b.groupRefs = some groups ∧
      (b.session.organizationId = b.organizationId ∧ b.organizationId = some w.organizationId) ∧
      b.shaped refs versions groups = true ∧ (groups.all fun g => g.any w.configuration.ownedGroup) = true ∧
      b.previewDigest.isSome = true ∧ w.policyEpoch < MAX_BIGINT ∧
      ((refs.zip versions).all fun rv => rv.1.any fun ref => rv.2.any fun v =>
        bulkAdmits w ref v ⟨b.policyKind.bind PolicyKind.ofText, groups.filterMap id⟩) = true := by
  simp only [bulkAccepts, bulkChangeArticlePolicy, bind_eq_ok, require_eq_ok, found_eq_ok, exists_const, Except.ok.injEq,
    Prod.mk.injEq]
  constructor
  · rintro ⟨-, -, horg, refs, hrefs, versions, hversions, groups, hgroups, hshaped, howned, hdigest, hepoch, hadmits, -, -⟩
    exact ⟨refs, versions, groups, hrefs, hversions, hgroups, horg, hshaped, howned, hdigest, hepoch, hadmits⟩
  · rintro ⟨refs, versions, groups, hrefs, hversions, hgroups, horg, hshaped, howned, hdigest, hepoch, hadmits⟩
    exact ⟨_, _, horg, refs, hrefs, versions, hversions, groups, hgroups, hshaped, howned, hdigest, hepoch, hadmits, rfl, rfl⟩

/-- A bulk change of one article reads nothing but its two rows, the groups and the epoch. -/
theorem bulkAccepts_congr {ref : String} {b : BulkRequest} (hb : b.resourceRefs = some [some ref])
    (hobservation : w'.observations ref = w.observations ref) (hpolicy : w'.policies ref = w.policies ref)
    (horg : w'.organizationId = w.organizationId) (hconf : w'.configuration = w.configuration)
    (hepoch : w'.policyEpoch < MAX_BIGINT ↔ w.policyEpoch < MAX_BIGINT) : bulkAccepts w' b ↔ bulkAccepts w b := by
  have hadmits : ∀ v s, bulkAdmits w' ref v s = bulkAdmits w ref v s := by
    intro v s
    rw [bulkAdmits, bulkAdmits, hobservation, hpolicy]
  rw [bulkAccepts_iff, bulkAccepts_iff, hb, horg, hconf, hepoch]
  refine exists_congr fun refs => exists_congr fun versions => exists_congr fun groups => ?_
  refine and_congr_right fun hrefs => ?_
  cases hrefs
  cases versions with
  | nil => simp
  | cons v vs => simp [hadmits]

namespace FeishuInstance

def id (n : Nat) : UUID := .ofNat n

def organizationId : UUID := id 1

def fileSource : SourceRow := ⟨id 10, .file, true, some (id 11)⟩

def feishuSource : SourceRow := ⟨id 20, .feishuDocs, true, some (id 21)⟩

def observedText : String := "2026-07-31T00:00:00+00:00"

def observedAt : Timestamp := 1785456000000000

/-- A snapshot without groups. -/
def graph : Jsonb := .object [("nodes", .array [])]

def graphDigest : String := "acf2fa576acb702442f9d0101673354c398db67315c066ca48be8db8e0d2c75b"

theorem digest_graph : (sha256 (encode (dumps graph))).hexdigest = graphDigest := by decide +kernel

def strings (xs : List String) : Jsonb := .array (xs.map .string)

/-- The artifact of a document that is shared with some users. -/
def privateArtifact : Jsonb :=
  .object [("document_ref", .string "doc-2"),
    ("flattening", .object [("artifact_version", .string "feishu-group-flattening-v1"),
      ("canonical_graph", .string (dumps graph)), ("digest", .string graphDigest),
      ("direct_identity_refs", strings ["ou-1"]), ("local_group_refs", strings []),
      ("local_principal_refs", strings ["bob"]), ("requested_group_refs", strings [])]),
    ("policy_kind", .string "private"), ("schema_version", .string "feishu-acl-observation-v1"), ("status", .string "resolved")]

/-- An artifact that says nothing. -/
def emptyArtifact : Jsonb := .object []

def checkpoint : List UInt8 := ascii ['n', 'e', 'x', 't']

def undecodable : List UInt8 := ascii ['?']

def binding : List (String × Jsonb) :=
  [("organization_id", .string (uuidText organizationId)), ("source_version_id", .string (uuidText (id 21))),
    ("worker_job_id", .string (uuidText (id 22)))]

def envelope (ref : String) (payload : List UInt8) : Jsonb :=
  .object (("acl_observation", .object [("evidence_class", .string "mirrored"),
      ("evidence_payload", .string (String.ofList (base64 payload))), ("observed_at", .string observedText),
      ("organization_id", .string (uuidText organizationId)), ("policy_epoch", .number ⟨1, 0⟩),
      ("source_lacks_stronger_acl", .null)]) ::
    ("document_ref", .string ref) :: binding)

def pageOf (documents : List Jsonb) : Jsonb :=
  .object [("binding", .object binding), ("checkpoint_proposal", .string (String.ofList (base64 checkpoint))),
    ("deleted_document_refs", .array []), ("documents", .array documents), ("page_ref", .string "page-1"),
    ("terminal", .bool true)]

def pageDocument : Jsonb :=
  pageOf [envelope "doc-1" (ascii (dumpsChars emptyArtifact)), envelope "doc-2" (ascii (dumpsChars privateArtifact)),
    envelope "doc-3" undecodable]

/-- A server that reads these documents. -/
def postgres : Server where
  castJsonb b := castOf ([pageDocument, emptyArtifact, privateArtifact, graph].find? fun v => ascii (dumpsChars v) = b)
  decodeBase64 s :=
    [checkpoint, undecodable, ascii (dumpsChars emptyArtifact), ascii (dumpsChars privateArtifact)].find? fun b =>
      base64 b = s.toList
  timestamptz s := if s = observedText then some observedAt else none
  bigint s := if s = "1" then some 1 else none
  digest := sha256
  uuidText
  valueText
    | .number n => toString n.unscaled
    | v => dumps v

/-- How the octets of the documents and of the payloads start, and what the server makes of
    them: what the reads below are told apart by. -/
structure Octets : Prop where
  page_empty : (ascii (dumpsChars pageDocument)).take 3 ≠ (ascii (dumpsChars emptyArtifact)).take 3
  page_private : (ascii (dumpsChars pageDocument)).take 3 ≠ (ascii (dumpsChars privateArtifact)).take 3
  page_graph : (ascii (dumpsChars pageDocument)).take 3 ≠ (ascii (dumpsChars graph)).take 3
  empty_private : (ascii (dumpsChars emptyArtifact)).take 24 ≠ (ascii (dumpsChars privateArtifact)).take 24
  empty_graph : (ascii (dumpsChars emptyArtifact)).take 3 ≠ (ascii (dumpsChars graph)).take 3
  private_graph : (ascii (dumpsChars privateArtifact)).take 3 ≠ (ascii (dumpsChars graph)).take 3
  undecodable : ∀ v ∈ [pageDocument, emptyArtifact, privateArtifact, graph], (ascii (dumpsChars v)).take 1 ≠ undecodable.take 1
  encoded : encode (dumps graph) = ascii (dumpsChars graph)
  empty_base64 : ∀ b ∈ [checkpoint, FeishuInstance.undecodable], (base64 b).take 1 ≠ (base64 (ascii (dumpsChars emptyArtifact))).take 1
  private_base64 : ∀ b ∈ [checkpoint, FeishuInstance.undecodable],
    (base64 b).take 1 ≠ (base64 (ascii (dumpsChars privateArtifact))).take 1
  artifacts_base64 : (base64 (ascii (dumpsChars emptyArtifact))).take 32 ≠ (base64 (ascii (dumpsChars privateArtifact))).take 32
  empty_length : (ascii (dumpsChars emptyArtifact)).length ≤ 20000
  zoned : isZonedInstant observedText = true
  acceptsRef : acceptsRef "page-1" = true
  epoch : (postgres.text (some (.number ⟨1, 0⟩))).bind postgres.bigint = some 1

theorem octets : Octets := by constructor <;> decide +kernel

theorem ne_of_take {α : Type} {xs ys : List α} (n : Nat) (h : xs.take n ≠ ys.take n) : xs ≠ ys := fun he => h (by rw [he])

/-- What the server reads its documents' texts as: the first of them that has the octets. -/
theorem casts : postgres.castJsonb (ascii (dumpsChars pageDocument)) = .ok pageDocument ∧
    postgres.castJsonb (ascii (dumpsChars emptyArtifact)) = .ok emptyArtifact ∧
    postgres.castJsonb (ascii (dumpsChars privateArtifact)) = .ok privateArtifact ∧
    postgres.castJsonb (encode (dumps graph)) = .ok graph ∧ postgres.castJsonb undecodable = .error .dataException := by
  have hempty := ne_of_take 3 octets.page_empty
  have hprivate := ne_of_take 3 octets.page_private
  have hgraph := ne_of_take 3 octets.page_graph
  have hprivate' := ne_of_take 24 octets.empty_private
  have hgraph' := ne_of_take 3 octets.empty_graph
  have hgraph'' := ne_of_take 3 octets.private_graph
  have hundecodable : ∀ v ∈ [pageDocument, emptyArtifact, privateArtifact, graph], ascii (dumpsChars v) ≠ undecodable :=
    fun v hv => ne_of_take 1 (octets.undecodable v hv)
  refine ⟨?_, ?_, ?_, ?_, ?_⟩
  · simp [postgres]
  · simp [postgres, hempty]
  · simp [postgres, hprivate, hprivate']
  · simp [postgres, octets.encoded, hgraph, hgraph', hgraph'']
  · have hnone : ([pageDocument, emptyArtifact, privateArtifact, graph].find? fun v => ascii (dumpsChars v) = undecodable) = none :=
      List.find?_eq_none.mpr fun v hv => by simpa using hundecodable v hv
    exact congrArg castOf hnone

theorem parses_page : postgres.parseJsonb (ascii (dumpsChars pageDocument)) = some pageDocument :=
  Server.parseJsonb_eq_some.mpr casts.1

/-- What the server decodes: the first payload that has the text. -/
theorem decodes : postgres.decodeBase64 (String.ofList (base64 checkpoint)) = some checkpoint ∧
    postgres.decodeBase64 (String.ofList (base64 undecodable)) = some undecodable ∧
    postgres.decodeBase64 (String.ofList (base64 (ascii (dumpsChars emptyArtifact)))) = some (ascii (dumpsChars emptyArtifact)) ∧
    postgres.decodeBase64 (String.ofList (base64 (ascii (dumpsChars privateArtifact)))) =
      some (ascii (dumpsChars privateArtifact)) := by
  have hundecodable : base64 checkpoint ≠ base64 undecodable := by decide
  have hempty := ne_of_take 1 (octets.empty_base64 checkpoint (by simp))
  have hempty' := ne_of_take 1 (octets.empty_base64 undecodable (by simp))
  have hprivate := ne_of_take 1 (octets.private_base64 checkpoint (by simp))
  have hprivate' := ne_of_take 1 (octets.private_base64 undecodable (by simp))
  have hprivate'' := ne_of_take 32 octets.artifacts_base64
  refine ⟨?_, ?_, ?_, ?_⟩
  · simp [postgres]
  · simp [postgres, hundecodable]
  · simp [postgres, hempty, hempty']
  · simp [postgres, hprivate, hprivate', hprivate'']

theorem empty_length : (ascii (dumpsChars emptyArtifact)).length ≤ 1048576 := octets.empty_length.trans (by decide)

theorem length_uuidText (u : UUID) : (uuidText u).toList.length ≤ 100 := by
  have hlength : (u.bytes.flatMap hexByte).length = 32 := by
    rw [length_flatMap_hexByte]
    simp [UUID.bytes]
  have h := length_intercalate_le '-' [(u.bytes.flatMap hexByte).take 8, ((u.bytes.flatMap hexByte).drop 8).take 4,
    ((u.bytes.flatMap hexByte).drop 12).take 4, ((u.bytes.flatMap hexByte).drop 16).take 4, (u.bytes.flatMap hexByte).drop 20]
  simp only [uuidText, String.toList_ofList]
  refine h.trans ?_
  simp [hlength]

theorem private_length : (ascii (dumpsChars privateArtifact)).length ≤ 20000 := by
  have hgraph := length_dumpsChars graph
  have hweight : weight graph ≤ 200 := by
    simp only [graph, weight, weightMembers, weightElements, String.reduceToList, List.length_cons, List.length_nil, Nat.reduceAdd, Nat.reduceMul]
    omega
  rw [ascii, List.length_map]
  refine (length_dumpsChars privateArtifact).trans ?_
  simp only [privateArtifact, strings, graphDigest, dumps, weight, weightMembers, weightElements, List.map_cons, List.map_nil,
    String.reduceToList, String.toList_ofList, List.length_cons, List.length_nil, Nat.reduceAdd, Nat.reduceMul]
  generalize (dumpsChars graph).length = n at hgraph ⊢
  omega

theorem weight_binding : weightMembers binding ≤ 5000 := by
  have horg := length_uuidText organizationId
  have hversion := length_uuidText (id 21)
  have hjob := length_uuidText (id 22)
  simp only [binding, weight, weightMembers, String.reduceToList, List.length_cons, List.length_nil, Nat.reduceAdd, Nat.reduceMul]
  generalize (uuidText organizationId).toList.length = a at horg ⊢
  generalize (uuidText (id 21)).toList.length = b at hversion ⊢
  generalize (uuidText (id 22)).toList.length = c at hjob ⊢
  omega

theorem weight_envelope {ref : String} {payload : List UInt8} (href : ref.toList.length ≤ 10) (hpayload : payload.length ≤ 20000) :
    weight (envelope ref payload) ≤ 1000000 := by
  have horg := length_uuidText organizationId
  have hnumber : (toString (1 : Int)).toList.length = 1 := by decide
  have hbinding := weight_binding
  have hbase64 := length_base64 payload
  simp only [envelope, observedText, weight, weightMembers, String.reduceToList, String.toList_ofList, List.length_cons,
    List.length_nil, Nat.reduceAdd, Nat.reduceMul, hnumber]
  generalize (uuidText organizationId).toList.length = a at horg ⊢
  generalize weightMembers binding = b at hbinding ⊢
  omega

theorem weight_pageOf (a b c : Jsonb) (ha : weight a ≤ 1000000) (hb : weight b ≤ 1000000) (hc : weight c ≤ 1000000) :
    (ascii (dumpsChars (pageOf [a, b, c]))).length ≤ 268435456 := by
  have hbinding := weight_binding
  have hcheckpoint : (base64 checkpoint).length = 8 := by decide
  rw [ascii, List.length_map]
  refine (length_dumpsChars (pageOf [a, b, c])).trans ?_
  simp only [pageOf, weight, weightMembers, weightElements, String.toList_ofList, String.reduceToList, List.length_cons,
    List.length_nil, Nat.reduceAdd, Nat.reduceMul, hcheckpoint]
  generalize weightMembers binding = n at hbinding ⊢
  omega

theorem page_length : (ascii (dumpsChars pageDocument)).length ≤ 268435456 := by
  have hundecodable : undecodable.length ≤ 20000 := by decide
  have href : ("doc-1").toList.length ≤ 10 ∧ ("doc-2").toList.length ≤ 10 ∧ ("doc-3").toList.length ≤ 10 := by decide
  apply weight_pageOf
  · exact weight_envelope href.1 octets.empty_length
  · exact weight_envelope href.2.1 private_length
  · exact weight_envelope href.2.2 hundecodable

theorem dumps_pos {value : Jsonb} {members : List (String × Jsonb)} (h : value = .object members) :
    1 ≤ (ascii (dumpsChars value)).length := by
  rw [h]
  simp [ascii, dumpsChars]

theorem uuidText_eq : postgres.uuidText = uuidText := rfl

theorem timestamptz_observed : postgres.timestamptz observedText = some observedAt := by simp [postgres]

/-- Acceptance of a document of the page. -/
theorem accepts_envelope (ref : String) {payload : List UInt8}
    (hdecode : postgres.decodeBase64 (String.ofList (base64 payload)) = some payload) (hlength : payload.length ≤ 1048576)
    (hpos : 1 ≤ payload.length) :
    acceptsDocument postgres ⟨organizationId, id 21, id 22⟩ (some 1) observedAt (envelope ref payload) = true := by
  simp only [acceptsDocument, acceptsAcl, names, envelope, binding, Jsonb.isA, Jsonb.type, Jsonb.get, Server.text, epochWithin,
    observedBy, evidenceClass, carriesPayload, Jsonb.isNull, uuidText_eq, List.find?_cons, String.reduceEq, decide_false,
    decide_true, Option.map_some, Option.bind_some, Option.any_some, hdecode, hlength, hpos, octets.zoned, timestamptz_observed]
  simp

theorem page_binding : pageDocument.get "binding" = some (.object binding) := by
  simp only [pageDocument, pageOf, Jsonb.get_cons, if_true]

theorem page_documents : pageDocument.get "documents" = some (.array [envelope "doc-1" (ascii (dumpsChars emptyArtifact)),
    envelope "doc-2" (ascii (dumpsChars privateArtifact)), envelope "doc-3" undecodable]) := by
  simp only [pageDocument, pageOf, Jsonb.get_cons, String.reduceEq, if_true, if_false]

theorem page_deleted : pageDocument.get "deleted_document_refs" = some (.array []) := by
  simp only [pageDocument, pageOf, Jsonb.get_cons, String.reduceEq, if_true, if_false]

theorem binding_names (id : UUID) (key : String) (h : (Jsonb.object binding).get key = some (.string (uuidText id))) :
    names postgres (pageDocument.get "binding") key id = true := by
  rw [names, page_binding, Option.bind_some, h]
  exact beq_self_eq_true _

theorem page_staged : (stage postgres ⟨organizationId, id 21, id 22⟩ "page-1"
    (ascii (dumpsChars pageDocument)) (some 1) observedAt).isSome := by
  have href : pageDocument.get "page_ref" = some (.string "page-1") := by
    simp only [pageDocument, pageOf, Jsonb.get_cons, String.reduceEq, if_true, if_false]
  have hterminal : pageDocument.get "terminal" = some (.bool true) := by
    simp only [pageDocument, pageOf, Jsonb.get_cons, String.reduceEq, if_true, if_false]
  have hcheckpoint : pageDocument.get "checkpoint_proposal" = some (.string (String.ofList (base64 checkpoint))) := by
    simp only [pageDocument, pageOf, Jsonb.get_cons, String.reduceEq, if_true, if_false]
  have hdocuments : (Jsonb.elements (pageDocument.get "documents")).all
      (acceptsDocument postgres ⟨organizationId, id 21, id 22⟩ (some 1) observedAt) = true := by
    rw [page_documents]
    simp only [Jsonb.elements, List.all_cons, List.all_nil,
      accepts_envelope "doc-1" decodes.2.2.1 empty_length (dumps_pos rfl),
      accepts_envelope "doc-2" decodes.2.2.2 (private_length.trans (by decide)) (dumps_pos rfl),
      accepts_envelope "doc-3" decodes.2.1 (by decide) (by decide), Bool.and_self]
  rw [Option.isSome_iff_exists]
  simp only [stage, Option.bind_eq_bind, Option.bind_eq_some_iff, Option.guard_eq_some', exists_const]
  refine ⟨⟨sha256 (ascii (dumpsChars pageDocument)), checkpoint, sha256 checkpoint, true⟩, octets.acceptsRef, ⟨dumps_pos rfl, page_length⟩, pageDocument, parses_page, rfl, ?_, ?_, ?_, ?_, ?_, ?_, hdocuments, ?_, ?_⟩
  · exact binding_names _ _ (by simp only [binding, Jsonb.get_cons, if_true])
  · exact binding_names _ _ (by simp only [binding, Jsonb.get_cons, String.reduceEq, if_true, if_false])
  · exact binding_names _ _ (by simp only [binding, Jsonb.get_cons, String.reduceEq, if_true, if_false])
  · rw [href]
    rfl
  · rw [page_documents]
    rfl
  · rw [page_deleted]
    rfl
  · rw [page_deleted]
    rfl
  · rw [hterminal]
    simp only [Option.bind_eq_some_iff, Option.guard_eq_some', exists_const]
    refine ⟨checkpoint, ⟨_, ?_, decodes.1⟩, by decide, rfl⟩
    rw [hcheckpoint]
    rfl

def page : FeishuPage postgres where
  organizationId := organizationId
  sourceId := id 20
  sourceVersionId := id 21
  workerJobId := id 22
  pageRef := "page-1"
  payload := ascii (dumpsChars pageDocument)
  leaseEpoch := 1
  acceptedAt := observedAt
  leaseEpoch_le := by decide
  staged := page_staged

theorem text_string (s : String) : postgres.text (some (.string s)) = some s := rfl

theorem elementsText_strings (xs : List String) : postgres.elementsText (some (strings xs)) = some (xs.map some) := by
  simp only [strings, Server.elementsText, List.map_map]
  rfl

theorem digest_eq : (postgres.digest (encode (dumps graph))).hexdigest = graphDigest := digest_graph

/-- The flattening of the private artifact. -/
def privateFlattening : Jsonb :=
  .object [("artifact_version", .string "feishu-group-flattening-v1"), ("canonical_graph", .string (dumps graph)),
    ("digest", .string graphDigest), ("direct_identity_refs", strings ["ou-1"]), ("local_group_refs", strings []),
    ("local_principal_refs", strings ["bob"]), ("requested_group_refs", strings [])]

theorem private_quotedGraph : quotedGraph postgres privateArtifact = some (privateFlattening, dumps graph) := by
  have hflattening : privateArtifact.get "flattening" = some privateFlattening := by
    simp only [privateArtifact, privateFlattening, Jsonb.get_cons, String.reduceEq, if_true, if_false]
  have hschema : privateArtifact.get "schema_version" = some (.string "feishu-acl-observation-v1") := by
    simp only [privateArtifact, Jsonb.get_cons, String.reduceEq, if_true, if_false]
  simp only [quotedGraph, hflattening, hschema, text_string, Option.bind_eq_bind, Option.bind_some, privateFlattening, Jsonb.get_cons,
    String.reduceEq, if_true, if_false, Option.bind_eq_some_iff, Option.guard_eq_some', exists_const, true_and, and_true]
  exact ⟨rfl, rfl, rfl, rfl, rfl, rfl⟩

theorem private_flattening : flatteningOf postgres privateArtifact = .ok ⟨graph, [], [some "ou-1"], [], [some "bob"]⟩ := by
  have hshaped : shapedFlattening postgres privateFlattening (dumps graph) graph =
      some ⟨graph, [], [some "ou-1"], [], [some "bob"]⟩ := by
    simp only [shapedFlattening, privateFlattening, text_string, Option.bind_eq_bind, Option.bind_some, Jsonb.get_cons,
      String.reduceEq, if_true, if_false, Option.bind_eq_some_iff, Option.guard_eq_some', exists_const, elementsText_strings,
      digest_eq, true_and]
    exact ⟨rfl, rfl⟩
  simp only [flatteningOf, private_quotedGraph, bind_eq_ok, found_eq_ok, handled_eq_ok, Option.some.injEq]
  exact ⟨_, rfl, graph, casts.2.2.2.1, hshaped⟩

/-- The artifact is worth what it says where its user is mapped to its principal. -/
theorem private_verified {mapping : SubjectMapping} {owned : String → Bool} (hmapping : mapping .identity "ou-1" = some "bob") :
    verifyAclArtifact postgres mapping owned privateArtifact = .ok ⟨some .resolved, some .private_, [], ["bob"]⟩ := by
  have hnodes : Jsonb.elements (graph.get "nodes") = [] := by
    simp only [graph, Jsonb.get_cons, if_true, Jsonb.elements]
  have hreachable : reachable postgres [] [] = some [] := rfl
  have hprincipals : computedPrincipals postgres mapping ⟨graph, [], [some "ou-1"], [], [some "bob"]⟩ = some ["bob"] := by
    simp only [computedPrincipals, graphNodes, hnodes, List.map_nil, hreachable, Option.bind_eq_bind, Option.bind_some,
      List.mapM_nil, Option.pure_def, List.flatten_nil, List.append_nil, List.filterMap_cons, List.filterMap_nil, hmapping]
    rfl
  have hgroups : computedGroups postgres mapping owned ⟨graph, [], [some "ou-1"], [], [some "bob"]⟩ = some [] := by
    simp only [computedGroups, graphNodes, hnodes, List.map_nil, hreachable, Option.bind_eq_bind, Option.bind_some]
    rfl
  have hstatus : privateArtifact.get "status" = some (.string "resolved") := by
    simp only [privateArtifact, Jsonb.get_cons, String.reduceEq, if_true, if_false]
  have hkind : privateArtifact.get "policy_kind" = some (.string "private") := by
    simp only [privateArtifact, Jsonb.get_cons, String.reduceEq, if_true, if_false]
  have hverdict : verdict postgres privateArtifact false [] [some "bob"] [] ["bob"] =
      ⟨some .resolved, some .private_, [], ["bob"]⟩ := by
    rw [verdict, hstatus, hkind, text_string, text_string]
    rfl
  rw [← hverdict, verifyAclArtifact, private_flattening]
  simp only [found, bind, Except.bind, shapedNodes, hnodes, List.filter_nil, List.map_nil, hreachable, hprincipals, hgroups]
  rfl

/-- Bob is mapped; nobody is in the group that the second article is kept to. -/
def configuration : Configuration where
  sources := [fileSource, feishuSource]
  ownedGroup g := g = "staff"
  mapping _ kind ref := if kind = .identity ∧ ref = "ou-1" then some "bob" else none
  groupMembers := []
  explicitSetting ref := if ref = "doc-2" then some (uuidText (id 20), ⟨some .groups, ["staff"]⟩) else none
  sourceDefault _ := none
  tenantDefault := some ⟨some .private_, []⟩

def fresh : Store postgres where
  organizationId := organizationId
  clock := observedAt - MICROS
  policyEpoch := 1
  configuration := configuration
  resources _ := none
  observations _ := none
  policies _ := none
  grants _ := []
  pages := []

/-- The first article is a File, granted to Alice; the second is a Feishu document. Then the
    page is accepted. -/
def setup : List (Call postgres) :=
  [.createResource "doc-1" (uuidText (id 10)), .insertGrant .worker "doc-1" "alice", .createResource "doc-2" (uuidText (id 20)),
    .fixArticleAccessPolicy ⟨.migrator, some organizationId⟩ (some organizationId) "doc-2", .advanceClock MICROS,
    .acceptPage page]

def store : Store postgres := after step fresh setup

theorem store_organizationId : store.organizationId = organizationId := rfl

theorem store_configuration : store.configuration = configuration := rfl

theorem store_pages : store.pages = [page] := rfl

/-- What the set-up left. -/
theorem store_facts : (store.observations "doc-1").map (·.observedAt) = some (observedAt - MICROS) ∧
    store.observations "doc-2" = none ∧ store.clock = observedAt ∧
    store.configuration.mapping (id 20) .identity "ou-1" = some "bob" ∧
    (configuration.sources.any fun s => decide (s.sourceId = page.sourceId ∧ s.kind = .feishuDocs ∧ s.active = true ∧
      s.activeVersionId = some page.sourceVersionId)) = true := by
  decide +kernel

/-- The evidence of an envelope whose artifact was verified. -/
theorem evidence_of_envelope {w : Store postgres} (horg : w.organizationId = organizationId) {ref : String} {payload : List UInt8}
    {artifact : Jsonb} {v : Verified} (hdecode : postgres.decodeBase64 (String.ofList (base64 payload)) = some payload)
    (hcast : postgres.castJsonb payload = .ok artifact) (hv : artifactEvidence w (id 20) ref artifact = .ok v) :
    evidenceOf w (id 20) ref ((envelope ref payload).get "acl_observation") =
      .ok (AclEvidence.fresh ⟨v.status.getD .unresolvedGroup, ⟨v.policyKind, v.groups⟩, v.principals, observedAt, observedAt, some 1⟩
        (w.observations ref) w.clock) := by
  have hacl : (envelope ref payload).get "acl_observation" = some (.object [("evidence_class", .string "mirrored"),
      ("evidence_payload", .string (String.ofList (base64 payload))), ("observed_at", .string observedText),
      ("organization_id", .string (uuidText organizationId)), ("policy_epoch", .number ⟨1, 0⟩),
      ("source_lacks_stronger_acl", .null)]) := by
    simp only [envelope, Jsonb.get_cons, if_true]
  simp only [evidenceOf, hacl, horg, names, Option.bind_some, Jsonb.get_cons, String.reduceEq, if_true, if_false, text_string,
    octets.epoch, hdecode, timestamptz_observed, uuidText_eq, bind_eq_ok, require_eq_ok, found_eq_ok, handled_eq_ok, exists_const]
  exact ⟨by decide, beq_self_eq_true _, rfl, _, rfl, _, rfl, _, rfl, _, hcast, _, hv, rfl⟩

def request (ref : String) : ApplyRequest :=
  ⟨⟨.control, some organizationId⟩, some organizationId, some (id 21), some (id 22), some "page-1", some ref, some false⟩

theorem store_feishuPage (ref : String) : store.feishuPage (request ref) = some page := by
  rw [Store.feishuPage, store_pages, List.find?_cons_of_pos]
  rw [store_configuration, Bool.and_eq_true, decide_eq_true_eq]
  exact ⟨⟨rfl, rfl, rfl, rfl⟩, store_facts.2.2.2.2⟩

theorem envelope_ref (ref : String) (payload : List UInt8) : postgres.text ((envelope ref payload).get "document_ref") = some ref := by
  simp only [envelope, Jsonb.get_cons, String.reduceEq, if_true, if_false]
  rfl

/-- The document of the page. -/
theorem page_envelope (ref : String) (payload : List UInt8) (h : (ref, payload) ∈ [("doc-1", ascii (dumpsChars emptyArtifact)),
    ("doc-2", ascii (dumpsChars privateArtifact)), ("doc-3", undecodable)]) :
    envelopeOf postgres pageDocument ref false = some (envelope ref payload) := by
  rw [envelopeOf, if_neg (by decide), page_documents, Jsonb.elements]
  simp only [List.mem_cons, Prod.mk.injEq, List.not_mem_nil, or_false] at h
  rcases h with ⟨rfl, rfl⟩ | ⟨rfl, rfl⟩ | ⟨rfl, rfl⟩
  · simp [envelope_ref]
  · simp [envelope_ref]
  · simp [envelope_ref]

def emptyEvidence : AclEvidence := ⟨.unresolvedGroup, .isolated, [], observedAt, observedAt, some 1⟩

def privateEvidence : AclEvidence := ⟨.resolved, ⟨some .private_, []⟩, ["bob"], observedAt, observedAt, some 1⟩

theorem store_applies_empty : Applies store (request "doc-1") page "doc-1" false emptyEvidence := by
  refine ⟨rfl, rfl, store_feishuPage _, pageDocument, _, parses_page, page_envelope _ (ascii (dumpsChars emptyArtifact)) (by simp), ?_⟩
  have hv : artifactEvidence store (id 20) "doc-1" emptyArtifact = .ok .unresolvedGroup := rfl
  obtain ⟨o, ho, hat⟩ := Option.map_eq_some_iff.mp store_facts.1
  have hstale : ¬observedAt ≤ observedAt - MICROS := by decide
  have h := evidence_of_envelope store_organizationId decodes.2.2.1 casts.2.1 hv
  rw [ho, AclEvidence.fresh, if_neg (by simp [hat, hstale])] at h
  exact h

theorem store_applies_private : Applies store (request "doc-2") page "doc-2" false privateEvidence := by
  refine ⟨rfl, rfl, store_feishuPage _, pageDocument, _, parses_page, page_envelope _ (ascii (dumpsChars privateArtifact)) (by simp), ?_⟩
  have href : postgres.text (privateArtifact.get "document_ref") = some "doc-2" := by
    simp only [privateArtifact, Jsonb.get_cons, if_true]
    rfl
  have hv : artifactEvidence store (id 20) "doc-2" privateArtifact = .ok ⟨some .resolved, some .private_, [], ["bob"]⟩ := by
    rw [artifactEvidence, href, private_verified store_facts.2.2.2.1]
    rfl
  have h := evidence_of_envelope store_organizationId decodes.2.2.2 casts.2.2.1 hv
  rw [store_facts.2.1] at h
  exact h

theorem store_apply {ref : String} {e : AclEvidence} (h : Applies store (request ref) page ref false e)
    (hok : (store.applyEvidence (id 20) (id 21) ref false e).toOption.isSome) :
    ∃ row w', applyFeishuAclObservation store (request ref) = .ok (row, w') ∧
      store.applyEvidence (id 20) (id 21) ref false e = .ok (row, w') := by
  have heq := apply_of_applies rfl ⟨rfl, rfl⟩ h
  cases hresult : store.applyEvidence (id 20) (id 21) ref false e with
  | error exit => simp [hresult, Except.toOption] at hok
  | ok result => exact ⟨result.1, result.2, heq.trans hresult, rfl⟩

/-- Keep the first article private. -/
def bulk : BulkRequest :=
  { session := ⟨.control, some organizationId⟩
    organizationId := some organizationId
    resourceRefs := some [some "doc-1"]
    expectedPolicyVersions := some [some 1]
    policyKind := some "private"
    groupRefs := some []
    previewDigest := some graphDigest
    operatorRef := some "operator"
    authorityRef := some "authority"
    requestId := some "request" }

end FeishuInstance

end ContextEngine.Control.ArticlePolicy
