/-
  ContextEngine.Control.ArticlePolicy — who may read an article: the local policy, the access
  observed at its source, and the rows that hold both (`migrations/versions` 0042, 0046, 0050
  and 0051, with `context_control_revoke_resource_access` of 0005).

  The state is what the functions read and write for one Organization. Its tables are keyed
  as the database keys them: observations, policies and resources by `resource_ref` alone,
  whatever their source. Every function takes the Organization's lock or the epoch's row
  first, so a call is one step. One that returns no row, or raises, changes nothing.

  All manifests declare mirrored evidence, so the comparisons of evidence modes hold and are
  left out. Articles are created, sources move and settings change between the calls.
-/

import ContextEngine.Control.FeishuArtifact
import ContextEngine.Machine.Runs
import ContextEngine.Supply.ConnectorPage

namespace ContextEngine.Control

open ContextEngine.Machine ContextEngine.Python ContextEngine.Postgres ContextEngine.Runtime ContextEngine.Supply

namespace ArticlePolicy

/-! ## Rows -/

/-- A policy kind with its groups; NULL isolates. -/
structure Setting where
  policyKind : Option PolicyKind
  groupRefs : List String
  deriving DecidableEq

def Setting.isolated : Setting := ⟨none, []⟩

/-- `_policy_shape`. -/
def Setting.shaped (s : Setting) : Bool :=
  match s.policyKind with
  | some .groups => !s.groupRefs.isEmpty
  | _ => s.groupRefs.isEmpty

inductive SourceKind where
  | file
  | feishuDocs
  deriving DecidableEq

/-- A row of `context_source`; its active version is of its kind. -/
structure SourceRow where
  sourceId : UUID
  kind : SourceKind
  active : Bool
  activeVersionId : Option UUID
  deriving DecidableEq

/-- A row of `context_resource`. -/
structure Resource where
  sourceRef : String
  tombstoned : Bool
  deriving DecidableEq

/-- A row of `article_source_acl_observation`. -/
structure Observation where
  sourceRef : String
  sourceId : Option UUID
  sourceVersionRef : Option UUID
  status : ObservationStatus
  setting : Setting
  observationVersion : Nat
  observedAt : Timestamp
  aclAsOf : Option Timestamp
  declaredLagSeconds : Option Nat
  sourcePolicyEpoch : Option Int
  deriving DecidableEq

inductive Rung where
  | explicitArticle
  | sourceDefault
  | tenantDefault
  | isolation
  deriving DecidableEq

/-- A row of `article_access_policy`. -/
structure Policy where
  policyVersion : Nat
  localSetting : Setting
  effective : Setting
  published : Bool
  resolutionRung : Rung
  sourceObservationStatus : ObservationStatus
  sourceObservationVersion : Option Nat
  sourceVersionRef : Option UUID
  sourceAclAsOf : Option Timestamp
  sourceDeclaredLagSeconds : Option Nat
  sourcePolicyEpoch : Option Int
  fixedAtPolicyEpoch : Nat
  deriving DecidableEq

inductive AccessState where
  | allowed
  | revoked
  deriving DecidableEq

/-- A row of `resource_access_policy` of one resource. -/
structure Grant where
  principalRef : String
  accessVersion : Nat
  state : AccessState
  revokedAt : Option Timestamp
  deriving DecidableEq

/-- A page of a Feishu source, as `context_supply_accept_connector_page` left it: staged by
    a lease whose epoch fits its column, no later than now. -/
structure FeishuPage (server : Server) where
  organizationId : UUID
  sourceId : UUID
  sourceVersionId : UUID
  workerJobId : UUID
  pageRef : String
  payload : List UInt8
  leaseEpoch : Nat
  acceptedAt : Timestamp
  leaseEpoch_le : leaseEpoch ≤ MAX_BIGINT
  staged : (stage server ⟨organizationId, sourceVersionId, workerJobId⟩ pageRef payload (some leaseEpoch) acceptedAt).isSome

/-- A row of `article_access_group_membership`. -/
structure GroupMember where
  groupRef : String
  membershipId : UUID
  membershipVersion : Nat
  deriving DecidableEq

/-- What operators set between the calls. -/
structure Configuration where
  sources : List SourceRow
  ownedGroup : String → Bool
  mapping : UUID → SubjectMapping
  groupMembers : List GroupMember
  /-- `article_explicit_policy_setting`: the source it was written for, and the setting. -/
  explicitSetting : String → Option (String × Setting)
  /-- `source_article_policy_default`, by source. -/
  sourceDefault : String → Option Setting
  tenantDefault : Option Setting

structure Store (server : Server) where
  organizationId : UUID
  clock : Timestamp
  /-- `organization_policy_epoch`; the row is written with the Organization. -/
  policyEpoch : Nat
  configuration : Configuration
  resources : String → Option Resource
  observations : String → Option Observation
  policies : String → Option Policy
  grants : String → List Grant
  pages : List (FeishuPage server)

/-! ## Check constraints -/

/-- `BETWEEN 1 AND` the largest `bigint`. -/
def countsFrom1 (n : Int) : Bool := decide (1 ≤ n ∧ n ≤ (MAX_BIGINT : Int))

/-- `ck_article_source_acl_observation_status`, `_result`, `_version`, `_mirrored_evidence` and
    `_source_epoch`; the source's text is the function's own. -/
def Observation.checks (o : Observation) : Bool :=
  (match o.status with
    | .resolved => o.setting.policyKind.isSome && o.setting.shaped
    | _ => o.setting.policyKind.isNone && o.setting.groupRefs.isEmpty) &&
    countsFrom1 o.observationVersion && o.aclAsOf.all (fun t => decide (t ≤ o.observedAt)) &&
    o.sourcePolicyEpoch.all countsFrom1

/-- `ck_article_access_policy_version`, `_local_shape`, `_effective_shape`, `_fixed_epoch` and
    `_source_epoch`. -/
def Policy.checks (p : Policy) : Bool :=
  countsFrom1 p.policyVersion && p.localSetting.shaped && p.effective.shaped &&
    p.published == p.effective.policyKind.isSome && countsFrom1 p.fixedAtPolicyEpoch && p.sourcePolicyEpoch.all countsFrom1

/-! ## The intersection -/

/-- `array_agg` of the groups that both list. -/
def sharedGroups (a b : List String) : List String := distinctAgg (a.filter (· ∈ b))

/-- The case table that the functions repeat, for a resolved observation. -/
def intersect (localSetting observed : Setting) : Setting :=
  match localSetting.policyKind, observed.policyKind with
  | none, _ => .isolated
  | some .private_, _ => ⟨some .private_, []⟩
  | some _, some .private_ => ⟨some .private_, []⟩
  | some .organization, _ => observed
  | some .groups, some .organization => localSetting
  | some .groups, _ =>
    let shared := sharedGroups localSetting.groupRefs observed.groupRefs
    if shared.isEmpty then .isolated else ⟨some .groups, shared⟩

section Functions

variable {server : Server} (w : Store server)

/-- `session_user` and `app.organization_id`. -/
structure Session where
  user : Role
  organizationId : Option UUID
  deriving DecidableEq

/-- The active source, with an active version, that a resource's `source_ref` names. -/
def Store.activeSource (sourceRef : String) : Option SourceRow :=
  w.configuration.sources.find? fun s => server.uuidText s.sourceId = sourceRef && s.active && s.activeVersionId.isSome

/-! ## First-ingest fixation -/

/-- The local setting of the cascade, with the rung it comes from. -/
def Store.cascade (ref : String) (resource : Resource) : Setting × Rung :=
  let c := w.configuration
  let proposed : Setting × Rung :=
    match (c.explicitSetting ref).filter (·.1 = resource.sourceRef) with
    | some setting => (setting.2, .explicitArticle)
    | none =>
      match (c.sourceDefault resource.sourceRef).filter (·.policyKind.isSome) with
      | some setting => (setting, .sourceDefault)
      | none =>
        match c.tenantDefault.filter (·.policyKind.isSome) with
        | some setting => (setting, .tenantDefault)
        | none => (.isolated, .isolation)
  if proposed.1.policyKind = some .groups ∧ ¬proposed.1.groupRefs.all c.ownedGroup then (.isolated, .isolation) else proposed

/-- The observation that fixation reads: of the article's own source, while that is active. -/
def Store.ownObservation (ref : String) (resource : Resource) : Option Observation :=
  if isUuidText resource.sourceRef ∧ (w.activeSource resource.sourceRef).isNone then none
  else (w.observations ref).filter (·.sourceRef = resource.sourceRef)

/-- The effective setting of a fixation; observed groups have to be the Organization's. -/
def Store.fixedSetting (localSetting : Setting) (observation : Option Observation) : Setting :=
  match observation with
  | some o =>
    if o.status = .resolved ∧ ¬(o.setting.policyKind = some .groups ∧ ¬o.setting.groupRefs.all w.configuration.ownedGroup)
    then intersect localSetting o.setting else .isolated
  | none => .isolated

/-- The row that fixation inserts. -/
def Store.fixedPolicy (ref : String) (resource : Resource) : Policy :=
  let cascade := w.cascade ref resource
  let observation := w.ownObservation ref resource
  let effective := w.fixedSetting cascade.1 observation
  { policyVersion := 1
    localSetting := cascade.1
    effective
    published := effective.policyKind.isSome
    resolutionRung := cascade.2
    sourceObservationStatus := (observation.map (·.status)).getD .missing
    sourceObservationVersion := observation.map (·.observationVersion)
    sourceVersionRef := observation.bind (·.sourceVersionRef)
    sourceAclAsOf := observation.bind (·.aclAsOf)
    sourceDeclaredLagSeconds := observation.bind (·.declaredLagSeconds)
    sourcePolicyEpoch := none
    fixedAtPolicyEpoch := w.policyEpoch }

/-- The tables with one row of `article_access_policy` written. -/
def Store.setPolicy (ref : String) (p : Policy) : Store server := { w with policies := Function.update w.policies ref (some p) }

def Store.setObservation (ref : String) (o : Observation) : Store server :=
  { w with observations := Function.update w.observations ref (some o) }

def Store.setGrants (ref : String) (gs : List Grant) : Store server := { w with grants := Function.update w.grants ref gs }

/-- `context_fix_article_access_policy`; it returns whether it wrote the row. -/
def fixArticleAccessPolicy (session : Session) (organizationId : Option UUID) (ref : String) : Except Exit (Store server) := do
  require (session.user = .worker ∨ session.user = .migrator) .noRow
  require (session.organizationId = organizationId ∧ organizationId = some w.organizationId) .noRow
  let resource ← found (w.resources ref) .noRow
  require (w.policies ref).isNone .noRow
  let p := w.fixedPolicy ref resource
  require p.checks .raised
  .ok (w.setPolicy ref p)

/-! ## The trigger on access rows -/

/-- The observation that the first grant on a File article stands for. -/
def Store.fileObservation (resource : Resource) (source : Option SourceRow) : Observation where
  sourceRef := resource.sourceRef
  sourceId := source.map (·.sourceId)
  sourceVersionRef := source.bind (·.activeVersionId)
  status := .resolved
  setting := ⟨some .private_, []⟩
  observationVersion := 1
  observedAt := w.clock
  aclAsOf := some w.clock
  declaredLagSeconds := some 0
  sourcePolicyEpoch := none

/-- A grant: `ON CONFLICT DO NOTHING`, then fixation, whose refusal is not looked at. -/
def Store.afterGrant (user : Role) (ref : String) (o : Observation) : Except Exit (Store server) :=
  let w' := if (w.observations ref).isSome then w else w.setObservation ref o
  match fixArticleAccessPolicy w' ⟨user, some w.organizationId⟩ (some w.organizationId) ref with
  | .error .noRow => .ok w'
  | result => result

/-- The observation after the last revocation. -/
def Observation.revoked (o : Observation) (now : Timestamp) : Observation :=
  { o with
    status := .failed
    setting := .isolated
    observationVersion := o.observationVersion + 1
    observedAt := now
    aclAsOf := some now
    declaredLagSeconds := some 0 }

/-- The policy after the last revocation, for the epoch that the caller moves to. -/
def Policy.revoked (p : Policy) (now : Timestamp) (epoch : Nat) : Policy :=
  { p with
    policyVersion := p.policyVersion + 1
    effective := .isolated
    published := false
    sourceObservationStatus := .failed
    sourceObservationVersion := some (p.sourceObservationVersion.getD 0 + 1)
    sourceAclAsOf := some now
    sourceDeclaredLagSeconds := some 0
    fixedAtPolicyEpoch := epoch }

/-- The revocation of the last grant unpublishes; an observation at the last version stays. -/
def Store.afterRevocation (ref : String) : Except Exit (Store server) :=
  if (w.grants ref).any (·.state = .allowed) then .ok w
  else
    match w.policies ref with
    | none => .ok w
    | some p =>
      if MAX_BIGINT ≤ p.policyVersion ∨ p.published = false then .ok w
      else do
        require (w.policyEpoch < MAX_BIGINT) .raised
        let w' := match w.observations ref with
          | some o => if o.observationVersion < MAX_BIGINT then w.setObservation ref (o.revoked w.clock) else w
          | none => w
        .ok (w'.setPolicy ref (p.revoked w.clock (w.policyEpoch + 1)))

/-- `article_access_policy_fix_from_file_access_grant`, for one row of the statement. -/
def accessGrantTrigger (user : Role) (ref : String) (old : Option AccessState) (new : AccessState) :
    Except Exit (Store server) :=
  match w.resources ref with
  | none => .ok w
  | some resource =>
    let source := (w.activeSource resource.sourceRef).filter (·.kind = .file)
    if isUuidText resource.sourceRef ∧ source.isNone then .ok w
    else
      let source := if isUuidText resource.sourceRef then source else none
      match new with
      | .allowed => w.afterGrant user ref (w.fileObservation resource source)
      | .revoked => if old = some .allowed then w.afterRevocation ref else .ok w

/-- The grant that a File publication inserts with its article. -/
def insertGrant (user : Role) (ref principalRef : String) : Except Exit (Store server) := do
  require (w.resources ref).isSome .raised
  require (trimsEmpty principalRef = false) .raised
  require ((w.grants ref).all (·.principalRef ≠ principalRef)) .raised
  accessGrantTrigger (w.setGrants ref (w.grants ref ++ [⟨principalRef, 1, .allowed, none⟩])) user ref none .allowed

/-- `context_control_revoke_resource_access`. -/
def revokeResourceAccess (session : Session) (organizationId : Option UUID) (ref principalRef : String)
    (expectedVersion : Nat) : Except Exit (Nat × Store server) := do
  require (session.user = .control ∧ session.organizationId = organizationId ∧ organizationId = some w.organizationId) .raised
  require (w.policyEpoch < MAX_BIGINT) .raised
  let revocable := fun g : Grant => decide (g.principalRef = principalRef ∧ g.state = .allowed ∧
    g.accessVersion = expectedVersion ∧ g.accessVersion < MAX_BIGINT)
  require ((w.grants ref).any revocable) .raised
  let grants := (w.grants ref).map fun g =>
    if revocable g then { g with state := .revoked, accessVersion := g.accessVersion + 1, revokedAt := some w.clock } else g
  let w' ← accessGrantTrigger (w.setGrants ref grants) session.user ref (some .allowed) .revoked
  .ok (w.policyEpoch + 1, { w' with policyEpoch := w.policyEpoch + 1 })

/-! ## Bulk changes -/

structure BulkRequest where
  session : Session
  organizationId : Option UUID
  resourceRefs : Option (List (Option String))
  expectedPolicyVersions : Option (List (Option Nat))
  policyKind : Option String
  groupRefs : Option (List (Option String))
  previewDigest : Option String
  operatorRef : Option String
  authorityRef : Option String
  requestId : Option String
  deriving DecidableEq

/-- Each element is there, is a reference of at most `limit` characters, and is above the one before. -/
def refsAscend (limit : Nat) : List (Option String) → Bool
  | [] => true
  | r :: rest =>
    r.any (fun s => !trimsEmpty s && decide (s.length ≤ limit) && !s.toList.any isSpace && rest.head?.all fun t => t.all (s < ·)) &&
      refsAscend limit rest

/-- `btrim(ref) <> ''` and at most 256 characters. -/
def acceptsAuditRef (ref : Option String) : Bool := ref.any fun s => !trimsEmpty s && decide (s.length ≤ 256)

/-- The opening `IF`: what a request has to be, whatever the tables hold. -/
def BulkRequest.shaped (r : BulkRequest) (refs : List (Option String)) (versions : List (Option Nat))
    (groups : List (Option String)) : Bool :=
  decide (r.session.user = .control) && decide (1 ≤ refs.length ∧ refs.length ≤ 1000) && versions.length == refs.length &&
    refsAscend 512 refs && versions.all (fun v => v.all fun n => decide (1 ≤ n ∧ n < MAX_BIGINT)) &&
    (match r.policyKind.bind PolicyKind.ofText with
      | some .groups => decide (1 ≤ groups.length ∧ groups.length ≤ 1000)
      | some _ => groups.isEmpty
      | none => false) &&
    refsAscend 256 groups && r.previewDigest.all isSha256 && acceptsAuditRef r.operatorRef && acceptsAuditRef r.authorityRef &&
    acceptsAuditRef r.requestId

/-- The row of the count: the expected version, and an observation that leaves room for the
    requested setting. The observation is joined by the resource alone. -/
def bulkAdmits (ref : String) (version : Nat) (requested : Setting) : Bool :=
  (w.policies ref).any (fun p => decide (p.policyVersion = version ∧ p.policyVersion < MAX_BIGINT)) &&
    (w.observations ref).any fun o => decide (o.status = .resolved) &&
      (requested.policyKind == some .private_ || o.setting.policyKind == some .organization ||
        (requested.policyKind == some .groups && o.setting.policyKind == some .groups &&
          requested.groupRefs.all (· ∈ o.setting.groupRefs)))

/-- The row that a bulk change writes. -/
def Policy.changed (p : Policy) (requested : Setting) (epoch : Nat) : Policy :=
  { p with
    policyVersion := p.policyVersion + 1
    localSetting := requested
    effective := requested
    published := true
    resolutionRung := .explicitArticle
    fixedAtPolicyEpoch := epoch }

/-- `context_control_bulk_change_article_policy`; it returns the new epoch. -/
def bulkChangeArticlePolicy (r : BulkRequest) : Except Exit (Nat × Store server) := do
  require (r.session.organizationId = r.organizationId ∧ r.organizationId = some w.organizationId) .raised
  let refs ← found r.resourceRefs .raised
  let versions ← found r.expectedPolicyVersions .raised
  let groups ← found r.groupRefs .raised
  require (r.shaped refs versions groups) .raised
  require (groups.all fun g => g.any w.configuration.ownedGroup) .raised
  -- the audit row's digest is not nullable
  require r.previewDigest.isSome .raised
  require (w.policyEpoch < MAX_BIGINT) .raised
  let requested : Setting := ⟨r.policyKind.bind PolicyKind.ofText, groups.filterMap id⟩
  require ((refs.zip versions).all fun rv => rv.1.any fun ref => rv.2.any fun v => bulkAdmits w ref v requested) .raised
  let policies := fun ref => (w.policies ref).map fun p =>
    if refs.contains (some ref) then p.changed requested (w.policyEpoch + 1) else p
  .ok (w.policyEpoch + 1, { w with policies, policyEpoch := w.policyEpoch + 1 })

/-! ## Feishu observations -/

structure ApplyRequest where
  session : Session
  organizationId : Option UUID
  sourceVersionId : Option UUID
  workerJobId : Option UUID
  pageRef : Option String
  documentRef : Option String
  deleteObservation : Option Bool
  deriving DecidableEq

/-- What an envelope says once the artifact was verified. -/
structure AclEvidence where
  status : ObservationStatus
  setting : Setting
  principals : List String
  observedAt : Timestamp
  aclAsOf : Timestamp
  policyEpoch : Option Int
  deriving DecidableEq

structure ApplyRow where
  observationVersion : Nat
  policyEpoch : Nat
  published : Bool
  tombstoned : Bool
  deriving DecidableEq

/-- The accepted page of an active Feishu source at its active version. -/
def Store.feishuPage (r : ApplyRequest) : Option (FeishuPage server) :=
  w.pages.find? fun page => decide (page.organizationId = w.organizationId ∧ r.sourceVersionId = some page.sourceVersionId ∧
    r.workerJobId = some page.workerJobId ∧ r.pageRef = some page.pageRef) && w.configuration.sources.any fun s =>
      decide (s.sourceId = page.sourceId ∧ s.kind = .feishuDocs ∧ s.active ∧ s.activeVersionId = some page.sourceVersionId)

/-- The status and setting that an artifact is worth; a NULL status is an unresolved group. -/
def artifactEvidence (sourceId : UUID) (ref : String) (artifact : Jsonb) : Except Exit Verified :=
  if server.text (artifact.get "document_ref") ≠ some ref then .ok .unresolvedGroup
  else
    match verifyAclArtifact server (w.configuration.mapping sourceId) w.configuration.ownedGroup artifact with
    | .error .noRow => .ok .unresolvedGroup
    | .error .raised => .error .raised
    | .ok v => .ok (if v.status.isNone then .unresolvedGroup else v)

/-- Evidence that is not newer than what was observed fails closed. -/
def AclEvidence.fresh (e : AclEvidence) (prior : Option Observation) (now : Timestamp) : AclEvidence :=
  if prior.any (fun o => decide (e.observedAt ≤ o.observedAt)) then
    { e with status := .failed, setting := .isolated, principals := [], observedAt := now }
  else e

/-- The evidence of an envelope's access observation; acceptance saw its time and its epoch. -/
def evidenceOf (sourceId : UUID) (ref : String) (acl : Option Jsonb) : Except Exit AclEvidence := do
  require (evidenceClass (server.text (acl.bind (·.get "evidence_class"))) = some .mirrored) .noRow
  require (names server acl "organization_id" w.organizationId) .noRow
  require (Jsonb.isA .string (acl.bind (·.get "evidence_payload"))) .noRow
  let observedAt ← found ((server.text (acl.bind (·.get "observed_at"))).bind server.timestamptz) .noRow
  let policyEpoch ← found ((server.text (acl.bind (·.get "policy_epoch"))).bind server.bigint) .noRow
  let payload ← found ((server.text (acl.bind (·.get "evidence_payload"))).bind server.decodeBase64) .noRow
  let artifact ← handled (server.castJsonb payload)
  let v ← artifactEvidence w sourceId ref artifact
  .ok (AclEvidence.fresh ⟨v.status.getD .unresolvedGroup, ⟨v.policyKind, v.groups⟩, v.principals, observedAt, observedAt,
    some policyEpoch⟩ (w.observations ref) w.clock)

/-- Revoke what the condition selects, up to the last version. -/
def revokeWhere (now : Timestamp) (condition : Grant → Bool) (gs : List Grant) : List Grant :=
  gs.map fun g =>
    if condition g && decide (g.state = .allowed ∧ g.accessVersion < MAX_BIGINT) then
      { g with state := .revoked, accessVersion := g.accessVersion + 1, revokedAt := some now }
    else g

/-- `INSERT … ON CONFLICT DO UPDATE`: allow the principals, up to the last version. -/
def allowAll (principals : List String) (gs : List Grant) : List Grant :=
  (gs.map fun g =>
    if decide (g.principalRef ∈ principals ∧ g.state = .revoked ∧ g.accessVersion < MAX_BIGINT) then
      { g with state := .allowed, accessVersion := g.accessVersion + 1, revokedAt := none }
    else g) ++
    (principals.filter fun p => gs.all (·.principalRef ≠ p)).map fun p => ⟨p, 1, .allowed, none⟩

/-- The grants after an observation of an article with a policy. The trigger on these rows
    returns at once: the article's source is no File source. -/
def AclEvidence.grants (e : AclEvidence) (now : Timestamp) (gs : List Grant) : List Grant :=
  if e.status = .resolved ∧ e.setting.policyKind = some .private_ then
    revokeWhere now (fun g => decide (g.principalRef ∉ e.principals)) (allowAll e.principals gs)
  -- a NULL kind is not different from 'private'
  else if e.status ≠ .resolved ∨ e.setting.policyKind.isSome then revokeWhere now (fun _ => true) gs
  else gs

/-- The observation's row. -/
def AclEvidence.observation (e : AclEvidence) (sourceRef : String) (sourceId versionId : UUID) (version : Nat)
    (delete : Bool) : Observation where
  sourceRef
  sourceId := some sourceId
  sourceVersionRef := some versionId
  status := if delete then .failed else e.status
  setting := if delete then .isolated else e.setting
  observationVersion := version
  observedAt := e.observedAt
  aclAsOf := some e.aclAsOf
  declaredLagSeconds := some 0
  sourcePolicyEpoch := e.policyEpoch

/-- The policy's row after an observation. -/
def Policy.observed (p : Policy) (e : AclEvidence) (versionId : UUID) (version epoch : Nat) : Policy :=
  let effective := if e.status = .resolved then intersect p.localSetting e.setting else .isolated
  { p with
    policyVersion := p.policyVersion + 1
    effective
    published := effective.policyKind.isSome
    sourceObservationStatus := e.status
    sourceObservationVersion := some version
    sourceVersionRef := some versionId
    sourceAclAsOf := some e.aclAsOf
    sourceDeclaredLagSeconds := some 0
    sourcePolicyEpoch := e.policyEpoch
    fixedAtPolicyEpoch := epoch }

/-- The article of the source itself, and its policy. -/
def Store.ownArticle (sourceId : UUID) (ref : String) : Option Resource :=
  (w.resources ref).filter (·.sourceRef = server.uuidText sourceId)

/-- The writes on the article's rows: a deletion tombstones it, anything else is observed. -/
def Store.settle (sourceId versionId : UUID) (ref : String) (delete : Bool) (e : AclEvidence) (version : Nat) :
    Except Exit (Bool × Store server) :=
  match w.ownArticle sourceId ref with
  | none => .ok (false, w)
  | some resource =>
    if delete then .ok (false, { w with resources := Function.update w.resources ref (some { resource with tombstoned := true }) })
    else
      match w.policies ref with
      | none => .ok (false, w)
      | some p => do
        require (p.policyVersion < MAX_BIGINT) .raised
        let p' := p.observed e versionId version (w.policyEpoch + 1)
        require p'.checks .raised
        let grants := e.grants w.clock (w.grants ref)
        require (grants.all fun g => trimsEmpty g.principalRef = false) .raised
        .ok (p'.published, (w.setGrants ref grants).setPolicy ref p')

/-- The writes of an application, in one transaction. -/
def Store.applyEvidence (sourceId versionId : UUID) (ref : String) (delete : Bool) (e : AclEvidence) :
    Except Exit (ApplyRow × Store server) := do
  let version := ((w.observations ref).map (·.observationVersion)).getD 0 + 1
  -- past the last version the addition overflows
  require (version ≤ MAX_BIGINT) .raised
  require (w.policyEpoch < MAX_BIGINT) .noRow
  let o := e.observation (server.uuidText sourceId) sourceId versionId version delete
  require o.checks .raised
  let settled ← w.settle sourceId versionId ref delete e version
  let w' := settled.2.setObservation ref o
  .ok (⟨version, w.policyEpoch + 1, settled.1, delete && (w.ownArticle sourceId ref).isSome⟩,
    { w' with policyEpoch := w.policyEpoch + 1 })

/-- The page's envelope for a document. -/
def envelopeOf (server : Server) (payload : Jsonb) (ref : String) (delete : Bool) : Option Jsonb :=
  (Jsonb.elements (payload.get (if delete then "deleted_document_refs" else "documents"))).find? fun e =>
    server.text (e.get "document_ref") = some ref

/-- `context_control_apply_feishu_acl_observation`. -/
def applyFeishuAclObservation (r : ApplyRequest) : Except Exit (ApplyRow × Store server) := do
  require (r.session.user = .control) .noRow
  require (r.session.organizationId = r.organizationId ∧ r.organizationId = some w.organizationId) .noRow
  let ref ← found r.documentRef .noRow
  let delete ← found r.deleteObservation .noRow
  let page ← found (w.feishuPage r) .noRow
  let payload ← found (server.parseJsonb page.payload) .raised
  let envelope ← found (envelopeOf server payload ref delete) .noRow
  let e ← evidenceOf w page.sourceId ref (envelope.get "acl_observation")
  w.applyEvidence page.sourceId page.sourceVersionId ref delete e

/-! ## Row security -/

/-- A user of the runtime: `app.principal_ref` and the membership that it acts by. -/
structure Actor where
  principalRef : String
  membershipId : UUID
  membershipVersion : Nat
  deriving DecidableEq

def Store.inGroup (groupRef : String) (actor : Actor) : Bool :=
  w.configuration.groupMembers.any fun m =>
    decide (m.groupRef = groupRef ∧ m.membershipId = actor.membershipId ∧ m.membershipVersion = actor.membershipVersion)

def Store.inSomeGroup (groupRefs : List String) (actor : Actor) : Bool := groupRefs.any (w.inGroup · actor)

def Store.holdsGrant (ref : String) (actor : Actor) : Bool :=
  (w.grants ref).any fun g => decide (g.principalRef = actor.principalRef ∧ g.state = .allowed)

/-- What `article_access_policy_current_user_actor` asks of a current actor beyond the
    article's source version. -/
def Store.admits (ref : String) (setting : Setting) (actor : Actor) : Bool :=
  match setting.policyKind with
  | none => false
  | some .organization => true
  | some .private_ => w.holdsGrant ref actor
  | some .groups => w.inSomeGroup setting.groupRefs actor

/-- A published row is read by whom its effective setting admits. -/
def Store.reads (ref : String) (p : Policy) (actor : Actor) : Bool := p.published && w.admits ref p.effective actor

/-- Whom an observed setting admits: a private one, the verified principals and nobody else. -/
def Store.sourceAdmits (ref : String) (e : AclEvidence) (actor : Actor) : Bool :=
  match e.setting.policyKind with
  | some .private_ => decide (actor.principalRef ∈ e.principals)
  | _ => w.admits ref e.setting actor

/-! ## Steps -/

inductive Call (server : Server) where
  | createResource (ref sourceRef : String)
  | fixArticleAccessPolicy (session : Session) (organizationId : Option UUID) (ref : String)
  | insertGrant (user : Role) (ref principalRef : String)
  | revokeResourceAccess (session : Session) (organizationId : Option UUID) (ref principalRef : String) (expectedVersion : Nat)
  | bulkChangeArticlePolicy (r : BulkRequest)
  | applyFeishuAclObservation (r : ApplyRequest)
  | tombstone (ref : String)
  | acceptPage (page : FeishuPage server)
  | configure (configuration : Configuration)
  | advanceEpoch (by' : Nat)
  | advanceClock (micros : Nat)

/-- The state that a call leaves. -/
def settled {α : Type} (result : Except Exit (α × Store server)) : Store server :=
  match result with
  | .ok (_, w') => w'
  | .error _ => w

def step : Call server → Store server × Unit
  | .createResource ref sourceRef =>
    (if (w.resources ref).isSome then w else { w with resources := Function.update w.resources ref (some ⟨sourceRef, false⟩) }, ())
  | .fixArticleAccessPolicy session organizationId ref =>
    (settled w ((fixArticleAccessPolicy w session organizationId ref).map ((), ·)), ())
  | .insertGrant user ref principalRef => (settled w ((insertGrant w user ref principalRef).map ((), ·)), ())
  | .revokeResourceAccess session organizationId ref principalRef expectedVersion =>
    (settled w (revokeResourceAccess w session organizationId ref principalRef expectedVersion), ())
  | .bulkChangeArticlePolicy r => (settled w (bulkChangeArticlePolicy w r), ())
  | .applyFeishuAclObservation r => (settled w (applyFeishuAclObservation w r), ())
  | .tombstone ref =>
    ({ w with resources := Function.update w.resources ref ((w.resources ref).map fun r => { r with tombstoned := true }) }, ())
  | .acceptPage page => ({ w with pages := page :: w.pages }, ())
  | .configure configuration => ({ w with configuration }, ())
  | .advanceEpoch by' => ({ w with policyEpoch := w.policyEpoch + by' }, ())
  | .advanceClock micros => ({ w with clock := w.clock + micros }, ())

end Functions

/-- A new Organization: no article, no page. -/
structure Store.Fresh {server : Server} (w : Store server) : Prop where
  resources : ∀ ref, w.resources ref = none
  observations : ∀ ref, w.observations ref = none
  policies : ∀ ref, w.policies ref = none
  grants : ∀ ref, w.grants ref = []

/-! ## The oracle -/

/-- `ArticleAccessPolicySetting` of `engine/article_access_policy.py`: a GROUPS setting, and no
    other, lists groups. -/
structure ArticleAccessPolicySetting where
  kind : PolicyKind
  groupRefs : Finset String
  shape : kind = .groups ↔ groupRefs.Nonempty

/-- `_intersect_policy_settings`. -/
def intersectPolicySettings (localSetting source : ArticleAccessPolicySetting) : Option ArticleAccessPolicySetting :=
  if localSetting.kind = .private_ then some localSetting
  else if source.kind = .private_ then some source
  else if localSetting.kind = .organization then some source
  else if source.kind = .organization then some localSetting
  else if h : (localSetting.groupRefs ∩ source.groupRefs).Nonempty then
    some ⟨.groups, localSetting.groupRefs ∩ source.groupRefs, by simp [h]⟩
  else none

/-- The members whom a setting admits, for a fixed set of private readers. -/
def ArticleAccessPolicySetting.readers {α : Type} (privateReaders : Set α) (inGroup : String → α → Prop)
    (s : ArticleAccessPolicySetting) : Set α :=
  match s.kind with
  | .private_ => privateReaders
  | .organization => Set.univ
  | .groups => { a | ∃ g ∈ s.groupRefs, inGroup g a }

end ArticlePolicy

end ContextEngine.Control
