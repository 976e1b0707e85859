/-
  ContextEngine.Runtime.Materialized — the same-transaction Fragment projection seam
  (`engine/runtime/materialized.py`).

  The port behind a session is untrusted code. Its operations run in a monad `m`, so that
  one model serves a port that answers from a fixed table and one whose answers change
  from call to call; what the seam checks about an answer is the same for both.
-/

import ContextEngine.Runtime.Scope

namespace ContextEngine.Runtime

open ContextEngine.Python Checks

/-! ## What the port returns -/

/-- Authoritative active lineage without any Fragment body fields. -/
structure MaterializedFragmentLocator where
  organizationId : UUID
  sourceRef : String
  resourceRef : String
  revisionRef : String
  fragmentRef : String
  sourceAclProjectionRef : String
  sourceAclAsOf : Instant
  sourceAclFreshnessProfileRef : String
  deriving DecidableEq

inductive MaterializedProjectionKind where
  | legacyBody
  | structuredFields
  deriving DecidableEq

structure MaterializedFieldValue where
  fieldRef : String
  fieldValue : Str
  ordinal : Int
  deriving DecidableEq

/-- Fields already reduced by one trusted Membership projection ceiling. -/
structure MaterializedFragmentProjection where
  kind : MaterializedProjectionKind
  fields : List MaterializedFieldValue
  projectionCeiling : List String
  deriving DecidableEq

/-- One content-free graph candidate retaining its authorized root. -/
structure MaterializedOneHopCandidate where
  anchorRef : CandidateRef
  candidateRef : CandidateRef
  deriving DecidableEq

namespace MaterializedFragmentProjection

def projectedFieldRefs (p : MaterializedFragmentProjection) : List String := p.fields.map (·.fieldRef)

/-- `MaterializedFragmentProjection.__post_init__`. -/
def postInit (p : MaterializedFragmentProjection) : Except Raised Unit := do
  ensure (!p.fields.isEmpty) "materialized projection requires authorized fields"
  ensure (!p.projectionCeiling.isEmpty) "materialized projection ceiling must be nonempty"
  ensure (p.projectionCeiling.all isFieldRef) "materialized field_ref must be a bounded lowercase identifier"
  match validateProjectedFieldRefs p.projectedFieldRefs with
  | .ok _ => pure ()
  | .error _ =>
    .error (.valueError "materialized projected field refs must be unique, valid, and contain at most 64 items")
  ensure (p.fields.map (·.ordinal) == (List.range p.fields.length).map Int.ofNat)
    "materialized fields require canonical ordinal order"
  ensure (p.projectedFieldRefs.all (p.projectionCeiling.contains ·))
    "materialized projection returned a field outside its trusted ceiling"
  ensure (p.kind != .legacyBody || p.projectedFieldRefs == ["body"])
    "legacy body projection requires only the body field"
  ensure (p.kind != .structuredFields || !p.projectedFieldRefs.contains "body")
    "structured projection cannot contain the legacy body"

def structuredFieldLineBreaks : List Nat := [0x0a, 0x0d, 0x0b, 0x0c, 0x1c, 0x1d, 0x1e, 0x85, 0x2028, 0x2029]

/-- Four lowercase hexadecimal digits. -/
def hex4 (n : Nat) : Str :=
  [hexDigit (n / 4096 % 16), hexDigit (n / 256 % 16), hexDigit (n / 16 % 16), hexDigit (n % 16)].map Str.ofChar

/-- One character of `_encode_structured_field_value`. -/
def encodeChar (c : CodePoint) : Str :=
  if c = 0x5c then [0x5c, 0x5c]
  else if c = 0x3d then [0x5c, 0x3d]
  else if structuredFieldLineBreaks.contains c.val then 0x5c :: 0x75 :: hex4 c.val
  else [c]

/-- `_encode_structured_field_value`. -/
def encodeStructuredFieldValue (value : Str) : Str := value.flatMap encodeChar

def renderedBody (p : MaterializedFragmentProjection) : Str :=
  match p.kind, p.fields with
  | .legacyBody, f :: _ => f.fieldValue
  -- A validated projection has a field; the source would raise IndexError here.
  | .legacyBody, [] => []
  | .structuredFields, fs =>
    [0x0a].intercalate (fs.map fun f => Str.ofString f.fieldRef ++ 0x3d :: encodeStructuredFieldValue f.fieldValue)

end MaterializedFragmentProjection

/-! ## The session -/

/-- The port's operations; a port need not offer the graph hop. -/
structure MaterializedProjectionPort (m : Type → Type) where
  locate : CandidateRef → m (Option MaterializedFragmentLocator)
  project : MaterializedFragmentLocator → m (Option MaterializedFragmentProjection)
  discoverOneHop : Option (List CandidateRef → Int → Int → m (List MaterializedOneHopCandidate))

structure MaterializedProjectionSession (m : Type → Type) where
  active : Bool
  port : MaterializedProjectionPort m

section Seam

variable {m : Type → Type} [Monad m] [MonadLiftT (Except Raised) m]

/-- `_require_active_materialized_projection_session`. -/
def requireActiveSession (s : MaterializedProjectionSession m) : Except Raised Unit :=
  ensure s.active "materialized projection requires an active materialized projection scope"

/-- `_locate_materialized_fragment`. -/
def locateMaterializedFragment (s : MaterializedProjectionSession m) (c : CandidateRef) :
    m (Option MaterializedFragmentLocator) := do
  requireActiveSession s
  s.port.locate c

/-- `_project_materialized_fragment`; what the port returned is validated again. -/
def projectMaterializedFragment (s : MaterializedProjectionSession m) (l : MaterializedFragmentLocator) :
    m (Option MaterializedFragmentProjection) := do
  requireActiveSession s
  match ← s.port.project l with
  | none => return none
  | some p => do
    p.postInit
    return some p

/-- The checks of `_discover_materialized_one_hop` on what the port discovered. -/
def checkOneHopPage (anchorRefs : List CandidateRef) (limit : Int) (page : List MaterializedOneHopCandidate) :
    Except Raised Unit := do
  ensureType (decide ((page.length : Int) ≤ limit)) "one-hop expansion must return bounded ranked refs"
  ensure (page.all fun i => anchorRefs.contains i.anchorRef) "one-hop expansion roots must be authorized anchors"
  ensure (page.all fun i => !anchorRefs.contains i.candidateRef) "one-hop expansion cannot return an anchor"
  ensure (decide (page.map (·.candidateRef)).Nodup) "one-hop expansion candidates must be unique"

/-- `_discover_materialized_one_hop`. -/
def discoverMaterializedOneHop (lib : Stdlib) (s : MaterializedProjectionSession m)
    (anchors : List AuthorizedProjection) (limit offset : Int) : m (List MaterializedOneHopCandidate) := do
  requireActiveSession s
  ensure (decide (1 ≤ limit ∧ limit ≤ 64)) "one-hop expansion requires a bounded limit"
  ensure (decide (0 ≤ offset)) "one-hop expansion requires a nonnegative offset"
  (anchors.forM (requireActiveAuthorizedProjection lib) : Except Raised Unit)
  if anchors.isEmpty then return []
  match s.port.discoverOneHop with
  | none => return []
  | some discover =>
    let anchorRefs := anchors.map (·.candidateRef)
    let page ← discover anchorRefs limit offset
    checkOneHopPage anchorRefs limit page
    return page

end Seam

/-- What a page that passed the checks looks like. -/
theorem checkOneHopPage_ok {anchorRefs : List CandidateRef} {limit : Int} {page : List MaterializedOneHopCandidate}
    {u : Unit} (h : checkOneHopPage anchorRefs limit page = .ok u) :
    (∀ i ∈ page, i.anchorRef ∈ anchorRefs ∧ i.candidateRef ∉ anchorRefs) ∧ (page.map (·.candidateRef)).Nodup := by
  unfold checkOneHopPage at h
  obtain ⟨_, -, h⟩ := bind_ok h
  obtain ⟨_, hroots, h⟩ := bind_ok h
  obtain ⟨_, hanchor, h⟩ := bind_ok h
  have hroots := ensure_ok hroots
  have hanchor := ensure_ok hanchor
  have hnodup := ensure_ok h
  simp only [List.all_eq_true, List.contains_eq_mem, decide_eq_true_eq, Bool.not_eq_true', decide_eq_false_iff_not]
    at hroots hanchor hnodup
  exact ⟨fun i hi => ⟨hroots i hi, hanchor i hi⟩, hnodup⟩

end ContextEngine.Runtime
