/-
  ContextEngine.Runtime.Ranking — from the index's ranked lists to the Package
  (`engine/runtime/candidate_ranking.py`, `prekernel_fusion.py`, `authorized_ranking.py`,
  and the parts of `construction.py` that `Runtime.resolve` and
  `SealedRuntimeSelector.select_for_delivery` chain together).

  Ranked lists are fused before authorization into evidence without weight. After exact
  authorization the graph hop adds candidates, which are ranked among themselves by
  lexical overlap; then positions are compacted over the admitted candidates alone, the
  ranks are fused with the server's weights, and the order is packed to budget. A `dict`
  keyed by candidates is the list of its items. Scores are floats, of which only the order
  and a few exact values are known.
  Properties: `ContextEngine.Runtime.RankingProofs`.
-/

import ContextEngine.Python.Sorted
import ContextEngine.Runtime.Kernel

namespace ContextEngine.Runtime

open ContextEngine.Python Checks Budget

/-! ## Floats -/

/-- The float operations that ranking uses, on floats that are not NaN. -/
structure Floats (F : Type) [LinearOrder F] where
  /-- `1.0`. -/
  one : F
  /-- `0.5`. -/
  half : F
  /-- `0.0`. -/
  zero : F
  isfinite : F → Bool
  /-- `x > 0.0`. -/
  positive : F → Bool
  add : F → F → F
  /-- `w / n` for a positive int `n`. -/
  div : F → Nat → F
  /-- `sum(xs)`. -/
  sum : List F → F
  /-- `m / n` for ints. -/
  ratio : Nat → Nat → F
  half_lt_ratio : half < ratio 1 1
  sum_half_lt : sum [div one 2] < sum [div one 1]

/-- Exact arithmetic, which floats agree with on small values. -/
def Floats.rationals : Floats ℚ where
  one := 1
  half := 1 / 2
  zero := 0
  isfinite _ := true
  positive x := decide (0 < x)
  add := (· + ·)
  div w n := w / n
  sum := List.sum
  ratio m n := m / n
  half_lt_ratio := by norm_num
  sum_half_lt := by norm_num

/-! ## Ranked candidates -/

def MAX_RANKER_REF_LENGTH : Nat := 64

/-- A bounded lowercase ranker identity (`_require_ranker_ref`). -/
structure RankerRef where
  value : String
  well_formed : isIdentifier MAX_RANKER_REF_LENGTH ['_', '-'] value = true
  deriving DecidableEq

def GRAPH_RANKER_REF : RankerRef := ⟨"graph", by decide⟩

section Contracts

variable (F : Type)

/-- One candidate at a position of one ranker's output. -/
structure RankedCandidate where
  candidateRef : CandidateRef
  score : Option F

structure RankedCandidateList where
  rankerRef : RankerRef
  candidates : List (RankedCandidate F)

/-- The ranked outputs of the candidate index. -/
structure CandidateQuery where
  rankedLists : List (RankedCandidateList F)
  nonempty : rankedLists ≠ []
  unique : (rankedLists.map (·.rankerRef)).Nodup

/-- Position and optional score from one ranker. -/
structure RankerEvidence where
  rankerRef : RankerRef
  position : Nat
  score : Option F
  positive : 0 < position

/-- Retrieval rank facts of one candidate. -/
@[ext] structure CandidateRankEvidence where
  candidateRef : CandidateRef
  perRanker : List (RankerEvidence F)
  fusedRank : Nat
  nonempty : perRanker ≠ []
  unique : (perRanker.map (·.rankerRef)).Nodup
  positive : 0 < fusedRank

structure FusedCandidates where
  candidateRefs : List CandidateRef
  rankEvidence : List (CandidateRankEvidence F)

end Contracts

/-- The rankers of a query, in order. -/
def CandidateQuery.rankers {F : Type} (q : CandidateQuery F) : List RankerRef := q.rankedLists.map (·.rankerRef)

/-- `CandidateRankEvidence(...)`. -/
def candidateRankEvidence {F : Type} (c : CandidateRef) (perRanker : List (RankerEvidence F)) (fusedRank : Nat) :
    Except Raised (CandidateRankEvidence F) :=
  if hn : perRanker = [] then .error (.valueError "candidate rank evidence requires per-ranker evidence")
  else if hu : (perRanker.map (·.rankerRef)).Nodup then
    if hp : 0 < fusedRank then .ok ⟨c, perRanker, fusedRank, hn, hu, hp⟩
    else .error (.valueError "fused rank must be positive")
  else .error (.valueError "candidate rank evidence rankers must be unique")

/-! ## Fusion before authorization -/

section Fusion

variable {F : Type} [LinearOrder F] (fl : Floats F)

/-- The first entry of each candidate in one list, from position `n + 1` on; `seen` is
    `seen_by_ranker`. -/
def firstEntries (rankerRef : RankerRef) (seen : List CandidateRef) :
    Nat → List (RankedCandidate F) → List (CandidateRef × RankerEvidence F)
  | _, [] => []
  | n, r :: rs =>
    if seen.contains r.candidateRef then firstEntries rankerRef seen (n + 1) rs
    else (r.candidateRef, ⟨rankerRef, n + 1, r.score, Nat.succ_pos n⟩) ::
      firstEntries rankerRef (r.candidateRef :: seen) (n + 1) rs

def RankedCandidateList.entries (l : RankedCandidateList F) : List (CandidateRef × RankerEvidence F) :=
  firstEntries l.rankerRef [] 0 l.candidates

/-- What the two loops record, in order. -/
def CandidateQuery.entries (q : CandidateQuery F) : List (CandidateRef × RankerEvidence F) :=
  q.rankedLists.flatMap (·.entries)

/-- `evidence_by_ref[c]`. -/
def evidenceByRef (entries : List (CandidateRef × RankerEvidence F)) (c : CandidateRef) : List (RankerEvidence F) :=
  (entries.filter (·.1 == c)).map (·.2)

/-- `reciprocal_scores[c]`. -/
def reciprocalScore (entries : List (CandidateRef × RankerEvidence F)) (c : CandidateRef) : F :=
  (evidenceByRef entries c).foldl (fun score e => fl.add score (fl.div fl.one e.position)) fl.zero

/-- Higher scores first, then the candidates' own order. -/
def scoreKey (score : CandidateRef → F) (c : CandidateRef) : Fᵒᵈ ×ₗ CandidateRef := toLex (OrderDual.toDual (score c), c)

/-- `fuse_candidate_evidence`. -/
def fuseCandidateEvidence (q : CandidateQuery F) : Except Raised (FusedCandidates F) := do
  let entries := q.entries
  let ordered := sortedBy (scoreKey (reciprocalScore fl entries)) (entries.map (·.1)).dedup
  let rankEvidence ← ordered.zipIdx.mapM fun (c, i) => candidateRankEvidence c (evidenceByRef entries c) (i + 1)
  return ⟨ordered, rankEvidence⟩

end Fusion

/-! ## Ranking after authorization -/

/-- The server's weights, validated when they are configured. -/
structure RankerWeights (F : Type) [LinearOrder F] (fl : Floats F) where
  values : List (String × F)
  nonempty : values ≠ []
  unique : (values.map (·.1)).Nodup
  valid : ∀ v ∈ values, fl.isfinite v.2 = true ∧ fl.positive v.2 = true

/-- Content-bearing relevance input. -/
structure AuthorizedRerankItem (F : Type) where
  projection : AuthorizedProjection
  rankEvidence : Option (CandidateRankEvidence F)
  fusedRank : Nat

def NEUTRAL_FUSED_RANK : Nat := 1

section Ranking

variable {F : Type} [LinearOrder F] (fl : Floats F) (lib : Stdlib) (u : UnicodeData)

/-- `_authorized_ranker_weights`. -/
def authorizedRankerWeights (weights : Option (RankerWeights F fl)) (admitted : List RankerRef) :
    Except Raised (RankerRef → F) :=
  match weights with
  | none => .ok fun _ => fl.one
  | some w => do
    ensure (admitted.all fun r => (w.values.map (·.1)).contains r.value)
      "authorized fusion weights must cover every admitted ranker"
    ensure (w.values.all fun v => fl.isfinite v.2 && fl.positive v.2)
      "authorized fusion weights must be positive finite floats"
    return fun r => (w.values.lookup r.value).getD fl.one

/-- The overlap of the query's words with a body's, as a share of the query's. -/
def relevance (queryTokens : List Str) (body : Str) : F :=
  fl.ratio (queryTokens.filter ((u.words body).contains ·)).length queryTokens.length

/-- `rank_authorized_one_hop`. -/
def rankAuthorizedOneHop (queryText : String) (projections : List AuthorizedProjection) :
    Except Raised (List (CandidateRankEvidence F)) := do
  ensure (!blank queryText) "authorized graph ranking requires a nonblank query"
  let queryTokens := (u.words (.ofString queryText)).dedup
  if queryTokens.isEmpty then return []
  projections.forM (requireActiveAuthorizedProjection lib)
  let scored := (projections.map fun p => (p, relevance fl u queryTokens p.projectedBody)).filter
    fun s => decide (fl.half < s.2)
  let ordered := sortedBy
    (fun s => (toLex (OrderDual.toDual s.2, s.1.candidateRef) : Fᵒᵈ ×ₗ CandidateRef)) scored
  return ordered.zipIdx.map fun (s, i) => ⟨s.1.candidateRef,
    [⟨GRAPH_RANKER_REF, i + 1, some s.2, Nat.succ_pos i⟩], i + 1, by simp, by simp, Nat.succ_pos i⟩

/-- `by_ranker[r]`. -/
def byRanker (admitted : List (CandidateRankEvidence F)) (r : RankerRef) : List (CandidateRef × Nat) :=
  admitted.flatMap fun e => (e.perRanker.filter (·.rankerRef == r)).map fun x => (e.candidateRef, x.position)

/-- The candidates of one ranker in the order of their compacted positions. -/
def compacted (admitted : List (CandidateRankEvidence F)) (r : RankerRef) : List CandidateRef :=
  (sortedBy (fun v => (toLex (v.2, v.1) : Nat ×ₗ CandidateRef)) (byRanker admitted r)).map (·.1)

/-- `compacted_positions[(c, r)]`. -/
def compactedPosition (admitted : List (CandidateRankEvidence F)) (r : RankerRef) (c : CandidateRef) : Nat :=
  (compacted admitted r).idxOf c + 1

/-- `admitted_evidence.get(c)`. -/
def evidenceOf (admitted : List (CandidateRankEvidence F)) (c : CandidateRef) : Option (CandidateRankEvidence F) :=
  admitted.find? (·.candidateRef == c)

/-- `fused_scores[c]`. -/
def fusedScore (admitted : List (CandidateRankEvidence F)) (weights : RankerRef → F) (c : CandidateRef) : F :=
  fl.sum (((evidenceOf admitted c).elim [] (·.perRanker)).map fun x =>
    fl.div (weights x.rankerRef) (compactedPosition admitted x.rankerRef c))

/-- `ranked_refs`. -/
def rankedRefs (admitted : List (CandidateRankEvidence F)) (weights : RankerRef → F) : List CandidateRef :=
  sortedBy (scoreKey (fusedScore fl admitted weights)) (admitted.map (·.candidateRef))

/-- `authorized_rank[c]`: the odd ranks, in order. -/
def authorizedRank (ranked : List CandidateRef) (c : CandidateRef) : Nat := 2 * (ranked.idxOf c + 1) - 1

/-- The even rank in the middle of the odd ones, for candidates that no ranker ranked. -/
def neutralRank (ranked : List CandidateRef) : Nat :=
  let ranks := (List.range ranked.length).map fun i => 2 * (i + 1) - 1
  if ranks.isEmpty then NEUTRAL_FUSED_RANK else (ranks.min?.getD 0 + ranks.max?.getD 0) / 2

/-- Evidence with its positions compacted and its rank among the admitted. -/
def normalizedEvidence (admitted : List (CandidateRankEvidence F)) (ranked : List CandidateRef)
    (e : CandidateRankEvidence F) : CandidateRankEvidence F where
  candidateRef := e.candidateRef
  perRanker := e.perRanker.map fun x =>
    ⟨x.rankerRef, compactedPosition admitted x.rankerRef e.candidateRef, x.score, Nat.succ_pos _⟩
  fusedRank := authorizedRank ranked e.candidateRef
  nonempty := by simpa using e.nonempty
  unique := by simpa [Function.comp_def] using e.unique
  positive := by unfold authorizedRank; omega

/-- `AuthorizedRerankItem(projection, rank_evidence)`. -/
def authorizedRerankItem (p : AuthorizedProjection) (e : Option (CandidateRankEvidence F)) :
    Except Raised (AuthorizedRerankItem F) := do
  requireActiveAuthorizedProjection lib p
  ensure (e.all (·.candidateRef == p.candidateRef)) "rerank evidence must match the exact CandidateRef"
  return ⟨p, e, e.elim NEUTRAL_FUSED_RANK (·.fusedRank)⟩

/-- `join_authorized_ranking`. -/
def joinAuthorizedRanking (projections : List AuthorizedProjection) (rankEvidence : List (CandidateRankEvidence F))
    (rankerWeights : Option (RankerWeights F fl)) : Except Raised (List (AuthorizedRerankItem F)) := do
  ensure (decide (rankEvidence.map (·.candidateRef)).Nodup) "rank evidence requires unique exact CandidateRef values"
  let admittedRefs := projections.map (·.candidateRef)
  let admitted := rankEvidence.filter fun e => admittedRefs.contains e.candidateRef
  let weights ← authorizedRankerWeights fl rankerWeights (admitted.flatMap fun e => e.perRanker.map (·.rankerRef))
  let ranked := rankedRefs fl admitted weights
  let joined ← projections.mapM fun p => do
    let e := (evidenceOf admitted p.candidateRef).map (normalizedEvidence admitted ranked)
    let item ← authorizedRerankItem lib p e
    let fusedRank := if ranked.contains p.candidateRef then authorizedRank ranked p.candidateRef else neutralRank ranked
    return { item with fusedRank := fusedRank }
  return sortedBy (fun i => (toLex (i.fusedRank, i.projection.candidateRef) : Nat ×ₗ CandidateRef)) joined

/-- `select_authorized_ranking`, with `consumed` tokens packed so far. -/
def packToBudget (maxTokens : Nat) : Nat → List (AuthorizedRerankItem F) → Except Raised (List (AuthorizedRerankItem F))
  | _, [] => .ok []
  | consumed, i :: is => do
    let tokens ← bodyTokens i.projection.projectedBody
    if maxTokens < consumed + tokens then packToBudget maxTokens consumed is
    else
      let rest ← packToBudget maxTokens (consumed + tokens) is
      return i :: rest

def selectAuthorizedRanking (joined : List (AuthorizedRerankItem F)) (budget : PackageBudget) :
    Except Raised (List (AuthorizedRerankItem F)) := packToBudget budget.maxTokens 0 joined

/-- `SealedRuntimeSelector.select_for_delivery`. -/
def selectForDelivery (d : AuthorizationDecision) (rankEvidence : List (CandidateRankEvidence F))
    (rankerWeights : Option (RankerWeights F fl)) : Except Raised PackageContent := do
  let rankedRefs := rankEvidence.map (·.candidateRef)
  let eligible := d.projections.filter fun p =>
    decide (p.candidateRef ∉ d.expandedCandidateRefs) || rankedRefs.contains p.candidateRef
  let joined ← joinAuthorizedRanking fl lib eligible rankEvidence rankerWeights
  let selected ← selectAuthorizedRanking joined d.effectiveBudget
  constructPackageContent lib (selected.map (·.projection))

/-! ## The acquire path of `Runtime.resolve` -/

/-- Server-side bounds of one Runtime. -/
structure ResolveLimits where
  candidateSubmissionLimit : Nat
  oneHopScannedPageLimit : Nat
  submission_range : 1 ≤ candidateSubmissionLimit ∧ candidateSubmissionLimit ≤ 512

def ResolveLimits.graphLimit (limits : ResolveLimits) : Nat := min 64 limits.candidateSubmissionLimit

/-- One acquisition, up to what its index nominates. -/
structure Acquisition (m : Type → Type) where
  invocation : AuthenticatedInvocation
  preparation : PreparedAcquireAuthorization
  session : MaterializedProjectionSession m
  queryText : String
  limits : ResolveLimits

variable {m : Type → Type} [Monad m] [MonadLiftT (Except Raised) m] (a : Acquisition m)

/-- The graph loop: `pages` more pages may be scanned, from `offset` on. -/
def oneHopLoop (main : List AuthorizedProjection) (mainRefs : List CandidateRef) :
    Nat → Nat → AuthorizationDecision → m AuthorizationDecision
  | 0, _, d => pure d
  | pages + 1, offset, d => do
    if a.limits.graphLimit ≤ d.expandedCandidateRefs.card then return d
    let pageLimit := a.limits.graphLimit - d.expandedCandidateRefs.card
    let page ← discoverMaterializedOneHop lib a.session main pageLimit offset
    if page.isEmpty then return d
    let oneHop := page.filter fun i => !mainRefs.contains i.candidateRef
    let d ← if oneHop.isEmpty then pure d
      else authorizeOneHop lib a.invocation a.preparation d a.session oneHop
    if page.length < pageLimit then return d
    oneHopLoop main mainRefs pages (offset + page.length) d

/-- The decision after the graph loop, and the evidence of what it added. -/
def expandOneHop (candidateRefs : List CandidateRef) (d : AuthorizationDecision) :
    m (AuthorizationDecision × List (CandidateRankEvidence F)) := do
  if d.projections.isEmpty then return (d, [])
  let d ← oneHopLoop lib a d.projections candidateRefs a.limits.oneHopScannedPageLimit 0 d
  if d.expandedCandidateRefs = ∅ then return (d, [])
  let graphEvidence ← rankAuthorizedOneHop fl lib u a.queryText
    (d.projections.filter fun p => decide (p.candidateRef ∈ d.expandedCandidateRefs))
  return (d, graphEvidence)

/-- What `Runtime.resolve` makes of the index's answer `q`. -/
def resolveContent (rankerWeights : Option (RankerWeights F fl)) (q : CandidateQuery F) : m PackageContent := do
  let fused ← fuseCandidateEvidence fl q
  let candidateRefs := fused.candidateRefs.insertionSort (· ≤ ·)
  let d ← authorizeAcquire lib a.invocation a.preparation candidateRefs (some a.session)
  let (d, graphEvidence) ← expandOneHop fl lib u a candidateRefs d
  selectForDelivery fl lib d (fused.rankEvidence ++ graphEvidence) rankerWeights

end Ranking

end ContextEngine.Runtime
