/-
  ContextEngine.Learning.Judges — the layered quality judges (`engine/learning/judges.py`):
  retrieval, citations, answers, and the floors of a slice.

  Scores are exact fractions. The Wilson interval, which takes a square root, is a parameter.
  A judge is one function on a case, and a report that depends on the cases' results alone.
-/

import ContextEngine.Learning.Thresholds
import ContextEngine.Python.Dict

namespace ContextEngine.Learning

open ContextEngine.Python
open Thresholds (CountThreshold ScoreThreshold Layer SliceName LayerSliceThreshold hasMargin)

namespace Judges

/-- What a report refuses with: `EvaluationRunUnavailable`, or `ValueError`. -/
inductive Refused where
  | unavailable (message : String)
  | valueError (message : String)
  deriving DecidableEq

/-- `if not condition: raise ValueError(message)`. -/
def require (condition : Bool) (message : String) : Except Refused Unit :=
  if condition then .ok () else .error (.valueError message)

/-- `_case_ref`. -/
def checkCaseRef (s : Str) : Except Refused Unit :=
  require (!Str.blank s && !hasMargin s && decide (s.length ≤ 128)) "judge case_ref must be bounded nonblank text"

/-- `_refs`. -/
def checkRefs (name : String) (refs : Finset Str) : Except Refused Unit :=
  require (decide (∀ r ∈ refs, (!Str.blank r && !hasMargin r) = true)) (name ++ " must contain nonblank references")

/-- `sum(scores) / len(scores)`. -/
def mean (scores : List ℚ) : ℚ := scores.sum / scores.length

/-! ## Retrieval -/

structure RetrievalCaseInput where
  caseRef : Str
  expectedEvidence : Finset Str
  observedEvidence : Finset Str

/-- `RetrievalCaseInput.__post_init__`. -/
def RetrievalCaseInput.check (i : RetrievalCaseInput) : Except Refused Unit := do
  checkCaseRef i.caseRef
  checkRefs "expected_evidence" i.expectedEvidence
  checkRefs "observed_evidence" i.observedEvidence

structure RetrievalCaseResult where
  caseRef : Str
  expectedCount : Nat
  hitCount : Nat
  caseHit : Bool
  evidenceRecall : ℚ

/-- The body of the loop of `judge_retrieval`. -/
def RetrievalCaseInput.result (i : RetrievalCaseInput) : RetrievalCaseResult :=
  let expectedCount := i.expectedEvidence.card
  let hitCount := (i.expectedEvidence ∩ i.observedEvidence).card
  if expectedCount = 0 then
    let caseHit : Bool := decide (i.observedEvidence = ∅)
    ⟨i.caseRef, expectedCount, hitCount, caseHit, if caseHit then 1 else 0⟩
  else ⟨i.caseRef, expectedCount, hitCount, hitCount == expectedCount, hitCount / expectedCount⟩

structure RetrievalReport where
  caseHit : ℚ
  macroEvidenceRecall : ℚ
  microEvidenceRecall : ℚ
  hitCases : Nat
  totalCases : Nat
  evidenceHits : Nat
  totalExpectedEvidence : Nat
  cases : List RetrievalCaseResult

def retrievalReport (results : List RetrievalCaseResult) : RetrievalReport :=
  let ordered := sortedBy (·.caseRef) results
  let hitCases : Nat := ordered.countP (·.caseHit)
  let evidenceHits : Nat := (ordered.map (·.hitCount)).sum
  let expected : Nat := (ordered.map (·.expectedCount)).sum
  let macroRecall := mean (ordered.map (·.evidenceRecall))
  { caseHit := hitCases / ordered.length
    macroEvidenceRecall := macroRecall
    microEvidenceRecall := if expected = 0 then macroRecall else evidenceHits / expected
    hitCases := hitCases
    totalCases := ordered.length
    evidenceHits := evidenceHits
    totalExpectedEvidence := expected
    cases := ordered }

/-- `judge_retrieval`. -/
def judgeRetrieval (cases : List RetrievalCaseInput) : Except Refused RetrievalReport := do
  require (!cases.isEmpty) "retrieval judge requires a nonempty tuple"
  return retrievalReport (cases.map (·.result))

/-! ## Citations -/

structure CitationClaim where
  claimRef : Str
  citedEvidence : Finset Str

/-- `CitationClaim.__post_init__`. -/
def CitationClaim.check (c : CitationClaim) : Except Refused Unit := do
  checkCaseRef c.claimRef
  checkRefs "cited_evidence" c.citedEvidence
  require (decide (c.citedEvidence ≠ ∅)) "citation claim requires cited Evidence"

structure CitationCaseInput where
  caseRef : Str
  requiredClaimRefs : Finset Str
  claims : List CitationClaim
  expectedEvidenceByClaim : List (Str × Finset Str)
  resolvableEvidence : Finset Str

/-- `CitationCaseInput.__post_init__`. -/
def CitationCaseInput.check (i : CitationCaseInput) : Except Refused Unit := do
  checkCaseRef i.caseRef
  checkRefs "required_claim_refs" i.requiredClaimRefs
  require (decide (i.claims.map (·.claimRef)).Nodup) "citation claim_ref values must be unique"
  for item in i.expectedEvidenceByClaim do
    checkCaseRef item.1
    checkRefs "expected claim Evidence" item.2
    require (decide (item.2 ≠ ∅)) "expected claim Evidence must be nonempty"
  require (decide ((i.expectedEvidenceByClaim.map Prod.fst).toFinset = i.requiredClaimRefs))
    "expected evidence mapping must cover required claims"
  checkRefs "resolvable_evidence" i.resolvableEvidence

structure CitationCaseResult where
  caseRef : Str
  lineageResolvability : ℚ
  claimSupport : ℚ
  completeness : ℚ

/-- How far a claim's citations are the expected ones. -/
def CitationCaseInput.support (i : CitationCaseInput) (c : CitationClaim) : ℚ :=
  match dictBy Prod.fst i.expectedEvidenceByClaim c.claimRef with
  | some (_, expected) =>
    if c.citedEvidence ⊆ i.resolvableEvidence then (c.citedEvidence ∩ expected).card / (c.citedEvidence ∪ expected).card else 0
  | none => 0

/-- The body of the loop of `judge_citations`. -/
def CitationCaseInput.result (i : CitationCaseInput) : CitationCaseResult :=
  if i.requiredClaimRefs = ∅ then
    let success : ℚ := if i.claims.isEmpty then 1 else 0
    ⟨i.caseRef, success, success, success⟩
  else
    let resolvable := i.claims.countP fun c => c.citedEvidence ≠ ∅ ∧ c.citedEvidence ⊆ i.resolvableEvidence
    let supported := ((i.claims.filter fun c => i.support c = 1).map (·.claimRef)).toFinset
    { caseRef := i.caseRef
      lineageResolvability := if i.claims.isEmpty then 0 else resolvable / i.claims.length
      claimSupport := if i.claims.isEmpty then 0 else mean (i.claims.map i.support)
      completeness := supported.card / i.requiredClaimRefs.card }

/-- `"pass" | "fail"`. -/
inductive CitationStatus where
  | pass
  | fail
  deriving DecidableEq

structure CitationReport where
  lineageResolvability : ℚ
  claimSupport : ℚ
  completeness : ℚ
  status : CitationStatus
  cases : List CitationCaseResult

def citationReport (results : List CitationCaseResult) : CitationReport :=
  let ordered := sortedBy (·.caseRef) results
  let lineage := mean (ordered.map (·.lineageResolvability))
  let support := mean (ordered.map (·.claimSupport))
  let completeness := mean (ordered.map (·.completeness))
  { lineageResolvability := lineage
    claimSupport := support
    completeness := completeness
    status := if lineage = 1 ∧ support = 1 ∧ completeness = 1 then .pass else .fail
    cases := ordered }

/-- `judge_citations`. -/
def judgeCitations (cases : List CitationCaseInput) : Except Refused CitationReport := do
  require (!cases.isEmpty) "citation judge requires a nonempty tuple"
  return citationReport (cases.map (·.result))

/-! ## Answers -/

structure AnswerJudgeProfile where
  modelRef : Str
  profileRef : Str

inductive Answerability where
  | answerable
  | unanswerable
  deriving DecidableEq

structure AnswerCaseInput where
  caseRef : Str
  answerability : Answerability
  blindScore : Int
  criticalContradiction : Bool
  refused : Bool

/-- `AnswerCaseInput.__post_init__`. -/
def AnswerCaseInput.check (i : AnswerCaseInput) : Except Refused Unit := do
  checkCaseRef i.caseRef
  require (decide (i.blindScore ∈ [0, 1, 2])) "blind answer score must be 0, 1, or 2"

structure AnswerCaseResult where
  caseRef : Str
  normalizedScore : ℚ
  criticalContradiction : Bool
  refused : Bool

/-- The body of the loop of `judge_answers`. -/
def AnswerCaseInput.result (i : AnswerCaseInput) : AnswerCaseResult :=
  let score : ℚ :=
    if i.criticalContradiction then 0
    else if i.refused then if i.answerability = .unanswerable then 1 else 0
    else if i.answerability = .unanswerable then 0
    else i.blindScore / 2
  ⟨i.caseRef, score, i.criticalContradiction, i.refused⟩

/-- What the case adds to `refusal_correct`. -/
def refusalCorrect (answerability : Answerability) (refused : Bool) : List Bool :=
  match answerability, refused with
  | .unanswerable, refused => [refused]
  | .answerable, true => [false]
  | .answerable, false => []

structure AnswerReport where
  normalizedScore : ℚ
  refusalAccuracy : Option ℚ
  criticalContradictions : Nat
  modelRef : Str
  profileRef : Str
  cases : List AnswerCaseResult

def answerReport (results : List AnswerCaseResult) (refusals : List Bool) (profile : AnswerJudgeProfile) : AnswerReport :=
  let ordered := sortedBy (·.caseRef) results
  { normalizedScore := mean (ordered.map (·.normalizedScore))
    refusalAccuracy := if refusals.isEmpty then none else some (refusals.countP id / refusals.length)
    criticalContradictions := ordered.countP (·.criticalContradiction)
    modelRef := profile.modelRef
    profileRef := profile.profileRef
    cases := ordered }

/-- `judge_answers`. -/
def judgeAnswers (cases : List AnswerCaseInput) (profile : AnswerJudgeProfile) : Except Refused AnswerReport := do
  require (!cases.isEmpty) "answer judge requires a nonempty tuple"
  return answerReport (cases.map (·.result)) (cases.flatMap fun i => refusalCorrect i.answerability i.refused) profile

/-! ## Slices -/

/-- `"pass" | "fail" | "insufficient_data" | "pending_preregistration"`. -/
inductive GateStatus where
  | pass
  | fail
  | insufficientData
  | pendingPreregistration
  deriving DecidableEq

structure SliceCaseScore where
  caseRef : Str
  sliceName : SliceName
  score : ℚ

/-- `SliceCaseScore.__post_init__`. -/
def SliceCaseScore.check (s : SliceCaseScore) : Except Refused Unit := do
  checkCaseRef s.caseRef
  require (decide (0 ≤ s.score ∧ s.score ≤ 1)) "slice score must be a fraction"

structure SliceFloorResult where
  sliceName : SliceName
  caseCount : Nat
  score : Option ℚ
  wilson95 : Option (ℚ × ℚ)
  status : GateStatus

section Slices

variable (wilson95 : ℚ → Nat → ℚ × ℚ)

/-- `by_slice[slice_name]`. -/
def scoresOf (cases : List SliceCaseScore) (sliceName : SliceName) : List ℚ :=
  (cases.filter (·.sliceName = sliceName)).map (·.score)

/-- What is measured of a slice, with a status. -/
def measured (sliceName : SliceName) (scores : List ℚ) (status : GateStatus) : SliceFloorResult :=
  if scores.isEmpty then ⟨sliceName, 0, none, none, status⟩
  else ⟨sliceName, scores.length, some (mean scores), some (wilson95 scores.sum scores.length), status⟩

/-- `evaluate_slice_floors` on one floor. -/
def evaluateSliceFloor (cases : List SliceCaseScore) (sliceName : SliceName) (minimumCases : Int) (minimumScore : ℚ) : SliceFloorResult :=
  let scores := scoresOf cases sliceName
  if scores.length < minimumCases then measured wilson95 sliceName scores .insufficientData
  else measured wilson95 sliceName scores (if minimumScore ≤ mean scores then .pass else .fail)

/-- `evaluate_pending_slice_floors`, on one slice. -/
def evaluatePendingSliceFloor (cases : List SliceCaseScore) (sliceName : SliceName) : SliceFloorResult :=
  measured wilson95 sliceName (scoresOf cases sliceName) .pendingPreregistration

/-- The floor's result in `evaluate_layer_slice_thresholds`. -/
def evaluateFloor (cases : List SliceCaseScore) (floor : LayerSliceThreshold) : SliceFloorResult :=
  match floor.minimumCases, floor.minimumScore with
  | .configured count, .configured score => evaluateSliceFloor wilson95 cases floor.sliceName count.value score.value
  | _, _ => evaluatePendingSliceFloor wilson95 cases floor.sliceName

/-- How the texts of two slice names compare. -/
def sliceRank : SliceName → Nat
  | .crossDoc => 0
  | .singleDoc => 1
  | .temporal => 2

/-- `evaluate_layer_slice_thresholds`. -/
def evaluateLayerSliceThresholds (cases : List SliceCaseScore) (floors : List LayerSliceThreshold) (layer : Layer) :
    Except Refused (List SliceFloorResult) := do
  let selected := floors.filter (·.layer = layer)
  require (selected.length == 3) "threshold layer must contain exactly three slice floors"
  return sortedBy (fun r => sliceRank r.sliceName) (selected.map (evaluateFloor wilson95 cases))

end Slices

end Judges

end ContextEngine.Learning
