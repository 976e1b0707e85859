/-
  ContextEngine.Learning.EvaluationReport — observations of a golden set's cases, and the report
  that is assembled of them (`engine/learning/eval_run.py`, `engine/learning/eval_report.py`).

  Parameters: the digest of a lineage, the digest of a report, the Wilson interval. Of a golden
  case there is what the report reads.
-/

import ContextEngine.Learning.Judges
import ContextEngine.Python.Hashlib

namespace ContextEngine.Learning

open ContextEngine.Python Judges
open Thresholds (CountThreshold ScoreThreshold Layer SliceName LayerSliceThreshold SourceAuthority EvaluationThresholds
  Configuration FromIsoformat hasMargin)

namespace EvaluationReport

/-! ## Golden sets -/

/-- `_opaque_ref`. -/
def isOpaqueRef (s : Str) : Bool := !Str.blank s && !hasMargin s && decide (s.length ≤ 512) && !s.any Str.isspace

structure EvidenceLineage where
  sourceRef : Str
  resourceRef : Str
  revisionRef : Str
  fragmentRef : Str
  available : [sourceRef, resourceRef, revisionRef, fragmentRef].all isOpaqueRef = true
  deriving DecidableEq

structure RequiredClaim where
  claimRef : Str
  expectedEvidence : List EvidenceLineage

/-- A case: its Evidence by lineage. -/
structure GoldenCase where
  caseRef : Str
  expectedEvidence : List EvidenceLineage
  requiredClaims : List RequiredClaim
  answerability : Answerability
  sliceName : SliceName

/-- A loaded set, with the digests that its constructor took. -/
structure GoldenSet where
  name : Str
  cases : List GoldenCase
  digest : Str
  pilotDigest : Str
  nonempty : cases ≠ []
  unique : (cases.map (·.caseRef)).Nodup

/-! ## Security observations -/

/-- `_case_ref`. -/
def isCaseRef (s : Str) : Bool := !Str.blank s && !hasMargin s && !s.any Str.isspace

inductive SecurityEventKind where
  | unauthorizedEvidence
  | wrongOrganizationEffect
  | missingContextFallback
  deriving DecidableEq

structure HarnessSecurityEvent where
  kind : SecurityEventKind
  observationRef : Str
  available : isCaseRef observationRef = true

inductive SecurityObservationState where
  | observedClean
  | notObserved
  | malformed
  deriving DecidableEq

structure CaseSecurityObservation where
  caseRef : Str
  state : SecurityObservationState
  available : isCaseRef caseRef = true

structure CaseSecurityViolation where
  caseRef : Str
  events : List HarnessSecurityEvent
  nonempty : events ≠ []
  unique : (events.map (·.observationRef)).Nodup
  available : isCaseRef caseRef = true

/-- `CaseSecurityObservation | CaseSecurityViolation`. -/
inductive CaseSecurityResult where
  | observation (o : CaseSecurityObservation)
  | violation (v : CaseSecurityViolation)

def CaseSecurityResult.caseRef : CaseSecurityResult → Str
  | .observation o => o.caseRef
  | .violation v => v.caseRef

def CaseSecurityResult.violates : CaseSecurityResult → Bool
  | .observation _ => false
  | .violation _ => true

/-- The events of a violation. -/
def CaseSecurityResult.events : CaseSecurityResult → List HarnessSecurityEvent
  | .observation _ => []
  | .violation v => v.events

/-- The state of an observation. -/
def CaseSecurityResult.state : CaseSecurityResult → Option SecurityObservationState
  | .observation o => some o.state
  | .violation _ => none

/-! ## Runs -/

structure ObservedClaim where
  claimRef : Str
  citedEvidence : List EvidenceLineage

structure EvaluationCaseObservation where
  caseRef : Str
  observedEvidence : List EvidenceLineage
  claims : List ObservedClaim
  blindScore : Int
  refused : Bool
  criticalContradiction : Bool
  securityObservation : CaseSecurityResult

/-- `executed_seam_ref` is missing, or an opaque ref. -/
def acceptsSeamRef : Option Str → Bool
  | none => true
  | some s => decide (s ≠ []) && !hasMargin s && !s.any Str.isspace

structure EvaluationRun where
  answerJudgeProfile : AnswerJudgeProfile
  cases : List EvaluationCaseObservation
  executedSeamRef : Option Str
  nonempty : cases ≠ []
  seam : acceptsSeamRef executedSeamRef = true

/-! ## Gates -/

structure EvaluationGateStatuses where
  citation : CitationStatus
  answer : GateStatus
  sliceStatuses : List GateStatus
  thresholdAuthority : SourceAuthority

/-- `EvaluationGateStatuses.__post_init__`. -/
def EvaluationGateStatuses.check (g : EvaluationGateStatuses) : Except Refused Unit :=
  require (!g.sliceStatuses.isEmpty) "evaluation requires slice statuses"

/-- `_require_harness_results`; the rest of it the results' own constructors have checked. -/
def requireHarnessResults (results : List CaseSecurityResult) : Except Refused Unit := do
  require (!results.isEmpty) "security observations are required"
  require (decide (results.map (·.caseRef)).Nodup) "security observation case refs must be unique"

inductive ReportStatus where
  | pass
  | fail
  | refused
  | nonAuthoritative
  | insufficientData
  | pendingPreregistration
  deriving DecidableEq

/-- What the gates say of results that are all clean. -/
def EvaluationGateStatuses.status (g : EvaluationGateStatuses) : ReportStatus :=
  let quality := g.answer :: g.sliceStatuses
  if g.thresholdAuthority ≠ .tracked then .nonAuthoritative
  else if .pendingPreregistration ∈ quality then .pendingPreregistration
  else if g.citation = .fail ∨ .fail ∈ quality then .fail
  else if .insufficientData ∈ quality then .insufficientData
  else .pass

/-- `final_report_status`. -/
def finalReportStatus (g : EvaluationGateStatuses) (results : List CaseSecurityResult) : Except Refused ReportStatus := do
  requireHarnessResults results
  if results.any (·.violates) then return .fail
  else if results.any fun r => r.state ≠ some .observedClean then return .refused
  else return g.status

/-- `observationState` of a security report. -/
inductive ReportedState where
  | observedViolation
  | unviolated (state : SecurityObservationState)
  deriving DecidableEq

/-- `"pass" | "fail" | "refused"`. -/
inductive SecurityStatus where
  | pass
  | fail
  | refused
  deriving DecidableEq

structure SecurityReport where
  missingContextFallbackCount : Option Nat
  observationState : ReportedState
  reason : Option String
  status : SecurityStatus
  unauthorizedEvidenceCount : Option Nat
  wrongOrganizationEffectCount : Option Nat

/-- The worst state among observations. -/
def worstState (results : List CaseSecurityResult) : SecurityObservationState :=
  if results.any (·.state = some .malformed) then .malformed
  else if results.any (·.state = some .notObserved) then .notObserved
  else .observedClean

/-- The report on violations, by what their events count. -/
def violationReport (events : List HarnessSecurityEvent) : SecurityReport :=
  { missingContextFallbackCount := some (events.countP (·.kind = .missingContextFallback))
    observationState := .observedViolation
    reason := none
    status := .fail
    unauthorizedEvidenceCount := some (events.countP (·.kind = .unauthorizedEvidence))
    wrongOrganizationEffectCount := some (events.countP (·.kind = .wrongOrganizationEffect)) }

/-- The report on results without a violation. -/
def observationReport (state : SecurityObservationState) : SecurityReport :=
  if state ≠ .observedClean then
    ⟨none, .unviolated state, some "no_run_executor_security_observation", .refused, none, none⟩
  else ⟨some 0, .unviolated state, none, .pass, some 0, some 0⟩

/-- `security_report`. -/
def securityReport (results : List CaseSecurityResult) : Except Refused SecurityReport := do
  requireHarnessResults results
  if results.any (·.violates) then return violationReport (results.flatMap (·.events))
  else return observationReport (worstState results)

/-! ## The report -/

/-- `generated_at`: naive, or with an offset from UTC. -/
inductive ReportTime where
  | naive
  | aware (utcoffset : Int) (instant : Instant)

/-- `_timestamp`. -/
def timestamp : ReportTime → Except Refused String
  | .naive => .error (.valueError "report time must be aware UTC")
  | .aware utcoffset instant =>
    if utcoffset = 0 then .ok ((isoformat instant).replace "+00:00" "Z")
    else .error (.valueError "report time must be aware UTC")

structure GoldenSetSummary where
  caseCount : Nat
  digest : Str
  name : Str
  pilotDigest : Str
  schemaVersion : String

structure LineageCheck where
  ran : Bool
  staleCaseCount : Option Nat
  totalCaseCount : Nat

structure SliceReports where
  answer : List SliceFloorResult
  citation : List SliceFloorResult
  retrieval : List SliceFloorResult

/-- A report without its digest. -/
structure ReportBody where
  answer : AnswerReport
  answerStatus : GateStatus
  citation : CitationReport
  generatedAt : String
  goldenSet : GoldenSetSummary
  lineageCheck : LineageCheck
  reportVersion : String
  retrieval : RetrievalReport
  retrievalStatus : String
  executedSeamRef : Option Str
  security : SecurityReport
  slices : SliceReports
  status : ReportStatus
  thresholdAuthority : SourceAuthority
  thresholds : Configuration

structure Report where
  body : ReportBody
  reportDigest : Str

/-- The environment: `_lineage_ref`, `_report_digest`, `_wilson_95`. -/
structure Digests where
  lineageRef : EvidenceLineage → Str
  reportDigest : ReportBody → Str
  wilson95 : ℚ → Nat → ℚ × ℚ

/-- `if not condition: raise EvaluationRunUnavailable(message)`. -/
def requireRun (condition : Bool) (message : String) : Except Refused Unit :=
  if condition then .ok () else .error (.unavailable message)

/-- What the judges are given of one case. -/
structure CaseInputs where
  retrieval : RetrievalCaseInput
  citation : CitationCaseInput
  answer : AnswerCaseInput
  security : CaseSecurityResult

section Report

variable (digests : Digests)

/-- `frozenset(_lineage_ref(item) for item in …)`. -/
def lineageRefs (lineages : List EvidenceLineage) : Finset Str := (lineages.map digests.lineageRef).toFinset

/-- The claims that a case produced, checked one by one. -/
def citationClaims (claims : List ObservedClaim) : Except Refused (List CitationClaim) :=
  claims.mapM fun claim => do
    let c : CitationClaim := ⟨claim.claimRef, lineageRefs digests claim.citedEvidence⟩
    c.check
    return c

/-- The body of the loop of `build_evaluation_report`. -/
def caseInputs (golden : GoldenCase) (observed : EvaluationCaseObservation) : Except Refused CaseInputs := do
  requireRun (observed.securityObservation.caseRef == golden.caseRef) "security observation caseRef does not match evaluation case"
  let observedRefs := lineageRefs digests observed.observedEvidence
  let retrieval : RetrievalCaseInput := ⟨golden.caseRef, lineageRefs digests golden.expectedEvidence, observedRefs⟩
  retrieval.check
  let claims ← citationClaims digests observed.claims
  let expectedByClaim := golden.requiredClaims.map fun c => (c.claimRef, lineageRefs digests c.expectedEvidence)
  let citation : CitationCaseInput :=
    ⟨golden.caseRef, (golden.requiredClaims.map (·.claimRef)).toFinset, claims, expectedByClaim, observedRefs⟩
  citation.check
  let answer : AnswerCaseInput :=
    ⟨golden.caseRef, golden.answerability, observed.blindScore, observed.criticalContradiction, observed.refused⟩
  answer.check
  return ⟨retrieval, citation, answer, observed.securityObservation⟩

/-- `golden_by_ref` and `observed_by_ref` together, in the order of the refs: of observations
    with one ref the last one stands. -/
def observedCases (golden : GoldenSet) (cases : List EvaluationCaseObservation) : List (GoldenCase × EvaluationCaseObservation) :=
  (sortedBy (·.caseRef) golden.cases).filterMap fun g => (dictBy (·.caseRef) cases g.caseRef).map (g, ·)

/-- The slices of one layer, from the scores of its cases. -/
def layerReport (golden : GoldenSet) (thresholds : Configuration) (layer : Layer) (scores : List (Str × ℚ)) :
    Except Refused (List SliceFloorResult) := do
  let cases := scores.filterMap fun s =>
    (dictBy (·.caseRef) golden.cases s.1).map fun g => (⟨s.1, g.sliceName, s.2⟩ : SliceCaseScore)
  for case in cases do case.check
  evaluateLayerSliceThresholds digests.wilson95 cases thresholds.sliceFloors layer

/-- `answer_status`. -/
def answerStatusOf (thresholds : Configuration) (answer : AnswerReport) : GateStatus :=
  match thresholds.minimumAnswerScore, thresholds.minimumRefusalAccuracy with
  | .configured score, .configured accuracy =>
    if score.value ≤ answer.normalizedScore ∧ ∀ a ∈ answer.refusalAccuracy, accuracy.value ≤ a then .pass else .fail
  | _, _ => .pendingPreregistration

/-- The judged layers of a run. -/
structure Layers where
  retrieval : RetrievalReport
  citation : CitationReport
  answer : AnswerReport
  slices : SliceReports

def judgeLayers (golden : GoldenSet) (profile : AnswerJudgeProfile) (thresholds : Configuration) (inputs : List CaseInputs) :
    Except Refused Layers := do
  let retrieval ← judgeRetrieval (inputs.map (·.retrieval))
  let citation ← judgeCitations (inputs.map (·.citation))
  let answer ← judgeAnswers (inputs.map (·.answer)) profile
  let answerSlices ← layerReport digests golden thresholds .answer (answer.cases.map fun c => (c.caseRef, c.normalizedScore))
  let citationSlices ← layerReport digests golden thresholds .citation (citation.cases.map fun c => (c.caseRef, c.completeness))
  let retrievalSlices ← layerReport digests golden thresholds .retrieval (retrieval.cases.map fun c => (c.caseRef, c.evidenceRecall))
  return ⟨retrieval, citation, answer, ⟨answerSlices, citationSlices, retrievalSlices⟩⟩

/-- The gates of the judged layers. -/
def Layers.gates (layers : Layers) (thresholds : Configuration) : EvaluationGateStatuses :=
  { citation := layers.citation.status
    answer := answerStatusOf thresholds layers.answer
    sliceStatuses := (layers.slices.answer ++ layers.slices.citation ++ layers.slices.retrieval).map (·.status)
    thresholdAuthority := thresholds.sourceAuthority }

/-- The report of judged layers and security results. -/
def assemble (golden : GoldenSet) (seam : Option Str) (thresholds : Configuration) (generatedAt : ReportTime) (layers : Layers)
    (security : List CaseSecurityResult) : Except Refused Report := do
  let gates := layers.gates thresholds
  gates.check
  let status ← finalReportStatus gates security
  let generatedAt ← timestamp generatedAt
  let security ← securityReport security
  let body : ReportBody :=
    { answer := layers.answer
      answerStatus := gates.answer
      citation := layers.citation
      generatedAt := generatedAt
      goldenSet := ⟨golden.cases.length, golden.digest, golden.name, golden.pilotDigest, "context-engine-golden-set-v1"⟩
      lineageCheck := ⟨false, none, golden.cases.length⟩
      reportVersion := "context-engine-eval-report-v1"
      retrieval := layers.retrieval
      retrievalStatus := "measured"
      executedSeamRef := seam
      security := security
      slices := layers.slices
      status := status
      thresholdAuthority := thresholds.sourceAuthority
      thresholds := thresholds }
  return ⟨body, digests.reportDigest body⟩

variable {fromisoformat : FromIsoformat}

/-- `build_evaluation_report`. -/
def buildEvaluationReport (golden : GoldenSet) (run : EvaluationRun) (thresholds : EvaluationThresholds fromisoformat)
    (generatedAt : ReportTime) : Except Refused Report := do
  let configuration := thresholds.configuration
  requireRun (configuration.recordedCalibrationEvents.getLast?.all fun event => event.pilotDigest == golden.pilotDigest)
    "threshold calibration pilot digest does not match the golden set"
  requireRun (decide ((golden.cases.map (·.caseRef)).toFinset = (run.cases.map (·.caseRef)).toFinset))
    "evaluation run caseRef set must exactly match the golden set"
  let inputs ← (observedCases golden run.cases).mapM fun (g, o) => caseInputs digests g o
  let layers ← judgeLayers digests golden run.answerJudgeProfile configuration inputs
  assemble digests golden run.executedSeamRef configuration generatedAt layers (inputs.map (·.security))

end Report

end EvaluationReport

end ContextEngine.Learning
