/-
  ContextEngine.Learning.EvaluationReportProofs — when a security violation vetoes a report, and
  when the order of the observations does not matter.

  A report reads of each case the judges' results and the security observation, of one
  observation a case: the last one with its ref. The observations before it are dropped without
  a check, so a violation among them is lost.

  Proved (`vetoesSoundly_iff`): a report is sound exactly if the observations that share a case
  ref are judged alike, none of them is a violation, and, where nothing is, one case shows the
  run's worst state whatever observation of it is kept.
-/

import ContextEngine.Learning.EvaluationReport
import ContextEngine.Python.Raising

namespace ContextEngine.Learning.EvaluationReport

open ContextEngine.Python Judges
open Thresholds (CountThreshold ScoreThreshold Layer SliceName LayerSliceThreshold SourceAuthority EvaluationThresholds
  Configuration FromIsoformat)

/-! ## What a report promises -/

/-- What the judges make of one case. -/
structure CaseResults where
  retrieval : RetrievalCaseResult
  citation : CitationCaseResult
  answer : AnswerCaseResult

def CaseInputs.results (i : CaseInputs) : CaseResults := ⟨i.retrieval.result, i.citation.result, i.answer.result⟩

section Conditions

variable (digests : Digests) {fromisoformat : FromIsoformat}

/-- The judges on one observation of a case, or what it is refused with. -/
def judgeCase (golden : GoldenCase) (observed : EvaluationCaseObservation) : Except Refused CaseResults :=
  (caseInputs digests golden observed).map CaseInputs.results

/-- How bad a security result is. -/
def CaseSecurityResult.severity : CaseSecurityResult → Nat
  | .observation ⟨_, .observedClean, _⟩ => 0
  | .observation ⟨_, .notObserved, _⟩ => 1
  | .observation ⟨_, .malformed, _⟩ => 2
  | .violation _ => 3

/-- The violation events of a run. -/
def eventCount (cases : List EvaluationCaseObservation) : Nat := (cases.map fun o => o.securityObservation.events.length).sum

/-- The section says `observed_violation`, and its three counts add up. -/
structure CountsEvents (security : SecurityReport) (count : Nat) : Prop where
  state : security.observationState = .observedViolation
  counts : ∃ m u w, security.missingContextFallbackCount = some m ∧ security.unauthorizedEvidenceCount = some u ∧
    security.wrongOrganizationEffectCount = some w ∧ m + u + w = count

/-- Nothing is pending, and every gate passed. -/
structure GatesPassed (thresholds : Configuration) (body : ReportBody) : Prop where
  tracked : thresholds.sourceAuthority = .tracked
  answerConfigured : thresholds.minimumAnswerScore ≠ .pending ∧ thresholds.minimumRefusalAccuracy ≠ .pending
  floorsConfigured : ∀ f ∈ thresholds.sliceFloors, f.minimumCases ≠ .pending ∧ f.minimumScore ≠ .pending
  citation : body.citation.status = .pass
  answer : body.answerStatus = .pass
  slices : ∀ r ∈ body.slices.answer ++ body.slices.citation ++ body.slices.retrieval, r.status = .pass

/-- A run with its observations in another order. -/
def EvaluationRun.reordered (run : EvaluationRun) (cases : List EvaluationCaseObservation) (h : cases.Perm run.cases) : EvaluationRun :=
  ⟨run.answerJudgeProfile, cases, run.executedSeamRef, fun hnil => run.nonempty (List.nil_perm.mp (hnil ▸ h)), run.seam⟩

/-- A report is sound for its run: a violation vetoes it and is counted, it passes only where
    everything is clean and passed, and the order of the observations makes no difference. -/
structure VetoesSoundly (golden : GoldenSet) (run : EvaluationRun) (thresholds : EvaluationThresholds fromisoformat)
    (generatedAt : ReportTime) (report : Report) : Prop where
  veto : ∀ o ∈ run.cases, o.securityObservation.violates = true →
    report.body.status = .fail ∧ CountsEvents report.body.security (eventCount run.cases)
  pass : report.body.status = .pass →
    (∀ o ∈ run.cases, o.securityObservation.state = some .observedClean) ∧ GatesPassed thresholds.configuration report.body
  permuted : ∀ cases (h : cases.Perm run.cases),
    buildEvaluationReport digests golden (run.reordered cases h) thresholds generatedAt = .ok report

/-- The observations that share a case ref may stand for each other. -/
structure RepeatsAgree (golden : GoldenSet) (run : EvaluationRun) : Prop where
  judged : ∀ g ∈ golden.cases, ∀ o ∈ run.cases, ∀ o' ∈ run.cases, o.caseRef = g.caseRef → o'.caseRef = g.caseRef →
    judgeCase digests g o = judgeCase digests g o'
  violations : ∀ o ∈ run.cases, o.securityObservation.violates = true → run.cases.countP (fun o' => o'.caseRef = o.caseRef) = 1
  observed : (∃ o ∈ run.cases, o.securityObservation.violates = true) ∨
    ∃ g ∈ golden.cases, ∀ o ∈ run.cases, o.caseRef = g.caseRef →
      ∀ o' ∈ run.cases, o'.securityObservation.severity ≤ o.securityObservation.severity

end Conditions

/-! ## Security results -/

section Security

variable {r : CaseSecurityResult} {results results' : List CaseSecurityResult} {g : EvaluationGateStatuses}

theorem severity_clean : r.severity = 0 ↔ r.state = some .observedClean := by
  obtain ⟨_, _ | _ | _, _⟩ | _ := r <;> simp [CaseSecurityResult.severity, CaseSecurityResult.state]

theorem severity_violates : r.severity = 3 ↔ r.violates = true := by
  obtain ⟨_, _ | _ | _, _⟩ | _ := r <;> simp [CaseSecurityResult.severity, CaseSecurityResult.violates]

/-- The severity of a state. -/
def SecurityObservationState.severity : SecurityObservationState → Nat
  | .observedClean => 0
  | .notObserved => 1
  | .malformed => 2

theorem severity_injective : Function.Injective SecurityObservationState.severity := by
  rintro (_ | _ | _) (_ | _ | _) <;> simp [SecurityObservationState.severity]

theorem severity_state {s : SecurityObservationState} : r.state = some s ↔ r.severity = s.severity := by
  obtain ⟨_, _ | _ | _, _⟩ | _ := r <;> cases s <;> simp [CaseSecurityResult.severity, CaseSecurityResult.state, SecurityObservationState.severity]

/-- Without a violation the worst state has the greatest severity. -/
theorem worstState_severity {n : Nat} (hn : n < 3) (hmem : ∃ r ∈ results, r.severity = n) (hmax : ∀ r ∈ results, r.severity ≤ n) :
    (worstState results).severity = n := by
  obtain ⟨r, hr, rfl⟩ := hmem
  have hany (s : SecurityObservationState) : results.any (·.state = some s) = true ↔ ∃ r ∈ results, r.severity = s.severity := by
    simp [severity_state]
  unfold worstState
  split_ifs with hmalformed hnotObserved
  · obtain ⟨r', hr', h2⟩ := (hany _).mp hmalformed
    have := hmax r' hr'
    simp only [SecurityObservationState.severity] at h2 ⊢
    omega
  · obtain ⟨r', hr', h1⟩ := (hany _).mp hnotObserved
    have hge := hmax r' hr'
    have hne : r.severity ≠ 2 := fun h2 => hmalformed ((hany .malformed).mpr ⟨r, hr, h2⟩)
    simp only [SecurityObservationState.severity] at h1 ⊢
    omega
  · have hne2 : r.severity ≠ 2 := fun h2 => hmalformed ((hany .malformed).mpr ⟨r, hr, h2⟩)
    have hne1 : r.severity ≠ 1 := fun h1 => hnotObserved ((hany .notObserved).mpr ⟨r, hr, h1⟩)
    simp only [SecurityObservationState.severity]
    omega

/-- The worst state is clean, or that of a result. -/
theorem worstState_mem (results : List CaseSecurityResult) :
    (worstState results).severity = 0 ∨ ∃ r ∈ results, r.severity = (worstState results).severity := by
  unfold worstState
  split_ifs with hmalformed hnotObserved
  · obtain ⟨r, hr, hs⟩ := List.any_eq_true.mp hmalformed
    exact .inr ⟨r, hr, severity_state.mp (of_decide_eq_true hs)⟩
  · obtain ⟨r, hr, hs⟩ := List.any_eq_true.mp hnotObserved
    exact .inr ⟨r, hr, severity_state.mp (of_decide_eq_true hs)⟩
  · exact .inl rfl

theorem worstState_clean (h : ∀ r ∈ results, r.state = some .observedClean) : worstState results = .observedClean := by
  have hnone {s : SecurityObservationState} (hs : s ≠ .observedClean) : results.any (·.state = some s) = false := by
    simp only [List.any_eq_false, decide_eq_true_eq]
    intro r hr hstate
    exact hs (Option.some.inj (hstate.symm.trans (h r hr)))
  rw [worstState, hnone (by decide), hnone (by decide)]
  rfl

theorem kinds_counted (events : List HarnessSecurityEvent) :
    events.countP (·.kind = .missingContextFallback) + events.countP (·.kind = .unauthorizedEvidence) +
      events.countP (·.kind = .wrongOrganizationEffect) = events.length := by
  induction events with
  | nil => rfl
  | cons e events ih =>
    rw [List.countP_cons, List.countP_cons, List.countP_cons, List.length_cons, ← ih]
    cases h : e.kind <;> simp <;> omega

theorem any_violates : results.any (·.violates) = true ↔ ∃ r ∈ results, r.severity = 3 := by
  simp [severity_violates]

theorem severity_le (r : CaseSecurityResult) : r.severity ≤ 3 := by
  obtain ⟨_, _ | _ | _, _⟩ | _ := r <;> simp [CaseSecurityResult.severity]

theorem events_eq_nil (h : r.violates = false) : r.events = [] := by
  cases r with
  | observation o => rfl
  | violation v => cases h

theorem finalReportStatus_ok {status : ReportStatus} : finalReportStatus g results = .ok status ↔
    requireHarnessResults results = .ok () ∧ status =
      (if results.any (·.violates) then .fail
        else if results.any fun r => r.state ≠ some .observedClean then .refused else g.status) := by
  rw [finalReportStatus, bind_ok]
  constructor
  · rintro ⟨⟨⟩, hok, h⟩
    refine ⟨hok, ?_⟩
    split_ifs at h ⊢ <;> exact (Except.ok.inj h).symm
  · rintro ⟨hok, rfl⟩
    refine ⟨(), hok, ?_⟩
    split_ifs <;> rfl

theorem securityReport_ok {report : SecurityReport} : securityReport results = .ok report ↔
    requireHarnessResults results = .ok () ∧ report =
      (if results.any (·.violates) then violationReport (results.flatMap (·.events)) else observationReport (worstState results)) := by
  rw [securityReport, bind_ok]
  constructor
  · rintro ⟨⟨⟩, hok, h⟩
    refine ⟨hok, ?_⟩
    split_ifs at h ⊢ <;> exact (Except.ok.inj h).symm
  · rintro ⟨hok, rfl⟩
    refine ⟨(), hok, ?_⟩
    split_ifs <;> rfl

/-- A pass means that every result is clean, and that the gates pass. -/
theorem finalReportStatus_pass (h : finalReportStatus g results = .ok .pass) :
    (∀ r ∈ results, r.state = some .observedClean) ∧ g.status = .pass := by
  obtain ⟨-, h⟩ := finalReportStatus_ok.mp h
  split_ifs at h with hviolates hunclean
  refine ⟨fun r hr => ?_, h.symm⟩
  by_contra hne
  exact hunclean (List.any_eq_true.mpr ⟨r, hr, by simpa using hne⟩)

theorem status_pass (h : g.status = .pass) : g.thresholdAuthority = .tracked ∧ g.citation = .pass ∧ g.answer = .pass ∧
    ∀ s ∈ g.sliceStatuses, s = .pass := by
  unfold EvaluationGateStatuses.status at h
  simp only at h
  split_ifs at h with htracked hpending hfail hdata
  push Not at hfail
  have hquality : ∀ s ∈ g.answer :: g.sliceStatuses, s = .pass := by
    intro s hs
    cases s with
    | pass => rfl
    | fail => exact absurd hs hfail.2
    | insufficientData => exact absurd hs hdata
    | pendingPreregistration => exact absurd hs hpending
  refine ⟨not_not.mp htracked, ?_, hquality _ List.mem_cons_self, fun s hs => hquality s (List.mem_cons_of_mem _ hs)⟩
  cases hc : g.citation with
  | pass => rfl
  | fail => exact absurd hc hfail.1

/-- Results that the sections do not tell apart, as far as violations go. -/
def Alike (r r' : CaseSecurityResult) : Prop := r.caseRef = r'.caseRef ∧ (r = r' ∨ r.violates = false ∧ r'.violates = false)

theorem alike_refs (h : List.Forall₂ Alike results results') : results.map (·.caseRef) = results'.map (·.caseRef) := by
  induction h with
  | nil => rfl
  | cons h _ ih => rw [List.map_cons, List.map_cons, h.1, ih]

theorem alike_events (h : List.Forall₂ Alike results results') : results.flatMap (·.events) = results'.flatMap (·.events) := by
  induction h with
  | nil => rfl
  | cons h _ ih =>
    rw [List.flatMap_cons, List.flatMap_cons, ih]
    obtain ⟨-, rfl | ⟨hr, hr'⟩⟩ := h
    · rfl
    · rw [events_eq_nil hr, events_eq_nil hr']

theorem alike_violates (h : List.Forall₂ Alike results results') : results.any (·.violates) = results'.any (·.violates) := by
  induction h with
  | nil => rfl
  | cons h _ ih =>
    rw [List.any_cons, List.any_cons, ih]
    obtain ⟨-, rfl | ⟨hr, hr'⟩⟩ := h
    · rfl
    · rw [hr, hr']

theorem requireHarnessResults_congr (h : results.map (·.caseRef) = results'.map (·.caseRef)) :
    requireHarnessResults results = requireHarnessResults results' := by
  have hempty : results.isEmpty = results'.isEmpty := by
    have := congrArg List.isEmpty h
    simpa using this
  rw [requireHarnessResults, requireHarnessResults, h, hempty]

/-- Where nothing violates, unclean results are those of which the worst state is not clean. -/
theorem any_unclean (h : results.any (·.violates) = false) :
    (results.any fun r => r.state ≠ some .observedClean) = decide (worstState results ≠ .observedClean) := by
  rw [Bool.eq_iff_iff, decide_eq_true_iff, List.any_eq_true]
  unfold worstState
  split_ifs with hmalformed hnotObserved
  · simp only [ne_eq, reduceCtorEq, not_false_eq_true, iff_true]
    obtain ⟨r, hr, hs⟩ := List.any_eq_true.mp hmalformed
    exact ⟨r, hr, by simp_all⟩
  · simp only [ne_eq, reduceCtorEq, not_false_eq_true, iff_true]
    obtain ⟨r, hr, hs⟩ := List.any_eq_true.mp hnotObserved
    exact ⟨r, hr, by simp_all⟩
  · simp only [ne_eq, not_true_eq_false, iff_false]
    rintro ⟨r, hr, hs⟩
    have hviolates : r.violates = false := by
      by_contra hv
      simp [List.any_eq_false] at h
      exact hv (by simpa using h r hr)
    cases r with
    | violation v => cases hviolates
    | observation o =>
      cases hstate : o.state with
      | observedClean => simp [CaseSecurityResult.state, hstate] at hs
      | notObserved => exact hnotObserved (List.any_eq_true.mpr ⟨_, hr, by simp [CaseSecurityResult.state, hstate]⟩)
      | malformed => exact hmalformed (List.any_eq_true.mpr ⟨_, hr, by simp [CaseSecurityResult.state, hstate]⟩)

theorem finalReportStatus_congr (h : List.Forall₂ Alike results results')
    (hworst : results.any (·.violates) = false → worstState results = worstState results') :
    finalReportStatus g results = finalReportStatus g results' := by
  have hviolates := alike_violates h
  rw [finalReportStatus, finalReportStatus, requireHarnessResults_congr (alike_refs h), ← hviolates]
  cases hany : results.any (·.violates) with
  | true => rfl
  | false =>
    rw [any_unclean hany, any_unclean (hviolates ▸ hany), hworst hany]

theorem securityReport_congr (h : List.Forall₂ Alike results results')
    (hworst : results.any (·.violates) = false → worstState results = worstState results') :
    securityReport results = securityReport results' := by
  have hviolates := alike_violates h
  rw [securityReport, securityReport, requireHarnessResults_congr (alike_refs h), ← hviolates, alike_events h]
  cases hany : results.any (·.violates) with
  | true => rfl
  | false => rw [hworst hany]

/-- The counts of the section are the events of the results. -/
theorem securityReport_counts {report : SecurityReport} (h : securityReport results = .ok report) {n : Nat} :
    CountsEvents report n ↔ results.any (·.violates) = true ∧ (results.map fun r => r.events.length).sum = n := by
  obtain ⟨-, rfl⟩ := securityReport_ok.mp h
  have hlength : (results.map fun r => r.events.length).sum = (results.flatMap (·.events)).length := by
    rw [List.length_flatMap]
  rw [hlength]
  split_ifs with hviolates
  · constructor
    · rintro ⟨-, m, u, w, hm, hu, hw, rfl⟩
      cases hm
      cases hu
      cases hw
      exact ⟨hviolates, (kinds_counted _).symm⟩
    · rintro ⟨-, rfl⟩
      exact ⟨rfl, _, _, _, rfl, rfl, rfl, kinds_counted _⟩
  · constructor
    · rintro ⟨hstate, -⟩
      unfold observationReport at hstate
      split_ifs at hstate
    · rintro ⟨h, -⟩
      exact absurd h hviolates

/-- Without a violation the section shows the worst state. -/
theorem observationReport_injective : Function.Injective observationReport := by
  intro s s' h
  have := congrArg SecurityReport.observationState h
  cases s <;> cases s' <;> simp_all [observationReport]

end Security

/-! ## The judged layers -/

section Layers

variable {digests : Digests} {golden : GoldenSet} {profile : AnswerJudgeProfile} {thresholds : Configuration}
  {inputs inputs' : List CaseInputs} {layers : Layers}

theorem refusals_congr (h : inputs.map (·.results) = inputs'.map (·.results))
    (hanswer : inputs.map (·.answer.answerability) = inputs'.map (·.answer.answerability)) :
    (inputs.map (·.answer)).flatMap (fun i => refusalCorrect i.answerability i.refused) =
      (inputs'.map (·.answer)).flatMap fun i => refusalCorrect i.answerability i.refused := by
  induction inputs generalizing inputs' with
  | nil =>
    rw [List.map_nil, eq_comm, List.map_eq_nil_iff] at h
    rw [h]
  | cons i inputs ih =>
    obtain ⟨i', inputs', rfl⟩ : ∃ i' rest, inputs' = i' :: rest := by
      cases inputs' with
      | nil => cases h
      | cons i' rest => exact ⟨i', rest, rfl⟩
    simp only [List.map_cons, List.cons.injEq] at h hanswer
    have hrefused : i.answer.refused = i'.answer.refused := congrArg (fun r => r.answer.refused) h.1
    simp only [List.map_cons, List.flatMap_cons, hanswer.1, hrefused]
    rw [ih h.2 hanswer.2]

/-- The judges read of the inputs their results, and which refusals were correct. -/
theorem judgeLayers_congr (h : inputs.map (·.results) = inputs'.map (·.results))
    (hanswer : inputs.map (·.answer.answerability) = inputs'.map (·.answer.answerability)) :
    judgeLayers digests golden profile thresholds inputs = judgeLayers digests golden profile thresholds inputs' := by
  have hempty : inputs.isEmpty = inputs'.isEmpty := by
    have := congrArg List.isEmpty h
    simpa using this
  have hretrieval : inputs.map (·.retrieval.result) = inputs'.map (·.retrieval.result) := by
    have := congrArg (List.map CaseResults.retrieval) h
    simpa [CaseInputs.results, Function.comp_def] using this
  have hcitation : inputs.map (·.citation.result) = inputs'.map (·.citation.result) := by
    have := congrArg (List.map CaseResults.citation) h
    simpa [CaseInputs.results, Function.comp_def] using this
  have hresult : inputs.map (·.answer.result) = inputs'.map (·.answer.result) := by
    have := congrArg (List.map CaseResults.answer) h
    simpa [CaseInputs.results, Function.comp_def] using this
  simp only [judgeLayers, judgeRetrieval, judgeCitations, judgeAnswers, List.map_map, Function.comp_def, List.isEmpty_map]
  rw [hempty, hretrieval, hcitation, hresult, refusals_congr h hanswer]

theorem require_bind_ok {β : Type} {condition : Bool} {message : String} {b : β} {f : Unit → Except Refused β} :
    (require condition message >>= f) = .ok b ↔ condition = true ∧ f () = .ok b := by
  rw [bind_ok]
  constructor
  · rintro ⟨⟨⟩, hc, hf⟩
    unfold require at hc
    split_ifs at hc with h
    exact ⟨h, hf⟩
  · rintro ⟨rfl, hf⟩
    exact ⟨(), rfl, hf⟩

/-- What the layers are made of. -/
theorem judgeLayers_ok (h : judgeLayers digests golden profile thresholds inputs = .ok layers) :
    layers.retrieval = retrievalReport (inputs.map (·.retrieval.result)) ∧
      layers.citation = citationReport (inputs.map (·.citation.result)) ∧
      layers.answer.cases = sortedBy (·.caseRef) (inputs.map (·.answer.result)) ∧
      ∃ answerScores citationScores retrievalScores,
        layerReport digests golden thresholds .answer answerScores = .ok layers.slices.answer ∧
        layerReport digests golden thresholds .citation citationScores = .ok layers.slices.citation ∧
        layerReport digests golden thresholds .retrieval retrievalScores = .ok layers.slices.retrieval := by
  rw [judgeLayers] at h
  obtain ⟨retrieval, hr, h⟩ := bind_ok.mp h
  obtain ⟨citation, hc, h⟩ := bind_ok.mp h
  obtain ⟨answer, ha, h⟩ := bind_ok.mp h
  obtain ⟨answerSlices, hanswer, h⟩ := bind_ok.mp h
  obtain ⟨citationSlices, hcitation, h⟩ := bind_ok.mp h
  obtain ⟨retrievalSlices, hretrieval, h⟩ := bind_ok.mp h
  obtain rfl := Except.ok.inj h
  obtain ⟨-, hr⟩ := require_bind_ok.mp hr
  obtain ⟨-, hc⟩ := require_bind_ok.mp hc
  obtain ⟨-, ha⟩ := require_bind_ok.mp ha
  obtain rfl := Except.ok.inj hr
  obtain rfl := Except.ok.inj hc
  obtain rfl := Except.ok.inj ha
  refine ⟨?_, ?_, ?_, _, _, _, hanswer, hcitation, hretrieval⟩
  · simp [Function.comp_def]
  · simp [Function.comp_def]
  · simp [answerReport, Function.comp_def]

/-- A floor that is pending shows as pending in its layer's report. -/
theorem layerReport_pending {layer : Layer} {scores : List (Str × ℚ)} {slices : List SliceFloorResult}
    (h : layerReport digests golden thresholds layer scores = .ok slices) {f : LayerSliceThreshold} (hf : f ∈ thresholds.sliceFloors)
    (hlayer : f.layer = layer) (hpending : f.minimumCases = .pending ∨ f.minimumScore = .pending) :
    ∃ r ∈ slices, r.status = .pendingPreregistration := by
  rw [layerReport] at h
  obtain ⟨⟨⟩, -, h⟩ := bind_ok.mp h
  obtain ⟨-, h⟩ := require_bind_ok.mp h
  obtain rfl := Except.ok.inj h
  refine ⟨_, (mem_sortedBy _).mpr (List.mem_map_of_mem (List.mem_filter.mpr ⟨hf, by simpa using hlayer⟩)), ?_⟩
  have hmeasured (name : SliceName) (scores : List ℚ) (status : GateStatus) :
      (measured digests.wilson95 name scores status).status = status := by
    unfold measured
    split_ifs <;> rfl
  unfold evaluateFloor
  split
  next hcount hscore => simp_all
  next => exact hmeasured _ _ _

end Layers

/-! ## Assembling -/

section Assembling

variable {digests : Digests} {golden : GoldenSet} {seam : Option Str} {thresholds : Configuration} {generatedAt : ReportTime}
  {layers : Layers} {results results' : List CaseSecurityResult} {report : Report}

theorem assemble_congr (h : List.Forall₂ Alike results results')
    (hworst : results.any (·.violates) = false → worstState results = worstState results') :
    assemble digests golden seam thresholds generatedAt layers results =
      assemble digests golden seam thresholds generatedAt layers results' := by
  rw [assemble, assemble, finalReportStatus_congr h hworst, securityReport_congr h hworst]

/-- What an assembled report shows. -/
theorem assemble_ok (h : assemble digests golden seam thresholds generatedAt layers results = .ok report) :
    finalReportStatus (layers.gates thresholds) results = .ok report.body.status ∧
      securityReport results = .ok report.body.security ∧ report.body.retrieval = layers.retrieval ∧
      report.body.citation = layers.citation ∧ report.body.answer = layers.answer ∧ report.body.slices = layers.slices ∧
      report.body.answerStatus = answerStatusOf thresholds layers.answer := by
  rw [assemble] at h
  obtain ⟨⟨⟩, -, h⟩ := bind_ok.mp h
  obtain ⟨status, hstatus, h⟩ := bind_ok.mp h
  obtain ⟨time, -, h⟩ := bind_ok.mp h
  obtain ⟨security, hsecurity, h⟩ := bind_ok.mp h
  obtain rfl := Except.ok.inj h
  exact ⟨hstatus, hsecurity, rfl, rfl, rfl, rfl, rfl⟩

/-- Where the gates pass, nothing is pending. -/
theorem gatesPassed_of_pass {profile : AnswerJudgeProfile} {inputs : List CaseInputs}
    (hlayers : judgeLayers digests golden profile thresholds inputs = .ok layers)
    (hassemble : assemble digests golden seam thresholds generatedAt layers results = .ok report)
    (hpass : (layers.gates thresholds).status = .pass) : GatesPassed thresholds report.body := by
  obtain ⟨-, -, -, hcitation, -, hslices, hanswer⟩ := assemble_ok hassemble
  obtain ⟨htracked, hcitationPass, hanswerPass, hslicesPass⟩ := status_pass hpass
  have hresults : ∀ r ∈ layers.slices.answer ++ layers.slices.citation ++ layers.slices.retrieval, r.status = .pass :=
    fun r hr => hslicesPass _ (List.mem_map_of_mem hr)
  have hnone : ∀ r ∈ layers.slices.answer ++ layers.slices.citation ++ layers.slices.retrieval, r.status ≠ .pendingPreregistration := by
    intro r hr hpending
    rw [hresults r hr] at hpending
    cases hpending
  refine ⟨htracked, ?_, fun f hf => ?_, ?_, ?_, ?_⟩
  · have hstatus : answerStatusOf thresholds layers.answer = .pass := hanswerPass
    unfold answerStatusOf at hstatus
    split at hstatus
    next hscore haccuracy => simp [hscore, haccuracy]
    next => cases hstatus
  · obtain ⟨-, -, -, answerScores, citationScores, retrievalScores, ha, hc, hr⟩ := judgeLayers_ok hlayers
    rw [← not_or]
    intro hpending
    cases hlayer : f.layer with
    | answer =>
      obtain ⟨r, hr, hs⟩ := layerReport_pending ha hf hlayer hpending
      exact hnone r (by simp [hr]) hs
    | citation =>
      obtain ⟨r, hr, hs⟩ := layerReport_pending hc hf hlayer hpending
      exact hnone r (by simp [hr]) hs
    | retrieval =>
      obtain ⟨r, hr, hs⟩ := layerReport_pending hr hf hlayer hpending
      exact hnone r (by simp [hr]) hs
  · rw [hcitation]
    exact hcitationPass
  · rw [hanswer]
    exact hanswerPass
  · rw [hslices]
    exact hresults

end Assembling

/-! ## Building -/

section Building

variable {digests : Digests} {fromisoformat : FromIsoformat} {golden : GoldenSet} {run : EvaluationRun}
  {thresholds : EvaluationThresholds fromisoformat} {generatedAt : ReportTime} {report : Report}

/-- The inputs of a run: for each case, in the order of the refs, those of the observation that
    is kept. -/
def Observed (digests : Digests) (golden : GoldenSet) (cases : List EvaluationCaseObservation) (inputs : List CaseInputs) : Prop :=
  List.Forall₂ (fun g i => ∃ o, dictBy (·.caseRef) cases g.caseRef = some o ∧ caseInputs digests g o = .ok i)
    (sortedBy (·.caseRef) golden.cases) inputs

theorem observedCases_mapM {cases : List EvaluationCaseObservation} {inputs : List CaseInputs}
    (hrefs : (golden.cases.map (·.caseRef)).toFinset = (cases.map (·.caseRef)).toFinset) :
    (observedCases golden cases).mapM (fun (g, o) => caseInputs digests g o) = .ok inputs ↔ Observed digests golden cases inputs := by
  have hkept : ∀ g ∈ sortedBy (·.caseRef) golden.cases, ∃ o, dictBy (·.caseRef) cases g.caseRef = some o := by
    intro g hg
    have hmem : g.caseRef ∈ (cases.map (·.caseRef)).toFinset := by
      rw [← hrefs, List.mem_toFinset]
      exact List.mem_map_of_mem ((mem_sortedBy _).mp hg)
    obtain ⟨o, ho, href⟩ := List.mem_map.mp (List.mem_toFinset.mp hmem)
    exact exists_dictBy.mpr ⟨o, ho, href⟩
  rw [mapM_ok, Observed, observedCases]
  generalize sortedBy (·.caseRef) golden.cases = gs at hkept
  induction gs generalizing inputs with
  | nil => rw [List.filterMap_nil, List.forall₂_nil_left_iff, List.forall₂_nil_left_iff]
  | cons g gs ih =>
    obtain ⟨o, ho⟩ := hkept g List.mem_cons_self
    rw [List.filterMap_cons_some (by rw [ho]; rfl), List.forall₂_cons_left_iff, List.forall₂_cons_left_iff]
    refine exists_congr fun i => exists_congr fun rest => and_congr ?_ (and_congr (ih fun g hg => hkept g (List.mem_cons_of_mem _ hg)) Iff.rfl)
    simp [ho]

theorem requireRun_bind_ok {β : Type} {condition : Bool} {message : String} {b : β} {f : Unit → Except Refused β} :
    (requireRun condition message >>= f) = .ok b ↔ condition = true ∧ f () = .ok b := by
  rw [bind_ok]
  constructor
  · rintro ⟨⟨⟩, hc, hf⟩
    unfold requireRun at hc
    split_ifs at hc with h
    exact ⟨h, hf⟩
  · rintro ⟨rfl, hf⟩
    exact ⟨(), rfl, hf⟩

/-- A report is built of the observations that are kept. -/
theorem buildEvaluationReport_ok : buildEvaluationReport digests golden run thresholds generatedAt = .ok report ↔
    (thresholds.configuration.recordedCalibrationEvents.getLast?.all fun event => event.pilotDigest == golden.pilotDigest) = true ∧
      (golden.cases.map (·.caseRef)).toFinset = (run.cases.map (·.caseRef)).toFinset ∧
      ∃ inputs layers, Observed digests golden run.cases inputs ∧
        judgeLayers digests golden run.answerJudgeProfile thresholds.configuration inputs = .ok layers ∧
        assemble digests golden run.executedSeamRef thresholds.configuration generatedAt layers (inputs.map (·.security)) = .ok report := by
  rw [buildEvaluationReport, requireRun_bind_ok, requireRun_bind_ok, decide_eq_true_eq]
  refine and_congr_right fun _ => and_congr_right fun hrefs => ?_
  rw [bind_ok]
  refine exists_congr fun inputs => ?_
  rw [observedCases_mapM hrefs, bind_ok, exists_and_left]

/-- What is read of one case. -/
theorem caseInputs_ok {g : GoldenCase} {o : EvaluationCaseObservation} {i : CaseInputs} (h : caseInputs digests g o = .ok i) :
    i.security = o.securityObservation ∧ o.securityObservation.caseRef = g.caseRef ∧ i.answer.answerability = g.answerability ∧
      i.retrieval.result.caseRef = g.caseRef ∧ i.citation.result.caseRef = g.caseRef ∧ i.answer.result.caseRef = g.caseRef := by
  rw [caseInputs] at h
  obtain ⟨href, h⟩ := requireRun_bind_ok.mp h
  obtain ⟨⟨⟩, -, h⟩ := bind_ok.mp h
  obtain ⟨claims, -, h⟩ := bind_ok.mp h
  obtain ⟨⟨⟩, -, h⟩ := bind_ok.mp h
  obtain ⟨⟨⟩, -, h⟩ := bind_ok.mp h
  obtain rfl := Except.ok.inj h
  refine ⟨rfl, by simpa using href, rfl, ?_, ?_, rfl⟩
  · simp only [RetrievalCaseInput.result]
    split_ifs <;> rfl
  · simp only [CitationCaseInput.result]
    split_ifs <;> rfl

/-- The refs of the cases, in order. -/
def sortedRefs (golden : GoldenSet) : List Str := (sortedBy (·.caseRef) golden.cases).map (·.caseRef)

theorem mem_sortedRefs {ref : Str} : ref ∈ sortedRefs golden ↔ ref ∈ golden.cases.map (·.caseRef) :=
  ((sortedBy_perm _ _).map _).mem_iff

theorem nodup_sortedRefs : (sortedRefs golden).Nodup :=
  ((sortedBy_perm _ _).map _).nodup_iff.mpr golden.unique

/-- The security results of a run are those of the observations that are kept. -/
theorem Observed.security {cases : List EvaluationCaseObservation} {inputs : List CaseInputs}
    (h : Observed digests golden cases inputs) :
    inputs.map (·.security) = (keptOf (·.caseRef) cases (sortedRefs golden)).map (·.securityObservation) := by
  rw [Observed] at h
  rw [sortedRefs, keptOf]
  generalize sortedBy (·.caseRef) golden.cases = gs at h
  induction h with
  | nil => rfl
  | cons hi _ ih =>
    obtain ⟨o, ho, hinputs⟩ := hi
    rw [List.map_cons, List.map_cons, List.filterMap_cons_some ho, List.map_cons, ih, (caseInputs_ok hinputs).1]

/-- The weight of what is kept. -/
theorem Observed.sum_events {cases : List EvaluationCaseObservation} {inputs : List CaseInputs}
    (h : Observed digests golden cases inputs) : ((inputs.map (·.security)).map fun r => r.events.length).sum =
      ((keptOf (·.caseRef) cases (sortedRefs golden)).map fun o => o.securityObservation.events.length).sum := by
  rw [h.security, List.map_map]
  rfl

theorem Observed.mem_security {cases : List EvaluationCaseObservation} {inputs : List CaseInputs} {r : CaseSecurityResult}
    (h : Observed digests golden cases inputs) : r ∈ inputs.map (·.security) ↔
      ∃ g ∈ golden.cases, ∃ o, dictBy (·.caseRef) cases g.caseRef = some o ∧ o.securityObservation = r := by
  rw [h.security, keptOf, sortedRefs, List.filterMap_map]
  simp only [List.mem_map, List.mem_filterMap, mem_sortedBy, Function.comp_apply]
  constructor
  · rintro ⟨o, ⟨g, hg, ho⟩, rfl⟩
    exact ⟨g, hg, o, ho, rfl⟩
  · rintro ⟨g, hg, o, ho, rfl⟩
    exact ⟨o, ⟨g, hg, ho⟩, rfl⟩

end Building

/-! ## Soundness -/

section Soundness

variable {digests : Digests} {fromisoformat : FromIsoformat} {golden : GoldenSet} {run : EvaluationRun}
  {thresholds : EvaluationThresholds fromisoformat} {generatedAt : ReportTime} {report : Report}
  {cases : List EvaluationCaseObservation} {inputs : List CaseInputs}

theorem events_length_ne_zero {r : CaseSecurityResult} : r.events.length ≠ 0 ↔ r.violates = true := by
  cases r with
  | observation o => simp [CaseSecurityResult.events, CaseSecurityResult.violates]
  | violation v => simp [CaseSecurityResult.events, CaseSecurityResult.violates, v.nonempty]

/-- Observations that agree may be kept in place of one another. -/
theorem Observed.reordered (h : Observed digests golden run.cases inputs) (hagree : RepeatsAgree digests golden run)
    (hperm : cases.Perm run.cases) : ∃ inputs', Observed digests golden cases inputs' ∧
      inputs.map (·.results) = inputs'.map (·.results) ∧
      inputs.map (·.answer.answerability) = inputs'.map (·.answer.answerability) ∧
      List.Forall₂ Alike (inputs.map (·.security)) (inputs'.map (·.security)) := by
  have hmem : ∀ g ∈ sortedBy (·.caseRef) golden.cases, g ∈ golden.cases := fun g hg => (mem_sortedBy _).mp hg
  simp only [Observed] at h ⊢
  generalize sortedBy (·.caseRef) golden.cases = gs at h hmem
  induction h with
  | nil => exact ⟨[], .nil, rfl, rfl, .nil⟩
  | @cons g i gs inputs hi _ ih =>
    obtain ⟨rest, hrest, hresults, hanswer, halike⟩ := ih fun g hg => hmem g (List.mem_cons_of_mem _ hg)
    obtain ⟨o, ho, hinputs⟩ := hi
    obtain ⟨hrun, href⟩ := dictBy_mem ho
    obtain ⟨o', ho'⟩ : ∃ o', dictBy (·.caseRef) cases g.caseRef = some o' :=
      exists_dictBy.mpr ⟨o, hperm.mem_iff.mpr hrun, href⟩
    obtain ⟨hcases', href'⟩ := dictBy_mem ho'
    have hrun' := hperm.mem_iff.mp hcases'
    have hsame := hagree.judged g (hmem g List.mem_cons_self) o hrun o' hrun' href href'
    obtain ⟨i', hinputs', heq⟩ : ∃ i', caseInputs digests g o' = .ok i' ∧ i.results = i'.results := by
      simp only [judgeCase, hinputs] at hsame
      cases hcase : caseInputs digests g o' with
      | error e =>
        rw [hcase] at hsame
        cases hsame
      | ok i' =>
        rw [hcase] at hsame
        exact ⟨i', rfl, Except.ok.inj hsame⟩
    obtain ⟨hsecurity, hcaseRef, hanswerability, -⟩ := caseInputs_ok hinputs
    obtain ⟨hsecurity', hcaseRef', hanswerability', -⟩ := caseInputs_ok hinputs'
    refine ⟨i' :: rest, .cons ⟨o', ho', hinputs'⟩ hrest, ?_, ?_, ?_⟩
    · rw [List.map_cons, List.map_cons, heq, hresults]
    · rw [List.map_cons, List.map_cons, hanswerability, hanswerability', hanswer]
    · refine .cons (show Alike i.security i'.security from ⟨?_, ?_⟩) halike
      · rw [hsecurity, hsecurity', hcaseRef, hcaseRef']
      · rw [hsecurity, hsecurity']
        -- a violation is the only observation of its ref
        by_cases hv : o.securityObservation.violates = true
        · exact .inl (congrArg _ (eq_of_countP_one (hagree.violations o hrun hv) hrun hrun' (href'.trans href.symm)).symm)
        · by_cases hv' : o'.securityObservation.violates = true
          · exact .inl (congrArg _ (eq_of_countP_one (hagree.violations o' hrun' hv') hrun' hrun (href.trans href'.symm)))
          · exact .inr ⟨by simpa using hv, by simpa using hv'⟩

/-- Every observation of a run is of a case of the set. -/
theorem golden_of_mem (hrefs : (golden.cases.map (·.caseRef)).toFinset = (cases.map (·.caseRef)).toFinset)
    {o : EvaluationCaseObservation} (ho : o ∈ cases) : ∃ g ∈ golden.cases, g.caseRef = o.caseRef := by
  have hmem : o.caseRef ∈ (golden.cases.map (·.caseRef)).toFinset := by
    rw [hrefs, List.mem_toFinset]
    exact List.mem_map_of_mem ho
  obtain ⟨g, hg, href⟩ := List.mem_map.mp (List.mem_toFinset.mp hmem)
  exact ⟨g, hg, href⟩

/-- A violation that no observation hides is kept. -/
theorem Observed.violates (h : Observed digests golden run.cases inputs) (hagree : RepeatsAgree digests golden run)
    (hrefs : (golden.cases.map (·.caseRef)).toFinset = (run.cases.map (·.caseRef)).toFinset) :
    (inputs.map (·.security)).any (·.violates) = true ↔ ∃ o ∈ run.cases, o.securityObservation.violates = true := by
  rw [List.any_eq_true]
  constructor
  · rintro ⟨r, hr, hv⟩
    obtain ⟨g, -, o, ho, rfl⟩ := h.mem_security.mp hr
    exact ⟨o, (dictBy_mem ho).1, hv⟩
  · rintro ⟨o, ho, hv⟩
    obtain ⟨g, hg, href⟩ := golden_of_mem hrefs ho
    refine ⟨_, h.mem_security.mpr ⟨g, hg, o, ?_, rfl⟩, hv⟩
    rw [href]
    exact dictBy_unique ho fun o' ho' => eq_of_countP_one (hagree.violations o ho hv) ho ho'

/-- The violation events of a run are all counted. -/
theorem Observed.counted (h : Observed digests golden run.cases inputs) (hagree : RepeatsAgree digests golden run)
    (hrefs : (golden.cases.map (·.caseRef)).toFinset = (run.cases.map (·.caseRef)).toFinset) :
    ((inputs.map (·.security)).map fun r => r.events.length).sum = eventCount run.cases := by
  rw [h.sum_events, eventCount]
  refine sum_kept_eq _ nodup_sortedRefs (fun o ho => ?_) fun o ho hw => ?_
  · obtain ⟨g, hg, href⟩ := golden_of_mem hrefs ho
    exact mem_sortedRefs.mpr (href ▸ List.mem_map_of_mem hg)
  · exact hagree.violations o ho (events_length_ne_zero.mp hw)

/-- Where no observation violates, one case shows the worst state of every order. -/
theorem worst_observed (hagree : RepeatsAgree digests golden run)
    (hrefs : (golden.cases.map (·.caseRef)).toFinset = (run.cases.map (·.caseRef)).toFinset)
    (hclear : ¬∃ o ∈ run.cases, o.securityObservation.violates = true) : ∃ n < 3,
      (∀ o ∈ run.cases, o.securityObservation.severity ≤ n) ∧
      ∀ cases inputs', cases.Perm run.cases → Observed digests golden cases inputs' →
        (worstState (inputs'.map (·.security))).severity = n := by
  obtain ⟨g, hg, hworst⟩ := hagree.observed.resolve_left hclear
  obtain ⟨o, ho⟩ : ∃ o, dictBy (·.caseRef) run.cases g.caseRef = some o := by
    have hmem : g.caseRef ∈ (run.cases.map (·.caseRef)).toFinset := by
      rw [← hrefs, List.mem_toFinset]
      exact List.mem_map_of_mem hg
    obtain ⟨o, ho, href⟩ := List.mem_map.mp (List.mem_toFinset.mp hmem)
    exact exists_dictBy.mpr ⟨o, ho, href⟩
  obtain ⟨hrun, href⟩ := dictBy_mem ho
  have hlt : o.securityObservation.severity < 3 := by
    refine lt_of_le_of_ne (severity_le _) fun h3 => hclear ⟨o, hrun, severity_violates.mp h3⟩
  refine ⟨_, hlt, hworst o hrun href, fun cases inputs' hperm h' => worstState_severity hlt ?_ fun r hr => ?_⟩
  · obtain ⟨o', ho'⟩ : ∃ o', dictBy (·.caseRef) cases g.caseRef = some o' :=
      exists_dictBy.mpr ⟨o, hperm.mem_iff.mpr hrun, href⟩
    obtain ⟨hcases', href'⟩ := dictBy_mem ho'
    have hrun' := hperm.mem_iff.mp hcases'
    exact ⟨_, h'.mem_security.mpr ⟨g, hg, o', ho', rfl⟩, le_antisymm (hworst o hrun href o' hrun') (hworst o' hrun' href' o hrun)⟩
  · obtain ⟨g', -, o', ho', rfl⟩ := h'.mem_security.mp hr
    exact hworst o hrun href o' (hperm.mem_iff.mp (dictBy_mem ho').1)

/-- A report of observations that agree is sound. -/
theorem vetoesSoundly_of_repeatsAgree (h : buildEvaluationReport digests golden run thresholds generatedAt = .ok report)
    (hagree : RepeatsAgree digests golden run) : VetoesSoundly digests golden run thresholds generatedAt report := by
  obtain ⟨hpilot, hrefs, inputs, layers, hobserved, hlayers, hassemble⟩ := buildEvaluationReport_ok.mp h
  obtain ⟨hstatus, hsecurity, hretrieval, hcitation, hanswer, hslices, hanswerStatus⟩ := assemble_ok hassemble
  refine ⟨fun o ho hv => ?_, fun hpass => ?_, fun cases hperm => ?_⟩
  · have hany := (hobserved.violates hagree hrefs).mpr ⟨o, ho, hv⟩
    constructor
    · obtain ⟨-, hfail⟩ := finalReportStatus_ok.mp hstatus
      rw [hfail, if_pos hany]
    · exact (securityReport_counts hsecurity).mpr ⟨hany, hobserved.counted hagree hrefs⟩
  · rw [hpass] at hstatus
    obtain ⟨hclean, hgates⟩ := finalReportStatus_pass hstatus
    obtain ⟨htracked, hcitationPass, hanswerPass, hslicesPass⟩ := status_pass hgates
    have hclear : ¬∃ o ∈ run.cases, o.securityObservation.violates = true := by
      rw [← hobserved.violates hagree hrefs, List.any_eq_true]
      rintro ⟨r, hr, hv⟩
      have hstate := hclean r hr
      cases r with
      | observation o => cases hv
      | violation v => cases hstate
    constructor
    · intro o ho
      obtain ⟨n, hn, hmax, hworst⟩ := worst_observed hagree hrefs hclear
      have hzero : n = 0 := by
        rw [← hworst run.cases inputs (List.Perm.refl _) hobserved, worstState_clean hclean]
        rfl
      exact severity_clean.mp (Nat.le_zero.mp (hzero ▸ hmax o ho))
    · exact gatesPassed_of_pass hlayers hassemble hgates
  · obtain ⟨inputs', hobserved', hresults, hanswerability, halike⟩ := hobserved.reordered hagree hperm
    refine buildEvaluationReport_ok.mpr ⟨hpilot, ?_, inputs', layers, hobserved', ?_, ?_⟩
    · rw [hrefs, EvaluationRun.reordered, List.toFinset_eq_of_perm _ _ (hperm.map _).symm]
    · rw [← judgeLayers_congr hresults hanswerability]
      exact hlayers
    · rw [← hassemble]
      refine (assemble_congr halike fun hnone => ?_).symm
      have hclear : ¬∃ o ∈ run.cases, o.securityObservation.violates = true := by
        rw [← hobserved.violates hagree hrefs, hnone]
        exact Bool.false_ne_true
      obtain ⟨n, -, -, hworst⟩ := worst_observed hagree hrefs hclear
      exact severity_injective ((hworst _ _ (List.Perm.refl _) hobserved).trans (hworst _ _ hperm hobserved').symm)

end Soundness

/-! ## What soundness asks of repeated refs -/

section Necessary

variable {digests : Digests} {fromisoformat : FromIsoformat} {golden : GoldenSet} {run : EvaluationRun}
  {thresholds : EvaluationThresholds fromisoformat} {generatedAt : ReportTime} {report : Report}
  {cases cases' : List EvaluationCaseObservation} {inputs inputs' : List CaseInputs}

/-- What is listed by the refs of the cases is in order. -/
theorem sortedBy_of_refs {ρ : Type} {ref : ρ → Str} {xs : List ρ} (h : xs.map ref = sortedRefs golden) : sortedBy ref xs = xs := by
  have hpairwise : (sortedRefs golden).Pairwise (· ≤ ·) := List.pairwise_map.mpr (pairwise_sortedBy _ _)
  rw [← h] at hpairwise
  exact sortedBy_of_pairwise (List.pairwise_map.mp hpairwise)

theorem Observed.refs (h : Observed digests golden cases inputs) :
    (inputs.map (·.retrieval.result)).map (·.caseRef) = sortedRefs golden ∧
      (inputs.map (·.citation.result)).map (·.caseRef) = sortedRefs golden ∧
      (inputs.map (·.answer.result)).map (·.caseRef) = sortedRefs golden := by
  rw [Observed] at h
  rw [sortedRefs]
  generalize sortedBy (·.caseRef) golden.cases = gs at h
  induction h with
  | nil => exact ⟨rfl, rfl, rfl⟩
  | cons hi _ ih =>
    obtain ⟨o, -, hinputs⟩ := hi
    obtain ⟨-, -, -, hretrieval, hcitation, hanswer⟩ := caseInputs_ok hinputs
    obtain ⟨ih1, ih2, ih3⟩ := ih
    simp only [List.map_cons, hretrieval, hcitation, hanswer, ih1, ih2, ih3, and_self]

/-- One report, one list of results. -/
theorem Observed.results_eq (h : Observed digests golden cases inputs) (h' : Observed digests golden cases' inputs')
    {layers layers' : Layers} (hlayers : judgeLayers digests golden run.answerJudgeProfile thresholds.configuration inputs = .ok layers)
    (hlayers' : judgeLayers digests golden run.answerJudgeProfile thresholds.configuration inputs' = .ok layers')
    (hretrieval : layers.retrieval = layers'.retrieval) (hcitation : layers.citation = layers'.citation)
    (hanswer : layers.answer = layers'.answer) : inputs.map (·.results) = inputs'.map (·.results) := by
  obtain ⟨hr, hc, ha, -⟩ := judgeLayers_ok hlayers
  obtain ⟨hr', hc', ha', -⟩ := judgeLayers_ok hlayers'
  obtain ⟨href1, href2, href3⟩ := h.refs
  obtain ⟨href1', href2', href3'⟩ := h'.refs
  have h1 : inputs.map (·.retrieval.result) = inputs'.map (·.retrieval.result) := by
    have := congrArg RetrievalReport.cases ((hr.symm.trans hretrieval).trans hr')
    simpa only [retrievalReport, sortedBy_of_refs href1, sortedBy_of_refs href1'] using this
  have h2 : inputs.map (·.citation.result) = inputs'.map (·.citation.result) := by
    have := congrArg CitationReport.cases ((hc.symm.trans hcitation).trans hc')
    simpa only [citationReport, sortedBy_of_refs href2, sortedBy_of_refs href2'] using this
  have h3 : inputs.map (·.answer.result) = inputs'.map (·.answer.result) := by
    have := (ha.symm.trans (congrArg AnswerReport.cases hanswer)).trans ha'
    simpa only [sortedBy_of_refs href3, sortedBy_of_refs href3'] using this
  clear h h' hlayers hlayers' hr hc ha hr' hc' ha' href1 href2 href3 href1' href2' href3'
  induction inputs generalizing inputs' with
  | nil =>
    rw [List.map_nil, eq_comm, List.map_eq_nil_iff] at h1
    rw [h1]
  | cons i inputs ih =>
    cases inputs' with
    | nil => cases h1
    | cons i' inputs' =>
      simp only [List.map_cons, List.cons.injEq] at h1 h2 h3 ⊢
      refine ⟨?_, ih h1.2 h2.2 h3.2⟩
      simp only [CaseInputs.results, h1.1, h2.1, h3.1]

/-- Equal results are of observations that are judged alike. -/
theorem Observed.judged_eq (h : Observed digests golden cases inputs) (h' : Observed digests golden cases' inputs')
    (heq : inputs.map (·.results) = inputs'.map (·.results)) : ∀ g ∈ golden.cases, ∃ o o',
      dictBy (·.caseRef) cases g.caseRef = some o ∧ dictBy (·.caseRef) cases' g.caseRef = some o' ∧
      judgeCase digests g o = judgeCase digests g o' := by
  intro g hg
  have hmem : g ∈ sortedBy (·.caseRef) golden.cases := (mem_sortedBy _).mpr hg
  rw [Observed] at h h'
  generalize sortedBy (·.caseRef) golden.cases = gs at h h' hmem
  induction h generalizing inputs' with
  | nil => cases hmem
  | cons hi _ ih =>
    obtain ⟨i', rest, hi', hrest, rfl⟩ := List.forall₂_cons_left_iff.mp h'
    simp only [List.map_cons, List.cons.injEq] at heq
    rcases List.mem_cons.mp hmem with rfl | hmem
    · obtain ⟨o, ho, hinputs⟩ := hi
      obtain ⟨o', ho', hinputs'⟩ := hi'
      refine ⟨o, o', ho, ho', ?_⟩
      simp only [judgeCase, hinputs, hinputs', Except.map, heq.1]
    · exact ih heq.2 hrest hmem

/-- What another order of the run is judged as. -/
theorem VetoesSoundly.reordered (hsound : VetoesSoundly digests golden run thresholds generatedAt report)
    (hperm : cases.Perm run.cases) : ∃ inputs layers, Observed digests golden cases inputs ∧
      judgeLayers digests golden run.answerJudgeProfile thresholds.configuration inputs = .ok layers ∧
      report.body.retrieval = layers.retrieval ∧ report.body.citation = layers.citation ∧ report.body.answer = layers.answer ∧
      securityReport (inputs.map (·.security)) = .ok report.body.security := by
  obtain ⟨-, -, inputs, layers, hobserved, hlayers, hassemble⟩ := buildEvaluationReport_ok.mp (hsound.permuted cases hperm)
  obtain ⟨-, hsecurity, hretrieval, hcitation, hanswer, -⟩ := assemble_ok hassemble
  exact ⟨inputs, layers, hobserved, hlayers, hretrieval, hcitation, hanswer, hsecurity⟩

/-- Sound reports judge what shares a ref alike. -/
theorem VetoesSoundly.judged (hsound : VetoesSoundly digests golden run thresholds generatedAt report)
    {g : GoldenCase} (hg : g ∈ golden.cases) {o o' : EvaluationCaseObservation} (ho : o ∈ run.cases) (ho' : o' ∈ run.cases)
    (href : o.caseRef = g.caseRef) (href' : o'.caseRef = g.caseRef) : judgeCase digests g o = judgeCase digests g o' := by
  obtain ⟨ys, hperm, hkept, -⟩ := exists_perm_kept (·.caseRef) ho
  obtain ⟨ys', hperm', hkept', -⟩ := exists_perm_kept (·.caseRef) ho'
  obtain ⟨inputs, layers, hobserved, hlayers, hretrieval, hcitation, hanswer, -⟩ := hsound.reordered hperm
  obtain ⟨inputs', layers', hobserved', hlayers', hretrieval', hcitation', hanswer', -⟩ := hsound.reordered hperm'
  have heq := hobserved.results_eq hobserved' hlayers hlayers' (hretrieval.symm.trans hretrieval') (hcitation.symm.trans hcitation')
    (hanswer.symm.trans hanswer')
  obtain ⟨p, p', hp, hp', hsame⟩ := hobserved.judged_eq hobserved' heq g hg
  rw [← href, hkept] at hp
  rw [← href', hkept'] at hp'
  cases hp
  cases hp'
  exact hsame

/-- Sound reports lose no violation to a repeated ref. -/
theorem VetoesSoundly.unrepeated (hsound : VetoesSoundly digests golden run thresholds generatedAt report)
    {o : EvaluationCaseObservation} (ho : o ∈ run.cases) (hv : o.securityObservation.violates = true) :
    run.cases.countP (fun o' => o'.caseRef = o.caseRef) = 1 := by
  by_contra hrepeated
  obtain ⟨zs, hperm, hdropped⟩ := exists_perm_dropped (·.caseRef) ho hrepeated
  obtain ⟨inputs, -, hobserved, -, -, -, -, hsecurity⟩ := hsound.reordered hperm
  obtain ⟨-, hcounts⟩ := (securityReport_counts hsecurity).mp (hsound.veto o ho hv).2
  have hkept : keptOf (·.caseRef) (o :: zs) (sortedRefs golden) = keptOf (·.caseRef) zs (sortedRefs golden) :=
    List.filterMap_congr fun k _ => hdropped k
  have hle : ((keptOf (·.caseRef) zs (sortedRefs golden)).map fun o => o.securityObservation.events.length).sum ≤ eventCount zs :=
    sum_kept_le _ _ nodup_sortedRefs
  have htotal : eventCount run.cases = o.securityObservation.events.length + eventCount zs := by
    rw [eventCount, ← (hperm.map _).sum_eq, List.map_cons, List.sum_cons, eventCount]
  have hpos := Nat.pos_of_ne_zero (events_length_ne_zero.mpr hv)
  rw [hobserved.sum_events, hkept, htotal] at hcounts
  omega

/-- Sound reports of a run without a violation show a state that no order hides. -/
theorem VetoesSoundly.observed (h : buildEvaluationReport digests golden run thresholds generatedAt = .ok report)
    (hsound : VetoesSoundly digests golden run thresholds generatedAt report)
    (hclear : ¬∃ o ∈ run.cases, o.securityObservation.violates = true) :
    ∃ g ∈ golden.cases, ∀ o ∈ run.cases, o.caseRef = g.caseRef →
      ∀ o' ∈ run.cases, o'.securityObservation.severity ≤ o.securityObservation.severity := by
  classical
  obtain ⟨-, hrefs, -⟩ := buildEvaluationReport_ok.mp h
  obtain ⟨worst, hworst, hmax⟩ := run.cases.toFinset.exists_max_image (fun o => o.securityObservation.severity)
    (List.toFinset_nonempty_iff _ |>.mpr run.nonempty)
  rw [List.mem_toFinset] at hworst
  replace hmax : ∀ o ∈ run.cases, o.securityObservation.severity ≤ worst.securityObservation.severity :=
    fun o ho => hmax o (List.mem_toFinset.mpr ho)
  have hlt : worst.securityObservation.severity < 3 :=
    lt_of_le_of_ne (severity_le _) fun h3 => hclear ⟨worst, hworst, severity_violates.mp h3⟩
  by_contra hhidden
  push Not at hhidden
  -- one order keeps the worst observation, another one no observation that is as bad
  have hstate {cases : List EvaluationCaseObservation} (hperm : cases.Perm run.cases) : ∃ inputs, Observed digests golden cases inputs ∧
      report.body.security = observationReport (worstState (inputs.map (·.security))) := by
    obtain ⟨inputs, -, hobserved, -, -, -, -, hsecurity⟩ := hsound.reordered hperm
    obtain ⟨-, hreport⟩ := securityReport_ok.mp hsecurity
    refine ⟨inputs, hobserved, ?_⟩
    rw [hreport, if_neg]
    rw [List.any_eq_true]
    rintro ⟨r, hr, hv⟩
    obtain ⟨g, -, o, ho, rfl⟩ := hobserved.mem_security.mp hr
    exact hclear ⟨o, hperm.mem_iff.mp (dictBy_mem ho).1, hv⟩
  obtain ⟨ys, hperm, hkept, -⟩ := exists_perm_kept (·.caseRef) hworst
  obtain ⟨inputs, hobserved, hreport⟩ := hstate hperm
  obtain ⟨ys', hperm', hbetter⟩ := exists_perm_all (·.caseRef) run.cases
    fun o => decide (o.securityObservation.severity < worst.securityObservation.severity)
  obtain ⟨inputs', hobserved', hreport'⟩ := hstate hperm'
  have hsame := observationReport_injective (hreport.symm.trans hreport')
  have hfull : (worstState (inputs.map (·.security))).severity = worst.securityObservation.severity := by
    obtain ⟨g, hg, href⟩ := golden_of_mem hrefs hworst
    refine worstState_severity hlt ⟨_, hobserved.mem_security.mpr ⟨g, hg, worst, href ▸ hkept, rfl⟩, rfl⟩ fun r hr => ?_
    obtain ⟨g', -, o', ho', rfl⟩ := hobserved.mem_security.mp hr
    exact hmax o' (hperm.mem_iff.mp (dictBy_mem ho').1)
  have hless : ∀ r ∈ inputs'.map (·.security), r.severity < worst.securityObservation.severity := by
    intro r hr
    obtain ⟨g, hg, o, ho, rfl⟩ := hobserved'.mem_security.mp hr
    obtain ⟨o1, ho1, href1, o2, ho2, hlt12⟩ := hhidden g hg
    obtain ⟨o', ho', hp⟩ := hbetter o1 ho1 (decide_eq_true (hlt12.trans_le (hmax o2 ho2)))
    rw [href1, ho] at ho'
    cases ho'
    exact of_decide_eq_true hp
  rw [hsame] at hfull
  rcases worstState_mem (inputs'.map (·.security)) with hzero | ⟨r, hr, hr'⟩
  · obtain ⟨g, hg, -⟩ := golden_of_mem hrefs hworst
    obtain ⟨o1, ho1, -, o2, ho2, hlt12⟩ := hhidden g hg
    have := hmax o2 ho2
    omega
  · have := hless r hr
    omega

end Necessary

/-! ## A hidden violation -/

section Hidden

def hiddenDigests : Digests :=
  ⟨fun l => l.sourceRef ++ l.resourceRef ++ l.revisionRef ++ l.fragmentRef, fun _ => [], fun _ _ => (0, 1)⟩

def hiddenCase : GoldenCase := ⟨Str.ofString "case-1", [], [], .unanswerable, .singleDoc⟩

def hiddenSet : GoldenSet := ⟨Str.ofString "set", [hiddenCase], [], [], by decide, by decide⟩

def refusedAnswer (caseRef : Str) (security : CaseSecurityResult) : EvaluationCaseObservation :=
  ⟨caseRef, [], [], 0, true, false, security⟩

def cleanAnswer : EvaluationCaseObservation :=
  refusedAnswer (Str.ofString "case-1") (.observation ⟨Str.ofString "case-1", .observedClean, by decide⟩)

def unauthorized : CaseSecurityViolation :=
  ⟨Str.ofString "case-1", [⟨.unauthorizedEvidence, Str.ofString "event-1", by decide⟩], by decide, by decide, by decide⟩

/-- A violation, and a clean observation of the same case after it. -/
def hiddenRun : EvaluationRun :=
  ⟨⟨Str.ofString "model", Str.ofString "profile"⟩,
    [refusedAnswer (Str.ofString "case-1") (.violation unauthorized), cleanAnswer], none, by simp, rfl⟩

def pendingConfiguration : Configuration :=
  ⟨.pending, .pending,
    sortedBy (·.rank) (Thresholds.expectedPairs.map fun p => (⟨p.1, p.2, .pending, .pending⟩ : LayerSliceThreshold)), [], .tracked⟩

def pendingThresholds : EvaluationThresholds fun _ => none := ⟨pendingConfiguration, by decide +kernel⟩

def statusOf : Except Refused Report → Option ReportStatus
  | .ok report => some report.body.status
  | .error _ => none

theorem hidden_status : statusOf (buildEvaluationReport hiddenDigests hiddenSet hiddenRun pendingThresholds (.aware 0 ⟨0⟩)) =
    some .pendingPreregistration := by
  decide +kernel

theorem hidden_built : ∃ report, buildEvaluationReport hiddenDigests hiddenSet hiddenRun pendingThresholds (.aware 0 ⟨0⟩) = .ok report ∧
    report.body.status = .pendingPreregistration := by
  have hstatus := hidden_status
  cases h : buildEvaluationReport hiddenDigests hiddenSet hiddenRun pendingThresholds (.aware 0 ⟨0⟩) with
  | ok report =>
    rw [h] at hstatus
    exact ⟨report, rfl, Option.some.inj hstatus⟩
  | error e =>
    rw [h] at hstatus
    cases hstatus

/-- The violation is in the run, and the report does not fail. -/
theorem vetoesSoundly_hidden : ∃ report,
    buildEvaluationReport hiddenDigests hiddenSet hiddenRun pendingThresholds (.aware 0 ⟨0⟩) = .ok report ∧
      report.body.status = .pendingPreregistration ∧
      ¬VetoesSoundly hiddenDigests hiddenSet hiddenRun pendingThresholds (.aware 0 ⟨0⟩) report := by
  obtain ⟨report, h, hstatus⟩ := hidden_built
  refine ⟨report, h, hstatus, fun hsound => ?_⟩
  obtain ⟨hfail, -⟩ := hsound.veto _ List.mem_cons_self rfl
  rw [hstatus] at hfail
  cases hfail

end Hidden

/-! ## The equivalence -/

section Equivalence

variable {digests : Digests} {fromisoformat : FromIsoformat} {golden : GoldenSet} {run : EvaluationRun}
  {thresholds : EvaluationThresholds fromisoformat} {generatedAt : ReportTime} {report : Report}

/-- **A report is sound exactly where repeated case refs agree.** -/
theorem vetoesSoundly_iff (h : buildEvaluationReport digests golden run thresholds generatedAt = .ok report) :
    VetoesSoundly digests golden run thresholds generatedAt report ↔ RepeatsAgree digests golden run := by
  constructor
  · intro hsound
    refine ⟨fun g hg o ho o' ho' href href' => hsound.judged hg ho ho' href href', fun o ho hv => hsound.unrepeated ho hv, ?_⟩
    by_cases hclear : ∃ o ∈ run.cases, o.securityObservation.violates = true
    · exact .inl hclear
    · exact .inr (hsound.observed h hclear)
  · exact vetoesSoundly_of_repeatsAgree h

end Equivalence

section Repeated

def repeatedSet : GoldenSet :=
  ⟨Str.ofString "set", [hiddenCase, { hiddenCase with caseRef := Str.ofString "case-2" }], [], [], by decide, by decide⟩

/-- One case is observed twice, and the violation is of the other one. -/
def repeatedRun : EvaluationRun :=
  ⟨⟨Str.ofString "model", Str.ofString "profile"⟩,
    [cleanAnswer,
      refusedAnswer (Str.ofString "case-2") (.violation
        ⟨Str.ofString "case-2", [⟨.unauthorizedEvidence, Str.ofString "event-1", by decide⟩], by decide, by decide, by decide⟩),
      cleanAnswer],
    none, by simp, rfl⟩

/-- The observations of `repeatedRun` that share a ref are the same. -/
theorem repeatedRun_agrees : RepeatsAgree hiddenDigests repeatedSet repeatedRun where
  judged := by
    intro g _ o ho o' ho' href href'
    have hsame : o.caseRef = o'.caseRef := href.trans href'.symm
    simp only [repeatedRun, List.mem_cons, List.not_mem_nil, or_false] at ho ho'
    rcases ho with rfl | rfl | rfl <;> rcases ho' with rfl | rfl | rfl <;>
      first | rfl | exact absurd hsame (by decide)
  violations := by
    intro o ho hviolates
    simp only [repeatedRun, List.mem_cons, List.not_mem_nil, or_false] at ho
    rcases ho with rfl | rfl | rfl
    · cases hviolates
    · rfl
    · cases hviolates
  observed := .inl ⟨_, List.mem_cons_of_mem _ List.mem_cons_self, rfl⟩

/-- Its report is built and sound, so it fails. -/
theorem vetoesSoundly_iff_repeated : ∃ report,
    buildEvaluationReport hiddenDigests repeatedSet repeatedRun pendingThresholds (.aware 0 ⟨0⟩) = .ok report ∧
      VetoesSoundly hiddenDigests repeatedSet repeatedRun pendingThresholds (.aware 0 ⟨0⟩) report ∧
      report.body.status = .fail := by
  have hstatus : statusOf (buildEvaluationReport hiddenDigests repeatedSet repeatedRun pendingThresholds (.aware 0 ⟨0⟩)) =
      some .fail := by decide +kernel
  cases h : buildEvaluationReport hiddenDigests repeatedSet repeatedRun pendingThresholds (.aware 0 ⟨0⟩) with
  | error e =>
    rw [h] at hstatus
    cases hstatus
  | ok report =>
    have hsound := (vetoesSoundly_iff h).mpr repeatedRun_agrees
    exact ⟨report, rfl, hsound, (hsound.veto _ (List.mem_cons_of_mem _ List.mem_cons_self) rfl).1⟩

end Repeated

end ContextEngine.Learning.EvaluationReport
