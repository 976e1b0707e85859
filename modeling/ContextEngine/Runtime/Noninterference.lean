/-
  ContextEngine.Runtime.Noninterference — what a refused candidate can change.

  Two queries with the same rankers agree when their lists are equal once the refused
  candidates are deleted. Refused candidates shift positions, the provisional order and
  the set that the graph loop filters by; compaction over the admitted candidates and keys
  without ties undo all of it, unless a ranked list bears the graph's own name: then the
  raw positions of that list compete with the positions of the graph evidence.

  Proved:
  - `denied_noninterference_iff`: agreeing queries give the same Package, blocks and
    Evidence in order, exactly when no ranked list is named `graph`.
  - `graph_list_interferes`: a refused candidate ahead of a found one changes the Package.
-/

import ContextEngine.Python.Hashlib
import ContextEngine.Runtime.RankingProofs
import ContextEngine.Runtime.Refusal

namespace ContextEngine.Runtime

open ContextEngine.Python Checks Budget

/-! ## Two runs -/

section TwoRuns

variable {F : Type} (lib : Stdlib) (a : Acquisition (Except Raised))

/-- A ranked list without the candidates that are refused. -/
def RankedCandidateList.admittedOnly (l : RankedCandidateList F) : RankedCandidateList F :=
  { l with candidates := l.candidates.filter fun x => !a.refused lib x.candidateRef }

/-- The two queries are equal once the refused candidates are deleted from both. -/
def AgreeAdmitted (q q' : CandidateQuery F) : Prop :=
  q.rankers = q'.rankers ∧ q.rankedLists.map (·.admittedOnly lib a) = q'.rankedLists.map (·.admittedOnly lib a)

variable {lib a} {q q' : CandidateQuery F}

theorem admitted_entries (q : CandidateQuery F) :
    (q.entries.filter fun e => !a.refused lib e.1).map unplaced =
      (q.rankedLists.map (·.admittedOnly lib a)).flatMap fun l => l.entries.map unplaced := by
  rw [CandidateQuery.entries, List.filter_flatMap, List.map_flatMap, List.flatMap_map]
  congr 1
  funext l
  exact firstEntries_filter (fun c => !a.refused lib c) l.rankerRef l.candidates [] [] 0 0 fun _ _ => Iff.rfl

/-- Agreement, for any set of candidates that are not refused. -/
theorem AgreeAdmitted.entries (h : AgreeAdmitted lib a q q') (keep : CandidateRef → Bool)
    (hkeep : ∀ c, keep c = true → c ∈ q.entries.map (·.1) ∨ c ∈ q'.entries.map (·.1) → a.refused lib c = false) :
    (q.entries.filter fun e => keep e.1).map unplaced = (q'.entries.filter fun e => keep e.1).map unplaced := by
  have hrestrict : ∀ p : CandidateQuery F,
      (∀ c, keep c = true → c ∈ p.entries.map (·.1) → a.refused lib c = false) →
      (p.entries.filter fun e => keep e.1).map unplaced =
        ((p.rankedLists.map (·.admittedOnly lib a)).flatMap fun l => l.entries.map unplaced).filter fun e => keep e.1 := by
    intro p hp
    rw [← admitted_entries, List.filter_map, List.filter_filter]
    congr 1
    refine List.filter_congr fun e he => ?_
    cases hk : keep e.1 with
    | false => simp [unplaced, hk]
    | true => simp [unplaced, hk, hp e.1 hk (List.mem_map_of_mem he)]
  rw [hrestrict q fun c hk hc => hkeep c hk (.inl hc), hrestrict q' fun c hk hc => hkeep c hk (.inr hc), h.2]

theorem AgreeAdmitted.refs (h : AgreeAdmitted lib a q q') {c : CandidateRef} (hc : a.refused lib c = false) :
    c ∈ q.entries.map (·.1) ↔ c ∈ q'.entries.map (·.1) := by
  have hone : ∀ p : CandidateQuery F, c ∈ p.entries.map (·.1) ↔
      c ∈ ((p.entries.filter fun e => e.1 == c).map unplaced).map (·.1) := by
    intro p
    simp [unplaced]
  rw [hone, hone, h.entries (· == c)]
  intro c' hk _
  rw [beq_iff_eq] at hk
  rw [hk]
  exact hc

theorem entries_ranker {e : CandidateRef × RankerEvidence F} (he : e ∈ q.entries) : e.2.rankerRef ∈ q.rankers := by
  obtain ⟨l, hl, he⟩ := List.mem_flatMap.mp he
  rw [(firstEntries_mem he).2.1]
  exact List.mem_map_of_mem hl

/-- Evidence of the graph hop only. -/
def OnlyGraph (xs : List (CandidateRankEvidence F)) : Prop := ∀ e ∈ xs, ∀ x ∈ e.perRanker, x.rankerRef = GRAPH_RANKER_REF

theorem byRanker_append (xs ys : List (CandidateRankEvidence F)) (r : RankerRef) :
    byRanker (xs ++ ys) r = byRanker xs r ++ byRanker ys r := List.flatMap_append

theorem byRanker_eq_nil {xs : List (CandidateRankEvidence F)} {r : RankerRef}
    (h : ∀ e ∈ xs, ∀ x ∈ e.perRanker, x.rankerRef ≠ r) : byRanker xs r = [] := by
  refine List.eq_nil_iff_forall_not_mem.mpr fun v hv => ?_
  obtain ⟨e, he, x, hx, hr, -⟩ := mem_byRanker.mp hv
  exact h e he x hx hr

theorem compacted_fused_graph {fused : FusedCandidates F} (hf : Fuses q fused) {graph : List (CandidateRankEvidence F)} (hgraph : OnlyGraph graph)
    (keep : CandidateRef → Bool) {r : RankerRef} (hr : r ≠ GRAPH_RANKER_REF) :
    compacted ((fused.rankEvidence ++ graph).filter fun e => keep e.candidateRef) r =
      ((q.entries.filter fun e => keep e.1).filter (·.2.rankerRef == r)).map (·.1) := by
  have hnil : byRanker (graph.filter fun e => keep e.candidateRef) r = [] := by
    refine byRanker_eq_nil fun e he x hx h => ?_
    rw [hgraph e (List.mem_filter.mp he).1 x hx] at h
    exact hr h.symm
  rw [← compacted_fused hf, compacted, compacted, List.filter_append, byRanker_append, hnil, List.append_nil]

theorem evidenceOf_filter {xs : List (CandidateRankEvidence F)} {keep : CandidateRef → Bool} (c : CandidateRef) :
    evidenceOf (xs.filter fun e => keep e.candidateRef) c = if keep c then evidenceOf xs c else none := by
  rw [evidenceOf, evidenceOf, List.find?_filter]
  cases hk : keep c with
  | true =>
    simp only [if_true]
    congr 1
    funext e
    by_cases he : e.candidateRef = c
    · simp [he, hk]
    · simp [he]
  | false =>
    simp only [Bool.false_eq_true, if_false]
    refine List.find?_eq_none.mpr fun e _ h => ?_
    simp only [beq_iff_eq, decide_eq_true_eq] at h
    rw [h.2, hk] at h
    exact absurd h.1 (by simp)

/-- The evidence of two agreeing runs, over any set of projections that are not refused. -/
theorem AgreeAdmitted.sameEvidence (h : AgreeAdmitted lib a q q') (hnames : GRAPH_RANKER_REF ∉ q.rankers)
    {fused fused' : FusedCandidates F} (hf : Fuses q fused) (hf' : Fuses q' fused')
    {graph : List (CandidateRankEvidence F)} (hgraph : OnlyGraph graph) (keep : CandidateRef → Bool)
    (hkeep : ∀ c, keep c = true → c ∈ q.entries.map (·.1) ∨ c ∈ q'.entries.map (·.1) → a.refused lib c = false)
    (hnodup : ((fused.rankEvidence ++ graph).map (·.candidateRef)).Nodup)
    (hnodup' : ((fused'.rankEvidence ++ graph).map (·.candidateRef)).Nodup) :
    SameEvidence ((fused.rankEvidence ++ graph).filter fun e => keep e.candidateRef)
      ((fused'.rankEvidence ++ graph).filter fun e => keep e.candidateRef) := by
  have hentries := h.entries keep hkeep
  have hrefs : ∀ c, keep c = true → (c ∈ q.entries.map (·.1) ↔ c ∈ q'.entries.map (·.1)) := by
    intro c hk
    by_cases hc : c ∈ q.entries.map (·.1) ∨ c ∈ q'.entries.map (·.1)
    · exact h.refs (hkeep c hk hc)
    · exact ⟨fun h1 => absurd (.inl h1) hc, fun h1 => absurd (.inr h1) hc⟩
  have hmem : ∀ {p : CandidateQuery F} {fs : FusedCandidates F}, Fuses p fs → ∀ c,
      c ∈ ((fs.rankEvidence ++ graph).filter fun e => keep e.candidateRef).map (·.candidateRef) ↔
        keep c = true ∧ (c ∈ p.entries.map (·.1) ∨ c ∈ graph.map (·.candidateRef)) := by
    intro p fs hp c
    rw [← hp.mem, ← hp.refs]
    simp only [List.mem_map, List.mem_filter, List.mem_append]
    constructor
    · rintro ⟨e, ⟨he | he, hk⟩, rfl⟩
      · exact ⟨hk, .inl ⟨e, he, rfl⟩⟩
      · exact ⟨hk, .inr ⟨e, he, rfl⟩⟩
    · rintro ⟨hk, ⟨e, he, rfl⟩ | ⟨e, he, rfl⟩⟩
      · exact ⟨e, ⟨.inl he, hk⟩, rfl⟩
      · exact ⟨e, ⟨.inr he, hk⟩, rfl⟩
  have hsub : ∀ {zs : List (CandidateRankEvidence F)}, (zs.map (·.candidateRef)).Nodup →
      ((zs.filter fun e => keep e.candidateRef).map (·.candidateRef)).Nodup := fun hz =>
    hz.sublist (List.filter_sublist.map _)
  refine ⟨?_, fun c => ?_, fun r => ?_⟩
  · refine (List.perm_ext_iff_of_nodup (hsub hnodup) (hsub hnodup')).mpr fun c => ?_
    rw [hmem hf, hmem hf']
    exact and_congr_right fun hk => or_congr_left (hrefs c hk)
  · rw [evidenceOf_filter, evidenceOf_filter]
    cases hk : keep c with
    | false => rfl
    | true =>
      have hshape : (evidenceOf fused.rankEvidence c).map shape = (evidenceOf fused'.rankEvidence c).map shape := by
        have hone : ∀ es : List (CandidateRef × RankerEvidence F), (es.map unplaced).filter (·.1 == c) =
            ((es.filter fun e => keep e.1).map unplaced).filter (·.1 == c) := by
          intro es
          rw [List.filter_map, List.filter_map, List.filter_filter]
          congr 1
          refine List.filter_congr fun e _ => ?_
          by_cases he : e.1 = c
          · simp [unplaced, he, hk]
          · simp [unplaced, he]
        rw [shape_fused hf, shape_fused hf', hone q.entries, hone q'.entries, hentries]
      simp only [if_true, evidenceOf, List.find?_append, Option.map_or]
      exact congrArg (Option.or · _) hshape
  · by_cases hr : r = GRAPH_RANKER_REF
    · have hnil : ∀ {p : CandidateQuery F} {fs : FusedCandidates F}, Fuses p fs → GRAPH_RANKER_REF ∉ p.rankers →
          byRanker (fs.rankEvidence.filter fun e => keep e.candidateRef) r = [] := by
        intro p fs hp hnames
        refine byRanker_eq_nil fun e he x hx hxr => hnames ?_
        rw [hp.evidence e (List.mem_filter.mp he).1, mem_evidenceByRef] at hx
        rw [← hr, ← hxr]
        exact entries_ranker hx
      simp only [compacted, List.filter_append, byRanker_append, hnil hf hnames, hnil hf' (h.1 ▸ hnames)]
    · rw [compacted_fused_graph hf hgraph keep hr, compacted_fused_graph hf' hgraph keep hr]
      have hlist : ∀ es : List (CandidateRef × RankerEvidence F), (es.filter (·.2.rankerRef == r)).map (·.1) =
          ((es.map unplaced).filter (·.2.1 == r)).map (·.1) := by
        intro es
        simp [List.filter_map, unplaced, Function.comp_def]
      rw [hlist, hlist, hentries]

/-- The graph hop's evidence is about the projections it was given. -/
theorem rankAuthorizedOneHop_ok [LinearOrder F] {fl : Floats F} {u : UnicodeData} {text : String}
    {projections : List AuthorizedProjection} {graph : List (CandidateRankEvidence F)}
    (h : rankAuthorizedOneHop fl lib u text projections = .ok graph) :
    OnlyGraph graph ∧ ∀ c ∈ graph.map (·.candidateRef), c ∈ projections.map (·.candidateRef) := by
  unfold rankAuthorizedOneHop at h
  obtain ⟨_, -, h1⟩ := bind_ok h
  simp only at h1
  split at h1
  · cases h1; exact ⟨by simp [OnlyGraph], by simp⟩
  obtain ⟨_, -, h2⟩ := bind_ok h1
  cases h2
  refine ⟨fun e he x hx => ?_, fun c hc => ?_⟩
  · obtain ⟨s, -, rfl⟩ := List.mem_map.mp he
    simp only [List.mem_singleton] at hx
    rw [hx]
  · obtain ⟨e, he, rfl⟩ := List.mem_map.mp hc
    obtain ⟨s, hs, rfl⟩ := List.mem_map.mp he
    have hs := (mem_sortedBy _).mp (List.fst_mem_of_mem_zipIdx hs)
    obtain ⟨p, hp, hsp⟩ := List.mem_map.mp (List.mem_filter.mp hs).1
    refine List.mem_map.mpr ⟨p, hp, ?_⟩
    rw [← hsp]

/-- A scope is opened for whatever is projected. -/
theorem authorizeAndProject_scope {xs : List CandidateRef} {ps : List AuthorizedProjection} {s : Option KernelScope}
    (h : authorizeAndProject lib a.invocation a.preparation.policyReceipt a.preparation.provenanceReceipt xs
      (some a.session) none = .ok (ps, s)) (hne : ps ≠ []) : s = some ⟨true⟩ := by
  unfold authorizeAndProject at h
  split at h
  · cases h; exact absurd rfl hne
  · obtain ⟨_, -, h1⟩ := bind_ok h
    cases h1
    rfl

theorem authorizeAcquire_ok {xs : List CandidateRef} {d : AuthorizationDecision}
    (h : authorizeAcquire lib a.invocation a.preparation xs (some a.session) = .ok d) :
    d.expandedCandidateRefs = ∅ ∧ ∀ p ∈ d.projections, a.refused lib p.candidateRef = false ∧
      scopeTarget p.candidateRef ∈ a.preparation.policyReceipt.effectiveScope.targets := by
  unfold authorizeAcquire at h
  obtain ⟨_, -, h1⟩ := bind_ok h
  obtain ⟨⟨ps, s⟩, hps, h2⟩ := bind_ok h1
  cases h2
  refine ⟨rfl, fun p hp => ?_⟩
  have hfst : (authorizeAndProject lib a.invocation a.preparation.policyReceipt a.preparation.provenanceReceipt xs
      (some a.session) none).map Prod.fst = _ := authorizeAndProject_fst xs none
  rw [hps] at hfst
  split at hfst
  · cases hfst; cases hp
  · obtain ⟨c, -, hc⟩ := collect_ok_mem hfst.symm p hp
    obtain ⟨href, hscope⟩ := authorizeCandidate_some hc
    rw [href]
    exact ⟨not_refused_of_some hc, hscope⟩

/-- Exact authorization of lists that agree on admitted candidates. -/
theorem authorizeAcquire_congr {xs ys : List CandidateRef} (h : ∀ c, a.refused lib c = false → (c ∈ xs ↔ c ∈ ys)) :
    (∃ e, authorizeAcquire lib a.invocation a.preparation xs (some a.session) = .error e ∧
      authorizeAcquire lib a.invocation a.preparation ys (some a.session) = .error e) ∨
    ∃ d d', authorizeAcquire lib a.invocation a.preparation xs (some a.session) = .ok d ∧
      authorizeAcquire lib a.invocation a.preparation ys (some a.session) = .ok d' ∧
      d.projections = d'.projections ∧ d.effectiveBudget = d'.effectiveBudget ∧ (d.projections ≠ [] → d = d') := by
  have hps := authorizeAndProject_congr none h
  simp only [authorizeAcquire]
  cases requireEffectiveScopeIntegrity lib a.preparation.policyReceipt.effectiveScope with
  | error e => exact .inl ⟨e, rfl, rfl⟩
  | ok _ =>
    cases hx : authorizeAndProject lib a.invocation a.preparation.policyReceipt a.preparation.provenanceReceipt xs
        (some a.session) none with
    | error e =>
      cases hy : authorizeAndProject lib a.invocation a.preparation.policyReceipt a.preparation.provenanceReceipt ys
          (some a.session) none with
      | error e' => rw [hx, hy] at hps; cases hps; exact .inl ⟨e, rfl, rfl⟩
      | ok r => rw [hx, hy] at hps; cases hps
    | ok r =>
      cases hy : authorizeAndProject lib a.invocation a.preparation.policyReceipt a.preparation.provenanceReceipt ys
          (some a.session) none with
      | error e' => rw [hx, hy] at hps; cases hps
      | ok r' =>
        obtain ⟨ps, s⟩ := r
        obtain ⟨ps', s'⟩ := r'
        rw [hx, hy] at hps
        have hps : ps = ps' := by simpa [Except.map] using hps
        subst hps
        refine .inr ⟨_, _, rfl, rfl, rfl, rfl, fun hne => ?_⟩
        rw [authorizeAndProject_scope hx hne, authorizeAndProject_scope hy hne]

variable [LinearOrder F] (fl : Floats F) (u : UnicodeData)

/-- The selection of two agreeing runs that made the same decision. -/
theorem AgreeAdmitted.select (h : AgreeAdmitted lib a q q') (hnames : GRAPH_RANKER_REF ∉ q.rankers)
    {fused fused' : FusedCandidates F} (hf : Fuses q fused) (hf' : Fuses q' fused')
    {graph : List (CandidateRankEvidence F)} (hgraph : OnlyGraph graph) {d d' : AuthorizationDecision}
    (hproj : d.projections = d'.projections) (hexp : d.expandedCandidateRefs = d'.expandedCandidateRefs)
    (hbudget : d.effectiveBudget = d'.effectiveBudget) (weights : Option (RankerWeights F fl))
    (hsub : ∀ c ∈ graph.map (·.candidateRef), c ∈ d.expandedCandidateRefs)
    (hfresh : ∀ c ∈ d.expandedCandidateRefs, c ∉ fused.candidateRefs ∧ c ∉ fused'.candidateRefs)
    (hadmitted : ∀ p ∈ d.projections, p.candidateRef ∈ fused.candidateRefs ∨ p.candidateRef ∈ fused'.candidateRefs →
      a.refused lib p.candidateRef = false) :
    selectForDelivery fl lib d (fused.rankEvidence ++ graph) weights =
      selectForDelivery fl lib d' (fused'.rankEvidence ++ graph) weights := by
  have hnodup : ∀ {p : CandidateQuery F} {fs : FusedCandidates F}, Fuses p fs →
      (∀ c ∈ d.expandedCandidateRefs, c ∉ fs.candidateRefs) →
      (((fs.rankEvidence ++ graph).map (·.candidateRef)).Nodup ↔ (graph.map (·.candidateRef)).Nodup) := by
    intro p fs hp hout
    rw [List.map_append, hp.refs, List.nodup_append]
    refine ⟨fun h => h.2.1, fun h => ⟨hp.nodup, h, fun c hc c' hc' he => ?_⟩⟩
    exact hout c' (hsub c' hc') (he ▸ hc)
  have hiff := (hnodup hf fun c hc => (hfresh c hc).1).trans (hnodup hf' fun c hc => (hfresh c hc).2).symm
  refine select_congr fl lib hproj hexp hbudget weights (fun c hc => ?_) hiff fun hx ps hps => ?_
  · rw [List.map_append, List.map_append, hf.refs, hf'.refs, List.mem_append, List.mem_append]
    simp [hfresh c hc]
  · refine h.sameEvidence hnames hf hf' hgraph (fun c => (ps.map (·.candidateRef)).contains c) (fun c hk hc => ?_) hx
      (hiff.mp hx)
    rw [List.contains_eq_mem, decide_eq_true_eq] at hk
    obtain ⟨p, hp, rfl⟩ := List.mem_map.mp hk
    rw [← hf.mem, ← hf'.mem] at hc
    exact hadmitted p (hps hp) hc

/-- Agreeing queries give the same Package when no ranked list is the graph's. -/
theorem AgreeAdmitted.resolve (h : AgreeAdmitted lib a q q') (hnames : GRAPH_RANKER_REF ∉ q.rankers)
    (weights : Option (RankerWeights F fl)) :
    resolveContent fl lib u a weights q = resolveContent fl lib u a weights q' := by
  obtain ⟨fused, hq, hf⟩ := fuse_ok fl q
  obtain ⟨fused', hq', hf'⟩ := fuse_ok fl q'
  have hrefs : ∀ c, a.refused lib c = false →
      (c ∈ fused.candidateRefs.insertionSort (· ≤ ·) ↔ c ∈ fused'.candidateRefs.insertionSort (· ≤ ·)) := by
    intro c hc
    rw [List.mem_insertionSort, List.mem_insertionSort, hf.mem, hf'.mem]
    exact h.refs hc
  simp only [resolveContent, hq, hq', liftM_self, bind, Except.bind]
  rcases authorizeAcquire_congr hrefs with ⟨e, hx, hy⟩ | ⟨d, d', hx, hy, hproj, hbudget, hsame⟩
  · rw [hx, hy]
  obtain ⟨hexp, hok⟩ := authorizeAcquire_ok hx
  obtain ⟨hexp', -⟩ := authorizeAcquire_ok hy
  rw [hx, hy]
  simp only
  have hsort : ∀ {c : CandidateRef} {cs : List CandidateRef}, c ∈ cs.insertionSort (· ≤ ·) ↔ c ∈ cs :=
    List.mem_insertionSort _
  by_cases hne : d.projections = []
  · -- nothing was admitted: no graph loop, and nothing to select from
    have hne' : d'.projections = [] := hproj ▸ hne
    simp only [expandOneHop, hne, hne', List.isEmpty_nil, if_true, pure, Except.pure]
    exact h.select fl hnames hf hf' (by simp [OnlyGraph]) hproj (hexp.trans hexp'.symm) hbudget weights (by simp)
      (by simp [hexp]) (by simp [hne])
  · obtain rfl := hsame hne
    have hstart : ∀ avoided : CandidateRef → Prop, Extends a d.projections avoided d := fun avoided =>
      ⟨List.Subset.refl _, fun p hp => .inl hp, by simp [hexp], fun p hp => (hok p hp).2⟩
    have hloop := oneHopLoop_congr hrefs a.limits.oneHopScannedPageLimit 0 (hstart _)
    have hfalse : d.projections.isEmpty = false := by simpa using hne
    simp only [expandOneHop, hfalse, Bool.false_eq_true, if_false, liftM_self, bind, Except.bind]
    rw [hloop]
    cases hd : oneHopLoop lib a d.projections (fused'.candidateRefs.insertionSort (· ≤ ·))
      a.limits.oneHopScannedPageLimit 0 d with
    | error e => rfl
    | ok final =>
      have hx' := oneHopLoop_extends _ 0 (hstart _) (hloop.trans hd)
      have hy' := oneHopLoop_extends _ 0 (hstart _) hd
      have hfresh : ∀ c ∈ final.expandedCandidateRefs, c ∉ fused.candidateRefs ∧ c ∉ fused'.candidateRefs := fun c hc =>
        ⟨fun hm => (hx'.fresh c hc).2 (hsort.mpr hm), fun hm => (hy'.fresh c hc).2 (hsort.mpr hm)⟩
      have hadmitted : ∀ p ∈ final.projections,
          p.candidateRef ∈ fused.candidateRefs ∨ p.candidateRef ∈ fused'.candidateRefs →
            a.refused lib p.candidateRef = false := by
        intro p hp hm
        rcases hx'.added p hp with hmain | hadded
        · exact (hok p hmain).1
        · exact absurd hm (not_or.mpr (hfresh _ hadded))
      by_cases hnone : final.expandedCandidateRefs = ∅
      · simp only [hnone, if_true, pure, Except.pure]
        exact h.select fl hnames hf hf' (by simp [OnlyGraph]) rfl rfl rfl weights (by simp) hfresh hadmitted
      · simp only [hnone, if_false, pure, Except.pure]
        cases hg : rankAuthorizedOneHop fl lib u a.queryText
          (final.projections.filter fun p => decide (p.candidateRef ∈ final.expandedCandidateRefs)) with
        | error e => rfl
        | ok graph =>
          obtain ⟨hgraph, hsub⟩ := rankAuthorizedOneHop_ok hg
          refine h.select fl hnames hf hf' hgraph rfl rfl rfl weights (fun c hc => ?_) hfresh hadmitted
          obtain ⟨p, hp, rfl⟩ := List.mem_map.mp (hsub c hc)
          simpa using (List.mem_filter.mp hp).2

end TwoRuns

/-! ## A list named `graph` -/

namespace GraphClash

def org : UUID := .ofNat 7

def candidate (fragment : OpaqueRef) : CandidateRef :=
  ⟨org, ⟨"wiki", by decide⟩, ⟨"article", by decide⟩, ⟨"r", by decide⟩, fragment⟩

/-- Located by the port. -/
def found : CandidateRef := candidate ⟨"fb", by decide⟩

/-- Refused by the port. -/
def denied : CandidateRef := candidate ⟨"fa", by decide⟩

/-- One hop from `found`. -/
def linked : CandidateRef := candidate ⟨"fc", by decide⟩

/-- The body of every Fragment. -/
def word : Str := .ofString "word"

def port : MaterializedProjectionPort (Except Raised) where
  locate c :=
    if c = denied then .ok none
    else .ok (some ⟨c.organizationId, c.sourceRef.value, c.resourceRef.value, c.revisionRef.value, c.fragmentRef.value,
      "acl", ⟨0⟩, "fresh"⟩)
  project _ := .ok (some ⟨.legacyBody, [⟨"body", word, 0⟩], ["body"]⟩)
  discoverOneHop := some fun anchors _ _ => .ok (anchors.map fun c => ⟨c, linked⟩)

def invocation : AuthenticatedInvocation where
  requestId := "req"
  organizationRef := org
  userRef := org
  principalRef := "user"
  membershipRef := org
  membershipVersion := 1
  policyEpoch := 1
  agentVersionRef := "agent"
  authenticatedApplicationRef := "app"
  authenticationBindingRef := "auth"
  receivedAt := ⟨0⟩
  organizationVerification := ⟨org, "req", "auth", ⟨0⟩⟩
  userActor := ⟨true, org, org, org, 1, "user", "req", "auth", ⟨0⟩, ⟨org, 1⟩, none⟩
  trustedScopeSnapshot := ⟨true, org, org, org, 1, 1, "user", "agent", "answer", "req", "auth", ⟨0⟩,
    ⟨none, none, none, none, none, none, none⟩⟩

def provenance : DecisionProvenanceReceipt :=
  ⟨"dec", "pkg", org, org, org, 1, "user", "agent", "app", "auth", "digest", "req", "answer", ⟨0⟩, "run", "snap", 1, "acl"⟩

theorem length_word_pos : 0 < 4 := by decide

/-- The budget holds one body. -/
def budget : PackageBudget := ⟨4, 1, 1, 1, length_word_pos, Nat.one_pos, Nat.one_pos, Nat.one_pos⟩

section Named

variable {F : Type}

/-- A ranked list per name, all empty but the one that is named `graph`. -/
def namedLists (names : List RankerRef) (cs : List (RankedCandidate F)) : List (RankedCandidateList F) :=
  names.map fun n => ⟨n, if n = GRAPH_RANKER_REF then cs else []⟩

theorem namedLists_rankers (names : List RankerRef) (cs : List (RankedCandidate F)) :
    (namedLists names cs).map (·.rankerRef) = names := by
  simp [namedLists, Function.comp_def]

theorem namedLists_entries {names : List RankerRef} (hnodup : names.Nodup) (hmem : GRAPH_RANKER_REF ∈ names)
    (cs : List (RankedCandidate F)) :
    (namedLists names cs).flatMap (·.entries) = firstEntries GRAPH_RANKER_REF [] 0 cs := by
  have hempty : ∀ ns : List RankerRef, GRAPH_RANKER_REF ∉ ns → (namedLists ns cs).flatMap (·.entries) = [] := by
    intro ns hns
    refine List.flatMap_eq_nil_iff.mpr fun l hl => ?_
    obtain ⟨n, hn, rfl⟩ := List.mem_map.mp hl
    have : n ≠ GRAPH_RANKER_REF := fun h => hns (h ▸ hn)
    simp [RankedCandidateList.entries, this, firstEntries]
  induction names with
  | nil => cases hmem
  | cons n ns ih =>
    obtain ⟨hn, hns⟩ := List.nodup_cons.mp hnodup
    have hcons : namedLists (n :: ns) cs = ⟨n, if n = GRAPH_RANKER_REF then cs else []⟩ :: namedLists ns cs := rfl
    rw [hcons, List.flatMap_cons]
    by_cases hg : n = GRAPH_RANKER_REF
    · subst hg
      rw [hempty ns hn, List.append_nil]
      simp [RankedCandidateList.entries]
    · rw [ih hns ((List.mem_cons.mp hmem).resolve_left (Ne.symm hg))]
      simp [RankedCandidateList.entries, hg, firstEntries]

end Named

section Clash

variable {F : Type} [LinearOrder F] (fl : Floats F) (lib : Stdlib) (u : UnicodeData)

def preparation : PreparedAcquireAuthorization :=
  ⟨budget, ⟨"req", "answer", 1, .of lib {scopeTarget found}⟩, provenance⟩

def acquisition : Acquisition (Except Raised) := ⟨invocation, preparation lib, ⟨true, port⟩, "word", ⟨1, 1, by decide⟩⟩

def lineage : EvidenceLineage :=
  ⟨⟨"run", by decide⟩, ⟨"user", by decide⟩, ⟨"answer", by decide⟩, ⟨0⟩, ⟨"dec", by decide⟩, ⟨"snap", by decide⟩, 1,
    ⟨"acl", by decide⟩, ⟨"acl", by decide⟩, ⟨0⟩, ⟨"fresh", by decide⟩, by decide⟩

/-- What the Kernel projects of a candidate the port locates. -/
def projection (c : CandidateRef) : AuthorizedProjection :=
  ⟨c, word, ["body"], lineage, ⟨true⟩, projectionIntegrityDigest lib c word ["body"] lineage⟩

/-- What the checks and the orders make of these values. -/
structure Settled : Prop where
  body : requireNonblankBody word = .ok word
  refs : validateProjectedFieldRefs ["body"] = .ok ["body"]
  fields : (⟨.legacyBody, [⟨"body", word, 0⟩], ["body"]⟩ : MaterializedFragmentProjection).postInit = .ok ()
  lineage : decisionLineage "user" provenance ⟨found.organizationId, found.sourceRef.value, found.resourceRef.value,
    found.revisionRef.value, found.fragmentRef.value, "acl", ⟨0⟩, "fresh"⟩ = .ok lineage
  page : checkOneHopPage [found] ((1 : Nat) : Int) [⟨found, linked⟩] = .ok ()
  query : blank "word" = false
  tokens : bodyTokens word = .ok 4
  tied : (sortedBy (fun v => (toLex (v.2, v.1) : Nat ×ₗ CandidateRef)) [(found, 1), (linked, 1)]).map (·.1) = [found, linked]
  shifted : (sortedBy (fun v => (toLex (v.2, v.1) : Nat ×ₗ CandidateRef)) [(found, 2), (linked, 1)]).map (·.1) = [linked, found]
  first : (toLex (1, found) : Nat ×ₗ CandidateRef) ≤ toLex (3, linked)
  last : ¬ (toLex (3, found) : Nat ×ₗ CandidateRef) ≤ toLex (1, linked)
  both : sortedSet [denied, found] = [denied, found]
  one : sortedSet [found] = [found]

theorem settled : Settled := by constructor <;> decide +kernel

theorem construct_projection (c : CandidateRef) :
    constructAuthorizedProjection lib ⟨true⟩ c word ["body"] lineage = .ok (projection lib c) := by
  simp only [constructAuthorizedProjection, settled.body, settled.refs]
  rfl

theorem active_projection (c : CandidateRef) : requireActiveAuthorizedProjection lib (projection lib c) = .ok () :=
  requireActive_of_construct lib (construct_projection lib c)

/-- What the port locates and projects. -/
def locator (c : CandidateRef) : MaterializedFragmentLocator :=
  ⟨c.organizationId, c.sourceRef.value, c.resourceRef.value, c.revisionRef.value, c.fragmentRef.value, "acl", ⟨0⟩, "fresh"⟩

def fields : MaterializedFragmentProjection := ⟨.legacyBody, [⟨"body", word, 0⟩], ["body"]⟩

theorem locate_eq (c : CandidateRef) : locateMaterializedFragment (acquisition lib).session c =
    if c = denied then .ok none else .ok (some (locator c)) := rfl

theorem project_eq (l : MaterializedFragmentLocator) :
    projectMaterializedFragment (acquisition lib).session l = .ok (some fields) := by
  have h : fields.postInit = .ok () := settled.fields
  show (fields.postInit >>= fun _ => .ok (some fields)) = _
  rw [h]
  rfl

theorem locator_matches (c : CandidateRef) : locatorMatchesCandidate (locator c) c = true := by
  simp [locatorMatchesCandidate, locator]

theorem refused_denied : (acquisition lib).refused lib denied = true := by
  simp only [Acquisition.refused, authorizeCandidate, locate_eq, if_true]
  rfl

theorem authorizeCandidate_found : authorizeCandidate lib (acquisition lib).invocation
    (acquisition lib).preparation.policyReceipt (acquisition lib).preparation.provenanceReceipt
    (acquisition lib).session ⟨true⟩ found = .ok (some (projection lib found)) := by
  have hne : found ≠ denied := by decide
  have hl : decisionLineage "user" provenance (locator found) = .ok lineage := settled.lineage
  have hs : (⟨(locator found).organizationId, (locator found).sourceRef, some (locator found).resourceRef⟩ : ScopeTarget) ∈
      (acquisition lib).preparation.policyReceipt.effectiveScope.targets := by
    show _ ∈ ({scopeTarget found} : Finset ScopeTarget)
    decide
  have hl : decisionLineage (acquisition lib).invocation.principalRef (acquisition lib).preparation.provenanceReceipt
      (locator found) = .ok lineage := hl
  have hbuilt : constructAuthorizedProjection lib ⟨true⟩ found fields.renderedBody fields.projectedFieldRefs lineage =
      .ok (projection lib found) := construct_projection lib found
  simp only [authorizeCandidate, locate_eq, if_neg hne, bind, Except.bind, locator_matches, Bool.not_true,
    Bool.false_eq_true, if_false, hs, not_true_eq_false, project_eq, hl, hbuilt, liftM, monadLift]
  rfl

/-- The decision on the main path. -/
def mainDecision : AuthorizationDecision :=
  ⟨budget, (preparation lib).policyReceipt, provenance, [projection lib found], some ⟨true⟩, ∅⟩

theorem acquire_eq {xs : List CandidateRef} (h : sortedSet xs = [denied, found] ∨ sortedSet xs = [found]) (hne : xs ≠ []) :
    authorizeAcquire lib (acquisition lib).invocation (acquisition lib).preparation xs (some (acquisition lib).session) =
      .ok (mainDecision lib) := by
  have hcollect : collect (authorizeCandidate lib (acquisition lib).invocation
      (acquisition lib).preparation.policyReceipt (acquisition lib).preparation.provenanceReceipt
      (acquisition lib).session ⟨true⟩) (sortedSet xs) = .ok [projection lib found] := by
    rcases h with h | h
    · rw [h, collect_cons_none (authorizeCandidate_of_refused (refused_denied lib) _)]
      simp only [collect, authorizeCandidate_found]
      rfl
    · rw [h]
      simp only [collect, authorizeCandidate_found]
      rfl
  have hscope : requireEffectiveScopeIntegrity lib (acquisition lib).preparation.policyReceipt.effectiveScope = .ok () :=
    requireEffectiveScopeIntegrity_of lib _
  have hopen : (xs.isEmpty || decide ((acquisition lib).preparation.policyReceipt.effectiveScope.targets = ∅)) = false := by
    have : decide (({scopeTarget found} : Finset ScopeTarget) = ∅) = false := by decide
    show (xs.isEmpty || decide (({scopeTarget found} : Finset ScopeTarget) = ∅)) = false
    rw [this]
    simpa using hne
  simp only [authorizeAcquire, hscope, authorizeAndProject, hopen, Bool.false_eq_true, if_false, Option.getD_none, hcollect]
  rfl

def hopItem : MaterializedOneHopCandidate := ⟨found, linked⟩

theorem expand_eq : expandCandidate lib (mainDecision lib) (acquisition lib).session hopItem =
    .ok (some (.inherited (projection lib linked))) := by
  have hanchor : anchorOf (mainDecision lib) found = some (projection lib found) := by
    simp [anchorOf, mainDecision, projection]
  have hne : linked ≠ denied := by decide
  have hsame : sameArticle linked found = true := by decide
  have hrev : (linked.revisionRef != found.revisionRef) = false := by decide
  have hbuilt : constructInheritedAuthorizedProjection lib (projection lib found) linked fields.renderedBody
      fields.projectedFieldRefs = .ok (projection lib linked) := by
    simp only [constructInheritedAuthorizedProjection, active_projection]
    exact construct_projection lib linked
  have hexp : decide (hopItem.anchorRef ∉ (mainDecision lib).expandedCandidateRefs) = true := by
    simp [mainDecision]
  have hne : hopItem.candidateRef ≠ denied := hne
  simp only [expandCandidate, hexp, ensure_true, bind, Except.bind, liftM, monadLift]
  have h1 : hopItem.anchorRef = found := rfl
  have h2 : hopItem.candidateRef = linked := rfl
  rw [h2] at hne
  simp only [h1, h2, hanchor, hsame, hrev, Bool.not_true, Bool.false_eq_true, if_false, locate_eq, if_neg hne,
    locator_matches, project_eq, hbuilt]
  rfl

/-- The decision after the hop. -/
def graphDecision : AuthorizationDecision :=
  { mainDecision lib with projections := [projection lib found, projection lib linked], expandedCandidateRefs := {linked} }

theorem hop_eq : authorizeOneHop lib (acquisition lib).invocation (acquisition lib).preparation (mainDecision lib)
    (acquisition lib).session [hopItem] = .ok (graphDecision lib) := by
  rw [authorizeOneHop_eq, collect, expand_eq]
  rfl

theorem discover_eq : discoverMaterializedOneHop lib (acquisition lib).session [projection lib found] ((1 : Nat) : Int)
    ((0 : Nat) : Int) = .ok [hopItem] := by
  have hcheck : checkOneHopPage [found] ((1 : Nat) : Int) [hopItem] = .ok () := settled.page
  have hactive : [projection lib found].forM (requireActiveAuthorizedProjection lib) = .ok () := by
    show (requireActiveAuthorizedProjection lib (projection lib found) >>= fun _ => .ok ()) = .ok ()
    rw [active_projection]
    rfl
  show ([projection lib found].forM (requireActiveAuthorizedProjection lib) >>= fun _ =>
    checkOneHopPage [found] ((1 : Nat) : Int) [hopItem] >>= fun _ => .ok [hopItem]) = _
  rw [hactive, hcheck]
  rfl

theorem loop_eq {xs : List CandidateRef} (h : linked ∉ xs) :
    oneHopLoop lib (acquisition lib) [projection lib found] xs 1 0 (mainDecision lib) = .ok (graphDecision lib) := by
  have hfilter : [hopItem].filter (fun i => !xs.contains i.candidateRef) = [hopItem] := by
    simpa [hopItem] using h
  rw [oneHopLoop_succ]
  show (discoverMaterializedOneHop lib (acquisition lib).session [projection lib found] ((1 : Nat) : Int)
    ((0 : Nat) : Int) >>= fun page => if page.isEmpty then .ok (mainDecision lib) else
      authorizeOneHop lib (acquisition lib).invocation (acquisition lib).preparation (mainDecision lib)
        (acquisition lib).session (page.filter fun i => !xs.contains i.candidateRef) >>= fun d' =>
      if page.length < 1 then .ok d' else .ok d') = _
  rw [discover_eq]
  simp only [bind, Except.bind, List.isEmpty_cons, Bool.false_eq_true, if_false, hfilter, hop_eq]
  rfl

theorem words_eq : u.words word = [word] := by
  have hw := u.lowercase_word 'w' (by decide) (by decide)
  have ho := u.lowercase_word 'o' (by decide) (by decide)
  have hr := u.lowercase_word 'r' (by decide) (by decide)
  have hd := u.lowercase_word 'd' (by decide) (by decide)
  have hword : word = [Str.ofChar 'w', Str.ofChar 'o', Str.ofChar 'r', Str.ofChar 'd'] := by decide
  simp [UnicodeData.words, wordsFrom, hword, hw, ho, hr, hd]

/-- What the hop is ranked by. -/
def graphEvidence : CandidateRankEvidence F :=
  ⟨linked, [⟨GRAPH_RANKER_REF, 1, some (fl.ratio 1 1), Nat.one_pos⟩], 1, by simp, by simp, Nat.one_pos⟩

theorem rank_eq : rankAuthorizedOneHop fl lib u "word" [projection lib linked] = .ok [graphEvidence fl] := by
  have hactive : [projection lib linked].forM (requireActiveAuthorizedProjection lib) = .ok () := by
    show (requireActiveAuthorizedProjection lib (projection lib linked) >>= fun _ => .ok ()) = .ok ()
    rw [active_projection]
    rfl
  have hwords : u.words (.ofString "word") = [word] := words_eq u
  simp only [rankAuthorizedOneHop, settled.query, hwords, Bool.not_false, ensure_true, hactive]
  simp [relevance, projection, words_eq, fl.half_lt_ratio, sortedBy, bind, Except.bind, pure, Except.pure, graphEvidence]

theorem expandOneHop_eq {xs : List CandidateRef} (h : linked ∉ xs) :
    expandOneHop fl lib u (acquisition lib) xs (mainDecision lib) = .ok (graphDecision lib, [graphEvidence fl]) := by
  have hfilter : (graphDecision lib).projections.filter (fun p =>
      decide (p.candidateRef ∈ (graphDecision lib).expandedCandidateRefs)) = [projection lib linked] := by
    have hne : found ≠ linked := by decide
    simp [graphDecision, projection, hne]
  have hexp : (graphDecision lib).expandedCandidateRefs ≠ ∅ := by simp [graphDecision]
  show (oneHopLoop lib (acquisition lib) [projection lib found] xs 1 0 (mainDecision lib) >>= fun d => _) = _
  rw [loop_eq lib h]
  have htext : (acquisition lib).queryText = "word" := rfl
  simp only [bind, Except.bind, liftM_self, hexp, if_false, hfilter, htext, rank_eq]
  rfl

/-- The evidence of `found`, ranked at `n` by a list that is named `graph`. -/
def foundEvidence (n : Nat) (hn : 0 < n) (k : Nat) (hk : 0 < k) : CandidateRankEvidence F :=
  ⟨found, [⟨GRAPH_RANKER_REF, n, none, hn⟩], k, by simp, by simp, hk⟩

theorem sortedBy_pair {α κ : Type} [LinearOrder κ] (key : α → κ) (x y : α) :
    sortedBy key [x, y] = if key x ≤ key y then [x, y] else [y, x] := by
  simp [sortedBy, List.insertionSort, List.orderedInsert]

theorem compacted_pair (n : Nat) (hn : 0 < n) (k : Nat) (hk : 0 < k) :
    compacted [foundEvidence n hn k hk, graphEvidence fl] GRAPH_RANKER_REF =
      (sortedBy (fun v => (toLex (v.2, v.1) : Nat ×ₗ CandidateRef)) [(found, n), (linked, 1)]).map (·.1) := by
  simp [compacted, byRanker, foundEvidence, graphEvidence]

theorem score_eq (n : Nat) (hn : 0 < n) (k : Nat) (hk : 0 < k) (c : CandidateRef) (hc : c = found ∨ c = linked) :
    fusedScore fl [foundEvidence n hn k hk, graphEvidence fl] (fun _ => fl.one) c =
      fl.sum [fl.div fl.one (compactedPosition [foundEvidence n hn k hk, graphEvidence fl] GRAPH_RANKER_REF c)] := by
  have hne : found ≠ linked := by decide
  rcases hc with rfl | rfl
  · simp [fusedScore, evidenceOf, foundEvidence]
  · simp [fusedScore, evidenceOf, foundEvidence, graphEvidence, hne]

/-- Where the raw positions tie, the candidates' own order decides. -/
theorem ranked_tied (k : Nat) (hk : 0 < k) :
    rankedRefs fl [foundEvidence 1 (by decide) k hk, graphEvidence fl] (fun _ => fl.one) = [found, linked] := by
  have hc : compacted [foundEvidence 1 (by decide) k hk, graphEvidence fl] GRAPH_RANKER_REF = [found, linked] := by
    rw [compacted_pair]
    exact settled.tied
  have hf : [found, linked].idxOf found = 0 := by decide
  have hl : [found, linked].idxOf linked = 1 := by decide
  show sortedBy _ [found, linked] = _
  rw [sortedBy_pair, if_pos]
  refine Prod.Lex.le_iff.mpr (.inl ?_)
  simp only [scoreKey, score_eq fl _ _ _ _ found (.inl rfl), score_eq fl _ _ _ _ linked (.inr rfl),
    compactedPosition, hc, hf, hl]
  exact fl.sum_half_lt

/-- A refused candidate ahead of `found` leaves no tie. -/
theorem ranked_shifted (k : Nat) (hk : 0 < k) :
    rankedRefs fl [foundEvidence 2 (by decide) k hk, graphEvidence fl] (fun _ => fl.one) = [linked, found] := by
  have hc : compacted [foundEvidence 2 (by decide) k hk, graphEvidence fl] GRAPH_RANKER_REF = [linked, found] := by
    rw [compacted_pair]
    exact settled.shifted
  have hf : [linked, found].idxOf found = 1 := by decide
  have hl : [linked, found].idxOf linked = 0 := by decide
  show sortedBy _ [found, linked] = _
  rw [sortedBy_pair, if_neg]
  refine not_le.mpr (Prod.Lex.lt_iff.mpr (.inl ?_))
  simp only [scoreKey, score_eq fl _ _ _ _ found (.inl rfl), score_eq fl _ _ _ _ linked (.inr rfl),
    compactedPosition, hc, hf, hl]
  exact fl.sum_half_lt

/-- Of the two bodies the budget holds the first. -/
theorem select_eq {xs : List (CandidateRankEvidence F)} (n : Nat) (hn : 0 < n) (k : Nat) (hk : 0 < k)
    (hnodup : ((xs ++ [graphEvidence fl]).map (·.candidateRef)).Nodup)
    (hxs : (xs ++ [graphEvidence fl]).filter (fun e => [found, linked].contains e.candidateRef) =
      [foundEvidence n hn k hk, graphEvidence fl]) {first second : CandidateRef}
    (hranked : rankedRefs fl [foundEvidence n hn k hk, graphEvidence fl] (fun _ => fl.one) = [first, second])
    (hperm : (first = found ∧ second = linked) ∨ (first = linked ∧ second = found)) :
    selectForDelivery fl lib (graphDecision lib) (xs ++ [graphEvidence fl]) none =
      constructPackageContent lib [projection lib first] := by
  have heligible : (graphDecision lib).projections.filter (fun p =>
      decide (p.candidateRef ∉ (graphDecision lib).expandedCandidateRefs) ||
        ((xs ++ [graphEvidence fl]).map (·.candidateRef)).contains p.candidateRef) =
      [projection lib found, projection lib linked] := by
    have hne : found ≠ linked := by decide
    simp [graphDecision, projection, hne, graphEvidence]
  have hitem : ∀ (c : CandidateRef) (e : CandidateRankEvidence F), e.candidateRef = c →
      authorizedRerankItem lib (projection lib c) (some e) = .ok ⟨projection lib c, some e, e.fusedRank⟩ := by
    intro c e he
    have hsame : (some e).all (·.candidateRef == (projection lib c).candidateRef) = true := by simp [projection, he]
    simp only [authorizedRerankItem, active_projection, hsame]
    rfl
  have hfound : evidenceOf [foundEvidence n hn k hk, graphEvidence fl] (projection lib found).candidateRef =
      some (foundEvidence n hn k hk) := by
    simp [evidenceOf, foundEvidence, projection]
  have hlinked : evidenceOf [foundEvidence n hn k hk, graphEvidence fl] (projection lib linked).candidateRef =
      some (graphEvidence fl) := by
    have hne : found ≠ linked := by decide
    simp [evidenceOf, foundEvidence, graphEvidence, projection, hne]
  have hpack : ∀ (c c' : CandidateRef) (e e' : Option (CandidateRankEvidence F)) (r r' : Nat),
      packToBudget (graphDecision lib).effectiveBudget.maxTokens 0
        [(⟨projection lib c, e, r⟩ : AuthorizedRerankItem F), ⟨projection lib c', e', r'⟩] = .ok [⟨projection lib c, e, r⟩] := by
    intro c c' e e' r r'
    have hfour : (graphDecision lib).effectiveBudget.maxTokens = 4 := rfl
    simp only [hfour, packToBudget, projection, settled.tokens, bind, Except.bind, Nat.reduceAdd, Nat.reduceLT, if_true, if_false]
    rfl
  unfold selectForDelivery
  simp only
  rw [heligible]
  unfold joinAuthorizedRanking
  have hrefs : [projection lib found, projection lib linked].map (·.candidateRef) = [found, linked] := rfl
  simp only [hnodup, decide_true, ensure_true, hrefs, hxs]
  simp only [authorizedRankerWeights, bind, Except.bind, hranked, List.mapM_cons, List.mapM_nil, hfound, hlinked,
    Option.map_some]
  rw [hitem found _ rfl, hitem linked _ rfl]
  simp only [pure, Except.pure, sortedBy_pair, selectAuthorizedRanking]
  have hranks : ∀ c c' : CandidateRef, c ≠ c' → authorizedRank [c, c'] c = 1 ∧ authorizedRank [c, c'] c' = 3 := by
    intro c c' hne
    simp [authorizedRank, hne]
  have hne : found ≠ linked := by decide
  rcases hperm with ⟨rfl, rfl⟩ | ⟨rfl, rfl⟩
  · have hkey : (toLex (1, found) : Nat ×ₗ CandidateRef) ≤ toLex (3, linked) := settled.first
    have hgoal := hranks found linked hne
    rw [if_pos (by simpa [projection, hgoal] using hkey)]
    rw [hpack]
    rfl
  · have hkey : ¬ (toLex (3, found) : Nat ×ₗ CandidateRef) ≤ toLex (1, linked) := settled.last
    have hgoal := hranks linked found hne.symm
    rw [if_neg (by simpa [projection, hgoal] using hkey)]
    rw [hpack]
    rfl

/-- `found` alone, and behind a candidate that is refused. -/
def alone : List (RankedCandidate F) := [⟨found, none⟩]
def behindDenied : List (RankedCandidate F) := [⟨denied, none⟩, ⟨found, none⟩]

theorem resolve_eq {q : CandidateQuery F} {n : Nat} (hn : 0 < n)
    (hentries : evidenceByRef q.entries found = [⟨GRAPH_RANKER_REF, n, none, hn⟩])
    (hrefs : q.entries.map (·.1) = [denied, found] ∨ q.entries.map (·.1) = [found]) {first second : CandidateRef}
    (hranked : ∀ k hk, rankedRefs fl [foundEvidence n hn k hk, graphEvidence fl] (fun _ => fl.one) = [first, second])
    (hperm : (first = found ∧ second = linked) ∨ (first = linked ∧ second = found)) :
    resolveContent fl lib u (acquisition lib) none q = constructPackageContent lib [projection lib first] := by
  obtain ⟨fused, hq, hf⟩ := fuse_ok fl q
  have hmem : ∀ c, c ∈ fused.candidateRefs.insertionSort (· ≤ ·) ↔ c ∈ q.entries.map (·.1) := by
    intro c; rw [List.mem_insertionSort, hf.mem]
  have hlinked : linked ∉ q.entries.map (·.1) := by
    rcases hrefs with h | h <;> rw [h] <;> decide
  have hfound : found ∈ q.entries.map (·.1) := by
    rcases hrefs with h | h <;> rw [h] <;> decide
  have hsorted : sortedSet (fused.candidateRefs.insertionSort (· ≤ ·)) = [denied, found] ∨
      sortedSet (fused.candidateRefs.insertionSort (· ≤ ·)) = [found] := by
    rcases hrefs with h | h
    · left
      rw [sortedSet_congr fun c => (hmem c).trans (by rw [h])]
      exact settled.both
    · right
      rw [sortedSet_congr fun c => (hmem c).trans (by rw [h])]
      exact settled.one
  -- one piece of fused evidence is admitted, and it is `found`'s
  have hone : fused.candidateRefs.filter ([found, linked].contains ·) = [found] := by
    refine List.perm_singleton.mp ((List.perm_ext_iff_of_nodup (hf.nodup.filter _) (List.nodup_singleton _)).mpr fun c => ?_)
    rw [List.mem_filter, hf.mem, List.mem_singleton]
    constructor
    · rintro ⟨hc, hk⟩
      have hk : c = found ∨ c = linked := by simpa using hk
      rcases hk with rfl | rfl
      · rfl
      · exact absurd hc hlinked
    · rintro rfl
      exact ⟨hfound, by decide⟩
  rw [← hf.refs, List.filter_map] at hone
  obtain ⟨e, he, href⟩ := List.map_eq_singleton_iff.mp hone
  have hin : e ∈ fused.rankEvidence := by
    have : e ∈ fused.rankEvidence.filter ((fun c => [found, linked].contains c) ∘ (·.candidateRef)) := by
      rw [he]; exact List.mem_singleton_self e
    exact (List.mem_filter.mp this).1
  have heq : e = foundEvidence n hn e.fusedRank e.positive :=
    CandidateRankEvidence.ext href (by rw [hf.evidence e hin, href, hentries]; rfl) rfl
  have hnodup : ((fused.rankEvidence ++ [graphEvidence fl]).map (·.candidateRef)).Nodup := by
    rw [List.map_append, hf.refs, List.nodup_append]
    refine ⟨hf.nodup, List.nodup_singleton _, fun c hc c' hc' h => hlinked ?_⟩
    rw [← hf.mem]
    have : c' = linked := by simpa [graphEvidence] using hc'
    rw [← this, ← h]
    exact hc
  have hxs : (fused.rankEvidence ++ [graphEvidence fl]).filter (fun e => [found, linked].contains e.candidateRef) =
      [foundEvidence n hn e.fusedRank e.positive, graphEvidence fl] := by
    have hgraph : [graphEvidence fl].filter (fun e => [found, linked].contains e.candidateRef) = [graphEvidence fl] := by
      simp [graphEvidence]
    rw [List.filter_append, hgraph]
    have he : fused.rankEvidence.filter (fun e => [found, linked].contains e.candidateRef) = [e] := he
    rw [he, ← heq]
    rfl
  simp only [resolveContent, hq, liftM_self, bind, Except.bind]
  rw [acquire_eq lib hsorted (List.ne_nil_of_mem ((hmem found).mpr hfound))]
  simp only
  rw [expandOneHop_eq fl lib u fun h => hlinked ((hmem linked).mp h)]
  exact select_eq fl lib n hn e.fusedRank e.positive hnodup hxs (hranked _ _) hperm

/-- The query of `namedLists`. -/
def namedQuery (names : List RankerRef) (hne : names ≠ []) (hnodup : names.Nodup) (cs : List (RankedCandidate F)) :
    CandidateQuery F :=
  ⟨namedLists names cs, by simpa [namedLists] using hne, by rw [namedLists_rankers]; exact hnodup⟩

theorem not_refused_found : (acquisition lib).refused lib found = false :=
  not_refused_of_some (authorizeCandidate_found lib)

/-- With a list named `graph` the refused candidate decides which body is delivered. -/
theorem interferes {names : List RankerRef} (hne : names ≠ []) (hnodup : names.Nodup) (hmem : GRAPH_RANKER_REF ∈ names) :
    AgreeAdmitted lib (acquisition lib) (namedQuery (F := F) names hne hnodup behindDenied)
        (namedQuery names hne hnodup alone) ∧
      resolveContent fl lib u (acquisition lib) none (namedQuery names hne hnodup behindDenied) ≠
        resolveContent fl lib u (acquisition lib) none (namedQuery names hne hnodup alone) := by
  have hentries : ∀ cs : List (RankedCandidate F), (namedQuery names hne hnodup cs).entries =
      firstEntries GRAPH_RANKER_REF [] 0 cs := namedLists_entries hnodup hmem
  refine ⟨⟨?_, ?_⟩, fun h => ?_⟩
  · exact (namedLists_rankers names _).trans (namedLists_rankers names _).symm
  · show (namedLists names behindDenied).map _ = (namedLists names alone).map _
    simp only [namedLists, List.map_map]
    refine List.map_congr_left fun n _ => ?_
    by_cases hn : n = GRAPH_RANKER_REF
    · simp [hn, RankedCandidateList.admittedOnly, behindDenied, alone, refused_denied, not_refused_found]
    · simp [hn, RankedCandidateList.admittedOnly]
  · have hd : denied ≠ found := by decide
    have hshifted := resolve_eq fl lib u (q := namedQuery names hne hnodup behindDenied) (n := 2) (by decide)
      (by simp [hentries, behindDenied, firstEntries, evidenceByRef, hd, hd.symm])
      (by simp [hentries, behindDenied, firstEntries, hd.symm]) (ranked_shifted fl) (.inr ⟨rfl, rfl⟩)
    have htied := resolve_eq fl lib u (q := namedQuery names hne hnodup alone) (n := 1) (by decide)
      (by simp [hentries, alone, firstEntries, evidenceByRef]) (by simp [hentries, alone, firstEntries])
      (ranked_tied fl) (.inl ⟨rfl, rfl⟩)
    obtain ⟨x, hx, hxf⟩ := constructPackageContent_single lib (active_projection lib linked)
    obtain ⟨y, hy, hyf⟩ := constructPackageContent_single lib (active_projection lib found)
    rw [hshifted, htied, hx, hy] at h
    cases h
    rw [hxf] at hyf
    have hfragment : [linked.fragmentRef] ≠ [found.fragmentRef] := by decide
    exact hfragment hyf

end Clash

end GraphClash

/-- For the rankers of any query: refused candidates never change the Package of agreeing
    queries, if and only if none of the rankers is the graph's. -/
theorem denied_noninterference_iff {F : Type} [LinearOrder F] (fl : Floats F) (lib : Stdlib) (u : UnicodeData)
    (q : CandidateQuery F) :
    (∀ (a : Acquisition (Except Raised)) (weights : Option (RankerWeights F fl)) (q₁ q₂ : CandidateQuery F),
      q₁.rankers = q.rankers → AgreeAdmitted lib a q₁ q₂ →
        resolveContent fl lib u a weights q₁ = resolveContent fl lib u a weights q₂) ↔
    GRAPH_RANKER_REF ∉ q.rankers := by
  constructor
  · intro h hmem
    have hne : q.rankers ≠ [] := List.ne_nil_of_mem hmem
    obtain ⟨hagree, hdiffer⟩ := GraphClash.interferes fl lib u hne q.unique hmem
    exact hdiffer (h _ none _ _ (GraphClash.namedLists_rankers _ _) hagree)
  · intro hnames a weights q₁ q₂ hrankers hagree
    exact hagree.resolve fl u (hrankers ▸ hnames) weights

/-- `found` is delivered when it is nominated alone, its neighbour when a refused candidate
    precedes it. -/
theorem graph_list_interferes :
    let query := GraphClash.namedQuery (F := ℚ) [GRAPH_RANKER_REF] (by simp) (by simp)
    AgreeAdmitted cpython (GraphClash.acquisition cpython) (query GraphClash.behindDenied) (query GraphClash.alone) ∧
      resolveContent Floats.rationals cpython UnicodeData.ascii (GraphClash.acquisition cpython) none
          (query GraphClash.behindDenied) ≠
        resolveContent Floats.rationals cpython UnicodeData.ascii (GraphClash.acquisition cpython) none
          (query GraphClash.alone) :=
  GraphClash.interferes _ _ _ _ _ (by simp)

end ContextEngine.Runtime
