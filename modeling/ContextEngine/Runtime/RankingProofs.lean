/-
  ContextEngine.Runtime.RankingProofs — what the join reads of rank evidence (see
  `ContextEngine.Runtime.Ranking`).

  Proved:
  - `fuse_ok`: fusion records, for each candidate, its first entry in each list.
  - `compacted_fused`: over any set of admitted candidates, compaction gives each ranker
    the order of its own list.
  - `join_congr`: the join depends on the admitted candidates' rankers and scores and on
    each ranker's compacted order, not on raw positions or on the order of the evidence.
-/

import ContextEngine.Runtime.Ranking

namespace ContextEngine.Runtime

open ContextEngine.Python Checks Budget

/-! ## Fusion -/

section Fusion

variable {F : Type}

/-- An entry without its position. -/
def unplaced (e : CandidateRef × RankerEvidence F) : CandidateRef × RankerRef × Option F :=
  (e.1, e.2.rankerRef, e.2.score)

/-- Deleting candidates from a list moves the others up and does nothing else to them. -/
theorem firstEntries_filter (keep : CandidateRef → Bool) (r : RankerRef) (cs : List (RankedCandidate F)) :
    ∀ (seen seen' : List CandidateRef) (n n' : Nat), (∀ c, keep c = true → (c ∈ seen ↔ c ∈ seen')) →
      ((firstEntries r seen n cs).filter fun e => keep e.1).map unplaced =
        (firstEntries r seen' n' (cs.filter fun x => keep x.candidateRef)).map unplaced := by
  induction cs with
  | nil => intros; rfl
  | cons x cs ih =>
    intro seen seen' n n' hseen
    cases hk : keep x.candidateRef with
    | true =>
      rw [List.filter_cons_of_pos (p := fun x : RankedCandidate F => keep x.candidateRef) hk, firstEntries, firstEntries]
      by_cases hs : x.candidateRef ∈ seen
      · have hs' := (hseen _ hk).mp hs
        simp only [List.contains_eq_mem, hs, hs', decide_true, if_true]
        exact ih _ _ _ _ hseen
      · have hs' : x.candidateRef ∉ seen' := fun h => hs ((hseen _ hk).mpr h)
        simp only [List.contains_eq_mem, hs, hs', decide_false, Bool.false_eq_true, if_false]
        rw [List.filter_cons_of_pos (by simpa using hk), List.map_cons, List.map_cons]
        refine congrArg₂ _ rfl (ih _ _ _ _ fun c hc => ?_)
        simp [hseen c hc]
    | false =>
      rw [List.filter_cons_of_neg (by simp [hk]), firstEntries]
      split
      · exact ih _ _ _ _ hseen
      · rw [List.filter_cons_of_neg (by simp [hk])]
        refine ih _ _ _ _ fun c hc => ?_
        have hne : c ≠ x.candidateRef := by rintro rfl; rw [hk] at hc; cases hc
        simp [hne, hseen c hc]

theorem firstEntries_mem {r : RankerRef} {cs : List (RankedCandidate F)} : ∀ {seen : List CandidateRef} {n : Nat}
    {e : CandidateRef × RankerEvidence F}, e ∈ firstEntries r seen n cs →
      e.1 ∉ seen ∧ e.2.rankerRef = r ∧ n < e.2.position ∧ e.1 ∈ cs.map (·.candidateRef) := by
  induction cs with
  | nil => intro seen n e he; cases he
  | cons x cs ih =>
    intro seen n e he
    rw [firstEntries] at he
    split at he
    · obtain ⟨h1, h2, h3, h4⟩ := ih he
      exact ⟨h1, h2, by omega, List.mem_cons_of_mem _ h4⟩
    next hs =>
    rcases List.mem_cons.mp he with rfl | he
    · exact ⟨by simpa using hs, rfl, Nat.lt_succ_self n, List.mem_cons_self⟩
    · obtain ⟨h1, h2, h3, h4⟩ := ih he
      exact ⟨fun h => h1 (List.mem_cons_of_mem _ h), h2, by omega, List.mem_cons_of_mem _ h4⟩

theorem firstEntries_pairwise {r : RankerRef} {cs : List (RankedCandidate F)} : ∀ (seen : List CandidateRef) (n : Nat),
    (firstEntries r seen n cs).Pairwise fun x y => x.1 ≠ y.1 ∧ x.2.position < y.2.position := by
  induction cs with
  | nil => intro seen n; exact List.Pairwise.nil
  | cons x cs ih =>
    intro seen n
    rw [firstEntries]
    split
    · exact ih _ _
    · refine List.pairwise_cons.mpr ⟨fun e he => ?_, ih _ _⟩
      obtain ⟨h1, -, h3, -⟩ := firstEntries_mem he
      exact ⟨fun h => h1 (h ▸ List.mem_cons_self), h3⟩

/-- Within one ranker the recorded candidates differ and their positions increase. -/
theorem entries_pairwise (q : CandidateQuery F) : q.entries.Pairwise fun x y =>
    x.2.rankerRef = y.2.rankerRef → x.1 ≠ y.1 ∧ x.2.position < y.2.position := by
  rw [CandidateQuery.entries, List.pairwise_flatMap]
  refine ⟨fun l _ => ?_, ?_⟩
  · have hl : (firstEntries l.rankerRef [] 0 l.candidates).Pairwise fun x y => x.1 ≠ y.1 ∧ x.2.position < y.2.position :=
      firstEntries_pairwise [] 0
    refine List.Pairwise.imp ?_ hl
    intro x y h _
    exact h
  refine (List.pairwise_map.mp q.unique).imp fun {l l'} hne x hx y hy h => ?_
  rw [(firstEntries_mem hx).2.1, (firstEntries_mem hy).2.1] at h
  exact absurd h hne

theorem mem_evidenceByRef {entries : List (CandidateRef × RankerEvidence F)} {c : CandidateRef} {x : RankerEvidence F} :
    x ∈ evidenceByRef entries c ↔ (c, x) ∈ entries := by
  simp only [evidenceByRef, List.mem_map, List.mem_filter, beq_iff_eq]
  constructor
  · rintro ⟨⟨c', x'⟩, ⟨hm, rfl⟩, rfl⟩; exact hm
  · intro h; exact ⟨(c, x), ⟨h, rfl⟩, rfl⟩

theorem evidenceByRef_unique (q : CandidateQuery F) (c : CandidateRef) :
    ((evidenceByRef q.entries c).map (·.rankerRef)).Nodup := by
  rw [evidenceByRef, List.map_map, List.Nodup, List.pairwise_map]
  refine ((entries_pairwise q).filter (·.1 == c)).imp_of_mem fun {x y} hx hy h he => ?_
  have hx := (List.mem_filter.mp hx).2
  have hy := (List.mem_filter.mp hy).2
  simp only [beq_iff_eq] at hx hy
  exact (h he).1 (hx.trans hy.symm)

theorem mapM_ok {α β : Type} {f : α → Except Raised β} {xs : List α} (h : ∀ x ∈ xs, ∃ y, f x = .ok y) :
    ∃ ys, xs.mapM f = .ok ys := by
  induction xs with
  | nil => exact ⟨[], rfl⟩
  | cons x xs ih =>
    obtain ⟨y, hy⟩ := h x List.mem_cons_self
    obtain ⟨ys, hys⟩ := ih fun x hx => h x (List.mem_cons_of_mem _ hx)
    exact ⟨y :: ys, by rw [List.mapM_cons, hy, hys]; rfl⟩

/-- What each result says about its argument, `mapM` says in order. -/
theorem mapM_map {α β γ : Type} {f : α → Except Raised β} {g : β → γ} {k : α → γ}
    (hf : ∀ x y, f x = .ok y → g y = k x) {xs : List α} : ∀ {ys : List β}, xs.mapM f = .ok ys → ys.map g = xs.map k := by
  induction xs with
  | nil => intro ys h; cases h; rfl
  | cons x xs ih =>
    intro ys h
    rw [List.mapM_cons] at h
    obtain ⟨y, hy, h1⟩ := bind_ok h
    obtain ⟨ys', hys, h2⟩ := bind_ok h1
    cases h2
    rw [List.map_cons, List.map_cons, hf x y hy, ih hys]

theorem candidateRankEvidence_ok {c : CandidateRef} {perRanker : List (RankerEvidence F)} {rank : Nat}
    {e : CandidateRankEvidence F} (h : candidateRankEvidence c perRanker rank = .ok e) :
    e.candidateRef = c ∧ e.perRanker = perRanker := by
  unfold candidateRankEvidence at h
  split at h
  · cases h
  split at h
  · split at h
    · cases h; exact ⟨rfl, rfl⟩
    · cases h
  · cases h

/-- The evidence of a query: one per recorded candidate, with what was recorded for it. -/
structure Fuses (q : CandidateQuery F) (fused : FusedCandidates F) : Prop where
  mem : ∀ c, c ∈ fused.candidateRefs ↔ c ∈ q.entries.map (·.1)
  nodup : fused.candidateRefs.Nodup
  refs : fused.rankEvidence.map (·.candidateRef) = fused.candidateRefs
  evidence : ∀ e ∈ fused.rankEvidence, e.perRanker = evidenceByRef q.entries e.candidateRef

theorem fuse_ok [LinearOrder F] (fl : Floats F) (q : CandidateQuery F) :
    ∃ fused, fuseCandidateEvidence fl q = .ok fused ∧ Fuses q fused := by
  let ordered := sortedBy (scoreKey (reciprocalScore fl q.entries)) (q.entries.map (·.1)).dedup
  let build : CandidateRef × Nat → Except Raised (CandidateRankEvidence F) :=
    fun x => candidateRankEvidence x.1 (evidenceByRef q.entries x.1) (x.2 + 1)
  have hmem : ∀ c, c ∈ ordered ↔ c ∈ q.entries.map (·.1) := fun c => by simp [ordered]
  have hbuild : ∀ x ∈ ordered.zipIdx, ∃ e, build x = .ok e := by
    intro x hx
    have hx : x.1 ∈ q.entries.map (·.1) := (hmem _).mp (List.fst_mem_of_mem_zipIdx hx)
    obtain ⟨e, he, hc⟩ := List.mem_map.mp hx
    have hin : (x.1, e.2) ∈ q.entries := by rw [← hc]; exact he
    have hne : evidenceByRef q.entries x.1 ≠ [] := List.ne_nil_of_mem (mem_evidenceByRef.mpr hin)
    simp only [build, candidateRankEvidence, hne, evidenceByRef_unique, Nat.succ_pos, dite_true, dite_false]
    exact ⟨_, rfl⟩
  obtain ⟨evidence, hev⟩ := mapM_ok hbuild
  have hrefs : evidence.map (·.candidateRef) = ordered := by
    rw [mapM_map (fun x e he => (candidateRankEvidence_ok he).1) hev, List.zipIdx_map_fst]
  have hper : evidence.map (fun e => (e.candidateRef, e.perRanker)) =
      ordered.zipIdx.map fun x => (x.1, evidenceByRef q.entries x.1) :=
    mapM_map (fun x e he => Prod.ext (candidateRankEvidence_ok he).1 (candidateRankEvidence_ok he).2) hev
  refine ⟨⟨ordered, evidence⟩, ?_, hmem, ?_, hrefs, fun e he => ?_⟩
  · show (ordered.zipIdx.mapM build >>= fun rankEvidence =>
      (pure ⟨ordered, rankEvidence⟩ : Except Raised (FusedCandidates F))) = _
    rw [hev]
    rfl
  · exact (sortedBy_perm _ _).nodup_iff.mpr (List.nodup_dedup _)
  · have hin : (e.candidateRef, e.perRanker) ∈ ordered.zipIdx.map fun x => (x.1, evidenceByRef q.entries x.1) := by
      rw [← hper]
      exact List.mem_map_of_mem (f := fun e : CandidateRankEvidence F => (e.candidateRef, e.perRanker)) he
    obtain ⟨x, -, hx⟩ := List.mem_map.mp hin
    rw [← (Prod.mk.inj hx).1, ← (Prod.mk.inj hx).2]

end Fusion

/-! ## The join -/

section Join

variable {F : Type}

/-- The rankers and scores of some evidence, without the positions. -/
def shape (e : CandidateRankEvidence F) : List (RankerRef × Option F) := e.perRanker.map fun x => (x.rankerRef, x.score)

/-- What the join reads of admitted evidence: who has any, from which rankers with which
    scores, and each ranker's order. -/
structure SameEvidence (xs ys : List (CandidateRankEvidence F)) : Prop where
  refs : (xs.map (·.candidateRef)).Perm (ys.map (·.candidateRef))
  shapes : ∀ c, (evidenceOf xs c).map shape = (evidenceOf ys c).map shape
  order : ∀ r, compacted xs r = compacted ys r

variable {xs ys : List (CandidateRankEvidence F)}

theorem evidenceOf_candidateRef {c : CandidateRef} {e : CandidateRankEvidence F} (h : evidenceOf xs c = some e) :
    e.candidateRef = c := by simpa using List.find?_some h

theorem SameEvidence.position (h : SameEvidence xs ys) (r : RankerRef) (c : CandidateRef) :
    compactedPosition xs r c = compactedPosition ys r c := by
  rw [compactedPosition, compactedPosition, h.order]

theorem SameEvidence.score [LinearOrder F] (fl : Floats F) (h : SameEvidence xs ys) (weights : RankerRef → F)
    (c : CandidateRef) : fusedScore fl xs weights c = fusedScore fl ys weights c := by
  have hshape : ∀ zs : List (CandidateRankEvidence F), fusedScore fl zs weights c =
      fl.sum ((((evidenceOf zs c).map shape).getD []).map fun x =>
        fl.div (weights x.1) (compactedPosition zs x.1 c)) := by
    intro zs
    cases he : evidenceOf zs c with
    | none => simp [fusedScore, he]
    | some e => simp [fusedScore, he, shape, Function.comp_def]
  rw [hshape, hshape, h.shapes]
  congr 1
  exact List.map_congr_left fun x _ => by rw [h.position]

theorem SameEvidence.ranked [LinearOrder F] (fl : Floats F) (h : SameEvidence xs ys) (weights : RankerRef → F) :
    rankedRefs fl xs weights = rankedRefs fl ys weights := by
  refine sortedBy_eq_of_perm h.refs (fun c _ => ?_) fun c _ c' _ he => ?_
  · rw [scoreKey, scoreKey, h.score fl weights c]
  · exact congrArg Prod.snd (toLex_inj.mp he)

/-- Two pieces of evidence of one shape are normalized alike. -/
theorem SameEvidence.normalized (h : SameEvidence xs ys) (ranked : List CandidateRef) (c : CandidateRef) :
    (evidenceOf xs c).map (normalizedEvidence xs ranked) = (evidenceOf ys c).map (normalizedEvidence ys ranked) := by
  have hs := h.shapes c
  cases hx : evidenceOf xs c with
  | none => cases hy : evidenceOf ys c with
    | none => rfl
    | some e' => rw [hx, hy] at hs; cases hs
  | some e => cases hy : evidenceOf ys c with
    | none => rw [hx, hy] at hs; cases hs
    | some e' =>
      rw [hx, hy] at hs
      have hshape : shape e = shape e' := by simpa using hs
      have href : e.candidateRef = e'.candidateRef := (evidenceOf_candidateRef hx).trans (evidenceOf_candidateRef hy).symm
      have hper : (normalizedEvidence xs ranked e).perRanker = (normalizedEvidence ys ranked e').perRanker := by
        have hz : ∀ (zs : List (CandidateRankEvidence F)) (e : CandidateRankEvidence F),
            (normalizedEvidence zs ranked e).perRanker = (shape e).map fun x =>
              ⟨x.1, compactedPosition zs x.1 e.candidateRef, x.2, Nat.succ_pos _⟩ := by
          intro zs e
          simp [normalizedEvidence, shape, Function.comp_def]
        rw [hz, hz, hshape, href]
        exact List.map_congr_left fun x _ => by simp only [h.position]
      simp only [Option.map_some, Option.some.injEq]
      exact CandidateRankEvidence.ext href hper (by simp only [normalizedEvidence, href])

theorem evidenceOf_of_mem (hnodup : (xs.map (·.candidateRef)).Nodup) {e : CandidateRankEvidence F} (he : e ∈ xs) :
    evidenceOf xs e.candidateRef = some e := by
  cases hf : evidenceOf xs e.candidateRef with
  | none => have := List.find?_eq_none.mp hf e he; simp at this
  | some e' =>
    have hmem : e' ∈ xs := List.mem_of_find?_eq_some hf
    rw [List.inj_on_of_nodup_map hnodup hmem he (evidenceOf_candidateRef hf)]

theorem SameEvidence.symm (h : SameEvidence xs ys) : SameEvidence ys xs :=
  ⟨h.refs.symm, fun c => (h.shapes c).symm, fun r => (h.order r).symm⟩

theorem SameEvidence.rankers_subset (h : SameEvidence xs ys) (hnodup : (xs.map (·.candidateRef)).Nodup) {r : RankerRef}
    (hr : r ∈ xs.flatMap fun e => e.perRanker.map (·.rankerRef)) :
    r ∈ ys.flatMap fun e => e.perRanker.map (·.rankerRef) := by
  obtain ⟨e, he, hr⟩ := List.mem_flatMap.mp hr
  have hs := h.shapes e.candidateRef
  rw [evidenceOf_of_mem hnodup he] at hs
  cases hy : evidenceOf ys e.candidateRef with
  | none => rw [hy] at hs; cases hs
  | some e' =>
    rw [hy] at hs
    have hshape : shape e = shape e' := by simpa using hs
    refine List.mem_flatMap.mpr ⟨e', List.mem_of_find?_eq_some hy, ?_⟩
    have hnames : ∀ z : CandidateRankEvidence F, z.perRanker.map (·.rankerRef) = (shape z).map (·.1) := by
      intro z; simp [shape, Function.comp_def]
    rw [hnames, ← hshape, ← hnames]
    exact hr

theorem authorizedRankerWeights_congr [LinearOrder F] (fl : Floats F) (weights : Option (RankerWeights F fl))
    {rs ss : List RankerRef} (h : ∀ r, r ∈ rs ↔ r ∈ ss) :
    authorizedRankerWeights fl weights rs = authorizedRankerWeights fl weights ss := by
  cases weights with
  | none => rfl
  | some w =>
    have hall : (rs.all fun r => (w.values.map (·.1)).contains r.value) =
        ss.all fun r => (w.values.map (·.1)).contains r.value := by
      rw [Bool.eq_iff_iff, List.all_eq_true, List.all_eq_true]
      exact forall_congr' fun r => by rw [h r]
    simp only [authorizedRankerWeights, hall]

/-- The join sees admitted evidence only, and of that only what `SameEvidence` keeps. -/
theorem join_congr [LinearOrder F] (fl : Floats F) (lib : Stdlib) (projections : List AuthorizedProjection)
    (weights : Option (RankerWeights F fl))
    (hnodup : (xs.map (·.candidateRef)).Nodup ↔ (ys.map (·.candidateRef)).Nodup)
    (h : (xs.map (·.candidateRef)).Nodup →
      SameEvidence (xs.filter fun e => (projections.map (·.candidateRef)).contains e.candidateRef)
        (ys.filter fun e => (projections.map (·.candidateRef)).contains e.candidateRef)) :
    joinAuthorizedRanking fl lib projections xs weights = joinAuthorizedRanking fl lib projections ys weights := by
  unfold joinAuthorizedRanking
  by_cases hx : (xs.map (·.candidateRef)).Nodup
  · have hy := hnodup.mp hx
    have hsame := h hx
    have hxs := hx.sublist ((List.filter_sublist (p := fun e => (projections.map (·.candidateRef)).contains
      e.candidateRef) (l := xs)).map (·.candidateRef))
    have hys := hy.sublist ((List.filter_sublist (p := fun e => (projections.map (·.candidateRef)).contains
      e.candidateRef) (l := ys)).map (·.candidateRef))
    simp only [hx, hy]
    rw [authorizedRankerWeights_congr fl weights fun r =>
      ⟨hsame.rankers_subset hxs, hsame.symm.rankers_subset hys⟩]
    refine bind_congr fun _ => bind_congr fun w => ?_
    simp only [hsame.ranked fl w, hsame.normalized]
  · have hy : ¬ (ys.map (·.candidateRef)).Nodup := fun h => hx (hnodup.mpr h)
    simp only [hx, hy, decide_false, ensure_false, error_bind]

/-- The selection reads the projections, which of them were added, the budget and the evidence. -/
theorem select_congr [LinearOrder F] (fl : Floats F) (lib : Stdlib) {d d' : AuthorizationDecision}
    (hproj : d.projections = d'.projections) (hexp : d.expandedCandidateRefs = d'.expandedCandidateRefs)
    (hbudget : d.effectiveBudget = d'.effectiveBudget) (weights : Option (RankerWeights F fl))
    (hranked : ∀ c ∈ d.expandedCandidateRefs, c ∈ xs.map (·.candidateRef) ↔ c ∈ ys.map (·.candidateRef))
    (hnodup : (xs.map (·.candidateRef)).Nodup ↔ (ys.map (·.candidateRef)).Nodup)
    (h : (xs.map (·.candidateRef)).Nodup → ∀ ps ⊆ d.projections,
      SameEvidence (xs.filter fun e => (ps.map (·.candidateRef)).contains e.candidateRef)
        (ys.filter fun e => (ps.map (·.candidateRef)).contains e.candidateRef)) :
    selectForDelivery fl lib d xs weights = selectForDelivery fl lib d' ys weights := by
  have heligible : (d.projections.filter fun p =>
        decide (p.candidateRef ∉ d.expandedCandidateRefs) || (xs.map (·.candidateRef)).contains p.candidateRef) =
      d'.projections.filter fun p =>
        decide (p.candidateRef ∉ d'.expandedCandidateRefs) || (ys.map (·.candidateRef)).contains p.candidateRef := by
    rw [hproj, ← hexp]
    refine List.filter_congr fun p _ => ?_
    by_cases he : p.candidateRef ∈ d.expandedCandidateRefs
    · simpa [he] using hranked _ he
    · simp [he]
  unfold selectForDelivery
  simp only
  rw [← heligible, hbudget]
  rw [join_congr fl lib _ weights hnodup fun hx => h hx _ (List.filter_subset_self _)]

end Join

/-! ## Compaction -/

section Compaction

variable {F : Type} {q : CandidateQuery F} {fused : FusedCandidates F}

theorem mem_byRanker {xs : List (CandidateRankEvidence F)} {r : RankerRef} {v : CandidateRef × Nat} :
    v ∈ byRanker xs r ↔ ∃ e ∈ xs, ∃ x ∈ e.perRanker, x.rankerRef = r ∧ (e.candidateRef, x.position) = v := by
  simp only [byRanker, List.mem_flatMap, List.mem_map, List.mem_filter, beq_iff_eq, and_assoc]

theorem byRanker_nodup {xs : List (CandidateRankEvidence F)} (h : (xs.map (·.candidateRef)).Nodup) (r : RankerRef) :
    (byRanker xs r).Nodup := by
  rw [byRanker, List.Nodup, List.pairwise_flatMap]
  refine ⟨fun e _ => ?_, ?_⟩
  · rw [List.pairwise_map]
    refine ((List.pairwise_map.mp e.unique).filter (·.rankerRef == r)).imp_of_mem fun {x y} hx hy hne => ?_
    have hx := (List.mem_filter.mp hx).2
    have hy := (List.mem_filter.mp hy).2
    simp only [beq_iff_eq] at hx hy
    exact absurd (hx.trans hy.symm) hne
  · refine (List.pairwise_map.mp h).imp fun {e e'} hne v hv v' hv' he => ?_
    obtain ⟨_, -, rfl⟩ := List.mem_map.mp hv
    obtain ⟨_, -, rfl⟩ := List.mem_map.mp hv'
    exact hne (Prod.mk.inj he).1

/-- Compaction gives each ranker its own order back, with the gaps closed. -/
theorem compacted_fused (hf : Fuses q fused) (keep : CandidateRef → Bool) (r : RankerRef) :
    compacted (fused.rankEvidence.filter fun e => keep e.candidateRef) r =
      ((q.entries.filter fun e => keep e.1).filter (·.2.rankerRef == r)).map (·.1) := by
  let placed := ((q.entries.filter fun e => keep e.1).filter (·.2.rankerRef == r)).map fun e => (e.1, e.2.position)
  have hrising : placed.Pairwise fun v w => v.2 < w.2 := by
    rw [List.pairwise_map]
    refine (((entries_pairwise q).filter _).filter _).imp_of_mem fun {x y} hx hy h => ?_
    have hx := (List.mem_filter.mp hx).2
    have hy := (List.mem_filter.mp hy).2
    simp only [beq_iff_eq] at hx hy
    exact (h (hx.trans hy.symm)).2
  have hrefs : ((fused.rankEvidence.filter fun e => keep e.candidateRef).map (·.candidateRef)).Nodup := by
    refine List.Nodup.sublist (List.filter_sublist.map _) ?_
    rw [hf.refs]
    exact hf.nodup
  have hperm : (byRanker (fused.rankEvidence.filter fun e => keep e.candidateRef) r).Perm placed := by
    refine (List.perm_ext_iff_of_nodup (byRanker_nodup hrefs r) ?_).mpr fun v => ?_
    · exact hrising.imp fun {v w} h he => by rw [he] at h; exact lt_irrefl _ h
    · rw [mem_byRanker]
      simp only [placed, List.mem_map, List.mem_filter, beq_iff_eq]
      constructor
      · rintro ⟨e, ⟨he, hk⟩, x, hx, hr, rfl⟩
        rw [hf.evidence e he, mem_evidenceByRef] at hx
        exact ⟨(e.candidateRef, x), ⟨⟨hx, hk⟩, hr⟩, rfl⟩
      · rintro ⟨⟨c, x⟩, ⟨⟨hx, hk⟩, hr⟩, rfl⟩
        have hc : c ∈ fused.rankEvidence.map (·.candidateRef) := by
          rw [hf.refs, hf.mem]
          exact List.mem_map_of_mem (f := Prod.fst) hx
        obtain ⟨e, he, rfl⟩ := List.mem_map.mp hc
        refine ⟨e, ⟨he, hk⟩, x, ?_, hr, rfl⟩
        rw [hf.evidence e he, mem_evidenceByRef]
        exact hx
  rw [compacted, sortedBy_eq_of_perm hperm (fun _ _ => rfl) fun v _ w _ he => ?_, sortedBy_of_pairwise]
  · simp [placed, Function.comp_def]
  · exact hrising.imp fun {v w} h => Prod.Lex.le_iff.mpr (.inl h)
  · have h := Prod.mk.inj (toLex_inj.mp he)
    exact Prod.ext h.2 h.1

/-- The shape of the fused evidence, read off the recorded entries. -/
theorem shape_fused (hf : Fuses q fused) (c : CandidateRef) :
    (evidenceOf fused.rankEvidence c).map shape =
      if ((q.entries.map unplaced).filter (·.1 == c)).isEmpty then none
      else some (((q.entries.map unplaced).filter (·.1 == c)).map (·.2)) := by
  have hshape : ((q.entries.map unplaced).filter (·.1 == c)).map (·.2) =
      (evidenceByRef q.entries c).map fun x => (x.rankerRef, x.score) := by
    simp [evidenceByRef, List.filter_map, unplaced, Function.comp_def]
  have hnil : ((q.entries.map unplaced).filter (·.1 == c)).isEmpty = true ↔ c ∉ fused.candidateRefs := by
    rw [hf.mem, List.isEmpty_iff, List.filter_eq_nil_iff]
    constructor
    · intro h hc
      obtain ⟨e, he, rfl⟩ := List.mem_map.mp hc
      exact h (unplaced e) (List.mem_map_of_mem he) (by simp [unplaced])
    · intro h x hx hc
      obtain ⟨e, he, rfl⟩ := List.mem_map.mp hx
      exact h (List.mem_map.mpr ⟨e, he, by simpa [unplaced] using hc⟩)
  cases he : evidenceOf fused.rankEvidence c with
  | none =>
    have hc : c ∉ fused.candidateRefs := by
      rw [← hf.refs]
      intro hmem
      obtain ⟨e, hm, rfl⟩ := List.mem_map.mp hmem
      have := List.find?_eq_none.mp he e hm
      simp at this
    rw [if_pos (hnil.mpr hc)]
    rfl
  | some e =>
    have hm : e ∈ fused.rankEvidence := List.mem_of_find?_eq_some he
    have href := evidenceOf_candidateRef he
    have hc : c ∈ fused.candidateRefs := by
      rw [← hf.refs, ← href]
      exact List.mem_map_of_mem (f := CandidateRankEvidence.candidateRef) hm
    rw [if_neg fun h => hnil.mp h hc, hshape, ← href, ← hf.evidence e hm]
    rfl

end Compaction

end ContextEngine.Runtime
