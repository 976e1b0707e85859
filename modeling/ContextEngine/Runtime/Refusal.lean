/-
  ContextEngine.Runtime.Refusal — candidates the Kernel refuses, and the graph hop around
  them (see `ContextEngine.Runtime.Kernel`).

  The port answers as a function of its arguments. A candidate is refused when the
  locator, the scope or the projection turns it down; a call that raises is no refusal.

  Proved:
  - `authorizeAndProject_congr`: exact authorization of two lists that differ in refused
    candidates only projects the same.
  - `oneHopLoop_congr`: the graph loop filters by every main candidate, refused ones too,
    and its decision does not depend on the refused ones.
-/

import ContextEngine.Runtime.Ranking

namespace ContextEngine.Runtime

open ContextEngine.Python Checks Budget

/-! ## Collecting -/

section Collect

variable {α β : Type} {f : α → Except Raised (Option β)}

theorem collect_cons_none {x : α} {xs : List α} (h : f x = .ok none) : collect f (x :: xs) = collect f xs := by
  simp only [collect, h]
  cases collect f xs <;> rfl

/-- Items that yield nothing may be left out. -/
theorem collect_filter {p : α → Bool} {xs : List α} (h : ∀ x ∈ xs, p x = false → f x = .ok none) :
    collect f (xs.filter p) = collect f xs := by
  induction xs with
  | nil => rfl
  | cons x xs ih =>
    have ih := ih fun y hy => h y (List.mem_cons_of_mem _ hy)
    cases hp : p x with
    | true => rw [List.filter_cons_of_pos hp, collect, collect, ih]
    | false =>
      rw [List.filter_cons_of_neg (by simp [hp]), collect_cons_none (h x List.mem_cons_self hp), ih]

theorem collect_ok_mem {xs : List α} : ∀ {bs : List β}, collect f xs = .ok bs → ∀ b ∈ bs, ∃ x ∈ xs, f x = .ok (some b) := by
  induction xs with
  | nil => intro bs h b hb; cases h; cases hb
  | cons x xs ih =>
    intro bs h b hb
    obtain ⟨r, hr, h1⟩ := bind_ok h
    obtain ⟨rest, hrest, h2⟩ := bind_ok h1
    cases h2
    rcases List.mem_append.mp hb with hb | hb
    · exact ⟨x, List.mem_cons_self, by rw [hr, Option.mem_toList.mp hb]⟩
    · obtain ⟨y, hy, hf⟩ := ih hrest b hb
      exact ⟨y, List.mem_cons_of_mem _ hy, hf⟩

end Collect

theorem sortedSet_congr {xs ys : List CandidateRef} (h : ∀ c, c ∈ xs ↔ c ∈ ys) : sortedSet xs = sortedSet ys := by
  have hperm : xs.dedup.Perm ys.dedup :=
    (List.perm_ext_iff_of_nodup xs.nodup_dedup ys.nodup_dedup).mpr fun c => by simpa using h c
  exact List.Perm.eq_of_pairwise' (List.pairwise_insertionSort _ _) (List.pairwise_insertionSort _ _)
    (((List.perm_insertionSort _ _).trans hperm).trans (List.perm_insertionSort _ _).symm)

theorem sortedSet_filter (p : CandidateRef → Bool) (xs : List CandidateRef) :
    (sortedSet xs).filter p = sortedSet (xs.filter p) := by
  have hnodup : (sortedSet xs).Nodup := (List.perm_insertionSort _ _).nodup_iff.mpr xs.nodup_dedup
  have hnodup' : (sortedSet (xs.filter p)).Nodup := (List.perm_insertionSort _ _).nodup_iff.mpr (List.nodup_dedup _)
  refine List.Perm.eq_of_pairwise' ((List.pairwise_insertionSort _ _).filter p) (List.pairwise_insertionSort _ _)
    ((List.perm_ext_iff_of_nodup (hnodup.filter p) hnodup').mpr fun c => ?_)
  simp [mem_sortedSet]

/-! ## Refused candidates -/

section Refusal

variable (lib : Stdlib) (a : Acquisition (Except Raised))

/-- The port or the scope refuses the candidate; a candidate that raises is not refused. -/
def Acquisition.refused (c : CandidateRef) : Bool :=
  match authorizeCandidate lib a.invocation a.preparation.policyReceipt a.preparation.provenanceReceipt a.session
    ⟨true⟩ c with
  | .ok none => true
  | _ => false

variable {lib a}

/-- A refusal comes from the locator, the scope or the projection. -/
theorem refused_cases {c : CandidateRef} (h : a.refused lib c = true) :
    locateMaterializedFragment a.session c = .ok none ∨
    ∃ l, locateMaterializedFragment a.session c = .ok (some l) ∧
      (locatorMatchesCandidate l c = false ∨ locatorMatchesCandidate l c = true ∧
        (scopeTarget c ∉ a.preparation.policyReceipt.effectiveScope.targets ∨
          projectMaterializedFragment a.session l = .ok none)) := by
  have h1 : authorizeCandidate lib a.invocation a.preparation.policyReceipt a.preparation.provenanceReceipt a.session
      ⟨true⟩ c = .ok none := by
    unfold Acquisition.refused at h
    split at h
    · assumption
    · cases h
  unfold authorizeCandidate at h1
  obtain ⟨r, hr, h2⟩ := bind_ok h1
  cases r with
  | none => exact .inl hr
  | some l =>
    refine .inr ⟨l, hr, ?_⟩
    cases hm : locatorMatchesCandidate l c with
    | false => exact .inl rfl
    | true =>
      refine .inr ⟨rfl, ?_⟩
      obtain ⟨ho, hs, hres, -, -⟩ := locatorMatchesCandidate_iff.mp hm
      simp only [hm, Bool.not_true, Bool.false_eq_true, if_false] at h2
      split at h2
      · next hout => exact .inl (by simpa [scopeTarget, ho, hs, hres] using hout)
      · obtain ⟨fp, hfp, h3⟩ := bind_ok h2
        cases fp with
        | none => exact .inr hfp
        | some fp =>
          obtain ⟨_, -, h4⟩ := bind_ok h3
          obtain ⟨_, -, h5⟩ := bind_ok h4
          cases h5

/-- Whatever scope the projection would have been bound to. -/
theorem authorizeCandidate_of_refused {c : CandidateRef} (h : a.refused lib c = true) (scope : KernelScope) :
    authorizeCandidate lib a.invocation a.preparation.policyReceipt a.preparation.provenanceReceipt a.session scope c =
      .ok none := by
  unfold authorizeCandidate
  rcases refused_cases h with hl | ⟨l, hl, hm | ⟨hm, hs⟩⟩
  · rw [hl]; rfl
  · rw [hl]; simp [bind, Except.bind, hm]; rfl
  · rw [hl]
    obtain ⟨ho, hsrc, hres, -, -⟩ := locatorMatchesCandidate_iff.mp hm
    simp only [bind, Except.bind, hm, Bool.not_true, Bool.false_eq_true, if_false, ho, hsrc, hres]
    split
    · rfl
    · next hin =>
      rcases hs with hs | hs
      · exact absurd hs (by simpa [scopeTarget] using hin)
      · simp only [hs]; rfl

theorem authorizeCandidate_some {scope : KernelScope} {c : CandidateRef} {p : AuthorizedProjection}
    (h : authorizeCandidate lib a.invocation a.preparation.policyReceipt a.preparation.provenanceReceipt a.session scope
      c = .ok (some p)) :
    p.candidateRef = c ∧ scopeTarget c ∈ a.preparation.policyReceipt.effectiveScope.targets := by
  unfold authorizeCandidate at h
  obtain ⟨r, hr, h1⟩ := bind_ok h
  cases r with
  | none => cases h1
  | some l =>
    simp only at h1
    split at h1
    · cases h1
    next hm =>
    split at h1
    · cases h1
    next hs =>
    obtain ⟨fp, -, h2⟩ := bind_ok h1
    cases fp with
    | none => cases h2
    | some fp =>
      obtain ⟨_, -, h3⟩ := bind_ok h2
      obtain ⟨p', hp', h4⟩ := bind_ok h3
      cases h4
      obtain ⟨rfl, -⟩ := constructAuthorizedProjection_ok lib hp'
      obtain ⟨ho, hsrc, hres, -, -⟩ := locatorMatchesCandidate_iff.mp (by simpa using hm)
      exact ⟨rfl, by simpa [scopeTarget, ho, hsrc, hres] using hs⟩

theorem not_refused_of_some {scope : KernelScope} {c : CandidateRef} {p : AuthorizedProjection}
    (h : authorizeCandidate lib a.invocation a.preparation.policyReceipt a.preparation.provenanceReceipt a.session scope
      c = .ok (some p)) : a.refused lib c = false := by
  cases hr : a.refused lib c with
  | false => rfl
  | true => rw [authorizeCandidate_of_refused hr scope] at h; cases h

/-- What `_authorize_and_project` projects, whether or not it opened a scope. -/
theorem authorizeAndProject_fst (candidates : List CandidateRef) (ks : Option KernelScope) :
    (authorizeAndProject lib a.invocation a.preparation.policyReceipt a.preparation.provenanceReceipt candidates
      (some a.session) ks).map Prod.fst =
    if a.preparation.policyReceipt.effectiveScope.targets = ∅ then .ok []
    else collect (authorizeCandidate lib a.invocation a.preparation.policyReceipt a.preparation.provenanceReceipt
      a.session (ks.getD ⟨true⟩)) (sortedSet candidates) := by
  unfold authorizeAndProject
  by_cases ht : a.preparation.policyReceipt.effectiveScope.targets = ∅
  · simp [ht]; rfl
  · cases candidates with
    | nil => simp [ht]; rfl
    | cons c cs =>
      simp only [List.isEmpty_cons, ht, decide_false, Bool.or_self, Bool.false_eq_true, if_false]
      cases collect (authorizeCandidate lib a.invocation a.preparation.policyReceipt a.preparation.provenanceReceipt
        a.session (ks.getD ⟨true⟩)) (sortedSet (c :: cs)) <;> rfl

/-- Lists with the same candidates, refused ones aside, are projected alike. -/
theorem authorizeAndProject_congr {xs ys : List CandidateRef} (ks : Option KernelScope)
    (h : ∀ c, a.refused lib c = false → (c ∈ xs ↔ c ∈ ys)) :
    (authorizeAndProject lib a.invocation a.preparation.policyReceipt a.preparation.provenanceReceipt xs
      (some a.session) ks).map Prod.fst =
    (authorizeAndProject lib a.invocation a.preparation.policyReceipt a.preparation.provenanceReceipt ys
      (some a.session) ks).map Prod.fst := by
  rw [authorizeAndProject_fst, authorizeAndProject_fst]
  have hdrop : ∀ zs : List CandidateRef,
      collect (authorizeCandidate lib a.invocation a.preparation.policyReceipt a.preparation.provenanceReceipt a.session
        (ks.getD ⟨true⟩)) (sortedSet zs) =
      collect (authorizeCandidate lib a.invocation a.preparation.policyReceipt a.preparation.provenanceReceipt a.session
        (ks.getD ⟨true⟩)) (sortedSet (zs.filter fun c => !a.refused lib c)) := by
    intro zs
    rw [← sortedSet_filter, collect_filter]
    exact fun c _ hc => authorizeCandidate_of_refused (by simpa using hc) _
  have hsame : sortedSet (xs.filter fun c => !a.refused lib c) = sortedSet (ys.filter fun c => !a.refused lib c) := by
    refine sortedSet_congr fun c => ?_
    simp only [List.mem_filter, Bool.not_eq_true']
    exact and_congr_left fun hc => h c hc
  rw [hdrop xs, hdrop ys, hsame]

end Refusal

/-! ## The graph hop -/

def Hop.candidateRef : Hop → CandidateRef
  | .inherited p => p.candidateRef
  | .reauthorize c => c

section OneHop

variable {lib : Stdlib} {a : Acquisition (Except Raised)} {main : List AuthorizedProjection} {d : AuthorizationDecision}

/-- A hop concerns the candidate it was asked for. -/
theorem expandCandidate_some {item : MaterializedOneHopCandidate} {hop : Hop}
    (h : expandCandidate lib d a.session item = .ok (some hop)) : hop.candidateRef = item.candidateRef := by
  unfold expandCandidate at h
  obtain ⟨_, -, h1⟩ := bind_ok h
  split at h1
  · obtain ⟨_, h2, -⟩ := bind_ok h1
    cases h2
  simp only at h1
  split at h1
  · cases h1; rfl
  split at h1
  · cases h1
  obtain ⟨r, -, h2⟩ := bind_ok h1
  cases r with
  | none => cases h2
  | some l =>
    simp only at h2
    split at h2
    · cases h2
    obtain ⟨fp, -, h3⟩ := bind_ok h2
    cases fp with
    | none => cases h3
    | some fp =>
      obtain ⟨p, hp, h4⟩ := bind_ok h3
      cases h4
      obtain ⟨hbuilt, -⟩ := constructInherited_ok lib hp
      obtain ⟨rfl, -⟩ := constructAuthorizedProjection_ok lib hbuilt
      rfl

/-- What the graph loop keeps true of the decision it extends: it added to the main
    projections, and what it added is none of them and none of `avoided`. -/
structure Extends (a : Acquisition (Except Raised)) (main : List AuthorizedProjection) (avoided : CandidateRef → Prop)
    (d : AuthorizationDecision) : Prop where
  roots : main ⊆ d.projections
  added : ∀ p ∈ d.projections, p ∈ main ∨ p.candidateRef ∈ d.expandedCandidateRefs
  fresh : ∀ c ∈ d.expandedCandidateRefs, c ∉ main.map (·.candidateRef) ∧ ¬ avoided c
  inScope : ∀ p ∈ main, scopeTarget p.candidateRef ∈ a.preparation.policyReceipt.effectiveScope.targets

variable {avoided : CandidateRef → Prop}

theorem Extends.anchor (h : Extends a main avoided d) {ref : CandidateRef} (hmem : ref ∈ main.map (·.candidateRef)) :
    ref ∉ d.expandedCandidateRefs ∧ (∃ anchor, anchorOf d ref = some anchor) ∧
      scopeTarget ref ∈ a.preparation.policyReceipt.effectiveScope.targets := by
  obtain ⟨p, hp, rfl⟩ := List.mem_map.mp hmem
  refine ⟨fun he => (h.fresh _ he).1 hmem, ?_, h.inScope p hp⟩
  cases hf : anchorOf d p.candidateRef with
  | some anchor => exact ⟨anchor, rfl⟩
  | none =>
    have := List.find?_eq_none.mp hf p (List.mem_reverse.mpr (h.roots hp))
    simp at this

/-- A refused graph candidate is skipped, or left to an authorization that refuses it. It
    cannot be inherited out of scope: its Resource is the anchor's. -/
theorem expandCandidate_of_refused {item : MaterializedOneHopCandidate} (hd : Extends a main avoided d)
    (hanchor : item.anchorRef ∈ main.map (·.candidateRef)) (h : a.refused lib item.candidateRef = true) :
    expandCandidate lib d a.session item = .ok none ∨
      expandCandidate lib d a.session item = .ok (some (.reauthorize item.candidateRef)) := by
  obtain ⟨hexp, ⟨anchor, ha⟩, hscope⟩ := hd.anchor hanchor
  have hens : decide (item.anchorRef ∉ d.expandedCandidateRefs) = true := by simpa using hexp
  unfold expandCandidate
  rw [hens, ensure_true]
  simp only [ha]
  cases hsame : sameArticle item.candidateRef item.anchorRef with
  | false => exact .inr rfl
  | true =>
    left
    by_cases hrev : item.candidateRef.revisionRef != item.anchorRef.revisionRef
    · simp [hrev]
    have htarget : scopeTarget item.candidateRef = scopeTarget item.anchorRef := by
      simp only [sameArticle, Bool.and_eq_true, beq_iff_eq] at hsame
      simp [scopeTarget, hsame.1.1, hsame.1.2, hsame.2]
    simp only [hrev, Bool.not_true, Bool.false_eq_true, if_false]
    rcases refused_cases h with hl | ⟨l, hl, hm | ⟨hm, hs | hs⟩⟩
    · rw [hl]; rfl
    · rw [hl]; simp [bind, Except.bind, hm]; rfl
    · rw [htarget] at hs; exact absurd hscope hs
    · rw [hl]; simp [bind, Except.bind, hm, hs]; rfl

/-- Hops whose candidate is refused, and that only name it, are dropped. -/
def Hop.kept (lib : Stdlib) (a : Acquisition (Except Raised)) : Hop → Bool
  | .inherited _ => true
  | .reauthorize c => !a.refused lib c

theorem collect_expand_filter (hd : Extends a main avoided d) {page : List MaterializedOneHopCandidate}
    (hpage : ∀ i ∈ page, i.anchorRef ∈ main.map (·.candidateRef)) :
    (collect (expandCandidate lib d a.session) (page.filter fun i => !a.refused lib i.candidateRef)).map
      (List.filter (Hop.kept lib a)) =
    (collect (expandCandidate lib d a.session) page).map (List.filter (Hop.kept lib a)) := by
  induction page with
  | nil => rfl
  | cons item page ih =>
    have ih := ih fun i hi => hpage i (List.mem_cons_of_mem _ hi)
    cases hr : a.refused lib item.candidateRef with
    | true =>
      rw [List.filter_cons_of_neg (by simp [hr]), ih]
      rcases expandCandidate_of_refused hd (hpage item List.mem_cons_self) hr with he | he
      · rw [collect_cons_none he]
      · simp only [collect, he, bind, Except.bind]
        cases collect (expandCandidate lib d a.session) page with
        | error e => rfl
        | ok rest => simp [Except.map, pure, Except.pure, Hop.kept, hr]
    | false =>
      rw [List.filter_cons_of_pos (by simp [hr]), collect, collect]
      cases expandCandidate lib d a.session item with
      | error e => rfl
      | ok r =>
        cases h1 : collect (expandCandidate lib d a.session) page with
        | error e =>
          rw [h1] at ih
          cases h2 : collect (expandCandidate lib d a.session) (page.filter fun i => !a.refused lib i.candidateRef) with
          | error e' => rw [h2] at ih; cases ih; rfl
          | ok rest => rw [h2] at ih; cases ih
        | ok rest =>
          rw [h1] at ih
          cases h2 : collect (expandCandidate lib d a.session) (page.filter fun i => !a.refused lib i.candidateRef) with
          | error e' => rw [h2] at ih; cases ih
          | ok rest' =>
            rw [h2] at ih
            simp only [Except.map, Except.ok.injEq] at ih
            simp [Except.map, bind, Except.bind, pure, Except.pure, ih]

/-- What `authorize_one_hop` does with the hops of its loop. -/
def settleHops (lib : Stdlib) (a : Acquisition (Except Raised)) (d : AuthorizationDecision) (hops : List Hop) :
    Except Raised AuthorizationDecision :=
  ((authorizeAndProject lib a.invocation a.preparation.policyReceipt a.preparation.provenanceReceipt
    (hops.filterMap Hop.reauthorize?) (some a.session) d.projectionScope).map Prod.fst).map fun reauthorized =>
      { d with
        projections := d.projections ++ hops.filterMap Hop.inherited? ++ reauthorized
        expandedCandidateRefs := d.expandedCandidateRefs ∪
          ((hops.filterMap Hop.inherited? ++ reauthorized).map (·.candidateRef)).toFinset }

theorem authorizeOneHop_eq (page : List MaterializedOneHopCandidate) :
    authorizeOneHop lib a.invocation a.preparation d a.session page =
      collect (expandCandidate lib d a.session) page >>= settleHops lib a d := by
  unfold authorizeOneHop
  refine bind_congr fun hops => ?_
  simp only [settleHops]
  cases authorizeAndProject lib a.invocation a.preparation.policyReceipt a.preparation.provenanceReceipt
    (hops.filterMap Hop.reauthorize?) (some a.session) d.projectionScope <;> rfl

theorem settleHops_filter (hops : List Hop) :
    settleHops lib a d (hops.filter (Hop.kept lib a)) = settleHops lib a d hops := by
  have hinherited : (hops.filter (Hop.kept lib a)).filterMap Hop.inherited? = hops.filterMap Hop.inherited? := by
    induction hops with
    | nil => rfl
    | cons hop hops ih =>
      cases hop with
      | inherited p => simp [List.filter_cons, Hop.kept, Hop.inherited?, ih]
      | reauthorize c =>
        cases hr : a.refused lib c <;> simp [List.filterMap_cons, Hop.kept, Hop.inherited?, ih, hr]
  unfold settleHops
  rw [hinherited, authorizeAndProject_congr]
  intro c hc
  simp only [List.mem_filterMap, List.mem_filter]
  constructor
  · rintro ⟨hop, ⟨hm, -⟩, he⟩
    exact ⟨hop, hm, he⟩
  rintro ⟨hop, hm, he⟩
  refine ⟨hop, ⟨hm, ?_⟩, he⟩
  cases hop with
  | inherited p => rfl
  | reauthorize c' => cases he; simp [Hop.kept, hc]

/-- Refused candidates of a page change nothing. -/
theorem authorizeOneHop_filter (hd : Extends a main avoided d) {page : List MaterializedOneHopCandidate}
    (hpage : ∀ i ∈ page, i.anchorRef ∈ main.map (·.candidateRef)) :
    authorizeOneHop lib a.invocation a.preparation d a.session (page.filter fun i => !a.refused lib i.candidateRef) =
      authorizeOneHop lib a.invocation a.preparation d a.session page := by
  have hsettle : ∀ x : Except Raised (List Hop),
      x >>= settleHops lib a d = x.map (List.filter (Hop.kept lib a)) >>= settleHops lib a d := by
    intro x
    cases x with
    | error e => rfl
    | ok hops => exact (settleHops_filter hops).symm
  rw [authorizeOneHop_eq, authorizeOneHop_eq, hsettle, collect_expand_filter hd hpage, ← hsettle]

theorem authorizeOneHop_nil : authorizeOneHop lib a.invocation a.preparation d a.session [] = .ok d := by
  rw [authorizeOneHop_eq]
  simp [collect, settleHops, authorizeAndProject, pure, Except.pure, bind, Except.bind, Except.map]

/-- One page keeps what the loop keeps; its candidates are not avoided ones. -/
theorem authorizeOneHop_extends (hd : Extends a main avoided d) {page : List MaterializedOneHopCandidate}
    (hpage : ∀ i ∈ page, i.candidateRef ∉ main.map (·.candidateRef) ∧ ¬ avoided i.candidateRef)
    {d' : AuthorizationDecision} (h : authorizeOneHop lib a.invocation a.preparation d a.session page = .ok d') :
    Extends a main avoided d' := by
  rw [authorizeOneHop_eq] at h
  obtain ⟨hops, hhops, h1⟩ := bind_ok h
  unfold settleHops at h1
  rw [authorizeAndProject_fst] at h1
  cases hre : (if a.preparation.policyReceipt.effectiveScope.targets = ∅ then .ok []
    else collect (authorizeCandidate lib a.invocation a.preparation.policyReceipt a.preparation.provenanceReceipt
      a.session (d.projectionScope.getD ⟨true⟩)) (sortedSet (hops.filterMap Hop.reauthorize?)) :
      Except Raised (List AuthorizedProjection)) with
  | error e => rw [hre] at h1; cases h1
  | ok reauthorized =>
    rw [hre] at h1
    cases h1
    have hhop : ∀ hop ∈ hops, ∃ i ∈ page, hop.candidateRef = i.candidateRef := by
      intro hop hm
      obtain ⟨i, hi, hf⟩ := collect_ok_mem hhops hop hm
      exact ⟨i, hi, expandCandidate_some hf⟩
    have hnew : ∀ p ∈ hops.filterMap Hop.inherited? ++ reauthorized, ∃ i ∈ page, p.candidateRef = i.candidateRef := by
      intro p hp
      rcases List.mem_append.mp hp with hp | hp
      · obtain ⟨hop, hm, he⟩ := List.mem_filterMap.mp hp
        cases hop with
        | inherited q => cases he; exact hhop _ hm
        | reauthorize c => cases he
      · split at hre
        · cases hre; cases hp
        · obtain ⟨c, hc, hf⟩ := collect_ok_mem hre p hp
          rw [(authorizeCandidate_some hf).1]
          obtain ⟨hop, hm, he⟩ := List.mem_filterMap.mp (mem_sortedSet.mp hc)
          cases hop with
          | inherited q => cases he
          | reauthorize c => cases he; exact hhop _ hm
    refine ⟨fun p hp => ?_, fun p hp => ?_, fun c hc => ?_, hd.inScope⟩
    · simp only [List.mem_append]
      exact .inl (.inl (hd.roots hp))
    · simp only [List.append_assoc] at hp
      rcases List.mem_append.mp hp with hp | hp
      · rcases hd.added p hp with hm | he
        · exact .inl hm
        · exact .inr (Finset.mem_union_left _ he)
      · exact .inr (Finset.mem_union_right _ (List.mem_toFinset.mpr (List.mem_map_of_mem hp)))
    · rcases Finset.mem_union.mp hc with hc | hc
      · exact hd.fresh c hc
      · obtain ⟨p, hp, rfl⟩ := List.mem_map.mp (List.mem_toFinset.mp hc)
        obtain ⟨i, hi, he⟩ := hnew p hp
        rw [he]
        exact hpage i hi

/-- A page that came through the seam. -/
theorem discover_ok {limit offset : Int} {page : List MaterializedOneHopCandidate}
    (h : discoverMaterializedOneHop lib a.session main limit offset = .ok page) :
    ∀ i ∈ page, i.anchorRef ∈ main.map (·.candidateRef) ∧ i.candidateRef ∉ main.map (·.candidateRef) := by
  unfold discoverMaterializedOneHop at h
  obtain ⟨_, -, h1⟩ := bind_ok h
  obtain ⟨_, -, h2⟩ := bind_ok h1
  obtain ⟨_, -, h3⟩ := bind_ok h2
  obtain ⟨_, -, h4⟩ := bind_ok h3
  split at h4
  · cases h4; simp
  split at h4
  · cases h4; simp
  obtain ⟨p, -, h5⟩ := bind_ok h4
  obtain ⟨_, hcheck, h6⟩ := bind_ok h5
  cases h6
  exact (checkOneHopPage_ok hcheck).1

/-- The graph loop, one page at a time; nothing to authorize leaves the decision alone. -/
theorem oneHopLoop_succ (xs : List CandidateRef) (pages offset : Nat) :
    oneHopLoop lib a main xs (pages + 1) offset d =
      if a.limits.graphLimit ≤ d.expandedCandidateRefs.card then .ok d
      else
        discoverMaterializedOneHop lib a.session main
          ((a.limits.graphLimit - d.expandedCandidateRefs.card : Nat) : Int) offset >>= fun page =>
        if page.isEmpty then .ok d
        else
          authorizeOneHop lib a.invocation a.preparation d a.session
            (page.filter fun i => !xs.contains i.candidateRef) >>= fun d' =>
          if page.length < a.limits.graphLimit - d.expandedCandidateRefs.card then .ok d'
          else oneHopLoop lib a main xs pages (offset + page.length) d' := by
  rw [oneHopLoop]
  split
  · rfl
  refine bind_congr fun page => ?_
  split
  · rfl
  cases hone : page.filter fun i => !xs.contains i.candidateRef with
  | nil => rw [authorizeOneHop_nil]; rfl
  | cons i is => rfl

/-- The graph loop filters by the main candidates; of these only the admitted matter. -/
theorem oneHopLoop_congr {xs ys : List CandidateRef} (hxy : ∀ c, a.refused lib c = false → (c ∈ xs ↔ c ∈ ys))
    (pages : Nat) : ∀ (offset : Nat) {d : AuthorizationDecision}, Extends a main (· ∈ xs) d → 
      oneHopLoop lib a main xs pages offset d = oneHopLoop lib a main ys pages offset d := by
  induction pages with
  | zero => intro offset d hd; rfl
  | succ pages ih =>
    intro offset d hd
    rw [oneHopLoop_succ, oneHopLoop_succ]
    split
    · rfl
    cases hdisc : discoverMaterializedOneHop lib a.session main
      ((a.limits.graphLimit - d.expandedCandidateRefs.card : Nat) : Int) offset with
    | error e => rfl
    | ok page =>
      have hpage := discover_ok hdisc
      simp only [bind, Except.bind]
      split
      · rfl
      have hroots : ∀ zs : List CandidateRef, ∀ i ∈ page.filter (fun i => !zs.contains i.candidateRef),
          i.anchorRef ∈ main.map (·.candidateRef) := fun zs i hi => (hpage i (List.mem_filter.mp hi).1).1
      have hsame : authorizeOneHop lib a.invocation a.preparation d a.session
            (page.filter fun i => !xs.contains i.candidateRef) =
          authorizeOneHop lib a.invocation a.preparation d a.session
            (page.filter fun i => !ys.contains i.candidateRef) := by
        rw [← authorizeOneHop_filter hd (hroots xs), ← authorizeOneHop_filter hd (hroots ys), List.filter_filter,
          List.filter_filter]
        congr 1
        refine List.filter_congr fun i _ => ?_
        cases hr : a.refused lib i.candidateRef with
        | true => simp
        | false => simpa using hxy _ hr
      rw [← hsame]
      cases hone : authorizeOneHop lib a.invocation a.preparation d a.session
        (page.filter fun i => !xs.contains i.candidateRef) with
      | error e => rfl
      | ok d' =>
        simp only
        split
        · rfl
        refine ih _ (authorizeOneHop_extends hd (fun i hi => ?_) hone)
        obtain ⟨hi, hx⟩ := List.mem_filter.mp hi
        exact ⟨(hpage i hi).2, by simpa using hx⟩

/-- What the loop keeps, over the whole run. -/
theorem oneHopLoop_extends {xs : List CandidateRef} (pages : Nat) : ∀ (offset : Nat) {d d' : AuthorizationDecision},
    Extends a main (· ∈ xs) d → oneHopLoop lib a main xs pages offset d = .ok d' → Extends a main (· ∈ xs) d' := by
  induction pages with
  | zero => intro offset d d' hd h; cases h; exact hd
  | succ pages ih =>
    intro offset d d' hd h
    rw [oneHopLoop_succ] at h
    split at h
    · cases h; exact hd
    obtain ⟨page, hdisc, h1⟩ := bind_ok h
    have hpage := discover_ok hdisc
    split at h1
    · cases h1; exact hd
    obtain ⟨mid, hone, h2⟩ := bind_ok h1
    have hmid : Extends a main (· ∈ xs) mid := by
      refine authorizeOneHop_extends hd (fun i hi => ?_) hone
      obtain ⟨hi, hx⟩ := List.mem_filter.mp hi
      exact ⟨(hpage i hi).2, by simpa using hx⟩
    split at h2
    · cases h2; exact hmid
    · exact ih _ hmid h2

end OneHop

end ContextEngine.Runtime
