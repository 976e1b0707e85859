/-
  ContextEngine.Runtime.Inheritance — an inherited projection is the one that exact
  authorization would have made (see `ContextEngine.Runtime.Kernel`).

  The port answers from a table: the same call has the same answer, or raises the same way.
  It knows one Revision of each Resource, and the ACL of a Revision is the ACL of all its
  Fragments. What a Kernel call raises is part of its outcome.

  Proved: `inheritance_is_reauthorization`: for a candidate of an anchor's Article both ways
  have one outcome, and what an expansion adds does not depend on the anchors that its
  candidates are rooted at.
-/

import ContextEngine.Runtime.KernelProofs

namespace ContextEngine.Runtime

open ContextEngine.Python Checks Budget

/-! ## Ports that answer from a table -/

structure TablePort where
  locate : CandidateRef → Except Raised (Option MaterializedFragmentLocator)
  project : MaterializedFragmentLocator → Except Raised (Option MaterializedFragmentProjection)

/-- A session of the port; how it discovers neighbours does not matter here. -/
def TablePort.session (p : TablePort) (active : Bool) : MaterializedProjectionSession (Except Raised) :=
  ⟨active, ⟨p.locate, p.project, none⟩⟩

/-- What the Supply side promises of a port. -/
structure TablePort.Faithful (p : TablePort) : Prop where
  /-- A Resource has at most one active Revision, and no other is located. -/
  revision : ∃ active : UUID → OpaqueRef → OpaqueRef → Option OpaqueRef,
    ∀ c, active c.organizationId c.sourceRef c.resourceRef ≠ some c.revisionRef → p.locate c = .ok none
  /-- The Fragments of a Revision have its ACL. -/
  acl : ∀ c c' l l', p.locate c = .ok (some l) → p.locate c' = .ok (some l') → sameArticle c' c = true →
    c'.revisionRef = c.revisionRef → l'.sourceAclProjectionRef = l.sourceAclProjectionRef ∧
      l'.sourceAclAsOf = l.sourceAclAsOf ∧ l'.sourceAclFreshnessProfileRef = l.sourceAclFreshnessProfileRef

section Inheritance

variable {lib : Stdlib} {p : TablePort} {active : Bool} {inv : AuthenticatedInvocation} {policy : PolicyReceipt}
  {prov : DecisionProvenanceReceipt} {prep : PreparedAcquireAuthorization}

theorem sameArticle_iff {c a : CandidateRef} : sameArticle c a = true ↔
    c.organizationId = a.organizationId ∧ c.sourceRef = a.sourceRef ∧ c.resourceRef = a.resourceRef := by
  simp [sameArticle, and_assoc]

theorem scopeTarget_congr {c a : CandidateRef} (h : sameArticle c a = true) : scopeTarget c = scopeTarget a := by
  obtain ⟨ho, hs, hr⟩ := sameArticle_iff.mp h
  rw [scopeTarget, ho, hs, hr, scopeTarget]

/-- The active Revision is the only one that is located. -/
theorem TablePort.Faithful.other_revision (hp : p.Faithful) {a c : CandidateRef} {l : MaterializedFragmentLocator}
    (ha : p.locate a = .ok (some l)) (hsame : sameArticle c a = true) (hrev : c.revisionRef ≠ a.revisionRef) :
    p.locate c = .ok none := by
  obtain ⟨ho, hs, hr⟩ := sameArticle_iff.mp hsame
  obtain ⟨current, hcurrent⟩ := hp.revision
  have hanchor : current a.organizationId a.sourceRef a.resourceRef = some a.revisionRef := by
    by_contra hne
    rw [hcurrent a hne] at ha
    cases ha
  refine hcurrent c ?_
  rw [ho, hs, hr, hanchor]
  intro heq
  exact hrev (Option.some.inj heq).symm

/-! ## Anchors -/

/-- What the main path established about a projection. -/
structure Anchored (lib : Stdlib) (p : TablePort) (active : Bool) (inv : AuthenticatedInvocation) (policy : PolicyReceipt)
    (prov : DecisionProvenanceReceipt) (scope : KernelScope) (a : AuthorizedProjection) : Prop where
  active : active = true
  located : ∃ l, p.locate a.candidateRef = .ok (some l) ∧ decisionLineage inv.principalRef prov l = .ok a.lineage
  inScope : scopeTarget a.candidateRef ∈ policy.effectiveScope.targets
  scope : a.kernelScope = scope
  integrity : requireActiveAuthorizedProjection lib a = .ok ()

theorem locate_eq (hactive : active = true) (c : CandidateRef) :
    locateMaterializedFragment (p.session active) c = p.locate c := by
  subst hactive
  rfl

theorem authorizeCandidate_anchored {scope : KernelScope} {c : CandidateRef} {a : AuthorizedProjection}
    (h : authorizeCandidate lib inv policy prov (p.session active) scope c = .ok (some a)) :
    a.candidateRef = c ∧ Anchored lib p active inv policy prov scope a := by
  unfold authorizeCandidate at h
  obtain ⟨r, hlocate, h⟩ := bind_ok h
  have hactive : active = true := by
    obtain ⟨_, hs, -⟩ := bind_ok hlocate
    exact ensure_ok hs
  rw [locate_eq hactive] at hlocate
  cases r with
  | none => cases h
  | some l =>
    simp only at h
    split_ifs at h with hmatch hscope
    · cases h
    · obtain ⟨fp, -, h⟩ := bind_ok h
      cases fp with
      | none => cases h
      | some fp =>
        obtain ⟨lineage, hlineage, h⟩ := bind_ok h
        obtain ⟨q, hq, h⟩ := bind_ok h
        obtain rfl : q = a := by
          cases h
          rfl
        obtain ⟨hqc, -⟩ := constructAuthorizedProjection_ok lib hq
        have hc : q.candidateRef = c := by rw [hqc]
        have hmatch : locatorMatchesCandidate l c = true := by simpa using hmatch
        obtain ⟨ho, hs, hr, -⟩ := locatorMatchesCandidate_iff.mp hmatch
        refine ⟨hc, hactive, ⟨l, hc ▸ hlocate, ?_⟩, ?_, ?_, requireActive_of_construct lib hq⟩
        · rw [hqc]
          exact hlineage
        · rw [hc, scopeTarget, ← ho, ← hs, ← hr]
          exact hscope
        · rw [hqc]
    · cases h

/-! ## Loops -/

/-- What an answered call yields. -/
def yielded {β : Type} (r : Except Raised (Option β)) : Option β :=
  match r with
  | .ok b => b
  | .error _ => none

/-- A loop returns when each of its rounds does, and then has what each yields. -/
theorem collect_ok_iff {α β : Type} {f : α → Except Raised (Option β)} {as : List α} {bs : List β} :
    collect f as = .ok bs ↔ (∀ a ∈ as, ∃ r, f a = .ok r) ∧ bs = as.filterMap fun a => yielded (f a) := by
  induction as generalizing bs with
  | nil => simp [collect, eq_comm, Pure.pure, Except.pure]
  | cons a as ih =>
    rw [collect, List.forall_mem_cons]
    cases hr : f a with
    | error e => simp [bind, Except.bind]
    | ok r =>
      have hhead : (a :: as).filterMap (fun a => yielded (f a)) = r.toList ++ as.filterMap fun a => yielded (f a) := by
        cases r <;> simp [hr, yielded]
      rw [hhead]
      constructor
      · intro h
        obtain ⟨_, hr, h⟩ := bind_ok h
        obtain rfl := Except.ok.inj hr
        obtain ⟨rest, hrest, h⟩ := bind_ok h
        obtain ⟨hall, rfl⟩ := ih.mp hrest
        exact ⟨⟨⟨r, rfl⟩, hall⟩, (Except.ok.inj h).symm⟩
      · rintro ⟨⟨-, hall⟩, rfl⟩
        rw [ih.mpr ⟨hall, rfl⟩]
        rfl

theorem authorizeAcquire_anchored {candidateRefs : List CandidateRef} {d : AuthorizationDecision}
    (h : authorizeAcquire lib inv prep candidateRefs (some (p.session active)) = .ok d) :
    ∀ a ∈ d.projections, Anchored lib p active inv prep.policyReceipt prep.provenanceReceipt ⟨true⟩ a ∧
      d.projectionScope = some ⟨true⟩ := by
  obtain ⟨_, -, h⟩ := bind_ok h
  obtain ⟨⟨projections, scope⟩, hauth, h⟩ := bind_ok h
  obtain rfl := Except.ok.inj h
  intro a ha
  unfold authorizeAndProject at hauth
  split_ifs at hauth
  · obtain ⟨rfl, rfl⟩ := Prod.mk.inj (Except.ok.inj hauth)
    cases ha
  · obtain ⟨found, hfound, hauth⟩ := bind_ok hauth
    obtain ⟨rfl, rfl⟩ := Prod.mk.inj (Except.ok.inj hauth)
    obtain ⟨hall, rfl⟩ := collect_ok_iff.mp hfound
    obtain ⟨c, hc, hyield⟩ := List.mem_filterMap.mp ha
    obtain ⟨r, hr⟩ := hall c hc
    rw [hr] at hyield
    obtain rfl : r = some a := hyield
    exact ⟨(authorizeCandidate_anchored hr).2, rfl⟩

/-! ## One candidate -/

theorem decisionLineage_congr {l l' : MaterializedFragmentLocator} {principalRef : String}
    (h : l'.sourceAclProjectionRef = l.sourceAclProjectionRef ∧ l'.sourceAclAsOf = l.sourceAclAsOf ∧
      l'.sourceAclFreshnessProfileRef = l.sourceAclFreshnessProfileRef) :
    decisionLineage principalRef prov l' = decisionLineage principalRef prov l := by
  obtain ⟨hprojection, hasOf, hfreshness⟩ := h
  rw [decisionLineage, hprojection, hasOf, hfreshness, decisionLineage]

/-- Both ways construct the same projection. -/
theorem constructInherited_eq {a : AuthorizedProjection} {c : CandidateRef} {body : Str} {fieldRefs : List String}
    (ha : requireActiveAuthorizedProjection lib a = .ok ()) (hsame : sameArticle c a.candidateRef = true)
    (hrev : c.revisionRef = a.candidateRef.revisionRef) :
    constructInheritedAuthorizedProjection lib a c body fieldRefs =
      constructAuthorizedProjection lib a.kernelScope c body fieldRefs a.lineage := by
  obtain ⟨ho, hs, hr⟩ := sameArticle_iff.mp hsame
  simp only [constructInheritedAuthorizedProjection, ha, ho, hs, hr, hrev, beq_self_eq_true, Bool.and_self, ensure_true]
  rfl

theorem liftM_except {α : Type} (x : Except Raised α) : (liftM x : Except Raised α) = x := rfl

/-- The inherited branch has the outcome of exact authorization. -/
theorem expandCandidate_inherits (hp : p.Faithful) {d : AuthorizationDecision} {scope : KernelScope} {a : AuthorizedProjection}
    (ha : Anchored lib p active inv policy prov scope a) {c root : CandidateRef} (hroot : root ∉ d.expandedCandidateRefs)
    (hanchor : anchorOf d root = some a) (heq : a.candidateRef = root) (hsame : sameArticle c root = true) :
    expandCandidate lib d (p.session active) ⟨root, c⟩ =
      (authorizeCandidate lib inv policy prov (p.session active) scope c).map (Option.map Hop.inherited) := by
  subst heq
  obtain ⟨la, hla, hlineage⟩ := ha.located
  unfold expandCandidate authorizeCandidate
  simp only [hroot, not_false_eq_true, decide_true, ensure_true, hanchor, hsame, locate_eq ha.active]
  by_cases hrev : c.revisionRef = a.candidateRef.revisionRef
  · rw [if_neg (by simp), if_neg (by simp [hrev])]
    cases hlocate : p.locate c with
    | error e => rfl
    | ok r =>
      cases r with
      | none => rfl
      | some l =>
        simp only [liftM_except, bind, Except.bind]
        cases hmatch : locatorMatchesCandidate l c with
        | false => rfl
        | true =>
          obtain ⟨ho, hs, hr, -⟩ := locatorMatchesCandidate_iff.mp hmatch
          have hscope : (⟨l.organizationId, l.sourceRef, some l.resourceRef⟩ : ScopeTarget) ∈ policy.effectiveScope.targets := by
            have htarget : scopeTarget c ∈ policy.effectiveScope.targets := scopeTarget_congr hsame ▸ ha.inScope
            rw [ho, hs, hr]
            exact htarget
          have hlineage' : decisionLineage inv.principalRef prov l = .ok a.lineage :=
            (decisionLineage_congr (hp.acl _ _ _ _ hla hlocate hsame hrev)).trans hlineage
          rw [if_neg (by simp), if_neg (by simp), if_neg (not_not.mpr hscope)]
          cases projectMaterializedFragment (p.session active) l with
          | error e => rfl
          | ok r =>
            cases r with
            | none => rfl
            | some fp =>
              simp only [constructInherited_eq ha.integrity hsame hrev, hlineage', ha.scope]
              cases constructAuthorizedProjection lib scope c fp.renderedBody fp.projectedFieldRefs a.lineage <;> rfl
  · rw [hp.other_revision hla hsame hrev, if_neg (by simp), if_pos (by simpa using hrev)]
    rfl

end Inheritance

/-! ## Expansions -/

section Expansion

variable (lib : Stdlib) (p : TablePort) (active : Bool) (inv : AuthenticatedInvocation) (prep : PreparedAcquireAuthorization)

/-- Exact authorization of one candidate, under an open scope. -/
def reauthorize (c : CandidateRef) : Except Raised (Option AuthorizedProjection) :=
  authorizeCandidate lib inv prep.policyReceipt prep.provenanceReceipt (p.session active) ⟨true⟩ c

/-- What an expansion adds: first what is inherited, then what is authorized again. -/
def added (items : List MaterializedOneHopCandidate) : List AuthorizedProjection :=
  (items.filter fun i => sameArticle i.candidateRef i.anchorRef).filterMap
      (fun i => yielded (reauthorize lib p active inv prep i.candidateRef)) ++
    (sortedSet ((items.filter fun i => !sameArticle i.candidateRef i.anchorRef).map (·.candidateRef))).filterMap
      fun c => yielded (reauthorize lib p active inv prep c)

/-- A decision of the main path, which has expanded nothing. -/
structure MainDecision (d : AuthorizationDecision) : Prop where
  anchored : ∀ a ∈ d.projections, Anchored lib p active inv prep.policyReceipt prep.provenanceReceipt ⟨true⟩ a ∧
    d.projectionScope = some ⟨true⟩
  unexpanded : d.expandedCandidateRefs = ∅

/-- The candidate is rooted at a projection of the decision. -/
def Rooted (d : AuthorizationDecision) (i : MaterializedOneHopCandidate) : Prop := i.anchorRef ∈ d.projections.map (·.candidateRef)

variable {lib p active inv prep} {d d' : AuthorizationDecision} {items items' : List MaterializedOneHopCandidate}

theorem authorizeAcquire_main {candidateRefs : List CandidateRef}
    (h : authorizeAcquire lib inv prep candidateRefs (some (p.session active)) = .ok d) : MainDecision lib p active inv prep d := by
  refine ⟨authorizeAcquire_anchored h, ?_⟩
  obtain ⟨_, -, h⟩ := bind_ok h
  obtain ⟨_, -, h⟩ := bind_ok h
  obtain rfl := Except.ok.inj h
  rfl

theorem anchorOf_rooted {i : MaterializedOneHopCandidate} (h : Rooted d i) :
    ∃ a ∈ d.projections, anchorOf d i.anchorRef = some a ∧ a.candidateRef = i.anchorRef := by
  obtain ⟨a, ha, href⟩ := List.mem_map.mp h
  cases hfind : anchorOf d i.anchorRef with
  | none =>
    have hnone := List.find?_eq_none.mp hfind a (List.mem_reverse.mpr ha)
    simp [href] at hnone
  | some a' =>
    have hsome := List.find?_some hfind
    exact ⟨a', List.mem_reverse.mp (List.mem_of_find?_eq_some hfind), rfl, by simpa using hsome⟩

/-- One round of an expansion. -/
theorem expandCandidate_rooted (hp : p.Faithful) (hd : MainDecision lib p active inv prep d) {i : MaterializedOneHopCandidate}
    (hi : Rooted d i) : expandCandidate lib d (p.session active) i =
      if sameArticle i.candidateRef i.anchorRef then (reauthorize lib p active inv prep i.candidateRef).map (Option.map Hop.inherited)
      else .ok (some (.reauthorize i.candidateRef)) := by
  obtain ⟨a, ha, hanchor, href⟩ := anchorOf_rooted hi
  have hroot : i.anchorRef ∉ d.expandedCandidateRefs := by simp [hd.unexpanded]
  cases hsame : sameArticle i.candidateRef i.anchorRef with
  | true => exact expandCandidate_inherits hp (hd.anchored a ha).1 hroot hanchor href hsame
  | false =>
    simp only [expandCandidate, hroot, not_false_eq_true, decide_true, ensure_true, hanchor, hsame]
    rfl

/-- Exact authorization in one decision's scope, where there is one. -/
theorem authorizeAndProject_ok_iff (hd : MainDecision lib p active inv prep d) {cs : List CandidateRef} (hcs : cs ≠ [] → d.projections ≠ [])
    {ps : List AuthorizedProjection} :
    (∃ scope, authorizeAndProject lib inv prep.policyReceipt prep.provenanceReceipt cs (some (p.session active)) d.projectionScope =
        .ok (ps, scope)) ↔
      (∀ c ∈ cs, ∃ r, reauthorize lib p active inv prep c = .ok r) ∧
        ps = (sortedSet cs).filterMap fun c => yielded (reauthorize lib p active inv prep c) := by
  unfold authorizeAndProject
  by_cases hempty : cs = []
  · subst hempty
    simp [sortedSet, Pure.pure, Except.pure, eq_comm]
  · obtain ⟨a, ha⟩ := List.exists_mem_of_ne_nil _ (hcs hempty)
    obtain ⟨hanchored, hscope⟩ := hd.anchored a ha
    have htargets : prep.policyReceipt.effectiveScope.targets ≠ ∅ := Finset.ne_empty_of_mem hanchored.inScope
    rw [if_neg (by simp [hempty, htargets]), hscope]
    constructor
    · rintro ⟨scope, h⟩
      obtain ⟨found, hfound, h⟩ := bind_ok h
      obtain ⟨rfl, -⟩ := Prod.mk.inj (Except.ok.inj h)
      obtain ⟨hall, rfl⟩ := collect_ok_iff.mp hfound
      exact ⟨fun c hc => hall c (mem_sortedSet.mpr hc), rfl⟩
    · rintro ⟨hall, rfl⟩
      have hfound : collect (reauthorize lib p active inv prep) (sortedSet cs) = .ok _ :=
        collect_ok_iff.mpr ⟨fun c hc => hall c (mem_sortedSet.mp hc), rfl⟩
      refine ⟨some ⟨true⟩, ?_⟩
      change (collect (reauthorize lib p active inv prep) (sortedSet cs) >>= fun ps => pure (ps, some (⟨true⟩ : KernelScope))) = _
      rw [hfound]
      rfl

/-- What a rooted candidate yields in the loop. -/
theorem yielded_rooted (hp : p.Faithful) (hd : MainDecision lib p active inv prep d) {i : MaterializedOneHopCandidate}
    (hi : Rooted d i) : yielded (expandCandidate lib d (p.session active) i) =
      if sameArticle i.candidateRef i.anchorRef then (yielded (reauthorize lib p active inv prep i.candidateRef)).map Hop.inherited
      else some (.reauthorize i.candidateRef) := by
  rw [expandCandidate_rooted hp hd hi]
  split
  · cases reauthorize lib p active inv prep i.candidateRef <;> rfl
  · rfl

/-- The loop's hops, apart. -/
theorem hops_rooted (hp : p.Faithful) (hd : MainDecision lib p active inv prep d) (hitems : ∀ i ∈ items, Rooted d i) :
    let hops := items.filterMap fun i => yielded (expandCandidate lib d (p.session active) i)
    hops.filterMap Hop.inherited? = (items.filter fun i => sameArticle i.candidateRef i.anchorRef).filterMap
        (fun i => yielded (reauthorize lib p active inv prep i.candidateRef)) ∧
      hops.filterMap Hop.reauthorize? = (items.filter fun i => !sameArticle i.candidateRef i.anchorRef).map (·.candidateRef) := by
  constructor
  · rw [List.filterMap_filterMap, List.filterMap_filter]
    refine List.filterMap_congr fun i hi => ?_
    rw [yielded_rooted hp hd (hitems i hi)]
    split
    · cases yielded (reauthorize lib p active inv prep i.candidateRef) <;> rfl
    · rfl
  · rw [List.filterMap_filterMap, ← List.filterMap_eq_map, List.filterMap_filter]
    refine List.filterMap_congr fun i hi => ?_
    rw [yielded_rooted hp hd (hitems i hi)]
    cases sameArticle i.candidateRef i.anchorRef
    · rfl
    · cases yielded (reauthorize lib p active inv prep i.candidateRef) <;> rfl

/-- An expansion returns when each of its candidates can be authorized again, whatever its
    anchor, and adds what they yield. -/
theorem authorizeOneHop_ok_iff (hp : p.Faithful) (hd : MainDecision lib p active inv prep d) (hitems : ∀ i ∈ items, Rooted d i) :
    authorizeOneHop lib inv prep d (p.session active) items = .ok d' ↔
      (∀ c ∈ items.map (·.candidateRef), ∃ r, reauthorize lib p active inv prep c = .ok r) ∧
        d' = { d with
          projections := d.projections ++ added lib p active inv prep items
          expandedCandidateRefs := ((added lib p active inv prep items).map (·.candidateRef)).toFinset } := by
  obtain ⟨hinherited, hreauthorize⟩ := hops_rooted hp hd hitems
  have hround : ∀ i ∈ items, (∃ r, expandCandidate lib d (p.session active) i = .ok r) ↔
      (sameArticle i.candidateRef i.anchorRef = true → ∃ r, reauthorize lib p active inv prep i.candidateRef = .ok r) := by
    intro i hi
    rw [expandCandidate_rooted hp hd (hitems i hi)]
    split
    · rename_i hsame
      cases reauthorize lib p active inv prep i.candidateRef <;> simp [Except.map, hsame]
    · rename_i hsame
      simp [hsame]
  have hne : ((items.filter fun i => !sameArticle i.candidateRef i.anchorRef).map (·.candidateRef)) ≠ [] → d.projections ≠ [] := by
    intro hne heq
    obtain ⟨c, hc⟩ := List.exists_mem_of_ne_nil _ hne
    obtain ⟨i, hi, -⟩ := List.mem_map.mp hc
    have hrooted := hitems i (List.mem_filter.mp hi).1
    simp [Rooted, heq] at hrooted
  have hproject := @authorizeAndProject_ok_iff lib p active inv prep d hd _ hne
  rw [List.forall_mem_map]
  unfold authorizeOneHop
  constructor
  · intro h
    obtain ⟨hops, hhops, h⟩ := bind_ok h
    obtain ⟨hall, rfl⟩ := collect_ok_iff.mp hhops
    obtain ⟨⟨ps, scope⟩, hps, h⟩ := bind_ok h
    rw [hreauthorize] at hps
    obtain ⟨hall', rfl⟩ := hproject.mp ⟨scope, hps⟩
    refine ⟨fun i hi => ?_, ?_⟩
    · cases hsame : sameArticle i.candidateRef i.anchorRef with
      | true => exact (hround i hi).mp (hall i hi) hsame
      | false => exact hall' _ (List.mem_map_of_mem (List.mem_filter.mpr ⟨hi, by simp [hsame]⟩))
    · rw [← Except.ok.inj h]
      simp only [hinherited, hd.unexpanded, Finset.empty_union, List.append_assoc]
      rfl
  · rintro ⟨hall, rfl⟩
    have hhops : collect (expandCandidate lib d (p.session active)) items = .ok _ :=
      collect_ok_iff.mpr ⟨fun i hi => (hround i hi).mpr fun _ => hall i hi, rfl⟩
    obtain ⟨scope, hps⟩ := hproject.mpr ⟨fun c hc => by
      obtain ⟨i, hi, rfl⟩ := List.mem_map.mp hc
      exact hall i (List.mem_filter.mp hi).1, rfl⟩
    rw [hhops]
    simp only [bind, Except.bind, hinherited, hreauthorize, hps, hd.unexpanded, Finset.empty_union, List.append_assoc]
    rfl

/-- Exact authorization of one candidate alone. -/
theorem authorizeAndProject_one (hd : MainDecision lib p active inv prep d) {a : AuthorizedProjection} (ha : a ∈ d.projections)
    (c : CandidateRef) :
    authorizeAndProject lib inv prep.policyReceipt prep.provenanceReceipt [c] (some (p.session active)) d.projectionScope =
      (reauthorize lib p active inv prep c).map fun r => (r.toList, some ⟨true⟩) := by
  obtain ⟨hanchored, hscope⟩ := hd.anchored a ha
  have htargets : prep.policyReceipt.effectiveScope.targets ≠ ∅ := Finset.ne_empty_of_mem hanchored.inScope
  rw [authorizeAndProject, if_neg (by simp [htargets]), hscope]
  change (collect (reauthorize lib p active inv prep) [c] >>= fun ps => pure (ps, some (⟨true⟩ : KernelScope))) = _
  rw [collect]
  cases reauthorize lib p active inv prep c with
  | error e => rfl
  | ok r => cases r <;> rfl

/-- Which candidates are rooted where decides only in which half they are added. -/
theorem mem_added {q : AuthorizedProjection} :
    q ∈ added lib p active inv prep items ↔
      ∃ c ∈ items.map (·.candidateRef), yielded (reauthorize lib p active inv prep c) = some q := by
  simp only [added, List.mem_append, List.mem_filterMap, List.mem_filter, mem_sortedSet, List.mem_map, exists_exists_and_eq_and]
  constructor
  · rintro (⟨i, ⟨hi, -⟩, hq⟩ | ⟨i, ⟨hi, -⟩, hq⟩)
    · exact ⟨i, hi, hq⟩
    · exact ⟨i, hi, hq⟩
  · rintro ⟨i, hi, hq⟩
    cases hsame : sameArticle i.candidateRef i.anchorRef with
    | true => exact .inl ⟨i, ⟨hi, hsame⟩, hq⟩
    | false => exact .inr ⟨i, ⟨hi, by simp [hsame]⟩, hq⟩

/-- Without duplicates an expansion adds what its candidates yield, in some order. -/
theorem added_perm (hnodup : (items.map (·.candidateRef)).Nodup) :
    (added lib p active inv prep items).Perm
      ((items.map (·.candidateRef)).filterMap fun c => yielded (reauthorize lib p active inv prep c)) := by
  have hsorted : (sortedSet ((items.filter fun i => !sameArticle i.candidateRef i.anchorRef).map (·.candidateRef))).Perm
      ((items.filter fun i => !sameArticle i.candidateRef i.anchorRef).map (·.candidateRef)) := by
    have hsub : ((items.filter fun i => !sameArticle i.candidateRef i.anchorRef).map (·.candidateRef)).Nodup :=
      hnodup.sublist (List.filter_sublist.map _)
    rw [sortedSet, hsub.dedup]
    exact List.perm_insertionSort _ _
  have hsplit := (List.filter_append_perm (fun i => sameArticle i.candidateRef i.anchorRef) items).map (·.candidateRef)
  refine List.Perm.trans ?_ (hsplit.filterMap _)
  rw [List.map_append, List.filterMap_append, List.filterMap_map]
  exact .append_left _ (hsorted.filterMap _)

end Expansion

/-- Over a port of one active Revision for each Resource, and of one ACL for each Revision: a
    candidate of the Article of an anchor that the main path authorized has one outcome, by
    inheritance and by exact authorization, the same projection or nothing or what was raised;
    and two expansions of the same candidates, rooted at any anchors, both return or neither
    does, and add the same projections. -/
theorem inheritance_is_reauthorization (lib : Stdlib) (p : TablePort) (active : Bool) (inv : AuthenticatedInvocation)
    (prep : PreparedAcquireAuthorization) (candidateRefs : List CandidateRef) (d : AuthorizationDecision) (hp : p.Faithful)
    (hd : authorizeAcquire lib inv prep candidateRefs (some (p.session active)) = .ok d) :
    (∀ anchor ∈ d.projections, ∀ c, sameArticle c anchor.candidateRef = true →
      (expandCandidate lib d (p.session active) ⟨anchor.candidateRef, c⟩).map Option.toList =
        (authorizeAndProject lib inv prep.policyReceipt prep.provenanceReceipt [c] (some (p.session active)) d.projectionScope).map
          fun r => r.1.map Hop.inherited) ∧
    (∀ items items' : List MaterializedOneHopCandidate, items'.map (·.candidateRef) = items.map (·.candidateRef) →
      (∀ i ∈ items ++ items', Rooted d i) → ∀ d', authorizeOneHop lib inv prep d (p.session active) items = .ok d' →
      ∃ d'' ps ps', authorizeOneHop lib inv prep d (p.session active) items' = .ok d'' ∧
        d'.projections = d.projections ++ ps ∧ d''.projections = d.projections ++ ps' ∧
        (∀ q, q ∈ ps' ↔ q ∈ ps) ∧ ((items.map (·.candidateRef)).Nodup → ps'.Perm ps) ∧
        d''.expandedCandidateRefs = d'.expandedCandidateRefs) := by
  have hmain := authorizeAcquire_main hd
  constructor
  · intro anchor hanchor c hsame
    have hrooted : Rooted d ⟨anchor.candidateRef, c⟩ := List.mem_map_of_mem hanchor
    rw [expandCandidate_rooted hp hmain hrooted, if_pos hsame, authorizeAndProject_one hmain hanchor]
    cases reauthorize lib p active inv prep c with
    | error e => rfl
    | ok r => cases r <;> rfl
  · intro items items' hrefs hrooted d' h
    have hitems : ∀ i ∈ items, Rooted d i := fun i hi => hrooted i (List.mem_append_left _ hi)
    have hitems' : ∀ i ∈ items', Rooted d i := fun i hi => hrooted i (List.mem_append_right _ hi)
    obtain ⟨hall, rfl⟩ := (authorizeOneHop_ok_iff hp hmain hitems).mp h
    have hmem : ∀ q, q ∈ added lib p active inv prep items' ↔ q ∈ added lib p active inv prep items := by
      intro q
      rw [mem_added, mem_added, hrefs]
    refine ⟨_, _, _, (authorizeOneHop_ok_iff hp hmain hitems').mpr ⟨?_, rfl⟩, rfl, rfl, hmem, ?_, ?_⟩
    · rw [hrefs]
      exact hall
    · intro hnodup
      refine (added_perm (hrefs ▸ hnodup)).trans ?_
      rw [hrefs]
      exact (added_perm hnodup).symm
    · ext c
      simp only [List.mem_toFinset, List.mem_map, hmem]

namespace InheritanceInstance

open KernelInstance

/-- A port that knows the Revision `rev1` of every Resource. -/
def port : TablePort where
  locate c := .ok (if c.revisionRef.value = "rev1" then some ⟨c.organizationId, c.sourceRef.value, c.resourceRef.value,
    c.revisionRef.value, c.fragmentRef.value, "acl", ⟨0⟩, "fresh"⟩ else none)
  project l := .ok (some ⟨.legacyBody, [⟨"body", .ofString ("text of " ++ l.fragmentRef), 0⟩], ["body"]⟩)

theorem port_faithful : port.Faithful where
  revision := by
    refine ⟨fun _ _ _ => some ⟨"rev1", by decide⟩, fun c hc => ?_⟩
    have hne : c.revisionRef.value ≠ "rev1" := by
      intro heq
      exact hc (congrArg some (OpaqueRef.ext_value heq.symm))
    simp [port, hne]
  acl := by
    intro c c' l l' h h' _ _
    simp only [port, Except.ok.injEq, Option.ite_none_right_eq_some, Option.some.injEq] at h h'
    obtain ⟨-, rfl⟩ := h
    obtain ⟨-, rfl⟩ := h'
    exact ⟨rfl, rfl, rfl⟩

/-- The first Fragment is authorized, and the second of its Article is inherited from it. -/
def inherits : Bool :=
  match authorizeAcquire cpython invocation preparation [candidate article first] (some (port.session true)) with
  | .error _ => false
  | .ok d => d.projections.map (·.candidateRef) == [candidate article first] &&
      match expandCandidate cpython d (port.session true) ⟨candidate article first, candidate article second⟩ with
      | .ok (some (.inherited _)) => true
      | _ => false

theorem inherited_second_fragment : ∃ d q scope,
    authorizeAcquire cpython invocation preparation [candidate article first] (some (port.session true)) = .ok d ∧
    expandCandidate cpython d (port.session true) ⟨candidate article first, candidate article second⟩ = .ok (some (.inherited q)) ∧
    authorizeAndProject cpython invocation preparation.policyReceipt preparation.provenanceReceipt [candidate article second]
      (some (port.session true)) d.projectionScope = .ok ([q], scope) := by
  have hrun : inherits = true := by decide +kernel
  unfold inherits at hrun
  split at hrun
  · cases hrun
  next d hd =>
  obtain ⟨hrefs, hrun⟩ := Bool.and_eq_true_iff.mp hrun
  split at hrun
  next q hq =>
    obtain ⟨a, ha, href⟩ : ∃ a ∈ d.projections, a.candidateRef = candidate article first := by
      have hmem : candidate article first ∈ d.projections.map (·.candidateRef) := by
        rw [beq_iff_eq.mp hrefs]
        exact List.mem_cons_self
      exact List.mem_map.mp hmem
    have hsame := (inheritance_is_reauthorization cpython port true invocation preparation [candidate article first] d
      port_faithful hd).1 a ha (candidate article second) (by rw [href]; decide)
    rw [href, hq] at hsame
    cases hproject : authorizeAndProject cpython invocation preparation.policyReceipt preparation.provenanceReceipt
        [candidate article second] (some (port.session true)) d.projectionScope with
    | error e =>
      rw [hproject] at hsame
      cases hsame
    | ok r =>
      rw [hproject] at hsame
      obtain ⟨ps, scope⟩ := r
      have hps : ps.map Hop.inherited = [Hop.inherited q] := (Except.ok.inj hsame).symm
      obtain ⟨q', rfl, hq'⟩ := List.map_eq_singleton_iff.mp hps
      obtain rfl := Hop.inherited.inj hq'
      exact ⟨d, q', scope, hd, hq, hproject⟩
  · cases hrun

end InheritanceInstance

end ContextEngine.Runtime
