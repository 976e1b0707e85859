/-
  ContextEngine.Runtime.KernelProofs — no unauthorized projection (see
  `ContextEngine.Runtime.Kernel`).

  The port is hostile: each answer may depend on every call before it, and any call may
  raise. The calls and their answers are kept in a log, which is what "the port returned"
  refers to.

  Proved:
  - `authorized_of_hostile_port`: after the main path and any sequence of checked pages,
    each projection is in scope, was located and projected by the port for exactly its
    candidate, and carries this decision's lineage; no expanded candidate is an anchor.
-/

import ContextEngine.Python.Effects
import ContextEngine.Python.Hashlib
import ContextEngine.Runtime.Kernel

namespace ContextEngine.Runtime

open ContextEngine.Python Checks Budget

/-! ## Hostile ports -/

inductive PortEvent where
  | located (c : CandidateRef) (answer : Option MaterializedFragmentLocator)
  | projected (l : MaterializedFragmentLocator) (answer : Option MaterializedFragmentProjection)
  | discovered (anchors : List CandidateRef) (limit offset : Int) (answer : List MaterializedOneHopCandidate)

abbrev Log := List PortEvent

abbrev Hostile := StateT Log (Except Raised)

/-- Any behaviour of a port: an answer, or an exception, for every call after every log. -/
structure Oracle where
  locate : Log → CandidateRef → Except Raised (Option MaterializedFragmentLocator)
  project : Log → MaterializedFragmentLocator → Except Raised (Option MaterializedFragmentProjection)
  discoverOneHop : Option (Log → List CandidateRef → Int → Int → Except Raised (List MaterializedOneHopCandidate))

/-- Ask the oracle, and log its answer. -/
def logged {α : Type} (answer : Log → Except Raised α) (event : α → PortEvent) : Hostile α := fun log => do
  let a ← answer log
  return (a, log ++ [event a])

def Oracle.port (o : Oracle) : MaterializedProjectionPort Hostile where
  locate c := logged (o.locate · c) (.located c)
  project l := logged (o.project · l) (.projected l)
  discoverOneHop := o.discoverOneHop.map fun f anchors limit offset =>
    logged (f · anchors limit offset) (.discovered anchors limit offset)

def Oracle.session (o : Oracle) (active : Bool) : MaterializedProjectionSession Hostile := ⟨active, o.port⟩

/-! ## Runs -/

theorem logged_ok {α : Type} {answer : Log → Except Raised α} {event : α → PortEvent} {a : α} {log log' : Log}
    (h : logged answer event log = .ok (a, log')) : log' = log ++ [event a] := by
  unfold logged at h
  obtain ⟨b, hb, h1⟩ := bind_ok h
  cases h1; rfl

/-- After a log that extends `base`, an operation only adds to it and its results satisfy `P`. -/
def Yields {β : Type} (base : Log) (x : Hostile β) (P : Log → β → Prop) : Prop :=
  ∀ log b log', base ⊆ log → x log = .ok (b, log') → log ⊆ log' ∧ P log' b

theorem collect_yields {α β : Type} {base : Log} {f : α → Hostile (Option β)} {P : Log → β → Prop}
    (mono : ∀ {log log' : Log} {b : β}, log ⊆ log' → P log b → P log' b) {as : List α}
    (hf : ∀ a ∈ as, Yields base (f a) fun log r => ∀ b, r = some b → P log b) :
    Yields base (collect f as) fun log bs => ∀ b ∈ bs, P log b := by
  induction as with
  | nil =>
    intro log bs log' hbase h
    obtain ⟨rfl, rfl⟩ := run_pure h
    exact ⟨List.Subset.refl _, by simp⟩
  | cons a as ih =>
    intro log bs log' hbase h
    obtain ⟨r, mid, hr, h1⟩ := run_bind h
    obtain ⟨rest, mid', hrest, h2⟩ := run_bind h1
    obtain ⟨rfl, rfl⟩ := run_pure h2
    obtain ⟨hsub, hhead⟩ := hf a List.mem_cons_self _ _ _ hbase hr
    obtain ⟨hsub', htail⟩ := ih (fun a ha => hf a (List.mem_cons_of_mem _ ha)) _ _ _ (List.Subset.trans hbase hsub) hrest
    refine ⟨fun e he => hsub' (hsub he), fun b hb => ?_⟩
    rcases List.mem_append.mp hb with hb | hb
    · exact mono hsub' (hhead b (Option.mem_toList.mp hb))
    · exact htail b hb

/-! ## The seam -/

theorem locate_yields (o : Oracle) (active : Bool) (base : Log) (c : CandidateRef) :
    Yields base (locateMaterializedFragment (o.session active) c) fun log r => .located c r ∈ log := by
  intro log r log' hbase h
  obtain ⟨_, mid, hs, h1⟩ := run_bind h
  obtain ⟨-, rfl⟩ := run_lift hs
  have hlog : logged (o.locate · c) (.located c) mid = .ok (r, log') := h1
  rw [logged_ok hlog]
  exact ⟨by simp, by simp⟩

theorem project_yields (o : Oracle) (active : Bool) (base : Log) (l : MaterializedFragmentLocator) :
    Yields base (projectMaterializedFragment (o.session active) l) fun log r => .projected l r ∈ log := by
  intro log r log' hbase h
  obtain ⟨_, mid, hs, h1⟩ := run_bind h
  obtain ⟨-, rfl⟩ := run_lift hs
  obtain ⟨a, mid', hp, h2⟩ := run_bind h1
  have hlog : logged (o.project · l) (.projected l) mid = .ok (a, mid') := hp
  have hmid := logged_ok hlog
  cases a with
  | none =>
    obtain ⟨rfl, rfl⟩ := run_pure h2
    rw [hmid]
    exact ⟨by simp, by simp⟩
  | some p =>
    obtain ⟨_, mid'', hv, h3⟩ := run_bind h2
    obtain ⟨-, rfl⟩ := run_lift hv
    obtain ⟨rfl, rfl⟩ := run_pure h3
    rw [hmid]
    exact ⟨by simp, by simp⟩

/-! ## What an admitted projection is -/

/-- Everything the Kernel promises about one projection of a decision. -/
structure Admitted (inv : AuthenticatedInvocation) (prep : PreparedAcquireAuthorization) (log : Log)
    (p : AuthorizedProjection) : Prop where
  inScope : scopeTarget p.candidateRef ∈ prep.policyReceipt.effectiveScope.targets
  /-- The port located exactly this candidate, and projected that locator to this content. -/
  projected : ∃ l fp, .located p.candidateRef (some l) ∈ log ∧
    l.organizationId = p.candidateRef.organizationId ∧ l.sourceRef = p.candidateRef.sourceRef.value ∧
    l.resourceRef = p.candidateRef.resourceRef.value ∧ l.revisionRef = p.candidateRef.revisionRef.value ∧
    l.fragmentRef = p.candidateRef.fragmentRef.value ∧
    .projected l (some fp) ∈ log ∧ p.projectedBody = fp.renderedBody ∧ p.projectedFieldRefs = fp.projectedFieldRefs
  runRef : p.lineage.runRef.value = prep.provenanceReceipt.runRef
  decisionRef : p.lineage.decisionRef.value = prep.provenanceReceipt.decisionRef
  policySnapshotRef : p.lineage.policySnapshotRef.value = prep.provenanceReceipt.policySnapshotRef
  policyEpoch : p.lineage.policyEpoch = prep.provenanceReceipt.policyEpoch
  sourceAclDecisionRef : p.lineage.sourceAclDecisionRef.value = prep.provenanceReceipt.sourceAclDecisionRef
  principalRef : p.lineage.principalRef.value = inv.principalRef
  purpose : p.lineage.purpose.value = prep.provenanceReceipt.purpose
  asOf : p.lineage.asOf = prep.provenanceReceipt.asOf

theorem Admitted.mono {inv : AuthenticatedInvocation} {prep : PreparedAcquireAuthorization} {log log' : Log}
    {p : AuthorizedProjection} (hsub : log ⊆ log') (h : Admitted inv prep log p) : Admitted inv prep log' p := by
  obtain ⟨l, fp, hl, h1, h2, h3, h4, h5, hp, hb, hf⟩ := h.projected
  exact { h with projected := ⟨l, fp, hsub hl, h1, h2, h3, h4, h5, hsub hp, hb, hf⟩ }

section Steps

variable (lib : Stdlib) (o : Oracle) (active : Bool) (base : Log) (inv : AuthenticatedInvocation)
  (prep : PreparedAcquireAuthorization)

/-- Exact authorization of one candidate. -/
theorem authorizeCandidate_yields (scope : KernelScope) (c : CandidateRef) :
    Yields base (authorizeCandidate lib inv prep.policyReceipt prep.provenanceReceipt (o.session active) scope c)
      fun log r => ∀ p, r = some p → Admitted inv prep log p ∧ p.candidateRef = c := by
  intro log r log' hbase h
  obtain ⟨a, mid, hl, h1⟩ := run_bind h
  obtain ⟨hsub, hlocated⟩ := locate_yields o active base c _ _ _ hbase hl
  cases a with
  | none => obtain ⟨rfl, rfl⟩ := run_pure h1; exact ⟨hsub, by simp⟩
  | some l =>
    simp only at h1
    split at h1
    · obtain ⟨rfl, rfl⟩ := run_pure h1; exact ⟨hsub, by simp⟩
    next hmatch =>
    split at h1
    · obtain ⟨rfl, rfl⟩ := run_pure h1; exact ⟨hsub, by simp⟩
    next hscope =>
    obtain ⟨b, mid', hp, h2⟩ := run_bind h1
    obtain ⟨hsub', hprojected⟩ := project_yields o active base l _ _ _ (List.Subset.trans hbase hsub) hp
    cases b with
    | none => obtain ⟨rfl, rfl⟩ := run_pure h2; exact ⟨fun e he => hsub' (hsub he), by simp⟩
    | some fp =>
      obtain ⟨lineage, mid'', hlin, h3⟩ := run_bind h2
      obtain ⟨hlineage, rfl⟩ := run_lift hlin
      obtain ⟨p, mid''', hcon, h4⟩ := run_bind h3
      obtain ⟨hmade, rfl⟩ := run_lift hcon
      obtain ⟨rfl, rfl⟩ := run_pure h4
      obtain ⟨rfl, -⟩ := constructAuthorizedProjection_ok lib hmade
      obtain ⟨ho, hs, hr, hv, hf⟩ := locatorMatchesCandidate_iff.mp (by simpa using hmatch)
      obtain ⟨hrun, hprincipal, hpurpose, hasOf, hdec, hsnap, hepoch, hacl, -⟩ := evidenceLineage_ok hlineage
      refine ⟨fun e he => hsub' (hsub he), ?_⟩
      rintro _ ⟨⟩
      refine ⟨?_, rfl⟩
      exact {
        inScope := by simpa [scopeTarget, ho, hs, hr] using hscope
        projected := ⟨l, fp, hsub' hlocated, ho, hs, hr, hv, hf, hprojected, rfl, rfl⟩
        runRef := hrun, decisionRef := hdec, policySnapshotRef := hsnap, policyEpoch := hepoch
        sourceAclDecisionRef := hacl, principalRef := hprincipal, purpose := hpurpose, asOf := hasOf }

theorem authorizeAndProject_yields (candidates : List CandidateRef) (session : Option Bool)
    (kernelScope : Option KernelScope) :
    Yields base (authorizeAndProject lib inv prep.policyReceipt prep.provenanceReceipt candidates
        (session.map o.session) kernelScope)
      fun log r => ∀ p ∈ r.1, Admitted inv prep log p ∧ p.candidateRef ∈ candidates := by
  intro log r log' hbase h
  unfold authorizeAndProject at h
  split at h
  · obtain ⟨rfl, rfl⟩ := run_pure h; exact ⟨List.Subset.refl _, by simp⟩
  cases session with
  | none =>
    obtain ⟨_, mid, he, h1⟩ := run_bind h
    exact absurd (run_lift he).1 (by simp)
  | some active =>
    obtain ⟨ps, mid, hps, h1⟩ := run_bind h
    obtain ⟨rfl, rfl⟩ := run_pure h1
    have hstep : ∀ c ∈ sortedSet candidates, Yields base
        (authorizeCandidate lib inv prep.policyReceipt prep.provenanceReceipt (o.session active)
          (kernelScope.getD ⟨true⟩) c)
        fun log r => ∀ p, r = some p → Admitted inv prep log p ∧ p.candidateRef ∈ candidates := by
      intro c hc log r log' hbase h
      obtain ⟨hsub, hr⟩ := authorizeCandidate_yields lib o active base inv prep _ c _ _ _ hbase h
      refine ⟨hsub, fun p hp => ⟨(hr p hp).1, ?_⟩⟩
      rw [(hr p hp).2]; exact mem_sortedSet.mp hc
    exact collect_yields (fun hsub h => ⟨h.1.mono hsub, h.2⟩) hstep _ _ _ hbase hps

theorem anchorOf_some {d : AuthorizationDecision} {ref : CandidateRef} {a : AuthorizedProjection}
    (h : anchorOf d ref = some a) : a ∈ d.projections ∧ a.candidateRef = ref := by
  refine ⟨List.mem_reverse.mp (List.mem_of_find?_eq_some h), ?_⟩
  simpa using List.find?_some h

/-- What the loop over one page collects. -/
def HopOk (page : List MaterializedOneHopCandidate) (log : Log) : Hop → Prop
  | .inherited p => Admitted inv prep log p ∧ p.candidateRef ∈ page.map (·.candidateRef)
  | .reauthorize c => c ∈ page.map (·.candidateRef)

theorem HopOk.mono {page : List MaterializedOneHopCandidate} {log log' : Log} {hop : Hop} (hsub : log ⊆ log')
    (h : HopOk inv prep page log hop) : HopOk inv prep page log' hop := by
  cases hop with
  | inherited p => exact ⟨h.1.mono hsub, h.2⟩
  | reauthorize c => exact h

/-- A graph candidate is inherited from an admitted anchor of its own Article, or named
    for reauthorization. Inheritance makes no scope check of its own: the candidate's
    Resource is its anchor's, and that one is in scope. -/
theorem expandCandidate_yields (d : AuthorizationDecision) (hd : ∀ p ∈ d.projections, Admitted inv prep base p)
    {page : List MaterializedOneHopCandidate} {item : MaterializedOneHopCandidate} (hitem : item ∈ page) :
    Yields base (expandCandidate lib d (o.session active) item)
      fun log r => ∀ hop, r = some hop → HopOk inv prep page log hop := by
  intro log r log' hbase h
  have hname : item.candidateRef ∈ page.map (·.candidateRef) := List.mem_map_of_mem hitem
  obtain ⟨_, mid, hensure, h1⟩ := run_bind h
  obtain ⟨-, rfl⟩ := run_lift hensure
  rcases ha : anchorOf d item.anchorRef with _ | anchor
  · simp only [ha] at h1
    obtain ⟨_, mid, he, -⟩ := run_bind h1
    exact absurd (run_lift he).1 (by simp)
  simp only [ha] at h1
  obtain ⟨hmem, -⟩ := anchorOf_some ha
  split at h1
  · obtain ⟨rfl, rfl⟩ := run_pure h1
    refine ⟨List.Subset.refl _, ?_⟩
    rintro _ ⟨⟩
    exact hname
  split at h1
  · obtain ⟨rfl, rfl⟩ := run_pure h1
    exact ⟨List.Subset.refl _, by simp⟩
  obtain ⟨a, located, hl, h2⟩ := run_bind h1
  obtain ⟨hsub, hlocated⟩ := locate_yields o active base _ _ _ _ hbase hl
  cases a with
  | none => obtain ⟨rfl, rfl⟩ := run_pure h2; exact ⟨hsub, by simp⟩
  | some l =>
    simp only at h2
    split at h2
    · obtain ⟨rfl, rfl⟩ := run_pure h2; exact ⟨hsub, by simp⟩
    next hmatch =>
    obtain ⟨b, projected, hp, h3⟩ := run_bind h2
    obtain ⟨hsub', hprojected⟩ := project_yields o active base l _ _ _ (List.Subset.trans hbase hsub) hp
    cases b with
    | none => obtain ⟨rfl, rfl⟩ := run_pure h3; exact ⟨fun e he => hsub' (hsub he), by simp⟩
    | some fp =>
      obtain ⟨p, _, hcon, h4⟩ := run_bind h3
      obtain ⟨hmade, rfl⟩ := run_lift hcon
      obtain ⟨rfl, rfl⟩ := run_pure h4
      obtain ⟨hbuilt, horg, hsrc, hres, -⟩ := constructInherited_ok lib hmade
      obtain ⟨rfl, -⟩ := constructAuthorizedProjection_ok lib hbuilt
      obtain ⟨ho, hs, hr, hv, hf⟩ := locatorMatchesCandidate_iff.mp (by simpa using hmatch)
      have hanchor := hd anchor hmem
      refine ⟨fun e he => hsub' (hsub he), ?_⟩
      rintro _ ⟨⟩
      refine ⟨?_, hname⟩
      exact {
        inScope := by simpa [scopeTarget, horg, hsrc, hres] using hanchor.inScope
        projected := ⟨l, fp, hsub' hlocated, ho, hs, hr, hv, hf, hprojected, rfl, rfl⟩
        runRef := hanchor.runRef, decisionRef := hanchor.decisionRef, policySnapshotRef := hanchor.policySnapshotRef
        policyEpoch := hanchor.policyEpoch, sourceAclDecisionRef := hanchor.sourceAclDecisionRef
        principalRef := hanchor.principalRef, purpose := hanchor.purpose, asOf := hanchor.asOf }

/-! ## One page, then a run -/

/-- What holds of a decision after any number of pages; `mainRefs` are the refs the main
    path authorized. -/
structure Sound (mainRefs : List CandidateRef) (log : Log) (d : AuthorizationDecision) : Prop where
  admitted : ∀ p ∈ d.projections, Admitted inv prep log p
  expanded : ∀ c ∈ d.expandedCandidateRefs, c ∉ mainRefs

theorem Sound.mono {mainRefs : List CandidateRef} {log log' : Log} {d : AuthorizationDecision} (hsub : log ⊆ log')
    (h : Sound inv prep mainRefs log d) : Sound inv prep mainRefs log' d :=
  ⟨fun p hp => (h.admitted p hp).mono hsub, h.expanded⟩

theorem authorizeAcquire_sound (candidates : List CandidateRef) (session : Option Bool) {log log' : Log}
    {d : AuthorizationDecision}
    (h : authorizeAcquire lib inv prep candidates (session.map o.session) log = .ok (d, log')) :
    Sound inv prep (d.projections.map (·.candidateRef)) log' d := by
  obtain ⟨_, mid, hscope, h1⟩ := run_bind h
  obtain ⟨-, rfl⟩ := run_lift hscope
  obtain ⟨⟨ps, scope⟩, mid', hps, h2⟩ := run_bind h1
  obtain ⟨rfl, rfl⟩ := run_pure h2
  obtain ⟨-, hall⟩ := authorizeAndProject_yields lib o [] inv prep candidates session none _ _ _ (by simp) hps
  exact ⟨fun p hp => (hall p hp).1, by simp⟩

theorem authorizeOneHop_sound {mainRefs : List CandidateRef} {log log' : Log} {d d' : AuthorizationDecision}
    {page : List MaterializedOneHopCandidate} {limit : Int} (hpage : checkOneHopPage mainRefs limit page = .ok ())
    (hd : Sound inv prep mainRefs log d)
    (h : authorizeOneHop lib inv prep d (o.session active) page log = .ok (d', log')) :
    log ⊆ log' ∧ Sound inv prep mainRefs log' d' := by
  obtain ⟨hops, mid, hhops, h1⟩ := run_bind h
  obtain ⟨⟨reauthorized, scope⟩, mid', hreauthorized, h2⟩ := run_bind h1
  obtain ⟨rfl, rfl⟩ := run_pure h2
  have hstep : ∀ item ∈ page, Yields log (expandCandidate lib d (o.session active) item)
      fun log r => ∀ hop, r = some hop → HopOk inv prep page log hop :=
    fun item hitem => expandCandidate_yields lib o active log inv prep d hd.admitted hitem
  obtain ⟨hsub, hok⟩ := collect_yields (P := HopOk inv prep page) (HopOk.mono inv prep) hstep _ _ _ (List.Subset.refl _) hhops
  obtain ⟨hsub', hre⟩ := authorizeAndProject_yields lib o log inv prep (hops.filterMap Hop.reauthorize?)
    (some active) d.projectionScope _ _ _ hsub hreauthorized
  have hinherited : ∀ p ∈ hops.filterMap Hop.inherited?, HopOk inv prep page mid (.inherited p) := by
    intro p hp
    obtain ⟨hop, hmem, heq⟩ := List.mem_filterMap.mp hp
    cases hop with
    | inherited q => cases heq; exact hok _ hmem
    | reauthorize c => cases heq
  have hreauth : ∀ c ∈ hops.filterMap Hop.reauthorize?, c ∈ page.map (·.candidateRef) := by
    intro c hc
    obtain ⟨hop, hmem, heq⟩ := List.mem_filterMap.mp hc
    cases hop with
    | inherited q => cases heq
    | reauthorize c' => cases heq; exact hok _ hmem
  have hfresh : ∀ c ∈ page.map (·.candidateRef), c ∉ mainRefs := by
    intro c hc
    obtain ⟨i, hi, rfl⟩ := List.mem_map.mp hc
    exact ((checkOneHopPage_ok hpage).1 i hi).2
  refine ⟨fun e he => hsub' (hsub he), ⟨?_, ?_⟩⟩
  · intro p hp
    simp only [List.mem_append] at hp
    rcases hp with (hp | hp) | hp
    · exact (hd.admitted p hp).mono fun e he => hsub' (hsub he)
    · exact (hinherited p hp).1.mono hsub'
    · exact (hre p hp).1
  · intro c hc
    simp only [Finset.mem_union, List.mem_toFinset, List.map_append, List.mem_append, List.mem_map] at hc
    rcases hc with hc | ⟨p, hp, rfl⟩ | ⟨p, hp, rfl⟩
    · exact hd.expanded c hc
    · exact hfresh _ (hinherited p hp).2
    · exact hfresh _ (hreauth _ (hre p hp).2)

/-- Successive `authorize_one_hop` calls. Before each one the port may have served any
    other calls, whose events join the log. -/
def authorizePages : AuthorizationDecision → List (Log × List MaterializedOneHopCandidate) →
    Hostile AuthorizationDecision
  | d, [] => pure d
  | d, (events, page) :: rest => do
    modify (· ++ events)
    let d ← authorizeOneHop lib inv prep d (o.session active) page
    authorizePages d rest

theorem authorizePages_sound {mainRefs : List CandidateRef}
    (pages : List (Log × List MaterializedOneHopCandidate))
    (hpages : ∀ page ∈ pages, ∃ limit, checkOneHopPage mainRefs limit page.2 = .ok ()) :
    ∀ {log log' : Log} {d d' : AuthorizationDecision}, Sound inv prep mainRefs log d →
      authorizePages lib o active inv prep d pages log = .ok (d', log') → Sound inv prep mainRefs log' d' := by
  induction pages with
  | nil =>
    intro log log' d d' hd h
    obtain ⟨rfl, rfl⟩ := run_pure h
    exact hd
  | cons page rest ih =>
    intro log log' d d' hd h
    obtain ⟨events, page⟩ := page
    obtain ⟨_, mid, hmodify, h1⟩ := run_bind h
    have hmid : mid = log ++ events := by cases hmodify; rfl
    obtain ⟨next, mid', hone, h2⟩ := run_bind h1
    obtain ⟨limit, hpage⟩ := hpages (events, page) List.mem_cons_self
    have hd' : Sound inv prep mainRefs mid d := hd.mono inv prep (by rw [hmid]; simp)
    exact ih (fun page hp => hpages page (List.mem_cons_of_mem _ hp))
      (authorizeOneHop_sound lib o active inv prep hpage hd' hone).2 h2

end Steps

/-- No unauthorized projection, whatever the index nominates and the port answers. -/
theorem authorized_of_hostile_port (lib : Stdlib) (o : Oracle) (active : Bool) (session : Option Bool)
    (inv : AuthenticatedInvocation) (prep : PreparedAcquireAuthorization) (candidates : List CandidateRef)
    (pages : List (Log × List MaterializedOneHopCandidate)) (log log' log'' : Log) (main d : AuthorizationDecision)
    (hmain : authorizeAcquire lib inv prep candidates (session.map o.session) log = .ok (main, log'))
    (hpages : ∀ page ∈ pages, ∃ limit,
      checkOneHopPage (main.projections.map (·.candidateRef)) limit page.2 = .ok ())
    (hd : authorizePages lib o active inv prep main pages log' = .ok (d, log'')) :
    (∀ p ∈ d.projections, Admitted inv prep log'' p) ∧
    (∀ page ∈ pages, ∀ item ∈ page.2, item.anchorRef ∉ d.expandedCandidateRefs) := by
  have hsound := authorizePages_sound lib o active inv prep pages hpages
    (authorizeAcquire_sound lib o inv prep candidates session hmain) hd
  refine ⟨hsound.admitted, fun page hp item hi hexpanded => ?_⟩
  obtain ⟨limit, hpage⟩ := hpages page hp
  -- an anchor is one of the main path's refs, and no expanded ref is
  exact hsound.expanded _ hexpanded ((checkOneHopPage_ok hpage).1 item hi).1

/-! ## An instance -/

namespace KernelInstance

def org : UUID := .ofNat 7

def candidate (resource fragment : OpaqueRef) : CandidateRef :=
  ⟨org, ⟨"files", by decide⟩, resource, ⟨"rev1", by decide⟩, fragment⟩

def article : OpaqueRef := ⟨"a", by decide⟩
def other : OpaqueRef := ⟨"b", by decide⟩
def outside : OpaqueRef := ⟨"c", by decide⟩
def first : OpaqueRef := ⟨"f1", by decide⟩
def second : OpaqueRef := ⟨"f2", by decide⟩

/-- A port that locates and projects whatever it is asked for. -/
def oracle : Oracle where
  locate _ c := .ok (some ⟨c.organizationId, c.sourceRef.value, c.resourceRef.value, c.revisionRef.value,
    c.fragmentRef.value, "acl", ⟨0⟩, "fresh"⟩)
  project _ l := .ok (some ⟨.legacyBody, [⟨"body", .ofString ("text of " ++ l.fragmentRef), 0⟩], ["body"]⟩)
  discoverOneHop := none

def invocation : AuthenticatedInvocation where
  requestId := "req"
  organizationRef := org
  userRef := org
  principalRef := "user"
  membershipRef := org
  membershipVersion := 1
  policyEpoch := 1
  agentVersionRef := "agent"
  authenticatedApplicationRef := "app"
  authenticationBindingRef := "auth"
  receivedAt := ⟨0⟩
  organizationVerification := ⟨org, "req", "auth", ⟨0⟩⟩
  userActor := ⟨true, org, org, org, 1, "user", "req", "auth", ⟨0⟩, ⟨org, 1⟩, none⟩
  trustedScopeSnapshot := ⟨true, org, org, org, 1, 1, "user", "agent", "answer", "req", "auth", ⟨0⟩,
    ⟨none, none, none, none, none, none, none⟩⟩

/-- Scope: the Resources `a` and `b`, not `c`. -/
def preparation : PreparedAcquireAuthorization :=
  ⟨⟨10, 10, 10, 10, by decide, by decide, by decide, by decide⟩,
    ⟨"req", "answer", 1, .of cpython {scopeTarget (candidate article first), scopeTarget (candidate other first)}⟩,
    ⟨"dec", "pkg", org, org, org, 1, "user", "agent", "app", "auth", "digest", "req", "answer", ⟨0⟩, "run", "snap", 1,
      "acl"⟩⟩

/-- One page: a Fragment to inherit, a Resource to authorize, and one out of scope. -/
def pages : List (Log × List MaterializedOneHopCandidate) :=
  [([], [⟨candidate article first, candidate article second⟩, ⟨candidate article first, candidate other first⟩,
    ⟨candidate article first, candidate outside first⟩])]

/-- The run returns, its page passes the checks, and three projections come out. -/
def returns : Bool :=
  match authorizeAcquire cpython invocation preparation [candidate article first, candidate outside first]
      ((some true).map oracle.session) [] with
  | .error _ => false
  | .ok (main, log) =>
    (pages.all fun page => (checkOneHopPage (main.projections.map (·.candidateRef)) 64 page.2).toBool) &&
      match authorizePages cpython oracle true invocation preparation main pages log with
      | .error _ => false
      | .ok (d, _) => d.projections.length == 3

theorem authorized_of_hostile_port_instance : ∃ (d : AuthorizationDecision) (log : Log), d.projections.length = 3 ∧
    ∀ p ∈ d.projections, Admitted invocation preparation log p := by
  have hrun : returns = true := by decide +kernel
  unfold returns at hrun
  split at hrun
  · cases hrun
  next main log hmain =>
  obtain ⟨hpages, hrun⟩ := Bool.and_eq_true_iff.mp hrun
  split at hrun
  · cases hrun
  next d log' hd =>
  refine ⟨d, log', by simpa using hrun, ?_⟩
  refine (authorized_of_hostile_port cpython oracle true (some true) invocation preparation _ pages [] log log' main d
    hmain ?_ hd).1
  intro page hpage
  have hok := List.all_eq_true.mp hpages page hpage
  refine ⟨64, ?_⟩
  cases hc : checkOneHopPage (main.projections.map (·.candidateRef)) 64 page.2 with
  | ok u => rfl
  | error e => simp [hc, Except.toBool] at hok

end KernelInstance

end ContextEngine.Runtime
