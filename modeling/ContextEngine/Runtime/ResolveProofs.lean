/-
  ContextEngine.Runtime.ResolveProofs — the Policy Epoch's veto over one whole resolve (see
  `ContextEngine.Runtime.Resolve`).

  The epoch authority may answer anything at each read. The scope that a resolve reports is
  a function of its invocation and of what it read, `vetoedScope`: the snapshot's scope if
  every epoch agreed, else the empty one.

  Proved:
  - `policy_epoch_veto`: Evidence is delivered only if the snapshot's epoch, the
    invocation's and both reads are the Package's; without Evidence the Package is empty,
    the run is recorded with one audit, and its digest is the reported scope's.
-/

import ContextEngine.Python.Hashlib
import ContextEngine.Runtime.Resolve

namespace ContextEngine.Runtime

open ContextEngine.Python Checks Budget

/-! ## The scope that is left -/

section Scopes

variable (libs : DeliveryLibraries) (inv : AuthenticatedInvocation) (narrowing : Option RequestNarrowing)

/-- The scope of a snapshot of the invocation's epoch. -/
def snapshotScope : EffectiveScope :=
  if inv.trustedScopeSnapshot.policyEpoch = inv.policyEpoch then
    computeEffectiveScope libs.stdlib inv.trustedScopeSnapshot.operands narrowing
  else .of libs.stdlib ∅

/-- The scope after these reads of the epoch: the snapshot's, if both gates read the
    invocation's epoch. -/
def vetoedScope (reads : List Int) : EffectiveScope :=
  if reads = [inv.policyEpoch, inv.policyEpoch] then snapshotScope libs inv narrowing else .of libs.stdlib ∅

theorem epochs_of_vetoedScope {reads : List Int} (h : (vetoedScope libs inv narrowing reads).targets ≠ ∅) :
    inv.trustedScopeSnapshot.policyEpoch = inv.policyEpoch ∧ reads = [inv.policyEpoch, inv.policyEpoch] := by
  unfold vetoedScope at h
  split at h
  · rename_i hreads
    refine ⟨?_, hreads⟩
    unfold snapshotScope at h
    split at h
    · assumption
    · exact absurd rfl h
  · exact absurd rfl h

end Scopes

section Gates

variable {ω : Type} {libs : DeliveryLibraries} {inv : AuthenticatedInvocation} {ctx : TrustedDeliveryContext}
  {narrowing : Option RequestNarrowing}

theorem validateTrusted_epoch {u : Unit} (h : validateTrustedInvocationAndDelivery inv ctx = .ok u) :
    inv.userActor.policyEpoch = inv.policyEpoch := by
  unfold validateTrustedInvocationAndDelivery at h
  obtain ⟨_, -, h1⟩ := bind_ok h
  obtain ⟨_, -, h2⟩ := bind_ok h1
  obtain ⟨_, hactor, -⟩ := bind_ok h2
  have hall := ensure_ok hactor
  simp only [Bool.and_eq_true, beq_iff_eq] at hall
  exact hall.2

theorem validateScope_ok {policy : PolicyReceipt} (h : validateScope libs inv ctx narrowing = .ok policy) :
    inv.userActor.policyEpoch = inv.policyEpoch ∧
      policy = policyReceipt inv ctx (snapshotScope libs inv narrowing) := by
  unfold validateScope at h
  obtain ⟨_, hv, h1⟩ := bind_ok h
  refine ⟨validateTrusted_epoch hv, ?_⟩
  unfold snapshotScope
  split at h1
  · rename_i hepoch
    obtain ⟨operands, ho, h2⟩ := bind_ok h1
    have hoperands : operands = inv.trustedScopeSnapshot.operands := by
      unfold trustedOperandsFromSnapshot at ho
      obtain ⟨_, -, h3⟩ := bind_ok ho
      obtain ⟨_, -, h4⟩ := bind_ok h3
      cases h4; rfl
    cases h2
    rw [if_pos hepoch, hoperands]
  · rename_i hepoch
    cases h1
    rw [if_neg hepoch]

/-- One more read of the epoch. -/
def Trace.read (t : Trace) (n : Int) : Trace := { t with epochReads := t.epochReads ++ [n] }

/-- The gate reads the epoch once, and answers whether it is the verified one. -/
theorem isCurrent_ends (s : PolicyEpochSession ω) (v : PolicyEpochVerification) (t : Trace) :
    Ends (isCurrent s v) t fun b t' => ∃ n, t' = t.read n ∧ b = (n == v.policyEpoch) := by
  unfold isCurrent
  refine Ends.check_bind fun _ _ => ?_
  refine Ends.lift_bind (Returns.any _) fun observed _ => ?_
  refine Ends.check_bind fun n _ => ?_
  refine Ends.modify_bind (Ends.pure ?_)
  exact ⟨n, rfl, rfl⟩

theorem vetoStale_ends (s : PolicyEpochSession ω) (policy : PolicyReceipt) (t : Trace) :
    Ends (vetoStale libs s inv policy) t fun p t' => ∃ n, t' = t.read n ∧
      p = if n = inv.userActor.policyEpoch then policy else { policy with effectiveScope := .of libs.stdlib ∅ } := by
  unfold vetoStale
  refine Ends.bind (isCurrent_ends s _ t) fun b t' h => ?_
  obtain ⟨n, rfl, rfl⟩ := h
  by_cases hn : n = inv.userActor.policyEpoch
  · have hc : (n == inv.userActor.policyEpochVerification.policyEpoch) = true := beq_iff_eq.mpr hn
    rw [hc]
    exact Ends.pure ⟨n, rfl, (if_pos hn).symm⟩
  · have hc : (n == inv.userActor.policyEpochVerification.policyEpoch) = false := beq_eq_false_iff_ne.mpr hn
    rw [hc]
    exact Ends.pure ⟨n, rfl, (if_neg hn).symm⟩

end Gates

/-! ## Preparation -/

section Preparation

variable {F : Type} [LinearOrder F] {fl : Floats F} {ω : Type} {rt : SealedRuntime F fl ω} {ss : Sessions ω}
  {inv : AuthenticatedInvocation} {ctx : TrustedDeliveryContext} {narrowing : Option RequestNarrowing}

/-- What holds of a decision's receipts when the first read of the epoch was `n`. -/
structure Prepared (libs : DeliveryLibraries) (inv : AuthenticatedInvocation) (narrowing : Option RequestNarrowing)
    (n : Int) (policy : PolicyReceipt) (prov : DecisionProvenanceReceipt) : Prop where
  actorEpoch : inv.userActor.policyEpoch = inv.policyEpoch
  scope : policy.effectiveScope = if n = inv.policyEpoch then snapshotScope libs inv narrowing else .of libs.stdlib ∅
  epoch : prov.policyEpoch = inv.policyEpoch

theorem issueProvenance_returns (policy : PolicyReceipt) (asOf : Instant) :
    Returns (issueProvenance rt inv policy asOf) fun prov => prov.policyEpoch = policy.policyEpoch := by
  unfold issueProvenance
  refine Returns.bind (Returns.any _) fun refs _ => ?_
  refine Returns.bind (Returns.lift fun _ _ => trivial) fun _ _ => ?_
  refine Returns.bind (Returns.lift fun _ _ => trivial) fun _ _ => ?_
  refine Returns.bind (Returns.lift fun _ _ => trivial) fun _ _ => ?_
  exact Returns.pure rfl

/-- The receipts of a scope that was validated and then gated. -/
theorem prepared_of_gated {policy : PolicyReceipt} {prov : DecisionProvenanceReceipt} {n : Int}
    (hactor : inv.userActor.policyEpoch = inv.policyEpoch)
    (hpolicy : policy = policyReceipt inv ctx (snapshotScope rt.libs inv narrowing))
    (hprov : prov.policyEpoch = (if n = inv.userActor.policyEpoch then policy
      else { policy with effectiveScope := .of rt.libs.stdlib ∅ }).policyEpoch) :
    Prepared rt.libs inv narrowing n (if n = inv.userActor.policyEpoch then policy
      else { policy with effectiveScope := .of rt.libs.stdlib ∅ }) prov := by
  subst hpolicy
  refine ⟨hactor, ?_, ?_⟩
  · rw [hactor]
    split <;> rfl
  · rw [hprov]
    split <;> rfl

theorem prepareAcquire_ends (packageBudget : Option PackageBudgetRequest) (asOf : Instant) (t : Trace) :
    Ends (prepareAcquire rt ss inv ctx packageBudget narrowing asOf) t fun prep t' => ∃ n, t' = t.read n ∧
      Prepared rt.libs inv narrowing n prep.policyReceipt prep.provenanceReceipt := by
  unfold prepareAcquire
  refine Ends.check_bind fun policy hpolicy => ?_
  obtain ⟨hactor, hscope⟩ := validateScope_ok hpolicy
  refine Ends.bind (vetoStale_ends ss.policyEpoch policy t) fun p t' h => ?_
  obtain ⟨n, rfl, rfl⟩ := h
  refine Ends.lift_bind (issueProvenance_returns _ asOf) fun prov hprov => ?_
  exact Ends.pure ⟨n, rfl, prepared_of_gated hactor hscope hprov⟩

theorem authorizeOpenCitation_ends (candidate : Option CandidateRef) (asOf : Instant) (t : Trace) :
    Ends (authorizeOpenCitation rt ss inv ctx candidate asOf) t fun d t' => ∃ n, t' = t.read n ∧
      Prepared rt.libs inv none n d.policyReceipt d.provenanceReceipt := by
  unfold authorizeOpenCitation
  refine Ends.check_bind fun policy hpolicy => ?_
  obtain ⟨hactor, hscope⟩ := validateScope_ok hpolicy
  refine Ends.bind (vetoStale_ends ss.policyEpoch policy t) fun p t' h => ?_
  obtain ⟨n, rfl, rfl⟩ := h
  refine Ends.lift_bind (issueProvenance_returns _ asOf) fun prov hprov => ?_
  refine Ends.lift_bind (Returns.any _) fun projected _ => ?_
  exact Ends.pure ⟨n, rfl, prepared_of_gated hactor hscope hprov⟩

/-! ## Authorization keeps the receipts -/

/-- The two decisions carry the same receipts. -/
def SameReceipts (d d' : AuthorizationDecision) : Prop :=
  d'.policyReceipt = d.policyReceipt ∧ d'.provenanceReceipt = d.provenanceReceipt

theorem SameReceipts.trans {a b c : AuthorizationDecision} (h : SameReceipts a b) (h' : SameReceipts b c) :
    SameReceipts a c := ⟨h'.1.trans h.1, h'.2.trans h.2⟩

theorem authorizeAcquire_returns (lib : Stdlib) (prep : PreparedAcquireAuthorization) (refs : List CandidateRef)
    (session : Option (MaterializedProjectionSession (Outside ω))) :
    Returns (authorizeAcquire lib inv prep refs session) fun d =>
      d.policyReceipt = prep.policyReceipt ∧ d.provenanceReceipt = prep.provenanceReceipt := by
  unfold authorizeAcquire
  refine Returns.bind (Returns.lift fun _ _ => trivial) fun _ _ => ?_
  refine Returns.bind (Returns.any _) fun projected _ => ?_
  exact Returns.pure ⟨rfl, rfl⟩

theorem authorizeOneHop_returns (lib : Stdlib) (prep : PreparedAcquireAuthorization) (d : AuthorizationDecision)
    (session : MaterializedProjectionSession (Outside ω)) (candidates : List MaterializedOneHopCandidate) :
    Returns (authorizeOneHop lib inv prep d session candidates) (SameReceipts d) := by
  unfold authorizeOneHop
  refine Returns.bind (Returns.any _) fun hops _ => ?_
  refine Returns.bind (Returns.any _) fun reauthorized _ => ?_
  exact Returns.pure ⟨rfl, rfl⟩

theorem oneHopLoop_returns (lib : Stdlib) (a : Acquisition (Outside ω)) (main : List AuthorizedProjection)
    (mainRefs : List CandidateRef) (pages offset : Nat) (d : AuthorizationDecision) :
    Returns (oneHopLoop lib a main mainRefs pages offset d) (SameReceipts d) := by
  induction pages generalizing offset d with
  | zero => exact Returns.pure ⟨rfl, rfl⟩
  | succ pages ih =>
    unfold oneHopLoop
    split
    · exact Returns.pure ⟨rfl, rfl⟩
    · refine Returns.bind (Returns.any _) fun page _ => ?_
      split
      · exact Returns.pure ⟨rfl, rfl⟩
      · -- The last step of a page, from whatever decision it ended with.
        have hlast : ∀ d', SameReceipts d d' → Returns (if page.length < a.limits.graphLimit - d.expandedCandidateRefs.card
            then pure d' else oneHopLoop lib a main mainRefs pages (offset + page.length) d') (SameReceipts d) := by
          intro d' hd'
          split
          · exact Returns.pure hd'
          · exact (ih _ d').mono fun _ h => hd'.trans h
        dsimp only
        split
        · exact Returns.bind (Returns.pure ⟨rfl, rfl⟩) hlast
        · exact Returns.bind (authorizeOneHop_returns lib _ d _ _) hlast

theorem expandOneHop_returns (lib : Stdlib) (u : UnicodeData) (a : Acquisition (Outside ω)) (refs : List CandidateRef)
    (d : AuthorizationDecision) : Returns (expandOneHop fl lib u a refs d) fun r => SameReceipts d r.1 := by
  unfold expandOneHop
  split
  · exact Returns.pure ⟨rfl, rfl⟩
  · refine Returns.bind (oneHopLoop_returns lib a _ refs _ 0 d) fun d' hd' => ?_
    split
    · exact Returns.pure hd'
    · refine Returns.bind (Returns.lift fun _ _ => trivial) fun _ _ => ?_
      exact Returns.pure hd'

theorem acquire_ends (query : String) (packageBudget : Option PackageBudgetRequest) (release : ActiveRuntimeRelease)
    (asOf : Instant) (t : Trace) :
    Ends (acquire rt ss inv ctx query packageBudget narrowing release asOf) t fun a t' => ∃ n, t' = t.read n ∧
      Prepared rt.libs inv narrowing n a.decision.policyReceipt a.decision.provenanceReceipt := by
  unfold acquire
  refine Ends.bind (prepareAcquire_ends packageBudget asOf t) fun prep t' h => ?_
  obtain ⟨n, rfl, hprep⟩ := h
  refine Ends.check_bind fun meter _ => ?_
  refine Ends.lift_bind (Returns.any _) fun found _ => ?_
  refine Ends.lift_bind (authorizeAcquire_returns rt.libs.stdlib prep _ ss.projection) fun d hd => ?_
  have hd' : Prepared rt.libs inv narrowing n d.policyReceipt d.provenanceReceipt := by rwa [hd.1, hd.2]
  split
  · exact Ends.pure ⟨n, rfl, hd'⟩
  · refine Ends.lift_bind (expandOneHop_returns rt.libs.stdlib rt.unicode _ _ d) fun r hr => ?_
    refine Ends.pure ⟨n, rfl, ?_⟩
    rwa [hr.1, hr.2]

theorem openCitation_ends (ref : String) (release : ActiveRuntimeRelease) (asOf : Instant) (t : Trace) :
    Ends (openCitation rt ss inv ctx ref release asOf) t fun a t' => ∃ n, t' = t.read n ∧
      Prepared rt.libs inv none n a.decision.policyReceipt a.decision.provenanceReceipt := by
  unfold openCitation
  split
  · exact Ends.lift (P := fun _ => False) (Returns.lift fun _ h => by cases h) fun _ h => h.elim
  · refine Ends.lift_bind (Returns.any _) fun target _ => ?_
    refine Ends.bind (authorizeOpenCitation_ends target asOf t) fun d t' h => ?_
    obtain ⟨n, rfl, hd⟩ := h
    refine Ends.check_bind fun meter _ => ?_
    exact Ends.pure ⟨n, rfl, hd⟩

theorem authorize_ends (req : RuntimeRequest) (release : ActiveRuntimeRelease) (asOf : Instant) (t : Trace) :
    Ends (authorize rt ss inv ctx req release asOf) t fun a t' => ∃ n, t' = t.read n ∧
      Prepared rt.libs inv req.narrowing n a.decision.policyReceipt a.decision.provenanceReceipt := by
  cases req with
  | acquire query packageBudget narrowing => exact acquire_ends query packageBudget release asOf t
  | openCitation ref => exact openCitation_ends ref release asOf t
  | continuation _ => exact Ends.lift (P := fun _ => False) (Returns.lift fun _ h => by cases h) fun _ h => h.elim

end Preparation

/-! ## Finalization -/

section Finalization

variable {F : Type} [LinearOrder F] {fl : Floats F} {ω : Type} {rt : SealedRuntime F fl ω} {ss : Sessions ω}
  {inv : AuthenticatedInvocation} {ctx : TrustedDeliveryContext} {narrowing : Option RequestNarrowing}

/-- The second gate leaves the scope of both reads. -/
theorem finalizeForDelivery_ends {d : AuthorizationDecision} (content : PackageContent) {n : Int}
    (hd : Prepared rt.libs inv narrowing n d.policyReceipt d.provenanceReceipt) :
    Ends (finalizeForDelivery rt ss inv d content) (Trace.start.read n) fun f t => t.persisted = [] ∧
      f.policyReceipt.effectiveScope = vetoedScope rt.libs inv narrowing t.epochReads ∧
      f.provenanceReceipt.policyEpoch = inv.policyEpoch := by
  have hverified : inv.userActor.policyEpochVerification.policyEpoch = inv.policyEpoch := hd.actorEpoch
  unfold finalizeForDelivery
  refine Ends.check_bind fun _ _ => ?_
  refine Ends.check_bind fun _ _ => ?_
  refine Ends.check_bind fun _ _ => ?_
  refine Ends.check_bind fun _ _ => ?_
  dsimp only
  split
  · refine Ends.bind (isCurrent_ends ss.policyEpoch _ _) fun b t h => ?_
    obtain ⟨n', rfl, rfl⟩ := h
    rw [hverified]
    by_cases hn' : n' = inv.policyEpoch
    · subst hn'
      rw [beq_self_eq_true]
      refine Ends.pure ⟨rfl, ?_, hd.epoch⟩
      rw [hd.scope]
      show _ = vetoedScope rt.libs inv narrowing [n, inv.policyEpoch]
      unfold vetoedScope
      by_cases hn : n = inv.policyEpoch
      · rw [if_pos hn, if_pos (by rw [hn])]
      · rw [if_neg hn, if_neg (by simpa using hn)]
    · rw [beq_eq_false_iff_ne.mpr hn']
      refine Ends.pure ⟨rfl, ?_, hd.epoch⟩
      show EffectiveScope.of _ ∅ = vetoedScope rt.libs inv narrowing [n, n']
      exact (if_neg (by simp [hn'])).symm
  · refine Ends.pure ⟨rfl, ?_, hd.epoch⟩
    show EffectiveScope.of _ ∅ = vetoedScope rt.libs inv narrowing [n]
    exact (if_neg (by simp)).symm

end Finalization

/-! ## Packages and records -/

section Records

variable {libs : DeliveryLibraries}

theorem coverage_ok {status : CoverageStatus} {reason : Option CoverageReason} {c : Coverage}
    (h : coverage status reason = .ok c) :
    c = ⟨status, reason⟩ ∧ (status = .empty → reason = some .noAuthorizedEvidence) := by
  unfold coverage at h
  obtain ⟨_, hempty, h1⟩ := bind_ok h
  obtain ⟨_, -, h2⟩ := bind_ok h1
  cases h2
  refine ⟨rfl, fun hs => ?_⟩
  simpa [hs] using ensure_ok hempty

/-- Without Evidence there is no block, and the coverage says so. -/
theorem requirePackageUsage_empty {p : ContextPackage} {u : Unit} (h : requirePackageUsage libs p = .ok u)
    (he : p.evidence = []) : p.blocks = [] ∧ p.coverage.status = .empty := by
  unfold requirePackageUsage at h
  obtain ⟨_, -, h1⟩ := bind_ok h
  obtain ⟨_, -, h2⟩ := bind_ok h1
  split at h2
  · obtain ⟨_, hboth, -⟩ := bind_ok h2
    have := ensure_ok hboth
    simp [he] at this
  · rename_i hnone
    obtain ⟨_, hstatus, -⟩ := bind_ok h2
    refine ⟨?_, by simpa using ensure_ok hstatus⟩
    simpa [he] using hnone

theorem contextPackage_ok {p q : ContextPackage} (h : contextPackage libs p = .ok q) :
    q.policyEpoch = p.policyEpoch ∧ q.coverage = p.coverage ∧
      (q.evidence = [] → q.blocks = [] ∧ q.coverage.status = .empty) := by
  unfold contextPackage at h
  iterate 8 obtain ⟨_, -, h⟩ := bind_ok h
  obtain ⟨_, -, h1⟩ := bind_ok h
  obtain ⟨_, -, h2⟩ := bind_ok h1
  obtain ⟨_, -, h3⟩ := bind_ok h2
  obtain ⟨_, husage, h4⟩ := bind_ok h3
  cases h4
  exact ⟨rfl, rfl, requirePackageUsage_empty husage⟩

/-- What a pair of records says about the Package and the scope it was built from. -/
theorem buildContextRunRecords_ok {inv : AuthenticatedInvocation} {narrowing : Option RequestNarrowing}
    {query : String} {prov : DecisionProvenanceReceipt} {p : ContextPackage} {scope : EffectiveScope}
    {budget : PackageBudget} {release : ActiveRuntimeRelease} {run : ContextRunRecord}
    {audit : Option DecisionAuditRecord}
    (h : buildContextRunRecords libs inv narrowing query prov p scope budget release = .ok (run, audit)) :
    (p.evidence ≠ [] → scope.targets ≠ ∅) ∧ run.effectiveScopeDigest = scope.digest ∧
      run.authorizedEvidenceRefs = p.evidence.map (·.evidenceRef) ∧
      (p.coverage.status = .empty → run.outcome = .deliveredEmpty ∧ audit.isSome = true) := by
  unfold buildContextRunRecords at h
  obtain ⟨_, -, h1⟩ := bind_ok h
  obtain ⟨_, -, h2⟩ := bind_ok h1
  obtain ⟨_, -, h3⟩ := bind_ok h2
  obtain ⟨authorized, -, h4⟩ := bind_ok h3
  obtain ⟨_, -, h5⟩ := bind_ok h4
  obtain ⟨_, hcarry, h6⟩ := bind_ok h5
  obtain ⟨_, hmatch, h7⟩ := bind_ok h6
  obtain ⟨_, -, h8⟩ := bind_ok h7
  obtain ⟨_, -, h9⟩ := bind_ok h8
  have hscope := of_decide_eq_true (ensure_ok hcarry)
  have hdigest : prov.effectiveScopeDigest = scope.digest := by
    have hall := ensure_ok hmatch
    simp only [provenanceMatches, Bool.and_eq_true, beq_iff_eq] at hall
    obtain ⟨⟨⟨⟨⟨⟨⟨⟨⟨⟨⟨-, hdigest⟩, -⟩, -⟩, -⟩, -⟩, -⟩, -⟩, -⟩, -⟩, -⟩, -⟩ := hall
    exact hdigest
  cases h9
  refine ⟨fun he => hscope.resolve_right he, hdigest, rfl, fun hstatus => ?_⟩
  have houtcome : (runRecord libs inv query prov p budget release).outcome = .deliveredEmpty := by
    simp [runRecord, hstatus]
  exact ⟨houtcome, by simp [houtcome]⟩

end Records

/-! ## Delivery -/

section Delivery

variable {F : Type} [LinearOrder F] {fl : Floats F} {ω : Type} (rt : SealedRuntime F fl ω) (ss : Sessions ω)
  (inv : AuthenticatedInvocation) (ctx : TrustedDeliveryContext) (req : RuntimeRequest)

/-- No blocks, no Evidence, and a coverage that says so. -/
def EmptyPackage (p : ContextPackage) : Prop :=
  p.blocks = [] ∧ p.evidence = [] ∧ p.coverage = ⟨.empty, some .noAuthorizedEvidence⟩

/-- Exactly one run was persisted: an empty one of this scope, with its audit. -/
def RecordedEmpty (scope : EffectiveScope) (persisted : List (ContextRunRecord × Option DecisionAuditRecord)) : Prop :=
  ∃ run audit, persisted = [(run, some audit)] ∧ run.effectiveScopeDigest = scope.digest ∧
    run.outcome = .deliveredEmpty ∧ run.authorizedEvidenceRefs = []

theorem assemble_returns (release : ActiveRuntimeRelease) (asOf : Instant) (meter : Heap)
    (f : FinalizedAuthorizationResult) :
    Returns (assemble rt ss inv ctx req release asOf meter f) fun r =>
      r.1.policyEpoch = f.provenanceReceipt.policyEpoch ∧ (r.1.evidence = [] → EmptyPackage r.1) := by
  unfold assemble
  refine Returns.bind (Returns.any _) fun content _ => ?_
  refine Returns.bind (Returns.lift fun _ _ => trivial) fun meter' _ => ?_
  refine Returns.bind (Returns.lift fun _ _ => trivial) fun usage _ => ?_
  refine Returns.bind (Returns.lift fun c hc => coverage_ok hc) fun cover hcover => ?_
  refine Returns.bind (Returns.lift fun p hp => contextPackage_ok hp) fun p hp => ?_
  obtain ⟨hcover, hreason⟩ := hcover
  obtain ⟨hepoch, hpcover, hnone⟩ := hp
  have hempty : p.evidence = [] → EmptyPackage p := by
    intro he
    obtain ⟨hblocks, hstatus⟩ := hnone he
    have hpc : p.coverage = cover := hpcover
    rw [hpc, hcover] at hstatus
    refine ⟨hblocks, he, ?_⟩
    rw [hpc, hcover, hreason hstatus]
    exact congrArg (Coverage.mk · _) hstatus
  split
  · refine Returns.bind (Returns.any _) fun grant _ => ?_
    exact Returns.pure ⟨hepoch, hempty⟩
  · exact Returns.pure ⟨hepoch, hempty⟩

theorem record_ends (release : ActiveRuntimeRelease) (budget : PackageBudget) (f : FinalizedAuthorizationResult)
    (p : ContextPackage) {t : Trace} (ht : t.persisted = []) :
    Ends (record rt ss inv req release budget f p) t fun _ t' => t'.epochReads = t.epochReads ∧
      (p.evidence ≠ [] → f.policyReceipt.effectiveScope.targets ≠ ∅) ∧
      (EmptyPackage p → RecordedEmpty f.policyReceipt.effectiveScope t'.persisted) := by
  unfold record
  split
  · exact Ends.lift (P := fun _ => False) (Returns.lift fun _ h => by cases h) fun _ h => h.elim
  · split
    · exact Ends.lift (P := fun _ => False) (Returns.lift fun _ h => by cases h) fun _ h => h.elim
    · refine Ends.check_bind fun records hrecords => ?_
      obtain ⟨run, audit⟩ := records
      obtain ⟨hcarry, hdigest, hrefs, hstatus⟩ := buildContextRunRecords_ok hrecords
      unfold persistContextRun
      refine Ends.check_bind fun _ _ => ?_
      refine Ends.lift_bind (Returns.any _) fun _ _ => ?_
      refine Ends.modify ⟨rfl, hcarry, fun hp => ?_⟩
      obtain ⟨-, he, hcover⟩ := hp
      obtain ⟨houtcome, haudit⟩ := hstatus (by rw [hcover])
      obtain ⟨audit, hsome⟩ := Option.isSome_iff_exists.mp haudit
      refine ⟨run, audit, ?_, hdigest, houtcome, by rw [hrefs, he]; rfl⟩
      rw [ht, ← hsome]
      rfl

/-- What an available request's outcome says about the final scope, the provenance's epoch and the
    runs that were persisted. -/
def Delivered (scope : EffectiveScope) (epoch : Int)
    (persisted : List (ContextRunRecord × Option DecisionAuditRecord)) : ResolutionOutcome → Prop
  | .resolved r => r.scopeDecision = scope.receipt ∧ r.package.policyEpoch = epoch ∧
      (r.package.evidence ≠ [] → scope.targets ≠ ∅) ∧
      (r.package.evidence = [] → EmptyPackage r.package ∧ RecordedEmpty scope persisted)
  | .citationNotAvailable => RecordedEmpty scope persisted
  | .requestNotAvailable => False

theorem deliver_ends (release : ActiveRuntimeRelease) (asOf : Instant) (budget : PackageBudget) (meter : Heap)
    (f : FinalizedAuthorizationResult) {t : Trace} (ht : t.persisted = []) :
    Ends (deliver rt ss inv ctx req release asOf budget meter f) t fun o t' => t'.epochReads = t.epochReads ∧
      Delivered f.policyReceipt.effectiveScope f.provenanceReceipt.policyEpoch t'.persisted o := by
  unfold deliver
  refine Ends.lift_bind (assemble_returns rt ss inv ctx req release asOf meter f) fun r hr => ?_
  obtain ⟨p, grant⟩ := r
  obtain ⟨hepoch, hempty⟩ := hr
  refine Ends.bind (record_ends rt ss inv req release budget f p ht) fun _ t' h => ?_
  obtain ⟨hreads, hcarry, hrecorded⟩ := h
  split
  · rename_i hnone
    have he : p.evidence = [] := by
      simp only [Bool.and_eq_true, List.isEmpty_iff] at hnone
      exact hnone.2
    exact Ends.pure ⟨hreads, hrecorded (hempty he)⟩
  · exact Ends.pure ⟨hreads, rfl, hepoch, hcarry, fun he => ⟨hempty he, hrecorded (hempty he)⟩⟩

/-! ## One whole resolve -/

theorem preflight_ends (asOf : Instant) {t : Trace} (ht : t.persisted = []) :
    Ends (preflightUnavailableRequest rt ss inv ctx asOf) t fun _ t' => t'.persisted = [] := by
  unfold preflightUnavailableRequest
  refine Ends.check_bind fun policy _ => ?_
  refine Ends.lift_bind (Returns.any _) fun prov _ => ?_
  dsimp only
  split
  · refine Ends.check_bind fun _ h => ?_
    cases h
  · refine Ends.bind (isCurrent_ends ss.policyEpoch _ t) fun b t' h => ?_
    obtain ⟨n, rfl, rfl⟩ := h
    split
    · refine Ends.check_bind fun _ h => ?_
      cases h
    · exact Ends.lift (Returns.any _) fun _ _ => ht

/-- The runtime lacks the capability this request needs. -/
def Unavailable : Prop := (requiredCapability rt req).available rt.citationProfile = false

/-- What the Policy Epoch lets one resolve return. -/
def Vetoed (t : Trace) : ResolutionOutcome → Prop
  | .resolved r =>
    if r.package.evidence = [] then
      EmptyPackage r.package ∧ r.scopeDecision = (vetoedScope rt.libs inv req.narrowing t.epochReads).receipt ∧
        RecordedEmpty (vetoedScope rt.libs inv req.narrowing t.epochReads) t.persisted
    else inv.trustedScopeSnapshot.policyEpoch = r.package.policyEpoch ∧ inv.policyEpoch = r.package.policyEpoch ∧
      t.epochReads = [r.package.policyEpoch, r.package.policyEpoch]
  | .citationNotAvailable => Unavailable rt req ∧ t.persisted = [] ∨
      RecordedEmpty (vetoedScope rt.libs inv req.narrowing t.epochReads) t.persisted
  | .requestNotAvailable => Unavailable rt req ∧ t.persisted = []

theorem vetoed_of_delivered {t : Trace} {o : ResolutionOutcome}
    (h : Delivered (vetoedScope rt.libs inv req.narrowing t.epochReads) inv.policyEpoch t.persisted o) :
    Vetoed rt inv req t o := by
  cases o with
  | resolved r =>
    obtain ⟨hscope, hepoch, hcarry, hempty⟩ := h
    simp only [Vetoed]
    split
    · rename_i he
      exact ⟨(hempty he).1, hscope, (hempty he).2⟩
    · rename_i he
      obtain ⟨hsnapshot, hreads⟩ := epochs_of_vetoedScope rt.libs inv req.narrowing (hcarry he)
      rw [hepoch]
      exact ⟨hsnapshot, rfl, hreads⟩
  | citationNotAvailable => exact .inr h
  | requestNotAvailable => exact h.elim

theorem resolve_ends : Ends (resolve rt ss inv ctx req) Trace.start fun o t => Vetoed rt inv req t o := by
  unfold resolve
  split
  · rename_i hcapability
    have hnot : Unavailable rt req := by simpa [Unavailable] using hcapability
    refine Ends.lift_bind (Returns.any _) fun asOf _ => ?_
    refine Ends.bind (preflight_ends rt ss inv ctx asOf rfl) fun _ t ht => ?_
    refine Ends.pure ?_
    cases req with
    | acquire query packageBudget narrowing => exact ⟨hnot, ht⟩
    | continuation packageBudget => exact ⟨hnot, ht⟩
    | openCitation ref => exact .inl ⟨hnot, ht⟩
  · refine Ends.check_bind fun release _ => ?_
    refine Ends.lift_bind (Returns.any _) fun asOf _ => ?_
    refine Ends.bind (authorize_ends req release asOf Trace.start) fun a t h => ?_
    obtain ⟨n, rfl, hprepared⟩ := h
    refine Ends.check_bind fun content _ => ?_
    refine Ends.bind (finalizeForDelivery_ends content hprepared) fun f t h => ?_
    obtain ⟨hnone, hscope, hepoch⟩ := h
    refine (deliver_ends rt ss inv ctx req release asOf _ _ f hnone).mono fun o t' h => ?_
    obtain ⟨hreads, hdelivered⟩ := h
    rw [hscope, hepoch, ← hreads] at hdelivered
    exact vetoed_of_delivered rt inv req hdelivered

/-- **Policy-epoch veto.** Whatever every port answers, a resolve that returns obeys the
    epochs it saw. -/
theorem policy_epoch_veto (w : ω) :
    match resolve rt ss inv ctx req Trace.start w with
    | .error _ => True
    | .ok ((outcome, t), _) => Vetoed rt inv req t outcome := by
  split
  · trivial
  · rename_i outcome t w' h
    exact resolve_ends rt ss inv ctx req w outcome t w' h

end Delivery

/-! ## Current epochs and nothing authorized -/

namespace CurrentAndEmpty

def org : UUID := .ofNat 7

def target : ScopeTarget := ⟨org, "source", some "article"⟩

/-- A digest that is only compared with itself. -/
def digest : String := String.ofList (List.replicate 64 'b')

def release : ActiveRuntimeRelease :=
  ⟨org, "rel_" ++ String.ofList (List.replicate 64 'a'), 1, "tokenizer", "tokenizer document",
    digest, "context-package-openapi-v0"⟩

/-- Snapshot, invocation and actor are of epoch 1, and the scope has one target. -/
def invocation : AuthenticatedInvocation where
  requestId := "req"
  organizationRef := org
  userRef := org
  principalRef := "user"
  membershipRef := org
  membershipVersion := 1
  policyEpoch := 1
  agentVersionRef := "agent"
  authenticatedApplicationRef := "app"
  authenticationBindingRef := "auth"
  receivedAt := ⟨0⟩
  organizationVerification := ⟨org, "req", "auth", ⟨0⟩⟩
  userActor := ⟨true, org, org, org, 1, "user", "req", "auth", ⟨0⟩, ⟨org, 1⟩, some release⟩
  trustedScopeSnapshot := ⟨true, org, org, org, 1, 1, "user", "agent", "answer", "req", "auth", ⟨0⟩,
    ⟨some {target}, some {target}, some {target}, some {target}, some {target}, some {target}, some {target}⟩⟩

/-- One ranker, of weight 1. -/
def weights : List (String × ℚ) := [("lexical", 1)]

theorem acquires : RuntimeCapability.materializedAcquire ∈ [RuntimeCapability.materializedAcquire,
    .federatedDiscovery, .sourceNativeAuthorization] := by
  decide

theorem max_tokens_pos : 0 < 100 := by decide

theorem ttl_positive : 0 < 60 := by decide

theorem page_limit_range : 1 ≤ 2 ∧ 2 ≤ 512 := by decide

theorem weights_nonempty : weights ≠ [] := by decide

theorem weights_nodup : (weights.map (·.1)).Nodup := by decide

theorem weights_usable : ∀ v ∈ weights, Floats.rationals.isfinite v.2 = true ∧ Floats.rationals.positive v.2 = true := by
  decide

def runtime : SealedRuntime ℚ Floats.rationals Unit where
  libs := {
    stdlib := cpython
    packageDigest := fun _ => digest
    queryDigest := fun _ _ => ⟨digest, QUERY_DIGEST_PROFILE, 1⟩
    audienceDigest := fun _ _ _ _ _ => digest
    registeredTokenizer := fun _ _ => false
    tokenizerProfile := fun _ _ => none
    historicalTokenizerDigest := digest }
  unicode := .ascii
  acquireCapability := .materializedAcquire
  acquire_capability := acquires
  serverBudget := ⟨100, 1, 1, 1, max_tokens_pos, Nat.one_pos, Nat.one_pos, Nat.one_pos⟩
  packageTtlSeconds := 60
  ttl_pos := ttl_positive
  limits := ⟨2, 1, page_limit_range⟩
  rankerWeights := ⟨weights, weights_nonempty, weights_nodup, weights_usable⟩
  clock := pure ⟨0⟩
  issueReferences := pure ⟨"pkg_" ++ String.ofList (List.replicate 32 'a'), "dec_" ++ String.ofList (List.replicate 32 'a'),
    "run_1", "policy_1", "sourceacl_1"⟩
  discover := none
  citationProfile := false
  queryDigestKeyring := true
  issueEgressGrant := none

/-- The epoch authority answers 1 at every read. -/
def sessions : Sessions Unit := ⟨⟨org, true, fun _ => pure (some 1)⟩, none, none, some fun _ _ => pure ()⟩

def context : TrustedDeliveryContext := ⟨"answer", "app", "auth", ⟨0⟩, none⟩

/-- The number of Evidence items, the reported scope and the reads of a resolve that returned. -/
def report : Option (Nat × ScopeDecisionReceipt × List Int) :=
  match resolve runtime sessions invocation context (.acquire "word" none none) Trace.start () with
  | .ok ((.resolved r, t), _) => some (r.package.evidence.length, r.scopeDecision, t.epochReads)
  | _ => none

end CurrentAndEmpty

/-- Every epoch is current and nothing is authorized: the Package is empty and its scope is not. -/
theorem empty_package_of_current_scope :
    CurrentAndEmpty.report = some (0, (EffectiveScope.of cpython {CurrentAndEmpty.target}).receipt, [1, 1]) ∧
      (EffectiveScope.of cpython {CurrentAndEmpty.target}).receipt.targetCount ≠ 0 := by
  decide +kernel

end ContextEngine.Runtime
