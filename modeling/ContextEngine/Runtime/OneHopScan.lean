/-
  ContextEngine.Runtime.OneHopScan — the graph loop of `Runtime.resolve` over a port that
  pages through one list of neighbours.

  The port's other operations are arbitrary: they keep a state of their own, answer as they
  like and may raise. What the loop does is read from its calls, which are recorded beside
  the port's state: the pages that it asks for, what it is given, what it submits to the
  Kernel and what the Kernel decides. Recording changes nothing else.

  Proved: `one_hop_scan_exact`, what the loop examines, submits and stops at.
-/

import ContextEngine.Runtime.KernelProofs
import ContextEngine.Runtime.Ranking

namespace ContextEngine.Runtime

open ContextEngine.Python Checks

/-! ## The loop over its calls -/

section Scan

variable {m : Type → Type} [Monad m]

/-- The graph loop, over the calls that it makes. -/
def scanOneHop (limits : ResolveLimits) (discover : Int → Int → m (List MaterializedOneHopCandidate))
    (authorize : AuthorizationDecision → List MaterializedOneHopCandidate → m AuthorizationDecision)
    (mainRefs : List CandidateRef) : Nat → Nat → AuthorizationDecision → m AuthorizationDecision
  | 0, _, d => pure d
  | pages + 1, offset, d => do
    if limits.graphLimit ≤ d.expandedCandidateRefs.card then return d
    let pageLimit := limits.graphLimit - d.expandedCandidateRefs.card
    let page ← discover pageLimit offset
    if page.isEmpty then return d
    let oneHop := page.filter fun i => !mainRefs.contains i.candidateRef
    let d ← if oneHop.isEmpty then pure d else authorize d oneHop
    if page.length < pageLimit then return d
    scanOneHop limits discover authorize mainRefs pages (offset + page.length) d

theorem oneHopLoop_eq_scan [MonadLiftT (Except Raised) m] (lib : Stdlib) (a : Acquisition m) (main : List AuthorizedProjection)
    (mainRefs : List CandidateRef) (pages offset : Nat) (d : AuthorizationDecision) :
    oneHopLoop lib a main mainRefs pages offset d =
      scanOneHop a.limits (discoverMaterializedOneHop lib a.session main)
        (fun d items => authorizeOneHop lib a.invocation a.preparation d a.session items) mainRefs pages offset d := by
  induction pages generalizing offset d with
  | zero => rfl
  | succ pages ih =>
    rw [oneHopLoop, scanOneHop]
    simp only [ih]

end Scan

/-! ## Recording -/

/-- What the loop calls, in order. -/
inductive OneHopCall where
  | asked (limit offset : Int)
  | examined (page : List MaterializedOneHopCandidate)
  | submitted (items : List MaterializedOneHopCandidate)
  | decided (d : AuthorizationDecision)

/-- Code of the Runtime, beside a port with state `ω`. -/
abbrev Scanning (ω : Type) := Tried (ω × List OneHopCall) Raised

section Recording

variable {ω : Type}

def recordCall (call : OneHopCall) : Scanning ω Unit := modify fun s => (s.1, s.2 ++ [call])

def recordDiscover (discover : Int → Int → Scanning ω (List MaterializedOneHopCandidate)) (limit offset : Int) :
    Scanning ω (List MaterializedOneHopCandidate) := do
  recordCall (.asked limit offset)
  let page ← discover limit offset
  recordCall (.examined page)
  return page

def recordAuthorize (authorize : AuthorizationDecision → List MaterializedOneHopCandidate → Scanning ω AuthorizationDecision)
    (d : AuthorizationDecision) (items : List MaterializedOneHopCandidate) : Scanning ω AuthorizationDecision := do
  recordCall (.submitted items)
  let d ← authorize d items
  recordCall (.decided d)
  return d

/-- A port that pages through `neighbours`, whatever it is asked about them. -/
structure PagedPort (ω : Type) where
  neighbours : List MaterializedOneHopCandidate
  locate : CandidateRef → ω → Except Raised (Option MaterializedFragmentLocator) × ω
  project : MaterializedFragmentLocator → ω → Except Raised (Option MaterializedFragmentProjection) × ω
  paged : Int → Int → ω → ω

/-- One call of the port, which sees its own state only. -/
def served {α : Type} (answer : ω → Except Raised α × ω) : Scanning ω α :=
  ExceptT.mk fun s => ((answer s.1).1, ((answer s.1).2, s.2))

/-- `L[offset:offset+limit]`. -/
def PagedPort.slice (p : PagedPort ω) (limit offset : Int) : List MaterializedOneHopCandidate :=
  (p.neighbours.drop offset.toNat).take limit.toNat

def PagedPort.port (p : PagedPort ω) : MaterializedProjectionPort (Scanning ω) where
  locate c := served (p.locate c)
  project l := served (p.project l)
  discoverOneHop := some fun _ limit offset => served fun w => (.ok (p.slice limit offset), p.paged limit offset w)

/-! ## Code that neither reads nor writes the record -/

open Tried

def Apart {α : Type} (x : Scanning ω α) : Prop := ∀ w, ∃ r w', ∀ calls, outcome x (w, calls) = (r, (w', calls))

variable {α β : Type}

theorem Apart.pure (a : α) : Apart (Pure.pure a : Scanning ω α) := fun w => ⟨.ok a, w, fun _ => rfl⟩

theorem Apart.lift (x : Except Raised α) : Apart (liftM x : Scanning ω α) := fun w => ⟨x, w, fun _ => rfl⟩

theorem Apart.served (answer : ω → Except Raised α × ω) : Apart (served answer) :=
  fun w => ⟨(answer w).1, (answer w).2, fun _ => rfl⟩

theorem Apart.bind {x : Scanning ω α} {f : α → Scanning ω β} (hx : Apart x) (hf : ∀ a, Apart (f a)) : Apart (x >>= f) := by
  intro w
  obtain ⟨r, w', h⟩ := hx w
  cases r with
  | error e => exact ⟨.error e, w', fun calls => outcome_bind_error (h calls)⟩
  | ok a =>
    obtain ⟨r, w'', h'⟩ := hf a w'
    exact ⟨r, w'', fun calls => (outcome_bind_ok (h calls)).trans (h' calls)⟩

theorem Apart.collect {f : α → Scanning ω (Option β)} (hf : ∀ a, Apart (f a)) (as : List α) : Apart (collect f as) := by
  induction as with
  | nil => exact .pure []
  | cons a as ih => exact .bind (hf a) fun r => .bind ih fun rest => .pure _

/-! ## The Kernel's calls -/

variable {p : PagedPort ω} {active : Bool} {lib : Stdlib}

/-- The session of the port. -/
def PagedPort.session (p : PagedPort ω) (active : Bool) : MaterializedProjectionSession (Scanning ω) := ⟨active, p.port⟩

theorem apart_locate (c : CandidateRef) : Apart (locateMaterializedFragment (p.session active) c) :=
  .bind (.lift _) fun _ => .served _

theorem apart_project (l : MaterializedFragmentLocator) : Apart (projectMaterializedFragment (p.session active) l) := by
  refine .bind (.lift _) fun _ => .bind (.served _) fun r => ?_
  cases r with
  | none => exact .pure _
  | some fp => exact .bind (.lift _) fun _ => .pure _

theorem apart_discover (main : List AuthorizedProjection) (limit offset : Int) :
    Apart (discoverMaterializedOneHop lib (p.session active) main limit offset) := by
  refine .bind (.lift _) fun _ => .bind (.lift _) fun _ => .bind (.lift _) fun _ => .bind (.lift _) fun _ => ?_
  by_cases hmain : main.isEmpty = true
  · simp only [hmain, if_true]
    exact .pure _
  · simp only [hmain]
    exact .bind (.served _) fun page => .bind (.lift _) fun _ => .pure _

section Kernel

variable {inv : AuthenticatedInvocation} {policy : PolicyReceipt} {prov : DecisionProvenanceReceipt}
  {prep : PreparedAcquireAuthorization}

theorem apart_authorizeCandidate (scope : KernelScope) (c : CandidateRef) :
    Apart (authorizeCandidate lib inv policy prov (p.session active) scope c) := by
  refine .bind (apart_locate c) fun r => ?_
  cases r with
  | none => exact .pure _
  | some l =>
    simp only
    split_ifs
    · exact .pure _
    · refine .bind (apart_project l) fun r => ?_
      cases r with
      | none => exact .pure _
      | some fp => exact .bind (.lift _) fun _ => .bind (.lift _) fun _ => .pure _
    · exact .pure _

theorem apart_authorizeAndProject (candidates : List CandidateRef) (kernelScope : Option KernelScope) :
    Apart (authorizeAndProject lib inv policy prov candidates (some (p.session active)) kernelScope) := by
  rw [authorizeAndProject]
  split_ifs
  · exact .pure _
  · exact .bind (.collect (apart_authorizeCandidate _) _) fun _ => .pure _

theorem apart_expandCandidate (d : AuthorizationDecision) (item : MaterializedOneHopCandidate) :
    Apart (expandCandidate lib d (p.session active) item) := by
  refine .bind (.lift _) fun _ => ?_
  cases anchorOf d item.anchorRef with
  | none => exact .bind (.lift _) fun _ => .pure _
  | some anchor =>
    simp only
    split_ifs
    · exact .pure _
    · exact .pure _
    · refine .bind (apart_locate _) fun r => ?_
      cases r with
      | none => exact .pure _
      | some l =>
        simp only
        split_ifs
        · exact .pure _
        · refine .bind (apart_project l) fun r => ?_
          cases r with
          | none => exact .pure _
          | some fp => exact .bind (.lift _) fun _ => .pure _

theorem apart_authorizeOneHop (d : AuthorizationDecision) (items : List MaterializedOneHopCandidate) :
    Apart (authorizeOneHop lib inv prep d (p.session active) items) :=
  .bind (.collect (apart_expandCandidate d) items) fun _ => .bind (apart_authorizeAndProject _ _) fun _ => .pure _

/-! ### What they add -/

theorem collect_gives {γ : Type} {f : α → Scanning ω (Option β)} {key : α → γ} {ref : β → γ}
    (hf : ∀ a, Gives (f a) fun r => ∀ b, r = some b → ref b = key a) (as : List α) :
    Gives (collect f as) fun bs => (bs.map ref).Sublist (as.map key) := by
  induction as with
  | nil => exact .pure (List.Sublist.refl _)
  | cons a as ih =>
    refine .bind (hf a) fun r hr => .bind ih fun rest hrest => .pure ?_
    cases r with
    | none => exact hrest.cons _
    | some b =>
      rw [Option.toList, List.singleton_append, List.map_cons, List.map_cons, hr b rfl]
      exact hrest.cons_cons _

theorem authorizeCandidate_gives (scope : KernelScope) (c : CandidateRef) :
    Gives (authorizeCandidate lib inv policy prov (p.session active) scope c)
      fun r => ∀ q, r = some q → q.candidateRef = c := by
  refine .bind (.any _) fun r _ => ?_
  cases r with
  | none => exact .pure (by simp)
  | some l =>
    simp only
    split_ifs
    · exact .pure (by simp)
    · refine .bind (.any _) fun r _ => ?_
      cases r with
      | none => exact .pure (by simp)
      | some fp =>
        refine .bind (.any _) fun lineage _ => .bind (.lift fun q hq => hq) fun q hq => .pure ?_
        intro q' hq'
        cases hq'
        rw [(constructAuthorizedProjection_ok lib hq).1]
    · exact .pure (by simp)

/-- Exact authorization returns each of the candidates at most once. -/
theorem authorizeAndProject_gives (candidates : List CandidateRef) (kernelScope : Option KernelScope) :
    Gives (authorizeAndProject lib inv policy prov candidates (some (p.session active)) kernelScope)
      fun r => (r.1.map (·.candidateRef)).Sublist (sortedSet candidates) := by
  rw [authorizeAndProject]
  split_ifs
  · exact .pure (List.nil_sublist _)
  · refine .bind (collect_gives (authorizeCandidate_gives _) _) fun ps hps => .pure ?_
    simpa using hps

/-- The candidate that a hop is about. -/
def Hop.ref : Hop → CandidateRef
  | .inherited q => q.candidateRef
  | .reauthorize c => c

theorem expandCandidate_gives (d : AuthorizationDecision) (item : MaterializedOneHopCandidate) :
    Gives (expandCandidate lib d (p.session active) item) fun r => ∀ hop, r = some hop → hop.ref = item.candidateRef := by
  refine .bind (.any _) fun _ _ => ?_
  cases anchorOf d item.anchorRef with
  | none => exact .bind (.any _) fun _ _ => .pure (by simp)
  | some anchor =>
    simp only
    split_ifs
    · exact .pure (by rintro _ ⟨⟩; rfl)
    · exact .pure (by simp)
    · refine .bind (.any _) fun r _ => ?_
      cases r with
      | none => exact .pure (by simp)
      | some l =>
        simp only
        split_ifs
        · exact .pure (by simp)
        · refine .bind (.any _) fun r _ => ?_
          cases r with
          | none => exact .pure (by simp)
          | some fp =>
            refine .bind (.lift fun q hq => hq) fun q hq => .pure ?_
            intro hop hhop
            cases hhop
            rw [constructInheritedAuthorizedProjection] at hq
            obtain ⟨_, -, hq⟩ := bind_ok hq
            obtain ⟨_, -, hq⟩ := bind_ok hq
            rw [Hop.ref, (constructAuthorizedProjection_ok lib hq).1]

theorem hops_perm (hops : List Hop) :
    ((hops.filterMap Hop.inherited?).map (·.candidateRef) ++ hops.filterMap Hop.reauthorize?).Perm (hops.map Hop.ref) := by
  induction hops with
  | nil => exact .nil
  | cons hop hops ih =>
    cases hop with
    | inherited q => exact ih.cons _
    | reauthorize c => exact List.perm_middle.trans (ih.cons _)

/-- The decision grew by projections of some of the items, each at most once. -/
structure Grows (items : List MaterializedOneHopCandidate) (d d' : AuthorizationDecision) (added : List AuthorizedProjection) :
    Prop where
  projections : d'.projections = d.projections ++ added
  nodup : (added.map (·.candidateRef)).Nodup
  subset : ∀ c ∈ added.map (·.candidateRef), c ∈ items.map (·.candidateRef)
  expanded : d'.expandedCandidateRefs = d.expandedCandidateRefs ∪ (added.map (·.candidateRef)).toFinset

theorem authorizeOneHop_grows (d : AuthorizationDecision) {items : List MaterializedOneHopCandidate}
    (hnodup : (items.map (·.candidateRef)).Nodup) :
    Gives (authorizeOneHop lib inv prep d (p.session active) items) fun d' => ∃ added, Grows items d d' added := by
  refine .bind (collect_gives (expandCandidate_gives d) items) fun hops hhops => ?_
  refine .bind (authorizeAndProject_gives _ _) fun r hr => .pure ⟨hops.filterMap Hop.inherited? ++ r.1, ?_⟩
  have hperm := hops_perm hops
  have hboth := hperm.nodup_iff.mpr (hnodup.sublist hhops)
  obtain ⟨hinherited, hreauthorize, hdisjoint⟩ := List.nodup_append.mp hboth
  have hsorted : (sortedSet (hops.filterMap Hop.reauthorize?)).Nodup :=
    (List.perm_insertionSort _ _).nodup_iff.mpr (List.nodup_dedup _)
  have hsub : ∀ c ∈ r.1.map (·.candidateRef), c ∈ hops.filterMap Hop.reauthorize? := fun c hc => mem_sortedSet.mp (hr.subset hc)
  constructor
  · exact List.append_assoc _ _ _
  · rw [List.map_append]
    exact List.nodup_append.mpr ⟨hinherited, hsorted.sublist hr, fun a ha b hb => hdisjoint a ha b (hsub b hb)⟩
  · intro c hc
    rw [List.map_append, List.mem_append] at hc
    refine hhops.subset (hperm.subset (List.mem_append.mpr ?_))
    exact hc.imp_right (hsub c)
  · rfl

end Kernel

/-! ## Rounds -/

/-- From the port's state `w`, the code `y` does what `x` does and records `calls`. -/
structure Records {α : Type} (x y : Scanning ω α) (w : ω) (r : Except Raised α) (w' : ω) (calls : List OneHopCall) : Prop where
  plain : ∀ t, outcome x (w, t) = (r, (w', t))
  recorded : ∀ t, outcome y (w, t) = (r, (w', t ++ calls))

section Records

variable {α β : Type} {x y : Scanning ω α} {f g : α → Scanning ω β} {w w₁ w₂ : ω} {r : Except Raised β} {a : α}
  {front calls : List OneHopCall}

theorem Records.pure (a : α) (w : ω) : Records (Pure.pure a : Scanning ω α) (Pure.pure a) w (.ok a) w [] :=
  ⟨fun _ => rfl, fun t => by rw [List.append_nil]; rfl⟩

theorem Records.bind (hx : Records x y w (.ok a) w₁ front) (hf : Records (f a) (g a) w₁ r w₂ calls) :
    Records (x >>= f) (y >>= g) w r w₂ (front ++ calls) where
  plain t := (outcome_bind_ok (hx.plain t)).trans (hf.plain t)
  recorded t := by rw [outcome_bind_ok (hx.recorded t), hf.recorded, List.append_assoc]

theorem Records.bind_error {e : Raised} (hx : Records x y w (.error e) w₁ calls) :
    Records (x >>= f) (y >>= g) w (.error e) w₁ calls :=
  ⟨fun t => outcome_bind_error (hx.plain t), fun t => outcome_bind_error (hx.recorded t)⟩

theorem outcome_record (call : OneHopCall) (w : ω) (calls : List OneHopCall) :
    outcome (recordCall call : Scanning ω Unit) (w, calls) = (.ok (), (w, calls ++ [call])) := rfl

/-- A call between two records; the second is only made when the call returns. -/
theorem records_around (h : Apart x) (before : OneHopCall) (after : α → OneHopCall) (w : ω) :
    (∃ e w', Records x (recordCall before >>= fun _ => x >>= fun a => recordCall (after a) >>= fun _ => Pure.pure a) w (.error e) w'
      [before]) ∨
    ∃ a w', Records x (recordCall before >>= fun _ => x >>= fun a => recordCall (after a) >>= fun _ => Pure.pure a) w (.ok a) w'
      [before, after a] := by
  obtain ⟨r, w', hr⟩ := h w
  cases r with
  | error e =>
    refine .inl ⟨e, w', hr, fun t => ?_⟩
    rw [outcome_bind_ok (outcome_record _ _ _)]
    exact outcome_bind_error (hr _)
  | ok a =>
    refine .inr ⟨a, w', hr, fun t => ?_⟩
    rw [outcome_bind_ok (outcome_record _ _ _), outcome_bind_ok (hr _), outcome_bind_ok (outcome_record _ _ _), outcome_pure,
      List.append_assoc]
    rfl

end Records

/-! ### What the calls show -/

def OneHopCall.asked? : OneHopCall → Option (Int × Int)
  | .asked limit offset => some (limit, offset)
  | _ => none

def OneHopCall.page : OneHopCall → List MaterializedOneHopCandidate
  | .examined page => page
  | _ => []

def OneHopCall.items : OneHopCall → List MaterializedOneHopCandidate
  | .submitted items => items
  | _ => []

def OneHopCall.decision? : OneHopCall → Option AuthorizationDecision
  | .decided d => some d
  | _ => none

/-- The calls of the port for a page. -/
def asked (calls : List OneHopCall) : List (Int × Int) := calls.filterMap OneHopCall.asked?

/-- The neighbours that the loop was given, in order. -/
def examined (calls : List OneHopCall) : List MaterializedOneHopCandidate := calls.flatMap OneHopCall.page

/-- The neighbours that it submitted to the Kernel, in order. -/
def submitted (calls : List OneHopCall) : List MaterializedOneHopCandidate := calls.flatMap OneHopCall.items

def decided (calls : List OneHopCall) : List AuthorizationDecision := calls.filterMap OneHopCall.decision?

/-- The neighbours that the main path did not nominate. -/
def fresh (mainRefs : List CandidateRef) (items : List MaterializedOneHopCandidate) : List MaterializedOneHopCandidate :=
  items.filter fun i => !mainRefs.contains i.candidateRef

/-- A decision that expanded `main` by neighbours among `seen`. -/
structure Expanded (limits : ResolveLimits) (mainRefs : List CandidateRef) (main : AuthorizationDecision)
    (seen : List MaterializedOneHopCandidate) (d : AuthorizationDecision) : Prop where
  added : ∃ added, d.projections = main.projections ++ added ∧
    d.expandedCandidateRefs = (added.map (·.candidateRef)).toFinset ∧
    ∀ c ∈ added.map (·.candidateRef), c ∈ seen.map (·.candidateRef) ∧ c ∉ mainRefs
  nodup : (d.projections.map (·.candidateRef)).Nodup
  bounded : d.expandedCandidateRefs.card ≤ limits.graphLimit

/-- What the calls of the loop show when it scans `rest` with `pages` pages left. -/
structure Scanned (limits : ResolveLimits) (mainRefs : List CandidateRef) (main : AuthorizationDecision)
    (neighbours rest : List MaterializedOneHopCandidate) (pages : Nat) (result : Except Raised AuthorizationDecision)
    (calls : List OneHopCall) : Prop where
  calls_le : (asked calls).length ≤ pages
  examined_front : examined calls <+: rest
  submitted_fresh : ∃ scanned, scanned <+: examined calls ∧ submitted calls = fresh mainRefs scanned
  decisions : ∀ d ∈ decided calls, Expanded limits mainRefs main neighbours d
  returned : ∀ d, result = .ok d → Expanded limits mainRefs main neighbours d ∧
    submitted calls = fresh mainRefs (examined calls) ∧
    ((asked calls).length < pages → examined calls = rest ∨ d.expandedCandidateRefs.card = limits.graphLimit)

variable {limits : ResolveLimits} {mainRefs : List CandidateRef} {main : AuthorizationDecision}
  {neighbours : List MaterializedOneHopCandidate}

/-- The Kernel's answer to the fresh items of a page expands the decision by neighbours up to
    that page, within the bound that the page was limited by. -/
theorem Expanded.grows {seen page : List MaterializedOneHopCandidate} {d d' : AuthorizationDecision}
    {added : List AuthorizedProjection} (h : Expanded limits mainRefs main seen d)
    (hmain : ∀ q ∈ main.projections, q.candidateRef ∈ mainRefs) (hnodup : ((seen ++ page).map (·.candidateRef)).Nodup)
    (hlength : page.length ≤ limits.graphLimit - d.expandedCandidateRefs.card) (hgrows : Grows (fresh mainRefs page) d d' added) :
    Expanded limits mainRefs main (seen ++ page) d' := by
  obtain ⟨before, hprojections, hexpanded, hseen⟩ := h.added
  have hfresh : ∀ c ∈ added.map (·.candidateRef), c ∈ page.map (·.candidateRef) ∧ c ∉ mainRefs := by
    intro c hc
    obtain ⟨i, hi, rfl⟩ := List.mem_map.mp (hgrows.subset c hc)
    obtain ⟨hpage, hnot⟩ := List.mem_filter.mp hi
    exact ⟨List.mem_map_of_mem hpage, by simpa using hnot⟩
  rw [List.map_append] at hnodup
  obtain ⟨-, hpage, hapart⟩ := List.nodup_append.mp hnodup
  refine ⟨⟨before ++ added, ?_, ?_, ?_⟩, ?_, ?_⟩
  · rw [hgrows.projections, hprojections, List.append_assoc]
  · rw [hgrows.expanded, hexpanded, List.map_append, List.toFinset_append]
  · intro c hc
    rw [List.map_append] at hc ⊢
    rcases List.mem_append.mp hc with hc | hc
    · exact ⟨List.mem_append_left _ (hseen c hc).1, (hseen c hc).2⟩
    · exact ⟨List.mem_append_right _ (hfresh c hc).1, (hfresh c hc).2⟩
  · rw [hgrows.projections, List.map_append]
    refine List.nodup_append.mpr ⟨h.nodup, hgrows.nodup, ?_⟩
    intro a ha b hb hab
    subst hab
    obtain ⟨hin, hnot⟩ := hfresh a hb
    -- an older projection is of the main path, or of a neighbour before the page
    rw [hprojections, List.map_append, List.mem_append] at ha
    rcases ha with ha | ha
    · obtain ⟨q, hq, rfl⟩ := List.mem_map.mp ha
      exact hnot (hmain q hq)
    · exact hapart a (hseen a ha).1 a hin rfl
  · have hsub : added.map (·.candidateRef) ⊆ page.map (·.candidateRef) := fun c hc => (hfresh c hc).1
    have hcard : (added.map (·.candidateRef)).length ≤ page.length := by
      have := (hgrows.nodup.subperm hsub).length_le
      simpa using this
    have hunion := Finset.card_union_le d.expandedCandidateRefs (added.map (·.candidateRef)).toFinset
    have hfinset := List.toFinset_card_le (added.map (·.candidateRef))
    have hbounded := h.bounded
    rw [hgrows.expanded]
    omega

theorem Expanded.mono {seen seen' : List MaterializedOneHopCandidate} {d : AuthorizationDecision}
    (h : Expanded limits mainRefs main seen d) (hsub : seen ⊆ seen') : Expanded limits mainRefs main seen' d := by
  obtain ⟨added, hprojections, hexpanded, hseen⟩ := h.added
  exact ⟨⟨added, hprojections, hexpanded, fun c hc => ⟨List.map_subset _ hsub (hseen c hc).1, (hseen c hc).2⟩⟩, h.nodup, h.bounded⟩

theorem discover_gives {anchors : List AuthorizedProjection} (hanchors : anchors ≠ []) (limit offset : Int) :
    Gives (discoverMaterializedOneHop lib (p.session active) anchors limit offset) fun page => page = p.slice limit offset := by
  refine .bind (.any _) fun _ _ => .bind (.any _) fun _ _ => .bind (.any _) fun _ _ => .bind (.any _) fun _ _ => ?_
  have hempty : anchors.isEmpty = false := by simpa using hanchors
  simp only [hempty]
  refine .bind (P := fun page => page = p.slice limit offset) ?_ fun page hpage => .bind (.any _) fun _ _ => .pure hpage
  intro s page s' h
  cases h
  rfl

/-- A round that ended the loop: nothing was examined after these calls. -/
theorem Scanned.stop {rest : List MaterializedOneHopCandidate} {pages : Nat} {d : AuthorizationDecision}
    (h : Expanded limits mainRefs main neighbours d) (hstop : 0 < pages → rest = [] ∨ d.expandedCandidateRefs.card = limits.graphLimit) :
    Scanned limits mainRefs main neighbours rest pages (.ok d) [] := by
  refine ⟨Nat.zero_le _, List.nil_prefix, ⟨[], List.nil_prefix, rfl⟩, by simp [decided], ?_⟩
  intro d' hd'
  cases hd'
  exact ⟨h, rfl, fun hpages => (hstop hpages).imp_left Eq.symm⟩

/-- A round that raised. -/
theorem Scanned.raise {rest : List MaterializedOneHopCandidate} {pages : Nat} {e : Raised} {calls : List OneHopCall}
    (hasked : (asked calls).length ≤ pages) (hexamined : examined calls <+: rest)
    (hsubmitted : submitted calls = [] ∨ submitted calls = fresh mainRefs (examined calls)) (hdecided : decided calls = []) :
    Scanned limits mainRefs main neighbours rest pages (.error e) calls := by
  refine ⟨hasked, hexamined, ?_, by simp [hdecided], fun d hd => by cases hd⟩
  rcases hsubmitted with h | h
  · exact ⟨[], List.nil_prefix, h⟩
  · exact ⟨_, List.prefix_rfl, h⟩

/-- The calls of a round that examined `page`, before those of the rest of the scan. -/
theorem Scanned.round {page rest : List MaterializedOneHopCandidate} {pages : Nat} {result : Except Raised AuthorizationDecision}
    {front calls : List OneHopCall} (hasked : (asked front).length = 1) (hexamined : examined front = page)
    (hsubmitted : submitted front = fresh mainRefs page) (hdecided : ∀ d ∈ decided front, Expanded limits mainRefs main neighbours d)
    (h : Scanned limits mainRefs main neighbours rest pages result calls) :
    Scanned limits mainRefs main neighbours (page ++ rest) (pages + 1) result (front ++ calls) := by
  have hasked' : (asked (front ++ calls)).length = (asked calls).length + 1 := by
    rw [asked, List.filterMap_append, List.length_append, ← asked, hasked]
    exact Nat.add_comm _ _
  have hexamined' : examined (front ++ calls) = page ++ examined calls := by
    rw [examined, List.flatMap_append, ← examined, hexamined]
    rfl
  have hsubmitted' : submitted (front ++ calls) = fresh mainRefs page ++ submitted calls := by
    rw [submitted, List.flatMap_append, ← submitted, hsubmitted]
    rfl
  refine ⟨?_, ?_, ?_, ?_, ?_⟩
  · rw [hasked']
    exact Nat.succ_le_succ h.calls_le
  · rw [hexamined']
    exact List.prefix_append_right_inj page |>.mpr h.examined_front
  · obtain ⟨scanned, hscanned, heq⟩ := h.submitted_fresh
    refine ⟨page ++ scanned, ?_, ?_⟩
    · rw [hexamined']
      exact List.prefix_append_right_inj page |>.mpr hscanned
    · rw [hsubmitted', heq, fresh, fresh, fresh, List.filter_append]
  · intro d hd
    rw [decided, List.filterMap_append, List.mem_append] at hd
    exact hd.elim (hdecided d) (h.decisions d)
  · intro d hd
    obtain ⟨hexpanded, heq, hstop⟩ := h.returned d hd
    refine ⟨hexpanded, ?_, ?_⟩
    · rw [hsubmitted', hexamined', heq, fresh, fresh, fresh, List.filter_append]
    · intro hlt
      rw [hasked'] at hlt
      rw [hexamined']
      exact (hstop (by omega)).imp_left fun h => by rw [h]

section Loop

variable {discover : Int → Int → Scanning ω (List MaterializedOneHopCandidate)}
  {authorize : AuthorizationDecision → List MaterializedOneHopCandidate → Scanning ω AuthorizationDecision}

/-- The end of a round that examined `page`, from the decision `d` on. -/
def scanRest (limits : ResolveLimits) (discover : Int → Int → Scanning ω (List MaterializedOneHopCandidate))
    (authorize : AuthorizationDecision → List MaterializedOneHopCandidate → Scanning ω AuthorizationDecision)
    (mainRefs : List CandidateRef) (pages offset pageLimit : Nat) (page : List MaterializedOneHopCandidate)
    (d : AuthorizationDecision) : Scanning ω AuthorizationDecision :=
  if page.length < pageLimit then pure d else scanOneHop limits discover authorize mainRefs pages (offset + page.length) d

/-- A round within the bound: the page, then the Kernel, then the rest. -/
theorem scanOneHop_succ {pages offset : Nat} {d : AuthorizationDecision} (hbound : ¬limits.graphLimit ≤ d.expandedCandidateRefs.card) :
    scanOneHop limits discover authorize mainRefs (pages + 1) offset d =
      discover ((limits.graphLimit - d.expandedCandidateRefs.card : Nat) : Int) (offset : Int) >>= fun page =>
        if page.isEmpty then pure d
        else if (fresh mainRefs page).isEmpty then
          pure d >>= scanRest limits discover authorize mainRefs pages offset (limits.graphLimit - d.expandedCandidateRefs.card) page
        else authorize d (fresh mainRefs page) >>=
          scanRest limits discover authorize mainRefs pages offset (limits.graphLimit - d.expandedCandidateRefs.card) page := by
  rw [scanOneHop, if_neg hbound]
  rfl

/-- A page of `xs` is the front of what was left; a short one is all of it. -/
theorem page_split {α : Type} {xs page : List α} {offset limit : Nat} (h : page = (xs.drop offset).take limit) :
    xs.take (offset + page.length) = xs.take offset ++ page ∧ xs.drop offset = page ++ xs.drop (offset + page.length) ∧
      (page.length < limit → xs.drop (offset + page.length) = []) := by
  have hfront : page <+: xs.drop offset := h ▸ List.take_prefix _ _
  have hpage := List.prefix_iff_eq_take.mp hfront
  refine ⟨?_, ?_, ?_⟩
  · rw [List.take_add, ← hpage]
  · conv_lhs => rw [← List.take_append_drop page.length (xs.drop offset), ← hpage, List.drop_drop]
  · intro hshort
    have hlength : page.length = min limit (xs.length - offset) := by rw [h, List.length_take, List.length_drop]
    rw [List.drop_eq_nil_iff]
    omega

/-- What the loop needs of the two calls. -/
structure Calls (neighbours : List MaterializedOneHopCandidate)
    (discover : Int → Int → Scanning ω (List MaterializedOneHopCandidate))
    (authorize : AuthorizationDecision → List MaterializedOneHopCandidate → Scanning ω AuthorizationDecision) : Prop where
  discover_apart : ∀ limit offset, Apart (discover limit offset)
  discover_slice : ∀ limit offset : Nat, Gives (discover limit offset) fun page => page = (neighbours.drop offset).take limit
  authorize_apart : ∀ d items, Apart (authorize d items)
  authorize_grows : ∀ d items, (items.map (·.candidateRef)).Nodup → Gives (authorize d items) fun d' => ∃ added, Grows items d d' added

theorem scan_scanned (hcalls : Calls neighbours discover authorize) (hnodup : (neighbours.map (·.candidateRef)).Nodup)
    (hmain : ∀ q ∈ main.projections, q.candidateRef ∈ mainRefs) (pages : Nat) :
    ∀ (offset : Nat) (d : AuthorizationDecision), Expanded limits mainRefs main (neighbours.take offset) d → ∀ w : ω,
      ∃ r w' calls, Records (scanOneHop limits discover authorize mainRefs pages offset d)
          (scanOneHop limits (recordDiscover discover) (recordAuthorize authorize) mainRefs pages offset d) w r w' calls ∧
        Scanned limits mainRefs main neighbours (neighbours.drop offset) pages r calls := by
  induction pages with
  | zero =>
    intro offset d hd w
    exact ⟨.ok d, w, [], .pure d w, .stop (hd.mono (List.take_subset _ _)) (by simp)⟩
  | succ pages ih =>
    intro offset d hd w
    by_cases hbound : limits.graphLimit ≤ d.expandedCandidateRefs.card
    · refine ⟨.ok d, w, [], ?_, .stop (hd.mono (List.take_subset _ _)) fun _ => .inr (Nat.le_antisymm hd.bounded hbound)⟩
      rw [scanOneHop, scanOneHop, if_pos hbound, if_pos hbound]
      exact .pure d w
    rw [scanOneHop_succ hbound, scanOneHop_succ hbound]
    generalize hlimit : limits.graphLimit - d.expandedCandidateRefs.card = pageLimit
    have hpos : 0 < pageLimit := by omega
    rcases records_around (hcalls.discover_apart pageLimit offset) (.asked pageLimit offset) .examined w with
      ⟨e, w', he⟩ | ⟨page, w₁, hpage⟩
    · exact ⟨.error e, w', [.asked pageLimit offset], .bind_error he, .raise (Nat.le_add_left 1 pages) List.nil_prefix (.inl rfl) rfl⟩
    have hslice : page = (neighbours.drop offset).take pageLimit := hcalls.discover_slice pageLimit offset _ _ _ (hpage.plain [])
    have hlength : page.length ≤ pageLimit := by rw [hslice]; exact List.length_take_le _ _
    obtain ⟨hseen, hrest, hend⟩ := page_split hslice
    -- what follows the Kernel's answer
    have htail : ∀ d' w₂, Expanded limits mainRefs main (neighbours.take (offset + page.length)) d' →
        ∃ r w' calls, Records (scanRest limits discover authorize mainRefs pages offset pageLimit page d')
            (scanRest limits (recordDiscover discover) (recordAuthorize authorize) mainRefs pages offset pageLimit page d')
            w₂ r w' calls ∧
          Scanned limits mainRefs main neighbours (neighbours.drop (offset + page.length)) pages r calls := by
      intro d' w₂ hd'
      by_cases hshort : page.length < pageLimit
      · refine ⟨.ok d', w₂, [], ?_, .stop (hd'.mono (List.take_subset _ _)) fun _ => .inl (hend hshort)⟩
        rw [scanRest, scanRest, if_pos hshort, if_pos hshort]
        exact .pure d' w₂
      · obtain ⟨r, w', calls, hrecords, hscanned⟩ := ih (offset + page.length) d' hd' w₂
        refine ⟨r, w', calls, ?_, hscanned⟩
        rw [scanRest, scanRest, if_neg hshort, if_neg hshort]
        exact hrecords
    rw [hrest]
    by_cases hempty : page = []
    · subst hempty
      refine ⟨.ok d, w₁, _, hpage.bind (.pure d w₁), .round rfl rfl rfl (by simp [decided, OneHopCall.decision?]) ?_⟩
      exact .stop (hd.mono (List.take_subset _ _)) fun _ => .inl (hend hpos)
    have hpageEmpty : page.isEmpty = false := by simpa using hempty
    by_cases hfresh : fresh mainRefs page = []
    · have hd' : Expanded limits mainRefs main (neighbours.take (offset + page.length)) d :=
        hd.mono (by rw [hseen]; exact List.subset_append_left _ _)
      obtain ⟨r, w', calls, hrecords, hscanned⟩ := htail d w₁ hd'
      refine ⟨r, w', _, hpage.bind ?_, .round rfl (List.append_nil page) hfresh.symm (by simp [decided, OneHopCall.decision?]) hscanned⟩
      simp only [hpageEmpty, hfresh, List.isEmpty_nil, if_true]
      exact (Records.pure d w₁).bind hrecords
    · have hfreshEmpty : (fresh mainRefs page).isEmpty = false := by simpa using hfresh
      have hseenNodup : ((neighbours.take offset ++ page).map (·.candidateRef)).Nodup := by
        rw [← hseen]
        exact hnodup.sublist ((List.take_sublist _ _).map _)
      have hitems : ((fresh mainRefs page).map (·.candidateRef)).Nodup := by
        rw [List.map_append] at hseenNodup
        exact (List.nodup_append.mp hseenNodup).2.1.sublist (List.filter_sublist.map _)
      rcases records_around (hcalls.authorize_apart d (fresh mainRefs page)) (.submitted (fresh mainRefs page)) .decided w₁ with
        ⟨e, w', he⟩ | ⟨d', w₂, hd'⟩
      · have hexamined : examined [.asked pageLimit offset, .examined page, .submitted (fresh mainRefs page)] = page :=
          List.append_nil page
        have hraise : Scanned limits mainRefs main neighbours (page ++ neighbours.drop (offset + page.length)) (pages + 1) (.error e)
            ([.asked pageLimit offset, .examined page] ++ [.submitted (fresh mainRefs page)]) := by
          refine .raise (Nat.le_add_left 1 pages) ?_ (.inr ?_) rfl
          · rw [List.cons_append, List.cons_append, List.nil_append, hexamined]
            exact List.prefix_append page _
          · rw [List.cons_append, List.cons_append, List.nil_append, hexamined]
            exact List.append_nil _
        refine ⟨.error e, w', _, hpage.bind ?_, hraise⟩
        simp only [hpageEmpty, hfreshEmpty]
        exact he.bind_error
      · obtain ⟨added, hgrows⟩ := hcalls.authorize_grows d _ hitems _ _ _ (hd'.plain [])
        have hexpanded : Expanded limits mainRefs main (neighbours.take (offset + page.length)) d' := by
          rw [hseen]
          exact hd.grows hmain hseenNodup (by omega) hgrows
        obtain ⟨r, w', calls, hrecords, hscanned⟩ := htail d' w₂ hexpanded
        have hround : Scanned limits mainRefs main neighbours (page ++ neighbours.drop (offset + page.length)) (pages + 1) r
            ([.asked pageLimit offset, .examined page, .submitted (fresh mainRefs page), .decided d'] ++ calls) := by
          refine .round rfl (List.append_nil page) (List.append_nil _) ?_ hscanned
          intro d'' hd''
          cases List.mem_singleton.mp hd''
          exact hexpanded.mono (List.take_subset _ _)
        refine ⟨r, w', [.asked pageLimit offset, .examined page] ++ ([.submitted (fresh mainRefs page), .decided d'] ++ calls),
          hpage.bind ?_, hround⟩
        simp only [hpageEmpty, hfreshEmpty]
        exact hd'.bind hrecords

end Loop

/-! ## The graph loop of `Runtime.resolve` -/

variable {inv : AuthenticatedInvocation} {prep : PreparedAcquireAuthorization}

theorem kernel_calls (hne : main.projections ≠ []) :
    Calls p.neighbours (discoverMaterializedOneHop lib (p.session active) main.projections)
      (fun d items => authorizeOneHop lib inv prep d (p.session active) items) where
  discover_apart := apart_discover main.projections
  discover_slice limit offset := discover_gives hne limit offset
  authorize_apart := apart_authorizeOneHop
  authorize_grows d _ := authorizeOneHop_grows d

/-- The main path authorizes each nominated candidate at most once, and expands nothing. -/
theorem authorizeAcquire_gives (candidateRefs : List CandidateRef) :
    Gives (authorizeAcquire lib inv prep candidateRefs (some (p.session active)))
      fun d => (d.projections.map (·.candidateRef)).Sublist (sortedSet candidateRefs) ∧ d.expandedCandidateRefs = ∅ :=
  .bind (.any _) fun _ _ => .bind (authorizeAndProject_gives _ _) fun _ hr => .pure ⟨hr, rfl⟩

theorem expanded_main {candidateRefs : List CandidateRef}
    (h : (main.projections.map (·.candidateRef)).Sublist (sortedSet candidateRefs)) (hexpanded : main.expandedCandidateRefs = ∅)
    (limits : ResolveLimits) : Expanded limits candidateRefs main [] main := by
  have hsorted : (sortedSet candidateRefs).Nodup := (List.perm_insertionSort _ _).nodup_iff.mpr (List.nodup_dedup _)
  exact ⟨⟨[], (List.append_nil _).symm, hexpanded, by simp⟩, hsorted.sublist h, by simp [hexpanded]⟩

end Recording

/-- Over a port that pages through `neighbours`, the loop records these calls: it asks for at
    most `oneHopScannedPageLimit` pages, examines a front part of the neighbours, submits it to
    the Kernel once and in order, less what the main path nominated, keeps every decision
    within the bound and free of duplicates, and stops before its page limit only at the end of
    the neighbours or at the bound. -/
theorem one_hop_scan_exact {ω : Type} (lib : Stdlib) (p : PagedPort ω) (active : Bool) (inv : AuthenticatedInvocation)
    (prep : PreparedAcquireAuthorization) (queryText : String) (limits : ResolveLimits) (candidateRefs : List CandidateRef)
    (main : AuthorizationDecision) (s s' : ω × List OneHopCall)
    (hmain : Tried.outcome (authorizeAcquire lib inv prep candidateRefs (some (p.session active))) s = (.ok main, s'))
    (hne : main.projections ≠ []) (hnodup : (p.neighbours.map (·.candidateRef)).Nodup) (w : ω) :
    ∃ result w' calls,
      Records (oneHopLoop lib ⟨inv, prep, p.session active, queryText, limits⟩ main.projections candidateRefs
          limits.oneHopScannedPageLimit 0 main)
        (scanOneHop limits (recordDiscover (discoverMaterializedOneHop lib (p.session active) main.projections))
          (recordAuthorize fun d items => authorizeOneHop lib inv prep d (p.session active) items) candidateRefs
          limits.oneHopScannedPageLimit 0 main) w result w' calls ∧
      Scanned limits candidateRefs main p.neighbours p.neighbours limits.oneHopScannedPageLimit result calls ∧
      ((submitted calls).map (·.candidateRef)).Nodup := by
  obtain ⟨hrefs, hexpanded⟩ := authorizeAcquire_gives candidateRefs s main s' hmain
  have hmainRefs : ∀ q ∈ main.projections, q.candidateRef ∈ candidateRefs :=
    fun q hq => mem_sortedSet.mp (hrefs.subset (List.mem_map_of_mem hq))
  obtain ⟨result, w', calls, hrecords, hscanned⟩ := scan_scanned (kernel_calls hne) hnodup hmainRefs limits.oneHopScannedPageLimit 0
    main (expanded_main hrefs hexpanded limits) w
  refine ⟨result, w', calls, ?_, hscanned, ?_⟩
  · rw [oneHopLoop_eq_scan]
    exact hrecords
  · obtain ⟨scanned, hscan, heq⟩ := hscanned.submitted_fresh
    rw [heq]
    have hsub : (fresh candidateRefs scanned).Sublist p.neighbours :=
      List.filter_sublist.trans (hscan.trans hscanned.examined_front).sublist
    exact hnodup.sublist (hsub.map _)

namespace KernelInstance

/-- The neighbours of one page: a Fragment to inherit, a Resource to authorize, and one out of scope. -/
def pagedPort : PagedPort Unit where
  neighbours := [⟨candidate article first, candidate article second⟩, ⟨candidate article first, candidate other first⟩,
    ⟨candidate article first, candidate outside first⟩]
  locate c _ := (.ok (some ⟨c.organizationId, c.sourceRef.value, c.resourceRef.value, c.revisionRef.value,
    c.fragmentRef.value, "acl", ⟨0⟩, "fresh"⟩), ())
  project l _ := (.ok (some ⟨.legacyBody, [⟨"body", .ofString ("text of " ++ l.fragmentRef), 0⟩], ["body"]⟩), ())
  paged _ _ _ := ()

/-- The main path authorizes the first Fragment. -/
def authorizes : Bool :=
  match (Tried.outcome (authorizeAcquire cpython invocation preparation [candidate article first]
      (some (pagedPort.session true))) ((), [])).1 with
  | .error _ => false
  | .ok main => !main.projections.isEmpty

theorem one_hop_scan_instance : ∃ (main : AuthorizationDecision) (result : Except Raised AuthorizationDecision)
    (calls : List OneHopCall), main.projections ≠ [] ∧
      Scanned ⟨512, 16, by decide⟩ [candidate article first] main pagedPort.neighbours pagedPort.neighbours 16 result calls := by
  have hrun : authorizes = true := by decide +kernel
  unfold authorizes at hrun
  rcases hmain : Tried.outcome (authorizeAcquire cpython invocation preparation [candidate article first]
      (some (pagedPort.session true))) ((), []) with ⟨e | main, s'⟩
  · rw [hmain] at hrun
    cases hrun
  · rw [hmain] at hrun
    have hne : main.projections ≠ [] := by simpa using hrun
    obtain ⟨result, w', calls, -, hscanned, -⟩ := one_hop_scan_exact cpython pagedPort true invocation preparation "query"
      ⟨512, 16, by decide⟩ [candidate article first] main ((), []) s' hmain hne (by decide +kernel) ()
    exact ⟨main, result, calls, hne, hscanned⟩

end KernelInstance

end ContextEngine.Runtime
