/-
  ContextEngine.Adapters.FileScanPlans — what the Provider plans and proposes over a history
  of scans.

  Proved, of tables with a history:
  - `History.changesOf_eq`: the Provider's changes and baseline, from the latest complete scan
    and from whether that is the newest.
  - `Resumes.readChanges_first` / `Resumes.readChanges_next`: while the newest scan is the
    Provider's own, it proposes exactly that scan's pages.
  - `completes_from`: a scan that the tables hold the first pages of goes on to its end, as
    long as its deletes retract upserts of its baseline.
  - `History.newScan_follows`: a new scan follows those in the tables.
-/

import ContextEngine.Adapters.FileScanSteps

namespace ContextEngine.Adapters.FileSource

open ContextEngine.Python ContextEngine.Runtime ContextEngine.Control

section Plans

variable {D : Type} {d : Digests D} {pv : Provider} {s : Snapshot} {t : Tables D} {l : Legacy D d t.activeVersion}
  {scans older : List (Scan D)} {sc : Scan D}

/-! ## Plans -/

/-- The changes of a scan and its baseline, over the latest complete scan; `atHead` says that
    this one is the newest scan. -/
def planned (d : Digests D) (atHead : Bool) (observed : List Change) :
    Option (Scan D) → List Change × Option (FileChangeBaselineRef D)
  | none => (observed, none)
  | some b =>
    if unchanged b.plan.changes observed then
      (b.plan.changes, if atHead then b.plan.baselineRef else some (b.last d).reference)
    else (sortedBy (·.path.value) (observed ++ missing b.plan.changes observed), some (b.last d).reference)

/-- The newest scan is complete. -/
def headComplete (scans : List (Scan D)) : Bool := scans.head?.any (·.complete)

/-- Whatever page of the newest scan comes next, the plan stays while the scan is open. -/
theorem planned_open (observed : List Change) (hopen : sc.complete = false) :
    planned d (headComplete (sc :: older)) observed (lastComplete (sc :: older)) =
      planned d false observed (lastComplete older) := by
  rw [lastComplete_cons_of_not hopen, show headComplete (sc :: older) = sc.complete from rfl, hopen]

theorem observe_ordered (pv : Provider) (s : Snapshot) : canonicalOrder (pv.observe s) = true := by
  have hpaths : (pv.observe s).map (·.path.value) = s.files.map (·.1.value) := by
    simp only [Provider.observe, List.map_map]
    rfl
  exact decide_eq_true (by rw [hpaths]; exact s.canonical)

theorem observe_upsert {c : Change} (hc : c ∈ pv.observe s) : c.kind = .upsert := by
  obtain ⟨f, -, rfl⟩ := List.mem_map.mp hc
  rfl

/-- Files and deletes together are in canonical order, each path once. -/
theorem sorted_ordered {observed entries : List Change} (hobs : canonicalOrder observed = true)
    (hentries : canonicalOrder entries = true) :
    canonicalOrder (sortedBy (·.path.value) (observed ++ missing entries observed)) = true := by
  have hobs := of_decide_eq_true hobs
  have hentries := of_decide_eq_true hentries
  have hmissing : (missing entries observed).map (·.path.value) =
      ((upserts entries).filter fun c => !(observed.map (·.path)).contains c.path).map (·.path.value) := by
    simp only [missing, List.map_map]
    rfl
  have hsub : List.Sublist ((missing entries observed).map (·.path.value)) (entries.map (·.path.value)) := by
    rw [hmissing]
    exact (List.filter_sublist.trans List.filter_sublist).map _
  have hnodup : ((observed ++ missing entries observed).map (·.path.value)).Nodup := by
    rw [List.map_append, List.nodup_append]
    refine ⟨hobs.imp fun h => ne_of_lt h, (hentries.sublist hsub).imp fun h => ne_of_lt h, ?_⟩
    intro a ha b hb hab
    obtain ⟨o, ho, rfl⟩ := List.mem_map.mp ha
    rw [hmissing] at hb
    obtain ⟨m, hm, hpath⟩ := List.mem_map.mp hb
    obtain ⟨-, hnot⟩ := List.mem_filter.mp hm
    have heq : m.path = o.path := by
      have hval : m.path.value = o.path.value := hpath.trans hab.symm
      cases hmp : m.path
      cases hop : o.path
      simp_all
    have hcontains : (observed.map (·.path)).contains m.path = true :=
      List.contains_iff_mem.mpr (heq ▸ List.mem_map_of_mem ho)
    rw [hcontains] at hnot
    nomatch hnot
  have hsorted : ((sortedBy (·.path.value) (observed ++ missing entries observed)).map (·.path.value)).Pairwise (· ≤ ·) :=
    List.pairwise_map.mpr (pairwise_sortedBy _ _)
  have hnodup' := ((sortedBy_perm (·.path.value) (observed ++ missing entries observed)).map (·.path.value)).nodup_iff.mpr hnodup
  exact decide_eq_true (hsorted.and hnodup' |>.imp fun h => lt_of_le_of_ne h.1 h.2)

theorem History.planned_ordered (h : History d t l scans) :
    canonicalOrder (planned d (headComplete scans) (pv.observe s) (lastComplete scans)).1 = true := by
  cases hb : lastComplete scans with
  | none => exact observe_ordered pv s
  | some b =>
    obtain ⟨_, -, hf, -⟩ := h.chain.follows (lastComplete_mem hb).1
    simp only [planned]
    split
    · exact hf.ordered
    · exact sorted_ordered (observe_ordered pv s) hf.ordered

/-- Unless it repeats the newest scan, a plan is over the latest complete scan. -/
theorem planned_not_repeated {observed : List Change}
    (hnot : ∀ b, lastComplete scans = some b → unchanged b.plan.changes observed = true → headComplete scans = false) :
    planned d (headComplete scans) observed (lastComplete scans) = planned d false observed (lastComplete scans) ∧
      (planned d false observed (lastComplete scans)).2 = (lastComplete scans).map fun b => (b.last d).reference := by
  cases hb : lastComplete scans with
  | none => exact ⟨rfl, rfl⟩
  | some b =>
    simp only [planned, Option.map_some]
    split
    · rename_i hsame
      rw [hnot b hb hsame]
      exact ⟨rfl, rfl⟩
    · exact ⟨rfl, rfl⟩

/-- The deletes of a plan are files that are gone, unless it repeats recorded deletes. -/
theorem planned_retracted (atHead : Bool)
    (hrepeats : ∀ b, lastComplete scans = some b → unchanged b.plan.changes (pv.observe s) = true →
      ∀ c ∈ b.plan.changes, c.kind ≠ .delete) :
    Retracted scans (planned d atHead (pv.observe s) (lastComplete scans)).1 := by
  intro c hc hdelete
  cases hb : lastComplete scans with
  | none =>
    rw [hb] at hc
    exact absurd (observe_upsert hc) (by rw [hdelete]; decide)
  | some b =>
    rw [hb] at hc
    simp only [planned] at hc
    split at hc
    · rename_i hsame
      exact absurd hdelete (hrepeats b hb hsame c hc)
    · rw [mem_sortedBy, List.mem_append] at hc
      rcases hc with hc | hc
      · exact absurd (observe_upsert hc) (by rw [hdelete]; decide)
      · obtain ⟨u, hu, rfl⟩ := List.mem_map.mp hc
        obtain ⟨hup, hkind⟩ := List.mem_filter.mp (List.mem_filter.mp hu).1
        exact ⟨b, rfl, u, hup, beq_iff_eq.mp hkind, rfl, rfl, rfl⟩

theorem propose_ok {p q : ChangePage D} (h : propose p = .ok q) : q = p ∧ p.valid = true := by
  unfold propose at h
  split at h
  · rename_i hvalid
    cases h
    exact ⟨rfl, hvalid⟩
  · cases h

/-- A page of a plan in range keeps the contract of pages. -/
theorem Plan.page_valid {plan : Plan D} (hlimit : 1 ≤ plan.pageLimit ∧ plan.pageLimit ≤ MAX_FILE_CHANGE_PAGE_SIZE)
    (hbound : 1 ≤ plan.scanBound ∧ plan.scanBound ≤ MAX_CONFIGURED_FILE_CHANGE_BASELINE_SIZE)
    (hordered : canonicalOrder plan.changes = true)
    (hbaseline : plan.baselineRef.all (·.sourceVersionRef == plan.sourceVersionRef) = true) {offset : Nat}
    (hoffset : offset ≤ plan.changes.length) {predecessor : Option (PagePredecessor D)} {superseded : Option D}
    (hone : (predecessor.isSome && superseded.isSome) = false) :
    (plan.page d offset predecessor superseded).valid = true := by
  have hsub : List.Sublist ((plan.changes.drop offset).take plan.pageLimit) plan.changes :=
    (List.take_sublist _ _).trans (List.drop_sublist _ _)
  have hpage : canonicalOrder ((plan.changes.drop offset).take plan.pageLimit) = true :=
    decide_eq_true ((of_decide_eq_true hordered).sublist (hsub.map _))
  simp only [ChangePage.valid, Plan.page, hlimit, hbound, hone, hbaseline, hpage, and_self, decide_true, Bool.not_false,
    Bool.and_true, Bool.true_and, Bool.and_eq_true, List.length_take_le, beq_iff_eq]
  refine ⟨?_, ?_⟩
  · split
    · rename_i hend
      rw [hend, beq_self_eq_true]
      rfl
    · rename_i hend
      simpa using hend
  · rw [Bool.or_eq_true, beq_iff_eq]
    by_cases hlt : offset < plan.changes.length
    · refine .inr ?_
      rw [Bool.not_eq_true', List.isEmpty_eq_false_iff, ← List.length_pos_iff, List.length_take, List.length_drop]
      omega
    · refine .inl ?_
      rw [List.length_take, List.length_drop]
      omega

theorem History.baseline_version (h : History d t l scans) (hsub : ∀ b ∈ older, b ∈ scans) :
    ((lastComplete older).map fun b => (b.last d).reference).all (·.sourceVersionRef == t.activeVersion) = true := by
  cases hb : lastComplete older with
  | none => rfl
  | some b => exact beq_iff_eq.mpr (h.row_version (hsub b (lastComplete_mem hb).1) (b.last_mem d))

/-! ## Cursors -/

/-- The cursor that Control issues for a page of a scan that is not its last. -/
def Plan.cursorAfter (d : Digests D) (plan : Plan D) (superseded : Option D) (n : Nat) (ns : List Nat) : ChangeCursor D where
  pendingCursor := ⟨plan.sourceVersionRef, plan.scanRef d, plan.scanEpoch, plan.scanBound, plan.pageLimit,
    (ns.length + 1) * plan.pageLimit⟩
  scanRef := plan.scanRef d
  scanEpoch := plan.scanEpoch
  pageRef := (plan.acceptedAfter d superseded n ns).pageRef
  checkpointRef := (plan.acceptedAfter d superseded n ns).checkpointRef
  sequence := n

theorem Plan.nextCursor_after (plan : Plan D) (superseded : Option D) (ns : List Nat) :
    (plan.pageAfter d superseded ns).nextCursor =
      let next := ns.length * plan.pageLimit + min plan.pageLimit (plan.changes.length - ns.length * plan.pageLimit)
      if next = plan.changes.length then none
      else some ⟨plan.sourceVersionRef, plan.scanRef d, plan.scanEpoch, plan.scanBound, plan.pageLimit, next⟩ := by
  cases ns with
  | nil => simp only [Plan.pageAfter, Plan.page, List.length_take, List.length_drop, List.length_nil, Nat.zero_mul]
  | cons n ns => simp only [Plan.pageAfter, Plan.page, List.length_take, List.length_drop, List.length_cons]

theorem Plan.acceptedCursor_more {plan : Plan D} {superseded : Option D} {n : Nat} {ns : List Nat}
    (hmore : (ns.length + 1) * plan.pageLimit < plan.changes.length) :
    acceptedCursor (plan.pageAfter d superseded ns) (plan.acceptedAfter d superseded n ns) =
      some (plan.cursorAfter d superseded n ns) := by
  have hmul : (ns.length + 1) * plan.pageLimit = ns.length * plan.pageLimit + plan.pageLimit := Nat.succ_mul _ _
  have hnext : ns.length * plan.pageLimit + min plan.pageLimit (plan.changes.length - ns.length * plan.pageLimit) =
      (ns.length + 1) * plan.pageLimit := by omega
  rw [acceptedCursor, Plan.nextCursor_after, hnext]
  simp only [if_neg (Nat.ne_of_lt hmore), Option.map_some, Plan.pageAfter_scanRef, Plan.pageAfter_scanEpoch]
  rfl

theorem Plan.acceptedCursor_last {plan : Plan D} {superseded : Option D} {ns : List Nat} (a : AcceptedChangePage D)
    (hoffset : ns.length * plan.pageLimit ≤ plan.changes.length)
    (hlast : plan.changes.length ≤ (ns.length + 1) * plan.pageLimit) :
    acceptedCursor (plan.pageAfter d superseded ns) a = none := by
  have hmul : (ns.length + 1) * plan.pageLimit = ns.length * plan.pageLimit + plan.pageLimit := Nat.succ_mul _ _
  have hnext : ns.length * plan.pageLimit + min plan.pageLimit (plan.changes.length - ns.length * plan.pageLimit) =
      plan.changes.length := by omega
  rw [acceptedCursor, Plan.nextCursor_after, hnext]
  simp only [if_true, Option.map_none]

/-- The pages of a suffix of the sequences are followed by a page, unless it is all of them. -/
theorem suffix_cases {seqs ns : List Nat} (h : ns <:+ seqs) : ns = seqs ∨ ∃ m, (m :: ns) <:+ seqs := by
  obtain ⟨front, rfl⟩ := h
  rcases List.eq_nil_or_concat front with rfl | ⟨front, m, rfl⟩
  · exact .inl rfl
  · exact .inr ⟨m, front, by simp⟩

theorem suffix_singleton (n : Nat) (ns : List Nat) : ∃ m, [m] <:+ (n :: ns) := by
  induction ns generalizing n with
  | nil => exact ⟨n, List.suffix_refl _⟩
  | cons k ks ih =>
    obtain ⟨m, hm⟩ := ih k
    exact ⟨m, hm.trans (List.suffix_cons n (k :: ks))⟩

end Plans

section Provider

variable {D : Type} [DecidableEq D] {d : Digests D} {pv : Provider} {s : Snapshot} {t : Tables D}
  {l : Legacy D d t.activeVersion} {scans older : List (Scan D)} {sc : Scan D}

/-! ## What the Provider plans -/

/-- What Control reads of a history. -/
def sourceOf (d : Digests D) (t : Tables D) (scans : List (Scan D)) : FileChangeSource D :=
  ⟨t.activeVersion, t.readHead, (lastComplete scans).map (·.baseline d)⟩

theorem History.baselineIsCurrentHead_eq (h : History d t l scans) {b : Scan D} (hb : lastComplete scans = some b) :
    baselineIsCurrentHead (sourceOf d t scans) (b.last d).reference = headComplete scans := by
  cases scans with
  | nil => nomatch hb
  | cons sc older =>
    have hmem : sc ∈ sc :: older := List.mem_cons_self ..
    show t.readHead.any _ = sc.complete
    rw [h.readHead_cons, Option.any_some]
    cases hc : sc.complete with
    | false =>
      have hopen : (sc.head d).complete = false := hc
      simp only [hopen, Bool.false_and]
    | true =>
      rw [lastComplete_cons_of_complete hc] at hb
      obtain rfl := Option.some.inj hb
      have hcomplete : (sc.head d).complete = true := hc
      simp only [Scan.head, hc, PageRow.reference, Scan.row_version (sc.last_mem d), Scan.row_scanRef (sc.last_mem d),
        Scan.row_scanEpoch (sc.last_mem d), beq_self_eq_true, Bool.and_self, Bool.true_and]
      exact beq_self_eq_true _

theorem History.changesOf_eq (h : History d t l scans) (observed : List Change) :
    changesOf (sourceOf d t scans) observed = planned d (headComplete scans) observed (lastComplete scans) := by
  rw [changesOf, show (sourceOf d t scans).completeBaseline = (lastComplete scans).map (·.baseline d) from rfl]
  cases hb : lastComplete scans with
  | none => rfl
  | some b =>
    have hhead := h.baselineIsCurrentHead_eq hb
    simp only [Option.map_some, Scan.baseline, planned, hhead]

/-! ## What the Provider proposes -/

/-- The Provider refuses the scan at once: it proposes no page. -/
def Provider.refuses (pv : Provider) (source : FileChangeSource D) (s : Snapshot) : Bool :=
  pv.excludes source s || decide (pv.scanBound < (changesOf source (pv.observe s)).1.length)

theorem excludes_of_admitted {source : FileChangeSource D} (h : pv.refuses source s = false) : pv.excludes source s = false :=
  (Bool.or_eq_false_iff.mp h).1

theorem refuses_congr {source source' : FileChangeSource D} (hbase : source.completeBaseline = source'.completeBaseline)
    (hchanges : changesOf source (pv.observe s) = changesOf source' (pv.observe s)) :
    pv.refuses source s = pv.refuses source' s := by
  simp only [Provider.refuses, Provider.excludes, deniedBySelection, hbase, hchanges]

/-- The scan of the observed files in one epoch. -/
def Provider.planIn (pv : Provider) (source : FileChangeSource D) (s : Snapshot) (epoch : D) (pageLimit : Nat) : Plan D :=
  ⟨source.versionRef, pv.scanBound, (changesOf source (pv.observe s)).1, (changesOf source (pv.observe s)).2, epoch, pageLimit⟩

/-- The digest of the scan that the Provider plans. -/
def Provider.scanRef (d : Digests D) (pv : Provider) (source : FileChangeSource D) (s : Snapshot) : D :=
  d.scan ⟨source.versionRef, pv.scanBound, (changesOf source (pv.observe s)).1, (changesOf source (pv.observe s)).2⟩

theorem readChanges_refused {source : FileChangeSource D} {cursor : Option (ChangeCursor D)} {limit : ChangeLimit}
    (h : pv.refuses source s = true) : readChanges d pv source s cursor limit = .genericDenied ∨
      readChanges d pv source s cursor limit = .scanBoundExceeded := by
  unfold readChanges
  split
  · exact .inl rfl
  · rename_i hdenied
    split
    · exact .inr rfl
    · rename_i hfiles
      simp only [Provider.refuses, Provider.excludes, Bool.or_eq_true, hdenied, decide_eq_true_eq, hfiles, or_false, false_or,
        Bool.false_eq_true] at h
      exact .inr (if_pos h)

theorem readChanges_planned {source : FileChangeSource D} {cursor : Option (ChangeCursor D)} {limit : ChangeLimit}
    (h : pv.refuses source s = false) :
    readChanges d pv source s cursor limit = match cursor with
      | none => propose (Plan.page d (pv.planIn source s (scanEpochOf d source (pv.scanRef d source s)).1
          ((headIsOf source (pv.scanRef d source s)).elim limit.value (·.pageLimit))) 0 none
          (scanEpochOf d source (pv.scanRef d source s)).2)
      | some c =>
        if !headAdmits source c then .invalidCheckpoint
        else if !cursorMatches pv source (pv.scanRef d source s) c.scanEpoch limit.value
          (changesOf source (pv.observe s)).1.length c.pendingCursor then .invalidCheckpoint
        else propose (Plan.page d (pv.planIn source s c.scanEpoch limit.value) c.pendingCursor.offset
          (some ⟨c.pageRef, c.checkpointRef, c.sequence⟩) none) := by
  simp only [Provider.refuses, Provider.excludes, Bool.or_eq_false_iff, decide_eq_false_iff_not] at h
  obtain ⟨⟨hdenied, hfiles⟩, hchanges⟩ := h
  unfold readChanges
  rw [if_neg (by simp [hdenied]), if_neg hfiles]
  simp only [if_neg hchanges]
  cases cursor with
  | none => rfl
  | some c => rfl

/-! ## Following the cursors -/

/-- The Provider's plan is the newest scan's. -/
structure Resumes (d : Digests D) (pv : Provider) (s : Snapshot) (t : Tables D) (sc : Scan D) (older : List (Scan D)) :
    Prop where
  plan_eq : changesOf (sourceOf d t (sc :: older)) (pv.observe s) = (sc.plan.changes, sc.plan.baselineRef)
  bound_eq : sc.plan.scanBound = pv.scanBound
  admitted : pv.refuses (sourceOf d t (sc :: older)) s = false

theorem Resumes.planIn_eq (hr : Resumes d pv s t sc older) (h : History d t l (sc :: older)) {epoch : D} {limit : Nat}
    (hepoch : epoch = sc.plan.scanEpoch) (hlimit : limit = sc.plan.pageLimit) :
    pv.planIn (sourceOf d t (sc :: older)) s epoch limit = sc.plan := by
  have hv : t.activeVersion = sc.plan.sourceVersionRef := (h.chain.version_eq (List.mem_cons_self ..)).symm
  rw [Provider.planIn, hr.plan_eq, hepoch, hlimit, ← hr.bound_eq]
  show Plan.mk t.activeVersion _ _ _ _ _ = _
  rw [hv]

theorem Resumes.scanRef_eq (hr : Resumes d pv s t sc older) (h : History d t l (sc :: older)) :
    pv.scanRef d (sourceOf d t (sc :: older)) s = sc.plan.scanRef d := by
  have hv : t.activeVersion = sc.plan.sourceVersionRef := (h.chain.version_eq (List.mem_cons_self ..)).symm
  rw [Provider.scanRef, hr.plan_eq, ← hr.bound_eq]
  show d.scan ⟨t.activeVersion, _, _, _⟩ = _
  rw [hv]
  rfl

/-- After a page of its scan, the Provider proposes the next one. -/
theorem Resumes.readChanges_next (hr : Resumes d pv s t sc older) (h : History d t l (sc :: older)) {n : Nat} {ns : List Nat}
    (hs : (n :: ns) <:+ (sc.newest :: sc.earlier)) (hmore : (ns.length + 1) * sc.plan.pageLimit < sc.plan.changes.length)
    {limit : ChangeLimit} (hlimit : limit.value = sc.plan.pageLimit) :
    readChanges d pv (sourceOf d t (sc :: older)) s (some (sc.plan.cursorAfter d sc.superseded n ns)) limit =
      .ok (sc.plan.pageAfter d sc.superseded (n :: ns)) := by
  have hmem : sc ∈ sc :: older := List.mem_cons_self ..
  have hv : sc.plan.sourceVersionRef = t.activeVersion := h.chain.version_eq hmem
  have hadmits : headAdmits (sourceOf d t (sc :: older)) (sc.plan.cursorAfter d sc.superseded n ns) = true := by
    have hrow : sc.plan.rowAfter d sc.superseded n ns ∈ t.pages :=
      h.row_mem hmem ((Plan.mem_rows ..).mpr ⟨n, ns, hs, rfl⟩)
    have hhead : t.pages.head? = some (sc.last d) := by
      rw [h.pages_eq, rowsOf_cons, Scan.rows_eq]
      rfl
    have hle : n ≤ sc.newest := h.descending.head_le hhead hrow
    show t.readHead.any _ = true
    rw [h.readHead_cons, Option.any_some]
    simp only [Scan.head, Plan.cursorAfter, sourceOf, hv, beq_self_eq_true, Bool.true_and]
    exact decide_eq_true hle
  have hone : 1 ≤ (ns.length + 1) * sc.plan.pageLimit := by
    have := limit.range.1
    exact Nat.mul_pos (Nat.succ_pos _) (by omega)
  have hmatches : cursorMatches pv (sourceOf d t (sc :: older)) (pv.scanRef d (sourceOf d t (sc :: older)) s)
      (sc.plan.cursorAfter d sc.superseded n ns).scanEpoch limit.value
      (changesOf (sourceOf d t (sc :: older)) (pv.observe s)).1.length
      (sc.plan.cursorAfter d sc.superseded n ns).pendingCursor = true := by
    rw [hr.scanRef_eq h, hr.plan_eq, hlimit]
    simp only [cursorMatches, Plan.cursorAfter, sourceOf, hv, hr.bound_eq, beq_self_eq_true, Bool.true_and,
      decide_eq_true_eq]
    exact ⟨hone, hmore⟩
  have hplan : pv.planIn (sourceOf d t (sc :: older)) s (sc.plan.cursorAfter d sc.superseded n ns).scanEpoch limit.value =
      sc.plan := hr.planIn_eq h rfl hlimit
  rw [readChanges_planned hr.admitted]
  simp only [hadmits, hmatches, Bool.not_true, Bool.false_eq_true, if_false, hplan]
  cases h.chain with
  | cons hf _ =>
    refine if_pos (Plan.page_valid hf.limit_range hf.bound_range hf.ordered ?_ (Nat.le_of_lt hmore) rfl)
    rw [hf.baseline_eq, hv]
    exact h.baseline_version fun b hb => List.mem_cons_of_mem _ hb

/-- While the newest scan is open, one more of its pages changes nothing for the Provider. -/
theorem Resumes.push (hr : Resumes d pv s t sc older) (h : History d t l (sc :: older)) {t' : Tables D}
    {l' : Legacy D d t'.activeVersion} {n : Nat} (h' : History d t' l' (sc.push n :: older)) (hopen : sc.complete = false)
    (hopen' : (sc.push n).complete = false) : Resumes d pv s t' (sc.push n) older := by
  have hchanges : changesOf (sourceOf d t' (sc.push n :: older)) (pv.observe s) =
      changesOf (sourceOf d t (sc :: older)) (pv.observe s) := by
    rw [h'.changesOf_eq, h.changesOf_eq, planned_open _ hopen, planned_open _ hopen']
  have hbaseline : (sourceOf d t' (sc.push n :: older)).completeBaseline = (sourceOf d t (sc :: older)).completeBaseline := by
    simp only [sourceOf, lastComplete_cons_of_not hopen, lastComplete_cons_of_not hopen']
  exact ⟨hchanges.trans hr.plan_eq, hr.bound_eq, (refuses_congr hbaseline hchanges).trans hr.admitted⟩

/-- The page after any page of the newest scan is accepted, again or as a new one. -/
theorem Resumes.accepts (hr : Resumes d pv s t sc older) (h : History d t l (sc :: older))
    (hdeletes : Retracted older sc.plan.changes) {n : Nat} {ns : List Nat} (hs : (n :: ns) <:+ (sc.newest :: sc.earlier))
    (hmore : (ns.length + 1) * sc.plan.pageLimit < sc.plan.changes.length) :
    ∃ (m : Nat) (t' : Tables D) (l' : Legacy D d t'.activeVersion) (sc' : Scan D),
      accept d t (sc.plan.pageAfter d sc.superseded (n :: ns)) =
        some (t', sc.plan.acceptedAfter d sc.superseded m (n :: ns)) ∧
      sc'.plan = sc.plan ∧ sc'.superseded = sc.superseded ∧ History d t' l' (sc' :: older) ∧
      (m :: n :: ns) <:+ (sc'.newest :: sc'.earlier) ∧
      (((n :: ns).length + 1) * sc.plan.pageLimit < sc.plan.changes.length → Resumes d pv s t' sc' older) := by
  rcases suffix_cases hs with heq | ⟨m, hm⟩
  · obtain ⟨rfl, rfl⟩ := List.cons.inj heq
    have hopen : sc.complete = false := decide_eq_false (Nat.not_le_of_lt hmore)
    have hpage : Retracted older (sc.plan.pageAfter d sc.superseded (sc.newest :: sc.earlier)).changes := by
      intro c hc
      rw [Plan.pageAfter_changes] at hc
      exact hdeletes c (List.mem_of_mem_drop (List.mem_of_mem_take hc))
    have h' := h.insert_next hopen hpage
    refine ⟨t.lastSequence + 1, t.insert d (sc.plan.pageAfter d sc.superseded (sc.newest :: sc.earlier))
      (sc.earlier.length + 2), l, sc.push (t.lastSequence + 1), h.accept_next hopen hpage, rfl, rfl, h',
      List.suffix_refl _, ?_⟩
    intro hmore'
    exact hr.push h h' hopen (decide_eq_false (Nat.not_le_of_lt hmore'))
  · exact ⟨m, t, l, sc, h.accept_again (List.mem_cons_self ..) hm, rfl, rfl, h, hm, fun _ => hr⟩

/-- A scan that the tables hold the first pages of goes on to its end. -/
theorem completes_from (left : Nat) {t : Tables D} {l : Legacy D d t.activeVersion} {sc : Scan D} {n : Nat} {ns : List Nat}
    (h : History d t l (sc :: older)) (hr : Resumes d pv s t sc older) (hdeletes : Retracted older sc.plan.changes)
    (hs : (n :: ns) <:+ (sc.newest :: sc.earlier)) (hmore : (ns.length + 1) * sc.plan.pageLimit < sc.plan.changes.length)
    (hleft : sc.plan.changes.length ≤ (ns.length + 1 + left) * sc.plan.pageLimit) {limit : ChangeLimit}
    (hlimit : limit.value = sc.plan.pageLimit) :
    Completes d pv s t (some (sc.plan.cursorAfter d sc.superseded n ns)) limit := by
  induction left generalizing t sc n ns with
  | zero => exact absurd hleft (Nat.not_le_of_lt hmore)
  | succ left ih =>
    have hpage := hr.readChanges_next h hs hmore hlimit
    have hleft' : sc.plan.changes.length ≤ ((n :: ns).length + 1 + left) * sc.plan.pageLimit := by
      rw [List.length_cons, Nat.add_right_comm _ 1 left, Nat.add_assoc _ left 1]
      exact hleft
    obtain ⟨m, t', l', sc', haccept, hplan, hsuper, h', hm, hr'⟩ := hr.accepts h hdeletes hs hmore
    by_cases hend : sc.plan.changes.length ≤ ((n :: ns).length + 1) * sc.plan.pageLimit
    · exact .last h.read_eq hpage haccept (Plan.acceptedCursor_last _ (Nat.le_of_lt hmore) hend)
    · have hmore' := Nat.lt_of_not_le hend
      have hvalue : limit.value = (sc.plan.pageAfter d sc.superseded (n :: ns)).pageLimit := by
        rw [Plan.pageAfter_pageLimit, hlimit]
      refine .more h.read_eq hpage haccept (Plan.acceptedCursor_more hmore') hvalue ?_
      rw [← hplan] at hdeletes hmore' hleft' hlimit ⊢
      rw [← hsuper]
      exact ih h' (hr' (hplan ▸ hmore')) hdeletes hm hmore' hleft' hlimit

/-! ## The first page -/

/-- A scan whose reference the newest scan has is that scan. -/
theorem resumes_of_scanRef (hadmitted : pv.refuses (sourceOf d t (sc :: older)) s = false)
    (href : sc.plan.scanRef d = pv.scanRef d (sourceOf d t (sc :: older)) s) : Resumes d pv s t sc older := by
  have hdoc := d.scan_inj href
  obtain ⟨-, hbound, hchanges, hbaseline⟩ := ScanDocument.mk.inj hdoc
  exact ⟨Prod.ext hchanges.symm hbaseline.symm, hbound, hadmitted⟩

/-- The head is a page of the Provider's scan, or the Provider starts a new epoch after it. -/
theorem History.headIsOf_cases (h : History d t l scans) (ref : D) :
    (∃ sc older, scans = sc :: older ∧ sc.plan.scanRef d = ref ∧ headIsOf (sourceOf d t scans) ref = some (sc.head d)) ∨
      (headIsOf (sourceOf d t scans) ref = none ∧ ∀ sc older, scans = sc :: older → sc.plan.scanRef d ≠ ref) := by
  cases scans with
  | nil =>
    refine .inr ⟨Option.filter_eq_none_iff.mpr fun head hhead => ?_, nofun⟩
    have hne := h.readHead_version_of_nil hhead
    simp [sourceOf, hne]
  | cons sc older =>
    have hhead : (sourceOf d t (sc :: older)).scanHead = some (sc.head d) := h.readHead_cons
    have hv : sc.plan.sourceVersionRef = t.activeVersion := h.chain.version_eq (List.mem_cons_self ..)
    by_cases href : sc.plan.scanRef d = ref
    · refine .inl ⟨sc, older, rfl, href, ?_⟩
      rw [headIsOf, hhead, Option.filter_some]
      exact if_pos (by simp [sourceOf, hv, Scan.head, href])
    · refine .inr ⟨?_, fun sc' older' heq => ?_⟩
      · rw [headIsOf, hhead, Option.filter_some]
        exact if_neg (by simp [Scan.head, href])
      · obtain ⟨rfl, rfl⟩ := List.cons.inj heq
        exact href

theorem History.scanEpochOf_new (h : History d t l scans) {ref : D} (hnone : headIsOf (sourceOf d t scans) ref = none) :
    scanEpochOf d (sourceOf d t scans) ref =
      (epochAfter d t.activeVersion ref t.pages, t.pages.head?.map (·.scanEpoch)) := by
  have hrow := h.readHead_row
  have hepochs := congrArg (Option.map EpochPredecessor.scanEpoch) hrow
  rw [Option.map_map, Option.map_map] at hepochs
  simp only [scanEpochOf, hnone]
  refine Prod.ext ?_ hepochs
  show d.epoch ⟨t.activeVersion, ref, t.readHead.map _⟩ = _
  rw [hrow]
  rfl

/-- The Provider's first page, when the newest scan is its own. -/
theorem Resumes.readChanges_first (hr : Resumes d pv s t sc older) (h : History d t l (sc :: older)) {limit : ChangeLimit} :
    readChanges d pv (sourceOf d t (sc :: older)) s none limit = propose (sc.plan.pageAfter d sc.superseded []) := by
  have href := hr.scanRef_eq h
  have hhead : headIsOf (sourceOf d t (sc :: older)) (pv.scanRef d (sourceOf d t (sc :: older)) s) = some (sc.head d) := by
    rcases h.headIsOf_cases (pv.scanRef d (sourceOf d t (sc :: older)) s) with ⟨sc', older', heq, -, hhead⟩ | ⟨-, hne⟩
    · obtain ⟨rfl, rfl⟩ := List.cons.inj heq
      exact hhead
    · exact absurd href.symm (hne sc older rfl)
  rw [readChanges_planned hr.admitted]
  simp only [scanEpochOf, hhead, Option.elim_some]
  rw [hr.planIn_eq h (show (sc.head d).scanEpoch = _ from rfl) (show (sc.head d).pageLimit = _ from rfl)]
  rfl

/-- The scan that the Provider starts anew, with its first page in the tables. -/
def Provider.newScan (d : Digests D) (pv : Provider) (t : Tables D) (scans : List (Scan D)) (s : Snapshot) (limit : Nat) :
    Scan D where
  plan := pv.planIn (sourceOf d t scans) s (epochAfter d t.activeVersion (pv.scanRef d (sourceOf d t scans) s) t.pages) limit
  superseded := t.pages.head?.map (·.scanEpoch)
  newest := t.lastSequence + 1
  earlier := []

/-- The first page of the scan that the Provider starts anew. -/
def Provider.newPage (d : Digests D) (pv : Provider) (t : Tables D) (scans : List (Scan D)) (s : Snapshot) (limit : Nat) :
    ChangePage D :=
  (pv.newScan d t scans s limit).plan.pageAfter d (pv.newScan d t scans s limit).superseded []

theorem History.readChanges_new (h : History d t l scans) (hadmitted : pv.refuses (sourceOf d t scans) s = false)
    (hnone : headIsOf (sourceOf d t scans) (pv.scanRef d (sourceOf d t scans) s) = none) {limit : ChangeLimit} :
    readChanges d pv (sourceOf d t scans) s none limit =
      propose (pv.newPage d t scans s limit.value) := by
  rw [readChanges_planned hadmitted]
  simp only [hnone, h.scanEpochOf_new hnone, Option.elim_none]
  rfl

/-- The Provider's new scan follows those in the tables, if it is over the latest complete
    scan and its deletes retract upserts of that. -/
theorem History.newScan_follows (h : History d t l scans) (hadmitted : pv.refuses (sourceOf d t scans) s = false)
    (hbaseline : (changesOf (sourceOf d t scans) (pv.observe s)).2 = (lastComplete scans).map fun b => (b.last d).reference)
    {limit : ChangeLimit}
    (hdeletes : Retracted scans ((changesOf (sourceOf d t scans) (pv.observe s)).1.take limit.value)) :
    (pv.newScan d t scans s limit.value).Follows d t.activeVersion l.pages scans where
  version_eq := rfl
  limit_range := limit.range
  bound_range := pv.bound_range
  fits := by
    simp only [Provider.refuses, Bool.or_eq_false_iff, decide_eq_false_iff_not] at hadmitted
    exact Nat.le_of_not_lt hadmitted.2
  ordered := by
    show canonicalOrder (changesOf (sourceOf d t scans) (pv.observe s)).1 = true
    rw [h.changesOf_eq]
    exact h.planned_ordered
  epoch_eq := by
    rw [← h.pages_eq]
    rfl
  superseded_eq := by
    rw [← h.pages_eq]
    rfl
  baseline_eq := hbaseline
  unfinished := nofun
  deletes := by
    rw [show Scan.taken _ = limit.value from Nat.one_mul _]
    exact hdeletes

/-- A new scan that the tables accept does not repeat the newest one, whose own baseline is
    older than the latest complete scan. -/
theorem History.not_repeated (h : History d t l scans) {observed : List Change} {p : ChangePage D}
    (hv : p.sourceVersionRef = t.activeVersion) (hbase : p.baselineRef = (changesOf (sourceOf d t scans) observed).2)
    (hexpected : (t.latestComplete t.activeVersion).map (·.pageRef) = (t.baselineOf p).map (·.pageRef)) {b : Scan D}
    (hb : lastComplete scans = some b) (hsame : unchanged b.plan.changes observed = true) : headComplete scans = false := by
  cases scans with
  | nil => nomatch hb
  | cons sc older =>
    show sc.complete = false
    by_contra hc
    rw [Bool.not_eq_false] at hc
    rw [lastComplete_cons_of_complete hc] at hb
    obtain rfl := Option.some.inj hb
    have hmem : sc ∈ sc :: older := List.mem_cons_self ..
    have hsub : ∀ b ∈ older, b ∈ sc :: older := fun b hb => List.mem_cons_of_mem _ hb
    cases h.chain with
    | cons hf _ =>
      have hown : p.baselineRef = (lastComplete older).map fun b => (b.last d).reference := by
        rw [hbase, h.changesOf_eq, lastComplete_cons_of_complete hc, ← hf.baseline_eq]
        simp only [planned, if_pos hsame, show headComplete (sc :: older) = true from hc, if_true]
      rw [h.latestComplete_eq, lastComplete_cons_of_complete hc, h.baselineOf_eq hsub hv hown] at hexpected
      obtain ⟨r, hr, href⟩ := Option.map_eq_some_iff.mp hexpected.symm
      obtain ⟨b, hb, rfl⟩ := Option.map_eq_some_iff.mp hr
      obtain ⟨hbmem, -⟩ := lastComplete_mem hb
      have heq : b.last d = sc.last d :=
        h.row_inj (h.row_mem hmem (sc.last_mem d)) (h.row_version hmem (sc.last_mem d))
          (h.row_mem (hsub b hbmem) (b.last_mem d)) href
      have hdesc := h.descending
      rw [h.pages_eq, rowsOf_cons] at hdesc
      have hlt := (List.pairwise_append.mp hdesc).2.2 (sc.last d) (sc.last_mem d) (b.last d)
        (mem_rowsOf.mpr (.inl ⟨b, hbmem, b.last_mem d⟩))
      rw [heq] at hlt
      exact absurd hlt (Nat.lt_irrefl _)

end Provider

end ContextEngine.Adapters.FileSource
