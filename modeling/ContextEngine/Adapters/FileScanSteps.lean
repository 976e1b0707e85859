/-
  ContextEngine.Adapters.FileScanSteps — what one accepted page does to a history of scans.

  Proved, of tables with a history:
  - `History.accept_again`: every page of every scan is accepted again, as a replay.
  - `History.accept_next`: the page after the newest one is accepted, if its deletes retract
    upserts of the scan's baseline.
  - `History.accept_first`: the first page of a new scan is accepted, if the scan follows
    those in the tables.
  - `History.insert_next` / `History.insert_first`: the tables then have a history again.
-/

import ContextEngine.Adapters.FileHistory

namespace ContextEngine.Adapters.FileSource

open ContextEngine.Python ContextEngine.Runtime ContextEngine.Control

theorem sum_filter_add_le {α : Type} {keep : α → Bool} {f : α → Nat} {xs : List α} {a : α} (ha : a ∈ xs)
    (hkeep : keep a = false) : ((xs.filter keep).map f).sum + f a ≤ (xs.map f).sum := by
  induction xs with
  | nil => nomatch ha
  | cons b xs ih =>
    simp only [List.filter_cons, List.map_cons, List.sum_cons]
    rcases List.mem_cons.mp ha with rfl | ha
    · have hle : ((xs.filter keep).map f).sum ≤ (xs.map f).sum := (List.filter_sublist.map f).sum_le_sum (by simp)
      rw [if_neg (by simp [hkeep])]
      omega
    · have hrest := ih ha
      split
      · simp only [List.map_cons, List.sum_cons]
        omega
      · omega

section Pages

variable {D : Type} {d : Digests D} {t : Tables D} {l : Legacy D d t.activeVersion} {scans older : List (Scan D)}
  {sc : Scan D} {plan : Plan D} {superseded : Option D} {n : Nat} {ns : List Nat}

theorem Plan.pageAfter_first_or_next :
    (plan.pageAfter d superseded ns).predecessor.isNone = true ∨
      (plan.pageAfter d superseded ns).supersededScanEpoch.isNone = true := by
  cases ns with
  | nil => exact .inl rfl
  | cons n ns => exact .inr rfl

theorem Scan.rows_bound (sc : Scan D) : (sc.rows d).all (·.scanBound == sc.plan.scanBound) = true :=
  List.all_eq_true.mpr fun _ hr => beq_iff_eq.mpr (Scan.row_scanBound hr)

/-! ## The tables with a new page -/

/-- The tables with a new page have the history that its row continues. -/
theorem History.insert (h : History d t l scans) {p : ChangePage D} {ordinal : Nat} {scans' : List (Scan D)}
    (hpages : rowsOf d l.pages scans' = p.row d ordinal (t.lastSequence + 1) :: rowsOf d l.pages scans)
    (hchain : Chain d t.activeVersion l.pages scans') : History d (t.insert d p ordinal) l scans' := by
  refine ⟨?_, hchain, ?_, ?_⟩
  · show _ :: t.pages = _
    rw [hpages, h.pages_eq]
  · refine List.pairwise_cons.mpr ⟨fun r hr => ?_, h.descending⟩
    exact Nat.lt_succ_of_le (h.bounded r hr)
  · intro r hr
    rcases List.mem_cons.mp hr with rfl | hr
    · exact Nat.le_refl _
    · exact Nat.le_succ_of_le (h.bounded r hr)

/-- The scan with one more page. -/
def Scan.push (sc : Scan D) (n : Nat) : Scan D := { sc with newest := n, earlier := sc.newest :: sc.earlier }

theorem Scan.Follows.push {version : UUID} {base : List (PageRow D)} (hf : sc.Follows d version base older)
    (hopen : sc.complete = false)
    (hdeletes : Retracted older (sc.plan.pageAfter d sc.superseded (sc.newest :: sc.earlier)).changes) (n : Nat) :
    (sc.push n).Follows d version base older where
  version_eq := hf.version_eq
  limit_range := hf.limit_range
  bound_range := hf.bound_range
  fits := hf.fits
  ordered := hf.ordered
  epoch_eq := hf.epoch_eq
  superseded_eq := hf.superseded_eq
  baseline_eq := hf.baseline_eq
  unfinished _ := Nat.lt_of_not_le (of_decide_eq_false hopen)
  deletes := by
    intro c hc
    have htaken : (sc.push n).taken = sc.taken + sc.plan.pageLimit := Nat.succ_mul _ _
    rw [htaken, show (sc.push n).plan = sc.plan from rfl, List.take_add, List.mem_append] at hc
    rcases hc with hc | hc
    · exact hf.deletes c hc
    · refine hdeletes c ?_
      rw [Plan.pageAfter_changes]
      exact hc

/-- The tables with the next page of the newest scan. -/
theorem History.insert_next (h : History d t l (sc :: older)) (hopen : sc.complete = false)
    (hdeletes : Retracted older (sc.plan.pageAfter d sc.superseded (sc.newest :: sc.earlier)).changes) :
    History d (t.insert d (sc.plan.pageAfter d sc.superseded (sc.newest :: sc.earlier)) (sc.earlier.length + 2)) l
      (sc.push (t.lastSequence + 1) :: older) := by
  cases h.chain with
  | cons hf hc =>
    refine h.insert ?_ (.cons (hf.push hopen hdeletes _) hc)
    rw [rowsOf_cons, rowsOf_cons]
    rfl

/-- The tables with the first page of a new scan. -/
theorem History.insert_first (h : History d t l scans)
    (hf : (Scan.mk plan superseded (t.lastSequence + 1) []).Follows d t.activeVersion l.pages scans) :
    History d (t.insert d (plan.pageAfter d superseded []) 1) l (⟨plan, superseded, t.lastSequence + 1, []⟩ :: scans) := by
  refine h.insert ?_ (.cons hf h.chain)
  rw [rowsOf_cons]
  rfl

end Pages

section Steps

variable {D : Type} [DecidableEq D] {d : Digests D} {t : Tables D} {l : Legacy D d t.activeVersion}
  {scans older : List (Scan D)} {sc : Scan D} {plan : Plan D} {superseded : Option D} {n : Nat} {ns : List Nat}

/-- What Control answers for a page of a scan. -/
def Plan.acceptedAfter (d : Digests D) (plan : Plan D) (superseded : Option D) (n : Nat) (ns : List Nat) :
    AcceptedChangePage D :=
  ⟨d.page (plan.pageAfter d superseded ns), d.checkpoint n (d.page (plan.pageAfter d superseded ns)), n⟩

/-- What is left to show of a page of a scan: its own bound and its deletes. -/
theorem Scan.Follows.admissible (h : History d t l scans) (hsub : ∀ b ∈ older, b ∈ scans)
    (hf : sc.Follows d t.activeVersion l.pages older)
    (hbound : (t.scan t.activeVersion (sc.plan.scanRef d) sc.plan.scanEpoch).all (·.scanBound == sc.plan.scanBound) = true)
    (hcount : changeCount ((t.scan t.activeVersion (sc.plan.scanRef d) sc.plan.scanEpoch).filter
      (·.pageRef != d.page (sc.plan.pageAfter d sc.superseded ns))) +
        (sc.plan.pageAfter d sc.superseded ns).changes.length ≤ sc.plan.changes.length)
    (hdeletes : Retracted older (sc.plan.pageAfter d sc.superseded ns).changes) :
    Admissible d t (sc.plan.pageAfter d sc.superseded ns) := by
  have hv : (sc.plan.pageAfter d sc.superseded ns).sourceVersionRef = t.activeVersion := by
    rw [Plan.pageAfter_version, hf.version_eq]
  have hbase : (sc.plan.pageAfter d sc.superseded ns).baselineRef =
      (lastComplete older).map fun b => (b.last d).reference := by rw [Plan.pageAfter_baselineRef, hf.baseline_eq]
  refine ⟨?_, ?_, ?_, ?_, ?_, (h.deletes_iff hsub hv hbase).mpr hdeletes, ?_, ?_, Plan.pageAfter_first_or_next, hv.symm⟩
  · rw [Plan.pageAfter_scanBound]
    exact hf.bound_range
  · rw [hv, Plan.pageAfter_scanRef, Plan.pageAfter_scanEpoch, Plan.pageAfter_scanBound]
    exact hbound
  · rw [hv, Plan.pageAfter_scanRef, Plan.pageAfter_scanEpoch, Plan.pageAfter_scanBound]
    exact hcount.trans hf.fits
  · rw [hv, hbase]
    cases hb : lastComplete older with
    | none => rfl
    | some b => exact beq_iff_eq.mpr (h.row_version (hsub b (lastComplete_mem hb).1) (b.last_mem d))
  · rw [h.baselineOf_eq hsub hv hbase, hbase]
    simp
  · rw [Plan.pageAfter_pageLimit, Plan.pageAfter_changes]
    exact ⟨hf.limit_range.1, hf.limit_range.2, List.length_take_le _ _⟩
  · exact List.all_eq_true.mpr fun c _ => acceptsPath_of_import c.path

/-! ## Replays -/

/-- Every page of every scan is accepted again. -/
theorem History.accept_again (h : History d t l scans) (hsc : sc ∈ scans) (hs : (n :: ns) <:+ (sc.newest :: sc.earlier)) :
    accept d t (sc.plan.pageAfter d sc.superseded ns) = some (t, sc.plan.acceptedAfter d sc.superseded n ns) := by
  obtain ⟨older, hsuffix, hf, -⟩ := h.chain.follows hsc
  have hsub : ∀ b ∈ older, b ∈ scans := fun b hb => hsuffix.subset (List.mem_cons_of_mem _ hb)
  have hrow : sc.plan.rowAfter d sc.superseded n ns ∈ sc.rows d := (Plan.mem_rows ..).mpr ⟨n, ns, hs, rfl⟩
  have hmem := h.row_mem hsc hrow
  have hversion := h.row_version hsc hrow
  have hv : (sc.plan.pageAfter d sc.superseded ns).sourceVersionRef = t.activeVersion := hversion
  have hbinding : (sc.plan.rowAfter d sc.superseded n ns).binding = some (sc.plan.baselineRef.map (·.pageRef)) :=
    Scan.row_binding hrow
  refine accept_replay rfl (h.find_row hmem hversion (beq_self_eq_true _) fun b hb => beq_iff_eq.mp hb) ?_ ?_ ?_
  · refine h.find_row hmem hversion ?_ ?_
    · rw [hbinding, hversion, hv]
      simp [Plan.rowAfter, ChangePage.row]
    · intro b hb
      simp only [Bool.and_eq_true, beq_iff_eq] at hb
      exact hb.1.2
  · refine hbinding.trans ?_
    rw [h.baselineOf_eq hsub hv (by rw [Plan.pageAfter_baselineRef, hf.baseline_eq]), hf.baseline_eq, Option.map_map,
      Option.map_map]
    rfl
  · refine hf.admissible h hsub ?_ ?_ ?_
    · rw [h.scan_eq hsc]
      exact sc.rows_bound
    · rw [h.scan_eq hsc]
      have hself : ((sc.plan.rowAfter d sc.superseded n ns).pageRef != d.page (sc.plan.pageAfter d sc.superseded ns)) = false := by
        simp [Plan.rowAfter, ChangePage.row]
      refine Nat.le_trans (sum_filter_add_le hrow hself) ?_
      refine Nat.le_trans (Nat.le_of_eq (sc.plan.changeCount_rows d sc.superseded (sc.newest :: sc.earlier))) ?_
      exact List.length_take_le' _ _
    · intro c hc
      exact hf.deletes c (Scan.mem_changes.mp ⟨_, hrow, hc⟩)

/-! ## New pages -/

/-- A page after the newest one is not in the tables. -/
theorem History.next_not_mem (h : History d t l scans) (hsc : sc ∈ scans) :
    t.pages.find? (·.pageRef == d.page (sc.plan.pageAfter d sc.superseded (sc.newest :: sc.earlier))) = none := by
  refine List.find?_eq_none.mpr fun r hr href => ?_
  obtain ⟨n, hs, -⟩ := h.row_of_page hsc hr (beq_iff_eq.mp href)
  have hlen := hs.length_le
  simp only [List.length_cons] at hlen
  omega

/-- The page after the newest one is accepted, if its deletes retract upserts. -/
theorem History.accept_next (h : History d t l (sc :: older)) (hopen : sc.complete = false)
    (hdeletes : Retracted older (sc.plan.pageAfter d sc.superseded (sc.newest :: sc.earlier)).changes) :
    accept d t (sc.plan.pageAfter d sc.superseded (sc.newest :: sc.earlier)) =
      some (t.insert d (sc.plan.pageAfter d sc.superseded (sc.newest :: sc.earlier)) (sc.earlier.length + 2),
        sc.plan.acceptedAfter d sc.superseded (t.lastSequence + 1) (sc.newest :: sc.earlier)) := by
  have hmem : sc ∈ sc :: older := List.mem_cons_self ..
  have hsub : ∀ b ∈ older, b ∈ sc :: older := fun b hb => List.mem_cons_of_mem _ hb
  have hrows := h.scan_eq hmem
  cases h.chain with
  | cons hf hc =>
    have hv : (sc.plan.pageAfter d sc.superseded (sc.newest :: sc.earlier)).sourceVersionRef = t.activeVersion := by
      rw [Plan.pageAfter_version, hf.version_eq]
    have hscan : t.scan (sc.plan.pageAfter d sc.superseded (sc.newest :: sc.earlier)).sourceVersionRef
        (sc.plan.pageAfter d sc.superseded (sc.newest :: sc.earlier)).scanRef
        (sc.plan.pageAfter d sc.superseded (sc.newest :: sc.earlier)).scanEpoch = sc.rows d := by
      rw [hv, Plan.pageAfter_scanRef, Plan.pageAfter_scanEpoch, hrows]
    -- The pages so far and the next one hold the changes up to its end.
    have hcount : changeCount (sc.rows d) + (sc.plan.pageAfter d sc.superseded (sc.newest :: sc.earlier)).changes.length ≤
        sc.plan.changes.length := by
      rw [Plan.pageAfter_changes, show changeCount (sc.rows d) = _ from
        sc.plan.changeCount_rows d sc.superseded (sc.newest :: sc.earlier), ← List.length_append, ← List.take_add]
      exact List.length_take_le' _ _
    have hincomplete : (sc.rows d).all (!·.complete) = true := by
      refine List.all_eq_true.mpr fun r hr => ?_
      rcases List.mem_cons.mp hr with rfl | hr
      · rw [show (sc.plan.rowAfter d sc.superseded sc.newest sc.earlier).complete = sc.complete from hf.last_complete, hopen]
        rfl
      · rw [hf.earlier_incomplete hr]
        rfl
    refine (accept_new_iff (h.next_not_mem hmem)).mpr ⟨?_, sc.earlier.length + 2, ⟨?_, ?_, ?_, ?_, ?_, ?_, ?_⟩, rfl, rfl⟩
    · refine hf.admissible h hsub ?_ ?_ hdeletes
      · rw [hrows]
        exact sc.rows_bound
      · rw [hrows]
        have hle : changeCount ((sc.rows d).filter
            (·.pageRef != d.page (sc.plan.pageAfter d sc.superseded (sc.newest :: sc.earlier)))) ≤ changeCount (sc.rows d) :=
          (List.filter_sublist.map _).sum_le_sum (by simp)
        omega
    · obtain ⟨m, hm⟩ := sc.plan.find_initial d sc.superseded sc.newest sc.earlier
      have hfirst : sc.plan.rowAfter d sc.superseded m [] ∈ sc.rows d := List.mem_of_find?_eq_some hm
      show ((t.scan _ _ _).find? (·.pageOrdinal == 1)).bind (·.binding) = _
      rw [hscan, show (sc.rows d).find? _ = _ from hm, Option.bind_some, Scan.row_binding hfirst,
        h.baselineOf_eq hsub hv (by rw [Plan.pageAfter_baselineRef, hf.baseline_eq]), hf.baseline_eq, Option.map_map,
        Option.map_map]
      rfl
    · rw [hscan]
      exact (hcount.trans hf.fits).trans hf.bound_range.2
    · have hhead : t.pages.head? = some (sc.last d) := by rw [h.pages_eq, rowsOf_cons, Scan.rows_eq]; rfl
      show t.pages.head?.any _ = true
      rw [hhead]
      simp [Scan.last, Plan.rowAfter, ChangePage.row]
    · have hlast : (sc.rows d).head? = some (sc.last d) := rfl
      rw [Tables.nextOrdinal, hscan, hlast]
      exact if_pos ⟨rfl, hincomplete⟩
    · exact nofun
    · rw [Plan.pageAfter_baselineRef, hf.baseline_eq]
      intro hpage
      obtain ⟨ref, href, hpage⟩ := Option.map_eq_some_iff.mp hpage
      obtain ⟨b, hb, rfl⟩ := Option.map_eq_some_iff.mp href
      have hbmem := hsub b (lastComplete_mem hb).1
      have hnone := List.find?_eq_none.mp (h.next_not_mem hmem) _ (h.row_mem hbmem (b.last_mem d))
      exact hnone (beq_iff_eq.mpr hpage)
    · rw [hv, Plan.pageAfter_scanEpoch, h.epoch_eq hmem]
      refine List.all_eq_true.mpr fun r hr => bne_iff_ne.mpr ?_
      have hle := ((sc.plan.rows_ordinals d sc.superseded (sc.newest :: sc.earlier)).2 r hr).2
      simp only [List.length_cons] at hle
      omega

theorem History.page_not_mem (h : History d t l scans) {p : ChangePage D} {ref : D} (hv : p.sourceVersionRef = t.activeVersion)
    (hepoch : p.scanEpoch = epochAfter d t.activeVersion ref t.pages) : t.pages.find? (·.pageRef == d.page p) = none := by
  refine List.find?_eq_none.mpr fun r hr href => ?_
  obtain ⟨sc, hsc, n, ns, -, -, hp⟩ := h.page_of_row hr (beq_iff_eq.mp href) hv
  have hrows := h.epoch_eq hsc
  rw [← sc.plan.pageAfter_scanEpoch d sc.superseded ns, ← hp, hepoch, h.fresh] at hrows
  nomatch hrows

/-- The head has another epoch than a scan that follows it. -/
theorem History.head_epoch_ne (h : History d t l scans) (ref : D) :
    t.pages.head?.map (·.scanEpoch) ≠ some (epochAfter d t.activeVersion ref t.pages) := by
  intro heq
  obtain ⟨r, hr, hepoch⟩ := Option.map_eq_some_iff.mp heq
  have hmem : r ∈ t.pages := List.mem_of_mem_head? hr
  by_cases hv : r.sourceVersionRef = t.activeVersion
  · have hin : r ∈ t.epoch t.activeVersion (epochAfter d t.activeVersion ref t.pages) :=
      List.mem_filter.mpr ⟨hmem, by simp [hv, hepoch]⟩
    rw [h.fresh] at hin
    nomatch hin
  · -- A page of an older version digests that version in its epoch.
    rw [h.pages_eq, mem_rowsOf] at hmem
    obtain ⟨sc, hsc, hrow⟩ | hbase := hmem
    · exact hv (h.row_version hsc hrow)
    · obtain ⟨doc, hdoc, hversion⟩ := l.epoch_digest r hbase
      have hsame := congrArg EpochDocument.sourceVersionRef (d.epoch_inj (hdoc.symm.trans hepoch))
      exact hv (hversion.symm.trans hsame)

/-- The first page of a scan that follows those in the tables is accepted. -/
theorem History.accept_first (h : History d t l scans)
    (hf : (Scan.mk plan superseded n []).Follows d t.activeVersion l.pages scans) :
    accept d t (plan.pageAfter d superseded []) =
      some (t.insert d (plan.pageAfter d superseded []) 1, plan.acceptedAfter d superseded (t.lastSequence + 1) []) := by
  have hv : (plan.pageAfter d superseded []).sourceVersionRef = t.activeVersion := hf.version_eq
  have hepoch : plan.scanEpoch = epochAfter d t.activeVersion (plan.scanRef d) t.pages := by
    rw [h.pages_eq]
    exact hf.epoch_eq
  have hscan : t.scan t.activeVersion (plan.scanRef d) plan.scanEpoch = [] := by rw [hepoch, h.scan_fresh]
  have hscan' : t.scan (plan.pageAfter d superseded []).sourceVersionRef (plan.pageAfter d superseded []).scanRef
      (plan.pageAfter d superseded []).scanEpoch = [] := by
    rw [hv, Plan.pageAfter_scanRef, Plan.pageAfter_scanEpoch, hscan]
  have hbase : (plan.pageAfter d superseded []).baselineRef = (lastComplete scans).map fun b => (b.last d).reference :=
    hf.baseline_eq
  have hnot := h.page_not_mem (p := plan.pageAfter d superseded []) hv hepoch
  have hlen : (plan.pageAfter d superseded []).changes.length ≤ plan.changes.length := by
    rw [Plan.pageAfter_changes]
    simp
  have hsuperseded : superseded = t.pages.head?.map (·.scanEpoch) := by
    rw [h.pages_eq]
    exact hf.superseded_eq
  refine (accept_new_iff hnot).mpr ⟨?_, 1, ⟨?_, ?_, ?_, ?_, ?_, ?_, ?_⟩, rfl, rfl⟩
  · refine hf.admissible h (fun b hb => hb) ?_ ?_ ?_
    · rw [hscan]
      rfl
    · rw [hscan, List.filter_nil]
      show 0 + _ ≤ _
      rw [Nat.zero_add]
      exact hlen
    · intro c hc
      refine hf.deletes c ?_
      rw [Plan.pageAfter_changes] at hc
      simpa [Scan.taken] using hc
  · show some ((t.latestComplete (plan.pageAfter d superseded []).sourceVersionRef).map (·.pageRef)) = _
    rw [h.baselineOf_eq (fun b hb => hb) hv hbase, hv, h.latestComplete_eq]
  · rw [hscan']
    show 0 + _ ≤ _
    rw [Nat.zero_add]
    exact (hlen.trans hf.fits).trans hf.bound_range.2
  · exact beq_iff_eq.mpr hsuperseded
  · rw [Tables.nextOrdinal, hscan']
    rfl
  · show superseded ≠ some plan.scanEpoch
    rw [hsuperseded, hepoch]
    exact h.head_epoch_ne _
  · rw [hbase]
    intro hpage
    obtain ⟨ref, href, hpage⟩ := Option.map_eq_some_iff.mp hpage
    obtain ⟨b, hb, rfl⟩ := Option.map_eq_some_iff.mp href
    have hnone := List.find?_eq_none.mp hnot _ (h.row_mem (lastComplete_mem hb).1 (b.last_mem d))
    exact hnone (beq_iff_eq.mpr hpage)
  · rw [hv, Plan.pageAfter_scanEpoch, hepoch, h.fresh]
    rfl

end Steps

end ContextEngine.Adapters.FileSource
