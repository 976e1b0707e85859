/-
  ContextEngine.Adapters.FileSourceProofs — which scans of a directory the accept function
  lets the Provider finish.

  Proved:
  - `History.accepted`: an accepted page of any Provider is in the tables as a page of one of
    their scans, and leaves them with a history.
  - `Reachable.history`: so the tables of every reachable state hold a history of scans.
  - `rescan_completes_iff`: in every reachable state, a scan of a directory goes through to its
    end unless it is wedged. It is wedged when the files are those of the latest complete
    scan, and that scan has more entries than the bound now allows, or is the head but had
    another bound, or is not the head and itself recorded a delete; and when the files and
    the deletes of those that are gone are together more than the bound.
-/

import ContextEngine.Adapters.FileScanPlans

namespace ContextEngine.Adapters.FileSource

open ContextEngine.Python ContextEngine.Runtime ContextEngine.Control

section Pages

variable {D : Type} {d : Digests D} {t t' : Tables D} {l : Legacy D d t.activeVersion} {scans : List (Scan D)} {sc : Scan D}
  {p : ChangePage D} {a : AcceptedChangePage D}

/-- What an accepted page leaves: it is a page of a scan of the tables, and they were as they
    are or that scan is their newest. -/
structure Accepted (d : Digests D) (t : Tables D) (scans : List (Scan D)) (p : ChangePage D) (t' : Tables D)
    (a : AcceptedChangePage D) (scans' : List (Scan D)) (sc : Scan D) (n : Nat) (ns : List Nat) : Prop where
  mem : sc ∈ scans'
  suffix : (n :: ns) <:+ (sc.newest :: sc.earlier)
  page_eq : p = sc.plan.pageAfter d sc.superseded ns
  accepted_eq : a = sc.plan.acceptedAfter d sc.superseded n ns
  keeps : ∀ r ∈ t.pages, r ∈ t'.pages
  scans_eq : (t' = t ∧ scans' = scans) ∨ ∃ older, scans' = sc :: older ∧ lastComplete older = lastComplete scans

theorem Accepted.issued {l' : Legacy D d t'.activeVersion} {scans' : List (Scan D)} {n : Nat} {ns : List Nat}
    (hacc : Accepted d t scans p t' a scans' sc n ns) (h' : History d t' l' scans') {c : ChangeCursor D}
    (hcursor : acceptedCursor p a = some c) : Issued d t' c := by
  have hrow : sc.plan.rowAfter d sc.superseded n ns ∈ sc.rows d := (Plan.mem_rows ..).mpr ⟨n, ns, hacc.suffix, rfl⟩
  refine ⟨p, sc.plan.rowAfter d sc.superseded n ns, h'.row_mem hacc.mem hrow, congrArg d.page hacc.page_eq.symm, ?_⟩
  rw [← hcursor, hacc.accepted_eq]
  rfl

theorem change_eq_of_path {changes : List Change} (h : canonicalOrder changes = true) {u c : Change} (hu : u ∈ changes)
    (hc : c ∈ changes) (hpath : u.path = c.path) : u = c := by
  have hnodup : (changes.map (·.path.value)).Nodup := (of_decide_eq_true h).imp fun hlt => ne_of_lt hlt
  exact List.inj_on_of_nodup_map hnodup hu hc (congrArg FileImportPath.value hpath)

/-- No scan over a complete scan repeats a delete that this one recorded: the accepted pages
    would retract what is no upsert. -/
theorem History.no_repeated_delete (h : History d t l scans) {b : Scan D} (hrow : b.last d ∈ t.pages)
    (hordered : canonicalOrder b.plan.changes = true) (hsc : sc ∈ scans) (hcomplete : sc.complete = true)
    (hchanges : sc.plan.changes = b.plan.changes) (hbase : sc.plan.baselineRef = some (b.last d).reference) {c : Change}
    (hc : c ∈ b.plan.changes) (hdelete : c.kind = .delete) : False := by
  obtain ⟨older, hs, hf, -⟩ := h.chain.follows hsc
  have hdeletes := hf.deletes
  rw [List.take_of_length_le (of_decide_eq_true hcomplete), hchanges] at hdeletes
  obtain ⟨b', hb', u, hu, hupsert, hpath, -⟩ := hdeletes c hc hdelete
  obtain ⟨hmem', -⟩ := lastComplete_mem hb'
  have hsc' : b' ∈ scans := hs.subset (List.mem_cons_of_mem _ hmem')
  rw [hf.baseline_eq, hb'] at hbase
  have href : (b'.last d).reference = (b.last d).reference := Option.some.inj hbase
  have hlast : b'.last d = b.last d :=
    h.descending.inj (h.row_mem hsc' (b'.last_mem d)) hrow (congrArg FileChangeBaselineRef.sequence href)
  have hscan : b'.plan.scanRef d = b.plan.scanRef d := by
    rw [← Scan.row_scanRef (b'.last_mem d), ← Scan.row_scanRef (b.last_mem d), hlast]
  have hsame : b'.plan.changes = b.plan.changes := congrArg ScanDocument.entries (d.scan_inj hscan)
  rw [hsame] at hu
  have heq := change_eq_of_path hordered hu hc hpath
  rw [heq, hdelete] at hupsert
  nomatch hupsert

end Pages

section Runs

variable {D : Type} [DecidableEq D] {d : Digests D} {pv : Provider} {s : Snapshot} {t t' : Tables D}
  {l : Legacy D d t.activeVersion} {scans older : List (Scan D)} {sc : Scan D} {cursor : Option (ChangeCursor D)}
  {limit : ChangeLimit} {p : ChangePage D} {a : AcceptedChangePage D}

/-! ## Accepted pages -/

theorem admitted_of_ok {source : FileChangeSource D} (hpage : readChanges d pv source s cursor limit = .ok p) :
    pv.refuses source s = false := by
  by_contra h
  rw [Bool.not_eq_false] at h
  have hrefused : readChanges d pv source s cursor limit = .genericDenied ∨
      readChanges d pv source s cursor limit = .scanBoundExceeded := readChanges_refused h
  rcases hrefused with hrefused | hrefused
  · nomatch hpage.symm.trans hrefused
  · nomatch hpage.symm.trans hrefused

/-- A proposed page is one of the scan that the Provider plans. -/
theorem readChanges_ok {source : FileChangeSource D} (hpage : readChanges d pv source s cursor limit = .ok p) :
    p.sourceVersionRef = source.versionRef ∧ p.scanRef = pv.scanRef d source s := by
  rw [readChanges_planned (admitted_of_ok hpage)] at hpage
  cases cursor with
  | none =>
    obtain ⟨rfl, -⟩ := propose_ok hpage
    exact ⟨rfl, rfl⟩
  | some c =>
    dsimp only at hpage
    split at hpage
    · cases hpage
    · split at hpage
      · cases hpage
      · obtain ⟨rfl, -⟩ := propose_ok hpage
        exact ⟨rfl, rfl⟩

theorem History.accepted_again (h : History d t l scans) (hv : p.sourceVersionRef = t.activeVersion) {r : PageRow D}
    (hfind : t.pages.find? (·.pageRef == d.page p) = some r) (haccept : accept d t p = some (t', a)) :
    ∃ (l' : Legacy D d t'.activeVersion) (sc : Scan D) (n : Nat) (ns : List Nat),
      History d t' l' scans ∧ Accepted d t scans p t' a scans sc n ns := by
  have href : r.pageRef = d.page p := by simpa using List.find?_some hfind
  obtain ⟨sc, hsc, n, ns, hs, -, rfl⟩ := h.page_of_row (List.mem_of_find?_eq_some hfind) href hv
  rw [h.accept_again hsc hs] at haccept
  obtain ⟨rfl, rfl⟩ := Prod.mk.inj (Option.some.inj haccept)
  exact ⟨l, sc, n, ns, h, hsc, hs, rfl, rfl, fun _ hr => hr, .inl ⟨rfl, rfl⟩⟩

theorem History.accepted_next (h : History d t l (sc :: older)) (hopen : sc.complete = false)
    (haccept : accept d t (sc.plan.pageAfter d sc.superseded (sc.newest :: sc.earlier)) = some (t', a)) :
    ∃ l' : Legacy D d t'.activeVersion, History d t' l' (sc.push (t.lastSequence + 1) :: older) ∧
      Accepted d t (sc :: older) (sc.plan.pageAfter d sc.superseded (sc.newest :: sc.earlier)) t' a
        (sc.push (t.lastSequence + 1) :: older) (sc.push (t.lastSequence + 1)) (t.lastSequence + 1) (sc.newest :: sc.earlier) := by
  have hmem : sc ∈ sc :: older := List.mem_cons_self ..
  have hsub : ∀ b ∈ older, b ∈ sc :: older := fun b hb => List.mem_cons_of_mem _ hb
  obtain ⟨hadmissible, -⟩ := (accept_new_iff (h.next_not_mem hmem)).mp haccept
  cases h.chain with
  | cons hf hc =>
    have hv : (sc.plan.pageAfter d sc.superseded (sc.newest :: sc.earlier)).sourceVersionRef = t.activeVersion := by
      rw [Plan.pageAfter_version, hf.version_eq]
    have hbase : (sc.plan.pageAfter d sc.superseded (sc.newest :: sc.earlier)).baselineRef =
        (lastComplete older).map fun b => (b.last d).reference := by rw [Plan.pageAfter_baselineRef, hf.baseline_eq]
    have hdeletes := (h.deletes_iff hsub hv hbase).mp hadmissible.deletes
    rw [h.accept_next hopen hdeletes] at haccept
    obtain ⟨rfl, rfl⟩ := Prod.mk.inj (Option.some.inj haccept)
    refine ⟨l, h.insert_next hopen hdeletes, List.mem_cons_self .., List.suffix_refl _, rfl, rfl, ?_, .inr ⟨older, rfl, ?_⟩⟩
    · exact fun r hr => List.mem_cons_of_mem _ hr
    · exact (lastComplete_cons_of_not hopen).symm

theorem History.accepted_first (h : History d t l scans) (hadmitted : pv.refuses (sourceOf d t scans) s = false)
    (haccept : accept d t (pv.newPage d t scans s limit.value) = some (t', a)) :
    ∃ l' : Legacy D d t'.activeVersion, History d t' l' (pv.newScan d t scans s limit.value :: scans) ∧
      Accepted d t scans (pv.newPage d t scans s limit.value) t' a (pv.newScan d t scans s limit.value :: scans)
        (pv.newScan d t scans s limit.value) (t.lastSequence + 1) [] := by
  have hnot := h.page_not_mem (p := pv.newPage d t scans s limit.value) rfl rfl
  obtain ⟨hadmissible, ordinal, hnew, -⟩ := (accept_new_iff hnot).mp haccept
  have hnr := planned_not_repeated (d := d) fun b hb hsame =>
    h.not_repeated rfl rfl (Option.some.inj hnew.expected) hb hsame
  have hbaseline : (changesOf (sourceOf d t scans) (pv.observe s)).2 =
      (lastComplete scans).map fun b => (b.last d).reference := by rw [h.changesOf_eq, hnr.1, hnr.2]
  have hdeletes := (h.deletes_iff (fun b hb => hb) rfl hbaseline).mp hadmissible.deletes
  have hf := h.newScan_follows hadmitted hbaseline hdeletes
  rw [show accept d t (pv.newPage d t scans s limit.value) = _ from h.accept_first hf] at haccept
  obtain ⟨rfl, rfl⟩ := Prod.mk.inj (Option.some.inj haccept)
  refine ⟨l, h.insert_first hf, List.mem_cons_self .., List.suffix_refl _, rfl, rfl, ?_, .inr ⟨scans, rfl, rfl⟩⟩
  exact fun r hr => List.mem_cons_of_mem _ hr

/-- The page that continues at an issued cursor is the page after the newest one, if the
    tables take it as new. -/
theorem History.next_of_cursor (h : History d t l scans) {c : ChangeCursor D} (hissued : Issued d t c)
    (hpage : readChanges d pv (sourceOf d t scans) s (some c) limit = .ok p) (hfollows : t.followsHead p = true) :
    ∃ sc older, scans = sc :: older ∧ sc.complete = false ∧
      p = sc.plan.pageAfter d sc.superseded (sc.newest :: sc.earlier) := by
  have hadmitted := admitted_of_ok hpage
  rw [readChanges_planned hadmitted] at hpage
  dsimp only at hpage
  split at hpage
  · cases hpage
  rename_i hadmits
  split at hpage
  · cases hpage
  rename_i hmatches
  simp only [Bool.not_eq_true', Bool.not_eq_false] at hadmits hmatches
  obtain ⟨rfl, -⟩ := propose_ok hpage
  obtain ⟨head, hhead, hmatch⟩ := (Option.any_eq_true _ _).mp hadmits
  simp only [Bool.and_eq_true, beq_iff_eq] at hmatch
  obtain ⟨⟨⟨hversion, -⟩, hepoch⟩, -⟩ := hmatch
  cases scans with
  | nil => exact absurd hversion (h.readHead_version_of_nil hhead)
  | cons sc older =>
    have hmem : sc ∈ sc :: older := List.mem_cons_self ..
    rw [show (sourceOf d t (sc :: older)).scanHead = some (sc.head d) from h.readHead_cons] at hhead
    obtain rfl := Option.some.inj hhead
    have hrow : t.pages.head? = some (sc.last d) := by
      rw [h.pages_eq, rowsOf_cons, Scan.rows_eq]
      rfl
    simp only [Tables.followsHead, Plan.page, hrow, Option.any_some, Bool.and_eq_true, beq_iff_eq] at hfollows
    obtain ⟨⟨href, hcheckpoint⟩, hsequence⟩ := hfollows
    -- The cursor was issued for the newest page, which therefore is not the last.
    obtain ⟨q, r, -, hq, hcursor⟩ := hissued
    obtain ⟨pending, hpending, rfl⟩ := Option.map_eq_some_iff.mp hcursor
    have hqpage : q = sc.plan.pageAfter d sc.superseded sc.earlier := d.page_inj (hq.symm.trans href.symm)
    rw [hqpage, Plan.nextCursor_after] at hpending
    dsimp only at hpending
    split at hpending
    · cases hpending
    rename_i hnext
    cases h.chain with
    | cons hf _ =>
      have hoffset := hf.offset_le
      have hmul : sc.taken = sc.earlier.length * sc.plan.pageLimit + sc.plan.pageLimit := Nat.succ_mul _ _
      have htaken : sc.earlier.length * sc.plan.pageLimit +
          min sc.plan.pageLimit (sc.plan.changes.length - sc.earlier.length * sc.plan.pageLimit) = sc.taken := by omega
      rw [htaken] at hpending hnext
      have hopen : sc.complete = false := decide_eq_false (by omega)
      obtain rfl := Option.some.inj hpending
      simp only [cursorMatches, Bool.and_eq_true, beq_iff_eq] at hmatches
      obtain ⟨⟨⟨⟨⟨-, hscan⟩, -⟩, -⟩, hlimit⟩, -⟩ := hmatches
      have hr := resumes_of_scanRef hadmitted hscan
      refine ⟨sc, older, rfl, hopen, ?_⟩
      dsimp only at href hcheckpoint hsequence ⊢
      rw [hr.planIn_eq h hepoch.symm hlimit.symm, ← href, ← hcheckpoint, ← hsequence]
      rfl

/-- An accepted page of any Provider is in the tables as a page of one of their scans, and
    leaves them with a history. -/
theorem History.accepted (h : History d t l scans) (hissued : ∀ c, cursor = some c → Issued d t c)
    (hpage : readChanges d pv (sourceOf d t scans) s cursor limit = .ok p) (haccept : accept d t p = some (t', a)) :
    ∃ (l' : Legacy D d t'.activeVersion) (scans' : List (Scan D)) (sc : Scan D) (n : Nat) (ns : List Nat),
      History d t' l' scans' ∧ Accepted d t scans p t' a scans' sc n ns := by
  have hadmitted := admitted_of_ok hpage
  cases hfind : t.pages.find? (·.pageRef == d.page p) with
  | some r =>
    have hv : p.sourceVersionRef = t.activeVersion := (readChanges_ok hpage).1
    obtain ⟨l', sc, n, ns, h', hacc⟩ := h.accepted_again hv hfind haccept
    exact ⟨l', scans, sc, n, ns, h', hacc⟩
  | none =>
    cases cursor with
    | some c =>
      obtain ⟨-, ordinal, hnew, -⟩ := (accept_new_iff hfind).mp haccept
      obtain ⟨sc, older, rfl, hopen, rfl⟩ := h.next_of_cursor (hissued c rfl) hpage hnew.follows
      obtain ⟨l', h', hacc⟩ := h.accepted_next hopen haccept
      exact ⟨l', _, _, _, _, h', hacc⟩
    | none =>
      rcases h.headIsOf_cases (pv.scanRef d (sourceOf d t scans) s) with ⟨sc, older, rfl, href, -⟩ | ⟨hnone, -⟩
      · -- The first page of the newest scan is in the tables.
        have hr := resumes_of_scanRef hadmitted href
        rw [hr.readChanges_first h] at hpage
        obtain ⟨rfl, -⟩ := propose_ok hpage
        obtain ⟨n, hn⟩ := suffix_singleton sc.newest sc.earlier
        have hrow := h.row_mem (List.mem_cons_self ..) ((Plan.mem_rows ..).mpr ⟨n, [], hn, rfl⟩)
        exact absurd (beq_self_eq_true _) (List.find?_eq_none.mp hfind _ hrow)
      · rw [h.readChanges_new hadmitted hnone] at hpage
        obtain ⟨rfl, -⟩ := propose_ok hpage
        obtain ⟨l', h', hacc⟩ := h.accepted_first hadmitted haccept
        exact ⟨l', _, _, _, _, h', hacc⟩

/-! ## Reachable tables -/

/-- The tables of every reachable state hold a history of scans. -/
theorem Reachable.history (h : Reachable d t) :
    ∃ (l : Legacy D d t.activeVersion) (scans : List (Scan D)), History d t l scans := by
  induction h with
  | start version l => exact ⟨l, [], rfl, .nil, l.descending, l.bounded⟩
  | otherCheckpoint _ ih =>
    obtain ⟨l, scans, h⟩ := ih
    exact ⟨l, scans, h.pages_eq, h.chain, h.descending, fun r hr => Nat.le_succ_of_le (h.bounded r hr)⟩
  | accepted _ hread hissued hpage haccept ih =>
    obtain ⟨l, scans, h⟩ := ih
    rw [h.read_eq] at hread
    obtain rfl := Option.some.inj hread
    obtain ⟨l', scans', -, -, -, h', -⟩ := h.accepted hissued hpage haccept
    exact ⟨l', scans', h'⟩

/-! ## Rescans -/

/-- The rescan cannot go through. The files are those of the latest complete scan, but that
    scan has more entries than the bound now allows, or it is the head and had another bound,
    or it is not the head and recorded a delete; or the files are others, and with the
    deletes of those that are gone they are more than the bound. -/
def Wedged (pv : Provider) (source : FileChangeSource D) (s : Snapshot) : Bool :=
  !pv.excludes source s && source.completeBaseline.any fun b =>
    if unchanged b.entries (pv.observe s) then
      decide (pv.scanBound < b.entries.length) ||
        if baselineIsCurrentHead source b.reference then b.reference.scanBound != pv.scanBound
        else b.entries.any (·.kind == .delete)
    else decide (pv.scanBound < s.files.length + (missing b.entries (pv.observe s)).length)

omit [DecidableEq D] in
/-- How many entries a scan over a baseline has. -/
theorem length_planned (head : Bool) {observed : List Change} {b : Scan D} :
    (planned d head observed (some b)).1.length = if unchanged b.plan.changes observed then b.plan.changes.length
      else observed.length + (missing b.plan.changes observed).length := by
  by_cases hsame : unchanged b.plan.changes observed = true
  · simp only [planned, if_pos hsame]
  · simp only [planned, if_neg hsame, length_sortedBy, List.length_append]

theorem History.refuses_eq (h : History d t l scans) {b : Scan D} (hb : lastComplete scans = some b) :
    pv.refuses (sourceOf d t scans) s = (pv.excludes (sourceOf d t scans) s || decide (pv.scanBound <
      if unchanged b.plan.changes (pv.observe s) then b.plan.changes.length
      else s.files.length + (missing b.plan.changes (pv.observe s)).length)) := by
  rw [Provider.refuses, h.changesOf_eq, hb, length_planned, Provider.observe, List.length_map]

/-- Without a complete scan the files are all there is. -/
theorem History.refuses_of_none (h : History d t l scans) (hb : lastComplete scans = none) :
    pv.refuses (sourceOf d t scans) s = pv.excludes (sourceOf d t scans) s := by
  have hlength : (planned d (headComplete scans) (pv.observe s) none).1.length = s.files.length := List.length_map _
  rw [Provider.refuses, h.changesOf_eq, hb, hlength, Provider.excludes, Bool.or_assoc, Bool.or_self]

theorem History.wedge_eq (pv : Provider) (h : History d t l scans) {b : Scan D} (hb : lastComplete scans = some b) :
    (if baselineIsCurrentHead (sourceOf d t scans) (b.baseline d).reference then
        (b.baseline d).reference.scanBound != pv.scanBound
      else (b.baseline d).entries.any (·.kind == .delete)) = true ↔
      headComplete scans = true ∧ b.plan.scanBound ≠ pv.scanBound ∨
        headComplete scans = false ∧ ∃ c ∈ b.plan.changes, c.kind = .delete := by
  have hbound : (b.baseline d).reference.scanBound = b.plan.scanBound := Scan.row_scanBound (b.last_mem d)
  rw [show baselineIsCurrentHead (sourceOf d t scans) (b.baseline d).reference = _ from h.baselineIsCurrentHead_eq hb, hbound]
  cases headComplete scans with
  | true => simp
  | false => simp [Scan.baseline]

/-- A rescan that is not excluded is wedged when it has too many entries, or on the latest
    complete scan. -/
theorem History.wedged_iff (h : History d t l scans) : Wedged pv (sourceOf d t scans) s = true ↔
    pv.excludes (sourceOf d t scans) s = false ∧ (pv.refuses (sourceOf d t scans) s = true ∨
      ∃ b, lastComplete scans = some b ∧ unchanged b.plan.changes (pv.observe s) = true ∧
        (headComplete scans = true ∧ b.plan.scanBound ≠ pv.scanBound ∨
          headComplete scans = false ∧ ∃ c ∈ b.plan.changes, c.kind = .delete)) := by
  rw [Wedged, Bool.and_eq_true, Bool.not_eq_true']
  refine and_congr_right fun hexcludes => ?_
  cases hb : lastComplete scans with
  | none =>
    rw [h.refuses_of_none hb, hexcludes]
    simp [sourceOf, hb]
  | some b =>
    have hbase : (sourceOf d t scans).completeBaseline = some (b.baseline d) := congrArg (Option.map _) hb
    have hentries : (b.baseline d).entries = b.plan.changes := rfl
    rw [h.refuses_eq hb, hexcludes, hbase, Option.any_some, hentries, Bool.false_or]
    by_cases hsame : unchanged b.plan.changes (pv.observe s) = true
    · have hwedge := h.wedge_eq pv hb
      rw [hentries] at hwedge
      rw [if_pos hsame, if_pos hsame, Bool.or_eq_true, hwedge]
      simp only [Option.some.injEq, exists_eq_left', hsame, true_and]
    · rw [if_neg hsame, if_neg hsame]
      simp only [Option.some.injEq, exists_eq_left', hsame, Bool.false_eq_true, false_and, or_false]

/-- While the newest scan is open, a plan that resumes it retracts upserts only, unless the
    rescan is wedged. -/
theorem History.resumed_deletes (h : History d t l (sc :: older)) (hr : Resumes d pv s t sc older)
    (hw : Wedged pv (sourceOf d t (sc :: older)) s = false) : Retracted older sc.plan.changes := by
  cases hc : sc.complete with
  | true =>
    cases h.chain with
    | cons hf _ =>
      have hdeletes := hf.deletes
      rw [List.take_of_length_le (of_decide_eq_true hc)] at hdeletes
      exact hdeletes
  | false =>
    have hplan := hr.plan_eq
    rw [h.changesOf_eq, planned_open _ hc] at hplan
    rw [← show _ = sc.plan.changes from congrArg Prod.fst hplan]
    refine planned_retracted false fun b hb hsame c hmem hdelete => ?_
    have hwedged : Wedged pv (sourceOf d t (sc :: older)) s = true :=
      h.wedged_iff.mpr ⟨excludes_of_admitted hr.admitted, .inr ⟨b, (lastComplete_cons_of_not hc).trans hb, hsame,
        .inr ⟨hc, c, hmem, hdelete⟩⟩⟩
    rw [hw] at hwedged
    nomatch hwedged

/-- A scan of the newest scan's plan goes through. -/
theorem History.completes_resumed (h : History d t l (sc :: older)) (hr : Resumes d pv s t sc older)
    (hw : Wedged pv (sourceOf d t (sc :: older)) s = false) : Completes d pv s t none limit := by
  obtain ⟨n, hn⟩ := suffix_singleton sc.newest sc.earlier
  have hdeletes := h.resumed_deletes hr hw
  have haccept := h.accept_again (List.mem_cons_self ..) hn
  cases h.chain with
  | cons hf _ =>
    have hpage : readChanges d pv (sourceOf d t (sc :: older)) s none limit =
        .ok (sc.plan.pageAfter d sc.superseded []) := by
      rw [hr.readChanges_first h]
      refine if_pos (Plan.page_valid hf.limit_range hf.bound_range hf.ordered ?_ (Nat.zero_le _) rfl)
      rw [hf.baseline_eq, hf.version_eq]
      exact h.baseline_version fun b hb => List.mem_cons_of_mem _ hb
    by_cases hend : sc.plan.changes.length ≤ ([] : List Nat).length.succ * sc.plan.pageLimit
    · exact .last h.read_eq hpage haccept (Plan.acceptedCursor_last _ (by simp) hend)
    · have hmore := Nat.lt_of_not_le hend
      have hlimit : (ChangeLimit.mk sc.plan.pageLimit hf.limit_range).value =
          (sc.plan.pageAfter d sc.superseded []).pageLimit := rfl
      refine .more h.read_eq hpage haccept (Plan.acceptedCursor_more hmore) hlimit ?_
      refine completes_from sc.plan.changes.length h hr hdeletes hn hmore ?_ rfl
      exact Nat.le_trans (Nat.le_add_left _ _) (Nat.le_mul_of_pos_right _ hf.limit_range.1)

/-- A new scan goes through, unless the rescan is wedged. -/
theorem History.completes_new (h : History d t l scans) (hadmitted : pv.refuses (sourceOf d t scans) s = false)
    (hnone : headIsOf (sourceOf d t scans) (pv.scanRef d (sourceOf d t scans) s) = none)
    (hother : ∀ sc older, scans = sc :: older → sc.plan.scanRef d ≠ pv.scanRef d (sourceOf d t scans) s)
    (hw : Wedged pv (sourceOf d t scans) s = false) : Completes d pv s t none limit := by
  have hnotWedged : ¬Wedged pv (sourceOf d t scans) s = true := by rw [hw]; exact Bool.false_ne_true
  -- Files of the newest scan with its bound would be that scan again.
  have hnot : ∀ b, lastComplete scans = some b → unchanged b.plan.changes (pv.observe s) = true →
      headComplete scans = false := by
    intro b hb hsame
    by_contra hc
    rw [Bool.not_eq_false] at hc
    by_cases hbound : b.plan.scanBound = pv.scanBound
    · cases scans with
      | nil => nomatch hb
      | cons sc older =>
        rw [lastComplete_cons_of_complete hc] at hb
        obtain rfl := Option.some.inj hb
        refine hother sc older rfl ?_
        rw [Provider.scanRef, h.changesOf_eq, lastComplete_cons_of_complete hc, ← hbound]
        simp only [planned, if_pos hsame, hc, if_true]
        show _ = d.scan ⟨t.activeVersion, _, _, _⟩
        rw [← h.chain.version_eq (List.mem_cons_self ..)]
        rfl
    · exact hnotWedged (h.wedged_iff.mpr ⟨excludes_of_admitted hadmitted, .inr ⟨b, hb, hsame, .inl ⟨hc, hbound⟩⟩⟩)
  obtain ⟨hopen, hbase⟩ := planned_not_repeated (d := d) hnot
  have hbaseline : (changesOf (sourceOf d t scans) (pv.observe s)).2 =
      (lastComplete scans).map fun b => (b.last d).reference := by rw [h.changesOf_eq, hopen, hbase]
  have hdeletes : Retracted scans (changesOf (sourceOf d t scans) (pv.observe s)).1 := by
    rw [h.changesOf_eq]
    refine planned_retracted _ fun b hb hsame c hmem hdelete => ?_
    exact hnotWedged (h.wedged_iff.mpr ⟨excludes_of_admitted hadmitted, .inr ⟨b, hb, hsame,
      .inr ⟨hnot b hb hsame, c, hmem, hdelete⟩⟩⟩)
  have hfirst : Retracted scans ((changesOf (sourceOf d t scans) (pv.observe s)).1.take limit.value) :=
    fun c hc => hdeletes c (List.mem_of_mem_take hc)
  have hf := h.newScan_follows hadmitted hbaseline hfirst
  have haccept : accept d t (pv.newPage d t scans s limit.value) = _ := h.accept_first hf
  have h' : History d (t.insert d (pv.newPage d t scans s limit.value) 1) l (pv.newScan d t scans s limit.value :: scans) :=
    h.insert_first hf
  have hpage : readChanges d pv (sourceOf d t scans) s none limit = .ok (pv.newPage d t scans s limit.value) := by
    rw [h.readChanges_new hadmitted hnone]
    refine if_pos (Plan.page_valid hf.limit_range hf.bound_range hf.ordered ?_ (Nat.zero_le _) rfl)
    rw [show (pv.newScan d t scans s limit.value).plan.baselineRef = _ from hbaseline]
    exact h.baseline_version fun b hb => hb
  by_cases hend : (pv.newScan d t scans s limit.value).plan.changes.length ≤ ([] : List Nat).length.succ * limit.value
  · exact .last h.read_eq hpage haccept (Plan.acceptedCursor_last _ (by simp) hend)
  · have hmore := Nat.lt_of_not_le hend
    have hincomplete : (pv.newScan d t scans s limit.value).complete = false := decide_eq_false hend
    have hchanges := h'.changesOf_eq (pv.observe s)
    rw [planned_open _ hincomplete, ← hopen, ← h.changesOf_eq] at hchanges
    have hr : Resumes d pv s (t.insert d (pv.newPage d t scans s limit.value) 1) (pv.newScan d t scans s limit.value) scans := by
      refine ⟨hchanges, rfl, (refuses_congr ?_ hchanges).trans hadmitted⟩
      simp only [sourceOf, lastComplete_cons_of_not hincomplete]
    refine .more h.read_eq hpage haccept (Plan.acceptedCursor_more hmore) (show limit.value = _ from rfl) ?_
    refine completes_from (changesOf (sourceOf d t scans) (pv.observe s)).1.length h' hr hdeletes (List.suffix_refl _) hmore ?_ rfl
    exact Nat.le_trans (Nat.le_add_left _ _) (Nat.le_mul_of_pos_right _ limit.range.1)

/-- Unless it is wedged, a scan goes through to its end. -/
theorem History.completes (h : History d t l scans) (hw : Wedged pv (sourceOf d t scans) s = false) :
    Completes d pv s t none limit := by
  cases hrefuses : pv.refuses (sourceOf d t scans) s with
  | true =>
    -- what is refused though it is not excluded has too many entries
    refine .excluded h.read_eq ?_
    by_contra hexcludes
    rw [Bool.not_eq_true] at hexcludes
    rw [h.wedged_iff.mpr ⟨hexcludes, .inl hrefuses⟩] at hw
    nomatch hw
  | false =>
    rcases h.headIsOf_cases (pv.scanRef d (sourceOf d t scans) s) with ⟨sc, older, rfl, href, -⟩ | ⟨hnone, hother⟩
    · exact h.completes_resumed (resumes_of_scanRef hrefuses href) hw
    · exact h.completes_new hrefuses hnone hother hw

/-! ## Wedged rescans -/

/-- The rescan repeats an older complete scan that recorded a delete. -/
structure Repeats (d : Digests D) (pv : Provider) (s : Snapshot) (t : Tables D) (scans : List (Scan D)) (b : Scan D) :
    Prop where
  admitted : pv.refuses (sourceOf d t scans) s = false
  latest : lastComplete scans = some b
  same : unchanged b.plan.changes (pv.observe s) = true
  behind : headComplete scans = false
  deleted : ∃ c ∈ b.plan.changes, c.kind = .delete

/-- An accepted page of such a rescan is a page of a scan that is not complete. -/
theorem Repeats.incomplete {b : Scan D} (hr : Repeats d pv s t scans b) (h : History d t l scans)
    (hpage : readChanges d pv (sourceOf d t scans) s cursor limit = .ok p) {l' : Legacy D d t'.activeVersion}
    {scans' : List (Scan D)} {n : Nat} {ns : List Nat} (h' : History d t' l' scans')
    (hacc : Accepted d t scans p t' a scans' sc n ns) : sc.complete = false := by
  obtain ⟨c, hc, hdelete⟩ := hr.deleted
  obtain ⟨hmem, -⟩ := lastComplete_mem hr.latest
  have hscan := (readChanges_ok hpage).2
  rw [hacc.page_eq, Plan.pageAfter_scanRef, Provider.scanRef, h.changesOf_eq, hr.latest, hr.behind] at hscan
  simp only [planned, if_pos hr.same] at hscan
  obtain ⟨-, -, hchanges, hbase⟩ := ScanDocument.mk.inj (d.scan_inj hscan)
  obtain ⟨_, -, hf, -⟩ := h.chain.follows hmem
  by_contra hcomplete
  rw [Bool.not_eq_false] at hcomplete
  exact h'.no_repeated_delete (hacc.keeps _ (h.row_mem hmem (b.last_mem d))) hf.ordered hacc.mem hcomplete hchanges hbase
    hc hdelete

/-- And it leaves the rescan as it was. -/
theorem Repeats.accepted {b : Scan D} (hr : Repeats d pv s t scans b) (h : History d t l scans)
    (hpage : readChanges d pv (sourceOf d t scans) s cursor limit = .ok p) {l' : Legacy D d t'.activeVersion}
    {scans' : List (Scan D)} {n : Nat} {ns : List Nat} (h' : History d t' l' scans')
    (hacc : Accepted d t scans p t' a scans' sc n ns) : Repeats d pv s t' scans' b := by
  have hopen := hr.incomplete h hpage h' hacc
  rcases hacc.scans_eq with ⟨rfl, rfl⟩ | ⟨older, rfl, holder⟩
  · exact hr
  · have hlatest : lastComplete (sc :: older) = lastComplete scans := (lastComplete_cons_of_not hopen).trans holder
    have hbehind : headComplete (sc :: older) = false := hopen
    refine ⟨(refuses_congr ?_ ?_).trans hr.admitted, hlatest.trans hr.latest, hr.same, hbehind, hr.deleted⟩
    · simp only [sourceOf, hlatest]
    · rw [h'.changesOf_eq, h.changesOf_eq, hlatest, hbehind, hr.behind]

/-- However far it gets, such a rescan never goes through. -/
theorem Repeats.not_completes {b : Scan D} (hr : Repeats d pv s t scans b) (h : History d t l scans)
    (hissued : ∀ c, cursor = some c → Issued d t c) : ¬Completes d pv s t cursor limit := by
  intro hcompletes
  induction hcompletes generalizing scans with
  | excluded hread hexcluded =>
    rw [h.read_eq] at hread
    obtain rfl := Option.some.inj hread
    nomatch hexcluded.symm.trans (excludes_of_admitted hr.admitted)
  | last hread hpage haccept hend =>
    rw [h.read_eq] at hread
    obtain rfl := Option.some.inj hread
    obtain ⟨l', scans', sc, n, ns, h', hacc⟩ := h.accepted hissued hpage haccept
    have hopen := of_decide_eq_false (hr.incomplete h hpage h' hacc)
    have hle : (ns.length + 1) * sc.plan.pageLimit ≤ sc.taken := Nat.mul_le_mul_right _ hacc.suffix.length_le
    rw [hacc.page_eq, hacc.accepted_eq, Plan.acceptedCursor_more (by omega)] at hend
    nomatch hend
  | more hread hpage haccept hcursor _ _ ih =>
    rw [h.read_eq] at hread
    obtain rfl := Option.some.inj hread
    obtain ⟨l', scans', sc, n, ns, h', hacc⟩ := h.accepted hissued hpage haccept
    refine ih (hr.accepted h hpage h' hacc) h' ?_
    intro c hc
    obtain rfl := Option.some.inj hc
    exact hacc.issued h' hcursor

/-- The files of the newest scan under another bound are refused as a new scan over the
    baseline of that scan. -/
theorem History.not_completes_of_bound (h : History d t l scans) (hadmitted : pv.refuses (sourceOf d t scans) s = false)
    {b : Scan D} (hb : lastComplete scans = some b) (hsame : unchanged b.plan.changes (pv.observe s) = true)
    (hhead : headComplete scans = true) (hbound : b.plan.scanBound ≠ pv.scanBound) : ¬Completes d pv s t none limit := by
  have hnew : readChanges d pv (sourceOf d t scans) s none limit = propose (pv.newPage d t scans s limit.value) := by
    rcases h.headIsOf_cases (pv.scanRef d (sourceOf d t scans) s) with ⟨sc, older, rfl, href, -⟩ | ⟨hnone, -⟩
    · rw [lastComplete_cons_of_complete hhead] at hb
      obtain rfl := Option.some.inj hb
      exact absurd (congrArg ScanDocument.scanBound (d.scan_inj href)) hbound
    · exact h.readChanges_new hadmitted hnone
  have hreject : ∀ {t' : Tables D} {p : ChangePage D} {a : AcceptedChangePage D},
      readChanges d pv (sourceOf d t scans) s none limit = .ok p → accept d t p ≠ some (t', a) := by
    intro t' p a hpage haccept
    rw [hnew] at hpage
    obtain ⟨rfl, -⟩ := propose_ok hpage
    obtain ⟨-, ordinal, hpageNew, -⟩ := (accept_new_iff (h.page_not_mem rfl rfl)).mp haccept
    have hbehind := h.not_repeated rfl rfl (Option.some.inj hpageNew.expected) hb hsame
    rw [hhead] at hbehind
    nomatch hbehind
  intro hcompletes
  cases hcompletes with
  | excluded hread hexcluded =>
    rw [h.read_eq] at hread
    obtain rfl := Option.some.inj hread
    nomatch hexcluded.symm.trans (excludes_of_admitted hadmitted)
  | last hread hpage haccept _ =>
    rw [h.read_eq] at hread
    obtain rfl := Option.some.inj hread
    exact hreject hpage haccept
  | more hread hpage haccept _ _ _ =>
    rw [h.read_eq] at hread
    obtain rfl := Option.some.inj hread
    exact hreject hpage haccept

/-- A Provider that is asked for a directory which is its own, and refuses it, proposes no page. -/
theorem History.not_completes_of_refused (h : History d t l scans) (hexcludes : pv.excludes (sourceOf d t scans) s = false)
    (hrefuses : pv.refuses (sourceOf d t scans) s = true) : ¬Completes d pv s t none limit := by
  have hno : ∀ {p : ChangePage D}, readChanges d pv (sourceOf d t scans) s none limit ≠ .ok p := fun hpage =>
    nomatch hrefuses.symm.trans (admitted_of_ok hpage)
  intro hcompletes
  cases hcompletes with
  | excluded hread hexcluded =>
    rw [h.read_eq] at hread
    obtain rfl := Option.some.inj hread
    nomatch hexcluded.symm.trans hexcludes
  | last hread hpage _ _ =>
    rw [h.read_eq] at hread
    obtain rfl := Option.some.inj hread
    exact hno hpage
  | more hread hpage _ _ _ _ =>
    rw [h.read_eq] at hread
    obtain rfl := Option.some.inj hread
    exact hno hpage

end Runs

/-! ## One file under a raised bound -/

/-- References that spell out the documents they digest; absent ones are `absent`. -/
inductive Ref where
  | absent
  | scan (version : UUID) (bound : Nat) (entries : List Change) (baseline : Option (UUID × Nat × Nat))
      (scanRef scanEpoch pageRef checkpointRef : Ref)
  | epoch (version : UUID) (scanRef : Ref) (sequence : Option Nat) (checkpointRef pageRef scanEpoch : Ref)
  | page (version : UUID) (scanRef scanEpoch : Ref) (limit : Nat) (sequence : Option Nat) (pageRef checkpointRef : Ref)
      (supersedes : Bool) (superseded : Ref) (baseline : Option (UUID × Nat × Nat))
      (baseScan baseEpoch basePage baseCheckpoint : Ref) (changes : List Change)
      (next : Option (UUID × Nat × Nat × Nat)) (nextScan nextEpoch : Ref) (complete : Bool) (bound : Nat)
  | checkpoint (sequence : Nat) (pageRef : Ref)
  deriving DecidableEq

def Ref.ofScan (s : ScanDocument Ref) : Ref :=
  .scan s.sourceVersionRef s.scanBound s.entries (s.baseline.map fun b => (b.sourceVersionRef, b.sequence, b.scanBound))
    (s.baseline.elim .absent (·.scanRef)) (s.baseline.elim .absent (·.scanEpoch)) (s.baseline.elim .absent (·.pageRef))
    (s.baseline.elim .absent (·.checkpointRef))

def Ref.ofEpoch (e : EpochDocument Ref) : Ref :=
  .epoch e.sourceVersionRef e.scanRef (e.predecessor.map (·.sequence)) (e.predecessor.elim .absent (·.checkpointRef))
    (e.predecessor.elim .absent (·.pageRef)) (e.predecessor.elim .absent (·.scanEpoch))

def Ref.ofPage (p : ChangePage Ref) : Ref :=
  .page p.sourceVersionRef p.scanRef p.scanEpoch p.pageLimit (p.predecessor.map (·.sequence))
    (p.predecessor.elim .absent (·.pageRef)) (p.predecessor.elim .absent (·.checkpointRef)) p.supersededScanEpoch.isSome
    (p.supersededScanEpoch.getD .absent) (p.baselineRef.map fun b => (b.sourceVersionRef, b.sequence, b.scanBound))
    (p.baselineRef.elim .absent (·.scanRef)) (p.baselineRef.elim .absent (·.scanEpoch))
    (p.baselineRef.elim .absent (·.pageRef)) (p.baselineRef.elim .absent (·.checkpointRef)) p.changes
    (p.nextCursor.map fun c => (c.sourceVersionRef, c.scanBound, c.limit, c.offset))
    (p.nextCursor.elim .absent (·.scanRef)) (p.nextCursor.elim .absent (·.scanEpoch)) p.complete p.scanBound

theorem Ref.baseline_ext {o o' : Option (FileChangeBaselineRef Ref)}
    (hdata : (o.map fun b => (b.sourceVersionRef, b.sequence, b.scanBound)) =
      o'.map fun b => (b.sourceVersionRef, b.sequence, b.scanBound))
    (hscan : o.elim .absent (·.scanRef) = o'.elim .absent (·.scanRef))
    (hepoch : o.elim .absent (·.scanEpoch) = o'.elim .absent (·.scanEpoch))
    (hpage : o.elim .absent (·.pageRef) = o'.elim .absent (·.pageRef))
    (hcheckpoint : o.elim .absent (·.checkpointRef) = o'.elim .absent (·.checkpointRef)) : o = o' := by
  cases o with
  | none => cases o' with
    | none => rfl
    | some b => nomatch hdata
  | some b => cases o' with
    | none => nomatch hdata
    | some b' =>
      obtain ⟨hv, hrest⟩ := Prod.mk.inj (Option.some.inj hdata)
      obtain ⟨hseq, hbound⟩ := Prod.mk.inj hrest
      cases b
      cases b'
      simp only [Option.elim_some] at hscan hepoch hpage hcheckpoint hv hseq hbound
      subst hscan hepoch hpage hcheckpoint hv hseq hbound
      rfl

theorem Ref.ofScan_injective : Function.Injective Ref.ofScan := by
  rintro ⟨v, n, cs, b⟩ ⟨v', n', cs', b'⟩ h
  obtain ⟨rfl, rfl, rfl, hdata, hscan, hepoch, hpage, hcheckpoint⟩ := Ref.scan.inj h
  rw [show b = b' from Ref.baseline_ext hdata hscan hepoch hpage hcheckpoint]

theorem Ref.ofEpoch_injective : Function.Injective Ref.ofEpoch := by
  rintro ⟨v, r, o⟩ ⟨v', r', o'⟩ h
  obtain ⟨rfl, rfl, hsequence, hcheckpoint, hpage, hepoch⟩ := Ref.epoch.inj h
  have heq : o = o' := by
    cases o with
    | none => cases o' with
      | none => rfl
      | some q => nomatch hsequence
    | some q => cases o' with
      | none => nomatch hsequence
      | some q' =>
        cases q
        cases q'
        simp only [Option.elim_some, Option.map_some, Option.some.injEq] at hsequence hcheckpoint hpage hepoch
        subst hsequence hcheckpoint hpage hepoch
        rfl
  rw [heq]

theorem Ref.ofPage_injective : Function.Injective Ref.ofPage := by
  rintro ⟨v, r, e, n, pred, sup, b, cs, next, k, m⟩ ⟨v', r', e', n', pred', sup', b', cs', next', k', m'⟩ h
  obtain ⟨rfl, rfl, rfl, rfl, hsequence, hpred, hcheck, hsome, hsup, hdata, hscan, hepoch, hpage, hcheckpoint, rfl, hnext,
    hnextScan, hnextEpoch, rfl, rfl⟩ := Ref.page.inj h
  have hb : b = b' := Ref.baseline_ext hdata hscan hepoch hpage hcheckpoint
  have hp : pred = pred' := by
    cases pred with
    | none => cases pred' with
      | none => rfl
      | some q => nomatch hsequence
    | some q => cases pred' with
      | none => nomatch hsequence
      | some q' =>
        cases q
        cases q'
        simp only [Option.elim_some, Option.map_some, Option.some.injEq] at hsequence hpred hcheck
        subst hsequence hpred hcheck
        rfl
  have hs : sup = sup' := by
    cases sup <;> cases sup' <;> simp_all
  have hn : next = next' := by
    cases next with
    | none => cases next' with
      | none => rfl
      | some q => nomatch hnext
    | some q => cases next' with
      | none => nomatch hnext
      | some q' =>
        cases q
        cases q'
        simp only [Option.elim_some, Option.map_some, Option.some.injEq, Prod.mk.injEq] at hnext hnextScan hnextEpoch
        obtain ⟨rfl, rfl, rfl, rfl⟩ := hnext
        subst hnextScan hnextEpoch
        rfl
  rw [hb, hp, hs, hn]

/-- Digests that are their documents. -/
def Ref.digests : Digests Ref :=
  ⟨.ofScan, .ofEpoch, .ofPage, .checkpoint, Ref.ofScan_injective, Ref.ofEpoch_injective, Ref.ofPage_injective⟩

namespace Instance

def version : UUID := .ofNat 1

def path : FileImportPath := ⟨"a.md", by decide +kernel⟩

/-- One file. -/
def directory : Snapshot := ⟨[(path, [])], List.pairwise_singleton ..⟩

def lib : Stdlib := ⟨fun _ => ⟨List.replicate 32 0, rfl⟩, fun _ => ""⟩

/-- The Provider before and after its bound is raised. -/
def provider : Provider := ⟨lib, none, 10000, by decide⟩

def widened : Provider := ⟨lib, none, 15000, by decide⟩

def limit : ChangeLimit := ⟨100, by decide⟩

def noPages : Legacy Ref Ref.digests version where
  pages := []
  lastSequence := 0
  other_version := nofun
  digest := nofun
  epoch_digest := nofun
  initial := nofun
  descending := .nil
  bounded := nofun

def empty : Tables Ref := ⟨version, [], 0⟩

/-- The page of the first scan. -/
def firstPage : ChangePage Ref := provider.newPage Ref.digests empty [] directory 100

/-- The tables after the first scan. -/
def scanned : Tables Ref := empty.insert Ref.digests firstPage 1

theorem scanned_reachable : Reachable Ref.digests scanned := by
  have hstart : Reachable Ref.digests empty := .start version noPages
  have hissued : ∀ c, (none : Option (ChangeCursor Ref)) = some c → Issued Ref.digests empty c := nofun
  have hread : empty.read = some ⟨version, none, none⟩ := by decide +kernel
  have hpage : readChanges Ref.digests provider ⟨version, none, none⟩ directory none limit = .ok firstPage := by
    decide +kernel
  have haccept : accept Ref.digests empty firstPage =
      some (scanned, ⟨Ref.ofPage firstPage, .checkpoint 1 (Ref.ofPage firstPage), 1⟩) := by decide +kernel
  exact .accepted hstart hread hissued hpage haccept

/-- What Control reads after the first scan. -/
def progress : FileChangeSource Ref := ⟨version, scanned.readHead, scanned.baseline⟩

/-- The page that the widened Provider proposes for the same file. -/
def refusedPage : ChangePage Ref :=
  let scanRef := Ref.ofScan ⟨version, 15000, widened.observe directory, none⟩
  let head := Ref.ofPage firstPage
  Plan.page Ref.digests ⟨version, 15000, widened.observe directory, none,
    Ref.ofEpoch ⟨version, scanRef, some ⟨.checkpoint 1 head, head, firstPage.scanEpoch, 1⟩⟩, 100⟩ 0 none
    (some firstPage.scanEpoch)

end Instance

end ContextEngine.Adapters.FileSource
