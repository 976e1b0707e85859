/-
  ContextEngine.Adapters.FileHistory — the page tables as a history of scans.

  The rows that accepted pages leave are the pages of one scan after the other: every scan
  but the newest was superseded, each names the latest complete scan before it as its
  baseline, and a page is known by the sequences of the pages of its scan before it.

  Proved, of tables with a history:
  - `History.fresh`: an epoch that follows the head is the epoch of no row.
  - `History.epoch_eq`: the rows of a scan's epoch are the pages of that scan.
  - `History.row_inj`: a page of the active version is known by its reference.
  - `History.read_eq`: what Control reads for the Provider: the newest scan as the head, and
    the latest complete scan as the baseline.
-/

import ContextEngine.Adapters.FileSource
import ContextEngine.Control.FileChangePagesProofs

namespace ContextEngine.Adapters.FileSource

open ContextEngine.Python ContextEngine.Runtime ContextEngine.Control

section Scans

variable {D : Type} (d : Digests D)

/-! ## One scan -/

/-- The page of a scan after those with the given sequences, newest first. -/
def Plan.pageAfter (plan : Plan D) (superseded : Option D) : List Nat → ChangePage D
  | [] => plan.page d 0 none superseded
  | n :: ns =>
    let ref := d.page (plan.pageAfter superseded ns)
    plan.page d ((ns.length + 1) * plan.pageLimit) (some ⟨ref, d.checkpoint n ref, n⟩) none

/-- The row of the page with sequence `n` after those with the sequences `ns`. -/
def Plan.rowAfter (plan : Plan D) (superseded : Option D) (n : Nat) (ns : List Nat) : PageRow D :=
  (plan.pageAfter d superseded ns).row d (ns.length + 1) n

/-- The rows of the pages with the given sequences. -/
def Plan.rows (plan : Plan D) (superseded : Option D) : List Nat → List (PageRow D)
  | [] => []
  | n :: ns => plan.rowAfter d superseded n ns :: plan.rows superseded ns

section Pages

variable (plan : Plan D) (superseded : Option D) (n : Nat) (ns : List Nat)

@[simp] theorem Plan.pageAfter_version : (plan.pageAfter d superseded ns).sourceVersionRef = plan.sourceVersionRef := by
  cases ns <;> rfl

@[simp] theorem Plan.pageAfter_scanRef : (plan.pageAfter d superseded ns).scanRef = plan.scanRef d := by cases ns <;> rfl

@[simp] theorem Plan.pageAfter_scanEpoch : (plan.pageAfter d superseded ns).scanEpoch = plan.scanEpoch := by
  cases ns <;> rfl

@[simp] theorem Plan.pageAfter_pageLimit : (plan.pageAfter d superseded ns).pageLimit = plan.pageLimit := by
  cases ns <;> rfl

@[simp] theorem Plan.pageAfter_baselineRef : (plan.pageAfter d superseded ns).baselineRef = plan.baselineRef := by
  cases ns <;> rfl

@[simp] theorem Plan.pageAfter_scanBound : (plan.pageAfter d superseded ns).scanBound = plan.scanBound := by
  cases ns <;> rfl

theorem Plan.pageAfter_changes :
    (plan.pageAfter d superseded ns).changes = (plan.changes.drop (ns.length * plan.pageLimit)).take plan.pageLimit := by
  cases ns with
  | nil => simp only [List.length_nil, Nat.zero_mul]; rfl
  | cons m ms => rfl

/-- A page is the last one when no change is left after it. -/
theorem Plan.page_complete {offset : Nat} (h : offset ≤ plan.changes.length) (predecessor : Option (PagePredecessor D))
    (sup : Option D) :
    (plan.page d offset predecessor sup).complete = decide (plan.changes.length ≤ offset + plan.pageLimit) := by
  rw [Bool.eq_iff_iff]
  simp only [Plan.page, List.length_take, List.length_drop, beq_iff_eq, decide_eq_true_eq]
  omega

theorem Plan.pageAfter_complete (h : ns.length * plan.pageLimit ≤ plan.changes.length) :
    (plan.pageAfter d superseded ns).complete = decide (plan.changes.length ≤ (ns.length + 1) * plan.pageLimit) := by
  have hmul : (ns.length + 1) * plan.pageLimit = ns.length * plan.pageLimit + plan.pageLimit := Nat.succ_mul _ _
  rw [hmul]
  cases ns with
  | nil =>
    rw [List.length_nil, Nat.zero_mul]
    exact plan.page_complete d (Nat.zero_le _) none superseded
  | cons m ms => exact plan.page_complete d h _ none

/-- The pages before tell the pages of one scan apart. -/
theorem Plan.pageAfter_inj : ∀ {ns ms : List Nat},
    plan.pageAfter d superseded ns = plan.pageAfter d superseded ms → ns = ms
  | [], [], _ => rfl
  | [], m :: ms, h => nomatch congrArg ChangePage.predecessor h
  | n :: ns, [], h => nomatch congrArg ChangePage.predecessor h
  | n :: ns, m :: ms, h => by
    have hpred := Option.some.inj (congrArg ChangePage.predecessor h)
    have hseq : n = m := congrArg PagePredecessor.sequence hpred
    have hpage := d.page_inj (congrArg PagePredecessor.pageRef hpred)
    rw [hseq, Plan.pageAfter_inj hpage]

theorem Plan.mem_rows {r : PageRow D} {seqs : List Nat} :
    r ∈ plan.rows d superseded seqs ↔ ∃ n ns, (n :: ns) <:+ seqs ∧ r = plan.rowAfter d superseded n ns := by
  induction seqs with
  | nil => simp [Plan.rows]
  | cons m ms ih =>
    simp only [Plan.rows, List.mem_cons, ih, List.suffix_cons_iff, List.cons.injEq]
    refine ⟨?_, ?_⟩
    · rintro (rfl | ⟨n, ns, hs, rfl⟩)
      · exact ⟨m, ms, .inl ⟨rfl, rfl⟩, rfl⟩
      · exact ⟨n, ns, .inr hs, rfl⟩
    · rintro ⟨n, ns, ⟨rfl, rfl⟩ | hs, rfl⟩
      · exact .inl rfl
      · exact .inr ⟨n, ns, hs, rfl⟩

/-- The pages in order hold the changes in order. -/
theorem Plan.rows_changes (seqs : List Nat) :
    (plan.rows d superseded seqs).reverse.flatMap (·.changes) = plan.changes.take (seqs.length * plan.pageLimit) := by
  induction seqs with
  | nil => simp [Plan.rows]
  | cons m ms ih =>
    have hlast : (plan.rowAfter d superseded m ms).changes =
        (plan.changes.drop (ms.length * plan.pageLimit)).take plan.pageLimit := plan.pageAfter_changes d superseded ms
    simp only [Plan.rows, List.reverse_cons, List.flatMap_append, ih, List.flatMap_cons, List.flatMap_nil,
      List.append_nil, hlast, List.length_cons, Nat.succ_mul, List.take_add]

theorem Plan.changeCount_rows (seqs : List Nat) :
    changeCount (plan.rows d superseded seqs) = (plan.changes.take (seqs.length * plan.pageLimit)).length := by
  rw [← plan.rows_changes d superseded, List.length_flatMap, List.map_reverse, List.sum_reverse]
  rfl

theorem Plan.rows_ordinals (seqs : List Nat) :
    (plan.rows d superseded seqs).reverse.Pairwise (fun a b => a.pageOrdinal ≤ b.pageOrdinal) ∧
      ∀ r ∈ plan.rows d superseded seqs, 1 ≤ r.pageOrdinal ∧ r.pageOrdinal ≤ seqs.length := by
  induction seqs with
  | nil => simp [Plan.rows]
  | cons m ms ih =>
    obtain ⟨hsorted, hle⟩ := ih
    have hord : (plan.rowAfter d superseded m ms).pageOrdinal = ms.length + 1 := rfl
    refine ⟨?_, ?_⟩
    · simp only [Plan.rows, List.reverse_cons, List.pairwise_append, List.pairwise_singleton, List.mem_reverse,
        List.mem_singleton, forall_eq, true_and, hord]
      exact ⟨hsorted, fun r hr => Nat.le_succ_of_le (hle r hr).2⟩
    · intro r hr
      rcases List.mem_cons.mp hr with rfl | hr
      · simp [hord]
      · have := hle r hr
        simp only [List.length_cons]
        omega

/-- The first page of a scan carries the epoch that the scan superseded. -/
theorem Plan.find_initial (n : Nat) (ns : List Nat) :
    ∃ m, (plan.rows d superseded (n :: ns)).find? (·.pageOrdinal == 1) = some (plan.rowAfter d superseded m []) := by
  induction ns generalizing n with
  | nil => exact ⟨n, rfl⟩
  | cons k ks ih =>
    obtain ⟨m, hm⟩ := ih k
    refine ⟨m, ?_⟩
    have hord : (plan.rowAfter d superseded n (k :: ks)).pageOrdinal = ks.length + 2 := rfl
    rw [Plan.rows, List.find?_cons, hord]
    exact hm

end Pages

/-- The accepted pages of one scan, by their sequences. -/
structure Scan (D : Type) where
  plan : Plan D
  superseded : Option D
  newest : Nat
  earlier : List Nat

/-- The row of the newest page. -/
def Scan.last (sc : Scan D) : PageRow D := sc.plan.rowAfter d sc.superseded sc.newest sc.earlier

def Scan.rows (sc : Scan D) : List (PageRow D) := sc.plan.rows d sc.superseded (sc.newest :: sc.earlier)

/-- How far the accepted pages reach. -/
def Scan.taken (sc : Scan D) : Nat := (sc.earlier.length + 1) * sc.plan.pageLimit

def Scan.complete (sc : Scan D) : Bool := decide (sc.plan.changes.length ≤ sc.taken)

theorem Scan.rows_eq (sc : Scan D) : sc.rows d = sc.last d :: sc.plan.rows d sc.superseded sc.earlier := rfl

theorem Scan.last_mem (sc : Scan D) : sc.last d ∈ sc.rows d := List.mem_cons_self ..

section Rows

variable {d} {sc : Scan D} {r : PageRow D}

theorem Scan.row_version (h : r ∈ sc.rows d) : r.sourceVersionRef = sc.plan.sourceVersionRef := by
  obtain ⟨n, ns, -, rfl⟩ := (Plan.mem_rows ..).mp h
  exact sc.plan.pageAfter_version d sc.superseded ns

theorem Scan.row_scanRef (h : r ∈ sc.rows d) : r.scanRef = sc.plan.scanRef d := by
  obtain ⟨n, ns, -, rfl⟩ := (Plan.mem_rows ..).mp h
  exact sc.plan.pageAfter_scanRef d sc.superseded ns

theorem Scan.row_scanEpoch (h : r ∈ sc.rows d) : r.scanEpoch = sc.plan.scanEpoch := by
  obtain ⟨n, ns, -, rfl⟩ := (Plan.mem_rows ..).mp h
  exact sc.plan.pageAfter_scanEpoch d sc.superseded ns

theorem Scan.row_scanBound (h : r ∈ sc.rows d) : r.scanBound = sc.plan.scanBound := by
  obtain ⟨n, ns, -, rfl⟩ := (Plan.mem_rows ..).mp h
  exact sc.plan.pageAfter_scanBound d sc.superseded ns

theorem Scan.row_binding (h : r ∈ sc.rows d) : r.binding = some (sc.plan.baselineRef.map (·.pageRef)) := by
  obtain ⟨n, ns, -, rfl⟩ := (Plan.mem_rows ..).mp h
  show some ((sc.plan.pageAfter d sc.superseded ns).baselineRef.map (·.pageRef)) = _
  rw [Plan.pageAfter_baselineRef]

end Rows

/-! ## Scan after scan -/

/-- What a new epoch digests of the head. -/
def PageRow.asEpochPredecessor (r : PageRow D) : EpochPredecessor D := ⟨r.checkpointRef, r.pageRef, r.scanEpoch, r.sequence⟩

/-- The epoch of a new scan. -/
def epochAfter (version : UUID) (scanRef : D) (rows : List (PageRow D)) : D :=
  d.epoch ⟨version, scanRef, rows.head?.map (PageRow.asEpochPredecessor ·)⟩

/-- The rows of the scans, newest first, over the rows `base`. -/
def rowsOf (base : List (PageRow D)) (scans : List (Scan D)) : List (PageRow D) := scans.flatMap (·.rows d) ++ base

/-- The latest complete scan. -/
def lastComplete (scans : List (Scan D)) : Option (Scan D) := scans.find? (·.complete)

/-- Some upsert of the changes has the path and content of the delete. -/
def Retracts (changes : List Change) (c : Change) : Prop :=
  ∃ u ∈ changes, u.kind = .upsert ∧ u.path = c.path ∧ u.contentSha256 = c.contentSha256 ∧ u.contentLength = c.contentLength

/-- Every delete among the changes retracts an upsert of the latest complete scan. -/
def Retracted (older : List (Scan D)) (changes : List Change) : Prop :=
  ∀ c ∈ changes, c.kind = .delete → ∃ b, lastComplete older = some b ∧ Retracts b.plan.changes c

/-- A scan over the scans before it. -/
structure Scan.Follows (version : UUID) (base : List (PageRow D)) (older : List (Scan D)) (sc : Scan D) : Prop where
  version_eq : sc.plan.sourceVersionRef = version
  limit_range : 1 ≤ sc.plan.pageLimit ∧ sc.plan.pageLimit ≤ MAX_FILE_CHANGE_PAGE_SIZE
  bound_range : 1 ≤ sc.plan.scanBound ∧ sc.plan.scanBound ≤ MAX_CONFIGURED_FILE_CHANGE_BASELINE_SIZE
  fits : sc.plan.changes.length ≤ sc.plan.scanBound
  ordered : canonicalOrder sc.plan.changes = true
  epoch_eq : sc.plan.scanEpoch = epochAfter d version (sc.plan.scanRef d) (rowsOf d base older)
  superseded_eq : sc.superseded = (rowsOf d base older).head?.map (·.scanEpoch)
  baseline_eq : sc.plan.baselineRef = (lastComplete older).map fun b => (b.last d).reference
  /-- No page follows the last one. -/
  unfinished : sc.earlier ≠ [] → sc.earlier.length * sc.plan.pageLimit < sc.plan.changes.length
  deletes : Retracted older (sc.plan.changes.take sc.taken)

/-- Every scan follows those before it. -/
inductive Chain (version : UUID) (base : List (PageRow D)) : List (Scan D) → Prop
  | nil : Chain version base []
  | cons {sc : Scan D} {older : List (Scan D)} : sc.Follows d version base older → Chain version base older →
      Chain version base (sc :: older)

/-- The sequences of the rows fall, newest first. -/
def Descending (rows : List (PageRow D)) : Prop := rows.Pairwise fun a b => a.sequence > b.sequence

/-- The tables hold these scans over older pages. -/
structure History (t : Tables D) (l : Legacy D d t.activeVersion) (scans : List (Scan D)) : Prop where
  pages_eq : t.pages = rowsOf d l.pages scans
  chain : Chain d t.activeVersion l.pages scans
  descending : Descending t.pages
  bounded : ∀ r ∈ t.pages, r.sequence ≤ t.lastSequence

end Scans

section Rows

variable {D : Type} {d : Digests D} {version : UUID} {base : List (PageRow D)} {scans older : List (Scan D)} {sc : Scan D}

theorem rowsOf_cons (sc : Scan D) (older : List (Scan D)) :
    rowsOf d base (sc :: older) = sc.rows d ++ rowsOf d base older := by
  simp only [rowsOf, List.flatMap_cons, List.append_assoc]

theorem mem_rowsOf {r : PageRow D} : r ∈ rowsOf d base scans ↔ (∃ sc ∈ scans, r ∈ sc.rows d) ∨ r ∈ base := by
  simp only [rowsOf, List.mem_append, List.mem_flatMap]

theorem Chain.follows (h : Chain d version base scans) (hsc : sc ∈ scans) :
    ∃ older, (sc :: older) <:+ scans ∧ sc.Follows d version base older ∧ Chain d version base older := by
  induction h with
  | nil => nomatch hsc
  | @cons top older hf hc ih =>
    rcases List.mem_cons.mp hsc with rfl | hsc
    · exact ⟨older, List.suffix_refl _, hf, hc⟩
    · obtain ⟨older', hs, hf', hc'⟩ := ih hsc
      exact ⟨older', hs.trans (List.suffix_cons top older), hf', hc'⟩

theorem Chain.version_eq (h : Chain d version base scans) (hsc : sc ∈ scans) : sc.plan.sourceVersionRef = version := by
  obtain ⟨older, -, hf, -⟩ := h.follows hsc
  exact hf.version_eq

theorem Descending.head_le {rows : List (PageRow D)} (h : Descending rows) {top r : PageRow D}
    (htop : rows.head? = some top) (hr : r ∈ rows) : r.sequence ≤ top.sequence := by
  obtain ⟨rest, rfl⟩ := List.head?_eq_some_iff.mp htop
  rcases List.mem_cons.mp hr with rfl | hr
  · exact Nat.le_refl _
  · exact Nat.le_of_lt ((List.pairwise_cons.mp h).1 r hr)

theorem Descending.inj {rows : List (PageRow D)} (h : Descending rows) {a b : PageRow D} (ha : a ∈ rows) (hb : b ∈ rows)
    (heq : a.sequence = b.sequence) : a = b := by
  induction rows with
  | nil => nomatch ha
  | cons r rows ih =>
    obtain ⟨hlt, hrest⟩ := List.pairwise_cons.mp h
    rcases List.mem_cons.mp ha with rfl | ha' <;> rcases List.mem_cons.mp hb with rfl | hb'
    · rfl
    · have := hlt b hb'; omega
    · have := hlt a ha'; omega
    · exact ih hrest ha' hb'

theorem Descending.tail (h : Descending (rowsOf d base (sc :: older))) : Descending (rowsOf d base older) := by
  rw [rowsOf_cons] at h
  exact (List.pairwise_append.mp h).2.1

theorem rowsOf_suffix (h : older <:+ scans) : rowsOf d base older <:+ rowsOf d base scans := by
  obtain ⟨newer, rfl⟩ := h
  rw [rowsOf, rowsOf, List.flatMap_append, List.append_assoc]
  exact List.suffix_append _ _

/-- The epoch of a row digests an earlier head. -/
theorem Chain.row_epoch (h : Chain d version base scans) (hother : ∀ r ∈ base, r.sourceVersionRef ≠ version)
    (hdesc : Descending (rowsOf d base scans)) {r : PageRow D} (hr : r ∈ rowsOf d base scans)
    (hv : r.sourceVersionRef = version) :
    ∃ ref before, r.scanEpoch = d.epoch ⟨version, ref, before⟩ ∧ ∀ q ∈ before, q.sequence < r.sequence := by
  induction h with
  | nil => exact absurd hv (hother r (by simpa [rowsOf] using hr))
  | @cons sc older hf hc ih =>
    rw [rowsOf_cons, List.mem_append] at hr
    rcases hr with hr | hr
    · refine ⟨_, _, (Scan.row_scanEpoch hr).trans hf.epoch_eq, ?_⟩
      intro q hq
      obtain ⟨top, htop, rfl⟩ := Option.map_eq_some_iff.mp hq
      rw [rowsOf_cons] at hdesc
      exact (List.pairwise_append.mp hdesc).2.2 r hr top (List.mem_of_mem_head? htop)
    · exact ih hdesc.tail hr

/-- An epoch that follows the newest row is the epoch of no row. -/
theorem Chain.fresh (h : Chain d version base scans) (hother : ∀ r ∈ base, r.sourceVersionRef ≠ version)
    (hdesc : Descending (rowsOf d base scans)) (ref : D) : ∀ r ∈ rowsOf d base scans, r.sourceVersionRef = version →
      r.scanEpoch ≠ epochAfter d version ref (rowsOf d base scans) := by
  intro r hr hv heq
  obtain ⟨ref', before, hepoch, hlt⟩ := h.row_epoch hother hdesc hr hv
  have hdoc := d.epoch_inj (hepoch.symm.trans heq)
  have hbefore : before = (rowsOf d base scans).head?.map (PageRow.asEpochPredecessor ·) :=
    congrArg EpochDocument.predecessor hdoc
  cases htop : (rowsOf d base scans).head? with
  | none =>
    rw [List.head?_eq_none_iff] at htop
    rw [htop] at hr
    nomatch hr
  | some top =>
    rw [htop] at hbefore
    have hbelow : top.sequence < r.sequence := hlt (PageRow.asEpochPredecessor top) (by rw [hbefore]; rfl)
    have hbound := hdesc.head_le htop hr
    omega

section Decide

variable [DecidableEq D]

/-- The rows of one epoch of the version. -/
def epochRows (version : UUID) (epoch : D) (rows : List (PageRow D)) : List (PageRow D) :=
  rows.filter fun r => r.sourceVersionRef == version && r.scanEpoch == epoch

theorem epochRows_eq_nil {epoch : D} {rows : List (PageRow D)}
    (h : ∀ r ∈ rows, r.sourceVersionRef = version → r.scanEpoch ≠ epoch) : epochRows version epoch rows = [] := by
  refine List.filter_eq_nil_iff.mpr fun r hr => ?_
  simp only [Bool.and_eq_true, beq_iff_eq, not_and]
  exact h r hr

/-- The rows of a scan's epoch are the pages of the scan. -/
theorem Chain.epochRows_eq (h : Chain d version base scans) (hother : ∀ r ∈ base, r.sourceVersionRef ≠ version)
    (hdesc : Descending (rowsOf d base scans)) (hsc : sc ∈ scans) :
    epochRows version sc.plan.scanEpoch (rowsOf d base scans) = sc.rows d := by
  induction h with
  | nil => nomatch hsc
  | @cons top older hf hc ih =>
    have hfresh := hc.fresh hother hdesc.tail (top.plan.scanRef d)
    rw [← hf.epoch_eq] at hfresh
    rw [rowsOf_cons, epochRows, List.filter_append]
    rcases List.mem_cons.mp hsc with rfl | hsc
    · rw [show List.filter _ (rowsOf d base older) = [] from epochRows_eq_nil hfresh, List.append_nil]
      refine List.filter_eq_self.mpr fun r hr => ?_
      simp only [Bool.and_eq_true, beq_iff_eq]
      exact ⟨(Scan.row_version hr).trans hf.version_eq, Scan.row_scanEpoch hr⟩
    · have hne : sc.plan.scanEpoch ≠ top.plan.scanEpoch :=
        (Scan.row_scanEpoch (sc.last_mem d)).symm.trans_ne <|
          hfresh (sc.last d) (mem_rowsOf.mpr (.inl ⟨sc, hsc, sc.last_mem d⟩)) ((Scan.row_version (sc.last_mem d)).trans (hc.version_eq hsc))
      have hnil : epochRows version sc.plan.scanEpoch (top.rows d) = [] := epochRows_eq_nil fun r hr _ => by
        rw [Scan.row_scanEpoch hr]
        exact hne.symm
      rw [epochRows] at hnil
      rw [hnil, List.nil_append]
      exact ih hdesc.tail hsc

end Decide

end Rows

/-! ## Reads -/

theorem find?_eq_some_of_unique {α : Type} {p : α → Bool} {xs : List α} {a : α} (ha : a ∈ xs) (hp : p a = true)
    (hu : ∀ b ∈ xs, p b = true → b = a) : xs.find? p = some a := by
  cases hfind : xs.find? p with
  | none => exact absurd hp (by simpa using List.find?_eq_none.mp hfind a ha)
  | some b => rw [hu b (List.mem_of_find?_eq_some hfind) (List.find?_some hfind)]

/-- The row of a scan that a suffix of its sequences ends with is the only one after it. -/
theorem suffix_head_inj {seqs ns : List Nat} {n m : Nat} (hn : (n :: ns) <:+ seqs) (hm : (m :: ns) <:+ seqs) : n = m := by
  have heq := (List.suffix_of_suffix_length_le hn hm (Nat.le_refl _)).eq_of_length rfl
  exact (List.cons.inj heq).1

section Pages

variable {D : Type} {d : Digests D} {t : Tables D} {l : Legacy D d t.activeVersion} {scans older : List (Scan D)} {sc : Scan D}

theorem History.other_version (_ : History d t l scans) : ∀ r ∈ l.pages, r.sourceVersionRef ≠ t.activeVersion :=
  fun r hr => (l.other_version r hr).1

/-- A row of the active version is a page of a scan. -/
theorem History.mem_scans (h : History d t l scans) {r : PageRow D} (hr : r ∈ t.pages)
    (hv : r.sourceVersionRef = t.activeVersion) : ∃ sc ∈ scans, r ∈ sc.rows d := by
  rw [h.pages_eq, mem_rowsOf] at hr
  exact hr.resolve_right fun hbase => h.other_version r hbase hv

theorem History.row_mem (h : History d t l scans) (hsc : sc ∈ scans) {r : PageRow D} (hr : r ∈ sc.rows d) : r ∈ t.pages := by
  rw [h.pages_eq, mem_rowsOf]
  exact .inl ⟨sc, hsc, hr⟩

theorem History.row_version (h : History d t l scans) (hsc : sc ∈ scans) {r : PageRow D} (hr : r ∈ sc.rows d) :
    r.sourceVersionRef = t.activeVersion := (Scan.row_version hr).trans (h.chain.version_eq hsc)

/-- The page of a row of the tables. -/
theorem History.row_page (h : History d t l scans) {r : PageRow D} (hr : r ∈ t.pages) :
    ∃ p : ChangePage D, r.pageRef = d.page p ∧ p.sourceVersionRef = r.sourceVersionRef := by
  rw [h.pages_eq, mem_rowsOf] at hr
  rcases hr with ⟨sc, hsc, hr⟩ | hr
  · obtain ⟨n, ns, -, rfl⟩ := (Plan.mem_rows ..).mp hr
    exact ⟨_, rfl, rfl⟩
  · exact l.digest r hr

/-- A page of the active version that is in the tables is a page of one of the scans. -/
theorem History.page_of_row (h : History d t l scans) {r : PageRow D} (hr : r ∈ t.pages) {p : ChangePage D}
    (hp : r.pageRef = d.page p) (hv : p.sourceVersionRef = t.activeVersion) :
    ∃ sc ∈ scans, ∃ n ns, (n :: ns) <:+ (sc.newest :: sc.earlier) ∧ r = sc.plan.rowAfter d sc.superseded n ns ∧
      p = sc.plan.pageAfter d sc.superseded ns := by
  obtain ⟨p', hp', hv'⟩ := h.row_page hr
  have heq : p' = p := d.page_inj (hp'.symm.trans hp)
  obtain ⟨sc, hsc, hrow⟩ := h.mem_scans hr (by rw [← hv', heq, hv])
  obtain ⟨n, ns, hs, rfl⟩ := (Plan.mem_rows ..).mp hrow
  exact ⟨sc, hsc, n, ns, hs, rfl, d.page_inj hp.symm⟩

/-! ### The latest complete scan -/

theorem Scan.Follows.offset_le {version : UUID} {base : List (PageRow D)} (h : sc.Follows d version base older) :
    sc.earlier.length * sc.plan.pageLimit ≤ sc.plan.changes.length := by
  by_cases hnil : sc.earlier = []
  · simp [hnil]
  · exact Nat.le_of_lt (h.unfinished hnil)

theorem Scan.Follows.last_complete {version : UUID} {base : List (PageRow D)} (h : sc.Follows d version base older) :
    (sc.last d).complete = sc.complete := sc.plan.pageAfter_complete d sc.superseded sc.earlier h.offset_le

/-- Only the newest page of a scan can be its last. -/
theorem Scan.Follows.earlier_incomplete {version : UUID} {base : List (PageRow D)} (h : sc.Follows d version base older)
    {r : PageRow D} (hr : r ∈ sc.plan.rows d sc.superseded sc.earlier) : r.complete = false := by
  obtain ⟨n, ns, hs, rfl⟩ := (Plan.mem_rows ..).mp hr
  have hlen : ns.length + 1 ≤ sc.earlier.length := hs.length_le
  have hne : sc.earlier ≠ [] := by
    intro hnil
    rw [hnil] at hlen
    exact absurd hlen (Nat.not_succ_le_zero _)
  have hlt := h.unfinished hne
  have hmul : (ns.length + 1) * sc.plan.pageLimit ≤ sc.earlier.length * sc.plan.pageLimit := Nat.mul_le_mul_right _ hlen
  have hle : ns.length * sc.plan.pageLimit ≤ (ns.length + 1) * sc.plan.pageLimit :=
    Nat.mul_le_mul_right _ (Nat.le_succ _)
  refine (sc.plan.pageAfter_complete d sc.superseded ns (by omega)).trans ?_
  exact decide_eq_false (by omega)

theorem Chain.latestComplete_eq {version : UUID} {base : List (PageRow D)} (h : Chain d version base scans)
    (hother : ∀ r ∈ base, r.sourceVersionRef ≠ version) :
    (rowsOf d base scans).find? (fun r => r.sourceVersionRef == version && r.complete && r.binding.isSome) =
      (lastComplete scans).map (·.last d) := by
  induction h with
  | nil =>
    refine List.find?_eq_none.mpr fun r hr => ?_
    have hv := hother r (by simpa [rowsOf] using hr)
    simp [hv]
  | @cons sc older hf hc ih =>
    have hlast : ((sc.last d).sourceVersionRef == version && (sc.last d).complete && (sc.last d).binding.isSome) =
        sc.complete := by
      rw [Scan.row_version (sc.last_mem d), hf.version_eq, Scan.row_binding (sc.last_mem d), hf.last_complete]
      simp
    rw [rowsOf_cons, Scan.rows_eq, List.cons_append, List.find?_cons, hlast, lastComplete, List.find?_cons]
    cases hcomp : sc.complete with
    | true => rfl
    | false =>
      have hnone : (sc.plan.rows d sc.superseded sc.earlier).find?
          (fun r => r.sourceVersionRef == version && r.complete && r.binding.isSome) = none :=
        List.find?_eq_none.mpr fun r hr => by simp [hf.earlier_incomplete hr]
      rw [List.find?_append, hnone, Option.none_or]
      exact ih

theorem History.latestComplete_eq (h : History d t l scans) :
    t.latestComplete t.activeVersion = (lastComplete scans).map (·.last d) := by
  rw [Tables.latestComplete, h.pages_eq]
  exact h.chain.latestComplete_eq h.other_version

theorem lastComplete_mem (h : lastComplete scans = some sc) : sc ∈ scans ∧ sc.complete = true :=
  ⟨List.mem_of_find?_eq_some h, List.find?_some h⟩

theorem lastComplete_cons_of_not (h : sc.complete = false) : lastComplete (sc :: older) = lastComplete older := by
  rw [lastComplete, List.find?_cons, h]
  rfl

theorem lastComplete_cons_of_complete (h : sc.complete = true) : lastComplete (sc :: older) = some sc := by
  rw [lastComplete, List.find?_cons, h]

theorem Scan.mem_changes {c : Change} : (∃ r ∈ sc.rows d, c ∈ r.changes) ↔ c ∈ sc.plan.changes.take sc.taken := by
  have hrows := sc.plan.rows_changes d sc.superseded (sc.newest :: sc.earlier)
  rw [show sc.taken = (sc.newest :: sc.earlier).length * sc.plan.pageLimit from rfl, ← hrows, List.mem_flatMap]
  simp only [List.mem_reverse]
  rfl

/-! ### What Control reads -/

/-- The newest scan as Control reads it. -/
def Scan.head (d : Digests D) (sc : Scan D) : FileChangeScanHead D where
  sourceVersionRef := sc.plan.sourceVersionRef
  scanRef := sc.plan.scanRef d
  scanEpoch := sc.plan.scanEpoch
  pageLimit := sc.plan.pageLimit
  pageRef := (sc.last d).pageRef
  checkpointRef := (sc.last d).checkpointRef
  sequence := sc.newest
  complete := sc.complete
  scanBound := sc.plan.scanBound
  supersededScanEpoch := sc.superseded

/-- A complete scan as Control reads it. -/
def Scan.baseline (d : Digests D) (sc : Scan D) : FileChangeBaseline D :=
  ⟨(sc.last d).reference, sc.plan.baselineRef, sc.plan.changes⟩

theorem History.baseline_valid (h : History d t l scans) (hsc : sc ∈ scans) : (sc.baseline d).valid = true := by
  obtain ⟨older, hs, hf, -⟩ := h.chain.follows hsc
  have hdesc : Descending (rowsOf d l.pages (sc :: older)) := by
    have hall := h.descending
    rw [h.pages_eq] at hall
    exact hall.sublist (rowsOf_suffix hs).sublist
  have hbound : (sc.last d).reference.scanBound = sc.plan.scanBound := Scan.row_scanBound (sc.last_mem d)
  have hversion : (sc.last d).reference.sourceVersionRef = t.activeVersion := h.row_version hsc (sc.last_mem d)
  simp only [FileChangeBaseline.valid, Scan.baseline, Bool.and_eq_true, decide_eq_true_eq, hbound, hversion]
  refine ⟨⟨⟨hf.fits.trans hf.bound_range.2, hf.fits⟩, hf.ordered⟩, ?_⟩
  rw [hf.baseline_eq]
  cases hb : lastComplete older with
  | none => rfl
  | some b =>
    obtain ⟨hbmem, -⟩ := lastComplete_mem hb
    rw [rowsOf_cons] at hdesc
    have hlt := (List.pairwise_append.mp hdesc).2.2 (sc.last d) (sc.last_mem d) (b.last d)
      (mem_rowsOf.mpr (.inl ⟨b, hbmem, b.last_mem d⟩))
    have hbv : (b.last d).reference.sourceVersionRef = t.activeVersion :=
      h.row_version (hs.subset (List.mem_cons_of_mem _ hbmem)) (b.last_mem d)
    simp only [Option.map_some, Option.all_some, Bool.and_eq_true, beq_iff_eq]
    exact ⟨hbv, decide_eq_true hlt⟩

end Pages

section Tables

variable {D : Type} [DecidableEq D] {d : Digests D} {t : Tables D} {l : Legacy D d t.activeVersion}
  {scans older : List (Scan D)} {sc : Scan D}

/-- An epoch that follows the head is the epoch of no row. -/
theorem History.fresh (h : History d t l scans) (ref : D) :
    t.epoch t.activeVersion (epochAfter d t.activeVersion ref t.pages) = [] := by
  have hdesc := h.descending
  rw [h.pages_eq] at hdesc
  show epochRows _ _ t.pages = []
  rw [h.pages_eq]
  exact epochRows_eq_nil (h.chain.fresh h.other_version hdesc ref)

/-- The rows of a scan's epoch are the pages of that scan. -/
theorem History.epoch_eq (h : History d t l scans) (hsc : sc ∈ scans) :
    t.epoch t.activeVersion sc.plan.scanEpoch = sc.rows d := by
  have hdesc := h.descending
  rw [h.pages_eq] at hdesc
  show epochRows _ _ t.pages = _
  rw [h.pages_eq]
  exact h.chain.epochRows_eq h.other_version hdesc hsc

theorem scan_eq_filter_epoch (t : Tables D) (version : UUID) (ref epoch : D) :
    t.scan version ref epoch = (t.epoch version epoch).filter (·.scanRef == ref) := by
  rw [Tables.scan, Tables.epoch, List.filter_filter]
  refine List.filter_congr fun r _ => ?_
  rw [Bool.and_comm (r.scanRef == ref), Bool.and_assoc, Bool.and_assoc, Bool.and_comm (r.scanRef == ref)]

theorem History.scan_eq (h : History d t l scans) (hsc : sc ∈ scans) :
    t.scan t.activeVersion (sc.plan.scanRef d) sc.plan.scanEpoch = sc.rows d := by
  rw [scan_eq_filter_epoch, h.epoch_eq hsc]
  exact List.filter_eq_self.mpr fun r hr => beq_iff_eq.mpr (Scan.row_scanRef hr)

theorem History.scan_fresh (h : History d t l scans) (ref ref' : D) :
    t.scan t.activeVersion ref (epochAfter d t.activeVersion ref' t.pages) = [] := by
  rw [scan_eq_filter_epoch, h.fresh, List.filter_nil]

/-- A page of a scan that is in the tables is in them as a page of that scan. -/
theorem History.row_of_page (h : History d t l scans) (hsc : sc ∈ scans) {r : PageRow D} (hr : r ∈ t.pages) {ns : List Nat}
    (href : r.pageRef = d.page (sc.plan.pageAfter d sc.superseded ns)) :
    ∃ n, (n :: ns) <:+ (sc.newest :: sc.earlier) ∧ r = sc.plan.rowAfter d sc.superseded n ns := by
  have hpv : (sc.plan.pageAfter d sc.superseded ns).sourceVersionRef = t.activeVersion := by
    rw [Plan.pageAfter_version, h.chain.version_eq hsc]
  obtain ⟨sc', hsc', m, ms, hs', rfl, hp⟩ := h.page_of_row hr href hpv
  -- The same page has the same epoch, so the row is one of the scan's own.
  have hepoch : sc.plan.scanEpoch = sc'.plan.scanEpoch := by simpa using congrArg ChangePage.scanEpoch hp
  have hmem : sc'.plan.rowAfter d sc'.superseded m ms ∈ sc.rows d := by
    rw [← h.epoch_eq hsc, hepoch, h.epoch_eq hsc']
    exact (Plan.mem_rows ..).mpr ⟨m, ms, hs', rfl⟩
  obtain ⟨n, ks, hk, hrow⟩ := (Plan.mem_rows ..).mp hmem
  rw [hrow] at href ⊢
  have hks : ks = ns := sc.plan.pageAfter_inj d sc.superseded (d.page_inj href)
  subst hks
  exact ⟨n, hk, rfl⟩

/-- A page of the active version is known by its reference. -/
theorem History.row_inj (h : History d t l scans) {a b : PageRow D} (ha : a ∈ t.pages)
    (hv : a.sourceVersionRef = t.activeVersion) (hb : b ∈ t.pages) (heq : b.pageRef = a.pageRef) : b = a := by
  obtain ⟨sc, hsc, harow⟩ := h.mem_scans ha hv
  obtain ⟨n, ns, hs, rfl⟩ := (Plan.mem_rows ..).mp harow
  obtain ⟨m, hm, rfl⟩ := h.row_of_page hsc hb heq
  rw [suffix_head_inj hm hs]

theorem History.find_row (h : History d t l scans) {r : PageRow D} (hr : r ∈ t.pages)
    (hv : r.sourceVersionRef = t.activeVersion) {p : PageRow D → Bool} (hp : p r = true)
    (href : ∀ b, p b = true → b.pageRef = r.pageRef) : t.pages.find? p = some r :=
  find?_eq_some_of_unique hr hp fun b hb hpb => h.row_inj hr hv hb (href b hpb)

/-- The entries of a complete scan are its changes. -/
theorem History.entries_eq (h : History d t l scans) (hsc : sc ∈ scans) (hcomplete : sc.complete = true) :
    t.entries t.activeVersion sc.plan.scanEpoch = sc.plan.changes := by
  obtain ⟨hsorted, -⟩ := sc.plan.rows_ordinals d sc.superseded (sc.newest :: sc.earlier)
  have hrev : sortedBy (·.pageOrdinal) (sc.rows d) = (sc.rows d).reverse := by
    have hinj : ∀ a ∈ sc.rows d, ∀ b ∈ sc.rows d, a.pageOrdinal = b.pageOrdinal → a = b := by
      intro a ha b hb heq
      obtain ⟨n, ns, hn, rfl⟩ := (Plan.mem_rows ..).mp ha
      obtain ⟨m, ms, hm, rfl⟩ := (Plan.mem_rows ..).mp hb
      have hlen : (n :: ns).length = (m :: ms).length := heq
      have hlist := (List.suffix_of_suffix_length_le hn hm (Nat.le_of_eq hlen)).eq_of_length hlen
      obtain ⟨rfl, rfl⟩ := List.cons.inj hlist
      rfl
    rw [sortedBy_eq_of_perm (List.reverse_perm (sc.rows d)).symm (fun _ _ => rfl) hinj]
    exact sortedBy_of_pairwise hsorted
  rw [Tables.entries, h.epoch_eq hsc, hrev]
  refine (sc.plan.rows_changes d sc.superseded (sc.newest :: sc.earlier)).trans ?_
  exact List.take_of_length_le (of_decide_eq_true hcomplete)

theorem History.readHead_cons (h : History d t l (sc :: older)) : t.readHead = some (sc.head d) := by
  have hpages : t.pages = sc.last d :: (sc.plan.rows d sc.superseded sc.earlier ++ rowsOf d l.pages older) := by
    rw [h.pages_eq, rowsOf_cons, Scan.rows_eq, List.cons_append]
  have hmem : sc ∈ sc :: older := List.mem_cons_self ..
  cases h.chain with
  | cons hf _ =>
    obtain ⟨m, hm⟩ := sc.plan.find_initial d sc.superseded sc.newest sc.earlier
    rw [Tables.readHead, hpages, List.findSome?_cons, h.row_version hmem (sc.last_mem d),
      Scan.row_scanEpoch (sc.last_mem d), h.epoch_eq hmem, show (sc.rows d).find? _ = _ from hm, Option.map_some]
    show some (FileChangeScanHead.mk ..) = some (Scan.head d sc)
    rw [Scan.head, ← hf.last_complete, ← Scan.row_version (sc.last_mem d), h.row_version hmem (sc.last_mem d),
      ← Scan.row_scanRef (sc.last_mem d), ← Scan.row_scanBound (sc.last_mem d)]
    rfl

/-- The head that Control reads is the newest row. -/
theorem History.readHead_row (h : History d t l scans) :
    (t.readHead.map fun head => EpochPredecessor.mk head.checkpointRef head.pageRef head.scanEpoch head.sequence) =
      t.pages.head?.map (PageRow.asEpochPredecessor ·) := by
  cases scans with
  | cons sc older =>
    rw [h.readHead_cons, h.pages_eq, rowsOf_cons, Scan.rows_eq]
    show some _ = some (PageRow.asEpochPredecessor (sc.last d))
    rw [PageRow.asEpochPredecessor, Scan.row_scanEpoch (sc.last_mem d)]
    rfl
  | nil =>
    have hpages : t.pages = l.pages := h.pages_eq
    cases hrows : l.pages with
    | nil => simp [Tables.readHead, hpages, hrows]
    | cons r rest =>
      have hr : r ∈ l.pages := by rw [hrows]; exact List.mem_cons_self ..
      obtain ⟨i, hi, hv, he, ho⟩ := l.initial r hr
      have hfind : ((t.epoch r.sourceVersionRef r.scanEpoch).find? (·.pageOrdinal == 1)).isSome = true := by
        rw [List.find?_isSome]
        refine ⟨i, ?_, beq_iff_eq.mpr ho⟩
        rw [Tables.epoch, List.mem_filter, hpages]
        exact ⟨hi, by simp [hv, he]⟩
      obtain ⟨i', hi'⟩ := Option.isSome_iff_exists.mp hfind
      rw [Tables.readHead, hpages, hrows, List.findSome?_cons, hi']
      rfl

theorem History.readHead_version_of_nil (h : History d t l []) {head : FileChangeScanHead D}
    (hhead : t.readHead = some head) : head.sourceVersionRef ≠ t.activeVersion := by
  obtain ⟨r, hr, hsome⟩ := List.exists_of_findSome?_eq_some hhead
  obtain ⟨i, -, rfl⟩ := Option.map_eq_some_iff.mp hsome
  rw [h.pages_eq] at hr
  exact h.other_version r (by simpa [rowsOf] using hr)

/-- The baseline that Control reads is the latest complete scan. -/
theorem History.baseline_eq (h : History d t l scans) : t.baseline = (lastComplete scans).map (·.baseline d) := by
  rw [Tables.baseline, h.latestComplete_eq]
  cases hlast : lastComplete scans with
  | none => rfl
  | some sc =>
    obtain ⟨hsc, hcomplete⟩ := lastComplete_mem hlast
    obtain ⟨older, hs, hf, -⟩ := h.chain.follows hsc
    have hparent : ((sc.last d).binding.bind id).bind (fun parent => (t.pages.find? fun b =>
        b.sourceVersionRef == (sc.last d).sourceVersionRef && b.pageRef == parent).map (·.reference)) =
        sc.plan.baselineRef := by
      rw [Scan.row_binding (sc.last_mem d), h.row_version hsc (sc.last_mem d), hf.baseline_eq]
      cases hb : lastComplete older with
      | none => rfl
      | some b =>
        have hbmem : b ∈ scans := hs.subset (List.mem_cons_of_mem _ (lastComplete_mem hb).1)
        have hrow := h.row_version hbmem (b.last_mem d)
        have hfind : (t.pages.find? fun r => r.sourceVersionRef == t.activeVersion && r.pageRef == (b.last d).pageRef) =
            some (b.last d) :=
          h.find_row (h.row_mem hbmem (b.last_mem d)) hrow (by simp [hrow])
            fun r hr => beq_iff_eq.mp (Bool.and_eq_true_iff.mp hr).2
        exact congrArg (Option.map (·.reference)) hfind
    have hentries : t.entries (sc.last d).sourceVersionRef (sc.last d).scanEpoch = sc.plan.changes := by
      rw [h.row_version hsc (sc.last_mem d), Scan.row_scanEpoch (sc.last_mem d), h.entries_eq hsc hcomplete]
    rw [Option.map_some, Option.map_some, hparent, hentries]
    rfl

/-- What Control reads for the Provider. -/
theorem History.read_eq (h : History d t l scans) :
    t.read = some ⟨t.activeVersion, t.readHead, (lastComplete scans).map (·.baseline d)⟩ := by
  have hvalid : t.baseline.all (·.valid) = true := by
    rw [h.baseline_eq]
    cases hlast : lastComplete scans with
    | none => rfl
    | some sc => exact h.baseline_valid (lastComplete_mem hlast).1
  rw [Tables.read, if_pos hvalid, h.baseline_eq]

/-! ## Acceptance -/

/-- The accept function matches deletes against the changes of a complete scan. -/
theorem History.deleteMatches_iff (h : History d t l scans) (hsc : sc ∈ scans) (hcomplete : sc.complete = true) {c : Change} :
    t.deleteMatches t.activeVersion (some (sc.last d)) c = true ↔ Retracts sc.plan.changes c := by
  have htake : sc.plan.changes.take sc.taken = sc.plan.changes := List.take_of_length_le (of_decide_eq_true hcomplete)
  simp only [Tables.deleteMatches, Option.any_some, Scan.row_scanEpoch (sc.last_mem d), h.epoch_eq hsc, List.any_eq_true,
    Bool.and_eq_true, beq_iff_eq]
  refine ⟨?_, ?_⟩
  · rintro ⟨r, hr, u, hu, ⟨⟨hkind, hpath⟩, hsha⟩, hlen⟩
    exact ⟨u, htake ▸ Scan.mem_changes.mp ⟨r, hr, hu⟩, hkind, hpath, hsha, hlen⟩
  · rintro ⟨u, hu, hkind, hpath, hsha, hlen⟩
    obtain ⟨r, hr, hru⟩ := (Scan.mem_changes (d := d)).mpr (htake.symm ▸ hu)
    exact ⟨r, hr, u, hru, ⟨⟨hkind, hpath⟩, hsha⟩, hlen⟩

/-- A page's baseline row, where the page names the latest complete one of some scans. -/
theorem History.baselineOf_eq (h : History d t l scans) (hsub : ∀ b ∈ older, b ∈ scans) {p : ChangePage D}
    (hv : p.sourceVersionRef = t.activeVersion)
    (hbase : p.baselineRef = (lastComplete older).map fun b => (b.last d).reference) :
    t.baselineOf p = (lastComplete older).map (·.last d) := by
  rw [Tables.baselineOf, hbase, hv]
  cases hb : lastComplete older with
  | none => rfl
  | some b =>
    obtain ⟨hmem, hcomplete⟩ := lastComplete_mem hb
    have hsc := hsub b hmem
    obtain ⟨_, -, hf, -⟩ := h.chain.follows hsc
    have hversion := h.row_version hsc (b.last_mem d)
    have hlast : (b.last d).complete = true := hf.last_complete.trans hcomplete
    have hbound : (b.last d).binding.isSome = true := by
      rw [Scan.row_binding (b.last_mem d)]
      rfl
    refine h.find_row (h.row_mem hsc (b.last_mem d)) hversion ?_ ?_
    · simp only [PageRow.reference, hversion, beq_self_eq_true, hlast, hbound, Bool.and_self]
    · intro r hr
      simp only [Bool.and_eq_true, beq_iff_eq] at hr
      exact hr.1.1.1.1.1.1.2

theorem History.deletes_iff (h : History d t l scans) (hsub : ∀ b ∈ older, b ∈ scans) {p : ChangePage D}
    (hv : p.sourceVersionRef = t.activeVersion)
    (hbase : p.baselineRef = (lastComplete older).map fun b => (b.last d).reference) :
    (p.changes.all fun c => c.kind != .delete || t.deleteMatches p.sourceVersionRef (t.baselineOf p) c) = true ↔
      Retracted older p.changes := by
  rw [h.baselineOf_eq hsub hv hbase, hv, List.all_eq_true]
  refine forall_congr' fun c => forall_congr' fun _ => ?_
  rw [Bool.or_eq_true, bne_iff_ne, ← imp_iff_not_or]
  refine imp_congr_right fun _ => ?_
  cases hb : lastComplete older with
  | none => simp [Tables.deleteMatches]
  | some b =>
    obtain ⟨hmem, hcomplete⟩ := lastComplete_mem hb
    rw [Option.map_some, h.deleteMatches_iff (hsub b hmem) hcomplete]
    exact ⟨fun hc => ⟨b, rfl, hc⟩, fun ⟨b', hb', hc⟩ => Option.some.inj hb' ▸ hc⟩

end Tables

end ContextEngine.Adapters.FileSource
