/-
  ContextEngine.Control.ChangePageLogProofs — the accepted page log of a source, over every
  sequence of calls with any arguments (see `ContextEngine.Control.ChangePageLog`).

  Proved: an accepted page extends the head of the log or starts a new epoch on it, so the
  pages of an epoch are one unbroken block, numbered from 1, each on the one before it, the
  complete one last; refused calls and replays change nothing, and a replay is answered as
  the page was.
-/

import ContextEngine.Control.ChangePageLog

namespace ContextEngine.Control.PageLog

open ContextEngine.Machine ContextEngine.Postgres ContextEngine.Python ContextEngine.Runtime

variable {server : Server} {t t' : Tables} {p q : PageRow} {older : List PageRow}

/-! ## Logs -/

/-- Two pages of one epoch of one version. -/
def SameEpoch (p q : PageRow) : Prop := q.sourceVersionId = p.sourceVersionId ∧ q.scanEpoch = p.scanEpoch

/-- How a page stands on the pages before it. -/
inductive Extends (p : PageRow) (older : List PageRow) : Prop where
  /-- It starts an epoch that no page has, and names the head's epoch. -/
  | first (ordinal : p.pageOrdinal = 1) (predecessor : p.predecessorPageRef = none)
      (superseded : p.supersededScanEpoch = older.head?.map (·.scanEpoch)) (fresh : ∀ q ∈ older, ¬ SameEpoch p q)
  /-- It continues the head, which is not complete. -/
  | next {head : PageRow} {rest : List PageRow} (hold : older = head :: rest) (same : SameEpoch p head)
      (scan : head.scanRef = p.scanRef) (ordinal : p.pageOrdinal = head.pageOrdinal + 1)
      (predecessor : p.predecessorPageRef = some head.pageRef) (superseded : p.supersededScanEpoch = none)
      (incomplete : head.complete = false)

/-- The pages of a source, newest first. -/
inductive Log : List PageRow → Prop where
  | nil : Log []
  | cons {p : PageRow} {older : List PageRow} (log : Log older) (extends' : Extends p older)
      (sequence : ∀ q ∈ older, q.sequence < p.sequence) (fresh : ∀ q ∈ older, q.pageRef ≠ p.pageRef) : Log (p :: older)

theorem Log.tail (h : Log (p :: older)) : Log older := by cases h; assumption

theorem Log.of_append {newer : List PageRow} (h : Log (newer ++ older)) : Log older := by
  induction newer with
  | nil => exact h
  | cons p newer ih => exact ih h.tail

/-- Every epoch has its first page. -/
theorem Log.has_first {pages : List PageRow} (h : Log pages) (hp : p ∈ pages) :
    ∃ i ∈ pages, SameEpoch p i ∧ i.pageOrdinal = 1 := by
  induction h generalizing p with
  | nil => simp at hp
  | @cons newest older log hext hseq hfresh ih =>
    rcases List.mem_cons.mp hp with rfl | hp
    · cases hext with
      | first ordinal => exact ⟨p, by simp, ⟨rfl, rfl⟩, ordinal⟩
      | next hold same =>
        obtain ⟨i, hi, hsame, hone⟩ := ih (p := _) (by rw [hold]; exact List.mem_cons_self)
        exact ⟨i, List.mem_cons_of_mem _ hi, ⟨hsame.1.trans same.1, hsame.2.trans same.2⟩, hone⟩
    · obtain ⟨i, hi, hsame, hone⟩ := ih hp
      exact ⟨i, List.mem_cons_of_mem _ hi, hsame, hone⟩

/-- Page refs name one page each. -/
theorem Log.eq_of_pageRef {pages : List PageRow} (h : Log pages) (hp : p ∈ pages) (hq : q ∈ pages)
    (href : p.pageRef = q.pageRef) : p = q := by
  induction h with
  | nil => simp at hp
  | cons log hext hseq hfresh ih =>
    rcases List.mem_cons.mp hp with rfl | hp'
    · rcases List.mem_cons.mp hq with rfl | hq'
      · rfl
      · exact absurd href.symm (hfresh q hq')
    · rcases List.mem_cons.mp hq with rfl | hq'
      · exact absurd href (hfresh p hp')
      · exact ih hp' hq'

/-- The pages of an epoch in a list of pages. -/
def epochOf (v e : UUID) (pages : List PageRow) : List PageRow :=
  pages.filter fun p => p.sourceVersionId == v && p.scanEpoch == e

theorem mem_epochOf {v e : UUID} {pages : List PageRow} :
    p ∈ epochOf v e pages ↔ p ∈ pages ∧ p.sourceVersionId = v ∧ p.scanEpoch = e := by
  simp [epochOf]

theorem epochOf_cons_of_eq {v e : UUID} (h : p.sourceVersionId = v ∧ p.scanEpoch = e) :
    epochOf v e (p :: older) = p :: epochOf v e older := by
  rw [epochOf, List.filter_cons_of_pos (by simp [h]), epochOf]

theorem epochOf_cons_of_ne {v e : UUID} (h : ¬ (p.sourceVersionId = v ∧ p.scanEpoch = e)) :
    epochOf v e (p :: older) = epochOf v e older := by
  rw [epochOf, List.filter_cons_of_neg (by simpa using h), epochOf]

/-- A page's ordinal is its place in its epoch. -/
theorem Log.ordinal_eq (h : Log (p :: older)) :
    p.pageOrdinal = (epochOf p.sourceVersionId p.scanEpoch older).length + 1 := by
  induction older generalizing p with
  | nil =>
    cases h with
    | cons log hext =>
      cases hext with
      | first ordinal => exact ordinal
      | next hold => cases hold
  | cons head rest ih =>
    cases h with
    | cons log hext =>
      cases hext with
      | first ordinal predecessor superseded fresh =>
        have hempty : epochOf p.sourceVersionId p.scanEpoch (head :: rest) = [] :=
          List.eq_nil_iff_forall_not_mem.mpr fun q hq => fresh q (mem_epochOf.mp hq).1 (mem_epochOf.mp hq).2
        rw [hempty, ordinal]
        rfl
      | next hold same scan ordinal =>
        cases hold
        rw [epochOf_cons_of_eq same, List.length_cons, ordinal, ih log, same.1, same.2]

/-- Newest first, the ordinals of an epoch count down to 1. -/
theorem Log.ordinals {pages : List PageRow} (h : Log pages) (v e : UUID) :
    (epochOf v e pages).map (·.pageOrdinal) = (List.range' 1 (epochOf v e pages).length).reverse := by
  induction h with
  | nil => rfl
  | @cons newest older log hext hseq hfresh ih =>
    by_cases hsame : newest.sourceVersionId = v ∧ newest.scanEpoch = e
    · have hordinal := (Log.cons log hext hseq hfresh).ordinal_eq
      rw [hsame.1, hsame.2] at hordinal
      rw [epochOf_cons_of_eq hsame, List.map_cons, ih, hordinal, List.length_cons, List.range'_concat]
      simp [Nat.add_comm]
    · rw [epochOf_cons_of_ne hsame]
      exact ih

theorem Log.ordinal_le {pages : List PageRow} (h : Log pages) {v e : UUID} (hp : p ∈ epochOf v e pages) :
    1 ≤ p.pageOrdinal ∧ p.pageOrdinal ≤ (epochOf v e pages).length := by
  have hmem : p.pageOrdinal ∈ (epochOf v e pages).map (·.pageOrdinal) := List.mem_map_of_mem hp
  rw [h.ordinals, List.mem_reverse, List.mem_range'_1] at hmem
  omega

/-- A page follows the page of its epoch with the ordinal before its own. -/
theorem Log.predecessor {pages : List PageRow} (h : Log pages) {v e : UUID} (hp : p ∈ epochOf v e pages) :
    (p.pageOrdinal = 1 → p.predecessorPageRef = none) ∧
      ∀ q ∈ epochOf v e pages, p.pageOrdinal = q.pageOrdinal + 1 → p.predecessorPageRef = some q.pageRef := by
  induction h with
  | nil => simp [epochOf] at hp
  | @cons newest older log hext hseq hfresh ih =>
    by_cases hsame : newest.sourceVersionId = v ∧ newest.scanEpoch = e
    · have hordinal := (Log.cons log hext hseq hfresh).ordinal_eq
      rw [hsame.1, hsame.2] at hordinal
      rw [epochOf_cons_of_eq hsame] at hp ⊢
      rcases List.mem_cons.mp hp with rfl | hp'
      · cases hext with
        | first ordinal predecessor superseded fresh =>
          refine ⟨fun _ => predecessor, ?_⟩
          intro q hq hnext
          rcases List.mem_cons.mp hq with rfl | hq
          · omega
          · have := log.ordinal_le hq
            omega
        | @next head rest hold same scan ordinal predecessor =>
          subst hold
          have hhead := log.ordinal_eq
          refine ⟨fun hone => ?_, ?_⟩
          · omega
          · intro q hq hnext
            rcases List.mem_cons.mp hq with rfl | hq
            · omega
            · -- the only page of the epoch with the head's ordinal is the head
              have hv : head.sourceVersionId = v ∧ head.scanEpoch = e := ⟨same.1.trans hsame.1, same.2.trans hsame.2⟩
              rw [epochOf_cons_of_eq hv] at hq
              rcases List.mem_cons.mp hq with rfl | hq
              · exact predecessor
              · have := log.tail.ordinal_le hq
                rw [hv.1, hv.2] at hhead
                omega
      · refine ⟨(ih hp').1, ?_⟩
        intro q hq hnext
        rcases List.mem_cons.mp hq with rfl | hq
        · have := log.ordinal_le hp'
          omega
        · exact (ih hp').2 q hq hnext
    · rw [epochOf_cons_of_ne hsame] at hp ⊢
      exact ih hp

/-- A complete page is the last of its epoch. -/
theorem Log.complete_last {pages : List PageRow} (h : Log pages) {v e : UUID} (hp : p ∈ epochOf v e pages)
    (hcomplete : p.complete = true) : p.pageOrdinal = (epochOf v e pages).length := by
  induction h with
  | nil => simp [epochOf] at hp
  | @cons newest older log hext hseq hfresh ih =>
    by_cases hsame : newest.sourceVersionId = v ∧ newest.scanEpoch = e
    · have hordinal := (Log.cons log hext hseq hfresh).ordinal_eq
      rw [hsame.1, hsame.2] at hordinal
      rw [epochOf_cons_of_eq hsame] at hp ⊢
      rcases List.mem_cons.mp hp with rfl | hp
      · exact hordinal
      · exfalso
        have hlast := ih hp
        cases hext with
        | first ordinal predecessor superseded fresh =>
          exact fresh p (mem_epochOf.mp hp).1 ⟨(mem_epochOf.mp hp).2.1.trans hsame.1.symm,
            (mem_epochOf.mp hp).2.2.trans hsame.2.symm⟩
        | @next head rest hold same scan ordinal predecessor superseded incomplete =>
          subst hold
          have hv : head.sourceVersionId = v ∧ head.scanEpoch = e := ⟨same.1.trans hsame.1, same.2.trans hsame.2⟩
          rw [epochOf_cons_of_eq hv] at hp hlast
          rcases List.mem_cons.mp hp with rfl | hp
          · rw [hcomplete] at incomplete
            cases incomplete
          · have := log.tail.ordinal_le hp
            rw [List.length_cons] at hlast
            omega
    · rw [epochOf_cons_of_ne hsame] at hp ⊢
      exact ih hp

theorem Log.sequences {pages : List PageRow} (h : Log pages) :
    pages.Pairwise fun newer older => older.sequence < newer.sequence := by
  induction h with
  | nil => exact List.Pairwise.nil
  | cons log hext hseq hfresh ih => exact List.pairwise_cons.mpr ⟨hseq, ih⟩

/-! ## Acceptance -/

/-- The source is active under the version and the manifest. -/
def Serves (t : Tables) (manifest : Manifest) (version : UUID) : Prop :=
  t.sourceActive = true ∧ t.activeVersionId = version ∧ t.manifest version = manifest

/-- The source did not move. -/
structure SameSource (t t' : Tables) : Prop where
  version : t'.activeVersionId = t.activeVersionId
  active : t'.sourceActive = t.sourceActive
  manifest : t'.manifest = t.manifest

theorem SameSource.serves {manifest : Manifest} {version : UUID} (h : SameSource t t') (hs : Serves t manifest version) :
    Serves t' manifest version :=
  ⟨h.active.trans hs.1, h.version.trans hs.2.1, by rw [h.manifest]; exact hs.2.2⟩

/-- A page that is not in the tables, and that they take. -/
structure Taken (server : Server) (t : Tables) (a : Arguments) (p : PageRow) : Prop where
  absent : ∀ q ∈ t.pages, q.pageRef ≠ a.pageRef
  follows : t.followsHead a = true
  row : ∃ n bound binding now, t.nextOrdinal a = some n ∧ p = t.newRow server a n bound binding now
  admits : t.admits p = true

theorem acceptPage_eq_some {manifest : Manifest} {a : Arguments} {bound : Int} {binding : Option (Option String)}
    {now : Timestamp} {receipt : Receipt} (h : acceptPage server t manifest a bound binding now = some (receipt, t')) :
    Serves t manifest a.sourceVersionId ∧
      ((∃ p, t.pages.find? (·.pageRef = a.pageRef) = some p ∧ a.replays p = true ∧ t.receipt p = some receipt ∧ t' = t) ∨
        ∃ p, Taken server t a p ∧ p.scanBound = bound ∧ p.binding = binding ∧ t' = t.insert p ∧
          t'.receipt p = some receipt) := by
  simp only [acceptPage, Option.bind_eq_bind, Option.bind_eq_some_iff, Option.guard_eq_some', exists_const] at h
  obtain ⟨hserves, h⟩ := h
  refine ⟨hserves, ?_⟩
  split at h
  next p hp =>
    simp only [Option.bind_eq_some_iff, Option.guard_eq_some', exists_const, Option.some.injEq, Prod.mk.injEq] at h
    obtain ⟨hreplays, _, hreceipt, rfl, rfl⟩ := h
    exact .inl ⟨p, hp, hreplays, hreceipt, rfl⟩
  next hnone =>
    simp only [Option.bind_eq_some_iff, Option.guard_eq_some', exists_const, Option.some.injEq, Prod.mk.injEq] at h
    obtain ⟨hfollows, n, hn, hadmits, _, hreceipt, rfl, rfl⟩ := h
    refine .inr ⟨_, ⟨?_, hfollows, ⟨n, _, _, _, hn, rfl⟩, hadmits⟩, rfl, rfl, rfl, hreceipt⟩
    intro q hq href
    have := List.find?_eq_none.mp hnone q hq
    simp [href] at this

theorem acceptPage_of_row {manifest : Manifest} {a : Arguments} {bound : Int} {binding : Option (Option String)}
    {receipt : Receipt} (hserves : Serves t manifest a.sourceVersionId)
    (hp : t.pages.find? (·.pageRef = a.pageRef) = some p) (hreplays : a.replays p = true)
    (hreceipt : t.receipt p = some receipt) (now : Timestamp) :
    acceptPage server t manifest a bound binding now = some (receipt, t) := by
  simp only [acceptPage, Option.bind_eq_bind, Option.bind_eq_some_iff, Option.guard_eq_some', exists_const]
  refine ⟨hserves, ?_⟩
  rw [hp]
  simp [hreplays, hreceipt]

/-- A page that the tables take extends their log. -/
theorem Taken.extends' {a : Arguments} (h : Taken server t a p) (hlog : Log t.pages) : Extends p t.pages := by
  obtain ⟨n, bound, binding, now, hn, rfl⟩ := h.row
  have hfollows := h.follows
  cases hpred : a.predecessorPageRef with
  | none =>
    simp only [Tables.followsHead, hpred, beq_iff_eq] at hfollows
    have hone : n = 1 := by
      unfold Tables.nextOrdinal at hn
      split at hn
      · simpa [hpred, eq_comm] using hn
      · simp [hpred] at hn
    subst hone
    refine .first rfl hpred hfollows ?_
    -- the first ordinal of the epoch is free, and an epoch without its first page has none
    intro q hq hsame
    obtain ⟨i, hi, hsame', hi1⟩ := hlog.has_first hq
    have hadmits := h.admits
    simp only [Tables.admits, Bool.and_eq_true, List.all_eq_true] at hadmits
    have := hadmits.1.1.1.1.1.1.2 i (List.mem_filter.mpr ⟨hi, by
      simp only [Bool.and_eq_true, beq_iff_eq]
      exact ⟨hsame'.1.trans hsame.1, hsame'.2.trans hsame.2⟩⟩)
    simp [hi1, Tables.newRow] at this
  | some ref =>
    simp only [Tables.followsHead, hpred] at hfollows
    obtain ⟨head, hhead, hmatch⟩ := (Option.any_eq_true _ _).mp hfollows
    simp only [Bool.and_eq_true, beq_iff_eq] at hmatch
    unfold Tables.nextOrdinal at hn
    split at hn
    · simp [hpred] at hn
    next last hlast =>
      simp only [hpred, Option.some.injEq, Option.ite_none_right_eq_some] at hn
      obtain ⟨⟨href, hincomplete⟩, hordinal⟩ := hn
      have hlastmem : last ∈ t.scan a := List.mem_of_head? hlast
      have hlastscan := List.mem_filter.mp hlastmem
      have hheadmem : head ∈ t.pages := List.mem_of_head? hhead
      have heq : last = head := hlog.eq_of_pageRef hlastscan.1 hheadmem (by rw [← href, hmatch.1.1])
      subst heq
      have hscan := hlastscan.2
      simp only [Bool.and_eq_true, beq_iff_eq] at hscan
      obtain ⟨rest, hrest⟩ : ∃ rest, t.pages = last :: rest := by
        cases hpages : t.pages with
        | nil => rw [hpages] at hhead; cases hhead
        | cons x xs => rw [hpages] at hhead; cases hhead; exact ⟨xs, rfl⟩
      have hnotcomplete := List.all_eq_true.mp hincomplete last hlastmem
      refine .next hrest ⟨hscan.1.1, hscan.2⟩ hscan.1.2 hordinal.symm ?_ ?_ (by simpa using hnotcomplete)
      · rw [← href]; exact hpred
      · rcases a.exclusive with h | h
        · rw [hpred] at h; cases h
        · exact h

/-! ## Steps -/

/-- What every reachable state satisfies. -/
structure Inv (t : Tables) : Prop where
  log : Log t.pages
  last : ∀ p ∈ t.pages, p.sequence ≤ t.lastSequence
  /-- Pages of a v4 version carry their binding. -/
  binding : ∀ p ∈ t.pages, t.manifest p.sourceVersionId = .v4 → p.binding.isSome = true

theorem acceptFileChangePage_eq_some {r : PageRequest} {now : Timestamp} {receipt : Receipt} :
    acceptFileChangePage server t r now = some (receipt, t') ↔
      ∃ a, r.arguments server = some a ∧ acceptPage server t .v3 a 10000 none now = some (receipt, t') := by
  simp [acceptFileChangePage, Option.bind_eq_some_iff]

/-- What a bounded call has checked before it reaches the page. -/
structure Bounded (server : Server) (t : Tables) (a : Arguments) (bound : Int) (baseline : Option Jsonb)
    (requested : Option PageRow) : Prop where
  range : 1 ≤ bound ∧ bound ≤ 15000
  scan : ∀ p ∈ t.scan a, p.scanBound = bound
  total : (changeCount ((t.scan a).filter fun p => decide (p.pageRef ≠ a.pageRef)) : Int) + a.changes.length ≤ bound
  baseline : t.requestedBaseline server a.sourceVersionId baseline = some requested
  deletes : ∀ c ∈ a.changes, c.changeKind = "delete" → t.deleteMatches a.sourceVersionId requested c = true

theorem acceptBounded_eq_some {r : PageRequest} {scanBound : Option Int} {baseline : Option Jsonb} {now : Timestamp}
    {receipt : Receipt} (h : acceptBounded server t r scanBound baseline now = some (receipt, t')) :
    ∃ a bound requested t₁, r.arguments server = some a ∧ scanBound = some bound ∧
      Bounded server t a bound baseline requested ∧
      (∀ p, t.pages.find? (fun p => p.sourceVersionId == a.sourceVersionId && p.pageRef == a.pageRef && p.binding.isSome) =
        some p → p.binding = some (requested.map (·.pageRef))) ∧
      acceptPage server t .v4 a bound (some (requested.map (·.pageRef))) now = some (receipt, t₁) ∧
      receipt.scanBound = bound ∧
      t' = if a.complete = true ∧
        (t.pages.any fun p => decide (p.sourceVersionId = a.sourceVersionId ∧ p.pageRef = a.pageRef)) = false then
        { t₁ with scanRefusal := none } else t₁ := by
  simp only [acceptBounded, acceptFileDeleteObservationPage, Option.bind_eq_bind, Option.bind_eq_some_iff,
    Option.guard_eq_some', exists_const, Option.some.injEq, Prod.mk.injEq] at h
  obtain ⟨a, ha, bound, hbound, hrange, hscan, htotal, ⟨_, t₁⟩, ⟨requested, hrequested, hdeletes, h⟩, hretained, rfl, rfl⟩ := h
  refine ⟨a, bound, requested, t₁, ha, hbound, ⟨hrange, ?_, htotal, hrequested, ?_⟩, ?_⟩
  · intro p hp
    simpa using List.all_eq_true.mp hscan p hp
  · intro c hc hdelete
    simpa [hdelete] using List.all_eq_true.mp hdeletes c hc
  · split at h
    next p hp =>
      simp only [Option.bind_eq_some_iff, Option.guard_eq_some', exists_const] at h
      refine ⟨?_, h.2, hretained, rfl⟩
      intro p' hp'
      rw [hp] at hp'
      cases hp'
      exact h.1
    next hnone =>
      simp only [Option.bind_eq_some_iff, Option.guard_eq_some', exists_const] at h
      obtain ⟨expected, -, -, -, h⟩ := h
      refine ⟨?_, h, hretained, rfl⟩
      intro p' hp'
      rw [hnone] at hp'
      cases hp'

/-- The calls of the accept functions. -/
def Call.isAccept : Call → Bool
  | .accept .. => true
  | .acceptBounded .. => true
  | _ => false

def Call.isActivate : Call → Bool
  | .activate .. => true
  | _ => false

/-- Everything a step can do. -/
inductive Effect (server : Server) (t : Tables) : Call → Tables → Option Receipt → Prop where
  | refused {c : Call} : Effect server t c t none
  | replayed {c : Call} {receipt : Receipt} : Effect server t c t (some receipt)
  | appended {c : Call} {t' : Tables} {receipt : Receipt} {a : Arguments} {p : PageRow} {manifest : Manifest}
      (accept : c.isAccept = true) (serves : Serves t manifest a.sourceVersionId) (taken : Taken server t a p)
      (pages : t'.pages = p :: t.pages) (last : t'.lastSequence = p.sequence)
      (source : SameSource t t')
      (bounded : manifest = .v4 → p.binding.isSome = true ∧ (∀ q ∈ t.scan a, q.scanBound = p.scanBound) ∧
        (changeCount (t.scan a) : Int) + a.changes.length ≤ p.scanBound) :
    Effect server t c t' (some receipt)
  /-- A checkpoint that is no page's. -/
  | checkpoint : Effect server t .checkpoint { t with lastSequence := t.lastSequence + 1 } none
  | activate (version : UUID) (active : Bool) :
    Effect server t (.activate version active) { t with activeVersionId := version, sourceActive := active } none

/-- Before a page is taken, no page of its scan carries its ref. -/
theorem Taken.scan_filter {a : Arguments} (h : Taken server t a p) :
    (t.scan a).filter (fun q => decide (q.pageRef ≠ a.pageRef)) = t.scan a := by
  rw [List.filter_eq_self]
  intro q hq
  simpa using h.absent q (List.mem_filter.mp hq).1

theorem step_effect (server : Server) (t : Tables) (c : Call) :
    Effect server t c (step server t c).1 (step server t c).2 := by
  cases c with
  | accept r now =>
    rw [step]
    rcases h : acceptFileChangePage server t r now with _ | ⟨receipt, t'⟩
    · exact .refused
    · obtain ⟨a, -, h⟩ := acceptFileChangePage_eq_some.mp h
      obtain ⟨hserves, ⟨p, -, -, -, rfl⟩ | ⟨p, htaken, -, -, rfl, -⟩⟩ := acceptPage_eq_some h
      · exact .replayed
      · exact .appended rfl hserves htaken rfl rfl ⟨rfl, rfl, rfl⟩ (by rintro ⟨⟩)
  | acceptBounded r scanBound baseline now =>
    rw [step]
    rcases h : acceptBounded server t r scanBound baseline now with _ | ⟨receipt, t'⟩
    · exact .refused
    · obtain ⟨a, bound, requested, t₁, -, -, hbounded, -, hpage, -, rfl⟩ := acceptBounded_eq_some h
      obtain ⟨hserves, ⟨p, hp, hreplays, -, rfl⟩ | ⟨p, htaken, rfl, hbinding, rfl, -⟩⟩ := acceptPage_eq_some hpage
      · -- the page is in the tables, so the refusal is not cleared
        have hexists : (t₁.pages.any fun p =>
            decide (p.sourceVersionId = a.sourceVersionId ∧ p.pageRef = a.pageRef)) = true := by
          refine List.any_eq_true.mpr ⟨p, List.mem_of_find?_eq_some hp, ?_⟩
          simp only [Arguments.replays, Bool.and_eq_true, beq_iff_eq] at hreplays
          simpa [hreplays.1.1.1.1.1.1] using List.find?_some hp
        simp only [hexists, Bool.true_eq_false, and_false, if_false]
        exact .replayed
      · dsimp only
        refine .appended rfl hserves htaken ?_ ?_ ?_ (fun _ => ⟨by rw [hbinding]; rfl, hbounded.scan, ?_⟩)
        · split <;> rfl
        · split <;> rfl
        · split <;> exact ⟨rfl, rfl, rfl⟩
        · have := hbounded.total
          rwa [htaken.scan_filter] at this
  | checkpoint => exact .checkpoint
  | activate version active => exact .activate version active

theorem Taken.sequence {a : Arguments} (h : Taken server t a p) : p.sequence = t.lastSequence + 1 := by
  obtain ⟨n, bound, binding, now, -, rfl⟩ := h.row
  rfl

theorem Taken.pageRef {a : Arguments} (h : Taken server t a p) : p.pageRef = a.pageRef := by
  obtain ⟨n, bound, binding, now, -, rfl⟩ := h.row
  rfl

theorem Inv.effect {c : Call} {reply : Option Receipt} (hi : Inv t) (h : Effect server t c t' reply) : Inv t' := by
  cases h with
  | refused => exact hi
  | replayed => exact hi
  | @appended _ _ _ a p manifest accept serves taken pages last source bounded =>
    refine ⟨?_, ?_, ?_⟩
    · rw [pages]
      refine .cons hi.log (taken.extends' hi.log) ?_ ?_
      · intro q hq
        have := hi.last q hq
        have := taken.sequence
        omega
      · intro q hq
        rw [taken.pageRef]
        exact taken.absent q hq
    · rw [pages, last]
      intro q hq
      rcases List.mem_cons.mp hq with rfl | hq
      · exact le_rfl
      · have := hi.last q hq
        have := taken.sequence
        omega
    · rw [pages, source.manifest]
      intro q hq hv4
      rcases List.mem_cons.mp hq with rfl | hq
      · refine (bounded ?_).1
        obtain ⟨n, bound, binding, now, -, rfl⟩ := taken.row
        exact serves.2.2.symm.trans hv4
      · exact hi.binding q hq hv4
  | checkpoint => exact ⟨hi.log, fun p hp => Nat.le_succ_of_le (hi.last p hp), hi.binding⟩
  | activate => exact ⟨hi.log, hi.last, hi.binding⟩

/-- From a source without pages, every run keeps the log. -/
theorem reaches (h₀ : t.pages = []) (calls : List Call) : Inv (after (step server) t calls) := by
  refine after_inv Inv (fun s c hs => hs.effect (step_effect server s c)) ⟨?_, ?_, ?_⟩ calls
  · rw [h₀]; exact .nil
  · rw [h₀]; intro p hp; cases hp
  · rw [h₀]; intro p hp; cases hp

/-- Without a move of the source, every page is of the source's version. -/
theorem one_version (h₀ : t.pages = []) {calls : List Call} (hstill : ∀ c ∈ calls, c.isActivate = false) :
    ∀ p ∈ (after (step server) t calls).pages, p.sourceVersionId = t.activeVersionId := by
  suffices h : ∀ (calls : List Call) (s : Tables), (∀ c ∈ calls, c.isActivate = false) →
      s.activeVersionId = t.activeVersionId → (∀ p ∈ s.pages, p.sourceVersionId = t.activeVersionId) →
      ∀ p ∈ (after (step server) s calls).pages, p.sourceVersionId = t.activeVersionId by
    exact h calls t hstill rfl (by rw [h₀]; intro p hp; cases hp)
  intro calls
  induction calls with
  | nil => intro s _ _ hs; exact hs
  | cons c calls ih =>
    intro s hcalls hversion hs
    have hc := hcalls c List.mem_cons_self
    have heffect := step_effect server s c
    rw [after_cons]
    refine ih _ (fun d hd => hcalls d (List.mem_cons_of_mem _ hd)) ?_ ?_
    · generalize (step server s c).1 = s', (step server s c).2 = reply at heffect
      cases heffect with
      | refused | replayed | checkpoint => exact hversion
      | appended accept serves taken pages last source => rw [source.version, hversion]
      | activate => cases hc
    · generalize (step server s c).1 = s', (step server s c).2 = reply at heffect
      cases heffect with
      | refused | replayed | checkpoint => exact hs
      | @appended _ _ _ a p manifest accept serves taken pages =>
        rw [pages]
        intro q hq
        rcases List.mem_cons.mp hq with rfl | hq
        · obtain ⟨n, bound, binding, now, -, rfl⟩ := taken.row
          exact serves.2.1.symm.trans hversion
        · exact hs q hq
      | activate => cases hc

/-! ## Replays -/

/-- The page of the arguments is in the tables, under them, and is answered by the receipt. -/
structure Answered (t : Tables) (manifest : Manifest) (a : Arguments) (p : PageRow) (receipt : Receipt) : Prop where
  serves : Serves t manifest a.sourceVersionId
  row : t.pages.find? (·.pageRef = a.pageRef) = some p
  replays : a.replays p = true
  receipt : t.receipt p = some receipt

theorem Answered.mem {manifest : Manifest} {a : Arguments} {receipt : Receipt} (h : Answered t manifest a p receipt) :
    p ∈ t.pages := List.mem_of_find?_eq_some h.row

theorem Answered.pageRef {manifest : Manifest} {a : Arguments} {receipt : Receipt} (h : Answered t manifest a p receipt) :
    p.pageRef = a.pageRef := by
  simpa using List.find?_some h.row

/-- A newer page leaves the answer for an older one as it was. -/
theorem receipt_stays {a : Arguments} {receipt : Receipt} (htaken : Taken server t a q) (hpages : t'.pages = q :: t.pages)
    (h : t.receipt p = some receipt) : t'.receipt p = some receipt := by
  simp only [Tables.receipt, Option.map_eq_some_iff] at h ⊢
  obtain ⟨i, hi, rfl⟩ := h
  refine ⟨i, ?_, rfl⟩
  have hone : i.pageOrdinal = 1 := by simpa using List.find?_some hi
  have hepoch := List.mem_of_find?_eq_some hi
  change (epochOf p.sourceVersionId p.scanEpoch t'.pages).find? _ = some i
  rw [hpages]
  by_cases hsame : q.sourceVersionId = p.sourceVersionId ∧ q.scanEpoch = p.scanEpoch
  · rw [epochOf_cons_of_eq hsame, List.find?_cons_of_neg]
    · exact hi
    · -- the epoch has its first page, and ordinals are not given twice
      have hadmits := htaken.admits
      simp only [Tables.admits, Bool.and_eq_true, List.all_eq_true, hsame] at hadmits
      have := hadmits.1.1.1.1.1.1.2 i hepoch
      simp only [hone, bne_iff_ne, ne_eq] at this
      simpa using fun h => this h.symm
  · rw [epochOf_cons_of_ne hsame]
    exact hi

theorem Answered.stays {manifest : Manifest} {a a' : Arguments} {receipt : Receipt} (h : Answered t manifest a p receipt)
    (htaken : Taken server t a' q) (hpages : t'.pages = q :: t.pages)
    (hsource : SameSource t t') : Answered t' manifest a p receipt where
  serves := hsource.serves h.serves
  row := by
    have hne : q.pageRef ≠ a.pageRef := by
      rw [htaken.pageRef, ← h.pageRef]
      exact (htaken.absent p h.mem).symm
    rw [hpages, List.find?_cons_of_neg (by simpa using hne)]
    exact h.row
  replays := h.replays
  receipt := receipt_stays htaken hpages h.receipt

theorem answered_of_acceptPage {manifest : Manifest} {a : Arguments} {bound : Int} {binding : Option (Option String)}
    {now : Timestamp} {receipt : Receipt} (h : acceptPage server t manifest a bound binding now = some (receipt, t')) :
    ∃ p, Answered t' manifest a p receipt := by
  obtain ⟨hserves, ⟨p, hp, hreplays, hreceipt, rfl⟩ | ⟨p, htaken, -, -, rfl, hreceipt⟩⟩ := acceptPage_eq_some h
  · exact ⟨p, hserves, hp, hreplays, hreceipt⟩
  · refine ⟨p, hserves, ?_, ?_, hreceipt⟩
    · rw [Tables.insert, List.find?_cons_of_pos]
      simpa using htaken.pageRef
    · obtain ⟨n, bound, binding, now, -, rfl⟩ := htaken.row
      simp [Arguments.replays, Tables.newRow]

theorem Answered.congr {manifest : Manifest} {a : Arguments} {receipt : Receipt} (h : Answered t manifest a p receipt)
    (hpages : t'.pages = t.pages)
    (hsource : SameSource t t') : Answered t' manifest a p receipt where
  serves := hsource.serves h.serves
  row := by rw [hpages]; exact h.row
  replays := h.replays
  receipt := by
    have := h.receipt
    rwa [Tables.receipt, Tables.epoch, ← hpages] at this

/-- Taking one page out of a scan takes its changes out of the count. -/
theorem changeCount_without {rows : List PageRow} (hrefs : rows.Pairwise fun x y => x.pageRef ≠ y.pageRef) (hp : p ∈ rows) :
    changeCount (rows.filter fun q => decide (q.pageRef ≠ p.pageRef)) + p.changes.length = changeCount rows := by
  induction rows with
  | nil => simp at hp
  | cons x rows ih =>
    rw [List.pairwise_cons] at hrefs
    rcases List.mem_cons.mp hp with rfl | hp
    · have hrest : rows.filter (fun q => decide (q.pageRef ≠ p.pageRef)) = rows := by
        rw [List.filter_eq_self]
        intro q hq
        simpa using (hrefs.1 q hq).symm
      rw [List.filter_cons_of_neg (by simp), hrest]
      simp only [changeCount, List.map_cons, List.sum_cons]
      omega
    · have hx : x.pageRef ≠ p.pageRef := hrefs.1 p hp
      have := ih hrefs.2 hp
      rw [List.filter_cons_of_pos (by simpa using hx)]
      simp only [changeCount, List.map_cons, List.sum_cons] at this ⊢
      omega

theorem Log.pageRefs {pages : List PageRow} (h : Log pages) : pages.Pairwise fun x y => x.pageRef ≠ y.pageRef := by
  induction h with
  | nil => exact List.Pairwise.nil
  | cons log hext hseq hfresh ih => exact List.pairwise_cons.mpr ⟨fun q hq => (hfresh q hq).symm, ih⟩

theorem mem_scan {a : Arguments} : p ∈ t.scan a ↔
    p ∈ t.pages ∧ p.sourceVersionId = a.sourceVersionId ∧ p.scanRef = a.scanRef ∧ p.scanEpoch = a.scanEpoch := by
  simp [Tables.scan, and_assoc]

theorem Answered.mem_scan {manifest : Manifest} {a : Arguments} {receipt : Receipt} (h : Answered t manifest a p receipt) :
    p ∈ t.scan a := by
  have hreplays := h.replays
  simp only [Arguments.replays, Bool.and_eq_true, beq_iff_eq] at hreplays
  exact PageLog.mem_scan.mpr ⟨h.mem, hreplays.1.1.1.1.1.1, hreplays.1.1.1.1.1.2, hreplays.1.1.1.1.2⟩

theorem Answered.changes {manifest : Manifest} {a : Arguments} {receipt : Receipt} (h : Answered t manifest a p receipt) :
    p.changes = a.changes := by
  have hreplays := h.replays
  simp only [Arguments.replays, Bool.and_eq_true, beq_iff_eq] at hreplays
  exact hreplays.1.2

/-- The lookup of a page's binding finds the page. -/
theorem Answered.find_bound {manifest : Manifest} {a : Arguments} {receipt : Receipt} (h : Answered t manifest a p receipt)
    (hbinding : p.binding.isSome = true) :
    t.pages.find? (fun p => p.sourceVersionId == a.sourceVersionId && p.pageRef == a.pageRef && p.binding.isSome) =
      some p := by
  have hversion := (PageLog.mem_scan.mp h.mem_scan).2.1
  obtain ⟨_, before, later, hsplit, hbefore⟩ := List.find?_eq_some_iff_append.mp h.row
  refine List.find?_eq_some_iff_append.mpr ⟨by simp [hversion, h.pageRef, hbinding], before, later, hsplit, ?_⟩
  intro q hq
  have := hbefore q hq
  simp only [Bool.not_eq_true', decide_eq_false_iff_not] at this
  simp [this]

/-- A page that a bounded call was answered for: its scan keeps one bound and stays within it. -/
structure AnsweredBounded (server : Server) (t : Tables) (a : Arguments) (bound : Int) (baseline : Option Jsonb)
    (p : PageRow) (receipt : Receipt) : Prop where
  answered : Answered t .v4 a p receipt
  retained : receipt.scanBound = bound
  range : 1 ≤ bound ∧ bound ≤ 15000
  scan : ∀ q ∈ t.scan a, q.scanBound = bound
  total : (changeCount (t.scan a) : Int) ≤ bound
  checked : ∃ requested, t.requestedBaseline server a.sourceVersionId baseline = some requested ∧
    p.binding = some (requested.map (·.pageRef)) ∧
    ∀ c ∈ a.changes, c.changeKind = "delete" → t.deleteMatches a.sourceVersionId requested c = true

/-- A scan after a page was taken. -/
theorem scan_insert {a a' : Arguments} (htaken : Taken server t a' q) (hpages : t'.pages = q :: t.pages) :
    t'.scan a = t.scan a ∨ t.scan a = t.scan a' ∧ t'.scan a = q :: t.scan a ∧ q.changes = a'.changes := by
  obtain ⟨n, bound, binding, now, -, rfl⟩ := htaken.row
  by_cases hsame : a'.sourceVersionId = a.sourceVersionId ∧ a'.scanRef = a.scanRef ∧ a'.scanEpoch = a.scanEpoch
  · refine .inr ⟨?_, ?_, rfl⟩
    · simp only [Tables.scan, hsame]
    · rw [Tables.scan, hpages, List.filter_cons_of_pos, Tables.scan]
      simp [Tables.newRow, hsame]
  · refine .inl ?_
    rw [Tables.scan, hpages, List.filter_cons_of_neg, Tables.scan]
    simpa [Tables.newRow, and_assoc] using hsame

theorem requestedBaseline_stays {a : Arguments} {version : UUID} {baseline : Option Jsonb} {requested : Option PageRow}
    (htaken : Taken server t a q) (hpages : t'.pages = q :: t.pages)
    (h : t.requestedBaseline server version baseline = some requested) :
    t'.requestedBaseline server version baseline = some requested := by
  cases baseline with
  | none => exact h
  | some j =>
    simp only [Tables.requestedBaseline, Tables.baselineRow, Option.map_eq_some_iff, Option.bind_eq_some_iff] at h ⊢
    obtain ⟨b, ⟨k, hk, hb⟩, rfl⟩ := h
    refine ⟨b, ⟨k, hk, ?_⟩, rfl⟩
    have hnames := List.find?_some hb
    simp only [BaselineKey.names, decide_eq_true_eq] at hnames
    have hne : q.pageRef ≠ b.pageRef := by
      rw [htaken.pageRef]
      exact (htaken.absent b (List.mem_of_find?_eq_some hb)).symm
    rw [hpages, List.find?_cons_of_neg]
    · exact hb
    · simp only [BaselineKey.names, decide_eq_true_eq, not_and]
      intro _ href
      exact absurd (href.trans hnames.2.1.symm) hne

theorem deleteMatches_stays {version : UUID} {requested : Option PageRow} {c : ChangeRow} (hpages : t'.pages = q :: t.pages)
    (h : t.deleteMatches version requested c = true) : t'.deleteMatches version requested c = true := by
  obtain ⟨b, hb, hany⟩ := (Option.any_eq_true _ _).mp h
  obtain ⟨p, hp, hmatch⟩ := List.any_eq_true.mp hany
  refine (Option.any_eq_true _ _).mpr ⟨b, hb, List.any_eq_true.mpr ⟨p, ?_, hmatch⟩⟩
  rw [Tables.epoch, hpages]
  exact List.mem_filter.mpr ⟨List.mem_cons_of_mem _ (List.mem_filter.mp hp).1, (List.mem_filter.mp hp).2⟩

theorem AnsweredBounded.stays {a a' : Arguments} {bound : Int} {baseline : Option Jsonb} {receipt : Receipt}
    (h : AnsweredBounded server t a bound baseline p receipt) (htaken : Taken server t a' q)
    (hpages : t'.pages = q :: t.pages)
    (hsource : SameSource t t')
    (hscan : ∀ x ∈ t.scan a', x.scanBound = q.scanBound)
    (htotal : (changeCount (t.scan a') : Int) + a'.changes.length ≤ q.scanBound) :
    AnsweredBounded server t' a bound baseline p receipt where
  answered := h.answered.stays htaken hpages hsource
  retained := h.retained
  range := h.range
  scan := by
    rcases scan_insert htaken hpages with hsame | ⟨hscans, hsame, -⟩
    · rw [hsame]; exact h.scan
    · -- the page is in the scan, so both calls name its bound
      have hbound : q.scanBound = bound :=
        (hscan p (hscans ▸ h.answered.mem_scan)).symm.trans (h.scan p h.answered.mem_scan)
      rw [hsame]
      intro x hx
      rcases List.mem_cons.mp hx with rfl | hx
      · exact hbound
      · exact h.scan x hx
  total := by
    rcases scan_insert htaken hpages with hsame | ⟨hscans, hsame, hchanges⟩
    · rw [hsame]; exact h.total
    · have hbound : q.scanBound = bound :=
        (hscan p (hscans ▸ h.answered.mem_scan)).symm.trans (h.scan p h.answered.mem_scan)
      rw [hsame, hscans]
      simp only [changeCount, List.map_cons, List.sum_cons, hchanges] at htotal ⊢
      omega
  checked := by
    obtain ⟨requested, hrequested, hbinding, hdeletes⟩ := h.checked
    refine ⟨requested, requestedBaseline_stays htaken hpages hrequested, hbinding, ?_⟩
    intro c hc hdelete
    exact deleteMatches_stays hpages (hdeletes c hc hdelete)

/-- Whoever asks again for an answered page gets the answer, and nothing moves. -/
theorem AnsweredBounded.replay {r : PageRequest} {a : Arguments} {bound : Int} {baseline : Option Jsonb} {receipt : Receipt}
    (h : AnsweredBounded server t a bound baseline p receipt) (hlog : Log t.pages) (ha : r.arguments server = some a)
    (now : Timestamp) : acceptBounded server t r (some bound) baseline now = some (receipt, t) := by
  obtain ⟨requested, hrequested, hbinding, hdeletes⟩ := h.checked
  have hreplays := h.answered.replays
  simp only [Arguments.replays, Bool.and_eq_true, beq_iff_eq] at hreplays
  have hversion := hreplays.1.1.1.1.1.1
  have hexists : (t.pages.any fun p =>
      decide (p.sourceVersionId = a.sourceVersionId ∧ p.pageRef = a.pageRef)) = true :=
    List.any_eq_true.mpr ⟨p, h.answered.mem, by simp [hversion, h.answered.pageRef]⟩
  have hbound := h.answered.find_bound (by rw [hbinding]; rfl)
  have htotal : (changeCount ((t.scan a).filter fun p => decide (p.pageRef ≠ a.pageRef)) : Int) + a.changes.length ≤ bound := by
    have hwithout := changeCount_without (hlog.pageRefs.filter _) h.answered.mem_scan
    have := h.total
    rw [h.answered.pageRef, h.answered.changes] at hwithout
    rw [Tables.scan] at this ⊢
    omega
  have hpage : acceptPage server t .v4 a bound (some (requested.map (·.pageRef))) now = some (receipt, t) :=
    acceptPage_of_row h.answered.serves h.answered.row h.answered.replays h.answered.receipt now
  simp only [acceptBounded, acceptFileDeleteObservationPage, Option.bind_eq_bind, Option.bind_eq_some_iff,
    Option.guard_eq_some', exists_const, Option.some.injEq, Prod.mk.injEq]
  refine ⟨a, ha, bound, rfl, h.range, ?_, htotal, ⟨receipt, t⟩, ⟨requested, hrequested, ?_, ?_⟩, h.retained, rfl, ?_⟩
  · exact List.all_eq_true.mpr fun q hq => by simpa using h.scan q hq
  · refine List.all_eq_true.mpr fun c hc => ?_
    by_cases hdelete : c.changeKind = "delete"
    · simp [hdeletes c hc hdelete]
    · simp [hdelete]
  · rw [hbound]
    simpa [hbinding] using hpage
  · simp only [hexists, Bool.true_eq_false, and_false, if_false]

theorem AnsweredBounded.congr {a : Arguments} {bound : Int} {baseline : Option Jsonb} {receipt : Receipt}
    (h : AnsweredBounded server t a bound baseline p receipt) (hpages : t'.pages = t.pages) (hsource : SameSource t t') :
    AnsweredBounded server t' a bound baseline p receipt where
  answered := h.answered.congr hpages hsource
  retained := h.retained
  range := h.range
  scan := by rw [Tables.scan, hpages]; exact h.scan
  total := by rw [Tables.scan, hpages]; exact h.total
  checked := by
    obtain ⟨requested, hrequested, hbinding, hdeletes⟩ := h.checked
    refine ⟨requested, ?_, hbinding, ?_⟩
    · rw [← hrequested]
      cases baseline with
      | none => rfl
      | some j => rw [Tables.requestedBaseline, Tables.requestedBaseline, Tables.baselineRow, Tables.baselineRow, hpages]
    · intro c hc hdelete
      rw [← hdeletes c hc hdelete]
      simp only [Tables.deleteMatches, Tables.epoch, hpages]

theorem answeredBounded_of_accept {r : PageRequest} {scanBound : Option Int} {baseline : Option Jsonb} {now : Timestamp}
    {receipt : Receipt} (hi : Inv t) (h : acceptBounded server t r scanBound baseline now = some (receipt, t')) :
    ∃ a p bound, r.arguments server = some a ∧ scanBound = some bound ∧
      AnsweredBounded server t' a bound baseline p receipt := by
  obtain ⟨a, bound, requested, t₁, ha, hbound, hbounded, hexisting, hpage, hretained, rfl⟩ := acceptBounded_eq_some h
  suffices hanswered : ∃ p, AnsweredBounded server t₁ a bound baseline p receipt by
    obtain ⟨p, hp⟩ := hanswered
    refine ⟨a, p, bound, ha, hbound, ?_⟩
    split
    · exact hp.congr rfl ⟨rfl, rfl, rfl⟩
    · exact hp
  obtain ⟨hserves, ⟨p, hp, hreplays, hreceipt, rfl⟩ | ⟨p, htaken, hpbound, hpbinding, rfl, hreceipt⟩⟩ :=
    acceptPage_eq_some hpage
  · -- a replay: the page is in the tables as they are
    have hanswered : Answered t₁ .v4 a p receipt := ⟨hserves, hp, hreplays, hreceipt⟩
    simp only [Arguments.replays, Bool.and_eq_true, beq_iff_eq] at hreplays
    have hversion := hreplays.1.1.1.1.1.1
    have hbinding : p.binding.isSome = true := hi.binding p hanswered.mem (by rw [hversion]; exact hserves.2.2)
    refine ⟨p, hanswered, hretained, hbounded.range, hbounded.scan, ?_, requested, hbounded.baseline,
      hexisting p (hanswered.find_bound hbinding), hbounded.deletes⟩
    have hwithout := changeCount_without (hi.log.pageRefs.filter _) hanswered.mem_scan
    have htotal := hbounded.total
    rw [hanswered.pageRef, hanswered.changes] at hwithout
    rw [Tables.scan] at htotal ⊢
    omega
  · -- a new page: its scan is what it was, and the page
    obtain ⟨p', hanswered⟩ := answered_of_acceptPage hpage
    have hp' : p' = p := by
      have hrow := hanswered.row
      rw [Tables.insert, List.find?_cons_of_pos (by simpa using htaken.pageRef)] at hrow
      exact (Option.some.inj hrow).symm
    subst hp'
    have htotal := hbounded.total
    rw [htaken.scan_filter] at htotal
    have hscan : (t.insert p').scan a = p' :: t.scan a := by
      obtain ⟨n, bound, binding, now, -, rfl⟩ := htaken.row
      rw [Tables.scan, Tables.insert, List.filter_cons_of_pos (by simp [Tables.newRow])]
      rfl
    refine ⟨p', hanswered, hretained, hbounded.range, ?_, ?_, requested,
      requestedBaseline_stays htaken rfl hbounded.baseline, hpbinding, ?_⟩
    · rw [hscan]
      intro x hx
      rcases List.mem_cons.mp hx with rfl | hx
      · exact hpbound
      · exact hbounded.scan x hx
    · rw [hscan]
      simp only [changeCount, List.map_cons, List.sum_cons, hanswered.changes] at htotal ⊢
      omega
    · intro c hc hdelete
      exact deleteMatches_stays rfl (hbounded.deletes c hc hdelete)

/-- The page of the call is in the tables, and the call is answered by the receipt. -/
def Replayable (server : Server) (c : Call) (receipt : Receipt) (t : Tables) : Prop :=
  match c with
  | .accept r _ => ∃ a p, r.arguments server = some a ∧ Answered t .v3 a p receipt
  | .acceptBounded r scanBound baseline _ => ∃ a p bound, r.arguments server = some a ∧ scanBound = some bound ∧
      AnsweredBounded server t a bound baseline p receipt
  | _ => False

/-- The same call at another time. -/
def Call.at (c : Call) (now : Timestamp) : Call :=
  match c with
  | .accept r _ => .accept r now
  | .acceptBounded r scanBound baseline _ => .acceptBounded r scanBound baseline now
  | c => c

theorem replayable_of_reply {c : Call} {receipt : Receipt} (hi : Inv t) (h : (step server t c).2 = some receipt) :
    Replayable server c receipt (step server t c).1 := by
  cases c with
  | accept r now =>
    rw [step] at h ⊢
    rcases ha : acceptFileChangePage server t r now with _ | ⟨receipt', t'⟩ <;> rw [ha] at h <;> cases h
    obtain ⟨a, harguments, hpage⟩ := acceptFileChangePage_eq_some.mp ha
    obtain ⟨p, hp⟩ := answered_of_acceptPage hpage
    exact ⟨a, p, harguments, hp⟩
  | acceptBounded r scanBound baseline now =>
    rw [step] at h ⊢
    rcases ha : acceptBounded server t r scanBound baseline now with _ | ⟨receipt', t'⟩ <;> rw [ha] at h <;> cases h
    exact answeredBounded_of_accept hi ha
  | checkpoint => cases h
  | activate => cases h

theorem Replayable.effect {c d : Call} {receipt : Receipt} {reply : Option Receipt} (h : Replayable server c receipt t)
    (heffect : Effect server t d t' reply) (hd : d.isActivate = false) : Replayable server c receipt t' := by
  cases heffect with
  | refused => exact h
  | replayed => exact h
  | activate => cases hd
  | checkpoint =>
    cases c with
    | accept r now =>
      obtain ⟨a, p, ha, hp⟩ := h
      exact ⟨a, p, ha, hp.congr rfl ⟨rfl, rfl, rfl⟩⟩
    | acceptBounded r scanBound baseline now =>
      obtain ⟨a, p, bound, ha, hbound, hp⟩ := h
      exact ⟨a, p, bound, ha, hbound, hp.congr rfl ⟨rfl, rfl, rfl⟩⟩
    | checkpoint => exact h
    | activate => exact h
  | appended accept serves taken pages last source bounded =>
    cases c with
    | accept r now =>
      obtain ⟨a, p, ha, hp⟩ := h
      exact ⟨a, p, ha, hp.stays taken pages source⟩
    | acceptBounded r scanBound baseline now =>
      obtain ⟨a, p, bound, ha, hbound, hp⟩ := h
      -- the source serves v4, so the page was taken by a bounded call
      have hv4 := hp.answered.serves
      rw [← serves.2.1.symm.trans hv4.2.1] at hv4
      obtain ⟨-, hscan, htotal⟩ := bounded (serves.2.2.symm.trans hv4.2.2)
      exact ⟨a, p, bound, ha, hbound, hp.stays taken pages source hscan htotal⟩
    | checkpoint => exact h
    | activate => exact h

theorem Replayable.run {c : Call} {receipt : Receipt} {calls : List Call} (h : Replayable server c receipt t)
    (hstill : ∀ d ∈ calls, d.isActivate = false) : Replayable server c receipt (after (step server) t calls) := by
  induction calls generalizing t with
  | nil => exact h
  | cons d calls ih =>
    rw [after_cons]
    exact ih (h.effect (step_effect server t d) (hstill d List.mem_cons_self))
      (fun x hx => hstill x (List.mem_cons_of_mem _ hx))

theorem Replayable.replays {c : Call} {receipt : Receipt} (h : Replayable server c receipt t) (hi : Inv t)
    (now : Timestamp) : step server t (c.at now) = (t, some receipt) := by
  cases c with
  | accept r _ =>
    obtain ⟨a, p, ha, hp⟩ := h
    have hpage := acceptFileChangePage_eq_some.mpr
      ⟨a, ha, acceptPage_of_row hp.serves hp.row hp.replays hp.receipt now⟩
    rw [Call.at, step, hpage]
  | acceptBounded r scanBound baseline _ =>
    obtain ⟨a, p, bound, ha, rfl, hp⟩ := h
    rw [Call.at, step, hp.replay hi.log ha now]
  | checkpoint => exact h.elim
  | activate => exact h.elim

/-! ## The accepted page log -/

/-- The page table of a source; the pages stand newest first. -/
structure WellFormed (t : Tables) : Prop where
  /-- The pages of one epoch have the ordinals 1 to n. -/
  ordinals : ∀ v e, (t.epoch v e).map (·.pageOrdinal) = (List.range' 1 (t.epoch v e).length).reverse
  /-- Each page's predecessor is the page of its epoch with the ordinal before. -/
  predecessors : ∀ v e, ∀ p ∈ t.epoch v e, (p.pageOrdinal = 1 → p.predecessorPageRef = none) ∧
    ∀ q ∈ t.epoch v e, p.pageOrdinal = q.pageOrdinal + 1 → p.predecessorPageRef = some q.pageRef
  /-- A complete page is the last of its epoch. -/
  complete : ∀ v e, ∀ p ∈ t.epoch v e, p.complete = true → p.pageOrdinal = (t.epoch v e).length
  /-- The first page of an epoch names the epoch of the page that was the head. -/
  superseded : ∀ newer p older, t.pages = newer ++ p :: older → p.pageOrdinal = 1 →
    p.supersededScanEpoch = older.head?.map (·.scanEpoch)
  /-- A page is added to an epoch only while a page of the epoch is the head. -/
  appended : ∀ newer p older, t.pages = newer ++ p :: older → (∃ q ∈ older, SameEpoch p q) →
    ∃ head, older.head? = some head ∧ SameEpoch p head
  sequences : t.pages.Pairwise fun newer older => older.sequence < newer.sequence

theorem Inv.wellFormed (h : Inv t) : WellFormed t where
  ordinals := h.log.ordinals
  predecessors := fun v e p hp => h.log.predecessor hp
  complete := fun v e p hp => h.log.complete_last hp
  superseded := by
    intro newer p older hpages hone
    have hlog := h.log
    rw [hpages] at hlog
    cases hlog.of_append with
    | cons log hext =>
      cases hext with
      | first ordinal predecessor superseded => exact superseded
      | next hold same scan ordinal =>
        subst hold
        have := log.ordinal_eq
        omega
  appended := by
    intro newer p older hpages hmember
    have hlog := h.log
    rw [hpages] at hlog
    cases hlog.of_append with
    | cons log hext =>
      cases hext with
      | first ordinal predecessor superseded fresh =>
        obtain ⟨q, hq, hsame⟩ := hmember
        exact absurd hsame (fresh q hq)
      | @next head rest hold same => exact ⟨head, by rw [hold]; rfl, same⟩
  sequences := h.log.sequences

theorem Effect.refused_eq {c : Call} {reply : Option Receipt} (h : Effect server t c t' reply)
    (haccept : c.isAccept = true) (hreply : reply = none) : t' = t := by
  cases h with
  | refused => rfl
  | replayed => rfl
  | appended => cases hreply
  | checkpoint => cases haccept
  | activate => cases haccept

/-- The accepted page log over every run of calls from a source without pages: the table is well
    formed (and of one version, unless the source moves), a refused call changes nothing, and a
    page that was accepted is answered again by its own receipt, with nothing changed, for as long
    as the source stays where it is. -/
theorem accepted_page_log (server : Server) (t₀ : Tables) (h₀ : t₀.pages = []) (calls : List Call) :
    WellFormed (after (step server) t₀ calls) ∧
      ((∀ c ∈ calls, c.isActivate = false) →
        ∀ p ∈ (after (step server) t₀ calls).pages, p.sourceVersionId = t₀.activeVersionId) ∧
      (∀ e ∈ history (step server) t₀ calls, e.call.isAccept = true → e.reply = none →
        (step server e.before e.call).1 = e.before) ∧
      ∀ before c later receipt, calls = before ++ c :: later →
        (step server (after (step server) t₀ before) c).2 = some receipt → (∀ d ∈ later, d.isActivate = false) →
        ∀ now, step server (after (step server) t₀ calls) (c.at now) = (after (step server) t₀ calls, some receipt) := by
  refine ⟨(reaches h₀ calls).wellFormed, one_version h₀, ?_, ?_⟩
  · intro e he haccept hreply
    rw [history_reply he] at hreply
    exact (step_effect server e.before e.call).refused_eq haccept hreply
  · intro before c later receipt hcalls hreply hstill now
    have hreplayable := (replayable_of_reply (reaches h₀ before) hreply).run hstill
    have hinv : Inv (after (step server) t₀ calls) := reaches h₀ calls
    rw [hcalls, after_append, after_cons] at hinv ⊢
    exact hreplayable.replays hinv now

namespace LogInstance

/-- A digest that two inputs of different octet sums do not share. -/
def digest (bytes : List UInt8) : Sha256Digest :=
  ⟨List.replicate 31 0 ++ [bytes.sum], by simp⟩

def postgres : Server :=
  ⟨fun _ => castOf none, fun _ => none, fun _ => none, fun _ => some 3, digest, fun _ => "", fun _ => "3"⟩

/-- A source that was just activated. -/
def activated : Tables :=
  { organizationId := .ofNat 1, sourceId := .ofNat 2, activeVersionId := .ofNat 3, sourceActive := true
    manifest := fun _ => .v3, pages := [], lastSequence := 0, takenPageRefs := [], takenCheckpointRefs := []
    scanRefusal := none }

/-- The ref of the `n`-th page or scan. -/
def ref (n : UInt8) : String := (digest [n]).hexdigest

def upsert (path : String) : Jsonb :=
  .object [("path", .string path), ("kind", .string "upsert"), ("contentSha256", .string (ref 9)),
    ("contentLength", .number ⟨3, 0⟩)]

/-- The first page of a scan that goes on. -/
def firstPage : PageRequest :=
  { sessionUser := .control, sourceVersionId := some (.ofNat 3), scanRef := some (ref 1), scanEpoch := some (.ofNat 4)
    pageLimit := some 1, pageRef := some (ref 2), predecessorPageRef := none, predecessorCheckpointRef := none
    predecessorSequence := none, supersededScanEpoch := none, changes := some (.array [upsert "a.md"])
    complete := some false }

/-- The page after it, which is still not the last. -/
def continuation : PageRequest :=
  { firstPage with
    pageRef := some (ref 3), predecessorPageRef := some (ref 2)
    predecessorCheckpointRef := some (activated.checkpointRef postgres 1 (ref 2)), predecessorSequence := some 1
    changes := some (.array [upsert "b.md"]) }

/-- The only page of a scan that starts before the first one is through. -/
def superseding : PageRequest :=
  { firstPage with
    scanRef := some (ref 5), scanEpoch := some (.ofNat 5), pageRef := some (ref 6)
    supersededScanEpoch := some (.ofNat 4), changes := some (.array [upsert "a.md"]), complete := some true }

/-- Two pages of one scan, a scan that supersedes it, a page of the first scan that comes too
    late, and the first page asked for again. -/
def calls : List Call :=
  [.accept firstPage 0, .accept continuation 5, .accept superseding 6,
    .accept { continuation with pageRef := some (ref 4), predecessorPageRef := some (ref 3) } 7, .accept firstPage 8]

/-- Three rows, two epochs; the last call is answered with the receipt of the first. -/
theorem log_of_two_scans :
    (after (step postgres) activated calls).pages.map (fun p => (p.scanEpoch, p.pageOrdinal)) =
        [(.ofNat 5, 1), (.ofNat 4, 2), (.ofNat 4, 1)] ∧
      WellFormed (after (step postgres) activated calls) ∧
      step postgres (after (step postgres) activated calls) (.accept firstPage 9) =
        (after (step postgres) activated calls, (step postgres activated (.accept firstPage 0)).2) := by
  have hlog := accepted_page_log postgres activated rfl calls
  refine ⟨by decide +kernel, hlog.1, ?_⟩
  cases hreply : (step postgres activated (.accept firstPage 0)).2 with
  | none => exact absurd hreply (by decide +kernel)
  | some receipt => exact hlog.2.2.2 [] (.accept firstPage 0) calls.tail receipt rfl hreply (by decide) 9

end LogInstance

end ContextEngine.Control.PageLog
