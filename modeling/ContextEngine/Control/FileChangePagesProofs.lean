/-
  ContextEngine.Control.FileChangePagesProofs — what the accept function requires of a page.

  Proved:
  - `acceptsPath_of_import`: every File import path passes the accept function's own path
    predicate, which is written over other character sets.
  - `accept_new_iff`: exactly when a page that is not in the tables is accepted, and what
    the tables are then.
  - `accept_replay` / `accept_of_mem`: a page whose own row the tables hold is accepted
    again, and leaves them as they are.
-/

import ContextEngine.Control.FileChangePages

namespace ContextEngine.Control

open ContextEngine.Python ContextEngine.Runtime

/-! ## Paths -/

theorem isspace_of_sqlSpace {c : Char} (h : sqlSpace c = true) : isspace c = true := by
  simp only [sqlSpace, isspace, Bool.or_eq_true, Bool.and_eq_true, decide_eq_true_eq, beq_iff_eq] at h ⊢
  omega

theorem any_sqlSpace_of_not {o : Option Char} (h : o.any isspace = false) : o.any sqlSpace = false := by
  cases o with
  | none => rfl
  | some c =>
    by_contra hc
    have hspace : isspace c = true := isspace_of_sqlSpace (by simpa using hc)
    rw [Option.any_some, hspace] at h
    nomatch h

theorem ne_space_of_not {o : Option Char} (h : o.any isspace = false) : (o != some ' ') = true := by
  rw [bne_iff_ne]
  rintro rfl
  nomatch h

theorem endsMarkdown_of_component {front name : List Char} (h : endsMarkdown (front ++ '/' :: name) = true) :
    endsMarkdown name = true := by
  unfold endsMarkdown at h ⊢
  rw [List.reverse_append, List.reverse_cons, List.append_assoc] at h
  -- The slash is no letter of the suffix, so the suffix lies within the component.
  match name.reverse, front.reverse, h with
  | a :: b :: c :: rest, _, h => exact h
  | [a, b], _, h => simp at h
  | [a], x :: xs, h => simp at h
  | [], x :: y :: xs, h => simp at h

/-- The last component of a path ends as the path does. -/
theorem endsMarkdown_last {cs : List Char} (h : endsMarkdown cs = true) :
    endsMarkdown ((parts cs).getLast?.getD []) = true := by
  unfold parts
  by_cases hmem : '/' ∈ cs
  · obtain ⟨after, before, hrev, hnot⟩ := List.eq_append_cons_of_mem (List.mem_reverse.mpr hmem)
    have hcs : cs = before.reverse ++ '/' :: after.reverse := by
      rw [← List.reverse_reverse cs, hrev]
      simp
    have hsplit : after.reverse.splitOn '/' = [after.reverse] := List.splitOn_eq_singleton (by simpa using hnot)
    rw [hcs] at h ⊢
    rw [List.splitOn_append_cons_self, hsplit, List.getLast?_concat]
    exact endsMarkdown_of_component h
  · rw [List.splitOn_eq_singleton hmem]
    exact h

/-- Every File import path passes the accept function's path predicate. -/
theorem acceptsPath_of_import (path : FileImportPath) : acceptsPath path.value = true := by
  have hwell := path.well_formed
  simp only [isImportPath, Bool.and_eq_true, Bool.not_eq_true', List.all_eq_true, decide_eq_true_eq] at hwell
  obtain ⟨⟨⟨⟨⟨⟨⟨-, hfirst⟩, hlast⟩, hslash⟩, hends⟩, hlen⟩, hparts⟩, hcontrol⟩ := hwell
  simp only [acceptsPath, Bool.and_eq_true, Bool.not_eq_true', List.all_eq_true, List.any_eq_false, decide_eq_true_eq]
  refine ⟨⟨⟨⟨⟨⟨⟨⟨⟨hslash, ?_⟩, endsMarkdown_last hends⟩, ?_⟩, ne_space_of_not hfirst⟩, ne_space_of_not hlast⟩, hlen⟩, ?_⟩,
    any_sqlSpace_of_not hfirst⟩, any_sqlSpace_of_not hlast⟩
  · intro p hp
    exact (hparts p (List.dropLast_subset _ hp)).1.1
  · intro p hp
    exact ⟨(hparts p hp).1.2, (hparts p hp).2⟩
  · intro c hc
    have := hcontrol c hc
    omega

/-! ## Acceptance -/

section Acceptance

variable {D : Type} [DecidableEq D] {d : Digests D} {t t' : Tables D} {p : ChangePage D} {r : PageRow D}
  {a : AcceptedChangePage D}

/-- The row that the page's baseline names. -/
def Tables.baselineOf (t : Tables D) (p : ChangePage D) : Option (PageRow D) :=
  p.baselineRef.bind (t.baselineRow p.sourceVersionRef)

/-- What the accept function requires of any page, new or not. -/
structure Admissible (d : Digests D) (t : Tables D) (p : ChangePage D) : Prop where
  bound_range : 1 ≤ p.scanBound ∧ p.scanBound ≤ MAX_CONFIGURED_FILE_CHANGE_BASELINE_SIZE
  same_bound : (t.scan p.sourceVersionRef p.scanRef p.scanEpoch).all (·.scanBound == p.scanBound) = true
  in_bound : changeCount ((t.scan p.sourceVersionRef p.scanRef p.scanEpoch).filter (·.pageRef != d.page p)) +
    p.changes.length ≤ p.scanBound
  baseline_version : p.baselineRef.all (·.sourceVersionRef == p.sourceVersionRef) = true
  baseline_known : p.baselineRef.isSome = true → (t.baselineOf p).isSome = true
  deletes : (p.changes.all fun c => c.kind != .delete || t.deleteMatches p.sourceVersionRef (t.baselineOf p) c) = true
  limit_range : 1 ≤ p.pageLimit ∧ p.pageLimit ≤ 100 ∧ p.changes.length ≤ p.pageLimit
  paths : (p.changes.all fun c => acceptsPath c.path.value) = true
  first_or_next : p.predecessor.isNone = true ∨ p.supersededScanEpoch.isNone = true
  active : t.activeVersion = p.sourceVersionRef

/-- What it requires besides of a page that is not in the tables. -/
structure NewPage (d : Digests D) (t : Tables D) (p : ChangePage D) (ordinal : Nat) : Prop where
  expected : t.expectedBaseline p = some ((t.baselineOf p).map (·.pageRef))
  in_size : changeCount (t.scan p.sourceVersionRef p.scanRef p.scanEpoch) + p.changes.length ≤
    MAX_CONFIGURED_FILE_CHANGE_BASELINE_SIZE
  follows : t.followsHead p = true
  ordinal_eq : t.nextOrdinal p = some ordinal
  other_epoch : p.supersededScanEpoch ≠ some p.scanEpoch
  other_page : p.baselineRef.map (·.pageRef) ≠ some (d.page p)
  free : (t.epoch p.sourceVersionRef p.scanEpoch).all (·.pageOrdinal != ordinal) = true

/-- The tables with the page. -/
def Tables.insert (d : Digests D) (t : Tables D) (p : ChangePage D) (ordinal : Nat) : Tables D :=
  { t with pages := p.row d ordinal (t.lastSequence + 1) :: t.pages, lastSequence := t.lastSequence + 1 }

theorem accept_new_iff (h : t.pages.find? (·.pageRef == d.page p) = none) :
    accept d t p = some (t', a) ↔ Admissible d t p ∧ ∃ ordinal, NewPage d t p ordinal ∧ t' = t.insert d p ordinal ∧
      a = ⟨d.page p, d.checkpoint (t.lastSequence + 1) (d.page p), t.lastSequence + 1⟩ := by
  have hbound : t.pages.find? (fun r => r.sourceVersionRef == p.sourceVersionRef && r.pageRef == d.page p &&
      r.binding.isSome) = none := by
    rw [List.find?_eq_none] at h ⊢
    intro r hr hmatch
    simp only [Bool.and_eq_true] at hmatch
    exact h r hr hmatch.1.2
  simp only [accept, acceptDeleteObservation, acceptInternal, h, hbound, Option.bind_eq_bind, Option.bind_eq_some_iff,
    Option.guard_eq_some', Option.pure_def, Option.some.injEq, Prod.mk.injEq, exists_const]
  refine ⟨?_, ?_⟩
  · rintro ⟨h1, h2, h3, h4, h5, h6, expected, h7, rfl, h8, h9, h10, h11, h12, h13, ordinal, h14, h15, rfl, rfl⟩
    exact ⟨⟨h1, h2, h3, h4, h5, h6, h9, h10, h11, h12⟩, ordinal, ⟨h7, h8, h13, h14, h15.1, h15.2.1, h15.2.2⟩, rfl, rfl⟩
  · rintro ⟨⟨h1, h2, h3, h4, h5, h6, h9, h10, h11, h12⟩, ordinal, ⟨h7, h8, h13, h14, h15, h16, h17⟩, rfl, rfl⟩
    exact ⟨h1, h2, h3, h4, h5, h6, _, h7, rfl, h8, h9, h10, h11, h12, h13, ordinal, h14, ⟨h15, h16, h17⟩, rfl, rfl⟩

theorem replay_eq_some : replay p r = some a ↔
    (r.sourceVersionRef = p.sourceVersionRef ∧ r.scanRef = p.scanRef ∧ r.scanEpoch = p.scanEpoch ∧
      r.pageLimit = p.pageLimit ∧ r.predecessorPageRef = p.predecessor.map (·.pageRef) ∧ r.changes = p.changes ∧
      r.complete = p.complete) ∧ a = ⟨r.pageRef, r.checkpointRef, r.sequence⟩ := by
  unfold replay
  split
  · rename_i h
    exact ⟨fun heq => ⟨h, (Option.some.inj heq).symm⟩, fun heq => congrArg some heq.2.symm⟩
  · rename_i h
    exact ⟨fun heq => absurd heq (by simp), fun heq => absurd heq.1 h⟩

/-- A page that is in the tables leaves them as they are. -/
theorem accept_of_mem (h : t.pages.find? (·.pageRef == d.page p) = some r) (ha : accept d t p = some (t', a)) : t' = t := by
  simp only [accept, acceptDeleteObservation, acceptInternal, h, Option.bind_eq_bind, Option.bind_eq_some_iff,
    Option.guard_eq_some', Option.pure_def, exists_const] at ha
  split at ha <;> simp only [Option.bind_eq_some_iff, Option.guard_eq_some', exists_const, Option.some.injEq, Prod.mk.injEq] at ha
  · obtain ⟨-, -, -, -, -, -, -, -, -, -, -, -, -, rfl, -⟩ := ha
    rfl
  · obtain ⟨-, -, -, -, -, -, -, -, -, -, -, -, -, -, -, -, rfl, -⟩ := ha
    rfl

/-- The tables accept a page again whose own row they hold. -/
theorem accept_replay {ordinal n : Nat} (hr : r = p.row d ordinal n)
    (h : t.pages.find? (·.pageRef == d.page p) = some r)
    (hbound : t.pages.find? (fun r => r.sourceVersionRef == p.sourceVersionRef && r.pageRef == d.page p &&
      r.binding.isSome) = some r)
    (hbinding : r.binding = some ((t.baselineOf p).map (·.pageRef))) (hp : Admissible d t p) :
    accept d t p = some (t, ⟨r.pageRef, r.checkpointRef, r.sequence⟩) := by
  have hreplay : replay p r = some ⟨r.pageRef, r.checkpointRef, r.sequence⟩ := by
    subst hr
    exact replay_eq_some.mpr ⟨⟨rfl, rfl, rfl, rfl, rfl, rfl, rfl⟩, rfl⟩
  simp only [accept, acceptDeleteObservation, acceptInternal, h, hbound, hreplay, Option.bind_eq_bind,
    Option.bind_eq_some_iff, Option.guard_eq_some', Option.pure_def, exists_const]
  exact ⟨hp.bound_range, hp.same_bound, hp.in_bound, hp.baseline_version, hp.baseline_known, hp.deletes, hbinding,
    hp.limit_range, hp.paths, hp.first_or_next, hp.active, _, rfl, rfl⟩

end Acceptance

end ContextEngine.Control
