/-
  ContextEngine.Python.Dict — a `dict` built from items in order: a later item takes the place
  of an earlier one with the same key.

  Proved: any one item can be made the one that is kept by a new order of the items
  (`exists_perm_kept`), or given up for another (`exists_perm_dropped`); what is kept weighs no
  more than all the items (`sum_kept_le`), and the same where no key that weighs is repeated
  (`sum_kept_eq`).
-/

import Mathlib

namespace ContextEngine.Python

section Dict

variable {α κ : Type} [DecidableEq κ] (key : α → κ)

/-- `{key(x): x for x in xs}`. -/
def dictBy (xs : List α) : κ → Option α := xs.foldl (fun d x k => if key x = k then some x else d k) fun _ => none

variable {key} {xs ys : List α} {x y : α} {k : κ}

theorem dictBy_foldl (d : κ → Option α) :
    xs.foldl (fun d x k => if key x = k then some x else d k) d k = (dictBy key xs k).or (d k) := by
  induction xs generalizing d with
  | nil => rfl
  | cons x xs ih =>
    have hrest : dictBy key (x :: xs) k = (dictBy key xs k).or (if key x = k then some x else none) := ih _
    rw [List.foldl_cons, ih, hrest, Option.or_assoc]
    split_ifs <;> rfl

theorem dictBy_append : dictBy key (xs ++ ys) k = (dictBy key ys k).or (dictBy key xs k) := by
  rw [dictBy, List.foldl_append, dictBy_foldl]
  rfl

theorem dictBy_cons : dictBy key (x :: xs) k = (dictBy key xs k).or (if key x = k then some x else none) := by
  rw [dictBy, List.foldl_cons, dictBy_foldl]

theorem dictBy_mem (h : dictBy key xs k = some x) : x ∈ xs ∧ key x = k := by
  induction xs with
  | nil => cases h
  | cons y xs ih =>
    rw [dictBy_cons, Option.or_eq_some_iff] at h
    rcases h with h | ⟨-, h⟩
    · exact ⟨List.mem_cons_of_mem _ (ih h).1, (ih h).2⟩
    · split_ifs at h with hy
      cases h
      exact ⟨List.mem_cons_self, hy⟩

theorem dictBy_eq_none : dictBy key xs k = none ↔ ∀ x ∈ xs, key x ≠ k := by
  induction xs with
  | nil => simp [dictBy]
  | cons y xs ih =>
    rw [dictBy_cons, Option.or_eq_none_iff, ih, List.forall_mem_cons, and_comm]
    simp

theorem exists_dictBy : (∃ x, dictBy key xs k = some x) ↔ ∃ x ∈ xs, key x = k := by
  rw [← Option.isSome_iff_exists, ← Option.ne_none_iff_isSome, Ne, dictBy_eq_none]
  simp

/-- An item whose key is not repeated is the only one of its key. -/
theorem eq_of_countP_one (h : xs.countP (fun y => key y = key x) = 1) (hx : x ∈ xs) (hy : y ∈ xs) (hkey : key y = key x) :
    y = x := by
  rw [List.countP_eq_length_filter, List.length_eq_one_iff] at h
  obtain ⟨z, hz⟩ := h
  have hmem {u : α} (hu : u ∈ xs) (hk : key u = key x) : u = z := by
    have : u ∈ xs.filter fun y => key y = key x := List.mem_filter.mpr ⟨hu, by simpa using hk⟩
    simpa [hz] using this
  rw [hmem hy hkey, hmem hx rfl]

/-- An item whose key is not repeated is kept. -/
theorem dictBy_unique (hx : x ∈ xs) (h : ∀ y ∈ xs, key y = key x → y = x) : dictBy key xs (key x) = some x := by
  obtain ⟨y, hy⟩ : ∃ y, dictBy key xs (key x) = some y := exists_dictBy.mpr ⟨x, hx, rfl⟩
  obtain ⟨hmem, hkey⟩ := dictBy_mem hy
  rw [hy, h y hmem hkey]

/-! ### Other orders -/

variable (key) in
/-- An order that keeps an item, and what was kept of every other key. -/
theorem exists_perm_kept (hx : x ∈ xs) : ∃ ys : List α, ys.Perm xs ∧ dictBy key ys (key x) = some x ∧
    ∀ k, k ≠ key x → dictBy key ys k = dictBy key xs k := by
  obtain ⟨before, after, rfl⟩ := List.append_of_mem hx
  refine ⟨before ++ after ++ [x], ?_, ?_, fun k hk => ?_⟩
  · rw [List.append_assoc]
    exact (List.perm_append_singleton x after).append_left before
  · rw [dictBy_append, dictBy_cons]
    simp [dictBy]
  · rw [dictBy_append, dictBy_append, dictBy_append, dictBy_cons, dictBy_cons]
    simp [dictBy, hk.symm]

variable (key) in
/-- An order that keeps, of every key that has one, an item that satisfies `p`. -/
theorem exists_perm_all (xs : List α) (p : α → Bool) : ∃ ys : List α, ys.Perm xs ∧
    ∀ x ∈ xs, p x = true → ∃ y, dictBy key ys (key x) = some y ∧ p y = true := by
  refine ⟨xs.filter (fun x => !p x) ++ xs.filter p, ?_, fun x hx hp => ?_⟩
  · exact List.perm_append_comm.trans (List.filter_append_perm p xs)
  · obtain ⟨y, hy⟩ : ∃ y, dictBy key (xs.filter p) (key x) = some y :=
      exists_dictBy.mpr ⟨x, List.mem_filter.mpr ⟨hx, hp⟩, rfl⟩
    have hmem : y ∈ xs.filter p ∧ key y = key x := dictBy_mem hy
    refine ⟨y, ?_, (List.mem_filter.mp hmem.1).2⟩
    rw [dictBy_append, hy]
    rfl

variable (key) in
/-- An order that gives up an item whose key is repeated. -/
theorem exists_perm_dropped (hx : x ∈ xs) (h : xs.countP (fun y => key y = key x) ≠ 1) :
    ∃ zs : List α, (x :: zs).Perm xs ∧ ∀ k, dictBy key (x :: zs) k = dictBy key zs k := by
  obtain ⟨before, after, rfl⟩ := List.append_of_mem hx
  refine ⟨before ++ after, List.perm_middle.symm, fun k => ?_⟩
  rw [dictBy_cons]
  by_cases hk : key x = k
  · subst hk
    have hagain : ∃ y ∈ before ++ after, key y = key x := by
      by_contra hnone
      push Not at hnone
      refine h ?_
      rw [List.perm_middle.countP_eq, List.countP_cons_of_pos (by simp), List.countP_eq_zero.mpr (by simpa using hnone)]
    obtain ⟨y, hy⟩ : ∃ y, dictBy key (before ++ after) (key x) = some y := exists_dictBy.mpr hagain
    rw [hy]
    rfl
  · rw [if_neg hk, Option.or_none]

/-! ### What is kept -/

/-- The items kept of some keys. -/
def keptOf (key : α → κ) (xs : List α) (ks : List κ) : List α := ks.filterMap (dictBy key xs)

theorem nodup_keptOf {ks : List κ} (h : ks.Nodup) : (keptOf key xs ks).Nodup :=
  h.filterMap fun _ _ _ hk hk' => (dictBy_mem hk).2.symm.trans (dictBy_mem hk').2

theorem keptOf_subset {ks : List κ} : keptOf key xs ks ⊆ xs := by
  intro x hx
  obtain ⟨k, -, hk⟩ := List.mem_filterMap.mp hx
  exact (dictBy_mem hk).1

variable (key) in
/-- What is kept weighs no more than all there is. -/
theorem sum_kept_le (w : α → Nat) {ks : List κ} (h : ks.Nodup) : ((keptOf key xs ks).map w).sum ≤ (xs.map w).sum := by
  have hkept : (keptOf key xs ks).Nodup := nodup_keptOf h
  obtain ⟨zs, hperm, hsub⟩ := List.subperm_of_subset hkept keptOf_subset
  rw [← (hperm.map w).sum_eq]
  exact (hsub.map w).sum_le_sum fun _ _ => Nat.zero_le _

/-- Where no key that weighs is repeated, nothing is lost. -/
theorem sum_kept_eq (w : α → Nat) {ks : List κ} (h : ks.Nodup) (hkeys : ∀ x ∈ xs, key x ∈ ks)
    (hunique : ∀ x ∈ xs, w x ≠ 0 → xs.countP (fun y => key y = key x) = 1) :
    ((keptOf key xs ks).map w).sum = (xs.map w).sum := by
  classical
  have hsum (zs : List α) : (zs.map w).sum = ((zs.filter (w · ≠ 0)).map w).sum := by
    induction zs with
    | nil => rfl
    | cons z zs ih =>
      by_cases hz : w z = 0
      · simp [hz, ih]
      · simp [hz, ih]
  have hnodup : (xs.filter (w · ≠ 0)).Nodup := by
    refine List.nodup_iff_count_le_one.mpr fun x => ?_
    by_cases hx : x ∈ xs ∧ w x ≠ 0
    · refine (List.Sublist.count_le x List.filter_sublist).trans ((List.countP_mono_left ?_).trans (hunique x hx.1 hx.2).le)
      intro y _ hy
      simp_all
    · rw [List.count_eq_zero_of_not_mem]
      · exact Nat.zero_le 1
      · simpa using hx
  have hperm : ((keptOf key xs ks).filter (w · ≠ 0)).Perm (xs.filter (w · ≠ 0)) := by
    refine (List.perm_ext_iff_of_nodup ((nodup_keptOf h).filter _) hnodup).mpr fun x => ?_
    simp only [List.mem_filter, decide_eq_true_eq]
    refine and_congr_left fun hw => ⟨fun hx => keptOf_subset hx, fun hx => ?_⟩
    exact List.mem_filterMap.mpr ⟨key x, hkeys x hx, dictBy_unique hx fun y hy => eq_of_countP_one (hunique x hx hw) hx hy⟩
  rw [hsum (keptOf key xs ks), hsum xs]
  exact (hperm.map w).sum_eq

end Dict

end ContextEngine.Python
