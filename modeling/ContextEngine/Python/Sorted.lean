/-
  ContextEngine.Python.Sorted — Python's `sorted(xs, key=...)`, a stable sort by a key.

  Where the key tells the elements apart, the result depends on the elements alone and
  not on the order they came in, so a `dict` or a `set` may be sorted whatever its order.
-/

import Mathlib

namespace ContextEngine.Python

section Sorted

variable {α κ : Type} [LinearOrder κ] (key : α → κ)

/-- `sorted(xs, key=key)`. -/
def sortedBy (xs : List α) : List α := xs.insertionSort fun a b => key a ≤ key b

theorem sortedBy_perm (xs : List α) : (sortedBy key xs).Perm xs := List.perm_insertionSort _ xs

@[simp] theorem length_sortedBy (xs : List α) : (sortedBy key xs).length = xs.length := (sortedBy_perm key xs).length_eq

@[simp] theorem mem_sortedBy {a : α} {xs : List α} : a ∈ sortedBy key xs ↔ a ∈ xs := (sortedBy_perm key xs).mem_iff

theorem pairwise_sortedBy (xs : List α) : (sortedBy key xs).Pairwise fun a b => key a ≤ key b := by
  have : Std.Total fun a b : α => key a ≤ key b := ⟨fun a b => le_total _ _⟩
  have : IsTrans α fun a b : α => key a ≤ key b := ⟨fun _ _ _ => le_trans⟩
  exact List.pairwise_insertionSort _ xs

variable {key}

/-- What is in order already stays. -/
theorem sortedBy_of_pairwise {xs : List α} (h : xs.Pairwise fun a b => key a ≤ key b) : sortedBy key xs = xs :=
  List.Pairwise.insertionSort_eq h

/-- A key that separates the elements leaves nothing to the order they came in. -/
theorem sortedBy_eq_of_perm {key' : α → κ} {xs ys : List α} (h : xs.Perm ys) (hkey : ∀ a ∈ xs, key a = key' a)
    (hinj : ∀ a ∈ xs, ∀ b ∈ xs, key a = key b → a = b) : sortedBy key xs = sortedBy key' ys := by
  have hmem : ∀ {a}, a ∈ sortedBy key' ys → a ∈ xs := fun ha => h.mem_iff.mpr ((mem_sortedBy key').mp ha)
  have hsorted : (sortedBy key' ys).Pairwise fun a b => key a ≤ key b := by
    refine (pairwise_sortedBy key' ys).imp_of_mem fun {a b} ha hb hab => ?_
    rw [hkey a (hmem ha), hkey b (hmem hb)]
    exact hab
  have hperm : (sortedBy key xs).Perm (sortedBy key' ys) :=
    ((sortedBy_perm key xs).trans h).trans (sortedBy_perm key' ys).symm
  refine hperm.eq_of_pairwise (fun a b ha hb hab hba => ?_) (pairwise_sortedBy key xs) hsorted
  exact hinj a ((mem_sortedBy key).mp ha) b (hmem hb) (le_antisymm hab hba)

end Sorted

end ContextEngine.Python
