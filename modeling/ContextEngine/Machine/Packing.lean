/-
  ContextEngine.Machine.Packing — filling a bound in a given order: an item that does not fit
  is passed over, and the ones behind it may still.

  Proved: what is kept and what is passed over are the items, in their order (`pack_split`);
  what is kept fits (`pack_fits`), and nothing that was passed over would fit beside it
  (`pack_maximal`).
-/

import Mathlib

namespace ContextEngine.Machine

variable {α : Type} (weight : α → Nat) (limit : Nat)

/-- `used` of the limit is taken. -/
def pack : Nat → List α → List α
  | _, [] => []
  | used, a :: as => if limit < used + weight a then pack used as else a :: pack (used + weight a) as

def totalWeight (as : List α) : Nat := (as.map weight).sum

/-- The items in two parts, each in the order of the whole. -/
inductive Split : List α → List α → List α → Prop
  | nil : Split [] [] []
  | keep {a : α} {kept left as : List α} : Split kept left as → Split (a :: kept) left (a :: as)
  | skip {a : α} {kept left as : List α} : Split kept left as → Split kept (a :: left) (a :: as)

theorem Split.sublist {kept left as : List α} (h : Split kept left as) : kept.Sublist as := by
  induction h with
  | nil => exact List.Sublist.refl _
  | keep _ ih => exact ih.cons_cons _
  | skip _ ih => exact ih.cons _

/-- The items that are passed over. -/
def passed : Nat → List α → List α
  | _, [] => []
  | used, a :: as => if limit < used + weight a then a :: passed used as else passed (used + weight a) as

variable {weight limit}

theorem pack_split (used : Nat) (as : List α) : Split (pack weight limit used as) (passed weight limit used as) as := by
  induction as generalizing used with
  | nil => exact .nil
  | cons a as ih =>
    rw [pack, passed]
    split
    · exact .skip (ih used)
    · exact .keep (ih (used + weight a))

theorem pack_fits {used : Nat} (h : used ≤ limit) (as : List α) : used + totalWeight weight (pack weight limit used as) ≤ limit := by
  induction as generalizing used with
  | nil => exact h
  | cons a as ih =>
    rw [pack]
    split
    · exact ih h
    · have hused : used + weight a ≤ limit := by omega
      have hrest := ih hused
      rw [totalWeight, List.map_cons, List.sum_cons]
      rw [totalWeight] at hrest
      omega

/-- What is used only grows, so an item that was too large for what was left then is too large
    for what is left in the end. -/
theorem pack_maximal {used : Nat} {as : List α} {a : α} (h : a ∈ passed weight limit used as) :
    limit < used + totalWeight weight (pack weight limit used as) + weight a := by
  induction as generalizing used with
  | nil => cases h
  | cons b as ih =>
    rw [passed] at h
    rw [pack]
    split_ifs at h ⊢ with hfull
    · rcases List.mem_cons.mp h with rfl | h
      · omega
      · exact ih h
    · have hrest := ih h
      rw [totalWeight, List.map_cons, List.sum_cons]
      rw [totalWeight] at hrest
      omega

end ContextEngine.Machine
