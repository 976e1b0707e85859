/-
  ContextEngine.Machine.Closure — everything that can be reached from some starting points.

  `rounds` is how a recursive query with `UNION` is evaluated: each round expands what the
  round before it found, and keeps of that what was not seen yet. Expanding an element may
  fail, and then the whole evaluation does.

  Proved: where only finitely many elements can be reached, as many rounds give exactly the
  reachable elements (`mem_close`), and the evaluation fails exactly when one of them cannot
  be expanded (`close_eq_none_iff`). A recursive search that stops on its own path still covers
  everything (`walk_iff`).
-/

import Mathlib

namespace ContextEngine.Machine

section Closure

variable {α : Type} (expand : α → Option (List α))

/-! ## Evaluation -/

section Rounds

variable [DecidableEq α]

def rounds : Nat → List α → List α → Option (List α)
  | 0, seen, _ => some seen
  | fuel + 1, seen, working => do
    let found ← working.mapM expand
    let fresh := found.flatten.dedup.filter (· ∉ seen)
    rounds fuel (seen ++ fresh) fresh

def close (bound : Nat) (starts : List α) : Option (List α) := rounds expand (bound + 1) starts.dedup starts.dedup

end Rounds

/-! ## Reachability -/

/-- The expansion of `a` lists `b`. -/
def Edge (a b : α) : Prop := ∃ bs, expand a = some bs ∧ b ∈ bs

def Reaches (starts : List α) (b : α) : Prop := ∃ a ∈ starts, Relation.ReflTransGen (Edge expand) a b

variable {expand}

theorem Reaches.start {starts : List α} {a : α} (h : a ∈ starts) : Reaches expand starts a := ⟨a, h, .refl⟩

theorem Reaches.edge {starts : List α} {a b : α} (h : Reaches expand starts a) (hab : Edge expand a b) :
    Reaches expand starts b := by
  obtain ⟨s, hs, hsa⟩ := h
  exact ⟨s, hs, hsa.tail hab⟩

/-- What holds of the starting points and goes along an edge holds of everything reached. -/
theorem Reaches.induction {starts : List α} {P : α → Prop} (hstart : ∀ a ∈ starts, P a)
    (hedge : ∀ a b, P a → Edge expand a b → P b) {b : α} (h : Reaches expand starts b) : P b := by
  obtain ⟨s, hs, hsb⟩ := h
  induction hsb with
  | refl => exact hstart s hs
  | tail _ hab ih => exact hedge _ _ ih hab

theorem Reaches.of_subset {starts starts' : List α} (hsub : ∀ a ∈ starts, Reaches expand starts' a) {b : α}
    (h : Reaches expand starts b) : Reaches expand starts' b :=
  h.induction hsub fun _ _ ha hab => ha.edge hab

/-! ## One round -/

theorem mem_mapM {f : α → Option (List α)} {xs : List α} {found : List (List α)} (h : xs.mapM f = some found) :
    (∀ a ∈ xs, ∃ bs ∈ found, f a = some bs) ∧ ∀ bs ∈ found, ∃ a ∈ xs, f a = some bs := by
  induction xs generalizing found with
  | nil =>
    simp only [List.mapM_nil, Option.pure_def, Option.some.injEq] at h
    subst h
    simp
  | cons x xs ih =>
    simp only [List.mapM_cons, Option.pure_def, Option.bind_eq_bind, Option.bind_eq_some_iff, Option.some.injEq] at h
    obtain ⟨bs, hx, rest, hrest, rfl⟩ := h
    obtain ⟨hin, hout⟩ := ih hrest
    constructor
    · intro a ha
      rcases List.mem_cons.mp ha with rfl | ha'
      · exact ⟨bs, List.mem_cons_self, hx⟩
      · obtain ⟨cs, hcs, hac⟩ := hin a ha'
        exact ⟨cs, List.mem_cons_of_mem _ hcs, hac⟩
    · intro cs hcs
      rcases List.mem_cons.mp hcs with rfl | hcs'
      · exact ⟨x, List.mem_cons_self, hx⟩
      · obtain ⟨a, ha, hac⟩ := hout cs hcs'
        exact ⟨a, List.mem_cons_of_mem _ ha, hac⟩

theorem mapM_eq_none {f : α → Option (List α)} {xs : List α} (h : xs.mapM f = none) : ∃ a ∈ xs, f a = none := by
  induction xs with
  | nil => simp at h
  | cons x xs ih =>
    cases hx : f x with
    | none => exact ⟨x, List.mem_cons_self, hx⟩
    | some bs =>
      cases hrest : xs.mapM f with
      | none =>
        obtain ⟨a, ha, hfa⟩ := ih hrest
        exact ⟨a, List.mem_cons_of_mem _ ha, hfa⟩
      | some rest => simp [List.mapM_cons, hx, hrest] at h

/-! ## All rounds -/

/-- What holds between two rounds: the elements outside the last round are expanded within
    what was seen, and the fuel left is enough for what was not. -/
structure Round (expand : α → Option (List α)) (elems : List α) (fuel : Nat) (seen working : List α) : Prop where
  known : ∀ a ∈ working, a ∈ seen
  expanded : ∀ a ∈ seen, a ∉ working → ∃ bs, expand a = some bs ∧ ∀ b ∈ bs, b ∈ seen
  nodup : seen.Nodup
  within : ∀ b, Reaches expand seen b → b ∈ elems
  enough : working = [] ∨ elems.length < fuel + seen.length

/-- With no fuel left there is nothing left to expand. -/
theorem Round.done {elems seen working : List α} (h : Round expand elems 0 seen working) : working = [] := by
  rcases h.enough with hw | hfuel
  · exact hw
  · have hsub : seen ⊆ elems := fun a ha => h.within a (.start ha)
    have hle := (h.nodup.subperm hsub).length_le
    omega

variable [DecidableEq α]

/-- A round finds only what can be reached. -/
theorem Round.reached {elems seen working : List α} {fuel : Nat} (h : Round expand elems fuel seen working)
    {found : List (List α)} (hfound : working.mapM expand = some found) :
    ∀ a ∈ seen ++ found.flatten.dedup.filter (· ∉ seen), Reaches expand seen a := by
  intro a ha
  rcases List.mem_append.mp ha with ha | ha
  · exact .start ha
  · obtain ⟨bs, hbs, hab⟩ := List.mem_flatten.mp (List.mem_dedup.mp (List.mem_filter.mp ha).1)
    obtain ⟨c, hc, hcb⟩ := (mem_mapM hfound).2 bs hbs
    exact (Reaches.start (h.known c hc)).edge ⟨bs, hcb, hab⟩

theorem Round.next {elems seen working : List α} {fuel : Nat} (h : Round expand elems (fuel + 1) seen working)
    {found : List (List α)} (hfound : working.mapM expand = some found) :
    Round expand elems fuel (seen ++ found.flatten.dedup.filter (· ∉ seen)) (found.flatten.dedup.filter (· ∉ seen)) := by
  have hin := (mem_mapM hfound).1
  constructor
  · intro a ha
    exact List.mem_append_right _ ha
  · intro a ha hfresh
    have ha' : a ∈ seen := (List.mem_append.mp ha).resolve_right hfresh
    by_cases hw : a ∈ working
    · obtain ⟨bs, hbs, hab⟩ := hin a hw
      refine ⟨bs, hab, ?_⟩
      intro b hb
      by_cases hseen : b ∈ seen
      · exact List.mem_append_left _ hseen
      · refine List.mem_append_right _ (List.mem_filter.mpr ⟨?_, by simpa using hseen⟩)
        exact List.mem_dedup.mpr (List.mem_flatten.mpr ⟨bs, hbs, hb⟩)
    · obtain ⟨bs, hab, hsub⟩ := h.expanded a ha' hw
      exact ⟨bs, hab, fun b hb => List.mem_append_left _ (hsub b hb)⟩
  · refine List.nodup_append'.mpr ⟨h.nodup, (List.nodup_dedup _).filter _, ?_⟩
    intro a ha hfresh
    simpa [ha] using (List.mem_filter.mp hfresh).2
  · intro b hb
    exact h.within b (hb.of_subset (h.reached hfound))
  · by_cases hfresh : found.flatten.dedup.filter (· ∉ seen) = []
    · exact .inl hfresh
    · right
      have hpos := List.length_pos_iff.mpr hfresh
      rcases h.enough with hw | hfuel
      · subst hw
        simp only [List.mapM_nil, Option.pure_def, Option.some.injEq] at hfound
        subst hfound
        simp at hfresh
      · rw [List.length_append]
        omega

theorem rounds_eq_some {elems seen working r : List α} {fuel : Nat} (h : Round expand elems fuel seen working)
    (hr : rounds expand fuel seen working = some r) :
    (∀ b, b ∈ r ↔ Reaches expand seen b) ∧ ∀ b ∈ r, (expand b).isSome := by
  induction fuel generalizing seen working with
  | zero =>
    have hw := h.done
    simp only [rounds, Option.some.injEq] at hr
    subst hr
    have hexpanded : ∀ a ∈ seen, ∃ bs, expand a = some bs ∧ ∀ b ∈ bs, b ∈ seen := by
      intro a ha
      exact h.expanded a ha (by simp [hw])
    refine ⟨fun b => ⟨fun hb => .start hb, fun hb => hb.induction (fun a ha => ha) ?_⟩, fun b hb => ?_⟩
    · rintro a b ha ⟨bs, hbs, hb⟩
      obtain ⟨cs, hcs, hsub⟩ := hexpanded a ha
      rw [hcs] at hbs
      cases hbs
      exact hsub b hb
    · obtain ⟨cs, hcs, _⟩ := hexpanded b hb
      simp [hcs]
  | succ fuel ih =>
    simp only [rounds, Option.bind_eq_bind, Option.bind_eq_some_iff] at hr
    obtain ⟨found, hfound, hr⟩ := hr
    obtain ⟨hmem, hsome⟩ := ih (h.next hfound) hr
    refine ⟨fun b => ?_, hsome⟩
    rw [hmem b]
    constructor
    · intro hb
      exact hb.of_subset (h.reached hfound)
    · intro hb
      exact hb.of_subset fun a ha => .start (List.mem_append_left _ ha)

theorem rounds_eq_none {elems seen working : List α} {fuel : Nat} (h : Round expand elems fuel seen working)
    (hr : rounds expand fuel seen working = none) : ∃ b, Reaches expand seen b ∧ expand b = none := by
  induction fuel generalizing seen working with
  | zero => simp [rounds] at hr
  | succ fuel ih =>
    cases hfound : working.mapM expand with
    | none =>
      obtain ⟨a, ha, hnone⟩ := mapM_eq_none hfound
      exact ⟨a, .start (h.known a ha), hnone⟩
    | some found =>
      simp only [rounds, hfound, Option.bind_eq_bind, Option.bind_some] at hr
      obtain ⟨b, hb, hnone⟩ := ih (h.next hfound) hr
      exact ⟨b, hb.of_subset (h.reached hfound), hnone⟩

/-! ## The closure -/

variable {elems starts : List α} {bound : Nat}

theorem Round.first (hwithin : ∀ b, Reaches expand starts b → b ∈ elems) (hbound : elems.length ≤ bound) :
    Round expand elems (bound + 1) starts.dedup starts.dedup where
  known := fun _ ha => ha
  expanded := fun _ ha hn => absurd ha hn
  nodup := List.nodup_dedup _
  within := fun b hb => hwithin b (hb.of_subset fun a ha => .start (List.mem_dedup.mp ha))
  enough := .inr (by omega)

theorem reaches_dedup {b : α} : Reaches expand starts.dedup b ↔ Reaches expand starts b :=
  ⟨fun h => h.of_subset fun _ ha => .start (List.mem_dedup.mp ha), fun h => h.of_subset fun _ ha => .start (List.mem_dedup.mpr ha)⟩

theorem mem_close (hwithin : ∀ b, Reaches expand starts b → b ∈ elems) (hbound : elems.length ≤ bound) {r : List α}
    (hr : close expand bound starts = some r) (b : α) : b ∈ r ↔ Reaches expand starts b :=
  ((rounds_eq_some (Round.first hwithin hbound) hr).1 b).trans reaches_dedup

theorem close_eq_none_iff (hwithin : ∀ b, Reaches expand starts b → b ∈ elems) (hbound : elems.length ≤ bound) :
    close expand bound starts = none ↔ ∃ b, Reaches expand starts b ∧ expand b = none := by
  constructor
  · intro hr
    obtain ⟨b, hb, hnone⟩ := rounds_eq_none (Round.first hwithin hbound) hr
    exact ⟨b, reaches_dedup.mp hb, hnone⟩
  · rintro ⟨b, hb, hnone⟩
    cases hr : close expand bound starts with
    | none => rfl
    | some r =>
      obtain ⟨hmem, hsome⟩ := rounds_eq_some (Round.first hwithin hbound) hr
      have := hsome b ((hmem b).mpr (reaches_dedup.mpr hb))
      simp [hnone] at this

end Closure

/-! ## Walks that stop on their path -/

section Walk

variable {α : Type} (r : α → α → Prop)

/-- `b` is reached from `a` without leaving an element of `path`. -/
def Walk (path : Finset α) : α → α → Prop := Relation.ReflTransGen fun a b => a ∉ path ∧ r a b

variable {r}

theorem walk_empty {a b : α} : Walk r ∅ a b ↔ Relation.ReflTransGen r a b := by simp [Walk]

/-- A walk may be cut where it comes back to its start, so that what follows does not leave
    the start again. -/
theorem walk_iff [DecidableEq α] {path : Finset α} {a b : α} :
    Walk r path a b ↔ b = a ∨ a ∉ path ∧ ∃ c, r a c ∧ Walk r (insert a path) c b := by
  constructor
  · intro h
    induction h with
    | refl => exact .inl rfl
    | @tail b c _ hbc ih =>
      obtain ⟨hb, hbc⟩ := hbc
      by_cases hba : b = a
      · subst hba
        exact .inr ⟨hb, c, hbc, .refl⟩
      · obtain ⟨ha, d, had, hdb⟩ := ih.resolve_left hba
        exact .inr ⟨ha, d, had, hdb.tail ⟨by simp [hba, hb], hbc⟩⟩
  · rintro (rfl | ⟨ha, c, hac, hcb⟩)
    · exact .refl
    · refine Relation.ReflTransGen.head ⟨ha, hac⟩ (Relation.ReflTransGen.mono ?_ _ _ hcb)
      rintro d e ⟨hd, hde⟩
      exact ⟨fun hin => hd (Finset.mem_insert_of_mem hin), hde⟩

end Walk

end ContextEngine.Machine
