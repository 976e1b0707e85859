/-
  ContextEngine.Postgres.Queries — how a function of the database ends, and the set functions
  that its queries read `jsonb` with.

  A function returns rows, returns none, or raises; in the last two cases here nothing was
  written. Only equality and membership of a text array are read below, so the order that
  its collation gives it stands for any total one.
-/

import ContextEngine.Python.Sorted
import ContextEngine.Postgres.Values

namespace ContextEngine.Postgres

open ContextEngine.Python

/-! ## Exits -/

/-- An end without a row. -/
inductive Exit where
  | noRow
  | raised
  deriving DecidableEq

/-- `IF NOT condition THEN` leave. -/
def require (condition : Prop) [Decidable condition] (exit : Exit) : Except Exit Unit :=
  if condition then .ok () else .error exit

/-- A value that has to be there. -/
def found {α : Type} (value : Option α) (exit : Exit) : Except Exit α :=
  match value with
  | some a => .ok a
  | none => .error exit

/-- `EXCEPTION WHEN data_exception THEN RETURN`: an error of another class goes on. -/
def handled {α : Type} (value : Except ErrorClass α) : Except Exit α :=
  match value with
  | .ok a => .ok a
  | .error .dataException => .error .noRow
  | .error .other => .error .raised

section Exits

variable {α β : Type} {exit : Exit}

@[simp] theorem bind_eq_ok {x : Except Exit α} {f : α → Except Exit β} {b : β} :
    (x >>= f) = .ok b ↔ ∃ a, x = .ok a ∧ f a = .ok b := by
  cases x with
  | ok a => simp [bind, Except.bind]
  | error e => simp [bind, Except.bind]

@[simp] theorem require_eq_ok {condition : Prop} [Decidable condition] {u : Unit} :
    require condition exit = .ok u ↔ condition := by
  unfold require
  split <;> simp_all

@[simp] theorem found_eq_ok {value : Option α} {a : α} : found value exit = .ok a ↔ value = some a := by
  cases value <;> simp [found]

@[simp] theorem handled_eq_ok {value : Except ErrorClass α} {a : α} : handled value = .ok a ↔ value = .ok a := by
  cases value with
  | ok _ => simp [handled]
  | error e => cases e <;> simp [handled]

theorem handled_eq_raised {value : Except ErrorClass α} : handled value = .error .raised ↔ value = .error .other := by
  cases value with
  | ok _ => simp [handled]
  | error e => cases e <;> simp [handled]

end Exits

/-! ## Set functions -/

/-- `jsonb_array_elements_text(value)`: no row for NULL, an error for anything but an array. -/
def Server.elementsText (server : Server) : Option Jsonb → Option (List (Option String))
  | none => some []
  | some (.array es) => some (es.map fun e => server.text (some e))
  | some _ => none

/-- `array_agg(DISTINCT value ORDER BY value)`, or the empty array. -/
def distinctAgg (values : List String) : List String := sortedBy id values.dedup

/-- `array_agg(value ORDER BY value)`, or the empty array; NULL comes last. -/
def orderedAgg (values : List (Option String)) : List (Option String) :=
  (sortedBy id (values.filterMap id)).map some ++ values.filter (· = none)

theorem mem_distinctAgg {s : String} {values : List String} : s ∈ distinctAgg values ↔ s ∈ values := by
  simp [distinctAgg]

theorem nodup_distinctAgg (values : List String) : (distinctAgg values).Nodup :=
  (sortedBy_perm id values.dedup).nodup_iff.mpr (List.nodup_dedup values)

theorem orderedAgg_perm (values : List (Option String)) : (orderedAgg values).Perm values := by
  have hsome : (values.filterMap id).map some = values.filter (· ≠ none) := by
    induction values with
    | nil => rfl
    | cons v values ih => cases v <;> simp_all
  have hsorted : ((sortedBy id (values.filterMap id)).map some).Perm (values.filter (· ≠ none)) :=
    hsome ▸ (sortedBy_perm id (values.filterMap id)).map some
  have hsplit := List.filter_append_perm (· ≠ none) values
  refine (hsorted.append_right _).trans ?_
  simpa using hsplit

/-- The aggregates agree exactly when every value is there, each once. -/
theorem orderedAgg_eq_iff {claimed : List (Option String)} {values : List String} :
    orderedAgg claimed = (distinctAgg values).map some ↔ claimed.Nodup ∧ ∀ v, v ∈ claimed ↔ ∃ s ∈ values, v = some s := by
  constructor
  · intro h
    have hperm := h ▸ orderedAgg_perm claimed
    refine ⟨hperm.nodup_iff.mp ((nodup_distinctAgg values).map (Option.some_injective _)), fun v => ?_⟩
    rw [← hperm.mem_iff, List.mem_map]
    constructor
    · rintro ⟨s, hs, rfl⟩
      exact ⟨s, mem_distinctAgg.mp hs, rfl⟩
    · rintro ⟨s, hs, rfl⟩
      exact ⟨s, mem_distinctAgg.mpr hs, rfl⟩
  · rintro ⟨hnodup, hmem⟩
    have hnone : claimed.filter (· = none) = [] := by
      refine List.filter_eq_nil_iff.mpr ?_
      intro v hv
      obtain ⟨s, _, rfl⟩ := (hmem v).mp hv
      simp
    have hperm : (claimed.filterMap id).Perm values.dedup := by
      refine (List.perm_ext_iff_of_nodup ?_ (List.nodup_dedup values)).mpr ?_
      · refine hnodup.filterMap ?_
        rintro a a' b ha ha'
        exact ha.trans ha'.symm
      · intro s
        rw [List.mem_filterMap, List.mem_dedup]
        constructor
        · rintro ⟨v, hv, hs⟩
          obtain ⟨t, ht, rfl⟩ := (hmem v).mp hv
          cases hs
          exact ht
        · intro hs
          exact ⟨some s, (hmem _).mpr ⟨s, hs, rfl⟩, rfl⟩
    have hsorted : sortedBy id (claimed.filterMap id) = sortedBy id values.dedup :=
      sortedBy_eq_of_perm hperm (fun _ _ => rfl) fun _ _ _ _ h => h
    rw [orderedAgg, hnone, List.append_nil, hsorted, distinctAgg]

end ContextEngine.Postgres
