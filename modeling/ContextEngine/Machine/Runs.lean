/-
  ContextEngine.Machine.Runs — machines that answer calls, and what holds along their runs.

  A machine is a step function: one call takes a state to the next one and gives a reply.
  A run is a list of calls. Two rules carry the developments above this module: an
  invariant of every step holds after every run, and something that a step can emit only
  while it is unspent is emitted at most once in a run.
-/

import Mathlib

namespace ContextEngine.Machine

variable {σ κ ρ : Type}

/-! ## Runs -/

/-- The state after a run. -/
def after (step : σ → κ → σ × ρ) (s : σ) : List κ → σ
  | [] => s
  | c :: cs => after step (step s c).1 cs

/-- One step of a run: the state before it, its call and the reply. -/
structure Entry (σ κ ρ : Type) where
  before : σ
  call : κ
  reply : ρ

/-- The steps of a run, in order. -/
def history (step : σ → κ → σ × ρ) (s : σ) : List κ → List (Entry σ κ ρ)
  | [] => []
  | c :: cs => ⟨s, c, (step s c).2⟩ :: history step (step s c).1 cs

/-- The states that a run goes through, the first and the last included. -/
def states (step : σ → κ → σ × ρ) (s : σ) (cs : List κ) : List σ := (history step s cs).map (·.before) ++ [after step s cs]

variable {step : σ → κ → σ × ρ}

@[simp] theorem after_nil (s : σ) : after step s [] = s := rfl

@[simp] theorem after_cons (s : σ) (c : κ) (cs : List κ) : after step s (c :: cs) = after step (step s c).1 cs := rfl

@[simp] theorem history_nil (s : σ) : history step s [] = [] := rfl

@[simp] theorem history_cons (s : σ) (c : κ) (cs : List κ) :
    history step s (c :: cs) = ⟨s, c, (step s c).2⟩ :: history step (step s c).1 cs := rfl

theorem after_append (s : σ) (cs ds : List κ) : after step s (cs ++ ds) = after step (after step s cs) ds := by
  induction cs generalizing s with
  | nil => rfl
  | cons c cs ih => exact ih (step s c).1

theorem history_append (s : σ) (cs ds : List κ) :
    history step s (cs ++ ds) = history step s cs ++ history step (after step s cs) ds := by
  induction cs generalizing s with
  | nil => rfl
  | cons c cs ih => rw [List.cons_append, history_cons, ih, history_cons, List.cons_append, after_cons]

theorem states_snoc (s : σ) (cs : List κ) (c : κ) :
    states step s (cs ++ [c]) = states step s cs ++ [(step (after step s cs) c).1] := by
  rw [states, states, history_append, after_append, List.map_append]
  rfl

/-! ## Invariants -/

/-- What every step preserves holds after every run. -/
theorem after_inv (Inv : σ → Prop) (hstep : ∀ s c, Inv s → Inv (step s c).1) {s : σ} (h : Inv s) (cs : List κ) :
    Inv (after step s cs) := by
  induction cs generalizing s with
  | nil => exact h
  | cons c cs ih => exact ih (hstep s c h)

/-- The reply of each step of a run is what the machine answers there. -/
theorem history_reply {s : σ} {cs : List κ} {e : Entry σ κ ρ} (he : e ∈ history step s cs) :
    e.reply = (step e.before e.call).2 := by
  induction cs generalizing s with
  | nil => simp at he
  | cons c cs ih =>
    rcases List.mem_cons.mp he with rfl | he
    · rfl
    · exact ih he

/-- What every step from a state with the invariant does holds of every step of a run. -/
theorem history_inv (Inv : σ → Prop) (hstep : ∀ s c, Inv s → Inv (step s c).1) {P : Entry σ κ ρ → Prop}
    (hP : ∀ s c, Inv s → P ⟨s, c, (step s c).2⟩) {s : σ} (h : Inv s) (cs : List κ) : ∀ e ∈ history step s cs, P e := by
  induction cs generalizing s with
  | nil => simp
  | cons c cs ih =>
    intro e he
    rcases List.mem_cons.mp he with rfl | he
    · exact hP s c h
    · exact ih (hstep s c h) e he

/-- A log to which each step adds what it replies. -/
theorem after_log {ε : Type} (log : σ → List ε) (added : ρ → List ε)
    (hstep : ∀ s c, log (step s c).1 = log s ++ added (step s c).2) (s : σ) (cs : List κ) :
    log (after step s cs) = log s ++ (history step s cs).flatMap fun e => added e.reply := by
  induction cs generalizing s with
  | nil => exact (List.append_nil _).symm
  | cons c cs ih => rw [after_cons, ih, hstep, List.append_assoc, history_cons, List.flatMap_cons]

/-! ## Emitting at most once -/

/-- A value is spent by the step that emits it, stays spent, and is not emitted while it is
    spent: no run emits it twice. -/
theorem emits_once {ε : Type} (emits : Entry σ κ ρ → Option ε) (Spent : ε → σ → Prop)
    (hstay : ∀ v s c, Spent v s → Spent v (step s c).1)
    (hspend : ∀ v s c, emits ⟨s, c, (step s c).2⟩ = some v → Spent v (step s c).1)
    (hfree : ∀ v s c, Spent v s → emits ⟨s, c, (step s c).2⟩ ≠ some v) (s : σ) (cs : List κ) :
    ((history step s cs).filterMap emits).Nodup := by
  have hnot : ∀ (v : ε) (cs : List κ) (s : σ), Spent v s → v ∉ (history step s cs).filterMap emits := by
    intro v cs
    induction cs with
    | nil => simp
    | cons c cs ih =>
      intro s hs hv
      obtain ⟨e, he, hev⟩ := List.mem_filterMap.mp hv
      rcases List.mem_cons.mp he with rfl | he
      · exact hfree v s c hs hev
      · exact ih _ (hstay v s c hs) (List.mem_filterMap.mpr ⟨e, he, hev⟩)
  induction cs generalizing s with
  | nil => simp
  | cons c cs ih =>
    cases hv : emits ⟨s, c, (step s c).2⟩ with
    | none => simpa [hv] using ih (step s c).1
    | some v =>
      rw [history_cons, List.filterMap_cons_some hv]
      exact List.nodup_cons.mpr ⟨hnot v cs _ (hspend v s c hv), ih _⟩

end ContextEngine.Machine
