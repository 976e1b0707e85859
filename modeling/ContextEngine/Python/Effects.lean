/-
  ContextEngine.Python.Effects — effectful code that may raise, and what holds of every run
  that returned.

  Code that calls out runs in `StateT ω (Except ε)`, where `ω` is whatever state the world
  behind its ports has; code that also keeps a trace `σ` of its own runs one `StateT` above.
  `Returns` is about the value alone; `Ends` is about the value and the trace. A call out
  cannot touch the trace, so `Returns` lifts to `Ends`.
-/

import Mathlib

namespace ContextEngine.Python

variable {σ ω ε α β : Type}

/-! ## One state -/

theorem run_bind {x : StateT ω (Except ε) α} {f : α → StateT ω (Except ε) β} {w w' : ω} {b : β}
    (h : (x >>= f) w = .ok (b, w')) : ∃ a mid, x w = .ok (a, mid) ∧ f a mid = .ok (b, w') := by
  have h : (x w >>= fun p => f p.1 p.2) = .ok (b, w') := h
  cases hx : x w with
  | error e => rw [hx] at h; cases h
  | ok p => rw [hx] at h; exact ⟨p.1, p.2, rfl, h⟩

theorem run_pure {a b : α} {w w' : ω} (h : (pure a : StateT ω (Except ε) α) w = .ok (b, w')) : b = a ∧ w' = w := by
  cases h; exact ⟨rfl, rfl⟩

/-- A check lifted into the world's monad leaves the world alone. -/
theorem run_lift {x : Except ε α} {a : α} {w w' : ω} (h : (liftM x : StateT ω (Except ε) α) w = .ok (a, w')) :
    x = .ok a ∧ w' = w := by
  cases x with
  | error e => cases h
  | ok b => cases h; exact ⟨rfl, rfl⟩

/-- `try: x … except e: raise f(e)`. -/
def reraise (f : ε → ε) (x : StateT ω (Except ε) α) : StateT ω (Except ε) α := fun w =>
  match x w with
  | .ok r => .ok r
  | .error e => .error (f e)

/-- Every value the code returns satisfies `P`. -/
def Returns (x : StateT ω (Except ε) α) (P : α → Prop) : Prop := ∀ w a w', x w = .ok (a, w') → P a

namespace Returns

variable {x : StateT ω (Except ε) α} {P Q : α → Prop} {R : β → Prop}

theorem any (x : StateT ω (Except ε) α) : Returns x fun _ => True := fun _ _ _ _ => trivial

theorem mono (h : Returns x P) (hpq : ∀ a, P a → Q a) : Returns x Q := fun w a w' hx => hpq a (h w a w' hx)

theorem pure {a : α} (h : P a) : Returns (Pure.pure a : StateT ω (Except ε) α) P := by
  intro w b w' hb
  obtain ⟨rfl, -⟩ := run_pure hb
  exact h

theorem bind {f : α → StateT ω (Except ε) β} (hx : Returns x P) (hf : ∀ a, P a → Returns (f a) R) :
    Returns (x >>= f) R := by
  intro w b w' h
  obtain ⟨a, mid, ha, hb⟩ := run_bind h
  exact hf a (hx w a mid ha) mid b w' hb

theorem lift {x : Except ε α} (h : ∀ a, x = .ok a → P a) : Returns (liftM x : StateT ω (Except ε) α) P := by
  intro w a w' hx
  exact h a (run_lift hx).1

end Returns

/-! ## A trace above it -/

/-- From the trace `s`, every run that returns ends with a value and a trace that satisfy `Q`. -/
def Ends (x : StateT σ (StateT ω (Except ε)) α) (s : σ) (Q : α → σ → Prop) : Prop :=
  ∀ w a s' w', x s w = .ok ((a, s'), w') → Q a s'

namespace Ends

variable {x : StateT σ (StateT ω (Except ε)) α} {s : σ} {P Q : α → σ → Prop} {R : β → σ → Prop}

theorem mono (h : Ends x s P) (hpq : ∀ a s', P a s' → Q a s') : Ends x s Q :=
  fun w a s' w' hx => hpq a s' (h w a s' w' hx)

theorem pure {a : α} (h : Q a s) : Ends (Pure.pure a : StateT σ (StateT ω (Except ε)) α) s Q := by
  intro w b s' w' hb
  cases hb
  exact h

theorem bind {f : α → StateT σ (StateT ω (Except ε)) β} (hx : Ends x s P) (hf : ∀ a s', P a s' → Ends (f a) s' R) :
    Ends (x >>= f) s R := by
  intro w b s' w' h
  obtain ⟨⟨a, mid⟩, v, ha, hb⟩ := run_bind (x := x s) (f := fun p => f p.1 p.2) h
  exact hf a mid (hx w a mid v ha) v b s' w' hb

/-- A call out leaves the trace alone. -/
theorem lift {x : StateT ω (Except ε) α} {P : α → Prop} (hx : Returns x P) (h : ∀ a, P a → Q a s) :
    Ends (liftM x : StateT σ (StateT ω (Except ε)) α) s Q := by
  intro w a s' w' hr
  obtain ⟨b, v, hb, hp⟩ := run_bind (x := x) (f := fun a => Pure.pure (a, s)) hr
  obtain ⟨heq, -⟩ := run_pure hp
  cases heq
  exact h _ (hx w _ v hb)

theorem lift_bind {x : StateT ω (Except ε) α} {P : α → Prop} {f : α → StateT σ (StateT ω (Except ε)) β}
    (hx : Returns x P) (hf : ∀ a, P a → Ends (f a) s R) :
    Ends ((liftM x : StateT σ (StateT ω (Except ε)) α) >>= f) s R :=
  Ends.bind (Ends.lift (Q := fun a s' => P a ∧ s' = s) hx fun _ ha => ⟨ha, rfl⟩) fun a _ h => h.2 ▸ hf a h.1

/-- A check leaves the trace alone, too. -/
theorem check_bind {x : Except ε α} {f : α → StateT σ (StateT ω (Except ε)) β}
    (hf : ∀ a, x = .ok a → Ends (f a) s R) : Ends ((liftM x : StateT σ (StateT ω (Except ε)) α) >>= f) s R :=
  Ends.lift_bind (x := liftM x) (Returns.lift fun _ ha => ha) hf

theorem modify {g : σ → σ} {Q : PUnit → σ → Prop} (h : Q ⟨⟩ (g s)) :
    Ends (MonadState.modifyGet fun s => (⟨⟩, g s) : StateT σ (StateT ω (Except ε)) PUnit) s Q := by
  intro w b s' w' hb
  cases hb
  exact h

theorem modify_bind {g : σ → σ} {f : PUnit → StateT σ (StateT ω (Except ε)) β} (hf : Ends (f ⟨⟩) (g s) R) :
    Ends ((MonadState.modifyGet fun s => (⟨⟩, g s) : StateT σ (StateT ω (Except ε)) PUnit) >>= f) s R := hf

end Ends

/-- Every exception that the code raises satisfies `P`. -/
def Raises (x : StateT σ (StateT ω (Except ε)) α) (P : ε → Prop) : Prop := ∀ s w e, x s w = .error e → P e

namespace Raises

variable {P : ε → Prop}

theorem pure (a : α) : Raises (Pure.pure a : StateT σ (StateT ω (Except ε)) α) P := by
  intro s w e h
  cases h

theorem bind {x : StateT σ (StateT ω (Except ε)) α} {f : α → StateT σ (StateT ω (Except ε)) β} (hx : Raises x P)
    (hf : ∀ a, Raises (f a) P) : Raises (x >>= f) P := by
  intro s w e h
  have h : (x s w >>= fun p => f p.1.1 p.1.2 p.2) = .error e := h
  cases hxs : x s w with
  | error e' =>
    rw [hxs] at h
    obtain rfl : e' = e := Except.error.inj h
    exact hx s w e' hxs
  | ok p =>
    rw [hxs] at h
    exact hf p.1.1 p.1.2 p.2 e h

theorem check {x : Except ε α} (h : ∀ e, x = .error e → P e) : Raises (liftM x : StateT σ (StateT ω (Except ε)) α) P := by
  intro s w e hx
  cases x with
  | error e' =>
    obtain rfl : e' = e := Except.error.inj hx
    exact h e' rfl
  | ok a => cases hx

/-- What runs after a check knows what the check returned. -/
theorem check_bind {x : Except ε α} {f : α → StateT σ (StateT ω (Except ε)) β} (hx : ∀ e, x = .error e → P e)
    (hf : ∀ a, x = .ok a → Raises (f a) P) : Raises ((liftM x : StateT σ (StateT ω (Except ε)) α) >>= f) P := by
  intro s w e h
  cases x with
  | error e' =>
    obtain rfl : e' = e := Except.error.inj h
    exact hx e' rfl
  | ok a => exact hf a rfl s w e h

theorem reraised {f : ε → ε} (x : StateT ω (Except ε) α) (h : ∀ e, P (f e)) :
    Raises (liftM (reraise f x) : StateT σ (StateT ω (Except ε)) α) P := by
  intro s w e hx
  have hx : (reraise f x w >>= fun p => Except.ok ((p.1, s), p.2)) = .error e := hx
  unfold reraise at hx
  cases hxw : x w with
  | error e' =>
    rw [hxw] at hx
    obtain rfl : f e' = e := Except.error.inj hx
    exact h e'
  | ok p =>
    rw [hxw] at hx
    cases hx

theorem modify (g : σ → σ) : Raises (MonadState.modifyGet fun s => (⟨⟩, g s) : StateT σ (StateT ω (Except ε)) PUnit) P := by
  intro s w e h
  cases h

end Raises

/-! ## State that survives an exception -/

/-- Code whose state is kept when it raises. -/
abbrev Tried (σ ε : Type) := ExceptT ε (StateM σ)

namespace Tried

/-- How a run from `s` ends. -/
def outcome (x : Tried σ ε α) (s : σ) : Except ε α × σ := (StateT.run (ExceptT.run x) s : Id _)

@[simp] theorem outcome_pure (a : α) (s : σ) : outcome (pure a : Tried σ ε α) s = (.ok a, s) := rfl

@[simp] theorem outcome_lift (x : Except ε α) (s : σ) : outcome (liftM x : Tried σ ε α) s = (x, s) := rfl

theorem outcome_bind (x : Tried σ ε α) (f : α → Tried σ ε β) (s : σ) :
    outcome (x >>= f) s = match outcome x s with
      | (.ok a, s') => outcome (f a) s'
      | (.error e, s') => (.error e, s') := by
  have h : outcome (x >>= f) s = (ExceptT.bindCont f (outcome x s).1 : StateM σ (Except ε β)).run (outcome x s).2 := rfl
  rw [h]
  rcases outcome x s with ⟨e | a, s'⟩
  · rfl
  · rfl

theorem outcome_bind_ok {x : Tried σ ε α} {f : α → Tried σ ε β} {s s' : σ} {a : α} (h : outcome x s = (.ok a, s')) :
    outcome (x >>= f) s = outcome (f a) s' := by rw [outcome_bind, h]

theorem outcome_bind_error {x : Tried σ ε α} {f : α → Tried σ ε β} {s s' : σ} {e : ε} (h : outcome x s = (.error e, s')) :
    outcome (x >>= f) s = (.error e, s') := by rw [outcome_bind, h]

/-- A run that returned ran through each of its parts. -/
theorem bind_returned {x : Tried σ ε α} {f : α → Tried σ ε β} {s s' : σ} {b : β} (h : outcome (x >>= f) s = (.ok b, s')) :
    ∃ a mid, outcome x s = (.ok a, mid) ∧ outcome (f a) mid = (.ok b, s') := by
  rcases hx : outcome x s with ⟨e | a, mid⟩
  · rw [outcome_bind_error hx] at h
    cases h
  · rw [outcome_bind_ok hx] at h
    exact ⟨a, mid, rfl, h⟩

/-- Every value the code returns satisfies `P`. -/
def Gives (x : Tried σ ε α) (P : α → Prop) : Prop := ∀ s a s', outcome x s = (.ok a, s') → P a

theorem Gives.any (x : Tried σ ε α) : Gives x fun _ => True := fun _ _ _ _ => trivial

theorem Gives.pure {P : α → Prop} {a : α} (h : P a) : Gives (Pure.pure a : Tried σ ε α) P := by
  intro s b s' hb
  cases hb
  exact h

theorem Gives.lift {P : α → Prop} {x : Except ε α} (h : ∀ a, x = .ok a → P a) : Gives (liftM x : Tried σ ε α) P := by
  intro s a s' hx
  rw [outcome_lift] at hx
  cases hx
  exact h a rfl

theorem Gives.bind {P : α → Prop} {Q : β → Prop} {x : Tried σ ε α} {f : α → Tried σ ε β} (hx : Gives x P)
    (hf : ∀ a, P a → Gives (f a) Q) : Gives (x >>= f) Q := by
  intro s b s' h
  obtain ⟨a, mid, ha, hb⟩ := bind_returned h
  exact hf a (hx s a mid ha) mid b s' hb

end Tried

end ContextEngine.Python
