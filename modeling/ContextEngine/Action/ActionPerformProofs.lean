/-
  ContextEngine.Action.ActionPerformProofs — at most one send for a ticket, and one decision.

  Proved:
  (1) One step of any session keeps the invariant (`step_inv`): the committed rows are those of
      the ledger, only one transaction has written, and every session still knows what it read.
  (2) Every run of any number of sessions (`ticket_sent_and_decided_once`). A decided call is
      answered with its receipt again from the session that holds the sender's lock, and is
      refused from another one (`repeated_from_another_session`).
-/

import ContextEngine.Action.ActionSessions
import ContextEngine.Python.Hashlib

namespace ContextEngine.Action

open ContextEngine.Python ContextEngine.Postgres ContextEngine.Runtime ContextEngine.Machine

/-! ## One step -/

/-- The writes among calls. -/
def effectsOf (performed : List Performed) : List Effect := performed.filterMap (·.effect)

theorem effectsOf_append (xs ys : List Performed) : effectsOf (xs ++ ys) = effectsOf xs ++ effectsOf ys := List.filterMap_append

section Invariant

variable (server : Server) (ticket : Ticket) (attempt : DeliveryAttempt)

/-- What holds of an open transaction. -/
structure Consistent (w : World) (i : Nat) (txn : Transaction) : Prop where
  view : Reaches server ticket attempt (effectsOf w.performed ++ effectsOf txn.performed) (w.seen txn)
  /-- Who wrote is the writer, and excludes any other. -/
  writes : txn.written = none ∧ effectsOf txn.performed = [] ∨
    effectsOf txn.performed ≠ [] ∧ w.writer = some i ∧ Excludes w.locks i w.rows ∧ Holds w.locks i (w.seen txn)
  knows : Knows server ticket attempt w.locks i w.clock (w.seen txn) txn.phase
  honest : ∀ x ∈ txn.performed, Honest x
  timed : ∀ e ∈ effectsOf txn.performed, e.now ≤ w.clock

structure Inv (w : World) : Prop where
  committed : Reaches server ticket attempt (effectsOf w.performed) w.rows
  honest : ∀ x ∈ w.performed, Honest x
  timed : ∀ e ∈ effectsOf w.performed, e.now ≤ w.clock
  sessions : ∀ i txn, w.sessions i = some txn → Consistent server ticket attempt w i txn

variable {server ticket attempt} {w : World}

theorem set_sessions_self (i : Nat) (txn : Transaction) : (w.set i txn).sessions i = some txn := Function.update_self ..

theorem set_sessions_of_ne {i j : Nat} (h : j ≠ i) (txn : Transaction) : (w.set i txn).sessions j = w.sessions j :=
  Function.update_of_ne h ..

theorem close_sessions {i j : Nat} (locks : Locks) {txn : Transaction} (h : (w.close i locks).sessions j = some txn) :
    j ≠ i ∧ w.sessions j = some txn := by
  by_cases hji : j = i
  · rw [hji, show (w.close i locks).sessions i = none from Function.update_self ..] at h
    cases h
  · rw [show (w.close i locks).sessions j = w.sessions j from Function.update_of_ne hji ..] at h
    exact ⟨hji, h⟩

theorem Fresh.inv (h : w.Fresh) : Inv server ticket attempt w := by
  refine ⟨?_, ?_, ?_, ?_⟩
  · rw [h.rows, h.performed]
    exact .prepared
  · rw [h.performed]
    intro x hx
    cases hx
  · rw [h.performed]
    intro e he
    cases he
  · intro i txn hi
    rw [h.sessions i] at hi
    cases hi

/-- A transaction does not notice a step that leaves the rows and keeps its locks. -/
theorem Consistent.keep {i : Nat} {txn : Transaction} {w' : World} (h : Consistent server ticket attempt w i txn)
    (hrows : w'.rows = w.rows) (hperf : w'.performed = w.performed) (hk : Keeps i w.locks w'.locks) (hclock : w.clock ≤ w'.clock)
    (hwriter : w.writer = some i → w'.writer = some i) : Consistent server ticket attempt w' i txn := by
  have hseen : w'.seen txn = w.seen txn := by rw [World.seen, World.seen, hrows]
  refine ⟨?_, ?_, ?_, h.honest, fun e he => (h.timed e he).trans hclock⟩
  · rw [hperf, hseen]
    exact h.view
  · rcases h.writes with hw | ⟨hne, hw, hx, hheld⟩
    · exact .inl hw
    · refine .inr ⟨hne, hwriter hw, ?_, ?_⟩
      · rw [hrows]
        exact hx.keep hk
      · rw [hseen]
        exact hheld.keep hk
  · rw [hseen]
    exact h.knows.keep hk hclock

/-- One session's transaction changes; the others keep their locks. -/
theorem Inv.set {w' : World} {i : Nat} {txn : Transaction} (h : Inv server ticket attempt w)
    (hsessions : w'.sessions = Function.update w.sessions i (some txn)) (hrows : w'.rows = w.rows)
    (hperf : w'.performed = w.performed) (hclock : w'.clock = w.clock) (hk : ∀ k, k ≠ i → Keeps k w.locks w'.locks)
    (hwriter : ∀ k, k ≠ i → w.writer = some k → w'.writer = some k) (htxn : Consistent server ticket attempt w' i txn) :
    Inv server ticket attempt w' := by
  refine ⟨?_, ?_, ?_, ?_⟩
  · rw [hrows, hperf]
    exact h.committed
  · rw [hperf]
    exact h.honest
  · rw [hperf, hclock]
    exact h.timed
  · intro j other hj
    rw [hsessions] at hj
    by_cases hji : j = i
    · subst hji
      rw [Function.update_self] at hj
      cases hj
      exact htxn
    · rw [Function.update_of_ne hji] at hj
      exact (h.sessions j other hj).keep hrows hperf (hk j hji) (Nat.le_of_eq hclock.symm) (hwriter j hji)

theorem release_other {i j : Nat} {holder : Option Nat} (hne : j ≠ i) (h : holder = some j) : release i holder = some j := by
  rw [release, h, if_neg fun hj => hne (Option.some.inj hj)]

theorem keeps_endTransaction {i j : Nat} {locks : Locks} (hne : j ≠ i) : Keeps j locks (locks.endTransaction i) :=
  ⟨fun h => release_other hne h, fun _ h => release_other hne h⟩

theorem keeps_disconnect {i j : Nat} {locks : Locks} (hne : j ≠ i) : Keeps j locks (locks.disconnect i) :=
  ⟨fun h => release_other hne h, fun _ h => release_other hne h⟩

/-- A transaction ends without a commit. -/
theorem Inv.close {i : Nat} {locks : Locks} (h : Inv server ticket attempt w) (hk : ∀ j, j ≠ i → Keeps j w.locks locks) :
    Inv server ticket attempt (w.close i locks) := by
  refine ⟨h.committed, h.honest, h.timed, ?_⟩
  intro j txn hj
  obtain ⟨hji, hj⟩ := close_sessions locks hj
  exact (h.sessions j txn hj).keep rfl rfl (hk j hji) (Nat.le_refl _) fun hw => release_other hji hw

/-- Another transaction, when this one commits. -/
theorem Consistent.commit_other {i j : Nat} {txn other : Transaction} (hc : Consistent server ticket attempt w i txn)
    (ho : Consistent server ticket attempt w j other) (hji : j ≠ i) :
    Consistent server ticket attempt { w.close i (w.locks.endTransaction i) with
      rows := w.seen txn, performed := w.performed ++ txn.performed } j other := by
  have hk : Keeps j w.locks (w.locks.endTransaction i) := keeps_endTransaction hji
  rcases hc.writes with ⟨hw, he⟩ | ⟨hne, hw, hx, hheld⟩
  · -- nothing was written: the rows are what they were
    have hseen : w.seen txn = w.rows := by rw [World.seen, hw]; rfl
    refine ⟨?_, ?_, ?_, ho.honest, ho.timed⟩
    · show Reaches server ticket attempt (effectsOf (w.performed ++ txn.performed) ++ _) (other.written.getD (w.seen txn))
      rw [effectsOf_append, he, List.append_nil, hseen]
      exact ho.view
    · rcases ho.writes with ho | ⟨hne, hw, hx, hheld⟩
      · exact .inl ho
      · refine .inr ⟨hne, release_other hji hw, ?_, ?_⟩
        · show Excludes _ j (w.seen txn)
          rw [hseen]
          exact hx.keep hk
        · show Holds _ j (other.written.getD (w.seen txn))
          rw [hseen]
          exact hheld.keep hk
    · show Knows server ticket attempt _ j w.clock (other.written.getD (w.seen txn)) other.phase
      rw [hseen]
      exact ho.knows.keep hk (Nat.le_refl _)
  · -- the writer commits: no other transaction has written
    rcases ho.writes with ⟨how, hoe⟩ | ⟨-, hw', -, -⟩
    · have hseen : w.seen other = w.rows := by rw [World.seen, how]; rfl
      refine ⟨?_, .inl ⟨how, hoe⟩, ?_, ho.honest, ho.timed⟩
      · show Reaches server ticket attempt (effectsOf (w.performed ++ txn.performed) ++ _) (other.written.getD (w.seen txn))
        rw [effectsOf_append, hoe, List.append_nil, how]
        exact hc.view
      · have hknows := ho.knows
        rw [hseen] at hknows
        show Knows server ticket attempt _ j w.clock (other.written.getD (w.seen txn)) other.phase
        rw [how]
        exact (hknows.commit hx hheld hji).keep hk (Nat.le_refl _)
    · exact absurd (Option.some.inj (hw'.symm.trans hw)) hji

theorem commit_inv (h : Inv server ticket attempt w) (i : Nat) : Inv server ticket attempt (commit w i).1 := by
  unfold commit
  cases hs : w.sessions i with
  | none => exact h
  | some txn =>
    dsimp only
    cases hph : txn.phase with
    | aborted => exact h.close fun j hne => keeps_endTransaction hne
    | idle =>
      dsimp only
      have hc := h.sessions i txn hs
      refine ⟨?_, ?_, ?_, ?_⟩
      · show Reaches server ticket attempt (effectsOf (w.performed ++ txn.performed)) (w.seen txn)
        rw [effectsOf_append]
        exact hc.view
      · intro x hx
        rcases List.mem_append.mp hx with hx | hx
        · exact h.honest x hx
        · exact hc.honest x hx
      · intro e he
        rw [show effectsOf (w.performed ++ txn.performed) = _ from effectsOf_append _ _] at he
        rcases List.mem_append.mp he with he | he
        · exact h.timed e he
        · exact hc.timed e he
      · intro j other hj
        obtain ⟨hji, hj⟩ := close_sessions (w.locks.endTransaction i) hj
        exact hc.commit_other (h.sessions j other hj) hji
    | _ => exact h

theorem snoc_honest {xs : List Performed} {x : Performed} (h : ∀ y ∈ xs, Honest y) (hx : Honest x) : ∀ y ∈ xs ++ [x], Honest y := by
  intro y hy
  rcases List.mem_append.mp hy with hy | hy
  · exact h y hy
  · rw [List.mem_singleton.mp hy]
    exact hx

theorem effectsOf_returned (xs : List Performed) (result : Result) : effectsOf (xs ++ [⟨result, none⟩]) = effectsOf xs := by
  rw [effectsOf_append]
  exact List.append_nil _

theorem effectsOf_wrote (xs : List Performed) (result : Result) (e : Effect) :
    effectsOf (xs ++ [⟨result, some e⟩]) = effectsOf xs ++ [e] := effectsOf_append _ _

/-- A sound statement keeps the invariant. -/
theorem perform_inv {φ : Type} {i : Nat} {txn : Transaction} {function : FunctionCall} {wrap : φ → Phase} {statement : Statement φ}
    {locks : Locks} (h : Inv server ticket attempt w) (hs : w.sessions i = some txn) (hm : Moves w.locks locks)
    (hsound : statement.Sound server ticket attempt locks i w.clock (w.seen txn) wrap) :
    Inv server ticket attempt (perform w i txn function wrap statement locks).1 := by
  have hc := h.sessions i txn hs
  have hk : ∀ k, k ≠ i → Keeps k w.locks locks := fun k _ => hm k
  cases statement with
  | goto next =>
    refine h.set rfl rfl rfl rfl hk (fun _ _ h => h) ⟨hc.view, ?_, hsound, hc.honest, hc.timed⟩
    rcases hc.writes with hw | ⟨hne, hw, hx, hheld⟩
    · exact .inl hw
    · exact .inr ⟨hne, hw, hx.keep (hm i), hheld.keep (hm i)⟩
  | returns result =>
    refine h.set rfl rfl rfl rfl hk (fun _ _ h => h) ⟨?_, ?_, trivial, ?_, ?_⟩
    · show Reaches server ticket attempt (_ ++ effectsOf (txn.performed ++ [⟨result, none⟩])) _
      rw [effectsOf_returned]
      exact hc.view
    · show _ ∧ effectsOf (txn.performed ++ [⟨result, none⟩]) = [] ∨ effectsOf (txn.performed ++ [⟨result, none⟩]) ≠ [] ∧ _
      rw [effectsOf_returned]
      rcases hc.writes with hw | ⟨hne, hw, hx, hheld⟩
      · exact .inl hw
      · exact .inr ⟨hne, hw, hx.keep (hm i), hheld.keep (hm i)⟩
    · exact snoc_honest hc.honest ⟨fun ho => absurd ho hsound, by rintro ⟨⟩⟩
    · show ∀ e ∈ effectsOf (txn.performed ++ [⟨result, none⟩]), _
      rw [effectsOf_returned]
      exact hc.timed
  | raises =>
    refine h.set rfl rfl rfl rfl hk (fun _ _ h => h) ⟨hc.view, ?_, trivial, hc.honest, hc.timed⟩
    rcases hc.writes with hw | ⟨hne, hw, hx, hheld⟩
    · exact .inl hw
    · exact .inr ⟨hne, hw, hx.keep (hm i), hheld.keep (hm i)⟩
  | writes rows effect result =>
    obtain ⟨hx, hstep, hheld, hnow, hhonest⟩ := hsound
    unfold perform
    dsimp only
    by_cases hfree : free i w.writer
    · rw [if_pos hfree]
      refine h.set rfl rfl rfl rfl hk ?_ ⟨?_, .inr ⟨?_, rfl, ?_, hheld⟩, trivial, snoc_honest hc.honest hhonest, ?_⟩
      · intro k hne hw
        rw [hw] at hfree
        exact absurd (by simpa [free] using hfree) hne
      · show Reaches server ticket attempt (_ ++ effectsOf (txn.performed ++ [⟨result, some effect⟩])) rows
        rw [effectsOf_wrote, ← List.append_assoc]
        exact hstep _ hc.view
      · show effectsOf (txn.performed ++ [⟨result, some effect⟩]) ≠ []
        rw [effectsOf_wrote]
        exact List.append_ne_nil_of_right_ne_nil _ (List.cons_ne_nil _ _)
      · show Excludes locks i w.rows
        rcases hc.writes with ⟨hw, -⟩ | ⟨-, -, hx', -⟩
        · have hseen : w.seen txn = w.rows := by rw [World.seen, hw]; rfl
          rw [hseen] at hx
          exact hx
        · exact hx'.keep (hm i)
      · show ∀ e ∈ effectsOf (txn.performed ++ [⟨result, some effect⟩]), e.now ≤ w.clock
        rw [effectsOf_wrote]
        intro e he
        rcases List.mem_append.mp he with he | he
        · exact hc.timed e he
        · rw [List.mem_singleton.mp he]
          exact hnow
    · rw [if_neg hfree]
      exact h

theorem advance_inv (h : Inv server ticket attempt w) (i : Nat) : Inv server ticket attempt (advance server ticket attempt w i).1 := by
  unfold advance
  cases hs : w.sessions i with
  | none => exact h
  | some txn =>
    dsimp only
    by_cases hfree : free i (txn.phase.awaits w.locks)
    · rw [if_pos hfree]
      have hc := h.sessions i txn hs
      have hknows := hc.knows
      cases hph : txn.phase with
      | idle | aborted => exact h
      | begin c ph =>
        rw [hph] at hknows hfree
        have hsound := beginStatement_sound w.environment hknows ⟨_, hc.view⟩ hfree
        exact perform_inv h hs hsound.1 hsound.2
      | complete c now ph =>
        rw [hph] at hknows hfree
        have hsound := completeStatement_sound w.environment hknows ⟨_, hc.view⟩ hfree
        exact perform_inv h hs hsound.1 hsound.2
      | reconcile c now ph =>
        rw [hph] at hknows hfree
        have hsound := reconcileStatement_sound w.environment hknows hfree
        exact perform_inv h hs hsound.1 hsound.2
    · rw [if_neg hfree]
      exact h

/-- A call that its arguments refuse. -/
theorem refuse_inv {i : Nat} {txn : Transaction} (h : Inv server ticket attempt w) (hs : w.sessions i = some txn) {result : Result}
    (hr : result.outcome ≠ .senderRequired) :
    Inv server ticket attempt (w.set i ⟨.idle, txn.written, txn.performed ++ [⟨result, none⟩]⟩) := by
  have hc := h.sessions i txn hs
  refine h.set rfl rfl rfl rfl (fun k _ => .refl k _) (fun _ _ h => h) ⟨?_, ?_, trivial, ?_, ?_⟩
  · show Reaches server ticket attempt (_ ++ effectsOf (txn.performed ++ [⟨result, none⟩])) _
    rw [effectsOf_returned]
    exact hc.view
  · show _ ∧ effectsOf (txn.performed ++ [⟨result, none⟩]) = [] ∨ effectsOf (txn.performed ++ [⟨result, none⟩]) ≠ [] ∧ _
    rw [effectsOf_returned]
    exact hc.writes
  · exact snoc_honest hc.honest ⟨fun ho => absurd ho hr, by rintro ⟨⟩⟩
  · show ∀ e ∈ effectsOf (txn.performed ++ [⟨result, none⟩]), _
    rw [effectsOf_returned]
    exact hc.timed

theorem start_inv {i : Nat} {txn : Transaction} {phase : Phase} (h : Inv server ticket attempt w) (hs : w.sessions i = some txn)
    (hk : Knows server ticket attempt w.locks i w.clock (w.seen txn) phase) :
    Inv server ticket attempt (w.set i { txn with phase := phase }) := by
  have hc := h.sessions i txn hs
  exact h.set rfl rfl rfl rfl (fun k _ => .refl k _) (fun _ _ h => h) ⟨hc.view, hc.writes, hk, hc.honest, hc.timed⟩

theorem callFunction_inv (h : Inv server ticket attempt w) (i : Nat) (function : FunctionCall) :
    Inv server ticket attempt (callFunction w i function).1 := by
  unfold callFunction
  cases hs : w.sessions i with
  | none => exact h
  | some txn =>
    dsimp only
    cases hph : txn.phase with
    | idle =>
      dsimp only
      cases function with
      | begin c =>
        cases c with
        | none =>
          refine refuse_inv h hs ?_
          rintro ⟨⟩
        | some c =>
          dsimp only
          by_cases hc : c.wellFormed
          · rw [if_pos hc]
            exact start_inv h hs ⟨trivial, by rintro _ ⟨⟩⟩
          · rw [if_neg hc]
            refine refuse_inv h hs ?_
            rintro ⟨⟩
      | complete c =>
        cases c with
        | none =>
          refine refuse_inv h hs ?_
          rintro ⟨⟩
        | some c =>
          dsimp only
          by_cases hc : c.wellFormed w.clock
          · rw [if_pos hc]
            exact start_inv h hs ⟨trivial, hc, Nat.le_refl _⟩
          · rw [if_neg hc]
            refine refuse_inv h hs ?_
            rintro ⟨⟩
      | reconcile c =>
        cases c with
        | none =>
          refine refuse_inv h hs ?_
          rintro ⟨⟩
        | some c =>
          dsimp only
          by_cases hc : c.wellFormed w.clock
          · rw [if_pos hc]
            exact start_inv h hs ⟨trivial, hc, Nat.le_refl _⟩
          · rw [if_neg hc]
            refine refuse_inv h hs ?_
            rintro ⟨⟩
    | _ => exact h

theorem step_inv (w : World) (c : Call) (h : Inv server ticket attempt w) :
    Inv server ticket attempt (step server ticket attempt w c).1 := by
  cases c with
  | setEnvironment env =>
    exact ⟨h.committed, h.honest, h.timed, fun i txn hi =>
      (h.sessions i txn hi).keep rfl rfl (.refl i _) (Nat.le_refl _) id⟩
  | advanceClock micros =>
    have hle : w.clock ≤ w.clock + micros := Nat.le_add_right _ _
    exact ⟨h.committed, h.honest, fun e he => (h.timed e he).trans hle, fun i txn hi =>
      (h.sessions i txn hi).keep rfl rfl (.refl i _) hle id⟩
  | startTransaction i =>
    show Inv server ticket attempt (if (w.sessions i).isSome then w else w.set i ⟨.idle, none, []⟩)
    by_cases hs : (w.sessions i).isSome
    · rw [if_pos hs]
      exact h
    · rw [if_neg hs]
      refine h.set rfl rfl rfl rfl (fun k _ => .refl k _) (fun _ _ h => h) ⟨?_, .inl ⟨rfl, rfl⟩, trivial, ?_, ?_⟩
      · show Reaches server ticket attempt (effectsOf w.performed ++ []) w.rows
        rw [List.append_nil]
        exact h.committed
      · intro x hx
        cases hx
      · intro e he
        cases he
  | call i function => exact callFunction_inv h i function
  | advance i => exact advance_inv h i
  | commit i => exact commit_inv h i
  | rollback i => exact h.close fun j hne => keeps_endTransaction hne
  | disconnect i => exact h.close fun j hne => keeps_disconnect hne

end Invariant

/-! ## Decided calls -/

/-- Equal in what `complete` compares of a settled attempt, whatever receipt is proposed. -/
structure CompleteCall.Repeats (c c' : CompleteCall) : Prop where
  ticketRef : c.ticketRef = c'.ticketRef
  providerAttemptRef : c.providerAttemptRef = c'.providerAttemptRef
  completionCapability : c.completionCapability = c'.completionCapability

/-- Equal in what `reconcile` compares of a settled attempt, whatever receipt is proposed. -/
structure ReconcileCall.Repeats (c c' : ReconcileCall) : Prop where
  providerAttemptRef : c.providerAttemptRef = c'.providerAttemptRef
  disposition : c.disposition = c'.disposition
  decisionDigest : c.decisionDigest = c'.decisionDigest
  providerEffectDigest : c.providerEffectDigest = c'.providerEffectDigest

/-- The call asks again for what decided the attempt and applied it: it is the same call, or a
    well-formed one that repeats it. -/
def Applies (now : Timestamp) (f : FunctionCall) (e : Effect) : Prop :=
  match f, e with
  | .complete (some c), .completed c' _ => c'.senderOutcome = .applied ∧ (c = c' ∨ c.Repeats c' ∧ c.wellFormed now = true)
  | .reconcile (some c), .reconciled c' _ => c'.disposition = .applied ∧ (c = c' ∨ c.Repeats c' ∧ c.wellFormed now = true)
  | _, _ => False

section Decided

variable {server : Server} {ticket : Ticket} {attempt : DeliveryAttempt} {w : World}

theorem appliedArguments_mono {ref : Option String} {effect : Option Bytes} {appliedAt : Option Timestamp} {now now' : Timestamp}
    (h : appliedArguments ref effect appliedAt now = true) (hle : now ≤ now') : appliedArguments ref effect appliedAt now' = true := by
  simp only [appliedArguments, Bool.and_eq_true] at h ⊢
  refine ⟨h.1, ?_⟩
  cases appliedAt with
  | none => cases h.2
  | some t =>
    have ht : t ≤ now + 5 * MICROS := of_decide_eq_true h.2
    exact decide_eq_true (ht.trans (Nat.add_le_add_right hle _))

theorem complete_wellFormed_mono {c : CompleteCall} {now now' : Timestamp} (h : c.wellFormed now = true) (hle : now ≤ now') :
    c.wellFormed now' = true := by
  unfold CompleteCall.wellFormed at h ⊢
  rw [Bool.and_eq_true] at h ⊢
  refine ⟨h.1, ?_⟩
  by_cases hc : c.senderOutcome = .applied
  · rw [if_pos hc]
    exact appliedArguments_mono (by simpa only [if_pos hc] using h.2) hle
  · rw [if_neg hc]
    simpa only [if_neg hc] using h.2

theorem reconcile_wellFormed_mono {c : ReconcileCall} {now now' : Timestamp} (h : c.wellFormed now = true) (hle : now ≤ now') :
    c.wellFormed now' = true := by
  unfold ReconcileCall.wellFormed at h ⊢
  rw [Bool.and_eq_true] at h ⊢
  refine ⟨h.1, ?_⟩
  by_cases hc : c.disposition = .applied
  · rw [if_pos hc]
    exact appliedArguments_mono (by simpa only [if_pos hc] using h.2) hle
  · rw [if_neg hc]
    simpa only [if_neg hc] using h.2

def ActionState.terminal : ActionState → Bool
  | .applied => true
  | .rejected => true
  | _ => false

/-- Nothing moves a ticket that is settled. -/
theorem move_terminal {s : ActionState} (h : s.terminal = true) (e : Effect) : s.move e = none := by
  cases s with
  | applied | rejected => cases e <;> rfl
  | _ => cases h

theorem foldlM_terminal {es : List Effect} {s s' : ActionState} (h : s.terminal = true)
    (hm : es.foldlM ActionState.move s = some s') : es = [] := by
  cases es with
  | nil => rfl
  | cons e es =>
    rw [List.foldlM_cons, move_terminal h] at hm
    cases hm

/-- Once the ticket is settled, every transaction sees the committed rows. -/
theorem Inv.settled (h : Inv server ticket attempt w) (ht : w.rows.state.terminal = true) {i : Nat} {txn : Transaction}
    (hs : w.sessions i = some txn) : w.seen txn = w.rows := by
  rcases (h.sessions i txn hs).writes with hw | ⟨hne, -⟩
  · rw [World.seen, hw.1]
    rfl
  · have hpath := (h.sessions i txn hs).view.ledger.path
    rw [List.foldlM_append, h.committed.ledger.path] at hpath
    exact absurd (foldlM_terminal ht hpath) hne

theorem perform_rows {φ : Type} (i : Nat) (txn : Transaction) (f : FunctionCall) (wrap : φ → Phase) (statement : Statement φ)
    (locks : Locks) : (perform w i txn f wrap statement locks).1.rows = w.rows := by
  cases statement with
  | writes rows effect result =>
    unfold perform
    dsimp only
    by_cases hfree : free i w.writer
    · rw [if_pos hfree]
      rfl
    · rw [if_neg hfree]
  | _ => rfl

/-- Only a commit changes the rows. -/
theorem step_settled (h : Inv server ticket attempt w) (ht : w.rows.state.terminal = true) (c : Call) :
    (step server ticket attempt w c).1.rows = w.rows := by
  cases c with
  | setEnvironment | advanceClock | rollback | disconnect => rfl
  | startTransaction i =>
    show (if (w.sessions i).isSome then w else w.set i ⟨.idle, none, []⟩).rows = w.rows
    by_cases hs : (w.sessions i).isSome
    · rw [if_pos hs]
    · rw [if_neg hs]
      rfl
  | call i f =>
    show (callFunction w i f).1.rows = w.rows
    unfold callFunction
    cases w.sessions i with
    | none => rfl
    | some txn =>
      dsimp only
      cases txn.phase with
      | idle => dsimp only; split <;> first | rfl | (split <;> rfl)
      | _ => rfl
  | advance i =>
    show (advance server ticket attempt w i).1.rows = w.rows
    unfold advance
    cases w.sessions i with
    | none => rfl
    | some txn =>
      dsimp only
      by_cases hfree : free i (txn.phase.awaits w.locks)
      · rw [if_pos hfree]
        cases txn.phase with
        | idle | aborted => rfl
        | _ => exact perform_rows ..
      · rw [if_neg hfree]
  | commit i =>
    show (commit w i).1.rows = w.rows
    unfold commit
    cases hs : w.sessions i with
    | none => rfl
    | some txn =>
      dsimp only
      cases txn.phase with
      | idle => exact h.settled ht hs
      | _ => rfl

theorem after_settled (h : Inv server ticket attempt w) (ht : w.rows.state.terminal = true) (calls : List Call) :
    (after (step server ticket attempt) w calls).rows = w.rows := by
  induction calls generalizing w with
  | nil => rfl
  | cons c calls ih =>
    have hrows := step_settled h ht c
    rw [after_cons, ih (step_inv w c h) (by rw [hrows]; exact ht), hrows]

/-- What a decided call is answered with when it is made again. -/
def answer (locks : Locks) (i : Nat) (r : Receipt) : FunctionCall → Result
  | .complete _ => if locks.holdsSender i then .withReceipt .applied r else .plain .reconciliationRequired (some r.providerAttemptRef)
  | .reconcile _ => if locks.senderFree i then .withReceipt .alreadyApplied r else .plain .rejected (some r.providerAttemptRef)
  | .begin _ => .withReceipt .alreadyApplied r

/-- The one receipt is found. -/
theorem strictReceipt_single {rows : Rows} {r : Receipt} {p : ProviderAttempt} (hr : rows.receipts = [r])
    (href : r.providerAttemptRef = p.providerAttemptRef) : strictReceipt rows p = some r := by
  simp [strictReceipt, hr, href]

/-- A completion that applied the attempt, in the rows. -/
theorem Inv.completed (h : Inv server ticket attempt w) {c : CompleteCall} {now : Timestamp}
    (he : .completed c now ∈ effectsOf w.performed) (hc : c.senderOutcome = .applied) :
    ∃ p r, w.rows.provider = some p ∧ w.rows.receipts = [r] ∧ w.rows.state = .applied ∧ p.state = .applied ∧
      r.providerAttemptRef = p.providerAttemptRef ∧ p.providerAttemptRef = c.providerAttemptRef ∧ p.ticketRef = c.ticketRef ∧
      p.completionCapabilityDigest = (server.digest c.completionCapability).bytes ∧ c.wellFormed w.clock = true := by
  have hl := h.committed.ledger
  obtain ⟨p, hp, href, hticket, hcap, hwf, happ⟩ := hl.completed c now he
  have ha := happ hc
  obtain ⟨q, r, hq, hr, -, hqr⟩ := hl.receipt ha
  cases hp.symm.trans hq
  exact ⟨p, r, hp, hr, ha, (hl.bound p hp).1.trans ha, hqr, href, hticket, hcap, complete_wellFormed_mono hwf (h.timed _ he)⟩

/-- A reconciliation that applied the attempt, in the rows. -/
theorem Inv.reconciled (h : Inv server ticket attempt w) {c : ReconcileCall} {now : Timestamp}
    (he : .reconciled c now ∈ effectsOf w.performed) (hc : c.disposition = .applied) :
    ∃ p r q, w.rows.provider = some p ∧ w.rows.receipts = [r] ∧ w.rows.state = .applied ∧ w.rows.reconciliation = some q ∧
      r.providerAttemptRef = p.providerAttemptRef ∧ p.providerAttemptRef = c.providerAttemptRef ∧
      q.providerAttemptRef = c.providerAttemptRef ∧ q.state = .applied ∧ q.decisionDigest = some c.decisionDigest ∧
      p.providerEffectDigest = c.providerEffectDigest ∧ c.wellFormed w.clock = true := by
  have hl := h.committed.ledger
  obtain ⟨p, q, hp, hq, href, hqref, -, hwf, happ⟩ := hl.reconciled c now he
  obtain ⟨hqs, hqd, hpe, ha⟩ := happ hc
  obtain ⟨p', r, hp', hr, -, hpr⟩ := hl.receipt ha
  cases hp.symm.trans hp'
  exact ⟨p, r, q, hp, hr, ha, hq, hpr, href, hqref, hqs, hqd, hpe, reconcile_wellFormed_mono hwf (h.timed _ he)⟩

/-- The call that decided the attempt is still well formed. -/
theorem Inv.complete_repeats (h : Inv server ticket attempt w) {c c' : CompleteCall} {now : Timestamp}
    (he : .completed c' now ∈ effectsOf w.performed) (hf : Applies w.clock (.complete (some c)) (.completed c' now)) :
    c'.senderOutcome = .applied ∧ c.Repeats c' ∧ c.wellFormed w.clock = true := by
  obtain ⟨hc, rfl | hrepeats⟩ := hf
  · obtain ⟨_, _, _, _, _, _, _, _, _, _, hwf⟩ := h.completed he hc
    exact ⟨hc, ⟨rfl, rfl, rfl⟩, hwf⟩
  · exact ⟨hc, hrepeats⟩

theorem Inv.reconcile_repeats (h : Inv server ticket attempt w) {c c' : ReconcileCall} {now : Timestamp}
    (he : .reconciled c' now ∈ effectsOf w.performed) (hf : Applies w.clock (.reconcile (some c)) (.reconciled c' now)) :
    c'.disposition = .applied ∧ c.Repeats c' ∧ c.wellFormed w.clock = true := by
  obtain ⟨hc, rfl | hrepeats⟩ := hf
  · obtain ⟨_, _, _, _, _, _, _, _, _, _, _, _, _, hwf⟩ := h.reconciled he hc
    exact ⟨hc, ⟨rfl, rfl, rfl, rfl⟩, hwf⟩
  · exact ⟨hc, hrepeats⟩

/-- A statement returns what it returns. -/
theorem perform_returned {φ : Type} {i : Nat} {txn : Transaction} {f g : FunctionCall} {wrap : φ → Phase} {statement : Statement φ}
    {locks : Locks} {result : Result} (h : (perform w i txn f wrap statement locks).2 = .returned g result) :
    f = g ∧ (statement = .returns result ∨ ∃ rows effect, statement = .writes rows effect result) := by
  cases statement with
  | goto | raises => cases h
  | returns r =>
    cases h
    exact ⟨rfl, .inl rfl⟩
  | writes rows effect r =>
    unfold perform at h
    dsimp only at h
    by_cases hfree : free i w.writer
    · rw [if_pos hfree] at h
      cases h
      exact ⟨rfl, .inr ⟨rows, effect, rfl⟩⟩
    · rw [if_neg hfree] at h
      cases h

/-- `complete`, again. -/
theorem complete_answer (h : Inv server ticket attempt w) {i : Nat} {txn : Transaction} (hs : w.sessions i = some txn)
    {c c' : CompleteCall} {now now' : Timestamp} {ph : CompletePhase} (hph : txn.phase = .complete c now ph)
    (he : .completed c' now' ∈ effectsOf w.performed) (hc : c'.senderOutcome = .applied) (hrepeats : c.Repeats c') {result : Result}
    (hret : (completeStatement server w.environment i (w.seen txn) c now w.locks ph).1 = .returns result ∨
      ∃ rows effect, (completeStatement server w.environment i (w.seen txn) c now w.locks ph).1 = .writes rows effect result) :
    ∃ r, w.rows.receipts = [r] ∧ result = answer w.locks i r (.complete (some c)) := by
  obtain ⟨p, r, hp, hr, ha, hps, hrp, href, hticket, hcap, -⟩ := h.completed he hc
  rw [← hrepeats.providerAttemptRef] at href
  rw [← hrepeats.ticketRef] at hticket
  rw [← hrepeats.completionCapability] at hcap
  have hknows := (h.sessions i txn hs).knows
  rw [hph, h.settled (by rw [ha]; rfl) hs] at hknows
  rw [h.settled (by rw [ha]; rfl) hs] at hret
  refine ⟨r, hr, ?_⟩
  cases ph with
  | waiting => rcases hret with hret | ⟨_, _, hret⟩ <;> cases hret
  | locked =>
    -- the attempt is there
    simp only [completeStatement, hp, Option.filter_some, href, hticket, beq_self_eq_true, Bool.and_self, if_true] at hret
    rcases hret with hret | ⟨_, _, hret⟩ <;> cases hret
  | read q =>
    cases hp.symm.trans hknows.1.2.1
    simp only [completeStatement, completeRead, hcap, true_and, hps, strictReceipt_single hr hrp] at hret
    by_cases hheld : w.locks.holdsSender i
    · rw [if_pos hheld] at hret
      rcases hret with hret | ⟨_, _, hret⟩
      · cases hret
        rw [answer, if_pos hheld]
      · cases hret
    · rw [if_neg hheld] at hret
      rcases hret with hret | ⟨_, _, hret⟩
      · cases hret
        rw [answer, if_neg hheld, hrp, href]
      · cases hret

/-- `reconcile`, again. -/
theorem reconcile_answer (h : Inv server ticket attempt w) {i : Nat} {txn : Transaction} (hs : w.sessions i = some txn)
    {c c' : ReconcileCall} {now now' : Timestamp} {ph : ReconcilePhase} (hph : txn.phase = .reconcile c now ph)
    (he : .reconciled c' now' ∈ effectsOf w.performed) (hc : c'.disposition = .applied) (hrepeats : c.Repeats c') {result : Result}
    (hret : (reconcileStatement w.environment i (w.seen txn) c now w.locks ph).1 = .returns result ∨
      ∃ rows effect, (reconcileStatement w.environment i (w.seen txn) c now w.locks ph).1 = .writes rows effect result) :
    ∃ r, w.rows.receipts = [r] ∧ result = answer w.locks i r (.reconcile (some c)) := by
  obtain ⟨p, r, q, hp, hr, ha, hq, hrp, href, hqref, hqs, hqd, hpe, -⟩ := h.reconciled he hc
  rw [← hrepeats.providerAttemptRef] at href hqref
  rw [← hrepeats.disposition] at hc
  rw [← hrepeats.decisionDigest] at hqd
  rw [← hrepeats.providerEffectDigest] at hpe
  have hps : p.state = .applied := (h.committed.ledger.bound p hp).1.trans ha
  have hknows := (h.sessions i txn hs).knows
  rw [hph, h.settled (by rw [ha]; rfl) hs] at hknows
  rw [h.settled (by rw [ha]; rfl) hs] at hret
  refine ⟨r, hr, ?_⟩
  cases ph with
  | waiting => rcases hret with hret | ⟨_, _, hret⟩ <;> cases hret
  | locked => rcases hret with hret | ⟨_, _, hret⟩ <;> cases hret
  | read found =>
    cases found with
    | none =>
      -- an attempt whose lock this session holds is not settled behind its back
      have hflight := hknows.1.2 p hp href
      rw [hps] at hflight
      cases hflight
    | some p' => rcases hret with hret | ⟨_, _, hret⟩ <;> cases hret
  | found p' q' =>
    obtain ⟨⟨-, hp', -, hq'⟩, -⟩ := hknows
    cases hp.symm.trans hp'
    rw [hq, Option.filter_some, if_pos (beq_iff_eq.mpr hqref)] at hq'
    cases hq'
    by_cases hfree : w.locks.senderFree i
    · simp only [reconcileStatement, reconcileFound, if_pos hfree, hqs, hc, hqd, hpe, and_self, if_true,
        strictReceipt_single hr hrp] at hret
      rcases hret with hret | ⟨_, _, hret⟩
      · cases hret
        rw [answer, if_pos hfree]
      · cases hret
    · simp only [reconcileStatement, if_neg hfree] at hret
      rcases hret with hret | ⟨_, _, hret⟩
      · cases hret
        rw [answer, if_neg hfree, hrp, href]
      · cases hret

/-- A decided call that returns again, from whatever session. -/
theorem step_answer (h : Inv server ticket attempt w) {c : Call} {f : FunctionCall} {result : Result}
    (hreply : (step server ticket attempt w c).2 = .returned f result) {e : Effect} (he : e ∈ effectsOf w.performed)
    (hf : Applies w.clock f e) : ∃ i r, c = .advance i ∧ w.rows.receipts = [r] ∧ result = answer w.locks i r f := by
  cases c with
  | setEnvironment | advanceClock | startTransaction | rollback | disconnect => cases hreply
  | commit i =>
    simp only [step, commit] at hreply
    split at hreply
    · split at hreply <;> cases hreply
    · cases hreply
  | call i g =>
    -- the arguments were well formed once, and still are
    exfalso
    simp only [step, callFunction] at hreply
    cases hs : w.sessions i with
    | none =>
      rw [hs] at hreply
      cases hreply
    | some txn =>
      rw [hs] at hreply
      dsimp only at hreply
      cases hph : txn.phase with
      | idle =>
        rw [hph] at hreply
        cases g with
        | begin c =>
          cases c with
          | none =>
            cases hreply
            exact hf
          | some c =>
            dsimp only at hreply
            split at hreply
            · cases hreply
            · cases hreply
              exact hf
        | complete c =>
          cases c with
          | none =>
            cases hreply
            exact hf
          | some c =>
            dsimp only at hreply
            split at hreply
            · cases hreply
            · rename_i hwf
              cases hreply
              cases e with
              | completed c' now => exact hwf (h.complete_repeats he hf).2.2
              | _ => exact hf
        | reconcile c =>
          cases c with
          | none =>
            cases hreply
            exact hf
          | some c =>
            dsimp only at hreply
            split at hreply
            · cases hreply
            · rename_i hwf
              cases hreply
              cases e with
              | reconciled c' now => exact hwf (h.reconcile_repeats he hf).2.2
              | _ => exact hf
      | _ =>
        rw [hph] at hreply
        cases hreply
  | advance i =>
    simp only [step, advance] at hreply
    cases hs : w.sessions i with
    | none =>
      rw [hs] at hreply
      cases hreply
    | some txn =>
      rw [hs] at hreply
      dsimp only at hreply
      by_cases hfree : free i (txn.phase.awaits w.locks)
      · rw [if_pos hfree] at hreply
        cases hph : txn.phase with
        | idle | aborted =>
          rw [hph] at hreply
          cases hreply
        | begin c ph =>
          rw [hph] at hreply
          obtain ⟨rfl, -⟩ := perform_returned hreply
          exact absurd hf id
        | complete c now ph =>
          rw [hph] at hreply
          obtain ⟨rfl, hret⟩ := perform_returned hreply
          cases e with
          | completed c' now' =>
            obtain ⟨hc, hrepeats, -⟩ := h.complete_repeats he hf
            obtain ⟨r, hr, hres⟩ := complete_answer h hs hph he hc hrepeats hret
            exact ⟨i, r, rfl, hr, hres⟩
          | _ => exact absurd hf id
        | reconcile c now ph =>
          rw [hph] at hreply
          obtain ⟨rfl, hret⟩ := perform_returned hreply
          cases e with
          | reconciled c' now' =>
            obtain ⟨hc, hrepeats, -⟩ := h.reconcile_repeats he hf
            obtain ⟨r, hr, hres⟩ := reconcile_answer h hs hph he hc hrepeats hret
            exact ⟨i, r, rfl, hr, hres⟩
          | _ => exact absurd hf id
      · rw [if_neg hfree] at hreply
        cases hreply

end Decided

/-! ## Runs -/

def Reply.performed : Reply → List Performed
  | .committed performed => performed
  | _ => []

/-- The calls of the transactions that a run committed, in order. -/
def committedCalls (entries : List (Entry World Call Reply)) : List Performed := entries.flatMap fun e => e.reply.performed

section Runs

variable (server : Server) (ticket : Ticket) (attempt : DeliveryAttempt)

/-- The ticket's rows, and the calls that led to them. -/
structure SentAndDecidedOnce (rows : Rows) (performed : List Performed) : Prop where
  sentOnce : (performed.filter fun x => x.result.outcome == .senderRequired).length ≤ 1
  attemptState : rows.state = (rows.provider.map (·.state)).getD .prepared
  moves : (effectsOf performed).foldlM ActionState.move .prepared = some rows.state
  receipt : rows.state = .applied ↔ ∃ r, rows.receipts = [r]
  noReceipt : rows.state ≠ .applied → rows.receipts = []
  receiptBound : ∀ r ∈ rows.receipts, Receipts ticket attempt r
  reconciled : (∃ r, rows.reconciliation = some r ∧ r.state ≠ .pending) ↔ ∃ c now, .reconciled c now ∈ effectsOf performed
  decidedOnce : ((effectsOf performed).filter Effect.decides).length ≤ 1

variable {server ticket attempt} {w : World}

/-- Who is told to send made the attempt. -/
theorem sent_of_required {xs : List Performed} (h : ∀ x ∈ xs, Honest x) :
    (xs.filter fun x => x.result.outcome == .senderRequired).length = ((effectsOf xs).filter Effect.isSent).length := by
  induction xs with
  | nil => rfl
  | cons x xs ih =>
    have ih := ih fun y hy => h y (List.mem_cons_of_mem x hy)
    have hx := h x (List.mem_cons_self ..)
    unfold Honest at hx
    unfold effectsOf at ih ⊢
    cases he : x.effect with
    | none =>
      have hno : x.result.outcome ≠ .senderRequired := fun ho => by simpa [he] using hx.mp ho
      rw [List.filterMap_cons_none he, List.filter_cons_of_neg (by simpa using hno), ih]
    | some e =>
      rw [List.filterMap_cons_some he, List.filter_cons, List.filter_cons]
      by_cases hs : e.isSent = true
      · have ho : x.result.outcome = .senderRequired := hx.mpr (by simpa [he] using hs)
        simp [ho, hs, ih]
      · have ho : x.result.outcome ≠ .senderRequired := fun ho => hs (by simpa [he] using hx.mp ho)
        simp [ho, hs, ih]

theorem Inv.sentAndDecidedOnce (h : Inv server ticket attempt w) : SentAndDecidedOnce ticket attempt w.rows w.performed := by
  have hl := h.committed.ledger
  refine ⟨?_, ?_, hl.path, ⟨?_, ?_⟩, hl.noReceipt, ?_, ⟨?_, ?_⟩, hl.decidedOnce⟩
  · rw [sent_of_required h.honest]
    exact hl.sentOnce
  · cases hp : w.rows.provider with
    | none => exact (hl.unsent hp).2
    | some p => exact (hl.bound p hp).1.symm
  · intro ha
    obtain ⟨_, r, _, hr, _⟩ := hl.receipt ha
    exact ⟨r, hr⟩
  · rintro ⟨r, hr⟩
    by_contra hna
    rw [hl.noReceipt hna] at hr
    cases hr
  · intro r hmem
    by_cases ha : w.rows.state = .applied
    · obtain ⟨_, s, _, hs, hbound, _⟩ := hl.receipt ha
      rw [hs, List.mem_singleton] at hmem
      rw [hmem]
      exact hbound
    · rw [hl.noReceipt ha] at hmem
      cases hmem
  · rintro ⟨r, hr, hne⟩
    exact hl.terminal r hr hne
  · rintro ⟨c, now, hmem⟩
    obtain ⟨_, r, _, hr, _, _, hne, _⟩ := hl.reconciled c now hmem
    exact ⟨r, hr, hne⟩

theorem perform_performed {φ : Type} (i : Nat) (txn : Transaction) (f : FunctionCall) (wrap : φ → Phase) (statement : Statement φ)
    (locks : Locks) : (perform w i txn f wrap statement locks).1.performed = w.performed ++ (perform w i txn f wrap statement locks).2.performed := by
  cases statement with
  | writes rows effect result =>
    unfold perform
    dsimp only
    by_cases hfree : free i w.writer
    · rw [if_pos hfree]
      exact (List.append_nil _).symm
    · rw [if_neg hfree]
      exact (List.append_nil _).symm
  | _ => exact (List.append_nil _).symm

/-- A step adds to the committed calls what it commits. -/
theorem step_performed (server : Server) (ticket : Ticket) (attempt : DeliveryAttempt) (w : World) (c : Call) :
    (step server ticket attempt w c).1.performed = w.performed ++ (step server ticket attempt w c).2.performed := by
  cases c with
  | setEnvironment | advanceClock | rollback | disconnect => exact (List.append_nil _).symm
  | startTransaction i =>
    show (if (w.sessions i).isSome then w else w.set i ⟨.idle, none, []⟩).performed = w.performed ++ []
    rw [List.append_nil]
    by_cases hs : (w.sessions i).isSome
    · rw [if_pos hs]
    · rw [if_neg hs]
      rfl
  | call i f =>
    show (callFunction w i f).1.performed = w.performed ++ (callFunction w i f).2.performed
    unfold callFunction
    cases w.sessions i with
    | none => exact (List.append_nil _).symm
    | some txn =>
      dsimp only
      cases txn.phase with
      | idle => dsimp only; split <;> first | exact (List.append_nil _).symm | (split <;> exact (List.append_nil _).symm)
      | _ => exact (List.append_nil _).symm
  | advance i =>
    show (advance server ticket attempt w i).1.performed = w.performed ++ (advance server ticket attempt w i).2.performed
    unfold advance
    cases w.sessions i with
    | none => exact (List.append_nil _).symm
    | some txn =>
      dsimp only
      by_cases hfree : free i (txn.phase.awaits w.locks)
      · rw [if_pos hfree]
        cases txn.phase with
        | idle | aborted => exact (List.append_nil _).symm
        | _ => exact perform_performed ..
      · rw [if_neg hfree]
        exact (List.append_nil _).symm
  | commit i =>
    show (commit w i).1.performed = w.performed ++ (commit w i).2.performed
    unfold commit
    cases w.sessions i with
    | none => exact (List.append_nil _).symm
    | some txn =>
      dsimp only
      cases txn.phase with
      | idle => rfl
      | _ => exact (List.append_nil _).symm

/-- A call that decided the attempt, asked for again, is answered with the receipt that there is
    if its session may be answered, and refused otherwise. -/
def AnsweredAgain (e : Entry World Call Reply) : Prop :=
  ∀ f result effect, e.reply = .returned f result → effect ∈ effectsOf e.before.performed → Applies e.before.clock f effect →
    ∃ i r, e.call = .advance i ∧ e.before.rows.receipts = [r] ∧ result = answer e.before.locks i r f

/-- Whatever the order in which the sessions begin, complete, reconcile, commit, roll back and die. -/
theorem ticket_sent_and_decided_once (server : Server) (ticket : Ticket) (attempt : DeliveryAttempt) (w : World) (hw : w.Fresh)
    (calls : List Call) :
    SentAndDecidedOnce ticket attempt (after (step server ticket attempt) w calls).rows
        (committedCalls (history (step server ticket attempt) w calls)) ∧
      (∀ more, (after (step server ticket attempt) w calls).rows.state.terminal = true →
        (after (step server ticket attempt) w (calls ++ more)).rows = (after (step server ticket attempt) w calls).rows) ∧
      ∀ e ∈ history (step server ticket attempt) w calls, AnsweredAgain e := by
  have hfresh : Inv server ticket attempt w := Fresh.inv hw
  have hinv := after_inv (Inv server ticket attempt) step_inv hfresh calls
  have hperf : (after (step server ticket attempt) w calls).performed =
      committedCalls (history (step server ticket attempt) w calls) := by
    have hlog := after_log (·.performed) Reply.performed (step_performed server ticket attempt) w calls
    rwa [hw.performed, List.nil_append] at hlog
  refine ⟨hperf ▸ hinv.sentAndDecidedOnce, ?_, ?_⟩
  · intro more ht
    rw [after_append]
    exact after_settled hinv ht more
  · refine history_inv _ step_inv ?_ hfresh calls
    intro s c h f result effect hreply he hf
    exact step_answer h hreply he hf

end Runs

/-- A call that decided the attempt, asked for again, is answered with the receipt, whoever asks. -/
def ReturnsReceiptAgain (e : Entry World Call Reply) : Prop :=
  ∀ f result effect, e.reply = .returned f result → effect ∈ effectsOf e.before.performed → Applies e.before.clock f effect →
    ∃ r, e.before.rows.receipts = [r] ∧ result.receipt = some r

namespace ActionInstance

def zeros : Bytes := List.replicate 32 0

/-- The digests are compared only with what they are themselves. -/
def postgres : Server :=
  ⟨fun _ => castOf none, fun _ => none, fun _ => none, fun _ => none, sha256, fun _ => "", fun _ => ""⟩

def ref (pre : List Char) : String := String.ofList (pre ++ List.replicate 32 '0')

def ticket : Ticket :=
  { ticketRef := ref ['a', 'c', 't', '_']
    deliveryAttemptRef := ref ['d', 'l', 'a', '_']
    operation := "finalize_reply"
    ticketAudience := "audience"
    payloadDigest := zeros
    idempotencyDigest := zeros
    approvalDigest := zeros
    source := none
    policyEpoch := 1
    signingKeyVersion := 1
    profileRef := PROFILE
    issuedAt := 0
    expiresAt := 1000000 }

def delivery : DeliveryAttempt := ⟨zeros, zeros, .ofNat 1, .ofNat 2, 1, (sha256 (encode "C1")).bytes, zeros, zeros, zeros⟩

def environment : Environment :=
  { policyEpoch := some 1
    memberships := [⟨.ofNat 2, .ofNat 1, 1, true, 0, none⟩]
    sources := []
    evidence := fun _ => some ⟨"C1", zeros, 1000000⟩
    attemptRefs := fun _ => false
    receiptRefs := fun _ => false }

def beginCall : BeginCall :=
  { user := .action
    ticketRef := ticket.ticketRef
    deliveryAttemptRef := ticket.deliveryAttemptRef
    operation := ticket.operation
    ticketAudience := ticket.ticketAudience
    payloadDigest := zeros
    idempotencyDigest := zeros
    approvalDigest := zeros
    policyEpoch := 1
    signingKeyVersion := 1
    profileRef := PROFILE
    serviceDigest := zeros
    destinationDigest := delivery.destinationDigest
    audienceDigest := zeros
    identityDigest := zeros
    purposeDigest := zeros
    sourceContextDigest := none
    issuedAt := 0
    expiresAt := 1000000
    ticketBearerDigest := zeros
    proposedProviderAttemptRef := ref ['p', 'a', 't', '_']
    retentionSeconds := 60
    completionCapabilityDigest := (sha256 zeros).bytes }

def completeCall : CompleteCall :=
  ⟨.action, ticket.ticketRef, ref ['p', 'a', 't', '_'], .applied, some zeros, some 0, some (ref ['a', 'c', 'r', '_']),
    RETENTION_POLICY, 60, zeros⟩

def start : World :=
  ⟨0, environment, ⟨.prepared, none, none, [], none⟩, fun _ => none, ⟨none, fun _ => none, none, none⟩, none, []⟩

/-- The sender applies its effect, and its connection is lost. -/
def applied : List Call :=
  [.startTransaction 0, .call 0 (.begin (some beginCall)), .advance 0, .advance 0, .advance 0, .advance 0, .advance 0, .advance 0,
    .advance 0, .advance 0, .commit 0, .startTransaction 0, .call 0 (.complete (some completeCall)), .advance 0, .advance 0,
    .advance 0, .commit 0, .disconnect 0]

/-- Another session makes the same call. -/
def again : List Call :=
  [.startTransaction 1, .call 1 (.complete (some completeCall)), .advance 1, .advance 1]

def done : World := after (step postgres ticket delivery) start (applied ++ again)

theorem start_fresh : start.Fresh := ⟨rfl, fun _ => rfl, rfl, fun _ => rfl, ⟨rfl, rfl⟩, rfl, rfl⟩

def Reply.isRefusal : Reply → Bool
  | .returned f result => decide (f = .complete (some completeCall) ∧ result.receipt = none)
  | _ => false

/-- A refusal brings no receipt. -/
theorem refused_not_again {w : World} {c : Call} {reply : Reply} {now : Timestamp}
    (he : .completed completeCall now ∈ effectsOf w.performed) (hc : completeCall.senderOutcome = .applied)
    (hr : Reply.isRefusal reply = true) : ¬ ReturnsReceiptAgain ⟨w, c, reply⟩ := by
  intro h
  cases reply with
  | nothing | committed => cases hr
  | returned f result =>
    obtain ⟨hf, hnone⟩ := of_decide_eq_true hr
    obtain ⟨r, -, hsome⟩ := h f result (.completed completeCall now) rfl he (by rw [hf]; exact ⟨hc, .inl rfl⟩)
    rw [hnone] at hsome
    cases hsome

theorem done_applied : .completed completeCall 0 ∈ effectsOf done.performed := by decide +kernel

theorem done_refuses : Reply.isRefusal (step postgres ticket delivery done (.advance 1)).2 = true := by decide +kernel

/-- The session that repeats the call does not hold the sender's lock. -/
theorem repeated_from_another_session :
    start.Fresh ∧ ¬ ∀ e ∈ history (step postgres ticket delivery) start (applied ++ again ++ [.advance 1]), ReturnsReceiptAgain e := by
  refine ⟨start_fresh, ?_⟩
  intro h
  have hlast : ReturnsReceiptAgain ⟨done, .advance 1, (step postgres ticket delivery done (.advance 1)).2⟩ := by
    refine h _ ?_
    rw [history_append]
    exact List.mem_append_right _ (List.mem_singleton.mpr rfl)
  exact refused_not_again done_applied rfl done_refuses hlast

theorem applied_once :
    start.Fresh ∧ SentAndDecidedOnce ticket delivery (after (step postgres ticket delivery) start (applied ++ again)).rows
      (committedCalls (history (step postgres ticket delivery) start (applied ++ again))) :=
  ⟨start_fresh, (ticket_sent_and_decided_once postgres ticket delivery start start_fresh (applied ++ again)).1⟩

end ActionInstance

end ContextEngine.Action
