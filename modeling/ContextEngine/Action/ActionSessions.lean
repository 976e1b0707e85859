/-
  ContextEngine.Action.ActionSessions — what a session knows in the middle of a function.

  Proved:
  (1) Who may write next holds the lock that any other writer would need (`Excludes.unique`),
      so what a session has read survives the commits of others (`Knows.commit`).
  (2) Each statement of the three functions keeps what its session knows, takes a lock only
      where it was free, and writes only the next write of the ledger (`beginStatement_sound`,
      `completeStatement_sound`, `reconcileStatement_sound`).
-/

import ContextEngine.Action.ActionLedger

namespace ContextEngine.Action

open ContextEngine.Python ContextEngine.Postgres ContextEngine.Runtime

/-! ## What a session knows -/

/-- The session holds the lock that the next writer of these rows needs. -/
def Excludes (locks : Locks) (i : Nat) (rows : Rows) : Prop :=
  match rows.provider with
  | none => locks.perform = some i
  | some p => locks.attempts p.providerAttemptRef = some i

theorem Excludes.of_none {locks : Locks} {i : Nat} {rows : Rows} (hp : rows.provider = none) :
    Excludes locks i rows ↔ locks.perform = some i := by
  rw [Excludes, hp]

theorem Excludes.of_some {locks : Locks} {i : Nat} {rows : Rows} {p : ProviderAttempt} (hp : rows.provider = some p) :
    Excludes locks i rows ↔ locks.attempts p.providerAttemptRef = some i := by
  rw [Excludes, hp]

/-- Two sessions do not both hold it. -/
theorem Excludes.unique {locks : Locks} {i j : Nat} {rows : Rows} (hi : Excludes locks i rows) (hj : Excludes locks j rows) :
    i = j := by
  unfold Excludes at hi hj
  cases hp : rows.provider with
  | none =>
    rw [hp] at hi hj
    exact Option.some.inj (hi.symm.trans hj)
  | some p =>
    rw [hp] at hi hj
    exact Option.some.inj (hi.symm.trans hj)

/-- What the session holds, it still holds. -/
structure Keeps (i : Nat) (locks locks' : Locks) : Prop where
  perform : locks.perform = some i → locks'.perform = some i
  attempts : ∀ ref, locks.attempts ref = some i → locks'.attempts ref = some i

theorem Keeps.refl (i : Nat) (locks : Locks) : Keeps i locks locks := ⟨id, fun _ => id⟩

theorem Excludes.keep {locks locks' : Locks} {i : Nat} {rows : Rows} (h : Excludes locks i rows) (hk : Keeps i locks locks') :
    Excludes locks' i rows := by
  unfold Excludes at h ⊢
  cases hp : rows.provider with
  | none =>
    rw [hp] at h
    exact hk.perform h
  | some p =>
    rw [hp] at h
    exact hk.attempts _ h

section Sessions

variable (server : Server) (ticket : Ticket) (attempt : DeliveryAttempt)

/-- What `begin` knows: it has the ticket's lock and, once the ticket is found prepared, nobody
    makes an attempt before it does. -/
def BeginKnows (locks : Locks) (i : Nat) (seen : Rows) (c : BeginCall) : BeginPhase → Prop
  | .waiting => True
  | .locked => locks.perform = some i
  | .replay _ => locks.perform = some i
  | .read _ state => locks.perform = some i ∧ Named server ticket attempt c ∧ (state = .prepared → seen.provider = none)
  | _ => locks.perform = some i ∧ Named server ticket attempt c ∧ seen.provider = none

def CompleteKnows (locks : Locks) (i : Nat) (seen : Rows) (c : CompleteCall) : CompletePhase → Prop
  | .waiting => True
  | .locked => locks.attempts c.providerAttemptRef = some i
  | .read p => locks.attempts c.providerAttemptRef = some i ∧ seen.provider = some p ∧
    p.providerAttemptRef = c.providerAttemptRef ∧ p.ticketRef = c.ticketRef

def ReconcileKnows (locks : Locks) (i : Nat) (seen : Rows) (c : ReconcileCall) : ReconcilePhase → Prop
  | .waiting => True
  | .locked => locks.attempts c.providerAttemptRef = some i
  | .read none => locks.attempts c.providerAttemptRef = some i ∧
    ∀ p, seen.provider = some p → p.providerAttemptRef = c.providerAttemptRef → p.state = .inFlight
  | .read (some p) => locks.attempts c.providerAttemptRef = some i ∧ seen.provider = some p ∧
    p.providerAttemptRef = c.providerAttemptRef
  | .found p r => locks.attempts c.providerAttemptRef = some i ∧ seen.provider = some p ∧
    p.providerAttemptRef = c.providerAttemptRef ∧ r = seen.reconciliation.filter fun r => r.providerAttemptRef == c.providerAttemptRef

/-- A clock reading of the past, on which the arguments are well formed. -/
def Timed (wellFormed : Timestamp → Bool) (now clock : Timestamp) : Prop := wellFormed now = true ∧ now ≤ clock

def BeginPhase.now? : BeginPhase → Option Timestamp
  | .read now _ => some now
  | .prepared now => some now
  | .epochRead now _ => some now
  | .authorized now => some now
  | .evidenced now _ => some now
  | .holding now _ => some now
  | _ => none

def Knows (locks : Locks) (i : Nat) (clock : Timestamp) (seen : Rows) : Phase → Prop
  | .idle => True
  | .aborted => True
  | .begin c phase => BeginKnows server ticket attempt locks i seen c phase ∧ ∀ now, phase.now? = some now → now ≤ clock
  | .complete c now phase => CompleteKnows locks i seen c phase ∧ Timed c.wellFormed now clock
  | .reconcile c now phase => ReconcileKnows locks i seen c phase ∧ Timed c.wellFormed now clock

variable {server ticket attempt} {locks locks' : Locks} {i j : Nat} {clock clock' : Timestamp} {seen : Rows} {phase : Phase}

theorem BeginKnows.keep {c : BeginCall} {ph : BeginPhase} (h : BeginKnows server ticket attempt locks i seen c ph)
    (hk : Keeps i locks locks') : BeginKnows server ticket attempt locks' i seen c ph := by
  cases ph with
  | waiting => trivial
  | locked | replay => exact hk.perform h
  | _ => exact ⟨hk.perform h.1, h.2⟩

theorem CompleteKnows.keep {c : CompleteCall} {ph : CompletePhase} (h : CompleteKnows locks i seen c ph)
    (hk : Keeps i locks locks') : CompleteKnows locks' i seen c ph := by
  cases ph with
  | waiting => trivial
  | locked => exact hk.attempts _ h
  | read p => exact ⟨hk.attempts _ h.1, h.2⟩

theorem ReconcileKnows.keep {c : ReconcileCall} {ph : ReconcilePhase} (h : ReconcileKnows locks i seen c ph)
    (hk : Keeps i locks locks') : ReconcileKnows locks' i seen c ph := by
  cases ph with
  | waiting => trivial
  | locked => exact hk.attempts _ h
  | read p =>
    cases p with
    | none => exact ⟨hk.attempts _ h.1, h.2⟩
    | some p => exact ⟨hk.attempts _ h.1, h.2⟩
  | found p r => exact ⟨hk.attempts _ h.1, h.2⟩

/-- Who moved the attempt on has its lock. -/
def Holds (locks : Locks) (i : Nat) (rows : Rows) : Prop :=
  ∀ p, rows.provider = some p → p.state ≠ .inFlight → locks.attempts p.providerAttemptRef = some i

theorem Holds.keep {rows : Rows} (h : Holds locks i rows) (hk : Keeps i locks locks') : Holds locks' i rows :=
  fun p hp hs => hk.attempts _ (h p hp hs)

theorem Knows.keep (h : Knows server ticket attempt locks i clock seen phase) (hk : Keeps i locks locks') (hc : clock ≤ clock') :
    Knows server ticket attempt locks' i clock' seen phase := by
  cases phase with
  | idle | aborted => trivial
  | begin c ph => exact ⟨h.1.keep hk, fun now hn => (h.2 now hn).trans hc⟩
  | complete c now ph => exact ⟨h.1.keep hk, h.2.1, h.2.2.trans hc⟩
  | reconcile c now ph => exact ⟨h.1.keep hk, h.2.1, h.2.2.trans hc⟩

/-- What another session commits does not touch what this one knows: the lock that the other
    one needed is not the one that this one holds. -/
theorem Knows.commit {rows' : Rows} (h : Knows server ticket attempt locks i clock seen phase) (hj : Excludes locks j seen)
    (hheld : Holds locks j rows') (hne : i ≠ j) : Knows server ticket attempt locks i clock rows' phase := by
  have hnone : locks.perform = some i → seen.provider ≠ none := by
    intro hp hno
    exact hne (Option.some.inj (hp.symm.trans ((Excludes.of_none hno).mp hj)))
  have hsome : ∀ p, seen.provider = some p → locks.attempts p.providerAttemptRef ≠ some i := by
    intro p hp ha
    exact hne (Option.some.inj (ha.symm.trans ((Excludes.of_some hp).mp hj)))
  cases phase with
  | idle | aborted => trivial
  | begin c ph =>
    refine ⟨?_, h.2⟩
    cases ph with
    | waiting => trivial
    | locked | replay => exact h.1
    | read now state => exact ⟨h.1.1, h.1.2.1, fun hs => absurd (h.1.2.2 hs) (hnone h.1.1)⟩
    | _ => exact absurd h.1.2.2 (hnone h.1.1)
  | complete c now ph =>
    refine ⟨?_, h.2⟩
    cases ph with
    | waiting => trivial
    | locked => exact h.1
    | read p =>
      obtain ⟨hl, hp, href, -⟩ := h.1
      exact absurd (by rw [href]; exact hl) (hsome p hp)
  | reconcile c now ph =>
    refine ⟨?_, h.2⟩
    cases ph with
    | waiting => trivial
    | locked => exact h.1
    | read p =>
      cases p with
      | none =>
        refine ⟨h.1.1, ?_⟩
        intro q hq href
        by_contra hs
        have hj := hheld q hq hs
        rw [href, h.1.1] at hj
        exact hne (Option.some.inj hj)
      | some p =>
        obtain ⟨hl, hp, href⟩ := h.1
        exact absurd (by rw [href]; exact hl) (hsome p hp)
    | found p r =>
      obtain ⟨hl, hp, href, -⟩ := h.1
      exact absurd (by rw [href]; exact hl) (hsome p hp)

end Sessions

/-! ## One statement -/

/-- Only the call that makes the attempt is told to send. -/
def Honest (x : Performed) : Prop := x.result.outcome = .senderRequired ↔ x.effect.any Effect.isSent = true

section Statements

variable (server : Server) (ticket : Ticket) (attempt : DeliveryAttempt)

/-- What a statement may do, in a session that sees these rows. -/
def Statement.Sound {φ : Type} (locks : Locks) (i : Nat) (clock : Timestamp) (seen : Rows) (wrap : φ → Phase) : Statement φ → Prop
  | .goto next => Knows server ticket attempt locks i clock seen (wrap next)
  | .returns result => result.outcome ≠ .senderRequired
  | .writes rows effect result =>
    Excludes locks i seen ∧ (∀ es, Reaches server ticket attempt es seen → Reaches server ticket attempt (es ++ [effect]) rows) ∧
      Holds locks i rows ∧ effect.now ≤ clock ∧ Honest ⟨result, some effect⟩
  | .raises => True

/-- Locks change hands only where they were free. -/
def Moves (locks locks' : Locks) : Prop := ∀ k, Keeps k locks locks'

variable {server ticket attempt} (env : Environment) {locks : Locks} {i : Nat} {clock : Timestamp} {seen : Rows}

theorem moves_perform (h : free i locks.perform = true) : Moves locks { locks with perform := some i } := by
  intro k
  refine ⟨?_, fun _ => id⟩
  intro hk
  rw [hk] at h
  have : k = i := by simpa [free] using h
  rw [this]

theorem moves_attempt {ref : String} (h : free i (locks.attempts ref) = true) :
    Moves locks { locks with attempts := Function.update locks.attempts ref (some i) } := by
  intro k
  refine ⟨id, ?_⟩
  intro r hk
  by_cases hr : r = ref
  · rw [hr] at hk ⊢
    rw [hk] at h
    have : k = i := by simpa [free] using h
    rw [this]
    exact Function.update_self ..
  · exact (Function.update_of_ne hr ..).trans hk

theorem moves_sender {locks' : Locks} (hp : locks'.perform = locks.perform) (ha : locks'.attempts = locks.attempts) :
    Moves locks locks' := by
  intro k
  refine ⟨?_, ?_⟩
  · rw [hp]
    exact id
  · intro ref
    rw [ha]
    exact id

theorem Moves.refl (locks : Locks) : Moves locks locks := fun k => .refl k locks

/-- After the ticket was read in some state, and the attempt. -/
theorem replayed_sound {c : BeginCall} {now : Timestamp} {state : ActionState}
    (h : Knows server ticket attempt locks i clock seen (.begin c (.read now state))) :
    Statement.Sound server ticket attempt locks i clock seen (.begin c) (replayed seen state now) := by
  obtain ⟨⟨hl, hn, hs⟩, hnow⟩ := h
  replace hnow : now ≤ clock := hnow now rfl
  unfold replayed
  cases hp : seen.provider with
  | none =>
    cases state with
    | prepared => exact ⟨⟨hl, hn, hp⟩, fun n hn => by cases hn; exact ‹now ≤ clock›⟩
    | _ => exact fun h => by cases h
  | some p =>
    cases state with
    | applied => exact ⟨hl, by rintro _ ⟨⟩⟩
    | _ => exact fun h => by cases h

theorem beginStatement_sound {c : BeginCall} {ph : BeginPhase}
    (h : Knows server ticket attempt locks i clock seen (.begin c ph)) (hes : ∃ es, Reaches server ticket attempt es seen)
    (hfree : free i ((Phase.begin c ph).awaits locks) = true) :
    Moves locks (beginStatement server ticket attempt clock env i seen c locks ph).2 ∧
      Statement.Sound server ticket attempt (beginStatement server ticket attempt clock env i seen c locks ph).2 i clock seen
        (.begin c) (beginStatement server ticket attempt clock env i seen c locks ph).1 := by
  -- a refusal says nothing about the ticket
  have hrefuse : Statement.Sound server ticket attempt locks i clock seen (Phase.begin c) (.returns (.plain .rejected none)) :=
    fun h => by cases h
  cases ph with
  | waiting => exact ⟨moves_perform hfree, rfl, by rintro _ ⟨⟩⟩
  | locked =>
    unfold beginStatement
    dsimp only
    by_cases hc : c.ticketRef = ticket.ticketRef ∧ c.names server ticket attempt seen.ticketBearerDigest
    · rw [if_pos hc]
      refine ⟨.refl locks, ⟨h.1, ⟨hc.1, _, hc.2⟩, ?_⟩, fun n hn => by cases hn; exact Nat.le_refl _⟩
      intro hs
      -- a prepared ticket has no attempt
      obtain ⟨es, hes⟩ := hes
      cases hp : seen.provider with
      | none => rfl
      | some p => exact absurd hs (hes.ledger.bound p hp).2.1
    · rw [if_neg hc]
      exact ⟨.refl locks, hrefuse⟩
  | read now state => exact ⟨.refl locks, replayed_sound h⟩
  | replay p =>
    unfold beginStatement
    dsimp only
    cases strictReceipt seen p with
    | none => exact ⟨.refl locks, trivial⟩
    | some r => exact ⟨.refl locks, fun h => by cases h⟩
  | prepared now =>
    unfold beginStatement
    dsimp only
    by_cases hx : ticket.expiresAt ≤ now
    · rw [if_pos hx]
      exact ⟨.refl locks, hrefuse⟩
    · rw [if_neg hx]
      exact ⟨.refl locks, h.1, fun n hn => h.2 n hn⟩
  | epochRead now current =>
    unfold beginStatement
    dsimp only
    by_cases hx : current = some c.policyEpoch ∧ env.authorizes ticket attempt now
    · rw [if_pos hx]
      exact ⟨.refl locks, h.1, fun n hn => h.2 n hn⟩
    · rw [if_neg hx]
      exact ⟨.refl locks, hrefuse⟩
  | authorized now =>
    unfold beginStatement
    dsimp only
    cases env.evidence attempt.deliveryEvidenceDigest with
    | none => exact ⟨.refl locks, hrefuse⟩
    | some e =>
      dsimp only
      by_cases hx : e.covers server c now
      · rw [if_pos hx]
        exact ⟨.refl locks, h.1, fun n hn => h.2 n hn⟩
      · rw [if_neg hx]
        exact ⟨.refl locks, hrefuse⟩
  | evidenced now destination =>
    unfold beginStatement
    dsimp only
    by_cases hx : locks.senderFree i
    · rw [if_pos hx]
      exact ⟨moves_sender rfl rfl, h.1, fun n hn => h.2 n hn⟩
    · rw [if_neg hx]
      exact ⟨.refl locks, hrefuse⟩
  | holding now destination =>
    obtain ⟨⟨hl, hn, hp⟩, hnow⟩ := h
    unfold beginStatement
    dsimp only
    by_cases hx : seen.provider.isSome || env.attemptRefs c.proposedProviderAttemptRef
    · rw [if_pos hx]
      exact ⟨moves_sender rfl rfl, fun h => by cases h⟩
    · rw [if_neg hx]
      refine ⟨.refl locks, (Excludes.of_none hp).mpr hl, fun es hes => .sent hes hp hn, ?_, hnow now rfl, ?_⟩
      · rintro q ⟨⟩ hq
        exact absurd rfl hq
      · exact ⟨fun _ => rfl, fun _ => rfl⟩

theorem complete_ref {rows : Rows} {c : CompleteCall} {now : Timestamp} {p q : ProviderAttempt}
    (h : (rows.complete c p now).provider = some q) : q.providerAttemptRef = p.providerAttemptRef := by
  unfold Rows.complete at h
  cases hc : c.senderOutcome <;> rw [hc] at h <;> cases h <;> rfl

theorem reconcile_ref {rows : Rows} {c : ReconcileCall} {now : Timestamp} {p q : ProviderAttempt}
    (h : (rows.reconcile c p now).provider = some q) : q.providerAttemptRef = p.providerAttemptRef := by
  unfold Rows.reconcile at h
  cases hc : c.disposition <;> rw [hc] at h <;> cases h <;> rfl

theorem completeRead_sound {c : CompleteCall} {now : Timestamp} {p : ProviderAttempt}
    (h : Knows server ticket attempt locks i clock seen (.complete c now (.read p))) (hes : ∃ es, Reaches server ticket attempt es seen) :
    Statement.Sound server ticket attempt locks i clock seen (.complete c now) (completeRead server env i seen c now locks p) := by
  obtain ⟨⟨hl, hp, href, hticket⟩, hwf, hnow⟩ := h
  have hx : Excludes locks i seen := by
    rw [Excludes.of_some hp, href]
    exact hl
  obtain ⟨es, hes⟩ := hes
  have hnp : p.state ≠ .prepared := by
    rw [(hes.ledger.bound p hp).1]
    exact (hes.ledger.bound p hp).2.1
  unfold completeRead
  by_cases hcap : p.completionCapabilityDigest = (server.digest c.completionCapability).bytes ∧ locks.holdsSender i
  · rw [if_pos hcap]
    have hwrite : p.state = .inFlight → ∀ es, Reaches server ticket attempt es seen →
        Reaches server ticket attempt (es ++ [.completed c now]) (seen.complete c p now) :=
      fun hs es hes => .completed hes hp hs href hticket hcap.1 hwf
    have hheld : Holds locks i (seen.complete c p now) := by
      intro q hq _
      rw [complete_ref hq, href]
      exact hl
    cases hs : p.state with
    | prepared => exact absurd hs hnp
    | applied =>
      dsimp only
      cases strictReceipt seen p with
      | none => trivial
      | some r => exact fun h => by cases h
    | ambiguous | rejected => exact fun h => by cases h
    | inFlight =>
      dsimp only
      cases c.senderOutcome with
      | applied =>
        dsimp only
        by_cases hf : receiptFits env seen (c.receipt p now)
        · rw [if_pos hf]
          exact ⟨hx, hwrite hs, hheld, hnow, by rintro ⟨⟩, by rintro ⟨⟩⟩
        · rw [if_neg hf]
          trivial
      | rejected => exact ⟨hx, hwrite hs, hheld, hnow, by rintro ⟨⟩, by rintro ⟨⟩⟩
      | ambiguous =>
        dsimp only
        by_cases hr : seen.reconciliation.isSome
        · rw [if_pos hr]
          trivial
        · rw [if_neg hr]
          exact ⟨hx, hwrite hs, hheld, hnow, by rintro ⟨⟩, by rintro ⟨⟩⟩
  · rw [if_neg hcap]
    exact fun h => by cases h

theorem completeStatement_sound {c : CompleteCall} {now : Timestamp} {ph : CompletePhase}
    (h : Knows server ticket attempt locks i clock seen (.complete c now ph)) (hes : ∃ es, Reaches server ticket attempt es seen)
    (hfree : free i ((Phase.complete c now ph).awaits locks) = true) :
    Moves locks (completeStatement server env i seen c now locks ph).2 ∧
      Statement.Sound server ticket attempt (completeStatement server env i seen c now locks ph).2 i clock seen (.complete c now)
        (completeStatement server env i seen c now locks ph).1 := by
  cases ph with
  | waiting => exact ⟨moves_attempt hfree, Function.update_self .., h.2⟩
  | locked =>
    unfold completeStatement
    dsimp only
    cases hf : seen.provider.filter fun p => p.providerAttemptRef == c.providerAttemptRef && p.ticketRef == c.ticketRef with
    | none => exact ⟨.refl locks, fun h => by cases h⟩
    | some p =>
      obtain ⟨hp, hm⟩ := Option.filter_eq_some_iff.mp hf
      rw [Bool.and_eq_true, beq_iff_eq, beq_iff_eq] at hm
      exact ⟨.refl locks, ⟨h.1, hp, hm.1, hm.2⟩, h.2⟩
  | read p => exact ⟨.refl locks, completeRead_sound env h hes⟩

theorem reconcileDecide_sound {c : ReconcileCall} {now : Timestamp} {p : ProviderAttempt} {locks' : Locks} (hx : Excludes locks' i seen)
    (hp : seen.provider = some p) (href : p.providerAttemptRef = c.providerAttemptRef) (ht : Timed c.wellFormed now clock) :
    Statement.Sound server ticket attempt locks' i clock seen (.reconcile c now) (reconcileDecide env seen c now p) := by
  have hwrite : (p.state = .inFlight ∨ p.state = .ambiguous) → ∀ es, Reaches server ticket attempt es seen →
      Reaches server ticket attempt (es ++ [.reconciled c now]) (seen.reconcile c p now) :=
    fun hs es hes => .reconciled hes hp hs href ht.1
  have hheld : Holds locks' i (seen.reconcile c p now) := by
    intro q hq _
    rw [reconcile_ref hq]
    exact (Excludes.of_some hp).mp hx
  have hrejected : (p.state = .inFlight ∨ p.state = .ambiguous) → Statement.Sound server ticket attempt locks' i clock seen
      (.reconcile c now)
      (.writes (seen.reconcile c p now) (.reconciled c now) (.plain .providerRejected (some c.providerAttemptRef))) :=
    fun hs => ⟨hx, hwrite hs, hheld, ht.2, by rintro ⟨⟩, by rintro ⟨⟩⟩
  have happlied : (p.state = .inFlight ∨ p.state = .ambiguous) → Statement.Sound server ticket attempt locks' i clock seen
      (.reconcile c now)
      (if receiptFits env seen (c.receipt p now) then
        .writes (seen.reconcile c p now) (.reconciled c now) (.withReceipt .alreadyApplied (c.receipt p now))
      else .raises) := by
    intro hs
    by_cases hf : receiptFits env seen (c.receipt p now)
    · rw [if_pos hf]
      exact ⟨hx, hwrite hs, hheld, ht.2, by rintro ⟨⟩, by rintro ⟨⟩⟩
    · rw [if_neg hf]
      trivial
  unfold reconcileDecide
  cases hs : p.state with
  | inFlight =>
    cases c.disposition with
    | applied => exact happlied (.inl hs)
    | rejected => exact hrejected (.inl hs)
  | ambiguous =>
    cases c.disposition with
    | applied => exact happlied (.inr hs)
    | rejected => exact hrejected (.inr hs)
  | _ => exact fun h => by cases h

theorem reconcileFound_sound {c : ReconcileCall} {now : Timestamp} {p : ProviderAttempt} {r : Option Reconciliation} {locks' : Locks}
    (hx : Excludes locks' i seen) (hp : seen.provider = some p) (href : p.providerAttemptRef = c.providerAttemptRef)
    (ht : Timed c.wellFormed now clock) :
    Statement.Sound server ticket attempt locks' i clock seen (.reconcile c now) (reconcileFound env seen c now p r) := by
  unfold reconcileFound
  cases r with
  | none =>
    dsimp only
    by_cases hs : p.state = .inFlight
    · rw [if_pos hs]
      exact reconcileDecide_sound env hx hp href ht
    · rw [if_neg hs]
      exact fun h => by cases h
  | some r =>
    dsimp only
    cases r.state with
    | pending => exact reconcileDecide_sound env hx hp href ht
    | applied =>
      dsimp only
      by_cases hc : c.disposition = .applied ∧ r.decisionDigest = some c.decisionDigest ∧ p.providerEffectDigest = c.providerEffectDigest
      · rw [if_pos hc]
        cases strictReceipt seen p with
        | none => trivial
        | some receipt => exact fun h => by cases h
      · rw [if_neg hc]
        exact fun h => by cases h
    | rejected =>
      dsimp only
      by_cases hc : c.disposition = .rejected ∧ r.decisionDigest = some c.decisionDigest
      · rw [if_pos hc]
        exact fun h => by cases h
      · rw [if_neg hc]
        exact fun h => by cases h

theorem reconcileStatement_sound {c : ReconcileCall} {now : Timestamp} {ph : ReconcilePhase}
    (h : Knows server ticket attempt locks i clock seen (.reconcile c now ph))
    (hfree : free i ((Phase.reconcile c now ph).awaits locks) = true) :
    Moves locks (reconcileStatement env i seen c now locks ph).2 ∧
      Statement.Sound server ticket attempt (reconcileStatement env i seen c now locks ph).2 i clock seen (.reconcile c now)
        (reconcileStatement env i seen c now locks ph).1 := by
  cases ph with
  | waiting => exact ⟨moves_attempt hfree, Function.update_self .., h.2⟩
  | locked =>
    refine ⟨.refl locks, ?_, h.2⟩
    cases hf : seen.provider.filter fun p => p.providerAttemptRef == c.providerAttemptRef with
    | none =>
      refine ⟨h.1, ?_⟩
      intro q hq href
      rw [hq, Option.filter_some, if_pos (beq_iff_eq.mpr href)] at hf
      cases hf
    | some p =>
      obtain ⟨hp, hm⟩ := Option.filter_eq_some_iff.mp hf
      exact ⟨h.1, hp, beq_iff_eq.mp hm⟩
  | read p =>
    cases p with
    | none => exact ⟨.refl locks, fun h => by cases h⟩
    | some p => exact ⟨.refl locks, ⟨h.1.1, h.1.2.1, h.1.2.2, rfl⟩, h.2⟩
  | found p r =>
    obtain ⟨⟨hl, hp, href, -⟩, ht⟩ := h
    unfold reconcileStatement
    dsimp only
    by_cases hs : locks.senderFree i
    · rw [if_pos hs]
      refine ⟨moves_sender rfl rfl, reconcileFound_sound env ?_ hp href ht⟩
      rw [Excludes.of_some hp, href]
      exact hl
    · rw [if_neg hs]
      exact ⟨.refl locks, fun h => by cases h⟩

end Statements

end ContextEngine.Action
