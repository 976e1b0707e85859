/-
  ContextEngine.Action.ActionLedger — the rows that a ticket can come to.

  A ticket is written at most three times: it is sent, completed and, where the completion
  left it in doubt or never came, reconciled. `Reaches` puts one write after the other.

  Proved: what is true of the rows and the writes behind them (`Reaches.ledger`): the state
  follows the writes, the receipt copies the attempt, the attempt is bound to the ticket and
  its delivery attempt, one write at most sends and one at most decides, and a reconciliation
  is terminal exactly after a write of `reconcile`.
-/

import ContextEngine.Action.ActionPerform

namespace ContextEngine.Action

open ContextEngine.Python ContextEngine.Postgres ContextEngine.Runtime

/-! ## One write after the other -/

def SenderOutcome.state : SenderOutcome → ActionState
  | .applied => .applied
  | .ambiguous => .ambiguous
  | .rejected => .rejected

def Disposition.state : Disposition → ActionState
  | .applied => .applied
  | .rejected => .rejected

/-- The moves of a ticket. -/
def ActionState.move : ActionState → Effect → Option ActionState
  | .prepared, .sent _ _ => some .inFlight
  | .inFlight, .completed c _ => some c.senderOutcome.state
  | .inFlight, .reconciled c _ => some c.disposition.state
  | .ambiguous, .reconciled c _ => some c.disposition.state
  | _, _ => none

def Effect.isSent : Effect → Bool
  | .sent _ _ => true
  | _ => false

/-- The write settles the attempt. -/
def Effect.decides : Effect → Bool
  | .sent _ _ => false
  | .completed c _ => decide (c.senderOutcome ≠ .ambiguous)
  | .reconciled _ _ => true

def Effect.now : Effect → Timestamp
  | .sent _ now => now
  | .completed _ now => now
  | .reconciled _ now => now

section Reaches

variable (server : Server) (ticket : Ticket) (attempt : DeliveryAttempt)

/-- What `begin` compared. -/
def Named (c : BeginCall) : Prop := c.ticketRef = ticket.ticketRef ∧ ∃ bearer, c.names server ticket attempt bearer = true

inductive Reaches : List Effect → Rows → Prop where
  | prepared : Reaches [] ⟨.prepared, none, none, [], none⟩
  | sent {es : List Effect} {rows : Rows} {c : BeginCall} {now : Timestamp} :
    Reaches es rows → rows.provider = none → Named server ticket attempt c → Reaches (es ++ [.sent c now]) (rows.send c now)
  | completed {es : List Effect} {rows : Rows} {c : CompleteCall} {now : Timestamp} {p : ProviderAttempt} :
    Reaches es rows → rows.provider = some p → p.state = .inFlight → p.providerAttemptRef = c.providerAttemptRef →
      p.ticketRef = c.ticketRef → p.completionCapabilityDigest = (server.digest c.completionCapability).bytes →
        c.wellFormed now = true → Reaches (es ++ [.completed c now]) (rows.complete c p now)
  | reconciled {es : List Effect} {rows : Rows} {c : ReconcileCall} {now : Timestamp} {p : ProviderAttempt} :
    Reaches es rows → rows.provider = some p → (p.state = .inFlight ∨ p.state = .ambiguous) →
      p.providerAttemptRef = c.providerAttemptRef → c.wellFormed now = true →
        Reaches (es ++ [.reconciled c now]) (rows.reconcile c p now)

/-- The attempt is the ticket's, for its operation and digests. -/
structure BoundTo (p : ProviderAttempt) : Prop where
  ticketRef : p.ticketRef = ticket.ticketRef
  operation : p.operation = ticket.operation
  payloadDigest : p.payloadDigest = ticket.payloadDigest
  idempotencyDigest : p.idempotencyDigest = ticket.idempotencyDigest
  destinationDigest : p.destinationDigest = attempt.destinationDigest
  audienceDigest : p.audienceDigest = attempt.audienceDigest

/-- The receipt is the ticket's, for its operation and digests. -/
structure Receipts (r : Receipt) : Prop where
  ticketRef : r.ticketRef = ticket.ticketRef
  operation : r.operation = ticket.operation
  payloadDigest : r.payloadDigest = ticket.payloadDigest
  idempotencyDigest : r.idempotencyDigest = ticket.idempotencyDigest
  destinationDigest : r.destinationDigest = attempt.destinationDigest
  audienceDigest : r.audienceDigest = attempt.audienceDigest

theorem names_bound {c : BeginCall} {bearer : Option Bytes} (h : c.names server ticket attempt bearer = true) :
    c.operation = ticket.operation ∧ c.payloadDigest = ticket.payloadDigest ∧ c.idempotencyDigest = ticket.idempotencyDigest ∧
      c.destinationDigest = attempt.destinationDigest ∧ c.audienceDigest = attempt.audienceDigest := by
  simp only [BeginCall.names, Bool.and_eq_true, beq_iff_eq] at h
  obtain ⟨⟨⟨⟨⟨⟨⟨⟨⟨⟨⟨⟨⟨⟨⟨⟨⟨-, ho⟩, -⟩, hp⟩, hi⟩, -⟩, -⟩, -⟩, -⟩, -⟩, hd⟩, ha⟩, -⟩, -⟩, -⟩, -⟩, -⟩, -⟩ := h
  exact ⟨ho.symm, hp.symm, hi.symm, hd.symm, ha.symm⟩

/-- What is true of the rows that a ticket comes to. -/
structure Ledger (es : List Effect) (rows : Rows) : Prop where
  path : es.foldlM ActionState.move .prepared = some rows.state
  unsent : rows.provider = none → es = [] ∧ rows.state = .prepared
  sentOnce : (es.filter Effect.isSent).length ≤ 1
  bound : ∀ p, rows.provider = some p → p.state = rows.state ∧ rows.state ≠ .prepared ∧ BoundTo ticket attempt p
  receipt : rows.state = .applied → ∃ p r, rows.provider = some p ∧ rows.receipts = [r] ∧ Receipts ticket attempt r ∧
    r.providerAttemptRef = p.providerAttemptRef
  noReceipt : rows.state ≠ .applied → rows.receipts = []
  undecided : rows.state = .prepared ∨ rows.state = .inFlight ∨ rows.state = .ambiguous → es.filter Effect.decides = []
  decidedOnce : (es.filter Effect.decides).length ≤ 1
  unreconciled : rows.state = .prepared ∨ rows.state = .inFlight → rows.reconciliation = none
  pending : rows.state = .ambiguous → ∃ p r, rows.provider = some p ∧ rows.reconciliation = some r ∧ r.state = .pending ∧
    r.providerAttemptRef = p.providerAttemptRef
  completed : ∀ c now, .completed c now ∈ es → ∃ p, rows.provider = some p ∧ p.providerAttemptRef = c.providerAttemptRef ∧
    p.ticketRef = c.ticketRef ∧ p.completionCapabilityDigest = (server.digest c.completionCapability).bytes ∧
    c.wellFormed now = true ∧ (c.senderOutcome = .applied → rows.state = .applied)
  reconciled : ∀ c now, .reconciled c now ∈ es → ∃ p r, rows.provider = some p ∧ rows.reconciliation = some r ∧
    p.providerAttemptRef = c.providerAttemptRef ∧ r.providerAttemptRef = c.providerAttemptRef ∧ r.state ≠ .pending ∧
    c.wellFormed now = true ∧ (c.disposition = .applied → r.state = .applied ∧ r.decisionDigest = some c.decisionDigest ∧
      p.providerEffectDigest = c.providerEffectDigest ∧ rows.state = .applied)
  terminal : ∀ r, rows.reconciliation = some r → r.state ≠ .pending → ∃ c now, .reconciled c now ∈ es

variable {server ticket attempt} {es : List Effect} {rows : Rows} {p : ProviderAttempt} {now : Timestamp}

theorem path_snoc {e : Effect} {s s' : ActionState} (h : es.foldlM ActionState.move .prepared = some s) (hm : s.move e = some s') :
    (es ++ [e]).foldlM ActionState.move .prepared = some s' := by
  rw [List.foldlM_append, h]
  show [e].foldlM ActionState.move s = some s'
  rw [List.foldlM_cons, hm]
  rfl

theorem Ledger.prepared : Ledger server ticket attempt [] ⟨.prepared, none, none, [], none⟩ := by
  refine ⟨rfl, fun _ => ⟨rfl, rfl⟩, ?_, ?_, ?_, fun _ => rfl, fun _ => rfl, ?_, fun _ => rfl, ?_, ?_, ?_, ?_⟩ <;> simp

theorem Ledger.sent {c : BeginCall} (h : Ledger server ticket attempt es rows) (hp : rows.provider = none)
    (hc : Named server ticket attempt c) : Ledger server ticket attempt (es ++ [.sent c now]) (rows.send c now) := by
  obtain ⟨rfl, hs⟩ := h.unsent hp
  obtain ⟨href, bearer, hn⟩ := hc
  obtain ⟨ho, hpd, hi, hd, ha⟩ := names_bound server ticket attempt hn
  refine ⟨rfl, ?_, ?_, ?_, ?_, ?_, ?_, ?_, ?_, ?_, ?_, ?_, ?_⟩
  · intro hno
    cases hno
  · exact Nat.le_refl 1
  · intro p hp
    cases hp
    exact ⟨rfl, by rintro ⟨⟩, href, ho, hpd, hi, hd, ha⟩
  · rintro ⟨⟩
  · intro _
    exact h.noReceipt (by rw [hs]; rintro ⟨⟩)
  · intro _
    rfl
  · exact Nat.zero_le 1
  · intro _
    exact h.unreconciled (.inl hs)
  · rintro ⟨⟩
  · intro c' n hmem
    simp at hmem
  · intro c' n hmem
    simp at hmem
  · intro r hr _
    rw [show (rows.send c now).reconciliation = rows.reconciliation from rfl, h.unreconciled (.inl hs)] at hr
    cases hr

/-- The receipt of a bound attempt is bound. -/
theorem BoundTo.receipt (h : BoundTo ticket attempt p) (ref : Option String) (effect : Option Bytes) (appliedAt : Option Timestamp)
    (now : Timestamp) (seconds : Int) : Receipts ticket attempt (p.receipt ref effect appliedAt now seconds) :=
  ⟨h.ticketRef, h.operation, h.payloadDigest, h.idempotencyDigest, h.destinationDigest, h.audienceDigest⟩

theorem filter_snoc (f : Effect → Bool) (es : List Effect) (e : Effect) :
    (es ++ [e]).filter f = es.filter f ++ if f e then [e] else [] := by
  rw [List.filter_append, List.filter_singleton]
  cases f e <;> rfl

/-- While the attempt is open, no reconciliation is among the writes. -/
theorem Ledger.not_reconciled (h : Ledger server ticket attempt es rows)
    (hs : rows.state = .prepared ∨ rows.state = .inFlight ∨ rows.state = .ambiguous) (c : ReconcileCall) (n : Timestamp) :
    .reconciled c n ∉ es := by
  intro hmem
  have : .reconciled c n ∈ es.filter Effect.decides := List.mem_filter.mpr ⟨hmem, rfl⟩
  rw [h.undecided hs] at this
  cases this

/-- An attempt, settled or put in doubt. -/
def ProviderAttempt.move (p : ProviderAttempt) (s : ActionState) (effect : Option Bytes) (terminalAt : Option Timestamp) :
    ProviderAttempt :=
  { p with state := s, providerEffectDigest := effect, terminalAt := terminalAt }

theorem BoundTo.move (h : BoundTo ticket attempt p) (s : ActionState) (effect : Option Bytes) (terminalAt : Option Timestamp) :
    BoundTo ticket attempt (p.move s effect terminalAt) :=
  ⟨h.ticketRef, h.operation, h.payloadDigest, h.idempotencyDigest, h.destinationDigest, h.audienceDigest⟩

/-- What a write after the first one has to be for the ledger to go on. -/
structure Settles (server : Server) (rows rows' : Rows) (p : ProviderAttempt) (e : Effect) : Prop where
  notSent : e.isSent = false
  move : rows.state.move e = some rows'.state
  provider : ∃ effect terminalAt, rows'.provider = some (p.move rows'.state effect terminalAt)
  receipt : rows'.state = .applied → ∃ ref effect appliedAt now seconds,
    rows'.receipts = rows.receipts ++ [p.receipt ref effect appliedAt now seconds]
  noReceipt : rows'.state ≠ .applied → rows'.receipts = rows.receipts
  pending : rows'.state = .ambiguous → ∃ r, rows'.reconciliation = some r ∧ r.state = .pending ∧
    r.providerAttemptRef = p.providerAttemptRef
  undecided : rows'.state = .ambiguous → e.decides = false
  opened : rows'.state ≠ .prepared ∧ rows'.state ≠ .inFlight
  completed : ∀ c now, e = .completed c now → p.providerAttemptRef = c.providerAttemptRef ∧ p.ticketRef = c.ticketRef ∧
    p.completionCapabilityDigest = (server.digest c.completionCapability).bytes ∧ c.wellFormed now = true ∧
    (c.senderOutcome = .applied → rows'.state = .applied)
  reconciled : ∀ c now, e = .reconciled c now → ∃ p' r, rows'.provider = some p' ∧ rows'.reconciliation = some r ∧
    p'.providerAttemptRef = c.providerAttemptRef ∧ r.providerAttemptRef = c.providerAttemptRef ∧ r.state ≠ .pending ∧
    c.wellFormed now = true ∧ (c.disposition = .applied → r.state = .applied ∧ r.decisionDigest = some c.decisionDigest ∧
      p'.providerEffectDigest = c.providerEffectDigest ∧ rows'.state = .applied)
  terminal : ∀ r, rows'.reconciliation = some r → r.state ≠ .pending → ∃ c now, e = .reconciled c now

theorem Ledger.settle {rows' : Rows} {e : Effect} (h : Ledger server ticket attempt es rows) (hp : rows.provider = some p)
    (hs : rows.state = .inFlight ∨ rows.state = .ambiguous) (hw : Settles server rows rows' p e) :
    Ledger server ticket attempt (es ++ [e]) rows' := by
  obtain ⟨effect, terminalAt, hp'⟩ := hw.provider
  have hbound := (h.bound p hp).2.2
  have hopen : rows.state = .prepared ∨ rows.state = .inFlight ∨ rows.state = .ambiguous := .inr hs
  have hna : rows.state ≠ .applied := by
    rcases hs with hs | hs <;> rw [hs] <;> rintro ⟨⟩
  have hreceipts : rows.receipts = [] := h.noReceipt hna
  refine ⟨path_snoc h.path hw.move, ?_, ?_, ?_, ?_, ?_, ?_, ?_, ?_, ?_, ?_, ?_, ?_⟩
  · intro hno
    rw [hp'] at hno
    cases hno
  · rw [filter_snoc, hw.notSent]
    simpa using h.sentOnce
  · intro q hq
    rw [hp'] at hq
    cases hq
    exact ⟨rfl, hw.opened.1, hbound.move _ _ _⟩
  · intro ha
    obtain ⟨ref, eff, appliedAt, n, seconds, hr⟩ := hw.receipt ha
    rw [hreceipts] at hr
    exact ⟨_, _, hp', hr, hbound.receipt _ _ _ _ _, rfl⟩
  · intro ha
    rw [hw.noReceipt ha, hreceipts]
  · intro hst
    rcases hst with hst | hst | hst
    · exact absurd hst hw.opened.1
    · exact absurd hst hw.opened.2
    · rw [filter_snoc, hw.undecided hst, h.undecided hopen]
      rfl
  · rw [filter_snoc, h.undecided hopen]
    cases e.decides <;> simp
  · intro hst
    rcases hst with hst | hst
    · exact absurd hst hw.opened.1
    · exact absurd hst hw.opened.2
  · intro hst
    obtain ⟨r, hr, hpending, href⟩ := hw.pending hst
    exact ⟨_, r, hp', hr, hpending, href⟩
  · intro c n hmem
    rcases List.mem_append.mp hmem with hmem | hmem
    · -- an earlier completion left the attempt open, so it did not apply it
      obtain ⟨q, hq, href, hticket, hcap, hwf, happ⟩ := h.completed c n hmem
      cases hp.symm.trans hq
      exact ⟨_, hp', href, hticket, hcap, hwf, fun ha => absurd (happ ha) hna⟩
    · obtain ⟨href, hticket, hcap, hwf, happ⟩ := hw.completed c n (List.mem_singleton.mp hmem).symm
      exact ⟨_, hp', href, hticket, hcap, hwf, happ⟩
  · intro c n hmem
    rcases List.mem_append.mp hmem with hmem | hmem
    · exact absurd hmem (h.not_reconciled hopen c n)
    · exact hw.reconciled c n (List.mem_singleton.mp hmem).symm
  · intro r hr hne
    obtain ⟨c, n, rfl⟩ := hw.terminal r hr hne
    exact ⟨c, n, List.mem_append_right _ (List.mem_singleton.mpr rfl)⟩

theorem completed_settles {c : CompleteCall} (h : Ledger server ticket attempt es rows) (hp : rows.provider = some p)
    (hs : p.state = .inFlight) (href : p.providerAttemptRef = c.providerAttemptRef) (hticket : p.ticketRef = c.ticketRef)
    (hcap : p.completionCapabilityDigest = (server.digest c.completionCapability).bytes) (hwf : c.wellFormed now = true) :
    Settles server rows (rows.complete c p now) p (.completed c now) := by
  have hrows : rows.state = .inFlight := (h.bound p hp).1.symm.trans hs
  have hrecon : rows.reconciliation = none := h.unreconciled (.inr hrows)
  unfold Rows.complete
  cases hc : c.senderOutcome with
  | applied =>
    refine ⟨rfl, ?_, ⟨_, _, rfl⟩, fun _ => ⟨_, _, _, _, _, rfl⟩, fun hne => absurd rfl hne, ?_, ?_, ⟨?_, ?_⟩, ?_, ?_, ?_⟩
    · rw [hrows]
      show some c.senderOutcome.state = _
      rw [hc]
      rfl
    · rintro ⟨⟩
    · rintro ⟨⟩
    · rintro ⟨⟩
    · rintro ⟨⟩
    · rintro _ _ ⟨⟩
      exact ⟨href, hticket, hcap, hwf, fun _ => rfl⟩
    · rintro _ _ ⟨⟩
    · intro r hr
      rw [show (rows.apply p c.providerEffectDigest (c.receipt p now) now).reconciliation = rows.reconciliation from rfl, hrecon] at hr
      cases hr
  | rejected =>
    refine ⟨rfl, ?_, ⟨_, _, rfl⟩, ?_, fun _ => rfl, ?_, ?_, ⟨?_, ?_⟩, ?_, ?_, ?_⟩
    · rw [hrows]
      show some c.senderOutcome.state = _
      rw [hc]
      rfl
    · rintro ⟨⟩
    · rintro ⟨⟩
    · rintro ⟨⟩
    · rintro ⟨⟩
    · rintro ⟨⟩
    · rintro _ _ ⟨⟩
      exact ⟨href, hticket, hcap, hwf, fun ha => by rw [hc] at ha; cases ha⟩
    · rintro _ _ ⟨⟩
    · intro r hr
      rw [show (rows.reject p now).reconciliation = rows.reconciliation from rfl, hrecon] at hr
      cases hr
  | ambiguous =>
    refine ⟨rfl, ?_, ⟨_, _, rfl⟩, ?_, fun _ => rfl, ?_, ?_, ⟨?_, ?_⟩, ?_, ?_, ?_⟩
    · rw [hrows]
      show some c.senderOutcome.state = _
      rw [hc]
      rfl
    · rintro ⟨⟩
    · intro _
      exact ⟨_, rfl, rfl, href.symm⟩
    · intro _
      simp [Effect.decides, hc]
    · rintro ⟨⟩
    · rintro ⟨⟩
    · rintro _ _ ⟨⟩
      exact ⟨href, hticket, hcap, hwf, fun ha => by rw [hc] at ha; cases ha⟩
    · rintro _ _ ⟨⟩
    · intro r hr hne
      cases hr
      exact absurd rfl hne

theorem reconciled_settles {c : ReconcileCall} (h : Ledger server ticket attempt es rows) (hp : rows.provider = some p)
    (hs : p.state = .inFlight ∨ p.state = .ambiguous) (href : p.providerAttemptRef = c.providerAttemptRef)
    (hwf : c.wellFormed now = true) : Settles server rows (rows.reconcile c p now) p (.reconciled c now) := by
  have hrows : rows.state = .inFlight ∨ rows.state = .ambiguous := by
    rw [← (h.bound p hp).1]
    exact hs
  have hmove : rows.state.move (.reconciled c now) = some c.disposition.state := by
    rcases hrows with hrows | hrows <;> rw [hrows] <;> rfl
  -- the row that is decided names the attempt, whether it was pending or is new
  have hpending : (rows.reconciliation.getD
      ⟨c.providerAttemptRef, .pending, none, now, none, retention now c.retentionSeconds⟩).providerAttemptRef =
        c.providerAttemptRef := by
    rcases hrows with hrows | hrows
    · rw [h.unreconciled (.inr hrows)]
      rfl
    · obtain ⟨q, r, hq, hr, -, hqr⟩ := h.pending hrows
      cases hp.symm.trans hq
      rw [hr]
      exact hqr.trans href
  unfold Rows.reconcile
  cases hc : c.disposition with
  | applied =>
    refine ⟨rfl, ?_, ⟨_, _, rfl⟩, fun _ => ⟨_, _, _, _, _, rfl⟩, fun hne => absurd rfl hne, ?_, ?_, ⟨?_, ?_⟩, ?_, ?_, ?_⟩
    · rw [hmove, hc]
      rfl
    · rintro ⟨⟩
    · rintro ⟨⟩
    · rintro ⟨⟩
    · rintro ⟨⟩
    · rintro _ _ ⟨⟩
    · rintro _ _ ⟨⟩
      exact ⟨_, _, rfl, rfl, href, hpending, by rintro ⟨⟩, hwf, fun _ => ⟨rfl, rfl, rfl, rfl⟩⟩
    · intro r _ _
      exact ⟨c, now, rfl⟩
  | rejected =>
    refine ⟨rfl, ?_, ⟨_, _, rfl⟩, ?_, fun _ => rfl, ?_, ?_, ⟨?_, ?_⟩, ?_, ?_, ?_⟩
    · rw [hmove, hc]
      rfl
    · rintro ⟨⟩
    · rintro ⟨⟩
    · rintro ⟨⟩
    · rintro ⟨⟩
    · rintro ⟨⟩
    · rintro _ _ ⟨⟩
    · rintro _ _ ⟨⟩
      exact ⟨_, _, rfl, rfl, href, hpending, by rintro ⟨⟩, hwf, fun ha => by rw [hc] at ha; cases ha⟩
    · intro r _ _
      exact ⟨c, now, rfl⟩

theorem Reaches.ledger (h : Reaches server ticket attempt es rows) : Ledger server ticket attempt es rows := by
  induction h with
  | prepared => exact .prepared
  | sent _ hp hc ih => exact ih.sent hp hc
  | completed _ hp hs href hticket hcap hwf ih =>
    exact ih.settle hp (.inl ((ih.bound _ hp).1.symm.trans hs)) (completed_settles ih hp hs href hticket hcap hwf)
  | reconciled _ hp hs href hwf ih =>
    refine ih.settle hp ?_ (reconciled_settles ih hp hs href hwf)
    rw [← (ih.bound _ hp).1]
    exact hs

end Reaches

end ContextEngine.Action
