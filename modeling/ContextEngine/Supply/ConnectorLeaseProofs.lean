/-
  ContextEngine.Supply.ConnectorLeaseProofs — fencing of a connector job's lease, and when a
  job can be leased again (see `ContextEngine.Supply.ConnectorLease`).

  Proved: over every run, a generation is new at each issue and preemption and never moves
  otherwise, is redeemed at most once, and is the only one a page is accepted under; a
  completed job is final. A job can be issued again exactly when its last lease was redeemed:
  a lease that nobody redeemed holds its job for good.
-/

import ContextEngine.Supply.ConnectorLease

namespace ContextEngine.Supply

open ContextEngine.Machine ContextEngine.Postgres ContextEngine.Python ContextEngine.Runtime

variable {server : Server} {w w' : World}

/-! ## What each function does -/

theorem issue_eq_some {r : IssueRequest} {row : LeaseRow} : issue server w r = some (row, w') ↔
    r.accepted = true ∧ r.selects w.job = true ∧
      (w.job.state = .available ∨ w.job.state = .running ∧ sqlReached w.job.lease.leaseExpiresAt (truncSecond w.clock) = true) ∧
      w.authorized = true ∧ (reissued server w r (truncSecond w.clock)).checks = true ∧
      row = (reissued server w r (truncSecond w.clock)).leaseRow ∧
      w' = { w with job := reissued server w r (truncSecond w.clock) } := by
  simp only [issue, Option.bind_eq_bind, Option.bind_eq_some_iff, Option.guard_eq_some', exists_const, Option.some.injEq,
    Prod.mk.injEq]
  constructor
  · rintro ⟨h1, h2, h3, h4, h5, rfl, rfl⟩
    exact ⟨h1, h2, h3, h4, h5, rfl, rfl⟩
  · rintro ⟨h1, h2, h3, h4, h5, rfl, rfl⟩
    exact ⟨h1, h2, h3, h4, h5, rfl, rfl⟩

theorem preempt_eq_some {r : IssueRequest} {reason : Option String} {row : LeaseRow}
    (h : preempt server w r reason = some (row, w')) :
    r.accepted = true ∧ w.job.state = .running ∧ (reissued server w r (truncSecond w.clock)).checks = true ∧
      row = (reissued server w r (truncSecond w.clock)).leaseRow ∧
      ∃ events, w' = { w with job := reissued server w r (truncSecond w.clock), leaseEvents := events } := by
  simp only [preempt, Option.bind_eq_bind, Option.bind_eq_some_iff, Option.guard_eq_some', exists_const, Option.some.injEq,
    Prod.mk.injEq] at h
  obtain ⟨h0, -, -, h1, -, -, h2, reason, -, rfl, rfl⟩ := h
  exact ⟨h0, h1, h2, rfl, _, rfl⟩

theorem redeem_eq_some {c : LeaseClaims} {checkpoint : Option (List UInt8)}
    (h : redeem server w c = some (checkpoint, w')) :
    verifies server w c = true ∧ w.job.state = .leased ∧
      ({ w.job with state := .running, redeemedAt := some w.clock } : ConnectorJob).checks = true ∧
      w' = { w with job := { w.job with state := .running, redeemedAt := some w.clock } } := by
  simp only [redeem, Option.bind_eq_bind, Option.bind_eq_some_iff, Option.guard_eq_some', exists_const, Option.some.injEq,
    Prod.mk.injEq] at h
  obtain ⟨-, h1, h2, -, h3, -, rfl⟩ := h
  exact ⟨h1, h2, h3, rfl⟩

/-- A page that was accepted before changes nothing of the job; a new one moves it. -/
theorem accept_eq_some {c : LeaseClaims} {pageRef : String} {payload : List UInt8} {ordinal : Nat}
    (h : accept server w c pageRef payload = some (ordinal, w')) :
    verifies server w c = true ∧ w.job.state = .running ∧ w.job.redeemedAt.isSome = true ∧
      ∃ staged, w' = { w with stagedPages := staged } ∨
        ∃ s, w' = accepted { w with stagedPages := staged } pageRef s ∧ w'.job.checks = true := by
  simp only [accept, Option.bind_eq_bind, Option.bind_eq_some_iff, Option.guard_eq_some', exists_const] at h
  obtain ⟨-, -, -, -, -, -, -, s, -, h1, h2, h3, -, h⟩ := h
  split at h
  · simp only [Option.bind_eq_some_iff, Option.guard_eq_some', exists_const, Option.some.injEq, Prod.mk.injEq] at h
    exact ⟨h1, h2, h3, _, .inl h.2.2.symm⟩
  · simp only [Option.bind_eq_some_iff, Option.guard_eq_some', exists_const, Option.some.injEq, Prod.mk.injEq] at h
    obtain ⟨-, h4, -, rfl⟩ := h
    exact ⟨h1, h2, h3, _, .inr ⟨s, rfl, h4⟩⟩

/-- Nothing of the job's own rows moved. -/
structure SameJob (w w' : World) : Prop where
  job : w'.job = w.job
  staged : w'.stagedPages = w.stagedPages
  pages : w'.acceptedPages = w.acceptedPages
  checkpoint : w'.checkpoint = w.checkpoint

/-- Everything a step can do. -/
inductive Effect (server : Server) (w : World) : Call → World → Reply → Prop where
  /-- Refused, or a step of the world around the job. -/
  | idle {c : Call} {w' : World} (same : SameJob w w') (clock : w.clock ≤ w'.clock) (epoch : w.policyEpoch ≤ w'.policyEpoch) :
    Effect server w c w' .nothing
  /-- Issued or preempted. -/
  | leased {c : Call} {w' : World} (r : IssueRequest) (from' : w.job.state = .available ∨ w.job.state = .running)
      (job : w'.job = reissued server w r (truncSecond w.clock)) (checks : w'.job.checks = true)
      (accepted : r.accepted = true) (pages : w'.acceptedPages = w.acceptedPages)
      (checkpoint : w'.checkpoint = w.checkpoint) (clock : w'.clock = w.clock) (epoch : w'.policyEpoch = w.policyEpoch) :
    Effect server w c w' (.lease w'.job.leaseRow)
  | redeemed {claims : LeaseClaims} {checkpoint : Option (List UInt8)} (verified : verifies server w claims = true)
      (state : w.job.state = .leased)
      (checks : ({ w.job with state := .running, redeemedAt := some w.clock } : ConnectorJob).checks = true) :
    Effect server w (.redeem claims)
      { w with job := { w.job with state := .running, redeemedAt := some w.clock } } (.redeemed checkpoint)
  /-- A page that was accepted before. -/
  | replayed {claims : LeaseClaims} {pageRef : String} {payload : List UInt8} {ordinal : Nat} {staged : List StagedPage}
      (verified : verifies server w claims = true) (state : w.job.state = .running)
      (redeemed : w.job.redeemedAt.isSome = true) :
    Effect server w (.accept claims pageRef payload) { w with stagedPages := staged } (.accepted ordinal)
  | accepted {claims : LeaseClaims} {pageRef : String} {payload : List UInt8} {ordinal : Nat} {staged : List StagedPage}
      {s : Staged} (verified : verifies server w claims = true) (state : w.job.state = .running)
      (redeemed : w.job.redeemedAt.isSome = true)
      (checks : (Supply.accepted { w with stagedPages := staged } pageRef s).job.checks = true) :
    Effect server w (.accept claims pageRef payload) (Supply.accepted { w with stagedPages := staged } pageRef s)
      (.accepted ordinal)

theorem SameJob.refl (w : World) : SameJob w w := ⟨rfl, rfl, rfl, rfl⟩

theorem Effect.refused {c : Call} : Effect server w c w .nothing := .idle (SameJob.refl w) le_rfl le_rfl

theorem step_effect (server : Server) (w : World) (c : Call) : Effect server w c (step server w c).1 (step server w c).2 := by
  cases c with
  | issue r =>
    rw [step]
    rcases h : issue server w r with _ | ⟨row, w'⟩
    · exact .refused
    · obtain ⟨h1, -, h2, -, h3, rfl, rfl⟩ := issue_eq_some.mp h
      exact .leased r (h2.imp id And.left) rfl h3 h1 rfl rfl rfl rfl
  | preempt r reason =>
    rw [step]
    rcases h : preempt server w r reason with _ | ⟨row, w'⟩
    · exact .refused
    · obtain ⟨h0, h1, h2, rfl, events, rfl⟩ := preempt_eq_some h
      exact .leased r (.inr h1) rfl h2 h0 rfl rfl rfl rfl
  | redeem claims =>
    rw [step]
    rcases h : redeem server w claims with _ | ⟨checkpoint, w'⟩
    · exact .refused
    · obtain ⟨h1, h2, h3, rfl⟩ := redeem_eq_some h
      exact .redeemed h1 h2 h3
  | accept claims pageRef payload =>
    rw [step]
    rcases h : accept server w claims pageRef payload with _ | ⟨ordinal, w'⟩
    · exact .refused
    · obtain ⟨h1, h2, h3, staged, rfl | ⟨s, rfl, h4⟩⟩ := accept_eq_some h
      · exact .replayed h1 h2 h3
      · exact .accepted h1 h2 h3 h4
  | advanceClock micros => exact .idle ⟨rfl, rfl, rfl, rfl⟩ (Nat.le_add_right _ _) le_rfl
  | advanceEpoch n => exact .idle ⟨rfl, rfl, rfl, rfl⟩ le_rfl (Nat.le_add_right _ _)
  | setPrincipal enabled => exact .idle ⟨rfl, rfl, rfl, rfl⟩ le_rfl le_rfl
  | setSource version active => exact .idle ⟨rfl, rfl, rfl, rfl⟩ le_rfl le_rfl

/-! ## Fencing -/

/-- What a page or a redemption is verified against: the lease that the job carries now. -/
structure CurrentLease (w : World) (claims : LeaseClaims) : Prop where
  generation : claims.leaseGeneration = some w.job.leaseGeneration
  unexpired : ∃ e, w.job.lease.leaseExpiresAt = some e ∧ claims.expiresAt = some e ∧ w.clock < e
  epoch : w.job.lease.policyEpoch = some w.policyEpoch ∧ claims.policyEpoch = some w.policyEpoch

theorem currentLease_of_verifies {claims : LeaseClaims} (h : verifies server w claims = true) : CurrentLease w claims := by
  simp only [verifies, Bool.and_eq_true, sqlEq_iff] at h
  obtain ⟨⟨⟨⟨⟨⟨⟨⟨⟨⟨⟨⟨⟨⟨⟨⟨⟨⟨⟨-, -⟩, -⟩, -⟩, g, hg, hcg⟩, -⟩, -⟩, -⟩, e, he, hce⟩, p, hp, hcp⟩, -⟩, -⟩, -⟩, -⟩, hclock⟩, -⟩, -⟩, -⟩,
    p', hp', hjp⟩, -⟩ := h
  have hpp : p = w.policyEpoch := by
    rw [hp] at hjp
    simp only [Option.some.injEq] at hp' hjp
    omega
  subst hpp
  refine ⟨by rw [hcg, hg], ⟨e, he, hce, ?_⟩, hp, hcp⟩
  simpa [sqlBefore, he] using hclock

/-- The reply carries a new lease. -/
def Reply.isLease : Reply → Bool
  | .lease _ => true
  | _ => false

theorem Effect.generation {c : Call} {reply : Reply} (h : Effect server w c w' reply) :
    w'.job.leaseGeneration = w.job.leaseGeneration + (if reply.isLease then 1 else 0) := by
  cases h with
  | idle same => rw [same.job]; rfl
  | leased r from' job => rw [job]; rfl
  | redeemed => rfl
  | replayed => rfl
  | accepted => rfl

/-- A claim of another generation than the job's is refused, and leaves everything as it was. -/
theorem step_of_stale {claims : LeaseClaims} (h : claims.leaseGeneration ≠ some w.job.leaseGeneration) :
    step server w (.redeem claims) = (w, .nothing) ∧
      ∀ pageRef payload, step server w (.accept claims pageRef payload) = (w, .nothing) := by
  have hv : verifies server w claims ≠ true := fun hv => h (currentLease_of_verifies hv).generation
  constructor
  · rw [step]
    rcases hr : redeem server w claims with _ | ⟨checkpoint, w'⟩
    · rfl
    · exact absurd (redeem_eq_some hr).1 hv
  · intro pageRef payload
    rw [step]
    rcases ha : accept server w claims pageRef payload with _ | ⟨ordinal, w'⟩
    · rfl
    · exact absurd (accept_eq_some ha).1 hv

theorem Effect.completed {c : Call} {reply : Reply} (h : Effect server w c w' reply) (hc : w.job.state = .completed) :
    SameJob w w' := by
  cases h with
  | idle same => exact same
  | leased r from' => rcases from' with h | h <;> rw [hc] at h <;> cases h
  | redeemed verified state => rw [hc] at state; cases state
  | replayed verified state => rw [hc] at state; cases state
  | accepted verified state => rw [hc] at state; cases state

/-- Once a job is completed, no run moves it. -/
theorem completed_final (hc : w.job.state = .completed) (calls : List Call) :
    SameJob w (after (step server) w calls) := by
  refine after_inv (SameJob w) (fun s c hs => ?_) (SameJob.refl w) calls
  have hstep := (step_effect server s c).completed (by rw [hs.job, hc])
  exact ⟨hstep.job.trans hs.job, hstep.staged.trans hs.staged, hstep.pages.trans hs.pages, hstep.checkpoint.trans hs.checkpoint⟩

theorem generation_le (server : Server) (w : World) (calls : List Call) :
    w.job.leaseGeneration ≤ (after (step server) w calls).job.leaseGeneration := by
  refine after_inv (fun s : World => w.job.leaseGeneration ≤ s.job.leaseGeneration) (fun s c hs => ?_) le_rfl calls
  have hstep := (step_effect server s c).generation
  omega

/-! ### Over a run -/

/-- The generation that a step issued. -/
def issuedGeneration (e : Entry World Call Reply) : Option Nat :=
  match e.reply with
  | .lease row => some row.leaseGeneration
  | _ => none

/-- The generation that a step redeemed. -/
def redeemedGeneration (e : Entry World Call Reply) : Option Nat :=
  match e.call, e.reply with
  | .redeem claims, .redeemed _ => claims.leaseGeneration
  | _, _ => none

theorem Effect.issued {c : Call} {reply : Reply} {g : Nat} (h : Effect server w c w' reply)
    (hg : issuedGeneration ⟨w, c, reply⟩ = some g) : g = w.job.leaseGeneration + 1 ∧ w'.job.leaseGeneration = g := by
  cases h with
  | leased r from' job =>
    simp only [issuedGeneration, ConnectorJob.leaseRow, job, reissued, Option.some.injEq] at hg ⊢
    omega
  | idle | redeemed | replayed | accepted => simp [issuedGeneration] at hg

theorem issued_above (calls : List Call) :
    ∀ g ∈ (history (step server) w calls).filterMap issuedGeneration, w.job.leaseGeneration < g := by
  induction calls generalizing w with
  | nil => simp
  | cons c calls ih =>
    intro g hg
    obtain ⟨e, he, heg⟩ := List.mem_filterMap.mp hg
    have hstep := (step_effect server w c).generation
    rcases List.mem_cons.mp he with rfl | he
    · have := (step_effect server w c).issued heg
      omega
    · have := ih g (List.mem_filterMap.mpr ⟨e, he, heg⟩)
      omega

theorem issued_increasing (calls : List Call) :
    ((history (step server) w calls).filterMap issuedGeneration).Pairwise (· < ·) := by
  induction calls generalizing w with
  | nil => simp
  | cons c calls ih =>
    rw [history_cons]
    cases hg : issuedGeneration ⟨w, c, (step server w c).2⟩ with
    | none => simpa [hg] using ih
    | some g =>
      rw [List.filterMap_cons_some hg, List.pairwise_cons]
      refine ⟨fun g' hg' => ?_, ih⟩
      have := issued_above calls g' hg'
      have := (step_effect server w c).issued hg
      omega

/-- A redeemed generation: replaced by a later one, or in use. -/
def Redeemed (g : Nat) (w : World) : Prop :=
  g < w.job.leaseGeneration ∨ g = w.job.leaseGeneration ∧ (w.job.state = .running ∨ w.job.state = .completed)

theorem Effect.stays_redeemed {c : Call} {reply : Reply} {g : Nat} (h : Effect server w c w' reply) (hg : Redeemed g w) :
    Redeemed g w' := by
  cases h with
  | idle same => rwa [Redeemed, same.job]
  | leased r from' job =>
    left
    rw [job]
    rcases hg with hg | ⟨rfl, -⟩
    · exact Nat.lt_succ_of_lt hg
    · exact Nat.lt_succ_self _
  | redeemed => exact hg.imp id fun h => ⟨h.1, .inl rfl⟩
  | replayed => exact hg
  | @accepted _ _ _ _ _ s =>
    refine hg.imp id fun h => ⟨h.1, ?_⟩
    cases s.terminal <;> simp [Supply.accepted]

theorem Effect.redeems {c : Call} {reply : Reply} {g : Nat} (h : Effect server w c w' reply)
    (hg : redeemedGeneration ⟨w, c, reply⟩ = some g) : Redeemed g w' ∧ ¬ Redeemed g w := by
  cases h with
  | redeemed verified state =>
    have hcurrent := (currentLease_of_verifies verified).generation
    simp only [redeemedGeneration, hcurrent, Option.some.injEq] at hg
    subst hg
    refine ⟨.inr ⟨rfl, .inl rfl⟩, ?_⟩
    rintro (hlt | ⟨-, hs | hs⟩)
    · exact Nat.lt_irrefl _ hlt
    · rw [state] at hs; cases hs
    · rw [state] at hs; cases hs
  | idle | leased | replayed | accepted => simp [redeemedGeneration] at hg

theorem redeemed_once (calls : List Call) :
    ((history (step server) w calls).filterMap redeemedGeneration).Nodup := by
  apply emits_once redeemedGeneration Redeemed
  · intro g s c hg
    exact (step_effect server s c).stays_redeemed hg
  · intro g s c hg
    exact ((step_effect server s c).redeems hg).1
  · intro g s c hspent hg
    exact ((step_effect server s c).redeems hg).2 hspent

theorem Effect.accepts {claims : LeaseClaims} {pageRef : String} {payload : List UInt8} {ordinal : Nat} 
    (h : Effect server w (.accept claims pageRef payload) w' (.accepted ordinal)) :
    CurrentLease w claims ∧ w.job.state = .running ∧ w.job.redeemedAt.isSome = true := by
  cases h with
  | replayed verified state redeemed => exact ⟨currentLease_of_verifies verified, state, redeemed⟩
  | accepted verified state redeemed => exact ⟨currentLease_of_verifies verified, state, redeemed⟩

/-- Fencing of a job over a run. -/
structure Fenced (server : Server) (w₀ : World) (calls : List Call) : Prop where
  /-- The generation grows by one at each issue and preemption, and at no other step. -/
  generation : ∀ e ∈ history (step server) w₀ calls,
    (step server e.before e.call).1.job.leaseGeneration =
      e.before.job.leaseGeneration + (if e.reply.isLease then 1 else 0)
  /-- Each lease that is issued carries a later generation than all before it. -/
  issued : ((history (step server) w₀ calls).filterMap issuedGeneration).Pairwise (· < ·)
  /-- Each generation is redeemed at most once. -/
  redeemed : ((history (step server) w₀ calls).filterMap redeemedGeneration).Nodup
  /-- A page is accepted only under the current lease: redeemed, unexpired, of the current epoch. -/
  accepted : ∀ e ∈ history (step server) w₀ calls, ∀ claims pageRef payload ordinal,
    e.call = .accept claims pageRef payload → e.reply = .accepted ordinal →
      CurrentLease e.before claims ∧ e.before.job.state = .running ∧ e.before.job.redeemedAt.isSome = true
  /-- After an issue or a preemption, whatever happens next, a holder of an older generation
      can neither redeem nor accept, and its calls change nothing at all. -/
  stale : ∀ before c later row, calls = before ++ c :: later →
    (step server (after (step server) w₀ before) c).2 = .lease row →
      ∀ claims g, claims.leaseGeneration = some g → g < row.leaseGeneration →
        step server (after (step server) w₀ calls) (.redeem claims) = (after (step server) w₀ calls, .nothing) ∧
          ∀ pageRef payload, step server (after (step server) w₀ calls) (.accept claims pageRef payload) =
            (after (step server) w₀ calls, .nothing)
  /-- Once the job is completed, its row, its staged and accepted pages and its checkpoint stay. -/
  completed : ∀ before later, calls = before ++ later → (after (step server) w₀ before).job.state = .completed →
    SameJob (after (step server) w₀ before) (after (step server) w₀ calls)

theorem connector_lease_fenced (server : Server) (w₀ : World) (calls : List Call) : Fenced server w₀ calls where
  generation := by
    intro e he
    have hreply := history_reply he
    rw [hreply]
    exact (step_effect server e.before e.call).generation
  issued := issued_increasing calls
  redeemed := redeemed_once calls
  accepted := by
    intro e he claims pageRef payload ordinal hcall hreply
    have hstep := history_reply he
    have heffect := step_effect server e.before e.call
    rw [← hstep, hcall, hreply] at heffect
    exact heffect.accepts
  stale := by
    intro before c later row hcalls hrow claims g hg hlt
    apply step_of_stale
    rw [hg, hcalls, after_append, after_cons]
    have hissued := (step_effect server (after (step server) w₀ before) c).issued
      (g := row.leaseGeneration) (by rw [hrow]; rfl)
    have hle := generation_le server (step server (after (step server) w₀ before) c).1 later
    simp only [ne_eq, Option.some.injEq]
    omega
  completed := by
    intro before later hcalls hc
    rw [hcalls, after_append]
    exact completed_final hc later

/-! ## Leasing a job again -/

theorem truncSecond_le (t : Timestamp) : truncSecond t ≤ t := Nat.div_mul_le_self t MICROS

theorem le_truncSecond {e t : Timestamp} (hwhole : MICROS ∣ e) (h : e ≤ t) : e ≤ truncSecond t := by
  obtain ⟨k, rfl⟩ := hwhole
  have hk : k ≤ t / MICROS := (Nat.le_div_iff_mul_le (by decide)).mpr (by rwa [Nat.mul_comm])
  calc MICROS * k = k * MICROS := Nat.mul_comm _ _
    _ ≤ t / MICROS * MICROS := Nat.mul_le_mul_right _ hk

/-- What every reachable state of a job satisfies. -/
structure Inv (w : World) : Prop where
  epoch : 0 < w.policyEpoch
  /-- Leases end on whole seconds, the resolution that issue reads the clock at. -/
  whole : ∀ e, w.job.lease.leaseExpiresAt = some e → MICROS ∣ e
  /-- A redeemed lease has an end. -/
  running : w.job.state = .running → w.job.lease.leaseExpiresAt.isSome = true

theorem World.Fresh.inv (h : w.Fresh) : Inv w where
  epoch := h.epoch
  whole := by
    intro e he
    have hchecks := h.checks
    simp [ConnectorJob.checks, h.state, he] at hchecks
  running := by
    intro hr
    rw [h.state] at hr
    cases hr

theorem Inv.effect {c : Call} {reply : Reply} (hi : Inv w) (h : Effect server w c w' reply) : Inv w' := by
  cases h with
  | idle same clock epoch =>
    refine ⟨lt_of_lt_of_le hi.epoch epoch, ?_, ?_⟩
    · rw [same.job]; exact hi.whole
    · rw [same.job]; exact hi.running
  | leased r from' job checks accepted pages checkpoint clock epoch =>
    refine ⟨by rw [epoch]; exact hi.epoch, ?_, ?_⟩
    · intro e he
      rw [job] at he
      obtain ⟨ttl, -, rfl⟩ := Option.map_eq_some_iff.mp he
      exact Nat.dvd_add (Nat.dvd_mul_left _ _) (Nat.dvd_mul_left _ _)
    · intro hr
      rw [job] at hr
      cases hr
  | redeemed verified state checks =>
    refine ⟨hi.epoch, hi.whole, fun _ => ?_⟩
    obtain ⟨e, he, -⟩ := (currentLease_of_verifies verified).unexpired
    exact Option.isSome_iff_exists.mpr ⟨e, he⟩
  | replayed => exact ⟨hi.epoch, hi.whole, hi.running⟩
  | accepted verified state => exact ⟨hi.epoch, hi.whole, fun _ => hi.running state⟩

theorem World.Fresh.reaches (h : w.Fresh) (calls : List Call) : Inv (after (step server) w calls) :=
  after_inv Inv (fun s c hs => hs.effect (step_effect server s c)) h.inv calls

/-- The arguments that the issuer passes for the job. -/
structure IssueRequest.For (r : IssueRequest) (job : ConnectorJob) : Prop where
  control : r.sessionUser = .control
  organization : r.organizationId = some job.organizationId
  source : r.sourceId = some job.sourceId
  sourceVersion : r.sourceVersionId = some job.sourceVersionId
  workerJob : r.workerJobId = some job.workerJobId
  servicePrincipal : r.servicePrincipalId = some job.servicePrincipalId
  signingKey : ∃ v, r.signingKeyVersion = some v ∧ 0 < v
  nonce : ∃ n, r.nonce = some n ∧ n.length = 32
  ttl : ∃ t, r.leaseTtlSeconds = some t ∧ 1 ≤ t ∧ t ≤ 3600

theorem IssueRequest.For.accepted {r : IssueRequest} (h : r.For w.job) : r.accepted = true := by
  obtain ⟨v, hv, hpos⟩ := h.signingKey
  obtain ⟨n, hn, hlen⟩ := h.nonce
  obtain ⟨t, ht, hmin, hmax⟩ := h.ttl
  simp [IssueRequest.accepted, h.control, h.organization, h.source, h.sourceVersion, h.workerJob, h.servicePrincipal, hv,
    hpos, hn, hlen, ht, hmin, hmax]

theorem IssueRequest.For.selects {r : IssueRequest} (h : r.For w.job) : r.selects w.job = true := by
  simp [IssueRequest.selects, sqlEq, h.organization, h.source, h.sourceVersion, h.workerJob, h.servicePrincipal]

/-- The row of a new lease meets the job's check constraints, up to the last generation. -/
theorem reissued_checks {r : IssueRequest} (h : r.For w.job) (hepoch : 0 < w.policyEpoch) (now : Timestamp) :
    (reissued server w r now).checks = true ↔ w.job.leaseGeneration < MAX_BIGINT := by
  obtain ⟨v, hv, hpos⟩ := h.signingKey
  obtain ⟨n, hn, -⟩ := h.nonce
  obtain ⟨t, ht, hmin, -⟩ := h.ttl
  have hlater : now < now + t.toNat * MICROS := Nat.lt_add_of_pos_right (Nat.mul_pos (by omega) (by decide))
  simp [ConnectorJob.checks, ConnectorJob.leaseChecks, reissued, passes, hv, hpos, ht, hlater, hepoch, h.sourceVersion,
    leaseKey, isSha256_hexdigest]

/-- In every reachable state of a job that is not completed, whose source version is active, whose
    principal is enabled and whose lease, if any, has run out: it can be leased again exactly when
    the last lease was redeemed (and generations are left). -/
theorem issue_again_iff (server : Server) {w₀ : World} (h₀ : w₀.Fresh) (calls : List Call) {r : IssueRequest}
    (hr : r.For (after (step server) w₀ calls).job) (hstate : (after (step server) w₀ calls).job.state ≠ .completed)
    (hauthorized : (after (step server) w₀ calls).authorized = true)
    (hexpired : ∀ e, (after (step server) w₀ calls).job.lease.leaseExpiresAt = some e →
      e ≤ (after (step server) w₀ calls).clock) :
    (∃ row w', issue server (after (step server) w₀ calls) r = some (row, w') ∧
        row.leaseGeneration = (after (step server) w₀ calls).job.leaseGeneration + 1 ∧
        w'.job.leaseGeneration = row.leaseGeneration ∧ w'.job.state = .leased) ↔
      (after (step server) w₀ calls).job.state ≠ .leased ∧
        (after (step server) w₀ calls).job.leaseGeneration < MAX_BIGINT := by
  have hi : Inv (after (step server) w₀ calls) := h₀.reaches calls
  generalize after (step server) w₀ calls = w at hr hstate hauthorized hexpired hi ⊢
  constructor
  · rintro ⟨row, w', hissue, -⟩
    obtain ⟨-, -, hfrom, -, hchecks, -, -⟩ := issue_eq_some.mp hissue
    refine ⟨?_, (reissued_checks hr hi.epoch _).mp hchecks⟩
    intro hleased
    rcases hfrom with h | ⟨h, -⟩ <;> rw [hleased] at h <;> cases h
  · rintro ⟨hleased, hlast⟩
    refine ⟨_, _, issue_eq_some.mpr ⟨hr.accepted, hr.selects, ?_, hauthorized, ?_, rfl, rfl⟩, rfl, rfl, rfl⟩
    · cases hs : w.job.state with
      | available => exact .inl rfl
      | leased => exact absurd hs hleased
      | completed => exact absurd hs hstate
      | running =>
        -- issue truncates the clock to a second; the lease ends on one
        obtain ⟨e, he⟩ := Option.isSome_iff_exists.mp (hi.running hs)
        refine .inr ⟨rfl, ?_⟩
        rw [he, sqlReached, Option.any_some, decide_eq_true_eq]
        exact le_truncSecond (hi.whole e he) (hexpired e he)
    · exact (reissued_checks hr hi.epoch _).mpr hlast

/-! ## A job that nobody redeemed -/

/-- A lease that ran out before it was redeemed. -/
structure Wedged (w : World) : Prop where
  state : w.job.state = .leased
  expired : ∀ e, w.job.lease.leaseExpiresAt = some e → e ≤ w.clock

theorem Wedged.effect {c : Call} {reply : Reply} (hw : Wedged w) (h : Effect server w c w' reply) :
    Wedged w' ∧ w'.job = w.job := by
  cases h with
  | idle same clock =>
    refine ⟨⟨by rw [same.job]; exact hw.state, ?_⟩, same.job⟩
    intro e he
    rw [same.job] at he
    exact le_trans (hw.expired e he) clock
  | leased r from' => rcases from' with h | h <;> rw [hw.state] at h <;> cases h
  | redeemed verified =>
    obtain ⟨e, he, -, hlt⟩ := (currentLease_of_verifies verified).unexpired
    exact absurd (hw.expired e he) (Nat.not_le.mpr hlt)
  | replayed verified state => rw [hw.state] at state; cases state
  | accepted verified state => rw [hw.state] at state; cases state

/-- No run of calls, and no passing of time or of policy epochs, brings the job back. -/
theorem Wedged.final (hw : Wedged w) (calls : List Call) :
    Wedged (after (step server) w calls) ∧ (after (step server) w calls).job = w.job := by
  refine after_inv (fun s => Wedged s ∧ s.job = w.job) (fun s c hs => ?_) ⟨hw, rfl⟩ calls
  obtain ⟨hw', hjob⟩ := hs.1.effect (step_effect server s c)
  exact ⟨hw', hjob.trans hs.2⟩

namespace ConnectorInstance

def id (n : Nat) : UUID := .ofNat n

def digest : Sha256Digest := ⟨List.replicate 32 7, List.length_replicate⟩

/-- Digests that are only compared with themselves. -/
def postgres : Server :=
  ⟨fun _ => castOf none, fun _ => none, fun _ => none, fun _ => none, fun _ => digest, fun _ => "", fun _ => ""⟩

def fresh : World :=
  { clock := 0, policyEpoch := 1, principalEnabled := true, activeVersionId := some (id 3), sourceActive := true
    job := ⟨id 1, id 2, id 3, id 4, id 5, .available, 0, .none, none, none⟩
    stagedPages := [], acceptedPages := [], checkpoint := none, leaseEvents := [] }

theorem fresh_fresh : fresh.Fresh where
  state := rfl
  checks := by decide
  epoch := by decide
  staged := rfl
  accepted := rfl
  checkpoint := rfl
  events := rfl

def request : IssueRequest :=
  ⟨.control, some (id 1), some (id 2), some (id 3), some (id 4), some (id 5), some 1, some (List.replicate 32 0), some 60⟩

theorem request_for {w : World} (h : w.job.organizationId = id 1 ∧ w.job.sourceId = id 2 ∧ w.job.sourceVersionId = id 3 ∧
    w.job.workerJobId = id 4 ∧ w.job.servicePrincipalId = id 5) : request.For w.job where
  control := rfl
  organization := by rw [h.1]; rfl
  source := by rw [h.2.1]; rfl
  sourceVersion := by rw [h.2.2.1]; rfl
  workerJob := by rw [h.2.2.2.1]; rfl
  servicePrincipal := by rw [h.2.2.2.2]; rfl
  signingKey := ⟨1, rfl, by decide⟩
  nonce := ⟨_, rfl, by decide⟩
  ttl := ⟨60, rfl, by decide, by decide⟩

/-- A lease of one minute that runs out before anybody redeemed it. -/
def unredeemed : List Call := [.issue request, .advanceClock (61 * MICROS)]

/-- After the lease ran out, nothing stands in the way of the job but its state, and it is not
    issued again, whatever happens later. -/
theorem unredeemed_lease_wedges :
    fresh.Fresh ∧ request.For (after (step postgres) fresh unredeemed).job ∧
      (after (step postgres) fresh unredeemed).job.state ≠ .completed ∧
      (after (step postgres) fresh unredeemed).authorized = true ∧
      (∀ e, (after (step postgres) fresh unredeemed).job.lease.leaseExpiresAt = some e →
        e ≤ (after (step postgres) fresh unredeemed).clock) ∧
      issue postgres (after (step postgres) fresh unredeemed) request = none ∧
      ∀ later, (after (step postgres) fresh (unredeemed ++ later)).job = (after (step postgres) fresh unredeemed).job := by
  have hjob : (after (step postgres) fresh unredeemed).job.state = .leased ∧
      (after (step postgres) fresh unredeemed).job.lease.leaseExpiresAt = some (60 * MICROS) ∧
      (after (step postgres) fresh unredeemed).clock = 61 * MICROS := by decide +kernel
  have hwedged : Wedged (after (step postgres) fresh unredeemed) := by
    refine ⟨hjob.1, ?_⟩
    intro e he
    rw [hjob.2.1] at he
    cases he
    rw [hjob.2.2]
    decide
  refine ⟨fresh_fresh, request_for (by decide +kernel), by rw [hjob.1]; decide, by decide +kernel, hwedged.expired,
    by decide +kernel, ?_⟩
  intro later
  rw [after_append]
  exact (hwedged.final later).2

/-- The lease that `request` gets first, as its worker presents it. -/
def lease : LeaseClaims :=
  { sessionUser := .worker, organizationId := some (id 1), sourceVersionId := some (id 3), workerJobId := some (id 4)
    servicePrincipalId := some (id 5), leaseGeneration := some 1, signingKeyVersion := some 1
    nonce := some (List.replicate 32 0), issuedAt := some 0, expiresAt := some (60 * MICROS), policyEpoch := some 1
    idempotencyKey := some (leaseKey postgres fresh.job 1), allowedSourceVersionIds := some [id 3]
    allowedOperations := some ["connector.execute"], serviceActorExpiresAt := some (60 * MICROS) }

/-- A lease of one minute that its worker redeems and then lets run out. -/
def redeemed : List Call := [.issue request, .redeem lease, .advanceClock (61 * MICROS)]

/-- The job is leased again, under the next generation. -/
theorem redeemed_lease_reissued :
    (after (step postgres) fresh redeemed).job.leaseGeneration = 1 ∧
      (after (step postgres) fresh redeemed).job.lease.leaseExpiresAt = some (60 * MICROS) ∧
      ∃ row w', issue postgres (after (step postgres) fresh redeemed) request = some (row, w') ∧
        row.leaseGeneration = (after (step postgres) fresh redeemed).job.leaseGeneration + 1 ∧
        w'.job.leaseGeneration = row.leaseGeneration ∧ w'.job.state = .leased := by
  have hjob : (after (step postgres) fresh redeemed).job.state = .running ∧
      (after (step postgres) fresh redeemed).job.leaseGeneration = 1 ∧
      (after (step postgres) fresh redeemed).job.lease.leaseExpiresAt = some (60 * MICROS) ∧
      (after (step postgres) fresh redeemed).clock = 61 * MICROS ∧
      (after (step postgres) fresh redeemed).authorized = true := by decide +kernel
  obtain ⟨hstate, hgeneration, hexpires, hclock, hauthorized⟩ := hjob
  refine ⟨hgeneration, hexpires, (issue_again_iff postgres fresh_fresh redeemed (request_for (by decide +kernel)) ?_
    hauthorized ?_).mpr ⟨?_, ?_⟩⟩
  · rw [hstate]
    decide
  · intro e he
    rw [hexpires] at he
    cases he
    rw [hclock]
    decide
  · rw [hstate]
    decide
  · rw [hgeneration]
    decide

end ConnectorInstance

end ContextEngine.Supply
