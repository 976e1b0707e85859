/-
  ContextEngine.Adapters.VectorDiscovery — the budgeted query embedding
  (`adapters/pgvector.py`, `prepare_budgeted_discovery`, with `adapters/_bounded_call.py`).

  The caller reserves a maximum, starts a worker thread that calls the embedding provider,
  and waits for it with a deadline. The worker may come to its provider call long after
  the caller gave up, so the two share `provider_call_allowed` and `provider_call_started`
  under a lock: the worker marks the call as started only while it is allowed, and the
  caller forbids it before it decides, from `provider_call_started`, whether to commit or
  to cancel. Each lock operation and each access to a flag is a step of its own, and the
  scheduler picks the thread. Everything the two call may raise; a clock may read any
  integer.

  Proved, over every interleaving:
  - `no_uncharged_call`: a provider that was called is paid for, a cancelled reservation
    is never followed by a call, the reservation is settled once, for the actual usage
    (the query's tokens, one call, the time between the clock's two readings) when
    discovery succeeds and for the maximum otherwise; the call can always end.
-/

import ContextEngine.Runtime.Budget

namespace ContextEngine.Adapters.VectorDiscovery

open ContextEngine.Runtime ContextEngine.Runtime.Checks ContextEngine.Runtime.Budget

/-! ## The two threads -/

inductive Thread where
  | caller
  | worker
  deriving DecidableEq, Repr

/-- Where the caller is; `actual` is the usage of a discovery that succeeded. -/
inductive Caller where
  | entry
  /-- Raised before anything was reserved. -/
  | refused
  /-- Reserved; reads the clock. -/
  | clock
  /-- `worker.start()`. -/
  | spawn (startedMs : Int)
  /-- `finished.wait(timeout)`. -/
  | wait (startedMs : Int)
  /-- Has vectors; validates them and builds the request plan. -/
  | validate (startedMs : Int)
  /-- Reads the clock again. -/
  | finish (startedMs : Int)
  /-- In `finally`: takes the lock. -/
  | unwind (actual : Option BudgetUsage)
  /-- `provider_call_allowed = False`. -/
  | deny (actual : Option BudgetUsage)
  /-- `settle_as_started = provider_call_started`. -/
  | read (actual : Option BudgetUsage)
  | release (actual : Option BudgetUsage) (settleAsStarted : Bool)
  | settle (actual : Option BudgetUsage) (settleAsStarted : Bool)
  | ended (actual : Option BudgetUsage) (settleAsStarted : Bool) (settled : Except Raised Unit)

inductive Worker where
  | unborn
  /-- Started; takes the lock. -/
  | ready
  /-- `if not provider_call_allowed`. -/
  | check
  /-- `provider_call_started = True`. -/
  | mark
  | release (permitted : Bool)
  | call
  /-- Inside the provider. -/
  | provider
  | finished (returned : Bool)

structure St where
  world : World
  caller : Caller
  worker : Worker
  lock : Option Thread
  allowed : Bool
  started : Bool
  /-- How often the provider was called. -/
  invoked : Nat
  /-- What `self._monotonic_ms()` returned, in order. -/
  readings : List Int

/-- One call of `prepare_budgeted_discovery`. -/
structure Query where
  budget : Nat
  queryTokens : Nat

def QUERY_EMBEDDING_MAXIMUM_USAGE : BudgetUsage := ⟨0, 1, 1, 5000⟩

def Query.maximumUsage (q : Query) : BudgetUsage := { QUERY_EMBEDDING_MAXIMUM_USAGE with tokens := q.queryTokens }

/-- What the operation a thread is at does: it raises or not, what a clock reads, and
    whether a `start` that raises had begun the thread. -/
structure Outcome where
  raises : Bool
  clock : Int
  begun : Bool

section Steps

variable (q : Query)

/-- `actual_usage`, once the elapsed time passed its check. -/
def actualUsage (startedMs finishedMs : Int) : Option BudgetUsage :=
  let elapsedMs := finishedMs - startedMs
  if 0 ≤ elapsedMs ∧ elapsedMs ≤ QUERY_EMBEDDING_MAXIMUM_USAGE.elapsedMs then
    some ⟨q.queryTokens, 1, 1, elapsedMs.toNat⟩
  else none

/-- The settlement in `finally`, on the reservation `r`. -/
def settlement (r : Nat) (actual : Option BudgetUsage) (settleAsStarted : Bool) : Call :=
  if settleAsStarted then .commit q.budget (some r) (some (actual.getD q.maximumUsage))
  else .cancel q.budget (some r)

def callerStep (r : Nat) (s : St) (o : Outcome) : St :=
  match s.caller with
  | .entry =>
    if o.raises then { s with caller := .refused }
    else
      match s.world.call (.reserve q.budget (some q.maximumUsage)) with
      | (.error _, w) => { s with world := w, caller := .refused }
      | (.ok (), w) => { s with world := w, caller := .clock }
  | .refused => s
  | .clock =>
    if o.raises then { s with caller := .unwind none }
    else { s with caller := .spawn o.clock, readings := s.readings ++ [o.clock] }
  | .spawn t =>
    if o.raises then { s with caller := .unwind none, worker := if o.begun then .ready else .unborn }
    else { s with caller := .wait t, worker := .ready }
  | .wait t =>
    -- A deadline that passes raises; so does a result that is an exception.
    if o.raises then { s with caller := .unwind none }
    else
      match s.worker with
      | .finished true => { s with caller := .validate t }
      | .finished false => { s with caller := .unwind none }
      | _ => s
  | .validate t => { s with caller := if o.raises then .unwind none else .finish t }
  | .finish t =>
    if o.raises then { s with caller := .unwind none }
    else { s with caller := .unwind (actualUsage q t o.clock), readings := s.readings ++ [o.clock] }
  | .unwind a => if s.lock = none then { s with lock := some .caller, caller := .deny a } else s
  | .deny a => { s with allowed := false, caller := .read a }
  | .read a => { s with caller := .release a s.started }
  | .release a started => { s with lock := none, caller := .settle a started }
  | .settle a started =>
    let c := s.world.call (settlement q r a started)
    { s with world := c.2, caller := .ended a started c.1 }
  | .ended _ _ _ => s

def workerStep (s : St) (o : Outcome) : St :=
  match s.worker with
  | .unborn => s
  | .ready => if s.lock = none then { s with lock := some .worker, worker := .check } else s
  | .check => { s with worker := if s.allowed then .mark else .release false }
  | .mark => { s with started := true, worker := .release true }
  | .release permitted => { s with lock := none, worker := if permitted then .call else .finished false }
  | .call => { s with invoked := s.invoked + 1, worker := .provider }
  | .provider => { s with worker := .finished (!o.raises) }
  | .finished _ => s

/-- One step of the thread the scheduler picked. -/
def step (r : Nat) (s : St) : Thread × Outcome → St
  | (.caller, o) => callerStep q r s o
  | (.worker, o) => workerStep s o

def init (w : World) : St := ⟨w, .entry, .unborn, none, true, false, 0, []⟩

/-- A run; the reservation it makes is the next object on the heap. -/
def run (w : World) (events : List (Thread × Outcome)) : St :=
  events.foldl (step q w.heap.reservations.length) (init w)

end Steps

/-! ## Invariant -/

def Caller.holdsLock : Caller → Bool
  | .deny _ | .read _ | .release _ _ => true
  | _ => false

/-- Past `provider_call_allowed = False`. -/
def Caller.denied : Caller → Bool
  | .read _ | .release _ _ | .settle _ _ | .ended _ _ _ => true
  | _ => false

/-- The caller has the worker's result in hand, or had it when discovery succeeded. -/
def Caller.served : Caller → Bool
  | .validate _ | .finish _ => true
  | .unwind a | .deny a | .read a | .release a _ | .settle a _ | .ended a _ _ => a.isSome
  | _ => false

def Caller.actual : Caller → Option BudgetUsage
  | .unwind a | .deny a | .read a | .release a _ | .settle a _ | .ended a _ _ => a
  | _ => none

/-- What the clock had returned so far, up to the end of the discovery. -/
def Caller.readings : Caller → Option (List Int)
  | .entry | .clock => some []
  | .spawn t | .wait t | .validate t | .finish t => some [t]
  | _ => none

/-- What the caller read of `provider_call_started`. -/
def Caller.asStarted : Caller → Option Bool
  | .release _ started | .settle _ started | .ended _ started _ => some started
  | _ => none

/-- The caller has not started the worker. -/
def Caller.beforeSpawn : Caller → Bool
  | .entry | .refused | .clock | .spawn _ => true
  | _ => false

def Worker.holdsLock : Worker → Bool
  | .check | .mark | .release _ => true
  | _ => false

/-- Past `provider_call_started = True`. -/
def Worker.marked : Worker → Bool
  | .release true | .call | .provider | .finished true => true
  | _ => false

/-- The ledger as the caller left it. -/
def Ledger (q : Query) (w : World) (s : St) : Prop :=
  match s.caller with
  | .entry => s.world = w
  | .refused => s.world.heap = w.heap ∧ ∃ steps, s.world.steps = w.steps ++ steps ∧
      (steps = [] ∨ calls steps = [(.reserve q.budget (some q.maximumUsage), false)])
  | .ended a started settled => settled = .ok () ∧
      s.world.heap = settledHeap w.heap q.budget q.maximumUsage
        (if started then a.getD q.maximumUsage else .empty) ∧
      ∃ steps, s.world.steps = w.steps ++ steps ∧ calls steps =
        [(.reserve q.budget (some q.maximumUsage), true), (settlement q w.heap.reservations.length a started, true)]
  | _ => s.world = w.reserved q.budget q.maximumUsage

/-- The usage of a discovery that took no longer than it may: the query's tokens, one call
    for one microunit, and the time between the two readings of the clock. -/
def Measured (q : Query) (readings : List Int) (u : BudgetUsage) : Prop :=
  ∃ startedMs finishedMs : Int, readings = [startedMs, finishedMs] ∧ 0 ≤ finishedMs - startedMs ∧
    finishedMs - startedMs ≤ 5000 ∧ u = ⟨q.queryTokens, 1, 1, (finishedMs - startedMs).toNat⟩

theorem Measured.fits {q : Query} {readings : List Int} {u : BudgetUsage} (h : Measured q readings u) :
    ∀ d, u.amount d ≤ q.maximumUsage.amount d := by
  obtain ⟨startedMs, finishedMs, -, hlow, hhigh, rfl⟩ := h
  intro d
  cases d <;> simp only [BudgetUsage.amount, Query.maximumUsage, QUERY_EMBEDDING_MAXIMUM_USAGE] <;> omega

structure Inv (q : Query) (w : World) (s : St) : Prop where
  callerLock : s.lock = some .caller ↔ s.caller.holdsLock = true
  workerLock : s.lock = some .worker ↔ s.worker.holdsLock = true
  unborn : s.caller.beforeSpawn = true → s.worker = .unborn
  unstarted : s.worker = .unborn → s.started = false
  allowed : s.allowed = !s.caller.denied
  /-- The worker marks under the lock it checked under. -/
  mark : s.worker = .mark → s.allowed = true
  started : s.worker.marked = true → s.started = true
  invoked : 0 < s.invoked → s.started = true
  served : s.caller.served = true → s.started = true
  readings : ∀ ts, s.caller.readings = some ts → s.readings = ts
  measured : ∀ u, s.caller.actual = some u → Measured q s.readings u
  /-- What the caller read stays true: nobody marks any more. -/
  frozen : ∀ started, s.caller.asStarted = some started → started = s.started
  ledger : Ledger q w s

section Proofs

variable {q : Query} {w : World} {s : St}

theorem inv_init (q : Query) (w : World) : Inv q w (init w) := by
  constructor <;> simp [init, Caller.holdsLock, Worker.holdsLock, Caller.denied, Worker.marked, Caller.served,
    Caller.actual, Caller.readings, Caller.asStarted, Caller.beforeSpawn, Ledger]

/-- Everything a worker step can do. -/
theorem workerStep_cases (s : St) (o : Outcome) :
    workerStep s o = s ∨
    (s.worker = .ready ∧ s.lock = none ∧ workerStep s o = { s with lock := some .worker, worker := .check }) ∨
    (s.worker = .check ∧ s.allowed = true ∧ workerStep s o = { s with worker := .mark }) ∨
    (s.worker = .check ∧ workerStep s o = { s with worker := .release false }) ∨
    (s.worker = .mark ∧ workerStep s o = { s with started := true, worker := .release true }) ∨
    (s.worker = .release true ∧ workerStep s o = { s with lock := none, worker := .call }) ∨
    (s.worker = .release false ∧ workerStep s o = { s with lock := none, worker := .finished false }) ∨
    (s.worker = .call ∧ workerStep s o = { s with invoked := s.invoked + 1, worker := .provider }) ∨
    (s.worker = .provider ∧ ∃ returned, workerStep s o = { s with worker := .finished returned }) := by
  unfold workerStep
  cases hw : s.worker with
  | unborn => simp
  | ready => by_cases hl : s.lock = none <;> simp [hl]
  | check => by_cases ha : s.allowed = true <;> simp [ha]
  | mark => simp
  | release permitted => cases permitted <;> simp
  | call => simp
  | provider => simp
  | finished returned => simp

theorem Inv.caller_free (h : Inv q w s) (hw : s.worker.holdsLock = true) : s.caller.holdsLock = false := by
  have h2 := h.workerLock.mpr hw
  cases hc : s.caller.holdsLock with
  | false => rfl
  | true =>
    rw [h.callerLock.mpr hc] at h2
    cases h2

theorem inv_workerStep (h : Inv q w s) (o : Outcome) : Inv q w (workerStep s o) := by
  have hborn : s.worker ≠ .unborn → ∀ k, s.caller.beforeSpawn = true → k = Worker.unborn :=
    fun hw _ hb => absurd (h.unborn hb) hw
  have hlock := h.workerLock
  have hcaller := h.callerLock
  rcases workerStep_cases s o with he | ⟨hw, hl, he⟩ | ⟨hw, ha, he⟩ | ⟨hw, he⟩ | ⟨hw, he⟩ | ⟨hw, he⟩ | ⟨hw, he⟩ |
    ⟨hw, he⟩ | ⟨hw, returned, he⟩ <;> rw [he]
  · exact h
  · exact { h with
      unborn := hborn (by rw [hw]; simp) _, unstarted := by simp
      callerLock := by rw [hl] at hcaller; simpa using hcaller
      workerLock := by simp [Worker.holdsLock], mark := by simp, started := by simp [Worker.marked] }
  · exact { h with
      unborn := hborn (by rw [hw]; simp) _, unstarted := by simp
      workerLock := by rw [hw] at hlock; simpa [Worker.holdsLock] using hlock
      mark := fun _ => ha, started := by simp [Worker.marked] }
  · exact { h with
      unborn := hborn (by rw [hw]; simp) _, unstarted := by simp
      workerLock := by rw [hw] at hlock; simpa [Worker.holdsLock] using hlock
      mark := by simp, started := by simp [Worker.marked] }
  · -- the caller has not denied the call, so it has not read the flag either
    have hallowed : s.caller.denied = false := by simpa [h.allowed] using h.mark hw
    exact { h with
      unborn := hborn (by rw [hw]; simp) _, unstarted := by simp
      workerLock := by rw [hw] at hlock; simpa [Worker.holdsLock] using hlock
      mark := by simp, started := fun _ => rfl, invoked := fun _ => rfl, served := fun _ => rfl
      frozen := by
        intro started hs
        cases hc : s.caller <;> simp_all [Caller.asStarted, Caller.denied] }
  · have hfree := h.caller_free (by rw [hw]; rfl)
    exact { h with
      unborn := hborn (by rw [hw]; simp) _, unstarted := by simp
      callerLock := by simp [hfree]
      workerLock := by simp [Worker.holdsLock], mark := by simp, started := fun _ => h.started (by rw [hw]; rfl) }
  · have hfree := h.caller_free (by rw [hw]; rfl)
    exact { h with
      unborn := hborn (by rw [hw]; simp) _, unstarted := by simp
      callerLock := by simp [hfree]
      workerLock := by simp [Worker.holdsLock], mark := by simp, started := by simp [Worker.marked] }
  · have hstarted := h.started (by rw [hw]; rfl)
    exact { h with
      unborn := hborn (by rw [hw]; simp) _, unstarted := by simp
      workerLock := by rw [hw] at hlock; simpa [Worker.holdsLock] using hlock
      mark := by simp, started := fun _ => hstarted, invoked := fun _ => hstarted }
  · have hstarted := h.started (by rw [hw]; rfl)
    exact { h with
      unborn := hborn (by rw [hw]; simp) _, unstarted := by simp
      workerLock := by rw [hw] at hlock; simpa [Worker.holdsLock] using hlock
      mark := by simp, started := fun _ => hstarted }

/-- A caller that moves outside the lock, with nothing reserved or settled. -/
theorem Inv.move (h : Inv q w s) {c : Caller} {k : Worker} {ts : List Int} (hk : k = s.worker ∨ (s.worker = .unborn ∧ k = .ready))
    (hlock : c.holdsLock = s.caller.holdsLock) (hdenied : c.denied = s.caller.denied) (hread : c.asStarted = none)
    (hborn : c.beforeSpawn = true → k = .unborn) (hserved : c.served = true → s.started = true)
    (hreadings : ∀ us, c.readings = some us → ts = us) (hmeasured : ∀ u, c.actual = some u → Measured q ts u)
    (hledger : Ledger q w { s with caller := c }) : Inv q w { s with caller := c, worker := k, readings := ts } := by
  have hw := h.workerLock
  have hm := h.mark
  have hst := h.started
  refine ⟨by simpa [hlock] using h.callerLock, ?_, hborn, ?_, by simpa [hdenied] using h.allowed, ?_, ?_, h.invoked,
    hserved, hreadings, hmeasured, by simp [hread], hledger⟩
  · rcases hk with rfl | ⟨hu, rfl⟩
    · exact hw
    · rw [hu] at hw; simpa [Worker.holdsLock] using hw
  · rcases hk with rfl | ⟨hu, rfl⟩
    · exact h.unstarted
    · simp
  · rcases hk with rfl | ⟨hu, rfl⟩
    · exact hm
    · simp
  · rcases hk with rfl | ⟨hu, rfl⟩
    · exact hst
    · simp [Worker.marked]

/-- An exception between the reservation and the `finally`. -/
theorem Inv.raise (h : Inv q w s) {k : Worker} (hk : k = s.worker ∨ (s.worker = .unborn ∧ k = .ready))
    (hfree : s.caller.holdsLock = false) (hopen : s.caller.denied = false)
    (hledger : s.world = w.reserved q.budget q.maximumUsage) :
    Inv q w { s with caller := .unwind none, worker := k } :=
  h.move hk (by rw [hfree]; rfl) (by rw [hopen]; rfl) rfl (by simp [Caller.beforeSpawn])
    (by simp [Caller.served]) (by simp [Caller.readings]) (by simp [Caller.actual]) hledger

theorem actualUsage_measured {startedMs finishedMs : Int} {u : BudgetUsage}
    (h : actualUsage q startedMs finishedMs = some u) : Measured q [startedMs, finishedMs] u := by
  simp only [actualUsage] at h
  split at h
  · next he =>
    cases h
    exact ⟨startedMs, finishedMs, rfl, he.1, he.2, rfl⟩
  · cases h

/-- The settlement is accepted, and it is the reservation's only one. -/
theorem settle_ledger (a : Option BudgetUsage) (started : Bool)
    (hfits : ∀ u, a = some u → ∀ d, u.amount d ≤ q.maximumUsage.amount d) :
    let c := (w.reserved q.budget q.maximumUsage).call (settlement q w.heap.reservations.length a started)
    c.1 = .ok () ∧ c.2.heap = settledHeap w.heap q.budget q.maximumUsage
        (if started then a.getD q.maximumUsage else .empty) ∧
      ∃ steps, c.2.steps = w.steps ++ steps ∧ calls steps =
        [(.reserve q.budget (some q.maximumUsage), true), (settlement q w.heap.reservations.length a started, true)] := by
  have hexec : exec (reservedHeap w.heap q.budget q.maximumUsage) (settlement q w.heap.reservations.length a started) =
      (.ok (), settledHeap w.heap q.budget q.maximumUsage (if started then a.getD q.maximumUsage else .empty)) := by
    cases started with
    | false => exact exec_cancel
    | true =>
      refine exec_commit ?_
      cases a with
      | none => exact fun d => Nat.le_refl _
      | some u => exact hfits u rfl
  simp only [World.call, World.reserved, hexec]
  exact ⟨trivial, trivial, _, List.append_assoc _ _ _, rfl⟩

theorem inv_callerStep (h : Inv q w s) (o : Outcome) : Inv q w (callerStep q w.heap.reservations.length s o) := by
  have hledger := h.ledger
  unfold callerStep
  cases hc : s.caller with
  | entry =>
    have hlocked : s.lock ≠ some .caller := by rw [Ne, h.callerLock, hc]; simp [Caller.holdsLock]
    have hopen : s.allowed = true := by simpa [hc, Caller.denied] using h.allowed
    have hworld : s.world = w := by simpa [Ledger, hc] using hledger
    have hunborn := h.unborn (by rw [hc]; rfl)
    cases hr : o.raises with
    | true =>
      refine h.move (.inl rfl) (by rw [hc]; rfl) (by rw [hc]; rfl) rfl (fun _ => hunborn)
        (by simp [Caller.served]) (by simp [Caller.readings]) (by simp [Caller.actual]) ?_
      exact ⟨by rw [hworld], [], by simp [hworld], .inl rfl⟩
    | false =>
      simp only [Bool.false_eq_true, if_false, World.call, hworld]
      rcases exec_reserve (h := w.heap) (b := q.budget) (u := q.maximumUsage) with ⟨⟨e, he⟩, hheap⟩ | hok
      · simp only [he]
        exact ⟨by simpa [Caller.holdsLock] using hlocked, h.workerLock, fun _ => hunborn, h.unstarted, hopen,
          h.mark, h.started, h.invoked, by simp [Caller.served], by simp [Caller.readings], by simp [Caller.actual],
          by simp [Caller.asStarted], hheap, _, rfl, .inr rfl⟩
      · simp only [hok]
        exact ⟨by simpa [Caller.holdsLock] using hlocked, h.workerLock, fun _ => hunborn, h.unstarted, hopen, h.mark,
          h.started, h.invoked, by simp [Caller.served], fun ts hts => h.readings ts (by rw [hc]; exact hts),
          by simp [Caller.actual], by simp [Caller.asStarted], rfl⟩
  | refused => exact h
  | clock =>
    have hworld : s.world = w.reserved q.budget q.maximumUsage := by simpa [Ledger, hc] using hledger
    cases hr : o.raises with
    | true => exact h.raise (.inl rfl) (by rw [hc]; rfl) (by rw [hc]; rfl) hworld
    | false =>
      have hnone := h.readings [] (by rw [hc]; rfl)
      simp only [Bool.false_eq_true, if_false]
      exact h.move (.inl rfl) (by rw [hc]; rfl) (by rw [hc]; rfl) rfl (fun _ => h.unborn (by rw [hc]; rfl))
        (by simp [Caller.served]) (by simp [Caller.readings, hnone]) (by simp [Caller.actual]) hworld
  | spawn t =>
    have hworld : s.world = w.reserved q.budget q.maximumUsage := by simpa [Ledger, hc] using hledger
    have hunborn := h.unborn (by rw [hc]; rfl)
    cases hr : o.raises with
    | true =>
      simp only [if_true]
      refine h.raise ?_ (by rw [hc]; rfl) (by rw [hc]; rfl) hworld
      cases o.begun with
      | true => exact .inr ⟨hunborn, rfl⟩
      | false => exact .inl hunborn.symm
    | false =>
      exact h.move (.inr ⟨hunborn, rfl⟩) (by rw [hc]; rfl) (by rw [hc]; rfl) rfl (by simp [Caller.beforeSpawn])
        (by simp [Caller.served]) (fun ts hts => h.readings ts (by rw [hc]; exact hts)) (by simp [Caller.actual]) hworld
  | wait t =>
    have hworld : s.world = w.reserved q.budget q.maximumUsage := by simpa [Ledger, hc] using hledger
    cases hr : o.raises with
    | true => exact h.raise (.inl rfl) (by rw [hc]; rfl) (by rw [hc]; rfl) hworld
    | false =>
      simp only [Bool.false_eq_true, if_false]
      split
      · next hw =>
        exact h.move (.inl rfl) (by rw [hc]; rfl) (by rw [hc]; rfl) rfl (by simp [Caller.beforeSpawn])
          (fun _ => h.started (by rw [hw]; rfl)) (fun ts hts => h.readings ts (by rw [hc]; exact hts))
          (by simp [Caller.actual]) hworld
      · exact h.raise (.inl rfl) (by rw [hc]; rfl) (by rw [hc]; rfl) hworld
      · exact h
  | validate t =>
    have hworld : s.world = w.reserved q.budget q.maximumUsage := by simpa [Ledger, hc] using hledger
    cases hr : o.raises with
    | true => exact h.raise (.inl rfl) (by rw [hc]; rfl) (by rw [hc]; rfl) hworld
    | false =>
      exact h.move (.inl rfl) (by rw [hc]; rfl) (by rw [hc]; rfl) rfl (by simp [Caller.beforeSpawn])
        (fun _ => h.served (by rw [hc]; rfl)) (fun ts hts => h.readings ts (by rw [hc]; exact hts))
        (by simp [Caller.actual]) hworld
  | finish t =>
    have hworld : s.world = w.reserved q.budget q.maximumUsage := by simpa [Ledger, hc] using hledger
    cases hr : o.raises with
    | true => exact h.raise (.inl rfl) (by rw [hc]; rfl) (by rw [hc]; rfl) hworld
    | false =>
      have hfirst := h.readings [t] (by rw [hc]; rfl)
      simp only [Bool.false_eq_true, if_false]
      exact h.move (.inl rfl) (by rw [hc]; rfl) (by rw [hc]; rfl) rfl (by simp [Caller.beforeSpawn])
        (fun _ => h.served (by rw [hc]; rfl)) (by simp [Caller.readings])
        (fun u hu => by rw [hfirst]; exact actualUsage_measured hu) hworld
  | unwind a =>
    simp only
    split
    · next hl =>
      exact { h with
        callerLock := by simp [Caller.holdsLock]
        workerLock := by have := h.workerLock; rw [hl] at this; simpa using this
        unborn := by simp [Caller.beforeSpawn]
        allowed := by simpa [hc, Caller.denied] using h.allowed
        served := fun hs => h.served (by rw [hc]; exact hs)
        readings := by simp [Caller.readings]
        measured := fun u hu => h.measured u (by rw [hc]; exact hu)
        frozen := by simp [Caller.asStarted]
        ledger := by simpa [Ledger, hc] using hledger }
    · exact h
  | deny a =>
    have hlock := h.callerLock.mpr (by rw [hc]; rfl)
    -- the caller has the lock, so the worker is not between its check and its mark
    have hfree : s.worker.holdsLock = false := by
      cases hw : s.worker.holdsLock with
      | false => rfl
      | true => rw [h.workerLock.mpr hw] at hlock; cases hlock
    exact { h with
      callerLock := by simpa [Caller.holdsLock] using hlock
      unborn := by simp [Caller.beforeSpawn]
      allowed := by simp [Caller.denied]
      mark := fun hw => by rw [hw] at hfree; cases hfree
      served := fun hs => h.served (by rw [hc]; exact hs)
      readings := by simp [Caller.readings]
      measured := fun u hu => h.measured u (by rw [hc]; exact hu)
      frozen := by simp [Caller.asStarted]
      ledger := by simpa [Ledger, hc] using hledger }
  | read a =>
    have hlock := h.callerLock.mpr (by rw [hc]; rfl)
    exact { h with
      callerLock := by simpa [Caller.holdsLock] using hlock
      unborn := by simp [Caller.beforeSpawn]
      allowed := by simpa [hc, Caller.denied] using h.allowed
      served := fun hs => h.served (by rw [hc]; exact hs)
      readings := by simp [Caller.readings]
      measured := fun u hu => h.measured u (by rw [hc]; exact hu)
      frozen := by simp [Caller.asStarted]
      ledger := by simpa [Ledger, hc] using hledger }
  | release a started =>
    have hlock := h.callerLock.mpr (by rw [hc]; rfl)
    exact { h with
      callerLock := by simp [Caller.holdsLock]
      workerLock := by have := h.workerLock; rw [hlock] at this; simpa using this
      unborn := by simp [Caller.beforeSpawn]
      allowed := by simpa [hc, Caller.denied] using h.allowed
      served := fun hs => h.served (by rw [hc]; exact hs)
      readings := by simp [Caller.readings]
      measured := fun u hu => h.measured u (by rw [hc]; exact hu)
      frozen := fun b hb => h.frozen b (by rw [hc]; exact hb)
      ledger := by simpa [Ledger, hc] using hledger }
  | settle a started =>
    have hworld : s.world = w.reserved q.budget q.maximumUsage := by simpa [Ledger, hc] using hledger
    have hsettle := settle_ledger (q := q) (w := w) a started fun u hu => (h.measured u (by rw [hc]; exact hu)).fits
    simp only [hworld]
    exact { h with
      callerLock := by simpa [hc, Caller.holdsLock] using h.callerLock
      unborn := by simp [Caller.beforeSpawn]
      allowed := by simpa [hc, Caller.denied] using h.allowed
      served := fun hs => h.served (by rw [hc]; exact hs)
      readings := by simp [Caller.readings]
      measured := fun u hu => h.measured u (by rw [hc]; exact hu)
      frozen := fun b hb => h.frozen b (by rw [hc]; exact hb)
      ledger := hsettle }
  | ended a started settled => exact h

theorem inv_foldl (events : List (Thread × Outcome)) :
    ∀ {s : St}, Inv q w s → Inv q w (events.foldl (step q w.heap.reservations.length) s) := by
  induction events with
  | nil => exact fun h => h
  | cons e es ih =>
    intro s h
    refine ih ?_
    rcases e with ⟨_ | _, o⟩
    · exact inv_callerStep h o
    · exact inv_workerStep h o

theorem inv_run (q : Query) (w : World) (events : List (Thread × Outcome)) : Inv q w (run q w events) :=
  inv_foldl events (inv_init q w)

end Proofs

/-! ## No uncharged call -/

/-- Nothing more will happen in the caller. -/
def St.over (s : St) : Bool :=
  match s.caller with
  | .refused | .ended _ _ _ => true
  | _ => false

def CanEnd (q : Query) (r : Nat) (s : St) : Prop :=
  ∃ more : List (Thread × Outcome), (more.foldl (step q r) s).over = true

/-- Discovery returned its request plan, having used `u`. -/
def St.succeeded (s : St) (u : BudgetUsage) : Prop := ∃ started, s.caller = .ended (some u) started (.ok ())

/-- The ledger calls since `w`, each with whether it returned. -/
def ledgerCalls (w : World) (s : St) : List (Call × Bool) := calls (s.world.steps.drop w.steps.length)

def settlesReservation (r : Nat) : Call × Bool → Bool
  | (.commit _ (some r') _, true) | (.cancel _ (some r'), true) => r' == r
  | _ => false

section NoUnchargedCall

variable {q : Query} {w : World} {s : St}

theorem over_cons {r : Nat} (e : Thread × Outcome)
    (h : CanEnd q r (step q r s e)) :
    CanEnd q r s := by
  obtain ⟨more, hm⟩ := h
  exact ⟨e :: more, hm⟩

/-- From `finally` on nothing can stop the caller but the lock. -/
theorem over_of_unwind {r : Nat} {a : Option BudgetUsage} (hc : s.caller = .unwind a) (hl : s.lock = none) :
    CanEnd q r s := by
  let e : Thread × Outcome := (.caller, ⟨false, 0, false⟩)
  exact ⟨[e, e, e, e, e], by simp [e, step, callerStep, hc, hl, St.over]⟩

theorem Inv.lock_free (h : Inv q w s) (hc : s.caller.holdsLock = false) (hw : s.worker.holdsLock = false) :
    s.lock = none := by
  cases hl : s.lock with
  | none => rfl
  | some t =>
    cases t with
    | caller => rw [h.callerLock.mp hl] at hc; cases hc
    | worker => rw [h.workerLock.mp hl] at hw; cases hw

/-- Once the worker is out of the lock the caller can always end: what it is at may raise. -/
theorem over_of_worker_free (h : Inv q w s) (hw : s.worker.holdsLock = false) :
    CanEnd q w.heap.reservations.length s := by
  let e : Thread × Outcome := (.caller, ⟨true, 0, false⟩)
  cases hc : s.caller with
  | entry => exact ⟨[e], by simp [e, step, callerStep, hc, St.over]⟩
  | refused => exact ⟨[], by simp [hc, St.over]⟩
  | clock | spawn _ | wait _ | validate _ | finish _ =>
    have hl := h.lock_free (by rw [hc]; rfl) hw
    refine over_cons e (over_of_unwind (a := none) ?_ ?_)
    · simp [e, step, callerStep, hc]
    · simpa [e, step, callerStep, hc] using hl
  | unwind a => exact over_of_unwind hc (h.lock_free (by rw [hc]; rfl) hw)
  | deny a => exact ⟨[e, e, e, e], by simp [e, step, callerStep, hc, St.over]⟩
  | read a => exact ⟨[e, e, e], by simp [e, step, callerStep, hc, St.over]⟩
  | release a b => exact ⟨[e, e], by simp [e, step, callerStep, hc, St.over]⟩
  | settle a b => exact ⟨[e], by simp [e, step, callerStep, hc, St.over]⟩
  | ended a b c => exact ⟨[], by simp [hc, St.over]⟩

/-- No deadlock: from every reached state the call can end. -/
theorem Inv.can_end (h : Inv q w s) : CanEnd q w.heap.reservations.length s := by
  let e : Thread × Outcome := (.worker, ⟨false, 0, false⟩)
  -- a worker in the lock is at most three steps from its release
  have hrelease : ∀ {s : St} {p : Bool}, Inv q w s → s.worker = .release p →
      CanEnd q w.heap.reservations.length s := by
    intro s p h hw
    refine over_cons e (over_of_worker_free (inv_workerStep h ⟨false, 0, false⟩) ?_)
    cases p <;> simp [e, step, workerStep, hw, Worker.holdsLock]
  have hmark : ∀ {s : St}, Inv q w s → s.worker = .mark →
      CanEnd q w.heap.reservations.length s := by
    intro s h hw
    exact over_cons e (hrelease (p := true) (inv_workerStep h ⟨false, 0, false⟩) (by simp [e, step, workerStep, hw]))
  cases hw : s.worker with
  | check =>
    refine over_cons e ?_
    cases ha : s.allowed with
    | true => exact hmark (inv_workerStep h ⟨false, 0, false⟩) (by simp [e, step, workerStep, hw, ha])
    | false => exact hrelease (p := false) (inv_workerStep h ⟨false, 0, false⟩) (by simp [e, step, workerStep, hw, ha])
  | mark => exact hmark h hw
  | release p => exact hrelease h hw
  | unborn | ready | call | provider | finished _ => exact over_of_worker_free h (by rw [hw]; rfl)

theorem run_append (q : Query) (w : World) (events more : List (Thread × Outcome)) :
    run q w (events ++ more) = more.foldl (step q w.heap.reservations.length) (run q w events) :=
  List.foldl_append

/-- A caller that has ended stays as it ended. -/
theorem ended_step {r : Nat} {e : Thread × Outcome} {a : Option BudgetUsage} {b : Bool} {c : Except Raised Unit}
    (hc : s.caller = .ended a b c) : (step q r s e).caller = .ended a b c := by
  rcases e with ⟨_ | _, o⟩
  · simp [step, callerStep, hc]
  · show (workerStep s o).caller = .ended a b c
    unfold workerStep
    split <;> first | exact hc | (split <;> exact hc)

theorem ended_foldl {r : Nat} {a : Option BudgetUsage} {b : Bool} {c : Except Raised Unit}
    (more : List (Thread × Outcome)) : ∀ {s : St}, s.caller = .ended a b c →
      (more.foldl (step q r) s).caller = .ended a b c := by
  induction more with
  | nil => exact fun h => h
  | cons e es ih => exact fun h => ih (ended_step h)

theorem ledgerCalls_append {steps : List Step} (h : s.world.steps = w.steps ++ steps) :
    ledgerCalls w s = calls steps := by
  rw [ledgerCalls, h, List.drop_left]

/-- The ledger calls of a run that has not settled: at most the reservation. -/
theorem Inv.unsettled (h : Inv q w s) (hc : ∀ a b c, s.caller ≠ .ended a b c) :
    ∀ c ∈ ledgerCalls w s, ∃ ok, c = (.reserve q.budget (some q.maximumUsage), ok) := by
  have hl := h.ledger
  have hnone : s.world = w → ledgerCalls w s = [] := by
    intro he
    rw [ledgerCalls, he, List.drop_length]
    rfl
  have hone : s.world = w.reserved q.budget q.maximumUsage →
      ledgerCalls w s = [(.reserve q.budget (some q.maximumUsage), true)] := fun he =>
    ledgerCalls_append (by rw [he]; rfl)
  cases hs : s.caller with
  | ended a b c => exact absurd hs (hc a b c)
  | entry => simp only [Ledger, hs] at hl; simp [hnone hl]
  | refused =>
    simp only [Ledger, hs] at hl
    obtain ⟨-, steps, hsteps, hcalls⟩ := hl
    rw [ledgerCalls_append hsteps]
    rcases hcalls with rfl | hcalls
    · simp [calls]
    · simp [hcalls]
  | clock | spawn _ | wait _ | validate _ | finish _ | unwind _ | deny _ | read _ | release _ _ | settle _ _ =>
    simp only [Ledger, hs] at hl; simp [hone hl]

theorem Inv.settled {a : Option BudgetUsage} {b : Bool} {c : Except Raised Unit} (h : Inv q w s)
    (hc : s.caller = .ended a b c) :
    c = .ok () ∧ b = s.started ∧ ledgerCalls w s = [(.reserve q.budget (some q.maximumUsage), true),
      (settlement q w.heap.reservations.length a s.started, true)] := by
  have hb : b = s.started := h.frozen b (by rw [hc]; rfl)
  have hl := h.ledger
  simp only [Ledger, hc] at hl
  obtain ⟨hok, -, steps, hsteps, hcalls⟩ := hl
  rw [ledgerCalls_append hsteps, hcalls, hb]
  exact ⟨hok, rfl, rfl⟩

theorem Inv.refused_log (h : Inv q w s) (hc : s.caller = .refused) :
    (.reserve q.budget (some q.maximumUsage), true) ∉ ledgerCalls w s := by
  have hl := h.ledger
  simp only [Ledger, hc] at hl
  obtain ⟨-, steps, hsteps, hcalls⟩ := hl
  rw [ledgerCalls_append hsteps]
  rcases hcalls with rfl | hcalls
  · simp [calls]
  · simp [hcalls]

end NoUnchargedCall

/-- The reservation `r` of a discovery over every interleaving of caller and worker. -/
theorem no_uncharged_call (q : Query) (w : World) (events : List (Thread × Outcome)) :
    let s := run q w events
    let r := w.heap.reservations.length
    let log := ledgerCalls w s
    -- a provider that was called is paid for when the caller returns
    (0 < s.invoked → s.over = true → ∃ u, (.commit q.budget (some r) (some u), true) ∈ log) ∧
    -- it is not called after, nor was it before, a cancellation
    (∀ b, (.cancel b (some r), true) ∈ log → ∀ more, (run q w (events ++ more)).invoked = 0) ∧
    -- the reservation is settled once, by the time the caller returns and not before
    (log.filter (settlesReservation r)).length =
      (if (.reserve q.budget (some q.maximumUsage), true) ∈ log ∧ s.over = true then 1 else 0) ∧
    -- and charged for what was used if discovery succeeded: the query's tokens and one call
    -- for one microunit in the time that the clock tells
    (∀ u, s.succeeded u → Measured q s.readings u ∧ (.commit q.budget (some r) (some u), true) ∈ log) ∧
    -- else for the maximum
    (∀ b u, (.commit b (some r) (some u), true) ∈ log → s.succeeded u ∨
      u = ⟨q.queryTokens, 1, 1, 5000⟩ ∧ ∀ u', ¬ s.succeeded u') ∧
    -- and the caller can always return
    (∃ more, (run q w (events ++ more)).over = true) := by
  intro s r log
  have hinv : Inv q w s := inv_run q w events
  have hend : ∃ more, (run q w (events ++ more)).over = true := by
    obtain ⟨more, hm⟩ := hinv.can_end
    exact ⟨more, by rw [run_append]; exact hm⟩
  by_cases hc : ∃ a b c, s.caller = .ended a b c
  · obtain ⟨a, b, c, hc⟩ := hc
    obtain ⟨rfl, hb, hlog⟩ := hinv.settled hc
    have hlog : log = [(.reserve q.budget (some q.maximumUsage), true), (settlement q r a s.started, true)] := hlog
    have hover : s.over = true := by simp [St.over, hc]
    have hsucceeded : ∀ u, s.succeeded u ↔ a = some u := by simp [St.succeeded, hc]
    rw [hlog]
    refine ⟨fun hi _ => ?_, fun b' hcancel more => ?_, ?_, fun u hu => ?_, fun b' u hcommit => ?_, hend⟩
    · simp [settlement, hinv.invoked hi]
    · -- the flag the caller read is the flag for good
      have hstarted : s.started = false := by
        cases hs : s.started with
        | false => rfl
        | true => simp [settlement, hs] at hcancel
      have hlater : Inv q w (run q w (events ++ more)) := inv_run q w _
      have hsame := (hlater.settled (a := a) (b := b) (c := .ok ()) (by rw [run_append]; exact ended_foldl more hc)).2.1
      rw [hb, hstarted] at hsame
      refine Nat.eq_zero_of_not_pos fun hpos => ?_
      rw [hlater.invoked hpos] at hsame
      cases hsame
    · cases hs : s.started <;> simp [settlement, settlesReservation, hover]
    · have hstarted : s.started = true := hinv.served (by rw [hc, (hsucceeded u).mp hu]; rfl)
      refine ⟨hinv.measured u (by rw [hc, (hsucceeded u).mp hu]; rfl), ?_⟩
      simp [settlement, hstarted, (hsucceeded u).mp hu]
    · cases hs : s.started with
      | false => simp [settlement, hs] at hcommit
      | true =>
        cases a with
        | none => right; simp_all [settlement, Query.maximumUsage, QUERY_EMBEDDING_MAXIMUM_USAGE]
        | some v => left; simp_all [settlement]
  · have hunsettled := hinv.unsettled fun a b c he => hc ⟨a, b, c, he⟩
    have hnone : ∀ c, settlesReservation r c = true → c ∉ log := by
      intro c hs hmem
      obtain ⟨ok, rfl⟩ := hunsettled c hmem
      simp [settlesReservation] at hs
    have hrefused : s.over = true → s.caller = .refused := by
      intro hover
      cases hs : s.caller <;> simp_all [St.over]
    refine ⟨fun hi hover => ?_, fun b hcancel => absurd hcancel (hnone _ (by simp [settlesReservation])), ?_, ?_, ?_, hend⟩
    · -- the caller was refused, so there is no worker
      have := hinv.unstarted (hinv.unborn (by rw [hrefused hover]; rfl))
      rw [hinv.invoked hi] at this
      cases this
    · have hfilter : log.filter (settlesReservation r) = [] := by
        rw [List.filter_eq_nil_iff]
        exact fun c hmem hs => hnone c hs hmem
      rw [hfilter, if_neg]
      · rfl
      · exact fun h => hinv.refused_log (hrefused h.2) h.1
    · intro u hu
      obtain ⟨b, hu⟩ := hu
      exact absurd ⟨_, _, _, hu⟩ hc
    · intro b u hcommit
      exact absurd hcommit (hnone _ (by simp [settlesReservation]))

/-- A provider that answers at once: three tokens in seven milliseconds. -/
example :
    let budget : PackageBudget := ⟨10, 10, 10, 10000, by decide, by decide, by decide, by decide⟩
    let w : World := ⟨⟨fun _ => ⟨budget, .empty, .empty, none⟩, []⟩, []⟩
    let caller (clock : Int) : Thread × Outcome := (.caller, ⟨false, clock, false⟩)
    let worker : Thread × Outcome := (.worker, ⟨false, 0, false⟩)
    let s := run ⟨0, 3⟩ w ([caller 0, caller 100, caller 0] ++ List.replicate 6 worker ++
      [caller 0, caller 0, caller 107] ++ List.replicate 5 (caller 0))
    s.caller = .ended (some ⟨3, 1, 1, 7⟩) true (.ok ()) ∧ s.invoked = 1 := ⟨rfl, rfl⟩

end ContextEngine.Adapters.VectorDiscovery
