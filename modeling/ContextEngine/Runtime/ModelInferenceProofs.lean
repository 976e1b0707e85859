/-
  ContextEngine.Runtime.ModelInferenceProofs — a model hop settles its reservation exactly
  once (see `ContextEngine.Runtime.ModelInference`).

  Proved, for every request, grant, egress binding and meter, and every behaviour of what
  the hop calls:
  - `execute_settles`: the reserved amount is as before and the usage grew by the receipt's.
    A hop that returns reserved the maximum, redeemed its grant, called the gateway and
    committed what that took; one that was not redeemed sent nothing and cancelled; one
    that failed afterwards committed the maximum; one whose observer raised committed what
    it took. No commit is ever refused.
-/

import ContextEngine.Runtime.ModelInference

namespace ContextEngine.Runtime.ModelInference

open ContextEngine.Python Checks Budget

/-! ## The charge is within the maximum -/

/-- `u` is one call with so many tokens in and out in so many milliseconds, at the rates of
    a profile. -/
structure ChargedFor (p : ModelInferenceProfile) (input output elapsedMs : Int) (u : BudgetUsage) : Prop where
  tokens : (u.tokens : Int) = input + output
  providerCalls : u.providerCalls = 1
  cost : (u.costMicrounits : Int) = input * p.inputTokenCostMicrounits + output * p.outputTokenCostMicrounits
  elapsed : (u.elapsedMs : Int) = elapsedMs

/-- The maximum of a request: all the output and all the time that its profile allows. -/
def MaximumCharge (meter : PackageBudgetMeter) (q : RequestFields) (maximum : BudgetUsage) : Prop :=
  ∃ input : Nat, meter.countTokens q.payload = .ok input ∧
    ChargedFor q.profile input q.profile.maximumOutputTokens q.profile.maximumElapsedMs maximum

/-- The actual charge of a request that was answered `raw` between two readings of the clock. -/
def ActualCharge (meter : PackageBudgetMeter) (q : RequestFields) (raw : List UInt8) (startedMs finishedMs : Int)
    (actual : BudgetUsage) : Prop :=
  ∃ input output : Nat, meter.countTokens q.payload = .ok input ∧ meter.countTokens raw = .ok output ∧
    ChargedFor q.profile input output (finishedMs - startedMs) actual

theorem chargedFor_ofInts {p : ModelInferenceProfile} {input output elapsedMs : Int} {u : BudgetUsage}
    (h : BudgetUsage.ofInts (input + output) 1
      (input * p.inputTokenCostMicrounits + output * p.outputTokenCostMicrounits) elapsedMs = .ok u) :
    ChargedFor p input output elapsedMs u := by
  unfold BudgetUsage.ofInts at h
  split at h
  · cases h
  split at h
  · cases h
  split at h
  · cases h
  split at h
  · cases h
  cases h
  exact ⟨Int.toNat_of_nonneg (by omega), rfl, Int.toNat_of_nonneg (by omega), Int.toNat_of_nonneg (by omega)⟩

theorem orRaised_ok {α : Type} {x : Except Raised α} {a : α} (h : orRaised x = .ok a) : x = .ok a := by
  cases x with
  | error e => cases h
  | ok b => cases h; rfl

section Charges

variable {α : Type} {libs : Libraries} {port : ModelInferencePort α} {meter : PackageBudgetMeter}
  {grant : Option ModelEgressGrant} {egress : Option ModelInferenceEgressBinding} {s : RequestSnapshot} {a : Admission}

/-- What an admitted hop counts and reserves. -/
theorem admission_ok (h : admission libs port meter grant egress s = .ok a) :
    meter.countTokens s.payload = .ok a.inputTokens ∧
      ChargedFor s.profile a.inputTokens s.profile.maximumOutputTokens s.profile.maximumElapsedMs a.maximum := by
  unfold admission at h
  obtain ⟨_, -, h⟩ := bind_ok h
  obtain ⟨e, -, h⟩ := bind_ok h
  obtain ⟨_, -, h⟩ := bind_ok h
  cases grant with
  | none => cases h
  | some grant =>
    obtain ⟨_, -, h⟩ := bind_ok h
    obtain ⟨_, -, h⟩ := bind_ok h
    obtain ⟨inputTokens, hcount, h⟩ := bind_ok h
    split at h
    · cases h
    obtain ⟨maximum, hm, h⟩ := bind_ok h
    cases h
    exact ⟨orRaised_ok hcount, chargedFor_ofInts (orRaised_ok hm)⟩

/-- What a measured answer is charged, and that it passed the parser and the checks. -/
theorem measure_ok {inputTokens : Nat} {startedMs finishedMs : Int} {raw : List UInt8} {parsed : α} {actual : BudgetUsage}
    (h : measure port meter s inputTokens startedMs raw finishedMs = .ok (parsed, actual)) :
    finishedMs - startedMs ≤ s.profile.timeoutMs ∧ port.parseOutput raw s = .ok parsed ∧
      ∃ output : Nat, meter.countTokens raw = .ok output ∧ (output : Int) ≤ s.profile.maximumOutputTokens ∧
        ChargedFor s.profile inputTokens output (finishedMs - startedMs) actual := by
  unfold measure at h
  obtain ⟨_, helapsed, h⟩ := bind_ok h
  obtain ⟨outputTokens, hcount, h⟩ := bind_ok h
  obtain ⟨_, htokens, h⟩ := bind_ok h
  obtain ⟨_, hparsed, h⟩ := bind_ok h
  obtain ⟨u, hu, h⟩ := bind_ok h
  cases h
  have helapsed : 0 ≤ finishedMs - startedMs ∧ finishedMs - startedMs ≤ s.profile.timeoutMs := by
    simpa using ensure_ok helapsed
  have htokens : (outputTokens : Int) ≤ s.profile.maximumOutputTokens := by simpa using ensure_ok htokens
  exact ⟨helapsed.2, hparsed, outputTokens, hcount, htokens, chargedFor_ofInts hu⟩

/-- A measured charge fits the maximum that was reserved for it. -/
theorem actual_le_maximum {inputTokens : Nat} {output elapsedMs : Int} {actual maximum : BudgetUsage}
    (hv : validateProfileFields libs s.profile = .ok ())
    (hmax : ChargedFor s.profile inputTokens s.profile.maximumOutputTokens s.profile.maximumElapsedMs maximum)
    (hact : ChargedFor s.profile inputTokens output elapsedMs actual) (htokens : output ≤ s.profile.maximumOutputTokens)
    (helapsed : elapsedMs ≤ s.profile.timeoutMs) : ∀ d, actual.amount d ≤ maximum.amount d := by
  obtain ⟨-, -, -, -, htimeout, -, hrate⟩ := bounds_of_validate libs hv
  obtain ⟨hmt, hmc, hmcost, hme⟩ := hmax
  obtain ⟨hut, huc, hucost, hue⟩ := hact
  have hcost := Int.mul_le_mul_of_nonneg_right htokens hrate
  intro d
  cases d <;> simp only [BudgetUsage.amount] <;> omega

end Charges

/-! ## What every exit owes -/

def Effect.ledger? : Effect → Option (Call × Bool)
  | .ledger c returned => some (c, returned)
  | _ => none

/-- The calls on meters, each with whether it returned. -/
def ledgerCalls (effects : List Effect) : List (Call × Bool) := effects.filterMap Effect.ledger?

section Accounts

variable {α : Type} (port : ModelInferencePort α)

/-- The call ended as the port says it ends. -/
def Effect.Answered : Effect → Prop
  | .ledger _ _ => True
  | .clock reading => reading = port.startedMs ∨ reading = port.finishedMs
  | .redeem redemption answer => answer = port.redeem redemption
  | .gateway payload timeoutMs outcome => outcome = port.gateway payload timeoutMs
  | .observe receipt answer => answer = port.traceObserver receipt

variable (meter : PackageBudgetMeter) (request : Option InferenceRequest) (b r : Nat)

/-- The calls of a hop whose answer was accepted, up to the report of its success: the
    maximum is reserved, the grant redeemed, the request's payload answered, and what that
    took is committed. -/
def Served (parsed : α) (receipt : ModelInferenceTraceReceipt) (effects : List Effect) : Prop :=
  ∃ q s maximum redemption raw startedMs finishedMs, request.map (·.fields) = some q ∧
    s.profile = q.profile ∧ s.payload = q.payload ∧ port.parseOutput raw s = .ok parsed ∧
    MaximumCharge meter q maximum ∧ ActualCharge meter q raw startedMs finishedMs receipt.budgetUsage ∧
    (∀ d, receipt.budgetUsage.amount d ≤ maximum.amount d) ∧
    effects = [.ledger (.reserve b (some maximum)) true, .clock (.ok startedMs), .redeem redemption (.ok true),
      .gateway q.payload q.profile.timeoutMs (.bytes raw), .clock (.ok finishedMs),
      .ledger (.commit b (some r) (some receipt.budgetUsage)) true, .observe receipt (port.traceObserver receipt)]

/-- What a hop on a meter `b`, whose reservation would be `r`, owes for how it ended and for
    the calls it made. -/
structure Accounted (exit : Exit α) (effects : List Effect) : Prop where
  /-- A hop that returns was served. -/
  returned : ∀ parsed receipt, exit = .returned parsed receipt →
    Served port meter request b r parsed receipt effects
  /-- Without a redemption nothing is sent or charged, and what was reserved is cancelled. -/
  unredeemed : (∀ redemption, .redeem redemption (.ok true) ∉ effects) →
    exit.budgetUsage = .empty ∧ (∀ payload timeoutMs outcome, .gateway payload timeoutMs outcome ∉ effects) ∧
    (ledgerCalls effects = [] ∨ ∃ u, ledgerCalls effects = [(.reserve b (some u), false)] ∨
      ledgerCalls effects = [(.reserve b (some u), true), (.cancel b (some r), true)])
  /-- A redeemed hop that has no success to report is charged the maximum. -/
  failed : ∀ redemption, .redeem redemption (.ok true) ∈ effects →
    (∀ receipt answer, .observe receipt answer ∈ effects → receipt.outcomeCategory ≠ .succeeded) →
    ∃ q receipt, request.map (·.fields) = some q ∧ exit = .unavailable receipt ∧
      MaximumCharge meter q receipt.budgetUsage ∧ ledgerCalls effects =
        [(.reserve b (some receipt.budgetUsage), true), (.commit b (some r) (some receipt.budgetUsage), true)]
  /-- A success is reported after it was served; when the observer raises, the hop fails with
      the same charge. -/
  reported : ∀ receipt answer, .observe receipt answer ∈ effects → receipt.outcomeCategory = .succeeded →
    ∃ parsed served rest, effects = served ++ rest ∧ Served port meter request b r parsed receipt served ∧
      ledgerCalls rest = [] ∧ (answer = .ok () → exit = .returned parsed receipt) ∧
      (∀ e, answer = .error e → ∃ receipt', exit = .unavailable receipt' ∧ receipt'.budgetUsage = receipt.budgetUsage)
  /-- A commit is never refused. -/
  accepted : ∀ m res u, .ledger (.commit m res u) false ∉ effects
  answered : ∀ e ∈ effects, e.Answered port

/-- The ledger after a hop: one meter charged with the receipt's usage, and every other
    meter, the reserved amounts and every earlier reservation as they were. -/
structure Settles (w : HopState) (out : Exit α × HopState) : Prop where
  reserved : (out.2.heap.meters b).reserved = (w.heap.meters b).reserved
  usage : (out.2.heap.meters b).usage = .sum (w.heap.meters b).usage out.1.budgetUsage
  others : ∀ n ≠ b, out.2.heap.meters n = w.heap.meters n
  settled : ∀ res ∈ out.2.heap.reservations, res ∈ w.heap.reservations ∨ res.active = false
  accounted : ∃ effects, out.2.effects = w.effects ++ effects ∧
    Accounted port (w.heap.meters b) request b w.heap.reservations.length out.1 effects

end Accounts

/-! ## Every exit settles -/

section Exits

variable {α : Type} {libs : Libraries} {port : ModelInferencePort α} {request : Option InferenceRequest} {b r : Nat}
  {meter : PackageBudgetMeter} {w : HopState}

@[simp] theorem ledgerCalls_nil : ledgerCalls [] = [] := rfl

theorem ledgerCalls_cons (e : Effect) (effects : List Effect) :
    ledgerCalls (e :: effects) = e.ledger?.toList ++ ledgerCalls effects := by
  cases e <;> rfl

theorem ledgerCalls_append (effects effects' : List Effect) :
    ledgerCalls (effects ++ effects') = ledgerCalls effects ++ ledgerCalls effects' := List.filterMap_append

/-- Calls that reach no meter and redeem nothing. -/
def Idle (port : ModelInferencePort α) : Effect → Prop
  | .clock reading => reading = port.startedMs ∨ reading = port.finishedMs
  | .redeem redemption answer => answer = port.redeem redemption ∧ answer ≠ .ok true
  | .observe receipt answer => answer = port.traceObserver receipt ∧ receipt.outcomeCategory = .unavailable
  | _ => False

/-- As `Idle`, but the gateway may be called. -/
def Trying (port : ModelInferencePort α) (e : Effect) : Prop :=
  Idle port e ∨ ∃ payload timeoutMs, e = .gateway payload timeoutMs (port.gateway payload timeoutMs)

theorem ledgerCalls_trying {effects : List Effect} (h : ∀ e ∈ effects, Trying port e) : ledgerCalls effects = [] := by
  refine List.filterMap_eq_nil_iff.mpr fun e he => ?_
  rcases h e he with hidle | ⟨payload, timeoutMs, rfl⟩
  · cases e with
    | ledger c ok => cases hidle
    | _ => rfl
  · rfl

theorem trying_answered {e : Effect} (h : Trying port e) : e.Answered port := by
  rcases h with hidle | ⟨payload, timeoutMs, rfl⟩
  · cases e with
    | clock reading => exact hidle
    | redeem redemption answer => exact hidle.1
    | observe receipt answer => exact hidle.1
    | ledger _ _ | gateway _ _ _ => cases hidle
  · rfl

theorem not_trying_ledger {c : Call} {ok : Bool} : ¬ Trying port (.ledger c ok) := by
  rintro (hidle | ⟨payload, timeoutMs, h⟩)
  · exact hidle
  · cases h

theorem not_trying_redeemed {redemption : EgressGrantRedemption} : ¬ Trying port (.redeem redemption (.ok true)) := by
  rintro (hidle | ⟨payload, timeoutMs, h⟩)
  · exact hidle.2 rfl
  · cases h

theorem trying_observe {receipt : ModelInferenceTraceReceipt} {answer : Except Raised Unit}
    (h : Trying port (.observe receipt answer)) : receipt.outcomeCategory ≠ .succeeded := by
  rcases h with hidle | ⟨payload, timeoutMs, h⟩
  · rw [hidle.2]
    decide
  · cases h

/-- The report of a failure: the receipt is attached, whatever the observer makes of it. -/
def reportOf (port : ModelInferencePort α) (context : TraceContext) (usage : BudgetUsage) : Effect :=
  .observe ⟨context, .unavailable, none, usage⟩ (port.traceObserver ⟨context, .unavailable, none, usage⟩)

theorem emitUnavailable_eq (context : TraceContext) (usage : BudgetUsage) :
    emitUnavailable port context usage w =
      (.unavailable ⟨context, .unavailable, none, usage⟩, w.log (reportOf port context usage)) := rfl

theorem idle_report (context : TraceContext) (usage : BudgetUsage) : ∀ e ∈ [reportOf port context usage], Idle port e := by
  intro e he
  rw [List.mem_singleton.mp he]
  exact ⟨rfl, rfl⟩

/-- A hop that was never redeemed: `asked` comes before the cancellation, `tail` after it. -/
theorem accounted_unredeemed {exit : Exit α} {start asked settle tail : List Effect} (hexit : exit.budgetUsage = .empty)
    (hreturned : ∀ parsed receipt, exit ≠ .returned parsed receipt) (hasked : ∀ e ∈ asked, Idle port e)
    (htail : ∀ e ∈ tail, Idle port e)
    (hledger : (start = [] ∧ settle = []) ∨ ∃ u, (start = [.ledger (.reserve b (some u)) false] ∧ settle = []) ∨
      (start = [.ledger (.reserve b (some u)) true] ∧ settle = [.ledger (.cancel b (some r)) true])) :
    Accounted port meter request b r exit (start ++ asked ++ settle ++ tail) := by
  have hcalls : ledgerCalls (start ++ asked ++ settle ++ tail) = ledgerCalls start ++ ledgerCalls settle := by
    rw [ledgerCalls_append, ledgerCalls_append, ledgerCalls_append, ledgerCalls_trying fun e he => .inl (hasked e he),
      ledgerCalls_trying fun e he => .inl (htail e he), List.append_nil, List.append_nil]
  have hmem : ∀ e ∈ start ++ asked ++ settle ++ tail, Idle port e ∨ ∃ c ok, e = .ledger c ok ∧
      ∀ m res u, c = .commit m res u → ok = true := by
    intro e he
    simp only [List.mem_append] at he
    rcases he with ((he | he) | he) | he
    · rcases hledger with ⟨rfl, -⟩ | ⟨u, ⟨rfl, -⟩ | ⟨rfl, -⟩⟩
      · cases he
      · exact .inr ⟨_, _, List.mem_singleton.mp he, fun _ _ _ h => by cases h⟩
      · exact .inr ⟨_, _, List.mem_singleton.mp he, fun _ _ _ h => by cases h⟩
    · exact .inl (hasked e he)
    · rcases hledger with ⟨-, rfl⟩ | ⟨u, ⟨-, rfl⟩ | ⟨-, rfl⟩⟩
      · cases he
      · cases he
      · exact .inr ⟨_, _, List.mem_singleton.mp he, fun _ _ _ h => by cases h⟩
    · exact .inl (htail e he)
  constructor
  · exact fun parsed receipt h => absurd h (hreturned parsed receipt)
  · intro _
    refine ⟨hexit, fun payload timeoutMs outcome he => ?_, ?_⟩
    · rcases hmem _ he with hidle | ⟨_, _, h, -⟩
      · exact hidle
      · cases h
    · rw [hcalls]
      rcases hledger with ⟨rfl, rfl⟩ | ⟨u, ⟨rfl, rfl⟩ | ⟨rfl, rfl⟩⟩
      · exact .inl rfl
      · exact .inr ⟨u, .inl rfl⟩
      · exact .inr ⟨u, .inr rfl⟩
  · intro redemption he
    rcases hmem _ he with hidle | ⟨_, _, h, -⟩
    · exact absurd rfl hidle.2
    · cases h
  · intro receipt answer he hsucceeded
    rcases hmem _ he with hidle | ⟨_, _, h, -⟩
    · rw [hidle.2] at hsucceeded
      cases hsucceeded
    · cases h
  · intro m res u he
    rcases hmem _ he with hidle | ⟨c, ok, h, hok⟩
    · exact hidle
    · obtain ⟨rfl, rfl⟩ := Effect.ledger.inj h
      exact Bool.noConfusion (hok m res u rfl)
  · intro e he
    rcases hmem e he with hidle | ⟨_, _, rfl, -⟩
    · exact trying_answered (.inl hidle)
    · trivial

/-- A redeemed hop that failed: `tried` comes before the commit of the maximum. -/
theorem accounted_failed {q : RequestFields} {redemption : EgressGrantRedemption} {startedMs : Int}
    {receipt : ModelInferenceTraceReceipt} {tried tail : List Effect} (hq : request.map (·.fields) = some q)
    (hmax : MaximumCharge meter q receipt.budgetUsage) (hclock : port.startedMs = .ok startedMs)
    (hredeem : port.redeem redemption = .ok true) (htried : ∀ e ∈ tried, Trying port e)
    (htail : ∀ e ∈ tail, Idle port e) :
    Accounted port meter request b r (.unavailable receipt)
      ([.ledger (.reserve b (some receipt.budgetUsage)) true, .clock (.ok startedMs), .redeem redemption (.ok true)] ++
        tried ++ [.ledger (.commit b (some r) (some receipt.budgetUsage)) true] ++ tail) := by
  have htail' : ∀ e ∈ tail, Trying port e := fun e he => .inl (htail e he)
  constructor
  · exact fun parsed receipt h => nomatch h
  · exact fun h => absurd (by simp) (h redemption)
  · intro _ _ _
    refine ⟨q, receipt, hq, rfl, hmax, ?_⟩
    simp [ledgerCalls_append, ledgerCalls_cons, ledgerCalls_trying htried, ledgerCalls_trying htail', Effect.ledger?]
  · intro receipt' answer he hsucceeded
    simp only [List.cons_append, List.nil_append, List.append_assoc, List.mem_append, List.mem_cons, reduceCtorEq,
      false_or] at he
    rcases he with he | he
    · exact absurd hsucceeded (trying_observe (htried _ he))
    · exact absurd hsucceeded (trying_observe (htail' _ he))
  · intro m res u he
    simp only [List.cons_append, List.nil_append, List.append_assoc, List.mem_append, List.mem_cons, reduceCtorEq,
      Effect.ledger.injEq, Bool.false_eq_true, and_false, false_or] at he
    rcases he with he | he
    · exact not_trying_ledger (htried _ he)
    · exact not_trying_ledger (htail' _ he)
  · intro e he
    simp only [List.cons_append, List.nil_append, List.append_assoc, List.mem_append, List.mem_cons] at he
    rcases he with rfl | rfl | rfl | he | rfl | he
    · trivial
    · exact .inl hclock.symm
    · exact hredeem.symm
    · exact trying_answered (htried e he)
    · trivial
    · exact trying_answered (htail' e he)

/-- A served hop: `tail` is what follows the report of its success. -/
theorem accounted_served {parsed : α} {receipt : ModelInferenceTraceReceipt} {exit : Exit α} {served tail : List Effect}
    (hserved : Served port meter request b r parsed receipt served) (hsucceeded : receipt.outcomeCategory = .succeeded)
    (hanswered : ∀ e ∈ served, e.Answered port) (htail : ∀ e ∈ tail, Idle port e)
    (hreturned : port.traceObserver receipt = .ok () → exit = .returned parsed receipt ∧ tail = [])
    (hraised : ∀ e, port.traceObserver receipt = .error e →
      ∃ receipt', exit = .unavailable receipt' ∧ receipt'.budgetUsage = receipt.budgetUsage) :
    Accounted port meter request b r exit (served ++ tail) := by
  have htail' : ∀ e ∈ tail, Trying port e := fun e he => .inl (htail e he)
  obtain ⟨q, s, maximum, redemption, raw, startedMs, finishedMs, -, -, -, -, -, -, -, heffects⟩ := id hserved
  have hobserve : ∀ receipt' answer, .observe receipt' answer ∈ served ++ tail → receipt'.outcomeCategory = .succeeded →
      receipt' = receipt ∧ answer = port.traceObserver receipt := by
    intro receipt' answer he hs
    rcases List.mem_append.mp he with he | he
    · rw [heffects] at he
      simpa using he
    · exact absurd hs (trying_observe (htail' _ he))
  constructor
  · intro parsed' receipt' hexit
    cases hobserver : port.traceObserver receipt with
    | ok _ =>
      obtain ⟨hexit', rfl⟩ := hreturned hobserver
      rw [hexit'] at hexit
      cases hexit
      rw [List.append_nil]
      exact hserved
    | error e =>
      obtain ⟨_, hexit', -⟩ := hraised e hobserver
      rw [hexit'] at hexit
      cases hexit
  · exact fun h => absurd (List.mem_append_left _ (by rw [heffects]; simp)) (h redemption)
  · intro _ _ hno
    exact absurd hsucceeded (hno receipt (port.traceObserver receipt) (List.mem_append_left _ (by rw [heffects]; simp)))
  · intro receipt' answer he hs
    obtain ⟨rfl, rfl⟩ := hobserve receipt' answer he hs
    exact ⟨parsed, served, tail, rfl, hserved, ledgerCalls_trying htail', fun h => (hreturned h).1, hraised⟩
  · intro m res u he
    rcases List.mem_append.mp he with he | he
    · rw [heffects] at he
      simp at he
    · exact not_trying_ledger (htail' _ he)
  · intro e he
    rcases List.mem_append.mp he with he | he
    · exact hanswered e he
    · exact trying_answered (htail' e he)

/-- Nothing was reserved. -/
theorem settles_unreserved {out : Exit α × HopState} (hheap : out.2.heap = w.heap) (hexit : out.1.budgetUsage = .empty)
    {effects : List Effect} (heffects : out.2.effects = w.effects ++ effects)
    (haccount : Accounted port (w.heap.meters b) request b w.heap.reservations.length out.1 effects) :
    Settles port request b w out where
  reserved := by rw [hheap]
  usage := by rw [hexit, hheap, BudgetUsage.sum_empty]
  others := fun n _ => by rw [hheap]
  settled := fun res hr => .inl (by rwa [hheap] at hr)
  accounted := ⟨effects, heffects, haccount⟩

/-- A reservation was made and settled for the receipt's usage. -/
theorem settles_of_settledHeap {out : Exit α × HopState} {u : BudgetUsage}
    (hheap : out.2.heap = settledHeap w.heap b u out.1.budgetUsage) {effects : List Effect}
    (heffects : out.2.effects = w.effects ++ effects)
    (haccount : Accounted port (w.heap.meters b) request b w.heap.reservations.length out.1 effects) :
    Settles port request b w out where
  reserved := by rw [hheap]; simp [settledHeap]
  usage := by rw [hheap]; simp [settledHeap]
  others := fun n hn => by rw [hheap]; simp [settledHeap, hn]
  settled := by
    intro res hr
    rw [hheap] at hr
    simp only [settledHeap, List.mem_append, List.mem_singleton] at hr
    rcases hr with hr | rfl
    · exact .inl hr
    · exact .inr rfl
  accounted := ⟨effects, heffects, haccount⟩

/-- A refusal before the reservation carries no usage and calls at most the observer. -/
theorem refuse_settles (context : TraceContext) (refusal : Refusal) {w' : HopState} (hheap : w'.heap = w.heap)
    {start : List Effect} (heffects : w'.effects = w.effects ++ start)
    (hstart : start = [] ∨ ∃ u, start = [.ledger (.reserve b (some u)) false]) :
    Settles port request b w (refuse port context refusal w') := by
  have hledger : (start = [] ∧ ([] : List Effect) = []) ∨ ∃ u, (start = [.ledger (.reserve b (some u)) false] ∧ ([] : List Effect) = []) ∨
      (start = [.ledger (.reserve b (some u)) true] ∧
        [] = [Effect.ledger (.cancel b (some w.heap.reservations.length)) true]) := by
    rcases hstart with rfl | ⟨u, rfl⟩
    · exact .inl ⟨rfl, rfl⟩
    · exact .inr ⟨u, .inl ⟨rfl, rfl⟩⟩
  have hemit : Settles port request b w (emitUnavailable port context .empty w') := by
    have haccount : Accounted port (w.heap.meters b) request b w.heap.reservations.length
        (.unavailable ⟨context, .unavailable, none, .empty⟩) (start ++ [] ++ [] ++ [reportOf port context .empty]) :=
      accounted_unredeemed rfl (fun _ _ h => nomatch h) (by simp) (idle_report context .empty) hledger
    refine settles_unreserved hheap rfl ?_ haccount
    simp only [emitUnavailable_eq, HopState.log_effects, heffects, List.append_assoc, List.append_nil]
  have hraised : ∀ e, Settles port request b w ((.raised e : Exit α), w') := by
    intro e
    have haccount : Accounted port (w.heap.meters b) request b w.heap.reservations.length (.raised e : Exit α)
        (start ++ [] ++ [] ++ []) :=
      accounted_unredeemed rfl (fun _ _ h => nomatch h) (by simp) (by simp) hledger
    refine settles_unreserved hheap rfl ?_ haccount
    simp only [heffects, List.append_nil]
  cases refusal with
  | unavailable => exact hemit
  | raised e =>
    cases e with
    | packageBudgetExceeded | tokenizerUnavailable _ | typeError _ | valueError _ => exact hemit
    | _ => exact hraised _

/-- The state of a hop that reserved `u` and has made the calls `effects` since. -/
def Holding (w : HopState) (b : Nat) (u : BudgetUsage) (effects : List Effect) (w' : HopState) : Prop :=
  w'.heap = reservedHeap w.heap b u ∧ w'.effects = w.effects ++ (.ledger (.reserve b (some u)) true :: effects)

theorem Holding.log {u : BudgetUsage} {effects : List Effect} {w' : HopState} (h : Holding w b u effects w') (e : Effect) :
    Holding w b u (effects ++ [e]) (w'.log e) :=
  ⟨h.1, by rw [HopState.log_effects, h.2, List.append_assoc, List.cons_append]⟩

/-- A commit within what is held returns. -/
theorem Holding.commit {u actual : BudgetUsage} {effects : List Effect} {w' : HopState} (h : Holding w b u effects w')
    (hle : ∀ d, actual.amount d ≤ u.amount d) :
    w'.call (.commit b (some w.heap.reservations.length) (some actual)) = (.ok (), ⟨settledHeap w.heap b u actual,
      w'.effects ++ [.ledger (.commit b (some w.heap.reservations.length) (some actual)) true]⟩) := by
  simp only [HopState.call, h.1, exec_commit hle]
  rfl

theorem settleCancelled_settles (context : TraceContext) {u : BudgetUsage} {asked : List Effect} {w' : HopState}
    (h : Holding w b u asked w') (hasked : ∀ e ∈ asked, Idle port e) :
    Settles port request b w (settleCancelled port context b w.heap.reservations.length w') := by
  have haccount : Accounted port (w.heap.meters b) request b w.heap.reservations.length
      (.unavailable ⟨context, .unavailable, none, .empty⟩) ([.ledger (.reserve b (some u)) true] ++ asked ++
        [.ledger (.cancel b (some w.heap.reservations.length)) true] ++ [reportOf port context .empty]) :=
    accounted_unredeemed rfl (fun _ _ h => nomatch h) hasked (idle_report context .empty) (.inr ⟨u, .inr ⟨rfl, rfl⟩⟩)
  simp only [settleCancelled, HopState.call, h.1, exec_cancel, emitUnavailable_eq]
  refine settles_of_settledHeap (u := u) rfl ?_ haccount
  simp only [HopState.log_effects, h.2, List.append_assoc, List.cons_append, List.nil_append]
  rfl

theorem settleMaximum_settles (context : TraceContext) {q : RequestFields} {u : BudgetUsage}
    {redemption : EgressGrantRedemption} {startedMs : Int} {tried : List Effect} {w' : HopState}
    (hq : request.map (·.fields) = some q) (hmax : MaximumCharge (w.heap.meters b) q u)
    (hclock : port.startedMs = .ok startedMs) (hredeem : port.redeem redemption = .ok true)
    (h : Holding w b u ([.clock (.ok startedMs), .redeem redemption (.ok true)] ++ tried) w')
    (htried : ∀ e ∈ tried, Trying port e) :
    Settles port request b w (settleMaximum port context b w.heap.reservations.length u w') := by
  have hcommit := h.commit fun d => Nat.le_refl (u.amount d)
  have haccount : Accounted port (w.heap.meters b) request b w.heap.reservations.length
      (.unavailable ⟨context, .unavailable, none, u⟩)
      ([.ledger (.reserve b (some u)) true, .clock (.ok startedMs), .redeem redemption (.ok true)] ++ tried ++
        [.ledger (.commit b (some w.heap.reservations.length) (some u)) true] ++ [reportOf port context u]) :=
    accounted_failed hq hmax hclock hredeem htried (idle_report context u)
  simp only [settleMaximum, hcommit, emitUnavailable_eq]
  refine settles_of_settledHeap (u := u) rfl ?_ haccount
  simp only [HopState.log_effects, h.2, List.append_assoc, List.cons_append, List.nil_append]

/-- The gateway region fails after some of its calls, or it is charged and has made both. -/
theorem attempt_cases (meter : PackageBudgetMeter) (s : RequestSnapshot) (inputTokens : Nat) (startedMs : Int)
    {u : BudgetUsage} {effects : List Effect} {w' : HopState} (h : Holding w b u effects w') :
    (∃ e tried, (attempt port meter s inputTokens startedMs w').1 = .error e ∧ (∀ e ∈ tried, Trying port e) ∧
      Holding w b u (effects ++ tried) (attempt port meter s inputTokens startedMs w').2) ∨
    ∃ raw finishedMs parsed actual, port.gateway s.payload s.profile.timeoutMs = .bytes raw ∧ port.finishedMs = .ok finishedMs ∧
      measure port meter s inputTokens startedMs raw finishedMs = .ok (parsed, actual) ∧
      (attempt port meter s inputTokens startedMs w').1 = .ok (raw, parsed, actual) ∧
      Holding w b u (effects ++ [.gateway s.payload s.profile.timeoutMs (.bytes raw), .clock (.ok finishedMs)])
        (attempt port meter s inputTokens startedMs w').2 := by
  have hgateway := h.log (.gateway s.payload s.profile.timeoutMs (port.gateway s.payload s.profile.timeoutMs))
  have htrying : Trying port (.gateway s.payload s.profile.timeoutMs (port.gateway s.payload s.profile.timeoutMs)) :=
    .inr ⟨_, _, rfl⟩
  unfold attempt callGatewayBounded
  cases houtcome : port.gateway s.payload s.profile.timeoutMs with
  | nonBytes | raised | timeout =>
    rw [houtcome] at hgateway htrying
    exact .inl ⟨_, [_], rfl, by simpa using htrying, hgateway⟩
  | bytes raw =>
    rw [houtcome] at hgateway htrying
    have hboth := hgateway.log (.clock port.finishedMs)
    rw [List.append_assoc] at hboth
    have htried : ∀ e ∈ [Effect.gateway s.payload s.profile.timeoutMs (.bytes raw), .clock port.finishedMs], Trying port e := by
      intro e he
      simp only [List.mem_cons, List.not_mem_nil, or_false] at he
      rcases he with rfl | rfl
      · exact htrying
      · exact .inl (.inr rfl)
    simp only [readClock]
    rcases hfinished : port.finishedMs with e | finishedMs
    · rw [hfinished] at hboth htried
      exact .inl ⟨e, _, rfl, htried, hboth⟩
    · rw [hfinished] at hboth htried
      dsimp only
      rcases hmeasure : measure port meter s inputTokens startedMs raw finishedMs with e | ⟨parsed, actual⟩
      · exact .inl ⟨e, _, rfl, htried, hboth⟩
      · exact .inr ⟨raw, finishedMs, parsed, actual, rfl, rfl, hmeasure, rfl, hboth⟩

/-- After redemption: a failure charges the maximum, and a charge that was computed is
    accepted, because it fits. -/
theorem complete_settles {context : TraceContext} {q : RequestFields} {s : RequestSnapshot} {a : Admission} {startedMs : Int}
    {grant : Option ModelEgressGrant} {egress : Option ModelInferenceEgressBinding} {w' : HopState}
    (hq : request.map (·.fields) = some q) (hprofile : s.profile = q.profile) (hpayload : s.payload = q.payload)
    (hv : validateProfileFields libs s.profile = .ok ())
    (ha : admission libs port (w.heap.meters b) grant egress s = .ok a) (hclock : port.startedMs = .ok startedMs)
    (hredeem : port.redeem a.redemption = .ok true)
    (h : Holding w b a.maximum [.clock (.ok startedMs), .redeem a.redemption (.ok true)] w') :
    Settles port request b w (complete libs port context s a b w.heap.reservations.length startedMs w') := by
  obtain ⟨hinput, hcharged⟩ := admission_ok ha
  have hmax : MaximumCharge (w.heap.meters b) q a.maximum :=
    ⟨a.inputTokens, by rw [← hpayload]; exact hinput, by rw [← hprofile]; exact hcharged⟩
  -- reserving does not change the tokenizer, so both counts are the meter's
  have hcount : ∀ value, (w'.heap.meters b).countTokens value = (w.heap.meters b).countTokens value := by
    intro value
    simp [h.1, PackageBudgetMeter.countTokens, reservedHeap]
  unfold complete
  rcases attempt_cases (w'.heap.meters b) s a.inputTokens startedMs h with ⟨e, tried, herror, htried, hheld⟩ |
    ⟨raw, finishedMs, parsed, actual, hgateway, hfinished, hmeasure, hok, hheld⟩
  · rcases hattempt : attempt port (w'.heap.meters b) s a.inputTokens startedMs w' with ⟨result, w''⟩
    rw [hattempt] at herror hheld
    dsimp only at herror hheld
    subst herror
    exact settleMaximum_settles context hq hmax hclock hredeem hheld htried
  rcases hattempt : attempt port (w'.heap.meters b) s a.inputTokens startedMs w' with ⟨result, w''⟩
  rw [hattempt] at hok hheld
  dsimp only at hok hheld
  subst hok
  obtain ⟨helapsed, hparsed, output, houtput, htokens, hactual⟩ := measure_ok hmeasure
  have hle := actual_le_maximum hv hcharged hactual htokens helapsed
  simp only [hheld.commit hle, observeTrace]
  have hserved : ∀ receipt : ModelInferenceTraceReceipt, receipt.budgetUsage = actual →
      Served port (w.heap.meters b) request b w.heap.reservations.length parsed receipt
        [.ledger (.reserve b (some a.maximum)) true, .clock (.ok startedMs), .redeem a.redemption (.ok true),
          .gateway q.payload q.profile.timeoutMs (.bytes raw), .clock (.ok finishedMs),
          .ledger (.commit b (some w.heap.reservations.length) (some actual)) true,
          .observe receipt (port.traceObserver receipt)] := by
    rintro receipt rfl
    refine ⟨q, s, a.maximum, a.redemption, raw, startedMs, finishedMs, hq, hprofile, hpayload, hparsed, hmax, ?_, hle, rfl⟩
    exact ⟨a.inputTokens, output, by rw [← hpayload]; exact hinput, by rw [← hcount]; exact houtput,
      by rw [← hprofile]; exact hactual⟩
  have hanswered : ∀ receipt : ModelInferenceTraceReceipt, ∀ e ∈
      [Effect.ledger (.reserve b (some a.maximum)) true, .clock (.ok startedMs), .redeem a.redemption (.ok true),
        .gateway q.payload q.profile.timeoutMs (.bytes raw), .clock (.ok finishedMs),
        .ledger (.commit b (some w.heap.reservations.length) (some actual)) true,
        .observe receipt (port.traceObserver receipt)], e.Answered port := by
    intro receipt e he
    simp only [List.mem_cons, List.not_mem_nil, or_false] at he
    rcases he with rfl | rfl | rfl | rfl | rfl | rfl | rfl
    · trivial
    · exact .inl hclock.symm
    · exact hredeem.symm
    · rw [hprofile, hpayload] at hgateway
      exact hgateway.symm
    · exact .inr hfinished.symm
    · trivial
    · rfl
  rw [hprofile, hpayload] at hheld
  obtain ⟨receipt, hreceipt⟩ : ∃ receipt : ModelInferenceTraceReceipt, receipt = ⟨context, .succeeded,
    some (libs.lib.sha256 (outputDigestDomain ++ raw)).hexdigest, actual⟩ := ⟨_, rfl⟩
  rw [← hreceipt]
  have husage : receipt.budgetUsage = actual := by rw [hreceipt]
  have hsucceeded : receipt.outcomeCategory = .succeeded := by rw [hreceipt]
  split
  · next e w₃ hobserver =>
    obtain ⟨hraised, rfl⟩ := Prod.mk.inj hobserver
    refine settles_of_settledHeap (u := a.maximum) rfl ?_ (accounted_served (hserved _ husage) hsucceeded (hanswered _)
      (idle_report context actual) (fun hok => ?_) fun _ _ => ⟨_, rfl, husage.symm⟩)
    · simp only [emitUnavailable_eq, HopState.log_effects, hheld.2, List.append_assoc, List.cons_append, List.nil_append]
    · rw [hraised] at hok
      cases hok
  · next w₃ hobserver =>
    obtain ⟨hok, rfl⟩ := Prod.mk.inj hobserver
    have htail : ∀ e ∈ ([] : List Effect), Idle port e := fun e he => absurd he List.not_mem_nil
    refine settles_of_settledHeap (u := a.maximum) (by rw [Exit.budgetUsage, husage]; rfl) ?_ (accounted_served
      (hserved _ husage) hsucceeded (hanswered _) htail (fun _ => ⟨rfl, rfl⟩) fun e hraised => ?_)
    · simp only [HopState.log_effects, hheld.2, List.append_assoc, List.cons_append, List.nil_append, List.append_nil]
    · rw [hok] at hraised
      cases hraised

theorem redeemAndComplete_settles {context : TraceContext} {q : RequestFields} {s : RequestSnapshot} {a : Admission}
    {grant : Option ModelEgressGrant} {egress : Option ModelInferenceEgressBinding} {w' : HopState}
    (hq : request.map (·.fields) = some q) (hprofile : s.profile = q.profile) (hpayload : s.payload = q.payload)
    (hv : validateProfileFields libs s.profile = .ok ())
    (ha : admission libs port (w.heap.meters b) grant egress s = .ok a) (h : Holding w b a.maximum [] w') :
    Settles port request b w (redeemAndComplete libs port context s a b w.heap.reservations.length w') := by
  have hclocked := h.log (.clock port.startedMs)
  have hredeemed := hclocked.log (.redeem a.redemption (port.redeem a.redemption))
  unfold redeemAndComplete
  simp only [readClock]
  rcases hclock : port.startedMs with e | startedMs
  · rw [hclock] at hclocked
    exact settleCancelled_settles context hclocked (by simp [Idle, hclock])
  rw [hclock] at hredeemed
  simp only [redeemGrant]
  rcases hredeem : port.redeem a.redemption with e | accepted
  · rw [hredeem] at hredeemed
    exact settleCancelled_settles context hredeemed (by simp [Idle, hclock, hredeem])
  rw [hredeem] at hredeemed
  cases accepted with
  | false => exact settleCancelled_settles context hredeemed (by simp [Idle, hclock, hredeem])
  | true => exact complete_settles hq hprofile hpayload hv ha hclock hredeem hredeemed

/-- A prepared hop is about its request's profile and payload, and was admitted on the meter. -/
theorem prepare_ok {request : InferenceRequest} {grant : Option ModelEgressGrant}
    {egress : Option ModelInferenceEgressBinding} {fallback context : TraceContext} {s : RequestSnapshot}
    {a : Admission} (h : prepare libs port meter request grant egress fallback = (context, .ok (s, a))) :
    s.profile = request.fields.profile ∧ s.payload = request.fields.payload ∧
      validateProfileFields libs s.profile = .ok () ∧ admission libs port meter grant egress s = .ok a := by
  unfold prepare at h
  split at h
  · cases h
  next profile hp =>
  split at h
  · cases h
  next s' hs =>
  split at h
  · cases h
  rcases hadmission : admission libs port meter grant egress s' with e | a'
  · simp [hadmission, Except.map] at h
  · simp only [hadmission, Except.map, Prod.mk.injEq, Except.ok.injEq] at h
    obtain ⟨-, rfl, rfl⟩ := h
    obtain ⟨hprofile, hpayload, -⟩ := snapshot_ok libs hs
    obtain ⟨rfl, hv⟩ := snapshotProfile_ok libs hp
    exact ⟨hprofile, hpayload, by rw [hprofile]; exact hv, hadmission⟩

end Exits

/-- A model hop settles exactly once, on every path. -/
theorem execute_settles {α : Type} (libs : Libraries) (port : ModelInferencePort α)
    (request : Option InferenceRequest) (grant : Option ModelEgressGrant)
    (egress : Option ModelInferenceEgressBinding) (b : Nat) (w : HopState) :
    Settles port request b w (execute libs port request grant egress (some b) w) := by
  have hraised : ∀ e, Settles port request b w ((.raised e : Exit α), w) := by
    intro e
    have haccount : Accounted port (w.heap.meters b) request b w.heap.reservations.length (.raised e : Exit α)
        ([] ++ [] ++ [] ++ []) :=
      accounted_unredeemed rfl (fun _ _ h => nomatch h) (by simp) (by simp) (.inl ⟨rfl, rfl⟩)
    exact settles_unreserved rfl rfl (List.append_nil _).symm haccount
  cases request with
  | none => exact hraised _
  | some request =>
    unfold execute
    rcases hfallback : fallbackTraceContext libs request with e | fallback
    · simp only [hfallback]
      exact hraised e
    rcases hprepare : prepare libs port (w.heap.meters b) request grant egress fallback with ⟨context, refusal | ⟨s, a⟩⟩
    · simp only [hfallback, hprepare]
      exact refuse_settles context refusal rfl (List.append_nil _).symm (.inl rfl)
    obtain ⟨hprofile, hpayload, hv, ha⟩ := prepare_ok hprepare
    simp only [hfallback, hprepare, HopState.call]
    rcases exec_reserve (h := w.heap) (b := b) (u := a.maximum) with ⟨⟨e, he⟩, hheap⟩ | hok
    · simp only [he]
      exact refuse_settles context _ hheap rfl (.inr ⟨a.maximum, rfl⟩)
    · simp only [hok]
      exact redeemAndComplete_settles rfl hprofile hpayload hv ha ⟨rfl, rfl⟩

/-! ## A hop that returns -/

namespace HopInstance

def zeros : String := String.ofList (List.replicate 64 '0')

theorem length_zeros : (List.replicate 32 (0 : UInt8)).length = 32 := rfl

def libs : Libraries := ⟨⟨fun _ => ⟨List.replicate 32 0, length_zeros⟩, fun _ => ""⟩, fun _ => .ok [], id⟩

def profile : ModelInferenceProfile :=
  ⟨"rewrite", 1, .rewrite, ⟨"rewrite", "none", "low", "issuer", "consumer", "provider", "model", "region", 1⟩,
    MODEL_INFERENCE_TOKENIZER_PROFILE, zeros, 10, 10, 1, 1, 1, 100, 50, 40, ⟨1, []⟩, 1, 2, zeros⟩

/-- Answers one octet after four milliseconds. -/
def port : ModelInferencePort Unit :=
  ⟨[((.rewrite, "rewrite", 1), profile)], .ok 5, fun _ => .ok true, fun _ _ => .bytes [0x61], .ok 9, fun _ _ => .ok (),
    fun _ => .ok ()⟩

def meter : PackageBudgetMeter :=
  ⟨⟨100, 1, 100, 50, by decide, by decide, by decide, by decide⟩, .empty, .empty,
    some ⟨MODEL_INFERENCE_TOKENIZER_PROFILE, zeros, 1⟩⟩

def binding : ModelInferenceEgressBinding := ⟨.ofNat 7, zeros, "answer", zeros, 1, 1⟩

/-- An empty payload and one token of output, at two microunits. -/
example : ∃ receipt, (execute libs port (some (.rewrite ⟨profile, "query", zeros, []⟩)) (some ⟨"egrm_" ++ zeros⟩)
    (some binding) (some 0) ⟨⟨fun _ => meter, []⟩, []⟩).1 = .returned () receipt ∧ receipt.budgetUsage = ⟨1, 1, 2, 4⟩ :=
  ⟨_, rfl, rfl⟩

end HopInstance

end ContextEngine.Runtime.ModelInference
