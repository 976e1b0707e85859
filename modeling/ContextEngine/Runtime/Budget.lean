/-
  ContextEngine.Runtime.Budget — the PackageBudget ledger (`engine/runtime/budget.py`).

  A `PackageBudgetMeter` is shared by every stage of one resolve. A stage reserves a
  maximum before it spends anything, and settles the reservation once: a commit charges
  the actual usage, a cancel charges nothing. Meters and reservations are mutable
  objects; here they live in a `Heap` and are named by their index, so a call may pass
  any reservation to any meter. Each call runs under the meter's lock; what it reads
  outside the lock (`reservation.meter`, `reservation.maximum`) never changes, so one
  call is one step and a concurrent history is a list of calls.

  Proved, over every list of calls from freshly constructed meters:
  - `ledger_balanced`: in each dimension a meter's reserved amount is the sum of the
    maxima of its active reservations, its usage is the initial usage plus the charges
    committed, and the two together stay within the budget; `_subtract` never raises, a
    call that raises changes nothing, and a reservation is settled at most once.
-/

import ContextEngine.Python.Str
import ContextEngine.Runtime.Checks

namespace ContextEngine.Runtime.Budget

open ContextEngine.Python ContextEngine.Runtime.Checks

/-! ## Budgets and usages -/

inductive Dimension where
  | tokens
  | providerCalls
  | costMicrounits
  | elapsedMs
  deriving DecidableEq, Repr

/-- A finite ceiling; every dimension is a positive exact integer. -/
structure PackageBudget where
  maxTokens : Nat
  maxProviderCalls : Nat
  maxCostMicrounits : Nat
  maxElapsedMs : Nat
  tokens_pos : 0 < maxTokens
  calls_pos : 0 < maxProviderCalls
  cost_pos : 0 < maxCostMicrounits
  elapsed_pos : 0 < maxElapsedMs
  deriving DecidableEq, Repr

def PackageBudget.max (b : PackageBudget) : Dimension → Nat
  | .tokens => b.maxTokens
  | .providerCalls => b.maxProviderCalls
  | .costMicrounits => b.maxCostMicrounits
  | .elapsedMs => b.maxElapsedMs

/-- Caller ceilings; at least one is given and every given one is positive. -/
structure PackageBudgetRequest where
  maxTokens : Option Nat
  maxProviderCalls : Option Nat
  maxCostMicrounits : Option Nat
  maxElapsedMs : Option Nat
  given : [maxTokens, maxProviderCalls, maxCostMicrounits, maxElapsedMs].any Option.isSome = true
  positive : ∀ n, some n ∈ [maxTokens, maxProviderCalls, maxCostMicrounits, maxElapsedMs] → 0 < n

/-- `narrowed`. -/
def narrowed (serverValue : Nat) (requestedValue : Option Nat) : Nat := requestedValue.elim serverValue (min serverValue)

theorem narrowed_pos {serverValue : Nat} {requestedValue : Option Nat} (hs : 0 < serverValue)
    (hr : ∀ n, requestedValue = some n → 0 < n) : 0 < narrowed serverValue requestedValue := by
  cases requestedValue with
  | none => exact hs
  | some n => exact Nat.lt_min.mpr ⟨hs, hr n rfl⟩

/-- `effective_package_budget`. -/
def effectivePackageBudget (server : PackageBudget) : Option PackageBudgetRequest → PackageBudget
  | none => server
  | some r => {
      maxTokens := narrowed server.maxTokens r.maxTokens
      maxProviderCalls := narrowed server.maxProviderCalls r.maxProviderCalls
      maxCostMicrounits := narrowed server.maxCostMicrounits r.maxCostMicrounits
      maxElapsedMs := narrowed server.maxElapsedMs r.maxElapsedMs
      tokens_pos := narrowed_pos server.tokens_pos fun n h => r.positive n (by simp [h])
      calls_pos := narrowed_pos server.calls_pos fun n h => r.positive n (by simp [h])
      cost_pos := narrowed_pos server.cost_pos fun n h => r.positive n (by simp [h])
      elapsed_pos := narrowed_pos server.elapsed_pos fun n h => r.positive n (by simp [h]) }

/-- Exact resources consumed; every dimension is a non-negative exact integer. -/
structure BudgetUsage where
  tokens : Nat
  providerCalls : Nat
  costMicrounits : Nat
  elapsedMs : Nat
  deriving DecidableEq, Repr

namespace BudgetUsage

def amount (u : BudgetUsage) : Dimension → Nat
  | .tokens => u.tokens
  | .providerCalls => u.providerCalls
  | .costMicrounits => u.costMicrounits
  | .elapsedMs => u.elapsedMs

def empty : BudgetUsage := ⟨0, 0, 0, 0⟩

@[simp] theorem amount_empty (d : Dimension) : empty.amount d = 0 := by cases d <;> rfl

/-- `BudgetUsage(...)` on arbitrary integers: the constructor's own check. -/
def ofInts (tokens providerCalls costMicrounits elapsedMs : Int) : Except Raised BudgetUsage :=
  if tokens < 0 then .error (.valueError "tokens must be a non-negative exact integer")
  else if providerCalls < 0 then .error (.valueError "provider_calls must be a non-negative exact integer")
  else if costMicrounits < 0 then .error (.valueError "cost_microunits must be a non-negative exact integer")
  else if elapsedMs < 0 then .error (.valueError "elapsed_ms must be a non-negative exact integer")
  else .ok ⟨tokens.toNat, providerCalls.toNat, costMicrounits.toNat, elapsedMs.toNat⟩

/-- `_sum`; a sum of non-negative amounts passes the constructor's check. -/
def sum (left right : BudgetUsage) : BudgetUsage :=
  ⟨left.tokens + right.tokens, left.providerCalls + right.providerCalls,
    left.costMicrounits + right.costMicrounits, left.elapsedMs + right.elapsedMs⟩

/-- `_subtract`; a negative difference is refused by the constructor. -/
def subtract (left right : BudgetUsage) : Except Raised BudgetUsage :=
  ofInts (left.tokens - right.tokens) (left.providerCalls - right.providerCalls)
    (left.costMicrounits - right.costMicrounits) (left.elapsedMs - right.elapsedMs)

@[simp] theorem amount_sum (u v : BudgetUsage) (d : Dimension) : (sum u v).amount d = u.amount d + v.amount d := by
  cases d <;> rfl

theorem ext_amount {u v : BudgetUsage} (h : ∀ d, u.amount d = v.amount d) : u = v := by
  cases u; cases v
  have h1 := h .tokens
  have h2 := h .providerCalls
  have h3 := h .costMicrounits
  have h4 := h .elapsedMs
  simp only [amount] at h1 h2 h3 h4
  simp [h1, h2, h3, h4]

/-- `_subtract` succeeds exactly on a usage that covers what is taken. -/
theorem subtract_ok {u v w : BudgetUsage} (h : ∀ d, u.amount d = v.amount d + w.amount d) :
    subtract u v = .ok w := by
  have h1 := h .tokens
  have h2 := h .providerCalls
  have h3 := h .costMicrounits
  have h4 := h .elapsedMs
  simp only [amount] at h1 h2 h3 h4
  simp only [subtract, ofInts]
  rw [if_neg (by omega), if_neg (by omega), if_neg (by omega), if_neg (by omega)]
  congr 1
  apply ext_amount
  intro d
  cases d <;> simp only [amount] <;> omega

theorem sum_empty (u : BudgetUsage) : sum u .empty = u := ext_amount fun d => by simp

theorem subtract_sum (u v : BudgetUsage) : subtract (sum u v) v = .ok u :=
  subtract_ok fun d => by rw [amount_sum]; omega

/-- The charge check of `_commit`: some field of `actual` exceeds `maximum`. -/
def exceeds (actual maximum : BudgetUsage) : Bool :=
  decide (maximum.tokens < actual.tokens) || decide (maximum.providerCalls < actual.providerCalls) ||
    decide (maximum.costMicrounits < actual.costMicrounits) || decide (maximum.elapsedMs < actual.elapsedMs)

theorem exceeds_eq_false {actual maximum : BudgetUsage} :
    exceeds actual maximum = false ↔ ∀ d, actual.amount d ≤ maximum.amount d := by
  simp only [exceeds, Bool.or_eq_false_iff, decide_eq_false_iff_not, Nat.not_lt]
  constructor
  · rintro ⟨⟨⟨h1, h2⟩, h3⟩, h4⟩ d
    cases d <;> assumption
  · intro h
    exact ⟨⟨⟨h .tokens, h .providerCalls⟩, h .costMicrounits⟩, h .elapsedMs⟩

end BudgetUsage

/-! ## Meters -/

/-- The Release tokenizer a meter is bound to; historical v0 meters have none. -/
structure TokenizerBinding where
  tokenizerRef : String
  tokenizerProfileDigest : String
  releaseGeneration : Nat
  deriving DecidableEq, Repr

structure PackageBudgetMeter where
  budget : PackageBudget
  usage : BudgetUsage
  reserved : BudgetUsage
  tokenizer : Option TokenizerBinding
  deriving DecidableEq, Repr

/-- `_fits`. -/
def fits (budget : PackageBudget) (usage : BudgetUsage) : Bool :=
  decide (usage.tokens ≤ budget.maxTokens) && decide (usage.providerCalls ≤ budget.maxProviderCalls) &&
    decide (usage.costMicrounits ≤ budget.maxCostMicrounits) && decide (usage.elapsedMs ≤ budget.maxElapsedMs)

theorem fits_iff {budget : PackageBudget} {usage : BudgetUsage} :
    fits budget usage = true ↔ ∀ d, usage.amount d ≤ budget.max d := by
  simp only [fits, Bool.and_eq_true, decide_eq_true_eq]
  constructor
  · rintro ⟨⟨⟨h1, h2⟩, h3⟩, h4⟩ d
    cases d <;> assumption
  · intro h
    exact ⟨⟨⟨h .tokens, h .providerCalls⟩, h .costMicrounits⟩, h .elapsedMs⟩

/-- `PackageBudgetMeter.__init__`. -/
def construct (budget : PackageBudget) (initialUsage : BudgetUsage) (tokenizer : Option TokenizerBinding) :
    Except Raised PackageBudgetMeter :=
  if fits budget initialUsage then .ok ⟨budget, initialUsage, .empty, tokenizer⟩
  else .error (.valueError "initial usage exceeds PackageBudget")

/-- `require_tokenizer`: refuse a mixed carrier identity or Release generation. -/
def PackageBudgetMeter.requireTokenizer (m : PackageBudgetMeter) (tokenizerRef tokenizerProfileDigest : String)
    (releaseGeneration : Int) : Except Raised Unit :=
  match m.tokenizer with
  | some t =>
    if tokenizerRef = t.tokenizerRef ∧ tokenizerProfileDigest = t.tokenizerProfileDigest ∧
        releaseGeneration = t.releaseGeneration then .ok ()
    else .error (.tokenizerUnavailable "PackageBudgetMeter tokenizer identity changed")
  | none => .error (.tokenizerUnavailable "PackageBudgetMeter tokenizer identity changed")

/-- `count_tokens` of a byte string: its Unicode scalars, or none on a historical meter. -/
def PackageBudgetMeter.countTokens (m : PackageBudgetMeter) (value : List UInt8) : Except Raised Nat :=
  match m.tokenizer with
  | none => .ok 0
  | some _ =>
    match decode value with
    | none => .error (.tokenizerUnavailable "Tokenizer input is not UTF-8")
    | some chars => .ok chars.length

/-- `count_tokens` of a string. -/
def PackageBudgetMeter.countText (m : PackageBudgetMeter) (value : Str) : Except Raised Nat :=
  match m.tokenizer with
  | none => .ok 0
  | some _ =>
    if value.any Str.isSurrogate then .error (.tokenizerUnavailable "Tokenizer input is not Unicode scalar text")
    else .ok value.length

structure PackageBudgetReservation where
  /-- The meter that made it. -/
  meter : Nat
  maximum : BudgetUsage
  active : Bool
  deriving DecidableEq, Repr

/-- Every meter and every reservation object; an object is named by its index. -/
structure Heap where
  meters : Nat → PackageBudgetMeter
  reservations : List PackageBudgetReservation

namespace Heap

def setMeter (h : Heap) (self : Nat) (m : PackageBudgetMeter) : Heap :=
  { h with meters := fun n => if n = self then m else h.meters n }

def deactivate (h : Heap) (r : Nat) : Heap :=
  { h with reservations := h.reservations.modify r fun res => { res with active := false } }

@[simp] theorem setMeter_same (h : Heap) (self : Nat) (m : PackageBudgetMeter) :
    (h.setMeter self m).meters self = m := by simp [setMeter]
@[simp] theorem setMeter_ne (h : Heap) {self n : Nat} (m : PackageBudgetMeter) (hne : n ≠ self) :
    (h.setMeter self m).meters n = h.meters n := by simp [setMeter, hne]
@[simp] theorem setMeter_reservations (h : Heap) (self : Nat) (m : PackageBudgetMeter) :
    (h.setMeter self m).reservations = h.reservations := rfl
@[simp] theorem deactivate_meters (h : Heap) (r : Nat) : (h.deactivate r).meters = h.meters := rfl

end Heap

def notActive : Raised := .valueError "PackageBudget reservation is not active"

/-- `_reserve`; `none` stands for an argument of another nominal type. -/
def reserve (h : Heap) (self : Nat) (maximum : Option BudgetUsage) : Except Raised Nat × Heap :=
  match maximum with
  | none => (.error (.typeError "PackageBudget reservation requires BudgetUsage"), h)
  | some maximum =>
    let m := h.meters self
    let proposed := BudgetUsage.sum (.sum m.usage m.reserved) maximum
    if fits m.budget proposed then
      let h := h.setMeter self { m with reserved := .sum m.reserved maximum }
      (.ok h.reservations.length, { h with reservations := h.reservations ++ [⟨self, maximum, true⟩] })
    else (.error .packageBudgetExceeded, h)

/-- The object `reservation` names, when it is a reservation of `self`. -/
def owned (h : Heap) (self : Nat) (reservation : Option Nat) : Option (Nat × PackageBudgetReservation) :=
  match reservation with
  | none => none
  | some r =>
    match h.reservations[r]? with
    | none => none
    | some res => if res.meter = self then some (r, res) else none

/-- `_commit`. -/
def commit (h : Heap) (self : Nat) (reservation : Option Nat) (actual : Option BudgetUsage) :
    Except Raised Unit × Heap :=
  match owned h self reservation with
  | none => (.error notActive, h)
  | some (r, res) =>
    match actual with
    | none => (.error (.typeError "PackageBudget charge requires BudgetUsage"), h)
    | some actual =>
      if actual.exceeds res.maximum then (.error (.valueError "PackageBudget charge exceeds its reservation"), h)
      else if !res.active then (.error notActive, h)
      else
        let m := h.meters self
        match BudgetUsage.subtract m.reserved res.maximum with
        | .error e => (.error e, h)
        | .ok reserved =>
          let h := h.setMeter self { m with reserved := reserved, usage := .sum m.usage actual }
          (.ok (), h.deactivate r)

/-- `_cancel`. -/
def cancel (h : Heap) (self : Nat) (reservation : Option Nat) : Except Raised Unit × Heap :=
  match owned h self reservation with
  | none => (.error notActive, h)
  | some (r, res) =>
    if !res.active then (.error notActive, h)
    else
      let m := h.meters self
      match BudgetUsage.subtract m.reserved res.maximum with
      | .error e => (.error e, h)
      | .ok reserved => (.ok (), (h.setMeter self { m with reserved := reserved }).deactivate r)

/-! ## Runs -/

/-- One call on one meter. -/
inductive Call where
  | reserve (self : Nat) (maximum : Option BudgetUsage)
  | commit (self : Nat) (reservation : Option Nat) (actual : Option BudgetUsage)
  | cancel (self : Nat) (reservation : Option Nat)
  deriving DecidableEq, Repr

def exec (h : Heap) : Call → Except Raised Unit × Heap
  | .reserve self maximum =>
    match reserve h self maximum with
    | (.ok _, h') => (.ok (), h')
    | (.error e, h') => (.error e, h')
  | .commit self reservation actual => commit h self reservation actual
  | .cancel self reservation => cancel h self reservation

/-- A call as it ran: the objects before it, its result, the objects after it. -/
structure Step where
  before : Heap
  call : Call
  result : Except Raised Unit
  after : Heap

def trace : Heap → List Call → List Step
  | _, [] => []
  | h, c :: cs => ⟨h, c, (exec h c).1, (exec h c).2⟩ :: trace (exec h c).2 cs

def final : Heap → List Call → Heap
  | h, [] => h
  | h, c :: cs => final (exec h c).2 cs

/-- Sum of the maxima of the active reservations of one meter. -/
def activeMaxima (rs : List PackageBudgetReservation) (self : Nat) (d : Dimension) : Nat :=
  match rs with
  | [] => 0
  | r :: rs => (if r.active && r.meter == self then r.maximum.amount d else 0) + activeMaxima rs self d

/-- What a call charged to `self`: the actual usage of a commit that returned. -/
def Step.charge (s : Step) (self : Nat) (d : Dimension) : Nat :=
  match s.call, s.result with
  | .commit m _ (some actual), .ok () => if m = self then actual.amount d else 0
  | _, _ => 0

/-- The call settled reservation `r`: a commit or a cancel of it that returned. -/
def Step.settles (s : Step) (r : Nat) : Bool :=
  match s.call, s.result with
  | .commit _ (some r') _, .ok () => r' == r
  | .cancel _ (some r'), .ok () => r' == r
  | _, _ => false

def charged (steps : List Step) (self : Nat) (d : Dimension) : Nat := (steps.map (·.charge self d)).sum

/-! ## What one call can do -/

theorem owned_some {h : Heap} {self : Nat} {reservation : Option Nat} {r : Nat} {res : PackageBudgetReservation}
    (ho : owned h self reservation = some (r, res)) :
    reservation = some r ∧ h.reservations[r]? = some res ∧ res.meter = self := by
  unfold owned at ho
  cases reservation with
  | none => simp at ho
  | some r' =>
    cases hr : h.reservations[r']? with
    | none => simp [hr] at ho
    | some res' =>
      simp only [hr] at ho
      split at ho
      · next hm =>
        obtain ⟨rfl, rfl⟩ := Prod.mk.inj (Option.some.inj ho)
        exact ⟨rfl, hr, hm⟩
      · cases ho

/-- A reservation that returns: the proposal fits, the maximum is added to the reserved
    amount, and a new active reservation is handed out. -/
theorem reserve_cases {h h' : Heap} {self : Nat} {maximum : Option BudgetUsage} {res : Except Raised Nat}
    (he : reserve h self maximum = (res, h')) :
    ((∃ e, res = .error e) ∧ h' = h) ∨
    ∃ u, maximum = some u ∧ res = .ok h.reservations.length ∧
      fits (h.meters self).budget (.sum (.sum (h.meters self).usage (h.meters self).reserved) u) = true ∧
      h' = { h.setMeter self { h.meters self with reserved := .sum (h.meters self).reserved u } with
        reservations := h.reservations ++ [⟨self, u, true⟩] } := by
  unfold reserve at he
  cases maximum with
  | none => cases he; exact .inl ⟨⟨_, rfl⟩, rfl⟩
  | some u =>
    simp only at he
    split at he
    · next hf =>
      simp only [Heap.setMeter_reservations, Prod.mk.injEq] at he
      exact .inr ⟨u, rfl, he.1.symm, hf, he.2.symm⟩
    · cases he; exact .inl ⟨⟨_, rfl⟩, rfl⟩

/-- Everything a settlement does when it returns: the reservation is an active one of
    this meter, its maximum leaves the reserved amount and `spent` joins the usage. -/
def Settled (h h' : Heap) (self r : Nat) (spent : BudgetUsage) : Prop :=
  ∃ res reserved, h.reservations[r]? = some res ∧ res.meter = self ∧ res.active = true ∧
    (∀ d, spent.amount d ≤ res.maximum.amount d) ∧
    BudgetUsage.subtract (h.meters self).reserved res.maximum = .ok reserved ∧
    h' = (h.setMeter self { h.meters self with
      reserved := reserved, usage := .sum (h.meters self).usage spent }).deactivate r

theorem commit_cases {h h' : Heap} {self : Nat} {reservation : Option Nat} {actual : Option BudgetUsage}
    {res : Except Raised Unit} (he : commit h self reservation actual = (res, h')) :
    ((∃ e, res = .error e) ∧ h' = h) ∨
    ∃ r u, reservation = some r ∧ actual = some u ∧ res = .ok () ∧ Settled h h' self r u := by
  unfold commit at he
  rcases ho : owned h self reservation with _ | ⟨r, obj⟩
  · simp only [ho] at he; cases he; exact .inl ⟨⟨_, rfl⟩, rfl⟩
  obtain ⟨rfl, hr, hm⟩ := owned_some ho
  simp only [ho] at he
  cases actual with
  | none => cases he; exact .inl ⟨⟨_, rfl⟩, rfl⟩
  | some u =>
    simp only at he
    split at he
    · cases he; exact .inl ⟨⟨_, rfl⟩, rfl⟩
    next hx =>
    split at he
    · cases he; exact .inl ⟨⟨_, rfl⟩, rfl⟩
    next ha =>
    split at he
    · cases he; exact .inl ⟨⟨_, rfl⟩, rfl⟩
    next reserved hs =>
    simp only [Prod.mk.injEq] at he
    refine .inr ⟨r, u, rfl, rfl, he.1.symm, ⟨obj, reserved, hr, hm, by simpa using ha, ?_, hs, he.2.symm⟩⟩
    exact BudgetUsage.exceeds_eq_false.mp (by simpa using hx)

theorem cancel_cases {h h' : Heap} {self : Nat} {reservation : Option Nat} {res : Except Raised Unit}
    (he : cancel h self reservation = (res, h')) :
    ((∃ e, res = .error e) ∧ h' = h) ∨
    ∃ r, reservation = some r ∧ res = .ok () ∧ Settled h h' self r .empty := by
  unfold cancel at he
  rcases ho : owned h self reservation with _ | ⟨r, obj⟩
  · simp only [ho] at he; cases he; exact .inl ⟨⟨_, rfl⟩, rfl⟩
  obtain ⟨rfl, hr, hm⟩ := owned_some ho
  simp only [ho] at he
  split at he
  · cases he; exact .inl ⟨⟨_, rfl⟩, rfl⟩
  next ha =>
  split at he
  · cases he; exact .inl ⟨⟨_, rfl⟩, rfl⟩
  next reserved hs =>
  simp only [Prod.mk.injEq] at he
  refine .inr ⟨r, rfl, he.1.symm, ⟨obj, reserved, hr, hm, by simpa using ha, ?_, hs, ?_⟩⟩
  · intro d; simp
  · rw [← he.2]; congr 2

/-! ## The ledger -/

/-- A meter agrees with the reservations outstanding on it. -/
structure Balanced (h : Heap) : Prop where
  reserved : ∀ self d, (h.meters self).reserved.amount d = activeMaxima h.reservations self d
  within : ∀ self d, (h.meters self).usage.amount d + (h.meters self).reserved.amount d ≤ (h.meters self).budget.max d

theorem activeMaxima_append (rs : List PackageBudgetReservation) (x : PackageBudgetReservation) (self : Nat)
    (d : Dimension) : activeMaxima (rs ++ [x]) self d = activeMaxima rs self d + activeMaxima [x] self d := by
  induction rs with
  | nil => simp [activeMaxima]
  | cons r rs ih => simp only [List.cons_append, activeMaxima, ih]; omega

/-- Settling a reservation takes its maximum out of its own meter's sum, and out of no
    other meter's. -/
theorem activeMaxima_deactivate {rs : List PackageBudgetReservation} {r : Nat} {res : PackageBudgetReservation}
    (hr : rs[r]? = some res) (ha : res.active = true) (self : Nat) (d : Dimension) :
    activeMaxima rs self d = activeMaxima (rs.modify r fun x => { x with active := false }) self d +
      if res.meter = self then res.maximum.amount d else 0 := by
  induction rs generalizing r with
  | nil => simp at hr
  | cons x rs ih =>
    cases r with
    | zero =>
      obtain rfl : x = res := by simpa using hr
      by_cases hm : x.meter = self <;> simp [activeMaxima, ha, hm]; omega
    | succ r =>
      have := ih (r := r) (by simpa using hr)
      simp only [List.modify_succ_cons, activeMaxima]
      omega

/-- The reserved amount covers every active maximum, so `_subtract` does not raise. -/
theorem Balanced.subtract_ok {h : Heap} (hb : Balanced h) {r : Nat} {res : PackageBudgetReservation}
    (hr : h.reservations[r]? = some res) (ha : res.active = true) :
    ∃ reserved, BudgetUsage.subtract (h.meters res.meter).reserved res.maximum = .ok reserved := by
  have hle : ∀ d, res.maximum.amount d ≤ (h.meters res.meter).reserved.amount d := by
    intro d
    have := activeMaxima_deactivate hr ha res.meter d
    rw [if_pos rfl] at this
    rw [hb.reserved]; omega
  refine ⟨⟨(h.meters res.meter).reserved.tokens - res.maximum.tokens,
    (h.meters res.meter).reserved.providerCalls - res.maximum.providerCalls,
    (h.meters res.meter).reserved.costMicrounits - res.maximum.costMicrounits,
    (h.meters res.meter).reserved.elapsedMs - res.maximum.elapsedMs⟩, BudgetUsage.subtract_ok fun d => ?_⟩
  have := hle d
  cases d <;> simp only [BudgetUsage.amount] at this ⊢ <;> omega

theorem BudgetUsage.amount_of_subtract {u v w : BudgetUsage} (h : subtract u v = .ok w) (d : Dimension) :
    u.amount d = v.amount d + w.amount d := by
  simp only [subtract, ofInts] at h
  split at h
  · cases h
  split at h
  · cases h
  split at h
  · cases h
  split at h
  · cases h
  cases h
  cases d <;> simp only [amount] <;> omega

theorem balanced_reserve {h : Heap} {self : Nat} {u : BudgetUsage} (hb : Balanced h)
    (hf : fits (h.meters self).budget (.sum (.sum (h.meters self).usage (h.meters self).reserved) u) = true) :
    Balanced { h.setMeter self { h.meters self with reserved := .sum (h.meters self).reserved u } with
      reservations := h.reservations ++ [⟨self, u, true⟩] } := by
  constructor
  · intro n d
    by_cases hn : n = self
    · subst hn
      simp [Heap.setMeter, activeMaxima_append, activeMaxima, hb.reserved]
    · simp [Heap.setMeter, hn, Ne.symm hn, activeMaxima_append, activeMaxima, hb.reserved]
  · intro n d
    by_cases hn : n = self
    · subst hn
      have := fits_iff.mp hf d
      simp only [BudgetUsage.amount_sum] at this
      simp only [Heap.setMeter, if_true, BudgetUsage.amount_sum]
      omega
    · simpa [Heap.setMeter, hn] using hb.within n d

theorem balanced_settled {h h' : Heap} {self r : Nat} {spent : BudgetUsage} (hb : Balanced h)
    (hs : Settled h h' self r spent) : Balanced h' := by
  obtain ⟨res, reserved, hr, rfl, ha, hle, hsub, rfl⟩ := hs
  have hsplit := BudgetUsage.amount_of_subtract hsub
  constructor
  · intro n d
    have hdrop := activeMaxima_deactivate hr ha n d
    have hold := hb.reserved n d
    by_cases hn : n = res.meter
    · subst hn
      rw [if_pos rfl] at hdrop
      have := hsplit d
      simp only [Heap.deactivate, Heap.setMeter, if_true]
      omega
    · rw [if_neg (Ne.symm hn)] at hdrop
      simp only [Heap.deactivate, Heap.setMeter, if_neg hn]
      omega
  · intro n d
    by_cases hn : n = res.meter
    · subst hn
      have h1 := hb.within res.meter d
      have h2 := hsplit d
      have h3 := hle d
      simp only [Heap.deactivate_meters, Heap.setMeter_same, BudgetUsage.amount_sum]
      omega
    · simpa [Heap.deactivate, Heap.setMeter, hn] using hb.within n d

/-! ## One call, then a run -/

/-- The three things a call can be: one that raises and changes nothing, a new
    reservation, or a settlement. -/
theorem exec_cases (h : Heap) (c : Call) :
    ((∃ e, (exec h c).1 = .error e) ∧ (exec h c).2 = h) ∨
    (∃ self u, c = .reserve self (some u) ∧ (exec h c).1 = .ok () ∧
      fits (h.meters self).budget (.sum (.sum (h.meters self).usage (h.meters self).reserved) u) = true ∧
      (exec h c).2 = { h.setMeter self { h.meters self with reserved := .sum (h.meters self).reserved u } with
        reservations := h.reservations ++ [⟨self, u, true⟩] }) ∨
    (∃ self r u, (c = .commit self (some r) (some u) ∨ (c = .cancel self (some r) ∧ u = .empty)) ∧
      (exec h c).1 = .ok () ∧ Settled h (exec h c).2 self r u) := by
  cases c with
  | reserve self maximum =>
    rcases hc : reserve h self maximum with ⟨res, h'⟩
    rcases reserve_cases hc with ⟨⟨e, rfl⟩, rfl⟩ | ⟨u, rfl, rfl, hf, rfl⟩
    · exact .inl ⟨⟨e, by simp [exec, hc]⟩, by simp [exec, hc]⟩
    · exact .inr (.inl ⟨self, u, rfl, by simp [exec, hc], hf, by simp [exec, hc]⟩)
  | commit self reservation actual =>
    rcases hc : commit h self reservation actual with ⟨res, h'⟩
    rcases commit_cases hc with ⟨⟨e, rfl⟩, rfl⟩ | ⟨r, u, rfl, rfl, rfl, hs⟩
    · exact .inl ⟨⟨e, by simp [exec, hc]⟩, by simp [exec, hc]⟩
    · exact .inr (.inr ⟨self, r, u, .inl rfl, by simp [exec, hc], by simpa [exec, hc] using hs⟩)
  | cancel self reservation =>
    rcases hc : cancel h self reservation with ⟨res, h'⟩
    rcases cancel_cases hc with ⟨⟨e, rfl⟩, rfl⟩ | ⟨r, rfl, rfl, hs⟩
    · exact .inl ⟨⟨e, by simp [exec, hc]⟩, by simp [exec, hc]⟩
    · exact .inr (.inr ⟨self, r, .empty, .inr ⟨rfl, rfl⟩, by simp [exec, hc], by simpa [exec, hc] using hs⟩)

theorem balanced_exec {h : Heap} (hb : Balanced h) (c : Call) : Balanced (exec h c).2 := by
  rcases exec_cases h c with ⟨-, hsame⟩ | ⟨self, u, -, -, hf, hnew⟩ | ⟨self, r, u, -, -, hs⟩
  · rwa [hsame]
  · rw [hnew]; exact balanced_reserve hb hf
  · exact balanced_settled hb hs

theorem Settled.usage {h h' : Heap} {self r : Nat} {spent : BudgetUsage} (hs : Settled h h' self r spent)
    (n : Nat) (d : Dimension) :
    (h'.meters n).usage.amount d = (h.meters n).usage.amount d + if self = n then spent.amount d else 0 := by
  obtain ⟨res, reserved, -, -, -, -, -, rfl⟩ := hs
  by_cases hn : self = n
  · subst hn; simp
  · simp [Heap.setMeter, hn, Ne.symm hn]

theorem usage_exec (h : Heap) (c : Call) (self : Nat) (d : Dimension) :
    (((exec h c).2.meters self).usage).amount d =
      ((h.meters self).usage).amount d + Step.charge ⟨h, c, (exec h c).1, (exec h c).2⟩ self d := by
  rcases exec_cases h c with ⟨⟨e, he⟩, hsame⟩ | ⟨m, u, rfl, hok, -, hnew⟩ | ⟨m, r, u, hc, hok, hs⟩
  · rw [hsame, he]
    cases c <;> simp [Step.charge]
  · rw [hnew]
    by_cases hm : self = m <;> simp [Heap.setMeter, Step.charge, hm]
  · rw [hs.usage, hok]
    rcases hc with rfl | ⟨rfl, rfl⟩ <;> simp [Step.charge]

theorem Settled.budget {h h' : Heap} {self r : Nat} {spent : BudgetUsage} (hs : Settled h h' self r spent)
    (n : Nat) : (h'.meters n).budget = (h.meters n).budget := by
  obtain ⟨res, reserved, -, -, -, -, -, rfl⟩ := hs
  by_cases hn : n = self
  · subst hn; simp
  · simp [Heap.setMeter, hn]

theorem budget_exec (h : Heap) (c : Call) (self : Nat) :
    ((exec h c).2.meters self).budget = (h.meters self).budget := by
  rcases exec_cases h c with ⟨-, hsame⟩ | ⟨m, u, -, -, -, hnew⟩ | ⟨m, r, u, -, -, hs⟩
  · rw [hsame]
  · rw [hnew]
    by_cases hm : self = m <;> simp [Heap.setMeter, hm]
  · exact hs.budget self

/-- Whether `r` can still be settled: it is active, or not handed out yet. -/
def chance (h : Heap) (r : Nat) : Nat :=
  match h.reservations[r]? with
  | none => 1
  | some res => if res.active then 1 else 0

theorem chance_le_one (h : Heap) (r : Nat) : chance h r ≤ 1 := by
  unfold chance
  split
  · omega
  · split <;> omega

/-- A settlement uses up the one chance a reservation has; no call gives it back. -/
theorem chance_exec (h : Heap) (c : Call) (r : Nat) :
    chance (exec h c).2 r + (if Step.settles ⟨h, c, (exec h c).1, (exec h c).2⟩ r then 1 else 0) ≤ chance h r := by
  rcases exec_cases h c with ⟨⟨e, he⟩, hsame⟩ | ⟨m, u, rfl, hok, -, hnew⟩ | ⟨m, r', u, hc, hok, hs⟩
  · rw [hsame, he]
    cases c <;> simp [Step.settles]
  · rw [hnew]
    simp only [chance, Step.settles, List.getElem?_append]
    by_cases hlt : r < h.reservations.length
    · simp [hlt]
    · rw [List.getElem?_eq_none (by omega)]
      simp only [hlt, if_false]
      split
      · simp
      · split <;> simp
  · have hsettles : Step.settles ⟨h, c, (exec h c).1, (exec h c).2⟩ r = (r' == r) := by
      rw [hok]
      rcases hc with rfl | ⟨rfl, rfl⟩ <;> rfl
    obtain ⟨res, reserved, hr, -, ha, -, -, hafter⟩ := hs
    rw [hsettles, hafter]
    simp only [chance, Heap.deactivate, Heap.setMeter_reservations, List.getElem?_modify]
    by_cases heq : r' = r
    · subst heq
      simp [hr, ha]
    · simp [heq]

theorem settles_trace (h : Heap) (calls : List Call) (r : Nat) :
    ((trace h calls).filter (·.settles r)).length ≤ chance h r := by
  induction calls generalizing h with
  | nil => simp [trace]
  | cons c cs ih =>
    have hstep := chance_exec h c r
    have hrest := ih (exec h c).2
    simp only [trace, List.filter_cons]
    split
    · next hs => rw [if_pos hs] at hstep; simp only [List.length_cons]; omega
    · next hs => rw [if_neg hs] at hstep; omega

theorem balanced_final {h : Heap} (hb : Balanced h) (calls : List Call) : Balanced (final h calls) := by
  induction calls generalizing h with
  | nil => exact hb
  | cons c cs ih => exact ih (balanced_exec hb c)

theorem usage_final (h : Heap) (calls : List Call) (self : Nat) (d : Dimension) :
    ((final h calls).meters self).usage.amount d =
      (h.meters self).usage.amount d + charged (trace h calls) self d := by
  induction calls generalizing h with
  | nil => simp [final, trace, charged]
  | cons c cs ih =>
    have hrest := ih (exec h c).2
    have hstep := usage_exec h c self d
    simp only [final, trace, charged, List.map_cons, List.sum_cons] at hrest ⊢
    omega

theorem budget_final (h : Heap) (calls : List Call) (self : Nat) :
    ((final h calls).meters self).budget = (h.meters self).budget := by
  induction calls generalizing h with
  | nil => rfl
  | cons c cs ih => rw [final, ih, budget_exec]

theorem raised_unchanged (h : Heap) (calls : List Call) :
    ∀ s ∈ trace h calls, ∀ e, s.result = .error e → s.after = s.before := by
  induction calls generalizing h with
  | nil => simp [trace]
  | cons c cs ih =>
    intro s hs e he
    rcases List.mem_cons.mp hs with rfl | hs
    · rcases exec_cases h c with ⟨-, hsame⟩ | ⟨_, _, -, hok, -⟩ | ⟨_, _, _, -, hok, -⟩
      · exact hsame
      · simp [hok] at he
      · simp [hok] at he
    · exact ih _ s hs e he

/-! ## One reservation -/

/-- The heap once `b` has reserved `u`. -/
def reservedHeap (h : Heap) (b : Nat) (u : BudgetUsage) : Heap :=
  { h.setMeter b { h.meters b with reserved := .sum (h.meters b).reserved u } with
    reservations := h.reservations ++ [⟨b, u, true⟩] }

/-- The heap once that reservation is settled for `spent`. -/
def settledHeap (h : Heap) (b : Nat) (u spent : BudgetUsage) : Heap :=
  { h.setMeter b { h.meters b with usage := .sum (h.meters b).usage spent } with
    reservations := h.reservations ++ [⟨b, u, false⟩] }

theorem exec_reserve {h : Heap} {b : Nat} {u : BudgetUsage} :
    ((∃ e, (exec h (.reserve b (some u))).1 = .error e) ∧ (exec h (.reserve b (some u))).2 = h) ∨
    exec h (.reserve b (some u)) = (.ok (), reservedHeap h b u) := by
  rcases exec_cases h (.reserve b (some u)) with herr | ⟨self, v, hcall, hok, -, hheap⟩ | ⟨self, r, v, hc, -, -⟩
  · exact .inl herr
  · cases hcall
    exact .inr (Prod.ext hok hheap)
  · rcases hc with hc | ⟨hc, -⟩ <;> cases hc

theorem owned_reservedHeap (h : Heap) (b : Nat) (u : BudgetUsage) :
    owned (reservedHeap h b u) b (some h.reservations.length) = some (h.reservations.length, ⟨b, u, true⟩) := by
  simp [owned, reservedHeap]

theorem modify_last {α : Type} (f : α → α) (as : List α) (a : α) : (as ++ [a]).modify as.length f = as ++ [f a] := by
  induction as with
  | nil => rfl
  | cons b as ih => simp only [List.cons_append, List.length_cons, List.modify_succ_cons, ih]

/-- Taking the new maximum out again leaves the reserved amount as it was. -/
theorem settle_reservedHeap (h : Heap) (b : Nat) (u : BudgetUsage) (usage : BudgetUsage) :
    ((reservedHeap h b u).setMeter b { (reservedHeap h b u).meters b with
        reserved := (h.meters b).reserved, usage := usage }).deactivate h.reservations.length =
      { h.setMeter b { h.meters b with usage := usage } with reservations := h.reservations ++ [⟨b, u, false⟩] } := by
  have hmeters : ∀ n, (if n = b then { (reservedHeap h b u).meters b with
      reserved := (h.meters b).reserved, usage := usage } else (reservedHeap h b u).meters n) =
      (if n = b then { h.meters b with usage := usage } else h.meters n) := by
    intro n
    by_cases hn : n = b
    · simp [hn, reservedHeap]
    · simp [hn, reservedHeap, Heap.setMeter]
  have hres : (h.reservations ++ [(⟨b, u, true⟩ : PackageBudgetReservation)]).modify h.reservations.length
      (fun res => { res with active := false }) = h.reservations ++ [⟨b, u, false⟩] := modify_last _ _ _
  simp only [Heap.deactivate, Heap.setMeter, hmeters]
  exact congrArg (Heap.mk _) hres

theorem exec_commit {h : Heap} {b : Nat} {u actual : BudgetUsage} (hle : ∀ d, actual.amount d ≤ u.amount d) :
    exec (reservedHeap h b u) (.commit b (some h.reservations.length) (some actual)) =
      (.ok (), settledHeap h b u actual) := by
  have hfit : actual.exceeds u = false := BudgetUsage.exceeds_eq_false.mpr hle
  have hsub : BudgetUsage.subtract ((reservedHeap h b u).meters b).reserved u = .ok (h.meters b).reserved := by
    simpa [reservedHeap] using BudgetUsage.subtract_sum (h.meters b).reserved u
  have husage : ((reservedHeap h b u).meters b).usage = (h.meters b).usage := by simp [reservedHeap]
  simp only [exec, commit, owned_reservedHeap, hfit, hsub, husage, Bool.not_true, Bool.false_eq_true, if_false]
  rw [settle_reservedHeap]; rfl

theorem exec_cancel {h : Heap} {b : Nat} {u : BudgetUsage} :
    exec (reservedHeap h b u) (.cancel b (some h.reservations.length)) = (.ok (), settledHeap h b u .empty) := by
  have hsub : BudgetUsage.subtract ((reservedHeap h b u).meters b).reserved u = .ok (h.meters b).reserved := by
    simpa [reservedHeap] using BudgetUsage.subtract_sum (h.meters b).reserved u
  have husage : ((reservedHeap h b u).meters b).usage = (h.meters b).usage := by simp [reservedHeap]
  simp only [exec, cancel, owned_reservedHeap, hsub, Bool.not_true, Bool.false_eq_true, if_false]
  have hsettle := settle_reservedHeap h b u (h.meters b).usage
  rw [← husage] at hsettle
  rw [hsettle, husage]; rfl

/-! ## A ledger with its history -/

/-- The meters, and the calls made on them. -/
structure World where
  heap : Heap
  steps : List Step

def World.call (w : World) (c : Call) : Except Raised Unit × World :=
  let r := exec w.heap c
  (r.1, ⟨r.2, w.steps ++ [⟨w.heap, c, r.1, r.2⟩]⟩)

/-- The calls of a list of steps, each with whether it returned. -/
def calls (steps : List Step) : List (Call × Bool) := steps.map fun s => (s.call, s.result.toBool)

/-- The world right after meter `b` reserved `u`. -/
def World.reserved (w : World) (b : Nat) (u : BudgetUsage) : World :=
  ⟨reservedHeap w.heap b u, w.steps ++ [⟨w.heap, .reserve b (some u), .ok (), reservedHeap w.heap b u⟩]⟩

/-! ## The whole ledger -/

theorem construct_ok {budget : PackageBudget} {initialUsage : BudgetUsage} {tokenizer : Option TokenizerBinding}
    {m : PackageBudgetMeter} (hc : construct budget initialUsage tokenizer = .ok m) :
    m = ⟨budget, initialUsage, .empty, tokenizer⟩ ∧ ∀ d, initialUsage.amount d ≤ budget.max d := by
  unfold construct at hc
  split at hc
  · next hf => cases hc; exact ⟨rfl, fits_iff.mp hf⟩
  · cases hc

/-- The ledger over every history of calls on freshly constructed meters. -/
theorem ledger_balanced (budget : Nat → PackageBudget) (initialUsage : Nat → BudgetUsage)
    (tokenizer : Nat → Option TokenizerBinding) (meters : Nat → PackageBudgetMeter)
    (hc : ∀ n, construct (budget n) (initialUsage n) (tokenizer n) = .ok (meters n)) (calls : List Call) :
    let start : Heap := ⟨meters, []⟩
    let h := final start calls
    (∀ n d, (h.meters n).reserved.amount d = activeMaxima h.reservations n d ∧
      (h.meters n).usage.amount d = (initialUsage n).amount d + charged (trace start calls) n d ∧
      (h.meters n).usage.amount d + (h.meters n).reserved.amount d ≤ (budget n).max d) ∧
    (∀ (r : Nat) (res : PackageBudgetReservation), h.reservations[r]? = some res → res.active = true →
      ∃ w, BudgetUsage.subtract (h.meters res.meter).reserved res.maximum = .ok w) ∧
    (∀ s ∈ trace start calls, ∀ e, s.result = .error e → s.after = s.before) ∧
    (∀ r, ((trace start calls).filter (·.settles r)).length ≤ 1) := by
  intro start h
  have hbal : Balanced start := by
    constructor
    · intro n d; simp [start, (construct_ok (hc n)).1, activeMaxima]
    · intro n d; simpa [start, (construct_ok (hc n)).1] using (construct_ok (hc n)).2 d
  have hfin : Balanced h := balanced_final hbal calls
  refine ⟨fun n d => ⟨hfin.reserved n d, ?_, ?_⟩, fun r res hr ha => hfin.subtract_ok hr ha,
    raised_unchanged start calls, fun r => Nat.le_trans (settles_trace start calls r) (chance_le_one start r)⟩
  · have := usage_final start calls n d
    rw [this]
    simp [start, (construct_ok (hc n)).1]
  · have hb : (h.meters n).budget = budget n := by
      rw [budget_final start calls n]
      simp [start, (construct_ok (hc n)).1]
    rw [← hb]; exact hfin.within n d

/-- Two meters share a heap; a reservation is committed, committed again, and offered to
    the other meter. -/
theorem ledger_balanced_instance :
    let b : PackageBudget := ⟨10, 10, 10, 10, by decide, by decide, by decide, by decide⟩
    let m : PackageBudgetMeter := ⟨b, ⟨1, 0, 0, 0⟩, .empty, none⟩
    let calls : List Call := [.reserve 0 (some ⟨4, 1, 1, 1⟩), .commit 1 (some 0) (some ⟨2, 1, 0, 1⟩),
      .commit 0 (some 0) (some ⟨2, 1, 0, 1⟩), .commit 0 (some 0) (some ⟨2, 1, 0, 1⟩)]
    construct b ⟨1, 0, 0, 0⟩ none = .ok m ∧
    ((final ⟨fun _ => m, []⟩ calls).meters 0).usage.amount .tokens = 3 ∧
    ((final ⟨fun _ => m, []⟩ calls).meters 0).usage.amount .tokens =
      1 + charged (trace ⟨fun _ => m, []⟩ calls) 0 .tokens := by
  intro b m calls
  have hc : construct b ⟨1, 0, 0, 0⟩ none = .ok m := rfl
  refine ⟨hc, by decide, ?_⟩
  exact ((ledger_balanced (fun _ => b) (fun _ => ⟨1, 0, 0, 0⟩) (fun _ => none) (fun _ => m)
    (fun _ => hc) calls).1 0 .tokens).2.1

end ContextEngine.Runtime.Budget
