/-
  ContextEngine.Runtime.Checks — what the Runtime raises, and the value checks its
  constructors share.
-/

import ContextEngine.Python.Text

namespace ContextEngine.Runtime.Checks

open ContextEngine.Python

/-- The exceptions the modelled Runtime code raises, by class. -/
inductive Raised where
  | typeError (message : String)
  | valueError (message : String)
  | packageBudgetExceeded
  | tokenizerUnavailable (message : String)
  | runtimeConfigurationError (message : String)
  | policyEpochAuthorityUnavailable (message : String)
  | activeReleaseUnavailable (message : String)
  | candidateIndexUnavailable (message : String)
  | citationAuthorityUnavailable (message : String)
  | egressGrantIssuanceUnavailable (message : String)
  | contextRunPersistenceUnavailable (message : String)
  /-- Any other ordinary exception. -/
  | other (name : String)
  deriving DecidableEq, Repr

/-- `if not ok: raise ValueError(message)`. -/
def ensure (ok : Bool) (message : String) : Except Raised Unit :=
  if ok then .ok () else .error (.valueError message)

/-- `if not ok: raise TypeError(message)`. -/
def ensureType (ok : Bool) (message : String) : Except Raised Unit :=
  if ok then .ok () else .error (.typeError message)

@[simp] theorem ensure_true (message : String) : ensure true message = .ok () := rfl

@[simp] theorem ensure_false (message : String) : ensure false message = .error (.valueError message) := rfl

theorem ensure_ok {ok : Bool} {message : String} {u : Unit} (h : ensure ok message = .ok u) : ok = true := by
  unfold ensure at h
  split at h
  · assumption
  · cases h

/-- What a `do` block that returned went through. -/
theorem bind_ok {ε α β : Type} {x : Except ε α} {f : α → Except ε β} {b : β} (h : (x >>= f) = .ok b) :
    ∃ a, x = .ok a ∧ f a = .ok b := by
  cases x with
  | error e => cases h
  | ok a => exact ⟨a, rfl, h⟩

/-- A check run where it is written needs no lifting. -/
theorem liftM_self {α : Type} (x : Except Raised α) : (liftM x : Except Raised α) = x := rfl

theorem error_bind {ε α β : Type} (e : ε) (f : α → Except ε β) : (Except.error e >>= f) = .error e := rfl

/-! ## References -/

def MAX_OPAQUE_REF_LENGTH : Nat := 256

def isOpaqueRef (s : String) : Bool :=
  !s.toList.isEmpty && s.toList.length ≤ MAX_OPAQUE_REF_LENGTH && s.toList.all (!isspace ·)

/-- A non-empty bounded string without whitespace. -/
structure OpaqueRef where
  value : String
  well_formed : isOpaqueRef value = true
  deriving DecidableEq

/-- `_require_opaque_ref`. -/
def requireOpaqueRef (fieldName value : String) : Except Raised OpaqueRef :=
  if h : isOpaqueRef value = true then .ok ⟨value, h⟩
  else .error (.valueError (fieldName ++ " must be a non-empty bounded opaque string without whitespace"))

theorem requireOpaqueRef_ok {fieldName value : String} {r : OpaqueRef} (h : requireOpaqueRef fieldName value = .ok r) :
    r.value = value := by
  unfold requireOpaqueRef at h
  split at h
  · cases h; rfl
  · cases h

theorem OpaqueRef.ext_value {a b : OpaqueRef} (h : a.value = b.value) : a = b := by
  cases a; cases b; cases h; rfl

end ContextEngine.Runtime.Checks
