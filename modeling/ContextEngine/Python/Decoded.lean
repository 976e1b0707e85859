/-
  ContextEngine.Python.Decoded — what `json.loads` returns, as Python compares it: numbers by
  their value whatever their type, dictionaries by their keys and what these map to.

  A float is the number it holds. Every binary64 number is a `Float64.finite`; nothing here
  depends on which rationals are none.

  Proved: an integer whose float lies in the unit interval is 0 or 1 (`ofInt_unit`).
-/

import ContextEngine.Python.Str

namespace ContextEngine.Python

inductive Float64 where
  | finite (value : ℚ)
  | infinite (negative : Bool)
  | nan
  deriving DecidableEq

namespace Float64

/-- Round half to even. -/
def roundEven (numerator denominator : Nat) : Nat :=
  let q := numerator / denominator
  let r := numerator % denominator
  if 2 * r < denominator ∨ 2 * r = denominator ∧ q % 2 = 0 then q else q + 1

/-- The binary64 magnitude nearest to a natural number; past the last one it overflows. -/
def magnitude (n : Nat) : Option Nat :=
  if n < 2 ^ 53 then some n
  else
    let unit := 2 ^ (n.log2 - 52)
    let rounded := roundEven n unit * unit
    if rounded < 2 ^ 1024 then some rounded else none

/-- `float(n)`, or `OverflowError`. -/
def ofInt (n : Int) : Option ℚ := (magnitude n.natAbs).map fun m : Nat => if n < 0 then -(m : ℚ) else m

theorem le_roundEven (n d : Nat) : n / d ≤ roundEven n d := by
  simp only [roundEven]
  split_ifs <;> omega

theorem magnitude_ge {n m : Nat} (hn : 2 ^ 53 ≤ n) (h : magnitude n = some m) : 2 ≤ m := by
  rw [magnitude, if_neg (Nat.not_lt.mpr hn)] at h
  simp only [Option.ite_none_right_eq_some, Option.some.injEq] at h
  obtain ⟨-, rfl⟩ := h
  have hne : n ≠ 0 := by
    rintro rfl
    omega
  have hlog : 53 ≤ n.log2 := (Nat.le_log2 hne).mpr hn
  have hunit : 2 ^ 1 ≤ 2 ^ (n.log2 - 52) := Nat.pow_le_pow_right (by omega) (by omega)
  have hpow : 2 ^ (n.log2 - 52) ≤ n := (Nat.pow_le_pow_right (by omega) (by omega)).trans (Nat.log2_self_le hne)
  have hone : 1 ≤ n / 2 ^ (n.log2 - 52) := (Nat.one_le_div_iff (by positivity)).mpr hpow
  calc 2 = 1 * 2 ^ 1 := by norm_num
    _ ≤ roundEven n (2 ^ (n.log2 - 52)) * 2 ^ (n.log2 - 52) :=
      Nat.mul_le_mul (hone.trans (le_roundEven n _)) hunit

theorem ofInt_unit {n : Int} {q : ℚ} (h : ofInt n = some q) (h0 : 0 ≤ q) (h1 : q ≤ 1) : q = n := by
  obtain ⟨m, hm, rfl⟩ := Option.map_eq_some_iff.mp h
  by_cases hsmall : n.natAbs < 2 ^ 53
  · rw [magnitude, if_pos hsmall] at hm
    obtain rfl := Option.some.inj hm
    split_ifs with hneg
    · have habs : (n.natAbs : Int) = -n := Int.ofNat_natAbs_of_nonpos (by omega)
      have : ((n.natAbs : Nat) : ℚ) = ((n.natAbs : Int) : ℚ) := (Int.cast_natCast _).symm
      rw [this, habs]
      push_cast
      ring
    · have habs : (n.natAbs : Int) = n := Int.natAbs_of_nonneg (by omega)
      have : ((n.natAbs : Nat) : ℚ) = ((n.natAbs : Int) : ℚ) := (Int.cast_natCast _).symm
      rw [this, habs]
  · have hm2 : (2 : ℚ) ≤ m := by exact_mod_cast magnitude_ge (Nat.not_lt.mp hsmall) hm
    split_ifs at h0 h1 with hneg <;> linarith

end Float64

/-- A decoded document: a list as its items, a `dict` as its keys and what each maps to. -/
inductive Decoded where
  | none_
  | bool (b : Bool)
  | int (n : Int)
  | float (x : Float64)
  | str (s : Str)
  | list (length : Nat) (items : Fin length → Decoded)
  | dict (keys : List Str) (values : Str → Decoded)

instance : Inhabited Decoded := ⟨.none_⟩

namespace Decoded

/-- The number that a value is; `True` is 1. -/
def number : Decoded → Option Float64
  | .bool b => some (.finite (if b then 1 else 0))
  | .int n => some (.finite n)
  | .float x => some x
  | _ => none

/-- `==`. -/
def equals : Decoded → Decoded → Bool
  | .none_, .none_ => true
  | .str s, .str t => s == t
  | .list n items, .list m items' =>
    if h : n = m then decide (∀ i : Fin n, equals (items i) (items' (Fin.cast h i)) = true) else false
  | .dict keys values, .dict keys' values' =>
    decide (keys ⊆ keys' ∧ keys' ⊆ keys) && keys.all fun k => equals (values k) (values' k)
  | v, w =>
    match v.number, w.number with
    | some x, some y => x != .nan && x == y
    | _, _ => false

/-- `hash(value)` exists. -/
def hashable : Decoded → Bool
  | .list _ _ => false
  | .dict _ _ => false
  | _ => true

/-- The value is the string `text`. -/
def isText (text : String) : Decoded → Bool
  | .str s => s == Str.ofString text
  | _ => false

end Decoded

end ContextEngine.Python
