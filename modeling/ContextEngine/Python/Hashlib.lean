/-
  ContextEngine.Python.Hashlib — SHA-256 (FIPS 180-4) and `datetime.isoformat`, so that the
  library functions the model takes as a parameter have their real instance, `cpython`; and
  the Unicode tables for ASCII text.
-/

import ContextEngine.Python.Str

namespace ContextEngine.Python

/-! ## SHA-256 -/

namespace Sha256

def roundConstants : List Nat := [
  0x428a2f98, 0x71374491, 0xb5c0fbcf, 0xe9b5dba5, 0x3956c25b, 0x59f111f1, 0x923f82a4, 0xab1c5ed5,
  0xd807aa98, 0x12835b01, 0x243185be, 0x550c7dc3, 0x72be5d74, 0x80deb1fe, 0x9bdc06a7, 0xc19bf174,
  0xe49b69c1, 0xefbe4786, 0x0fc19dc6, 0x240ca1cc, 0x2de92c6f, 0x4a7484aa, 0x5cb0a9dc, 0x76f988da,
  0x983e5152, 0xa831c66d, 0xb00327c8, 0xbf597fc7, 0xc6e00bf3, 0xd5a79147, 0x06ca6351, 0x14292967,
  0x27b70a85, 0x2e1b2138, 0x4d2c6dfc, 0x53380d13, 0x650a7354, 0x766a0abb, 0x81c2c92e, 0x92722c85,
  0xa2bfe8a1, 0xa81a664b, 0xc24b8b70, 0xc76c51a3, 0xd192e819, 0xd6990624, 0xf40e3585, 0x106aa070,
  0x19a4c116, 0x1e376c08, 0x2748774c, 0x34b0bcb5, 0x391c0cb3, 0x4ed8aa4a, 0x5b9cca4f, 0x682e6ff3,
  0x748f82ee, 0x78a5636f, 0x84c87814, 0x8cc70208, 0x90befffa, 0xa4506ceb, 0xbef9a3f7, 0xc67178f2]

/-- Eight 32-bit words. -/
structure State where
  a : Nat
  b : Nat
  c : Nat
  d : Nat
  e : Nat
  f : Nat
  g : Nat
  h : Nat

def initial : State :=
  ⟨0x6a09e667, 0xbb67ae85, 0x3c6ef372, 0xa54ff53a, 0x510e527f, 0x9b05688c, 0x1f83d9ab, 0x5be0cd19⟩

def rotr (x n : Nat) : Nat := (x >>> n) ||| ((x <<< (32 - n)) % 2 ^ 32)

def add (x y : Nat) : Nat := (x + y) % 2 ^ 32

/-- The padded message: a one bit, zeros, and the length in bits as 64 bits. -/
def pad (msg : List UInt8) : List UInt8 :=
  let zeros := (119 - msg.length % 64) % 64
  msg ++ 0x80 :: List.replicate zeros 0 ++
    (List.range 8).reverse.map fun i => UInt8.ofNat (8 * msg.length / 256 ^ i)

def word (b : List UInt8) : Nat := b.foldl (fun w x => w * 256 + x.toNat) 0

/-- The message schedule, newest word first. -/
def extend : Nat → List Nat → List Nat
  | 0, w => w
  | n + 1, w =>
    let w2 := w.getD 1 0
    let w15 := w.getD 14 0
    let s0 := rotr w15 7 ^^^ rotr w15 18 ^^^ (w15 >>> 3)
    let s1 := rotr w2 17 ^^^ rotr w2 19 ^^^ (w2 >>> 10)
    extend n ((w.getD 15 0 + s0 + w.getD 6 0 + s1) % 2 ^ 32 :: w)

def round (s : State) (kw : Nat × Nat) : State :=
  let s1 := rotr s.e 6 ^^^ rotr s.e 11 ^^^ rotr s.e 25
  let ch := (s.e &&& s.f) ^^^ ((s.e ^^^ 0xffffffff) &&& s.g)
  let t1 := s.h + s1 + ch + kw.1 + kw.2
  let s0 := rotr s.a 2 ^^^ rotr s.a 13 ^^^ rotr s.a 22
  let maj := (s.a &&& s.b) ^^^ (s.a &&& s.c) ^^^ (s.b &&& s.c)
  ⟨add t1 (s0 + maj), s.a, s.b, s.c, add s.d t1, s.e, s.f, s.g⟩

def compress (s : State) (block : List UInt8) : State :=
  let w := (List.range 16).map fun i => word ((block.drop (4 * i)).take 4)
  let schedule := (extend 48 w.reverse).reverse
  let r := (roundConstants.zip schedule).foldl round s
  ⟨add s.a r.a, add s.b r.b, add s.c r.c, add s.d r.d, add s.e r.e, add s.f r.f, add s.g r.g, add s.h r.h⟩

def blocks (msg : List UInt8) : List (List UInt8) :=
  (List.range (msg.length / 64)).map fun i => (msg.drop (64 * i)).take 64

def wordBytes (w : Nat) : List UInt8 :=
  [UInt8.ofNat (w >>> 24), UInt8.ofNat (w >>> 16), UInt8.ofNat (w >>> 8), UInt8.ofNat w]

end Sha256

def sha256 (msg : List UInt8) : Sha256Digest :=
  let s := (Sha256.blocks (Sha256.pad msg)).foldl Sha256.compress Sha256.initial
  ⟨[s.a, s.b, s.c, s.d, s.e, s.f, s.g, s.h].flatMap Sha256.wordBytes, rfl⟩

/-! ## Dates -/

/-- Year, month and day of a day number counted from 1970-01-01. -/
def civil (days : Int) : Int × Int × Int :=
  let z := days + 719468
  let era := z / 146097
  let doe := z % 146097
  let yoe := (doe - doe / 1460 + doe / 36524 - doe / 146096) / 365
  let doy := doe - (365 * yoe + yoe / 4 - yoe / 100)
  let mp := (5 * doy + 2) / 153
  let m := if mp < 10 then mp + 3 else mp - 9
  (yoe + era * 400 + (if m ≤ 2 then 1 else 0), m, doy - (153 * mp + 2) / 5 + 1)

def padded (width : Nat) (n : Int) : String :=
  let s := toString n
  String.ofList (List.replicate (width - s.length) '0') ++ s

/-- `value.isoformat(timespec="microseconds")` of an aware UTC datetime. -/
def isoformat (t : Instant) : String :=
  let seconds := t.micros / 1000000
  let (y, m, d) := civil (seconds / 86400)
  let s := seconds % 86400
  padded 4 y ++ "-" ++ padded 2 m ++ "-" ++ padded 2 d ++ "T" ++ padded 2 (s / 3600) ++ ":" ++
    padded 2 (s / 60 % 60) ++ ":" ++ padded 2 (s % 60) ++ "." ++ padded 6 (t.micros % 1000000) ++ "+00:00"

/-- The library functions as CPython has them. -/
def cpython : Stdlib := ⟨sha256, isoformat⟩

/-- The tables, for ASCII text. -/
def UnicodeData.ascii : UnicodeData where
  isWord c :=
    let n := c.val
    decide (48 ≤ n ∧ n ≤ 57) || decide (65 ≤ n ∧ n ≤ 90) || n == 95 || decide (97 ≤ n ∧ n ≤ 122)
  casefold c := if 65 ≤ c.val ∧ c.val ≤ 90 then [c + 32] else [c]
  lowercase_word c h1 h2 := by
    have hlow : 97 ≤ c.toNat := h1
    have hhigh : c.toNat ≤ 122 := h2
    have hval : (Str.ofChar c).val = c.toNat := rfl
    refine ⟨?_, if_neg (by omega)⟩
    simp only [hval, Bool.or_eq_true, decide_eq_true_eq]
    exact .inr ⟨hlow, hhigh⟩

end ContextEngine.Python
