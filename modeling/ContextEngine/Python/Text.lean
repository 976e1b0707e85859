/-
  ContextEngine.Python.Text — the pieces of Python's `str`, `bytes` and `hashlib` that the
  engine's checks are written with.

  A `str` is a Lean `String`: a sequence of Unicode scalar values (a Python string with a
  lone surrogate is not one of these; where it makes a difference, a `str` is a `Str`).
  SHA-256 is a parameter wherever it is used; a `Sha256Digest` is what it returns, and only
  its length matters.
-/

import Mathlib

namespace ContextEngine.Python

/-- `str.isspace` on one character: bidirectional type WS, B or S, or category Zs. -/
def isspace (c : Char) : Bool :=
  let n := c.toNat
  (0x09 ≤ n && n ≤ 0x0d) || (0x1c ≤ n && n ≤ 0x20) || n == 0x85 || n == 0xa0 || n == 0x1680 ||
    (0x2000 ≤ n && n ≤ 0x200a) || n == 0x2028 || n == 0x2029 || n == 0x202f || n == 0x205f || n == 0x3000

/-- `not s or s.isspace()`. -/
def blank (s : String) : Bool := s.toList.all isspace

/-- `s.encode("utf-8")`. -/
def encode (s : String) : List UInt8 := s.toUTF8.data.toList

/-- `len(b).to_bytes(8, "big") + b`. -/
def lengthPrefix (b : List UInt8) : List UInt8 :=
  (List.range 8).reverse.map (fun i => UInt8.ofNat (b.length / 256 ^ i)) ++ b

/-- `b.decode("utf-8", errors="strict")`, as the characters of the string. -/
def decode (b : List UInt8) : Option (List Char) := (ByteArray.utf8Decode? ⟨b.toArray⟩).map (·.toList)

/-- An aware UTC `datetime`, in microseconds since the epoch. -/
structure Instant where
  micros : Int
  deriving DecidableEq, Repr

/-! ## SHA-256 digests -/

structure Sha256Digest where
  bytes : List UInt8
  length_eq : bytes.length = 32
  deriving DecidableEq

def hexDigits : List Char := ['0', '1', '2', '3', '4', '5', '6', '7', '8', '9', 'a', 'b', 'c', 'd', 'e', 'f']

def hexDigit (n : Nat) : Char := hexDigits.getD n '0'

def hexByte (b : UInt8) : List Char := [hexDigit (b.toNat / 16), hexDigit (b.toNat % 16)]

def Sha256Digest.hexdigest (d : Sha256Digest) : String := String.ofList (d.bytes.flatMap hexByte)

/-- Sixty-four lowercase hexadecimal characters. -/
def isSha256 (s : String) : Bool := s.toList.length == 64 && s.toList.all (hexDigits.contains ·)

theorem hexDigit_mem (n : Nat) : hexDigits.contains (hexDigit n) = true := by
  unfold hexDigit
  by_cases h : n < 16
  · have : ∀ m < 16, hexDigits.contains (hexDigits.getD m '0') = true := by decide
    exact this n h
  · rw [List.getD_eq_getElem?_getD, List.getElem?_eq_none (by simpa [hexDigits] using h)]
    decide

theorem length_flatMap_hexByte (bs : List UInt8) : (bs.flatMap hexByte).length = 2 * bs.length := by
  induction bs with
  | nil => rfl
  | cons b bs ih => simp only [List.flatMap_cons, List.length_append, ih, List.length_cons, hexByte]; simp; omega

/-- What `hexdigest` returns always passes the engine's digest check. -/
@[simp] theorem isSha256_hexdigest (d : Sha256Digest) : isSha256 d.hexdigest = true := by
  simp only [isSha256, Sha256Digest.hexdigest, String.toList_ofList, Bool.and_eq_true, beq_iff_eq,
    length_flatMap_hexByte, d.length_eq, List.all_eq_true, true_and]
  intro c hc
  obtain ⟨b, -, hb⟩ := List.mem_flatMap.mp hc
  simp only [hexByte, List.mem_cons, List.not_mem_nil, or_false] at hb
  rcases hb with rfl | rfl <;> exact hexDigit_mem _

theorem hexdigest_chars (d : Sha256Digest) : d.hexdigest.toList.length = 64 ∧
    ∀ c ∈ d.hexdigest.toList, hexDigits.contains c = true := by
  simpa [isSha256] using isSha256_hexdigest d

/-- The library functions the engine calls and never depends on the inside of. -/
structure Stdlib where
  /-- `hashlib.sha256(b)`. -/
  sha256 : List UInt8 → Sha256Digest
  /-- `value.isoformat(timespec="microseconds")`. -/
  isoformat : Instant → String

end ContextEngine.Python
