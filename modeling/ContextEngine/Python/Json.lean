/-
  ContextEngine.Python.Json — `json.dumps(value, ensure_ascii=True, separators=(",", ":"),
  sort_keys=True)`, the form in which a worker writes what the database reads as `jsonb`.

  Only whole numbers are written here.
-/

import ContextEngine.Python.Sorted
import ContextEngine.Postgres.Values

namespace ContextEngine.Python

open ContextEngine.Postgres ContextEngine.Runtime

/-- `\uXXXX` of a code unit. -/
def unicodeEscape (n : Nat) : List Char :=
  ['\\', 'u', hexDigit (n / 4096 % 16), hexDigit (n / 256 % 16), hexDigit (n / 16 % 16), hexDigit (n % 16)]

def escapeChar (c : Char) : List Char :=
  let n := c.toNat
  if 0x20 ≤ n ∧ n ≤ 0x7e ∧ n ≠ 0x22 ∧ n ≠ 0x5c then [c]
  else if n = 0x22 then ['\\', '"']
  else if n = 0x5c then ['\\', '\\']
  else if n = 0x0a then ['\\', 'n']
  else if n = 0x0d then ['\\', 'r']
  else if n = 0x09 then ['\\', 't']
  else if n = 0x0c then ['\\', 'f']
  else if n = 0x08 then ['\\', 'b']
  else if n < 0x10000 then unicodeEscape n
  -- beyond the first plane, the two surrogates
  else unicodeEscape (0xd800 + (n - 0x10000) / 1024) ++ unicodeEscape (0xdc00 + (n - 0x10000) % 1024)

def dumpsString (s : String) : List Char := '"' :: s.toList.flatMap escapeChar ++ ['"']

mutual

def dumpsChars : Jsonb → List Char
  | .null => ['n', 'u', 'l', 'l']
  | .bool true => ['t', 'r', 'u', 'e']
  | .bool false => ['f', 'a', 'l', 's', 'e']
  | .number n => (toString n.unscaled).toList
  | .string s => dumpsString s
  | .array es => '[' :: [','].intercalate (dumpsElements es) ++ [']']
  | .object ms => '\x7b' :: [','].intercalate ((sortedBy Prod.fst (dumpsMembers ms)).map Prod.snd) ++ ['\x7d']

def dumpsElements : List Jsonb → List (List Char)
  | [] => []
  | e :: es => dumpsChars e :: dumpsElements es

/-- Each member with its name, which the members are sorted by. -/
def dumpsMembers : List (String × Jsonb) → List (String × List Char)
  | [] => []
  | m :: ms => (m.1, dumpsString m.1 ++ ':' :: dumpsChars m.2) :: dumpsMembers ms

end

def dumps (value : Jsonb) : String := String.ofList (dumpsChars value)

example : dumps (.object [("b", .array [.null, .bool true]), ("a", .string "x\"y")]) = "\x7b\"a\":\"x\\\"y\",\"b\":[null,true]\x7d" := by
  decide +kernel

/-! ## Identifiers and bytes -/

/-- `str(u)`. -/
def uuidText (u : UUID) : String :=
  let h := u.bytes.flatMap hexByte
  String.ofList (['-'].intercalate [h.take 8, (h.drop 8).take 4, (h.drop 12).take 4, (h.drop 16).take 4, h.drop 20])

/-- `s.encode("ascii")` of an ASCII text. -/
def ascii (cs : List Char) : List UInt8 := cs.map fun c => UInt8.ofNat c.toNat

def base64Digit (n : Nat) : Char :=
  if n < 26 then Char.ofNat (65 + n) else if n < 52 then Char.ofNat (71 + n) else if n < 62 then Char.ofNat (n - 4)
  else if n = 62 then '+' else '/'

/-- `base64.b64encode(b).decode("ascii")`. -/
def base64 : List UInt8 → List Char
  | a :: b :: c :: rest =>
    let n := a.toNat * 65536 + b.toNat * 256 + c.toNat
    base64Digit (n / 262144) :: base64Digit (n / 4096 % 64) :: base64Digit (n / 64 % 64) :: base64Digit (n % 64) :: base64 rest
  | [a, b] =>
    let n := a.toNat * 256 + b.toNat
    [base64Digit (n / 1024), base64Digit (n / 16 % 64), base64Digit (n % 16 * 4), '=']
  | [a] => [base64Digit (a.toNat / 4), base64Digit (a.toNat % 4 * 16), '=', '=']
  | [] => []

/-! ## Length -/

mutual

/-- A bound on the number of characters. -/
def weight : Jsonb → Nat
  | .null => 4
  | .bool _ => 5
  | .number n => (toString n.unscaled).toList.length
  | .string s => 12 * s.toList.length + 2
  | .array es => weightElements es + 2
  | .object ms => weightMembers ms + 2

def weightElements : List Jsonb → Nat
  | [] => 0
  | e :: es => weight e + 1 + weightElements es

def weightMembers : List (String × Jsonb) → Nat
  | [] => 0
  | m :: ms => 12 * m.1.toList.length + 4 + weight m.2 + weightMembers ms

end

theorem length_base64 : ∀ b, (base64 b).length ≤ 4 * b.length
  | [] => by simp [base64]
  | [a] => by simp [base64]
  | [a, b] => by simp [base64]
  | a :: b :: c :: rest => by
    have := length_base64 rest
    simp only [base64, List.length_cons]
    omega

theorem length_escapeChar (c : Char) : (escapeChar c).length ≤ 12 := by
  simp only [escapeChar]
  split_ifs <;> simp [unicodeEscape]

theorem length_dumpsString (s : String) : (dumpsString s).length ≤ 12 * s.toList.length + 2 := by
  have h : (s.toList.flatMap escapeChar).length ≤ 12 * s.toList.length := by
    induction s.toList with
    | nil => simp
    | cons c cs ih =>
      have := length_escapeChar c
      simp only [List.flatMap_cons, List.length_append, List.length_cons]
      omega
  simp only [dumpsString, List.cons_append, List.length_cons, List.length_append, List.length_nil]
  omega

theorem length_intercalate_le (sep : Char) (xs : List (List Char)) :
    ([sep].intercalate xs).length ≤ (xs.map fun x => x.length + 1).sum := by
  induction xs with
  | nil => simp
  | cons x xs ih =>
    cases xs with
    | nil => simp
    | cons y ys =>
      rw [List.intercalate_cons_cons, List.map_cons, List.sum_cons]
      simp only [List.length_append, List.length_singleton]
      omega

mutual

theorem length_dumpsChars : (v : Jsonb) → (dumpsChars v).length ≤ weight v
  | .null => by simp [dumpsChars, weight]
  | .bool true => by simp [dumpsChars, weight]
  | .bool false => by simp [dumpsChars, weight]
  | .number n => by simp [dumpsChars, weight]
  | .string s => by simpa [dumpsChars, weight] using length_dumpsString s
  | .array es => by
    have h := length_intercalate_le ',' (dumpsElements es)
    have hes := length_dumpsElements es
    simp only [dumpsChars, weight, List.cons_append, List.length_cons, List.length_append, List.length_nil]
    omega
  | .object ms => by
    have h := length_intercalate_le ',' ((sortedBy Prod.fst (dumpsMembers ms)).map Prod.snd)
    have hperm := ((sortedBy_perm Prod.fst (dumpsMembers ms)).map fun m => m.2.length + 1).sum_eq
    have hms := length_dumpsMembers ms
    simp only [List.map_map] at h
    simp only [dumpsChars, weight, List.cons_append, List.length_cons, List.length_append, List.length_nil]
    have : ((sortedBy Prod.fst (dumpsMembers ms)).map ((fun x => x.length + 1) ∘ Prod.snd)).sum =
        ((dumpsMembers ms).map fun m => m.2.length + 1).sum := hperm
    omega

theorem length_dumpsElements : (es : List Jsonb) → ((dumpsElements es).map fun x => x.length + 1).sum ≤ weightElements es
  | [] => by simp [dumpsElements, weightElements]
  | e :: es => by
    have he := length_dumpsChars e
    have hes := length_dumpsElements es
    simp only [dumpsElements, weightElements, List.map_cons, List.sum_cons]
    omega

theorem length_dumpsMembers : (ms : List (String × Jsonb)) →
    ((dumpsMembers ms).map fun m => m.2.length + 1).sum ≤ weightMembers ms
  | [] => by simp [dumpsMembers, weightMembers]
  | m :: ms => by
    have hname := length_dumpsString m.1
    have hvalue := length_dumpsChars m.2
    have hms := length_dumpsMembers ms
    simp only [dumpsMembers, weightMembers, List.map_cons, List.sum_cons, List.length_append, List.length_cons]
    omega

end

end ContextEngine.Python
