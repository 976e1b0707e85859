/-
  ContextEngine.Postgres.Values — the values of the database that the migrations' functions
  read: nullable columns, timestamps and `jsonb`.

  A nullable column is an `Option`. A comparison with NULL is NULL, and a NULL condition
  selects no row, so a condition of a query holds only when both sides are there. The
  server's own text functions (`::jsonb`, `decode`, `::timestamptz`, the text of a value) and
  `digest` are parameters: the functions below only compare what they return. What they raise
  on is `none`: it is of class 22, except for the cast to `jsonb`, which can also run out of
  stack on a text that nests too deep and so keeps the class of its error.
-/

import ContextEngine.Runtime.Evidence

namespace ContextEngine.Postgres

open ContextEngine.Runtime

/-- A `timestamptz`, in microseconds since the epoch of the clock. -/
abbrev Timestamp := Nat

def MICROS : Nat := 1000000

/-- `date_trunc('second', t)`. -/
def truncSecond (t : Timestamp) : Timestamp := t / MICROS * MICROS

def MAX_BIGINT : Nat := 9223372036854775807

/-- `session_user`, as far as the functions tell it apart. -/
inductive Role where
  | control
  | worker
  | learning
  | action
  | scheduler
  | migrator
  | other
  deriving DecidableEq

/-! ## Nullable columns -/

section Nullable

variable {α : Type} [DecidableEq α]

/-- `a = b` as a condition of a query. -/
def sqlEq (a b : Option α) : Bool :=
  match a, b with
  | some x, some y => x == y
  | _, _ => false

theorem sqlEq_iff {a b : Option α} : sqlEq a b = true ↔ ∃ x, a = some x ∧ b = some x := by
  cases a with
  | none => simp [sqlEq]
  | some x =>
    cases b with
    | none => simp [sqlEq]
    | some y => simpa [sqlEq] using eq_comm

/-- `t < column` as a condition of a query. -/
def sqlBefore (t : Nat) (column : Option Nat) : Bool := column.any fun e => decide (t < e)

/-- `column <= t` as a condition of a query. -/
def sqlReached (column : Option Nat) (t : Nat) : Bool := column.any fun e => decide (e ≤ t)

end Nullable

/-! ## `jsonb` -/

/-- A `numeric`: `unscaled / 10 ^ scale`, printed with `scale` digits after the point. -/
structure Numeric where
  unscaled : Int
  scale : Nat
  deriving DecidableEq

inductive Jsonb where
  | null
  | bool (value : Bool)
  | number (value : Numeric)
  | string (value : String)
  | array (elements : List Jsonb)
  | object (members : List (String × Jsonb))

/-- What `jsonb_typeof` names. -/
inductive JsonbType where
  | null
  | boolean
  | number
  | string
  | array
  | object
  deriving DecidableEq

namespace Jsonb

def type : Jsonb → JsonbType
  | null => .null
  | bool _ => .boolean
  | number _ => .number
  | string _ => .string
  | array _ => .array
  | object _ => .object

/-- `value -> key`; NULL on anything but an object with that member. -/
def get (value : Jsonb) (key : String) : Option Jsonb :=
  match value with
  | object members => (members.find? (·.1 = key)).map (·.2)
  | _ => none

theorem get_nil (key : String) : (object []).get key = none := rfl

theorem get_cons (member : String × Jsonb) (members : List (String × Jsonb)) (key : String) :
    (object (member :: members)).get key = if member.1 = key then some member.2 else (object members).get key := by
  by_cases h : member.1 = key
  · simp [get, h]
  · simp [get, h]

/-- `jsonb_typeof(value) = t` for a nullable value. -/
def isA (t : JsonbType) (value : Option Jsonb) : Bool := value.any fun v => decide (v.type = t)

/-- `value IS NOT DISTINCT FROM 'null'::jsonb`. -/
def isNull : Option Jsonb → Bool
  | some null => true
  | _ => false

/-- `jsonb_array_elements(value)` of an array. -/
def elements : Option Jsonb → List Jsonb
  | some (array es) => es
  | _ => []

end Jsonb

/-- The errors that a handler for `data_exception` catches, and all others. -/
inductive ErrorClass where
  | dataException
  | other
  deriving DecidableEq

/-- A cast that fails as one of no JSON text does. -/
def castOf (value : Option Jsonb) : Except ErrorClass Jsonb :=
  match value with
  | some v => .ok v
  | none => .error .dataException

@[simp] theorem castOf_toOption (value : Option Jsonb) : (castOf value).toOption = value := by
  cases value <;> rfl

@[simp] theorem castOf_eq_ok {value : Option Jsonb} {v : Jsonb} : castOf value = .ok v ↔ value = some v := by
  cases value <;> simp [castOf]

/-- The server's functions that the checks call. -/
structure Server where
  /-- `convert_from(bytes, 'UTF8')::jsonb`. -/
  castJsonb : List UInt8 → Except ErrorClass Jsonb
  /-- `decode(text, 'base64')`. -/
  decodeBase64 : String → Option (List UInt8)
  /-- `text::timestamptz`. -/
  timestamptz : String → Option Timestamp
  /-- `text::bigint`. -/
  bigint : String → Option Int
  /-- `digest(bytes, 'sha256')`. -/
  digest : List UInt8 → Python.Sha256Digest
  /-- `id::text`. -/
  uuidText : UUID → String
  /-- The text of a number, a boolean, an array or an object. -/
  valueText : Jsonb → String

/-- The cast where nothing handles its error. -/
def Server.parseJsonb (server : Server) (bytes : List UInt8) : Option Jsonb := (server.castJsonb bytes).toOption

theorem Server.parseJsonb_eq_some {server : Server} {bytes : List UInt8} {v : Jsonb} :
    server.parseJsonb bytes = some v ↔ server.castJsonb bytes = .ok v := by
  unfold Server.parseJsonb
  cases server.castJsonb bytes with
  | ok _ => simp [Except.toOption]
  | error _ => simp [Except.toOption]

/-- `value ->> key`, after the member was taken. -/
def Server.text (server : Server) : Option Jsonb → Option String
  | none => none
  | some .null => none
  | some (.string s) => some s
  | some v => some (server.valueText v)

/-! ## Text -/

/-- `btrim(s) = ''`. -/
def trimsEmpty (s : String) : Bool := s.toList.all (· == ' ')

/-- `s <> btrim(s)`. -/
def hasMargin (s : String) : Bool := s.toList.head? == some ' ' || s.toList.getLast? == some ' '

/-- The regular expression of a UUID's text. -/
def isUuidText (s : String) : Bool :=
  s.toList.length == 36 &&
    s.toList.zipIdx.all fun ci => if ci.2 = 8 ∨ ci.2 = 13 ∨ ci.2 = 18 ∨ ci.2 = 23
      then ci.1 == '-' else Python.hexDigits.contains ci.1

/-- `[[:space:]]`. -/
def isSpace (c : Char) : Bool :=
  let n := c.toNat
  decide (9 ≤ n ∧ n ≤ 13) || n == 0x20 || n == 0x85 || n == 0xa0 || n == 0x1680 || decide (0x2000 ≤ n ∧ n ≤ 0x200a) ||
    n == 0x2028 || n == 0x2029 || n == 0x202f || n == 0x205f || n == 0x3000

/-- `'T.*(Z|[+-][0-9]{2}:[0-9]{2})$'`. -/
def isZonedInstant (s : String) : Bool :=
  match s.toList.reverse with
  | 'Z' :: rest => rest.contains 'T'
  | m2 :: m1 :: ':' :: h2 :: h1 :: sign :: rest =>
    m2.isDigit && m1.isDigit && h2.isDigit && h1.isDigit && (sign == '+' || sign == '-') && rest.contains 'T'
  | _ => false

end ContextEngine.Postgres
