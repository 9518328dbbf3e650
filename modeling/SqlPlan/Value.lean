import SqlPlan.Decimal.General

/-!
# Values

A value is what a parameter carries and what a cell of a result row holds. It has four families,
and nothing converts between them silently: the typed key of a value names its family, so the
integer 25 and the text `25` have different keys.

Two equalities live here. Equality as Lean terms compares doubles by their bits; `Value.same` is
the equality of the data model and compares doubles as numbers, so the two zeros are the same and
no NaN is the same as anything.
-/

namespace SqlPlan

/-- The family a value belongs to. -/
inductive Family where
  | null
  | integer
  | real
  | text
deriving DecidableEq, Repr

/-- The name of a family. -/
def Family.name : Family → Bytes
  | .null => ascii "null"
  | .integer => ascii "integer"
  | .real => ascii "real"
  | .text => ascii "text"

/-- A value of a parameter or a cell. -/
inductive Value where
  /-- no value -/
  | null
  /-- a signed 64-bit integer -/
  | integer (n : Int64)
  /-- a double -/
  | real (x : Float)
  /-- a byte string -/
  | text (s : Bytes)
deriving DecidableEq, Inhabited

/-- Text as a literal between single quotes, with each quote inside it doubled. -/
def quoted (s : Bytes) : Bytes :=
  Byte.quote :: s.flatMap (fun b => if b = Byte.quote then [b, b] else [b]) ++ [Byte.quote]

namespace Value

/-- The family of a value. -/
def family : Value → Family
  | .null => .null
  | .integer _ => .integer
  | .real _ => .real
  | .text _ => .text

/-- Is there no value? -/
def isNull : Value → Bool
  | .null => true
  | _ => false

/-- A truth value is stored as the integer 0 or 1. -/
def ofBool (b : Bool) : Value := .integer (if b then 1 else 0)

/-- The plain text of a value, which does not show its family. -/
def str : Value → Bytes
  | .null => []
  | .integer n => Decimal.intText n.toInt
  | .real x => Decimal.short x
  | .text s => s

/-- The value as it would be written in SQL, for logs only. -/
def literal : Value → Bytes
  | .null => ascii "NULL"
  | .text s => quoted s
  | v => v.str

/-- The typed key of a value: a letter for its family, a colon and the value. -/
def key : Value → Bytes
  | .null => ascii "n:"
  | .integer n => ascii "i:" ++ Decimal.intText n.toInt
  | .real x => ascii "r:" ++ Decimal.full x
  | .text s => ascii "t:" ++ s

/-- Equality of the data model. -/
def same : Value → Value → Bool
  | .null, .null => true
  | .integer m, .integer n => m == n
  | .real x, .real y => x == y
  | .text s, .text t => s == t
  | _, _ => false

@[simp] theorem isNull_null : isNull .null = true := rfl
@[simp] theorem isNull_integer (n : Int64) : isNull (.integer n) = false := rfl
@[simp] theorem isNull_real (x : Float) : isNull (.real x) = false := rfl
@[simp] theorem isNull_text (s : Bytes) : isNull (.text s) = false := rfl

theorem isNull_iff {v : Value} : v.isNull = true ↔ v = .null := by cases v <;> simp [isNull]

end Value

end SqlPlan
