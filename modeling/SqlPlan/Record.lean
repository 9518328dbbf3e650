import SqlPlan.Value.Conversion

/-!
# Records

A record has a cell for every field; a field is a slot of one of eight types. A record that nothing
was read into holds the initial value everywhere. Reading converts a value into a field's type and
may refuse, storing turns a field's content into a value and always works: unsigned 64-bit
numbers wrap to the signed ones, and single precision is widened.
-/

namespace SqlPlan

/-- The types a field can have. -/
inductive FieldType where
  | boolean
  | int32
  | uint32
  | int64
  | uint64
  | single
  | double
  | text
deriving DecidableEq, Repr

namespace FieldType

/-- The contents of a field of this type. -/
@[reducible] def Carrier : FieldType → Type
  | .boolean => Bool
  | .int32 => Int32
  | .uint32 => UInt32
  | .int64 => Int64
  | .uint64 => UInt64
  | .single => Float32
  | .double => Float
  | .text => Bytes

/-- What a field holds before anything is read into it. -/
def initial : (t : FieldType) → t.Carrier
  | .boolean => false
  | .int32 => 0
  | .uint32 => 0
  | .int64 => 0
  | .uint64 => 0
  | .single => Float32.ofBits 0
  | .double => Float.ofBits 0
  | .text => []

/-- Does a field hold its initial value? Doubles are compared as numbers. -/
def isInitial : (t : FieldType) → t.Carrier → Bool
  | .boolean, b => b == false
  | .int32, n => n == 0
  | .uint32, n => n == 0
  | .int64, n => n == 0
  | .uint64, n => n == 0
  | .single, x => x == Float32.ofBits 0
  | .double, x => x == Float.ofBits 0
  | .text, s => s.isEmpty

/-- The content of a field as a value. -/
def store : (t : FieldType) → t.Carrier → Value
  | .boolean, b => Value.ofBool b
  | .int32, n => .integer n.toInt64
  | .uint32, n => .integer n.toUInt64.toInt64
  | .int64, n => .integer n
  | .uint64, n => .integer n.toInt64
  | .single, x => .real x.toFloat
  | .double, x => .real x
  | .text, s => .text s

/-- A value as the content of a field. -/
def read : (t : FieldType) → Value → Except ConversionError t.Carrier
  | .boolean, v => v.asBool
  | .int32, v => do return (← v.asIntegerIn Int32.minValue.toInt Int32.maxValue.toInt).toInt32
  | .uint32, v => do return (← v.asIntegerIn 0 (UInt32.size - 1)).toUInt64.toUInt32
  | .int64, v => v.asInteger
  | .uint64, v => do return (← v.asIntegerIn 0 Int64.maxValue.toInt).toUInt64
  | .single, v => do return (← v.asReal).toFloat32
  | .double, v => v.asReal
  | .text, v => v.asText

end FieldType

/-- A field of a record: a slot of a type. -/
structure Field where
  /-- the type of what it holds -/
  type : FieldType
  /-- which of the fields of that type it is -/
  slot : Nat
deriving DecidableEq, Repr

/-- A record gives each field its content. -/
def Record : Type := (f : Field) → f.type.Carrier

namespace Record

/-- The record that nothing was read into. -/
def initial : Record := fun f => f.type.initial

instance : Inhabited Record := ⟨initial⟩

/-- The record with another content in one field. -/
def set (r : Record) (f : Field) (x : f.type.Carrier) : Record := fun g =>
  if h : g = f then h ▸ x else r g

@[simp] theorem set_self (r : Record) (f : Field) (x : f.type.Carrier) : r.set f x f = x := by
  simp [set]

theorem set_of_ne (r : Record) {f g : Field} (x : f.type.Carrier) (h : g ≠ f) :
    r.set f x g = r g := by simp [set, h]

/-- The content of a field as a value. -/
def store (r : Record) (f : Field) : Value := f.type.store (r f)

/-- Does a field hold its initial value? -/
def isInitial (r : Record) (f : Field) : Bool := f.type.isInitial (r f)

/-- Reads a value into a field. -/
def read (r : Record) (f : Field) (v : Value) : Except ConversionError Record := do
  return r.set f (← f.type.read v)

end Record

end SqlPlan
