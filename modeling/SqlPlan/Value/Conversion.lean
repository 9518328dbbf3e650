import SqlPlan.Value
import SqlPlan.Decimal.Reading

/-!
# Converting values

A value becomes an integer, a double, a text or a truth value only when nothing is lost that the
target could not hold: a text must be a number from its first byte to its end (or its first NUL),
a real must be a whole number to become an integer, and an integer must lie in the range asked
for. Each refusal is a `ConversionError`.
-/

namespace SqlPlan

/-- Why a value has no form of the kind asked for. -/
inductive ConversionError where
  /-- the empty text is no integer -/
  | emptyInteger
  /-- the text spells no 64-bit integer -/
  | notInteger (s : Bytes)
  /-- the empty text is no number -/
  | emptyNumber
  /-- the text spells no double -/
  | notNumber (s : Bytes)
  /-- the real has a fraction or is out of the integers' range -/
  | notWhole (x : Float)
  /-- NULL as an integer -/
  | nullInteger
  /-- NULL as a double -/
  | nullNumber
  /-- NULL as a text -/
  | nullText
  /-- the integer, spelled as in the value it came from, is out of the target's range -/
  | outOfRange (v : Value)
  /-- the text names no truth value -/
  | notBoolean (s : Bytes)
deriving DecidableEq

/-- The wording of a refusal; it ends where a text in it has a NUL byte. -/
def ConversionError.message (e : ConversionError) : Bytes :=
  Bytes.upToNul <| match e with
    | .emptyInteger => ascii "empty text is not an integer"
    | .notInteger s => ascii "text '" ++ s ++ ascii "' is not an integer"
    | .emptyNumber => ascii "empty text is not a number"
    | .notNumber s => ascii "text '" ++ s ++ ascii "' is not a number"
    | .notWhole x => ascii "real " ++ Decimal.short x ++ ascii " has no exact integer value"
    | .nullInteger => ascii "NULL has no integer value"
    | .nullNumber => ascii "NULL has no numeric value"
    | .nullText => ascii "NULL has no text value"
    | .outOfRange v => ascii "integer " ++ v.str ++ ascii " out of range"
    | .notBoolean s => ascii "text '" ++ s ++ ascii "' is not a boolean"

/-- The class of a refusal. An integer out of range is an invalid argument too. -/
def ConversionError.kind (_ : ConversionError) : ErrorClass := .invalidArgument

namespace Value

/-- 2 ^ 63 as a double. -/
def twoTo63 : Float := Float.ofBits 0x43e0000000000000

/-- The value as a 64-bit integer. -/
def asInteger : Value → Except ConversionError Int64
  | .integer n => .ok n
  | .real x =>
    if x.floor != x || x < -twoTo63 || x > twoTo63 then .error (.notWhole x) else .ok x.toInt64
  | .text s =>
    if s.isEmpty then .error .emptyInteger
    else match Decimal.readInt64? s with
      | some n => .ok n
      | none => .error (.notInteger s)
  | .null => .error .nullInteger

/-- The value as a double. -/
def asReal : Value → Except ConversionError Float
  | .integer n => .ok n.toFloat
  | .real x => .ok x
  | .text s =>
    if s.isEmpty then .error .emptyNumber
    else match Decimal.readFloat? s with
      | some x => .ok x
      | none => .error (.notNumber s)
  | .null => .error .nullNumber

/-- The value as a text. -/
def asText : Value → Except ConversionError Bytes
  | .null => .error .nullText
  | v => .ok v.str

/-- The value as an integer of a range. -/
def asIntegerIn (lo hi : Int) (v : Value) : Except ConversionError Int64 := do
  let n ← v.asInteger
  if n.toInt < lo ∨ hi < n.toInt then .error (.outOfRange v) else .ok n

/-- The value as a truth value: of the texts only four words, of the numbers all but zero. -/
def asBool : Value → Except ConversionError Bool
  | .text s =>
    if s = ascii "true" ∨ s = ascii "1" then .ok true
    else if s = ascii "false" ∨ s = ascii "0" then .ok false
    else .error (.notBoolean s)
  | v => do return (← v.asInteger) != 0

end Value

end SqlPlan
