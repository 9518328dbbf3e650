import SqlPlan.Bytes
import SqlPlan.ErrorClass

/-!
# Integers in decimal

Writing gives the digits without leading zeros, after a minus sign for a negative number. Reading
takes the longest beginning that is white space, an optional sign and digits; what a reader does
with the text that is left is its own rule (`readWhole?` wants none).
-/

namespace SqlPlan.Decimal

/-- The digits of a natural number. -/
def natText (n : Nat) : Bytes := (Nat.toDigits 10 n).map fun c => c.toNat.toUInt8

/-- The decimal text of an integer. -/
def intText : Int → Bytes
  | .ofNat n => natText n
  | .negSucc n => Byte.minus :: natText (n + 1)

/-- The number that a list of digits spells. -/
def digitsValue (ds : Bytes) : Nat := ds.foldl (fun n d => 10 * n + (d.toNat - 48)) 0

/-- An optional sign: whether it was a minus, and the text after it. -/
def sign : Bytes → Bool × Bytes
  | [] => (false, [])
  | b :: s =>
    if b = Byte.minus then (true, s)
    else if b = Byte.plus then (false, s)
    else (false, b :: s)

/-- An integer with the sign read before its digits. -/
def signed (negative : Bool) (n : Nat) : Int := if negative then -n else n

/-- The integer at the beginning of a text and the text after it; `none` when no digit follows
the white space and the sign. -/
def readLeading? (s : Bytes) : Option (Int × Bytes) :=
  let (negative, s) := sign (s.dropWhile Byte.isSpace)
  let ds := s.takeWhile Byte.isDigit
  if ds.isEmpty then none
  else some (signed negative (digitsValue ds), s.dropWhile Byte.isDigit)

/-- The integer that a whole text spells. -/
def readWhole? (s : Bytes) : Option Int :=
  match readLeading? s with
  | some (n, []) => some n
  | _ => none

/-- Reads a text up to its first NUL byte as a 64-bit integer, with nothing after the digits. A
text that is empty up to there reads as zero. -/
def readInt64? (s : Bytes) : Option Int64 :=
  let s := Bytes.upToNul s
  if s.isEmpty then some 0
  else (readWhole? s).bind fun n =>
    if Int64.minValue.toInt ≤ n ∧ n ≤ Int64.maxValue.toInt then some (Int64.ofInt n) else none

/-- How reading a number out of a longer text can fail. -/
inductive ReadError where
  /-- no digit was found -/
  | noDigits
  /-- the number does not fit -/
  | outOfRange
deriving DecidableEq, Repr

/-- The message of a failure to read, whichever it is. -/
def ReadError.message (_ : ReadError) : Bytes := ascii "stoi"

/-- The class of a failure to read. -/
def ReadError.kind : ReadError → ErrorClass
  | .noDigits => .invalidArgument
  | .outOfRange => .outOfRange

/-- Reads the 32-bit integer at the beginning of a text and ignores what follows it. -/
def readLeadingInt32 (s : Bytes) : Except ReadError Int :=
  match readLeading? s with
  | none => .error .noDigits
  | some (n, _) =>
    if Int32.minValue.toInt ≤ n ∧ n ≤ Int32.maxValue.toInt then .ok n else .error .outOfRange

end SqlPlan.Decimal
