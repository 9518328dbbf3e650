import SqlPlan.Binary64
import SqlPlan.Decimal.Integer

/-!
# Reading doubles

A text is read up to its first NUL byte. It may be a decimal number with a point and an exponent,
a hexadecimal number with a binary exponent, an infinity or a mark for "not a number", each after
white space and a sign, and nothing may follow. A number that is too large, or that loses digits
below the least normal double, is refused (`Binary64.nearest?`).
-/

namespace SqlPlan.Decimal

/-- The value of a hexadecimal digit. -/
def hexDigit? (b : UInt8) : Option Nat :=
  if Byte.isDigit b then some (b.toNat - 48)
  else
    let b := Byte.toLower b
    if 97 ≤ b && b ≤ 102 then some (b.toNat - 87) else none

/-- The number that a list of digits spells in a base. -/
def valueIn (base : Nat) (digit? : UInt8 → Option Nat) (ds : Bytes) : Nat :=
  ds.foldl (fun n d => base * n + (digit? d).getD 0) 0

/-- The value of a decimal digit. -/
def decimalDigit? (b : UInt8) : Option Nat := if Byte.isDigit b then some (b.toNat - 48) else none

/-- A mantissa: digits with at most one point, at least one digit. Gives the number that all the
digits spell, how many of them stand after the point, and the rest of the text. -/
def mantissa? (base : Nat) (digit? : UInt8 → Option Nat) (s : Bytes) : Option (Nat × Nat × Bytes) :=
  let isDigit b := (digit? b).isSome
  let whole := s.takeWhile isDigit
  let rest := s.dropWhile isDigit
  let (part, rest) := match rest with
    | [] => ([], [])
    | b :: r => if b = Byte.point then (r.takeWhile isDigit, r.dropWhile isDigit) else ([], b :: r)
  if whole.isEmpty && part.isEmpty then none
  else some (valueIn base digit? (whole ++ part), part.length, rest)

/-- An exponent that ends the text: nothing, or the mark and an integer. -/
def exponent? (mark : UInt8) : Bytes → Option Int
  | [] => some 0
  | b :: s =>
    if Byte.toLower b = mark then
      let (negative, ds) := sign s
      if ds.isEmpty || !ds.all Byte.isDigit then none else some (signed negative (digitsValue ds))
    else none

/-- The double nearest to `n · 10 ^ e`. Exponents far outside the range of doubles are decided
without computing the power. -/
def nearestDecimal? (negative : Bool) (n : Nat) (e : Int) : Option Float :=
  let size : Int := (natText n).length + e
  if n = 0 then Binary64.nearest? negative 0 1
  else if size > 400 ∨ size < -400 then none
  else match e with
    | .ofNat e => Binary64.nearest? negative (n * Nat.pow 10 e) 1
    | .negSucc e => Binary64.nearest? negative n (Nat.pow 10 (e + 1))

/-- The double nearest to `n · 2 ^ e`. -/
def nearestBinary? (negative : Bool) (n : Nat) (e : Int) : Option Float :=
  let size : Int := n.log2 + e
  if n = 0 then Binary64.nearest? negative 0 1
  else if size > 1100 ∨ size < -1200 then none
  else match e with
    | .ofNat e => Binary64.nearest? negative (n * Nat.pow 2 e) 1
    | .negSucc e => Binary64.nearest? negative n (Nat.pow 2 (e + 1))

/-- A number without its sign, to the end of the text. -/
def readMagnitude? (negative : Bool) (s : Bytes) : Option Float :=
  match s.map Byte.toLower with
  | 48 :: 120 :: hex => do
    let (n, places, rest) ← mantissa? 16 hexDigit? hex
    let e ← exponent? 112 rest
    nearestBinary? negative n (e - 4 * places)
  | s => do
    let (n, places, rest) ← mantissa? 10 decimalDigit? s
    let e ← exponent? 101 rest
    nearestDecimal? negative n (e - places)

/-- May the byte stand between the brackets of a mark for "not a number"? -/
def isPayload (b : UInt8) : Bool := Byte.isAlpha b || Byte.isDigit b || b == Byte.underscore

/-- A name for an infinity or for "not a number", in any case, to the end of the text. -/
def readNamed? (negative : Bool) (s : Bytes) : Option Float :=
  let s := Bytes.fold s
  if s = ascii "inf" ∨ s = ascii "infinity" then some (Binary64.infinity negative)
  else if s = ascii "nan" then some (Binary64.notANumber negative)
  else if (ascii "nan(").isPrefixOf s ∧ (s.drop 4).dropWhile isPayload = ascii ")" then
    some (Binary64.notANumber negative)
  else none

/-- Reads a text up to its first NUL byte as a double, with nothing after it. A text that is
empty up to there reads as zero. -/
def readFloat? (s : Bytes) : Option Float :=
  let s := Bytes.upToNul s
  if s.isEmpty then some (Binary64.assemble false 0 0)
  else
    let (negative, s) := sign (s.dropWhile Byte.isSpace)
    (readNamed? negative s).orElse fun _ => readMagnitude? negative s

end SqlPlan.Decimal
