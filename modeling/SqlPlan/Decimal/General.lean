import SqlPlan.Binary64
import SqlPlan.Decimal.Integer

/-!
# Doubles in general notation

The general notation of a double to `digits` significant digits: the value is rounded to that
many digits, ties to even on the exact value, and written positionally when its decimal exponent
is at least -4 and below `digits`, else in scientific form with an exponent of at least two
digits. Zeros at the end of the fraction are dropped.
-/

namespace SqlPlan.Decimal

/-- The number of decimal digits of a natural number. -/
def digitCount (n : Nat) : Nat := (Nat.toDigits 10 n).length

/-- The exponent `x` with `10 ^ x ≤ num / den < 10 ^ (x + 1)`, for a positive ratio. -/
def floorLog10 (num den : Nat) : Int :=
  if den ≤ num then (digitCount (num / den) : Int) - 1
  else -(digitCount ((num - 1 + den) / num - 1) : Int)

/-- A positive ratio rounded to `digits` digits: the digits as one number, and the decimal
exponent of the first of them. -/
def significant (digits num den : Nat) : Nat × Int :=
  let x := floorLog10 num den
  let shift := (digits : Int) - 1 - x
  let n := match shift with
    | .ofNat k => Binary64.roundHalfEven (num * Nat.pow 10 k) den
    | .negSucc k => Binary64.roundHalfEven num (den * Nat.pow 10 (k + 1))
  if n = Nat.pow 10 digits then (Nat.pow 10 (digits - 1), x + 1) else (n, x)

/-- A text without the zeros at its end. -/
def trimZeros (s : Bytes) : Bytes := (s.reverse.dropWhile (· == 48)).reverse

/-- The point and the digits after it, or nothing when there are none. -/
def fraction (s : Bytes) : Bytes := if s.isEmpty then [] else Byte.point :: s

/-- The exponent part: the letter, the sign and at least two digits. -/
def exponentText (x : Int) : Bytes :=
  let ds := natText x.natAbs
  101 :: (if x < 0 then Byte.minus else Byte.plus) :: (if ds.length < 2 then 48 :: ds else ds)

/-- The text of a positive number with its significant digits `n` and decimal exponent `x`. -/
def layout (digits n : Nat) (x : Int) : Bytes :=
  let ds := natText n
  if x < -4 ∨ (digits : Int) ≤ x then
    ds.take 1 ++ fraction (trimZeros (ds.drop 1)) ++ exponentText x
  else match x with
    | .ofNat x => ds.take (x + 1) ++ fraction (trimZeros (ds.drop (x + 1)))
    | .negSucc x => 48 :: fraction (List.replicate x 48 ++ trimZeros ds)

/-- The general notation of a double to `digits` significant digits. -/
def general (digits : Nat) (x : Float) : Bytes :=
  match Binary64.ofFloat x with
  | .nan => ascii "nan"
  | .infinite negative => (if negative then ascii "-" else []) ++ ascii "inf"
  | .finite negative m e =>
    (if negative then ascii "-" else []) ++
      if m = 0 then ascii "0"
      else
        let (num, den) := match e with
          | .ofNat e => (m * Nat.pow 2 e, 1)
          | .negSucc e => (m, Nat.pow 2 (e + 1))
        let (n, x) := significant digits num den
        layout digits n x

/-- Six digits, as in messages and logs. -/
def short (x : Float) : Bytes := general 6 x

/-- Seventeen digits, which tell any two doubles apart. -/
def full (x : Float) : Bytes := general 17 x

end SqlPlan.Decimal
