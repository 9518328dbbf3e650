/-!
# Double precision numbers as ratios

A finite double is a sign and a significand times a power of two. `Binary64.ofFloat` takes a
double apart, `roundHalfEven` rounds a ratio of natural numbers to the nearest one, and
`nearest?` builds the double nearest to a ratio. `nearest?` refuses two kinds of ratio: those
that round past the largest double, and those that lose digits below the least normal double.
-/

namespace SqlPlan

/-- What a double stands for. -/
inductive Binary64 where
  /-- not a number -/
  | nan
  /-- an infinity -/
  | infinite (negative : Bool)
  /-- the number `significand · 2 ^ exponent`, with its sign -/
  | finite (negative : Bool) (significand : Nat) (exponent : Int)
deriving DecidableEq, Repr

namespace Binary64

/-- Takes a double apart. -/
def ofFloat (x : Float) : Binary64 :=
  let bits := x.toBits.toNat
  let negative := bits / Nat.pow 2 63 == 1
  let exponent : Nat := bits / Nat.pow 2 52 % Nat.pow 2 11
  let fraction : Nat := bits % Nat.pow 2 52
  if exponent = 2047 then
    if fraction = 0 then .infinite negative else .nan
  else if exponent = 0 then .finite negative fraction (-1074)
  else .finite negative (Nat.pow 2 52 + fraction) ((exponent : Int) - 1075)

/-- The double with the given sign, exponent field and fraction field. -/
def assemble (negative : Bool) (exponent fraction : Nat) : Float :=
  Float.ofBits ((if negative then Nat.pow 2 63 else 0) + exponent * Nat.pow 2 52 + fraction).toUInt64

/-- The infinity of a sign. -/
def infinity (negative : Bool) : Float := assemble negative 2047 0

/-- A number that is not a number, of a sign. -/
def notANumber (negative : Bool) : Float := assemble negative 2047 (Nat.pow 2 51)

/-- The natural number nearest to a ratio; of two equally near ones, the even one. -/
def roundHalfEven (num den : Nat) : Nat :=
  let q := num / den
  let r := num % den
  if 2 * r < den then q
  else if den < 2 * r then q + 1
  else q + q % 2

/-- The ratio `num / den / 2 ^ e` as numerator and denominator. -/
def scaled (num den : Nat) (e : Int) : Nat × Nat :=
  match e with
  | .ofNat e => (num, den * Nat.pow 2 e)
  | .negSucc e => (num * Nat.pow 2 (e + 1), den)

/-- The exponent `e` with `2 ^ e ≤ num / den < 2 ^ (e + 1)`, for a positive ratio. -/
def floorLog2 (num den : Nat) : Int :=
  let e : Int := (num.log2 : Int) - den.log2
  let (n, d) := scaled num den e
  if d ≤ n then e else e - 1

/-- The double nearest to a ratio, ties to the even significand. There is none when the ratio
rounds to `2 ^ 1024` or more, nor when its 53-digit rounding is below `2 ^ -1022` and the ratio
is no multiple of the least subnormal double. -/
def nearest? (negative : Bool) (num den : Nat) : Option Float :=
  if num = 0 then some (assemble negative 0 0)
  else
    let e := floorLog2 num den - 52
    let (n, d) := scaled num den e
    let m := roundHalfEven n d
    let (m, e) := if m = Nat.pow 2 53 then (Nat.pow 2 52, e + 1) else (m, e)
    if 971 < e then none
    else if -1074 ≤ e then some (assemble negative (e + 1075).toNat (m - Nat.pow 2 52))
    else
      let (n, d) := scaled num den (-1074)
      if n % d = 0 then some (assemble negative 0 (n / d)) else none

end Binary64

end SqlPlan
