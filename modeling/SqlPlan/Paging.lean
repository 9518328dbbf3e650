import SqlPlan.Decimal.Integer
import SqlPlan.TranslationError

/-!
# Paging

How many rows of a result to give, and how many to skip before them. Without a limit an offset
needs one in the SQL all the same, which is written as -1.
-/

namespace SqlPlan

/-- The window of rows that a plan asks for. -/
structure Paging where
  /-- at most so many rows -/
  limit : Option Nat := none
  /-- after so many rows -/
  offset : Option Nat := none
deriving DecidableEq, Inhabited

namespace Paging

/-- Does the plan ask for less than everything? -/
def isPaged (p : Paging) : Bool := p.limit.isSome || p.offset.isSome

/-- Sets the number of rows, which must be positive. -/
def take (p : Paging) (n : Int) : Except TranslationError Paging :=
  if n ≤ 0 then .error (.badTake n) else .ok { p with limit := some n.toNat }

/-- Sets the number of rows to skip, which must not be negative. -/
def skip (p : Paging) (n : Int) : Except TranslationError Paging :=
  if n < 0 then .error (.badSkip n) else .ok { p with offset := some n.toNat }

/-- A bound on the number of rows that a negative number does not set. -/
def bound (n : Int) : Option Nat := if n < 0 then none else some n.toNat

/-- Lowers the number of rows to `n`, if it was not lower before. -/
def limitTo (p : Paging) (n : Int) : Paging :=
  match p.limit with
  | none => { p with limit := bound n }
  | some m => if n < m then { p with limit := bound n } else p

/-- The clause at the end of a SELECT. -/
def text (p : Paging) : Bytes :=
  (match p.limit, p.offset with
    | some n, _ => ascii " LIMIT " ++ Decimal.natText n
    | none, some _ => ascii " LIMIT -1"
    | none, none => []) ++
  (match p.offset with
    | some m => ascii " OFFSET " ++ Decimal.natText m
    | none => [])

end Paging

end SqlPlan
