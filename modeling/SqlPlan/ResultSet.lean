import SqlPlan.Row

/-!
# Results

What a backend gives for a statement: its rows, and what it changed. A result may say of itself
that it is no success, and list errors.
-/

namespace SqlPlan

/-- The result of a statement. -/
structure ResultSet where
  /-- the rows -/
  rows : List Row := []
  /-- the names of the columns -/
  columns : List Bytes := []
  /-- how many rows were changed -/
  changes : Int := 0
  /-- the row number that was last inserted -/
  lastInsertId : Int := 0
  /-- did it work? -/
  success : Bool := true
  /-- what went wrong, if it did not -/
  errors : List Bytes := []
  /-- how long it took, in milliseconds -/
  durationMs : Float := Float.ofBits 0
deriving DecidableEq, Inhabited

end SqlPlan
