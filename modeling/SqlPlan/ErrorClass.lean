/-!
# Classes of errors

What is wrong with an option, a connection string or a value to be converted falls in one of three
classes, by which a caller can tell errors apart without their messages.
-/

namespace SqlPlan

/-- The classes of errors in options, connection strings and conversions. -/
inductive ErrorClass where
  /-- a text is not of the form it should have -/
  | invalidArgument
  /-- a number is too large or too small -/
  | outOfRange
  /-- what was asked for is not there -/
  | unavailable
deriving DecidableEq, Repr

end SqlPlan
