import SqlPlan.Bytes

/-!
# Operators and keywords

The fixed words of the emitted SQL: operators, functions, aggregates, joins and set operations,
each with its spelling.
-/

namespace SqlPlan

/-- Arithmetic on values. -/
inductive ArithOp where
  | add
  | sub
  | mul
  | div
deriving DecidableEq, Repr

/-- The spelling of an arithmetic operator. -/
def ArithOp.text : ArithOp → Bytes
  | .add => ascii "+"
  | .sub => ascii "-"
  | .mul => ascii "*"
  | .div => ascii "/"

/-- Comparisons of values. -/
inductive CompareOp where
  | eq
  | ne
  | lt
  | le
  | gt
  | ge
deriving DecidableEq, Repr

/-- The spelling of a comparison. -/
def CompareOp.text : CompareOp → Bytes
  | .eq => ascii "="
  | .ne => ascii "!="
  | .lt => ascii "<"
  | .le => ascii "<="
  | .gt => ascii ">"
  | .ge => ascii ">="

/-- The two ways to join predicates. -/
inductive LogicOp where
  | and
  | or
deriving DecidableEq, Repr

/-- The spelling of a connective. -/
def LogicOp.text : LogicOp → Bytes
  | .and => ascii "AND"
  | .or => ascii "OR"

/-- Functions of one text. -/
inductive TextFunction where
  | lower
  | upper
deriving DecidableEq, Repr

/-- The spelling of a text function. -/
def TextFunction.text : TextFunction → Bytes
  | .lower => ascii "LOWER"
  | .upper => ascii "UPPER"

/-- Functions over the rows of a group. -/
inductive Aggregate where
  | count
  | sum
  | avg
  | min
  | max
deriving DecidableEq, Repr

/-- The spelling of an aggregate. -/
def Aggregate.text : Aggregate → Bytes
  | .count => ascii "COUNT"
  | .sum => ascii "SUM"
  | .avg => ascii "AVG"
  | .min => ascii "MIN"
  | .max => ascii "MAX"

/-- Where the text of a LIKE pattern is held fast. -/
inductive Anchor where
  | anywhere
  | start
  | finish
deriving DecidableEq, Repr

/-- The pattern that finds a text at its anchor. -/
def Anchor.pattern : Anchor → Bytes → Bytes
  | .anywhere, s => ascii "%" ++ s ++ ascii "%"
  | .start, s => s ++ ascii "%"
  | .finish, s => ascii "%" ++ s

/-- The kinds of join. -/
inductive JoinKind where
  | inner
  | left
deriving DecidableEq, Repr

/-- The keyword of a join. -/
def JoinKind.text : JoinKind → Bytes
  | .inner => ascii "INNER JOIN"
  | .left => ascii "LEFT JOIN"

/-- The two sides of a join. -/
inductive JoinSide where
  | outer
  | inner
deriving DecidableEq, Repr

/-- The name of a side in messages. -/
def JoinSide.text : JoinSide → Bytes
  | .outer => ascii "outer"
  | .inner => ascii "inner"

/-- The set operations. -/
inductive SetOp where
  | union
  | unionAll
  | intersect
  | except
deriving DecidableEq, Repr

/-- The keyword of a set operation. -/
def SetOp.text : SetOp → Bytes
  | .union => ascii "UNION"
  | .unionAll => ascii "UNION ALL"
  | .intersect => ascii "INTERSECT"
  | .except => ascii "EXCEPT"

/-- The ways to write an object. -/
inductive WriteVerb where
  | insert
  | upsert
deriving DecidableEq, Repr

/-- The keywords of a write, up to the table name. -/
def WriteVerb.text : WriteVerb → Bytes
  | .insert => ascii "INSERT INTO "
  | .upsert => ascii "INSERT OR REPLACE INTO "

end SqlPlan
