import SqlPlan.Expr.References
import SqlPlan.Paging

/-!
# Queries

A query is a SELECT as data: one field for each clause, in any state that the building functions
reach. An empty projection stands for all columns, or for the group keys where rows are grouped.
-/

namespace SqlPlan

/-- A column of the result and the expression it holds. -/
structure Item where
  /-- the name of the column -/
  column : Bytes
  /-- what it holds -/
  value : Expr
deriving DecidableEq

/-- The item that a projection assigns to a field of its shape. -/
def Entity.assign (e : Entity) (f : Field) (value : Expr) : Except TranslationError Item :=
  match e.bound? f with
  | some p => .ok ⟨p.column, value⟩
  | none => .error (.undeclaredTarget e.table)

/-- A term of an ordering. -/
structure OrderTerm where
  /-- what to order by -/
  key : Expr
  /-- the greatest first? -/
  descending : Bool := false
deriving DecidableEq

/-- A second entity, joined where two keys are equal. -/
structure Join where
  /-- are rows without a partner kept? -/
  kind : JoinKind
  /-- the second entity -/
  inner : EntityId
  /-- the key on the source's side -/
  outerKey : Expr
  /-- the key on the second entity's side -/
  innerKey : Expr
deriving DecidableEq

/-- A SELECT, clause by clause. -/
structure Query where
  /-- the entity the rows come from -/
  source : EntityId
  /-- the second entity -/
  join : Option Join := none
  /-- the projection -/
  items : List Item := []
  /-- the predicates on rows, all of which must hold -/
  filters : List Expr := []
  /-- what rows are grouped by -/
  keys : List Expr := []
  /-- the predicates on groups, all of which must hold -/
  having : List Expr := []
  /-- the ordering -/
  order : List OrderTerm := []
  /-- the window of rows -/
  paging : Paging := {}
  /-- are equal rows given once? -/
  distinct : Bool := false
deriving DecidableEq, Inhabited

namespace Query

/-- Are the rows grouped? -/
def isGrouped (q : Query) : Bool := !q.keys.isEmpty

/-- Is there a projection? -/
def isProjected (q : Query) : Bool := !q.items.isEmpty

/-- Is there an ordering or a window? Then the query is no bare part of a set operation. -/
def isOrderedOrPaged (q : Query) : Bool := !q.order.isEmpty || q.paging.isPaged

/-- Must a question about the rows be put to the whole query as a table? -/
def needsSubquery (q : Query) : Bool := q.distinct || q.paging.isPaged || q.isGrouped

/-- What all the clauses refer to: projection, join, filters, group keys, group filters, order. -/
def references (q : Query) : References :=
  .concat <|
    q.items.map (·.value.references) ++
    (match q.join with
      | none => []
      | some j => [j.outerKey.references, j.innerKey.references]) ++
    q.filters.map Expr.references ++
    q.keys.map Expr.references ++
    q.having.map Expr.references ++
    q.order.map (·.key.references)

end Query

end SqlPlan
