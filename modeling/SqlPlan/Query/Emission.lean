import SqlPlan.Expr.Emission
import SqlPlan.Query

/-!
# Emitting queries

The clauses of a query in their fixed order. Filters, join keys and group keys are emitted outside
groups; projection, group filters and ordering see the group keys where there are any. In a query
of two entities every column carries its table's name.
-/

namespace SqlPlan.Query

/-- The scope of the clauses that see single rows. -/
def scope (q : Query) : Scope :=
  { visible := q.source :: (q.join.map (·.inner)).toList, qualified := q.join.isSome }

/-- The scope of the clauses that see groups where there are any. -/
def groupScope (q : Query) : Scope :=
  { q.scope with grouping := if q.isGrouped then some q.keys else none }

/-- Predicates that must all hold, each in parentheses when there are several. -/
def emitAll (Γ : Catalog) (s : Scope) (ps : List Expr) : Except TranslationError Fragment := do
  let fs ← ps.mapM (Expr.emit Γ s)
  return Fragment.joined (Fragment.word " AND ") (fs.map (Fragment.parensIf (1 < ps.length)))

/-- A column of the projection. -/
def emitItem (Γ : Catalog) (s : Scope) (i : Item) : Except TranslationError Fragment := do
  let a ← i.value.emitOperand Γ s
  return a ++ Fragment.ofText (ascii " AS " ++ i.column)

/-- The columns of the result. -/
def emitColumns (q : Query) (Γ : Catalog) : Except TranslationError Fragment := do
  if q.isProjected then
    let fs ← q.items.mapM (emitItem Γ q.groupScope)
    return Fragment.joined (Fragment.word ", ") fs
  else if q.isGrouped then
    let fs ← q.keys.mapM (Expr.emit Γ q.scope)
    return Fragment.joined (Fragment.word ", ") fs
  else
    return Fragment.word "*"

/-- The FROM clause. -/
def emitFrom (q : Query) (Γ : Catalog) : Except TranslationError Fragment := do
  let table := Fragment.ofText (ascii "FROM " ++ (Γ q.source).table)
  match q.join with
  | none => return table
  | some j =>
    let a ← j.outerKey.emitOperand Γ q.scope
    let b ← j.innerKey.emitOperand Γ q.scope
    return table ++
      Fragment.ofText (ascii " " ++ j.kind.text ++ ascii " " ++ (Γ j.inner).table ++
        ascii " ON ") ++ a ++ Fragment.word " = " ++ b

/-- The WHERE clause. -/
def emitWhere (q : Query) (Γ : Catalog) : Except TranslationError Fragment := do
  if q.filters.isEmpty then return []
  return Fragment.word " WHERE " ++ (← emitAll Γ q.scope q.filters)

/-- The GROUP BY clause. -/
def emitKeys (q : Query) (Γ : Catalog) : Except TranslationError Fragment := do
  if !q.isGrouped then return []
  let fs ← q.keys.mapM (Expr.emit Γ q.scope)
  return Fragment.word " GROUP BY " ++ Fragment.joined (Fragment.word ", ") fs

/-- The HAVING clause. -/
def emitHaving (q : Query) (Γ : Catalog) : Except TranslationError Fragment := do
  if !q.isGrouped || q.having.isEmpty then return []
  return Fragment.word " HAVING " ++ (← emitAll Γ q.groupScope q.having)

/-- A term of the ordering. -/
def emitTerm (Γ : Catalog) (s : Scope) (t : OrderTerm) : Except TranslationError Fragment := do
  let a ← t.key.emit Γ s
  return a ++ Fragment.word (if t.descending then " DESC" else " ASC")

/-- The ORDER BY clause. -/
def emitOrder (q : Query) (Γ : Catalog) : Except TranslationError Fragment := do
  if q.order.isEmpty then return []
  let fs ← q.order.mapM (emitTerm Γ q.groupScope)
  return Fragment.word " ORDER BY " ++ Fragment.joined (Fragment.word ", ") fs

/-- The FROM and WHERE clauses, which say what rows there are. -/
def emitRows (q : Query) (Γ : Catalog) : Except TranslationError Fragment := do
  let a ← q.emitFrom Γ
  let b ← q.emitWhere Γ
  return a ++ b

/-- The whole query. -/
def emit (q : Query) (Γ : Catalog) : Except TranslationError Fragment := do
  let columns ← q.emitColumns Γ
  let rows ← q.emitRows Γ
  let keys ← q.emitKeys Γ
  let having ← q.emitHaving Γ
  let order ← q.emitOrder Γ
  return Fragment.word "SELECT " ++
    (if q.distinct then Fragment.word "DISTINCT " else []) ++ columns ++ Fragment.word " " ++
    rows ++ keys ++ having ++ order ++ Fragment.ofText q.paging.text

/-- The statement of a query. -/
def compile (q : Query) (Γ : Catalog) : Except TranslationError Statement :=
  Fragment.statement <$> q.emit Γ

end SqlPlan.Query
