import SqlPlan.Query.Building

/-!
# Questions about a query

How many rows a query has, whether it has any, whether some or all of them satisfy a predicate,
and what its first rows are. Where only filters and a join decide about the rows, the question is
put to the FROM and WHERE clauses; where rows are grouped, deduplicated or paged, it is put to the
whole query as a table.
-/

namespace SqlPlan.Query

/-- The number of rows. -/
def emitCount (q : Query) (Γ : Catalog) : Except TranslationError Fragment := do
  if q.needsSubquery then
    let f ← q.emit Γ
    return Fragment.word "SELECT COUNT(*) as count FROM (" ++ f ++ Fragment.word ") AS subquery"
  else
    let rows ← q.emitRows Γ
    return Fragment.word "SELECT COUNT(*) as count " ++ rows

/-- A test on the rows that the FROM and WHERE clauses give. -/
def emitProbe (q : Query) (Γ : Catalog) (test : Bytes) : Except TranslationError Fragment := do
  let rows ← q.emitRows Γ
  return Fragment.ofText (ascii "SELECT " ++ test ++ ascii "(SELECT 1 ") ++ rows ++
    Fragment.word ") as result"

/-- Are there rows? -/
def emitExists (q : Query) (Γ : Catalog) : Except TranslationError Fragment := do
  if q.needsSubquery then
    let f ← q.emit Γ
    return Fragment.word "SELECT EXISTS(" ++ f ++ Fragment.word ") as result"
  else q.emitProbe Γ (ascii "EXISTS")

/-- Are there rows for which the predicate holds? -/
def emitAny (q : Query) (Γ : Catalog) (p : Expr) : Except TranslationError Fragment := do
  if q.needsSubquery then throw (.predicateOverDerived .any)
  let q ← q.filter Γ p
  q.emitExists Γ

/-- Does the predicate hold for all rows? It does when there is no row for which it does not. -/
def emitEvery (q : Query) (Γ : Catalog) (p : Expr) : Except TranslationError Fragment := do
  if q.needsSubquery then throw (.predicateOverDerived .all)
  let q ← q.filter Γ p.negate
  q.emitProbe Γ (ascii "NOT EXISTS")

/-- The query with at most `n` rows. -/
def limitTo (q : Query) (n : Int) : Query := { q with paging := q.paging.limitTo n }

/-- The first `n` rows. -/
def emitLimited (q : Query) (Γ : Catalog) (n : Int) : Except TranslationError Fragment :=
  (q.limitTo n).emit Γ

end SqlPlan.Query
