import SqlPlan.Query.Emission

/-!
# Building queries

Each function checks that its clause may still be added, extends the query and emits it once, so
that whatever is wrong with an expression shows where it is added. The order of the checks decides
which error a call with several faults ends with. Paging and `distinct` cannot go wrong in
emission and are not checked by it.
-/

namespace SqlPlan.Query

/-- All rows of an entity, which must have a table. -/
def start (Γ : Catalog) (id : EntityId) : Except TranslationError Query :=
  if (Γ id).table.isEmpty then .error .sourceWithoutTable else .ok { source := id }

/-- A query that can be emitted. -/
def validated (q : Query) (Γ : Catalog) : Except TranslationError Query := do
  let _ ← q.emit Γ
  return q

/-- Keeps the rows for which the predicate holds. -/
def filter (q : Query) (Γ : Catalog) (p : Expr) : Except TranslationError Query := do
  if q.isGrouped then throw .filterAfterGrouping
  if q.paging.isPaged then throw (.filterAfterPaging .filter)
  validated { q with filters := q.filters ++ [p.toPredicate] } Γ

/-- Orders the rows, in place of any ordering before. -/
def orderBy (q : Query) (Γ : Catalog) (key : Expr) (descending : Bool) :
    Except TranslationError Query := do
  if q.paging.isPaged then throw (.orderAfterPaging .orderBy)
  validated { q with order := [⟨key, descending⟩] } Γ

/-- Orders the rows that are equal so far. -/
def thenBy (q : Query) (Γ : Catalog) (key : Expr) (descending : Bool) :
    Except TranslationError Query := do
  if q.order.isEmpty then throw .thenWithoutOrder
  if q.paging.isPaged then throw (.orderAfterPaging .thenBy)
  validated { q with order := q.order ++ [⟨key, descending⟩] } Γ

/-- Gives at most `n` rows. -/
def take (q : Query) (n : Int) : Except TranslationError Query := do
  return { q with paging := ← q.paging.take n }

/-- Skips `n` rows. -/
def skip (q : Query) (n : Int) : Except TranslationError Query := do
  return { q with paging := ← q.paging.skip n }

/-- Gives equal rows once. -/
def dedup (q : Query) : Query := { q with distinct := true }

/-- Checks the columns of a projection: each has a name, and none comes twice. -/
def checkItems : List Bytes → List Item → Except TranslationError Unit
  | _, [] => .ok ()
  | seen, i :: is =>
    if i.column.isEmpty then .error .unnamedItem
    else if seen.contains i.column then .error (.duplicateItem i.column)
    else checkItems (i.column :: seen) is

/-- Projects the rows, or the groups, to named columns. -/
def select (q : Query) (Γ : Catalog) (items : List Item) : Except TranslationError Query := do
  if items.isEmpty then throw .emptyProjection
  if q.isProjected then throw .alreadyProjected
  checkItems [] items
  validated { q with items := items } Γ

/-- Checks the key of one side of a join: it refers to columns, of that side's entity only, and
calls no aggregate. -/
def checkJoinKey (Γ : Catalog) (side : JoinSide) (key : Expr) (owner : EntityId) :
    Except TranslationError Unit :=
  let refs := key.references
  if refs.columns.isEmpty then .error (.joinKeyWithoutColumn side)
  else if refs.aggregates then .error (.joinKeyAggregate side)
  else match refs.columns.find? (·.owner != owner) with
    | some c => .error (.joinKeyOwner side (Γ c.owner).table (Γ owner).table)
    | none => .ok ()

/-- Joins a second entity where the two keys are equal. -/
def joinWith (q : Query) (Γ : Catalog) (kind : JoinKind) (inner : EntityId)
    (outerKey innerKey : Expr) : Except TranslationError Query := do
  if q.join.isSome then throw .secondJoin
  if q.isGrouped || q.isProjected then throw .lateJoin
  if inner == q.source then throw (.selfJoin (Γ inner).table)
  checkJoinKey Γ .outer outerKey q.source
  checkJoinKey Γ .inner innerKey inner
  validated { q with join := some ⟨kind, inner, outerKey, innerKey⟩ } Γ

/-- Checks a group key: it calls no aggregate and is no reference to a group key. -/
def checkKey (k : Expr) : Except TranslationError Unit :=
  if k.references.aggregates then .error .aggregateInKey
  else if k.isKey then .error .keyInKey
  else .ok ()

/-- Groups the rows. -/
def groupBy (q : Query) (Γ : Catalog) (keys : List Expr) : Except TranslationError Query := do
  if keys.isEmpty then throw .emptyGrouping
  if q.isGrouped then throw .alreadyGrouped
  if q.isProjected then throw .groupingAfterProjection
  if q.isOrderedOrPaged || q.distinct then throw .lateGrouping
  keys.forM checkKey
  validated { q with keys := keys } Γ

/-- Keeps the groups for which the predicate holds. -/
def filterGroups (q : Query) (Γ : Catalog) (p : Expr) : Except TranslationError Query := do
  if !q.isGrouped then throw .havingWithoutGrouping
  if q.paging.isPaged then throw (.filterAfterPaging .having)
  validated { q with having := q.having ++ [p.toPredicate] } Γ

end SqlPlan.Query
