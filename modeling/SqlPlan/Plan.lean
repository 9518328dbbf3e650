import SqlPlan.Query.Derived

/-!
# Plans

A plan is a query, or a set operation on two plans with an ordering and a window of its own. The
tree is that of the calls. SQL reads set operations from left to right, so a left operand that is
itself a bare set operation is written as it stands, and every other operand that is not a bare
query is wrapped as a table.
-/

namespace SqlPlan

/-- A term of the ordering of a set operation, which orders by columns of its result. -/
structure ColumnOrder where
  /-- the column -/
  column : Bytes
  /-- the greatest first? -/
  descending : Bool := false
deriving DecidableEq

/-- The ordering and the window of a set operation. -/
structure Tail where
  /-- the ordering -/
  order : List ColumnOrder := []
  /-- the window of rows -/
  paging : Paging := {}
deriving DecidableEq, Inhabited

/-- A query, or a set operation on plans. -/
inductive Plan where
  /-- a single SELECT -/
  | query (q : Query)
  /-- a set operation -/
  | combine (op : SetOp) (left right : Plan) (tail : Tail)
deriving DecidableEq

namespace Tail

/-- Is there an ordering or a window? -/
def isOrderedOrPaged (t : Tail) : Bool := !t.order.isEmpty || t.paging.isPaged

/-- Orders the result, in place of any ordering before. -/
def orderBy (t : Tail) (column : Bytes) (descending : Bool) : Except TranslationError Tail :=
  if t.paging.isPaged then .error (.orderAfterPaging .orderBy)
  else .ok { t with order := [⟨column, descending⟩] }

/-- Orders the rows that are equal so far. -/
def thenBy (t : Tail) (column : Bytes) (descending : Bool) : Except TranslationError Tail :=
  if t.order.isEmpty then .error .thenWithoutOrder
  else if t.paging.isPaged then .error (.orderAfterPaging .thenBy)
  else .ok { t with order := t.order ++ [⟨column, descending⟩] }

/-- Gives at most `n` rows. -/
def take (t : Tail) (n : Int) : Except TranslationError Tail := do
  return { t with paging := ← t.paging.take n }

/-- Skips `n` rows. -/
def skip (t : Tail) (n : Int) : Except TranslationError Tail := do
  return { t with paging := ← t.paging.skip n }

/-- A term of the ordering. -/
def termText (o : ColumnOrder) : Bytes :=
  o.column ++ ascii (if o.descending then " DESC" else " ASC")

/-- The clauses at the end of a set operation. -/
def text (t : Tail) : Bytes :=
  (if t.order.isEmpty then []
    else ascii " ORDER BY " ++ Bytes.joined (ascii ", ") (t.order.map termText)) ++ t.paging.text

end Tail

namespace Plan

/-- Is there an ordering or a window? -/
def isOrderedOrPaged : Plan → Bool
  | .query q => q.isOrderedOrPaged
  | .combine _ _ _ t => t.isOrderedOrPaged

/-- Is the plan a set operation? -/
def isCombined : Plan → Bool
  | .query _ => false
  | .combine .. => true

/-- The entity whose table a plan is known by: the source of its leftmost query. -/
def source : Plan → EntityId
  | .query q => q.source
  | .combine _ l _ _ => l.source

/-- The set operation on two plans. -/
def compose (l : Plan) (op : SetOp) (r : Plan) : Plan := .combine op l r {}

/-- The column that a set operation is ordered by: its key must be a plain column. -/
def orderColumn (Γ : Catalog) (key : Expr) : Except TranslationError Bytes :=
  match key with
  | .column owner property => Property.column <$> (Γ owner).lookup property
  | _ => .error .setOrderKey

/-- Orders the rows, in place of any ordering before. -/
def orderBy (Γ : Catalog) (p : Plan) (key : Expr) (descending : Bool) :
    Except TranslationError Plan :=
  match p with
  | .query q => .query <$> q.orderBy Γ key descending
  | .combine op l r t => do
    let c ← orderColumn Γ key
    return .combine op l r (← t.orderBy c descending)

/-- Orders the rows that are equal so far. -/
def thenBy (Γ : Catalog) (p : Plan) (key : Expr) (descending : Bool) :
    Except TranslationError Plan :=
  match p with
  | .query q => .query <$> q.thenBy Γ key descending
  | .combine op l r t => do
    let c ← orderColumn Γ key
    return .combine op l r (← t.thenBy c descending)

/-- Gives at most `n` rows. -/
def take (p : Plan) (n : Int) : Except TranslationError Plan :=
  match p with
  | .query q => .query <$> q.take n
  | .combine op l r t => .combine op l r <$> t.take n

/-- Skips `n` rows. -/
def skip (p : Plan) (n : Int) : Except TranslationError Plan :=
  match p with
  | .query q => .query <$> q.skip n
  | .combine op l r t => .combine op l r <$> t.skip n

/-- Is the plan wrapped as a table when it is the left operand? -/
def wrapsLeft (p : Plan) : Bool := p.isOrderedOrPaged

/-- Is the plan wrapped as a table when it is the right operand? -/
def wrapsRight (p : Plan) : Bool := p.isOrderedOrPaged || p.isCombined

/-- An operand, wrapped as a table if need be. -/
def wrap (needed : Bool) (f : Fragment) : Fragment :=
  if needed then Fragment.word "SELECT * FROM (" ++ f ++ Fragment.word ") AS sub" else f

/-- Emits a plan. -/
def emit (Γ : Catalog) : Plan → Except TranslationError Fragment
  | .query q => q.emit Γ
  | .combine op l r t => do
    let a ← emit Γ l
    let b ← emit Γ r
    return wrap l.wrapsLeft a ++ Fragment.ofText (ascii " " ++ op.text ++ ascii " ") ++
      wrap r.wrapsRight b ++ Fragment.ofText t.text

/-- Emits the number of rows of a plan. -/
def emitCount (Γ : Catalog) : Plan → Except TranslationError Fragment
  | .query q => q.emitCount Γ
  | p => do
    let f ← p.emit Γ
    return Fragment.word "SELECT COUNT(*) as count FROM (" ++ f ++ Fragment.word ") AS subquery"

/-- Emits the question whether a plan has rows. -/
def emitExists (Γ : Catalog) : Plan → Except TranslationError Fragment
  | .query q => q.emitExists Γ
  | p => do
    let f ← p.emit Γ
    return Fragment.word "SELECT EXISTS(SELECT 1 FROM (" ++ f ++
      Fragment.word ") AS subquery) as result"

/-- Emits the first `n` rows of a plan. -/
def emitLimited (Γ : Catalog) (n : Int) : Plan → Except TranslationError Fragment
  | .query q => q.emitLimited Γ n
  | p => do
    let f ← p.emit Γ
    return Fragment.word "SELECT * FROM (" ++ f ++
      Fragment.ofText (ascii ") AS subquery LIMIT " ++ Decimal.intText n)

/-- The statement of a plan. -/
def compile (Γ : Catalog) (p : Plan) : Except TranslationError Statement :=
  Fragment.statement <$> p.emit Γ

/-- The statement that counts the rows of a plan. -/
def countStatement (Γ : Catalog) (p : Plan) : Except TranslationError Statement :=
  Fragment.statement <$> p.emitCount Γ

/-- The statement that asks whether a plan has rows. -/
def existsStatement (Γ : Catalog) (p : Plan) : Except TranslationError Statement :=
  Fragment.statement <$> p.emitExists Γ

/-- The statement of the first `n` rows of a plan. -/
def limitedStatement (Γ : Catalog) (p : Plan) (n : Int) : Except TranslationError Statement :=
  Fragment.statement <$> p.emitLimited Γ n

end Plan

end SqlPlan
