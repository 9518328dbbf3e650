import SqlPlan.Cache
import SqlPlan.Entity.Materialize
import SqlPlan.Executor
import SqlPlan.Plan

/-!
# Terminal operations

The operations that run a plan: all rows, the first or the only one, the count, the tests, and the
stream. Each one emits the statement it needs, has it prepared through the cache if there is one,
and gives it to the executor. Preparing tells the loggers either that the statement was compiled
or that it was found in the cache, never both.
-/

namespace SqlPlan

/-- A plan with the executor to run it on. -/
structure Handle (σ κ : Type) where
  /-- the plan -/
  plan : Plan
  /-- the name of the type of its rows -/
  resultType : Bytes
  /-- the executor, if the query is attached to one -/
  backend : Option (Backend σ κ) := none

/-- The name of the type of a plan's rows: grouped or joined rows that are not projected have a
name of their own, all others that of the record they are read into. -/
def Plan.resultType (record : Bytes) : Plan → Bytes
  | .combine .. => record
  | .query q =>
    if q.isProjected then record
    else if q.isGrouped then ascii "group"
    else if q.join.isSome then ascii "join"
    else record

/-- What terminal operations work on: an executor, and a cache if there is one. -/
structure SessionState (σ : Type) where
  /-- the executor -/
  executor : ExecutorState σ
  /-- the compiled queries -/
  cache : Option QueryCache := none

namespace SessionState

variable {σ ε α : Type}

/-- Runs an action of the executor. -/
def onExecutor (a : Action (ExecutorState σ) ε α) : Action (SessionState σ) ε α :=
  a.on (·.executor) fun x s => { s with executor := x }

/-- Runs an action on a cache that is there, and the executor. -/
def onCache (a : Action (QueryCache × ExecutorState σ) ε α) : Action (SessionState σ) ε α :=
  a.on (fun s => (s.cache.getD {}, s.executor)) fun p _ => { executor := p.2, cache := some p.1 }

end SessionState

/-- The rows that single-cell questions read: the column of a count. -/
def countColumn : Bytes := ascii "count"

/-- The column of a test. -/
def resultColumn : Bytes := ascii "result"

/-- The value in the first row of a derived result. -/
def ResultSet.cell (r : ResultSet) (column : Bytes) : Except Error Value :=
  let missing (what : Bytes) : Error :=
    let text := ascii "derived query returned no " ++ what ++ ascii " for '" ++ column ++ ascii "'"
    .failure ⟨.general, text, []⟩
  match r.rows with
  | [] => .error (missing (ascii "rows"))
  | row :: _ =>
    match row.findCell column column with
    | none => .error (missing (ascii "value"))
    | some v => if v.isNull then .error (missing (ascii "value")) else .ok v

/-- The integer in the first row of a derived result. -/
def ResultSet.number (r : ResultSet) (column : Bytes) : Except Error Int64 := do
  let v ← r.cell column
  v.asInteger.mapError fun reason => .mapping ⟨column, column, reason⟩

/-- The only one of some rows, if there is one. -/
def onlyRow {α : Type} : List α → Except Error (Option α)
  | [] => .ok none
  | [a] => .ok (some a)
  | _ => .error .multipleRows

/-- A row that must be there. -/
def someRow {α : Type} : Option α → Except Error α
  | some a => .ok a
  | none => .error .noRows

namespace Handle

variable {σ κ : Type}

/-- Tells the loggers of the executor, if there is one. -/
def announce (h : Handle σ κ) (e : Event) (s : ExecutorState σ) : ExecutorState σ :=
  if h.backend.isSome then s.notify e else s

/-- The key of a statement of this query in a cache. -/
def fingerprint (h : Handle σ κ) (Γ : Catalog) (st : Statement) (resultType : Bytes) : Bytes :=
  st.fingerprint (Γ h.plan.source).table resultType

/-- Compiles a statement: there is nothing left to do but to tell the loggers. -/
def compileFresh (h : Handle σ κ) (st : Statement) (resultType : Bytes) :
    Action (ExecutorState σ) Error Compiled := do
  modify (h.announce (.compiled st))
  return ⟨st, resultType⟩

/-- The compiled form of a statement, from the cache if it is there. -/
def prepare (h : Handle σ κ) (Γ : Catalog) (st : Statement) (resultType : Bytes) :
    Action (SessionState σ) Error Compiled := do
  if (← get).cache.isNone then
    SessionState.onExecutor (h.compileFresh st resultType)
  else
    let fp := h.fingerprint Γ st resultType
    let compile := (h.compileFresh st resultType).on (·.2) fun x p => (p.1, x)
    let (q, hit) ← SessionState.onCache (QueryCache.getOrCompile fp compile)
    if hit then modify fun s => { s with executor := h.announce (.cacheHit fp) s.executor }
    return q

/-- The executor, which there must be. -/
def attached (h : Handle σ κ) : Except Error (Backend σ κ) :=
  match h.backend with
  | some b => .ok b
  | none => .error .detached

/-- Prepares and executes a statement. -/
def run (h : Handle σ κ) (Γ : Catalog) (st : Statement) (resultType : Bytes) (t : Token σ) :
    Action (SessionState σ) Error ResultSet := do
  let b ← Action.ofExcept h.attached
  let q ← h.prepare Γ st resultType
  SessionState.onExecutor (b.execute q.statement t)

/-- The compiled form of the whole plan. -/
def compiled (h : Handle σ κ) (Γ : Catalog) : Action (SessionState σ) Error Compiled := do
  let st ← Action.ofExcept (Error.ofTranslation (h.plan.compile Γ))
  h.prepare Γ st h.resultType

/-- Runs a statement and reads its rows into records of a shape. -/
def rows (h : Handle σ κ) (Γ : Catalog) (shape : Entity) (st : Except TranslationError Statement)
    (t : Token σ) : Action (SessionState σ) Error (List Record) := do
  let st ← Action.ofExcept (Error.ofTranslation st)
  let r ← h.run Γ st h.resultType t
  Action.ofExcept (shape.materializeAll r.rows)

/-- All rows. -/
def toList (h : Handle σ κ) (Γ : Catalog) (shape : Entity) (t : Token σ) :
    Action (SessionState σ) Error (List Record) :=
  h.rows Γ shape (h.plan.compile Γ) t

/-- The first row, if there is one. -/
def first? (h : Handle σ κ) (Γ : Catalog) (shape : Entity) (t : Token σ) :
    Action (SessionState σ) Error (Option Record) := do
  return (← h.rows Γ shape (h.plan.limitedStatement Γ 1) t).head?

/-- The first row, which there must be. -/
def first (h : Handle σ κ) (Γ : Catalog) (shape : Entity) (t : Token σ) :
    Action (SessionState σ) Error Record := do
  Action.ofExcept (someRow (← h.first? Γ shape t))

/-- The only row, if there is one; there must not be two. -/
def single? (h : Handle σ κ) (Γ : Catalog) (shape : Entity) (t : Token σ) :
    Action (SessionState σ) Error (Option Record) := do
  Action.ofExcept (onlyRow (← h.rows Γ shape (h.plan.limitedStatement Γ 2) t))

/-- The only row, which there must be. -/
def single (h : Handle σ κ) (Γ : Catalog) (shape : Entity) (t : Token σ) :
    Action (SessionState σ) Error Record := do
  Action.ofExcept (someRow (← h.single? Γ shape t))

/-- Runs a derived statement and reads the integer in its column. -/
def number (h : Handle σ κ) (Γ : Catalog) (st : Except TranslationError Statement)
    (resultType column : Bytes) (t : Token σ) : Action (SessionState σ) Error Int64 := do
  let st ← Action.ofExcept (Error.ofTranslation st)
  let r ← h.run Γ st resultType t
  Action.ofExcept (r.number column)

/-- The number of rows. -/
def count (h : Handle σ κ) (Γ : Catalog) (t : Token σ) : Action (SessionState σ) Error Int64 :=
  h.number Γ (h.plan.countStatement Γ) (ascii "count") countColumn t

/-- Runs a test. -/
def test (h : Handle σ κ) (Γ : Catalog) (st : Except TranslationError Statement) (t : Token σ) :
    Action (SessionState σ) Error Bool := do
  return (← h.number Γ st (ascii "exists") resultColumn t) != 0

/-- Are there rows? -/
def any (h : Handle σ κ) (Γ : Catalog) (t : Token σ) : Action (SessionState σ) Error Bool :=
  h.test Γ (h.plan.existsStatement Γ) t

/-- Are there rows of the query for which the predicate holds? -/
def anyWhere (h : Handle σ κ) (Γ : Catalog) (q : Query) (p : Expr) (t : Token σ) :
    Action (SessionState σ) Error Bool :=
  h.test Γ (Fragment.statement <$> q.emitAny Γ p) t

/-- Does the predicate hold for all rows of the query? -/
def every (h : Handle σ κ) (Γ : Catalog) (q : Query) (p : Expr) (t : Token σ) :
    Action (SessionState σ) Error Bool :=
  h.test Γ (Fragment.statement <$> q.emitEvery Γ p) t

/-- Opens a stream on the rows. Every call executes the statement again. -/
def stream (h : Handle σ κ) (Γ : Catalog) (t : Token σ) : Action (SessionState σ) Error κ := do
  let q ← h.compiled Γ
  let b ← Action.ofExcept h.attached
  SessionState.onExecutor (b.stream q.statement t)

end Handle

/-- The next record of a stream, if there is one. -/
def Backend.next {σ κ : Type} (b : Backend σ κ) (shape : Entity) :
    Action (κ × Host σ) Error (Option Record) := do
  match ← b.fetch with
  | none => return none
  | some row => some <$> Action.ofExcept (shape.materialize row)

end SqlPlan
