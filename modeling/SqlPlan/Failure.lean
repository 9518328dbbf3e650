import SqlPlan.TranslationError
import SqlPlan.Value.Conversion

/-!
# Errors of execution

A `Failure` is what a database reports: its class, its text and its SQL state. `Error` is
everything an operation on a query can end with. Errors that a backend raises and that are no
failures are passed on as they come.
-/

namespace SqlPlan

/-- The classes of database failures. -/
inductive FailureClass where
  /-- the connection is lost or was never made -/
  | broken
  /-- a lock was not granted in time -/
  | timeout
  /-- the SQL text is not valid -/
  | badSql
  /-- a constraint of the schema is violated -/
  | constraint
  /-- the statement was cancelled -/
  | cancelled
  /-- any other failure -/
  | general
deriving DecidableEq, Repr

/-- The name of a class in logs and statistics. -/
def FailureClass.name : FailureClass → Bytes
  | .broken => ascii "broken"
  | .timeout => ascii "timeout"
  | .badSql => ascii "syntax"
  | .constraint => ascii "constraint"
  | .cancelled => ascii "cancelled"
  | .general => ascii "failure"

/-- What a database reports when it fails. -/
structure Failure where
  /-- the class it falls in -/
  kind : FailureClass
  /-- the report -/
  text : Bytes
  /-- the SQL state, where the database gives one -/
  sqlState : Bytes := []
deriving DecidableEq

namespace Failure

/-- The message of a failure, which ends where its text has a NUL byte. -/
def message (f : Failure) : Bytes := Bytes.upToNul f.text

/-- The failure of a statement whose token was cancelled. -/
def cancellation : Failure := ⟨.cancelled, ascii "statement cancelled", []⟩

/-- The failure of a result that says it is none, with the errors it lists. -/
def unsuccessful (errors : List Bytes) : Failure :=
  let text := errors.foldl (fun s e => s ++ (if s.isEmpty then [] else ascii "; ") ++ e) []
  ⟨.general, if text.isEmpty then ascii "statement failed" else text, []⟩

end Failure

/-- A cell that cannot be read into the field of its property. -/
structure MappingError where
  /-- the property -/
  property : Bytes
  /-- its column -/
  column : Bytes
  /-- why the conversion was refused -/
  reason : ConversionError
deriving DecidableEq

/-- The message of a mapping error, which ends where a name in it has a NUL byte. -/
def MappingError.message (e : MappingError) : Bytes :=
  Bytes.upToNul <| ascii "cannot map column '" ++ e.column ++ ascii "' to property '" ++
    e.property ++ ascii "': " ++ e.reason.message

/-- Whatever else a backend raises: a name for its kind, and its message. -/
structure Foreign where
  /-- the kind, in the backend's words -/
  kind : Bytes
  /-- the message -/
  message : Bytes
deriving DecidableEq

/-- How an operation on queries, records and executors can end without a result. -/
inductive Error where
  /-- a plan or an entity cannot be turned into SQL -/
  | translation (e : TranslationError)
  /-- a cell does not fit its property -/
  | mapping (e : MappingError)
  /-- the database failed -/
  | failure (f : Failure)
  /-- there is no row where one is needed -/
  | noRows
  /-- there are several rows where one is allowed -/
  | multipleRows
  /-- the query has no executor -/
  | detached
  /-- a transaction was asked for without an executor -/
  | noExecutor
  /-- the transaction is over -/
  | finished
  /-- the backend raised something else -/
  | foreign (e : Foreign)
deriving DecidableEq

/-- The message of an error. -/
def Error.message : Error → Bytes
  | .translation e => e.message
  | .mapping e => e.message
  | .failure f => f.message
  | .noRows => ascii "sequence contains no elements"
  | .multipleRows => ascii "sequence contains more than one element"
  | .detached => ascii "query is not attached to an executor"
  | .noExecutor => ascii "transaction requires an executor"
  | .finished => ascii "transaction has already been committed or rolled back"
  | .foreign e => e.message

/-- The outcome of a translation as the outcome of an operation. -/
def Error.ofTranslation {α : Type} (r : Except TranslationError α) : Except Error α :=
  r.mapError .translation

end SqlPlan
