import SqlPlan.Action
import SqlPlan.Logger

/-!
# Executors

A backend runs statements, opens streams of rows and runs batches. Its own state `σ` is whatever
it needs: connections, scripts, the flags of cancellation tokens. An executor is a backend with
loggers; `execute`, `stream` and `batch` go to the backend and tell the loggers how it ended.

A token is a view of the backend's state, because the flag it stands for can be set at any time
while a statement runs.
-/

namespace SqlPlan

/-- A cancellation token: tells from the state whether it was cancelled. -/
abbrev Token (σ : Type) := σ → Bool

/-- The token that is never cancelled. -/
def Token.never {σ : Type} : Token σ := fun _ => false

/-- What a backend works on: its own state and the console. -/
structure Host (σ : Type) where
  /-- the state of the backend -/
  device : σ
  /-- what was written so far -/
  console : Console := {}

/-- A way to execute statements. An open stream is a value of type `κ`, which every step of the
stream replaces. -/
structure Backend (σ κ : Type) where
  /-- runs a statement to its end -/
  run : Statement → Token σ → Action (Host σ) Error ResultSet
  /-- starts a statement whose rows are taken one by one -/
  openStream : Statement → Token σ → Action (Host σ) Error κ
  /-- the columns of a stream -/
  columns : κ → List Bytes
  /-- the next row of a stream, if there is one -/
  fetch : Action (κ × Host σ) Error (Option Row)
  /-- runs statements in order; what happens when one fails is the backend's affair -/
  runBatch : List Statement → Token σ → Action (Host σ) Error (List ResultSet)

/-- What an executor works on: the host of its backend, and its loggers in the order in which they
were attached. -/
structure ExecutorState (σ : Type) where
  /-- the state of the backend, and the console -/
  host : Host σ
  /-- the loggers -/
  loggers : List Logger := []

namespace ExecutorState

variable {σ : Type}

/-- Tells every logger of an event. -/
def notify (e : Event) (s : ExecutorState σ) : ExecutorState σ :=
  { host := { s.host with
      console := s.loggers.foldl (fun c l => c ++ l.writes e) s.host.console }
    loggers := s.loggers.map (·.observe e) }

/-- Runs an action of the backend. -/
def onHost {ε α : Type} (a : Action (Host σ) ε α) : Action (ExecutorState σ) ε α :=
  a.on (·.host) fun h s => { s with host := h }

end ExecutorState

/-- Fails when the token was cancelled. -/
def refuseCancelled {σ : Type} (t : Token σ) : Action (Host σ) Error Unit := do
  if t (← get).device then throw (.failure .cancellation)

namespace Backend

variable {σ κ : Type}

/-- Tells the loggers of a database failure, for a statement. -/
def reportFailure (st : Statement) (e : Error) (s : ExecutorState σ) : ExecutorState σ :=
  match e with
  | .failure f => s.notify (.failed st f)
  | _ => s

/-- Executes a statement. A result that says it is no success is a failure. -/
def execute (b : Backend σ κ) (st : Statement) (t : Token σ) :
    Action (ExecutorState σ) Error ResultSet :=
  Action.onError
    (do
      ExecutorState.onHost (refuseCancelled t)
      let r ← ExecutorState.onHost (b.run st t)
      if !r.success then throw (.failure (.unsuccessful r.errors))
      modify (·.notify (.executed st r))
      return r)
    (reportFailure st)

/-- Opens a stream on a statement. -/
def stream (b : Backend σ κ) (st : Statement) (t : Token σ) : Action (ExecutorState σ) Error κ :=
  Action.onError
    (do
      ExecutorState.onHost (refuseCancelled t)
      ExecutorState.onHost (b.openStream st t))
    (reportFailure st)

/-- The statement that a failed batch is reported with. -/
def batchLabel (sts : List Statement) : Statement :=
  ⟨ascii "-- batch of " ++ Decimal.natText sts.length ++ ascii " statement(s)", []⟩

/-- Executes statements in order. Nothing is done, and nobody is told, when there are none. -/
def batch (b : Backend σ κ) (sts : List Statement) (t : Token σ) :
    Action (ExecutorState σ) Error (List ResultSet) :=
  if sts.isEmpty then pure []
  else Action.onError
    (do
      ExecutorState.onHost (refuseCancelled t)
      let rs ← ExecutorState.onHost (b.runBatch sts t)
      modify fun s => (sts.zip rs).foldl (fun s p => s.notify (.executed p.1 p.2)) s
      return rs)
    (reportFailure (batchLabel sts))

end Backend

end SqlPlan
