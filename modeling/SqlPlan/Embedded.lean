import SqlPlan.Executor

/-!
# The embedded executor

A backend on an embedded database engine. The engine is a record of functions on a state: it opens
a connection, runs commands, prepares statements and steps through their rows. The engine takes
NUL-terminated texts, so of a statement it sees the SQL up to the first NUL byte.

`runBatch` wraps its statements in BEGIN and COMMIT and sends one ROLLBACK when anything between
fails, the COMMIT included. A statement that runs to its end polls its token while the engine
steps; a stream looks at its token before each row instead.
-/

namespace SqlPlan

/-- What an engine reports when a call fails. -/
structure Refusal where
  /-- the result code -/
  code : Int
  /-- the error text -/
  text : Bytes
deriving DecidableEq

/-- A cell as an engine gives it. -/
inductive Cell where
  /-- NULL -/
  | null
  /-- an integer -/
  | integer (n : Int64)
  /-- a double -/
  | real (x : Float)
  /-- a text or a blob; an empty one may have no content at all -/
  | bytes (content : Option Bytes)
deriving DecidableEq

/-- The value of a cell: bytes are text, and no content is the empty text. -/
def Cell.value : Cell → Value
  | .null => .null
  | .integer n => .integer n
  | .real x => .real x
  | .bytes content => .text (content.getD [])

/-- What a step of a statement comes to. `τ` is the type of a statement in progress. -/
inductive Step (τ : Type) where
  /-- a row, with its cells in the order of the columns -/
  | row (cells : List Cell) (rest : τ)
  /-- the end -/
  | done
  /-- a failure -/
  | failed (r : Refusal)

/-- The outcome of opening a connection: whether there is a connection to ask for an error text,
and the code and text of a failure. -/
inductive Connecting where
  /-- the connection is there -/
  | opened
  /-- it failed, with the engine's text unless there is no connection to ask -/
  | refused (text : Option Bytes)
deriving DecidableEq

/-- An embedded database engine with states `σ` and statements in progress `τ`. -/
structure Engine (σ τ : Type) where
  /-- opens a connection to a file, with flags -/
  connect : Bytes → Nat → σ → Connecting × σ
  /-- sets how long to wait for locks, in milliseconds -/
  setBusyTimeout : Int → σ → σ
  /-- runs a command that gives no rows; a failure may come without a text -/
  command : Bytes → σ → Option (Int × Option Bytes) × σ
  /-- the general text of a result code -/
  describe : Int → Bytes
  /-- prepares SQL; blank SQL gives no statement -/
  prepare : Bytes → σ → Except Refusal (Option τ) × σ
  /-- how many parameters a statement has -/
  parameterCount : τ → Nat
  /-- the names of its columns -/
  columns : τ → List Bytes
  /-- does it leave the database as it is? -/
  isReadOnly : τ → Bool
  /-- binds a parameter, counted from 1 -/
  bind : τ → Nat → Value → σ → Option Refusal × σ
  /-- goes on to the next row; stops when the token is found cancelled on the way -/
  step : Token σ → τ → σ → Step τ × σ
  /-- how many rows the last statement changed -/
  changes : σ → Int
  /-- the row number that was last inserted -/
  lastInsertId : σ → Int
  /-- a bound on the rows still to come -/
  remaining : τ → Nat
  /-- every row brings the end nearer -/
  step_lt : ∀ {t : Token σ} {x : τ} {s : σ} {cells : List Cell} {y : τ} {s' : σ},
    step t x s = (.row cells y, s') → remaining y < remaining x

namespace Embedded

/-- Open for reading and writing, create if missing, take the name as a URI if it is one, and
serialise all access. -/
def openFlags : Nat := 2 + 4 + 64 + 65536

/-- The file name of a database in memory. -/
def inMemory : Bytes := ascii ":memory:"

/-- The time to wait for locks when none is given, in milliseconds. -/
def defaultBusyTimeout : Int := 5000

/-- The texts of errors in SQL, the one with a name in it apart. -/
def syntaxMarks : List Bytes :=
  [ascii "clause should come after", ascii "incomplete input", ascii "unrecognized token"]

/-- Does a text complain about the place near some token, on one line? -/
def namesBadToken (text : Bytes) : Bool :=
  Bytes.existsAfter (ascii "near \"")
    (fun rest => Bytes.occursIn (ascii "\": syntax error")
      (rest.takeWhile fun b => b != Byte.newline && b != Byte.carriageReturn))
    text

/-- Does a text complain about the SQL? -/
def isSyntaxText (text : Bytes) : Bool :=
  namesBadToken text || syntaxMarks.any (Bytes.occursIn · text)

/-- The class of a refusal. The low byte of the code decides, and for all other codes the text. -/
def classify (r : Refusal) : FailureClass :=
  match r.code % 256 with
  | 9 => .cancelled
  | 19 => .constraint
  | 5 | 6 => .timeout
  | 14 | 26 | 11 | 10 => .broken
  | _ => if isSyntaxText r.text then .badSql else .general

/-- A refusal as the error of an operation. -/
def refused (r : Refusal) : Error := .failure ⟨classify r, r.text, []⟩

/-- A failure without a code. -/
def general (text : Bytes) : Error := .failure ⟨.general, text, []⟩

variable {σ τ : Type}

/-- Lets a function of the engine work on the device. -/
def onDevice {α : Type} (f : σ → α × σ) : Action (Host σ) Error α :=
  Action.change fun h =>
    let (a, s) := f h.device
    (a, { h with device := s })

/-- Opens the connection of an executor. -/
def connect (e : Engine σ τ) (path : Bytes) (busyTimeout : Int) : Action (Host σ) Error Unit := do
  match ← onDevice (e.connect (Bytes.upToNul path) openFlags) with
  | .opened => onDevice fun s => ((), e.setBusyTimeout busyTimeout s)
  | .refused text =>
    throw (.failure ⟨.broken, text.getD (ascii "cannot allocate sqlite3 handle"), []⟩)

/-- Runs a command. -/
def command (e : Engine σ τ) (sql : Bytes) : Action (Host σ) Error Unit := do
  match ← onDevice (e.command sql) with
  | none => return ()
  | some (code, text) => throw (refused ⟨code, text.getD (e.describe code)⟩)

/-- Binds parameters from the given number on. -/
def bindFrom (e : Engine σ τ) (x : τ) : Nat → List Value → Action (Host σ) Error Unit
  | _, [] => pure ()
  | i, v :: vs => do
    match ← onDevice (e.bind x i v) with
    | none => bindFrom e x (i + 1) vs
    | some r => throw (refused r)

/-- Prepares a statement and binds its parameters, of which it must have as many as it takes. -/
def prepare (e : Engine σ τ) (st : Statement) : Action (Host σ) Error τ := do
  match ← onDevice (e.prepare (Bytes.upToNul st.sql)) with
  | .error r => throw (refused r)
  | .ok none => throw (general (ascii "empty statement"))
  | .ok (some x) =>
    if e.parameterCount x ≠ st.params.length then
      throw <| general <| ascii "statement expects " ++ Decimal.natText (e.parameterCount x) ++
        ascii " parameter(s) but " ++ Decimal.natText st.params.length ++ ascii " were supplied"
    bindFrom e x 1 st.params
    return x

/-- The named values of the cells of a row; a column without a cell is NULL. -/
def nameCells : List Bytes → List Cell → List (Bytes × Value)
  | [], _ => []
  | c :: cs, [] => (c, .null) :: nameCells cs []
  | c :: cs, x :: xs => (c, x.value) :: nameCells cs xs

/-- The row of some cells; of columns with one name, the last counts. -/
def rowOf (columns : List Bytes) (cells : List Cell) : Row := .ofList (nameCells columns cells)

/-- Steps a statement to its end, or until the engine fails: the rows on the way, and the failure.
The rows have the columns that the statement had before its first step. -/
def drain (e : Engine σ τ) (t : Token σ) (columns : List Bytes) (x : τ) (s : σ) :
    (List Row × Option Refusal) × σ :=
  match _h : e.step t x s with
  | (.row cells y, s) =>
    let ((rows, failure), s) := drain e t columns y s
    ((rowOf columns cells :: rows, failure), s)
  | (.done, s) => (([], none), s)
  | (.failed r, s) => (([], some r), s)
termination_by e.remaining x
decreasing_by exact e.step_lt ‹_›

/-- One step of a statement, and the rest. -/
theorem drain_eq (e : Engine σ τ) (t : Token σ) (columns : List Bytes) (x : τ) (s : σ) :
    drain e t columns x s =
      match e.step t x s with
      | (.row cells y, s) =>
        let ((rows, failure), s) := drain e t columns y s
        ((rowOf columns cells :: rows, failure), s)
      | (.done, s) => (([], none), s)
      | (.failed r, s) => (([], some r), s) := by
  rw [drain]
  split
  case h_1 h => simp only [h]
  case h_2 h => rw [h]
  case h_3 h => rw [h]

/-- Runs a statement to its end. -/
def runStatement (e : Engine σ τ) (st : Statement) (t : Token σ) :
    Action (Host σ) Error ResultSet := do
  refuseCancelled t
  let x ← prepare e st
  let columns := e.columns x
  match ← onDevice (drain e t columns x) with
  | (_, some r) => throw (refused r)
  | (rows, none) =>
    let s := (← get).device
    return if e.isReadOnly x then { rows, columns }
      else { rows, columns, changes := e.changes s, lastInsertId := e.lastInsertId s }

/-- Gives a batch up. A failure to do so is only written on the error output. -/
def rollback (e : Engine σ τ) (h : Host σ) : Host σ :=
  match e.command (ascii "ROLLBACK") h.device with
  | (none, s) => { h with device := s }
  | (some (_, text), s) =>
    { device := s
      console := h.console ++ Console.errLine
        (ascii "[ERROR] rollback failed: " ++ text.getD (ascii "unknown error")) }

/-- Runs statements in order as one unit of work. -/
def runBatch (e : Engine σ τ) (sts : List Statement) (t : Token σ) :
    Action (Host σ) Error (List ResultSet) := do
  command e (ascii "BEGIN")
  Action.onError
    (do
      let rs ← sts.mapM fun st => runStatement e st t
      command e (ascii "COMMIT")
      return rs)
    fun _ h => rollback e h

/-- An open stream. -/
structure Cursor (σ τ : Type) where
  /-- the columns of its rows -/
  columns : List Bytes
  /-- the statement in progress -/
  statement : τ
  /-- the token it was opened with -/
  token : Token σ
  /-- is there nothing more to come? -/
  done : Bool := false

/-- Opens a stream. -/
def openStream (e : Engine σ τ) (st : Statement) (t : Token σ) :
    Action (Host σ) Error (Cursor σ τ) := do
  let x ← prepare e st
  return { columns := e.columns x, statement := x, token := t }

/-- The next row of a stream. After its end, and after a failure of the engine, there is none. -/
def fetch (e : Engine σ τ) : Action (Cursor σ τ × Host σ) Error (Option Row) := do
  let (c, h) ← get
  if c.done then return none
  if c.token h.device then throw (.failure .cancellation)
  let (outcome, s) := e.step Token.never c.statement h.device
  let h := { h with device := s }
  match outcome with
  | .row cells y =>
    set ({ c with statement := y }, h)
    return some (rowOf c.columns cells)
  | .done =>
    set ({ c with done := true }, h)
    return none
  | .failed r =>
    set ({ c with done := true }, h)
    throw (refused r)

/-- The backend on an engine. -/
def backend (e : Engine σ τ) : Backend σ (Cursor σ τ) where
  run := runStatement e
  openStream := openStream e
  columns := Cursor.columns
  fetch := fetch e
  runBatch := runBatch e

end Embedded

end SqlPlan
