import SqlPlan.Embedded

/-!
# An engine that follows a script

An embedded engine without a database: opening, commands and statements come to what a script
says, and the calls that reach the engine are written down as a trace. A scripted statement may
cancel the token of whoever is running after a number of rows, as a user would from elsewhere.
-/

namespace SqlPlan.Scripted

/-- A call that reached the engine. -/
inductive Traced where
  /-- opening a file with flags -/
  | connect (path : Bytes) (flags : Nat)
  /-- setting the time to wait for locks -/
  | busyTimeout (ms : Int)
  /-- running a command -/
  | command (sql : Bytes)
  /-- preparing a statement -/
  | prepare (sql : Bytes)
  /-- binding a parameter -/
  | bind (index : Nat) (v : Value)
deriving DecidableEq

/-- A statement as the script describes it, and how far it has come. -/
structure Play where
  /-- the names of the columns -/
  columns : List Bytes := []
  /-- the rows to come -/
  rows : List (List Cell) := []
  /-- the number of rows so far -/
  given : Nat := 0
  /-- the number of parameters; that of the question marks in the SQL when it is not said -/
  parameterCount : Option Nat := none
  /-- does it leave the database as it is? -/
  readOnly : Bool := true
  /-- the number of rows it changes -/
  changes : Int := 0
  /-- the row number it inserts last -/
  lastInsertId : Int := 0
  /-- the parameter that cannot be bound, and what is reported then -/
  bindFails : Option (Nat × Refusal) := none
  /-- the number of rows after which the running token is cancelled -/
  cancelsAt : Option Int := none
  /-- the failure it ends with instead of its end -/
  failsAtEnd : Option Refusal := none
deriving DecidableEq

/-- A connection: what is to come, and what the last statement changed. -/
structure Connection where
  /-- what opening it comes to -/
  opening : Connecting := .opened
  /-- what the commands to come end with -/
  commands : List (Option (Int × Option Bytes)) := []
  /-- the statements to come; one may be blank, and one may fail -/
  statements : List (Except Refusal (Option Play)) := []
  /-- how many rows the last statement changed -/
  changes : Int := 0
  /-- the row number that was last inserted -/
  lastInsertId : Int := 0

/-- Where a scripted engine finds its things on a device. -/
structure Desk (σ : Type) where
  /-- its connection -/
  connection : σ → Connection
  /-- puts its connection back -/
  put : Connection → σ → σ
  /-- writes a call into the trace -/
  trace : Traced → σ → σ
  /-- cancels the token of whoever is running -/
  cancel : σ → σ

namespace Desk

variable {σ : Type} (d : Desk σ)

/-- Cancels the running token if the statement is to do so at this point. -/
def reach (x : Play) (s : σ) : σ :=
  if x.cancelsAt = some (x.given : Int) then d.cancel s else s

/-- A step of a statement: the token is looked at before the row is given. -/
def step (t : Token σ) (x : Play) (s : σ) : Step Play × σ :=
  let s := d.reach x s
  if t s then (.failed ⟨9, ascii "interrupted"⟩, s)
  else match x.rows with
    | r :: rs => (.row r { x with rows := rs, given := x.given + 1 }, s)
    | [] =>
      let s := d.put
        { d.connection s with changes := x.changes, lastInsertId := x.lastInsertId } s
      match x.failsAtEnd with
      | some r => (.failed r, s)
      | none => (.done, s)

theorem step_lt {t : Token σ} {x : Play} {s : σ} {cells : List Cell} {y : Play} {s' : σ}
    (h : d.step t x s = (.row cells y, s')) : y.rows.length < x.rows.length := by
  unfold step at h
  dsimp only at h
  split at h
  · cases h
  · split at h
    · rename_i hr
      cases h
      simp [hr]
    · split at h <;> cases h

/-- A statement of the script for some SQL. -/
def cast (sql : Bytes) (x : Play) : Play :=
  { x with parameterCount := some (x.parameterCount.getD (sql.count Byte.question)) }

/-- The engine. -/
def engine : Engine σ Play where
  connect path flags s :=
    let s := d.trace (.connect path flags) s
    ((d.connection s).opening, s)
  setBusyTimeout ms s := d.trace (.busyTimeout ms) s
  command sql s :=
    let s := d.trace (.command sql) s
    let c := d.connection s
    (c.commands.head?.join, d.put { c with commands := c.commands.tail } s)
  describe code := ascii "rc " ++ Decimal.intText code
  prepare sql s :=
    let s := d.trace (.prepare sql) s
    let c := d.connection s
    ((c.statements.head?.getD (.ok (some {}))).map (·.map (cast sql)),
      d.put { c with statements := c.statements.tail } s)
  parameterCount x := x.parameterCount.getD 0
  columns x := x.columns
  isReadOnly x := x.readOnly
  bind x i v s :=
    let s := d.trace (.bind i v) s
    match x.bindFails with
    | some (k, r) => (if i = k then some r else none, s)
    | none => (none, s)
  step := d.step
  changes s := (d.connection s).changes
  lastInsertId s := (d.connection s).lastInsertId
  remaining x := x.rows.length
  step_lt h := d.step_lt h

end Desk

end SqlPlan.Scripted
