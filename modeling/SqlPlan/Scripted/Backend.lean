import SqlPlan.Executor

/-!
# A backend that follows a script

To try queries without a database: every call takes the next reply of a script and is written
down. When the script is at its end, every reply is an empty success. The script is a part of the
device, so that several such backends, and anything else, can live on one device.
-/

namespace SqlPlan.Scripted

/-- What a backend was asked for. -/
inductive Call where
  /-- to run a statement -/
  | run (st : Statement)
  /-- to open a stream on a statement -/
  | openStream (st : Statement)
  /-- to run some statements -/
  | batch (sts : List Statement)
deriving DecidableEq

/-- What a backend answers. -/
structure Reply where
  /-- the result, or the error that is raised instead -/
  outcome : Except Error ResultSet := .ok {}
  /-- the number of rows after which a stream of the result fails, and how -/
  breaksAt : Option (Nat × Error) := none

/-- The replies to come, and the calls so far. -/
structure Script where
  /-- the replies to come -/
  replies : List Reply := []
  /-- the calls so far, the first one first -/
  calls : List Call := []

namespace Script

/-- Writes a call down. -/
def record (c : Call) (s : Script) : Script := { s with calls := s.calls ++ [c] }

/-- Takes the next reply. -/
def next (s : Script) : Reply × Script :=
  (s.replies.head?.getD {}, { s with replies := s.replies.tail })

end Script

/-- A stream of the rows of a result. -/
structure Cursor where
  /-- the result -/
  result : ResultSet
  /-- how many rows were taken -/
  taken : Nat := 0
  /-- the number of rows after which it fails, and how -/
  breaksAt : Option (Nat × Error) := none

/-- The next row of a stream. A stream that fails stays where it is and fails every time. -/
def fetch {σ : Type} : Action (Cursor × Host σ) Error (Option Row) := do
  let (c, h) ← get
  match c.breaksAt with
  | some (k, e) => if k = c.taken then throw e
  | none => pure ()
  match c.result.rows[c.taken]? with
  | none => return none
  | some row =>
    set ({ c with taken := c.taken + 1 }, h)
    return some row

variable {σ : Type} (part : σ → Script) (put : Script → σ → σ)

/-- Changes the script on a device. -/
def onScript {α : Type} (f : Script → α × Script) : Action (Host σ) Error α :=
  Action.change fun h =>
    let (a, s) := f (part h.device)
    (a, { h with device := put s h.device })

/-- Takes the next reply, for a call that is written down before. -/
def answer (c : Call) : Action (Host σ) Error Reply := onScript part put fun s => (s.record c).next

/-- The backend on the script that `part` finds on the device and `put` puts back. -/
def backend : Backend σ Cursor where
  run st _ := do Action.ofExcept (← answer part put (.run st)).outcome
  openStream st _ := do
    let r ← answer part put (.openStream st)
    return { result := ← Action.ofExcept r.outcome, breaksAt := r.breaksAt }
  columns c := c.result.columns
  fetch := fetch
  runBatch sts _ := do
    onScript part put fun s => ((), s.record (.batch sts))
    sts.mapM fun _ => do Action.ofExcept (← onScript part put Script.next).outcome

end SqlPlan.Scripted
