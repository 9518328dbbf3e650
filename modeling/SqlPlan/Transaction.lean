import SqlPlan.Executor

/-!
# Transactions

A transaction gathers statements and sends them as one batch when it is committed. It ends with
its commit, whatever the batch comes to, or with its rollback; afterwards every call is refused
and changes nothing.
-/

namespace SqlPlan

/-- A transaction on an executor. -/
structure Transaction (σ κ : Type) where
  /-- where the batch is sent -/
  backend : Backend σ κ
  /-- may it still be used? -/
  active : Bool := true
  /-- the statements so far -/
  pending : List Statement := []

namespace Transaction

variable {σ κ : Type}

/-- Starts a transaction on an executor, which there must be. -/
def start : Option (Backend σ κ) → Except Error (Transaction σ κ)
  | some b => .ok { backend := b }
  | none => .error .noExecutor

/-- Adds statements. -/
def addAll (t : Transaction σ κ) (sts : List Statement) : Except Error (Transaction σ κ) :=
  if t.active then .ok { t with pending := t.pending ++ sts } else .error .finished

/-- Adds a statement. -/
def add (t : Transaction σ κ) (st : Statement) : Except Error (Transaction σ κ) := t.addAll [st]

/-- The transaction when it is over. -/
def ended (t : Transaction σ κ) : Transaction σ κ := { t with active := false, pending := [] }

/-- Drops the statements and ends the transaction. -/
def rollback (t : Transaction σ κ) : Except Error (Transaction σ κ) :=
  if t.active then .ok t.ended else .error .finished

/-- Sends the statements as one batch and ends the transaction. -/
def commit (token : Token σ) :
    Action (Transaction σ κ × ExecutorState σ) Error (List ResultSet) := do
  let (t, s) ← get
  if !t.active then throw .finished
  set (t.ended, s)
  (t.backend.batch t.pending token).on (·.2) fun s p => (p.1, s)

end Transaction

end SqlPlan
