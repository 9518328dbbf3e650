import SqlPlan.Entity
import SqlPlan.Placeholder

/-!
# Expressions

One tree serves predicates, projections, group keys and orderings. A node knows two things about
itself: whether it is compound, so that it needs parentheses as an operand, and whether it is the
literal NULL, so that a comparison with it becomes a null check. A node that is no predicate
becomes one in a `truth` node, which hides a NULL in it.
-/

namespace SqlPlan

/-- An expression. -/
inductive Expr where
  /-- the column of a property -/
  | column (owner : EntityId) (property : Bytes)
  /-- a constant, bound as a parameter unless it is NULL -/
  | literal (v : Value)
  /-- arithmetic -/
  | arith (op : ArithOp) (l r : Expr)
  /-- a function of a text -/
  | call (fn : TextFunction) (e : Expr)
  /-- the number of rows of a group -/
  | countRows
  /-- a function over the rows of a group -/
  | aggregate (fn : Aggregate) (e : Expr)
  /-- a member of the group key, or all of it -/
  | key (index : Option Nat)
  /-- a value taken as a predicate -/
  | truth (e : Expr)
  /-- is the value NULL, or is it not -/
  | nullCheck (negated : Bool) (e : Expr)
  /-- two predicates together -/
  | logic (op : LogicOp) (l r : Expr)
  /-- a comparison -/
  | compare (op : CompareOp) (l r : Expr)
  /-- the opposite of a predicate -/
  | not (e : Expr)
  /-- a text that holds another at an anchor -/
  | like (e : Expr) (text : Bytes) (anchor : Anchor)
  /-- a value among some -/
  | oneOf (e : Expr) (items : List Value)
  /-- SQL of the caller, with its parameters -/
  | raw (sql : Bytes) (params : List Value)
deriving DecidableEq, Inhabited

namespace Expr

/-- Does the expression need parentheses as an operand? -/
def isCompound : Expr → Bool
  | .column .. | .literal _ | .call .. | .countRows | .aggregate .. | .key _ => false
  | .truth e => e.isCompound
  | .arith .. | .nullCheck .. | .logic .. | .compare .. | .not _ | .like .. | .oneOf ..
  | .raw .. => true

/-- Is the expression the literal NULL? -/
def isNullLiteral : Expr → Bool
  | .literal v => v.isNull
  | _ => false

/-- Is the expression a predicate as it stands? -/
def isPredicate : Expr → Bool
  | .column .. | .literal _ | .arith .. | .call .. | .countRows | .aggregate .. | .key _ => false
  | _ => true

/-- Is the expression a reference to a group key? -/
def isKey : Expr → Bool
  | .key _ => true
  | _ => false

/-- The expression as a predicate. -/
def toPredicate (e : Expr) : Expr := if e.isPredicate then e else .truth e

/-- Both predicates hold. -/
def and (l r : Expr) : Expr := .logic .and l.toPredicate r.toPredicate

/-- One of the predicates holds. -/
def or (l r : Expr) : Expr := .logic .or l.toPredicate r.toPredicate

/-- The predicate does not hold. -/
def negate (e : Expr) : Expr := .not e.toPredicate

/-- The bytes that make no SQL: blank, tab and line feed. -/
def isBlank (b : UInt8) : Bool := b == 32 || b == 9 || b == 10

/-- SQL of the caller as a predicate. It must hold something but blanks, and as many placeholders
as there are parameters. -/
def raw? (sql : Bytes) (params : List Value) : Except TranslationError Expr :=
  if sql.all isBlank then .error .emptyRaw
  else if Placeholder.count sql != params.length then
    .error (.rawParameters sql (Placeholder.count sql) params.length)
  else .ok (.raw sql params)

@[simp] theorem isPredicate_toPredicate (e : Expr) : e.toPredicate.isPredicate = true := by
  unfold toPredicate
  split
  · assumption
  · rfl

end Expr

namespace Entity

/-- The column of a declared property, by its name; `id` is the number of the entity. -/
def columnNamed (e : Entity) (id : EntityId) (name : Bytes) : Except TranslationError Expr := do
  let _ ← e.lookup name
  return .column id name

/-- The column of the first property bound to a field. -/
def columnOf (e : Entity) (id : EntityId) (f : Field) : Except TranslationError Expr :=
  match e.bound? f with
  | some p => .ok (.column id p.name)
  | none => .error (.undeclaredMember e.table)

end Entity

end SqlPlan
