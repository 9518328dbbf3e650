import SqlPlan.Expr
import SqlPlan.Fragment

/-!
# Emitting expressions

An expression is emitted in a scope: the entities that take part in the query, whether columns
carry the table's name, the group keys where there are groups, and whether the place is inside an
aggregate. `Scope.resolve` finds the name of a column. Group keys are the one place where
emission leaves its own tree: a reference to a key emits the key's expression, outside groups.
Since no key may be met there, that is a second, simpler emission, and both are one structural
recursion (`emitWith`) that differs in what a reference to a key becomes.
-/

namespace SqlPlan

/-- What an expression may refer to at its place in a query. -/
structure Scope where
  /-- the entities that take part in the query -/
  visible : List EntityId := []
  /-- do columns carry the table's name? -/
  qualified : Bool := false
  /-- the group keys, where the place is in a grouped clause -/
  grouping : Option (List Expr) := none
  /-- is the place inside an aggregate? -/
  inAggregate : Bool := false
deriving DecidableEq, Inhabited

namespace Scope

/-- The scope of an aggregate's argument. -/
def insideAggregate (s : Scope) : Scope := { s with inAggregate := true }

/-- The scope without groups. -/
def ungrouped (s : Scope) : Scope := { s with grouping := none }

/-- Must a column at this place be a group key? -/
def wantsKey (s : Scope) : Bool := s.grouping.isSome && !s.inAggregate

/-- Is the column one of the group keys? -/
def hasKey (s : Scope) (owner : EntityId) (property : Bytes) : Bool :=
  (s.grouping.getD []).any fun
    | .column o p => o == owner && p == property
    | _ => false

/-- The name of a column in SQL. -/
def resolve (s : Scope) (Γ : Catalog) (owner : EntityId) (property : Bytes) :
    Except TranslationError Bytes := do
  let e := Γ owner
  if !s.visible.contains owner then throw (.unboundEntity e.table property)
  let p ← e.lookup property
  return if s.qualified then e.table ++ ascii "." ++ p.column else p.column

/-- The name of a column where a grouped clause may ask for a group key. -/
def column (s : Scope) (Γ : Catalog) (owner : EntityId) (property : Bytes) :
    Except TranslationError Fragment := do
  if s.wantsKey && !s.hasKey owner property then
    throw (.ungroupedColumn (Γ owner).table property)
  return Fragment.ofText (← s.resolve Γ owner property)

/-- May an aggregate be called here? -/
def allowAggregate (s : Scope) (fn : Aggregate) : Except TranslationError Unit :=
  if s.grouping.isNone then .error (.aggregateOutsideGroup fn)
  else if s.inAggregate then .error (.nestedAggregate fn)
  else .ok ()

/-- The expression of a member of the group key. -/
def keyMember (s : Scope) (index : Option Nat) : Except TranslationError Expr :=
  match s.grouping with
  | none => .error .keyOutsideGroup
  | some keys =>
    match index with
    | none =>
      match keys with
      | [k] => .ok k
      | _ => .error .compositeKey
    | some i =>
      match keys[i]? with
      | some k => .ok k
      | none => .error (.keyIndex i keys.length)

end Scope

namespace Expr

/-- A constant: NULL as a keyword, anything else as a bound value. -/
def constant (v : Value) : Fragment := if v.isNull then Fragment.word "NULL" else [.bound v]

/-- The comparison with NULL that a comparison operator stands for. -/
def nullTest (op : CompareOp) : Except TranslationError Fragment :=
  match op with
  | .eq => .ok (Fragment.word " IS NULL")
  | .ne => .ok (Fragment.word " IS NOT NULL")
  | op => .error (.nullOrdering op)

/-- Emits an expression, where `onKey` says what a reference to a group key becomes. -/
def emitWith (Γ : Catalog) (onKey : Scope → Option Nat → Except TranslationError Fragment) :
    Scope → Expr → Except TranslationError Fragment
  | s, .column owner property => s.column Γ owner property
  | _, .literal v => .ok (constant v)
  | s, .arith op l r => do
    let a ← emitWith Γ onKey s l
    let b ← emitWith Γ onKey s r
    return Fragment.parensIf l.isCompound a ++
      Fragment.ofText (ascii " " ++ op.text ++ ascii " ") ++ Fragment.parensIf r.isCompound b
  | s, .call fn e => do
    let a ← emitWith Γ onKey s e
    return Fragment.ofText fn.text ++ Fragment.parens a
  | s, .countRows => do
    s.allowAggregate .count
    return Fragment.ofText Aggregate.count.text ++ Fragment.word "(*)"
  | s, .aggregate fn e => do
    s.allowAggregate fn
    let a ← emitWith Γ onKey s.insideAggregate e
    return Fragment.ofText fn.text ++ Fragment.parens a
  | s, .key index => onKey s index
  | s, .truth e => emitWith Γ onKey s e
  | s, .nullCheck negated e => do
    let a ← emitWith Γ onKey s e
    return Fragment.parensIf e.isCompound a ++
      Fragment.word (if negated then " IS NOT NULL" else " IS NULL")
  | s, .logic op l r => do
    let a ← emitWith Γ onKey s l
    let b ← emitWith Γ onKey s r
    return Fragment.parens a ++ Fragment.ofText (ascii " " ++ op.text ++ ascii " ") ++
      Fragment.parens b
  | s, .compare op l r =>
    if l.isNullLiteral || r.isNullLiteral then do
      let test ← nullTest op
      if r.isNullLiteral then
        let a ← emitWith Γ onKey s l
        return Fragment.parensIf l.isCompound a ++ test
      else
        let b ← emitWith Γ onKey s r
        return Fragment.parensIf r.isCompound b ++ test
    else do
      let a ← emitWith Γ onKey s l
      let b ← emitWith Γ onKey s r
      return Fragment.parensIf l.isCompound a ++
        Fragment.ofText (ascii " " ++ op.text ++ ascii " ") ++ Fragment.parensIf r.isCompound b
  | s, .not e => do
    let a ← emitWith Γ onKey s e
    return Fragment.word "NOT " ++ Fragment.parens a
  | s, .like e text anchor => do
    let a ← emitWith Γ onKey s e
    return Fragment.parensIf e.isCompound a ++ Fragment.word " LIKE " ++
      [.bound (.text (anchor.pattern text))]
  | s, .oneOf e items => do
    let a ← emitWith Γ onKey s e
    return Fragment.parensIf e.isCompound a ++ Fragment.word " IN " ++
      Fragment.parens (Fragment.joined (Fragment.word ", ") (items.map constant))
  | _, .raw sql params => .ok [.raw sql params]

/-- Emits an expression outside groups, where there is no group key. -/
def emitUngrouped (Γ : Catalog) (s : Scope) (e : Expr) : Except TranslationError Fragment :=
  emitWith Γ (fun _ _ => .error .keyOutsideGroup) s.ungrouped e

/-- Emits a member of the group key as an operand: its expression, outside groups. -/
def emitKey (Γ : Catalog) (s : Scope) (index : Option Nat) : Except TranslationError Fragment := do
  let k ← s.keyMember index
  return Fragment.parensIf k.isCompound (← emitUngrouped Γ s k)

/-- Emits an expression. -/
def emit (Γ : Catalog) (s : Scope) (e : Expr) : Except TranslationError Fragment :=
  emitWith Γ (emitKey Γ) s e

/-- Emits an expression as an operand, in parentheses if it is compound. -/
def emitOperand (Γ : Catalog) (s : Scope) (e : Expr) : Except TranslationError Fragment := do
  return Fragment.parensIf e.isCompound (← e.emit Γ s)

end Expr

end SqlPlan
