import SqlPlan.Expr

/-!
# What an expression refers to

The columns of an expression from left to right, repetitions kept, and whether it calls an
aggregate. A reference to a group key is not followed, and the text of the caller is not read.
-/

namespace SqlPlan

/-- A column as an expression names it. -/
structure ColumnRef where
  /-- the entity -/
  owner : EntityId
  /-- the property -/
  property : Bytes
deriving DecidableEq

/-- What was met on a walk. -/
structure References where
  /-- the columns, in the order of the walk -/
  columns : List ColumnRef := []
  /-- was there an aggregate? -/
  aggregates : Bool := false
deriving DecidableEq, Inhabited

namespace References

/-- What was met on one walk and then on another. -/
def append (r s : References) : References :=
  ⟨r.columns ++ s.columns, r.aggregates || s.aggregates⟩

instance : Append References := ⟨append⟩

/-- What was met on several walks. -/
def concat (rs : List References) : References := rs.foldl (· ++ ·) {}

end References

/-- The columns of an expression, and whether it calls an aggregate. -/
def Expr.references : Expr → References
  | .column owner property => ⟨[⟨owner, property⟩], false⟩
  | .literal _ | .key _ | .raw .. => {}
  | .countRows => ⟨[], true⟩
  | .aggregate _ e => ⟨[], true⟩ ++ e.references
  | .arith _ l r | .logic _ l r | .compare _ l r => l.references ++ r.references
  | .call _ e | .truth e | .nullCheck _ e | .not e | .like e _ _ | .oneOf e _ => e.references

end SqlPlan
