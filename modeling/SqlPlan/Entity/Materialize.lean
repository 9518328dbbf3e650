import SqlPlan.Entity
import SqlPlan.Failure
import SqlPlan.Row

/-!
# Rows into records

A record is made from a row by reading, property by property in the order of declaration, the
cell of each one. A property without a cell, or with NULL in it, leaves its field alone. The first
cell that does not fit ends the reading with a mapping error for its property.
-/

namespace SqlPlan.Entity

/-- Reads one cell into the field of its property. -/
def readCell (e : Entity) (r : Record) (p : Property) (v : Value) : Except Error Record := do
  let f ← Error.ofTranslation (e.binding p)
  (r.read f v).mapError fun reason => .mapping ⟨p.name, p.column, reason⟩

/-- Reads the cell of one property, if the row has a value there. -/
def readProperty (e : Entity) (row : Row) (r : Record) (p : Property) : Except Error Record :=
  match row.findCell p.column p.name with
  | none => .ok r
  | some v => if v.isNull then .ok r else e.readCell r p v

/-- The record of a row. -/
def materialize (e : Entity) (row : Row) : Except Error Record :=
  e.properties.foldlM (e.readProperty row) Record.initial

/-- The records of some rows. -/
def materializeAll (e : Entity) (rows : List Row) : Except Error (List Record) :=
  rows.mapM e.materialize

end SqlPlan.Entity
