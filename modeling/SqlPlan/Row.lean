import SqlPlan.Naming
import SqlPlan.Value

/-!
# Result rows

A row maps column names to values. The cell of a property is that of its column when the row has
it. Otherwise it is the first cell, in byte order of the keys, whose key is the column or the
property up to case, or is the property once put into capitals style.
-/

namespace SqlPlan

/-- A result row: values by column name. -/
abbrev Row := ByteMap Value

/-- Does a key name the column or the property in another spelling? -/
def spells (column property key : Bytes) : Bool :=
  Bytes.sameLetters key column || Bytes.sameLetters key property || pascalCase key == property

/-- The cell of a property: that of its column, else the first in byte order whose key spells the
column or the property differently. -/
def Row.findCell (r : Row) (column property : Bytes) : Option Value :=
  (r.find? column).orElse fun _ =>
    (r.entries.find? fun cell => spells column property cell.1).map (·.2)

end SqlPlan
