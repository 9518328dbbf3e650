import SqlPlan.Entity
import SqlPlan.Statement

/-!
# Writing records

The statements that insert, replace, update and delete a record of an entity. Columns and
parameters are built from one list of cells, so they stay in step: `L` cells give `L` columns, `L`
placeholders and `L` parameters, all in the order of declaration.
-/

namespace SqlPlan.Entity

/-- A column and the value to write there. -/
abbrev ColumnValue := Bytes × Value

/-- The cells of the given properties of a record. -/
def cells (e : Entity) (r : Record) (ps : List Property) :
    Except TranslationError (List ColumnValue) :=
  ps.mapM fun p => do return (p.column, r.store (← e.binding p))

/-- Is the property left to the database for this record? -/
def isLeftOut (r : Record) (p : Property) (f : Field) : Bool := p.isGenerated && r.isInitial f

/-- The cells an insertion writes: all but the generated ones that hold their initial value. -/
def writtenCells (e : Entity) (r : Record) : Except TranslationError (List ColumnValue) := do
  let cs ← e.properties.mapM fun p => do
    let f ← e.binding p
    return if isLeftOut r p f then none else some (p.column, r.store f)
  return cs.filterMap id

/-- The placeholders for a number of values. -/
def placeholders (n : Nat) : List Bytes := List.replicate n [Byte.question]

/-- A statement that writes a whole record. -/
def write (e : Entity) (verb : WriteVerb) (r : Record) : Except TranslationError Statement := do
  if e.table.isEmpty then throw (.writeWithoutTable verb)
  let cs ← e.writtenCells r
  if cs.isEmpty then return ⟨verb.text ++ e.table ++ ascii " DEFAULT VALUES", []⟩
  return ⟨verb.text ++ e.table ++ ascii " (" ++ Bytes.joined (ascii ", ") (cs.map (·.1)) ++
    ascii ") VALUES (" ++ Bytes.joined (ascii ", ") (placeholders cs.length) ++ ascii ")",
    cs.map (·.2)⟩

/-- Inserts a record. -/
def insert (e : Entity) (r : Record) : Except TranslationError Statement := e.write .insert r

/-- Inserts a record, over one with the same key. -/
def upsert (e : Entity) (r : Record) : Except TranslationError Statement := e.write .upsert r

/-- The properties with the first one of the primary key taken out, if there is one. -/
def withoutKey : List Property → List Property
  | [] => []
  | p :: ps => if p.isKey then ps else p :: withoutKey ps

/-- The assignment or comparison of a column with a placeholder. -/
def assignment (c : ColumnValue) : Bytes := c.1 ++ ascii " = ?"

/-- Updates the row whose key is that of the record. -/
def update (e : Entity) (r : Record) : Except TranslationError Statement := do
  let some k := e.key? | throw (.updateWithoutKey e.table)
  let cs ← e.cells r (withoutKey e.properties)
  if cs.isEmpty then throw (.updateWithoutColumns e.table)
  let f ← e.binding k
  return ⟨ascii "UPDATE " ++ e.table ++ ascii " SET " ++
    Bytes.joined (ascii ", ") (cs.map assignment) ++
    ascii " WHERE " ++ assignment (k.column, r.store f), cs.map (·.2) ++ [r.store f]⟩

/-- Deletes the row with the given key. -/
def delete (e : Entity) (key : Value) : Except TranslationError Statement := do
  let some k := e.key? | throw (.deleteWithoutKey e.table)
  if key.isNull then throw (.deleteByNull e.table)
  return ⟨ascii "DELETE FROM " ++ e.table ++ ascii " WHERE " ++ assignment (k.column, key), [key]⟩

/-- Insertions of several records. -/
def insertAll (e : Entity) (rs : List Record) : Except TranslationError (List Statement) :=
  rs.mapM e.insert

/-- Insertions of several records, over those with the same keys. -/
def upsertAll (e : Entity) (rs : List Record) : Except TranslationError (List Statement) :=
  rs.mapM e.upsert

/-- Updates by several records. -/
def updateAll (e : Entity) (rs : List Record) : Except TranslationError (List Statement) :=
  rs.mapM e.update

/-- Deletions by several keys. -/
def deleteAll (e : Entity) (keys : List Value) : Except TranslationError (List Statement) :=
  keys.mapM e.delete

end SqlPlan.Entity
