import SqlPlan.Naming
import SqlPlan.Record
import SqlPlan.TranslationError

/-!
# Entities

An entity is a table with its properties: which column each one has, whether it belongs to the
primary key or is generated by the database, and the field of a record it is bound to. An entity
without a table name is the shape of a projection. Expressions name entities by number; a
`Catalog` says what entity a number stands for, so that a declaration can grow while plans that
name it stay as they are.
-/

namespace SqlPlan

/-- A property of an entity. -/
structure Property where
  /-- the name in expressions -/
  name : Bytes
  /-- the column in the table -/
  column : Bytes
  /-- part of the primary key? -/
  isKey : Bool := false
  /-- given by the database when it is left out? -/
  isGenerated : Bool := false
  /-- the field it is read into and stored from -/
  field : Option Field := none
deriving DecidableEq

/-- A table and its properties, in the order of their declaration. -/
structure Entity where
  /-- the table; empty for the shape of a projection -/
  table : Bytes := []
  /-- where columns come from that are not given -/
  naming : Naming := {}
  /-- the properties -/
  properties : List Property := []
deriving DecidableEq, Inhabited

/-- The number by which expressions name an entity. -/
abbrev EntityId := Nat

/-- What entity a number stands for. -/
abbrev Catalog := EntityId → Entity

namespace Entity

/-- The property of a name. -/
def find? (e : Entity) (name : Bytes) : Option Property :=
  e.properties.find? fun p => p.name == name

/-- The property of a name, which must be declared. -/
def lookup (e : Entity) (name : Bytes) : Except TranslationError Property :=
  match e.find? name with
  | some p => .ok p
  | none => .error (.unknownProperty e.table name)

/-- The first property of the primary key. -/
def key? (e : Entity) : Option Property := e.properties.find? (·.isKey)

/-- The first property bound to a field. -/
def bound? (e : Entity) (f : Field) : Option Property :=
  e.properties.find? fun p => p.field == some f

/-- The entity with one more property, as it is given. -/
def attach (e : Entity) (p : Property) : Entity := { e with properties := e.properties ++ [p] }

/-- Declares a property bound to a field. Its name must be new; its column is derived from the
name when none is given. -/
def declare (e : Entity) (name : Bytes) (f : Field) (isKey isGenerated : Bool)
    (column : Bytes := []) : Except TranslationError Entity :=
  if (e.find? name).isSome then .error (.duplicateProperty e.table name)
  else .ok <| e.attach
    { name, isKey, isGenerated, field := some f
      column := if column.isEmpty then e.naming.columnFor name else column }

/-- The field a property is bound to, which it must be. -/
def binding (e : Entity) (p : Property) : Except TranslationError Field :=
  match p.field with
  | some f => .ok f
  | none => .error (.noBinding e.table p.name)

end Entity

end SqlPlan
