import SqlPlan.ByteMap

/-!
# Property names and column names

Properties are named in capitals style (`CreatedAt`), columns in underscore style (`created_at`).
`snakeCase` goes one way and `pascalCase` the other, both on ASCII letters only. A naming may
override the column of single properties.
-/

namespace SqlPlan

/-- The name in underscore style: the first letter is made small, and each later capital becomes
an underscore and its small letter. -/
def snakeCase : Bytes → Bytes
  | [] => []
  | b :: s => Byte.toLower b ::
      s.flatMap fun c => if Byte.isUpper c then [Byte.underscore, Byte.toLower c] else [c]

/-- Capitals style from where a word begins (`up`) or goes on: underscores vanish, and the letter
that begins a word becomes a capital. -/
def pascalFrom : Bool → Bytes → Bytes
  | _, [] => []
  | up, b :: s =>
    if b = Byte.underscore then pascalFrom true s
    else (if up then Byte.toUpper b else b) :: pascalFrom false s

/-- The name in capitals style. -/
def pascalCase (s : Bytes) : Bytes := pascalFrom true s

/-- How the properties of an entity get their columns. -/
structure Naming where
  /-- the columns that are not derived from the property -/
  overrides : ByteMap Bytes := {}
deriving DecidableEq, Inhabited

/-- The column of a property: its override, or its name in underscore style. -/
def Naming.columnFor (n : Naming) (property : Bytes) : Bytes :=
  (n.overrides.find? property).getD (snakeCase property)

end SqlPlan
