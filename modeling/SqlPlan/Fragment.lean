import SqlPlan.Statement

/-!
# Fragments of SQL

Emission gives a list of pieces, and both the SQL and the parameters are views of that list. One
list is enough because every value is bound at the place where its placeholder is written: text and
parameters grow together and in the same order, whichever clause is being emitted. A fragment that
the caller wrote is one piece with its own parameters, whose number need not be that of its
placeholders.
-/

namespace SqlPlan

/-- A piece of SQL. -/
inductive Piece where
  /-- fixed text -/
  | text (s : Bytes)
  /-- a value, written as a placeholder -/
  | bound (v : Value)
  /-- text with placeholders of its own, and the values for them -/
  | raw (sql : Bytes) (params : List Value)
deriving DecidableEq

/-- The text of a piece. -/
def Piece.sql : Piece → Bytes
  | .text s => s
  | .bound _ => [Byte.question]
  | .raw sql _ => sql

/-- The values a piece binds. -/
def Piece.params : Piece → List Value
  | .text _ => []
  | .bound v => [v]
  | .raw _ params => params

/-- Emitted SQL, piece by piece. -/
abbrev Fragment := List Piece

namespace Fragment

/-- Fixed text as a fragment. -/
def ofText (s : Bytes) : Fragment := [.text s]

/-- A fixed word as a fragment. -/
def word (s : String) : Fragment := ofText (ascii s)

/-- A fragment in parentheses. -/
def parens (f : Fragment) : Fragment := word "(" ++ f ++ word ")"

/-- A fragment in parentheses when it needs them. -/
def parensIf (needed : Bool) (f : Fragment) : Fragment := if needed then parens f else f

/-- Fragments one after the other, with a separator between neighbours. -/
def joined (sep : Fragment) (fs : List Fragment) : Fragment := (fs.intersperse sep).flatten

/-- The text of a fragment. -/
def sql (f : Fragment) : Bytes := f.flatMap Piece.sql

/-- The values a fragment binds, in the order of their placeholders. -/
def params (f : Fragment) : List Value := f.flatMap Piece.params

/-- The statement of a fragment. -/
def statement (f : Fragment) : Statement := ⟨sql f, params f⟩

@[simp] theorem sql_nil : sql [] = [] := rfl
@[simp] theorem sql_append (f g : Fragment) : sql (f ++ g) = sql f ++ sql g := by simp [sql]
@[simp] theorem sql_ofText (s : Bytes) : sql (ofText s) = s := by simp [sql, ofText, Piece.sql]
@[simp] theorem params_nil : params [] = [] := rfl
@[simp] theorem params_append (f g : Fragment) : params (f ++ g) = params f ++ params g := by
  simp [params]
@[simp] theorem params_ofText (s : Bytes) : params (ofText s) = [] := rfl

end Fragment

end SqlPlan
