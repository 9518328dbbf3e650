import SqlPlan.Placeholder

/-!
# Statements

A statement is SQL text with the values of its placeholders in order. Its fingerprint is the key
under which a compiled query is kept: the table, the name of the result type, the SQL and the
typed keys of the parameters, so that parameters that only look alike keep statements apart.
-/

namespace SqlPlan

/-- SQL text and the values for its placeholders. -/
structure Statement where
  /-- the text, with a question mark for each parameter -/
  sql : Bytes
  /-- the values, in the order of the question marks -/
  params : List Value := []
deriving DecidableEq, Inhabited

namespace Statement

/-- The text with literals in place of the placeholders, for logs only. -/
def expanded (st : Statement) : Bytes := Placeholder.expand st.sql st.params

/-- The key of a statement in a cache. -/
def fingerprint (st : Statement) (table resultType : Bytes) : Bytes :=
  table ++ ascii ":" ++ resultType ++ ascii ":" ++ st.sql ++ ascii ":" ++
    Bytes.joined (ascii "|") (st.params.map Value.key)

end Statement

end SqlPlan
