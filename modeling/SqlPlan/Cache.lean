import SqlPlan.Action
import SqlPlan.Statement

/-!
# The cache of compiled queries

A cache keeps compiled queries by fingerprint and counts how often one was found and how often one
had to be made. Getting a query is three steps, and only the first and the last touch the cache:
looking it up, compiling it when it is not there, and entering it. Compiling may fail, in which
case the cache stays as it is, and it may use the same cache; if it enters the very fingerprint,
the entry made first stays and the later one is dropped, which counts as a find.
-/

namespace SqlPlan

/-- A statement that is ready to be executed, with the name of its result type. -/
structure Compiled where
  /-- what is executed -/
  statement : Statement
  /-- the type of the result -/
  resultType : Bytes
deriving DecidableEq, Inhabited

/-- Compiled queries by fingerprint. -/
structure QueryCache where
  /-- the entries, the latest first -/
  entries : List (Bytes × Compiled) := []
  /-- how often an entry was found -/
  hits : Nat := 0
  /-- how often one was entered -/
  misses : Nat := 0
deriving DecidableEq, Inhabited

namespace QueryCache

/-- The entry of a fingerprint. -/
def find? (c : QueryCache) (fp : Bytes) : Option Compiled := c.entries.lookup fp

/-- The number of entries. -/
def size (c : QueryCache) : Nat := c.entries.length

/-- The cache without entries and counts. -/
def clear (_ : QueryCache) : QueryCache := {}

/-- Looks a fingerprint up and counts a find. -/
def lookUp (c : QueryCache) (fp : Bytes) : Option Compiled × QueryCache :=
  match c.find? fp with
  | some q => (some q, { c with hits := c.hits + 1 })
  | none => (none, c)

/-- Enters a compiled query unless its fingerprint has an entry by now. Gives the entry that
stands, and whether it was there before. -/
def enter (c : QueryCache) (fp : Bytes) (q : Compiled) : (Compiled × Bool) × QueryCache :=
  match c.find? fp with
  | some old => ((old, true), { c with hits := c.hits + 1 })
  | none => ((q, false), { c with entries := (fp, q) :: c.entries, misses := c.misses + 1 })

/-- The compiled query of a fingerprint, and whether it was found in the cache. It is compiled
when it is not found; `compile` works on the cache and on whatever else it needs. -/
def getOrCompile {σ ε : Type} (fp : Bytes) (compile : Action (QueryCache × σ) ε Compiled) :
    Action (QueryCache × σ) ε (Compiled × Bool) := do
  let (c, s) ← get
  let (found, c) := c.lookUp fp
  set (c, s)
  match found with
  | some q => return (q, true)
  | none =>
    let q ← compile
    let (c, s) ← get
    let (r, c) := c.enter fp q
    set (c, s)
    return r

end QueryCache

end SqlPlan
