import SqlPlan.Decimal.Integer
import SqlPlan.Operator

/-!
# Translation errors

Everything that can be wrong with a plan, an expression or an entity when it is turned into SQL.
An error names the construct at fault and gives a reason; its message is made of the two. Table
names are those the entities had when the error was found.
-/

namespace SqlPlan

/-- A step in building a plan that has an order of its own to keep. -/
inductive BuildStep where
  | filter
  | having
  | orderBy
  | thenBy
deriving DecidableEq, Repr

/-- The name of a building step. -/
def BuildStep.text : BuildStep → Bytes
  | .filter => ascii "where"
  | .having => ascii "having"
  | .orderBy => ascii "order_by"
  | .thenBy => ascii "then_by"

/-- A question about all rows that takes a predicate. -/
inductive Quantifier where
  | any
  | all
deriving DecidableEq, Repr

/-- The name of a quantifier. -/
def Quantifier.text : Quantifier → Bytes
  | .any => ascii "any"
  | .all => ascii "all"

/-- Why something cannot be turned into SQL. -/
inductive TranslationError where
  /-- the entity declares no such property -/
  | unknownProperty (table property : Bytes)
  /-- the entity of a column takes no part in the query -/
  | unboundEntity (table property : Bytes)
  /-- a column of a grouped query is no group key and in no aggregate -/
  | ungroupedColumn (table property : Bytes)
  /-- an aggregate where there are no groups -/
  | aggregateOutsideGroup (fn : Aggregate)
  /-- an aggregate inside an aggregate -/
  | nestedAggregate (fn : Aggregate)
  /-- a reference to a group key where there are no groups -/
  | keyOutsideGroup
  /-- the whole of a key that has not exactly one member -/
  | compositeKey
  /-- a member of the key beyond its last -/
  | keyIndex (index size : Nat)
  /-- NULL compared by order -/
  | nullOrdering (op : CompareOp)
  /-- a fragment of blanks only -/
  | emptyRaw
  /-- a fragment with another number of placeholders than of parameters -/
  | rawParameters (sql : Bytes) (placeholders parameters : Nat)
  /-- a property declared a second time -/
  | duplicateProperty (table property : Bytes)
  /-- a member that no property is bound to -/
  | undeclaredMember (table : Bytes)
  /-- a member to project to that no property is bound to -/
  | undeclaredTarget (table : Bytes)
  /-- a property without a member -/
  | noBinding (table property : Bytes)
  /-- an update of an entity without a key -/
  | updateWithoutKey (table : Bytes)
  /-- an update that would set nothing -/
  | updateWithoutColumns (table : Bytes)
  /-- a deletion from an entity without a key -/
  | deleteWithoutKey (table : Bytes)
  /-- a deletion by NULL -/
  | deleteByNull (table : Bytes)
  /-- a write to a projection type -/
  | writeWithoutTable (verb : WriteVerb)
  /-- a query from an entity without a table -/
  | sourceWithoutTable
  /-- a filter of rows after grouping -/
  | filterAfterGrouping
  /-- a filter of groups without grouping -/
  | havingWithoutGrouping
  /-- a filter after take or skip -/
  | filterAfterPaging (step : BuildStep)
  /-- an ordering after take or skip -/
  | orderAfterPaging (step : BuildStep)
  /-- a further order term without a first one -/
  | thenWithoutOrder
  /-- a row count that is not positive -/
  | badTake (n : Int)
  /-- a negative number of rows to skip -/
  | badSkip (n : Int)
  /-- a projection without members -/
  | emptyProjection
  /-- a second projection -/
  | alreadyProjected
  /-- a projection member without a column name -/
  | unnamedItem
  /-- a column that two projection members are assigned to -/
  | duplicateItem (column : Bytes)
  /-- a second join -/
  | secondJoin
  /-- a join after grouping or projection -/
  | lateJoin
  /-- a join of an entity with itself -/
  | selfJoin (table : Bytes)
  /-- a join key without a column -/
  | joinKeyWithoutColumn (side : JoinSide)
  /-- a join key with an aggregate -/
  | joinKeyAggregate (side : JoinSide)
  /-- a join key with a column of another entity than its side's -/
  | joinKeyOwner (side : JoinSide) (found expected : Bytes)
  /-- a grouping by nothing -/
  | emptyGrouping
  /-- a second grouping -/
  | alreadyGrouped
  /-- a grouping after projection -/
  | groupingAfterProjection
  /-- a grouping after ordering, paging or distinct -/
  | lateGrouping
  /-- a group key with an aggregate -/
  | aggregateInKey
  /-- a group key that is a reference to a group key -/
  | keyInKey
  /-- a quantifier with a predicate over a query that is paged, distinct or grouped -/
  | predicateOverDerived (q : Quantifier)
  /-- a set operation ordered by something other than a column -/
  | setOrderKey
deriving DecidableEq

namespace TranslationError

/-- The words for a member of an entity. -/
def member (table property : Bytes) : Bytes :=
  ascii "member " ++ table ++ ascii "." ++ property

/-- A name followed by a number in brackets. -/
def call (name : Bytes) (n : Int) : Bytes := name ++ ascii "(" ++ Decimal.intText n ++ ascii ")"

/-- What cannot be translated. -/
def construct : TranslationError → Bytes
  | .unknownProperty t p | .unboundEntity t p | .ungroupedColumn t p => member t p
  | .aggregateOutsideGroup fn | .nestedAggregate fn => fn.text ++ ascii "()"
  | .keyOutsideGroup | .compositeKey => ascii "key()"
  | .keyIndex i _ => call (ascii "key") i
  | .nullOrdering op => ascii "comparison " ++ op.text ++ ascii " NULL"
  | .emptyRaw => ascii "raw predicate"
  | .rawParameters sql _ _ => ascii "raw predicate '" ++ sql ++ ascii "'"
  | .duplicateProperty _ p | .noBinding _ p => ascii "property " ++ p
  | .undeclaredMember t => ascii "member of " ++ t
  | .undeclaredTarget t =>
    ascii "projection member of " ++ if t.isEmpty then ascii "result" else t
  | .updateWithoutKey t | .updateWithoutColumns t => ascii "update " ++ t
  | .deleteWithoutKey t | .deleteByNull t => ascii "delete " ++ t
  | .writeWithoutTable verb => verb.text ++ ascii "result"
  | .sourceWithoutTable => ascii "from"
  | .filterAfterGrouping => ascii "where"
  | .havingWithoutGrouping => ascii "having"
  | .filterAfterPaging step | .orderAfterPaging step => step.text
  | .thenWithoutOrder => ascii "then_by"
  | .badTake n => call (ascii "take") n
  | .badSkip n => call (ascii "skip") n
  | .emptyProjection | .alreadyProjected | .unnamedItem | .duplicateItem _ => ascii "select"
  | .secondJoin | .lateJoin => ascii "join"
  | .selfJoin t => ascii "join " ++ t
  | .joinKeyWithoutColumn side | .joinKeyAggregate side | .joinKeyOwner side _ _ =>
    ascii "join " ++ side.text ++ ascii " key"
  | .emptyGrouping | .alreadyGrouped | .groupingAfterProjection | .lateGrouping
  | .aggregateInKey | .keyInKey => ascii "group_by"
  | .predicateOverDerived q => q.text ++ ascii "(predicate)"
  | .setOrderKey => ascii "order_by on a set operation"

/-- Why it cannot be translated. -/
def reason : TranslationError → Bytes
  | .unknownProperty .. => ascii "property is not mapped on this entity"
  | .unboundEntity .. => ascii "entity is not bound in this query"
  | .ungroupedColumn .. => ascii "column is neither a group key nor inside an aggregate"
  | .aggregateOutsideGroup _ => ascii "aggregate used outside a group projection"
  | .nestedAggregate _ => ascii "aggregate calls cannot be nested"
  | .keyOutsideGroup => ascii "group key used outside a group projection"
  | .compositeKey =>
    ascii "composite key cannot be projected as a whole, select its members with key(i)"
  | .keyIndex _ n => ascii "group key has " ++ Decimal.natText n ++ ascii " member(s)"
  | .nullOrdering _ => ascii "only == and != are defined against NULL"
  | .emptyRaw => ascii "SQL fragment is empty"
  | .rawParameters _ m n =>
    Decimal.natText m ++ ascii " placeholder(s) but " ++ Decimal.natText n ++
      ascii " parameter(s)"
  | .duplicateProperty t _ => ascii "declared twice on " ++ t
  | .undeclaredMember _ | .undeclaredTarget _ => ascii "member is not declared as a property"
  | .noBinding t _ => ascii "has no member binding on " ++ t
  | .updateWithoutKey _ | .deleteWithoutKey _ => ascii "entity declares no primary key"
  | .updateWithoutColumns _ => ascii "entity has no columns besides its key"
  | .deleteByNull _ => ascii "key value is NULL"
  | .writeWithoutTable _ => ascii "projection types have no table"
  | .sourceWithoutTable => ascii "entity has no table name"
  | .filterAfterGrouping => ascii "grouped queries filter groups with having"
  | .havingWithoutGrouping => ascii "requires group_by"
  | .filterAfterPaging _ => ascii "filters must precede take and skip"
  | .orderAfterPaging _ => ascii "ordering must precede take and skip"
  | .thenWithoutOrder => ascii "requires a preceding order_by"
  | .badTake _ => ascii "count must be positive"
  | .badSkip _ => ascii "count must not be negative"
  | .emptyProjection => ascii "projection has no members"
  | .alreadyProjected => ascii "query is already projected"
  | .unnamedItem => ascii "projection member has no column name"
  | .duplicateItem c => ascii "column '" ++ c ++ ascii "' is assigned twice"
  | .secondJoin => ascii "only a single join is supported"
  | .lateJoin => ascii "join must precede grouping and projection"
  | .selfJoin _ => ascii "an entity cannot be joined with itself"
  | .joinKeyWithoutColumn _ => ascii "key does not reference a column"
  | .joinKeyAggregate _ => ascii "aggregates are not allowed in join keys"
  | .joinKeyOwner _ found expected =>
    ascii "references " ++ found ++ ascii " instead of " ++ expected
  | .emptyGrouping => ascii "key selector is empty"
  | .alreadyGrouped => ascii "query is already grouped"
  | .groupingAfterProjection => ascii "grouping must precede projection"
  | .lateGrouping => ascii "grouping must precede ordering, paging and distinct"
  | .aggregateInKey => ascii "aggregates are not allowed in a group key"
  | .keyInKey => ascii "a group key cannot refer to another group key"
  | .predicateOverDerived _ => ascii "not supported on paged, distinct or grouped queries"
  | .setOrderKey => ascii "key must be a plain member access"

/-- The message of an error about a construct; it ends where a name in it has a NUL byte. -/
def wording (construct reason : Bytes) : Bytes :=
  Bytes.upToNul (ascii "cannot translate " ++ construct ++ ascii ": " ++ reason)

/-- The whole message. -/
def message (e : TranslationError) : Bytes := wording e.construct e.reason

end TranslationError

end SqlPlan
