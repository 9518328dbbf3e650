import SqlPlan.Proofs.NormalForm
import SqlPlan.Proofs.WellFormed

/-!
# Emitted SQL, lexeme by lexeme

In emitted SQL the name of a column is text like any other. `Expr.lexemes` and `Query.lexemes` keep
apart what the text stands for: fixed pieces, names of columns and of aggregates, references to
group keys, tables. A list of lexemes is made from the plan alone. It knows neither the declarations
nor the scope, and so all of the SQL that depends on these is written by a lexeme that says so.

`Expr.emit_eq_written` and `Query.emit_eq_written` say that what is emitted is the writing of the
lexemes. `Expr.filterMap_lexemes` and `Query.filterMap_lexemes` say which lexemes these are: those
of the nodes of each expression, and those of the expressions of each clause, all in order.
-/

namespace SqlPlan

open Fragment

/-- What a part of emitted SQL stands for. -/
inductive Lexeme where
  /-- a piece that is the same under all declarations -/
  | piece (p : Piece)
  /-- the table of an entity, with the words around it -/
  | table (before : Bytes) (id : EntityId) (after : Bytes)
  /-- the name of a column -/
  | column (c : ColumnRef)
  /-- the name of an aggregate that is called -/
  | aggregate (fn : Aggregate)
  /-- a member of the group key, or all of it -/
  | key (index : Option Nat)
deriving DecidableEq

namespace Lexeme

/-- The column whose name the lexeme is. -/
def column? : Lexeme → Option ColumnRef
  | .column c => some c
  | _ => none

/-- The aggregate whose name the lexeme is. -/
def aggregate? : Lexeme → Option Aggregate
  | .aggregate fn => some fn
  | _ => none

/-- The member of the group key that the lexeme stands for. -/
def key? : Lexeme → Option (Option Nat)
  | .key index => some index
  | _ => none

/-! ## Lists of lexemes -/

/-- A fixed fragment. -/
def fixed (f : Fragment) : List Lexeme := f.map .piece

/-- Lexemes in parentheses. -/
def parens (ts : List Lexeme) : List Lexeme := fixed (word "(") ++ ts ++ fixed (word ")")

/-- Lexemes in parentheses when they need them. -/
def parensIf (needed : Bool) (ts : List Lexeme) : List Lexeme := if needed then parens ts else ts

/-- Lexemes one list after the other, with a separator between neighbours. -/
def joined (sep : Fragment) (tss : List (List Lexeme)) : List Lexeme :=
  (tss.intersperse (fixed sep)).flatten

/-- The SQL of a lexeme in a scope. A column without a name there and a key that is not there have
none. -/
def write (Γ : Catalog) (s : Scope) : Lexeme → Fragment
  | .piece p => [p]
  | .table before id after => ofText (before ++ (Γ id).table ++ after)
  | .column c => ofText (s.nameOf Γ c)
  | .aggregate fn => ofText fn.text
  | .key index => (Expr.emitKey Γ s index).toOption.getD []

/-- The SQL of lexemes in a scope. -/
def written (Γ : Catalog) (s : Scope) (ts : List Lexeme) : Fragment := ts.flatMap (write Γ s)

section

variable {Γ : Catalog} {s s' : Scope} {ts us : List Lexeme}

/-- The first list stands alone, and each further one behind the separator. -/
theorem joined_cons (sep : Fragment) (ts : List Lexeme) (tss : List (List Lexeme)) :
    joined sep (ts :: tss) = ts ++ tss.flatMap (fixed sep ++ ·) :=
  Bytes.flatten_intersperse_cons (fixed sep) ts tss

@[simp] theorem written_nil : written Γ s [] = [] := rfl

@[simp] theorem written_cons (t : Lexeme) : written Γ s (t :: ts) = t.write Γ s ++ written Γ s ts :=
  List.flatMap_cons

/-- Lexemes are written one by one, so lists of them are written one after the other. -/
@[simp] theorem written_append : written Γ s (ts ++ us) = written Γ s ts ++ written Γ s us :=
  List.flatMap_append

/-- A fixed fragment is written as it is, in any scope. -/
@[simp] theorem written_fixed (f : Fragment) : written Γ s (fixed f) = f := by
  rw [written, fixed, List.flatMap_map]
  exact List.flatMap_singleton' f

@[simp] theorem written_parens : written Γ s (parens ts) = Fragment.parens (written Γ s ts) := by
  simp only [parens, Fragment.parens, written_append, written_fixed]

@[simp] theorem written_parensIf (needed : Bool) :
    written Γ s (parensIf needed ts) = Fragment.parensIf needed (written Γ s ts) := by
  cases needed
  · rfl
  · exact written_parens

@[simp] theorem written_joined (sep : Fragment) (tss : List (List Lexeme)) :
    written Γ s (joined sep tss) = Fragment.joined sep (tss.map (written Γ s)) := by
  have hmap := Bytes.map_flatten_intersperse (φ := written Γ s) written_nil
    (fun _ _ => written_append) (fixed sep) tss
  rwa [written_fixed] at hmap

/-- Two scopes that write each of the lexemes alike write the list alike. -/
theorem written_congr (h : ∀ t ∈ ts, t.write Γ s = t.write Γ s') :
    written Γ s ts = written Γ s' ts :=
  List.flatMap_congr h

/-- Names and keys are written inside an aggregate as they are outside. -/
theorem written_inAggregate (b : Bool) :
    written Γ { s with inAggregate := b } ts = written Γ s ts := by
  refine written_congr fun t _ => ?_
  cases t with
  | key index => simp only [write, Expr.emitKey_inAggregate]
  | _ => rfl

end

section

variable {β : Type} {g : Lexeme → Option β} (hpiece : ∀ p, g (.piece p) = none)
  {ts us : List Lexeme}
include hpiece

/-- What looks past pieces sees nothing of a fixed fragment. -/
theorem filterMap_fixed (f : Fragment) : (fixed f).filterMap g = [] := by
  simp [fixed, hpiece]

theorem filterMap_parens : (parens ts).filterMap g = ts.filterMap g := by
  simp only [parens, List.filterMap_append, filterMap_fixed hpiece, List.nil_append,
    List.append_nil]

theorem filterMap_parensIf (needed : Bool) :
    (parensIf needed ts).filterMap g = ts.filterMap g := by
  cases needed
  · rfl
  · exact filterMap_parens hpiece

/-- Separators are fixed, so joined lists are seen one after the other. -/
theorem filterMap_joined (sep : Fragment) (tss : List (List Lexeme)) :
    (joined sep tss).filterMap g = tss.flatMap (·.filterMap g) := by
  cases tss with
  | nil => rfl
  | cons ts tss =>
    rw [joined_cons, List.filterMap_append, List.filterMap_flatMap, List.flatMap_cons]
    simp only [List.filterMap_append, filterMap_fixed hpiece, List.nil_append]

end

end Lexeme

/-! ## Expressions -/

namespace Expr

open Lexeme

/-- **The lexemes of an expression.** Of a comparison with the literal NULL only the other side is
written. -/
def lexemes : Expr → List Lexeme
  | .column owner property => [.column ⟨owner, property⟩]
  | .literal v => fixed (constant v)
  | .arith op l r =>
    parensIf l.isCompound l.lexemes ++ fixed (ofText (ascii " " ++ op.text ++ ascii " ")) ++
      parensIf r.isCompound r.lexemes
  | .call fn e => fixed (ofText fn.text) ++ Lexeme.parens e.lexemes
  | .countRows => .aggregate .count :: fixed (word "(*)")
  | .aggregate fn e => .aggregate fn :: Lexeme.parens e.lexemes
  | .key index => [.key index]
  | .truth e => e.lexemes
  | .nullCheck negated e =>
    parensIf e.isCompound e.lexemes ++
      fixed (word (if negated then " IS NOT NULL" else " IS NULL"))
  | .logic op l r =>
    Lexeme.parens l.lexemes ++ fixed (ofText (ascii " " ++ op.text ++ ascii " ")) ++
      Lexeme.parens r.lexemes
  | .compare op l r =>
    if r.isNullLiteral then
      parensIf l.isCompound l.lexemes ++ fixed ((nullTest op).toOption.getD [])
    else if l.isNullLiteral then
      parensIf r.isCompound r.lexemes ++ fixed ((nullTest op).toOption.getD [])
    else
      parensIf l.isCompound l.lexemes ++ fixed (ofText (ascii " " ++ op.text ++ ascii " ")) ++
        parensIf r.isCompound r.lexemes
  | .not e => fixed (word "NOT ") ++ Lexeme.parens e.lexemes
  | .like e text anchor =>
    parensIf e.isCompound e.lexemes ++ fixed (word " LIKE ") ++
      fixed [.bound (.text (anchor.pattern text))]
  | .oneOf e items =>
    parensIf e.isCompound e.lexemes ++ fixed (word " IN ") ++
      fixed (Fragment.parens (Fragment.joined (word ", ") (items.map constant)))
  | .raw sql params => fixed [.raw sql params]

/-- The lexemes of an expression as an operand. -/
def operandLexemes (e : Expr) : List Lexeme := parensIf e.isCompound e.lexemes

/-- The lexeme that a node itself is written with, besides fixed pieces. -/
def lexeme? : Expr → Option Lexeme
  | .column owner property => some (.column ⟨owner, property⟩)
  | .countRows => some (.aggregate .count)
  | .aggregate fn _ => some (.aggregate fn)
  | .key index => some (.key index)
  | _ => none

/-- The member of the group key that the expression refers to, if it is such a reference. -/
def keyRef? : Expr → Option (Option Nat)
  | .key index => some index
  | _ => none

/-- Only a reference to a group key is written as one. -/
theorem lexeme?_bind_key? (e : Expr) : e.lexeme?.bind key? = e.keyRef? := by
  cases e <;> rfl

theorem lexeme?_bind_column? (e : Expr) : e.lexeme?.bind column? = e.columnRef? := by
  cases e <;> rfl

variable {Γ : Catalog} {s : Scope} {e : Expr} {f : Fragment}

/-- **Emission writes the lexemes.** The induction is on the expression; the scope changes only
inside an aggregate, where lexemes are written as they are outside. -/
theorem emit_eq_written (h : e.emit Γ s = .ok f) : f = written Γ s e.lexemes := by
  rw [emit] at h
  induction e generalizing s f with
  | column owner property =>
    obtain ⟨-, n, hn, rfl⟩ := Scope.column_eq_ok.1 h
    have hname : s.nameOf Γ ⟨owner, property⟩ = n := by rw [Scope.nameOf, hn]; rfl
    simp [lexemes, written, write, hname]
  | literal v =>
    obtain rfl := Except.ok.inj h
    exact (written_fixed _).symm
  | arith op l r ihl ihr =>
    obtain ⟨a, b, ha, hb, rfl⟩ := emitWith_arith_eq_ok.1 h
    simp [lexemes, ← ihl ha, ← ihr hb]
  | call fn e ih =>
    obtain ⟨a, ha, rfl⟩ := emitWith_call_eq_ok.1 h
    simp [lexemes, ← ih ha]
  | countRows =>
    obtain ⟨-, rfl⟩ := emitWith_countRows_eq_ok.1 h
    rfl
  | aggregate fn e ih =>
    obtain ⟨-, a, ha, rfl⟩ := emitWith_aggregate_eq_ok.1 h
    have harg : a = written Γ s e.lexemes :=
      (ih (s := s.insideAggregate) ha).trans (written_inAggregate true)
    rw [lexemes, ← List.singleton_append, written_append, written_parens, ← harg]
    rfl
  | key index =>
    have hkey : emitKey Γ s index = .ok f := h
    simp [lexemes, written, write, hkey, Except.toOption]
  | truth e ih => exact ih h
  | nullCheck negated e ih =>
    obtain ⟨a, ha, rfl⟩ := emitWith_nullCheck_eq_ok.1 h
    simp [lexemes, ← ih ha]
  | logic op l r ihl ihr =>
    obtain ⟨a, b, ha, hb, rfl⟩ := emitWith_logic_eq_ok.1 h
    simp [lexemes, ← ihl ha, ← ihr hb]
  | compare op l r ihl ihr =>
    rcases emitWith_compare_eq_ok.1 h with ⟨hl, hr, a, b, ha, hb, rfl⟩ |
      ⟨hr, test, a, htest, ha, rfl⟩ | ⟨hl, hr, test, b, htest, hb, rfl⟩
    · simp [lexemes, hl, hr, ← ihl ha, ← ihr hb]
    · simp [lexemes, hr, htest, ← ihl ha, Except.toOption]
    · simp [lexemes, hl, hr, htest, ← ihr hb, Except.toOption]
  | not e ih =>
    obtain ⟨a, ha, rfl⟩ := emitWith_not_eq_ok.1 h
    simp [lexemes, ← ih ha]
  | like e text anchor ih =>
    obtain ⟨a, ha, rfl⟩ := emitWith_like_eq_ok.1 h
    simp [lexemes, ← ih ha]
  | oneOf e items ih =>
    obtain ⟨a, ha, rfl⟩ := emitWith_oneOf_eq_ok.1 h
    simp [lexemes, ← ih ha]
  | raw sql params =>
    obtain rfl := Except.ok.inj h
    exact (written_fixed _).symm

/-- An operand is the writing of its lexemes, parentheses included. -/
theorem emitOperand_eq_written (h : e.emitOperand Γ s = .ok f) :
    f = written Γ s e.operandLexemes := by
  obtain ⟨a, ha, rfl⟩ := emitOperand_eq_ok.1 h
  rw [operandLexemes, written_parensIf, ← emit_eq_written ha]

section

variable {β : Type} {g : Lexeme → Option β} (hpiece : ∀ p, g (.piece p) = none)
include hpiece

/-- The literal NULL is a fixed piece, so nothing is lost where it is not written. -/
theorem filterMap_lexemes_of_isNullLiteral (he : e.isNullLiteral = true) :
    e.lexemes.filterMap g = [] := by
  cases e with
  | literal v => exact filterMap_fixed hpiece _
  | _ => cases he

/-- Both sides of a comparison are walked; one that is left out has nothing to show. -/
theorem filterMap_lexemes_compare (op : CompareOp) (l r : Expr) :
    (Expr.compare op l r).lexemes.filterMap g = l.lexemes.filterMap g ++ r.lexemes.filterMap g := by
  rw [lexemes]
  cases hr : r.isNullLiteral with
  | true =>
    rw [if_pos rfl, List.filterMap_append, filterMap_parensIf hpiece, filterMap_fixed hpiece,
      filterMap_lexemes_of_isNullLiteral hpiece hr]
  | false =>
    rw [if_neg Bool.false_ne_true]
    cases hl : l.isNullLiteral with
    | true =>
      rw [if_pos rfl, List.filterMap_append, filterMap_parensIf hpiece, filterMap_fixed hpiece,
        filterMap_lexemes_of_isNullLiteral hpiece hl, List.append_nil, List.nil_append]
    | false =>
      rw [if_neg Bool.false_ne_true]
      simp only [List.filterMap_append, filterMap_parensIf hpiece, filterMap_fixed hpiece,
        List.append_nil]

/-- **The lexemes of an expression are those of its nodes**, fixed pieces left aside, in order and
with repetitions. -/
theorem filterMap_lexemes (e : Expr) (b : Bool) :
    e.lexemes.filterMap g = (e.nodesFrom b).filterMap fun n => n.expr.lexeme?.bind g := by
  induction e generalizing b with
  | column | key => rfl
  | literal | raw => exact filterMap_fixed hpiece _
  | countRows =>
    rw [lexemes, List.filterMap_cons, filterMap_fixed hpiece]
    rfl
  -- the nodes of the argument are inside the aggregate, which their lexemes do not show
  | aggregate fn e ih =>
    rw [lexemes, List.filterMap_cons, filterMap_parens hpiece, ih true]
    rfl
  | compare op l r ihl ihr =>
    rw [filterMap_lexemes_compare hpiece, ihl b, ihr b, nodesFrom, List.filterMap_cons_none rfl,
      List.filterMap_append]
  | arith op l r ihl ihr =>
    rw [nodesFrom, List.filterMap_cons_none rfl, List.filterMap_append, ← ihl b, ← ihr b, lexemes]
    simp only [List.filterMap_append, filterMap_parensIf hpiece, filterMap_fixed hpiece,
      List.append_nil]
  | logic op l r ihl ihr =>
    rw [nodesFrom, List.filterMap_cons_none rfl, List.filterMap_append, ← ihl b, ← ihr b, lexemes]
    simp only [List.filterMap_append, filterMap_parens hpiece, filterMap_fixed hpiece,
      List.append_nil]
  | truth e ih =>
    rw [nodesFrom, List.filterMap_cons_none rfl, ← ih b, lexemes]
  | call fn e ih | nullCheck negated e ih | not e ih | like e text anchor ih | oneOf e items ih =>
    rw [nodesFrom, List.filterMap_cons_none rfl, ← ih b, lexemes]
    simp only [List.filterMap_append, filterMap_parensIf hpiece, filterMap_parens hpiece,
      filterMap_fixed hpiece, List.append_nil, List.nil_append]

theorem filterMap_operandLexemes (e : Expr) :
    e.operandLexemes.filterMap g = e.lexemes.filterMap g :=
  filterMap_parensIf hpiece _

end

/-- The columns in the lexemes are those the expression refers to. -/
theorem filterMap_column?_lexemes (e : Expr) :
    e.lexemes.filterMap column? = e.references.columns := by
  rw [filterMap_lexemes (fun _ => rfl) e false, columns_references e false]
  simp only [lexeme?_bind_column?]

/-- The group keys in the lexemes are those the nodes refer to. -/
theorem filterMap_key?_lexemes (e : Expr) :
    e.lexemes.filterMap key? = e.nodes.filterMap (·.expr.keyRef?) := by
  rw [filterMap_lexemes (fun _ => rfl) e false, nodes]
  simp only [lexeme?_bind_key?]

/-- The expression refers to no group key. -/
def IsKeyless (e : Expr) : Prop := ∀ n ∈ e.nodes, n.expr.isKey = false

instance : Decidable e.IsKeyless :=
  inferInstanceAs (Decidable (∀ n ∈ e.nodes, n.expr.isKey = false))

/-- What can be emitted on single rows refers to no group key. -/
theorem IsRowwise.isKeyless (h : e.IsRowwise) : e.IsKeyless := fun n hn => (h n hn).2

/-- Without references to group keys in its nodes, an expression has none in its lexemes. -/
theorem IsKeyless.filterMap_key? (h : e.IsKeyless) : e.lexemes.filterMap key? = [] := by
  rw [filterMap_key?_lexemes, List.filterMap_eq_nil_iff]
  intro n hn
  have hkey := h n hn
  cases hexpr : n.expr with
  | key index =>
    rw [hexpr] at hkey
    cases hkey
  | _ => rfl

end Expr

/-! ## Queries -/

namespace Query

open Lexeme

/-- The lexemes of a column of the projection. -/
def itemLexemes (i : Item) : List Lexeme :=
  i.value.operandLexemes ++ fixed (ofText (ascii " AS " ++ i.column))

/-- The lexemes of predicates that must all hold. -/
def allLexemes (ps : List Expr) : List Lexeme :=
  Lexeme.joined (word " AND ") (ps.map fun p => Lexeme.parensIf (1 < ps.length) p.lexemes)

/-- The lexemes of a term of an ordering. -/
def termLexemes (t : OrderTerm) : List Lexeme :=
  t.key.lexemes ++ fixed (word (if t.descending then " DESC" else " ASC"))

/-- The lexemes of the columns of the result. -/
def columnLexemes (q : Query) : List Lexeme :=
  if q.isProjected then Lexeme.joined (word ", ") (q.items.map itemLexemes)
  else if q.isGrouped then Lexeme.joined (word ", ") (q.keys.map Expr.lexemes)
  else fixed (word "*")

/-- The lexemes of the FROM clause. -/
def fromLexemes (q : Query) : List Lexeme :=
  .table (ascii "FROM ") q.source [] ::
    match q.join with
    | none => []
    | some j =>
      .table (ascii " " ++ j.kind.text ++ ascii " ") j.inner (ascii " ON ") ::
        (j.outerKey.operandLexemes ++ fixed (word " = ") ++ j.innerKey.operandLexemes)

/-- The lexemes of the WHERE clause. -/
def whereLexemes (q : Query) : List Lexeme :=
  if q.filters.isEmpty then [] else fixed (word " WHERE ") ++ allLexemes q.filters

/-- The lexemes of the GROUP BY clause. -/
def keyLexemes (q : Query) : List Lexeme :=
  if q.isGrouped then
    fixed (word " GROUP BY ") ++ Lexeme.joined (word ", ") (q.keys.map Expr.lexemes)
  else []

/-- The lexemes of the HAVING clause. -/
def havingLexemes (q : Query) : List Lexeme :=
  if q.isGrouped && !q.having.isEmpty then fixed (word " HAVING ") ++ allLexemes q.having else []

/-- The lexemes of the ORDER BY clause. -/
def orderLexemes (q : Query) : List Lexeme :=
  if q.order.isEmpty then []
  else fixed (word " ORDER BY ") ++ Lexeme.joined (word ", ") (q.order.map termLexemes)

/-- The lexemes of the clauses that see single rows, which stand together. -/
def rowLexemes (q : Query) : List Lexeme := q.fromLexemes ++ q.whereLexemes ++ q.keyLexemes

/-- **The lexemes of a query**, clause by clause. -/
def lexemes (q : Query) : List Lexeme :=
  fixed (word "SELECT ") ++ fixed (if q.distinct then word "DISTINCT " else []) ++
    q.columnLexemes ++ fixed (word " ") ++ q.rowLexemes ++ q.havingLexemes ++ q.orderLexemes ++
    fixed (ofText q.paging.text)

section

variable {Γ : Catalog} {s s' : Scope} {q : Query} {f : Fragment}

/-- Expressions on rows refer to no key, and so are written alike where there are groups. -/
theorem emit_eq_written_groupScope {e : Expr} (h : e.emit Γ q.scope = .ok f) :
    f = written Γ q.groupScope e.lexemes := by
  rw [Expr.emit_eq_written h]
  refine written_congr fun t ht => ?_
  cases t with
  | key index =>
    have hkeys := (Expr.isRowwise_of_emit h rfl rfl).isKeyless.filterMap_key?
    exact nomatch List.filterMap_eq_nil_iff.1 hkeys _ ht
  | _ => rfl

/-- So are operands on rows, such as the keys of a join. -/
theorem emitOperand_eq_written_groupScope {e : Expr} (h : e.emitOperand Γ q.scope = .ok f) :
    f = written Γ q.groupScope e.operandLexemes := by
  obtain ⟨a, ha, rfl⟩ := Expr.emitOperand_eq_ok.1 h
  rw [Expr.operandLexemes, written_parensIf, ← emit_eq_written_groupScope ha]

/-- Members that are each emitted as their lexemes are so together. -/
theorem Each.eq_map_written {α : Type} {emitOne : α → Except TranslationError Fragment}
    {lexemesOf : α → List Lexeme} {as : List α} {fs : List Fragment} (h : Each emitOne as fs)
    (hone : ∀ a f, emitOne a = .ok f → f = written Γ s (lexemesOf a)) :
    fs = (as.map lexemesOf).map (written Γ s) := by
  induction h with
  | nil => rfl
  | cons hf _ ih => rw [List.map_cons, List.map_cons, ← hone _ _ hf, ← ih]

/-- Predicates that must all hold are written as their lexemes where each of them is. -/
theorem emitAll_eq_written {ps : List Expr} (h : emitAll Γ s' ps = .ok f)
    (hone : ∀ e f, Expr.emit Γ s' e = .ok f → f = written Γ s e.lexemes) :
    f = written Γ s (allLexemes ps) := by
  obtain ⟨fs, hfs, rfl⟩ := emitAll_eq_ok.1 h
  rw [hfs.eq_map_written hone, allLexemes, written_joined]
  simp only [List.map_map, Function.comp_def, written_parensIf]

theorem emitItem_eq_written {i : Item} (h : emitItem Γ s i = .ok f) :
    f = written Γ s (itemLexemes i) := by
  obtain ⟨a, ha, rfl⟩ := emitItem_eq_ok.1 h
  rw [itemLexemes, written_append, written_fixed, ← Expr.emitOperand_eq_written ha]

theorem emitTerm_eq_written {t : OrderTerm} (h : emitTerm Γ s t = .ok f) :
    f = written Γ s (termLexemes t) := by
  obtain ⟨a, ha, rfl⟩ := emitTerm_eq_ok.1 h
  rw [termLexemes, written_append, written_fixed, ← Expr.emit_eq_written ha]

/-- The columns of a projection see groups. Group keys that stand in its place are emitted on rows,
and written in the other scope all the same. -/
theorem emitColumns_eq_written (h : q.emitColumns Γ = .ok f) :
    f = written Γ q.groupScope q.columnLexemes := by
  rcases emitColumns_eq_ok.1 h with ⟨hprojected, fs, hfs, rfl⟩ |
    ⟨hprojected, hgrouped, fs, hfs, rfl⟩ | ⟨hprojected, hgrouped, rfl⟩
  · rw [columnLexemes, if_pos hprojected, written_joined,
      hfs.eq_map_written fun _ _ => emitItem_eq_written]
  · rw [columnLexemes, hprojected, if_neg Bool.false_ne_true, if_pos hgrouped, written_joined,
      hfs.eq_map_written fun _ _ => emit_eq_written_groupScope]
  · rw [columnLexemes, hprojected, hgrouped, if_neg Bool.false_ne_true, if_neg Bool.false_ne_true,
      written_fixed]

/-- The tables write themselves, and the keys of a join are expressions on rows. -/
theorem emitFrom_eq_written (h : q.emitFrom Γ = .ok f) :
    f = written Γ q.groupScope q.fromLexemes := by
  rcases emitFrom_eq_ok.1 h with ⟨hjoin, rfl⟩ | ⟨j, a, b, hjoin, ha, hb, rfl⟩
  · simp [fromLexemes, hjoin, write]
  · obtain rfl := emitOperand_eq_written_groupScope ha
    obtain rfl := emitOperand_eq_written_groupScope hb
    simp [fromLexemes, hjoin, write]

/-- The WHERE clause is emitted on rows and refers to no group key. -/
theorem emitWhere_eq_written (h : q.emitWhere Γ = .ok f) :
    f = written Γ q.groupScope q.whereLexemes := by
  rcases emitWhere_eq_ok.1 h with ⟨hnil, rfl⟩ | ⟨hfilters, a, ha, rfl⟩
  · simp [whereLexemes, hnil]
  · obtain rfl := emitAll_eq_written ha fun _ _ => emit_eq_written_groupScope
    simp [whereLexemes, hfilters]

/-- The GROUP BY clause is emitted on rows as well: its terms make the groups. -/
theorem emitKeys_eq_written (h : q.emitKeys Γ = .ok f) :
    f = written Γ q.groupScope q.keyLexemes := by
  rcases emitKeys_eq_ok.1 h with ⟨hgrouped, rfl⟩ | ⟨hgrouped, fs, hfs, rfl⟩
  · simp [keyLexemes, hgrouped]
  · rw [keyLexemes, if_pos hgrouped, written_append, written_fixed, written_joined,
      hfs.eq_map_written fun _ _ => emit_eq_written_groupScope]

/-- The HAVING clause is emitted in the scope it is written in. -/
theorem emitHaving_eq_written (h : q.emitHaving Γ = .ok f) :
    f = written Γ q.groupScope q.havingLexemes := by
  rcases emitHaving_eq_ok.1 h with ⟨hnone, rfl⟩ | ⟨hgrouped, hhaving, a, ha, rfl⟩
  · rcases hnone with hnone | hnone <;> simp [havingLexemes, hnone]
  · obtain rfl := emitAll_eq_written ha fun _ _ => Expr.emit_eq_written
    simp [havingLexemes, hgrouped, hhaving]

theorem emitOrder_eq_written (h : q.emitOrder Γ = .ok f) :
    f = written Γ q.groupScope q.orderLexemes := by
  rcases emitOrder_eq_ok.1 h with ⟨hnil, rfl⟩ | ⟨horder, fs, hfs, rfl⟩
  · simp [orderLexemes, hnil]
  · rw [orderLexemes, if_neg (by simpa using horder), written_append, written_fixed, written_joined,
      hfs.eq_map_written fun _ _ => emitTerm_eq_written]

/-- **Emission writes the lexemes of a query**, all of them in the scope of the clauses that see
groups. -/
theorem emit_eq_written (h : q.emit Γ = .ok f) : f = written Γ q.groupScope q.lexemes := by
  obtain ⟨columns, rows, keys, having, order, hcolumns, hrows, hkeys, hhaving, horder, rfl⟩ :=
    emit_eq_ok.1 h
  obtain ⟨a, b, hfrom, hwhere, rfl⟩ := emitRows_eq_ok.1 hrows
  -- clause by clause; what is emitted on rows is written alike among groups
  rw [emitColumns_eq_written hcolumns, emitFrom_eq_written hfrom, emitWhere_eq_written hwhere,
    emitKeys_eq_written hkeys, emitHaving_eq_written hhaving, emitOrder_eq_written horder]
  simp only [lexemes, rowLexemes, written_append, written_fixed, List.append_assoc]

end

/-! ### Which lexemes these are -/

section

variable {β : Type} {g : Lexeme → Option β} (hpiece : ∀ p, g (.piece p) = none)
include hpiece

/-- Predicates that must all hold show the lexemes of each in turn. -/
theorem filterMap_allLexemes (ps : List Expr) :
    (allLexemes ps).filterMap g = ps.flatMap fun e => e.lexemes.filterMap g := by
  rw [allLexemes, filterMap_joined hpiece, List.flatMap_map]
  simp only [filterMap_parensIf hpiece]

/-- Without a projection the columns are the group keys. -/
theorem filterMap_columnLexemes (q : Query) :
    q.columnLexemes.filterMap g =
      ((if q.isProjected then [] else q.keys) ++ q.items.map (·.value)).flatMap
        fun e => e.lexemes.filterMap g := by
  rw [columnLexemes]
  cases hprojected : q.isProjected with
  | true =>
    rw [if_pos rfl, if_pos rfl, filterMap_joined hpiece, List.flatMap_map, List.nil_append,
      List.flatMap_map]
    simp only [itemLexemes, List.filterMap_append, Expr.filterMap_operandLexemes hpiece,
      filterMap_fixed hpiece, List.append_nil]
  | false =>
    have hitems : q.items = [] := by simpa [isProjected] using hprojected
    cases hgrouped : q.isGrouped with
    | true =>
      simp only [hitems, Bool.false_eq_true, if_false, if_true, filterMap_joined hpiece,
        List.flatMap_map, List.map_nil, List.append_nil]
    | false =>
      have hkeys : q.keys = [] := by simpa [isGrouped] using hgrouped
      simp only [hitems, hkeys, Bool.false_eq_true, if_false, filterMap_fixed hpiece, List.map_nil,
        List.append_nil, List.flatMap_nil]

theorem filterMap_whereLexemes (q : Query) :
    q.whereLexemes.filterMap g = q.filters.flatMap fun e => e.lexemes.filterMap g := by
  rw [whereLexemes]
  split
  case isTrue hnil => simp [List.isEmpty_iff.1 hnil]
  case isFalse =>
    rw [List.filterMap_append, filterMap_fixed hpiece, filterMap_allLexemes hpiece, List.nil_append]

/-- The GROUP BY clause shows the group keys; without keys there is no such clause. -/
theorem filterMap_keyLexemes (q : Query) :
    q.keyLexemes.filterMap g = q.keys.flatMap fun e => e.lexemes.filterMap g := by
  rw [keyLexemes]
  split
  case isTrue =>
    rw [List.filterMap_append, filterMap_fixed hpiece, filterMap_joined hpiece, List.flatMap_map,
      List.nil_append]
  case isFalse hungrouped =>
    have hkeys : q.keys = [] := by simpa [isGrouped] using hungrouped
    simp [hkeys]

/-- The HAVING clause shows the conditions on groups. It is left out without groups, where a query
that was built has no such condition. -/
theorem filterMap_havingLexemes {q : Query} (hvalid : q.isGrouped = false → q.having = []) :
    q.havingLexemes.filterMap g = q.having.flatMap fun e => e.lexemes.filterMap g := by
  rw [havingLexemes]
  split
  case isTrue =>
    rw [List.filterMap_append, filterMap_fixed hpiece, filterMap_allLexemes hpiece, List.nil_append]
  case isFalse hnone =>
    have hhaving : q.having = [] := by
      by_contra hne
      simp [hne, mt hvalid hne] at hnone
    simp [hhaving]

theorem filterMap_orderLexemes (q : Query) :
    q.orderLexemes.filterMap g = (q.order.map (·.key)).flatMap fun e => e.lexemes.filterMap g := by
  rw [orderLexemes]
  split
  case isTrue hnil => simp [List.isEmpty_iff.1 hnil]
  case isFalse =>
    rw [List.filterMap_append, filterMap_fixed hpiece, filterMap_joined hpiece, List.flatMap_map,
      List.flatMap_map, List.nil_append]
    simp only [termLexemes, List.filterMap_append, filterMap_fixed hpiece, List.append_nil]

variable (htable : ∀ before id after, g (.table before id after) = none)
include htable

/-- The clauses that see single rows show the keys of the join, the conditions and the group
keys. -/
theorem filterMap_rowLexemes (q : Query) :
    q.rowLexemes.filterMap g = q.rowExprs.flatMap fun e => e.lexemes.filterMap g := by
  rw [rowLexemes, rowExprs, List.filterMap_append, List.filterMap_append, List.flatMap_append,
    List.flatMap_append, filterMap_whereLexemes hpiece, filterMap_keyLexemes hpiece, fromLexemes,
    List.filterMap_cons_none (htable _ _ _)]
  cases q.join with
  | none => rfl
  | some j =>
    rw [List.filterMap_cons_none (htable _ _ _)]
    simp only [List.filterMap_append, Expr.filterMap_operandLexemes hpiece, filterMap_fixed hpiece,
      List.flatMap_cons, List.flatMap_nil, List.append_nil]

/-- **The lexemes of a query are those of its expressions**, fixed pieces and tables left aside, in
order and with repetitions; without a projection the group keys are written in its place, too. -/
theorem filterMap_lexemes {q : Query} (hvalid : q.isGrouped = false → q.having = []) :
    q.lexemes.filterMap g =
      ((if q.isProjected then [] else q.keys) ++ q.exprs).flatMap
        fun e => e.lexemes.filterMap g := by
  simp only [lexemes, exprs_eq, List.filterMap_append, List.flatMap_append, filterMap_fixed hpiece,
    filterMap_columnLexemes hpiece, filterMap_rowLexemes hpiece htable,
    filterMap_havingLexemes hpiece hvalid, filterMap_orderLexemes hpiece, List.append_nil,
    List.nil_append, List.append_assoc]

end

end Query

end SqlPlan
