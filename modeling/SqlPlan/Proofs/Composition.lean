import SqlPlan.Proofs.Emission
import SqlPlan.Proofs.Pieces
import SqlPlan.Proofs.Reachable

/-!
# Properties of everything that is emitted

Emission puts fragments together in two ways: one after the other, and in parentheses. What they are
put together from are fixed words, names, bound values and the fragments of the caller. A property
that holds of these and that both ways keep (`Fragment.Composes`) holds of everything that is
emitted: `Expr.holds_emitWith` goes over the expression, and `Query.holds_emit` over the clauses.

Words of expressions, of clauses and of orderings are listed apart, since a property may hold of
some of them only, and then of the queries that are written without the others.
-/

namespace SqlPlan

namespace Fragment

/-- The words between the operands of an expression and between the columns of a list. -/
def exprWords : List String :=
  ["NULL", " IS NULL", " IS NOT NULL", "NOT ", " LIKE ", " IN ", ", ", " AND ", ".", " AS ", "*",
    "(*)"]

/-- The words that clauses begin with, but for the ordering and the window. -/
def clauseWords : List String :=
  ["SELECT ", "DISTINCT ", " ", "FROM ", " INNER JOIN ", " LEFT JOIN ", " ON ", " = ", " WHERE ",
    " GROUP BY ", " HAVING "]

/-- The words of orderings and windows. -/
def orderWords : List String :=
  [" ORDER BY ", " ASC", " DESC", ", ", " LIMIT ", " LIMIT -1", " OFFSET "]

/-- **`P` holds of what is put together from fragments of which it holds.** The texts of which it
holds are those of which `T` does. -/
structure Composes (T : Bytes → Prop) (P : Fragment → Prop) : Prop where
  /-- nothing at all -/
  nil : P []
  /-- two fragments one after the other -/
  append : ∀ {f g}, P f → P g → P (f ++ g)
  /-- a fragment in parentheses -/
  parens : ∀ {f}, P f → P f.parens
  /-- a bound value -/
  bound : ∀ v, P [.bound v]
  /-- a text -/
  ofText : ∀ {s}, T s → P (ofText s)
  /-- the empty text -/
  text_nil : T []
  /-- a text put together from two -/
  text_append : ∀ {s t}, T s → T t → T (s ++ t)
  /-- the functions of one text -/
  call : ∀ fn : TextFunction, T fn.text
  /-- the functions over the rows of a group -/
  aggregate : ∀ fn : Aggregate, T fn.text
  /-- the operators -/
  arith : ∀ op : ArithOp, T (ascii " " ++ op.text ++ ascii " ")
  /-- the comparisons -/
  compare : ∀ op : CompareOp, T (ascii " " ++ op.text ++ ascii " ")
  /-- the connectives -/
  logic : ∀ op : LogicOp, T (ascii " " ++ op.text ++ ascii " ")
  /-- the other words of expressions -/
  words : ∀ w ∈ exprWords, T (ascii w)

namespace Composes

variable {T : Bytes → Prop} {P : Fragment → Prop} {f : Fragment}

theorem word (hP : Composes T P) {w : String} (hw : w ∈ exprWords) : P (Fragment.word w) :=
  hP.ofText (hP.words w hw)

/-- Parentheses keep the property, whether they are needed or not. -/
theorem parensIf (hP : Composes T P) (needed : Bool) (hf : P f) : P (f.parensIf needed) := by
  rw [Fragment.parensIf]
  split
  · exact hP.parens hf
  · exact hf

/-- A list of fragments keeps it, if the separator has it. -/
theorem joined (hP : Composes T P) {sep : Fragment} {fs : List Fragment} (hsep : P sep)
    (hfs : ∀ f ∈ fs, P f) : P (Fragment.joined sep fs) :=
  Bytes.holds_joined hP.nil hP.append hsep hfs

end Composes

end Fragment

/-! ## Orderings and windows -/

/-- The words and numbers of orderings and windows. -/
structure OrderTexts (T : Bytes → Prop) : Prop where
  /-- the words -/
  words : ∀ w ∈ Fragment.orderWords, T (ascii w)
  /-- the numbers of rows -/
  number : ∀ n, T (Decimal.natText n)

namespace OrderTexts

variable {T : Bytes → Prop} (h : OrderTexts T) (hnil : T [])
  (happend : ∀ {s t}, T s → T t → T (s ++ t))
include h hnil happend

/-- A window is written with the words and the numbers of rows only. -/
theorem paging (p : Paging) : T p.text := by
  rw [Paging.text]
  refine happend ?_ ?_
  · split
    · exact happend (h.words " LIMIT " (by decide)) (h.number _)
    · exact h.words " LIMIT -1" (by decide)
    · exact hnil
  · split
    · exact happend (h.words " OFFSET " (by decide)) (h.number _)
    · exact hnil

/-- The clauses at the end of a set operation. -/
theorem tail {t : Tail} (ht : ∀ o ∈ t.order, T o.column) : T t.text := by
  rw [Tail.text]
  refine happend ?_ (h.paging hnil happend _)
  split
  · exact hnil
  · refine happend (h.words " ORDER BY " (by decide))
      (Bytes.holds_joined hnil happend (h.words ", " (by decide)) (List.forall_mem_map.2 ?_))
    intro o ho
    have hword : T (ascii (if o.descending then " DESC" else " ASC")) := by
      cases o.descending
      · exact h.words " ASC" (by decide)
      · exact h.words " DESC" (by decide)
    exact happend (ht o ho) hword

end OrderTexts

/-! ## Expressions -/

namespace Expr

open Fragment

variable {Γ : Catalog} {T : Bytes → Prop} {P : Fragment → Prop} {s : Scope} {e : Expr}
  {f : Fragment}

/-- The names of tables and columns that an expression may write. -/
def names (Γ : Catalog) : Expr → List Bytes
  | .column owner property =>
    (Γ owner).table :: (((Γ owner).find? property).map (·.column)).toList
  | .literal _ | .countRows | .key _ | .raw .. => []
  | .arith _ l r | .logic _ l r | .compare _ l r => l.names Γ ++ r.names Γ
  | .call _ e | .aggregate _ e | .truth e | .nullCheck _ e | .not e | .like e _ _
  | .oneOf e _ => e.names Γ

/-- A value taken as a predicate writes no further names. -/
@[simp] theorem names_toPredicate (e : Expr) : e.toPredicate.names Γ = e.names Γ := by
  rw [toPredicate]
  split <;> rfl

/-- What the expression takes from elsewhere has the property: its names and the fragments of the
caller. -/
structure Spelled (T : Bytes → Prop) (P : Fragment → Prop) (Γ : Catalog) (e : Expr) : Prop where
  /-- the names of tables and columns -/
  names : ∀ n ∈ e.names Γ, T n
  /-- the fragments of the caller -/
  raws : ∀ r ∈ e.raws, P [.raw r.1 r.2]

/-- The two parts of a node take what they have from elsewhere. -/
theorem Spelled.parts {e l r : Expr} (h : e.Spelled T P Γ)
    (hn : e.names Γ = l.names Γ ++ r.names Γ) (hr : e.raws = l.raws ++ r.raws) :
    l.Spelled T P Γ ∧ r.Spelled T P Γ := by
  obtain ⟨hnl, hnr⟩ := List.forall_mem_append.1 (hn ▸ h.names)
  obtain ⟨hrl, hrr⟩ := List.forall_mem_append.1 (hr ▸ h.raws)
  exact ⟨⟨hnl, hrl⟩, ⟨hnr, hrr⟩⟩

/-- A constant is bound, or is the word NULL. -/
theorem holds_constant (hP : Composes T P) (v : Value) : P (constant v) := by
  rw [constant]
  split
  · exact hP.word (by decide)
  · exact hP.bound v

/-- A null check that a comparison becomes is one of two words; an ordering becomes none. -/
theorem holds_nullTest (hP : Composes T P) {op : CompareOp} (h : nullTest op = .ok f) : P f := by
  cases op with
  | eq =>
    obtain rfl := Except.ok.inj h
    exact hP.word (by decide)
  | ne =>
    obtain rfl := Except.ok.inj h
    exact hP.word (by decide)
  | lt | le | gt | ge => cases h

/-- The name of a column is put together from its table's and its own. -/
theorem text_of_resolve (hP : Composes T P) {owner : EntityId} {property n : Bytes}
    (he : (Expr.column owner property).Spelled T P Γ) (h : s.resolve Γ owner property = .ok n) :
    T n := by
  obtain ⟨-, p, hp, rfl⟩ := Scope.resolve_eq_ok.1 h
  have hnames := he.names
  simp only [Expr.names, hp, Option.map_some, Option.toList_some, List.forall_mem_cons] at hnames
  rw [Scope.written]
  split
  · exact hP.text_append (hP.text_append hnames.1 (hP.words "." (by decide))) hnames.2.1
  · exact hnames.2.1

/-- **What an expression is written as has the property**, if what it takes from elsewhere does and
references to group keys are written so. The induction is on the expression; the scope changes only
inside an aggregate, which keeps the keys. -/
theorem holds_emitWith (hP : Composes T P)
    {onKey : Scope → Option Nat → Except TranslationError Fragment} (he : e.Spelled T P Γ)
    (hkey : ∀ s' i g, s'.grouping = s.grouping → onKey s' i = .ok g → P g)
    (h : emitWith Γ onKey s e = .ok f) : P f := by
  induction e generalizing s f with
  | column owner property =>
    obtain ⟨-, n, hn, rfl⟩ := Scope.column_eq_ok.1 h
    exact hP.ofText (text_of_resolve hP he hn)
  | literal v =>
    obtain rfl := Except.ok.inj h
    exact holds_constant hP v
  | arith op l r ihl ihr =>
    obtain ⟨a, b, ha, hb, rfl⟩ := emitWith_arith_eq_ok.1 h
    obtain ⟨hl, hr⟩ := he.parts rfl rfl
    have hleft := hP.parensIf l.isCompound (ihl hl hkey ha)
    have hright := hP.parensIf r.isCompound (ihr hr hkey hb)
    exact hP.append (hP.append hleft (hP.ofText (hP.arith op))) hright
  | call fn e ih =>
    obtain ⟨a, ha, rfl⟩ := emitWith_call_eq_ok.1 h
    exact hP.append (hP.ofText (hP.call fn)) (hP.parens (ih ⟨he.names, he.raws⟩ hkey ha))
  | countRows =>
    obtain ⟨-, rfl⟩ := emitWith_countRows_eq_ok.1 h
    exact hP.append (hP.ofText (hP.aggregate .count)) (hP.word (by decide))
  | aggregate fn e ih =>
    obtain ⟨-, a, ha, rfl⟩ := emitWith_aggregate_eq_ok.1 h
    have hargument := ih (s := s.insideAggregate) ⟨he.names, he.raws⟩ hkey ha
    exact hP.append (hP.ofText (hP.aggregate fn)) (hP.parens hargument)
  | key index => exact hkey s index f rfl h
  | truth e ih => exact ih ⟨he.names, he.raws⟩ hkey h
  | nullCheck negated e ih =>
    obtain ⟨a, ha, rfl⟩ := emitWith_nullCheck_eq_ok.1 h
    have hword : P (word (if negated then " IS NOT NULL" else " IS NULL")) := by
      cases negated
      · exact hP.word (by decide)
      · exact hP.word (by decide)
    exact hP.append (hP.parensIf _ (ih ⟨he.names, he.raws⟩ hkey ha)) hword
  | logic op l r ihl ihr =>
    obtain ⟨a, b, ha, hb, rfl⟩ := emitWith_logic_eq_ok.1 h
    obtain ⟨hl, hr⟩ := he.parts rfl rfl
    have hleft := hP.parens (ihl hl hkey ha)
    have hright := hP.parens (ihr hr hkey hb)
    exact hP.append (hP.append hleft (hP.ofText (hP.logic op))) hright
  | compare op l r ihl ihr =>
    obtain ⟨hl, hr⟩ := he.parts rfl rfl
    -- a comparison of two values, or the null check of the side that is not the literal NULL
    rcases emitWith_compare_eq_ok.1 h with ⟨-, -, a, b, ha, hb, rfl⟩ |
      ⟨-, test, a, htest, ha, rfl⟩ | ⟨-, -, test, b, htest, hb, rfl⟩
    · have hleft := hP.parensIf l.isCompound (ihl hl hkey ha)
      have hright := hP.parensIf r.isCompound (ihr hr hkey hb)
      exact hP.append (hP.append hleft (hP.ofText (hP.compare op))) hright
    · exact hP.append (hP.parensIf _ (ihl hl hkey ha)) (holds_nullTest hP htest)
    · exact hP.append (hP.parensIf _ (ihr hr hkey hb)) (holds_nullTest hP htest)
  | not e ih =>
    obtain ⟨a, ha, rfl⟩ := emitWith_not_eq_ok.1 h
    exact hP.append (hP.word (by decide)) (hP.parens (ih ⟨he.names, he.raws⟩ hkey ha))
  | like e text anchor ih =>
    obtain ⟨a, ha, rfl⟩ := emitWith_like_eq_ok.1 h
    have hoperand := hP.parensIf e.isCompound (ih ⟨he.names, he.raws⟩ hkey ha)
    exact hP.append (hP.append hoperand (hP.word (by decide))) (hP.bound _)
  | oneOf e items ih =>
    obtain ⟨a, ha, rfl⟩ := emitWith_oneOf_eq_ok.1 h
    have hoperand := hP.parensIf e.isCompound (ih ⟨he.names, he.raws⟩ hkey ha)
    have hitems : P (joined (word ", ") (items.map constant)) := by
      refine hP.joined (hP.word (by decide)) ?_
      intro f hf
      obtain ⟨v, -, rfl⟩ := List.mem_map.1 hf
      exact holds_constant hP v
    exact hP.append (hP.append hoperand (hP.word (by decide))) (hP.parens hitems)
  | raw sql params =>
    obtain rfl := Except.ok.inj h
    exact he.raws _ (List.mem_singleton.2 rfl)

/-- What an expression is written as among group keys has the property. -/
theorem holds_emit (hP : Composes T P) (he : e.Spelled T P Γ)
    (hkeys : ∀ k ∈ s.grouping.getD [], k.Spelled T P Γ) (h : e.emit Γ s = .ok f) : P f := by
  refine holds_emitWith hP he ?_ h
  intro s' i g hs' hg
  obtain ⟨k, a, hk, ha, rfl⟩ := emitKey_eq_ok.1 hg
  have hmem := Scope.mem_of_keyMember hk
  rw [hs'] at hmem
  refine hP.parensIf _ (holds_emitWith hP (hkeys k hmem) ?_ ha)
  -- a group key is emitted outside groups, where it meets no further key
  intro _ _ _ _ hnone
  cases hnone

/-- So does an operand, in parentheses or not. -/
theorem holds_emitOperand (hP : Composes T P) (he : e.Spelled T P Γ)
    (hkeys : ∀ k ∈ s.grouping.getD [], k.Spelled T P Γ) (h : e.emitOperand Γ s = .ok f) :
    P f := by
  obtain ⟨a, ha, rfl⟩ := emitOperand_eq_ok.1 h
  exact hP.parensIf _ (holds_emit hP he hkeys ha)

end Expr

/-! ## Queries -/

namespace Query

open Fragment

variable {Γ : Catalog} {T : Bytes → Prop} {P : Fragment → Prop} {q : Query} {f : Fragment}

/-- The names that a query may write: tables, columns of the result and of its expressions. -/
def names (Γ : Catalog) (q : Query) : List Bytes :=
  (Γ q.source).table :: (q.join.map fun j => (Γ j.inner).table).toList ++
    q.items.map (·.column) ++ q.exprs.flatMap (Expr.names Γ)

/-- What the query takes from elsewhere has the property: its expressions do, and so do its tables
and the columns of its result. -/
structure Spelled (T : Bytes → Prop) (P : Fragment → Prop) (Γ : Catalog) (q : Query) : Prop where
  /-- the expressions -/
  exprs : ∀ e ∈ q.exprs, e.Spelled T P Γ
  /-- the table of the rows -/
  source : T (Γ q.source).table
  /-- the table of the second entity -/
  inner : ∀ j, q.join = some j → T (Γ j.inner).table
  /-- the columns of the result -/
  items : ∀ i ∈ q.items, T i.column

namespace Spelled

/-- It is enough that all names of the query have the property, and the fragments of the caller in
its expressions. -/
theorem of_names (hnames : ∀ n ∈ q.names Γ, T n)
    (hraws : ∀ e ∈ q.exprs, ∀ r ∈ e.raws, P [.raw r.1 r.2]) : q.Spelled T P Γ := by
  simp only [names, List.cons_append, List.forall_mem_cons, List.forall_mem_append,
    List.forall_mem_map, List.mem_flatMap] at hnames
  obtain ⟨hsource, ⟨hinner, hitems⟩, hexprs⟩ := hnames
  refine ⟨fun e he => ⟨fun n hn => hexprs n ⟨e, he, hn⟩, hraws e he⟩, hsource, ?_, hitems⟩
  intro j hj
  exact hinner _ (by simp [hj])

theorem item (h : q.Spelled T P Γ) : ∀ i ∈ q.items, i.value.Spelled T P Γ := by
  intro i hi
  exact h.exprs _ (by simp only [Query.exprs, List.mem_append, List.mem_map]; grind)

theorem joinKeys (h : q.Spelled T P Γ) {j : Join} (hj : q.join = some j) :
    j.outerKey.Spelled T P Γ ∧ j.innerKey.Spelled T P Γ := by
  constructor
  · exact h.exprs _ (by simp [Query.exprs, hj])
  · exact h.exprs _ (by simp [Query.exprs, hj])

theorem filters (h : q.Spelled T P Γ) : ∀ e ∈ q.filters, e.Spelled T P Γ := by
  intro e he
  exact h.exprs _ (by simp [Query.exprs, he])

theorem keys (h : q.Spelled T P Γ) : ∀ e ∈ q.keys, e.Spelled T P Γ := by
  intro e he
  exact h.exprs _ (by simp [Query.exprs, he])

theorem having (h : q.Spelled T P Γ) : ∀ e ∈ q.having, e.Spelled T P Γ := by
  intro e he
  exact h.exprs _ (by simp [Query.exprs, he])

theorem order (h : q.Spelled T P Γ) : ∀ t ∈ q.order, t.key.Spelled T P Γ := by
  intro t ht
  exact h.exprs _ (by simp only [Query.exprs, List.mem_append, List.mem_map]; grind)

/-- The keys that the clauses over groups see. -/
theorem grouping (h : q.Spelled T P Γ) :
    ∀ k ∈ q.groupScope.grouping.getD [], k.Spelled T P Γ := by
  rw [groupScope]
  cases q.isGrouped with
  | true => exact h.keys
  | false => exact List.forall_mem_nil _

end Spelled

/-- Members that each have the property. -/
theorem Each.holds {α : Type} {emitOne : α → Except TranslationError Fragment} {as : List α}
    {fs : List Fragment} (h : Each emitOne as fs)
    (hone : ∀ a ∈ as, ∀ f, emitOne a = .ok f → P f) : ∀ f ∈ fs, P f := by
  induction h with
  | nil => exact List.forall_mem_nil _
  | cons hf _ ih =>
    obtain ⟨ha, has⟩ := List.forall_mem_cons.1 hone
    exact List.forall_mem_cons.2 ⟨ha _ hf, ih has⟩

/-- Predicates that must all hold are put together by AND and parentheses. -/
theorem holds_emitAll (hP : Composes T P) {s : Scope} {ps : List Expr}
    (hps : ∀ p ∈ ps, p.Spelled T P Γ) (hkeys : ∀ k ∈ s.grouping.getD [], k.Spelled T P Γ)
    (h : emitAll Γ s ps = .ok f) : P f := by
  obtain ⟨fs, hfs, rfl⟩ := emitAll_eq_ok.1 h
  have hall := hfs.holds fun p hp _ hf => Expr.holds_emit hP (hps p hp) hkeys hf
  refine hP.joined (hP.word (by decide)) ?_
  intro f hf
  obtain ⟨g, hg, rfl⟩ := List.mem_map.1 hf
  exact hP.parensIf _ (hall g hg)

/-- The columns of the result are operands with their names, or the group keys, or a star. -/
theorem holds_emitColumns (hP : Composes T P) (hq : q.Spelled T P Γ)
    (h : q.emitColumns Γ = .ok f) : P f := by
  rcases emitColumns_eq_ok.1 h with ⟨-, fs, hfs, rfl⟩ | ⟨-, -, fs, hfs, rfl⟩ | ⟨-, -, rfl⟩
  · refine hP.joined (hP.word (by decide)) (hfs.holds ?_)
    intro i hi f hf
    obtain ⟨a, ha, rfl⟩ := emitItem_eq_ok.1 hf
    have hname : T (ascii " AS " ++ i.column) :=
      hP.text_append (hP.words " AS " (by decide)) (hq.items i hi)
    exact hP.append (Expr.holds_emitOperand hP (hq.item i hi) hq.grouping ha) (hP.ofText hname)
  · refine hP.joined (hP.word (by decide)) (hfs.holds ?_)
    intro k hk f hf
    exact Expr.holds_emit hP (hq.keys k hk) (List.forall_mem_nil _) hf
  · exact hP.word (by decide)

section

variable (hP : Composes T P) (hwords : ∀ w ∈ clauseWords, T (ascii w)) (hq : q.Spelled T P Γ)
include hP hwords hq

/-- The FROM clause has the tables, the words of the join, and its two keys as operands on rows. -/
theorem holds_emitFrom (h : q.emitFrom Γ = .ok f) : P f := by
  have htable := hP.ofText (hP.text_append (hwords "FROM " (by decide)) hq.source)
  rcases emitFrom_eq_ok.1 h with ⟨-, rfl⟩ | ⟨j, a, b, hj, ha, hb, rfl⟩
  · exact htable
  · obtain ⟨houter, hinner⟩ := hq.joinKeys hj
    have hkind : T (ascii " " ++ j.kind.text ++ ascii " ") := by
      cases j.kind
      · exact hwords " INNER JOIN " (by decide)
      · exact hwords " LEFT JOIN " (by decide)
    have hon := hP.ofText (hP.text_append (hP.text_append hkind (hq.inner j hj))
      (hwords " ON " (by decide)))
    have ha' := Expr.holds_emitOperand hP houter (List.forall_mem_nil _) ha
    have hb' := Expr.holds_emitOperand hP hinner (List.forall_mem_nil _) hb
    have hequals := hP.ofText (hwords " = " (by decide))
    exact hP.append (hP.append (hP.append (hP.append htable hon) ha') hequals) hb'

theorem holds_emitWhere (h : q.emitWhere Γ = .ok f) : P f := by
  rcases emitWhere_eq_ok.1 h with ⟨-, rfl⟩ | ⟨-, a, ha, rfl⟩
  · exact hP.nil
  · exact hP.append (hP.ofText (hwords " WHERE " (by decide)))
      (holds_emitAll hP hq.filters (List.forall_mem_nil _) ha)

theorem holds_emitKeys (h : q.emitKeys Γ = .ok f) : P f := by
  rcases emitKeys_eq_ok.1 h with ⟨-, rfl⟩ | ⟨-, fs, hfs, rfl⟩
  · exact hP.nil
  · refine hP.append (hP.ofText (hwords " GROUP BY " (by decide)))
      (hP.joined (hP.word (by decide)) (hfs.holds ?_))
    intro k hk f hf
    exact Expr.holds_emit hP (hq.keys k hk) (List.forall_mem_nil _) hf

theorem holds_emitHaving (h : q.emitHaving Γ = .ok f) : P f := by
  rcases emitHaving_eq_ok.1 h with ⟨-, rfl⟩ | ⟨-, -, a, ha, rfl⟩
  · exact hP.nil
  · exact hP.append (hP.ofText (hwords " HAVING " (by decide)))
      (holds_emitAll hP hq.having hq.grouping ha)

/-- The clauses that say which rows there are stand one after the other. -/
theorem holds_emitRows (h : q.emitRows Γ = .ok f) : P f := by
  obtain ⟨a, b, ha, hb, rfl⟩ := emitRows_eq_ok.1 h
  exact hP.append (holds_emitFrom hP hwords hq ha) (holds_emitWhere hP hwords hq hb)

end

/-- The ORDER BY clause needs the words of orderings, which the other clauses do not. -/
theorem holds_emitOrder (hP : Composes T P) (horder : OrderTexts T) (hq : q.Spelled T P Γ)
    (h : q.emitOrder Γ = .ok f) : P f := by
  rcases emitOrder_eq_ok.1 h with ⟨-, rfl⟩ | ⟨-, fs, hfs, rfl⟩
  · exact hP.nil
  · refine hP.append (hP.ofText (horder.words " ORDER BY " (by decide)))
      (hP.joined (hP.word (by decide)) (hfs.holds ?_))
    intro t ht f hf
    obtain ⟨a, ha, rfl⟩ := emitTerm_eq_ok.1 hf
    have hword : P (word (if t.descending then " DESC" else " ASC")) := by
      cases t.descending
      · exact hP.ofText (horder.words " ASC" (by decide))
      · exact hP.ofText (horder.words " DESC" (by decide))
    exact hP.append (Expr.holds_emit hP (hq.order t ht) hq.grouping ha) hword

/-- **What a query is written as has the property.** The words of orderings and windows need it
only where there is an ordering or a window. -/
theorem holds_emit (hP : Composes T P) (hwords : ∀ w ∈ clauseWords, T (ascii w))
    (hq : q.Spelled T P Γ) (horder : q.isOrderedOrPaged = true → OrderTexts T)
    (h : q.emit Γ = .ok f) : P f := by
  obtain ⟨columns, rows, keys, having, order, hcolumns, hrows, hkeys, hhaving, horder', rfl⟩ :=
    emit_eq_ok.1 h
  have hdistinct : P (if q.distinct then word "DISTINCT " else []) := by
    split
    · exact hP.ofText (hwords "DISTINCT " (by decide))
    · exact hP.nil
  have hhead := hP.append (hP.append (hP.append (hP.ofText (hwords "SELECT " (by decide)))
    hdistinct) (holds_emitColumns hP hq hcolumns)) (hP.ofText (hwords " " (by decide)))
  have hbody := hP.append (hP.append (hP.append hhead (holds_emitRows hP hwords hq hrows))
    (holds_emitKeys hP hwords hq hkeys)) (holds_emitHaving hP hwords hq hhaving)
  -- the ordering and the window are left, and need their words only where they are there
  refine hP.append (hP.append hbody ?_) (hP.ofText ?_)
  · rcases emitOrder_eq_ok.1 horder' with ⟨-, rfl⟩ | ⟨hne, -⟩
    · exact hP.nil
    · exact holds_emitOrder hP (horder (by simp [isOrderedOrPaged, hne])) hq horder'
  · cases hpaged : q.paging.isPaged with
    | true =>
      have htexts := horder (by simp [isOrderedOrPaged, hpaged])
      exact htexts.paging hP.text_nil hP.text_append _
    | false =>
      obtain ⟨hlimit, hoffset⟩ : q.paging.limit = none ∧ q.paging.offset = none := by
        simpa [Paging.isPaged] using hpaged
      rw [Paging.text, hlimit, hoffset]
      exact hP.text_nil

end Query

end SqlPlan
