import SqlPlan.Proofs.Translation

/-!
# The statements derived from a plan

A plan is counted, and asked whether it has rows, without taking any of them. Where only filters
and a join decide about the rows of a query, the statements for that have its FROM, JOIN and WHERE
clauses and leave out projection and ordering, with the parameters these bind. In all other cases
they have the whole statement of the plan as a table.

`RowsIn` says what the FROM, JOIN and WHERE clauses of a query are, by where they stand in its own
statements. The main statement is `derived_statements`: whatever a query projects and orders by, the
statements derived from it are made of exactly these clauses, and a test of a predicate is made of
those of the query that the predicate, or its opposite, is added to.
-/

namespace SqlPlan

open Fragment

namespace Query

variable {Γ : Catalog} {q q' : Query} {w w' : Statement}

/-- **A query of all rows** that its filters and its join let through, each as often as it comes. -/
structure IsBare (q : Query) : Prop where
  /-- equal rows are given as often as they come -/
  distinct : q.distinct = false
  /-- there is no window -/
  paging : q.paging = {}
  /-- the rows are not grouped -/
  keys : q.keys = []

/-- A query is bare where it can be asked about directly. -/
theorem needsSubquery_eq_false_iff : q.needsSubquery = false ↔ q.IsBare := by
  have hpaged : q.paging.isPaged = false ↔ q.paging = {} := by
    obtain ⟨limit, offset⟩ := q.paging
    simp [Paging.isPaged]
  have hgrouped : q.isGrouped = false ↔ q.keys = [] := by
    simp [isGrouped]
  rw [needsSubquery, Bool.or_eq_false_iff, Bool.or_eq_false_iff, hpaged, hgrouped, and_assoc]
  constructor
  · intro h
    exact ⟨h.1, h.2.1, h.2.2⟩
  · intro h
    exact ⟨h.distinct, h.paging, h.keys⟩

/-- **The clauses that say what rows there are**: `w` is the text of FROM, JOIN and WHERE with its
parameters. It is all that follows SELECT * where a query has no projection and no ordering, and it
stands in the statement of the query between its columns and its ordering. -/
structure RowsIn (Γ : Catalog) (q : Query) (w : Statement) : Prop where
  /-- alone -/
  alone : compile { q with items := [], order := [] } Γ =
    .ok ⟨ascii "SELECT * " ++ w.sql, w.params⟩
  /-- between columns and ordering -/
  within : ∃ columns order, q.emitColumns Γ = .ok columns ∧ q.emitOrder Γ = .ok order ∧
    q.compile Γ = .ok
      ⟨ascii "SELECT " ++ columns.sql ++ ascii " " ++ w.sql ++ order.sql,
        columns.params ++ w.params ++ order.params⟩

/-- There is one such text only. -/
theorem RowsIn.eq_of_alone (h : q.RowsIn Γ w)
    (halone : compile { q with items := [], order := [] } Γ =
      .ok ⟨ascii "SELECT * " ++ w'.sql, w'.params⟩) : w = w' := by
  obtain ⟨hsql, hparams⟩ := Statement.mk.inj (Except.ok.inj (h.alone.symm.trans halone))
  obtain ⟨sql, params⟩ := w
  obtain ⟨sql', params'⟩ := w'
  rw [Statement.mk.injEq]
  exact ⟨List.append_cancel_left hsql, hparams⟩

/-- What a bare query is emitted as. -/
theorem IsBare.emit_eq_ok (hq : q.IsBare) {f : Fragment} :
    q.emit Γ = .ok f ↔ ∃ columns rows order, q.emitColumns Γ = .ok columns ∧
      q.emitRows Γ = .ok rows ∧ q.emitOrder Γ = .ok order ∧
      f = word "SELECT " ++ columns ++ word " " ++ rows ++ order ++ ofText [] := by
  have hungrouped : q.isGrouped = false := by simp [isGrouped, hq.keys]
  have htext : q.paging.text = [] := by
    rw [hq.paging]
    rfl
  have hkeys : ∀ {f}, q.emitKeys Γ = .ok f ↔ f = [] := by
    simp [emitKeys_eq_ok, hungrouped]
  have hhaving : ∀ {f}, q.emitHaving Γ = .ok f ↔ f = [] := by
    simp [emitHaving_eq_ok, hungrouped]
  rw [Query.emit_eq_ok]
  simp only [hkeys, hhaving, hq.distinct, htext, Bool.false_eq_true, if_false, List.append_nil]
  constructor
  · rintro ⟨columns, rows, keys, having, order, hcolumns, hrows, rfl, rfl, horder, rfl⟩
    exact ⟨columns, rows, order, hcolumns, hrows, horder, by simp⟩
  · rintro ⟨columns, rows, order, hcolumns, hrows, horder, rfl⟩
    exact ⟨columns, rows, [], [], order, hcolumns, hrows, rfl, rfl, horder, by simp⟩

/-- The rows of a bare query that can be emitted are in its statements. -/
theorem IsBare.rowsIn (hq : q.IsBare) (htranslates : q.Translates Γ) {rows : Fragment}
    (hrows : q.emitRows Γ = .ok rows) : q.RowsIn Γ rows.statement := by
  constructor
  -- without projection and ordering, nothing but a star stands beside the rows
  · have hbare : IsBare { q with items := [], order := [] } := ⟨hq.distinct, hq.paging, hq.keys⟩
    have hcolumns : emitColumns { q with items := [], order := [] } Γ = .ok (word "*") := by
      simp [emitColumns_eq_ok, isProjected, isGrouped, hq.keys]
    have hemit := hbare.emit_eq_ok.2 ⟨word "*", rows, [], hcolumns, hrows, rfl, rfl⟩
    have hword : ascii "SELECT " ++ (ascii "*" ++ (ascii " " ++ rows.sql)) =
        ascii "SELECT * " ++ rows.sql := by rfl
    rw [compile, hemit]
    simp [Fragment.statement, word, hword]
  · obtain ⟨f, hf⟩ := htranslates
    obtain ⟨columns, rows', order, hcolumns, hrows', horder, rfl⟩ := hq.emit_eq_ok.1 hf
    obtain rfl := Except.ok.inj (hrows.symm.trans hrows')
    refine ⟨columns, order, hcolumns, horder, ?_⟩
    rw [compile, hf]
    simp [Fragment.statement, word]

/-! ## Questions to the clauses -/

/-- A statement that puts some text before and after the rows of a query. -/
def around (before : Bytes) (w : Statement) (after : Bytes) : Statement :=
  ⟨before ++ w.sql ++ after, w.params⟩

/-- A probe selects a constant from the rows, and binds what they bind. -/
theorem statement_emitProbe (test : Bytes) {rows : Fragment} (hrows : q.emitRows Γ = .ok rows) :
    Fragment.statement <$> q.emitProbe Γ test =
      .ok (around (ascii "SELECT " ++ test ++ ascii "(SELECT 1 ") rows.statement
        (ascii ") as result")) := by
  rw [emitProbe_eq_ok.2 ⟨rows, hrows, rfl⟩]
  simp [Fragment.statement, around, word]

/-- **A test on the rows of a query that is built for it**: where the query cannot be built, the
test fails as that does, and where it can be, the test is put to its rows. -/
def Tests (Γ : Catalog) (opening : Bytes) (built : Except TranslationError Query)
    (asked : Except TranslationError Fragment) : Prop :=
  match built with
  | .error err => asked = .error err
  | .ok q => ∃ w, q.RowsIn Γ w ∧
    Fragment.statement <$> asked = .ok (around opening w (ascii ") as result"))

/-- A filter leaves a query bare, and its statement asks about the rows that are left. -/
theorem IsBare.filter (hq : q.IsBare) {p : Expr} (h : q.filter Γ p = .ok q') :
    q'.IsBare ∧ ∃ rows, q'.emitRows Γ = .ok rows ∧ q'.RowsIn Γ rows.statement := by
  obtain ⟨-, -, rfl, htranslates⟩ := filter_eq_ok.1 h
  have hbare : IsBare { q with filters := q.filters ++ [p.toPredicate] } :=
    ⟨hq.distinct, hq.paging, hq.keys⟩
  obtain ⟨rows, hrows⟩ := htranslates.emitRows
  exact ⟨hbare, rows, hrows, hbare.rowsIn htranslates hrows⟩

/-- The rows of a bare query are looked for in its clauses. -/
theorem IsBare.statement_emitExists (hq : q.IsBare) {rows : Fragment}
    (hrows : q.emitRows Γ = .ok rows) :
    Fragment.statement <$> q.emitExists Γ =
      .ok (around (ascii "SELECT EXISTS(SELECT 1 ") rows.statement (ascii ") as result")) := by
  rw [emitExists, needsSubquery_eq_false_iff.2 hq]
  exact statement_emitProbe (ascii "EXISTS") hrows

/-- Whether any row of a bare query satisfies a predicate is asked of the filtered query. -/
theorem IsBare.tests_emitAny (hq : q.IsBare) (p : Expr) :
    Tests Γ (ascii "SELECT EXISTS(SELECT 1 ") (q.filter Γ p) (q.emitAny Γ p) := by
  have hsub := needsSubquery_eq_false_iff.2 hq
  rw [emitAny, hsub]
  cases hfilter : q.filter Γ p with
  | error err => rfl
  | ok q' =>
    obtain ⟨hq', rows, hrows, hin⟩ := hq.filter hfilter
    exact ⟨rows.statement, hin, hq'.statement_emitExists hrows⟩

/-- Whether all do is asked by the absence of one that does not. -/
theorem IsBare.tests_emitEvery (hq : q.IsBare) (p : Expr) :
    Tests Γ (ascii "SELECT NOT EXISTS(SELECT 1 ") (q.filter Γ p.negate) (q.emitEvery Γ p) := by
  have hsub := needsSubquery_eq_false_iff.2 hq
  rw [emitEvery, hsub]
  cases hfilter : q.filter Γ p.negate with
  | error err => rfl
  | ok q' =>
    obtain ⟨-, rows, hrows, hin⟩ := hq.filter hfilter
    exact ⟨rows.statement, hin, statement_emitProbe _ hrows⟩

/-- The rows of a bare query are counted without a subquery. -/
theorem IsBare.statement_emitCount (hq : q.IsBare) {rows : Fragment}
    (hrows : q.emitRows Γ = .ok rows) :
    Fragment.statement <$> q.emitCount Γ =
      .ok ⟨ascii "SELECT COUNT(*) as count " ++ rows.sql, rows.params⟩ := by
  rw [emitCount_eq_ok.2 (Or.inr ⟨needsSubquery_eq_false_iff.2 hq, rows, hrows, rfl⟩)]
  simp [Fragment.statement, word]

/-! ## Questions to the whole statement -/

theorem needsSubquery_of_not_isBare (hq : ¬q.IsBare) : q.needsSubquery = true := by
  rw [← Bool.not_eq_false]
  exact mt needsSubquery_eq_false_iff.1 hq

/-- A query that is not bare is counted and tested as a table. -/
theorem statements_of_not_isBare (hq : ¬q.IsBare) {f : Fragment} (hf : q.emit Γ = .ok f) :
    Fragment.statement <$> q.emitCount Γ =
      .ok (around (ascii "SELECT COUNT(*) as count FROM (") f.statement
        (ascii ") AS subquery")) ∧
    Fragment.statement <$> q.emitExists Γ =
      .ok (around (ascii "SELECT EXISTS(") f.statement (ascii ") as result")) := by
  have hsub := needsSubquery_of_not_isBare hq
  rw [emitCount_eq_ok.2 (Or.inl ⟨hsub, f, hf, rfl⟩), emitExists_eq_ok.2 (Or.inl ⟨hsub, f, hf, rfl⟩)]
  simp [Fragment.statement, around, word]

/-- It takes no predicate. -/
theorem predicates_of_not_isBare (hq : ¬q.IsBare) (p : Expr) :
    q.emitAny Γ p = .error (.predicateOverDerived .any) ∧
    q.emitEvery Γ p = .error (.predicateOverDerived .all) := by
  rw [emitAny, emitEvery, needsSubquery_of_not_isBare hq]
  exact ⟨rfl, rfl⟩

end Query

/-- **The statements that are derived from a plan.** A bare query is counted and tested in its FROM,
JOIN and WHERE clauses, with their parameters and no others; a predicate is tested in those of the
query it is added to, and its opposite where it is to hold for all rows. Every other plan is counted
and tested in its whole statement, with all its parameters, and takes no predicate. -/
theorem Plan.Reachable.derived_statements {Γ : Catalog} {p : Plan} (h : p.Reachable {Γ}) :
    (∀ q, p = .query q → q.IsBare → ∃ w, q.RowsIn Γ w ∧
      p.countStatement Γ = .ok ⟨ascii "SELECT COUNT(*) as count " ++ w.sql, w.params⟩ ∧
      p.existsStatement Γ =
        .ok (Query.around (ascii "SELECT EXISTS(SELECT 1 ") w (ascii ") as result")) ∧
      ∀ e,
        Query.Tests Γ (ascii "SELECT EXISTS(SELECT 1 ") (q.filter Γ e) (q.emitAny Γ e) ∧
        Query.Tests Γ (ascii "SELECT NOT EXISTS(SELECT 1 ") (q.filter Γ e.negate)
          (q.emitEvery Γ e)) ∧
    (∀ q, p = .query q → ¬q.IsBare → ∃ st, p.compile Γ = .ok st ∧
      p.countStatement Γ =
        .ok (Query.around (ascii "SELECT COUNT(*) as count FROM (") st
          (ascii ") AS subquery")) ∧
      p.existsStatement Γ =
        .ok (Query.around (ascii "SELECT EXISTS(") st (ascii ") as result")) ∧
      ∀ e, q.emitAny Γ e = .error (.predicateOverDerived .any) ∧
        q.emitEvery Γ e = .error (.predicateOverDerived .all)) ∧
    ∀ op l r t, p = .combine op l r t → ∃ st, p.compile Γ = .ok st ∧
      p.countStatement Γ =
        .ok (Query.around (ascii "SELECT COUNT(*) as count FROM (") st
          (ascii ") AS subquery")) ∧
      p.existsStatement Γ =
        .ok (Query.around (ascii "SELECT EXISTS(SELECT 1 FROM (") st
          (ascii ") AS subquery) as result")) ∧
      ∀ e, p.ask Γ (.any e) = none ∧ p.ask Γ (.every e) = none := by
  obtain ⟨f, hf⟩ := h.exists_emit
  refine ⟨?_, ?_, ?_⟩
  -- a bare query: the statements stand on its rows
  · rintro q rfl hq
    have htranslates : q.Translates Γ := ⟨f, hf⟩
    obtain ⟨rows, hrows⟩ := htranslates.emitRows
    exact ⟨rows.statement, hq.rowsIn htranslates hrows, hq.statement_emitCount hrows,
      hq.statement_emitExists hrows, fun e => ⟨hq.tests_emitAny e, hq.tests_emitEvery e⟩⟩
  · rintro q rfl hq
    obtain ⟨hcount, hexists⟩ := Query.statements_of_not_isBare hq hf
    exact ⟨f.statement, Fragment.map_statement hf, hcount, hexists,
      Query.predicates_of_not_isBare hq⟩
  -- a set operation has no rows of its own, so its text becomes a table
  · rintro op l r t rfl
    refine ⟨f.statement, Fragment.map_statement hf, ?_, ?_, fun _ => ⟨rfl, rfl⟩⟩
    · rw [countStatement, emitCount_combine_eq_ok.2 ⟨f, hf, rfl⟩]
      simp [Fragment.statement, Query.around, word]
    · rw [existsStatement, emitExists_combine_eq_ok.2 ⟨f, hf, rfl⟩]
      simp [Fragment.statement, Query.around, word]

/-! ### Orders in cities -/

namespace Query

/-- Twice the totals of the great orders, by the cities of their customers. -/
def greatOrders : Query :=
  { source := 0
    join := some ⟨.inner, 1, .column 0 (ascii "Id"), .column 1 (ascii "Customer")⟩
    items := [⟨ascii "twice", .arith .mul (.column 1 (ascii "Total")) (.literal (.integer 2))⟩]
    filters := [.compare .gt (.column 1 (ascii "Total")) (.literal (.integer 100))]
    order := [⟨.column 0 (ascii "City"), false⟩] }

/-- The clauses that say which orders these are. -/
def greatOrdersRows : Statement :=
  ⟨ascii "FROM customers INNER JOIN orders ON customers.id = orders.customer_id " ++
    ascii "WHERE orders.total > ?", [.integer 100]⟩

theorem reachable_greatOrders : greatOrders.Reachable {shop} := by
  have hitems : ∀ i ∈ greatOrders.items, i.value.Checked :=
    List.forall_mem_singleton.2 (Expr.checked_of_raws _ rfl)
  have hjoined := @Reachable.joinWith {shop} shop _ _ .inner 1 _ _ (.source 0) rfl
    (Expr.checked_of_raws (.column 0 (ascii "Id")) rfl)
    (Expr.checked_of_raws (.column 1 (ascii "Customer")) rfl) rfl
  have hfiltered := hjoined.filter (Γ := shop)
    (p := .compare .gt (.column 1 (ascii "Total")) (.literal (.integer 100))) rfl
    (Expr.checked_of_raws _ rfl) rfl
  have hselected := hfiltered.select (Γ := shop) rfl hitems rfl
  exact @Reachable.orderBy {shop} shop _ _ (.column 0 (ascii "City")) false hselected rfl
    (Expr.checked_of_raws _ rfl) rfl

end Query

open Query in
/-- They are counted and looked for without their ordering, and without the 2 of their
projection. -/
theorem Plan.derived_statements_greatOrders :
    (Plan.query greatOrders).Reachable {shop} ∧ greatOrders.RowsIn shop greatOrdersRows ∧
    (Plan.query greatOrders).countStatement shop =
      .ok ⟨ascii "SELECT COUNT(*) as count " ++ greatOrdersRows.sql, [.integer 100]⟩ ∧
    (Plan.query greatOrders).existsStatement shop =
      .ok (around (ascii "SELECT EXISTS(SELECT 1 ") greatOrdersRows (ascii ") as result")) := by
  have h : (Plan.query greatOrders).Reachable {shop} := .query reachable_greatOrders
  obtain ⟨w, hw, hcount, hexists, -⟩ := h.derived_statements.1 greatOrders rfl ⟨rfl, rfl, rfl⟩
  obtain rfl : w = greatOrdersRows := hw.eq_of_alone rfl
  exact ⟨h, hw, hcount, hexists⟩

end SqlPlan
