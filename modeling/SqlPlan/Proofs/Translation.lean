import SqlPlan.Proofs.Emission
import SqlPlan.Proofs.Reachable

/-!
# Plans that can be translated

Whatever is wrong with an expression shows in the call that brings it in: each of those calls emits
the query it gives. Windows, `dedup` and everything that is done to a set operation emit nothing,
and the statements derived from a plan put its clauses together in other ways. None of them can
fail after that. `Query.Reachable.valid` says what every building call keeps, and
`Plan.Reachable.statements_translate` that a plan, once built, has all of its statements.

Declarations stay as they are here: one catalog serves every call and the statements.
-/

namespace SqlPlan

/-- What is emitted as a fragment has the statement of the fragment. -/
theorem Fragment.map_statement {x : Except TranslationError Fragment} {f : Fragment}
    (h : x = .ok f) : Fragment.statement <$> x = .ok f.statement := by
  rw [h]
  rfl

namespace Query

variable {Γ : Catalog} {q : Query}

/-! ## Statements of a query that can be emitted -/

/-- The rows are given whole or in part, with repetitions or without; the clauses stay. -/
theorem Translates.windowed (h : q.Translates Γ) (w : Paging) (distinct : Bool) :
    Translates Γ { q with paging := w, distinct := distinct } := by
  obtain ⟨f, hf⟩ := h
  obtain ⟨columns, rows, keys, having, order, hcolumns, hrows, hkeys, hhaving, horder, -⟩ :=
    emit_eq_ok.1 hf
  exact ⟨_, emit_eq_ok.2
    ⟨columns, rows, keys, having, order, hcolumns, hrows, hkeys, hhaving, horder, rfl⟩⟩

/-- A query that can be emitted has rows to ask about. -/
theorem Translates.emitRows (h : q.Translates Γ) : ∃ f, q.emitRows Γ = .ok f := by
  obtain ⟨f, hf⟩ := h
  obtain ⟨-, rows, -, -, -, -, hrows, -⟩ := emit_eq_ok.1 hf
  exact ⟨rows, hrows⟩

/-- The rows are counted in the FROM and WHERE clauses or in the whole query. -/
theorem Translates.emitCount (h : q.Translates Γ) : ∃ f, q.emitCount Γ = .ok f := by
  cases hsub : q.needsSubquery with
  | true =>
    obtain ⟨f, hf⟩ := h
    exact ⟨_, emitCount_eq_ok.2 (Or.inl ⟨hsub, f, hf, rfl⟩)⟩
  | false =>
    obtain ⟨rows, hrows⟩ := h.emitRows
    exact ⟨_, emitCount_eq_ok.2 (Or.inr ⟨hsub, rows, hrows, rfl⟩)⟩

/-- Rows are looked for where they are counted. -/
theorem Translates.emitExists (h : q.Translates Γ) : ∃ f, q.emitExists Γ = .ok f := by
  cases hsub : q.needsSubquery with
  | true =>
    obtain ⟨f, hf⟩ := h
    exact ⟨_, emitExists_eq_ok.2 (Or.inl ⟨hsub, f, hf, rfl⟩)⟩
  | false =>
    obtain ⟨rows, hrows⟩ := h.emitRows
    exact ⟨_, emitExists_eq_ok.2 (Or.inr ⟨hsub, emitProbe_eq_ok.2 ⟨rows, hrows, rfl⟩⟩)⟩

/-- It can be limited, since a limit is no expression. -/
theorem Translates.emitLimited (h : q.Translates Γ) (n : Int) : ∃ f, q.emitLimited Γ n = .ok f :=
  h.windowed (q.paging.limitTo n) q.distinct

/-! ## What every building call keeps -/

/-- **The invariant of building**: the query can be emitted, the keys of its join have passed their
check, and groups are filtered only where there are groups. -/
structure Valid (Γ : Catalog) (q : Query) : Prop where
  /-- it can be emitted -/
  translates : q.Translates Γ
  /-- each key of the join is one of its own side -/
  joinKeys : ∀ j, q.join = some j →
    checkJoinKey Γ .outer j.outerKey q.source = .ok () ∧
    checkJoinKey Γ .inner j.innerKey j.inner = .ok ()
  /-- rows that are not grouped have no predicate on groups -/
  having : q.isGrouped = false → q.having = []

/-- **Every reachable query is valid.** The induction is on the calls. A call that brings in an
expression has emitted the query it gives; the others leave the clauses alone. -/
theorem Reachable.valid (h : q.Reachable {Γ}) : q.Valid Γ := by
  induction h with
  | source id =>
    refine ⟨⟨_, rfl⟩, ?_, fun _ => rfl⟩
    intro j hj
    cases hj
  | filter _ hΓ _ h ih =>
    obtain rfl := hΓ
    obtain ⟨-, -, rfl, htranslates⟩ := filter_eq_ok.1 h
    exact ⟨htranslates, ih.joinKeys, ih.having⟩
  | orderBy _ hΓ _ h ih =>
    obtain rfl := hΓ
    obtain ⟨-, rfl, htranslates⟩ := orderBy_eq_ok.1 h
    exact ⟨htranslates, ih.joinKeys, ih.having⟩
  | thenBy _ hΓ _ h ih =>
    obtain rfl := hΓ
    obtain ⟨-, -, rfl, htranslates⟩ := thenBy_eq_ok.1 h
    exact ⟨htranslates, ih.joinKeys, ih.having⟩
  -- a window and the removal of duplicates emit no expression, and are not validated
  | take _ h ih =>
    obtain ⟨w, -, rfl⟩ := take_eq_ok.1 h
    exact ⟨ih.translates.windowed w _, ih.joinKeys, ih.having⟩
  | skip _ h ih =>
    obtain ⟨w, -, rfl⟩ := skip_eq_ok.1 h
    exact ⟨ih.translates.windowed w _, ih.joinKeys, ih.having⟩
  | dedup _ ih => exact ⟨ih.translates.windowed _ true, ih.joinKeys, ih.having⟩
  | select _ hΓ _ h ih =>
    obtain rfl := hΓ
    obtain ⟨-, -, -, rfl, htranslates⟩ := select_eq_ok.1 h
    exact ⟨htranslates, ih.joinKeys, ih.having⟩
  -- the only call that checks keys of a join
  | joinWith _ hΓ _ _ h ih =>
    obtain rfl := hΓ
    obtain ⟨-, -, -, -, houter, hinner, rfl, htranslates⟩ := joinWith_eq_ok.1 h
    refine ⟨htranslates, ?_, ih.having⟩
    intro j hj
    obtain rfl := Option.some.inj hj
    exact ⟨houter, hinner⟩
  | groupBy _ hΓ _ h ih =>
    obtain rfl := hΓ
    obtain ⟨hkeys, -, -, -, -, -, rfl, htranslates⟩ := groupBy_eq_ok.1 h
    refine ⟨htranslates, ih.joinKeys, ?_⟩
    intro hungrouped
    simp [isGrouped, hkeys] at hungrouped
  | filterGroups _ hΓ _ h ih =>
    obtain rfl := hΓ
    obtain ⟨hgrouped, -, rfl, htranslates⟩ := filterGroups_eq_ok.1 h
    refine ⟨htranslates, ih.joinKeys, ?_⟩
    intro hungrouped
    exact absurd hgrouped (by simpa [isGrouped] using hungrouped)

end Query

namespace Plan

variable {Γ : Catalog} {p : Plan}

/-! ## Statements of a plan -/

/-- A reachable plan can be emitted; a set operation adds nothing that can go wrong. -/
theorem Reachable.exists_emit (h : p.Reachable {Γ}) : ∃ f, p.emit Γ = .ok f := by
  induction h with
  | query hq => exact hq.valid.translates
  | combine _ _ _ ihl ihr =>
    obtain ⟨a, ha⟩ := ihl
    obtain ⟨b, hb⟩ := ihr
    exact ⟨_, emit_combine_eq_ok.2 ⟨a, b, ha, hb, rfl⟩⟩

/-- What can be emitted has a statement. -/
theorem exists_statement {x : Except TranslationError Fragment} (h : ∃ f, x = .ok f) :
    ∃ st, Fragment.statement <$> x = .ok st := by
  obtain ⟨f, hf⟩ := h
  exact ⟨f.statement, Fragment.map_statement hf⟩

/-- **A plan that was built has all of its statements**: the rows, their number, whether there are
any, and the first ones, however many are asked for. Building is checked by emission of the rows,
and the other statements emit no more than that. -/
theorem Reachable.statements_translate (h : p.Reachable {Γ}) :
    (∃ st, p.compile Γ = .ok st) ∧ (∃ st, p.countStatement Γ = .ok st) ∧
    (∃ st, p.existsStatement Γ = .ok st) ∧ ∀ n, ∃ st, p.limitedStatement Γ n = .ok st := by
  obtain ⟨f, hf⟩ := h.exists_emit
  cases h with
  | query hq =>
    have hq := hq.valid.translates
    exact ⟨exists_statement ⟨f, hf⟩, exists_statement hq.emitCount,
      exists_statement hq.emitExists, fun n => exists_statement (hq.emitLimited n)⟩
  | combine _ _ _ =>
    refine ⟨exists_statement ⟨f, hf⟩, ?_, ?_, ?_⟩
    · exact exists_statement ⟨_, emitCount_combine_eq_ok.2 ⟨f, hf, rfl⟩⟩
    · exact exists_statement ⟨_, emitExists_combine_eq_ok.2 ⟨f, hf, rfl⟩⟩
    · intro n
      exact exists_statement ⟨_, emitLimited_combine_eq_ok.2 ⟨f, hf, rfl⟩⟩

end Plan

/-! ### A report that all builders have a part in -/

/-- Customers in cities, and the totals of their orders. -/
def shop : Catalog := fun id =>
  if id = 0 then
    Catalog.single (ascii "customers") [(ascii "Id", ascii "id"), (ascii "City", ascii "city")] id
  else
    Catalog.single (ascii "orders")
      [(ascii "Customer", ascii "customer_id"), (ascii "Total", ascii "total")] id

/-- The ten last cities by name with more than one order, and the sum of their totals. -/
def cityReport : Query :=
  { source := 0
    join := some ⟨.inner, 1, .column 0 (ascii "Id"), .column 1 (ascii "Customer")⟩
    items := [⟨ascii "city", .key none⟩,
      ⟨ascii "total", .aggregate .sum (.column 1 (ascii "Total"))⟩]
    filters := [.compare .gt (.column 1 (ascii "Total")) (.literal (.integer 0))]
    keys := [.column 0 (ascii "City")]
    having := [.compare .gt .countRows (.literal (.integer 1))]
    order := [⟨.column 0 (ascii "City"), true⟩]
    paging := { limit := some 10 } }

theorem Query.reachable_cityReport : cityReport.Reachable {shop} := by
  have hid : (Expr.column 0 (ascii "Id")).Checked := Expr.checked_of_raws _ rfl
  have hcustomer : (Expr.column 1 (ascii "Customer")).Checked := Expr.checked_of_raws _ rfl
  have hcity : (Expr.column 0 (ascii "City")).Checked := Expr.checked_of_raws _ rfl
  have hitems : ∀ i ∈ cityReport.items, i.value.Checked := by
    intro i hi
    simp only [cityReport, List.mem_cons, List.not_mem_nil, or_false] at hi
    rcases hi with rfl | rfl
    · exact Expr.checked_of_raws _ rfl
    · exact Expr.checked_of_raws _ rfl
  have hkeys : ∀ k ∈ cityReport.keys, k.Checked := List.forall_mem_singleton.2 hcity
  have hjoined := @Reachable.joinWith {shop} shop _ _ .inner 1 _ _ (.source 0) rfl hid hcustomer rfl
  have hfiltered := hjoined.filter (Γ := shop)
    (p := .compare .gt (.column 1 (ascii "Total")) (.literal (.integer 0))) rfl
    (Expr.checked_of_raws _ rfl) rfl
  have hgrouped := hfiltered.groupBy (Γ := shop) rfl hkeys rfl
  have hseveral := hgrouped.filterGroups (Γ := shop)
    (p := .compare .gt .countRows (.literal (.integer 1))) rfl (Expr.checked_of_raws _ rfl) rfl
  have hselected := hseveral.select (Γ := shop) rfl hitems rfl
  have hordered := @Reachable.orderBy {shop} shop _ _ _ true hselected rfl hcity rfl
  exact hordered.take (n := 10) rfl

namespace Plan

/-- All customers but those that the report lists, three of them in order. -/
def otherCities : Plan :=
  .combine .except (.query { source := 0 }) (.query cityReport)
    { order := [⟨ascii "city", false⟩], paging := { limit := some 3 } }

theorem reachable_otherCities : otherCities.Reachable {shop} := by
  have hordered : Tail.Reachable { order := [⟨ascii "city", false⟩] } := .orderBy .none rfl
  exact .combine (.query (.source 0)) (.query Query.reachable_cityReport)
    (hordered.take (n := 3) rfl)

/-- A set operation with an ordering has all its statements. -/
theorem statements_translate_otherCities :
    (∃ st, otherCities.compile shop = .ok st) ∧ (∃ st, otherCities.countStatement shop = .ok st) ∧
    (∃ st, otherCities.existsStatement shop = .ok st) ∧
    ∀ n, ∃ st, otherCities.limitedStatement shop n = .ok st :=
  reachable_otherCities.statements_translate

end Plan

end SqlPlan
