import SqlPlan.Proofs.SetReader
import SqlPlan.Proofs.WellFormed

/-!
# Names in joined queries

A query of two entities knows them apart by their numbers. SQL knows only the names of their
tables: a column is written as its table, a point, and its name. `Query.Writes` says which texts a
query has for which columns, and `Query.NamesApart` that its two tables have different names.

The first entity has a table by the check at the start of a query, and the second is another one by
the check of the join. That is all: the second may have no table, or the same one.
`Plan.Issued.joined_tables` says what follows from that for the columns, and
`joined_tables_collide` has a query whose two keys are one text.
-/

namespace SqlPlan

/-- The column that a reference stands for. -/
def Catalog.columnOf? (Γ : Catalog) (c : ColumnRef) : Option Bytes :=
  ((Γ c.owner).find? c.property).map (·.column)

/-! ## Queries that were started -/

namespace Plan

/-- The plans that are composed of started queries: successful calls built them, and the entity of
each of their queries passed the check at its start. No call changes that entity later. -/
structure Issued (C : Set Catalog) (p : Plan) : Prop where
  /-- successful calls built it -/
  reachable : p.Reachable C
  /-- its queries were started -/
  started : ∀ q ∈ p.queries, ∃ Γ ∈ C, ∃ q₀, Query.start Γ q.source = .ok q₀

/-- The queries of a reachable plan are reachable. -/
theorem Reachable.of_mem_queries {C : Set Catalog} {p : Plan} (h : p.Reachable C) :
    ∀ q ∈ p.queries, q.Reachable C := by
  induction h with
  | query hq => exact List.forall_mem_singleton.2 hq
  | combine _ _ _ ihl ihr =>
    intro q hq
    rcases List.mem_append.1 hq with hq | hq
    · exact ihl q hq
    · exact ihr q hq

end Plan

namespace Query

variable {C : Set Catalog} {Γ : Catalog} {q : Query} {j : Join}

/-- A query starts where there is a table. -/
theorem table_of_start {id : EntityId} {q₀ : Query} (h : start Γ id = .ok q₀) :
    (Γ id).table ≠ [] := by
  rw [start, Except.guard_eq_ok] at h
  simpa [List.isEmpty_iff] using h.1

/-- **What is joined is another entity**, whatever calls come after the join. -/
theorem Reachable.join_ne (h : q.Reachable C) (hj : q.join = some j) : j.inner ≠ q.source := by
  -- only the call that joins sets the join, and no call changes the source
  induction h with
  | source => cases hj
  | filter _ _ _ h ih =>
    obtain ⟨-, -, rfl, -⟩ := filter_eq_ok.1 h
    exact ih hj
  | orderBy _ _ _ h ih =>
    obtain ⟨-, rfl, -⟩ := orderBy_eq_ok.1 h
    exact ih hj
  | thenBy _ _ _ h ih =>
    obtain ⟨-, -, rfl, -⟩ := thenBy_eq_ok.1 h
    exact ih hj
  | take _ h ih =>
    obtain ⟨w, -, rfl⟩ := take_eq_ok.1 h
    exact ih hj
  | skip _ h ih =>
    obtain ⟨w, -, rfl⟩ := skip_eq_ok.1 h
    exact ih hj
  | dedup _ ih => exact ih hj
  | select _ _ _ h ih =>
    obtain ⟨-, -, -, rfl, -⟩ := select_eq_ok.1 h
    exact ih hj
  | joinWith _ _ _ _ h ih =>
    obtain ⟨-, -, -, hne, -, -, rfl, -⟩ := joinWith_eq_ok.1 h
    obtain rfl := Option.some.inj hj
    exact hne
  | groupBy _ _ _ h ih =>
    obtain ⟨-, -, -, -, -, -, rfl, -⟩ := groupBy_eq_ok.1 h
    exact ih hj
  | filterGroups _ _ _ h ih =>
    obtain ⟨-, -, rfl, -⟩ := filterGroups_eq_ok.1 h
    exact ih hj

/-! ## What is written for a column -/

/-- The expressions of a query, each with the scope of its clause. -/
def places (q : Query) : List (Scope × Expr) :=
  q.rowExprs.map (q.scope, ·) ++ q.groupExprs.map (q.groupScope, ·)

theorem mem_places {s : Scope} {e : Expr} :
    (s, e) ∈ q.places ↔
      s = q.scope ∧ e ∈ q.rowExprs ∨ s = q.groupScope ∧ e ∈ q.groupExprs := by
  rw [places, List.mem_append, List.mem_map, List.mem_map]
  simp only [Prod.mk.injEq]
  grind

/-- A query **writes** a text for a column: somewhere in its clauses the column is emitted as that
text. -/
def Writes (Γ : Catalog) (q : Query) (c : ColumnRef) (t : Bytes) : Prop :=
  ∃ place ∈ q.places, ∃ n ∈ place.2.nodes, n.expr = .column c.owner c.property ∧
    { place.1 with inAggregate := n.inAggregate }.column Γ c.owner c.property =
      .ok (Fragment.ofText t)

variable {c c' : ColumnRef} {t t' : Bytes}

/-- What is written in a query of two entities is the column with its table. -/
theorem Writes.spelled (hj : q.join = some j) (h : q.Writes Γ c t) :
    (c.owner = q.source ∨ c.owner = j.inner) ∧
    ∃ column, Γ.columnOf? c = some column ∧ t = (Γ c.owner).table ++ ascii "." ++ column := by
  obtain ⟨⟨s, e⟩, hplace, n, -, -, hcolumn⟩ := h
  obtain ⟨-, name, hname, ht⟩ := Scope.column_eq_ok.1 hcolumn
  obtain rfl : t = name := by simpa [Fragment.ofText] using ht
  obtain ⟨hvisible, p, hp, rfl⟩ := Scope.resolve_eq_ok.1 hname
  -- groups change neither what takes part nor how columns are written
  have hscope : s.visible = q.scope.visible ∧ s.qualified = true := by
    have hqualified : q.scope.qualified = true := by simp [scope, hj]
    rcases mem_places.1 hplace with ⟨rfl, -⟩ | ⟨rfl, -⟩
    · exact ⟨rfl, hqualified⟩
    · exact ⟨rfl, hqualified⟩
  refine ⟨?owner, p.column, ?column, ?text⟩
  case owner =>
    rcases mem_visible_iff.1 (hscope.1 ▸ hvisible) with howner | ⟨j', hj', howner⟩
    · exact .inl howner
    · obtain rfl := Option.some.inj (hj'.symm.trans hj)
      exact .inr howner
  case column => rw [Catalog.columnOf?, hp, Option.map_some]
  case text => rw [Scope.written, if_pos hscope.2]

/-- **Every column of a reachable query is written.** -/
theorem Reachable.exists_writes (h : q.Reachable {Γ}) {e : Expr} (he : e ∈ q.exprs) {n : Node}
    (hn : n ∈ e.nodes) (hcolumn : n.expr = .column c.owner c.property) :
    ∃ t, q.Writes Γ c t := by
  obtain ⟨s, hplace, hs, f, hf⟩ :
      ∃ s, (s, e) ∈ q.places ∧ s.inAggregate = false ∧ ∃ f, e.emit Γ s = .ok f := by
    rcases mem_exprs.1 he with he | he
    · exact ⟨q.scope, mem_places.2 (.inl ⟨rfl, he⟩), rfl, h.valid.translates.rowExprs he⟩
    · exact ⟨q.groupScope, mem_places.2 (.inr ⟨rfl, he⟩), rfl, h.valid.groupExprs he⟩
  obtain ⟨g, hg⟩ := Expr.exists_emit_of_mem_nodes hf hs hn
  rw [hcolumn] at hg
  obtain ⟨-, t, -, rfl⟩ := Scope.column_eq_ok.1 hg
  exact ⟨t, (s, e), hplace, n, hn, hcolumn, hg⟩

/-! ## Two tables -/

/-- The tables of a join **tell its sides apart**: both have names, and not the same one. -/
structure NamesApart (Γ : Catalog) (q : Query) (j : Join) : Prop where
  /-- the first entity has a table -/
  outer : (Γ q.source).table ≠ []
  /-- the second has one -/
  inner : (Γ j.inner).table ≠ []
  /-- it is another one -/
  apart : (Γ j.inner).table ≠ (Γ q.source).table

/-- What stands before the first separator and what comes after it are determined by the whole. -/
theorem append_cons_inj {α : Type} {a : α} {k l m n : List α} (hk : a ∉ k) (hl : a ∉ l) :
    k ++ a :: m = l ++ a :: n ↔ k = l ∧ m = n := by
  induction k generalizing l with
  | nil =>
    cases l with
    | nil => simp
    | cons b l =>
      -- the separator would be the first byte of `l`
      refine iff_of_false (fun h => hl ?_) nofun
      rw [(List.cons.inj h).1]
      exact List.mem_cons_self
  | cons b k ih =>
    cases l with
    | nil =>
      refine iff_of_false (fun h => hk ?_) nofun
      rw [(List.cons.inj h).1]
      exact List.mem_cons_self
    | cons c l =>
      have hrest := ih (List.not_mem_of_not_mem_cons hk) (List.not_mem_of_not_mem_cons hl)
      simp [hrest, and_assoc]

/-- **When the columns of two entities are written alike**: when the tables have one name and the
columns too. -/
theorem Writes.eq_iff (hj : q.join = some j) (h : q.Writes Γ c t) (h' : q.Writes Γ c' t')
    (howner : c.owner ≠ c'.owner) (hpoint : Byte.point ∉ (Γ c.owner).table)
    (hpoint' : Byte.point ∉ (Γ c'.owner).table) :
    t = t' ↔ (Γ j.inner).table = (Γ q.source).table ∧ Γ.columnOf? c = Γ.columnOf? c' := by
  obtain ⟨hside, column, hcolumn, rfl⟩ := h.spelled hj
  obtain ⟨hside', column', hcolumn', rfl⟩ := h'.spelled hj
  have htables : (Γ c.owner).table = (Γ c'.owner).table ↔
      (Γ j.inner).table = (Γ q.source).table := by
    rcases hside with hside | hside <;> rcases hside' with hside' | hside'
    · exact absurd (hside.trans hside'.symm) howner
    · rw [hside, hside', eq_comm]
    · rw [hside, hside']
    · exact absurd (hside.trans hside'.symm) howner
  rw [hcolumn, hcolumn', Option.some.injEq, ← htables]
  simpa [ascii] using append_cons_inj (m := column) (n := column') hpoint hpoint'

end Query

namespace Plan

/-- **What is so of every join in a plan of started queries.** The source has a table, and what is
joined is another entity. The tables tell the sides apart exactly when the joined entity has a
table, and another one. Columns of the two sides whose tables are plain names are written alike
exactly when the tables and the columns have the same names. -/
theorem Issued.joined_tables {C : Set Catalog} {p : Plan} (h : p.Issued C)
    (htables : ∀ Γ ∈ C, ∀ Γ' ∈ C, ∀ id, (Γ id).table = (Γ' id).table) {Γ : Catalog} (hΓ : Γ ∈ C)
    {q : Query} (hq : q ∈ p.queries) {j : Join} (hj : q.join = some j) :
    (Γ q.source).table ≠ [] ∧ j.inner ≠ q.source ∧
    (q.NamesApart Γ j ↔ (Γ j.inner).table ≠ [] ∧ (Γ j.inner).table ≠ (Γ q.source).table) ∧
    ∀ c c' t t', c.owner ≠ c'.owner →
      Byte.point ∉ (Γ c.owner).table → Byte.point ∉ (Γ c'.owner).table →
      q.Writes Γ c t → q.Writes Γ c' t' →
      (t = t' ↔ (Γ j.inner).table = (Γ q.source).table ∧ Γ.columnOf? c = Γ.columnOf? c') := by
  have houter : (Γ q.source).table ≠ [] := by
    obtain ⟨Γ₀, hΓ₀, q₀, hstart⟩ := h.started q hq
    rw [htables Γ hΓ Γ₀ hΓ₀]
    exact Query.table_of_start hstart
  refine ⟨houter, (h.reachable.of_mem_queries q hq).join_ne hj, ?apart, ?texts⟩
  case apart =>
    constructor
    · rintro ⟨-, hinner, hapart⟩
      exact ⟨hinner, hapart⟩
    · rintro ⟨hinner, hapart⟩
      exact ⟨houter, hinner, hapart⟩
  case texts =>
    intro c c' t t' howner hpoint hpoint' hwrites hwrites'
    exact hwrites.eq_iff hj hwrites' howner hpoint hpoint'

theorem issued_otherCities : otherCities.Issued {shop} where
  reachable := reachable_otherCities
  started := by
    intro q hq
    have hsource : q.source = 0 := by
      simp only [otherCities, queries, List.mem_append, List.mem_singleton] at hq
      rcases hq with rfl | rfl <;> rfl
    refine ⟨shop, rfl, { source := 0 }, ?_⟩
    rw [hsource]
    rfl

/-- Customers and orders are told apart, and so are the keys they are joined on. -/
theorem joined_tables_otherCities :
    cityReport ∈ otherCities.queries ∧
    ∃ j, cityReport.join = some j ∧ cityReport.NamesApart shop j ∧
      ∃ t t', cityReport.Writes shop ⟨0, ascii "Id"⟩ t ∧
        cityReport.Writes shop ⟨1, ascii "Customer"⟩ t' ∧ t ≠ t' := by
  have hq : cityReport ∈ otherCities.queries := by decide
  obtain ⟨-, -, hapart, htexts⟩ := issued_otherCities.joined_tables
    (by rintro Γ rfl Γ' rfl id; rfl) rfl hq rfl
  obtain ⟨t, ht⟩ : ∃ t, cityReport.Writes shop ⟨0, ascii "Id"⟩ t :=
    Query.reachable_cityReport.exists_writes (e := .column 0 (ascii "Id")) (by decide)
      List.mem_cons_self rfl
  obtain ⟨t', ht'⟩ : ∃ t', cityReport.Writes shop ⟨1, ascii "Customer"⟩ t' :=
    Query.reachable_cityReport.exists_writes (e := .column 1 (ascii "Customer")) (by decide)
      List.mem_cons_self rfl
  refine ⟨hq, _, rfl, hapart.2 (by decide), t, t', ht, ht', fun heq => ?_⟩
  obtain ⟨hsame, -⟩ := (htexts _ _ t t' (by decide) (by decide) (by decide) ht ht').1 heq
  exact absurd hsame (by decide)

/-! ### Two declarations of one table -/

/-- Users, declared twice, and the shape of a projection. -/
def twice : Catalog := fun id =>
  if id < 2 then Catalog.single (ascii "users") [(ascii "Id", ascii "id")] id
  else Catalog.single [] [(ascii "Id", ascii "id")] id

/-- Users with what has the same number, from one of the other declarations. -/
def usersWith (inner : EntityId) : Query :=
  { source := 0, join := some ⟨.inner, inner, .column 0 (ascii "Id"), .column inner (ascii "Id")⟩ }

theorem issued_usersWith (inner : EntityId) (hinner : inner = 1 ∨ inner = 2) :
    (Plan.query (usersWith inner)).Issued {twice} := by
  have hchecked : ∀ id, (Expr.column id (ascii "Id")).Checked := fun id r hr => by
    simp [Expr.raws] at hr
  have hjoin : Query.joinWith { source := 0 } twice .inner inner (.column 0 (ascii "Id"))
      (.column inner (ascii "Id")) = .ok (usersWith inner) := by
    rcases hinner with rfl | rfl <;> rfl
  have hreachable : (usersWith inner).Reachable {twice} :=
    .joinWith (.source 0) rfl (hchecked 0) (hchecked inner) hjoin
  refine ⟨.query hreachable, ?_⟩
  intro q hq
  obtain rfl := List.mem_singleton.1 hq
  exact ⟨twice, rfl, _, rfl⟩

/-- **Joins do not tell their sides apart**: the query of users with users can be built, and both of
its keys are one text; so can the query of users with what has no table. -/
theorem joined_tables_collide :
    ((Plan.query (usersWith 1)).Issued {twice} ∧
      (usersWith 1).compile twice =
        .ok ⟨ascii "SELECT * FROM users INNER JOIN users ON users.id = users.id", []⟩ ∧
      (usersWith 1).Writes twice ⟨0, ascii "Id"⟩ (ascii "users.id") ∧
      (usersWith 1).Writes twice ⟨1, ascii "Id"⟩ (ascii "users.id")) ∧
    ((Plan.query (usersWith 2)).Issued {twice} ∧
      (usersWith 2).compile twice =
        .ok ⟨ascii "SELECT * FROM users INNER JOIN  ON users.id = .id", []⟩) ∧
    ¬ ∀ (Γ : Catalog) (p : Plan), p.Issued {Γ} → ∀ q ∈ p.queries, ∀ j, q.join = some j →
      q.NamesApart Γ j := by
  refine ⟨⟨issued_usersWith 1 (.inl rfl), rfl, ?left, ?right⟩,
    ⟨issued_usersWith 2 (.inr rfl), rfl⟩, fun hclaim => ?apart⟩
  case left =>
    refine ⟨((usersWith 1).scope, .column 0 (ascii "Id")), by decide, _, List.mem_cons_self, ?_⟩
    exact ⟨rfl, rfl⟩
  case right =>
    refine ⟨((usersWith 1).scope, .column 1 (ascii "Id")), by decide, _, List.mem_cons_self, ?_⟩
    exact ⟨rfl, rfl⟩
  case apart =>
    have happart := hclaim twice (.query (usersWith 1)) (issued_usersWith 1 (.inl rfl)) _
      List.mem_cons_self _ rfl
    exact happart.apart rfl

end Plan

end SqlPlan
