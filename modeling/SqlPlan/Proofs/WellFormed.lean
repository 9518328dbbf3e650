import SqlPlan.Proofs.Translation

/-!
# What a query that was built looks like

The checks on a query are spread: some builders look at their arguments, most of it is left to
emission, which knows at each place what may be referred to there. `Query.WellFormed` says in terms
of the expressions themselves what all of that comes to, and `Query.Reachable.wellFormed` that it
holds of every query that successful calls lead to.

The way from emission to the expressions is one lemma, `Expr.exists_emitWith_of_mem_nodes`: where an
expression is emitted, each of its nodes is, in the same scope up to whether the place is inside an
aggregate. What a node may be there then follows from what emission asks of it.
-/

namespace SqlPlan

/-! ## The nodes of an expression -/

/-- A node of an expression, and whether it is inside an aggregate. -/
structure Node where
  /-- the part of the expression that begins here -/
  expr : Expr
  /-- is there an aggregate above it? -/
  inAggregate : Bool

namespace Expr

/-- The nodes of an expression at a place that is inside an aggregate or not, from the top down and
from left to right. -/
def nodesFrom : Bool → Expr → List Node
  | b, .arith op l r => ⟨.arith op l r, b⟩ :: (l.nodesFrom b ++ r.nodesFrom b)
  | b, .logic op l r => ⟨.logic op l r, b⟩ :: (l.nodesFrom b ++ r.nodesFrom b)
  | b, .compare op l r => ⟨.compare op l r, b⟩ :: (l.nodesFrom b ++ r.nodesFrom b)
  | b, .aggregate fn e => ⟨.aggregate fn e, b⟩ :: e.nodesFrom true
  | b, .call fn e => ⟨.call fn e, b⟩ :: e.nodesFrom b
  | b, .truth e => ⟨.truth e, b⟩ :: e.nodesFrom b
  | b, .nullCheck negated e => ⟨.nullCheck negated e, b⟩ :: e.nodesFrom b
  | b, .not e => ⟨.not e, b⟩ :: e.nodesFrom b
  | b, .like e text anchor => ⟨.like e text anchor, b⟩ :: e.nodesFrom b
  | b, .oneOf e items => ⟨.oneOf e items, b⟩ :: e.nodesFrom b
  | b, .column owner property => [⟨.column owner property, b⟩]
  | b, .literal v => [⟨.literal v, b⟩]
  | b, .countRows => [⟨.countRows, b⟩]
  | b, .key index => [⟨.key index, b⟩]
  | b, .raw sql params => [⟨.raw sql params, b⟩]

/-- The nodes of an expression that stands by itself. -/
def nodes (e : Expr) : List Node := e.nodesFrom false

/-- Is the expression a call of an aggregate? -/
def isAggregate : Expr → Bool
  | .countRows | .aggregate .. => true
  | _ => false

/-- The column that the expression is, if it is one. -/
def columnRef? : Expr → Option ColumnRef
  | .column owner property => some ⟨owner, property⟩
  | _ => none

/-- The expression is about single rows: it calls no aggregate and refers to no group key. -/
def IsRowwise (e : Expr) : Prop := ∀ n ∈ e.nodes, n.expr.isAggregate = false ∧ n.expr.isKey = false

/-- The expression can be one side of a join: it refers to columns, and to those of one entity
only. -/
structure IsKeyOf (owner : EntityId) (e : Expr) : Prop where
  /-- it refers to a column -/
  nonempty : ∃ n ∈ e.nodes, ∃ property, n.expr = .column owner property
  /-- every column is one of the entity -/
  owned : ∀ n ∈ e.nodes, ∀ o property, n.expr = .column o property → o = owner

/-- The expression is about groups of rows with the given keys. -/
structure IsGroupwise (keys : List Expr) (e : Expr) : Prop where
  /-- no aggregate is inside another -/
  flat : ∀ n ∈ e.nodes, n.inAggregate = true → n.expr.isAggregate = false
  /-- a member of the key that is referred to by its number is there -/
  member : ∀ n ∈ e.nodes, ∀ i, n.expr = .key (some i) → i < keys.length
  /-- the key is referred to as a whole only when it has one member -/
  whole : ∀ n ∈ e.nodes, n.expr = .key none → keys.length = 1
  /-- a column outside all aggregates is itself a group key -/
  columns : ∀ n ∈ e.nodes, n.inAggregate = false → ∀ owner property,
    n.expr = .column owner property → .column owner property ∈ keys

/-! ## Every node is emitted -/

variable {Γ : Catalog} {onKey : Scope → Option Nat → Except TranslationError Fragment}
  {s : Scope} {e : Expr} {f : Fragment} {n : Node}

/-- The literal NULL is its only node, and is emitted everywhere. -/
theorem exists_emitWith_of_isNullLiteral {b : Bool} (he : e.isNullLiteral = true)
    (hn : n ∈ e.nodesFrom b) : ∃ g, emitWith Γ onKey s n.expr = .ok g := by
  cases e with
  | literal v =>
    obtain rfl := List.mem_singleton.1 hn
    exact ⟨_, rfl⟩
  | _ => cases he

/-- **The nodes of an expression are emitted with it.** The induction is on the expression; only an
aggregate changes the scope. Of a comparison with NULL one side is written, and the other is the
literal. -/
theorem exists_emitWith_of_mem_nodes (h : emitWith Γ onKey s e = .ok f)
    (hn : n ∈ e.nodesFrom s.inAggregate) :
    ∃ g, emitWith Γ onKey { s with inAggregate := n.inAggregate } n.expr = .ok g := by
  induction e generalizing s f with
  | column | literal | countRows | key | raw =>
    obtain rfl := List.mem_singleton.1 hn
    exact ⟨f, h⟩
  | arith op l r ihl ihr =>
    obtain ⟨a, b, ha, hb, -⟩ := emitWith_arith_eq_ok.1 h
    rcases List.mem_cons.1 hn with rfl | hn
    · exact ⟨f, h⟩
    rcases List.mem_append.1 hn with hn | hn
    · exact ihl ha hn
    · exact ihr hb hn
  | logic op l r ihl ihr =>
    obtain ⟨a, b, ha, hb, -⟩ := emitWith_logic_eq_ok.1 h
    rcases List.mem_cons.1 hn with rfl | hn
    · exact ⟨f, h⟩
    rcases List.mem_append.1 hn with hn | hn
    · exact ihl ha hn
    · exact ihr hb hn
  -- the side that is left out of a null check is the literal, which is emitted anywhere
  | compare op l r ihl ihr =>
    rcases List.mem_cons.1 hn with rfl | hn
    · exact ⟨f, h⟩
    rcases emitWith_compare_eq_ok.1 h with ⟨-, -, a, b, ha, hb, -⟩ |
      ⟨hnull, -, a, -, ha, -⟩ | ⟨hnull, -, -, b, -, hb, -⟩
    · rcases List.mem_append.1 hn with hn | hn
      · exact ihl ha hn
      · exact ihr hb hn
    · rcases List.mem_append.1 hn with hn | hn
      · exact ihl ha hn
      · exact exists_emitWith_of_isNullLiteral hnull hn
    · rcases List.mem_append.1 hn with hn | hn
      · exact exists_emitWith_of_isNullLiteral hnull hn
      · exact ihr hb hn
  | aggregate fn e ih =>
    obtain ⟨-, a, ha, -⟩ := emitWith_aggregate_eq_ok.1 h
    rcases List.mem_cons.1 hn with rfl | hn
    · exact ⟨f, h⟩
    · exact ih (s := s.insideAggregate) ha hn
  | call fn e ih =>
    obtain ⟨a, ha, -⟩ := emitWith_call_eq_ok.1 h
    rcases List.mem_cons.1 hn with rfl | hn
    · exact ⟨f, h⟩
    · exact ih ha hn
  | truth e ih =>
    rcases List.mem_cons.1 hn with rfl | hn
    · exact ⟨f, h⟩
    · exact ih h hn
  | nullCheck negated e ih =>
    obtain ⟨a, ha, -⟩ := emitWith_nullCheck_eq_ok.1 h
    rcases List.mem_cons.1 hn with rfl | hn
    · exact ⟨f, h⟩
    · exact ih ha hn
  | not e ih =>
    obtain ⟨a, ha, -⟩ := emitWith_not_eq_ok.1 h
    rcases List.mem_cons.1 hn with rfl | hn
    · exact ⟨f, h⟩
    · exact ih ha hn
  | like e text anchor ih =>
    obtain ⟨a, ha, -⟩ := emitWith_like_eq_ok.1 h
    rcases List.mem_cons.1 hn with rfl | hn
    · exact ⟨f, h⟩
    · exact ih ha hn
  | oneOf e items ih =>
    obtain ⟨a, ha, -⟩ := emitWith_oneOf_eq_ok.1 h
    rcases List.mem_cons.1 hn with rfl | hn
    · exact ⟨f, h⟩
    · exact ih ha hn

/-- Every node of an expression that is emitted is emitted itself, at its own place inside or
outside an aggregate. -/
theorem exists_emit_of_mem_nodes (h : e.emit Γ s = .ok f) (hs : s.inAggregate = false)
    (hn : n ∈ e.nodes) :
    ∃ g, emitWith Γ (emitKey Γ) { s with inAggregate := n.inAggregate } n.expr = .ok g := by
  rw [nodes, ← hs] at hn
  exact exists_emitWith_of_mem_nodes h hn

/-! ## What emission asks of a node -/

/-- An aggregate is emitted only over groups, and not inside another. -/
theorem grouped_of_isAggregate (h : emitWith Γ onKey s e = .ok f) (he : e.isAggregate = true) :
    s.grouping.isSome = true ∧ s.inAggregate = false := by
  cases e with
  | countRows => exact Scope.allowAggregate_eq_ok.1 (emitWith_countRows_eq_ok.1 h).1
  | aggregate fn e => exact Scope.allowAggregate_eq_ok.1 (emitWith_aggregate_eq_ok.1 h).1
  | _ => cases he

/-- A column is one of an entity that takes part, and is declared there. -/
theorem declared_of_emit (h : e.emit Γ s = .ok f) (hs : s.inAggregate = false) (hn : n ∈ e.nodes)
    {owner : EntityId} {property : Bytes} (hcolumn : n.expr = .column owner property) :
    owner ∈ s.visible ∧ ∃ p ∈ (Γ owner).properties, p.name = property := by
  obtain ⟨g, hg⟩ := exists_emit_of_mem_nodes h hs hn
  rw [hcolumn] at hg
  obtain ⟨-, name, hname, -⟩ := Scope.column_eq_ok.1 hg
  obtain ⟨hvisible, p, hp, -⟩ := Scope.resolve_eq_ok.1 hname
  exact ⟨hvisible, p, List.mem_of_find?_eq_some hp, by simpa using List.find?_some hp⟩

/-- What is emitted outside groups is about rows. -/
theorem isRowwise_of_emit (h : e.emit Γ s = .ok f) (hs : s.inAggregate = false)
    (hgrouping : s.grouping = none) : e.IsRowwise := by
  intro n hn
  obtain ⟨g, hg⟩ := exists_emit_of_mem_nodes h hs hn
  constructor
  · by_contra haggregate
    obtain ⟨hsome, -⟩ := grouped_of_isAggregate hg (by simpa using haggregate)
    simp [hgrouping] at hsome
  · cases hexpr : n.expr with
    | key index =>
      rw [hexpr] at hg
      obtain ⟨k, -, hk, -⟩ := emitKey_eq_ok.1 hg
      rw [Scope.keyMember] at hk
      simp [hgrouping] at hk
    | _ => rfl

/-- What is emitted over groups is about groups with the keys of the scope. -/
theorem isGroupwise_of_emit {keys : List Expr} (h : e.emit Γ s = .ok f)
    (hs : s.inAggregate = false) (hgrouping : s.grouping = some keys) : e.IsGroupwise keys := by
  constructor
  -- each part is the guard of the emission of one kind of node
  case flat =>
    intro n hn hinside
    obtain ⟨g, hg⟩ := exists_emit_of_mem_nodes h hs hn
    by_contra haggregate
    obtain ⟨-, houtside⟩ := grouped_of_isAggregate hg (by simpa using haggregate)
    simp [hinside] at houtside
  case member =>
    intro n hn i hkey
    obtain ⟨g, hg⟩ := exists_emit_of_mem_nodes h hs hn
    rw [hkey] at hg
    obtain ⟨k, -, hk, -⟩ := emitKey_eq_ok.1 hg
    obtain ⟨keys', hkeys', hi⟩ := Scope.keyMember_some_eq_ok.1 hk
    obtain rfl : keys = keys' := Option.some.inj (hgrouping.symm.trans hkeys')
    exact (List.getElem?_eq_some_iff.1 hi).1
  case whole =>
    intro n hn hkey
    obtain ⟨g, hg⟩ := exists_emit_of_mem_nodes h hs hn
    rw [hkey] at hg
    obtain ⟨k, -, hk, -⟩ := emitKey_eq_ok.1 hg
    obtain rfl : keys = [k] :=
      Option.some.inj (hgrouping.symm.trans (Scope.keyMember_none_eq_ok.1 hk))
    rfl
  case columns =>
    intro n hn houtside owner property hcolumn
    obtain ⟨g, hg⟩ := exists_emit_of_mem_nodes h hs hn
    rw [hcolumn] at hg
    obtain ⟨hkey, -⟩ := Scope.column_eq_ok.1 hg
    have hwants : Scope.wantsKey { s with inAggregate := n.inAggregate } = true := by
      simp [Scope.wantsKey, hgrouping, houtside]
    rw [hwants, Bool.true_and, Bool.not_eq_false'] at hkey
    simpa [hgrouping] using Scope.hasKey_iff.1 hkey

/-- The columns that are met on a walk are those among the nodes. -/
theorem columns_references (e : Expr) (b : Bool) :
    e.references.columns = (e.nodesFrom b).filterMap (·.expr.columnRef?) := by
  induction e generalizing b with
  | column | literal | countRows | key | raw => rfl
  | arith op l r ihl ihr | logic op l r ihl ihr | compare op l r ihl ihr =>
    rw [nodesFrom, List.filterMap_cons_none rfl, List.filterMap_append, ← ihl b, ← ihr b]
    rfl
  | aggregate fn e ih =>
    rw [nodesFrom, List.filterMap_cons_none rfl, ← ih true]
    rfl
  | call fn e ih | truth e ih | nullCheck negated e ih | not e ih | like e text anchor ih
  | oneOf e items ih =>
    rw [nodesFrom, List.filterMap_cons_none rfl, ← ih b]
    rfl

/-- The reference of a column names its owner and its property. -/
theorem columnRef?_eq_some {c : ColumnRef} :
    e.columnRef? = some c ↔ e = .column c.owner c.property := by
  cases e with
  | column owner property =>
    obtain ⟨o, p⟩ := c
    simp [columnRef?]
  | _ => simp [columnRef?]

/-- An expression refers to the columns among its nodes. -/
theorem mem_references_iff {c : ColumnRef} :
    c ∈ e.references.columns ↔ ∃ n ∈ e.nodes, n.expr = .column c.owner c.property := by
  rw [columns_references e false, List.mem_filterMap]
  simp only [columnRef?_eq_some, nodes]

end Expr

/-! ## Clauses -/

namespace Query

variable {Γ : Catalog} {q : Query}

/-- The expressions of the clauses that see single rows: join keys, filters, group keys. -/
def rowExprs (q : Query) : List Expr :=
  (match q.join with
    | none => []
    | some j => [j.outerKey, j.innerKey]) ++ q.filters ++ q.keys

/-- The expressions of the clauses that see groups where there are any: projection, group filters,
order. -/
def groupExprs (q : Query) : List Expr :=
  q.items.map (·.value) ++ q.having ++ q.order.map (·.key)

/-- The row clauses stand together between the projection and the other clauses on groups. -/
theorem exprs_eq (q : Query) :
    q.exprs = q.items.map (·.value) ++ q.rowExprs ++ q.having ++ q.order.map (·.key) := by
  rw [exprs, rowExprs]
  cases q.join <;> simp only [List.append_assoc]

/-- The expressions on rows are the keys of the join, the conditions and the group keys. -/
theorem forall_rowExprs {P : Expr → Prop} :
    (∀ e ∈ q.rowExprs, P e) ↔
      (∀ j, q.join = some j → P j.outerKey ∧ P j.innerKey) ∧ (∀ p ∈ q.filters, P p) ∧
        ∀ k ∈ q.keys, P k := by
  rw [rowExprs, List.forall_mem_append, List.forall_mem_append, and_assoc]
  cases q.join <;> simp

/-- Those on groups are the values of the projection, the conditions and the keys of the
ordering. -/
theorem forall_groupExprs {P : Expr → Prop} :
    (∀ e ∈ q.groupExprs, P e) ↔
      (∀ i ∈ q.items, P i.value) ∧ (∀ p ∈ q.having, P p) ∧ ∀ t ∈ q.order, P t.key := by
  rw [groupExprs, List.forall_mem_append, List.forall_mem_append, List.forall_mem_map,
    List.forall_mem_map, and_assoc]

theorem mem_exprs {e : Expr} : e ∈ q.exprs ↔ e ∈ q.rowExprs ∨ e ∈ q.groupExprs := by
  simp only [exprs_eq, groupExprs, List.mem_append]
  tauto

/-- **A query is well formed**: what each of its expressions may refer to fits the clause it stands
in. -/
structure WellFormed (Γ : Catalog) (q : Query) : Prop where
  /-- a column is one of the source or the joined entity, and declared there -/
  columns : ∀ e ∈ q.exprs, ∀ n ∈ e.nodes, ∀ owner property, n.expr = .column owner property →
    (owner = q.source ∨ ∃ j, q.join = some j ∧ owner = j.inner) ∧
    ∃ p ∈ (Γ owner).properties, p.name = property
  /-- the outer key of a join is one of the source -/
  outerKey : ∀ j, q.join = some j → j.outerKey.IsKeyOf q.source
  /-- the inner key of a join is one of the joined entity -/
  innerKey : ∀ j, q.join = some j → j.innerKey.IsKeyOf j.inner
  /-- filters, join keys and group keys are about rows -/
  rows : ∀ e ∈ q.rowExprs, e.IsRowwise
  /-- without groups all clauses are about rows, and no predicate is on groups -/
  ungrouped : q.isGrouped = false → q.having = [] ∧ ∀ e ∈ q.exprs, e.IsRowwise
  /-- with groups the projection, the predicates on groups and the order are about these -/
  grouped : q.isGrouped = true → ∀ e ∈ q.groupExprs, e.IsGroupwise q.keys

/-! ### Every expression of a clause is emitted -/

/-- Predicates are emitted together only where each of them is. -/
theorem exists_emit_of_mem_emitAll {s : Scope} {ps : List Expr} {f : Fragment} {e : Expr}
    (h : emitAll Γ s ps = .ok f) (he : e ∈ ps) : ∃ g, e.emit Γ s = .ok g := by
  obtain ⟨fs, hfs, -⟩ := emitAll_eq_ok.1 h
  exact hfs.exists_of_mem he

/-- The clauses on rows are emitted outside groups. -/
theorem Translates.rowExprs (h : q.Translates Γ) {e : Expr} (he : e ∈ q.rowExprs) :
    ∃ f, e.emit Γ q.scope = .ok f := by
  obtain ⟨f, hf⟩ := h
  obtain ⟨-, rows, keys, -, -, -, hrows, hkeys, -⟩ := emit_eq_ok.1 hf
  obtain ⟨_, _, hfrom, hwhere, -⟩ := emitRows_eq_ok.1 hrows
  suffices hall : ∀ e ∈ q.rowExprs, ∃ f, e.emit Γ q.scope = .ok f from hall e he
  -- the keys of the join, the conditions and the group keys, each from its clause
  refine forall_rowExprs.2 ⟨?_, ?_, ?_⟩
  · intro j hj
    rcases emitFrom_eq_ok.1 hfrom with ⟨hnone, -⟩ | ⟨j', a, b, hj', ha, hb, -⟩
    · exact nomatch hnone.symm.trans hj
    obtain rfl : j = j' := Option.some.inj (hj.symm.trans hj')
    obtain ⟨a', ha', -⟩ := Expr.emitOperand_eq_ok.1 ha
    obtain ⟨b', hb', -⟩ := Expr.emitOperand_eq_ok.1 hb
    exact ⟨⟨a', ha'⟩, ⟨b', hb'⟩⟩
  · intro p hp
    rcases emitWhere_eq_ok.1 hwhere with ⟨hnil, -⟩ | ⟨-, a, ha, -⟩
    · simp [hnil] at hp
    · exact exists_emit_of_mem_emitAll ha hp
  · intro k hk
    rcases emitKeys_eq_ok.1 hkeys with ⟨hungrouped, -⟩ | ⟨-, fs, hfs, -⟩
    · simp [isGrouped, List.isEmpty_iff] at hungrouped
      simp [hungrouped] at hk
    · exact hfs.exists_of_mem hk

/-- The clauses on groups are emitted over the groups, where there are any. -/
theorem Translates.groupExprs (h : q.Translates Γ) (hvalid : q.isGrouped = false → q.having = [])
    {e : Expr} (he : e ∈ q.groupExprs) : ∃ f, e.emit Γ q.groupScope = .ok f := by
  obtain ⟨f, hf⟩ := h
  obtain ⟨columns, -, -, having, order, hcolumns, -, -, hhaving, horder, -⟩ := emit_eq_ok.1 hf
  suffices hall : ∀ e ∈ q.groupExprs, ∃ f, e.emit Γ q.groupScope = .ok f from hall e he
  -- the columns, the conditions and the ordering; conditions are emitted only where there are
  -- groups
  refine forall_groupExprs.2 ⟨?_, ?_, ?_⟩
  · intro i hi
    rcases emitColumns_eq_ok.1 hcolumns with ⟨-, fs, hfs, -⟩ | ⟨hnone, -⟩ | ⟨hnone, -⟩
    · obtain ⟨g, hg⟩ := hfs.exists_of_mem hi
      obtain ⟨a, ha, -⟩ := emitItem_eq_ok.1 hg
      obtain ⟨b, hb, -⟩ := Expr.emitOperand_eq_ok.1 ha
      exact ⟨b, hb⟩
    · simp [isProjected, List.isEmpty_iff] at hnone
      simp [hnone] at hi
    · simp [isProjected, List.isEmpty_iff] at hnone
      simp [hnone] at hi
  · intro p hp
    rcases emitHaving_eq_ok.1 hhaving with ⟨hnone, -⟩ | ⟨-, -, a, ha, -⟩
    · have hnil : q.having = [] := hnone.elim hvalid id
      simp [hnil] at hp
    · exact exists_emit_of_mem_emitAll ha hp
  · intro t ht
    rcases emitOrder_eq_ok.1 horder with ⟨hnil, -⟩ | ⟨-, fs, hfs, -⟩
    · simp [hnil] at ht
    · obtain ⟨g, hg⟩ := hfs.exists_of_mem ht
      obtain ⟨a, ha, -⟩ := emitTerm_eq_ok.1 hg
      exact ⟨a, ha⟩

/-- In a valid query all expressions on groups are emitted in the scope of the groups. -/
theorem Valid.groupExprs (h : q.Valid Γ) {e : Expr} (he : e ∈ q.groupExprs) :
    ∃ f, e.emit Γ q.groupScope = .ok f :=
  h.translates.groupExprs h.having he

/-- Both scopes of a query let in its source and the entity it is joined with. -/
theorem mem_visible_iff {owner : EntityId} :
    owner ∈ q.scope.visible ↔ owner = q.source ∨ ∃ j, q.join = some j ∧ owner = j.inner := by
  rw [scope, List.mem_cons, Option.mem_toList, Option.map_eq_some_iff]
  simp only [eq_comm (a := owner)]

/-- A key that passed its check refers to its own side. -/
theorem isKeyOf_of_checkJoinKey {side : JoinSide} {e : Expr} {owner : EntityId}
    (h : checkJoinKey Γ side e owner = .ok ()) : e.IsKeyOf owner := by
  obtain ⟨hnonempty, -, howned⟩ := checkJoinKey_eq_ok.1 h
  constructor
  case nonempty =>
    obtain ⟨c, hc⟩ := List.exists_mem_of_ne_nil _ hnonempty
    obtain ⟨n, hn, hcolumn⟩ := Expr.mem_references_iff.1 hc
    exact ⟨n, hn, c.property, by rw [hcolumn, howned c hc]⟩
  case owned =>
    intro n hn o property hcolumn
    exact howned ⟨o, property⟩ (Expr.mem_references_iff.2 ⟨n, hn, hcolumn⟩)

/-- **Every reachable query is well formed.** By `Reachable.valid` each of its expressions is
emitted in the scope of its clause, the keys of its join have passed their check, and groups are
filtered only where there are groups; what emission and the check refuse is what well-formedness
excludes. -/
theorem Reachable.wellFormed (h : q.Reachable {Γ}) : q.WellFormed Γ := by
  have hvalid := h.valid
  -- a valid query has each of its expressions emitted in the scope of its clause, and emission
  -- fails where well-formedness would
  have hrows : ∀ e ∈ q.rowExprs, ∃ f, e.emit Γ q.scope = .ok f := fun e he =>
    hvalid.translates.rowExprs he
  have hgroups : ∀ e ∈ q.groupExprs, ∃ f, e.emit Γ q.groupScope = .ok f := fun e he =>
    hvalid.groupExprs he
  have hrowwise : ∀ e ∈ q.rowExprs, e.IsRowwise := by
    intro e he
    obtain ⟨f, hf⟩ := hrows e he
    exact Expr.isRowwise_of_emit hf rfl rfl
  constructor
  case columns =>
    intro e he n hn owner property hcolumn
    rw [← mem_visible_iff]
    rcases mem_exprs.1 he with he | he
    · obtain ⟨f, hf⟩ := hrows e he
      exact Expr.declared_of_emit hf rfl hn hcolumn
    · obtain ⟨f, hf⟩ := hgroups e he
      exact Expr.declared_of_emit hf rfl hn hcolumn
  case outerKey =>
    intro j hj
    exact isKeyOf_of_checkJoinKey (hvalid.joinKeys j hj).1
  case innerKey =>
    intro j hj
    exact isKeyOf_of_checkJoinKey (hvalid.joinKeys j hj).2
  case rows => exact hrowwise
  case ungrouped =>
    intro hungrouped
    refine ⟨hvalid.having hungrouped, ?_⟩
    intro e he
    rcases mem_exprs.1 he with he | he
    · exact hrowwise e he
    · obtain ⟨f, hf⟩ := hgroups e he
      exact Expr.isRowwise_of_emit hf rfl (by simp [groupScope, hungrouped])
  case grouped =>
    intro hgrouped e he
    obtain ⟨f, hf⟩ := hgroups e he
    exact Expr.isGroupwise_of_emit hf rfl (by simp [groupScope, hgrouped])

/-- The report has all clauses, a join and a key among them. -/
theorem wellFormed_cityReport : cityReport.WellFormed shop := reachable_cityReport.wellFormed

end Query

end SqlPlan
