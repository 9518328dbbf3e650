import SqlPlan.Proofs.DerivedStatements
import SqlPlan.Proofs.GrowingDeclarations
import SqlPlan.Proofs.Lexemes

/-!
# What a walk meets is what is written

Joins and groups are checked by a walk over the expression, which does not look at what is emitted.
`Shows` says that the two agree: of the lexemes that a fragment is written from, the columns are
those that the walk met, and an aggregate is among them if it met one. `references_shown` says so
of every expression and every query that is emitted without references to group keys, and
concludes what the check of join keys is for: in the ON clause of a join each side is written with
columns of its own entity only.
-/

namespace SqlPlan

/-- **A fragment shows what a walk met.** -/
structure Shows (Γ : Catalog) (s : Scope) (ts : List Lexeme) (f : Fragment) (refs : References) :
    Prop where
  /-- the fragment is written from the lexemes -/
  written : f = Lexeme.written Γ s ts
  /-- no lexeme stands for a group key, which would be written with columns of its own -/
  keyless : ts.filterMap Lexeme.key? = []
  /-- the columns that were met are those of the lexemes, in order and with repetitions -/
  columns : refs.columns = ts.filterMap Lexeme.column?
  /-- each of them is resolved to the name it is written with -/
  resolved : ∀ c ∈ refs.columns, s.resolve Γ c.owner c.property = .ok (s.nameOf Γ c)
  /-- an aggregate was met where a lexeme is the name of one -/
  aggregates : refs.aggregates = true ↔ ts.filterMap Lexeme.aggregate? ≠ []

/-! ## Expressions -/

namespace Expr

variable {Γ : Catalog} {s : Scope} {e : Expr} {f : Fragment}

/-- A walk meets an aggregate where a node is one. -/
theorem aggregates_references (e : Expr) (b : Bool) :
    e.references.aggregates = (e.nodesFrom b).any (·.expr.isAggregate) := by
  induction e generalizing b with
  | column | literal | countRows | key | raw => rfl
  | arith op l r ihl ihr | logic op l r ihl ihr | compare op l r ihl ihr =>
    rw [nodesFrom, List.any_cons, List.any_append, ← ihl b, ← ihr b]
    rfl
  | aggregate fn e ih => rfl
  | call fn e ih | truth e ih | nullCheck negated e ih | not e ih | like e text anchor ih
  | oneOf e items ih =>
    rw [nodesFrom, List.any_cons, ← ih b]
    rfl

/-- A walk meets an aggregate where the name of one is written. -/
theorem aggregates_iff_lexemes (e : Expr) :
    e.references.aggregates = true ↔ e.lexemes.filterMap Lexeme.aggregate? ≠ [] := by
  have hnode : ∀ e : Expr, e.isAggregate = (e.lexeme?.bind Lexeme.aggregate?).isSome := by
    intro e
    cases e <;> rfl
  rw [aggregates_references e false, filterMap_lexemes (fun _ => rfl) e false, List.any_eq_true,
    ne_eq, List.filterMap_eq_nil_iff]
  simp only [hnode, Option.isSome_iff_ne_none]
  push Not
  rfl

/-- A column that is met in an expression is resolved when the expression is emitted. -/
theorem resolve_of_mem_references (h : e.emit Γ s = .ok f) {c : ColumnRef}
    (hc : c ∈ e.references.columns) : s.resolve Γ c.owner c.property = .ok (s.nameOf Γ c) := by
  rw [columns_references e s.inAggregate, List.mem_filterMap] at hc
  obtain ⟨n, hn, hcolumn⟩ := hc
  obtain ⟨g, hg⟩ := exists_emitWith_of_mem_nodes h hn
  rw [columnRef?_eq_some.1 hcolumn] at hg
  obtain ⟨-, name, hname, -⟩ := Scope.column_eq_ok.1 hg
  have hresolve : s.resolve Γ c.owner c.property = .ok name := hname
  rw [Scope.nameOf, hresolve]
  rfl

/-- **An expression without references to group keys shows its columns and aggregates**, in every
scope it can be emitted in. -/
theorem shows_emit (hkeyless : e.IsKeyless) (h : e.emit Γ s = .ok f) :
    Shows Γ s e.lexemes f e.references where
  written := emit_eq_written h
  keyless := hkeyless.filterMap_key?
  columns := (filterMap_column?_lexemes e).symm
  resolved _ := resolve_of_mem_references h
  aggregates := aggregates_iff_lexemes e

theorem shows_emitOperand (hkeyless : e.IsKeyless) (h : e.emitOperand Γ s = .ok f) :
    Shows Γ s e.operandLexemes f e.references := by
  obtain ⟨a, ha, -⟩ := emitOperand_eq_ok.1 h
  have hshows := shows_emit hkeyless ha
  constructor
  case written => exact emitOperand_eq_written h
  case keyless => exact (filterMap_operandLexemes (fun _ => rfl) e).trans hshows.keyless
  case columns => exact hshows.columns.trans (filterMap_operandLexemes (fun _ => rfl) e).symm
  case resolved => exact hshows.resolved
  case aggregates =>
    rw [filterMap_operandLexemes (fun _ => rfl)]
    exact hshows.aggregates

end Expr

/-! ## Queries -/

namespace References

theorem columns_concat (rs : List References) :
    (concat rs).columns = rs.flatMap References.columns := by
  have hfold : ∀ r : References,
      (rs.foldl (· ++ ·) r).columns = r.columns ++ rs.flatMap References.columns := by
    induction rs with
    | nil => simp
    | cons r' rs ih =>
      intro r
      rw [List.foldl_cons, ih, List.flatMap_cons, ← List.append_assoc]
      rfl
  exact hfold {}

theorem aggregates_concat (rs : List References) :
    (concat rs).aggregates = rs.any References.aggregates := by
  have hfold : ∀ r : References,
      (rs.foldl (· ++ ·) r).aggregates = (r.aggregates || rs.any References.aggregates) := by
    induction rs with
    | nil => simp
    | cons r' rs ih =>
      intro r
      rw [List.foldl_cons, ih, List.any_cons, ← Bool.or_assoc]
      rfl
  exact hfold {}

end References

namespace Query

variable {Γ : Catalog} {q q' : Query} {f : Fragment}

/-- The walk over a query is that over its expressions, one after the other. -/
theorem references_eq (q : Query) : q.references = .concat (q.exprs.map Expr.references) := by
  rw [references, exprs]
  cases q.join
  all_goals
    simp only [List.map_append, List.map_map, List.map_cons, List.map_nil]
    rfl

section

variable (hvalid : q.isGrouped = false → q.having = [])
  (hprojected : q.isGrouped = false ∨ q.isProjected = true)
include hvalid hprojected

/-- Where the group keys do not stand in for a projection, every expression is written once. -/
theorem filterMap_lexemes_exprs {β : Type} {g : Lexeme → Option β}
    (hpiece : ∀ p, g (.piece p) = none)
    (htable : ∀ before id after, g (.table before id after) = none) :
    q.lexemes.filterMap g = q.exprs.flatMap fun e => e.lexemes.filterMap g := by
  have hnone : (if q.isProjected then [] else q.keys) = [] := by
    rcases hprojected with hungrouped | hprojected
    · have hkeys : q.keys = [] := by simpa [isGrouped] using hungrouped
      rw [hkeys, ite_self]
    · rw [if_pos hprojected]
  rw [filterMap_lexemes hpiece htable hvalid, hnone, List.nil_append]

/-- **A query without references to group keys shows its columns and aggregates**, if it is not one
of bare groups. -/
theorem shows_emit (hkeyless : ∀ e ∈ q.exprs, e.IsKeyless) (h : q.emit Γ = .ok f) :
    Shows Γ q.groupScope q.lexemes f q.references := by
  have hlexemes : ∀ {β : Type} {g : Lexeme → Option β}, (∀ p, g (.piece p) = none) →
      (∀ before id after, g (.table before id after) = none) →
      q.lexemes.filterMap g = q.exprs.flatMap fun e => e.lexemes.filterMap g :=
    filterMap_lexemes_exprs hvalid hprojected
  constructor
  case written => exact emit_eq_written h
  case keyless =>
    rw [hlexemes (fun _ => rfl) (fun _ _ _ => rfl), List.flatMap_eq_nil_iff]
    exact fun e he => (hkeyless e he).filterMap_key?
  case columns =>
    rw [hlexemes (fun _ => rfl) (fun _ _ _ => rfl), references_eq, References.columns_concat,
      List.flatMap_map]
    simp only [Expr.filterMap_column?_lexemes]
  -- a column is met in some expression, which is emitted on its own in the scope of its clause
  case resolved =>
    intro c hc
    rw [references_eq, References.columns_concat, List.flatMap_map, List.mem_flatMap] at hc
    obtain ⟨e, he, hc⟩ := hc
    have htranslates : q.Translates Γ := ⟨f, h⟩
    rcases mem_exprs.1 he with he | he
    · obtain ⟨a, ha⟩ := htranslates.rowExprs he
      exact Expr.resolve_of_mem_references ha hc
    · obtain ⟨a, ha⟩ := htranslates.groupExprs hvalid he
      exact Expr.resolve_of_mem_references ha hc
  case aggregates =>
    rw [hlexemes (fun _ => rfl) (fun _ _ _ => rfl), references_eq, References.aggregates_concat,
      List.any_map, List.any_eq_true, ne_eq, List.flatMap_eq_nil_iff]
    push Not
    simp only [Function.comp_apply, Expr.aggregates_iff_lexemes]

end

/-- In the ON clause each side is written with columns of its own entity. -/
structure JoinsOwnColumns (Γ : Catalog) (q : Query) (j : Join) (a b : Fragment) : Prop where
  /-- the two sides stand in the FROM clause -/
  clause : q.emitFrom Γ = .ok (Fragment.ofText (ascii "FROM " ++ (Γ q.source).table) ++
    Fragment.ofText (ascii " " ++ j.kind.text ++ ascii " " ++ (Γ j.inner).table ++ ascii " ON ") ++
    a ++ Fragment.word " = " ++ b)
  /-- the outer side shows what the walk over the outer key met -/
  outerKey : Shows Γ q.scope j.outerKey.operandLexemes a j.outerKey.references
  /-- the inner side shows what the walk over the inner key met -/
  innerKey : Shows Γ q.scope j.innerKey.operandLexemes b j.innerKey.references
  /-- the columns of the outer side are the source's -/
  outerOwned : ∀ c ∈ j.outerKey.operandLexemes.filterMap Lexeme.column?, c.owner = q.source
  /-- the columns of the inner side are the joined entity's -/
  innerOwned : ∀ c ∈ j.innerKey.operandLexemes.filterMap Lexeme.column?, c.owner = j.inner

/-- **A join whose keys have passed their checks is written with columns of the two sides**, each
where its key is. -/
theorem joinsOwnColumns {j : Join} (h : q.Translates Γ) (hj : q.join = some j)
    (houter : checkJoinKey Γ .outer j.outerKey q.source = .ok ())
    (hinner : checkJoinKey Γ .inner j.innerKey j.inner = .ok ()) :
    ∃ a b, q.JoinsOwnColumns Γ j a b := by
  obtain ⟨f, hf⟩ := h
  obtain ⟨-, rows, -, -, -, -, hrows, -⟩ := emit_eq_ok.1 hf
  obtain ⟨_, _, hfrom, -⟩ := emitRows_eq_ok.1 hrows
  rcases emitFrom_eq_ok.1 hfrom with ⟨hnone, -⟩ | ⟨j', a, b, hj', ha, hb, rfl⟩
  · exact nomatch hnone.symm.trans hj
  obtain rfl : j = j' := Option.some.inj (hj.symm.trans hj')
  have hkeyless : ∀ {e : Expr} {f : Fragment}, e.emitOperand Γ q.scope = .ok f → e.IsKeyless := by
    intro e f h
    obtain ⟨a, ha, -⟩ := Expr.emitOperand_eq_ok.1 h
    exact (Expr.isRowwise_of_emit ha rfl rfl).isKeyless
  have houterKey := Expr.shows_emitOperand (hkeyless ha) ha
  have hinnerKey := Expr.shows_emitOperand (hkeyless hb) hb
  refine ⟨a, b, hfrom, houterKey, hinnerKey, ?_, ?_⟩
  · rw [← houterKey.columns]
    exact (checkJoinKey_eq_ok.1 houter).2.2
  · rw [← hinnerKey.columns]
    exact (checkJoinKey_eq_ok.1 hinner).2.2

end Query

/-- **What a walk meets is what is written**: for expressions without references to group keys, in
every scope they are emitted in; for queries without these, unless they are bare groups; and hence
for the keys of joins, which are written with columns of their own sides, when the join is accepted
and in whatever the query becomes after it. -/
theorem references_shown :
    (∀ (Γ : Catalog) (s : Scope) (e : Expr) (f : Fragment), e.IsKeyless → e.emit Γ s = .ok f →
      Shows Γ s e.lexemes f e.references) ∧
    (∀ (C : Set Catalog) (Γ : Catalog) (q : Query), q.Reachable C → (∀ Δ ∈ C, Δ.Keeps Γ) →
      (∀ e ∈ q.exprs, e.IsKeyless) → (q.isGrouped = false ∨ q.isProjected = true) →
      ∃ f, q.emit Γ = .ok f ∧ Shows Γ q.groupScope q.lexemes f q.references) ∧
    (∀ (Γ : Catalog) (q q' : Query) (kind : JoinKind) (inner : EntityId) (outerKey innerKey : Expr),
      q.joinWith Γ kind inner outerKey innerKey = .ok q' →
      ∃ a b, q'.JoinsOwnColumns Γ ⟨kind, inner, outerKey, innerKey⟩ a b) ∧
    ∀ (C : Set Catalog) (Γ : Catalog) (q : Query) (j : Join), q.Reachable C →
      (∀ Δ ∈ C, Δ.Keeps Γ) → q.join = some j → ∃ a b, q.JoinsOwnColumns Γ j a b := by
  refine ⟨fun Γ s e f => Expr.shows_emit, ?_, ?_, ?_⟩
  · intro C Γ q h hC hkeyless hprojected
    have hvalid := (h.replay hC).valid
    obtain ⟨f, hf⟩ := hvalid.translates
    exact ⟨f, hf, Query.shows_emit hvalid.having hprojected hkeyless hf⟩
  -- joins are checked by the call, and stay as they were in all that is built on them
  · intro Γ q q' kind inner outerKey innerKey h
    obtain ⟨-, -, -, -, houter, hinner, rfl, htranslates⟩ := Query.joinWith_eq_ok.1 h
    exact Query.joinsOwnColumns htranslates rfl houter hinner
  · intro C Γ q j h hC hj
    have hvalid := (h.replay hC).valid
    obtain ⟨houter, hinner⟩ := hvalid.joinKeys j hj
    exact Query.joinsOwnColumns hvalid.translates hj houter hinner

/-- The sum of the squares of totals. -/
def totalsSquared : Expr :=
  .aggregate .sum (.arith .mul (.column 1 (ascii "Total")) (.column 1 (ascii "Total")))

open Query in
/-- The great orders with their join, and an aggregate over the groups of the report. -/
theorem references_shown_greatOrders :
    (∃ f, totalsSquared.emit shop cityReport.groupScope = .ok f ∧
      Shows shop cityReport.groupScope totalsSquared.lexemes f
        ⟨[⟨1, ascii "Total"⟩, ⟨1, ascii "Total"⟩], true⟩) ∧
    (greatOrders.Reachable {shop} ∧ ∃ f, greatOrders.emit shop = .ok f ∧
      Shows shop greatOrders.groupScope greatOrders.lexemes f greatOrders.references) ∧
    (∃ q' a b, joinWith { source := 0 } shop .inner 1 (.column 0 (ascii "Id"))
        (.column 1 (ascii "Customer")) = .ok q' ∧
      q'.JoinsOwnColumns shop ⟨.inner, 1, .column 0 (ascii "Id"), .column 1 (ascii "Customer")⟩
        a b) ∧
    ∃ j a b, greatOrders.join = some j ∧ greatOrders.JoinsOwnColumns shop j a b := by
  have hkeeps : ∀ Δ ∈ ({shop} : Set Catalog), Δ.Keeps shop := by
    rintro Δ rfl
    exact Catalog.keeps_refl shop
  obtain ⟨hexprs, hqueries, hjoins, hlater⟩ := references_shown
  obtain ⟨a, b, hjoin⟩ := hjoins shop { source := 0 } _ .inner 1 (.column 0 (ascii "Id"))
    (.column 1 (ascii "Customer")) rfl
  obtain ⟨a', b', hstays⟩ := hlater _ shop greatOrders _ reachable_greatOrders hkeeps rfl
  exact ⟨⟨_, rfl, hexprs _ _ _ _ (by decide) rfl⟩,
    ⟨reachable_greatOrders, hqueries _ _ _ reachable_greatOrders hkeeps (by decide) (.inl rfl)⟩,
    ⟨_, a, b, rfl, hjoin⟩, ⟨_, a', b', rfl, hstays⟩⟩

end SqlPlan
