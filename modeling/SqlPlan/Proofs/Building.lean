import SqlPlan.Plan
import SqlPlan.Proofs.Outcome

/-!
# What a building call does

One lemma for each building function, which says everything the call can do: its guards, the query
it gives, and that this query can be emitted. Later proofs take a successful call apart with these
lemmas and do not look into the functions again.
-/

namespace SqlPlan

namespace Query

variable {Γ : Catalog} {q q' : Query}

/-- The query can be emitted. -/
def Translates (Γ : Catalog) (q : Query) : Prop := ∃ f, q.emit Γ = .ok f

/-- Validation gives the query back unchanged, if it can be emitted. -/
theorem validated_eq_ok : q.validated Γ = .ok q' ↔ q' = q ∧ q.Translates Γ := by
  rw [validated, Except.bind_eq_ok]
  constructor
  · rintro ⟨f, hf, h⟩
    exact ⟨Except.pure_eq_ok.1 h, f, hf⟩
  · rintro ⟨rfl, f, hf⟩
    exact ⟨f, hf, rfl⟩

/-! ## The builders as guarded updates -/

/-- A filter asks about groups first and about the window second, and validates last. -/
theorem filter_eq (p : Expr) :
    q.filter Γ p =
      if q.isGrouped then .error .filterAfterGrouping
      else if q.paging.isPaged then .error (.filterAfterPaging .filter)
      else validated { q with filters := q.filters ++ [p.toPredicate] } Γ := by
  unfold filter
  split
  · rfl
  · split <;> rfl

/-- An ordering is refused only behind a window. -/
theorem orderBy_eq (key : Expr) (descending : Bool) :
    q.orderBy Γ key descending =
      if q.paging.isPaged then .error (.orderAfterPaging .orderBy)
      else validated { q with order := [⟨key, descending⟩] } Γ := by
  unfold orderBy
  split <;> rfl

/-- A further ordering asks first whether there is one to go on from. -/
theorem thenBy_eq (key : Expr) (descending : Bool) :
    q.thenBy Γ key descending =
      if q.order.isEmpty then .error .thenWithoutOrder
      else if q.paging.isPaged then .error (.orderAfterPaging .thenBy)
      else validated { q with order := q.order ++ [⟨key, descending⟩] } Γ := by
  unfold thenBy
  split
  · rfl
  · split <;> rfl

/-- A projection asks about its own columns and about one made before. -/
theorem select_eq (items : List Item) :
    q.select Γ items =
      if items.isEmpty then .error .emptyProjection
      else if q.isProjected then .error .alreadyProjected
      else checkItems [] items >>= fun _ => validated { q with items := items } Γ := by
  unfold select
  split
  · rfl
  · split <;> rfl

/-- A join has three guards and two checks of its keys, the outer one first. -/
theorem joinWith_eq (kind : JoinKind) (inner : EntityId) (outerKey innerKey : Expr) :
    q.joinWith Γ kind inner outerKey innerKey =
      if q.join.isSome then .error .secondJoin
      else if q.isGrouped || q.isProjected then .error .lateJoin
      else if inner == q.source then .error (.selfJoin (Γ inner).table)
      else checkJoinKey Γ .outer outerKey q.source >>= fun _ =>
        checkJoinKey Γ .inner innerKey inner >>= fun _ =>
          validated { q with join := some ⟨kind, inner, outerKey, innerKey⟩ } Γ := by
  unfold joinWith
  split
  · rfl
  · split
    · rfl
    · split <;> rfl

/-- Grouping has four guards, and then its keys are checked. -/
theorem groupBy_eq (keys : List Expr) :
    q.groupBy Γ keys =
      if keys.isEmpty then .error .emptyGrouping
      else if q.isGrouped then .error .alreadyGrouped
      else if q.isProjected then .error .groupingAfterProjection
      else if q.isOrderedOrPaged || q.distinct then .error .lateGrouping
      else keys.forM checkKey >>= fun _ => validated { q with keys := keys } Γ := by
  unfold groupBy
  split
  · rfl
  · split
    · rfl
    · split
      · rfl
      · split <;> rfl

/-- A condition on groups is refused where there are none. -/
theorem filterGroups_eq (p : Expr) :
    q.filterGroups Γ p =
      if !q.isGrouped then .error .havingWithoutGrouping
      else if q.paging.isPaged then .error (.filterAfterPaging .having)
      else validated { q with having := q.having ++ [p.toPredicate] } Γ := by
  unfold filterGroups
  split
  · rfl
  · split <;> rfl

/-! ## When a call succeeds, and with what -/

/-- A filter is added where there are no groups and no window, behind those that are there. -/
theorem filter_eq_ok {p : Expr} :
    q.filter Γ p = .ok q' ↔
      q.isGrouped = false ∧ q.paging.isPaged = false ∧
      q' = { q with filters := q.filters ++ [p.toPredicate] } ∧ q'.Translates Γ := by
  rw [filter_eq, Except.guard_eq_ok, Except.guard_eq_ok, validated_eq_ok]
  grind

/-- An ordering is made where there is no window, in place of the one before. -/
theorem orderBy_eq_ok {key : Expr} {descending : Bool} :
    q.orderBy Γ key descending = .ok q' ↔
      q.paging.isPaged = false ∧
      q' = { q with order := [⟨key, descending⟩] } ∧ q'.Translates Γ := by
  rw [orderBy_eq, Except.guard_eq_ok, validated_eq_ok]
  grind

/-- A further ordering comes behind those that are there, of which there must be one. -/
theorem thenBy_eq_ok {key : Expr} {descending : Bool} :
    q.thenBy Γ key descending = .ok q' ↔
      q.order.isEmpty = false ∧ q.paging.isPaged = false ∧
      q' = { q with order := q.order ++ [⟨key, descending⟩] } ∧ q'.Translates Γ := by
  rw [thenBy_eq, Except.guard_eq_ok, Except.guard_eq_ok, validated_eq_ok]
  grind

/-- A limit changes the window only, so nothing is emitted to check it. -/
theorem take_eq_ok {n : Int} :
    q.take n = .ok q' ↔ ∃ w, q.paging.take n = .ok w ∧ q' = { q with paging := w } := by
  rw [take, Except.bind_pure_eq_ok]

theorem skip_eq_ok {n : Int} :
    q.skip n = .ok q' ↔ ∃ w, q.paging.skip n = .ok w ∧ q' = { q with paging := w } := by
  rw [skip, Except.bind_pure_eq_ok]

/-- A projection is made once, with columns that have names and do not repeat. -/
theorem select_eq_ok {items : List Item} :
    q.select Γ items = .ok q' ↔
      items.isEmpty = false ∧ q.isProjected = false ∧ checkItems [] items = .ok () ∧
      q' = { q with items := items } ∧ q'.Translates Γ := by
  rw [select_eq, Except.guard_eq_ok, Except.guard_eq_ok, Except.bind_eq_ok]
  simp only [validated_eq_ok]
  grind

/-- A join is made once, with another entity, before grouping and projection. -/
theorem joinWith_eq_ok {kind : JoinKind} {inner : EntityId} {outerKey innerKey : Expr} :
    q.joinWith Γ kind inner outerKey innerKey = .ok q' ↔
      q.join = none ∧ q.isGrouped = false ∧ q.isProjected = false ∧ inner ≠ q.source ∧
      checkJoinKey Γ .outer outerKey q.source = .ok () ∧
      checkJoinKey Γ .inner innerKey inner = .ok () ∧
      q' = { q with join := some ⟨kind, inner, outerKey, innerKey⟩ } ∧ q'.Translates Γ := by
  rw [joinWith_eq, Except.guard_eq_ok, Except.guard_eq_ok, Except.guard_eq_ok,
    Except.bind_eq_ok]
  simp only [Except.bind_eq_ok, validated_eq_ok, Option.isSome_iff_ne_none, beq_iff_eq,
    Bool.or_eq_true]
  grind

/-- A key of a join refers to a column, calls no aggregate, and refers to its own side only. -/
theorem checkJoinKey_eq_ok {side : JoinSide} {key : Expr} {owner : EntityId} :
    checkJoinKey Γ side key owner = .ok () ↔
      key.references.columns ≠ [] ∧ key.references.aggregates = false ∧
      ∀ c ∈ key.references.columns, c.owner = owner := by
  rw [checkJoinKey, Except.guard_eq_ok, Except.guard_eq_ok, List.isEmpty_iff, Bool.not_eq_true]
  cases hfind : key.references.columns.find? (·.owner != owner) with
  | none =>
    have howned : ∀ c ∈ key.references.columns, c.owner = owner := by simpa using hfind
    simp only [and_true, iff_true_intro howned]
  | some c =>
    have hc : c.owner ≠ owner := by simpa using List.find?_some hfind
    simp only [reduceCtorEq, and_false, false_iff, not_and, not_forall]
    exact fun _ _ => ⟨c, List.mem_of_find?_eq_some hfind, hc⟩

/-- Grouping is done once, and before everything but filters and a join. -/
theorem groupBy_eq_ok {keys : List Expr} :
    q.groupBy Γ keys = .ok q' ↔
      keys.isEmpty = false ∧ q.isGrouped = false ∧ q.isProjected = false ∧
      q.isOrderedOrPaged = false ∧ q.distinct = false ∧ keys.forM checkKey = .ok () ∧
      q' = { q with keys := keys } ∧ q'.Translates Γ := by
  rw [groupBy_eq, Except.guard_eq_ok, Except.guard_eq_ok, Except.guard_eq_ok,
    Except.guard_eq_ok, Except.bind_eq_ok]
  simp only [validated_eq_ok, Bool.or_eq_true]
  grind

/-- A condition on groups is added where there are groups and no window. -/
theorem filterGroups_eq_ok {p : Expr} :
    q.filterGroups Γ p = .ok q' ↔
      q.isGrouped = true ∧ q.paging.isPaged = false ∧
      q' = { q with having := q.having ++ [p.toPredicate] } ∧ q'.Translates Γ := by
  rw [filterGroups_eq, Except.guard_eq_ok, Except.guard_eq_ok, validated_eq_ok]
  grind

end Query

end SqlPlan
