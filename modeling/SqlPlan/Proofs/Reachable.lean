import Mathlib.Data.Set.Basic
import SqlPlan.Proofs.Building

/-!
# The plans that calls can build

A query is reachable when successful building calls lead to it from the bare query of an entity,
in any number and order. Declarations may change between the calls: `Query.Reachable C` lets each
call see any catalog of `C`. A set operation is reachable when its operands are and its tail was
built by ordering and paging calls.

The only thing an expression is required to be is `Expr.Checked`: whoever wrote a fragment of SQL
into it went through `Expr.raw?`. `Plan.Reachable.checked` says that this holds of every expression
in a reachable plan.
-/

namespace SqlPlan

/-! ## Expressions with fragments of the caller -/

namespace Expr

/-- The fragments of the caller in an expression, with their parameters, from left to right. -/
def raws : Expr → List (Bytes × List Value)
  | .column .. | .literal _ | .countRows | .key _ => []
  | .arith _ l r | .logic _ l r | .compare _ l r => l.raws ++ r.raws
  | .call _ e | .aggregate _ e | .truth e | .nullCheck _ e | .not e | .like e _ _
  | .oneOf e _ => e.raws
  | .raw sql params => [(sql, params)]

/-- Every fragment of the caller in the expression passed its check. -/
def Checked (e : Expr) : Prop := ∀ r ∈ e.raws, raw? r.1 r.2 = .ok (.raw r.1 r.2)

theorem checked_of_raws (e : Expr) (h : e.raws = []) : e.Checked := by
  intro r hr
  rw [h] at hr
  cases hr

/-- A fragment that passed its check has a placeholder for each parameter. -/
theorem count_of_raw? {sql : Bytes} {params : List Value} {e : Expr}
    (h : raw? sql params = .ok e) : Placeholder.count sql = params.length := by
  rw [raw?, Except.guard_eq_ok, Except.guard_eq_ok] at h
  simpa using h.2.1

@[simp] theorem raws_toPredicate (e : Expr) : e.toPredicate.raws = e.raws := by
  rw [toPredicate]
  split <;> rfl

end Expr

namespace Query

/-- The expressions of all the clauses: projection, join, filters, group keys, group filters,
order. -/
def exprs (q : Query) : List Expr :=
  q.items.map (·.value) ++
    (match q.join with
      | none => []
      | some j => [j.outerKey, j.innerKey]) ++
    q.filters ++ q.keys ++ q.having ++ q.order.map (·.key)

/-- The queries that successful building calls lead to, where each call sees a catalog of `C`. -/
inductive Reachable (C : Set Catalog) : Query → Prop where
  /-- all rows of an entity -/
  | source (id : EntityId) : Reachable C { source := id }
  /-- one more predicate on rows -/
  | filter {Γ : Catalog} {q q' : Query} {p : Expr} : Reachable C q → Γ ∈ C → p.Checked →
      q.filter Γ p = .ok q' → Reachable C q'
  /-- a new ordering -/
  | orderBy {Γ : Catalog} {q q' : Query} {key : Expr} {descending : Bool} : Reachable C q →
      Γ ∈ C → key.Checked → q.orderBy Γ key descending = .ok q' → Reachable C q'
  /-- one more term of the ordering -/
  | thenBy {Γ : Catalog} {q q' : Query} {key : Expr} {descending : Bool} : Reachable C q →
      Γ ∈ C → key.Checked → q.thenBy Γ key descending = .ok q' → Reachable C q'
  /-- at most so many rows -/
  | take {q q' : Query} {n : Int} : Reachable C q → q.take n = .ok q' → Reachable C q'
  /-- after so many rows -/
  | skip {q q' : Query} {n : Int} : Reachable C q → q.skip n = .ok q' → Reachable C q'
  /-- equal rows once -/
  | dedup {q : Query} : Reachable C q → Reachable C q.dedup
  /-- a projection -/
  | select {Γ : Catalog} {q q' : Query} {items : List Item} : Reachable C q → Γ ∈ C →
      (∀ i ∈ items, i.value.Checked) → q.select Γ items = .ok q' → Reachable C q'
  /-- a second entity -/
  | joinWith {Γ : Catalog} {q q' : Query} {kind : JoinKind} {inner : EntityId}
      {outerKey innerKey : Expr} : Reachable C q → Γ ∈ C → outerKey.Checked → innerKey.Checked →
      q.joinWith Γ kind inner outerKey innerKey = .ok q' → Reachable C q'
  /-- groups -/
  | groupBy {Γ : Catalog} {q q' : Query} {keys : List Expr} : Reachable C q → Γ ∈ C →
      (∀ k ∈ keys, k.Checked) → q.groupBy Γ keys = .ok q' → Reachable C q'
  /-- one more predicate on groups -/
  | filterGroups {Γ : Catalog} {q q' : Query} {p : Expr} : Reachable C q → Γ ∈ C → p.Checked →
      q.filterGroups Γ p = .ok q' → Reachable C q'

/-- **Every expression of a reachable query is checked.** -/
theorem Reachable.checked {C : Set Catalog} {q : Query} (h : q.Reachable C) :
    ∀ e ∈ q.exprs, e.Checked := by
  induction h with
  | source id => simp [exprs]
  | @filter Γ q q' p _ _ hp h ih =>
    obtain ⟨-, -, rfl, -⟩ := filter_eq_ok.1 h
    -- taking the value as a predicate adds no fragment to it
    have hp' : p.toPredicate.Checked := by rwa [Expr.Checked, Expr.raws_toPredicate]
    intro e he
    simp only [exprs, List.mem_append, List.mem_singleton] at he ih
    grind
  | @orderBy Γ q q' key descending _ _ hk h ih =>
    obtain ⟨-, rfl, -⟩ := orderBy_eq_ok.1 h
    intro e he
    simp only [exprs, List.mem_append, List.map_cons, List.map_nil, List.mem_singleton] at he ih
    grind
  | @thenBy Γ q q' key descending _ _ hk h ih =>
    obtain ⟨-, -, rfl, -⟩ := thenBy_eq_ok.1 h
    intro e he
    simp only [exprs, List.mem_append, List.map_append, List.map_cons, List.map_nil,
      List.mem_singleton] at he ih
    grind
  | take _ h ih =>
    obtain ⟨w, -, rfl⟩ := take_eq_ok.1 h
    exact ih
  | skip _ h ih =>
    obtain ⟨w, -, rfl⟩ := skip_eq_ok.1 h
    exact ih
  | dedup _ ih => exact ih
  | @select Γ q q' items _ _ hi h ih =>
    obtain ⟨-, -, -, rfl, -⟩ := select_eq_ok.1 h
    have hi' : ∀ e ∈ items.map (·.value), e.Checked := by
      intro e he
      obtain ⟨i, hmem, rfl⟩ := List.mem_map.1 he
      exact hi i hmem
    intro e he
    simp only [exprs, List.mem_append] at he ih
    grind
  | @joinWith Γ q q' kind inner outerKey innerKey _ _ ho hi h ih =>
    obtain ⟨-, -, -, -, -, -, rfl, -⟩ := joinWith_eq_ok.1 h
    intro e he
    simp only [exprs, List.mem_append, List.mem_cons, List.not_mem_nil] at he ih
    grind
  | groupBy _ _ hk h ih =>
    obtain ⟨-, -, -, -, -, -, rfl, -⟩ := groupBy_eq_ok.1 h
    intro e he
    simp only [exprs, List.mem_append] at he ih
    grind
  | @filterGroups Γ q q' p _ _ hp h ih =>
    obtain ⟨-, -, rfl, -⟩ := filterGroups_eq_ok.1 h
    have hp' : p.toPredicate.Checked := by rwa [Expr.Checked, Expr.raws_toPredicate]
    intro e he
    simp only [exprs, List.mem_append, List.mem_singleton] at he ih
    grind

end Query

/-! ## Set operations -/

/-- The tails that ordering and paging calls lead to. -/
inductive Tail.Reachable : Tail → Prop where
  /-- no ordering and no window -/
  | none : Reachable {}
  /-- a new ordering -/
  | orderBy {t t' : Tail} {column : Bytes} {descending : Bool} : Reachable t →
      t.orderBy column descending = .ok t' → Reachable t'
  /-- one more term of the ordering -/
  | thenBy {t t' : Tail} {column : Bytes} {descending : Bool} : Reachable t →
      t.thenBy column descending = .ok t' → Reachable t'
  /-- at most so many rows -/
  | take {t t' : Tail} {n : Int} : Reachable t → t.take n = .ok t' → Reachable t'
  /-- after so many rows -/
  | skip {t t' : Tail} {n : Int} : Reachable t → t.skip n = .ok t' → Reachable t'

namespace Plan

/-- The plans that successful building, composing, ordering and paging calls lead to. -/
inductive Reachable (C : Set Catalog) : Plan → Prop where
  /-- a reachable query -/
  | query {q : Query} : q.Reachable C → Reachable C (.query q)
  /-- a set operation on reachable plans, with the tail it was given -/
  | combine {op : SetOp} {l r : Plan} {t : Tail} : Reachable C l → Reachable C r → t.Reachable →
      Reachable C (.combine op l r t)

/-- The expressions of all the queries of a plan. -/
def exprs : Plan → List Expr
  | .query q => q.exprs
  | .combine _ l r _ => l.exprs ++ r.exprs

/-- **Every expression of a reachable plan is checked.** -/
theorem Reachable.checked {C : Set Catalog} {p : Plan} (h : p.Reachable C) :
    ∀ e ∈ p.exprs, e.Checked := by
  induction h with
  | query hq => exact hq.checked
  | combine _ _ _ ihl ihr =>
    intro e he
    rcases List.mem_append.1 he with he | he
    · exact ihl e he
    · exact ihr e he

end Plan

/-! ## Questions -/

/-- A question that a statement of a plan puts to the database. -/
inductive Question where
  /-- the rows -/
  | rows
  /-- the number of rows -/
  | count
  /-- are there rows? -/
  | nonempty
  /-- are there rows for which the predicate holds? -/
  | any (p : Expr)
  /-- does the predicate hold for all rows? -/
  | every (p : Expr)
  /-- the first rows -/
  | first (n : Int)

/-- The predicate of a question. -/
def Question.exprs : Question → List Expr
  | .rows | .count | .nonempty | .first _ => []
  | .any p | .every p => [p]

/-- Emits the statement for a question, where the plan has one: a set operation takes no
predicate. -/
def Plan.ask (Γ : Catalog) : Plan → Question → Option (Except TranslationError Fragment)
  | p, .rows => some (p.emit Γ)
  | p, .count => some (p.emitCount Γ)
  | p, .nonempty => some (p.emitExists Γ)
  | p, .first n => some (p.emitLimited Γ n)
  | .query q, .any p => some (q.emitAny Γ p)
  | .query q, .every p => some (q.emitEvery Γ p)
  | .combine .., .any _ | .combine .., .every _ => none

end SqlPlan
