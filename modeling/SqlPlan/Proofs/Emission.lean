import SqlPlan.Plan
import SqlPlan.Proofs.Outcome

/-!
# What emission writes

One lemma for each node of an expression, each clause of a query and each form of statement: when
emission succeeds, and what fragment it gives, put together from the fragments of the parts. Proofs
about emitted SQL go over the tree with these lemmas and leave the monad to them.
-/

namespace SqlPlan

/-- The catalog of a single table, given with the names of its properties and their columns. -/
def Catalog.single (table : Bytes) (columns : List (Bytes × Bytes)) : Catalog := fun _ =>
  { table, properties := columns.map fun (name, column) => { name, column } }

/-! ## Columns and keys -/

/-- A lookup succeeds with the property that the name finds. -/
theorem Entity.lookup_eq_ok {e : Entity} {name : Bytes} {p : Property} :
    e.lookup name = .ok p ↔ e.find? name = some p := by
  rw [lookup]
  cases e.find? name with
  | none => simp
  | some p' => simp

namespace Scope

variable {Γ : Catalog} {s : Scope} {owner : EntityId} {property : Bytes}

/-- The name of a column as a scope writes it. -/
def written (s : Scope) (e : Entity) (p : Property) : Bytes :=
  if s.qualified then e.table ++ ascii "." ++ p.column else p.column

/-- A column resolves where its entity is visible and has the property; the scope says whether the
table is written before it. -/
theorem resolve_eq_ok {n : Bytes} :
    s.resolve Γ owner property = .ok n ↔
      owner ∈ s.visible ∧ ∃ p, (Γ owner).find? property = some p ∧ n = s.written (Γ owner) p := by
  have hstep : s.resolve Γ owner property =
      if s.visible.contains owner = false then
        .error (.unboundEntity (Γ owner).table property)
      else (Γ owner).lookup property >>= fun p => pure (s.written (Γ owner) p) := by
    unfold resolve
    cases s.visible.contains owner <;> rfl
  rw [hstep, Except.guard_eq_ok, Except.bind_pure_eq_ok]
  simp only [Entity.lookup_eq_ok, Bool.not_eq_false, List.contains_iff_mem]

/-- A column is emitted where it resolves and, in a grouped scope outside aggregates, is one of the
keys. -/
theorem column_eq_ok {f : Fragment} :
    s.column Γ owner property = .ok f ↔
      (s.wantsKey && !s.hasKey owner property) = false ∧
      ∃ n, s.resolve Γ owner property = .ok n ∧ f = Fragment.ofText n := by
  have hstep : s.column Γ owner property =
      if (s.wantsKey && !s.hasKey owner property) = true then
        .error (.ungroupedColumn (Γ owner).table property)
      else s.resolve Γ owner property >>= fun n => pure (Fragment.ofText n) := by
    unfold column
    split <;> rfl
  rw [hstep, Except.guard_eq_ok, Except.bind_pure_eq_ok, Bool.not_eq_true]

/-- A member of the group key is one of the keys. -/
theorem mem_of_keyMember {index : Option Nat} {k : Expr} (h : s.keyMember index = .ok k) :
    k ∈ s.grouping.getD [] := by
  rw [keyMember] at h
  cases hg : s.grouping with
  | none => simp [hg] at h
  | some keys =>
    cases index with
    | none =>
      match keys with
      | [] => simp [hg] at h
      | [k'] => simpa [hg, eq_comm] using h
      | _ :: _ :: _ => simp [hg] at h
    | some i =>
      cases hk : keys[i]? with
      | none => simp [hg, hk] at h
      | some k' =>
        simp only [hg, hk, Except.ok.injEq] at h
        exact h ▸ List.mem_of_getElem? hk

/-- The whole of the key is its one member. -/
theorem keyMember_none_eq_ok {k : Expr} :
    s.keyMember none = .ok k ↔ s.grouping = some [k] := by
  rw [keyMember]
  cases s.grouping with
  | none => simp
  | some keys =>
    match keys with
    | [] => simp
    | [k'] => simp
    | _ :: _ :: _ => simp

/-- A member of the key is found by its position among the keys. -/
theorem keyMember_some_eq_ok {i : Nat} {k : Expr} :
    s.keyMember (some i) = .ok k ↔ ∃ keys, s.grouping = some keys ∧ keys[i]? = some k := by
  rw [keyMember]
  cases s.grouping with
  | none => simp
  | some keys => cases hk : keys[i]? <;> simp [hk]

/-- Whether a column is a key is whether it stands among the keys as a column. -/
theorem hasKey_iff :
    s.hasKey owner property = true ↔ .column owner property ∈ s.grouping.getD [] := by
  rw [hasKey, List.any_eq_true]
  constructor
  · rintro ⟨k, hk, hsame⟩
    cases k with
    | column o p =>
      obtain ⟨rfl, rfl⟩ : o = owner ∧ p = property := by simpa using hsame
      exact hk
    | _ => cases hsame
  · intro hmem
    exact ⟨_, hmem, by simp⟩

/-- An aggregate needs groups, and no other aggregate around it. -/
theorem allowAggregate_eq_ok {fn : Aggregate} :
    s.allowAggregate fn = .ok () ↔ s.grouping.isSome = true ∧ s.inAggregate = false := by
  rw [allowAggregate, Except.guard_eq_ok, Except.guard_eq_ok]
  cases s.grouping <;> simp

end Scope

/-! ## Expressions -/

namespace Expr

open Fragment

variable {Γ : Catalog} {onKey : Scope → Option Nat → Except TranslationError Fragment}
  {s : Scope} {e l r : Expr} {f : Fragment}

/-- Both operands of an arithmetic operator are parenthesised where they are compound. -/
theorem emitWith_arith_eq_ok {op : ArithOp} :
    emitWith Γ onKey s (.arith op l r) = .ok f ↔
      ∃ a b, emitWith Γ onKey s l = .ok a ∧ emitWith Γ onKey s r = .ok b ∧
        f = parensIf l.isCompound a ++ ofText (ascii " " ++ op.text ++ ascii " ") ++
          parensIf r.isCompound b :=
  Except.bind₂_pure_eq_ok

/-- The argument of a function is parenthesised in any case. -/
theorem emitWith_call_eq_ok {fn : TextFunction} :
    emitWith Γ onKey s (.call fn e) = .ok f ↔
      ∃ a, emitWith Γ onKey s e = .ok a ∧ f = ofText fn.text ++ parens a :=
  Except.bind_pure_eq_ok

/-- Counting rows is an aggregate without an argument. -/
theorem emitWith_countRows_eq_ok :
    emitWith Γ onKey s .countRows = .ok f ↔
      s.allowAggregate .count = .ok () ∧ f = ofText Aggregate.count.text ++ word "(*)" :=
  Except.bind_pure_eq_ok.trans ⟨fun ⟨_, h⟩ => h, fun h => ⟨(), h⟩⟩

/-- The argument of an aggregate is emitted in a scope that allows no other aggregate, and asks for
no key. -/
theorem emitWith_aggregate_eq_ok {fn : Aggregate} :
    emitWith Γ onKey s (.aggregate fn e) = .ok f ↔
      s.allowAggregate fn = .ok () ∧
      ∃ a, emitWith Γ onKey s.insideAggregate e = .ok a ∧ f = ofText fn.text ++ parens a := by
  refine Except.bind_eq_ok.trans ⟨?_, ?_⟩
  · rintro ⟨_, hfn, h⟩
    exact ⟨hfn, Except.bind_pure_eq_ok.1 h⟩
  · rintro ⟨hfn, h⟩
    exact ⟨(), hfn, Except.bind_pure_eq_ok.2 h⟩

/-- A null check is written behind its operand. -/
theorem emitWith_nullCheck_eq_ok {negated : Bool} :
    emitWith Γ onKey s (.nullCheck negated e) = .ok f ↔
      ∃ a, emitWith Γ onKey s e = .ok a ∧
        f = parensIf e.isCompound a ++ word (if negated then " IS NOT NULL" else " IS NULL") :=
  Except.bind_pure_eq_ok

/-- Both operands of a connective are parenthesised in any case. -/
theorem emitWith_logic_eq_ok {op : LogicOp} :
    emitWith Γ onKey s (.logic op l r) = .ok f ↔
      ∃ a b, emitWith Γ onKey s l = .ok a ∧ emitWith Γ onKey s r = .ok b ∧
        f = parens a ++ ofText (ascii " " ++ op.text ++ ascii " ") ++ parens b :=
  Except.bind₂_pure_eq_ok

/-- A comparison is written as one of two values, or as a null check of the side that is no NULL
literal; when both are, of the left one. -/
theorem emitWith_compare_eq_ok {op : CompareOp} :
    emitWith Γ onKey s (.compare op l r) = .ok f ↔
      (l.isNullLiteral = false ∧ r.isNullLiteral = false ∧
        ∃ a b, emitWith Γ onKey s l = .ok a ∧ emitWith Γ onKey s r = .ok b ∧
          f = parensIf l.isCompound a ++ ofText (ascii " " ++ op.text ++ ascii " ") ++
            parensIf r.isCompound b) ∨
      (r.isNullLiteral = true ∧ ∃ test a, nullTest op = .ok test ∧
        emitWith Γ onKey s l = .ok a ∧ f = parensIf l.isCompound a ++ test) ∨
      (l.isNullLiteral = true ∧ r.isNullLiteral = false ∧ ∃ test b, nullTest op = .ok test ∧
        emitWith Γ onKey s r = .ok b ∧ f = parensIf r.isCompound b ++ test) := by
  rw [emitWith]
  -- the right side is asked first: of two NULL literals the left one is checked
  cases hr : r.isNullLiteral with
  | true =>
    simp only [Bool.or_true, if_true]
    rw [Except.bind₂_pure_eq_ok]
    simp
  | false =>
    cases hl : l.isNullLiteral with
    | true =>
      simp only [Bool.or_false, if_true, Bool.false_eq_true, if_false]
      rw [Except.bind₂_pure_eq_ok]
      simp
    | false =>
      simp only [Bool.or_false, Bool.false_eq_true, if_false]
      rw [Except.bind₂_pure_eq_ok]
      simp

theorem emitWith_not_eq_ok :
    emitWith Γ onKey s (.not e) = .ok f ↔
      ∃ a, emitWith Γ onKey s e = .ok a ∧ f = word "NOT " ++ parens a :=
  Except.bind_pure_eq_ok

/-- The pattern of a LIKE is bound, with its wildcards in it. -/
theorem emitWith_like_eq_ok {text : Bytes} {anchor : Anchor} :
    emitWith Γ onKey s (.like e text anchor) = .ok f ↔
      ∃ a, emitWith Γ onKey s e = .ok a ∧
        f = parensIf e.isCompound a ++ word " LIKE " ++ [.bound (.text (anchor.pattern text))] :=
  Except.bind_pure_eq_ok

/-- The values of an IN are bound one by one, but for NULL, which is written. -/
theorem emitWith_oneOf_eq_ok {items : List Value} :
    emitWith Γ onKey s (.oneOf e items) = .ok f ↔
      ∃ a, emitWith Γ onKey s e = .ok a ∧
        f = parensIf e.isCompound a ++ word " IN " ++
          parens (joined (word ", ") (items.map constant)) :=
  Except.bind_pure_eq_ok

/-- A reference to a group key is emitted as the key it refers to, as an operand and outside
groups. -/
theorem emitKey_eq_ok {index : Option Nat} :
    emitKey Γ s index = .ok f ↔
      ∃ k a, s.keyMember index = .ok k ∧ emitUngrouped Γ s k = .ok a ∧
        f = parensIf k.isCompound a := by
  rw [emitKey, Except.bind_eq_ok]
  constructor
  · rintro ⟨k, hk, h⟩
    obtain ⟨a, ha, rfl⟩ := Except.bind_pure_eq_ok.1 h
    exact ⟨k, a, hk, ha, rfl⟩
  · rintro ⟨k, a, hk, ha, rfl⟩
    exact ⟨k, hk, Except.bind_pure_eq_ok.2 ⟨a, ha, rfl⟩⟩

/-- An operand is parenthesised where it is compound. -/
theorem emitOperand_eq_ok :
    emitOperand Γ s e = .ok f ↔ ∃ a, e.emit Γ s = .ok a ∧ f = parensIf e.isCompound a :=
  Except.bind_pure_eq_ok

/-! ### Group keys -/

/-- Two accounts of group keys that agree where there are these groups give the same emission. -/
theorem emitWith_congr {onKey' : Scope → Option Nat → Except TranslationError Fragment}
    (hkeys : ∀ s' : Scope, s'.grouping = s.grouping → onKey s' = onKey' s') :
    emitWith Γ onKey s e = emitWith Γ onKey' s e := by
  induction e generalizing s with
  | column | literal | countRows | raw => rfl
  | key index => exact congrFun (hkeys s rfl) index
  | truth e ih => exact ih hkeys
  | aggregate fn e ih => simp only [emitWith, ih (s := s.insideAggregate) hkeys]
  | arith op l r ihl ihr | logic op l r ihl ihr | compare op l r ihl ihr =>
    simp only [emitWith, ihl hkeys, ihr hkeys]
  | call fn e ih | nullCheck negated e ih | not e ih | like e text anchor ih | oneOf e items ih =>
    simp only [emitWith, ih hkeys]

/-- Outside groups there is no key either way. -/
theorem emitUngrouped_eq : emitUngrouped Γ s e = e.emit Γ s.ungrouped :=
  emitWith_congr fun s' hs' => funext fun i => by
    rw [emitKey, Scope.keyMember, hs']
    rfl

/-- A group key is emitted as an operand outside groups. -/
theorem emitKey_eq {index : Option Nat} :
    emitKey Γ s index = s.keyMember index >>= fun k => k.emitOperand Γ s.ungrouped := by
  simp only [emitKey, emitUngrouped_eq]
  rfl

/-- Outside groups it does not matter whether the place is inside an aggregate: there none can be
called, and columns need no key. -/
theorem emitUngrouped_inAggregate (b : Bool) :
    emitUngrouped Γ { s with inAggregate := b } e = emitUngrouped Γ s e := by
  -- the induction needs it for every scope without groups, for the argument of an aggregate has one
  -- of its own
  have hungrouped : ∀ t : Scope, t.grouping = none → ∀ b : Bool,
      emitWith Γ (fun _ _ => .error .keyOutsideGroup) { t with inAggregate := b } e =
        emitWith Γ (fun _ _ => .error .keyOutsideGroup) t e := by
    induction e with
    | column owner property =>
      intro t ht b
      simp only [emitWith, Scope.column, Scope.wantsKey, ht]
      rfl
    | literal | key | raw => exact fun _ _ _ => rfl
    | countRows =>
      intro t ht b
      simp only [emitWith, Scope.allowAggregate, ht]
      rfl
    | aggregate fn e ih =>
      intro t ht b
      simp only [emitWith, Scope.allowAggregate, ht]
      rfl
    | truth e ih => exact ih
    | arith op l r ihl ihr | logic op l r ihl ihr | compare op l r ihl ihr =>
      intro t ht b
      simp only [emitWith, ihl t ht b, ihr t ht b]
    | call fn e ih | nullCheck negated e ih | not e ih | like e text anchor ih | oneOf e items ih =>
      intro t ht b
      simp only [emitWith, ih t ht b]
  exact hungrouped s.ungrouped rfl b

/-- A group key is emitted inside an aggregate as it is outside. -/
theorem emitKey_inAggregate {index : Option Nat} (b : Bool) :
    emitKey Γ { s with inAggregate := b } index = emitKey Γ s index := by
  simp only [emitKey, emitUngrouped_inAggregate]
  rfl

end Expr

/-! ## Clauses -/

namespace Query

open Fragment

variable {Γ : Catalog} {s : Scope} {q : Query} {f : Fragment}

/-- The fragments that the members of a list are emitted as. -/
abbrev Each {α : Type} (emitOne : α → Except TranslationError Fragment) (as : List α)
    (fs : List Fragment) : Prop :=
  List.Forall₂ (fun a f => emitOne a = .ok f) as fs

/-- Every member of the list is emitted. -/
theorem Each.exists_of_mem {α : Type} {emitOne : α → Except TranslationError Fragment}
    {as : List α} {fs : List Fragment} (h : Each emitOne as fs) {a : α} (ha : a ∈ as) :
    ∃ f, emitOne a = .ok f := by
  induction h with
  | nil => cases ha
  | cons hf _ ih =>
    rcases List.mem_cons.1 ha with rfl | ha
    · exact ⟨_, hf⟩
    · exact ih ha

/-- Predicates that must all hold are parenthesised where there are several of them. -/
theorem emitAll_eq_ok {ps : List Expr} :
    emitAll Γ s ps = .ok f ↔
      ∃ fs, Each (Expr.emit Γ s) ps fs ∧
        f = joined (word " AND ") (fs.map (parensIf (1 < ps.length))) := by
  rw [emitAll, Except.bind_pure_eq_ok]
  simp only [Except.mapM_eq_ok]

theorem emitItem_eq_ok {i : Item} :
    emitItem Γ s i = .ok f ↔
      ∃ a, i.value.emitOperand Γ s = .ok a ∧ f = a ++ ofText (ascii " AS " ++ i.column) :=
  Except.bind_pure_eq_ok

theorem emitTerm_eq_ok {t : OrderTerm} :
    emitTerm Γ s t = .ok f ↔
      ∃ a, t.key.emit Γ s = .ok a ∧ f = a ++ word (if t.descending then " DESC" else " ASC") :=
  Except.bind_pure_eq_ok

/-- The result has the columns of the projection, else the group keys, else all columns. -/
theorem emitColumns_eq_ok :
    q.emitColumns Γ = .ok f ↔
      (q.isProjected = true ∧ ∃ fs, Each (emitItem Γ q.groupScope) q.items fs ∧
        f = joined (word ", ") fs) ∨
      (q.isProjected = false ∧ q.isGrouped = true ∧ ∃ fs, Each (Expr.emit Γ q.scope) q.keys fs ∧
        f = joined (word ", ") fs) ∨
      (q.isProjected = false ∧ q.isGrouped = false ∧ f = word "*") := by
  rw [emitColumns]
  cases q.isProjected with
  | true =>
    simp only [if_true, Except.bind_pure_eq_ok, Except.mapM_eq_ok]
    simp
  | false =>
    cases q.isGrouped with
    | true =>
      simp only [Bool.false_eq_true, if_false, if_true, Except.bind_pure_eq_ok, Except.mapM_eq_ok]
      simp
    | false =>
      simp only [Bool.false_eq_true, if_false, Except.pure_eq_ok]
      simp

/-- Without a join there is one table; with one, the two keys are compared as operands on rows. -/
theorem emitFrom_eq_ok :
    q.emitFrom Γ = .ok f ↔
      (q.join = none ∧ f = ofText (ascii "FROM " ++ (Γ q.source).table)) ∨
      ∃ j a b, q.join = some j ∧ j.outerKey.emitOperand Γ q.scope = .ok a ∧
        j.innerKey.emitOperand Γ q.scope = .ok b ∧
        f = ofText (ascii "FROM " ++ (Γ q.source).table) ++
          ofText (ascii " " ++ j.kind.text ++ ascii " " ++ (Γ j.inner).table ++ ascii " ON ") ++
          a ++ word " = " ++ b := by
  rw [emitFrom]
  cases q.join with
  | none => simp [Except.pure_eq_ok]
  | some j =>
    simp only [Except.bind₂_pure_eq_ok]
    simp

theorem emitWhere_eq_ok :
    q.emitWhere Γ = .ok f ↔
      (q.filters = [] ∧ f = []) ∨
      (q.filters ≠ [] ∧ ∃ a, emitAll Γ q.scope q.filters = .ok a ∧ f = word " WHERE " ++ a) := by
  rw [emitWhere]
  cases q.filters with
  | nil => simp [Except.pure_eq_ok]
  | cons p ps =>
    simp only [List.isEmpty_cons, Bool.false_eq_true, if_false, Except.bind_pure_eq_ok]
    simp

/-- There is a GROUP BY clause where there are keys, which are emitted on rows. -/
theorem emitKeys_eq_ok :
    q.emitKeys Γ = .ok f ↔
      (q.isGrouped = false ∧ f = []) ∨
      (q.isGrouped = true ∧ ∃ fs, Each (Expr.emit Γ q.scope) q.keys fs ∧
        f = word " GROUP BY " ++ joined (word ", ") fs) := by
  rw [emitKeys]
  cases q.isGrouped with
  | false => simp [Except.pure_eq_ok]
  | true =>
    simp only [Bool.not_true, Bool.false_eq_true, if_false, Except.bind_pure_eq_ok,
      Except.mapM_eq_ok]
    simp

/-- There is a HAVING clause where there are groups and conditions on them. -/
theorem emitHaving_eq_ok :
    q.emitHaving Γ = .ok f ↔
      ((q.isGrouped = false ∨ q.having = []) ∧ f = []) ∨
      (q.isGrouped = true ∧ q.having ≠ [] ∧
        ∃ a, emitAll Γ q.groupScope q.having = .ok a ∧ f = word " HAVING " ++ a) := by
  rw [emitHaving]
  cases q.isGrouped with
  | false => simp [Except.pure_eq_ok]
  | true =>
    cases q.having with
    | nil => simp [Except.pure_eq_ok]
    | cons p ps =>
      simp only [Bool.not_true, List.isEmpty_cons, Bool.or_false, Bool.false_eq_true, if_false,
        Except.bind_pure_eq_ok]
      simp

theorem emitOrder_eq_ok :
    q.emitOrder Γ = .ok f ↔
      (q.order = [] ∧ f = []) ∨
      (q.order ≠ [] ∧ ∃ fs, Each (emitTerm Γ q.groupScope) q.order fs ∧
        f = word " ORDER BY " ++ joined (word ", ") fs) := by
  rw [emitOrder]
  cases q.order with
  | nil => simp [Except.pure_eq_ok]
  | cons t ts =>
    simp only [List.isEmpty_cons, Bool.false_eq_true, if_false, Except.bind_pure_eq_ok,
      Except.mapM_eq_ok]
    simp

/-- The tables and the conditions on rows stand together. -/
theorem emitRows_eq_ok :
    q.emitRows Γ = .ok f ↔
      ∃ a b, q.emitFrom Γ = .ok a ∧ q.emitWhere Γ = .ok b ∧ f = a ++ b :=
  Except.bind₂_pure_eq_ok

/-- The clauses stand in their fixed order. -/
theorem emit_eq_ok :
    q.emit Γ = .ok f ↔
      ∃ columns rows keys having order, q.emitColumns Γ = .ok columns ∧
        q.emitRows Γ = .ok rows ∧ q.emitKeys Γ = .ok keys ∧ q.emitHaving Γ = .ok having ∧
        q.emitOrder Γ = .ok order ∧
        f = word "SELECT " ++ (if q.distinct then word "DISTINCT " else []) ++ columns ++
          word " " ++ rows ++ keys ++ having ++ order ++ ofText q.paging.text := by
  rw [emit, Except.bind_eq_ok]
  constructor
  · rintro ⟨columns, hcolumns, h⟩
    obtain ⟨rows, hrows, h⟩ := Except.bind_eq_ok.1 h
    obtain ⟨keys, hkeys, h⟩ := Except.bind_eq_ok.1 h
    obtain ⟨having, order, hhaving, horder, rfl⟩ := Except.bind₂_pure_eq_ok.1 h
    exact ⟨columns, rows, keys, having, order, hcolumns, hrows, hkeys, hhaving, horder, rfl⟩
  · rintro ⟨columns, rows, keys, having, order, hcolumns, hrows, hkeys, hhaving, horder, rfl⟩
    refine ⟨columns, hcolumns, Except.bind_eq_ok.2 ⟨rows, hrows, ?_⟩⟩
    refine Except.bind_eq_ok.2 ⟨keys, hkeys, ?_⟩
    exact Except.bind₂_pure_eq_ok.2 ⟨having, order, hhaving, horder, rfl⟩

/-! ## Questions about a query -/

/-- Rows are counted in a subquery where more than filters and a join decides about them, else
directly. -/
theorem emitCount_eq_ok :
    q.emitCount Γ = .ok f ↔
      (q.needsSubquery = true ∧ ∃ a, q.emit Γ = .ok a ∧
        f = word "SELECT COUNT(*) as count FROM (" ++ a ++ word ") AS subquery") ∨
      (q.needsSubquery = false ∧ ∃ rows, q.emitRows Γ = .ok rows ∧
        f = word "SELECT COUNT(*) as count " ++ rows) := by
  rw [emitCount]
  cases q.needsSubquery with
  | true =>
    simp only [if_true, Except.bind_pure_eq_ok]
    simp
  | false =>
    simp only [Bool.false_eq_true, if_false, Except.bind_pure_eq_ok]
    simp

/-- A test for rows selects a constant from the tables under the conditions. -/
theorem emitProbe_eq_ok {test : Bytes} :
    q.emitProbe Γ test = .ok f ↔
      ∃ rows, q.emitRows Γ = .ok rows ∧
        f = ofText (ascii "SELECT " ++ test ++ ascii "(SELECT 1 ") ++ rows ++
          word ") as result" :=
  Except.bind_pure_eq_ok

/-- The question whether there are rows is a probe, or asks a subquery. -/
theorem emitExists_eq_ok :
    q.emitExists Γ = .ok f ↔
      (q.needsSubquery = true ∧ ∃ a, q.emit Γ = .ok a ∧
        f = word "SELECT EXISTS(" ++ a ++ word ") as result") ∨
      (q.needsSubquery = false ∧ q.emitProbe Γ (ascii "EXISTS") = .ok f) := by
  rw [emitExists]
  cases q.needsSubquery with
  | true =>
    simp only [if_true, Except.bind_pure_eq_ok]
    simp
  | false => simp

/-- A predicate may be asked about where only filters and a join decide about the rows. -/
theorem emitAny_eq_ok {p : Expr} :
    q.emitAny Γ p = .ok f ↔
      q.needsSubquery = false ∧ ∃ q', q.filter Γ p = .ok q' ∧ q'.emitExists Γ = .ok f := by
  have hstep : q.emitAny Γ p =
      if q.needsSubquery = true then .error (.predicateOverDerived .any)
      else q.filter Γ p >>= fun q' => q'.emitExists Γ := by
    unfold emitAny
    split <;> rfl
  rw [hstep, Except.guard_eq_ok, Except.bind_eq_ok, Bool.not_eq_true]

/-- All rows satisfy a predicate where none satisfies its negation; the question is allowed where
that for any row is. -/
theorem emitEvery_eq_ok {p : Expr} :
    q.emitEvery Γ p = .ok f ↔
      q.needsSubquery = false ∧ ∃ q', q.filter Γ p.negate = .ok q' ∧
        q'.emitProbe Γ (ascii "NOT EXISTS") = .ok f := by
  have hstep : q.emitEvery Γ p =
      if q.needsSubquery = true then .error (.predicateOverDerived .all)
      else q.filter Γ p.negate >>= fun q' => q'.emitProbe Γ (ascii "NOT EXISTS") := by
    unfold emitEvery
    split <;> rfl
  rw [hstep, Except.guard_eq_ok, Except.bind_eq_ok, Bool.not_eq_true]

end Query

/-! ## Plans -/

namespace Plan

open Fragment

variable {Γ : Catalog} {op : SetOp} {l r : Plan} {t : Tail} {f : Fragment}

/-- The operands of a set operation stand around the operator, each wrapped if need be, with the
clauses of the end behind them. -/
theorem emit_combine_eq_ok :
    (Plan.combine op l r t).emit Γ = .ok f ↔
      ∃ a b, l.emit Γ = .ok a ∧ r.emit Γ = .ok b ∧
        f = wrap l.wrapsLeft a ++ ofText (ascii " " ++ op.text ++ ascii " ") ++
          wrap r.wrapsRight b ++ ofText t.text :=
  Except.bind₂_pure_eq_ok

/-- A set operation is always counted in a subquery. -/
theorem emitCount_combine_eq_ok :
    (Plan.combine op l r t).emitCount Γ = .ok f ↔
      ∃ a, (Plan.combine op l r t).emit Γ = .ok a ∧
        f = word "SELECT COUNT(*) as count FROM (" ++ a ++ word ") AS subquery" :=
  Except.bind_pure_eq_ok

theorem emitExists_combine_eq_ok :
    (Plan.combine op l r t).emitExists Γ = .ok f ↔
      ∃ a, (Plan.combine op l r t).emit Γ = .ok a ∧
        f = word "SELECT EXISTS(SELECT 1 FROM (" ++ a ++ word ") AS subquery) as result" :=
  Except.bind_pure_eq_ok

/-- A limit stands outside the subquery, so it does not replace one at the end of the operation. -/
theorem emitLimited_combine_eq_ok {n : Int} :
    (Plan.combine op l r t).emitLimited Γ n = .ok f ↔
      ∃ a, (Plan.combine op l r t).emit Γ = .ok a ∧
        f = word "SELECT * FROM (" ++ a ++
          ofText (ascii ") AS subquery LIMIT " ++ Decimal.intText n) :=
  Except.bind_pure_eq_ok

end Plan

end SqlPlan
